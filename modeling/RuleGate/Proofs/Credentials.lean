import RuleGate.Credentials
import RuleGate.Proofs.Base64
import RuleGate.Proofs.Text.Trim

/-!
# Credentials that are written and read back

A header carries credentials if it is the scheme word in some letter case, a space, and the Base64 of the user
name, a colon and the password, with white space around both. Reading gives the credentials that the header
carries and no others, so a user name and a password are read as they were written: an empty one, a password with
colons and text of any script included.
-/

namespace RuleGate.BasicCredentials

/-- User name, colon and password. -/
def text (c : BasicCredentials) : List Char := c.user.toList ++ ':' :: c.password.toList

/-- The credentials as a header has them behind the scheme. -/
def encoded (c : BasicCredentials) : List Char := Base64.standard.encode (Text.utf8Encode c.text)

/-- The word `Basic` in some letter case. -/
def IsScheme (s : List Char) : Prop := Text.toAsciiLower s = "basic".toList

/-- The header is the scheme, a space and the encoded credentials, up to white space. -/
def IsCarriedBy (c : BasicCredentials) (header : String) : Prop :=
  ∃ front scheme between back, header.toList = front ++ scheme ++ ' ' :: between ++ c.encoded ++ back ∧
    IsScheme scheme ∧ (front ++ between ++ back).all Text.isBlank = true

variable {c : BasicCredentials} {scheme s : List Char}

/-! ## The parts of a header -/

theorem toLower_of_isBlank {d : Char} (h : Text.isBlank d = true) : d.toLower = d := by
  have hupper : ¬ (d.val ≥ 'A'.val ∧ d.val ≤ 'Z'.val) := by
    rintro ⟨hlow, hhigh⟩
    have hlow : 65 ≤ d.toNat := hlow
    have hhigh : d.toNat ≤ 90 := hhigh
    simp only [Text.isBlank, Bool.or_eq_true, Bool.and_eq_true, decide_eq_true_eq, beq_iff_eq] at h
    omega
  exact dif_neg hupper

theorem IsScheme.isBlank_eq (h : IsScheme scheme) : ∀ d ∈ scheme, Text.isBlank d = false := by
  intro d hd
  have hletters : "basic".toList.any Text.isBlank = false := rfl
  have hmem : d.toLower ∈ "basic".toList := h ▸ List.mem_map_of_mem hd
  by_contra hblank
  rw [Bool.not_eq_false] at hblank
  rw [toLower_of_isBlank hblank] at hmem
  exact List.any_eq_false.mp hletters d hmem hblank

theorem IsScheme.ne_nil (h : IsScheme scheme) : scheme ≠ [] := by
  rintro rfl
  cases h

theorem IsScheme.not_mem_space (h : IsScheme scheme) : ' ' ∉ scheme :=
  fun hmem ↦ absurd (h.isBlank_eq ' ' hmem) (by decide)

theorem encoded_isBlank_eq (c : BasicCredentials) : ∀ d ∈ c.encoded, Text.isBlank d = false := by
  have hdigits : Base64.standard.digits.any Text.isBlank = false := rfl
  intro d hd
  rcases Base64.standard_isLawful.mem_encode hd with hd | rfl
  · exact Bool.eq_false_iff.mpr (List.any_eq_false.mp hdigits d hd)
  · rfl

theorem encoded_ne_nil (c : BasicCredentials) : c.encoded ≠ [] := by
  refine Base64.encode_ne_nil fun hnil ↦ ?_
  have hdecoded := Text.utf8Decode?_encode c.text
  rw [hnil] at hdecoded
  have htext : c.text = [] := (Option.some.inj hdecoded).symm
  simp [text] at htext

theorem ofText?_eq_some_iff : ofText? s = some c ↔ ':' ∉ c.user.toList ∧ s = c.text := by
  constructor
  · intro h
    obtain ⟨⟨user, password⟩, hcut, rfl⟩ := Option.map_eq_some_iff.mp h
    obtain ⟨rfl, huser⟩ := Text.cut?_eq_some hcut
    refine ⟨by rwa [String.toList_ofList], ?_⟩
    rw [text, String.toList_ofList, String.toList_ofList]
  · rintro ⟨huser, rfl⟩
    rw [ofText?, text, Text.cut?_append huser, Option.map_some]
    dsimp only
    rw [String.ofList_toList, String.ofList_toList]

/-- The Base64 of a text is read as the credentials that the text spells. -/
theorem decode_eq_some_iff :
    (Base64.standard.decode? s).bind (fun bytes ↦ (Text.utf8Decode? bytes).bind ofText?) = some c ↔
      ':' ∉ c.user.toList ∧ s = c.encoded := by
  constructor
  · intro h
    obtain ⟨bytes, hbytes, h⟩ := Option.bind_eq_some_iff.mp h
    obtain ⟨t, ht, h⟩ := Option.bind_eq_some_iff.mp h
    obtain ⟨huser, rfl⟩ := ofText?_eq_some_iff.mp h
    refine ⟨huser, ?_⟩
    rw [encoded, Text.utf8Encode_of_decode? ht]
    exact Base64.standard_isLawful.decode?_eq_some_iff.mp hbytes
  · rintro ⟨huser, rfl⟩
    rw [encoded, Base64.standard_isLawful.decode?_encode, Option.bind_some, Text.utf8Decode?_encode,
      Option.bind_some]
    exact ofText?_eq_some_iff.mpr ⟨huser, rfl⟩

/-! ## Whole headers -/

theorem parse?_eq_some_iff {header : String} : parse? header = some c ↔
    ∃ scheme rest, Text.trim header.toList = scheme ++ ' ' :: rest ∧ IsScheme scheme ∧
      ':' ∉ c.user.toList ∧ Text.trim rest = c.encoded := by
  constructor
  · intro h
    obtain ⟨⟨scheme, rest⟩, hcut, h⟩ := Option.bind_eq_some_iff.mp h
    obtain ⟨hheader, -⟩ := Text.cut?_eq_some hcut
    dsimp only at h
    split at h
    · next hscheme =>
      exact ⟨scheme, rest, hheader, eq_of_beq hscheme, decode_eq_some_iff.mp h⟩
    · cases h
  · rintro ⟨scheme, rest, hheader, hscheme, hrest⟩
    have hword : Text.eqIgnoreAsciiCase scheme "basic".toList = true := by
      rw [Text.eqIgnoreAsciiCase, beq_iff_eq]
      exact hscheme
    rw [parse?, hheader, Text.cut?_append hscheme.not_mem_space]
    simp only [Option.bind_eq_bind, Option.bind_some, if_pos hword]
    exact decode_eq_some_iff.mpr hrest

/-- White space around a header and behind its scheme is trimmed, and nothing else is. -/
theorem trim_carried (hscheme : IsScheme scheme) {front between back : List Char}
    (hblank : ∀ d ∈ front ++ between ++ back, Text.isBlank d = true) :
    Text.trim (front ++ scheme ++ ' ' :: between ++ c.encoded ++ back) =
        scheme ++ ' ' :: (between ++ c.encoded) ∧
      Text.trim (between ++ c.encoded) = c.encoded := by
  simp only [List.forall_mem_append] at hblank
  obtain ⟨⟨hfront, hbetween⟩, hback⟩ := hblank
  have hends : Text.HasEnds Text.isBlank (scheme ++ ' ' :: between ++ c.encoded) :=
    (Text.HasEnds.of_all hscheme.ne_nil hscheme.isBlank_eq).append
      (Text.HasEnds.of_all c.encoded_ne_nil c.encoded_isBlank_eq) (' ' :: between)
  constructor
  · calc Text.trim (front ++ scheme ++ ' ' :: between ++ c.encoded ++ back)
        = Text.trim (front ++ (scheme ++ ' ' :: between ++ c.encoded) ++ back) := by simp
      _ = Text.trim (scheme ++ ' ' :: between ++ c.encoded) := Text.dropBothWhile_append hfront hback _
      _ = scheme ++ ' ' :: between ++ c.encoded := hends.dropBothWhile_eq
      _ = scheme ++ ' ' :: (between ++ c.encoded) := by simp
  · calc Text.trim (between ++ c.encoded)
        = Text.trim (between ++ c.encoded ++ []) := by rw [List.append_nil]
      _ = Text.trim c.encoded := Text.dropBothWhile_append hbetween (by simp) _
      _ = c.encoded := Text.dropBothWhile_eq_self c.encoded_isBlank_eq

/-- Reading a header gives some credentials exactly if the user name holds no colon and the header carries them: the
scheme in any letter case, a space and the Base64 of both, with any white space around. -/
theorem credentials_are_read_as_written (header : String) (c : BasicCredentials) :
    parse? header = some c ↔ ':' ∉ c.user.toList ∧ c.IsCarriedBy header := by
  rw [parse?_eq_some_iff]
  constructor
  · rintro ⟨scheme, rest, hheader, hscheme, huser, hrest⟩
    obtain ⟨front, back, houter, hfront, hback⟩ := Text.exists_dropped Text.isBlank header.toList
    obtain ⟨between, tail, hinner, hbetween, htail⟩ := Text.exists_dropped Text.isBlank rest
    refine ⟨huser, front, scheme, between, tail ++ back, ?_, hscheme, ?_⟩
    · rw [houter, show Text.dropBothWhile Text.isBlank header.toList = _ from hheader, hinner,
        show Text.dropBothWhile Text.isBlank rest = _ from hrest]
      simp
    · simp only [List.all_eq_true, List.forall_mem_append]
      exact ⟨⟨hfront, hbetween⟩, htail, hback⟩
  · rintro ⟨huser, front, scheme, between, back, hheader, hscheme, hblank⟩
    obtain ⟨htrim, hrest⟩ := trim_carried (c := c) hscheme (List.all_eq_true.mp hblank)
    exact ⟨scheme, between ++ c.encoded, hheader ▸ htrim, hscheme, huser, hrest⟩

example : (mk "user" "pa:ss").encoded = "dXNlcjpwYTpzcw==".toList := by decide +kernel

end RuleGate.BasicCredentials
