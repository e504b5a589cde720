import RuleGate.Proofs.Http.Target

/-!
# Targets in absolute form

A scheme and an authority that were read, with a rooted path and a query written behind them, are read again as
these four parts: none of their characters goes over to another part. Only the length of the whole text can
keep it from being read.
-/

namespace RuleGate.Uri

/-! ## Schemes -/

/-- A scheme in the way that schemes are kept. -/
structure IsScheme (scheme : String) : Prop where
  chars : ∀ c ∈ scheme.toList, isSchemeChar c = true
  short : scheme.toList.length ≤ 64
  http : Text.toAsciiLower scheme.toList = "http".toList → scheme = "http"
  https : Text.toAsciiLower scheme.toList = "https".toList → scheme = "https"

theorem isScheme_http : IsScheme "http" where
  chars := List.all_eq_true.mp (by decide)
  short := by decide
  http := fun _ ↦ rfl
  https := by decide

theorem isScheme_https : IsScheme "https" where
  chars := List.all_eq_true.mp (by decide)
  short := by decide
  http := by decide
  https := fun _ ↦ rfl

theorem toLower_ne_colon {c : Char} (h : isSchemeChar c = true) : c.toLower ≠ ':' := by
  intro hlower
  unfold Char.toLower at hlower
  split at hlower
  · next hupper =>
    -- the lower-case letters stand behind the colon
    have hcode := congrArg (fun d : Char ↦ d.val.toNat) hlower
    rw [ge_iff_le, UInt32.le_iff_toNat_le, UInt32.le_iff_toNat_le] at hupper
    simp only [UInt32.toNat_add, Char.reduceVal, UInt32.reduceSub, UInt32.reduceToNat] at hcode hupper
    omega
  · subst hlower
    exact absurd h (by decide)

/-- In lower case a text begins with the mark of a special scheme exactly if its scheme is that one. -/
theorem dropPrefix?_toAsciiLower {name : List Char} (hname : ∀ c ∈ name, isSchemeChar c = true)
    {special : List Char} (hspecial : ':' ∉ special) (rest : List Char) :
    Text.dropPrefix? (special ++ "://".toList) (Text.toAsciiLower (name ++ "://".toList ++ rest)) =
      if Text.toAsciiLower name = special then some (Text.toAsciiLower rest) else none := by
  have hlower : Text.toAsciiLower (name ++ "://".toList ++ rest) =
      Text.toAsciiLower name ++ "://".toList ++ Text.toAsciiLower rest := by
    simp [Text.toAsciiLower]
  rw [hlower]
  split
  · next heq => rw [heq, Text.dropPrefix?_append]
  · next hne =>
    have hcolon : ':' ∉ Text.toAsciiLower name := by
      intro hmem
      obtain ⟨c, hc, hlower⟩ := List.mem_map.mp hmem
      exact toLower_ne_colon (hname c hc) hlower
    cases hdrop : Text.dropPrefix? (special ++ "://".toList)
        (Text.toAsciiLower name ++ "://".toList ++ Text.toAsciiLower rest) with
    | none => rfl
    | some back =>
      have htext : Text.toAsciiLower name ++ ':' :: '/' :: '/' :: Text.toAsciiLower rest =
          special ++ ':' :: '/' :: '/' :: back := by
        simpa using Text.dropPrefix?_eq_some hdrop
      have hfront := congrArg (Text.cut? ':') htext
      rw [Text.cut?_append hcolon, Text.cut?_append hspecial] at hfront
      exact absurd (Prod.mk.inj (Option.some.inj hfront)).1 hne

/-- A scheme is read as it is kept. -/
theorem parseScheme_append {scheme : String} (h : IsScheme scheme) {rest : List Char} (hrest : rest ≠ []) :
    parseScheme (scheme.toList ++ "://".toList ++ rest) = .ok (some (scheme, rest)) := by
  by_cases hhttp : scheme = "http"
  · subst hhttp
    rfl
  by_cases hhttps : scheme = "https"
  · subst hhttps
    rfl
  have hfirst := dropPrefix?_toAsciiLower h.chars (show ':' ∉ "http".toList by decide) rest
  have hsecond := dropPrefix?_toAsciiLower h.chars (show ':' ∉ "https".toList by decide) rest
  rw [if_neg (mt h.http hhttp)] at hfirst
  rw [if_neg (mt h.https hhttps)] at hsecond
  have hname : (scheme.toList ++ "://".toList ++ rest).takeWhile isSchemeChar = scheme.toList := by
    rw [List.append_assoc, List.takeWhile_append_of_pos h.chars]
    exact List.append_nil _
  have hlong : 3 < (scheme.toList ++ "://".toList ++ rest).length := by
    have hsome := List.length_pos_iff.mpr hrest
    have hmark : "://".toList.length = 3 := rfl
    rw [List.length_append, List.length_append, hmark]
    omega
  have hshort := h.short
  unfold parseScheme
  dsimp only
  rw [show "http://".toList = "http".toList ++ "://".toList from rfl, hfirst,
    show "https://".toList = "https".toList ++ "://".toList from rfl, hsecond, hname]
  dsimp only
  rw [List.append_assoc, List.drop_left, Text.dropPrefix?_append, ← List.append_assoc]
  dsimp only
  rw [if_pos hlong, if_neg (Nat.not_lt.mpr hshort), String.ofList_toList]

/-- A name is kept as a scheme if the text that it begins is not one of a special scheme. -/
theorem isScheme_of_name {name : List Char} (hchars : ∀ c ∈ name, isSchemeChar c = true)
    (hshort : name.length ≤ 64) (rest : List Char)
    (hother : ∀ special ∈ ["http".toList, "https".toList],
      Text.dropPrefix? (special ++ "://".toList) (Text.toAsciiLower (name ++ "://".toList ++ rest)) = none) :
    IsScheme (String.ofList name) := by
  have hcolon : ∀ special ∈ ["http".toList, "https".toList], ':' ∉ special := by decide
  have hne : ∀ special ∈ ["http".toList, "https".toList], Text.toAsciiLower name ≠ special := by
    intro special hmem heq
    have hfound := dropPrefix?_toAsciiLower hchars (hcolon special hmem) rest
    rw [if_pos heq, hother special hmem] at hfound
    cases hfound
  rw [← String.toList_ofList (l := name)] at hchars hshort hne
  exact ⟨hchars, hshort, fun h ↦ absurd h (hne _ (.head _)), fun h ↦ absurd h (hne _ (.tail _ (.head _)))⟩

theorem isScheme_of_parseScheme {s rest : List Char} {scheme : String}
    (h : parseScheme s = .ok (some (scheme, rest))) : IsScheme scheme := by
  have hchars := chars_of_parseScheme h
  unfold parseScheme at h
  dsimp only at h
  split at h
  · cases h
    exact isScheme_http
  · cases h
    exact isScheme_https
  · next hnotHttp hnotHttps =>
    split at h
    · cases h
    · next back hback =>
      split at h
      · split at h
        · cases h
        · next hshort =>
          cases h
          have hs : s.takeWhile isSchemeChar ++ "://".toList ++ rest = s := by
            rw [List.append_assoc, ← Text.dropPrefix?_eq_some hback]
            exact List.prefix_iff_eq_append.mp (List.takeWhile_prefix _)
          rw [String.toList_ofList] at hchars
          refine isScheme_of_name hchars (Nat.not_lt.mp hshort) rest ?_
          rw [hs]
          exact List.forall_mem_cons.mpr ⟨hnotHttp, List.forall_mem_singleton.mpr hnotHttps⟩
      · cases h

/-! ## Authorities -/

/-- An authority that is read as such, up to whatever ends it. -/
structure IsAuthorityText (authority : String) : Prop where
  ne_empty : authority ≠ ""
  no_end : ∀ c ∈ authority.toList, endsAuthority c = false
  accepted : ∃ scan, authority.toList.foldlM AuthorityScan.step {} = .ok scan ∧ scan.accepts = true

theorem parseAuthority_append {authority : String} (h : IsAuthorityText authority) (rest : List Char) :
    parseAuthority (authority.toList ++ '/' :: rest) = .ok (authority.toList, '/' :: rest) := by
  obtain ⟨scan, hscan, haccepts⟩ := h.accepted
  have hfront : (authority.toList ++ '/' :: rest).takeWhile (fun c ↦ !endsAuthority c) = authority.toList := by
    rw [List.takeWhile_append_of_pos fun c hc ↦ by rw [h.no_end c hc, Bool.not_false]]
    exact List.append_nil _
  unfold parseAuthority
  dsimp only
  rw [hfront]
  refine bind_eq_ok.mpr ⟨scan, hscan, ?_⟩
  rw [if_pos haccepts, List.drop_left]

/-- A text is cut where its authority ends, if the authority is accepted. -/
theorem parseAuthority_ok {s authority rest : List Char} (h : parseAuthority s = .ok (authority, rest)) :
    authority = s.takeWhile (fun c ↦ !endsAuthority c) ∧ rest = s.dropWhile (fun c ↦ !endsAuthority c) ∧
      ∃ scan, authority.foldlM AuthorityScan.step {} = .ok scan ∧ scan.accepts = true := by
  obtain ⟨scan, hscan, h⟩ := bind_eq_ok.mp h
  split at h
  · next haccepts =>
    cases h
    refine ⟨rfl, ?_, scan, hscan, haccepts⟩
    have hcut := List.prefix_iff_eq_append.mp (List.takeWhile_prefix (l := s) fun c ↦ !endsAuthority c)
    exact List.append_cancel_left (hcut.trans List.takeWhile_append_dropWhile.symm)
  · cases h

theorem isAuthorityText_of_parseAuthority {s authority rest : List Char}
    (h : parseAuthority s = .ok (authority, rest)) (hne : authority ≠ []) :
    IsAuthorityText (String.ofList authority) := by
  obtain ⟨hauthority, -, haccepted⟩ := parseAuthority_ok h
  refine ⟨fun hempty ↦ ?_, fun c hc ↦ ?_, ?_⟩
  · have hnil := congrArg String.toList hempty
    rw [String.toList_ofList] at hnil
    exact hne (hnil.trans rfl)
  · rw [String.toList_ofList, hauthority] at hc
    have hgoes := List.all_eq_true.mp List.all_takeWhile c hc
    rwa [Bool.not_eq_true'] at hgoes
  · rwa [String.toList_ofList]

/-- What follows an authority ends it. -/
theorem endsAuthority_of_parseAuthority {s authority rest : List Char}
    (h : parseAuthority s = .ok (authority, rest)) : ∀ c ∈ rest.head?, endsAuthority c = true := by
  obtain ⟨-, rfl, -⟩ := parseAuthority_ok h
  intro c hc
  have hstops := List.head?_dropWhile_not (fun c ↦ !endsAuthority c) s
  rw [Option.mem_def.mp hc] at hstops
  simpa using hstops

/-- The path behind an authority is empty or rooted. -/
theorem path_behind_authority {s : List Char} {pq : PathQuery} (h : PathQuery.parseTail s = .ok pq)
    (hends : ∀ c ∈ s.head?, endsAuthority c = true) : pq.path = "" ∨ pq.path.startsWith "/" = true := by
  rw [PathQuery.parseTail_ok h]
  cases s with
  | nil => exact .inl rfl
  | cons c s =>
    have hc := hends c rfl
    simp only [endsAuthority, Bool.or_eq_true, beq_iff_eq] at hc
    rcases hc with (rfl | rfl) | rfl
    · refine .inr (Text.startsWith_iff.mpr ⟨String.ofList (Text.before '?' (Text.before '#' s)), ?_⟩)
      rw [show "/" = String.ofList ['/'] from rfl, ← String.ofList_append]
      rfl
    · exact .inl rfl
    · exact .inl rfl

/-! ## Parts of targets -/

/-- The parts of the target are such as are read, and the path behind an authority keeps apart from it. -/
structure Legible (u : Uri) : Prop where
  scheme : ∀ s, u.scheme = some s → IsScheme s
  authority : ∀ a, u.authority = some a → IsAuthorityText a
  path : ∀ a, u.authority = some a → u.path = "" ∨ u.path.startsWith "/" = true

/-- Every target that was read is legible. -/
theorem legible_of_ofString {text : String} {u : Uri} (h : ofString text = .ok u) : u.Legible := by
  unfold ofString at h
  generalize text.toList = s at h
  unfold parse at h
  split at h
  · cases h
  split at h
  · cases h
  · cases h
    exact ⟨nofun, nofun, nofun⟩
  · obtain ⟨pq, htail, h⟩ := bind_eq_ok.mp h
    cases h
    exact ⟨nofun, nofun, nofun⟩
  · next hnil _ _ =>
    obtain ⟨scheme, hscheme, h⟩ := bind_eq_ok.mp h
    dsimp only at h
    split at h
    · obtain ⟨⟨authority, rest⟩, hauthority, h⟩ := bind_eq_ok.mp h
      dsimp only at h
      split at h
      · next hrest =>
        cases h
        obtain ⟨hfront, hback, -⟩ := parseAuthority_ok hauthority
        have hne : authority ≠ [] := by
          rintro rfl
          refine hnil ?_
          rw [← List.takeWhile_append_dropWhile (p := fun c ↦ !endsAuthority c) (l := s), ← hfront, ← hback,
            List.isEmpty_iff.mp hrest]
          rfl
        refine ⟨nofun, ?_, fun _ _ ↦ .inl rfl⟩
        rintro _ ⟨⟩
        exact isAuthorityText_of_parseAuthority hauthority hne
      · split at h <;> cases h
    · obtain ⟨⟨authority, rest⟩, hauthority, h⟩ := bind_eq_ok.mp h
      dsimp only at h
      split at h
      · cases h
      split at h
      · cases h
      · next hne =>
        obtain ⟨pq, htail, h⟩ := bind_eq_ok.mp h
        cases h
        refine ⟨?_, ?_, fun _ _ ↦ ?_⟩
        · rintro _ ⟨⟩
          exact isScheme_of_parseScheme hscheme
        · rintro _ ⟨⟩
          exact isAuthorityText_of_parseAuthority hauthority (mt List.isEmpty_iff.mpr hne)
        · rw [path_eq _ (.inl rfl)]
          split
          · exact .inr (by decide +kernel)
          · next hpath => exact .inr ((path_behind_authority htail
              (endsAuthority_of_parseAuthority hauthority)).resolve_left hpath)

/-! ## Reading what was written -/

/-- The text of a target in absolute form. -/
def absoluteText (scheme authority path : String) (query : Option String) : String :=
  scheme ++ "://" ++ authority ++ PathQuery.written path query

variable {scheme authority path : String} {query : Option String}

theorem toList_absoluteText (scheme authority path : String) (query : Option String) :
    (absoluteText scheme authority path query).toList =
      scheme.toList ++ "://".toList ++ (authority.toList ++ (PathQuery.written path query).toList) := by
  simp only [absoluteText, String.toList_append, List.append_assoc]

theorem written_slash (hslash : path.startsWith "/" = true) (query : Option String) :
    ∃ back, (PathQuery.written path query).toList = '/' :: back := by
  obtain ⟨rest, rfl⟩ := Text.startsWith_iff.mp hslash
  cases query <;> exact ⟨_, by simp only [PathQuery.written, String.toList_append]; rfl⟩

/-- A text that does not begin as a path is read part by part. -/
theorem parse_parts {s afterScheme front rest : List Char} {pq : PathQuery} (hpath : s.head? ≠ some '/')
    (hlong : 1 < s.length) (hscheme : parseScheme s = .ok (some (scheme, afterScheme)))
    (hauthority : parseAuthority afterScheme = .ok (front, rest)) (hne : front ≠ [])
    (htail : PathQuery.parseTail rest = .ok pq) :
    parse s =
      if (Text.utf8Encode s).length ≤ PathQuery.maxLength then .ok ⟨some scheme, some (String.ofList front), pq⟩
      else .error .tooLong := by
  have hafter : afterScheme ≠ [] := by
    rintro rfl
    exact hne (parseAuthority_ok hauthority).1
  unfold parse
  by_cases hfits : (Text.utf8Encode s).length ≤ PathQuery.maxLength
  · rw [if_pos hfits, if_neg (Nat.not_lt.mpr hfits)]
    split
    · simp at hlong
    · simp at hlong
    · simp at hpath
    · refine bind_eq_ok.mpr ⟨some (scheme, afterScheme), hscheme, ?_⟩
      refine bind_eq_ok.mpr ⟨(front, rest), hauthority, ?_⟩
      dsimp only
      rw [if_neg (mt List.isEmpty_iff.mp hafter), if_neg (mt List.isEmpty_iff.mp hne)]
      exact bind_eq_ok.mpr ⟨pq, htail, rfl⟩
  · rw [if_neg hfits, if_pos (Nat.not_le.mp hfits)]

theorem head?_ne_slash_of_scheme (h : IsScheme scheme) (rest : List Char) :
    (scheme.toList ++ "://".toList ++ rest).head? ≠ some '/' := by
  cases hchars : scheme.toList with
  | nil => exact nofun
  | cons c cs =>
    have hc := h.chars c (by rw [hchars]; exact .head _)
    rintro hslash
    obtain rfl := Option.some.inj hslash
    exact absurd hc (by decide)

/-- The parts that a target in absolute form is written from are those it is read as. -/
theorem ofString_absoluteText (hscheme : IsScheme scheme) (hauthority : IsAuthorityText authority)
    (hchars : PathQuery.HasChars path query) (hslash : path.startsWith "/" = true) :
    ofString (absoluteText scheme authority path query) =
      if (Text.utf8Encode (absoluteText scheme authority path query).toList).length ≤ PathQuery.maxLength then
        .ok ⟨some scheme, some authority, ⟨path, query⟩⟩
      else .error .tooLong := by
  obtain ⟨back, hback⟩ := written_slash hslash query
  have hafter : authority.toList ++ '/' :: back ≠ [] := by simp
  have htail := PathQuery.parseTail_written hchars
  have hne : authority.toList ≠ [] := fun hnil ↦ hauthority.ne_empty (String.toList_inj.mp (hnil.trans rfl))
  rw [ofString, toList_absoluteText, hback]
  rw [hback] at htail
  rw [parse_parts (head?_ne_slash_of_scheme hscheme _) ?_ (parseScheme_append hscheme hafter)
    (parseAuthority_append hauthority back) hne htail, String.ofList_toList]
  have hmark : "://".toList.length = 3 := rfl
  simp only [List.length_append, hmark]
  omega

end RuleGate.Uri
