import RuleGate.Http.Header
import RuleGate.Text.Blank

/-!
# Header names

Which texts are names and which name each of them is. Letter case does not count: texts that differ in nothing
else are the same name, and the name itself is written in lower case.
-/

namespace RuleGate.HeaderName

variable {c : Char} {s : String} {t : List Char} {name : HeaderName}

theorem toNat_lt_of_isTokenChar (h : isTokenChar c = true) : c.toNat < 128 := by
  simp only [isTokenChar, Bool.or_eq_true, List.contains_iff_mem, beq_iff_eq] at h
  rcases h with (hletter | hmark) | rfl
  · have hlast : c.toNat ≤ 122 := by
      rcases (Bool.or_eq_true _ _).mp hletter with halpha | hdigit
      · rcases (Bool.or_eq_true _ _).mp halpha with hupper | hlower
        · have hrange : 65 ≤ c.toNat ∧ c.toNat ≤ 90 := of_decide_eq_true hupper
          omega
        · exact of_decide_eq_true ((Bool.and_eq_true _ _).mp hlower).2
      · have hhigh : c.toNat ≤ 57 := of_decide_eq_true ((Bool.and_eq_true _ _).mp hdigit).2
        omega
    omega
  · have hmarks : "!#$%&'*+-.^_|~".toList.all (fun c ↦ decide (c.toNat < 128)) = true := by decide
    exact of_decide_eq_true (List.all_eq_true.mp hmarks c hmark)
  · decide

theorem isBlank_of_isTokenChar (h : isTokenChar c = true) : Text.isBlank c = false := by
  have hall : ∀ n < 128, isTokenChar (Char.ofNat n) = true → Text.isBlank (Char.ofNat n) = false := by decide
  have hc := hall c.toNat (toNat_lt_of_isTokenChar h)
  rw [Char.ofNat_toNat] at hc
  exact hc h

theorem isTokenChar_toLower (c : Char) : isTokenChar c.toLower = isTokenChar c := by
  by_cases hascii : c.toNat < 128
  · have hall : ∀ n < 128, isTokenChar (Char.ofNat n).toLower = isTokenChar (Char.ofNat n) := by decide
    have hc := hall c.toNat hascii
    rwa [Char.ofNat_toNat] at hc
  · have hsame : c.toLower = c := by
      apply dif_neg
      rintro ⟨-, hhigh⟩
      have hcode : c.toNat ≤ 90 := UInt32.le_iff_toNat_le.mp hhigh
      omega
    rw [hsame]

/-- A text is read as a name if it is a token that is not too long. -/
theorem parse?_eq_some_iff :
    parse? s = some name ↔ s ≠ "" ∧ s.length ≤ 65535 ∧ (∀ c ∈ s.toList, isTokenChar c = true) ∧
      name.text.toList = Text.toAsciiLower s.toList := by
  obtain ⟨text⟩ := name
  unfold parse?
  constructor
  · intro h
    split at h
    · cases h
    · next hlength =>
      rw [not_or, String.isEmpty_iff, Nat.not_lt] at hlength
      split at h
      · next hchars =>
        cases h
        exact ⟨hlength.1, hlength.2, List.all_eq_true.mp hchars, String.toList_ofList⟩
      · cases h
  · rintro ⟨hne, hlength, hchars, htext⟩
    have hfits : ¬ (s.isEmpty = true ∨ 65535 < s.length) := by
      rw [not_or, String.isEmpty_iff, Nat.not_lt]
      exact ⟨hne, hlength⟩
    rw [if_neg hfits, if_pos (List.all_eq_true.mpr hchars), ← htext, String.ofList_toList]

theorem text_ne_empty (h : parse? s = some name) : name.text ≠ "" := by
  obtain ⟨hne, -, -, htext⟩ := parse?_eq_some_iff.mp h
  intro hempty
  rw [hempty] at htext
  exact hne (String.toList_eq_nil_iff.mp (List.map_eq_nil_iff.mp htext.symm))

/-- Texts that differ only in letter case are read as the same name. -/
theorem parse?_of_lower (h : parse? s = some name) (hlower : Text.toAsciiLower t = Text.toAsciiLower s.toList) :
    parse? (String.ofList t) = some name := by
  obtain ⟨hne, hlength, hchars, htext⟩ := parse?_eq_some_iff.mp h
  have hsame : t.length = s.length :=
    calc t.length = (Text.toAsciiLower t).length := by rw [Text.toAsciiLower, List.length_map]
      _ = (Text.toAsciiLower s.toList).length := by rw [hlower]
      _ = s.length := by rw [Text.toAsciiLower, List.length_map, String.length_toList]
  refine parse?_eq_some_iff.mpr ⟨?_, ?_, ?_, ?_⟩
  · intro hempty
    have ht : t = [] := by rw [← String.toList_ofList (l := t), hempty]; rfl
    rw [ht] at hsame
    exact hne (String.length_eq_zero_iff.mp hsame.symm)
  · rw [String.length_ofList, hsame]
    exact hlength
  · intro c hc
    rw [String.toList_ofList] at hc
    have hmem : c.toLower ∈ Text.toAsciiLower s.toList := hlower ▸ List.mem_map_of_mem hc
    obtain ⟨d, hd, hcase⟩ := List.mem_map.mp hmem
    rw [← isTokenChar_toLower, ← hcase, isTokenChar_toLower]
    exact hchars d hd
  · rw [String.toList_ofList, hlower, htext]

end RuleGate.HeaderName
