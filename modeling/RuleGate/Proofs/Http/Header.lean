import Mathlib.Data.List.Basic
import RuleGate.Http.Header
import RuleGate.Proofs.Percent
import RuleGate.Proofs.Text.Decoding
import RuleGate.Text.Blank

/-!
# The values of a header name

Which texts are values, which characters the text of a value has, what each change to a header map does to the
values of the name it is about, and that it leaves the values of all other names alone.
-/

namespace RuleGate

namespace HeaderValue

/-- A space or a visible ASCII character. -/
def IsVisible (c : Char) : Prop := 32 ≤ c.toNat ∧ c.toNat < 127

instance (c : Char) : Decidable (IsVisible c) := inferInstanceAs (Decidable (_ ∧ _))

theorem ofString?_of_visible {s : String} (h : ∀ c ∈ s.toList, IsVisible c) :
    ofString? s = some (Bytes.ofString s) := by
  have hbytes : (Bytes.ofString s).all isValueByte = true := by
    rw [List.all_eq_true]
    intro b hb
    obtain ⟨c, hc, hbc⟩ := List.mem_flatMap.mp hb
    obtain ⟨hlow, hhigh⟩ : 32 ≤ c.val.toNat ∧ c.val.toNat < 127 := h c hc
    rw [String.utf8EncodeChar, if_pos (by omega), List.mem_singleton] at hbc
    have hbyte : b.toNat = c.val.toNat := by
      rw [hbc, UInt8.toNat_ofNat']
      omega
    have hfirst : (32 : UInt8) ≤ b := by
      rw [UInt8.le_iff_toNat_le, hbyte]
      exact hlow
    have hdelete : b ≠ 127 := by
      intro h127
      have hdel : b.toNat = 127 := congrArg UInt8.toNat h127
      omega
    simp [isValueByte, hfirst, hdelete]
  rw [ofString?, ofBytes?, if_pos hbytes]

theorem ofString?_eq_some {s : String} {bytes : Bytes} (h : ofString? s = some bytes) :
    bytes = Bytes.ofString s := by
  rw [ofString?, ofBytes?] at h
  split at h
  · exact (Option.some.inj h).symm
  · cases h

theorem isValueByte_of_isVisibleAscii {b : UInt8} (h : isVisibleAscii b = true) : isValueByte b = true := by
  simp only [isVisibleAscii, isValueByte, Bool.or_eq_true, Bool.and_eq_true, decide_eq_true_eq, bne_iff_ne] at h ⊢
  rcases h with ⟨hlow, hhigh⟩ | htab
  · exact .inl ⟨hlow, fun h127 ↦ absurd hhigh (by rw [h127]; decide)⟩
  · exact .inr htab

/-- Bytes of ASCII are the encoding of as many characters. -/
theorem utf8Encode_map_ascii {v : Bytes} (h : ∀ b ∈ v, b.toNat < 128) :
    Text.utf8Encode (v.map fun b ↦ Char.ofNat b.toNat) = v := by
  induction v with
  | nil => rfl
  | cons b v ih =>
    rw [List.forall_mem_cons] at h
    have hfirst := Percent.utf8Encode_ascii h.1
    rw [Text.utf8Encode, List.flatMap_singleton] at hfirst
    rw [List.map_cons, Text.utf8Encode_cons, hfirst, ih h.2]
    rfl

/-- Two texts that are values make one together. -/
theorem ofString?_append {s t : String} {v w : Bytes} (hs : ofString? s = some v) (ht : ofString? t = some w) :
    ofString? (s ++ t) = some (v ++ w) := by
  have hall {s : String} {v : Bytes} (h : ofString? s = some v) : v.all isValueByte = true := by
    rw [ofString?, ofBytes?] at h
    split at h
    · next hbytes => rwa [← Option.some.inj h]
    · cases h
  have hbytes : Bytes.ofString (s ++ t) = v ++ w := by
    rw [Bytes.ofString_append, ← ofString?_eq_some hs, ← ofString?_eq_some ht]
  rw [ofString?, hbytes, ofBytes?, if_pos]
  rw [List.all_append, hall hs, hall ht]
  rfl

theorem toNat_lt_of_isVisibleAscii {b : UInt8} (h : isVisibleAscii b = true) : b.toNat < 128 := by
  simp only [isVisibleAscii, Bool.or_eq_true, Bool.and_eq_true, decide_eq_true_eq, beq_iff_eq] at h
  rcases h with ⟨-, hhigh⟩ | htab
  · have hbyte : b.toNat < 127 := UInt8.lt_iff_toNat_lt.mp hhigh
    omega
  · rw [htab]
    decide

/-- A value is read as a text that it is the encoding of, if it is visible. -/
theorem toVisible?_eq_some_iff {v : Bytes} {s : String} :
    toVisible? v = some s ↔ v.all isVisibleAscii = true ∧ Bytes.ofString s = v := by
  unfold toVisible?
  by_cases hvisible : v.all isVisibleAscii = true
  · have hbytes : Bytes.ofString (String.ofList (v.map fun b ↦ Char.ofNat b.toNat)) = v := by
      rw [Bytes.ofString, String.toList_ofList]
      exact utf8Encode_map_ascii fun b hb ↦ toNat_lt_of_isVisibleAscii (List.all_eq_true.mp hvisible b hb)
    rw [if_pos hvisible, Option.some.injEq]
    constructor
    · rintro rfl
      exact ⟨hvisible, hbytes⟩
    · rintro ⟨-, hs⟩
      exact Bytes.ofString_injective (hbytes.trans hs.symm)
  · rw [if_neg hvisible]
    simp [hvisible]

/-- A value that is read as text is the value of that text. -/
theorem ofString?_of_toVisible? {v : Bytes} {s : String} (h : toVisible? v = some s) : ofString? s = some v := by
  obtain ⟨hvisible, rfl⟩ := toVisible?_eq_some_iff.mp h
  rw [ofString?, ofBytes?, if_pos]
  exact List.all_eq_true.mpr fun b hb ↦ isValueByte_of_isVisibleAscii (List.all_eq_true.mp hvisible b hb)

/-- The characters of a value that is read as text. -/
theorem char_of_toVisible? {v : Bytes} {s : String} (h : toVisible? v = some s) :
    ∀ c ∈ s.toList, c = '\t' ∨ IsVisible c := by
  intro c hc
  unfold toVisible? at h
  split at h
  · next hvisible =>
    cases h
    rw [String.toList_ofList] at hc
    obtain ⟨b, hb, rfl⟩ := List.mem_map.mp hc
    have hbyte := List.all_eq_true.mp hvisible b hb
    simp only [isVisibleAscii, Bool.or_eq_true, Bool.and_eq_true, decide_eq_true_eq, beq_iff_eq] at hbyte
    rcases hbyte with ⟨hlow, hhigh⟩ | rfl
    · have hcode : (Char.ofNat b.toNat).toNat = b.toNat := Text.val_ofNat (by have := b.toNat_lt; omega)
      apply Or.inr
      rw [IsVisible, hcode]
      exact ⟨UInt8.le_iff_toNat_le.mp hlow, UInt8.lt_iff_toNat_lt.mp hhigh⟩
    · exact .inl rfl
  · cases h

/-- The blanks among these characters are spaces and tabs. -/
theorem space_or_tab_of_isBlank {c : Char} (h : c = '\t' ∨ IsVisible c) (hblank : Text.isBlank c = true) :
    c = ' ' ∨ c = '\t' := by
  rcases h with htab | ⟨hlow, hhigh⟩
  · exact .inr htab
  · have hall : ∀ n < 127, 32 ≤ n → Text.isBlank (Char.ofNat n) = true → Char.ofNat n = ' ' := by decide
    have hc := hall c.toNat hhigh hlow
    rw [Char.ofNat_toNat] at hc
    exact .inl (hc hblank)

end HeaderValue

namespace Headers

variable (h : Headers)

theorem getAll_append (name other : HeaderName) (value : Bytes) :
    (h.append other value).getAll name = h.getAll name ++ if other = name then [value] else [] := by
  by_cases hname : other = name <;> simp [getAll, append, List.filterMap_append, hname]

@[simp] theorem getAll_appendAll (k : Headers) (name : HeaderName) :
    (h.appendAll k).getAll name = h.getAll name ++ k.getAll name := by
  simp only [getAll, appendAll, List.filterMap_append]

@[simp] theorem getAll_erase_self (name : HeaderName) : (h.erase name).getAll name = [] := by
  rw [getAll, erase, List.filterMap_filter, List.filterMap_eq_nil_iff]
  intro field _
  by_cases hname : field.1 = name <;> simp [hname]

theorem getAll_erase_of_ne {name other : HeaderName} (hne : name ≠ other) :
    (h.erase other).getAll name = h.getAll name := by
  rw [getAll, erase, List.filterMap_filter]
  apply List.filterMap_congr
  intro field _
  by_cases hname : field.1 = name
  · simp [hname, hne]
  · simp [hname]

@[simp] theorem getAll_insert_self (name : HeaderName) (value : Bytes) :
    (h.insert name value).getAll name = [value] := by
  rw [insert, getAll_append, getAll_erase_self, if_pos rfl, List.nil_append]

theorem getAll_insert_of_ne {name other : HeaderName} (hne : name ≠ other) (value : Bytes) :
    (h.insert other value).getAll name = h.getAll name :=
  calc (h.insert other value).getAll name
      = (h.erase other).getAll name ++ if other = name then [value] else [] := getAll_append _ _ _ _
    _ = (h.erase other).getAll name := by rw [if_neg hne.symm, List.append_nil]
    _ = h.getAll name := getAll_erase_of_ne h hne

theorem getAll_insert (edited name : HeaderName) (value : Bytes) :
    (h.insert edited value).getAll name = if edited = name then [value] else h.getAll name := by
  by_cases hname : edited = name
  · rw [if_pos hname, hname, getAll_insert_self]
  · rw [if_neg hname, getAll_insert_of_ne h (Ne.symm hname)]

theorem getAll_erase (edited name : HeaderName) :
    (h.erase edited).getAll name = if edited = name then [] else h.getAll name := by
  by_cases hname : edited = name
  · rw [if_pos hname, hname, getAll_erase_self]
  · rw [if_neg hname, getAll_erase_of_ne h (Ne.symm hname)]

/-- Names dropped one after the other are dropped together. -/
theorem foldl_erase (names : List HeaderName) :
    names.foldl erase h = ⟨h.fields.filter fun field ↦ !names.contains field.1⟩ := by
  induction names generalizing h with
  | nil => simp
  | cons name names ih =>
    rw [List.foldl_cons, ih, erase, List.filter_filter]
    congr 2
    funext field
    rw [List.contains_cons, Bool.not_or, Bool.and_comm]
    rfl

theorem getAll_foldl_erase (names : List HeaderName) (name : HeaderName) :
    (names.foldl erase h).getAll name = if name ∈ names then [] else h.getAll name := by
  induction names generalizing h with
  | nil => rfl
  | cons erased names ih =>
    rw [List.foldl_cons, ih, getAll_erase]
    by_cases hname : erased = name
    · simp [hname]
    · rw [if_neg hname]
      simp [Ne.symm hname]

end Headers

end RuleGate
