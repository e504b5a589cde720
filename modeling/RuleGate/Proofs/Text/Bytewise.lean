import Mathlib.Data.String.Basic
import RuleGate.Bytewise
import RuleGate.Proofs.Text.Decoding

/-!
# Byte positions between characters

The bytes of a character that is not ASCII are no ASCII bytes, so a scanner that only acts on ASCII bytes acts
between characters. Positions are given here by what stands behind them in the text: such a position is a bound of
characters, the byte there is the first one behind it, and what is cut between two of them is a piece of the text.
-/

namespace RuleGate

namespace Text

/-! ## The bytes of one character -/

section

variable {c d : Char} {b : UInt8}

theorem utf8EncodeChar_ascii (h : c.toNat < 0x80) : String.utf8EncodeChar c = [c.toUInt8] :=
  String.utf8EncodeChar_eq_singleton (Char.utf8Size_eq_one_iff.mpr (UInt32.le_iff_toNat_le.mpr (Nat.le_of_lt_succ h)))

theorem le_of_mem_utf8EncodeChar (h : 0x80 ≤ c.toNat) (hb : b ∈ String.utf8EncodeChar c) : 0x80 ≤ b.toNat := by
  have hone : ¬ c.val.toNat ≤ 127 := Nat.not_le.mpr h
  simp only [String.utf8EncodeChar, if_neg hone] at hb
  -- as many cases as there are lengths of a character
  split at hb
  · simp only [List.mem_cons, List.not_mem_nil, or_false] at hb
    rcases hb with rfl | rfl <;> rw [UInt8.toNat_ofNat'] <;> omega
  · split at hb
    · simp only [List.mem_cons, List.not_mem_nil, or_false] at hb
      rcases hb with rfl | rfl | rfl <;> rw [UInt8.toNat_ofNat'] <;> omega
    · simp only [List.mem_cons, List.not_mem_nil, or_false] at hb
      rcases hb with rfl | rfl | rfl | rfl <;> rw [UInt8.toNat_ofNat'] <;> omega

theorem toNat_toUInt8 (h : c.toNat < 0x80) : c.toUInt8.toNat = c.toNat := by
  rw [Char.toUInt8, UInt32.toNat_toUInt8]
  exact Nat.mod_eq_of_lt (Nat.lt_trans h (by decide))

end

theorem utf8Encode_singleton (c : Char) : utf8Encode [c] = String.utf8EncodeChar c := List.append_nil _

theorem utf8EncodeChar_length_pos (c : Char) : 0 < (String.utf8EncodeChar c).length :=
  String.length_utf8EncodeChar c ▸ c.utf8Size_pos

theorem isEmpty_utf8Encode (s : List Char) : (utf8Encode s).isEmpty = s.isEmpty := by
  cases s with
  | nil => rfl
  | cons c s =>
    obtain ⟨b, bs, hbytes⟩ := List.exists_cons_of_length_pos (utf8EncodeChar_length_pos c)
    rw [utf8Encode_cons, hbytes]
    rfl

theorem length_utf8Encode_lt_cons {r s : List Char} (h : r <:+ s) (c : Char) :
    (utf8Encode r).length < (utf8Encode (c :: s)).length := by
  obtain ⟨front, rfl⟩ := h
  have hpos := utf8EncodeChar_length_pos c
  rw [utf8Encode_cons, utf8Encode_append, List.length_append, List.length_append]
  omega

end Text

theorem Directive.isQuote_ascii {c : Char} (h : isQuote c = true) : c.toNat < 0x80 := by
  simp only [isQuote, Bool.or_eq_true, beq_iff_eq] at h
  rcases h with (rfl | rfl) | rfl <;> decide

/-! ## Pieces of a text -/

/-- The text is what reading leaves of a contiguous piece of the source. -/
def Text.IsCut (read : List Char → List Char) (text source : List Char) : Prop :=
  ∃ piece, piece <:+: source ∧ text = read piece

section Pieces

variable {read : List Char → List Char} {text source source' : List Char}

theorem Text.IsCut.mono (h : IsCut read text source) (hsource : source <:+: source') : IsCut read text source' := by
  obtain ⟨piece, hpiece, rfl⟩ := h
  exact ⟨piece, hpiece.trans hsource, rfl⟩

/-- Where reading only removes characters, each that is left is one of the source. -/
theorem Text.IsCut.subset (h : IsCut read text source) (hread : ∀ piece, (read piece).Sublist piece) :
    text ⊆ source := by
  obtain ⟨piece, hpiece, rfl⟩ := h
  exact List.Subset.trans (hread piece).subset hpiece.subset

end Pieces

namespace Bytewise

/-! ## Classes of bytes -/

section

variable {p : Char → Bool} {c : Char} {b : UInt8} {bs : Bytes}

theorem isAscii_of_le (h : 0x80 ≤ b.toNat) : isAscii p b = false := by
  rw [isAscii, Bool.and_eq_false_iff, decide_eq_false_iff_not]
  exact .inl (Nat.not_lt.mpr h)

theorem isAscii_toUInt8 (h : c.toNat < 0x80) : isAscii p c.toUInt8 = p c := by
  have hbyte : Char.ofNat c.toUInt8.toNat = c := by rw [Text.toNat_toUInt8 h, Char.ofNat_toNat]
  rw [isAscii, hbyte, decide_eq_true (Text.toNat_toUInt8 h ▸ h), Bool.true_and]

/-- No byte of a character outside of the class is in the class. -/
theorem isAscii_of_mem (hc : p c = false) (hb : b ∈ String.utf8EncodeChar c) : isAscii p b = false := by
  by_cases h : c.toNat < 0x80
  · rw [Text.utf8EncodeChar_ascii h, List.mem_singleton] at hb
    rw [hb, isAscii_toUInt8 h, hc]
  · exact isAscii_of_le (Text.le_of_mem_utf8EncodeChar (Nat.not_lt.mp h) hb)

/-- No byte of a character is another character of ASCII. -/
theorem ne_toUInt8_of_mem {d : Char} (hd : d.toNat < 0x80) (hne : c ≠ d) (hb : b ∈ String.utf8EncodeChar c) :
    b ≠ d.toUInt8 := by
  rintro rfl
  by_cases h : c.toNat < 0x80
  · rw [Text.utf8EncodeChar_ascii h, List.mem_singleton] at hb
    have hvalue := congrArg UInt8.toNat hb
    rw [Text.toNat_toUInt8 hd, Text.toNat_toUInt8 h] at hvalue
    exact hne (Char.toNat_inj.mp hvalue.symm)
  · have hle := Text.le_of_mem_utf8EncodeChar (Nat.not_lt.mp h) hb
    rw [Text.toNat_toUInt8 hd] at hle
    exact absurd hd (Nat.not_lt.mpr hle)

end

/-- A byte of ASCII in an encoded text is a character on its own, behind the characters in front of it. -/
theorem exists_of_getElem?_utf8Encode {d : Char} (hd : d.toNat < 0x80) {cs : List Char} {i : Nat}
    (h : (Text.utf8Encode cs)[i]? = some d.toUInt8) :
    ∃ front rest, front ++ d :: rest = cs ∧ i = (Text.utf8Encode front).length := by
  induction cs generalizing i with
  | nil => cases h
  | cons c cs ih =>
    rw [Text.utf8Encode_cons] at h
    by_cases hi : i < (String.utf8EncodeChar c).length
    · rw [List.getElem?_append_left hi, List.getElem?_eq_getElem hi] at h
      have hmem : d.toUInt8 ∈ String.utf8EncodeChar c := Option.some.inj h ▸ List.getElem_mem hi
      obtain rfl : c = d := by_contra fun hne ↦ ne_toUInt8_of_mem hd hne hmem rfl
      rw [Text.utf8EncodeChar_ascii hd, List.length_singleton] at hi
      exact ⟨[], cs, rfl, Nat.lt_one_iff.mp hi⟩
    · have hle := Nat.not_lt.mp hi
      rw [List.getElem?_append_right hle] at h
      obtain ⟨front, rest, rfl, hfront⟩ := ih h
      refine ⟨c :: front, rest, rfl, ?_⟩
      rw [Text.utf8Encode_cons, List.length_append]
      omega

/-! ## Outcomes -/

theorem ofCompiled_ok_bind {α β : Type} (a : α) (f : α → Bytewise β) : (ofCompiled (.ok a) >>= f) = f a := rfl

/-! ## Loops -/

section Loops

variable {σ α : Type} {round : σ → Bytewise (σ ⊕ α)} {x y : σ} {result : α} {e : RuleError}

theorem loop_of_next (h : round x = pure (.inl y)) (n : Nat) : loop round (n + 1) x = loop round n y := by
  rw [loop, h, pure_bind]

theorem loop_of_result (h : round x = pure (.inr result)) (n : Nat) : loop round (n + 1) x = pure result := by
  rw [loop, h, pure_bind]

theorem loop_of_error (h : round x = throw e) (n : Nat) : loop round (n + 1) x = throw e := by
  rw [loop, h]
  rfl

/-- As many rounds as lead from one state to another. -/
theorem loop_iterate {f : Nat → σ} {k : Nat} (h : ∀ i < k, round (f i) = pure (.inl (f (i + 1)))) (n : Nat) :
    loop round (n + k) (f 0) = loop round n (f k) := by
  induction k generalizing n with
  | zero => rfl
  | succ k ih =>
    calc loop round (n + (k + 1)) (f 0)
        = loop round (n + 1 + k) (f 0) := by rw [Nat.add_right_comm, Nat.add_assoc]
      _ = loop round (n + 1) (f k) := ih (fun i hi ↦ h i (Nat.lt_succ_of_lt hi)) (n + 1)
      _ = loop round n (f (k + 1)) := loop_of_next (h k (Nat.lt_succ_self k)) n

end Loops

/-! ## Positions -/

section Positions

variable {s : String} {mid rest : List Char} {c : Char}

/-- The position in a text behind which the given rest of it stands. -/
def offset (s : String) (rest : List Char) : Nat := s.utf8ByteSize - (Text.utf8Encode rest).length

theorem utf8ByteSize_eq (s : String) : s.utf8ByteSize = (Text.utf8Encode s.toList).length := by
  have hbytes : s.toByteArray = (Text.utf8Encode s.toList).toByteArray := by
    conv => lhs; rw [← String.ofList_toList (s := s), String.toByteArray_ofList]
    rfl
  rw [← String.size_toByteArray, hbytes, List.size_toByteArray]

theorem utf8Len_eq (s : List Char) : String.utf8Len s = (Text.utf8Encode s).length := by
  rw [← String.utf8ByteSize_ofList, utf8ByteSize_eq, String.toList_ofList]

theorem offset_eq {front : List Char} (h : front ++ rest = s.toList) :
    offset s rest = (Text.utf8Encode front).length := by
  rw [offset, utf8ByteSize_eq, ← h, Text.utf8Encode_append, List.length_append, Nat.add_sub_cancel]

theorem byte?_offset (h : rest <:+ s.toList) (i : Nat) : byte? s (offset s rest + i) = (Text.utf8Encode rest)[i]? := by
  obtain ⟨front, hs⟩ := h
  rw [offset_eq hs, byte?, Bytes.ofString, ← hs, Text.utf8Encode_append,
    List.getElem?_append_right (Nat.le_add_right _ _), Nat.add_sub_cancel_left]

theorem offset_add (h : mid ++ rest <:+ s.toList) :
    offset s (mid ++ rest) + (Text.utf8Encode mid).length = offset s rest := by
  obtain ⟨front, hs⟩ := h
  have hmid : (front ++ mid) ++ rest = s.toList := by rw [List.append_assoc, hs]
  rw [offset_eq hs, offset_eq hmid, Text.utf8Encode_append, List.length_append]

/-- A position with a rest of the text behind it is a bound of characters. -/
theorem isValid_offset (h : rest <:+ s.toList) : String.Pos.Raw.IsValid s ⟨offset s rest⟩ := by
  obtain ⟨front, hs⟩ := h
  have happend : s = String.ofList front ++ String.ofList rest := by
    rw [← String.ofList_append, hs, String.ofList_toList]
  refine String.Pos.Raw.isValid_iff_exists_append.mpr ⟨String.ofList front, String.ofList rest, happend, ?_⟩
  rw [offset_eq hs, String.Pos.Raw.ext_iff, String.byteIdx_rawEndPos, utf8ByteSize_eq, String.toList_ofList]

theorem slice_offset (h : mid ++ rest <:+ s.toList) :
    slice s (offset s (mid ++ rest)) (offset s rest) = pure (String.ofList mid) := by
  have hle : offset s (mid ++ rest) ≤ offset s rest := offset_add h ▸ Nat.le_add_right _ _
  rw [slice, if_pos ⟨hle, isValid_offset h, isValid_offset ((List.suffix_append mid rest).trans h)⟩, ← offset_add h]
  obtain ⟨front, hs⟩ := h
  obtain rfl : s = String.ofList (front ++ mid ++ rest) := by rw [List.append_assoc, hs, String.ofList_toList]
  rw [offset_eq hs, ← utf8Len_eq, ← utf8Len_eq, String.extract_of_valid]

theorem exists_eq_offset {i : Nat} (h : String.Pos.Raw.IsValid s ⟨i⟩) :
    ∃ rest, rest <:+ s.toList ∧ i = offset s rest := by
  obtain ⟨front, back, rfl, hi⟩ := String.Pos.Raw.isValid_iff_exists_append.mp h
  have hs : front.toList ++ back.toList = (front ++ back).toList := String.toList_append.symm
  refine ⟨back.toList, ⟨front.toList, hs⟩, ?_⟩
  rw [offset_eq hs, ← utf8ByteSize_eq]
  exact congrArg String.Pos.Raw.byteIdx hi

/-- Of two positions, the one in front has more of the text behind it. -/
theorem suffix_of_offset_le {back : List Char} (hrest : rest <:+ s.toList) (hback : back <:+ s.toList)
    (h : offset s rest ≤ offset s back) : back <:+ rest := by
  rcases List.suffix_or_suffix_of_suffix hback hrest with hsuffix | ⟨between, rfl⟩
  · exact hsuffix
  · have hadd := offset_add hback
    have hempty : Text.utf8Encode between = [] := List.eq_nil_of_length_eq_zero (by omega)
    obtain rfl : between = [] := by rw [← List.isEmpty_iff, ← Text.isEmpty_utf8Encode, hempty, List.isEmpty_nil]
    exact List.suffix_rfl

/-- A cut is not at fault exactly if it leaves whole characters in front of it, behind it and between its positions. -/
theorem slice_eq_pure_iff {start stop : Nat} {text : String} : slice s start stop = pure text ↔
    ∃ front back, front ++ text.toList ++ back = s.toList ∧ start = (Text.utf8Encode front).length ∧
      stop = (Text.utf8Encode (front ++ text.toList)).length := by
  constructor
  · intro h
    have hbounds := h
    rw [slice] at hbounds
    split at hbounds
    · next hvalid =>
      obtain ⟨hle, hstart, hstop⟩ := hvalid
      obtain ⟨rest, hrest, rfl⟩ := exists_eq_offset hstart
      obtain ⟨back, hback, rfl⟩ := exists_eq_offset hstop
      obtain ⟨mid, rfl⟩ := suffix_of_offset_le hrest hback hle
      rw [slice_offset hrest] at h
      obtain rfl : String.ofList mid = text := Except.ok.inj (Option.some.inj h)
      obtain ⟨front, hs⟩ := hrest
      rw [← List.append_assoc] at hs
      rw [String.toList_ofList]
      exact ⟨front, back, hs, offset_eq (List.append_assoc front mid back ▸ hs), offset_eq hs⟩
    · cases hbounds
  · rintro ⟨front, back, hs, rfl, rfl⟩
    have hmid : front ++ (text.toList ++ back) = s.toList := by rw [← List.append_assoc, hs]
    rw [← offset_eq hmid, ← offset_eq hs, slice_offset ⟨front, hmid⟩, String.ofList_toList]

/-- There are rounds for each byte of a rest of the text and for its end. -/
theorem length_lt_rounds (h : rest <:+ s.toList) : (Text.utf8Encode rest).length < rounds s := by
  obtain ⟨front, hs⟩ := h
  rw [rounds, utf8ByteSize_eq, ← hs, Text.utf8Encode_append, List.length_append]
  omega

/-- A byte of ASCII is a character on its own. -/
theorem exists_of_byte?_ascii {i : Nat} (hc : c.toNat < 0x80) (h : byte? s i = some c.toUInt8) :
    ∃ rest, c :: rest <:+ s.toList ∧ i = offset s (c :: rest) := by
  obtain ⟨front, rest, hs, rfl⟩ := exists_of_getElem?_utf8Encode hc h
  exact ⟨rest, ⟨front, hs⟩, (offset_eq hs).symm⟩

/-! What stands behind a position, if it is not the end of the text, is a character. -/

theorem byte?_end (s : String) : byte? s (offset s []) = none := byte?_offset (List.nil_suffix) 0

theorem byte?_char (h : c :: rest <:+ s.toList) {i : Nat} (hi : i < (String.utf8EncodeChar c).length) :
    byte? s (offset s (c :: rest) + i) = some (String.utf8EncodeChar c)[i] := by
  rw [byte?_offset h, Text.utf8Encode_cons, List.getElem?_append_left hi, List.getElem?_eq_getElem hi]

theorem exists_byte? (h : c :: rest <:+ s.toList) :
    ∃ b ∈ String.utf8EncodeChar c, byte? s (offset s (c :: rest)) = some b :=
  ⟨_, List.getElem_mem _, byte?_char h (Text.utf8EncodeChar_length_pos c)⟩

theorem offset_cons (h : c :: rest <:+ s.toList) :
    offset s (c :: rest) + (String.utf8EncodeChar c).length = offset s rest := by
  have hadd : offset s ([c] ++ rest) + (Text.utf8Encode [c]).length = offset s rest := offset_add h
  rwa [Text.utf8Encode_singleton] at hadd

theorem byte?_ascii (h : c :: rest <:+ s.toList) (hc : c.toNat < 0x80) :
    byte? s (offset s (c :: rest)) = some c.toUInt8 := by
  obtain ⟨b, hb, hbyte⟩ := exists_byte? h
  rw [Text.utf8EncodeChar_ascii hc, List.mem_singleton] at hb
  rw [hbyte, hb]

theorem offset_ascii (h : c :: rest <:+ s.toList) (hc : c.toNat < 0x80) :
    offset s (c :: rest) + 1 = offset s rest := by
  rw [← offset_cons h, Text.utf8EncodeChar_ascii hc, List.length_singleton]

end Positions

end Bytewise

end RuleGate
