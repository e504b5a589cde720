import RuleGate.Text.Utf8

/-!
# Decoding what was encoded

The decoder reads the bytes of each character back as that character, and goes on with what follows.
-/

namespace RuleGate.Text

/-! ## The bytes of one character -/

theorem utf8Lead_ascii {v : Nat} (h : v ≤ 0x7F) : utf8Lead (UInt8.ofNat v) = .scalar (Char.ofNat v) := by
  have hbyte : (UInt8.ofNat v).toNat = v := by
    rw [UInt8.toNat_ofNat']
    omega
  simp only [utf8Lead, hbyte, if_pos h]

theorem utf8Lead_two {v : Nat} (h : 0x7F < v) (h' : v ≤ 0x7FF) :
    utf8Lead (UInt8.ofNat (v / 64 % 0x20 + 0xC0)) = .more ⟨v / 64, 1, 0x80, 0xBF⟩ := by
  have hbyte : (UInt8.ofNat (v / 64 % 0x20 + 0xC0)).toNat = v / 64 + 0xC0 := by
    rw [UInt8.toNat_ofNat']
    omega
  simp only [utf8Lead, hbyte]
  rw [if_neg (by omega), if_pos (by omega), Nat.add_sub_cancel]

theorem utf8Lead_three {v : Nat} (h : 0x7FF < v) (h' : v ≤ 0xFFFF) :
    utf8Lead (UInt8.ofNat (v / 4096 % 0x10 + 0xE0)) =
      .more ⟨v / 64 / 64, 2, if v / 4096 = 0 then 0xA0 else 0x80,
        if v / 4096 = 0xD then 0x9F else 0xBF⟩ := by
  have hbyte : (UInt8.ofNat (v / 4096 % 0x10 + 0xE0)).toNat = v / 4096 + 0xE0 := by
    rw [UInt8.toNat_ofNat']
    omega
  simp only [utf8Lead, hbyte]
  rw [if_neg (by omega), if_neg (by omega), if_pos (by omega), Nat.add_sub_cancel, Nat.div_div_eq_div_mul]
  simp

theorem utf8Lead_four {v : Nat} (h : 0xFFFF < v) (h' : v ≤ 0x10FFFF) :
    utf8Lead (UInt8.ofNat (v / 262144 % 0x08 + 0xF0)) =
      .more ⟨v / 64 / 64 / 64, 3, if v / 262144 = 0 then 0x90 else 0x80,
        if v / 262144 = 4 then 0x8F else 0xBF⟩ := by
  have hbyte : (UInt8.ofNat (v / 262144 % 0x08 + 0xF0)).toNat = v / 262144 + 0xF0 := by
    rw [UInt8.toNat_ofNat']
    omega
  simp only [utf8Lead, hbyte]
  rw [if_neg (by omega), if_neg (by omega), if_neg (by omega), if_pos (by omega), Nat.add_sub_cancel,
    Nat.div_div_eq_div_mul, Nat.div_div_eq_div_mul]
  simp

/-- A later byte carries six bits of the character. -/
theorem utf8Tail_bits {v low high : Nat} (owed : Nat) (hlow : low ≤ v % 64 + 0x80)
    (hhigh : v % 64 + 0x80 ≤ high) :
    utf8Tail ⟨v / 64, owed, low, high⟩ (UInt8.ofNat (v % 64 + 0x80)) =
      if owed ≤ 1 then .scalar (Char.ofNat v) else .more ⟨v, owed - 1, 0x80, 0xBF⟩ := by
  have hbyte : (UInt8.ofNat (v % 64 + 0x80)).toNat = v % 64 + 0x80 := by
    rw [UInt8.toNat_ofNat']
    omega
  have hbits : v / 64 * 64 + v % 64 = v := by omega
  simp only [utf8Tail, hbyte, Nat.add_sub_cancel, hbits]
  rw [if_pos ⟨hlow, hhigh⟩]

theorem utf8DecodeFrom?_cons (q : Option PartialChar) (b : UInt8) (r : Bytes) :
    utf8DecodeFrom? q (b :: r) =
      match utf8Step q b with
      | .scalar c => (utf8DecodeFrom? none r).map (c :: ·)
      | .more q' => utf8DecodeFrom? (some q') r
      | .refuse => none := by
  cases q <;> rfl

section Tails

variable {v low high : Nat} (r : Bytes)

theorem utf8DecodeFrom?_one_owed (hlow : low ≤ v % 64 + 0x80) (hhigh : v % 64 + 0x80 ≤ high) :
    utf8DecodeFrom? (some ⟨v / 64, 1, low, high⟩) (UInt8.ofNat (v % 64 + 0x80) :: r) =
      (utf8DecodeFrom? none r).map (Char.ofNat v :: ·) := by
  rw [utf8DecodeFrom?_cons, utf8Step, utf8Tail_bits 1 hlow hhigh]
  rfl

theorem utf8DecodeFrom?_two_owed (hlow : low ≤ v / 64 % 64 + 0x80)
    (hhigh : v / 64 % 64 + 0x80 ≤ high) :
    utf8DecodeFrom? (some ⟨v / 64 / 64, 2, low, high⟩)
        (UInt8.ofNat (v / 64 % 64 + 0x80) :: UInt8.ofNat (v % 64 + 0x80) :: r) =
      (utf8DecodeFrom? none r).map (Char.ofNat v :: ·) := by
  rw [utf8DecodeFrom?_cons, utf8Step, utf8Tail_bits 2 hlow hhigh]
  exact utf8DecodeFrom?_one_owed r (by omega) (by omega)

theorem utf8DecodeFrom?_three_owed (hlow : low ≤ v / 64 / 64 % 64 + 0x80)
    (hhigh : v / 64 / 64 % 64 + 0x80 ≤ high) :
    utf8DecodeFrom? (some ⟨v / 64 / 64 / 64, 3, low, high⟩)
        (UInt8.ofNat (v / 64 / 64 % 64 + 0x80) :: UInt8.ofNat (v / 64 % 64 + 0x80) ::
          UInt8.ofNat (v % 64 + 0x80) :: r) =
      (utf8DecodeFrom? none r).map (Char.ofNat v :: ·) := by
  rw [utf8DecodeFrom?_cons, utf8Step, utf8Tail_bits 3 hlow hhigh]
  exact utf8DecodeFrom?_two_owed r (by omega) (by omega)

end Tails

theorem char_bounds (c : Char) :
    c.val.toNat < 0xD800 ∨ 0xDFFF < c.val.toNat ∧ c.val.toNat ≤ 0x10FFFF := by
  rcases c.valid with h | h
  · exact .inl h
  · exact .inr ⟨h.1, Nat.le_of_lt_succ h.2⟩

theorem utf8DecodeFrom?_encodeChar (c : Char) (r : Bytes) :
    utf8DecodeFrom? none (String.utf8EncodeChar c ++ r) = (utf8DecodeFrom? none r).map (c :: ·) := by
  have hbounds := char_bounds c
  have hc : Char.ofNat c.val.toNat = c := Char.ofNat_toNat c
  unfold String.utf8EncodeChar
  generalize c.val.toNat = v at hbounds hc ⊢
  subst hc
  dsimp only
  have hdiv : v / 4096 = v / 64 / 64 := by rw [Nat.div_div_eq_div_mul]
  -- as many cases as there are lengths of a character
  by_cases hone : v ≤ 0x7F
  · rw [if_pos hone, List.singleton_append, utf8DecodeFrom?_cons, utf8Step, utf8Lead_ascii hone]
  rw [if_neg hone]
  by_cases htwo : v ≤ 0x7FF
  · rw [if_pos htwo, List.cons_append, utf8DecodeFrom?_cons, utf8Step, utf8Lead_two (by omega) htwo]
    exact utf8DecodeFrom?_one_owed r (by omega) (by omega)
  rw [if_neg htwo]
  by_cases hthree : v ≤ 0xFFFF
  · rw [if_pos hthree, List.cons_append, utf8DecodeFrom?_cons, utf8Step,
      utf8Lead_three (by omega) hthree]
    refine utf8DecodeFrom?_two_owed r ?_ ?_
    · split <;> omega
    · split <;> omega
  · rw [if_neg hthree, List.cons_append, utf8DecodeFrom?_cons, utf8Step,
      utf8Lead_four (by omega) (by omega), hdiv]
    refine utf8DecodeFrom?_three_owed r ?_ ?_
    · split <;> omega
    · split <;> omega

/-! ## Whole texts -/

theorem utf8Encode_cons (c : Char) (s : List Char) :
    utf8Encode (c :: s) = String.utf8EncodeChar c ++ utf8Encode s := rfl

theorem utf8Encode_append (s t : List Char) : utf8Encode (s ++ t) = utf8Encode s ++ utf8Encode t :=
  List.flatMap_append

/-- Behind encoded text the rest is decoded on its own. -/
theorem utf8Decode?_encode_append (s : List Char) (r : Bytes) :
    utf8Decode? (utf8Encode s ++ r) = (utf8Decode? r).map (s ++ ·) := by
  unfold utf8Decode?
  induction s with
  | nil => simp [utf8Encode]
  | cons c s ih =>
    rw [utf8Encode_cons, List.append_assoc, utf8DecodeFrom?_encodeChar, ih, Option.map_map]
    rfl

/-- Encoded text decodes to itself. -/
theorem utf8Decode?_encode (s : List Char) : utf8Decode? (utf8Encode s) = some s := by
  have happend := utf8Decode?_encode_append s []
  rwa [List.append_nil, show utf8Decode? [] = some [] from rfl, Option.map_some, List.append_nil] at happend

end RuleGate.Text

namespace RuleGate.Bytes

@[simp] theorem toString?_ofString (s : String) : (ofString s).toString? = some s := by
  rw [toString?, ofString, Text.utf8Decode?_encode, Option.map_some, String.ofList_toList]

theorem ofString_injective : Function.Injective ofString := by
  intro s t h
  have hdecoded := congrArg toString? h
  rw [toString?_ofString, toString?_ofString] at hdecoded
  exact Option.some.inj hdecoded

theorem ofString_append (s t : String) : ofString (s ++ t) = ofString s ++ ofString t := by
  rw [ofString, ofString, ofString, String.toList_append, Text.utf8Encode_append]

end RuleGate.Bytes
