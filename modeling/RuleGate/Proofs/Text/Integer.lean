import RuleGate.Text.Integer

/-!
# Reading decimal digits

The decimal digits of a number in bounds are read as the number.
-/

namespace RuleGate.Text

theorem le_ofDigitChars (s : List Char) (acc : Nat) : acc ≤ Nat.ofDigitChars 10 s acc := by
  rw [Nat.ofDigitChars_eq_ofDigitChars_zero]
  exact Nat.le_add_right_of_le (Nat.le_mul_of_pos_left acc (Nat.pow_pos (by decide)))

/-- Digits are read to their end if their value is in bounds there. -/
theorem readDigits_eq_ok {bound acc : Nat} {s : List Char} (onOverflow : IntegerError)
    (hdigits : ∀ c ∈ s, c.isDigit = true) (hbound : Nat.ofDigitChars 10 s acc ≤ bound) :
    readDigits bound onOverflow acc s = .ok (Nat.ofDigitChars 10 s acc) := by
  induction s generalizing acc with
  | nil => rfl
  | cons c s ih =>
    rw [List.forall_mem_cons] at hdigits
    rw [Nat.ofDigitChars_cons, Nat.mul_comm] at hbound ⊢
    have hvalue := Nat.le_trans (le_ofDigitChars s _) hbound
    rw [readDigits, if_pos hdigits.1]
    dsimp only
    rw [if_pos hvalue, ih hdigits.2 hbound]

theorem readNat_cons_of_isDigit (bound : Nat) {c : Char} (h : c.isDigit = true) (s : List Char) :
    readNat bound (c :: s) = readDigits bound .tooLarge 0 (c :: s) := by
  have hplus : c ≠ '+' := by
    rintro rfl
    exact absurd h (by decide)
  unfold readNat
  split <;> simp_all

theorem readNat_toDigits {bound n : Nat} (h : n ≤ bound) : readNat bound (Nat.toDigits 10 n) = .ok n := by
  have hdigits : ∀ c ∈ Nat.toDigits 10 n, c.isDigit = true :=
    fun c hc ↦ Nat.isDigit_of_mem_toDigits (by decide) (by decide) hc
  have hvalue : Nat.ofDigitChars 10 (Nat.toDigits 10 n) 0 = n := Nat.ofDigitChars_ten_toDigits
  have hread := readDigits_eq_ok .tooLarge hdigits (hvalue.symm ▸ h)
  rw [hvalue] at hread
  cases hs : Nat.toDigits 10 n with
  | nil => exact absurd hs Nat.toDigits_ne_nil
  | cons c s =>
    rw [hs] at hdigits hread
    rw [readNat_cons_of_isDigit bound (hdigits c (.head s)), hread]

theorem readUInt64_toString {n : Nat} (h : n < UInt64.size) : readUInt64 (toString n).toList = .ok n := by
  rw [Nat.toString_eq_ofList_toDigits, String.toList_ofList]
  exact readNat_toDigits (Nat.le_of_lt_succ h)

end RuleGate.Text
