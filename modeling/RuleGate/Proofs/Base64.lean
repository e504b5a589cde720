import Mathlib.Data.List.GetD
import Mathlib.Data.List.Nodup
import RuleGate.Base64
import RuleGate.Proofs.Text.Decoding

/-!
# Base64 that is written and read back

Strict decoding accepts exactly what encoding writes, so bytes have one written form: padding that is missing
or misplaced, and bits behind the last byte that are not zero, are in no written form.
-/

namespace RuleGate.Base64

/-- The 64 digits of a variant are distinct, and the pad is none of them. -/
structure IsLawful (v : Base64) : Prop where
  length : v.digits.length = 64
  nodup : v.digits.Nodup
  pad : '=' ∉ v.digits

theorem standard_isLawful : standard.IsLawful := ⟨rfl, by decide, by decide⟩

variable {v : Base64}

/-! ## Digits -/

section Digits

variable {n : Nat} {c : Char}

theorem IsLawful.digit_mem (hv : v.IsLawful) (h : n < 64) : v.digit n ∈ v.digits := by
  rw [digit, List.getD_eq_getElem _ _ (hv.length ▸ h)]
  exact List.getElem_mem _

theorem IsLawful.digit_ne_pad (hv : v.IsLawful) (h : n < 64) : v.digit n ≠ '=' :=
  ne_of_mem_of_not_mem (hv.digit_mem h) hv.pad

theorem IsLawful.value?_eq_some_iff (hv : v.IsLawful) : v.value? c = some n ↔ n < 64 ∧ v.digit n = c := by
  constructor
  · intro h
    rw [value?] at h
    split at h
    · next hc =>
      cases h
      refine ⟨hv.length ▸ hc, ?_⟩
      rw [digit, List.getD_eq_getElem _ _ hc, List.getElem_idxOf]
    · cases h
  · rintro ⟨hn, rfl⟩
    have hlength : n < v.digits.length := hv.length ▸ hn
    have hindex : v.digits.idxOf (v.digit n) = n := by
      rw [digit, List.getD_eq_getElem _ _ hlength, hv.nodup.idxOf_getElem]
    simp only [value?, hindex, if_pos hlength]

theorem IsLawful.value?_digit (hv : v.IsLawful) (h : n < 64) : v.value? (v.digit n) = some n :=
  hv.value?_eq_some_iff.mpr ⟨h, rfl⟩

end Digits

/-! ## Groups of digits -/

section Groups

variable {a b c d : Char} {s : Bytes}

/-- The digits of one byte. -/
def digitsOfOne (v : Base64) (x : UInt8) : List Char :=
  [v.digit (x.toNat / 4), v.digit (x.toNat % 4 * 16)]

/-- The digits of two bytes. -/
def digitsOfTwo (v : Base64) (x y : UInt8) : List Char :=
  [v.digit (x.toNat / 4), v.digit (x.toNat % 4 * 16 + y.toNat / 16), v.digit (y.toNat % 16 * 4)]

/-- The digits of three bytes. -/
def digitsOfThree (v : Base64) (x y z : UInt8) : List Char :=
  [v.digit (x.toNat / 4), v.digit (x.toNat % 4 * 16 + y.toNat / 16),
    v.digit (y.toNat % 16 * 4 + z.toNat / 64), v.digit (z.toNat % 64)]

theorem encode_one (v : Base64) (x : UInt8) :
    v.encode [x] = v.digitsOfOne x ++ if v.padded then ['=', '='] else [] := rfl

theorem encode_two (v : Base64) (x y : UInt8) :
    v.encode [x, y] = v.digitsOfTwo x y ++ if v.padded then ['='] else [] := rfl

theorem encode_three (v : Base64) (x y z : UInt8) (s : Bytes) :
    v.encode (x :: y :: z :: s) = v.digitsOfThree x y z ++ v.encode s := rfl

theorem toNat_ofNat {n : Nat} (h : n < 256) : (UInt8.ofNat n).toNat = n := UInt8.toNat_ofNat_of_lt' h

theorem IsLawful.decodeLast?_one (hv : v.IsLawful) (x : UInt8) :
    v.decodeLast? (v.digitsOfOne x) = some [x] := by
  have hx := x.toNat_lt
  rw [digitsOfOne, decodeLast?, hv.value?_digit (by omega), hv.value?_digit (by omega)]
  simp only [Option.bind_eq_bind, Option.bind_some]
  rw [if_pos (by omega), Text.ofNat_eq_of_toNat (b := x) (by omega)]

theorem IsLawful.decodeLast?_two (hv : v.IsLawful) (x y : UInt8) :
    v.decodeLast? (v.digitsOfTwo x y) = some [x, y] := by
  have hx := x.toNat_lt
  have hy := y.toNat_lt
  rw [digitsOfTwo, decodeLast?, hv.value?_digit (by omega), hv.value?_digit (by omega),
    hv.value?_digit (by omega)]
  simp only [Option.bind_eq_bind, Option.bind_some]
  rw [if_pos (by omega), Text.ofNat_eq_of_toNat (b := x) (by omega),
    Text.ofNat_eq_of_toNat (b := y) (by omega)]

theorem IsLawful.decodeGroup?_three (hv : v.IsLawful) (x y z : UInt8) :
    v.decodeGroup? (v.digit (x.toNat / 4)) (v.digit (x.toNat % 4 * 16 + y.toNat / 16))
      (v.digit (y.toNat % 16 * 4 + z.toNat / 64)) (v.digit (z.toNat % 64)) = some [x, y, z] := by
  have hx := x.toNat_lt
  have hy := y.toNat_lt
  have hz := z.toNat_lt
  rw [decodeGroup?, hv.value?_digit (by omega), hv.value?_digit (by omega), hv.value?_digit (by omega),
    hv.value?_digit (by omega)]
  simp only [Option.bind_eq_bind, Option.bind_some]
  rw [Text.ofNat_eq_of_toNat (b := x) (by omega), Text.ofNat_eq_of_toNat (b := y) (by omega),
    Text.ofNat_eq_of_toNat (b := z) (by omega)]

/-- Two digits that are read as a last group are those of a byte. -/
theorem IsLawful.of_decodeLast?_two (hv : v.IsLawful) (h : v.decodeLast? [a, b] = some s) :
    ∃ x, s = [x] ∧ [a, b] = v.digitsOfOne x := by
  simp only [decodeLast?, Option.bind_eq_bind, Option.bind_eq_some_iff, hv.value?_eq_some_iff] at h
  obtain ⟨m, ⟨hm, rfl⟩, n, ⟨hn, rfl⟩, hbytes⟩ := h
  split at hbytes
  · next hbits =>
    refine ⟨_, (Option.some.inj hbytes).symm, ?_⟩
    rw [digitsOfOne, toNat_ofNat (by omega), show (m * 4 + n / 16) / 4 = m by omega,
      show (m * 4 + n / 16) % 4 * 16 = n by omega]
  · cases hbytes

theorem IsLawful.of_decodeLast?_three (hv : v.IsLawful) (h : v.decodeLast? [a, b, c] = some s) :
    ∃ x y, s = [x, y] ∧ [a, b, c] = v.digitsOfTwo x y := by
  simp only [decodeLast?, Option.bind_eq_bind, Option.bind_eq_some_iff, hv.value?_eq_some_iff] at h
  obtain ⟨m, ⟨hm, rfl⟩, n, ⟨hn, rfl⟩, k, ⟨hk, rfl⟩, hbytes⟩ := h
  split at hbytes
  · next hbits =>
    refine ⟨_, _, (Option.some.inj hbytes).symm, ?_⟩
    rw [digitsOfTwo, toNat_ofNat (by omega), toNat_ofNat (by omega),
      show (m * 4 + n / 16) / 4 = m by omega,
      show (m * 4 + n / 16) % 4 * 16 + (n % 16 * 16 + k / 4) / 16 = n by omega,
      show (n % 16 * 16 + k / 4) % 16 * 4 = k by omega]
  · cases hbytes

theorem IsLawful.of_decodeGroup? (hv : v.IsLawful) (h : v.decodeGroup? a b c d = some s) :
    ∃ x y z, s = [x, y, z] ∧ [a, b, c, d] = v.digitsOfThree x y z := by
  simp only [decodeGroup?, Option.bind_eq_bind, Option.bind_eq_some_iff, hv.value?_eq_some_iff] at h
  obtain ⟨m, ⟨hm, rfl⟩, n, ⟨hn, rfl⟩, k, ⟨hk, rfl⟩, l, ⟨hl, rfl⟩, hbytes⟩ := h
  refine ⟨_, _, _, (Option.some.inj hbytes).symm, ?_⟩
  rw [digitsOfThree, toNat_ofNat (by omega), toNat_ofNat (by omega), toNat_ofNat (by omega),
    show (m * 4 + n / 16) / 4 = m by omega,
    show (m * 4 + n / 16) % 4 * 16 + (n % 16 * 16 + k / 4) / 16 = n by omega,
    show (n % 16 * 16 + k / 4) % 16 * 4 + (k % 4 * 64 + l) / 64 = k by omega,
    show (k % 4 * 64 + l) % 64 = l by omega]

end Groups

/-! ## Whole texts -/

variable {s : Bytes} {t : List Char}

/-- A group of four digits in front is read on its own. -/
theorem IsLawful.decode?_group (hv : v.IsLawful) (x y z : UInt8) (t : List Char) :
    v.decode? (v.digitsOfThree x y z ++ t) = (v.decode? t).map ([x, y, z] ++ ·) := by
  have hy := y.toNat_lt
  have hz := z.toNat_lt
  have hthird : v.digit (y.toNat % 16 * 4 + z.toNat / 64) ≠ '=' := hv.digit_ne_pad (by omega)
  have hfourth : v.digit (z.toNat % 64) ≠ '=' := hv.digit_ne_pad (by omega)
  rw [digitsOfThree, List.cons_append, List.cons_append, List.cons_append, List.singleton_append]
  rw [decode?, hv.decodeGroup?_three]
  · cases v.decode? t <;> rfl
  · intro _ h
    exact absurd h hfourth
  · intro h
    exact absurd h hfourth

/-- Encoded bytes decode to themselves. -/
theorem IsLawful.decode?_encode (hv : v.IsLawful) : ∀ s : Bytes, v.decode? (v.encode s) = some s
  | [] => rfl
  | [x] => by
    have hlast := hv.decodeLast?_one x
    rw [digitsOfOne] at hlast
    rw [encode_one, digitsOfOne]
    cases hpad : v.padded <;> simp [decode?, hpad, hlast]
  | [x, y] => by
    have hy := y.toNat_lt
    have hthird : v.digit (y.toNat % 16 * 4) ≠ '=' := hv.digit_ne_pad (by omega)
    have hlast := hv.decodeLast?_two x y
    rw [digitsOfTwo] at hlast
    rw [encode_two, digitsOfTwo]
    cases hpad : v.padded <;> simp [decode?, hpad, hlast, hthird]
  | x :: y :: z :: s => by
    rw [encode_three, hv.decode?_group, hv.decode?_encode s]
    rfl

/-- What decodes to bytes is their encoding. -/
theorem IsLawful.eq_encode_of_decode? (hv : v.IsLawful) (h : v.decode? t = some s) : t = v.encode s := by
  fun_induction decode? v t generalizing s with
  | case1 =>
    cases h
    rfl
  | case2 a b hpad =>
    obtain ⟨x, rfl, hdigits⟩ := hv.of_decodeLast?_two h
    rw [encode_one, if_pos hpad, ← hdigits]
    rfl
  | case4 a b c _ hpad =>
    obtain ⟨x, y, rfl, hdigits⟩ := hv.of_decodeLast?_three h
    rw [encode_two, if_pos hpad, ← hdigits]
    rfl
  | case6 a b c d r _ _ ih =>
    obtain ⟨front, hfront, h⟩ := Option.bind_eq_some_iff.mp h
    obtain ⟨back, hback, hbytes⟩ := Option.bind_eq_some_iff.mp h
    obtain ⟨x, y, z, rfl, hdigits⟩ := hv.of_decodeGroup? hfront
    cases hbytes
    rw [List.cons_append, List.cons_append, List.singleton_append, encode_three, ← hdigits, ← ih hback]
    rfl
  | case8 t _ _ _ _ hpad =>
    match t, h with
    | [a, b], h =>
      obtain ⟨x, rfl, hdigits⟩ := hv.of_decodeLast?_two h
      rw [encode_one, if_neg hpad, List.append_nil, hdigits]
    | [a, b, c], h =>
      obtain ⟨x, y, rfl, hdigits⟩ := hv.of_decodeLast?_three h
      rw [encode_two, if_neg hpad, List.append_nil, hdigits]
  | case3 => cases h
  | case5 => cases h
  | case7 => cases h

/-- Decoding accepts exactly what encoding writes. -/
theorem IsLawful.decode?_eq_some_iff (hv : v.IsLawful) : v.decode? t = some s ↔ t = v.encode s :=
  ⟨hv.eq_encode_of_decode?, fun h ↦ h ▸ hv.decode?_encode s⟩

/-- Encoded bytes are written in digits and pads. -/
theorem IsLawful.mem_encode (hv : v.IsLawful) {c : Char} :
    ∀ {s : Bytes}, c ∈ v.encode s → c ∈ v.digits ∨ c = '='
  | [], h => nomatch h
  | [x], h => by
    have hx := x.toNat_lt
    rw [encode_one, List.mem_append] at h
    rcases h with h | h
    · rw [digitsOfOne, List.mem_cons, List.mem_singleton] at h
      rcases h with rfl | rfl <;> exact .inl (hv.digit_mem (by omega))
    · split at h
      · simp only [List.mem_cons, List.not_mem_nil, or_false, or_self] at h
        exact .inr h
      · cases h
  | [x, y], h => by
    have hx := x.toNat_lt
    have hy := y.toNat_lt
    rw [encode_two, List.mem_append] at h
    rcases h with h | h
    · rw [digitsOfTwo, List.mem_cons, List.mem_cons, List.mem_singleton] at h
      rcases h with rfl | rfl | rfl <;> exact .inl (hv.digit_mem (by omega))
    · split at h
      · exact .inr (List.mem_singleton.mp h)
      · cases h
  | x :: y :: z :: s, h => by
    have hx := x.toNat_lt
    have hy := y.toNat_lt
    have hz := z.toNat_lt
    rw [encode_three, List.mem_append] at h
    rcases h with h | h
    · rw [digitsOfThree, List.mem_cons, List.mem_cons, List.mem_cons, List.mem_singleton] at h
      rcases h with rfl | rfl | rfl | rfl <;> exact .inl (hv.digit_mem (by omega))
    · exact hv.mem_encode h

theorem encode_ne_nil : ∀ {s : Bytes}, s ≠ [] → v.encode s ≠ []
  | [], h => absurd rfl h
  | [_], _ => List.cons_ne_nil _ _
  | [_, _], _ => List.cons_ne_nil _ _
  | _ :: _ :: _ :: _, _ => List.cons_ne_nil _ _

end RuleGate.Base64
