import Mathlib.Algebra.Group.Nat.Defs
import Mathlib.Data.List.TakeWhile
import RuleGate.Net.Address
import RuleGate.Proofs.Text.Split

/-!
# Addresses read back

The text of an address is read as that address, in both grammars and whatever follows it, as long as that cannot
belong to an address. Readers are greedy: they take all digits, try an IPv4 address before each group of an IPv6
address, and take groups as long as there are separators. So what follows a part of an address decides where that
part ends, and each statement says what must not follow.
-/

namespace RuleGate.IpAddress

variable {radix most n : Nat} {rest : List Char} {g : AddressGrammar}

/-! ## Numbers -/

theorem digitValue?_digitChar (hradix : radix ≤ 16) {d : Nat} (hd : d < radix) :
    digitValue? radix (Nat.digitChar d) = some d := by
  have hall : ∀ radix ≤ 16, ∀ d < radix, digitValue? radix (Nat.digitChar d) = some d := by decide
  exact hall radix hradix d hd

theorem digitsValue_concat (ds : List Char) (c : Char) :
    digitsValue radix (ds ++ [c]) = digitsValue radix ds * radix + (digitValue? radix c).getD 0 := by
  rw [digitsValue, List.foldl_append]
  rfl

theorem digitsValue_toDigits (htwo : 1 < radix) (hradix : radix ≤ 16) (n : Nat) :
    digitsValue radix (Nat.toDigits radix n) = n := by
  induction n using Nat.strongRecOn with
  | _ n ih =>
    rw [Nat.toDigits_eq_if htwo]
    split
    · next hsmall => simp [digitsValue, digitValue?_digitChar hradix hsmall]
    · have hlast : n % radix < radix := Nat.mod_lt n (by omega)
      rw [digitsValue_concat, ih (n / radix) (Nat.div_lt_self (by omega) htwo), digitValue?_digitChar hradix hlast]
      exact Nat.div_add_mod' n radix

theorem isSome_of_mem_toDigits (htwo : 1 < radix) (hradix : radix ≤ 16) (n : Nat) :
    ∀ c ∈ Nat.toDigits radix n, (digitValue? radix c).isSome = true := by
  induction n using Nat.strongRecOn with
  | _ n ih =>
    intro c hc
    rw [Nat.toDigits_eq_if htwo] at hc
    split at hc
    · next hsmall =>
      rw [List.mem_singleton.mp hc, digitValue?_digitChar hradix hsmall]
      rfl
    · rcases List.mem_append.mp hc with hfront | hlast
      · exact ih (n / radix) (Nat.div_lt_self (by omega) htwo) c hfront
      · rw [List.mem_singleton.mp hlast, digitValue?_digitChar hradix (Nat.mod_lt n (by omega))]
        rfl

/-- A number other than zero does not start with a zero. -/
theorem head_toDigits (htwo : 1 < radix) (hradix : radix ≤ 16) {n : Nat}
    (h : (Nat.toDigits radix n).head? = some '0') : n = 0 := by
  have hdigit : ∀ d < 16, Nat.digitChar d = '0' → d = 0 := by decide
  induction n using Nat.strongRecOn with
  | _ n ih =>
    rw [Nat.toDigits_eq_if htwo] at h
    split at h
    · next hsmall => exact hdigit n (by omega) (Option.some.inj h)
    · next hlarge =>
      rw [List.head?_append_of_ne_nil _ Nat.toDigits_ne_nil] at h
      have hzero := ih (n / radix) (Nat.div_lt_self (by omega) htwo) h
      have hpos : 0 < n / radix := Nat.div_pos (by omega) (by omega)
      omega

/-- The text does not go on with a digit. -/
def NoDigit (radix : Nat) (rest : List Char) : Prop := ∀ c ∈ rest.head?, digitValue? radix c = none

theorem noDigit_nil : NoDigit radix [] := fun _ hc ↦ nomatch hc

theorem noDigit_cons {c : Char} (h : digitValue? radix c = none) (rest : List Char) : NoDigit radix (c :: rest) :=
  fun _ hc ↦ Option.some.inj hc ▸ h

theorem takeWhile_of_noDigit (h : NoDigit radix rest) :
    (rest.takeWhile fun c ↦ (digitValue? radix c).isSome) = [] := by
  cases rest with
  | nil => rfl
  | cons c rest => rw [List.takeWhile_cons, h c rfl]; rfl

theorem readNumber_of_noDigit (most : Nat) (h : NoDigit radix rest) : readNumber radix most rest = none := by
  rw [readNumber, takeWhile_of_noDigit h]
  rfl

theorem readNumber_toDigits (htwo : 1 < radix) (hradix : radix ≤ 16) (hmost : 0 < most) (hn : n < radix ^ most)
    (hrest : NoDigit radix rest) : readNumber radix most (Nat.toDigits radix n ++ rest) = some (n, rest) := by
  have hlength : (Nat.toDigits radix n).length ≤ most := (Nat.length_toDigits_le_iff htwo hmost).mpr hn
  have hdigits : ((Nat.toDigits radix n ++ rest).takeWhile fun c ↦ (digitValue? radix c).isSome) =
      Nat.toDigits radix n := by
    rw [List.takeWhile_append_of_pos (isSome_of_mem_toDigits htwo hradix n), takeWhile_of_noDigit hrest,
      List.append_nil]
  rw [readNumber, hdigits, if_neg (by simp [Nat.toDigits_ne_nil, hlength]), digitsValue_toDigits htwo hradix,
    List.drop_left]

theorem readBelow_toDigits {bound : Nat} (htwo : 1 < radix) (hradix : radix ≤ 16) (hmost : 0 < most)
    (hn : n < radix ^ most) (hbound : n < bound) (hrest : NoDigit radix rest) :
    readBelow bound radix most (Nat.toDigits radix n ++ rest) = some (n, rest) := by
  simp [readBelow, readNumber_toDigits htwo hradix hmost hn hrest, hbound]

/-! ## IPv4 addresses -/

theorem noDigit_of_hexadecimal (h : NoDigit 16 rest) : NoDigit 10 rest := by
  intro c hc
  have hnone := h c hc
  unfold digitValue? at hnone ⊢
  dsimp only at hnone ⊢
  grind

/-- A number without leading zeros is an octet in both grammars. -/
theorem readOctet_toDigits (hn : n < 256) (hrest : NoDigit 10 rest) :
    readOctet g (Nat.toDigits 10 n ++ rest) = some (n, rest) := by
  have hread : readBelow 256 10 3 (Nat.toDigits 10 n ++ rest) = some (n, rest) :=
    readBelow_toDigits (by decide) (by decide) (by decide) (by omega) hn hrest
  have hzeros : ¬ ((Nat.toDigits 10 n ++ rest).head? = some '0' ∧
      rest.length + 1 < (Nat.toDigits 10 n ++ rest).length) := by
    rintro ⟨hhead, hlong⟩
    rw [List.head?_append_of_ne_nil _ Nat.toDigits_ne_nil] at hhead
    rw [head_toDigits (by decide) (by decide) hhead, List.length_append, Nat.add_comm] at hlong
    exact Nat.lt_irrefl _ hlong
  rw [readOctet, hread]
  dsimp only [Option.bind_eq_bind, Option.bind_some]
  rw [if_neg fun h ↦ hzeros h.2]

theorem ofNat_octets (a : BitVec 32) :
    BitVec.ofNat 32 (((a.toNat / 16777216 * 256 + a.toNat / 65536 % 256) * 256 + a.toNat / 256 % 256) * 256 +
      a.toNat % 256) = a := by
  apply BitVec.eq_of_toNat_eq
  rw [BitVec.toNat_ofNat]
  have hlt := a.isLt
  omega

theorem readV4_textV4 (a : BitVec 32) (hrest : NoDigit 10 rest) :
    readV4 g (textV4 a ++ rest) = some (a, rest) := by
  have hfirst : a.toNat / 16777216 < 256 := by have := a.isLt; omega
  have hbyte (n : Nat) : n % 256 < 256 := Nat.mod_lt n (by decide)
  have hdot (s : List Char) : NoDigit 10 ('.' :: s) := noDigit_cons rfl s
  have htext : textV4 a ++ rest =
      Nat.toDigits 10 (a.toNat / 16777216) ++ '.' :: (Nat.toDigits 10 (a.toNat / 65536 % 256) ++
        '.' :: (Nat.toDigits 10 (a.toNat / 256 % 256) ++ '.' :: (Nat.toDigits 10 (a.toNat % 256) ++ rest))) := by
    rw [textV4, octets, List.map_cons, Text.join_cons]
    simp
  rw [htext, readV4]
  simp only [readOctet_toDigits hfirst (hdot _), readOctet_toDigits (hbyte _) (hdot _),
    readOctet_toDigits (hbyte _) hrest, readChar, if_true, Option.bind_eq_bind, Option.bind_some]
  rw [ofNat_octets]

theorem readChar_eq_some {c : Char} {s : List Char} {r : Unit × List Char} (h : readChar c s = some r) :
    s = c :: r.2 := by
  cases s with
  | nil => cases h
  | cons d s =>
    rw [readChar] at h
    split at h
    · next hd => rw [hd, ← Option.some.inj h]
    · cases h

theorem digits_of_readNumber {s : List Char} {r : Nat × List Char} (h : readNumber radix most s = some r) :
    ∃ ds, s = ds ++ r.2 ∧ ds ≠ [] ∧ ∀ c ∈ ds, (digitValue? radix c).isSome = true := by
  unfold readNumber at h
  dsimp only at h
  split at h
  · cases h
  · next hdigits =>
    cases h
    refine ⟨s.takeWhile fun c ↦ (digitValue? radix c).isSome, ?_, ?_, fun c ↦
      List.mem_takeWhile_imp (p := fun c ↦ (digitValue? radix c).isSome)⟩
    · exact (List.prefix_iff_eq_append.mp (List.takeWhile_prefix _)).symm
    · intro hnil
      exact hdigits (.inl (by rw [hnil]; rfl))

theorem digits_of_readOctet {s : List Char} {r : Nat × List Char} (h : readOctet g s = some r) :
    ∃ ds, s = ds ++ r.2 ∧ ds ≠ [] ∧ ∀ c ∈ ds, (digitValue? 10 c).isSome = true := by
  obtain ⟨⟨n, t⟩, hbelow, h⟩ := Option.bind_eq_some_iff.mp h
  obtain ⟨⟨n', t'⟩, hnumber, hbound⟩ := Option.bind_eq_some_iff.mp hbelow
  have hr : t' = r.2 := by
    simp only [Option.ite_none_right_eq_some, Option.ite_none_left_eq_some, Option.some.injEq] at h hbound
    rw [← h.2, ← (Prod.mk.inj hbound.2).2]
  exact hr ▸ digits_of_readNumber hnumber

/-- An IPv4 address starts with decimal digits and a dot. -/
theorem digits_of_readV4 {s : List Char} {r : BitVec 32 × List Char} (h : readV4 g s = some r) :
    ∃ ds t, s = ds ++ '.' :: t ∧ ds ≠ [] ∧ ∀ c ∈ ds, (digitValue? 10 c).isSome = true := by
  obtain ⟨octet, hoctet, h⟩ := Option.bind_eq_some_iff.mp h
  obtain ⟨dot, hdot, -⟩ := Option.bind_eq_some_iff.mp h
  obtain ⟨ds, hs, hne, hdigits⟩ := digits_of_readOctet hoctet
  exact ⟨ds, dot.2, by rw [hs, readChar_eq_some hdot], hne, hdigits⟩

theorem readV4_of_noDigit (h : NoDigit 10 rest) : readV4 g rest = none := by
  apply Option.eq_none_iff_forall_not_mem.mpr
  rintro r hr
  obtain ⟨ds, t, rfl, hne, hdigits⟩ := digits_of_readV4 hr
  cases ds with
  | nil => exact hne rfl
  | cons d ds =>
    have hdigit := hdigits d (.head _)
    rw [h d rfl] at hdigit
    cases hdigit

/-! ## IPv6 addresses -/

/-- What can stand behind a group: neither another digit, nor a dot, which would make the group the first octet of
an IPv4 address. -/
structure EndsGroup (rest : List Char) : Prop where
  noDigit : NoDigit 16 rest
  noDot : rest.head? ≠ some '.'

theorem readV4_of_group (n : Nat) (h : EndsGroup rest) : readV4 g (Nat.toDigits 16 n ++ rest) = none := by
  apply Option.eq_none_iff_forall_not_mem.mpr
  rintro r hr
  obtain ⟨ds, t, heq, -, hdigits⟩ := digits_of_readV4 hr
  have hdot : '.' ∉ Nat.toDigits 16 n := by
    intro hmem
    have hdigit := isSome_of_mem_toDigits (by decide) (by decide) n '.' hmem
    cases hdigit
  obtain ⟨more, hds, hrest⟩ := Text.append_of_append_eq hdot heq
  cases more with
  | nil => exact h.noDot (by rw [hrest]; rfl)
  | cons d more =>
    have hnone : digitValue? 10 d = none := noDigit_of_hexadecimal h.noDigit d (by rw [hrest]; rfl)
    have hdigit := hdigits d (by rw [hds]; exact List.mem_append_right _ (.head _))
    rw [hnone] at hdigit
    cases hdigit

/-- What can stand behind all groups: neither another digit or dot, nor a separator and another group. -/
structure EndsGroups (rest : List Char) : Prop extends EndsGroup rest where
  noGroup : ∀ r, rest = ':' :: r → NoDigit 16 r

theorem EndsGroup.of_colon (r : List Char) : EndsGroup (':' :: r) :=
  ⟨noDigit_cons rfl r, fun h ↦ by cases h⟩

/-- A gap. -/
theorem endsGroups_gap (r : List Char) : EndsGroups (':' :: ':' :: r) where
  toEndsGroup := .of_colon _
  noGroup := by
    rintro _ ⟨⟩
    exact noDigit_cons rfl r

/-- Groups with a separator in front of each. -/
def laterGroups (ns : List Nat) : List Char := ns.flatMap fun n ↦ ':' :: Nat.toDigits 16 n

theorem textGroups_cons (n : Nat) (ns : List Nat) :
    textGroups (n :: ns) = Nat.toDigits 16 n ++ laterGroups ns := by
  rw [textGroups, List.map_cons, Text.join_cons, laterGroups, List.flatMap_map]
  rfl

theorem endsGroup_laterGroups (ns : List Nat) (h : EndsGroup rest) : EndsGroup (laterGroups ns ++ rest) := by
  cases ns with
  | nil => exact h
  | cons n ns => exact .of_colon _

theorem readSeparated_of_endsGroups {α : Type} {read : Reader α} (hread : ∀ s, NoDigit 16 s → read s = none)
    (h : EndsGroups rest) (first : Bool) : readSeparated first read rest = none := by
  cases first with
  | true => exact hread rest h.noDigit
  | false =>
    rw [readSeparated, if_neg Bool.false_ne_true]
    cases hcolon : readChar ':' rest with
    | none => rfl
    | some r => exact hread r.2 (h.noGroup r.2 (readChar_eq_some hcolon))

/-- No group is read where the groups have ended. -/
theorem readGroups_of_endsGroups (h : EndsGroups rest) (first : Bool) (limit : Nat) :
    readGroups g first limit rest = ([], false, rest) := by
  cases limit with
  | zero => rfl
  | succ limit =>
    have hnumber := readSeparated_of_endsGroups (fun _ ↦ readNumber_of_noDigit 4) h first
    have hv4 : readSeparated first (readV4 g) rest = none :=
      readSeparated_of_endsGroups (fun _ hs ↦ readV4_of_noDigit (noDigit_of_hexadecimal hs)) h first
    simp [readGroups, hnumber, hv4]

/-- One group is read, and then the others. -/
theorem readGroups_group (first : Bool) (hn : n < 65536) (h : EndsGroup rest) (limit : Nat) :
    readGroups g first (limit + 1) ((if first then [] else [':']) ++ (Nat.toDigits 16 n ++ rest)) =
      (n :: (readGroups g false limit rest).1, (readGroups g false limit rest).2) := by
  have hnumber : readNumber 16 4 (Nat.toDigits 16 n ++ rest) = some (n, rest) :=
    readNumber_toDigits (by decide) (by decide) (by decide) (by omega) h.noDigit
  have hv4 : readV4 g (Nat.toDigits 16 n ++ rest) = none := readV4_of_group n h
  cases first <;> simp [readGroups, readSeparated, readChar, hnumber, hv4]

theorem readGroups_laterGroups {ns : List Nat} (hns : ∀ n ∈ ns, n < 65536) {limit : Nat} (hlimit : ns.length ≤ limit)
    (h : EndsGroups rest) : readGroups g false limit (laterGroups ns ++ rest) = (ns, false, rest) := by
  induction ns generalizing limit with
  | nil => exact readGroups_of_endsGroups h false limit
  | cons n ns ih =>
    rw [List.forall_mem_cons] at hns
    obtain ⟨limit, rfl⟩ : ∃ k, limit = k + 1 := ⟨limit - 1, by rw [List.length_cons] at hlimit; omega⟩
    have hgroup := readGroups_group (g := g) false hns.1 (endsGroup_laterGroups ns h.toEndsGroup) limit
    rw [ih hns.2 (Nat.le_of_succ_le_succ hlimit)] at hgroup
    simpa [laterGroups] using hgroup

theorem readGroups_textGroups {ns : List Nat} (hns : ∀ n ∈ ns, n < 65536) {limit : Nat} (hlimit : ns.length ≤ limit)
    (h : EndsGroups rest) : readGroups g true limit (textGroups ns ++ rest) = (ns, false, rest) := by
  cases ns with
  | nil => exact readGroups_of_endsGroups h true limit
  | cons n ns =>
    rw [List.forall_mem_cons] at hns
    obtain ⟨limit, rfl⟩ : ∃ k, limit = k + 1 := ⟨limit - 1, by rw [List.length_cons] at hlimit; omega⟩
    have hgroup := readGroups_group (g := g) true hns.1 (endsGroup_laterGroups ns h.toEndsGroup) limit
    rw [readGroups_laterGroups hns.2 (Nat.le_of_succ_le_succ hlimit) h] at hgroup
    rw [textGroups_cons, List.append_assoc]
    exact hgroup

/-- The groups around a gap are read, whatever stands behind the gap. -/
theorem readV6_gap {front back : List Nat} {s : List Char} {embeds : Bool} (hfront : ∀ n ∈ front, n < 65536)
    (hlength : front.length < 8)
    (hback : readGroups g true (8 - front.length - (if g.emptyGap then 0 else 1)) s = (back, embeds, rest)) :
    readV6 g (textGroups front ++ ':' :: ':' :: s) =
      some (ofGroups (front ++ List.replicate (8 - front.length - back.length) 0 ++ back), rest) := by
  have hread := readGroups_textGroups (g := g) hfront (Nat.le_of_lt hlength) (endsGroups_gap s)
  rw [readV6, hread]
  dsimp only
  rw [if_neg (Nat.ne_of_lt hlength), if_neg Bool.false_ne_true]
  simp only [readChar, if_true, Option.bind_eq_bind, Option.bind_some, hback]

theorem readV6_full {ns : List Nat} (hns : ∀ n ∈ ns, n < 65536) (hlength : ns.length = 8) (h : EndsGroups rest) :
    readV6 g (textGroups ns ++ rest) = some (ofGroups ns, rest) := by
  rw [readV6, readGroups_textGroups hns (Nat.le_of_eq hlength) h]
  exact if_pos hlength

/-- Two groups stand for an IPv4 address behind the group in front of it. -/
theorem readGroups_embedded (a : BitVec 32) (h : NoDigit 10 rest) {limit : Nat} (hlimit : 3 ≤ limit) :
    readGroups g true limit ("ffff:".toList ++ (textV4 a ++ rest)) =
      ([65535, a.toNat / 65536, a.toNat % 65536], true, rest) := by
  obtain ⟨limit, rfl⟩ : ∃ k, limit = k + 3 := ⟨limit - 3, by omega⟩
  have hv4 : readSeparated false (readV4 g) (':' :: (textV4 a ++ rest)) = some (a, rest) := by
    simp [readSeparated, readChar, readV4_textV4 a h]
  have hgroup := readGroups_group (g := g) (n := 65535) true (by decide) (.of_colon (textV4 a ++ rest)) (limit + 2)
  have hlater : readGroups g false (limit + 2) (':' :: (textV4 a ++ rest)) =
      ([a.toNat / 65536, a.toNat % 65536], true, rest) := by
    rw [readGroups, if_neg (by omega), hv4]
  rw [hlater] at hgroup
  exact hgroup

theorem replicate_append_drop (ns : List Nat) :
    List.replicate (ns.takeWhile (· == 0)).length 0 ++ ns.drop (ns.takeWhile (· == 0)).length = ns := by
  have hzeros : ns.takeWhile (· == 0) = List.replicate (ns.takeWhile (· == 0)).length 0 :=
    List.eq_replicate_iff.mpr ⟨rfl, fun n hn ↦ eq_of_beq (List.mem_takeWhile_imp (p := (· == 0)) hn)⟩
  calc
    _ = ns.takeWhile (· == 0) ++ ns.drop (ns.takeWhile (· == 0)).length := by rw [← hzeros]
    _ = ns := List.prefix_iff_eq_append.mp (List.takeWhile_prefix _)

/-- The longest run of zeros is one. -/
theorem longestZeros_eq (i : Nat) (ns : List Nat) (h : 0 < (longestZeros i ns).2) :
    ∃ k, (longestZeros i ns).1 = i + k ∧
      ns.take k ++ List.replicate (longestZeros i ns).2 0 ++ ns.drop (k + (longestZeros i ns).2) = ns := by
  induction ns generalizing i with
  | nil => exact absurd h (Nat.lt_irrefl 0)
  | cons n ns ih =>
    rw [longestZeros] at h ⊢
    split at h
    · next hhere =>
      rw [if_pos hhere]
      exact ⟨0, rfl, by simpa using replicate_append_drop (n :: ns)⟩
    · next hhere =>
      rw [if_neg hhere]
      obtain ⟨k, hstart, hns⟩ := ih (i + 1) h
      refine ⟨k + 1, by omega, ?_⟩
      rw [Nat.add_right_comm, List.take_succ_cons, List.drop_succ_cons, List.cons_append, List.cons_append, hns]

theorem lt_of_mem_groups (a : BitVec 128) : ∀ n ∈ groups a, n < 65536 := by
  intro n hn
  obtain ⟨i, -, rfl⟩ := List.mem_map.mp hn
  exact Nat.mod_lt _ (by decide)

theorem ofGroups_groups (a : BitVec 128) : ofGroups (groups a) = a := by
  apply BitVec.eq_of_toNat_eq
  have hlt := a.isLt
  simp only [ofGroups, groups, List.map_cons, List.map_nil, List.foldl_cons, List.foldl_nil, BitVec.toNat_ofNat,
    BitVec.toNat_ushiftRight, Nat.shiftRight_eq_div_pow]
  omega

theorem ofGroups_embedded {a : BitVec 128} {b : BitVec 32} (h : mapped? a = some b) :
    ofGroups (List.replicate 5 0 ++ [65535, b.toNat / 65536, b.toNat % 65536]) = a := by
  unfold mapped? at h
  split at h
  · next hfront =>
    rw [← Option.some.inj h]
    apply BitVec.eq_of_toNat_eq
    have hlt := a.isLt
    rw [BitVec.toNat_ushiftRight, Nat.shiftRight_eq_div_pow] at hfront
    simp only [ofGroups, List.replicate, List.cons_append, List.nil_append, List.foldl_cons, List.foldl_nil,
      BitVec.toNat_ofNat, BitVec.truncate_eq_setWidth, BitVec.toNat_setWidth]
    omega
  · cases h

theorem readV6_textV6 (a : BitVec 128) (h : EndsGroups rest) : readV6 g (textV6 a ++ rest) = some (a, rest) := by
  unfold textV6
  split
  · next b hmapped =>
    have hlimit : 3 ≤ 8 - ([] : List Nat).length - (if g.emptyGap then 0 else 1) := by
      split <;> decide
    have hback := readGroups_embedded (g := g) b (noDigit_of_hexadecimal h.noDigit) hlimit
    have hnone : ∀ n ∈ ([] : List Nat), n < 65536 := fun n hn ↦ nomatch hn
    have hread := readV6_gap hnone (by decide) hback
    rw [List.append_assoc]
    exact hread.trans (congrArg (fun bits ↦ some (bits, rest)) (ofGroups_embedded hmapped))
  · dsimp only
    split
    · next hgap =>
      obtain ⟨k, hstart, hzeros⟩ := longestZeros_eq 0 (groups a) (Nat.lt_of_succ_lt hgap)
      rw [Nat.zero_add] at hstart
      rw [hstart]
      have hlength := congrArg List.length hzeros
      have height : (groups a).length = 8 := rfl
      simp only [List.length_append, List.length_take, List.length_replicate, List.length_drop, height] at hlength
      have hlimit : ((groups a).drop (k + (longestZeros 0 (groups a)).2)).length ≤
          8 - ((groups a).take k).length - (if g.emptyGap then 0 else 1) := by
        rw [List.length_drop, List.length_take, height]
        split <;> omega
      have hback := readGroups_textGroups (g := g) (fun n hn ↦ lt_of_mem_groups a n (List.mem_of_mem_drop hn))
        hlimit h
      have hread := readV6_gap (fun n hn ↦ lt_of_mem_groups a n (List.mem_of_mem_take hn))
        (by rw [List.length_take, height]; omega) hback
      have hrun : 8 - ((groups a).take k).length - ((groups a).drop (k + (longestZeros 0 (groups a)).2)).length =
          (longestZeros 0 (groups a)).2 := by
        rw [List.length_take, List.length_drop, height]
        omega
      rw [hrun, hzeros, ofGroups_groups] at hread
      simpa using hread
    · exact (readV6_full (lt_of_mem_groups a) rfl h).trans (by rw [ofGroups_groups])

/-- The text of an IPv6 address does not start like an IPv4 address. -/
theorem readV4_textV6 (a : BitVec 128) (h : EndsGroup rest) : readV4 g (textV6 a ++ rest) = none := by
  have hcolon (r : List Char) : readV4 g (':' :: r) = none := readV4_of_noDigit (noDigit_cons rfl r)
  have hgroups (ns : List Nat) {rest : List Char} (h : EndsGroup rest) (hempty : ns = [] → rest.head? = some ':') :
      readV4 g (textGroups ns ++ rest) = none := by
    cases ns with
    | nil =>
      obtain ⟨r, rfl⟩ := List.head?_eq_some_iff.mp (hempty rfl)
      exact hcolon r
    | cons n ns =>
      rw [textGroups_cons, List.append_assoc]
      exact readV4_of_group n (endsGroup_laterGroups ns h)
  unfold textV6
  split
  · exact hcolon _
  · dsimp only
    split
    · rw [List.append_assoc]
      exact hgroups _ (.of_colon _) fun _ ↦ rfl
    · exact hgroups _ h fun hnil ↦ nomatch hnil

/-! ## Whole texts -/

theorem endsGroups_nil : EndsGroups [] := ⟨⟨noDigit_nil, fun h ↦ nomatch h⟩, fun _ h ↦ nomatch h⟩

/-- An address is read back from its text. -/
theorem parse?_text (a : IpAddress) : parse? a.text.toList = some a := by
  cases a with
  | v4 a =>
    have hread := readV4_textV4 (g := .plain) a noDigit_nil
    rw [List.append_nil] at hread
    simp [parse?, whole, text, hread]
  | v6 a =>
    have hv4 := readV4_textV6 (g := .plain) a endsGroups_nil.toEndsGroup
    have hread := readV6_textV6 (g := .plain) a endsGroups_nil
    rw [List.append_nil] at hv4 hread
    simp [parse?, whole, text, hv4, hread]

end RuleGate.IpAddress
