import Mathlib.Data.List.Basic
import RuleGate.Arguments
import RuleGate.Proofs.Except
import RuleGate.Proofs.Net.Address
import RuleGate.Proofs.Net.Reading

/-!
# Networks as prefixes

An address is a row of bits, the highest one first, and a network stands for the addresses of its family whose bits
begin like its own. Clearing the bits behind the prefix does not change for which, and where the prefix is a whole
address, comparing addresses gives the same answer. A network is read back from its text.
-/

namespace RuleGate

/-- The bits of an address, the highest one first. -/
def IpAddress.bits : IpAddress → List Bool
  | v4 a => (List.range 32).map a.getMsbD
  | v6 a => (List.range 128).map a.getMsbD

namespace Network

/-- The network stands for an address if that is of its family and begins with the bits of its prefix. -/
structure Covers (n : Network) (ip : IpAddress) : Prop where
  family : ip.width = n.address.width
  bits : ip.bits.take n.length = n.address.bits.take n.length

/-! ## Bits of the prefix -/

section Bits

variable {w k : Nat}

theorem take_bits_eq_iff (hk : k ≤ w) (a b : BitVec w) :
    ((List.range w).map a.getMsbD).take k = ((List.range w).map b.getMsbD).take k ↔
      ∀ i < k, a.getMsbD i = b.getMsbD i := by
  rw [← List.map_take, ← List.map_take, List.take_range, Nat.min_eq_left hk, List.map_inj_left]
  simp only [List.mem_range]

theorem shiftRight_eq_iff (hk : k ≤ w) (a b : BitVec w) :
    a >>> (w - k) = b >>> (w - k) ↔ ∀ i < k, a.getMsbD i = b.getMsbD i := by
  constructor
  · intro h i hi
    have hbit := congrArg (fun x ↦ x.getMsbD (i + (w - k))) h
    have hlt : i + (w - k) < w := by omega
    have hbehind : ¬ i + (w - k) < w - k := by omega
    simpa [BitVec.getMsbD_ushiftRight, hlt, hbehind] using hbit
  · intro h
    apply BitVec.eq_of_getMsbD_eq
    intro i hi
    rw [BitVec.getMsbD_ushiftRight, BitVec.getMsbD_ushiftRight]
    by_cases hfront : i < w - k
    · simp [hfront]
    · rw [h (i - (w - k)) (by omega)]

theorem getMsbD_cleared (hk : k ≤ w) (a : BitVec w) {i : Nat} (hi : i < k) :
    ((a >>> (w - k)) <<< (w - k)).getMsbD i = a.getMsbD i := by
  have hlt : i + (w - k) < w := by omega
  simp [BitVec.getMsbD_shiftLeft, BitVec.getMsbD_ushiftRight, hlt]

theorem map_getMsbD_injective (a b : BitVec w) :
    (List.range w).map a.getMsbD = (List.range w).map b.getMsbD ↔ a = b := by
  constructor
  · intro h
    apply BitVec.eq_of_getMsbD_eq
    intro i hi
    exact List.map_inj_left.mp h i (List.mem_range.mpr hi)
  · rintro rfl
    rfl

end Bits

variable {n : Network}

theorem contains_iff (hlength : n.length ≤ n.address.width) (ip : IpAddress) :
    n.contains ip = true ↔ n.Covers ip := by
  have hfront {w k : Nat} (hk : k ≤ w) (a b : BitVec w) : (a >>> (w - k) == b >>> (w - k)) = true ↔
      ((List.range w).map b.getMsbD).take k = ((List.range w).map a.getMsbD).take k := by
    rw [beq_iff_eq, shiftRight_eq_iff hk, ← take_bits_eq_iff hk, eq_comm]
  obtain ⟨address, length⟩ := n
  cases address with
  | v4 a =>
    cases ip with
    | v4 b => exact (hfront hlength a b).trans ⟨fun h ↦ ⟨rfl, h⟩, fun h ↦ h.bits⟩
    | v6 b => exact iff_of_false Bool.false_ne_true fun h ↦ nomatch h.family
  | v6 a =>
    cases ip with
    | v4 b => exact iff_of_false Bool.false_ne_true fun h ↦ nomatch h.family
    | v6 b => exact (hfront hlength a b).trans ⟨fun h ↦ ⟨rfl, h⟩, fun h ↦ h.bits⟩

@[simp] theorem truncate_length (n : Network) : n.truncate.length = n.length := by
  unfold truncate
  split <;> rfl

@[simp] theorem truncate_width (n : Network) : n.truncate.address.width = n.address.width := by
  unfold truncate
  split <;> simp [IpAddress.width, *]

/-- The bits behind the prefix do not matter. -/
theorem covers_truncate_iff (hlength : n.length ≤ n.address.width) (ip : IpAddress) :
    n.truncate.Covers ip ↔ n.Covers ip := by
  have hbits : n.truncate.address.bits.take n.length = n.address.bits.take n.length := by
    obtain ⟨address, length⟩ := n
    cases address with
    | v4 a => exact (take_bits_eq_iff hlength _ _).mpr fun i hi ↦ getMsbD_cleared hlength a hi
    | v6 a => exact (take_bits_eq_iff hlength _ _).mpr fun i hi ↦ getMsbD_cleared hlength a hi
  constructor
  · rintro ⟨hfamily, hfront⟩
    rw [truncate_length, hbits] at hfront
    exact ⟨by rw [hfamily, truncate_width], hfront⟩
  · rintro ⟨hfamily, hfront⟩
    refine ⟨by rw [hfamily, truncate_width], ?_⟩
    rw [truncate_length, hbits, hfront]

theorem length_bits (ip : IpAddress) : ip.bits.length = ip.width := by
  cases ip <;> simp [IpAddress.bits, IpAddress.width]

theorem bits_injective {a b : IpAddress} (hfamily : a.width = b.width) (h : a.bits = b.bits) : a = b := by
  cases a with
  | v4 a =>
    cases b with
    | v4 b => exact congrArg IpAddress.v4 ((map_getMsbD_injective a b).mp h)
    | v6 b => cases hfamily
  | v6 a =>
    cases b with
    | v4 b => cases hfamily
    | v6 b => exact congrArg IpAddress.v6 ((map_getMsbD_injective a b).mp h)

/-- The network of one host stands for the address of that host. -/
theorem covers_host_iff (hhost : n.isHost = true) (ip : IpAddress) : n.Covers ip ↔ n.address = ip := by
  have hlength : n.length = n.address.width := eq_of_beq hhost
  constructor
  · rintro ⟨hfamily, hfront⟩
    rw [hlength, ← length_bits n.address, List.take_length, length_bits, ← hfamily, ← length_bits,
      List.take_length] at hfront
    exact (bits_injective hfamily hfront).symm
  · rintro rfl
    exact ⟨rfl, rfl⟩

/-- Comparing with the address of a host is asking whether its network contains the address. -/
theorem eq_address_eq_contains (hhost : n.isHost = true) (ip : IpAddress) :
    (n.address == ip) = n.contains ip := by
  have hlength : n.length ≤ n.address.width := Nat.le_of_eq (eq_of_beq hhost)
  rw [Bool.eq_iff_iff, beq_iff_eq, contains_iff hlength, covers_host_iff hhost]

/-! ## Texts of networks -/

open IpAddress

/-- What stands behind an address in the text of a network. -/
theorem endsGroups_slash (s : List Char) : EndsGroups ('/' :: s) where
  noDigit := noDigit_cons rfl s
  noDot := by simp
  noGroup := by simp

theorem readBelow_length {bound length : Nat} (hlength : length < bound) (hbound : bound ≤ 1000) :
    readBelow bound 10 3 (Nat.toDigits 10 length) = some (length, []) := by
  have hread : readBelow bound 10 3 (Nat.toDigits 10 length ++ []) = some (length, []) :=
    readBelow_toDigits (by decide) (by decide) (by decide) (Nat.lt_of_lt_of_le hlength hbound) hlength noDigit_nil
  rwa [List.append_nil] at hread

/-- A network is read back from its text, whatever the bits behind its prefix are. -/
theorem parse?_text (hlength : n.length ≤ n.address.width) : parse? n.text.toList = some n := by
  obtain ⟨address, length⟩ := n
  have hslash (s : List Char) : readChar '/' ('/' :: s) = some ((), s) := rfl
  have hend := endsGroups_slash (Nat.toDigits 10 length)
  cases address with
  | v4 a =>
    have haddress := readV4_textV4 (g := .network) a (noDigit_of_hexadecimal hend.noDigit)
    have hread : readBelow 33 10 3 (Nat.toDigits 10 length) = _ :=
      readBelow_length (Nat.lt_succ_of_le hlength) (by decide)
    simp [parse?, text, IpAddress.text, haddress, hslash, hread]
  | v6 a =>
    have hv4 := readV4_textV6 (g := .network) a hend.toEndsGroup
    have haddress := readV6_textV6 (g := .network) a hend
    have hread : readBelow 129 10 3 (Nat.toDigits 10 length) = _ :=
      readBelow_length (Nat.lt_succ_of_le hlength) (by decide)
    simp [parse?, text, IpAddress.text, hv4, haddress, hslash, hread, whole]

theorem lt_of_readBelow {bound radix most : Nat} {s : List Char} {r : Nat × List Char}
    (h : readBelow bound radix most s = some r) : r.1 < bound := by
  obtain ⟨⟨n, rest⟩, -, h⟩ := Option.bind_eq_some_iff.mp h
  obtain ⟨hbound, hr⟩ := Option.ite_none_right_eq_some.mp h
  rwa [← Option.some.inj hr]

/-- A prefix that is read is no longer than an address. -/
theorem length_of_parse? {s : List Char} (h : parse? s = some n) : n.length ≤ n.address.width := by
  unfold parse? at h
  dsimp only at h
  split at h
  · next n' r hv4 =>
    split at h
    · cases h
      obtain ⟨a, -, hv4⟩ := Option.bind_eq_some_iff.mp hv4
      obtain ⟨slash, -, hv4⟩ := Option.bind_eq_some_iff.mp hv4
      obtain ⟨length, hlength, hv4⟩ := Option.bind_eq_some_iff.mp hv4
      cases hv4
      exact Nat.le_of_lt_succ (lt_of_readBelow hlength)
    · cases h
  · unfold whole at h
    split at h
    · next n' hv6 =>
      cases h
      obtain ⟨a, -, hv6⟩ := Option.bind_eq_some_iff.mp hv6
      obtain ⟨slash, -, hv6⟩ := Option.bind_eq_some_iff.mp hv6
      obtain ⟨length, hlength, hv6⟩ := Option.bind_eq_some_iff.mp hv6
      rw [← (Prod.mk.inj (Option.some.inj hv6)).1]
      exact Nat.le_of_lt_succ (lt_of_readBelow hlength)
    · cases h

/-- How a rule names a network: by an address, which is the network of one host, or by an address with a slash and
the length of the prefix behind it. -/
inductive Written : String → Network → Prop
  | address {s : String} {a : IpAddress} (slash : '/' ∉ s.toList) (read : IpAddress.parse? s.toList = some a) :
      Written s (.ofAddress a)
  | range {s : String} {n : Network} (slash : '/' ∈ s.toList) (read : Network.parse? s.toList = some n) : Written s n

theorem Written.length_le {s : String} (h : Written s n) : n.length ≤ n.address.width := by
  cases h with
  | address => exact Nat.le_refl _
  | range _ hread => exact length_of_parse? hread

theorem Written.unique {s : String} {n' : Network} (h : Written s n) (h' : Written s n') : n = n' := by
  cases h with
  | address hno hread =>
    cases h' with
    | address hno' hread' => rw [Option.some.inj (hread.symm.trans hread')]
    | range hyes' hread' => exact absurd hyes' hno
  | range hyes hread =>
    cases h' with
    | address hno' hread' => exact absurd hyes hno'
    | range hyes' hread' => exact Option.some.inj (hread.symm.trans hread')

/-- An address is the name of its host. -/
theorem written_text_address (a : IpAddress) : Written a.text (.ofAddress a) :=
  .address (fun hmem ↦ IpAddress.forall_mem_text (p := (· ≠ '/')) (by decide) a '/' hmem rfl) (IpAddress.parse?_text a)

/-- The text of a network is a name of it, whatever the bits behind its prefix are. -/
theorem written_text (hlength : n.length ≤ n.address.width) : Written n.text n :=
  .range (by simp [text]) (parse?_text hlength)

theorem truncate_ofAddress (a : IpAddress) : (ofAddress a).truncate = ofAddress a := by
  cases a <;> simp [ofAddress, truncate, IpAddress.width]

/-- The argument of a check is the name of a network, of which the bits behind the prefix are cleared. -/
theorem arguments_network_eq_ok_iff {args : List String} {m : Network} :
    Arguments.network args = .ok m ↔ ∃ raw n, args = [raw] ∧ Written raw n ∧ m = n.truncate := by
  have hslash (raw : String) : raw.contains '/' = true ↔ '/' ∈ raw.toList := by simp
  constructor
  · intro h
    obtain ⟨raw, hraw, hnetwork⟩ := bind_eq_ok.mp h
    obtain rfl : args = [raw] := by
      unfold Arguments.one at hraw
      split at hraw <;> cases hraw
      rfl
    dsimp only at hnetwork
    split at hnetwork
    · next hcontains =>
      split at hnetwork
      · next n hread => exact ⟨raw, n, rfl, .range ((hslash raw).mp hcontains) hread, (Except.ok.inj hnetwork).symm⟩
      · cases hnetwork
    · next hcontains =>
      split at hnetwork
      · next a hread =>
        refine ⟨raw, _, rfl, .address (fun hmem ↦ hcontains ((hslash raw).mpr hmem)) hread, ?_⟩
        rw [truncate_ofAddress]
        exact (Except.ok.inj hnetwork).symm
      · cases hnetwork
  · rintro ⟨raw, n, rfl, hwritten, rfl⟩
    apply bind_eq_ok.mpr
    refine ⟨raw, rfl, ?_⟩
    dsimp only
    cases hwritten with
    | address hno hread =>
      rw [if_neg fun hcontains ↦ hno ((hslash raw).mp hcontains), hread, truncate_ofAddress]
      rfl
    | range hyes hread =>
      rw [if_pos ((hslash raw).mpr hyes), hread]
      rfl

end Network

end RuleGate
