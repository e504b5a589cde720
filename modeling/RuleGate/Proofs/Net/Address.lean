import RuleGate.Net.Address
import RuleGate.Proofs.Text.Split

/-!
# The texts of addresses

An address is written in hexadecimal digits, dots and colons, so that its text can stand on a line, in a header
value and between commas.
-/

namespace RuleGate.IpAddress

variable {b : Nat} {c : Char}

/-- A hexadecimal digit in lower case, a dot or a colon. -/
def isTextChar (c : Char) : Bool := "0123456789abcdef.:".toList.contains c

theorem isTextChar_of_mem_toDigits (hb : 1 < b) (hradix : b ≤ 16) (n : Nat) (hc : c ∈ Nat.toDigits b n) :
    isTextChar c = true := by
  have hdigit : ∀ d < 16, isTextChar (Nat.digitChar d) = true := by decide
  induction n using Nat.strongRecOn with
  | _ n ih =>
    rw [Nat.toDigits_eq_if hb] at hc
    split at hc
    · next hsmall =>
      rw [List.mem_singleton.mp hc]
      exact hdigit n (by omega)
    · rcases List.mem_append.mp hc with hfront | hlast
      · exact ih (n / b) (Nat.div_lt_self (by omega) hb) hfront
      · rw [List.mem_singleton.mp hlast]
        exact hdigit (n % b) (by have := Nat.mod_lt n (show b > 0 by omega); omega)

/-- Numbers with a separator between them. -/
theorem isTextChar_of_mem_join (hb : 1 < b) (hradix : b ≤ 16) {sep : Char} (hsep : isTextChar sep = true)
    {ns : List Nat} (hc : c ∈ Text.join [sep] (ns.map (Nat.toDigits b))) : isTextChar c = true := by
  rcases Text.mem_join hc with hc | ⟨w, hw, hc⟩
  · rw [List.mem_singleton.mp hc]
    exact hsep
  · obtain ⟨n, -, rfl⟩ := List.mem_map.mp hw
    exact isTextChar_of_mem_toDigits hb hradix n hc

theorem isTextChar_of_mem_textV4 {a : BitVec 32} (hc : c ∈ textV4 a) : isTextChar c = true :=
  isTextChar_of_mem_join (by decide) (by decide) (by decide) hc

theorem isTextChar_of_mem_textV6 {a : BitVec 128} (hc : c ∈ textV6 a) : isTextChar c = true := by
  have hgroups {ns : List Nat} (hc : c ∈ textGroups ns) : isTextChar c = true :=
    isTextChar_of_mem_join (by decide) (by decide) (by decide) hc
  have hmapped : ∀ c ∈ "::ffff:".toList, isTextChar c = true := List.all_eq_true.mp (by decide)
  unfold textV6 at hc
  split at hc
  · exact (List.mem_append.mp hc).elim (hmapped c) isTextChar_of_mem_textV4
  · dsimp only at hc
    split at hc
    · rw [List.mem_append, List.mem_cons, List.mem_cons] at hc
      rcases hc with hc | rfl | rfl | hc
      · exact hgroups hc
      · decide
      · decide
      · exact hgroups hc
    · exact hgroups hc

/-- Every character of the text of an address. -/
theorem isTextChar_of_mem_text {a : IpAddress} (hc : c ∈ a.text.toList) : isTextChar c = true := by
  cases a with
  | v4 a =>
    rw [text, String.toList_ofList] at hc
    exact isTextChar_of_mem_textV4 hc
  | v6 a =>
    rw [text, String.toList_ofList] at hc
    exact isTextChar_of_mem_textV6 hc

/-- What holds of the hexadecimal digits, the dot and the colon holds of the characters of an address. -/
theorem forall_mem_text {p : Char → Prop} [DecidablePred p]
    (h : "0123456789abcdef.:".toList.all (fun c ↦ decide (p c)) = true) (a : IpAddress) :
    ∀ c ∈ a.text.toList, p c := by
  intro c hc
  have hmem := List.contains_iff_mem.mp (isTextChar_of_mem_text hc)
  exact of_decide_eq_true (List.all_eq_true.mp h c hmem)

end RuleGate.IpAddress
