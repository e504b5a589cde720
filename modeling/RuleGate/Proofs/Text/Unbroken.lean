import RuleGate.Proofs.Http.Header
import RuleGate.Proofs.Net.Address
import RuleGate.Proofs.Text.Decoding

/-!
# Texts without a line feed

Which texts stay on one line: numbers and addresses, pieces of texts that do, and what was read from bytes
among which there is no line feed.
-/

namespace RuleGate

/-- The text holds no line feed. -/
def IsUnbroken (s : String) : Prop := '\n' ∉ s.toList

instance (s : String) : Decidable (IsUnbroken s) := inferInstanceAs (Decidable (¬ _))

theorem isUnbroken_append {s t : String} : IsUnbroken (s ++ t) ↔ IsUnbroken s ∧ IsUnbroken t := by
  rw [IsUnbroken, String.toList_append, List.mem_append, not_or]
  rfl

theorem isUnbroken_ofList {s : List Char} : IsUnbroken (String.ofList s) ↔ '\n' ∉ s := by
  rw [IsUnbroken, String.toList_ofList]

namespace IsUnbroken

variable {s t : String}

theorem append (hs : IsUnbroken s) (ht : IsUnbroken t) : IsUnbroken (s ++ t) :=
  isUnbroken_append.mpr ⟨hs, ht⟩

/-- Some of the characters of the text. -/
theorem ofList (h : IsUnbroken s) {l : List Char} (hl : l ⊆ s.toList) : IsUnbroken (String.ofList l) :=
  isUnbroken_ofList.mpr fun hmem ↦ h (hl hmem)

theorem of_all {p : Char → Bool} (hp : p '\n' = false) (h : ∀ c ∈ s.toList, p c = true) :
    IsUnbroken s := by
  intro hmem
  rw [h _ hmem] at hp
  cases hp

theorem getD {o : Option String} (h : ∀ s, o = some s → IsUnbroken s) : IsUnbroken (o.getD "") := by
  cases o with
  | none => exact List.not_mem_nil
  | some s => exact h s rfl

end IsUnbroken

/-! ## Numbers and addresses -/

theorem isUnbroken_toString (n : Nat) : IsUnbroken (toString n) := by
  rw [Nat.toString_eq_ofList_toDigits]
  refine IsUnbroken.of_all (p := Char.isDigit) (by decide) fun c hc ↦ ?_
  rw [String.toList_ofList] at hc
  exact Nat.isDigit_of_mem_toDigits (by decide) (by decide) hc

theorem IpAddress.isUnbroken_text (a : IpAddress) : IsUnbroken a.text :=
  IsUnbroken.of_all (p := isTextChar) (by decide) fun _ hc ↦ isTextChar_of_mem_text hc

theorem SocketAddress.isUnbroken_text (a : SocketAddress) : IsUnbroken a.text := by
  obtain ⟨ip, port, scope⟩ := a
  cases ip with
  | v4 b =>
    exact ((IpAddress.isUnbroken_text (.v4 b)).append (by decide)).append (isUnbroken_toString port)
  | v6 b =>
    have hscope : IsUnbroken (if scope = 0 then "" else "%" ++ toString scope) := by
      split
      · decide
      · exact IsUnbroken.append (by decide) (isUnbroken_toString scope)
    exact (((IsUnbroken.append (by decide) (IpAddress.isUnbroken_text (.v6 b))).append hscope).append
      (by decide)).append (isUnbroken_toString port)

/-! ## Header values -/

theorem Bytes.isUnbroken_toStringLossy {v : Bytes} (h : 10 ∉ v) : IsUnbroken v.toStringLossy :=
  isUnbroken_ofList.mpr fun hmem ↦ h (Text.newline_mem_of_lossy hmem)

theorem HeaderValue.isUnbroken_of_toVisible? {v : Bytes} {s : String} (h : toVisible? v = some s) :
    IsUnbroken s := by
  intro hmem
  have hnewline : ¬ ('\n' = '\t' ∨ IsVisible '\n') := by decide
  exact hnewline (char_of_toVisible? h _ hmem)

end RuleGate
