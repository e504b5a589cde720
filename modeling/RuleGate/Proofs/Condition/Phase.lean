import RuleGate.Proofs.Command.Frame
import RuleGate.Proofs.Condition.Formula
import RuleGate.Proofs.Except

/-!
# Conditions and the response

A condition waits for the response exactly if one of the checks in it looks at the response. Any other
condition has the same answer whatever the draft of the response is.
-/

namespace RuleGate

/-! ## Exchanges with the same request -/

namespace Exchange.OnlyDraftChanged

variable {x y z : Exchange}

theorem symm (h : OnlyDraftChanged x y) : OnlyDraftChanged y x :=
  ⟨h.request.symm, h.memo.symm, h.applied.symm⟩

theorem trans (h : OnlyDraftChanged x y) (h' : OnlyDraftChanged y z) : OnlyDraftChanged x z :=
  ⟨h'.request.trans h.request, h'.memo.trans h.memo, h'.applied.trans h.applied⟩

theorem exists_withDraft (h : OnlyDraftChanged x y) : ∃ d : ResponseDraft, y = x.withDraft fun _ ↦ d := by
  obtain ⟨request, draft, memo, applied⟩ := y
  obtain ⟨rfl, rfl, rfl⟩ := h
  exact ⟨draft, rfl⟩

end Exchange.OnlyDraftChanged

/-! ## Checks -/

namespace Check

/-- The kind under whose name a check is found. -/
def kind : Check → Kind
  | header _ _ => .header
  | responseHeader _ _ => .responseHeader
  | query _ _ => .query
  | cookie _ _ => .cookie
  | form _ _ => .form
  | bodyForm _ _ => .bodyForm
  | method _ => .method
  | host _ => .host
  | path _ => .path
  | remote _ => .remote
  | credentials _ _ => .credentials
  | route _ => .route
  | protocol _ => .protocol
  | status _ => .status

theorem kind_of_compile {args : List String} {k : Kind} {c : Check} (h : compile args k = .ok c) :
    c.kind = k := by
  cases k with
  | credentials =>
    obtain ⟨⟨user, hash⟩, -, h⟩ := bind_eq_ok.mp h
    dsimp only at h
    split at h <;> cases h
    rfl
  | protocol =>
    obtain ⟨name, -, h⟩ := bind_eq_ok.mp h
    obtain ⟨p, -, h⟩ := bind_eq_ok.mp h
    cases h
    rfl
  | _ =>
    obtain ⟨a, -, h⟩ := bind_eq_ok.mp h
    cases h
    rfl

theorem test_withDraft {c : Check} (h : c.kind.readsResponse = false) (x : Exchange)
    (f : ResponseDraft → ResponseDraft) : c.test (x.withDraft f) = c.test x := by
  cases c with
  | responseHeader name value => cases h
  | status r => cases h
  | _ => rfl

end Check

/-! ## Formulas -/

namespace Formula

/-- Whether some check looks at the response. -/
def readsResponse (f : Formula) : Bool := f.checks.any fun c ↦ c.kind.readsResponse

theorem holds_withDraft {f : Formula} (h : f.readsResponse = false) (x : Exchange)
    (g : ResponseDraft → ResponseDraft) : f.holds (x.withDraft g) = f.holds x := by
  rw [readsResponse, List.any_eq_false] at h
  exact holds_congr_checks f fun c hc ↦ Check.test_withDraft (Bool.eq_false_iff.mpr (h c hc)) x g

end Formula

/-! ## Conditions as they are read -/

/-- What succeeds among results comes from one of them. -/
theorem ok_mem_of_allOrErrors {α : Type} {results : List (Compiled α)} {as : List α} {a : α}
    (h : allOrErrors results = .ok as) (ha : a ∈ as) : .ok a ∈ results := by
  rw [allOrErrors_eq_ok h]
  exact List.mem_map_of_mem ha

namespace Condition

variable {env : Environment} {s : List Char} {parsed : Formula × Bool}

/-- Whether the flag beside a formula says if it looks at the response. -/
def FlagFits (parsed : Formula × Bool) : Prop := parsed.1.readsResponse = parsed.2

theorem any_readsResponse {parts : List (Formula × Bool)} (h : ∀ p ∈ parts, FlagFits p) :
    ((Formula.checksOf (parts.map (·.1))).any fun c ↦ c.kind.readsResponse) = parts.any (·.2) := by
  induction parts with
  | nil => rfl
  | cons p parts ih =>
    rw [List.forall_mem_cons] at h
    have hfirst : (p.1.checks.any fun c ↦ c.kind.readsResponse) = p.2 := h.1
    rw [List.map_cons, Formula.checksOf, List.any_append, List.any_cons, hfirst, ih h.2]

theorem parseCheck_fits (h : parseCheck env s = .ok parsed) : FlagFits parsed := by
  obtain ⟨d, -, h⟩ := bind_eq_ok.mp h
  dsimp only at h
  split at h
  · cases h
  · next kind _ =>
    split at h
    · cases h
    · next c hc =>
      cases h
      have hkind : c.kind = kind := Check.kind_of_compile hc
      have hchecks (negate : Bool) :
          (if negate then Formula.negated (.check c) else .check c).checks = [c] := by
        cases negate <;> rfl
      rw [FlagFits, Formula.readsResponse, hchecks, List.any_cons, List.any_nil, Bool.or_false, hkind]

theorem parseClause_fits (h : parseClause env s = .ok parsed) : FlagFits parsed := by
  unfold parseClause at h
  split at h
  · obtain ⟨alternatives, hall, h⟩ := bind_eq_ok.mp h
    cases h
    refine any_readsResponse fun p hp ↦ ?_
    obtain ⟨w, -, hw⟩ := List.mem_map.mp (ok_mem_of_allOrErrors hall hp)
    exact parseCheck_fits hw
  · exact parseCheck_fits h

theorem atLine_eq_ok_iff {α : Type} {i : Nat} {r : Compiled α} {a : α} :
    atLine i r = .ok a ↔ r = .ok a := by
  cases r <;> simp [atLine]

/-- The flag of a condition that was read is right. -/
theorem parse_fits {text : String} {c : Condition} (h : parse env text = .ok c) :
    c.formula.readsResponse = c.readsResponse := by
  obtain ⟨clauses, hall, h⟩ := bind_eq_ok.mp h
  cases h
  refine any_readsResponse fun p hp ↦ ?_
  obtain ⟨w, -, hw⟩ := List.mem_map.mp (ok_mem_of_allOrErrors hall hp)
  exact parseClause_fits (atLine_eq_ok_iff.mp hw)

end Condition

end RuleGate
