import Mathlib.Data.List.Basic
import RuleGate.Proofs.Except

/-!
# Errors that are collected

What is wrong is collected at several levels. At each level a single error stays as it is, several become a list, and
context is put around the whole. An error gathers others if opening its lists, with the context moved inwards, gives
these others. One of them may be a list itself, so the relation says where the opening stops.
-/

namespace RuleGate

namespace RuleError

mutual

/-- Opening the lists of an error gives others in order, each in the context of the lists it stood in. -/
inductive Gathers : RuleError → List RuleError → Prop
  | entry (e : RuleError) : Gathers e [e]
  | subject {e : RuleError} {es : List RuleError} (text : String) (h : Gathers e es) :
      Gathers (subject text e) (es.map (subject text))
  | inRule {e : RuleError} {es : List RuleError} (name : String) (h : Gathers e es) :
      Gathers (inRule name e) (es.map (inRule name))
  | multiple {causes es : List RuleError} (h : GathersAll causes es) : Gathers (multiple causes) es

inductive GathersAll : List RuleError → List RuleError → Prop
  | nil : GathersAll [] []
  | cons {e : RuleError} {causes es es' : List RuleError} (h : Gathers e es) (hs : GathersAll causes es') :
      GathersAll (e :: causes) (es ++ es')

end

mutual

/-- The errors in the lists of an error, however deep, each in the context of the lists it stands in. -/
def leaves : RuleError → List RuleError
  | subject text cause => (leaves cause).map (subject text)
  | withHelp cause help => (leaves cause).map fun e ↦ withHelp e help
  | inRule name cause => (leaves cause).map (inRule name)
  | multiple causes => leavesOfAll causes
  | e => [e]

def leavesOfAll : List RuleError → List RuleError
  | [] => []
  | e :: causes => leaves e ++ leavesOfAll causes

end

theorem flatMap_leaves_map (es : List RuleError) {f : RuleError → RuleError}
    (h : ∀ e, leaves (f e) = (leaves e).map f) : (es.map f).flatMap leaves = (es.flatMap leaves).map f := by
  simp only [List.flatMap_map, List.map_flatMap, h]

mutual

/-- Whatever else stands in what was gathered, it is found in order. -/
theorem Gathers.leaves_eq {e : RuleError} {es : List RuleError} : Gathers e es → leaves e = es.flatMap leaves
  | .entry e => by rw [List.flatMap_singleton]
  | .subject text h => by
    rw [flatMap_leaves_map _ fun _ ↦ by rw [leaves], leaves, h.leaves_eq]
  | .inRule name h => by
    rw [flatMap_leaves_map _ fun _ ↦ by rw [leaves], leaves, h.leaves_eq]
  | .multiple h => by rw [leaves, h.leaves_eq]

theorem GathersAll.leaves_eq {causes es : List RuleError} :
    GathersAll causes es → leavesOfAll causes = es.flatMap leaves
  | .nil => by rw [leavesOfAll, List.flatMap_nil]
  | .cons h hs => by rw [leavesOfAll, h.leaves_eq, hs.leaves_eq, List.flatMap_append]

end

theorem GathersAll.of_join {causes es : List RuleError} (h : GathersAll causes es) {e : RuleError}
    (he : join causes = some e) : e.Gathers es := by
  match causes, h with
  | [_], .cons hfirst .nil =>
    cases he
    rwa [List.append_nil]
  | _ :: _ :: _, h =>
    cases he
    exact .multiple h

theorem GathersAll.self : (es : List RuleError) → GathersAll es es
  | [] => .nil
  | e :: es => .cons (.entry e) (self es)

/-- Errors that are no lists are found again in what they were joined to. -/
theorem leaves_of_join {es : List RuleError} (hes : ∀ e ∈ es, e.leaves = [e]) {e : RuleError}
    (h : join es = some e) : e.leaves = es := by
  rw [((GathersAll.self es).of_join h).leaves_eq, List.flatMap_congr hes, List.flatMap_singleton']

end RuleError

/-- The error of a result, if it is one. -/
def errorsOf {α : Type} : Compiled α → List RuleError
  | .ok _ => []
  | .error e => [e]

/-- A result is an error exactly if there is something to report, and then it gathers what there is. -/
inductive Reports {α : Type} : Compiled α → List RuleError → Prop
  | ok (a : α) : Reports (.ok a) []
  | error {e : RuleError} {es : List RuleError} (gathers : e.Gathers es) (some : es ≠ []) : Reports (.error e) es

namespace Reports

variable {α β : Type} {result : Compiled α} {es : List RuleError}

theorem own (result : Compiled α) : Reports result (errorsOf result) := by
  cases result with
  | ok a => exact .ok a
  | error e => exact .error (.entry e) (List.cons_ne_nil _ _)

theorem gathers (h : Reports result es) {e : RuleError} (he : result = .error e) : e.Gathers es := by
  cases h with
  | ok a => cases he
  | error hgathers =>
    cases he
    exact hgathers

theorem eq_nil_iff (h : Reports result es) : es = [] ↔ ∃ a, result = .ok a := by
  cases h with
  | ok a => simp
  | error _ hsome => simp [hsome]

/-- What is made of a result that is no error does not matter. -/
theorem bind_ok (h : Reports result es) (f : α → β) : Reports (result >>= fun a ↦ .ok (f a)) es := by
  cases h with
  | ok a => exact .ok (f a)
  | error hgathers hsome => exact .error hgathers hsome

/-- What is collected from results gathers what they report, and nothing is collected only if they report nothing. -/
theorem collect_map {ι : Type} (items : List ι) {f : ι → Compiled α} {g : ι → List RuleError}
    (h : ∀ i ∈ items, Reports (f i) (g i)) :
    RuleError.GathersAll (collect (items.map f)).2 (items.flatMap g) ∧
      ((collect (items.map f)).2 = [] ↔ items.flatMap g = []) := by
  induction items with
  | nil => exact ⟨.nil, Iff.rfl⟩
  | cons i items ih =>
    obtain ⟨hfirst, hrest⟩ := List.forall_mem_cons.mp h
    obtain ⟨hgathers, hnil⟩ := ih hrest
    rw [List.map_cons, List.flatMap_cons]
    cases hresult : f i with
    | ok a =>
      have hnone : g i = [] := hfirst.eq_nil_iff.mpr ⟨a, hresult⟩
      rw [hnone]
      exact ⟨hgathers, hnil⟩
    | error e =>
      have hsome : g i ≠ [] := by
        rw [Ne, hfirst.eq_nil_iff, hresult]
        rintro ⟨a, ha⟩
        cases ha
      exact ⟨.cons (hfirst.gathers hresult) hgathers, by simp [collect, hsome]⟩

/-- The errors of all results are reported together, in order. -/
theorem allOrErrors_map {ι : Type} (items : List ι) {f : ι → Compiled α} {g : ι → List RuleError}
    (h : ∀ i ∈ items, Reports (f i) (g i)) : Reports (allOrErrors (items.map f)) (items.flatMap g) := by
  obtain ⟨hgathers, hnil⟩ := collect_map items h
  unfold allOrErrors
  cases hjoin : RuleError.join (collect (items.map f)).2 with
  | none =>
    rw [hnil.mp (RuleError.join_eq_none hjoin)]
    exact .ok _
  | some e =>
    refine .error (hgathers.of_join hjoin) fun hnone ↦ ?_
    rw [hnil.mpr hnone] at hjoin
    cases hjoin

end Reports

end RuleGate
