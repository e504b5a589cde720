import RuleGate.Error

/-!
# Computations that may fail

Where a computation made of others succeeds, each part of it does.
-/

namespace RuleGate

section Except

variable {ε α β : Type}

theorem bind_eq_ok {x : Except ε α} {f : α → Except ε β} {b : β} :
    (x >>= f) = .ok b ↔ ∃ a, x = .ok a ∧ f a = .ok b := by
  cases x <;> simp [bind, Except.bind]

theorem map_eq_ok {x : Except ε α} {f : α → β} {b : β} :
    x.map f = .ok b ↔ ∃ a, x = .ok a ∧ f a = b := by
  cases x <;> simp [Except.map]

end Except

theorem RuleError.join_eq_none {es : List RuleError} (h : RuleError.join es = none) : es = [] := by
  match es with
  | [] => rfl
  | [_] => cases h
  | _ :: _ :: _ => cases h

theorem collect_of_no_errors {α : Type} {results : List (Compiled α)} (h : (collect results).2 = []) :
    results = (collect results).1.map .ok := by
  induction results with
  | nil => rfl
  | cons r rs ih =>
    cases r with
    | ok a => rw [collect, List.map_cons, ← ih h]
    | error e => cases h

/-- All results are there if none of them is an error. -/
theorem allOrErrors_eq_ok {α : Type} {results : List (Compiled α)} {as : List α}
    (h : allOrErrors results = .ok as) : results = as.map .ok := by
  unfold allOrErrors at h
  split at h
  · cases h
  · next hjoin =>
    rw [← Except.ok.inj h]
    exact collect_of_no_errors (RuleError.join_eq_none hjoin)

theorem collect_map_ok {α : Type} (as : List α) : collect (as.map Except.ok) = (as, []) := by
  induction as with
  | nil => rfl
  | cons a as ih => rw [List.map_cons, collect, ih]

theorem allOrErrors_eq_ok_iff {α : Type} {results : List (Compiled α)} {as : List α} :
    allOrErrors results = .ok as ↔ results = as.map .ok := by
  refine ⟨allOrErrors_eq_ok, fun h ↦ ?_⟩
  rw [h, allOrErrors, collect_map_ok]
  rfl

theorem mem_errors_of_mem {α : Type} {results : List (Compiled α)} {e : RuleError}
    (h : .error e ∈ results) : e ∈ (collect results).2 := by
  induction results with
  | nil => cases h
  | cons result results ih =>
    obtain rfl | hrest := List.mem_cons.mp h
    · exact List.mem_cons_self
    · cases result with
      | ok a => exact ih hrest
      | error e' => exact List.mem_cons_of_mem _ (ih hrest)

theorem mem_of_mem_errors {α : Type} {results : List (Compiled α)} {e : RuleError}
    (h : e ∈ (collect results).2) : .error e ∈ results := by
  induction results with
  | nil => cases h
  | cons result results ih =>
    cases result with
    | ok a => exact List.mem_cons_of_mem _ (ih h)
    | error e' =>
      obtain rfl | hrest := List.mem_cons.mp h
      · exact List.mem_cons_self
      · exact List.mem_cons_of_mem _ (ih hrest)

/-- The error of all results is one of theirs, or a list of errors. -/
theorem mem_of_allOrErrors_eq_error {α : Type} {results : List (Compiled α)} {e : RuleError}
    (h : allOrErrors results = .error e) : .error e ∈ results ∨ ∃ causes, e = .multiple causes := by
  unfold allOrErrors at h
  match herrors : (collect results).2 with
  | [] =>
    rw [herrors] at h
    cases h
  | [f] =>
    rw [herrors] at h
    cases h
    exact .inl (mem_of_mem_errors (by rw [herrors]; exact .head _))
  | f :: g :: causes =>
    rw [herrors] at h
    cases h
    exact .inr ⟨_, rfl⟩

/-- An error among results is the error of all, or one of several that are. -/
theorem exists_error_of_mem {α : Type} {results : List (Compiled α)} {e : RuleError}
    (h : .error e ∈ results) :
    ∃ f, allOrErrors results = .error f ∧ (f = e ∨ ∃ causes, f = .multiple causes ∧ e ∈ causes) := by
  have hmem := mem_errors_of_mem h
  unfold allOrErrors
  match herrors : (collect results).2 with
  | [] =>
    rw [herrors] at hmem
    cases hmem
  | [f] =>
    rw [herrors, List.mem_singleton] at hmem
    exact ⟨f, rfl, .inl hmem.symm⟩
  | f :: g :: causes => exact ⟨_, rfl, .inr ⟨f :: g :: causes, rfl, herrors ▸ hmem⟩⟩

/-- Results together are an error exactly if one of them is. -/
theorem exists_allOrErrors_eq_error_iff {α : Type} {results : List (Compiled α)} :
    (∃ e, allOrErrors results = .error e) ↔ ∃ e, .error e ∈ results := by
  constructor
  · rintro ⟨e, h⟩
    cases herrors : (collect results).2 with
    | nil =>
      rw [allOrErrors, herrors] at h
      cases h
    | cons f errors => exact ⟨f, mem_of_mem_errors (by rw [herrors]; exact .head _)⟩
  · rintro ⟨e, h⟩
    obtain ⟨f, hf, -⟩ := exists_error_of_mem h
    exact ⟨f, hf⟩

end RuleGate
