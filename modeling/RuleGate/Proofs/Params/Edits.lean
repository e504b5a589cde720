import RuleGate.Proofs.Params

/-!
# Parameters are a list of pairs

Parameters that are read from a query and then edited any number of times are the pairs of the query, edited as a
list: a key that is set stands in the place of its first pair, what is added comes last, and what is removed is gone,
while all other pairs keep their order. What the parameters say of a key is what the list says of it.
-/

namespace RuleGate

namespace Params

variable {key value : String}

/-! ## Setting a key -/

theorem dropBehind_of_lt {first counted : Nat} (h : first < counted) (pairs : List (String × String)) :
    dropBehind key first counted pairs = pairs.filter (·.1 != key) := by
  induction pairs generalizing counted with
  | nil => rfl
  | cons pair pairs ih =>
    rw [dropBehind, ih (Nat.lt_succ_of_lt h), List.filter_cons]
    by_cases hkey : pair.1 = key
    · rw [if_neg (not_or.mpr ⟨Nat.not_le.mpr h, not_not_intro hkey⟩), if_neg (by simpa using hkey)]
    · rw [if_pos (.inr hkey), if_pos (by simpa using hkey)]

/-- Nothing is dropped up to the index. -/
theorem dropBehind_append {first counted : Nat} {front : List (String × String)}
    (h : counted + front.length ≤ first + 1) (back : List (String × String)) :
    dropBehind key first counted (front ++ back) = front ++ dropBehind key first (counted + front.length) back := by
  induction front generalizing counted with
  | nil => rfl
  | cons pair front ih =>
    rw [List.length_cons] at h ⊢
    rw [List.cons_append, dropBehind, if_pos (.inl (by omega)), ih (by omega), List.cons_append,
      Nat.add_right_comm, Nat.add_assoc]

/-- The value that is set stands in the place of the first pair with the key, or at the end. -/
theorem pairs_set (p : Params) (key value : String) :
    (p.set key value).pairs = p.pairs.take (p.pairs.findIdx (·.1 == key)) ++
      (key, value) :: (p.pairs.drop (p.pairs.findIdx (·.1 == key) + 1)).filter (·.1 != key) := by
  unfold set
  split
  · next first hfirst =>
    obtain ⟨hlt, hindex⟩ := List.findIdx?_eq_some_iff_findIdx_eq.mp hfirst
    have hkey : p.pairs[first].1 = key := by
      obtain ⟨_, hkey, -⟩ := List.findIdx?_eq_some_iff_getElem.mp hfirst
      exact beq_iff_eq.mp hkey
    have hfront : (p.pairs.take first ++ [(key, value)]).length = first + 1 := by
      rw [List.length_append, List.length_take_of_le (Nat.le_of_lt hlt), List.length_singleton]
    rw [hindex]
    calc dropBehind key first 0 (p.pairs.modify first fun pair ↦ (pair.1, value))
        = dropBehind key first 0 ((p.pairs.take first ++ [(key, value)]) ++ p.pairs.drop (first + 1)) := by
          rw [List.modify_eq_take_cons_drop hlt, hkey, List.append_assoc, List.singleton_append]
      _ = p.pairs.take first ++ [(key, value)] ++ (p.pairs.drop (first + 1)).filter (·.1 != key) := by
          rw [dropBehind_append (by omega), dropBehind_of_lt (by omega)]
      _ = _ := by rw [List.append_assoc, List.singleton_append]
  · next hnone =>
    rw [List.findIdx?_eq_none_iff_findIdx_eq.mp hnone, List.take_length, List.drop_of_length_le (Nat.le_succ _)]
    rfl

/-! ## What the pairs say of a key -/

theorem getAll_eq (p : Params) (key : String) : p.getAll key = (p.pairs.filter (·.1 == key)).map (·.2) := by
  rw [getAll]
  induction p.pairs with
  | nil => rfl
  | cons pair pairs ih =>
    rw [List.filterMap_cons, List.filter_cons, ih]
    by_cases hkey : pair.1 = key <;> simp [hkey]

theorem get?_eq (p : Params) (key : String) : p.get? key = (p.pairs.find? (·.1 == key)).map (·.2) := by
  rw [get?, getAll_eq, List.head?_map, List.head?_filter]

theorem contains_iff (p : Params) (key : String) : p.contains key = true ↔ ∃ value, (key, value) ∈ p.pairs := by
  rw [contains, List.any_eq_true]
  constructor
  · rintro ⟨⟨k, value⟩, hmem, hkey⟩
    obtain rfl := beq_iff_eq.mp hkey
    exact ⟨value, hmem⟩
  · rintro ⟨value, hmem⟩
    exact ⟨(key, value), hmem, BEq.rfl⟩

end Params

/-- What can be done to parameters. -/
inductive ParamsEdit where
  | set (key value : String)
  | add (key value : String)
  | remove (key : String)
  | extend (other : Params)

namespace ParamsEdit

def apply (p : Params) : ParamsEdit → Params
  | set key value => p.set key value
  | add key value => p.add key value
  | remove key => p.erase key
  | extend other => p.append other

/-- What an edit makes of a list of pairs. -/
def onPairs (pairs : List (String × String)) : ParamsEdit → List (String × String)
  | set key value =>
    let first := pairs.findIdx (·.1 == key)
    pairs.take first ++ (key, value) :: (pairs.drop (first + 1)).filter (·.1 != key)
  | add key value => pairs ++ [(key, value)]
  | remove key => pairs.filter (·.1 != key)
  | extend other => pairs ++ other.pairs

theorem pairs_apply (p : Params) (e : ParamsEdit) : (apply p e).pairs = onPairs p.pairs e := by
  cases e with
  | set key value => exact p.pairs_set key value
  | _ => rfl

theorem pairs_foldl (p : Params) (edits : List ParamsEdit) :
    (edits.foldl apply p).pairs = edits.foldl onPairs p.pairs := by
  induction edits generalizing p with
  | nil => rfl
  | cons e edits ih => rw [List.foldl_cons, ih, pairs_apply, List.foldl_cons]

end ParamsEdit

namespace Params

/-- The parameters are the pairs of a list, in its order, and say of every key what the list says of it. -/
structure Lists (p : Params) (list : List (String × String)) : Prop where
  pairs : p.pairs = list
  get? : ∀ key, p.get? key = (list.find? (·.1 == key)).map (·.2)
  getAll : ∀ key, p.getAll key = (list.filter (·.1 == key)).map (·.2)
  contains : ∀ key, p.contains key = true ↔ ∃ value, (key, value) ∈ list

theorem lists_pairs (p : Params) : p.Lists p.pairs := ⟨rfl, p.get?_eq, p.getAll_eq, p.contains_iff⟩

/-- Parameters that are written are read back as they are, and edits of parameters that were read are edits of the
list of their pairs. -/
theorem edited_params_are_edited_list :
    (∀ p : Params, parse p.encode = p) ∧
    ∀ (query : String) (edits : List ParamsEdit),
      (edits.foldl ParamsEdit.apply (parse query)).Lists (edits.foldl ParamsEdit.onPairs (parse query).pairs) := by
  refine ⟨parse_encode, fun query edits ↦ ?_⟩
  rw [← ParamsEdit.pairs_foldl]
  exact lists_pairs _

end Params

end RuleGate
