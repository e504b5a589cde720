import RuleGate.Params
import RuleGate.Proofs.Percent
import RuleGate.Proofs.Text.Split

/-!
# Reading parameters that were written

Writing parameters and reading them again gives the same pairs in the same order. Keys and values may
be any texts: what divides pairs, keys and values never occurs in an encoded one.
-/

namespace RuleGate.Params

/-- The characters that divide a query, end it, or stand for others in it. -/
def delimiters : List Char := ['&', '=', '+', '#', '?']

theorem delimiter_not_mem_encode {d : Char} (hd : d ∈ delimiters) (s : String) :
    d ∉ (Percent.encode s).toList := by
  rw [Percent.encode, String.toList_ofList]
  simp only [delimiters, List.mem_cons, List.not_mem_nil, or_false] at hd
  rcases hd with rfl | rfl | rfl | rfl | rfl
  all_goals exact Percent.not_mem_encodeBytes (by decide) (by decide) (by decide) _

/-- What is encoded holds no plus sign to be taken for a space. -/
theorem map_plus_encode (s : String) :
    (Percent.encode s).toList.map (fun c ↦ if c = '+' then ' ' else c) = (Percent.encode s).toList := by
  refine (List.map_congr_left fun c hc ↦ ?_).trans (List.map_id _)
  rw [if_neg fun h ↦ delimiter_not_mem_encode (by decide) s (h ▸ hc), id]

theorem decodeComponent_encode (s : String) : decodeComponent (Percent.encode s).toList = s := by
  rw [decodeComponent, map_plus_encode, String.ofList_toList, Percent.decodeOrSelf_encode]

/-! ## Pairs -/

theorem parsePair_encodePair (pair : String × String) : parsePair (encodePair pair) = pair := by
  rw [parsePair, encodePair, Text.cut?_append (delimiter_not_mem_encode (by decide) pair.1)]
  dsimp only
  rw [decodeComponent_encode, decodeComponent_encode]

theorem encodePair_ne_nil (pair : String × String) : encodePair pair ≠ [] := by
  simp [encodePair]

theorem mem_encodePair {c : Char} {pair : String × String} (h : c ∈ encodePair pair) :
    c ∈ (Percent.encode pair.1).toList ∨ c = '=' ∨ c ∈ (Percent.encode pair.2).toList := by
  rwa [encodePair, List.mem_append, List.mem_cons] at h

theorem delimiter_not_mem_encodePair {d : Char} (hd : d ∈ delimiters) (hne : d ≠ '=')
    (pair : String × String) : d ∉ encodePair pair := by
  intro h
  rcases mem_encodePair h with h | h | h
  · exact delimiter_not_mem_encode hd _ h
  · exact hne h
  · exact delimiter_not_mem_encode hd _ h

/-! ## All parameters -/

/-- A written query holds neither a question mark nor a fragment sign. -/
theorem delimiter_not_mem_encodeAll {d : Char} (hd : d ∈ delimiters) (hne : d ≠ '=') (hand : d ≠ '&')
    (p : Params) : d ∉ p.encode.toList := by
  rw [encode, String.toList_ofList]
  intro h
  rcases Text.mem_join h with h | ⟨w, hw, h⟩
  · exact hand (List.mem_singleton.mp h)
  · obtain ⟨pair, -, rfl⟩ := List.mem_map.mp hw
    exact delimiter_not_mem_encodePair hd hne pair h

/-- Between the separators of written parameters stand the written pairs. -/
theorem pieces_encode (p : Params) :
    (Text.splitOn '&' p.encode.toList).filter (fun w ↦ !w.isEmpty) = p.pairs.map encodePair := by
  rw [encode, String.toList_ofList]
  by_cases hsome : p.pairs.map encodePair = []
  · rw [hsome]
    rfl
  · have hand : ∀ w ∈ p.pairs.map encodePair, '&' ∉ w := by
      intro w hw
      obtain ⟨pair, -, rfl⟩ := List.mem_map.mp hw
      exact delimiter_not_mem_encodePair (by decide) (by decide) pair
    rw [Text.splitOn_join hsome hand, List.filter_eq_self]
    intro w hw
    obtain ⟨pair, -, rfl⟩ := List.mem_map.mp hw
    simpa using encodePair_ne_nil pair

/-- Written parameters are read back as they are. -/
theorem parse_encode (p : Params) : parse p.encode = p := by
  have hpair : parsePair ∘ encodePair = id := by
    funext pair
    rw [Function.comp_apply, parsePair_encodePair, id]
  rw [parse, pieces_encode, List.map_map, hpair, List.map_id]

end RuleGate.Params
