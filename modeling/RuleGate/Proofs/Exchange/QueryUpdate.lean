import RuleGate.Exchange.Update
import RuleGate.Proofs.Http.Target
import RuleGate.Proofs.Params

/-!
# Parameters in a target

What a change of the query parameters makes of a target: the query is written anew behind the path as it
stands, and all else stays. A target that could not be read again is left as it was, and so is one that is an
authority alone.
-/

namespace RuleGate

namespace Params

theorem isQueryChar_of_mem_encode (p : Params) : ∀ c ∈ p.encode.toList, PathQuery.isQueryChar c = true := by
  have hcomponent (s : String) : ∀ c ∈ (Percent.encode s).toList, PathQuery.isQueryChar c = true := by
    rw [Percent.encode, String.toList_ofList]
    exact Percent.forall_mem_encodeBytes (by decide +kernel) (by decide) (by decide) _
  intro c hc
  rw [encode, String.toList_ofList] at hc
  rcases Text.mem_join hc with hand | ⟨w, hw, hc⟩
  · rw [List.mem_singleton.mp hand]
    decide
  · obtain ⟨pair, -, rfl⟩ := List.mem_map.mp hw
    rcases mem_encodePair hc with hkey | rfl | hvalue
    · exact hcomponent pair.1 c hkey
    · decide
    · exact hcomponent pair.2 c hvalue

end Params

namespace Uri

/-- The target with written parameters in place of its query. -/
def withParams (u : Uri) (p : Params) : Uri :=
  { u with pathQuery := ⟨u.path, if p.encode.isEmpty then none else some p.encode⟩ }

variable {u : Uri}

/-- Without parameters there is no query, which is read like an empty one. -/
theorem query_withParams (u : Uri) (p : Params) : (u.withParams p).query?.getD "" = p.encode := by
  unfold query? withParams
  dsimp only
  split
  · next hempty => rw [Option.getD_none, String.isEmpty_iff.mp hempty]
  · rw [Option.getD_some]

/-- The query that parameters are written into is read as these parameters. -/
theorem parse_query_withParams (u : Uri) (p : Params) :
    Params.parse ((u.withParams p).query?.getD "") = p := by
  rw [query_withParams, Params.parse_encode]

theorem path_withParams (h : u.Settled) (p : Params) : (u.withParams p).path = u.path :=
  path_of_ne_empty (u := u.withParams p) h.path_ne_empty

theorem fragment_not_mem_withParams (u : Uri) (p : Params) :
    ∀ q, (u.withParams p).query? = some q → '#' ∉ q.toList := by
  intro q hq
  unfold query? withParams at hq
  dsimp only at hq
  split at hq
  · cases hq
  · cases hq
    exact Params.delimiter_not_mem_encodeAll (by decide) (by decide) (by decide) p

theorem Settled.withParams (h : u.Settled) (p : Params) : (u.withParams p).Settled where
  not_authority := h.not_authority
  has_path := .inr h.path_ne_empty
  query_not_mem_path := h.not_mem_path.1
  fragment_not_mem_path := h.not_mem_path.2
  fragment_not_mem_query := u.fragment_not_mem_withParams p

theorem WellFormed.withParams (h : u.WellFormed) (p : Params) : (u.withParams p).WellFormed where
  scheme := h.scheme
  authority := h.authority
  path := h.hasChars.path
  query := by
    intro q hq
    unfold query? Uri.withParams at hq
    dsimp only at hq
    split at hq
    · cases hq
    · cases hq
      exact p.isQueryChar_of_mem_encode

/-- Behind an authority there is room for a query that is shorter than the longest target. -/
theorem fits_withParams (u : Uri) (p : Params) :
    PathQuery.Fits "" (u.withParams p).query? ↔ (Bytes.ofString p.encode).length < PathQuery.maxLength := by
  unfold PathQuery.Fits query? withParams
  dsimp only
  split
  · next hempty =>
    rw [String.isEmpty_iff.mp hempty]
    exact iff_of_true (by decide) (by decide)
  · have hmark : ("" ++ "?" ++ p.encode).toList = '?' :: p.encode.toList := by simp [String.toList_append]
    rw [PathQuery.written, hmark, Text.utf8Encode_cons, List.length_append, Bytes.ofString]
    have hone : (String.utf8EncodeChar '?').length = 1 := rfl
    omega

end Uri

namespace Exchange

variable {x : Exchange}

theorem pathWithParams_eq (u : Uri) (p : Params) :
    pathWithParams u.path p = PathQuery.written u.path (u.withParams p).query? := by
  unfold pathWithParams Uri.withParams Uri.query?
  dsimp only
  split <;> rfl

/-- Nothing of a request but the path and the query of its target changes, and these to what was read of the path
with some parameters behind it. -/
theorem request_updateQuery (x : Exchange) (f : Params → Params) :
    (x.updateQuery f).1.request = x.request ∨
      ∃ pq params, PathQuery.parse (pathWithParams x.request.uri.path params).toList = .ok pq ∧
        (x.updateQuery f).1.request = { x.request with uri := { x.request.uri with pathQuery := pq } } := by
  unfold updateQuery
  dsimp only
  split
  · exact .inl rfl
  · next pq hparse =>
    unfold Uri.withPathQuery?
    split
    · exact .inl rfl
    · exact .inr ⟨pq, _, hparse, rfl⟩

/-- The new parameters are either dropped with a warning or written into the target and noted. -/
theorem updateQuery_cases (h : x.request.uri.Settled) (f : Params → Params) :
    (x.updateQuery f).1 = x.remember .query ∨
      (x.updateQuery f).1 = (x.withRequest fun r ↦ { r with uri := r.uri.withParams (f x.query) }).withMemo
        fun m ↦ { m.dropQuery with query := some (f x.query) } := by
  unfold updateQuery
  dsimp only
  generalize f x.query = params
  split
  · exact .inl rfl
  · next pq hparse =>
    -- The path was part of a target before, so it is read back as it is.
    rw [pathWithParams_eq] at hparse
    have hfragment := x.request.uri.fragment_not_mem_withParams params
    obtain rfl := PathQuery.parse_written h.not_mem_path hfragment hparse
    rw [h.withPathQuery?_eq, Option.getD_some]
    exact .inr rfl

/-- Of a target that is an authority alone only the noted parameters change, if anything does. -/
theorem updateQuery_of_authority (h : x.request.uri.Sound) (hauthority : x.request.uri.IsAuthority)
    (f : Params → Params) :
    (x.updateQuery f).1 =
      if (Bytes.ofString (f x.query).encode).length < PathQuery.maxLength then
        x.withMemo fun m ↦ { m.dropQuery with query := some (f x.query) }
      else x.remember .query := by
  unfold updateQuery
  dsimp only
  generalize f x.query = params
  have hchars : PathQuery.HasChars "" (x.request.uri.withParams params).query? :=
    ⟨List.forall_mem_nil _, (h.formed.withParams params).query⟩
  have hparse := PathQuery.parse_written_eq hchars (.inl rfl)
  simp only [Uri.fits_withParams] at hparse
  rw [pathWithParams_eq, hauthority.path_eq (h.authority hauthority), hparse]
  by_cases hroom : (Bytes.ofString params.encode).length < PathQuery.maxLength
  · -- The written query is accepted, but the target does not take it.
    rw [if_pos hroom, if_pos hroom]
    dsimp only
    rw [hauthority.withPathQuery?_eq_none, Option.getD_none]
    rfl
  · rw [if_neg hroom, if_neg hroom]

end Exchange

end RuleGate
