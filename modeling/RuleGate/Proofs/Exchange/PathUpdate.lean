import RuleGate.Exchange.Update
import RuleGate.Proofs.Http.Target
import RuleGate.Proofs.Percent

/-!
# Paths in a target

What putting a decoded path into a target makes of it: the path is written anew in front of the query as it
stands. A target that was an authority alone becomes an `http` one. A path that is too long to be written, or
that does not start as paths do, leaves the target as it was.
-/

namespace RuleGate

namespace Percent

theorem encodePath_ne_empty {path : String} (h : path ≠ "") : encodePath path ≠ "" := by
  intro hempty
  have hdecoded := decodeOrSelf_encodePath path
  rw [hempty] at hdecoded
  exact h (hdecoded.symm.trans (by decide))

theorem delimiter_not_mem_encodePath (path : String) :
    '?' ∉ (encodePath path).toList ∧ '#' ∉ (encodePath path).toList := by
  rw [encodePath, String.toList_ofList]
  exact ⟨not_mem_encodeBytes (by decide) (by decide) (by decide) _,
    not_mem_encodeBytes (by decide) (by decide) (by decide) _⟩

theorem isPathChar_of_mem_encodePath (path : String) :
    ∀ c ∈ (encodePath path).toList, PathQuery.isPathChar c = true := by
  rw [encodePath, String.toList_ofList]
  exact forall_mem_encodeBytes (by decide +kernel) (by decide) (by decide) _

/-- A slash in front of a path is kept. -/
theorem encodePath_slash (path : String) : encodePath ("/" ++ path) = "/" ++ encodePath path := by
  rw [encodePath, Bytes.ofString_append, encodeBytes_append, String.ofList_append]
  rfl

theorem decodeBytes_encodePath (path : String) :
    decodeBytes (Bytes.ofString (encodePath path)) = Bytes.ofString path := by
  rw [Bytes.ofString, encodePath, String.toList_ofList]
  exact decodeBytes_encodeBytes isPathByte_ascii (by decide) _

end Percent

namespace Uri

/-- The target with a decoded path in place of its own. -/
def withDecodedPath (u : Uri) (path : String) : Uri :=
  { u with
    scheme := if u.authority.isSome then some (u.scheme.getD "http") else u.scheme
    pathQuery := ⟨Percent.encodePath path, u.query?⟩ }

variable {u : Uri} {path : String}

theorem not_isAuthority_withDecodedPath (u : Uri) (path : String) :
    ¬ (u.withDecodedPath path).IsAuthority := by
  unfold withDecodedPath IsAuthority
  cases u.authority <;> simp

theorem settled_withDecodedPath (hquery : ∀ q, u.query? = some q → '#' ∉ q.toList) (hpath : path ≠ "") :
    (u.withDecodedPath path).Settled where
  not_authority := not_isAuthority_iff.mp (not_isAuthority_withDecodedPath u path)
  has_path := .inr (Percent.encodePath_ne_empty hpath)
  query_not_mem_path := (Percent.delimiter_not_mem_encodePath path).1
  fragment_not_mem_path := (Percent.delimiter_not_mem_encodePath path).2
  fragment_not_mem_query := hquery

theorem WellFormed.withDecodedPath (h : u.WellFormed) (path : String) : (u.withDecodedPath path).WellFormed where
  scheme := by
    intro s hs
    unfold Uri.withDecodedPath at hs
    dsimp only at hs
    split at hs
    · obtain rfl := Option.some.inj hs
      cases hscheme : u.scheme with
      | none => exact List.all_eq_true.mp (by decide)
      | some s => exact h.scheme s hscheme
    · exact h.scheme s hs
  authority := h.authority
  path := Percent.isPathChar_of_mem_encodePath path
  query := h.query

/-- Another path leaves the query, the scheme and the authority of a settled target alone. -/
theorem Settled.withDecodedPath_eq (h : u.Settled) (path : String) :
    u.withDecodedPath path = { u with pathQuery := ⟨Percent.encodePath path, u.query?⟩ } := by
  obtain ⟨scheme, authority, pathQuery⟩ := u
  cases authority with
  | none => rfl
  | some a =>
    rcases h.not_authority with hscheme | hnone
    · obtain ⟨s, rfl⟩ := Option.isSome_iff_exists.mp hscheme
      rfl
    · cases hnone

end Uri

namespace Exchange

variable {x : Exchange}

theorem encodedPath_eq (u : Uri) (path : String) :
    encodedPath u path = PathQuery.written (Percent.encodePath path) u.query? := by
  unfold encodedPath
  split
  · next q hq => rw [hq, PathQuery.written]
  · next hq => rw [hq, PathQuery.written]

/-- The exchange with a decoded path in its target; what was noted of the path is dropped. -/
def withDecodedPath (x : Exchange) (path : String) : Exchange :=
  (x.withRequest fun r ↦ { r with uri := r.uri.withDecodedPath path }).withMemo .dropPath

/-- A path is either dropped with a warning or written into the target. -/
theorem setPath_cases (hquery : ∀ q, x.request.uri.query? = some q → '#' ∉ q.toList) (path : String) :
    (x.setPath path).1 = x ∨ (x.setPath path).1 = x.withDecodedPath path := by
  unfold setPath
  dsimp only
  split
  · exact .inl rfl
  · next pq hparse =>
    rw [encodedPath_eq] at hparse
    obtain rfl := PathQuery.parse_written (Percent.delimiter_not_mem_encodePath path) hquery hparse
    exact .inr rfl

/-- A rooted path is dropped only if it is too long with the query behind it. -/
theorem setPath_slash (h : x.request.uri.WellFormed) (path : String) :
    (x.setPath ("/" ++ path)).1 =
      if PathQuery.Fits (Percent.encodePath ("/" ++ path)) x.request.uri.query? then
        x.withDecodedPath ("/" ++ path)
      else x := by
  have hchars : PathQuery.HasChars (Percent.encodePath ("/" ++ path)) x.request.uri.query? :=
    ⟨Percent.isPathChar_of_mem_encodePath _, h.query⟩
  have hslash : (Percent.encodePath ("/" ++ path)).startsWith "/" = true :=
    Text.startsWith_iff.mpr ⟨_, Percent.encodePath_slash path⟩
  have hparse := PathQuery.parse_written_eq hchars (.inr hslash)
  rw [setPath, encodedPath_eq, hparse]
  by_cases hfits : PathQuery.Fits (Percent.encodePath ("/" ++ path)) x.request.uri.query?
  · rw [if_pos hfits, if_pos hfits]
    rfl
  · rw [if_neg hfits, if_neg hfits]

end Exchange

end RuleGate
