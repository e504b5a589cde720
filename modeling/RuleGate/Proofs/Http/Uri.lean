import RuleGate.Http.Uri
import RuleGate.Proofs.Except
import RuleGate.Proofs.Text.Split

/-!
# Paths and queries of targets

What reading a path and a query makes of a text, and what holds of the path and the query of every
target in origin form, in absolute form or of the asterisk: the path is there, and neither of them holds
a character that would end it when the target is read again.
-/

namespace RuleGate

namespace PathQuery

theorem parseTail_ok {s : List Char} {pq : PathQuery} (h : parseTail s = .ok pq) :
    pq = ⟨String.ofList (Text.before '?' (Text.before '#' s)),
      ((Text.cut? '?' (Text.before '#' s)).map (·.2)).map String.ofList⟩ := by
  unfold parseTail ofChars at h
  dsimp only at h
  split at h
  · exact (Except.ok.inj h).symm
  · cases h

/-- A path alone is read as it is. -/
theorem parseTail_path {path : List Char} {pq : PathQuery} (hquery : '?' ∉ path)
    (hfragment : '#' ∉ path) (h : parseTail path = .ok pq) : pq = ⟨String.ofList path, none⟩ := by
  rw [parseTail_ok h, Text.before_eq_self hfragment, Text.before_eq_self hquery,
    Text.cut?_eq_none hquery]
  rfl

/-- A path and a query are read as they are. -/
theorem parseTail_path_query {path query : List Char} {pq : PathQuery} (hquery : '?' ∉ path)
    (hfragment : '#' ∉ path) (hfragment' : '#' ∉ query) (h : parseTail (path ++ '?' :: query) = .ok pq) :
    pq = ⟨String.ofList path, some (String.ofList query)⟩ := by
  have hwhole : '#' ∉ path ++ '?' :: query := by
    simp [hfragment, hfragment']
  have hpath : Text.before '?' (path ++ '?' :: query) = path := by
    rw [Text.before_append hquery, show Text.before '?' ('?' :: query) = [] from rfl, List.append_nil]
  rw [parseTail_ok h, Text.before_eq_self hwhole, hpath, Text.cut?_append hquery]
  rfl

theorem parseTail_of_parse {s : List Char} {pq : PathQuery} (h : parse s = .ok pq) :
    parseTail s = .ok pq := by
  unfold parse at h
  split at h
  · cases h
  · split at h
    · cases h
    · next pq' hpq' =>
      split at h
      · rw [hpq', h]
      · cases h

/-- A path with the query behind it, if there is one. -/
def written (path : String) (query : Option String) : String :=
  match query with
  | some q => path ++ "?" ++ q
  | none => path

/-- A written path and query are read as they are, if they are read at all. -/
theorem parse_written {path : String} {query : Option String} {pq : PathQuery}
    (hpath : '?' ∉ path.toList ∧ '#' ∉ path.toList) (hquery : ∀ q, query = some q → '#' ∉ q.toList)
    (h : parse (written path query).toList = .ok pq) : pq = ⟨path, query⟩ := by
  have htail := parseTail_of_parse h
  cases query with
  | none =>
    have hpq := parseTail_path hpath.1 hpath.2 htail
    rwa [String.ofList_toList] at hpq
  | some q =>
    have htext : (written path (some q)).toList = path.toList ++ '?' :: q.toList := by
      simp [written, String.toList_append]
    rw [htext] at htail
    have hpq := parseTail_path_query hpath.1 hpath.2 (hquery q rfl) htail
    rwa [String.ofList_toList, String.ofList_toList] at hpq

end PathQuery

namespace Uri

/-- A target in origin form, in absolute form or of the asterisk, so far as reading it again goes. -/
structure Settled (u : Uri) : Prop where
  not_authority : u.scheme.isSome = true ∨ u.authority = none
  has_path : u.scheme.isSome = true ∨ u.pathQuery.path ≠ ""
  query_not_mem_path : '?' ∉ u.pathQuery.path.toList
  fragment_not_mem_path : '#' ∉ u.pathQuery.path.toList
  fragment_not_mem_query : ∀ q, u.query? = some q → '#' ∉ q.toList

theorem path_eq (u : Uri) (h : u.scheme.isSome = true ∨ u.pathQuery.path ≠ "") :
    u.path = if u.pathQuery.path = "" then "/" else u.pathQuery.path := by
  have hpath : u.hasPath = true := by
    rcases h with h | h
    · simp [hasPath, h]
    · simp [hasPath, h]
  simp only [path, hpath, if_true, String.isEmpty_iff]

theorem path_of_ne_empty {u : Uri} (h : u.pathQuery.path ≠ "") : u.path = u.pathQuery.path := by
  rw [path_eq u (.inr h), if_neg h]

namespace Settled

variable {u : Uri}

theorem path_ne_empty (h : u.Settled) : u.path ≠ "" := by
  rw [path_eq u h.has_path]
  split
  · decide
  · assumption

/-- The path holds no character that would end it. -/
theorem not_mem_path (h : u.Settled) : '?' ∉ u.path.toList ∧ '#' ∉ u.path.toList := by
  rw [path_eq u h.has_path]
  split
  · decide
  · exact ⟨h.query_not_mem_path, h.fragment_not_mem_path⟩

theorem withPathQuery?_eq (h : u.Settled) (pq : PathQuery) :
    u.withPathQuery? pq = some { u with pathQuery := pq } := by
  rw [withPathQuery?]
  rcases h.not_authority with hscheme | hauthority
  · cases hnone : u.scheme with
    | none => simp [hnone] at hscheme
    | some s => rfl
  · simp [hauthority]

end Settled

/-- What reading a tail leaves in a target that is not in authority form. -/
theorem settled_of_parseTail {u : Uri} {s : List Char} (hform : u.scheme.isSome = true ∨ u.authority = none)
    (hpath : u.scheme.isSome = true ∨ u.pathQuery.path ≠ "")
    (h : PathQuery.parseTail s = .ok u.pathQuery) : u.Settled := by
  have htail := PathQuery.parseTail_ok h
  have hpathText := congrArg (fun pq : PathQuery ↦ pq.path.toList) htail
  have hquery := congrArg PathQuery.query htail
  dsimp only at hpathText hquery
  rw [String.toList_ofList] at hpathText
  refine ⟨hform, hpath, ?_, ?_, ?_⟩
  · rw [hpathText]
    exact Text.not_mem_before _
  · rw [hpathText]
    intro hmem
    exact Text.not_mem_before s ((List.takeWhile_prefix _).subset hmem)
  · intro q hq
    rw [query?, hquery, Option.map_map] at hq
    obtain ⟨⟨front, rest⟩, hcut, rfl⟩ := Option.map_eq_some_iff.mp hq
    rw [Function.comp_apply, String.toList_ofList]
    intro hmem
    exact Text.not_mem_before s (Text.mem_of_cut? hcut hmem)

/-- A slash in front of a text stays in front of its path. -/
theorem parseTail_slash_path {s : List Char} {pq : PathQuery}
    (h : PathQuery.parseTail ('/' :: s) = .ok pq) : pq.path ≠ "" := by
  intro hempty
  have hpath := congrArg (fun pq : PathQuery ↦ pq.path.toList) (PathQuery.parseTail_ok h)
  dsimp only at hpath
  rw [hempty, String.toList_ofList] at hpath
  have hslash : Text.before '?' (Text.before '#' ('/' :: s)) =
      '/' :: Text.before '?' (Text.before '#' s) := rfl
  simp [hslash] at hpath

/-- The target in absolute form that is read after a scheme. -/
theorem settled_of_scheme {afterScheme : List Char} {scheme : String} {u : Uri}
    (h : (do
      let (authority, rest) ← parseAuthority afterScheme
      if afterScheme.isEmpty then .error .empty
      else if authority.isEmpty then .error .invalidFormat
      else .ok ⟨some scheme, some (String.ofList authority), ← PathQuery.parseTail rest⟩ :
      Except UriError Uri) = .ok u) : u.Settled := by
  obtain ⟨⟨authority, rest⟩, -, h⟩ := bind_eq_ok.mp h
  dsimp only at h
  split at h
  · cases h
  split at h
  · cases h
  · obtain ⟨pq, htail, h⟩ := bind_eq_ok.mp h
    cases h
    exact settled_of_parseTail (.inl rfl) (.inl rfl) htail

/-- Without a scheme only an authority is read, which has neither a path nor a query. -/
theorem authority_of_no_scheme {s : List Char} {u : Uri}
    (h : (do
      let (authority, rest) ← parseAuthority s
      if rest.isEmpty then .ok ⟨none, some (String.ofList authority), ⟨"", none⟩⟩
      else if s.length = 1 then .error .invalidChar
      else .error .invalidFormat : Except UriError Uri) = .ok u) :
    u.scheme = none ∧ u.authority.isSome = true := by
  obtain ⟨⟨authority, rest⟩, -, h⟩ := bind_eq_ok.mp h
  dsimp only at h
  split at h
  · cases h
    exact ⟨rfl, rfl⟩
  · split at h <;> cases h

/-- Every target that was read is settled, unless it is in authority form. -/
theorem settled_of_ofString {text : String} {u : Uri} (h : ofString text = .ok u)
    (hform : u.scheme.isSome = true ∨ u.authority = none) : u.Settled := by
  unfold ofString at h
  generalize text.toList = s at h
  unfold parse at h
  split at h
  · cases h
  split at h
  · cases h
  · cases h
    exact ⟨.inr rfl, .inr (by decide), by decide, by decide, fun q hq ↦ nomatch hq⟩
  · obtain ⟨pq, htail, h⟩ := bind_eq_ok.mp h
    cases h
    exact settled_of_parseTail (.inr rfl) (.inr (parseTail_slash_path htail)) htail
  · obtain ⟨scheme, -, h⟩ := bind_eq_ok.mp h
    dsimp only at h
    split at h
    · obtain ⟨hscheme, hauthority⟩ := authority_of_no_scheme h
      rcases hform with hform | hform
      · simp [hscheme] at hform
      · simp [hform] at hauthority
    · exact settled_of_scheme h

end Uri

end RuleGate
