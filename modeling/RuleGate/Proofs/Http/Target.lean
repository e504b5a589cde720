import RuleGate.Proofs.Exchange.WellFormed

/-!
# Targets that are written

Where a path and a query hold only what targets allow, writing and reading them again gives them back, unless
they are longer than a target may be. Every target that was read is of one of two kinds: it takes another path
and query, or it is an authority alone, which takes none.
-/

namespace RuleGate

namespace PathQuery

/-- The path and the query are no longer than the longest target. -/
def Fits (path : String) (query : Option String) : Prop :=
  (Text.utf8Encode (written path query).toList).length ≤ maxLength

instance (path : String) (query : Option String) : Decidable (Fits path query) :=
  inferInstanceAs (Decidable (_ ≤ _))

/-- The path holds only what paths allow, and so does the query. -/
structure HasChars (path : String) (query : Option String) : Prop where
  path : ∀ c ∈ path.toList, isPathChar c = true
  query : ∀ q, query = some q → ∀ c ∈ q.toList, isQueryChar c = true

variable {path : String} {query : Option String}

theorem HasChars.not_mem_path (h : HasChars path query) : '?' ∉ path.toList ∧ '#' ∉ path.toList :=
  ⟨fun hmem ↦ absurd (h.path _ hmem) (by decide), fun hmem ↦ absurd (h.path _ hmem) (by decide)⟩

theorem HasChars.not_mem_query (h : HasChars path query) : ∀ q, query = some q → '#' ∉ q.toList :=
  fun q hq hmem ↦ absurd (h.query q hq _ hmem) (by decide)

theorem parseTail_written (h : HasChars path query) :
    parseTail (written path query).toList = .ok ⟨path, query⟩ := by
  have hpath : path.toList.all isPathChar = true := List.all_eq_true.mpr h.path
  obtain ⟨hmark, hsharp⟩ := h.not_mem_path
  cases query with
  | none =>
    rw [written, parseTail, Text.before_eq_self hsharp, ofChars, Text.before_eq_self hmark,
      Text.cut?_eq_none hmark]
    simp [hpath]
  | some q =>
    have hquery : q.toList.all isQueryChar = true := List.all_eq_true.mpr (h.query q rfl)
    have htext : (written path (some q)).toList = path.toList ++ '?' :: q.toList := by
      simp [written, String.toList_append]
    have hwhole : '#' ∉ path.toList ++ '?' :: q.toList := by
      simp [hsharp, h.not_mem_query q rfl]
    have hbefore : Text.before '?' (path.toList ++ '?' :: q.toList) = path.toList := by
      rw [Text.before_append hmark, show Text.before '?' ('?' :: q.toList) = [] from rfl, List.append_nil]
    rw [htext, parseTail, Text.before_eq_self hwhole, ofChars, hbefore, Text.cut?_append hmark]
    simp [hpath, hquery]

/-- A path and a query that stand alone are read as they were written, unless they are too long. -/
theorem parse_written_eq (h : HasChars path query) (hstart : path = "" ∨ path.startsWith "/" = true) :
    parse (written path query).toList =
      if Fits path query then .ok ⟨path, query⟩ else .error .tooLong := by
  have hpath : path.isEmpty ∨ path.startsWith "/" = true ∨ (path = "*" ∧ query = none) := by
    rcases hstart with hempty | hslash
    · exact .inl (String.isEmpty_iff.mpr hempty)
    · exact .inr (.inl hslash)
  by_cases hfits : Fits path query
  · have hshort : ¬ maxLength < (Text.utf8Encode (written path query).toList).length := Nat.not_lt.mpr hfits
    rw [if_pos hfits, parse, if_neg hshort, parseTail_written h]
    dsimp only
    rw [if_pos hpath]
  · rw [if_neg hfits, parse, if_pos (Nat.not_le.mp hfits)]

end PathQuery

namespace Uri

/-- The target is in authority form. -/
def IsAuthority (u : Uri) : Prop := u.scheme = none ∧ u.authority.isSome = true

instance (u : Uri) : Decidable u.IsAuthority := inferInstanceAs (Decidable (_ ∧ _))

/-- The target is one of those that are read: an authority alone has neither a path nor a query, and every
other one is settled. -/
structure Sound (u : Uri) : Prop where
  formed : u.WellFormed
  settled : ¬ u.IsAuthority → u.Settled
  authority : u.IsAuthority → u.pathQuery = ⟨"", none⟩

variable {u : Uri}

theorem not_isAuthority_iff : ¬ u.IsAuthority ↔ u.scheme.isSome = true ∨ u.authority = none := by
  unfold IsAuthority
  cases u.scheme <;> cases u.authority <;> simp

theorem IsAuthority.path_eq (h : u.IsAuthority) (hempty : u.pathQuery = ⟨"", none⟩) : u.path = "" := by
  rw [path, hasPath, h.1, hempty]
  rfl

theorem IsAuthority.withPathQuery?_eq_none (h : u.IsAuthority) (pq : PathQuery) :
    u.withPathQuery? pq = none := by
  rw [withPathQuery?, h.1, h.2]
  rfl

/-- A target with a path is not an authority alone. -/
theorem Sound.settled_of_path (h : u.Sound) (hpath : u.path ≠ "") : u.Settled :=
  h.settled fun hauthority ↦ hpath (hauthority.path_eq (h.authority hauthority))

/-- Where a target is read as an authority, nothing else was read. -/
theorem pathQuery_of_authority {s : List Char} {u : Uri}
    (h : (do
      let (authority, rest) ← parseAuthority s
      if rest.isEmpty then .ok ⟨none, some (String.ofList authority), ⟨"", none⟩⟩
      else if s.length = 1 then .error .invalidChar
      else .error .invalidFormat : Except UriError Uri) = .ok u) : u.pathQuery = ⟨"", none⟩ := by
  obtain ⟨⟨authority, rest⟩, -, h⟩ := bind_eq_ok.mp h
  dsimp only at h
  split at h
  · cases h
    rfl
  · split at h <;> cases h

theorem pathQuery_of_ofString {text : String} (h : ofString text = .ok u) (hauthority : u.IsAuthority) :
    u.pathQuery = ⟨"", none⟩ := by
  obtain ⟨hscheme, hsome⟩ := hauthority
  unfold ofString at h
  generalize text.toList = s at h
  unfold parse at h
  split at h
  · cases h
  split at h
  · cases h
  · cases h
    cases hsome
  · obtain ⟨pq, -, h⟩ := bind_eq_ok.mp h
    cases h
    cases hsome
  · obtain ⟨scheme, -, h⟩ := bind_eq_ok.mp h
    dsimp only at h
    split at h
    · exact pathQuery_of_authority h
    · obtain ⟨⟨authority, rest⟩, -, h⟩ := bind_eq_ok.mp h
      dsimp only at h
      split at h
      · cases h
      split at h
      · cases h
      · obtain ⟨pq, -, h⟩ := bind_eq_ok.mp h
        cases h
        cases hscheme

/-- Every target that was read is sound, whatever its form. -/
theorem sound_of_ofString {text : String} (h : ofString text = .ok u) : u.Sound where
  formed := wellFormed_of_ofString h
  settled := fun hform ↦ settled_of_ofString h (not_isAuthority_iff.mp hform)
  authority := pathQuery_of_ofString h

theorem WellFormed.hasChars (h : u.WellFormed) : PathQuery.HasChars u.path u.query? where
  path := by
    unfold Uri.path
    split
    · split
      · exact List.all_eq_true.mp (by decide)
      · exact h.path
    · exact List.forall_mem_nil _
  query := h.query

end Uri

end RuleGate
