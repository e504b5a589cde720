import RuleGate.Proofs.Except
import RuleGate.Proofs.Text.Split
import RuleGate.UrlPath

/-!
# Segments of clean paths

Each segment of a path is dropped, takes the name before it back, or is added to what is kept: names, and in front of
them segments that lead up, where there is no root. A path that was cleaned is made of the segments that are kept, with
single slashes between them. None of them is empty or a dot, and below a root none of them leads up again. A clean path
starts with a slash exactly if the path did before it was cleaned.
-/

namespace RuleGate.UrlPath

/-- A segment that cleaning can keep. Only a path without a root keeps segments that lead up. -/
structure IsKept (rooted : Bool) (segment : List Char) : Prop where
  ne_nil : segment ≠ []
  ne_dot : segment ≠ ['.']
  ne_dots : rooted = true → segment ≠ ['.', '.']
  no_slash : '/' ∉ segment

variable {rooted : Bool} {kept kept' : List (List Char)} {segment : List Char}

/-- A name is kept below a root and elsewhere. -/
theorem IsKept.of_name {segment : List Char} (h : IsKept true segment) (rooted : Bool) : IsKept rooted segment :=
  ⟨h.ne_nil, h.ne_dot, fun _ ↦ h.ne_dots rfl, h.no_slash⟩

/-! ## What a segment can do -/

/-- Segments as they are kept while a path is cleaned: names, and below them those that lead up. -/
inductive IsTrail (rooted : Bool) : List (List Char) → Prop where
  | ups (n : ℕ) (free : rooted = true → n = 0) : IsTrail rooted (List.replicate n ['.', '.'])
  | name {kept : List (List Char)} {segment : List Char} (below : IsTrail rooted kept)
    (isName : IsKept true segment) : IsTrail rooted (segment :: kept)

/-- The ways in which a segment changes the segments that are kept. -/
inductive Changes : Bool → List (List Char) → List Char → List (List Char) → Prop where
  | stay {rooted : Bool} {kept : List (List Char)} {segment : List Char}
    (blank : segment = [] ∨ segment = ['.']) : Changes rooted kept segment kept
  | top : Changes true [] ['.', '.'] []
  | back {rooted : Bool} {kept : List (List Char)} {segment : List Char} (below : IsTrail rooted kept)
    (isName : IsKept true segment) : Changes rooted (segment :: kept) ['.', '.'] kept
  | up (n : ℕ) : Changes false (List.replicate n ['.', '.']) ['.', '.'] (List.replicate (n + 1) ['.', '.'])
  | down {rooted : Bool} {kept : List (List Char)} {segment : List Char} (isName : IsKept true segment) :
    Changes rooted kept segment (segment :: kept)

theorem changes_dots (h : IsTrail rooted kept) :
    Changes rooted kept ['.', '.'] (step rooted kept ['.', '.']) := by
  cases h with
  | name hbelow hname =>
    rw [step, if_neg (by decide), if_pos rfl, if_neg (hname.ne_dots rfl)]
    exact .back hbelow hname
  | ups n hfree =>
    cases rooted with
    | true =>
      rw [hfree rfl]
      exact .top
    | false =>
      cases n with
      | zero => exact .up 0
      | succ n => exact .up (n + 1)

/-- What is kept can change in no other way. -/
theorem changes_step (h : IsTrail rooted kept) (hslash : '/' ∉ segment) :
    Changes rooted kept segment (step rooted kept segment) := by
  by_cases hblank : segment = [] ∨ segment = ['.']
  · have hstep : step rooted kept segment = kept := by rw [step.eq_def, if_pos hblank]
    rw [hstep]
    exact .stay hblank
  · by_cases hdots : segment = ['.', '.']
    · rw [hdots]
      exact changes_dots h
    · have hstep : step rooted kept segment = segment :: kept := by rw [step.eq_def, if_neg hblank, if_neg hdots]
      rw [hstep]
      rw [not_or] at hblank
      exact .down ⟨hblank.1, hblank.2, fun _ ↦ hdots, hslash⟩

theorem Changes.isTrail (h : Changes rooted kept segment kept') (hkept : IsTrail rooted kept) :
    IsTrail rooted kept' := by
  cases h with
  | stay => exact hkept
  | top => exact hkept
  | back hbelow => exact hbelow
  | up n => exact .ups (n + 1) fun h ↦ by cases h
  | down hname => exact .name hkept hname

/-- Whatever one segment preserves, all segments of a path do. -/
theorem isTrail_foldl {segments : List (List Char)} (hkept : IsTrail rooted kept) (hslash : ∀ s ∈ segments, '/' ∉ s) :
    IsTrail rooted (segments.foldl (step rooted) kept) := by
  induction segments generalizing kept with
  | nil => exact hkept
  | cons segment segments ih =>
    rw [List.forall_mem_cons] at hslash
    exact ih ((changes_step hkept hslash.1).isTrail hkept) hslash.2

theorem isTrail_nil : IsTrail rooted [] := .ups 0 fun _ ↦ rfl

theorem IsTrail.forall_isKept (h : IsTrail rooted kept) : ∀ c ∈ kept, IsKept rooted c := by
  induction h with
  | ups n hfree =>
    intro c hc
    obtain ⟨hn, rfl⟩ := List.mem_replicate.mp hc
    exact ⟨by decide, by decide, fun hrooted ↦ absurd (hfree hrooted) hn, by decide⟩
  | name _ hname ih => exact List.forall_mem_cons.mpr ⟨hname.of_name rooted, ih⟩

/-! ## What remains of a path -/

theorem slash_not_mem_segments (s : List Char) : ∀ segment ∈ segments s, '/' ∉ segment := by
  intro segment hsegment hmem
  have hsplit := Text.neg_of_mem_splitWhere hsegment hmem
  simp at hsplit

/-- All segments that remain of a path are of the kind that is kept. -/
theorem isKept_resolve (rooted : Bool) (s : List Char) : ∀ c ∈ resolve rooted (segments s), IsKept rooted c := by
  intro c hc
  rw [resolve, List.mem_reverse] at hc
  exact (isTrail_foldl isTrail_nil (slash_not_mem_segments s)).forall_isKept c hc

/-- Segments that are joined do not start with a slash. -/
theorem isRooted_join (hkept : ∀ c ∈ kept, IsKept rooted c) : isRooted (Text.join ['/'] kept) = false := by
  cases kept with
  | nil => rfl
  | cons c rest =>
    have hc := hkept c (.head _)
    obtain ⟨x, c', rfl⟩ := List.exists_cons_of_ne_nil hc.ne_nil
    have hx : x ≠ '/' := fun h ↦ hc.no_slash (h ▸ .head _)
    have hjoin : (Text.join ['/'] ((x :: c') :: rest)).head? = some x := by
      cases rest <;> rfl
    simp [isRooted, hjoin, hx]

theorem cleanChars_slash (s : List Char) :
    cleanChars ('/' :: s) = '/' :: Text.join ['/'] (resolve true (segments ('/' :: s))) := rfl

theorem cleanChars_ne_nil (s : List Char) : cleanChars s ≠ [] := by
  unfold cleanChars
  dsimp only
  split
  · exact List.cons_ne_nil _ _
  · split
    · exact List.cons_ne_nil _ _
    · next hsome => simpa using hsome

theorem isRooted_cleanChars (s : List Char) : isRooted (cleanChars s) = isRooted s := by
  unfold cleanChars
  dsimp only
  cases hrooted : isRooted s with
  | true => rfl
  | false =>
    rw [if_neg Bool.false_ne_true]
    split
    · rfl
    · exact isRooted_join (isKept_resolve false s)

/-! ## Paths of URLs -/

theorem isRooted_before {s : List Char} (h : Text.before '#' s ≠ []) :
    isRooted (Text.before '#' s) = isRooted s := by
  cases s with
  | nil => rfl
  | cons c s =>
    unfold Text.before at h ⊢
    rw [List.takeWhile_cons] at h ⊢
    split at h
    · next hc =>
      rw [if_pos hc]
      rfl
    · exact absurd rfl h

/-- Nothing but an empty path is refused. -/
theorem cleanUrlChars_eq_ok_iff {s : List Char} : (∃ p, cleanUrlChars s = .ok p) ↔ Text.before '#' s ≠ [] := by
  unfold cleanUrlChars
  dsimp only
  split
  · next hempty => simp [List.isEmpty_iff.mp hempty]
  · next hsome =>
    rw [List.isEmpty_iff] at hsome
    refine iff_of_true ?_ hsome
    split <;> exact ⟨_, rfl⟩

/-- The path before the fragment is cleaned, and may get its slash at the end back. -/
theorem cleanUrlChars_eq_ok {s p : List Char} (h : cleanUrlChars s = .ok p) :
    ∃ slash, p = cleanChars (Text.before '#' s) ++ slash := by
  unfold cleanUrlChars at h
  dsimp only at h
  split at h
  · cases h
  · split at h
    · cases h
      exact ⟨['/'], rfl⟩
    · cases h
      exact ⟨[], (List.append_nil _).symm⟩

theorem cleanUrlChars_ne_nil {s p : List Char} (h : cleanUrlChars s = .ok p) : p ≠ [] := by
  obtain ⟨slash, rfl⟩ := cleanUrlChars_eq_ok h
  exact List.append_ne_nil_of_left_ne_nil (cleanChars_ne_nil _) _

theorem isRooted_of_cleanUrlChars {s p : List Char} (h : cleanUrlChars s = .ok p) : isRooted p = isRooted s := by
  obtain ⟨slash, rfl⟩ := cleanUrlChars_eq_ok h
  obtain ⟨c, rest, hcons⟩ := List.exists_cons_of_ne_nil (cleanChars_ne_nil (Text.before '#' s))
  calc isRooted (cleanChars (Text.before '#' s) ++ slash)
      = isRooted (cleanChars (Text.before '#' s)) := by rw [hcons]; rfl
    _ = isRooted (Text.before '#' s) := isRooted_cleanChars _
    _ = isRooted s := isRooted_before (cleanUrlChars_eq_ok_iff.mp ⟨_, h⟩)

theorem cleanUrl_ne_empty {s p : String} (h : cleanUrl s = .ok p) : p ≠ "" := by
  obtain ⟨cs, hcs, rfl⟩ := map_eq_ok.mp h
  intro hempty
  have hnil := congrArg String.toList hempty
  rw [String.toList_ofList] at hnil
  exact cleanUrlChars_ne_nil hcs (hnil.trans rfl)

theorem isRooted_iff_startsWith (s : String) : isRooted s.toList = true ↔ s.startsWith "/" = true := by
  rw [isRooted, beq_iff_eq, Text.startsWith_iff]
  constructor
  · intro h
    obtain ⟨rest, hrest⟩ := List.head?_eq_some_iff.mp h
    refine ⟨String.ofList rest, String.toList_inj.mp ?_⟩
    simp [hrest, String.toList_append]
  · rintro ⟨rest, rfl⟩
    rw [String.toList_append]
    rfl

/-- Whatever stands in front of a fragment can be cleaned. -/
theorem exists_cleanUrl {s : String} (h : Text.before '#' s.toList ≠ []) : ∃ p, cleanUrl s = .ok p := by
  obtain ⟨cs, hcs⟩ := cleanUrlChars_eq_ok_iff.mpr h
  exact ⟨String.ofList cs, map_eq_ok.mpr ⟨cs, hcs, rfl⟩⟩

/-- Cleaning neither adds nor takes away a slash in front. -/
theorem startsWith_of_cleanUrl {s p : String} (h : cleanUrl s = .ok p) :
    p.startsWith "/" = true ↔ s.startsWith "/" = true := by
  obtain ⟨cs, hcs, rfl⟩ := map_eq_ok.mp h
  rw [← isRooted_iff_startsWith, ← isRooted_iff_startsWith, String.toList_ofList, isRooted_of_cleanUrlChars hcs]

end RuleGate.UrlPath
