import RuleGate.Proofs.UrlPath

/-!
# Clean paths are normal forms

A name leads down into a directory, two dots lead up out of it, and an empty segment or a dot leads nowhere. A clean
path leads from every directory to where the path led before it was cleaned, and it is the only normal form that does:
two paths with the same origin that lead to the same places from everywhere are cleaned to one text. Hence cleaning
twice is cleaning once, and the paths that cleaning leaves alone are those in normal form.
-/

namespace RuleGate.UrlPath

/-- The directory that a segment leads to. A directory is the list of the names on the way to it from the top, the last
one first, and nothing leads up from the top. -/
def visit (place : List (List Char)) (segment : List Char) : List (List Char) :=
  if segment = [] ∨ segment = ['.'] then place
  else if segment = ['.', '.'] then place.tail
  else segment :: place

/-- The directory that segments lead to, one after the other. -/
def walk (place : List (List Char)) (segments : List (List Char)) : List (List Char) := segments.foldl visit place

/-- Where a path leads: from the top if it is rooted, and else from the given directory. -/
def destination (place : List (List Char)) (s : List Char) : List (List Char) :=
  walk (if isRooted s then [] else place) (segments s)

/-- The path behind the slash of its root. -/
def belowRoot (s : List Char) : List Char := if isRooted s then s.tail else s

/-- Segments that lead up, none of them below a root, and then names. -/
def IsNormal (rooted : Bool) (segments : List (List Char)) : Prop :=
  ∃ ups names, segments = List.replicate ups ['.', '.'] ++ names ∧ (∀ name ∈ names, IsKept true name) ∧
    (rooted = true → ups = 0)

variable {rooted : Bool} {kept kept' place : List (List Char)} {segment : List Char}

theorem visit_blank (h : segment = [] ∨ segment = ['.']) (place : List (List Char)) : visit place segment = place :=
  if_pos h

theorem visit_name (h : IsKept true segment) (place : List (List Char)) : visit place segment = segment :: place := by
  rw [visit, if_neg (not_or.mpr ⟨h.ne_nil, h.ne_dot⟩), if_neg (h.ne_dots rfl)]

theorem walk_cons (place : List (List Char)) (segment : List Char) (segments : List (List Char)) :
    walk place (segment :: segments) = walk (visit place segment) segments := rfl

/-- The segment that was kept last is walked last. -/
theorem walk_reverse_cons (place : List (List Char)) (segment : List Char) (kept : List (List Char)) :
    walk place (segment :: kept).reverse = visit (walk place kept.reverse) segment := by
  rw [walk, List.reverse_cons, List.foldl_append]
  rfl

theorem walk_ups (place : List (List Char)) (n : ℕ) :
    walk place (List.replicate n ['.', '.']) = place.drop n := by
  induction n generalizing place with
  | zero => rfl
  | succ n ih =>
    have hup : visit place ['.', '.'] = place.drop 1 := List.drop_one.symm
    rw [List.replicate_succ, walk_cons, hup, ih, List.drop_drop, Nat.add_comm]

theorem walk_names {names : List (List Char)} (h : ∀ name ∈ names, IsKept true name) (place : List (List Char)) :
    walk place names = names.reverse ++ place := by
  induction names generalizing place with
  | nil => rfl
  | cons name names ih =>
    rw [List.forall_mem_cons] at h
    rw [walk_cons, visit_name h.1, ih h.2, List.reverse_cons, List.append_assoc, List.singleton_append]

/-! ## What is kept leads where the path did -/

/-- What is kept leads to where it led before, and then on through the segment. -/
theorem Changes.walk_eq (h : Changes rooted kept segment kept') (htop : rooted = true → place = []) :
    walk place kept'.reverse = visit (walk place kept.reverse) segment := by
  cases h with
  | stay hblank => rw [visit_blank hblank]
  | top =>
    rw [htop rfl]
    rfl
  | back _ hname =>
    rw [walk_reverse_cons, visit_name hname]
    rfl
  | up n =>
    rw [List.replicate_succ]
    exact walk_reverse_cons place _ _
  | down => exact walk_reverse_cons place segment kept

theorem walk_foldl {segments : List (List Char)} (hkept : IsTrail rooted kept) (hslash : ∀ s ∈ segments, '/' ∉ s)
    (htop : rooted = true → place = []) :
    walk place (segments.foldl (step rooted) kept).reverse = walk (walk place kept.reverse) segments := by
  induction segments generalizing kept with
  | nil => rfl
  | cons segment segments ih =>
    rw [List.forall_mem_cons] at hslash
    have hchange := changes_step hkept hslash.1
    rw [List.foldl_cons, ih (hchange.isTrail hkept) hslash.2, hchange.walk_eq htop, walk_cons]

theorem IsTrail.isNormal (h : IsTrail rooted kept) : IsNormal rooted kept.reverse := by
  induction h with
  | ups n hfree => exact ⟨n, [], by simp, List.forall_mem_nil _, hfree⟩
  | @name kept segment _ hname ih =>
    obtain ⟨n, names, hkept, hnames, hfree⟩ := ih
    refine ⟨n, names ++ [segment], ?_, ?_, hfree⟩
    · rw [List.reverse_cons, hkept, List.append_assoc]
    · exact List.forall_mem_append.mpr ⟨hnames, List.forall_mem_singleton.mpr hname⟩

theorem isNormal_resolve (rooted : Bool) {segments : List (List Char)} (hslash : ∀ s ∈ segments, '/' ∉ s) :
    IsNormal rooted (resolve rooted segments) := (isTrail_foldl isTrail_nil hslash).isNormal

theorem walk_resolve {segments : List (List Char)} (hslash : ∀ s ∈ segments, '/' ∉ s)
    (htop : rooted = true → place = []) : walk place (resolve rooted segments) = walk place segments :=
  walk_foldl isTrail_nil hslash htop

/-! ## Segments that get lost -/

theorem Changes.length_le (h : Changes rooted kept segment kept') : kept'.length ≤ kept.length + 1 := by
  cases h with
  | stay => exact Nat.le_succ _
  | top => exact Nat.zero_le _
  | back => exact Nat.le_add_right _ 2
  | up n => simp
  | down => exact Nat.le_refl _

/-- Only a segment that is added makes what is kept longer. -/
theorem Changes.eq_cons (h : Changes rooted kept segment kept') (hlength : kept.length < kept'.length) :
    kept' = segment :: kept := by
  cases h with
  | stay => exact absurd hlength (Nat.lt_irrefl _)
  | top => exact absurd hlength (Nat.lt_irrefl _)
  | back =>
    rw [List.length_cons] at hlength
    omega
  | up n => exact List.replicate_succ
  | down => rfl

theorem length_foldl_le {segments : List (List Char)} (hkept : IsTrail rooted kept) (hslash : ∀ s ∈ segments, '/' ∉ s) :
    (segments.foldl (step rooted) kept).length ≤ kept.length + segments.length := by
  induction segments generalizing kept with
  | nil => exact Nat.le_refl _
  | cons segment segments ih =>
    rw [List.forall_mem_cons] at hslash
    have hchange := changes_step hkept hslash.1
    have hrest := ih (hchange.isTrail hkept) hslash.2
    have hfirst := hchange.length_le
    rw [List.foldl_cons, List.length_cons]
    omega

theorem foldl_eq_of_length {segments : List (List Char)} (hkept : IsTrail rooted kept)
    (hslash : ∀ s ∈ segments, '/' ∉ s)
    (hlength : kept.length + segments.length ≤ (segments.foldl (step rooted) kept).length) :
    segments.foldl (step rooted) kept = segments.reverse ++ kept := by
  induction segments generalizing kept with
  | nil => rfl
  | cons segment segments ih =>
    rw [List.forall_mem_cons] at hslash
    have hchange := changes_step hkept hslash.1
    have hrest := length_foldl_le (hchange.isTrail hkept) hslash.2
    rw [List.foldl_cons, List.length_cons] at hlength
    have hstep : step rooted kept segment = segment :: kept := hchange.eq_cons (by omega)
    rw [hstep] at hlength hchange
    rw [List.foldl_cons, hstep, List.reverse_cons, List.append_assoc, List.singleton_append]
    exact ih (hchange.isTrail hkept) hslash.2 (by rw [List.length_cons]; omega)

/-- Segments of which none gets lost are kept as they are. -/
theorem resolve_eq_self {segments : List (List Char)} (hslash : ∀ s ∈ segments, '/' ∉ s)
    (hlength : segments.length ≤ (resolve rooted segments).length) : resolve rooted segments = segments := by
  rw [resolve, List.length_reverse] at hlength
  have hnil : IsTrail rooted [] := isTrail_nil
  have hkept := foldl_eq_of_length hnil hslash (by rwa [List.length_nil, Nat.zero_add])
  rw [resolve, hkept, List.append_nil, List.reverse_reverse]

/-! ## One normal form for each way -/

theorem walk_normal {names : List (List Char)} (h : ∀ name ∈ names, IsKept true name) (n : ℕ) :
    walk place (List.replicate n ['.', '.'] ++ names) = names.reverse ++ place.drop n := by
  rw [walk, List.foldl_append]
  exact (walk_names h _).trans (congrArg _ (walk_ups place n))

/-- There are names enough for a fresh one. -/
theorem exists_fresh_name (segments : List (List Char)) : ∃ name, IsKept true name ∧ name ∉ segments := by
  refine ⟨List.replicate (segments.flatten.length + 1) 'a', ⟨?_, ?_, fun _ ↦ ?_, ?_⟩, fun hmem ↦ ?_⟩
  · simp
  · simp [List.replicate_succ]
  · simp [List.replicate_succ]
  · simp
  · have hlength := (List.sublist_flatten_of_mem hmem).length_le
    rw [List.length_replicate] at hlength
    omega

theorem eq_of_walk_eq {segments segments' : List (List Char)} (h : IsNormal rooted segments)
    (h' : IsNormal rooted segments') (hwalk : ∀ place, (∀ name ∈ place, IsKept true name) →
      (rooted = true → place = []) → walk place segments = walk place segments') : segments = segments' := by
  obtain ⟨n, names, rfl, hnames, hfree⟩ := h
  obtain ⟨n', names', rfl, hnames', hfree'⟩ := h'
  -- From a directory that is deep enough and has none of the names, what is left of it tells how far up the way leads.
  obtain ⟨name, hname, hfresh⟩ := exists_fresh_name (names ++ names')
  rw [List.mem_append, not_or] at hfresh
  have hsame := hwalk (List.replicate (n + n') name) (fun c hc ↦ List.eq_of_mem_replicate hc ▸ hname)
    fun hrooted ↦ by rw [hfree hrooted, hfree' hrooted]; rfl
  rw [walk_normal hnames, walk_normal hnames', List.drop_replicate, List.drop_replicate] at hsame
  have hcount := congrArg (List.count name) hsame
  simp only [List.count_append, List.count_reverse, List.count_eq_zero.mpr hfresh.1, List.count_eq_zero.mpr hfresh.2,
    List.count_replicate_self] at hcount
  have hups : n = n' := by omega
  subst hups
  rw [List.reverse_inj.mp (List.append_cancel_right hsame)]

/-! ## Clean paths -/

theorem segments_slash (s : List Char) : segments ('/' :: s) = [] :: segments s :=
  Text.splitWhere_cons_of_pos (p := (· == '/')) BEq.rfl s

/-- The slash of a root leads nowhere. -/
theorem walk_segments (place : List (List Char)) (s : List Char) :
    walk place (segments s) = walk place (segments (belowRoot s)) := by
  unfold belowRoot
  split
  · next hrooted =>
    obtain ⟨rest, rfl⟩ := List.head?_eq_some_iff.mp (beq_iff_eq.mp hrooted)
    rw [segments_slash, walk_cons, visit_blank (.inl rfl), List.tail_cons]
  · rfl

theorem belowRoot_slash (s : List Char) : belowRoot ('/' :: s) = s := rfl

theorem belowRoot_of_free {s : List Char} (h : isRooted s = false) : belowRoot s = s := by
  rw [belowRoot, h, if_neg Bool.false_ne_true]

theorem join_ne_nil (hkept : ∀ c ∈ kept, IsKept rooted c) (hsome : kept ≠ []) : Text.join ['/'] kept ≠ [] := by
  obtain ⟨first, rest, rfl⟩ := List.exists_cons_of_ne_nil hsome
  rw [Text.join_cons]
  exact List.append_ne_nil_of_left_ne_nil (hkept first (.head _)).ne_nil _

/-- A path of which nothing remains. -/
theorem cleanChars_of_nil {s : List Char} (h : resolve (isRooted s) (segments s) = []) :
    cleanChars s = if isRooted s then ['/'] else ['.'] := by
  rw [cleanChars, h]
  rfl

theorem cleanChars_of_ne_nil {s : List Char} (h : resolve (isRooted s) (segments s) ≠ []) : cleanChars s =
    if isRooted s then '/' :: Text.join ['/'] (resolve (isRooted s) (segments s))
    else Text.join ['/'] (resolve (isRooted s) (segments s)) := by
  have hsome : (Text.join ['/'] (resolve (isRooted s) (segments s))).isEmpty = false := by
    rw [List.isEmpty_eq_false_iff]
    exact join_ne_nil (isKept_resolve _ s) h
  simp only [cleanChars, hsome, Bool.false_eq_true, if_false]

/-- The segments of a clean path are those that were kept. -/
theorem segments_belowRoot_cleanChars {s : List Char} (h : resolve (isRooted s) (segments s) ≠ []) :
    segments (belowRoot (cleanChars s)) = resolve (isRooted s) (segments s) := by
  have hkept := isKept_resolve (isRooted s) s
  have hbelow : belowRoot (cleanChars s) = Text.join ['/'] (resolve (isRooted s) (segments s)) := by
    rw [cleanChars_of_ne_nil h]
    split
    · exact belowRoot_slash _
    · exact belowRoot_of_free (isRooted_join hkept)
  rw [hbelow]
  exact Text.splitOn_join h fun c hc ↦ (hkept c hc).no_slash

theorem walk_segments_cleanChars (place : List (List Char)) (s : List Char) :
    walk place (segments (cleanChars s)) = walk place (resolve (isRooted s) (segments s)) := by
  by_cases hnil : resolve (isRooted s) (segments s) = []
  · rw [cleanChars_of_nil hnil, hnil]
    cases isRooted s <;> rfl
  · rw [walk_segments, segments_belowRoot_cleanChars hnil]

/-- A path leads where it led before it was cleaned. -/
theorem destination_cleanChars (place : List (List Char)) (s : List Char) :
    destination place (cleanChars s) = destination place s := by
  rw [destination, destination, isRooted_cleanChars, walk_segments_cleanChars]
  exact walk_resolve (slash_not_mem_segments s) fun hrooted ↦ by rw [hrooted, if_pos rfl]

/-- Two paths are cleaned to one text exactly if they have the same origin and lead to the same places. -/
theorem cleanChars_eq_cleanChars_iff {s t : List Char} : cleanChars s = cleanChars t ↔ isRooted s = isRooted t ∧
    ∀ place, (∀ name ∈ place, IsKept true name) → destination place s = destination place t := by
  constructor
  · intro h
    refine ⟨?_, fun place _ ↦ ?_⟩
    · rw [← isRooted_cleanChars s, h, isRooted_cleanChars]
    · rw [← destination_cleanChars place s, h, destination_cleanChars]
  · rintro ⟨hrooted, hsame⟩
    have hresolve : resolve (isRooted s) (segments s) = resolve (isRooted s) (segments t) := by
      refine eq_of_walk_eq (isNormal_resolve _ (slash_not_mem_segments s))
        (isNormal_resolve _ (slash_not_mem_segments t)) fun place hplace htop ↦ ?_
      rw [walk_resolve (slash_not_mem_segments s) htop, walk_resolve (slash_not_mem_segments t) htop]
      have hstart : (if isRooted s then [] else place) = place := by
        split
        · next h => exact (htop h).symm
        · rfl
      have hplaces := hsame place hplace
      rwa [destination, destination, ← hrooted, hstart] at hplaces
    unfold cleanChars
    rw [← hrooted, hresolve]

theorem cleanChars_cleanChars (s : List Char) : cleanChars (cleanChars s) = cleanChars s :=
  cleanChars_eq_cleanChars_iff.mpr ⟨isRooted_cleanChars s, fun place _ ↦ destination_cleanChars place s⟩

theorem isNormal_cleanChars {s : List Char} (hroot : cleanChars s ≠ ['/']) (hdot : cleanChars s ≠ ['.']) :
    IsNormal (isRooted s) (segments (belowRoot (cleanChars s))) := by
  by_cases hnil : resolve (isRooted s) (segments s) = []
  · rw [cleanChars_of_nil hnil] at hroot hdot
    split at hroot
    · exact absurd rfl hroot
    · next hfree => exact absurd (if_neg hfree) hdot
  · rw [segments_belowRoot_cleanChars hnil]
    exact isNormal_resolve _ (slash_not_mem_segments s)

/-- The paths that cleaning leaves alone are the root, the dot, and those in normal form. -/
theorem cleanChars_eq_self_iff {s : List Char} : cleanChars s = s ↔
    s = ['/'] ∨ s = ['.'] ∨ IsNormal (isRooted s) (segments (belowRoot s)) := by
  constructor
  · intro h
    by_cases hroot : s = ['/']
    · exact .inl hroot
    · by_cases hdot : s = ['.']
      · exact .inr (.inl hdot)
      · rw [← h] at hroot hdot
        have hnormal := isNormal_cleanChars hroot hdot
        rw [h] at hnormal
        exact .inr (.inr hnormal)
  · rintro (rfl | rfl | hnormal)
    · rfl
    · rfl
    · have hresolve : resolve (isRooted s) (segments s) = segments (belowRoot s) := by
        refine eq_of_walk_eq (isNormal_resolve _ (slash_not_mem_segments s)) hnormal fun place _ htop ↦ ?_
        rw [walk_resolve (slash_not_mem_segments s) htop, walk_segments]
      have hsome : resolve (isRooted s) (segments s) ≠ [] := hresolve ▸ Text.splitWhere_ne_nil _ _
      have hjoin : Text.join ['/'] (segments (belowRoot s)) = belowRoot s := Text.join_splitOn '/' _
      rw [cleanChars_of_ne_nil hsome, hresolve, hjoin]
      split
      · next hrooted =>
        obtain ⟨rest, rfl⟩ := List.head?_eq_some_iff.mp (beq_iff_eq.mp hrooted)
        rfl
      · next hfree => exact belowRoot_of_free (Bool.eq_false_iff.mpr hfree)

theorem blank_of_resolve_singleton (h : resolve false [segment] = []) : segment = [] ∨ segment = ['.'] := by
  by_contra hplain
  have hstep : step false [] segment = [segment] := by
    by_cases hdots : segment = ['.', '.']
    · rw [hdots]
      rfl
    · rw [step.eq_def, if_neg hplain, if_neg hdots]
  rw [resolve, List.foldl_cons, hstep] at h
  cases h

/-- A path without a root that keeps its slashes is clean already. -/
theorem cleanChars_eq_self_of_count {s : List Char} (hfree : isRooted s = false) (hsome : s ≠ [])
    (hcount : s.count '/' ≤ (cleanChars s).count '/') : cleanChars s = s := by
  by_cases hnil : resolve (isRooted s) (segments s) = []
  · have hdot := cleanChars_of_nil hnil
    rw [hfree, if_neg Bool.false_ne_true] at hdot
    rw [hdot] at hcount
    have hslash : '/' ∉ s := List.count_eq_zero.mp (Nat.le_zero.mp hcount)
    rw [hfree, segments, Text.splitOn_eq_singleton hslash] at hnil
    rw [hdot, (blank_of_resolve_singleton hnil).resolve_left hsome]
  · have hlength : (segments s).length ≤ (resolve (isRooted s) (segments s)).length := by
      have hclean : isRooted (cleanChars s) = false := by rw [isRooted_cleanChars, hfree]
      rw [← segments_belowRoot_cleanChars hnil, belowRoot_of_free hclean, segments, segments, Text.length_splitOn,
        Text.length_splitOn]
      omega
    have hjoin : Text.join ['/'] (segments s) = s := Text.join_splitOn '/' s
    rw [cleanChars_of_ne_nil hnil, resolve_eq_self (slash_not_mem_segments s) hlength, hfree,
      if_neg Bool.false_ne_true, hjoin]

/-- Cleaning keeps where a path starts and where it leads, from every directory. Unless nothing remains of it, the clean
path is made of segments that lead up, which a root does not have, and names behind them, and it is clean already. -/
theorem clean_is_normal_form (p : String) :
    isRooted (clean p).toList = isRooted p.toList ∧
    (clean p = "/" ∨ clean p = "." ∨ IsNormal (isRooted p.toList) (segments (belowRoot (clean p).toList))) ∧
    clean (clean p) = clean p ∧
    ∀ place, destination place (clean p).toList = destination place p.toList := by
  have hlist : (clean p).toList = cleanChars p.toList := String.toList_ofList
  refine ⟨?_, ?_, ?_, fun place ↦ ?_⟩
  · rw [hlist]
    exact isRooted_cleanChars _
  · rw [← String.toList_inj, ← String.toList_inj, hlist, ← isRooted_cleanChars]
    exact cleanChars_eq_self_iff.mp (cleanChars_cleanChars _)
  · rw [clean, hlist, cleanChars_cleanChars]
    rfl
  · rw [hlist]
    exact destination_cleanChars place _

end RuleGate.UrlPath
