import RuleGate.Proofs.Text.Trim
import RuleGate.Proofs.UrlPath.Fragment

/-!
# Paths below the root

A path that starts with a slash is cleaned to the root, or to one slash in front, names with single slashes between
them, and perhaps a slash at the end. Slashes that follow one another count as one, wherever they stand. Cleaning
writes no characters of its own but slashes and the dot of an empty path.
-/

namespace RuleGate.UrlPath

variable {rooted : Bool} {kept : List (List Char)} {segment : List Char}

/-- One slash in front, names behind it that lead down, and perhaps a slash at the end. -/
structure IsBelowRoot (p : String) : Prop where
  starts : p.startsWith "/" = true
  starts_once : p.startsWith "//" = false
  segments_eq : ∃ names back, segments p.toList = [] :: (names ++ back) ∧ (∀ name ∈ names, IsKept true name) ∧
    (back = [] ∨ back = [[]])

/-! ## The segments of a rooted path -/

theorem segments_append_slash (a b : List Char) : segments (a ++ '/' :: b) = segments a ++ segments b :=
  Text.splitOn_append_cons '/' a b

theorem segments_slash_join (hkept : ∀ c ∈ kept, IsKept rooted c) (hsome : kept ≠ []) :
    segments ('/' :: Text.join ['/'] kept) = [] :: kept := by
  rw [segments_slash, segments, Text.splitOn_join hsome fun c hc ↦ (hkept c hc).no_slash]

/-- Two slashes in front make an empty segment, which is no name. -/
theorem startsWith_slashes_of_segments {p : String} {names back : List (List Char)}
    (hsegments : segments p.toList = [] :: (names ++ back)) (hnames : ∀ name ∈ names, IsKept true name)
    (hback : back = [] ∨ back = [[]]) : p.startsWith "//" = false := by
  rw [← Bool.not_eq_true, Text.startsWith_iff]
  rintro ⟨rest, rfl⟩
  have hrest : segments rest.toList ≠ [] := Text.splitWhere_ne_nil _ _
  have hdoubled : segments ("//" ++ rest).toList = [] :: [] :: segments rest.toList := by
    rw [String.toList_append]
    exact (segments_slash _).trans (congrArg _ (segments_slash _))
  rw [hdoubled, List.cons_inj_right] at hsegments
  cases names with
  | nil =>
    obtain rfl | rfl := hback
    · cases hsegments
    · exact hrest (List.cons.inj hsegments).2
  | cons name names => exact (hnames name (.head _)).ne_nil (List.cons.inj hsegments).1.symm

theorem before_slash (s : List Char) : Text.before '#' ('/' :: s) = '/' :: Text.before '#' s := rfl

theorem before_ne_nil_of_isRooted {s : List Char} (h : isRooted s = true) : Text.before '#' s ≠ [] := by
  obtain ⟨rest, rfl⟩ := List.head?_eq_some_iff.mp (beq_iff_eq.mp h)
  exact List.cons_ne_nil _ _

/-- The segments that are kept stand behind the slash of the root, and the slash at the end is an empty segment. -/
theorem exists_segments_of_cleanUrlChars {s p : List Char} (hrooted : isRooted s = true) (h : cleanUrlChars s = .ok p) :
    ∃ names back, segments p = [] :: (names ++ back) ∧ (∀ name ∈ names, IsKept true name) ∧
      (back = [] ∨ back = [[]]) := by
  rw [cleanUrlChars_eq (before_ne_nil_of_isRooted hrooted), Except.ok.injEq] at h
  obtain ⟨rest, rfl⟩ := List.head?_eq_some_iff.mp (beq_iff_eq.mp hrooted)
  rw [before_slash, cleanChars_slash] at h
  have hkept := isKept_resolve true ('/' :: Text.before '#' rest)
  generalize resolve true (segments ('/' :: Text.before '#' rest)) = names at h hkept
  by_cases hnone : names = []
  · rw [hnone, if_neg fun hslash ↦ hslash.2 rfl] at h
    exact ⟨[], [[]], by rw [← h]; rfl, List.forall_mem_nil _, .inr rfl⟩
  · split at h
    · refine ⟨names, [[]], ?_, hkept, .inr rfl⟩
      rw [← h, segments_append_slash, segments_slash_join hkept hnone, List.cons_append]
      rfl
    · exact ⟨names, [], by rw [← h, segments_slash_join hkept hnone, List.append_nil], hkept, .inl rfl⟩

theorem isBelowRoot_of_cleanUrl {s p : String} (hrooted : s.startsWith "/" = true) (h : cleanUrl s = .ok p) :
    IsBelowRoot p := by
  obtain ⟨cs, hcs, hp⟩ := map_eq_ok.mp h
  obtain ⟨names, back, hsegments, hnames, hback⟩ :=
    exists_segments_of_cleanUrlChars ((isRooted_iff_startsWith s).mpr hrooted) hcs
  have hlist : p.toList = cs := by rw [← hp, String.toList_ofList]
  rw [← hlist] at hsegments
  exact ⟨(startsWith_of_cleanUrl h).mpr hrooted, startsWith_slashes_of_segments hsegments hnames hback,
    names, back, hsegments, hnames, hback⟩

/-! ## Slashes that follow one another -/

theorem isRooted_append_slash (a b c : List Char) : isRooted (a ++ '/' :: b) = isRooted (a ++ '/' :: c) := by
  cases a <;> rfl

theorem cleanChars_doubled_slash (a b : List Char) :
    cleanChars (a ++ '/' :: '/' :: b) = cleanChars (a ++ '/' :: b) := by
  refine cleanChars_eq_cleanChars_iff.mpr ⟨isRooted_append_slash a _ _, fun place _ ↦ ?_⟩
  rw [destination, destination, isRooted_append_slash a ('/' :: b) b, segments_append_slash, segments_append_slash,
    segments_slash, walk, walk, List.foldl_append, List.foldl_append, List.foldl_cons, visit_blank (.inl rfl)]

theorem cleanUrlChars_doubled_slash {a b : List Char} (hrooted : isRooted (a ++ '/' :: b) = true) :
    cleanUrlChars (a ++ '/' :: '/' :: b) = cleanUrlChars (a ++ '/' :: b) := by
  have hrooted' : isRooted (a ++ '/' :: '/' :: b) = true := (isRooted_append_slash a _ _).trans hrooted
  have hends : endsInSlash (a ++ '/' :: '/' :: b) = endsInSlash (a ++ '/' :: b) := by
    rw [endsInSlash_append (List.cons_ne_nil _ _), endsInSlash_append (List.cons_ne_nil _ _)]
    exact endsInSlash_append (s := ['/']) (List.cons_ne_nil _ _)
  have hclean : cleanChars (Text.before '#' (a ++ '/' :: '/' :: b)) = cleanChars (Text.before '#' (a ++ '/' :: b)) := by
    by_cases hmark : '#' ∈ a
    · -- The fragment starts in front of the slashes and takes them along.
      obtain ⟨front, back, rfl, hfront⟩ := List.eq_append_cons_of_mem hmark
      rw [List.append_assoc, List.append_assoc, Text.before_append hfront, Text.before_append hfront]
      rfl
    · rw [Text.before_append hmark, Text.before_append hmark]
      exact cleanChars_doubled_slash a _
  rw [cleanUrlChars_eq (before_ne_nil_of_isRooted hrooted'), cleanUrlChars_eq (before_ne_nil_of_isRooted hrooted),
    hends, hclean]

/-- Slashes at the end of a directory do not matter to what is in it. -/
theorem cleanUrlChars_dropEndWhile {a b : List Char} (hrooted : isRooted (a ++ '/' :: b) = true) :
    cleanUrlChars (Text.dropEndWhile (· == '/') a ++ '/' :: b) = cleanUrlChars (a ++ '/' :: b) := by
  induction a using List.reverseRecOn with
  | nil => rfl
  | append_singleton a c ih =>
    by_cases hc : c = '/'
    · subst hc
      rw [List.append_assoc, List.singleton_append] at hrooted ⊢
      have hrooted' : isRooted (a ++ '/' :: b) = true := (isRooted_append_slash a _ _).trans hrooted
      have hdrop : Text.dropEndWhile (· == '/') (a ++ ['/']) = Text.dropEndWhile (· == '/') a :=
        List.rdropWhile_concat_pos (· == '/') a '/' BEq.rfl
      rw [hdrop, ih hrooted', cleanUrlChars_doubled_slash hrooted']
    · have hkeep : Text.dropEndWhile (· == '/') (a ++ [c]) = a ++ [c] :=
        List.rdropWhile_concat_neg (· == '/') a c (by simpa using hc)
      rw [hkeep]

/-! ## Characters -/

theorem Changes.mem_or_eq {kept' : List (List Char)} (h : Changes rooted kept segment kept') {c : List Char}
    (hc : c ∈ kept') : c ∈ kept ∨ c = segment := by
  cases h with
  | stay => exact .inl hc
  | top => exact .inl hc
  | back => exact .inl (.tail _ hc)
  | up n => exact .inr (List.eq_of_mem_replicate hc)
  | down => exact (List.mem_cons.mp hc).symm

theorem mem_or_mem_of_mem_foldl {segments : List (List Char)} (hkept : IsTrail rooted kept)
    (hslash : ∀ s ∈ segments, '/' ∉ s) {c : List Char} (hc : c ∈ segments.foldl (step rooted) kept) :
    c ∈ kept ∨ c ∈ segments := by
  induction segments generalizing kept with
  | nil => exact .inl hc
  | cons segment segments ih =>
    rw [List.forall_mem_cons] at hslash
    have hchange := changes_step hkept hslash.1
    obtain hstep | hrest := ih (hchange.isTrail hkept) hslash.2 hc
    · exact (hchange.mem_or_eq hstep).imp_right fun hc ↦ List.mem_cons.mpr (.inl hc)
    · exact .inr (.tail _ hrest)

theorem mem_of_mem_cleanChars {s : List Char} {c : Char} (h : c ∈ cleanChars s) : c = '/' ∨ c = '.' ∨ c ∈ s := by
  have hjoin (hc : c ∈ Text.join ['/'] (resolve (isRooted s) (segments s))) : c = '/' ∨ c ∈ s := by
    obtain hc | ⟨segment, hsegment, hc⟩ := Text.mem_join hc
    · exact .inl (List.mem_singleton.mp hc)
    · rw [resolve, List.mem_reverse] at hsegment
      obtain hnone | hsegment := mem_or_mem_of_mem_foldl isTrail_nil (slash_not_mem_segments s) hsegment
      · cases hnone
      · exact .inr (Text.mem_of_mem_splitWhere hsegment hc)
  unfold cleanChars at h
  dsimp only at h
  split at h
  · obtain rfl | hc := List.mem_cons.mp h
    · exact .inl rfl
    · exact (hjoin hc).imp_right .inr
  · split at h
    · exact .inr (.inl (List.mem_singleton.mp h))
    · exact (hjoin h).imp_right .inr

theorem mem_of_mem_cleanUrlChars {s p : List Char} {c : Char} (h : cleanUrlChars s = .ok p) (hc : c ∈ p) :
    c = '/' ∨ c = '.' ∨ c ∈ s := by
  have hclean (hc : c ∈ cleanChars (Text.before '#' s)) : c = '/' ∨ c = '.' ∨ c ∈ s :=
    (mem_of_mem_cleanChars hc).imp_right (.imp_right fun hbefore ↦ (List.takeWhile_prefix _).subset hbefore)
  rw [cleanUrlChars_eq (cleanUrlChars_eq_ok_iff.mp ⟨p, h⟩), Except.ok.injEq] at h
  subst h
  split at hc
  · obtain hc | hc := List.mem_append.mp hc
    · exact hclean hc
    · exact .inl (List.mem_singleton.mp hc)
  · exact hclean hc

end RuleGate.UrlPath
