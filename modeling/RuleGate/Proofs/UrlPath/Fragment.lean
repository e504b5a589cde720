import RuleGate.Proofs.UrlPath.NormalForm

/-!
# Fragments and the slash at the end

The path of a URL is the text in front of its fragment, cleaned. A clean path ends with a slash only if it is the root,
and the slash that is kept at the end is looked for at the end of the whole text. So it is the slash of the path where
there is no fragment, and that of the fragment where there is one: the fragment is without effect exactly if it ends
with a slash like the path does, or if the path is the root.
-/

namespace RuleGate.UrlPath

variable {rooted : Bool} {kept : List (List Char)}

/-! ## The end of a clean path -/

theorem endsInSlash_append {s t : List Char} (h : t ≠ []) : endsInSlash (s ++ t) = endsInSlash t := by
  rw [endsInSlash, List.getLast?_append_of_ne_nil s h, endsInSlash]

theorem endsInSlash_of_not_mem {s : List Char} (h : '/' ∉ s) : endsInSlash s = false := by
  rw [endsInSlash, beq_eq_false_iff_ne]
  exact fun hlast ↦ h (List.mem_of_getLast? hlast)

/-- Segments that are joined do not end with a slash. -/
theorem endsInSlash_join (hkept : ∀ c ∈ kept, IsKept rooted c) : endsInSlash (Text.join ['/'] kept) = false := by
  induction kept with
  | nil => rfl
  | cons first rest ih =>
    rw [List.forall_mem_cons] at hkept
    cases rest with
    | nil => exact endsInSlash_of_not_mem hkept.1.no_slash
    | cons second rest =>
      rw [Text.join_cons_cons, endsInSlash_append (join_ne_nil hkept.2 (List.cons_ne_nil _ _))]
      exact ih hkept.2

theorem endsInSlash_cleanChars_iff {s : List Char} : endsInSlash (cleanChars s) = true ↔ cleanChars s = ['/'] := by
  refine ⟨fun h ↦ ?_, fun h ↦ by rw [h]; rfl⟩
  have hkept := isKept_resolve (isRooted s) s
  by_cases hnil : resolve (isRooted s) (segments s) = []
  · rw [cleanChars_of_nil hnil] at h ⊢
    split at h
    · next hrooted => exact if_pos hrooted
    · cases h
  · have hjoin := endsInSlash_join hkept
    rw [cleanChars_of_ne_nil hnil] at h
    split at h
    · rw [← List.singleton_append, endsInSlash_append (join_ne_nil hkept hnil), hjoin] at h
      cases h
    · rw [hjoin] at h
      cases h

theorem endsInSlash_iff_endsWith (s : String) : endsInSlash s.toList = true ↔ s.endsWith "/" = true := by
  rw [endsInSlash, beq_iff_eq, Text.endsWith_iff]
  constructor
  · intro h
    obtain ⟨front, hfront⟩ := List.getLast?_eq_some_iff.mp h
    refine ⟨String.ofList front, String.toList_inj.mp ?_⟩
    simp [hfront, String.toList_append]
  · rintro ⟨front, rfl⟩
    rw [String.toList_append]
    exact List.getLast?_concat

/-! ## The slash that is kept -/

/-- A clean path, with a slash at its end if one is asked for. -/
def withSlash (slash : Bool) (p : String) : String := if slash = true ∧ p ≠ "/" then p ++ "/" else p

theorem clean_eq_root_iff (p : String) : clean p = "/" ↔ cleanChars p.toList = ['/'] := by
  rw [← String.toList_inj, clean, String.toList_ofList]
  rfl

theorem endsWith_clean_iff (p : String) : (clean p).endsWith "/" = true ↔ clean p = "/" := by
  rw [← endsInSlash_iff_endsWith, clean_eq_root_iff, clean, String.toList_ofList, endsInSlash_cleanChars_iff]

theorem endsWith_withSlash_iff (slash : Bool) (p : String) :
    (withSlash slash (clean p)).endsWith "/" = true ↔ slash = true ∨ clean p = "/" := by
  unfold withSlash
  split
  · next h => exact iff_of_true (Text.endsWith_iff.mpr ⟨clean p, rfl⟩) (.inl h.1)
  · next h =>
    rw [endsWith_clean_iff]
    refine ⟨.inr, fun hslash ↦ hslash.elim (fun hslash ↦ ?_) id⟩
    by_contra hroot
    exact h ⟨hslash, hroot⟩

/-- A path of one character that ends with a slash is the root. -/
theorem cleanChars_before_of_length_le {s : List Char} (hlength : s.length ≤ 1) (hslash : endsInSlash s = true) :
    cleanChars (Text.before '#' s) = ['/'] := by
  obtain ⟨front, rfl⟩ := List.getLast?_eq_some_iff.mp (beq_iff_eq.mp hslash)
  rw [List.length_append, List.length_singleton] at hlength
  have hfront : front = [] := List.length_eq_zero_iff.mp (by omega)
  subst hfront
  rfl

theorem cleanUrlChars_eq {s : List Char} (h : Text.before '#' s ≠ []) : cleanUrlChars s =
    .ok (if endsInSlash s = true ∧ cleanChars (Text.before '#' s) ≠ ['/'] then cleanChars (Text.before '#' s) ++ ['/']
      else cleanChars (Text.before '#' s)) := by
  have hsome : (Text.before '#' s).isEmpty = false := List.isEmpty_eq_false_iff.mpr h
  have hslash : (1 < s.length ∧ endsInSlash s = true ∧ (!endsInSlash (cleanChars (Text.before '#' s))) = true) ↔
      endsInSlash s = true ∧ cleanChars (Text.before '#' s) ≠ ['/'] := by
    rw [Bool.not_eq_true', ← Bool.not_eq_true, endsInSlash_cleanChars_iff]
    refine and_iff_right_of_imp fun ⟨hend, hroot⟩ ↦ ?_
    by_contra hlength
    exact hroot (cleanChars_before_of_length_le (Nat.not_lt.mp hlength) hend)
  simp only [cleanUrlChars, hsome, Bool.false_eq_true, if_false, hslash]
  split <;> rfl

theorem withSlash_clean (slash : Bool) (p : String) : withSlash slash (clean p) = String.ofList
    (if slash = true ∧ cleanChars p.toList ≠ ['/'] then cleanChars p.toList ++ ['/'] else cleanChars p.toList) := by
  simp only [withSlash, ne_eq, clean_eq_root_iff]
  split
  · rw [String.ofList_append]
    rfl
  · rfl

/-- The path in front of the fragment is cleaned, and the slash is that of the whole text. -/
theorem cleanUrl_eq_withSlash {s p : String} (hp : p ≠ "") (h : Text.before '#' s.toList = p.toList) :
    cleanUrl s = .ok (withSlash (s.endsWith "/") (clean p)) := by
  have hsome : Text.before '#' s.toList ≠ [] := by
    rw [h, Ne, String.toList_eq_nil_iff]
    exact hp
  have hends : endsInSlash s.toList = s.endsWith "/" := Bool.eq_iff_iff.mpr (endsInSlash_iff_endsWith s)
  rw [cleanUrl, cleanUrlChars_eq hsome, h, hends, withSlash_clean]
  rfl

theorem endsWith_fragment (p f : String) : (p ++ "#" ++ f).endsWith "/" = f.endsWith "/" := by
  rw [Bool.eq_iff_iff, ← endsInSlash_iff_endsWith, ← endsInSlash_iff_endsWith, String.toList_append]
  by_cases hf : f.toList = []
  · rw [hf, List.append_nil, String.toList_append, show "#".toList = ['#'] from rfl,
      endsInSlash_append (List.cons_ne_nil _ _)]
    exact Iff.rfl
  · rw [endsInSlash_append hf]

theorem withSlash_clean_inj {slash slash' : Bool} {p : String} :
    withSlash slash (clean p) = withSlash slash' (clean p) ↔ slash = slash' ∨ clean p = "/" := by
  constructor
  · intro h
    have hends := endsWith_withSlash_iff slash p
    rw [h, endsWith_withSlash_iff] at hends
    by_cases hroot : clean p = "/"
    · exact .inr hroot
    · rw [or_iff_left hroot, or_iff_left hroot] at hends
      exact .inl (Bool.eq_iff_iff.mpr hends.symm)
  · rintro (rfl | hroot)
    · rfl
    · rw [hroot]
      simp [withSlash]

/-- A path with a fragment can always be cleaned. The text in front of the fragment decides on all but the slash at the
end, and this slash is the fragment's: the fragment is without effect exactly if it ends with a slash like the path
does, or if the path is cleaned to the root. -/
theorem fragment_is_dropped_iff {p : String} (hp : p ≠ "") (hfree : '#' ∉ p.toList) (f : String) :
    cleanUrl p = .ok (withSlash (p.endsWith "/") (clean p)) ∧
    cleanUrl (p ++ "#" ++ f) = .ok (withSlash (f.endsWith "/") (clean p)) ∧
    (cleanUrl (p ++ "#" ++ f) = cleanUrl p ↔ f.endsWith "/" = p.endsWith "/" ∨ clean p = "/") ∧
    (∀ q, cleanUrl p = .ok q → (q.endsWith "/" = true ↔ p.endsWith "/" = true ∨ clean p = "/")) ∧
    ∀ q, cleanUrl (p ++ "#" ++ f) = .ok q → (q.endsWith "/" = true ↔ f.endsWith "/" = true ∨ clean p = "/") := by
  have hbare : cleanUrl p = .ok (withSlash (p.endsWith "/") (clean p)) :=
    cleanUrl_eq_withSlash hp (Text.before_eq_self hfree)
  have hfront : Text.before '#' (p ++ "#" ++ f).toList = p.toList := by
    rw [String.toList_append, String.toList_append, List.append_assoc, Text.before_append hfree]
    exact List.append_nil _
  have hmarked : cleanUrl (p ++ "#" ++ f) = .ok (withSlash (f.endsWith "/") (clean p)) := by
    rw [cleanUrl_eq_withSlash hp hfront, endsWith_fragment]
  refine ⟨hbare, hmarked, ?_, fun q hq ↦ ?_, fun q hq ↦ ?_⟩
  · rw [hbare, hmarked, Except.ok.injEq, withSlash_clean_inj]
  · rw [hbare] at hq
    cases hq
    exact endsWith_withSlash_iff _ p
  · rw [hmarked] at hq
    cases hq
    exact endsWith_withSlash_iff _ p

theorem fragment_of_directory_is_dropped :
    ("/a/../b/" ≠ "" ∧ '#' ∉ "/a/../b/".toList) ∧ cleanUrl ("/a/../b/" ++ "#" ++ "top/") = cleanUrl "/a/../b/" := by
  have hiff := (fragment_is_dropped_iff (p := "/a/../b/") (by decide) (by decide) "top/").2.2.1
  exact ⟨by decide, hiff.mpr (.inl (by decide +kernel))⟩

/-- A fragment takes the slash of a directory away, and puts its own behind a file. -/
theorem slash_of_fragment_is_kept :
    (cleanUrl "/a/" = .ok "/a/" ∧ cleanUrl ("/a/" ++ "#" ++ "x") = .ok "/a") ∧
    cleanUrl "/a" = .ok "/a" ∧ cleanUrl ("/a" ++ "#" ++ "x/") = .ok "/a/" := ⟨⟨rfl, rfl⟩, rfl, rfl⟩

end RuleGate.UrlPath
