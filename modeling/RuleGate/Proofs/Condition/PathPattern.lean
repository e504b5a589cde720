import RuleGate.Condition.Check
import RuleGate.Proofs.Matcher
import RuleGate.Proofs.UrlPath.Fragment

/-!
# Patterns for paths

A pattern for paths is cleaned as a path before its type is looked at, brackets and all. A pattern with a type comes
through as it is exactly if it holds no hash and no segment between two of its slashes is empty, a dot or two dots.
Any other one is compiled to something else or not at all: even its type goes where two dots follow its first slash.
-/

namespace RuleGate

open UrlPath

/-! ## Segments inside of brackets -/

/-- The segments that have a slash on both sides. -/
def UrlPath.innerSegments (s : List Char) : List (List Char) := (segments s).tail.dropLast

/-- What stands around a text without slashes of its own joins its first and its last segment. -/
theorem UrlPath.segments_between {a b : List Char} (ha : '/' ∉ a) (hb : '/' ∉ b) (s : List Char) :
    (∃ w, segments (a ++ (s ++ b)) = [a ++ w] ∧ innerSegments s = []) ∨
      ∃ w v, segments (a ++ (s ++ b)) = (a ++ w) :: (innerSegments s ++ [v ++ b]) := by
  obtain ⟨w, ws, hs, has⟩ := Text.splitOn_append_front ha s
  obtain ⟨vs, v, hlast, hwhole⟩ := Text.splitOn_append_back hb (a ++ s)
  rw [List.append_assoc] at hwhole
  have hinner : innerSegments s = ws.dropLast := by rw [innerSegments, segments, hs, List.tail_cons]
  rw [has] at hlast
  cases vs with
  | nil =>
    obtain ⟨hw, hws⟩ := List.cons.inj hlast
    refine .inl ⟨w ++ b, ?_, ?_⟩
    · rw [segments, hwhole, List.nil_append, ← hw, List.append_assoc]
    · rw [hinner, hws]
      rfl
  | cons first vs =>
    rw [List.cons_append] at hlast
    obtain ⟨hw, hws⟩ := List.cons.inj hlast
    refine .inr ⟨w, v, ?_⟩
    rw [segments, hwhole, ← hw, hinner, hws, List.dropLast_concat]
    rfl

/-- A segment with anything but dots in it is a name. -/
theorem UrlPath.isKept_of_mem {segment : List Char} {c : Char} (hc : c ∈ segment) (hdot : c ≠ '.')
    (hslash : '/' ∉ segment) : IsKept true segment where
  ne_nil := List.ne_nil_of_mem hc
  ne_dot := by
    rintro rfl
    exact hdot (List.mem_singleton.mp hc)
  ne_dots := by
    rintro - rfl
    simp [hdot] at hc
  no_slash := hslash

/-- Where the first segment is a name, nothing leads up. -/
theorem UrlPath.IsNormal.forall_isKept {rooted : Bool} {first : List Char} {rest : List (List Char)}
    (h : IsNormal rooted (first :: rest)) (hfirst : IsKept true first) : ∀ c ∈ first :: rest, IsKept true c := by
  obtain ⟨n, names, hsegments, hnames, -⟩ := h
  cases n with
  | zero =>
    rw [hsegments]
    exact hnames
  | succ n => exact absurd (List.cons.inj hsegments).1 (hfirst.ne_dots rfl)

theorem UrlPath.isNormal_of_forall {segments : List (List Char)} (h : ∀ c ∈ segments, IsKept true c) :
    IsNormal false segments := ⟨0, segments, rfl, h, fun hrooted ↦ by cases hrooted⟩

/-- Between two names, only names are normal. -/
theorem UrlPath.isNormal_between_iff {first last : List Char} {inner : List (List Char)} (hfirst : IsKept true first)
    (hlast : IsKept true last) (hslash : ∀ segment ∈ inner, '/' ∉ segment) :
    IsNormal false (first :: (inner ++ [last])) ↔
      ∀ segment ∈ inner, segment ≠ [] ∧ segment ≠ ['.'] ∧ segment ≠ ['.', '.'] := by
  constructor
  · intro hnormal segment hsegment
    have hname := hnormal.forall_isKept hfirst segment (.tail _ (List.mem_append_left _ hsegment))
    exact ⟨hname.ne_nil, hname.ne_dot, hname.ne_dots rfl⟩
  · intro hplain
    refine isNormal_of_forall (List.forall_mem_cons.mpr ⟨hfirst, List.forall_mem_append.mpr ⟨?_, ?_⟩⟩)
    · intro segment hsegment
      obtain ⟨hnil, hdot, hdots⟩ := hplain segment hsegment
      exact ⟨hnil, hdot, fun _ ↦ hdots, hslash segment hsegment⟩
    · exact List.forall_mem_singleton.mpr hlast

namespace Matcher

variable {t : MatcherType} {name e : List Char}

theorem not_mem_typed (hname : t.IsName name) {c : Char} (hc : c.toLower ∉ '(' :: ')' :: t.name.toList)
    (he : c ∉ e) : c ∉ typed name e := by
  rw [List.mem_cons, List.mem_cons, not_or, not_or] at hc
  rw [typed, List.mem_append, List.mem_cons, List.mem_append, List.mem_singleton]
  rintro (h | rfl | h | rfl)
  · exact hname.not_mem hc.2.2 h
  · exact hc.1 rfl
  · exact he h
  · exact hc.2.1 rfl

theorem isRooted_typed (hname : t.IsName name) (e : List Char) : isRooted (typed name e) = false := by
  rw [isRooted, head?_typed hname, beq_eq_false_iff_ne]
  exact fun hhead ↦ hname.not_mem (by cases t <;> decide) (List.mem_of_mem_head? hhead)

theorem endsInSlash_typed (name e : List Char) : endsInSlash (typed name e) = false := by
  rw [endsInSlash, getLast?_typed]
  rfl

theorem count_typed (hname : t.IsName name) (e : List Char) : (typed name e).count '/' = e.count '/' := by
  have hfree : name.count '/' = 0 := List.count_eq_zero.mpr (hname.not_mem (by cases t <;> decide))
  rw [typed, List.count_append, hfree, List.count_cons_of_ne (by decide), List.count_append]
  simp

theorem typed_ne_singleton {c : Char} (hc : c ≠ ')') (name e : List Char) : typed name e ≠ [c] := by
  intro h
  have hlast := getLast?_typed name e
  rw [h] at hlast
  exact hc (Option.some.inj hlast)

/-- Cleaning leaves an expression alone exactly if it leaves all segments between its slashes alone. -/
theorem cleanChars_typed_eq_self_iff (hname : t.IsName name) : cleanChars (typed name e) = typed name e ↔
    ∀ segment ∈ innerSegments e, segment ≠ [] ∧ segment ≠ ['.'] ∧ segment ≠ ['.', '.'] := by
  have hopen : '/' ∉ name ++ ['('] := by
    rw [List.mem_append, not_or]
    exact ⟨hname.not_mem (by cases t <;> decide), by decide⟩
  have hbetween := segments_between hopen (b := [')']) (by decide) e
  have hwhole : name ++ ['('] ++ (e ++ [')']) = typed name e := by
    rw [List.append_assoc]
    rfl
  have hfree : isRooted (typed name e) = false := isRooted_typed hname e
  have hroot : typed name e ≠ ['/'] := typed_ne_singleton (by decide) name e
  have hdot : typed name e ≠ ['.'] := typed_ne_singleton (by decide) name e
  have hslash := slash_not_mem_segments (typed name e)
  rw [hwhole] at hbetween
  rw [cleanChars_eq_self_iff, or_iff_right hroot, or_iff_right hdot, belowRoot_of_free hfree, hfree]
  -- The brackets make names of the first and the last segment, whatever else is in them.
  rcases hbetween with ⟨w, hsegments, hinner⟩ | ⟨w, v, hsegments⟩
  · rw [hsegments, List.forall_mem_singleton] at hslash
    rw [hsegments, hinner]
    refine iff_of_true (isNormal_of_forall ?_) (List.forall_mem_nil _)
    exact List.forall_mem_singleton.mpr (isKept_of_mem (c := '(') (by simp) (by decide) hslash)
  · rw [hsegments, List.forall_mem_cons, List.forall_mem_append, List.forall_mem_singleton] at hslash
    have hfirst : IsKept true (name ++ ['('] ++ w) := isKept_of_mem (c := '(') (by simp) (by decide) hslash.1
    have hlast : IsKept true (v ++ [')']) := isKept_of_mem (c := ')') (by simp) (by decide) hslash.2.2
    rw [hsegments]
    exact isNormal_between_iff hfirst hlast hslash.2.1

end Matcher

namespace Arguments

open Matcher

variable {t : MatcherType} {name e : List Char}

/-- What a pattern for paths says to compile. -/
def pathSource (s : List Char) : Compiled Matcher.Source := cleanUrlChars s >>= Matcher.source .glob

theorem pathMatcher_eq (s : String) : pathMatcher [s] = pathSource s.toList >>= Matcher.Source.compile := by
  have hclean : pathMatcher [s] = cleanUrl s >>= fun p ↦ Matcher.parseWithDefault .glob p.toList := rfl
  rw [hclean, cleanUrl, pathSource]
  cases cleanUrlChars s.toList with
  | error => rfl
  | ok p =>
    calc Matcher.parseWithDefault .glob (String.ofList p).toList
      _ = Matcher.parseWithDefault .glob p := by rw [String.toList_ofList]
      _ = Matcher.source .glob p >>= Matcher.Source.compile := Matcher.parseWithDefault_eq .glob p

theorem before_typed_ne_nil (hname : t.IsName name) (e : List Char) : Text.before '#' (typed name e) ≠ [] := by
  have hfree : '#' ∉ name := hname.not_mem (by cases t <;> decide)
  rw [typed, Text.before_append hfree]
  exact List.append_ne_nil_of_right_ne_nil _ (List.cons_ne_nil _ _)

theorem cleanUrlChars_typed (hname : t.IsName name) (e : List Char) :
    cleanUrlChars (typed name e) = .ok (cleanChars (Text.before '#' (typed name e))) := by
  rw [cleanUrlChars_eq (before_typed_ne_nil hname e), endsInSlash_typed]
  simp

/-- Where the pattern that is read is the one in the brackets, nothing was cleaned away. -/
theorem cleanChars_of_source (hname : t.IsName name) {type : MatcherType} {negated : Bool}
    (h : Matcher.source .glob (cleanChars (Text.before '#' (typed name e))) = .ok ⟨type, e, negated⟩) :
    '#' ∉ e ∧ cleanChars (typed name e) = typed name e := by
  have hpattern : e.Sublist (cleanChars (Text.before '#' (typed name e))) := Matcher.sublist_of_source h
  have hfront : Text.before '#' (typed name e) <+: typed name e := List.takeWhile_prefix _
  -- Cleaning only loses slashes, and the pattern still has all those of the expression.
  have hcount : (Text.before '#' (typed name e)).count '/' ≤ (cleanChars (Text.before '#' (typed name e))).count '/' :=
    calc (Text.before '#' (typed name e)).count '/'
      _ ≤ (typed name e).count '/' := hfront.sublist.count_le '/'
      _ = e.count '/' := count_typed hname e
      _ ≤ (cleanChars (Text.before '#' (typed name e))).count '/' := hpattern.count_le '/'
  have hrooted : isRooted (Text.before '#' (typed name e)) = false := by
    rw [isRooted_before (before_typed_ne_nil hname e), isRooted_typed hname]
  have hclean := cleanChars_eq_self_of_count hrooted (before_typed_ne_nil hname e) hcount
  have hhash : '#' ∉ e := by
    rw [hclean] at hpattern
    exact fun hmem ↦ Text.not_mem_before _ (hpattern.mem hmem)
  rw [Text.before_eq_self (not_mem_typed hname (by cases t <;> decide) hhash)] at hclean
  exact ⟨hhash, hclean⟩

theorem pathSource_typed (hname : t.IsName name) (e : List Char) :
    pathSource (typed name e) = Matcher.source .glob (cleanChars (Text.before '#' (typed name e))) := by
  rw [pathSource, cleanUrlChars_typed hname]
  rfl

/-- Whether or not it can be compiled: a pattern of some type keeps its type and its text exactly if no hash is in it
and no segment between two of its slashes is empty, a dot or two dots. Then the condition on the path asks for what the
matcher itself accepts. -/
theorem typed_path_pattern_is_kept_iff (hname : t.IsName name) (hbare : IsBare e) :
    pathMatcher [String.ofList (typed name e)] = pathSource (typed name e) >>= Matcher.Source.compile ∧
    (pathSource (typed name e) = .ok ⟨t, e, false⟩ ↔ '#' ∉ e ∧
      ∀ segment ∈ innerSegments e, segment ≠ [] ∧ segment ≠ ['.'] ∧ segment ≠ ['.', '.']) ∧
    (pathSource (typed name e) = .ok ⟨t, e, false⟩ →
      Check.compile [String.ofList (typed name e)] .path =
        (Matcher.parse (String.ofList (typed name e))).map Check.path) := by
  have hcompile : pathMatcher [String.ofList (typed name e)] =
      pathSource (typed name e) >>= Matcher.Source.compile := by
    rw [pathMatcher_eq, String.toList_ofList]
  refine ⟨hcompile, ?_, fun hkept ↦ ?_⟩
  · rw [pathSource_typed hname, ← cleanChars_typed_eq_self_iff hname]
    constructor
    · exact fun hsource ↦ cleanChars_of_source hname hsource
    · rintro ⟨hhash, hclean⟩
      rw [Text.before_eq_self (not_mem_typed hname (by cases t <;> decide) hhash), hclean]
      exact source_typed .glob hname hbare
  · have hparse : Matcher.parse (String.ofList (typed name e)) = pathMatcher [String.ofList (typed name e)] := by
      rw [hcompile, hkept, Matcher.parse, String.toList_ofList, parseWithDefault_eq, source_typed .string hname hbare]
    rw [hparse, Check.compile]
    cases pathMatcher [String.ofList (typed name e)] <;> rfl

theorem versioned_route_is_kept :
    (MatcherType.IsName .regex "Regex".toList ∧ IsBare "^/v[0-9]+/.*/$".toList) ∧
    Check.compile ["Regex(^/v[0-9]+/.*/$)"] .path = (Matcher.parse "Regex(^/v[0-9]+/.*/$)").map Check.path := by
  have hname : MatcherType.IsName .regex "Regex".toList := rfl
  have hbare : IsBare "^/v[0-9]+/.*/$".toList := by
    intro c hc
    cases hc
    rfl
  obtain ⟨-, hkept, hcondition⟩ := typed_path_pattern_is_kept_iff hname hbare
  exact ⟨⟨hname, hbare⟩, hcondition (hkept.mpr (by decide))⟩

/-- A pattern for doubled slashes matches every path. Two dots, which match any two characters, take the type with them,
and a hash takes the bracket with it. -/
theorem typed_path_patterns_are_cleaned :
    ((Matcher.parse "regex(//)").toOption.any (fun m ↦ !m.test "/a") = true ∧
      pathSource "regex(//)".toList = .ok ⟨.regex, "/".toList, false⟩ ∧
      (pathMatcher ["regex(//)"]).toOption.any (·.test "/a") = true) ∧
    ((Matcher.parse "regex(^/../x$)").toOption.any (·.test "/v1/x") = true ∧
      pathSource "regex(^/../x$)".toList = .ok ⟨.glob, "x$)".toList, false⟩) ∧
    (Matcher.parse "regex(^/a#b$)").toOption.any (·.test "/a#b") = true ∧
      pathMatcher ["regex(^/a#b$)"] = .error .unterminatedBrackets :=
  ⟨⟨by decide +kernel, rfl, by decide +kernel⟩, ⟨by decide +kernel, rfl⟩, by decide +kernel, rfl⟩

end Arguments

end RuleGate
