import Mathlib.Data.Bool.AllAny
import Mathlib.Data.List.Infix
import Mathlib.Data.List.TakeWhile
import RuleGate.Proofs.Directive.Scan

/-!
# Quoted words

A text is quoted by a backslash before backslashes and double quotes and by a second dollar behind each
dollar. Round brackets count inside of quotes too, so the texts that come back are those in which they are
balanced; any other text leaves a bracket without its partner.
-/

namespace RuleGate.Directive

/-! ## Balanced brackets -/

/-- Round brackets have partners: none closes before one has opened, and all that open are closed. -/
structure Balanced (s : List Char) : Prop where
  opened : ∀ p, p <+: s → p.count ')' ≤ p.count '('
  closed : s.count '(' = s.count ')'

/-- The number of open brackets after a character, if it closes none that is not open. -/
def nextDepth? (depth : Nat) (c : Char) : Option Nat :=
  if c = '(' then some (depth + 1)
  else if c = ')' then if depth = 0 then none else some (depth - 1)
  else some depth

/-- The number of open brackets after a text, if it closes none that is not open. -/
def depthAfter? (depth : Nat) (s : List Char) : Option Nat := s.foldlM nextDepth? depth

theorem nextDepth?_eq_some {depth depth' : Nat} {c : Char} :
    nextDepth? depth c = some depth' ↔ depth' + [c].count ')' = depth + [c].count '(' := by
  by_cases hopen : c = '('
  · subst hopen
    simp [nextDepth?, eq_comm]
  · by_cases hclose : c = ')'
    · subst hclose
      by_cases hdepth : depth = 0 <;> simp [nextDepth?, hdepth]
      omega
    · simp [nextDepth?, hopen, hclose, eq_comm]

/-- The text leaves a number of open brackets exactly if no prefix closes more than are open. -/
theorem depthAfter?_eq_some {depth depth' : Nat} {s : List Char} :
    depthAfter? depth s = some depth' ↔
      (∀ p, p <+: s → p.count ')' ≤ depth + p.count '(') ∧ depth' + s.count ')' = depth + s.count '(' := by
  induction s generalizing depth with
  | nil => simp [depthAfter?, eq_comm]
  | cons c s ih =>
    have hcount (x : Char) (p : List Char) : (c :: p).count x = [c].count x + p.count x := by
      rw [← List.singleton_append, List.count_append]
    have hstep : depthAfter? depth (c :: s) = some depth' ↔
        ∃ m, nextDepth? depth c = some m ∧ depthAfter? m s = some depth' := Option.bind_eq_some_iff
    rw [hstep, hcount '(' s, hcount ')' s]
    constructor
    · rintro ⟨m, hm, hs⟩
      obtain ⟨hbefore, htotal⟩ := ih.mp hs
      rw [nextDepth?_eq_some] at hm
      refine ⟨fun p hp ↦ ?_, by omega⟩
      rcases List.prefix_cons_iff.mp hp with rfl | ⟨p', rfl, hp'⟩
      · simp
      · have hle := hbefore p' hp'
        rw [hcount '(' p', hcount ')' p']
        omega
    · rintro ⟨hbefore, htotal⟩
      have hfirst := hbefore [c] (List.prefix_append [c] s)
      refine ⟨depth + [c].count '(' - [c].count ')', nextDepth?_eq_some.mpr (by omega),
        ih.mpr ⟨fun p hp ↦ ?_, by omega⟩⟩
      have hle := hbefore (c :: p) (List.cons_prefix_cons.mpr ⟨rfl, hp⟩)
      rw [hcount '(' p, hcount ')' p] at hle
      omega

theorem balanced_iff {s : List Char} : Balanced s ↔ depthAfter? 0 s = some 0 := by
  rw [depthAfter?_eq_some]
  constructor
  · intro h
    exact ⟨fun p hp ↦ by simpa using h.opened p hp, by simpa using h.closed.symm⟩
  · rintro ⟨hopened, hclosed⟩
    exact ⟨fun p hp ↦ by simpa using hopened p hp, by simpa using hclosed.symm⟩

instance (s : List Char) : Decidable (Balanced s) := decidable_of_iff _ balanced_iff.symm

/-! ## Writing in quotes -/

/-- A character as it is written inside of double quotes. -/
def escapeChar (c : Char) : List Char :=
  if c = '\\' then ['\\', '\\'] else if c = '"' then ['\\', '"'] else if c = '$' then ['$', '$'] else [c]

/-- A text as a word in double quotes. -/
def quoted (text : String) : String := "\"" ++ String.ofList (text.toList.flatMap escapeChar) ++ "\""

/-- The texts in double quotes, with a space between any two. -/
def quotedLine (texts : List String) : String := " ".intercalate (texts.map quoted)

/-- The characters that mean nothing to the scanner, apart from quotes and from blanks between words. -/
def isText (c : Char) : Bool := !(c == '\\' || c == '$' || c == '(' || c == ')')

/-- A word of characters that mean nothing to the scanner. -/
def IsBareWord (word : List Char) : Prop :=
  ∀ c ∈ word, isText c = true ∧ isQuote c = false ∧ c ≠ ' ' ∧ c ≠ '\t'

instance (word : List Char) : Decidable (IsBareWord word) :=
  decidable_of_iff (word.all fun c ↦ decide (isText c = true ∧ isQuote c = false ∧ c ≠ ' ' ∧ c ≠ '\t'))
    List.all_iff_forall_prop

namespace Scanner

/-- The next character is read for itself. -/
structure Ready (s : Scanner) : Prop where
  escaped : s.escaped = false
  dollar : s.dollar = false
  name : s.name = none

variable {env : Environment} {s : Scanner}

theorem step_text (h : s.Ready) {c : Char} (hc : isText c = true)
    (hquote : (∃ q, s.quote = some q ∧ q ≠ c) ∨ (isQuote c = false ∧ c ≠ ' ' ∧ c ≠ '\t')) :
    step env s c = .ok (s.push c) := by
  simp only [isText, Bool.not_eq_true', Bool.or_eq_false_iff, beq_eq_false_iff_ne] at hc
  obtain ⟨⟨⟨hslash, hdollar⟩, hopen⟩, hclose⟩ := hc
  rcases hquote with ⟨q, hq, hne⟩ | ⟨hnot, hspace, htab⟩
  · cases hc : isQuote c <;>
      simp [step, stepPlain, stepQuote, h.escaped, h.dollar, h.name, hq, hne, hc, hslash, hdollar, hopen,
        hclose]
  · simp [step, stepPlain, h.escaped, h.dollar, h.name, hnot, hspace, htab, hslash, hdollar, hopen, hclose]

/-- The scanner with as many open brackets as given, or the error of a bracket that closes none. -/
def atDepth (s : Scanner) : Option Nat → Compiled Scanner
  | some depth => .ok { s with depth := depth }
  | none => .error .unterminatedBrackets

theorem step_bracket (h : s.Ready) {c : Char} (hc : c = '(' ∨ c = ')') :
    step env s c = (s.push c).atDepth (nextDepth? s.depth c) := by
  rcases hc with rfl | rfl
  · simp [step, stepPlain, isQuote, nextDepth?, atDepth, h.escaped, h.dollar]
  · by_cases hdepth : s.depth = 0 <;>
      simp [step, stepPlain, isQuote, nextDepth?, atDepth, h.escaped, h.dollar, hdepth]

theorem scan_backslash (h : s.Ready) (c : Char) :
    scan env s ['\\', c] = .ok (s.append (unescape c)) := by
  have hslash : step env s '\\' = .ok { s with escaped := true } := by
    simp [step, stepPlain, isQuote, h.escaped, h.dollar]
  have hescaped : step env { s with escaped := true } c = .ok (s.append (unescape c)) := by
    simp [step, append, h.escaped]
  rw [scan_cons_of_ok hslash, scan_cons_of_ok hescaped, scan_nil]

theorem scan_dollars (h : s.Ready) : scan env s ['$', '$'] = .ok (s.push '$') := by
  have hfirst : step env s '$' = .ok { s with dollar := true } := by
    simp [step, stepPlain, isQuote, h.escaped, h.dollar]
  have hsecond : step env { s with dollar := true } '$' = .ok (s.push '$') := by
    simp [step, stepPlain, isQuote, push, h.escaped, h.dollar]
  rw [scan_cons_of_ok hfirst, scan_cons_of_ok hsecond, scan_nil]

/-- A character that is written as it is. -/
theorem scan_self (h : s.Ready) {c : Char} (hslash : c ≠ '\\') (hdollar : c ≠ '$')
    (hquote : (∃ q, s.quote = some q ∧ q ≠ c) ∨ (isQuote c = false ∧ c ≠ ' ' ∧ c ≠ '\t')) :
    scan env s [c] = (s.push c).atDepth (nextDepth? s.depth c) := by
  by_cases hbracket : c = '(' ∨ c = ')'
  · rw [scan_cons, step_bracket h hbracket]
    cases nextDepth? s.depth c <;> rfl
  · rw [not_or] at hbracket
    have htext : isText c = true := by simp [isText, hslash, hdollar, hbracket]
    rw [scan_cons_of_ok (step_text h htext hquote), scan_nil, nextDepth?, if_neg hbracket.1, if_neg hbracket.2]
    rfl

theorem scan_escapeChar (h : s.Ready) (hquote : s.quote = some '"') (c : Char) :
    scan env s (escapeChar c) = (s.push c).atDepth (nextDepth? s.depth c) := by
  by_cases hslash : c = '\\'
  · subst hslash
    exact scan_backslash h '\\'
  by_cases hdouble : c = '"'
  · subst hdouble
    exact scan_backslash h '"'
  by_cases hdollar : c = '$'
  · subst hdollar
    exact scan_dollars h
  rw [escapeChar, if_neg hslash, if_neg hdouble, if_neg hdollar]
  exact scan_self h hslash hdollar (.inl ⟨'"', hquote, Ne.symm hdouble⟩)

/-- Characters that are read back one by one are read back together, as long as no bracket closes without a
partner. -/
theorem scan_flatMap {write : Char → List Char} {q : Option Char} {text : List Char}
    (hwrite : ∀ s : Scanner, s.Ready → s.quote = q → ∀ c ∈ text,
      scan env s (write c) = (s.push c).atDepth (nextDepth? s.depth c))
    (h : s.Ready) (hquote : s.quote = q) :
    scan env s (text.flatMap write) = (s.append text).atDepth (depthAfter? s.depth text) := by
  induction text generalizing s with
  | nil => rfl
  | cons c text ih =>
    have hstep : scan env s (write c) = _ := hwrite s h hquote c (.head _)
    have hafter : depthAfter? s.depth (c :: text) = (nextDepth? s.depth c).bind (depthAfter? · text) := rfl
    rw [List.flatMap_cons, hafter]
    cases hdepth : nextDepth? s.depth c with
    | none =>
      rw [hdepth] at hstep
      exact scan_append_of_error hstep _
    | some depth =>
      rw [hdepth] at hstep
      have hready : Ready { s.push c with depth := depth } := ⟨h.escaped, h.dollar, h.name⟩
      have hwritten : (s.append (c :: text)).atDepth (depthAfter? depth text) =
          (append { s.push c with depth := depth } text).atDepth (depthAfter? depth text) := by
        cases depthAfter? depth text <;> simp [atDepth, append, push]
      have hrest := ih (fun s hs hq c hc ↦ hwrite s hs hq c (.tail _ hc)) hready hquote
      rw [scan_append_of_ok hstep, hrest, Option.bind_some, hwritten]

/-- What is written in quotes is read back, as long as no bracket closes without a partner. -/
theorem scan_escaped (h : s.Ready) (hquote : s.quote = some '"') (text : List Char) :
    scan env s (text.flatMap escapeChar) = (s.append text).atDepth (depthAfter? s.depth text) :=
  scan_flatMap (fun _ hs hq c _ ↦ scan_escapeChar hs hq c) h hquote

/-- A line can not end inside of quotes. -/
theorem finish_scan_escaped_fails (h : s.Ready) (hquote : s.quote = some '"') (text : List Char) :
    ∃ e, scan env s (text.flatMap escapeChar) >>= finish = .error e := by
  rw [scan_escaped h hquote]
  cases depthAfter? s.depth text with
  | none => exact ⟨_, rfl⟩
  | some depth =>
    cases hend : endError? { s.append text with depth := depth } with
    | some e => exact ⟨e, finish_of_error hend⟩
    | none =>
      have hnone := quote_of_no_error hend
      cases hquote.symm.trans hnone

/-- The scanner after some words, with nothing open. -/
def between (words : List String) : Scanner := ⟨false, false, none, 0, none, [], words, []⟩

theorem scan_quoted (words : List String) (text : String) :
    scan env (between words) (quoted text).toList =
      (between (text :: words)).atDepth (depthAfter? 0 text.toList) := by
  have htext : (quoted text).toList = '"' :: (text.toList.flatMap escapeChar ++ ['"']) := by simp [quoted]
  have hopen : step env (between words) '"' = .ok { between words with quote := some '"' } := rfl
  have hready : Ready { between words with quote := some '"' } := ⟨rfl, rfl, rfl⟩
  have hread : scan env _ _ = _ := scan_escaped hready rfl text.toList
  rw [htext, scan_cons_of_ok hopen]
  cases hafter : depthAfter? 0 text.toList with
  | none =>
    have herror := hread.trans (congrArg _ hafter)
    exact scan_append_of_error herror _
  | some depth =>
    have hok := hread.trans (congrArg _ hafter)
    have hclose :
        step env { append { between words with quote := some '"' } text.toList with depth := depth } '"' =
          .ok { between (text :: words) with depth := depth } := by
      simp [step, isQuote, stepQuote, endQuoted, append, between]
    rw [scan_append_of_ok hok, scan_cons_of_ok hclose, scan_nil]
    rfl

theorem scan_space (words : List String) : step env (between words) ' ' = .ok (between words) := rfl

theorem scan_quotedLine {texts : List String} (htexts : texts ≠ []) (words : List String)
    (h : ∀ text ∈ texts, Balanced text.toList) :
    scan env (between words) (quotedLine texts).toList = .ok (between (texts.reverse ++ words)) := by
  have hquoted (words : List String) {text : String} (htext : Balanced text.toList) :
      scan env (between words) (quoted text).toList = .ok (between (text :: words)) := by
    rw [scan_quoted, balanced_iff.mp htext]
    rfl
  match texts, htexts with
  | [text], _ =>
    simpa [quotedLine] using hquoted words (h text (.head _))
  | text :: text' :: texts, _ =>
    have hline : (quotedLine (text :: text' :: texts)).toList =
        (quoted text).toList ++ ' ' :: (quotedLine (text' :: texts)).toList := by
      simp [quotedLine]
    have hrest := scan_quotedLine (List.cons_ne_nil text' texts) (text :: words) fun t ht ↦ h t (.tail _ ht)
    rw [hline, scan_append_of_ok (hquoted words (h text (.head _))), scan_cons_of_ok (scan_space _), hrest]
    simp

theorem finish_between (words : List String) : (between words).finish = .ok (ofWords words.reverse) :=
  finish_of_no_error rfl

/-! ## Bare words -/

theorem scan_bareWord (h : s.Ready) {word : List Char} (hword : IsBareWord word) :
    scan env s word = .ok (s.append word) := by
  induction word generalizing s with
  | nil => rfl
  | cons c word ih =>
    rw [IsBareWord, List.forall_mem_cons] at hword
    have hpush : Ready (s.push c) := ⟨h.escaped, h.dollar, h.name⟩
    rw [scan_cons_of_ok (step_text h hword.1.1 (.inr hword.1.2)), ih hpush hword.2]
    simp [append, push]

/-- A word that does not start with a blank ends as it is. -/
theorem endWord_append {words : List String} {word : String} (h : ∃ c ∈ word.toList.head?, Text.isBlank c = false) :
    ((between words).append word.toList).endWord = between (word :: words) := by
  obtain ⟨c, hc, hblank⟩ := h
  obtain ⟨cs, hword⟩ := List.head?_eq_some_iff.mp hc
  have htrim : Text.trimStart word.toList = word.toList := by
    rw [hword]
    exact List.dropWhile_cons_of_neg (Bool.eq_false_iff.mp hblank)
  have hne : word ≠ "" := by
    rintro rfl
    cases hc
  simp [endWord, append, between, htrim, hne]

end Scanner

theorem IsBareWord.balanced {word : List Char} (h : IsBareWord word) : Balanced word := by
  have hopen : word.count '(' = 0 := List.count_eq_zero.mpr fun hmem ↦ absurd (h _ hmem).1 Bool.false_ne_true
  have hclose : word.count ')' = 0 := List.count_eq_zero.mpr fun hmem ↦ absurd (h _ hmem).1 Bool.false_ne_true
  refine ⟨fun p hp ↦ ?_, hopen.trans hclose.symm⟩
  have hle := hp.sublist.count_le ')'
  omega

variable {env : Environment}

/-- Whatever comes before, brackets without partners in the last word are an error. -/
theorem parse_unbalanced {front arg : String} {words : List String}
    (hfront : Scanner.scan env .start front.toList = .ok (.between words)) (harg : ¬ Balanced arg.toList) :
    parse env (front ++ quoted arg) = .error .unterminatedBrackets := by
  have hquoted : Scanner.scan env _ _ = _ := Scanner.scan_quoted words arg
  rw [parse_eq, String.toList_append, Scanner.scan_append_of_ok hfront, hquoted]
  cases hafter : depthAfter? 0 arg.toList with
  | none => rfl
  | some depth =>
    cases depth with
    | zero => exact absurd (balanced_iff.mpr hafter) harg
    | succ depth =>
      have hend : Scanner.endError? { Scanner.between (arg :: words) with depth := depth + 1 } =
          some .unterminatedBrackets := by
        simp [Scanner.endError?, Scanner.openError?, Scanner.missingError?, Scanner.between, RuleError.join]
      exact Scanner.finish_of_error hend

theorem scan_bareWord_space (env : Environment) {word : String} (h : IsBareWord word.toList) :
    ∃ words, Scanner.scan env .start (word ++ " ").toList = .ok (.between words) := by
  have hword : Scanner.scan env .start word.toList = _ := Scanner.scan_bareWord ⟨rfl, rfl, rfl⟩ h
  rw [String.toList_append, Scanner.scan_append_of_ok hword]
  exact ⟨_, rfl⟩

/-- Two bare words are a subject and its argument. -/
theorem parse_bareWords {subject arg : String} (hsubject : IsBareWord subject.toList)
    (harg : IsBareWord arg.toList) (hfirst : ∃ c ∈ subject.toList.head?, Text.isBlank c = false)
    (hsecond : ∃ c ∈ arg.toList.head?, Text.isBlank c = false) :
    parse env (subject ++ " " ++ arg) = .ok ⟨subject, [arg]⟩ := by
  have hspace : Scanner.step env (Scanner.append (.between []) subject.toList) ' ' = .ok (.between [subject]) := by
    rw [← Scanner.endWord_append hfirst]
    rfl
  have hscan : Scanner.scan env .start (subject ++ " " ++ arg).toList =
      .ok (Scanner.append (.between [subject]) arg.toList) := by
    have hword : Scanner.scan env .start subject.toList = _ := Scanner.scan_bareWord ⟨rfl, rfl, rfl⟩ hsubject
    rw [String.append_assoc, String.toList_append, Scanner.scan_append_of_ok hword, String.toList_append]
    exact (Scanner.scan_cons_of_ok hspace _).trans (Scanner.scan_bareWord ⟨rfl, rfl, rfl⟩ harg)
  rw [parse_eq_finish hscan, Scanner.finish_of_no_error rfl]
  have hend : (Scanner.append (.between [subject]) arg.toList).settleDollar.endWord = .between [arg, subject] :=
    Scanner.endWord_append hsecond
  rw [hend]
  rfl

theorem scan_quoted_space {word : String} (h : Balanced word.toList) :
    Scanner.scan env .start (quoted word ++ " ").toList = .ok (.between [word]) := by
  have hword : Scanner.scan env .start (quoted word).toList = .ok (.between [word]) := by
    have hquoted : Scanner.scan env _ _ = _ := Scanner.scan_quoted [] word
    rwa [balanced_iff.mp h] at hquoted
  rw [String.toList_append, Scanner.scan_append_of_ok hword]
  rfl

/-- Quoted words come back as they were, exactly if their brackets have partners. -/
theorem parse_quoted_words (env : Environment) :
    (∀ (subject : String) (args : List String), Balanced subject.toList →
      (∀ arg ∈ args, Balanced arg.toList) →
      parse env (quotedLine (subject :: args)) = .ok ⟨subject, args⟩) ∧
    ∀ word arg : String, IsBareWord word.toList → ¬ Balanced arg.toList →
      parse env (word ++ " " ++ quoted arg) = .error .unterminatedBrackets ∧
      parse env (quotedLine [word, arg]) = .error .unterminatedBrackets := by
  refine ⟨fun subject args hsubject hargs ↦ ?_, fun word arg hword harg ↦ ⟨?_, ?_⟩⟩
  · have hline : Scanner.scan env _ _ = _ := Scanner.scan_quotedLine (List.cons_ne_nil subject args) []
      (List.forall_mem_cons.mpr ⟨hsubject, hargs⟩)
    rw [parse_eq_finish hline, Scanner.finish_between]
    simp [ofWords]
  · obtain ⟨words, hfront⟩ := scan_bareWord_space env hword
    exact parse_unbalanced hfront harg
  · have hline : quotedLine [word, arg] = quoted word ++ " " ++ quoted arg := by
      simp [quotedLine]
    rw [hline]
    exact parse_unbalanced (scan_quoted_space hword.balanced) harg

theorem parse_quoted_remark :
    parse (fun _ ↦ none) (quotedLine ["say", "", "(\"$\x7bX\x7d\" \\ 'y')"]) =
        .ok ⟨"say", ["", "(\"$\x7bX\x7d\" \\ 'y')"]⟩ ∧
      parse (fun _ ↦ none) ("say" ++ " " ++ quoted ")(") = .error .unterminatedBrackets := by
  obtain ⟨hbalanced, hunbalanced⟩ := parse_quoted_words fun _ ↦ none
  exact ⟨hbalanced "say" _ (by decide) (by decide), (hunbalanced "say" ")(" (by decide) (by decide)).1⟩

end RuleGate.Directive
