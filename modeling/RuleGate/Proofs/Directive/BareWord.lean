import RuleGate.Proofs.Directive.Quoting
import RuleGate.Proofs.Text.Trim

/-!
# Bare words with escapes

Outside of quotes a text is written with a backslash before what would end the word or open another one, and with
a second dollar behind each dollar. What an escape stands for gets into the word like any other character, and a word
loses the blanks at its start when it ends. So the word is the text from its first character on that is no blank,
and a text comes back exactly if it starts with such a character.
-/

namespace RuleGate.Directive

/-- A character as it is written in a bare word. -/
def escapeBare (c : Char) : List Char :=
  if c = '\n' then ['\\', 'n']
  else if c = '\t' then ['\\', 't']
  else if c = '\r' then ['\\', 'r']
  else if c = '$' then ['$', '$']
  else if c = '\'' ∨ c = '"' ∨ c = '\\' ∨ c = ' ' then ['\\', c]
  else [c]

/-- A text as a bare word. -/
def bareWord (text : String) : String := String.ofList (text.toList.flatMap escapeBare)

/-- The words of a bare text: none if it is blank, and otherwise all of it but the blanks at its start. -/
def bareWords (text : List Char) : List String :=
  if text.all Text.isBlank then [] else [String.ofList (Text.trimStart text)]

namespace Scanner

variable {env : Environment} {s : Scanner}

theorem atDepth_nextDepth? (s : Scanner) {c : Char} (hopen : c ≠ '(') (hclose : c ≠ ')') :
    s.atDepth (nextDepth? s.depth c) = .ok s := by
  rw [nextDepth?, if_neg hopen, if_neg hclose]
  rfl

theorem scan_escapeBare (h : s.Ready) {c : Char} (hc : c ≠ '\x60') :
    scan env s (escapeBare c) = (s.push c).atDepth (nextDepth? s.depth c) := by
  -- An escape writes the character whatever stands behind the backslash for it.
  have hescape {d : Char} (hd : unescape d = [c]) (hopen : c ≠ '(') (hclose : c ≠ ')') :
      scan env s ['\\', d] = (s.push c).atDepth (nextDepth? s.depth c) := by
    have hpush : s.append [c] = s.push c := rfl
    have hdepth := atDepth_nextDepth? (s.push c) hopen hclose
    rw [scan_backslash h, hd, hpush]
    exact hdepth.symm
  unfold escapeBare
  split
  · next hnewline =>
    subst hnewline
    exact hescape rfl (by decide) (by decide)
  split
  · next htab =>
    subst htab
    exact hescape rfl (by decide) (by decide)
  split
  · next hreturn =>
    subst hreturn
    exact hescape rfl (by decide) (by decide)
  split
  · next hdollar =>
    subst hdollar
    exact scan_dollars h
  split
  · next hself =>
    rcases hself with rfl | rfl | rfl | rfl <;> exact hescape rfl (by decide) (by decide)
  · next hnewline htab hreturn hdollar hself =>
    simp only [not_or] at hself
    have hnot : isQuote c = false := by simp [isQuote, hself, hc]
    exact scan_self h hself.2.2.1 hdollar (.inr ⟨hnot, hself.2.2.2, htab⟩)

/-- A bare text gets into the current word as it is. -/
theorem scan_bareText (h : s.Ready) {text : String} (hback : '\x60' ∉ text.toList) :
    scan env s (bareWord text).toList = (s.append text.toList).atDepth (depthAfter? s.depth text.toList) := by
  rw [bareWord, String.toList_ofList]
  exact scan_flatMap (fun _ hs _ _ hc ↦ scan_escapeBare hs (ne_of_mem_of_not_mem hc hback)) h rfl

/-- The word that ends is the text without the blanks at its start. -/
theorem endWord_text (words : List String) (text : List Char) :
    ((between words).append text).endWord = between (bareWords text ++ words) := by
  have hword : ((between words).append text).word.reverse = text := by simp [append, between]
  rw [endWord, hword, Text.isEmpty_trimStart, bareWords]
  split <;> rfl

end Scanner

variable {env : Environment}

theorem parse_bareWord_eq {text : String} (hback : '\x60' ∉ text.toList) (h : Balanced text.toList) :
    parse env ("foo " ++ bareWord text) = .ok ⟨"foo", bareWords text.toList⟩ := by
  have hfront : Scanner.scan env .start "foo ".toList = .ok (.between ["foo"]) := rfl
  have hscan : Scanner.scan env .start ("foo " ++ bareWord text).toList =
      .ok ((Scanner.between ["foo"]).append text.toList) := by
    have hready : Scanner.Ready (.between ["foo"]) := ⟨rfl, rfl, rfl⟩
    have htext : Scanner.scan env _ _ = _ := Scanner.scan_bareText hready hback
    have hdepth : depthAfter? (Scanner.between ["foo"]).depth text.toList = some 0 := balanced_iff.mp h
    rw [String.toList_append, Scanner.scan_append_of_ok hfront, htext, hdepth]
    rfl
  have hend : ((Scanner.between ["foo"]).append text.toList).settleDollar.endWord = _ :=
    Scanner.endWord_text ["foo"] text.toList
  rw [parse_eq_finish hscan, Scanner.finish_of_no_error rfl, hend, bareWords]
  split <;> rfl

theorem bareWords_eq_singleton_iff {text : String} :
    bareWords text.toList = [text] ↔ ∃ c ∈ text.toList.head?, Text.isBlank c = false := by
  cases hlist : text.toList with
  | nil => simp [bareWords]
  | cons c cs =>
    have htext : text = String.ofList (c :: cs) := by rw [← hlist, String.ofList_toList]
    cases hblank : Text.isBlank c with
    | false => simp [bareWords, Text.trimStart, hblank, htext]
    | true =>
      -- A word that has lost its first character is shorter than the text.
      have hshorter : (Text.trimStart (c :: cs)).length < (c :: cs).length := by
        rw [Text.trimStart, List.dropWhile_cons_of_pos hblank, List.length_cons]
        exact Nat.lt_succ_of_le (List.length_dropWhile_le _ _)
      have hne : String.ofList (Text.trimStart (c :: cs)) ≠ text := by
        rw [htext, Ne, String.ofList_inj]
        exact fun heq ↦ Nat.lt_irrefl _ (heq ▸ hshorter)
      simp only [bareWords]
      split
      · simp [hblank]
      · simp [hblank, hne]

/-- A text that is written as a bare argument comes back without the blanks at its start, whether they were escaped or
not, and not at all if it is blank. So it is the one argument exactly if it starts with a character that is no
blank. -/
theorem parse_bare_text_iff (env : Environment) {text : String} (hback : '\x60' ∉ text.toList)
    (h : Balanced text.toList) :
    parse env ("foo " ++ bareWord text) = .ok ⟨"foo", bareWords text.toList⟩ ∧
    (parse env ("foo " ++ bareWord text) = .ok ⟨"foo", [text]⟩ ↔
      ∃ c ∈ text.toList.head?, Text.isBlank c = false) := by
  have hparse : parse env ("foo " ++ bareWord text) = _ := parse_bareWord_eq hback h
  refine ⟨hparse, ?_⟩
  rw [hparse, ← bareWords_eq_singleton_iff]
  simp

/-- Blanks, quotes, brackets and a dollar in the middle, and a blank at the end. -/
theorem parse_bare_price :
    bareWord "it's (\"5\t$\\\") " = "it\\'s\\ (\\\"5\\t$$\\\\\\\")\\ " ∧
    parse (fun _ ↦ none) ("foo " ++ bareWord "it's (\"5\t$\\\") ") = .ok ⟨"foo", ["it's (\"5\t$\\\") "]⟩ := by
  have hback : '\x60' ∉ "it's (\"5\t$\\\") ".toList := by decide
  have hbalanced : Balanced "it's (\"5\t$\\\") ".toList := by decide
  obtain ⟨-, hiff⟩ := parse_bare_text_iff (fun _ ↦ none) hback hbalanced
  exact ⟨by decide, hiff.mpr ⟨'i', rfl, rfl⟩⟩

/-- An escaped blank at the start of an argument is dropped, and with it an argument of nothing else. -/
theorem escaped_blank_is_dropped :
    '\x60' ∉ " x".toList ∧ Balanced " x".toList ∧ bareWord " x" = "\\ x" ∧
    parse (fun _ ↦ none) ("foo " ++ bareWord " x") = .ok ⟨"foo", ["x"]⟩ ∧
    parse (fun _ ↦ none) ("foo " ++ bareWord " ") = .ok ⟨"foo", []⟩ :=
  ⟨by decide, by decide, by decide, rfl, rfl⟩

end RuleGate.Directive
