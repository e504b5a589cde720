import RuleGate.Proofs.Directive.Edits
import RuleGate.Proofs.Directive.Quoting

/-!
# A mark before the first word

A line that starts with a letter can be given a mark, a `!` in front of it. The mark gets into the first word
and changes nothing else, since all that the rest of the line does is the same edits of the words.
-/

namespace RuleGate.Directive

theorem ne_of_isAlpha {c d : Char} (hc : c.isAlpha = true) (hd : d.isAlpha = false) : c ≠ d := by
  rintro rfl
  exact Bool.false_ne_true (hd.symm.trans hc)

theorem isBareWord_of_isAlpha {c : Char} (h : c.isAlpha = true) : IsBareWord [c] := by
  intro d hd
  rw [List.mem_singleton] at hd
  subst hd
  have hne (e : Char) (he : e.isAlpha = false) : d ≠ e := ne_of_isAlpha h he
  simp [isText, isQuote, hne]

theorem isBlank_of_isAlpha {c : Char} (h : c.isAlpha = true) : Text.isBlank c = false := by
  have hrange : (65 ≤ c.toNat ∧ c.toNat ≤ 90) ∨ (97 ≤ c.toNat ∧ c.toNat ≤ 122) := by
    rcases (Bool.or_eq_true _ _).mp h with hupper | hlower
    · exact .inl (of_decide_eq_true hupper)
    · obtain ⟨hlow, hhigh⟩ := (Bool.and_eq_true _ _).mp hlower
      exact .inr ⟨of_decide_eq_true hlow, of_decide_eq_true hhigh⟩
  simp only [Text.isBlank, Bool.or_eq_false_iff, Bool.and_eq_false_iff, decide_eq_false_iff_not,
    beq_eq_false_iff_ne]
  omega

namespace Words

/-- The second words are the first ones with a mark before the first word, which starts with a letter. -/
inductive Marked : Words → Words → Prop
  | reading (c : Char) (cs : List Char) (hc : c.isAlpha = true) :
    Marked ⟨cs ++ [c], []⟩ ⟨cs ++ [c] ++ ['!'], []⟩
  | read (current : List Char) (c : Char) (cs : List Char) (ws : List String) (hc : c.isAlpha = true) :
    Marked ⟨current, ws ++ [String.ofList (c :: cs)]⟩ ⟨current, ws ++ [String.ofList ('!' :: c :: cs)]⟩

variable {t t' : Words}

theorem Marked.write (h : Marked t t') (text : List Char) : Marked (t.write text) (t'.write text) := by
  cases h with
  | reading c cs hc =>
    have hmarked := Marked.reading c (text.reverse ++ cs) hc
    simpa only [Words.write, List.append_assoc] using hmarked
  | read current c cs ws hc => exact .read (text.reverse ++ current) c cs ws hc

theorem Marked.endWord (h : Marked t t') : Marked t.endWord t'.endWord := by
  cases h with
  | reading c cs hc =>
    have hc' := isBlank_of_isAlpha hc
    have hmark : Text.isBlank '!' = false := by decide
    have hmarked := Marked.read [] c cs.reverse [] hc
    simpa [Words.endWord, Text.trimStart, hc', hmark] using hmarked
  | read current c cs ws hc =>
    simp only [Words.endWord]
    split
    · exact .read [] c cs ws hc
    · exact .read [] c cs (_ :: ws) hc

theorem Marked.endQuoted (h : Marked t t') : Marked t.endQuoted t'.endQuoted := by
  cases h with
  | reading c cs hc =>
    have hmarked := Marked.read [] c cs.reverse [] hc
    simpa [Words.endQuoted] using hmarked
  | read current c cs ws hc => exact .read [] c cs (_ :: ws) hc

theorem Marked.editAll (env : Environment) (h : Marked t t') (es : List Edit) :
    Marked (t.editAll env es) (t'.editAll env es) := by
  induction es generalizing t t' with
  | nil => exact h
  | cons e es ih =>
    apply ih
    cases e with
    | write text => exact h.write text
    | insert name => exact h.write _
    | endWord => exact h.endWord
    | endQuoted => exact h.endQuoted

theorem Marked.directive (h : Marked t t') : ∃ c cs args, c.isAlpha = true ∧
    t.directive = ⟨String.ofList (c :: cs), args⟩ ∧ t'.directive = ⟨String.ofList ('!' :: c :: cs), args⟩ := by
  have hend := h.endWord
  have hcurrent : t.endWord.current = [] := rfl
  rw [Words.directive, Words.directive]
  generalize t.endWord = u at hend hcurrent
  generalize t'.endWord = u' at hend
  cases hend with
  | reading c cs hc => simp at hcurrent
  | read current c cs ws hc => exact ⟨c, cs, ws.reverse, hc, by simp [ofWords], by simp [ofWords]⟩

end Words

/-- A mark before a line that starts with a letter is a mark before its subject. -/
theorem parse_mark (env : Environment) {c : Char} (hc : c.isAlpha = true) (r : List Char) :
    (∃ e, parse env (String.ofList (c :: r)) = .error e ∧
      parse env (String.ofList ('!' :: c :: r)) = .error e) ∨
    ∃ c' cs args, c'.isAlpha = true ∧
      parse env (String.ofList (c :: r)) = .ok ⟨String.ofList (c' :: cs), args⟩ ∧
      parse env (String.ofList ('!' :: c :: r)) = .ok ⟨String.ofList ('!' :: c' :: cs), args⟩ := by
  have hletter (s : Scanner) (hs : s.Ready) : Scanner.scan env s [c] = .ok (s.append [c]) :=
    Scanner.scan_bareWord hs (isBareWord_of_isAlpha hc)
  have hplain : parse env (String.ofList (c :: r)) =
      Scanner.scan env (Scanner.start.withWords ⟨[c], []⟩) r >>= Scanner.finish := by
    rw [parse_eq, String.toList_ofList, ← List.singleton_append,
      Scanner.scan_append_of_ok (hletter .start ⟨rfl, rfl, rfl⟩)]
    rfl
  have hmarked : parse env (String.ofList ('!' :: c :: r)) =
      Scanner.scan env (Scanner.start.withWords ⟨[c, '!'], []⟩) r >>= Scanner.finish := by
    have hmark : Scanner.step env .start '!' = .ok (Scanner.start.push '!') := rfl
    rw [parse_eq, String.toList_ofList, Scanner.scan_cons_of_ok hmark, ← List.singleton_append,
      Scanner.scan_append_of_ok (hletter _ ⟨rfl, rfl, rfl⟩)]
    rfl
  rw [hplain, hmarked]
  rcases Scanner.finish_scan_uniform (fun name ↦ (env.resolve name).isSome) .start r with
    ⟨e, he⟩ | ⟨es, -, hes⟩
  · exact .inl ⟨e, he env _ fun _ ↦ rfl, he env _ fun _ ↦ rfl⟩
  · have hwords : Words.Marked ⟨[c], []⟩ ⟨[c, '!'], []⟩ := .reading c [] hc
    obtain ⟨c', cs, args, hc', hd, hd'⟩ := (hwords.editAll env es).directive
    refine .inr ⟨c', cs, args, hc', ?_, ?_⟩
    · rw [hes env _ fun _ ↦ rfl, hd]
    · rw [hes env _ fun _ ↦ rfl, hd']

end RuleGate.Directive
