import Mathlib.Data.List.Basic
import RuleGate.Directive
import RuleGate.Proofs.Except

/-!
# Scanning a line in pieces

A piece of a line is read from where the piece before it left the scanner, and a line is read to its end if
nothing is open there and every reference has found its variable.
-/

namespace RuleGate.Directive

/-- The directive that consists of the given words. -/
def ofWords : List String → Directive
  | [] => ⟨"", []⟩
  | subject :: args => ⟨subject, args⟩

namespace Scanner

variable (env : Environment) (s : Scanner)

/-- Reads a piece of a line. -/
def scan (s : Scanner) (cs : List Char) : Compiled Scanner := cs.foldlM (step env) s

@[simp] theorem scan_nil : scan env s [] = .ok s := rfl

theorem scan_cons (c : Char) (cs : List Char) :
    scan env s (c :: cs) = step env s c >>= fun s ↦ scan env s cs := rfl

theorem scan_append (as bs : List Char) :
    scan env s (as ++ bs) = scan env s as >>= fun s ↦ scan env s bs := by
  simp only [scan, List.foldlM_append]

variable {env s}

theorem scan_cons_of_ok {s' : Scanner} {c : Char} (h : step env s c = .ok s') (cs : List Char) :
    scan env s (c :: cs) = scan env s' cs := by
  rw [scan_cons, h]
  rfl

theorem scan_append_of_ok {s' : Scanner} {as : List Char} (h : scan env s as = .ok s') (bs : List Char) :
    scan env s (as ++ bs) = scan env s' bs := by
  rw [scan_append, h]
  rfl

theorem scan_append_of_error {e : RuleError} {as : List Char} (h : scan env s as = .error e)
    (bs : List Char) : scan env s (as ++ bs) = .error e := by
  rw [scan_append, h]
  rfl

/-! ## The end of a line -/

/-- Writes the dollar at the end of a line, which stands for itself. -/
def settleDollar (s : Scanner) : Scanner := if s.dollar then s.push '$' else s

/-- The error of a line that ends here. -/
def endError? (s : Scanner) : Option RuleError :=
  RuleError.join (s.openError?.toList ++ s.missingError?.toList)

theorem endError?_settleDollar (s : Scanner) : s.settleDollar.endError? = s.endError? := by
  unfold settleDollar
  split <;> rfl

theorem finish_of_error {e : RuleError} (h : s.endError? = some e) : s.finish = .error e := by
  have hsettled : s.settleDollar.endError? = some e := (endError?_settleDollar s).trans h
  rw [endError?, settleDollar] at hsettled
  simp only [finish, hsettled]

theorem finish_of_no_error (h : s.endError? = none) :
    s.finish = .ok (ofWords s.settleDollar.endWord.words.reverse) := by
  have hsettled : s.settleDollar.endError? = none := (endError?_settleDollar s).trans h
  rw [endError?, settleDollar] at hsettled
  simp only [finish, hsettled, settleDollar]
  cases (if s.dollar then s.push '$' else s).endWord.words.reverse <;> rfl

/-- A line that can end here has closed its quotes. -/
theorem quote_of_no_error (h : s.endError? = none) : s.quote = none := by
  have hopen := RuleError.join_eq_none h
  rw [List.append_eq_nil_iff, Option.toList_eq_nil_iff] at hopen
  cases hquote : s.quote with
  | none => rfl
  | some q => simp [openError?, hquote] at hopen

end Scanner

theorem parse_eq (env : Environment) (line : String) :
    parse env line = Scanner.scan env .start line.toList >>= Scanner.finish := rfl

theorem parse_eq_finish {env : Environment} {line : String} {s : Scanner}
    (h : Scanner.scan env .start line.toList = .ok s) : parse env line = s.finish := by
  rw [parse_eq, h]
  rfl

end RuleGate.Directive
