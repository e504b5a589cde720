import RuleGate.Proofs.Directive.Scan

/-!
# What reading does to the words

All that a character does to the words of a line is one of four edits, and which one it is depends neither on
the words read so far nor on the values of variables. The text of a value is only ever appended to the
current word. So a line stands for a list of edits that is the same for all environments in which the same
names resolve, or it has an error that is the same for all of them.
-/

namespace RuleGate

/-- The names that resolve are the known ones. -/
def Environment.Knows (env : Environment) (known : String → Bool) : Prop :=
  ∀ name, (env.resolve name).isSome = known name

namespace Directive

/-! ## Edits of words -/

/-- The finished words and the one that is being read, in reverse. -/
structure Words where
  current : List Char
  finished : List String

namespace Words

def empty : Words := ⟨[], []⟩

def write (t : Words) (cs : List Char) : Words := { t with current := cs.reverse ++ t.current }

def endWord (t : Words) : Words :=
  let w := Text.trimStart t.current.reverse
  ⟨[], if w.isEmpty then t.finished else String.ofList w :: t.finished⟩

def endQuoted (t : Words) : Words := ⟨[], String.ofList t.current.reverse :: t.finished⟩

/-- The directive of a line that ends here. -/
def directive (t : Words) : Directive := ofWords t.endWord.finished.reverse

end Words

/-- What a piece of a line can do to the words. -/
inductive Edit where
  /-- Characters of the line are written. -/
  | write (cs : List Char)
  /-- The value of a variable is written as it is. -/
  | insert (name : String)
  | endWord
  | endQuoted

namespace Words

variable (env : Environment)

def edit (t : Words) : Edit → Words
  | .write cs => t.write cs
  | .insert name => t.write ((env.resolve name).getD "").toList
  | .endWord => t.endWord
  | .endQuoted => t.endQuoted

def editAll (t : Words) (es : List Edit) : Words := es.foldl (edit env) t

@[simp] theorem editAll_cons (t : Words) (e : Edit) (es : List Edit) :
    t.editAll env (e :: es) = (t.edit env e).editAll env es := rfl

@[simp] theorem editAll_append (t : Words) (es es' : List Edit) :
    t.editAll env (es ++ es') = (t.editAll env es).editAll env es' := List.foldl_append

end Words

/-- Edits that lead from one open quote, or from none, to another: a bare word ends only outside of quotes,
which it may open, and a quoted word closes them. -/
inductive Leads : Option Char → List Edit → Option Char → Prop
  | nil {q} : Leads q [] q
  | write {q q' cs es} : Leads q es q' → Leads q (.write cs :: es) q'
  | insert {q q' name es} : Leads q es q' → Leads q (.insert name :: es) q'
  | endWord {q q' es} : Leads q es q' → Leads none (.endWord :: es) q'
  | endQuoted {c q' es} : Leads none es q' → Leads (some c) (.endQuoted :: es) q'

theorem Leads.append {q q' q'' : Option Char} {es es' : List Edit} (h : Leads q es q')
    (h' : Leads q' es' q'') : Leads q (es ++ es') q'' := by
  induction h with
  | nil => exact h'
  | write _ ih => exact .write (ih h')
  | insert _ ih => exact .insert (ih h')
  | endWord _ ih => exact .endWord (ih h')
  | endQuoted _ ih => exact .endQuoted (ih h')

/-! ## Reading without looking at the words -/

/-- The scanner with other words. -/
def Scanner.withWords (s : Scanner) (t : Words) : Scanner :=
  { s with word := t.current, words := t.finished }

namespace Scanner

variable (s : Scanner) (t : Words)

@[simp] theorem withWords_dollar : (s.withWords t).dollar = s.dollar := rfl
@[simp] theorem withWords_quote : (s.withWords t).quote = s.quote := rfl
@[simp] theorem withWords_name : (s.withWords t).name = s.name := rfl

end Scanner

/-- A computation that, from the open quote `q`, makes the same edits or fails with the same error, whatever
the words are and whatever the values of the known names. -/
inductive Uniform (known : String → Bool) (q : Option Char)
    (f : Environment → Words → Compiled Scanner) : Prop
  | fails (e : RuleError) (h : ∀ env t, env.Knows known → f env t = .error e)
  | edits (s : Scanner) (es : List Edit) (leads : Leads q es s.quote)
    (h : ∀ env t, env.Knows known → f env t = .ok (s.withWords (t.editAll env es)))

namespace Uniform

variable {known : String → Bool} {q : Option Char} {f : Environment → Words → Compiled Scanner}

/-- Without an edit, only what the scanner knows of the line changes. -/
theorem of_no_edit (s : Scanner) (hquote : s.quote = q)
    (h : ∀ env t, f env t = .ok (s.withWords t)) : Uniform known q f :=
  edits s [] (hquote ▸ .nil) fun env t _ ↦ h env t

theorem of_write (s : Scanner) (cs : List Char) (hquote : s.quote = q)
    (h : ∀ env t, f env t = .ok (s.withWords (t.write cs))) : Uniform known q f :=
  edits s [.write cs] (hquote ▸ .write .nil) fun env t _ ↦ h env t

theorem of_endWord (s : Scanner) (hquote : q = none)
    (h : ∀ env t, f env t = .ok (s.withWords t.endWord)) : Uniform known q f :=
  edits s [.endWord] (hquote ▸ .endWord .nil) fun env t _ ↦ h env t

/-- A condition that says nothing of the words or the values can be looked at anywhere. -/
theorem ite {p : Environment → Words → Prop} {_ : ∀ env t, Decidable (p env t)}
    {g : Environment → Words → Compiled Scanner} (hp : ∀ {env t env' t'}, p env t → p env' t')
    (hf : p (fun _ ↦ none) .empty → Uniform known q f)
    (hg : ¬ p (fun _ ↦ none) .empty → Uniform known q g) :
    Uniform known q fun env t ↦ if p env t then f env t else g env t := by
  by_cases h : p (fun _ ↦ none) .empty
  · have hall (env : Environment) (t : Words) : p env t := hp h
    simp only [if_pos (hall _ _)]
    exact hf h
  · have hall (env : Environment) (t : Words) : ¬ p env t := fun ht ↦ h (hp ht)
    simp only [if_neg (hall _ _)]
    exact hg h

theorem bind {g : Environment → Scanner → Compiled Scanner} (hf : Uniform known q f)
    (hg : ∀ s : Scanner, Uniform known s.quote fun env t ↦ g env (s.withWords t)) :
    Uniform known q fun env t ↦ f env t >>= g env := by
  cases hf with
  | fails e h =>
    apply fails e
    intro env t hknown
    rw [h env t hknown]
    rfl
  | edits s es leads h =>
    cases hg s with
    | fails e h' =>
      apply fails e
      intro env t hknown
      rw [h env t hknown]
      exact h' env (t.editAll env es) hknown
    | edits s' es' leads' h' =>
      apply edits s' (es ++ es') (leads.append leads')
      intro env t hknown
      rw [h env t hknown, Words.editAll_append]
      exact h' env (t.editAll env es) hknown

end Uniform

namespace Scanner

variable (known : String → Bool)

theorem stepQuote_uniform (s : Scanner) (c : Char) :
    Uniform known s.quote fun _ t ↦ .ok ((s.withWords t).stepQuote c) := by
  cases hquote : s.quote with
  | none =>
    simp only [stepQuote, withWords_quote, hquote, apply_ite Except.ok]
    refine .ite id (fun _ ↦ ?_) fun _ ↦ ?_
    · exact .of_endWord { s with quote := some c } rfl fun _ _ ↦ rfl
    · exact .of_write s [c] hquote fun _ _ ↦ rfl
  | some q =>
    simp only [stepQuote, withWords_quote, hquote, apply_ite Except.ok]
    refine .ite id (fun _ ↦ ?_) fun _ ↦ ?_
    · exact .edits { s with quote := none } [.endQuoted] (.endQuoted .nil) fun _ _ _ ↦ rfl
    · exact .of_write s [c] hquote fun _ _ ↦ rfl

/-- Whether the name of a reference resolves is known, and only its value is not. -/
theorem endReference_uniform (s : Scanner) (name : List Char) :
    Uniform known s.quote fun env t ↦ .ok (endReference env (s.withWords t) name) := by
  simp only [endReference]
  cases hname : known (String.ofList name.reverse) with
  | true =>
    refine .edits { s with name := none } [.insert (String.ofList name.reverse)] (.insert .nil)
      fun env t hknown ↦ ?_
    obtain ⟨value, hvalue⟩ := Option.isSome_iff_exists.mp ((hknown _).trans hname)
    rw [hvalue, Words.editAll_cons, Words.edit, hvalue]
    rfl
  | false =>
    refine .edits { s with name := none, missing := String.ofList name.reverse :: s.missing } [] .nil
      fun env t hknown ↦ ?_
    have hnone := Option.isSome_eq_false_iff.mp ((hknown _).trans hname)
    rw [Option.isNone_iff_eq_none.mp hnone]
    rfl

theorem stepPlain_uniform (s : Scanner) (c : Char) :
    Uniform known s.quote fun env t ↦ stepPlain env (s.withWords t) c := by
  unfold stepPlain
  refine .ite id (fun _ ↦ ?backslash) fun _ ↦ .ite id (fun _ ↦ ?dollar) fun _ ↦
    .ite id (fun _ ↦ ?brace) fun _ ↦ .ite id (fun _ ↦ ?opening) fun _ ↦
    .ite id (fun _ ↦ .ite id (fun _ ↦ ?unopened) fun _ ↦ ?closing) fun _ ↦ ?other
  case backslash => exact .of_no_edit { s with escaped := true } rfl fun _ _ ↦ rfl
  case dollar =>
    simp only [apply_ite Except.ok]
    refine .ite id (fun _ ↦ ?_) fun _ ↦ ?_
    · exact .of_write { s with dollar := false } ['$'] rfl fun _ _ ↦ rfl
    · exact .of_no_edit { s with dollar := true } rfl fun _ _ ↦ rfl
  case brace => exact .of_no_edit { s with name := some [], dollar := false } rfl fun _ _ ↦ rfl
  case opening => exact .of_write { s with depth := s.depth + 1 } [c] rfl fun _ _ ↦ rfl
  case unopened => exact .fails .unterminatedBrackets fun _ _ _ ↦ rfl
  case closing => exact .of_write { s with depth := s.depth - 1 } [c] rfl fun _ _ ↦ rfl
  case other =>
    cases hname : s.name with
    | some name =>
      simp only [withWords_name, hname]
      refine .ite id (fun _ ↦ endReference_uniform known s name) fun _ ↦
        .ite id (fun hblank ↦ ?_) fun _ ↦ ?_
      · exact .of_endWord s hblank.2 fun _ _ ↦ rfl
      · exact .of_no_edit { s with name := some (c :: name) } rfl fun _ _ ↦ rfl
    | none =>
      simp only [withWords_name, hname]
      refine .ite id (fun hblank ↦ ?_) fun _ ↦ ?_
      · exact .of_endWord s hblank.2 fun _ _ ↦ rfl
      · exact .of_write s [c] rfl fun _ _ ↦ rfl

theorem step_uniform (s : Scanner) (c : Char) :
    Uniform known s.quote fun env t ↦ step env (s.withWords t) c := by
  refine .ite id (fun _ ↦ ?escaped) fun _ ↦ ?read
  case escaped => exact .of_write { s with escaped := false } (unescape c) rfl fun _ _ ↦ rfl
  case read =>
    -- A dollar that stands for itself is written before the character is looked at.
    have hdollar : Uniform known s.quote fun _ t ↦
        .ok (if (s.withWords t).dollar ∧ c ≠ '\x7b' ∧ c ≠ '$' then
          { (s.withWords t).push '$' with dollar := false } else s.withWords t) := by
      simp only [apply_ite Except.ok]
      refine .ite id (fun _ ↦ ?_) fun _ ↦ ?_
      · exact .of_write { s with dollar := false } ['$'] rfl fun _ _ ↦ rfl
      · exact .of_no_edit s rfl fun _ _ ↦ rfl
    have hread (s : Scanner) : Uniform known s.quote fun env t ↦
        if isQuote c then .ok ((s.withWords t).stepQuote c) else (s.withWords t).stepPlain env c :=
      .ite id (fun _ ↦ stepQuote_uniform known s c) fun _ ↦ stepPlain_uniform known s c
    exact hdollar.bind (g := fun env s ↦ if isQuote c then .ok (s.stepQuote c) else s.stepPlain env c) hread

theorem scan_uniform (s : Scanner) (cs : List Char) :
    Uniform known s.quote fun env t ↦ scan env (s.withWords t) cs := by
  induction cs generalizing s with
  | nil => exact .of_no_edit s rfl fun _ _ ↦ rfl
  | cons c cs ih => exact (step_uniform known s c).bind ih

/-! ## Lines -/

/-- What the end of the line does to the words before it ends the last of them. -/
def lastEdits (s : Scanner) : List Edit := if s.dollar then [.write ['$']] else []

theorem finish_withWords (env : Environment) (s : Scanner) (t : Words) (h : s.endError? = none) :
    (s.withWords t).finish = .ok (t.editAll env s.lastEdits).directive := by
  have hend : (s.withWords t).endError? = none := h
  rw [finish_of_no_error hend]
  cases hdollar : s.dollar <;> simp only [settleDollar, withWords_dollar, lastEdits, hdollar] <;> rfl

/-- Reading to the end of the line makes the same edits whatever was read before and whatever the values of
the known names are, or it fails with the same error. -/
theorem finish_scan_uniform (s : Scanner) (cs : List Char) :
    (∃ e, ∀ env t, env.Knows known → scan env (s.withWords t) cs >>= finish = .error e) ∨
    ∃ es, Leads s.quote es none ∧ ∀ env t, env.Knows known →
      scan env (s.withWords t) cs >>= finish = .ok (t.editAll env es).directive := by
  cases scan_uniform known s cs with
  | fails e h =>
    refine .inl ⟨e, fun env t hknown ↦ ?_⟩
    rw [h env t hknown]
    rfl
  | edits s' es leads h =>
    cases hend : s'.endError? with
    | some e =>
      refine .inl ⟨e, fun env t hknown ↦ ?_⟩
      rw [h env t hknown]
      exact finish_of_error hend
    | none =>
      have hlast : Leads s'.quote s'.lastEdits none := by
        rw [quote_of_no_error hend, lastEdits]
        split
        · exact .write .nil
        · exact .nil
      refine .inr ⟨es ++ s'.lastEdits, leads.append hlast, fun env t hknown ↦ ?_⟩
      rw [h env t hknown, Words.editAll_append]
      exact finish_withWords env s' _ hend

end Scanner

end Directive

end RuleGate
