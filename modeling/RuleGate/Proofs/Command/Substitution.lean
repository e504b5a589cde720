import Mathlib.Data.Bool.AllAny
import RuleGate.Proofs.Command.Block
import RuleGate.Proofs.Directive.Substitution
import RuleGate.Proofs.Http.Header
import RuleGate.Proofs.Template.Expansion
import RuleGate.Proofs.Text.Utf8

/-!
# Values of the environment in templates

A reference to the environment puts the value into the argument of a command as it is, but the command reads
this argument as a template. So a request header is set to the value itself only if the template says nothing
but this text.
-/

namespace RuleGate

namespace CommandBlock

/-- The directive that sets a header of the request to the value of an environment variable. -/
def tokenLine : String := "set header X-Token \"" ++ Directive.reference "V" ++ "\""

/-- The header it sets. -/
def tokenName : HeaderName := ⟨"x-token"⟩

example : tokenLine = "set header X-Token \"$\x7bV\x7d\"" := rfl

variable {env : Environment} {v : String}

open Directive.Scanner in
theorem parse_tokenLine (hv : env "V" = some v) :
    Directive.parse env tokenLine = .ok ⟨"set", ["header", "X-Token", v]⟩ := by
  have hvalue : env.resolve "V" = some v := by rw [Environment.resolve, hv, Option.some_or]
  have hname : ∀ c ∈ "V".toList, Directive.isReferenceChar c = true := List.all_eq_true.mp rfl
  have hopen : scan env .start "set header X-Token \"".toList =
      .ok ⟨false, false, some '"', 0, none, [], ["X-Token", "header", "set"], []⟩ := rfl
  have hclose : scan env
      ⟨false, false, some '"', 0, none, v.toList.reverse ++ [], ["X-Token", "header", "set"], []⟩ "\"".toList =
        .ok ⟨false, false, none, 0, none, [], [v, "X-Token", "header", "set"], []⟩ := by
    simp [scan_cons, step, Directive.isQuote, stepQuote, endQuoted, bind, Except.bind]
  have hparse := Directive.parse_eq_finish_reference hopen ⟨rfl, rfl, rfl⟩ hname hvalue "\""
  rw [hclose] at hparse
  exact hparse

theorem compile_headerField (v : String) :
    FieldCommand.compile .set ["header", "X-Token", v] =
      match Template.parse v with
      | .ok t => .ok ⟨.set, .header tokenName, t⟩
      | .error e => .error (.withHelp e FieldKind.header.help.text) := by
  have hname : HeaderName.compile "X-Token" = .ok tokenName := rfl
  have hkind : FieldKind.ofName? "header" = some .header := rfl
  simp only [FieldCommand.compile, hkind, FieldCommand.compileKind, FieldCommand.keyAndValue]
  cases Template.parse v with
  | ok t => simp only [bind, Except.bind, pure, Except.pure, hname]
  | error e => rfl

variable {mode : CompileMode} {disk : Disk} {t : Template}

/-- The block of this directive, with the value read as a template. -/
def tokenBlock (t : Template) : CommandBlock := ⟨tokenLine, [.field ⟨.set, .header tokenName, t⟩]⟩

theorem compile_tokenLine_eq :
    (compile env mode disk tokenLine).1 =
      (Condition.atLine 0 (Command.compileLine env mode disk tokenLine).1).bind
        fun c ↦ ofCommands tokenLine [c] := by
  have hlines : Directive.blockLines tokenLine = [(0, tokenLine)] := by decide
  simp only [compile, hlines, compileLines]
  cases Condition.atLine 0 (Command.compileLine env mode disk tokenLine).1 <;> rfl

theorem compile_tokenLine_eq_ok_iff (hv : env "V" = some v) {b : CommandBlock} :
    (compile env mode disk tokenLine).1 = .ok b ↔ ∃ t, Template.parse v = .ok t ∧ b = tokenBlock t := by
  have hcommand : Command.Name.ofText? "set" = some .set := rfl
  rw [compile_tokenLine_eq]
  simp only [Command.compileLine, parse_tokenLine hv, hcommand, Command.compileArguments,
    compile_headerField]
  cases Template.parse v with
  | ok t =>
    constructor
    · intro h
      exact ⟨t, rfl, (Except.ok.inj h).symm⟩
    · rintro ⟨_, ht, rfl⟩
      cases ht
      rfl
  | error e =>
    constructor
    · intro h
      cases h
    · rintro ⟨_, ht, -⟩
      cases ht

/-! ## Running it -/

theorem run_tokenBlock (t : Template) (s : Scene) :
    (tokenBlock t).run s =
      match HeaderValue.ofString? (t.expand s.exchange) with
      | some bytes =>
        (.ok .proceed, s.withExchange (·.setHeaders (s.exchange.request.headers.insert tokenName bytes)))
      | none =>
        (.error (.invalidRequest
          ("invalid value for header " ++ tokenName.text ++ ": " ++ HeaderValue.invalidMessage)), s) := by
  have hends : endsRule (.field ⟨.set, .header tokenName, t⟩) = false := by
    simp only [endsRule, Command.kind]
    split <;> rfl
  rw [run, tokenBlock, Command.runAll_cons hends]
  simp only [Command.run, FieldCommand.run, FieldCommand.editHeaders]
  cases HeaderValue.ofString? (t.expand s.exchange) <;> rfl

theorem getAll_of_run_tokenBlock {s : Scene} {bytes : Bytes}
    (h : HeaderValue.ofString? (t.expand s.exchange) = some bytes) :
    ((tokenBlock t).run s).1 = .ok .proceed ∧
      ((tokenBlock t).run s).2.exchange.request.headers.getAll tokenName = [bytes] := by
  rw [run_tokenBlock, h]
  exact ⟨rfl, Headers.getAll_insert_self _ _ _⟩

theorem expand_of_run_tokenBlock {s : Scene} {value : String}
    (hok : ((tokenBlock t).run s).1 = .ok .proceed)
    (hheader : ((tokenBlock t).run s).2.exchange.request.headers.getAll tokenName = [Bytes.ofString value]) :
    t.expand s.exchange = value := by
  cases hbytes : HeaderValue.ofString? (t.expand s.exchange) with
  | none =>
    rw [run_tokenBlock, hbytes] at hok
    cases hok
  | some bytes =>
    rw [(getAll_of_run_tokenBlock hbytes).2, List.singleton_inj] at hheader
    rw [HeaderValue.ofString?_eq_some hbytes] at hheader
    exact Bytes.ofString_injective hheader

/-- What a value of the environment does to the header: the value is read as a template, and it is the header's
value in every scene exactly if each of its dollars opens a brace. -/
theorem environment_value_as_header (hv : env "V" = some v)
    (hvisible : ∀ c ∈ v.toList, HeaderValue.IsVisible c) (mode : CompileMode) (disk : Disk) :
    ((∃ b, (compile env mode disk tokenLine).1 = .ok b ∧ ∀ s, (b.run s).1 = .ok .proceed ∧
        (b.run s).2.exchange.request.headers.getAll tokenName = [Bytes.ofString v]) ↔
      Template.isVerbatim v.toList = true) ∧
    ((∃ b, (compile env mode disk tokenLine).1 = .ok b) ↔ ∃ t, Template.parse v = .ok t) ∧
    ∀ b t, (compile env mode disk tokenLine).1 = .ok b → Template.parse v = .ok t → ∀ s,
      (∀ bytes, HeaderValue.ofString? (t.expand s.exchange) = some bytes → (b.run s).1 = .ok .proceed ∧
        (b.run s).2.exchange.request.headers.getAll tokenName = [bytes]) ∧
      (HeaderValue.ofString? (t.expand s.exchange) = none → ∃ e, b.run s = (.error e, s)) := by
  simp only [compile_tokenLine_eq_ok_iff hv]
  refine ⟨⟨?_, fun hverbatim ↦ ?_⟩, ⟨?_, ?_⟩, ?_⟩
  · rintro ⟨_, ⟨t, ht, rfl⟩, hset⟩
    rw [← Bool.not_eq_false]
    intro hverbatim
    -- the scene of a short exchange shows the difference
    obtain ⟨hok, hheader⟩ := hset ⟨.start (.plain "/"), .quiet⟩
    have hshorter := Template.length_expand_lt Exchange.terse_plain ht hverbatim
    rw [expand_of_run_tokenBlock hok hheader] at hshorter
    exact Nat.lt_irrefl _ hshorter
  · obtain ⟨t, ht, hexpand⟩ := Template.parse_of_isVerbatim hverbatim
    refine ⟨tokenBlock t, ⟨t, ht, rfl⟩, fun s ↦ getAll_of_run_tokenBlock ?_⟩
    rw [hexpand]
    exact HeaderValue.ofString?_of_visible hvisible
  · rintro ⟨_, t, ht, -⟩
    exact ⟨t, ht⟩
  · rintro ⟨t, ht⟩
    exact ⟨tokenBlock t, t, ht, rfl⟩
  · rintro _ t ⟨t', ht', rfl⟩ ht s
    obtain rfl : t = t' := Except.ok.inj (ht.symm.trans ht')
    refine ⟨fun bytes hbytes ↦ getAll_of_run_tokenBlock hbytes, fun hnone ↦ ?_⟩
    rw [run_tokenBlock, hnone]
    exact ⟨_, rfl⟩

/-- A value full of characters that mean something to the rule language or to templates. -/
theorem header_of_quoted_reference :
    (∀ c ∈ "say \"$\x7bX\x7d\" (\\ ".toList, HeaderValue.IsVisible c) ∧
    ∃ b, (compile (.only "V" "say \"$\x7bX\x7d\" (\\ ") .serve World.quiet.disk tokenLine).1 = .ok b ∧
      ∀ s, (b.run s).1 = .ok .proceed ∧
        (b.run s).2.exchange.request.headers.getAll tokenName = [Bytes.ofString "say \"$\x7bX\x7d\" (\\ "] := by
  have hvalue : Environment.only "V" "say \"$\x7bX\x7d\" (\\ " "V" = some "say \"$\x7bX\x7d\" (\\ " := rfl
  have hvisible : ∀ c ∈ "say \"$\x7bX\x7d\" (\\ ".toList, HeaderValue.IsVisible c :=
    List.all_iff_forall_prop.mp (by decide)
  have hheader := (environment_value_as_header hvalue hvisible .serve World.quiet.disk).1
  exact ⟨hvisible, hheader.mpr (by decide)⟩

/-- A doubled dollar of the value gets into the header as one, and with a dollar at the end of the value the
directive is refused. -/
theorem dollars_of_value_are_read :
    (∀ c ∈ "a$$b".toList, HeaderValue.IsVisible c) ∧ (∀ c ∈ "5$".toList, HeaderValue.IsVisible c) ∧
    (∃ b, (compile (.only "V" "a$$b") .serve World.quiet.disk tokenLine).1 = .ok b ∧
      ∀ s, (b.run s).2.exchange.request.headers.getAll tokenName = [Bytes.ofString "a$b"]) ∧
    [Bytes.ofString "a$b"] ≠ [Bytes.ofString "a$$b"] ∧
    ¬ ∃ b, (compile (.only "V" "5$") .serve World.quiet.disk tokenLine).1 = .ok b := by
  have hvisible : ∀ c ∈ "a$$b".toList, HeaderValue.IsVisible c := List.all_iff_forall_prop.mp (by decide)
  have hvisibleLast : ∀ c ∈ "5$".toList, HeaderValue.IsVisible c := List.all_iff_forall_prop.mp (by decide)
  have hdoubled : Template.parse "a$$b" = .ok ⟨[.literal "a$b"]⟩ := by
    have htext : "a$$b".toList = ['a', '$', '$', 'b'] := by decide
    rw [Template.parse, htext, Template.parseFrom_cons_of_ne _ _ _ (by decide),
      Template.parseFrom_dollar_dollar, Template.parseFrom_cons_of_ne _ _ _ (by decide),
      Template.parseFrom_nil]
    rfl
  have hlast : Template.parse "5$" = .error .unterminatedVariable := by
    have htext : "5$".toList = ['5', '$'] := by decide
    rw [Template.parse, htext, Template.parseFrom_cons_of_ne _ _ _ (by decide), Template.parseFrom_dollar]
    rfl
  have hvalue : Environment.only "V" "a$$b" "V" = some "a$$b" := rfl
  have hvalueLast : Environment.only "V" "5$" "V" = some "5$" := rfl
  refine ⟨hvisible, hvisibleLast, ⟨tokenBlock ⟨[.literal "a$b"]⟩, ?_, fun s ↦ ?_⟩, by decide, ?_⟩
  · exact (compile_tokenLine_eq_ok_iff hvalue).mpr ⟨_, hdoubled, rfl⟩
  · have hexpand : Template.expand ⟨[.literal "a$b"]⟩ s.exchange = "a$b" := rfl
    apply (getAll_of_run_tokenBlock _).2
    rw [hexpand]
    exact HeaderValue.ofString?_of_visible (List.all_iff_forall_prop.mp (by decide))
  · rintro ⟨b, hb⟩
    obtain ⟨t, ht, -⟩ := (compile_tokenLine_eq_ok_iff hvalueLast).mp hb
    rw [hlast] at ht
    cases ht

end CommandBlock

end RuleGate
