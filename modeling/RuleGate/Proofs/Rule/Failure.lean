import RuleGate.Proofs.Response.Draft
import RuleGate.Proofs.Rule.Handling
import RuleGate.Proofs.Sample

/-!
# Failing commands

Commands fail at a value that no header can hold, at a file that cannot be looked at or read, at an upstream
or the client for it, at a write that stops short and at a provider of notifications, and nowhere else. Each of
these points comes before the first change of the request or of the draft of the response. So a rule that fails
leaves them as its earlier commands did: in the response phase with the failure on record, and in the request
phase with an error page besides.
-/

namespace RuleGate

/-! ## One command -/

namespace Command

variable {c : Command} {commands : List Command} {s s' : Scene} {e : CommandError}

/-- Where a command can fail, with the error and the world that this leaves. -/
inductive FailurePoint (s : Scene) : Command → CommandError → World → Prop
  /-- The file cannot be looked at, and not because it is not there or may not be seen. -/
  | lookup {c : ServeCommand} {e : FileError}
      (find : ServeCommand.find s.world (c.resolve s.exchange.path) = .error e) :
      FailurePoint s (serve c) (.io e.message) s.world
  /-- The file is there but cannot be read. -/
  | read {c : ServeCommand} {path : String} {modified : Int} {e : FileError}
      (find : ServeCommand.find s.world (c.resolve s.exchange.path) = .ok (.file path modified))
      (read : s.world.read path = .error e) : FailurePoint s (serve c) (.io e.message) s.world
  /-- There is no client to send a request with. -/
  | client {upstream : Uri} {text : String} (client : s.world.faults.client = some text) :
      FailurePoint s (proxy upstream) (.io text) s.world
  /-- The upstream has no target for the request, or gives no response. -/
  | upstream {upstream : Uri} {e : CommandError} {w : World} (client : s.world.faults.client = none)
      (forward : Forwarding.forward s.exchange.request upstream s.world = (.error e, w)) :
      FailurePoint s (proxy upstream) e w
  /-- No header can hold the value for the request. -/
  | header {op : FieldOp} {name : HeaderName} {value : Template} {e : CommandError}
      (edit : FieldCommand.editHeaders op name (value.expand s.exchange) s.exchange.request.headers = .error e) :
      FailurePoint s (field ⟨op, .header name, value⟩) e s.world
  /-- No header can hold the value for the response. -/
  | responseHeader {op : FieldOp} {name : HeaderName} {value : Template} {e : CommandError}
      (edit : FieldCommand.editHeaders op name (value.expand s.exchange) s.exchange.draft.headers = .error e) :
      FailurePoint s (field ⟨op, .responseHeader name, value⟩) e s.world
  /-- The line cannot be written, or not to its end. -/
  | line {c : LogCommand} {text : String} {w : World}
      (write : s.world.writeLine c.sink c.level (c.template.expand s.exchange) = (.error text, w)) :
      FailurePoint s (log c) (.io text) w
  /-- The provider fails. -/
  | notification {c : NotifyCommand} {e : CommandError} {w : World}
      (send : c.send (c.notification s.exchange) s.world = (.error e, w)) : FailurePoint s (notify c) e w

theorem FailurePoint.run_eq {w : World} (h : FailurePoint s c e w) :
    c.run s = (.error e, { s with world := w }) := by
  cases h with
  | lookup hfind => simp only [run, ServeCommand.run, hfind]
  | read hfind hread => simp only [run, ServeCommand.run, hfind, ServeCommand.answer, hread]
  | client hclient => simp only [run, runProxy, hclient]
  | upstream hclient hforward => simp only [run, runProxy, hclient, hforward]
  | header hedit => simp only [run, FieldCommand.run, hedit]
  | responseHeader hedit => simp only [run, FieldCommand.run, hedit]
  | line hwrite => simp only [run, LogCommand.run, hwrite]
  | notification hsend => simp only [run, NotifyCommand.run, hsend]

theorem exists_failurePoint (h : c.run s = (.error e, s')) :
    ∃ w, FailurePoint s c e w ∧ s' = { s with world := w } := by
  cases c with
  | serve c =>
    rw [run] at h
    cases c.ends s with
    | noLookup hfind hrun => cases hrun.symm.trans h; exact ⟨_, .lookup hfind, rfl⟩
    | noReading hfind hread hrun => cases hrun.symm.trans h; exact ⟨_, .read hfind hread, rfl⟩
    | page _ hrun => cases hrun.symm.trans h
    | file _ _ _ hrun => cases hrun.symm.trans h
  | proxy upstream =>
    rw [run] at h
    cases proxyEnds upstream s with
    | noClient hclient hrun => cases hrun.symm.trans h; exact ⟨_, .client hclient, rfl⟩
    | noResponse hclient hforward hrun => cases hrun.symm.trans h; exact ⟨_, .upstream hclient hforward, rfl⟩
    | answers _ hrun => cases hrun.symm.trans h
  | field c =>
    obtain ⟨op, target, value⟩ := c
    cases target with
    | header name =>
      simp only [run, FieldCommand.run] at h
      split at h
      · cases h
      · next hedit =>
        cases h
        exact ⟨_, .header hedit, rfl⟩
    | responseHeader name =>
      simp only [run, FieldCommand.run] at h
      split at h
      · cases h
      · next hedit =>
        cases h
        exact ⟨_, .responseHeader hedit, rfl⟩
    | _ => cases h
  | log c =>
    simp only [run, LogCommand.run] at h
    split at h
    · cases h
    · next hwrite =>
      cases h
      exact ⟨_, .line hwrite, rfl⟩
  | notify c =>
    obtain ⟨hfst, rfl⟩ := Prod.ext_iff.mp h
    exact ⟨_, .notification (Prod.ext hfst rfl), rfl⟩
  | _ => cases h

/-- A command fails at its failure points and nowhere else, and changes nothing but the world when it does. -/
theorem run_eq_error_iff : c.run s = (.error e, s') ↔ ∃ w, FailurePoint s c e w ∧ s' = { s with world := w } := by
  constructor
  · exact exists_failurePoint
  · rintro ⟨w, hpoint, rfl⟩
    exact hpoint.run_eq

theorem run_error (h : c.run s = (.error e, s')) : s'.exchange = s.exchange := by
  obtain ⟨w, -, rfl⟩ := run_eq_error_iff.mp h
  rfl

/-- Commands that fail do so at one of them, which all before it have let run. -/
theorem exists_of_runAll_error (h : runAll s commands = (.error e, s')) :
    ∃ (done rest : List Command) (c : Command) (reached : Scene), commands = done ++ c :: rest ∧
      runAll s done = (.ok .proceed, reached) ∧ c.run reached = (.error e, s') := by
  induction commands generalizing s with
  | nil => cases h
  | cons c rest ih =>
    cases firstStep s c rest with
    | handsOn _ hall =>
      rw [hall] at h
      cases h
    | fails _ hfails hall =>
      rw [hall] at h
      cases h
      exact ⟨[], rest, c, s, rfl, rfl, hfails⟩
    | ends _ _ hall =>
      rw [hall] at h
      cases h
    | goesOn hends hrun hall =>
      rw [hall] at h
      obtain ⟨done, later, failing, reached, rfl, hdone, hfails⟩ := ih h
      refine ⟨c :: done, later, failing, reached, rfl, ?_, hfails⟩
      rw [runAll_cons hends, hrun]
      exact hdone

end Command

/-! ## Error pages in a draft -/

/-- The second draft is the first with an error page for a status in place of its body. -/
structure ErrorPage.PutInto (status : Status) (message : String) (d d' : ResponseDraft) : Prop where
  status : d'.status = status
  body : d'.body = Bytes.ofString (message ++ "\n")
  contentType : d'.headers.getAll .contentType = [Bytes.ofString "text/plain; charset=utf-8"]
  contentTypeOptions : d'.headers.getAll .contentTypeOptions = [Bytes.ofString "nosniff"]
  contentLength : d'.headers.getAll .contentLength = []
  others : ∀ name ∉ [.contentType, .contentTypeOptions, .contentLength],
    d'.headers.getAll name = d.headers.getAll name

theorem ErrorPage.getAll_setHeaders_of_ne (h : Headers) {name : HeaderName} (htype : name ≠ .contentType)
    (hoptions : name ≠ .contentTypeOptions) : (setHeaders h).getAll name = h.getAll name := by
  rw [setHeaders, Headers.getAll_insert_of_ne _ hoptions, Headers.getAll_insert_of_ne _ htype]

theorem ErrorPage.write_headers (d : ResponseDraft) (status : Status) (message : String) :
    (write d status message).headers = setHeaders (d.headers.erase .contentLength) := rfl

theorem ErrorPage.write_putInto (d : ResponseDraft) (status : Status) (message : String) :
    PutInto status message d (write d status message) where
  status := rfl
  body := by simp [write, body]
  contentType := by
    rw [write_headers, setHeaders, Headers.getAll_insert_of_ne _ (by decide)]
    exact Headers.getAll_insert_self ..
  contentTypeOptions := Headers.getAll_insert_self ..
  contentLength := by
    rw [write_headers, getAll_setHeaders_of_ne _ (by decide) (by decide)]
    exact Headers.getAll_erase_self ..
  others name hname := by
    rw [List.mem_cons, List.mem_cons, List.mem_singleton, not_or, not_or] at hname
    obtain ⟨htype, hoptions, hlength⟩ := hname
    rw [write_headers, getAll_setHeaders_of_ne _ htype hoptions, Headers.getAll_erase_of_ne _ hlength]

/-! ## One rule -/

namespace RuleSet

/-- What the failure of a command makes of the exchange that the commands before it have left. -/
structure Fails (rule : Rule) (phase : Phase) (e : CommandError) (x y : Exchange) : Prop where
  only_draft : x.OnlyDraftChanged y
  recorded : y.draft.errors =
    x.draft.errors ++ ["rule " ++ Text.quoted rule.name ++ " error: " ++ e.message]
  of_response : phase = .response →
    y.draft.status = x.draft.status ∧ y.draft.headers = x.draft.headers ∧ y.draft.body = x.draft.body
  of_request : phase = .request →
    ErrorPage.PutInto e.status ((e.status.reason?).getD "Error") x.draft y.draft

theorem noteFailure_fails (rule : Rule) (phase : Phase) (e : CommandError) (s : Scene) :
    Fails rule phase e s.exchange (noteFailure rule phase e s).exchange := by
  cases phase with
  | request =>
    refine ⟨⟨rfl, rfl, rfl⟩, rfl, (fun h ↦ nomatch h), fun _ ↦ ?_⟩
    have hpage := ErrorPage.write_putInto (s.exchange.draft.appendError rule.name e.message) e.status
      ((e.status.reason?).getD "Error")
    exact { hpage with others := hpage.others }
  | response => exact ⟨⟨rfl, rfl, rfl⟩, rfl, fun _ ↦ ⟨rfl, rfl, rfl⟩, fun h ↦ nomatch h⟩

/-- A command that fails changes neither the request nor the draft of the response. A rule that fails
leaves what the commands before the failing one have left, but for what the failure itself adds. -/
theorem failures_are_atomic :
    (∀ (c : Command) (s s' : Scene) (e : CommandError), c.run s = (.error e, s') →
      s'.exchange = s.exchange) ∧
    ∀ (rule : Rule) (phase : Phase) (s : Scene) (e : CommandError),
      (rule.block.run s).1 = .error e →
      ∃ (done rest : List Command) (c : Command) (reached : Scene),
        rule.block.commands = done ++ c :: rest ∧
        Command.runAll s done = (.ok .proceed, reached) ∧ (c.run reached).1 = .error e ∧
        (execute rule phase s).1 = .terminated ∧
        Fails rule phase e reached.exchange (execute rule phase s).2.exchange := by
  refine ⟨fun c s s' e h ↦ Command.run_error h, ?_⟩
  intro rule phase s e h
  have hrun : rule.block.run s = (.error e, (rule.block.run s).2) := Prod.ext h rfl
  obtain ⟨done, rest, c, reached, hcommands, hdone, hfails⟩ := Command.exists_of_runAll_error hrun
  have hreached : (rule.block.run s).2.exchange = reached.exchange := Command.run_error hfails
  have hexecute : execute rule phase s =
      (.terminated, noteFailure rule phase e (rule.block.run s).2) := by
    rw [execute, hrun]
  refine ⟨done, rest, c, reached, hcommands, hdone, by rw [hfails], by rw [hexecute], ?_⟩
  rw [hexecute, ← hreached]
  exact noteFailure_fails rule phase e _

/-- A world in which files are found but cannot be read, and in which writes stop after two bytes. -/
def wornWorld : World where
  disk := .ofFiles ⟨[(["www".toList], .directory), (["www".toList, "a".toList], .file [] 0)], []⟩
  now := ""
  delivery := .asEvents
  network _ := .error "unreachable"
  faults :=
    { stat := fun _ ↦ none
      read := fun _ ↦ some (.other "Input/output error (os error 5)")
      write := fun _ _ _ ↦ some ⟨2, "No space left on device (os error 28)"⟩
      client := none }
  journal := []

/-- A rule that sets a header to what no header can hold. -/
def brokenRule : Rule :=
  ⟨"broken", .always, ⟨"set header X-A \"\n\"", [.field ⟨.set, .header ⟨"x-a"⟩, .ofText "\n"⟩]⟩⟩

def servingRule : Rule := ⟨"files", .always, ⟨"serve /www", [.serve ⟨"/www"⟩]⟩⟩

def loggingRule : Rule :=
  ⟨"access", .always, ⟨"log info /access.log hit",
    [.log ⟨.info, ⟨"/access.log", .file ["access.log".toList]⟩, .ofText "hit"⟩]⟩⟩

/-- In the request phase a header that cannot be set leaves a page that says the request was bad, and a file
that cannot be read one that says the server failed. A line that is cut short in the response phase leaves the
response, although its first two letters are in the file. -/
theorem rules_fail_in_wornWorld :
    (∃ e : CommandError, Fails brokenRule .request e (.start (.plain "/a"))
      (execute brokenRule .request ⟨.start (.plain "/a"), wornWorld⟩).2.exchange ∧ e.status = .badRequest) ∧
    (∃ e : CommandError, Fails servingRule .request e (.start (.plain "/a"))
      (execute servingRule .request ⟨.start (.plain "/a"), wornWorld⟩).2.exchange ∧
      e.status = .internalServerError) ∧
    ∃ e : CommandError, Fails loggingRule .response e (.start (.plain "/a"))
      (execute loggingRule .response ⟨.start (.plain "/a"), wornWorld⟩).2.exchange ∧
      (loggingRule.block.run ⟨.start (.plain "/a"), wornWorld⟩).2.world.journal =
        [.fileText ["access.log".toList] "hi"] := by
  have hsingle {rule : Rule} {c : Command} (phase : Phase) {s : Scene} {e : CommandError}
      (hrule : rule.block.commands = [c]) (herror : (rule.block.run s).1 = .error e) :
      Fails rule phase e s.exchange (execute rule phase s).2.exchange := by
    obtain ⟨done, rest, c, reached, hcommands, hdone, -, -, hfails⟩ :=
      failures_are_atomic.2 rule phase s e herror
    obtain ⟨rfl, -⟩ | ⟨-, hnil⟩ := List.append_eq_singleton_iff.mp (hcommands.symm.trans hrule)
    · cases hdone
      exact hfails
    · cases hnil
  have hbroken : (brokenRule.block.run ⟨.start (.plain "/a"), wornWorld⟩).1 =
      .error (.invalidRequest "invalid value for header x-a: failed to parse header value") := rfl
  have hserving : (servingRule.block.run ⟨.start (.plain "/a"), wornWorld⟩).1 =
      .error (.io "Input/output error (os error 5)") := by decide +kernel
  have hlogging : (loggingRule.block.run ⟨.start (.plain "/a"), wornWorld⟩).1 =
      .error (.io "No space left on device (os error 28)") := rfl
  exact ⟨⟨_, hsingle .request rfl hbroken, rfl⟩, ⟨_, hsingle .request rfl hserving, rfl⟩,
    ⟨_, hsingle .response rfl hlogging, by decide +kernel⟩⟩

end RuleSet

end RuleGate
