import RuleGate.Arguments
import RuleGate.Scene
import RuleGate.Template.Basic

/-!
# Log lines and notifications

The commands that report on an exchange once its response is there: one writes a line to a sink, the
other sends a notification to a provider.
-/

namespace RuleGate

/-- Whether compiling rules opens the files of their sinks, or only checks that it could. -/
inductive CompileMode where
  | serve
  | check
deriving DecidableEq, Repr

structure LogCommand where
  level : LogLevel
  sink : LogSink
  template : Template
deriving DecidableEq, Repr

namespace LogCommand

/-- The sink for a path in a compile mode. -/
def sinkFor (mode : CompileMode) (disk : Disk) (path : String) : Compiled LogSink × Disk :=
  match mode with
  | .serve => LogSink.acquire disk path
  | .check => (LogSink.check disk.files path, disk)

/-- The sink comes last, so that nothing is opened for arguments that are wrong anyway. -/
def compile (mode : CompileMode) (disk : Disk) : List String → Compiled LogCommand × Disk
  | [level, path, template] =>
    match Template.parse template, Arguments.level level with
    | .error e, _ => (.error e, disk)
    | _, .error e => (.error e, disk)
    | .ok template, .ok level =>
      match sinkFor mode disk path with
      | (.error e, disk) => (.error e, disk)
      | (.ok sink, disk) => (.ok ⟨level, sink, template⟩, disk)
  | _ => (.error (.arity .three), disk)

def run (c : LogCommand) (s : Scene) : Scene.Result :=
  match s.world.writeLine c.sink c.level (c.template.expand s.exchange) with
  | (.ok (), w) => (.ok (), { s with world := w })
  | (.error text, w) => (.error (.io text), { s with world := w })

end LogCommand

structure NotifyCommand where
  level : LogLevel
  provider : String
  title : Template
  body : Template
deriving DecidableEq, Repr

namespace NotifyCommand

def compile : List String → Compiled NotifyCommand
  | [level, provider, title, body] => do
    let title ← Template.parse title
    let body ← Template.parse body
    let level ← Arguments.level level
    return ⟨level, provider, title, body⟩
  | _ => .error (.arity .four)

/-- The notification about an exchange. -/
def notification (c : NotifyCommand) (x : Exchange) : Notification :=
  ⟨c.level, c.title.expand x, c.body.expand x, [c.provider]⟩

/-- Sends a notification. -/
def send (c : NotifyCommand) (n : Notification) (w : World) : Except CommandError Unit × World :=
  match w.deliver n with
  | (.ok (), w) => (.ok (), w)
  | (.error text, w) => (.error (.notify (c.provider ++ ": " ++ text)), w)

def run (c : NotifyCommand) (s : Scene) : Scene.Result :=
  let (result, w) := c.send (c.notification s.exchange) s.world
  (result, { s with world := w })

end NotifyCommand

end RuleGate
