import RuleGate.Effect
import RuleGate.Error
import RuleGate.Files.FileSystem

/-!
# Log sinks

Where log lines go: the two standard streams, or a file that is opened once for appending and then
shared by all who name it. A sink can also be checked without opening it.
-/

namespace RuleGate

inductive SinkTarget where
  | stream (s : StandardStream)
  | file (place : Place)
  | unopened
deriving DecidableEq, Repr

/-- A destination of log lines and the path it was named by. -/
structure LogSink where
  path : String
  target : SinkTarget
deriving DecidableEq, Repr

/-- The file system and the sinks open in it. -/
structure Disk where
  files : FileSystem
  openSinks : List (FilePath.Key × LogSink)

namespace Disk

def ofFiles (files : FileSystem) : Disk := ⟨files, []⟩

end Disk

namespace LogSink

/-- The streams that have names in place of paths. -/
def stream? (path : String) : Option LogSink :=
  if path = "/dev/stdout" then some ⟨path, .stream .out⟩
  else if path = "/dev/stderr" then some ⟨path, .stream .err⟩
  else none

def isStream (s : LogSink) : Bool :=
  match s.target with
  | .stream _ => true
  | _ => false

/-- Opens a file sink that is not open yet. -/
def openFile (disk : Disk) (path : String) : Except FileError (LogSink × Disk) := do
  let (place, files) ← disk.files.openAppend path
  let sink : LogSink := ⟨path, .file place⟩
  return (sink, ⟨files, disk.openSinks ++ [(FilePath.key path, sink)]⟩)

/-- Opens a sink, or finds it among those open. -/
def acquire (disk : Disk) (path : String) : Compiled LogSink × Disk :=
  match (stream? path).or (disk.openSinks.lookup (FilePath.key path)) with
  | some sink => (.ok sink, disk)
  | none =>
    match openFile disk path with
    | .ok (sink, disk) => (.ok sink, disk)
    | .error e => (.error (.invalidArguments (path ++ ": " ++ e.message)), disk)

/-- The directory that has to exist for a sink. -/
def parentOf (path : String) : String :=
  match FilePath.parent? path with
  | some p => if p.isEmpty then "." else p
  | none => "."

/-- Checks that a sink could be opened, from the kind of the path and its parent alone. -/
def check (files : FileSystem) (path : String) : Compiled LogSink :=
  match stream? path with
  | some sink => .ok sink
  | none =>
    if files.isDirectory path then .error (.invalidArguments (path ++ ": is a directory"))
    else if !files.isDirectory (parentOf path) then
      .error (.invalidArguments (parentOf path ++ ": no such directory"))
    else .ok ⟨path, .unopened⟩

def withNewline (line : String) : String := if line.endsWith "\n" then line else line ++ "\n"

/-- A line on a standard stream: the time, the level in five columns, and the text. -/
def streamLine (now : String) (level : LogLevel) (line : String) : String :=
  let name := level.name
  now ++ " " ++ name ++ String.ofList (List.replicate (5 - name.length) ' ') ++ " " ++
    withNewline line

end LogSink

end RuleGate
