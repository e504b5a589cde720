import RuleGate.Http.Message
import RuleGate.Sink

/-!
# The world around the gateway

What handling a request may touch: the disk, the clock, the way notifications are delivered, the
network, and the journal of all effects so far. The machine may fail where the disk says that nothing is
in the way: files that cannot be looked at or read, writes that stop short, and a client for upstreams
that cannot be made.
-/

namespace RuleGate

/-- How notifications are delivered: as events of the gateway's own log, or to providers, which take
them and may then fail. -/
inductive Delivery where
  | asEvents
  | toProviders (failure : Option String)
deriving DecidableEq, Repr

/-- A write that fails: how many bytes get through before that, and what is said. -/
structure WriteFault where
  count : Nat
  message : String
deriving DecidableEq, Repr

/-- Where the machine fails. -/
structure Faults where
  /-- Looking at what a path names. -/
  stat : String → Option FileError
  /-- Reading the file that a path names. -/
  read : String → Option FileError
  /-- Writing bytes to an open sink, after the effects so far. -/
  write : List Effect → SinkTarget → Bytes → Option WriteFault
  /-- Making the client that requests to upstreams go out through. -/
  client : Option String

namespace Faults

/-- A machine that does not fail. -/
def none : Faults := ⟨fun _ => .none, fun _ => .none, fun _ _ _ => .none, .none⟩

end Faults

structure World where
  disk : Disk
  /-- The time stamp of lines on standard streams. -/
  now : String
  delivery : Delivery
  /-- Sends a request to the host its target names and reads the whole response; either can fail. -/
  network : Request → Except String Response
  faults : Faults := .none
  journal : List Effect

namespace World

def note (w : World) (e : Effect) : World := { w with journal := w.journal ++ [e] }

def noteEvent (w : World) (e : LogEvent) : World := w.note (.event e)

def noteEvents (w : World) (es : List LogEvent) : World := es.foldl noteEvent w

def count (w : World) (c : MetricCount) : World := w.note (.count c)

/-- What a path names. -/
def stat (w : World) (path : String) : Except FileError FileNode :=
  match w.faults.stat path with
  | some e => .error e
  | none => w.disk.files.stat path

/-- The content of the file that a path names. -/
def read (w : World) (path : String) : Except FileError Bytes :=
  match w.faults.read path with
  | some e => .error e
  | none => w.disk.files.read path

/-- Takes bytes that were written to an open sink. -/
def accept (w : World) (data : Bytes) : SinkTarget → World
  | .stream s => w.note (.streamText s data.toStringLossy)
  | .file place =>
    { w with disk := { w.disk with files := w.disk.files.append place data } }.note
      (.fileText place data.toStringLossy)
  | .unopened => w

/-- Writes to an open sink. What got through before a failure stays written. -/
def write (w : World) (target : SinkTarget) (data : Bytes) : Except String Unit × World :=
  match w.faults.write w.journal target data with
  | some fault => (.error fault.message, w.accept (data.take fault.count) target)
  | none => (.ok (), w.accept data target)

/-- Writes one line to a sink. -/
def writeLine (w : World) (sink : LogSink) (level : LogLevel) (line : String) :
    Except String Unit × World :=
  match sink.target with
  | .stream s => w.write (.stream s) (Bytes.ofString (LogSink.streamLine w.now level line))
  | .file place => w.write (.file place) (Bytes.ofString (LogSink.withNewline line))
  | .unopened => (.error (sink.path ++ ": sink was only checked"), w)

/-- Delivers a notification. -/
def deliver (w : World) (n : Notification) : Except String Unit × World :=
  match w.delivery with
  | .asEvents =>
    let fields := [("targets", ",".intercalate n.targets), ("title", n.title)]
    (.ok (), w.noteEvent ⟨n.level, n.body, fields⟩)
  | .toProviders failure =>
    let w := w.note (.notification n)
    match failure with
    | some text => (.error text, w)
    | none => (.ok (), w)

end World

end RuleGate
