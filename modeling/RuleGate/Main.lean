import RuleGate.CommandLine.GatewayProgram
import RuleGate.CommandLine.LintProgram

/-!
# Running the programs

The part that touches the machine: it takes a picture of the variables and of the files below the
current directory, hands it to the linter or to the gateway, and prints what they report. The linter is
meant if the first word is `lint`.
-/

namespace RuleGate.Main

/-- How many directories deep the picture of the files goes. -/
def depth : Nat := 8

/-- The node of an entry of a directory and, to a depth, those below it. Entries that cannot be read are
left out. -/
def nodesAt : Nat → Place → IO.FS.DirEntry → IO (List (Place × FileNode))
  | 0, _, _ => return []
  | n + 1, place, entry => do
    let here := place ++ [entry.fileName.toList]
    try
      if ← entry.path.isDir then
        let below ← (← entry.path.readDir).toList.mapM (nodesAt n here)
        return (here, .directory) :: below.flatten
      else
        let modified := (← entry.path.metadata).modified.sec
        let content ← IO.FS.readBinFile entry.path
        return [(here, .file content.toList (FileSystem.recordedTime modified))]
    catch _ => return []

/-- The directories that lead to a place. -/
def ancestors : Place → List Place
  | [] => []
  | c :: r => [c] :: (ancestors r).map (c :: ·)

/-- The files below the current directory. -/
def readFiles : IO FileSystem := do
  let base ← IO.currentDir
  let place := (base.components.filter (!·.isEmpty)).map String.toList
  let nodes ← (← base.readDir).toList.mapM (nodesAt depth place)
  return ⟨(ancestors place).map (fun p => (p, .directory)) ++ nodes.flatten, place⟩

/-- The variables in a block of settings, each ended by a NUL. -/
def definitions (block : Bytes) : List (String × String) :=
  (Text.splitOn '\x00' block.toStringLossy.toList).filterMap fun line =>
    (Text.cut? '=' line).map fun (name, value) => (String.ofList name, String.ofList value)

/-- The variables of the process, or none where the machine does not show them. -/
def readEnvironment : IO Environment := do
  try
    let block ← IO.FS.readBinFile "/proc/self/environ"
    let known := definitions block.toList
    return fun name => known.lookup name
  catch _ => return fun _ => none

/-- Prints what a program wrote and gives its exit code. -/
def finish (r : CommandLine.ExitReport) : IO UInt32 := do
  IO.print r.out
  IO.eprint r.err
  return UInt32.ofNat r.code

/-- The report on a gateway that is ready. -/
def ready (g : Gateway) : CommandLine.ExitReport :=
  .success ("ready to listen on " ++ g.address.text ++ " with " ++ toString g.rules.length ++ " rules\n")

/-- Runs the program that the words ask for. -/
def run (words : List String) : IO UInt32 := do
  let env ← readEnvironment
  let files ← readFiles
  match words with
  | "lint" :: words => finish (CommandLine.LintProgram.run env files words)
  | words =>
    match (CommandLine.GatewayProgram.start env (.ofFiles files) words).1 with
    | .error report => finish report
    | .ok gateway => finish (ready gateway)

end RuleGate.Main

def main (words : List String) : IO UInt32 := RuleGate.Main.run words
