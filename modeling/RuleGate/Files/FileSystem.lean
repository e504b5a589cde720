import RuleGate.Files.Path
import RuleGate.Text.Utf8

/-!
# Files and directories

A tree of directories and files with their modification times, and the walk that finds what a path
names. The walk reports the first obstacle it meets.
-/

namespace RuleGate

/-- Why a path cannot be used. -/
inductive FileError where
  | notFound
  | notDirectory
  | isDirectory
  | nameTooLong
  | nulByte
  | notUtf8
  | permissionDenied
  /-- Any other obstacle, such as a device that fails. -/
  | other (text : String)
deriving DecidableEq, Repr

namespace FileError

def message : FileError → String
  | notFound => "No such file or directory (os error 2)"
  | notDirectory => "Not a directory (os error 20)"
  | isDirectory => "Is a directory (os error 21)"
  | nameTooLong => "File name too long (os error 36)"
  | nulByte => "file name contained an unexpected NUL byte"
  | notUtf8 => "stream did not contain valid UTF-8"
  | permissionDenied => "Permission denied (os error 13)"
  | other text => text

end FileError

/-- What a name stands for. Times are seconds since 1970. -/
inductive FileNode where
  | directory
  | file (content : Bytes) (modified : Int)
deriving DecidableEq, Repr

/-- The place of a node: the names that lead from the root to it. -/
abbrev Place := List (List Char)

/-- Every node by its place, and the directory that relative paths start from. The root always is a
directory. -/
structure FileSystem where
  nodes : List (Place × FileNode)
  current : Place

namespace FileSystem

/-- The first and the last modification time that can be recorded. -/
def timeBounds : Int × Int := (-2147483648, 15032385535)

def recordedTime (t : Int) : Int := max timeBounds.1 (min timeBounds.2 t)

def nodeAt? (fs : FileSystem) (p : Place) : Option FileNode :=
  if p.isEmpty then some .directory else fs.nodes.lookup p

/-- The longest name of a file, in bytes. -/
def maxName : Nat := 255

/-- The longest path, in bytes. -/
def maxPath : Nat := 4095

/-- The place that one component leads to from a place. -/
def enter (fs : FileSystem) (place : Place) (component : List Char) : Except FileError Place :=
  match fs.nodeAt? place with
  | none => .error .notFound
  | some (.file _ _) => .error .notDirectory
  | some .directory =>
    if component = [] ∨ component = ['.'] then .ok place
    else if component = ['.', '.'] then .ok place.dropLast
    else if maxName < (Text.utf8Encode component).length then .error .nameTooLong
    else .ok (place ++ [component])

/-- What is wrong with the text of a path, whatever it names. -/
def textError? (s : List Char) : Option FileError :=
  if s.contains '\x00' then some .nulByte
  else if s.isEmpty then some .notFound
  else if maxPath < (Text.utf8Encode s).length then some .nameTooLong
  else none

/-- The place that a path leads to, whether or not there is a node at it. All that precedes the last
component exists and is a directory. -/
def locate (fs : FileSystem) (path : String) : Except FileError Place :=
  let s := path.toList
  match textError? s with
  | some e => .error e
  | none =>
    let (origin, rest) := if FilePath.isAbsolute s then ([], s.drop 1) else (fs.current, s)
    (FilePath.rawComponents rest).foldlM fs.enter origin

/-- The node that a path names. -/
def stat (fs : FileSystem) (path : String) : Except FileError FileNode := do
  match fs.nodeAt? (← fs.locate path) with
  | some n => .ok n
  | none => .error .notFound

def isDirectory (fs : FileSystem) (path : String) : Bool :=
  match fs.stat path with
  | .ok .directory => true
  | _ => false

def isFile (fs : FileSystem) (path : String) : Bool :=
  match fs.stat path with
  | .ok (.file _ _) => true
  | _ => false

/-- The content of a file. -/
def read (fs : FileSystem) (path : String) : Except FileError Bytes := do
  match ← fs.stat path with
  | .file content _ => .ok content
  | .directory => .error .isDirectory

/-- The content of a file that is UTF-8. -/
def readText (fs : FileSystem) (path : String) : Except FileError String := do
  match (← fs.read path).toString? with
  | some text => .ok text
  | none => .error .notUtf8

/-- Puts a node at a place. -/
def put (fs : FileSystem) (p : Place) (n : FileNode) : FileSystem :=
  if (fs.nodes.lookup p).isSome then
    { fs with nodes := fs.nodes.map fun (q, m) => if q = p then (q, n) else (q, m) }
  else { fs with nodes := fs.nodes ++ [(p, n)] }

/-- The tree with directories at a place and below it, where there is nothing yet. -/
def withDirectories (fs : FileSystem) (place : Place) : List (List Char) → FileSystem
  | [] => fs
  | c :: r =>
    let next := place ++ [c]
    let fs := if (fs.nodeAt? next).isSome then fs else fs.put next .directory
    withDirectories fs next r

/-- The tree with a file below the current directory, and the directories that lead to it; a path that
ends in a slash gives a directory. -/
def withPath (fs : FileSystem) (modified : Int) (path : String) (content : Bytes) : FileSystem :=
  let names := (Text.splitOn '/' path.toList).filter fun c => !c.isEmpty && c != ['.']
  if path.endsWith "/" then fs.withDirectories fs.current names
  else (fs.withDirectories fs.current names.dropLast).put (fs.current ++ names)
    (.file content (recordedTime modified))

/-- The part of a path up to the slash before its last name. -/
def front (s : List Char) : List Char :=
  ((s.reverse.dropWhile (· == '/')).dropWhile (· != '/')).reverse

/-- Opens a file for appending, creating an empty one if there is none. A path that ends in a slash
names no file, whatever there is; only the way to its last name has to exist. -/
def openAppend (fs : FileSystem) (path : String) : Except FileError (Place × FileSystem) := do
  let s := path.toList
  if s.getLast? = some '/' then
    if let some e := textError? s then throw e
    if !(front s).isEmpty then
      let _ ← fs.stat (String.ofList (front s))
    throw .isDirectory
  let place ← fs.locate path
  match fs.nodeAt? place with
  | some .directory => throw .isDirectory
  | some (.file _ _) => return (place, fs)
  | none => return (place, fs.put place (.file [] 0))

/-- Appends to the file at a place. -/
def append (fs : FileSystem) (p : Place) (data : Bytes) : FileSystem :=
  match fs.nodeAt? p with
  | some (.file content modified) => fs.put p (.file (content ++ data) modified)
  | _ => fs

/-- The names in a directory. -/
def list (fs : FileSystem) (path : String) : Except FileError (List String) := do
  let p ← fs.locate path
  match fs.nodeAt? p with
  | none => .error .notFound
  | some (.file _ _) => .error .notDirectory
  | some .directory =>
    .ok (fs.nodes.filterMap fun (q, _) =>
      match q.getLast? with
      | some name => if q.dropLast = p then some (String.ofList name) else none
      | none => none)

end FileSystem

end RuleGate
