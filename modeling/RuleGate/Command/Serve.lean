import RuleGate.Arguments
import RuleGate.Files.Date
import RuleGate.Response.ErrorPage
import RuleGate.Scene

/-!
# Static files

Serving files from below a directory. The path of the request is cleaned as a rooted path before it is
appended, so it never leaves the directory. A directory stands for its index page. A file that is not there
and one that may not be looked at have pages that say so; any other obstacle is an error of the command.
-/

namespace RuleGate

structure ServeCommand where
  root : String
deriving DecidableEq, Repr

namespace ServeCommand

def compile (files : FileSystem) (args : List String) : Compiled ServeCommand := do
  return ⟨← Arguments.existingPath files args⟩

/-- The request path below the root, without a slash in front. -/
def relative (path : String) : String :=
  String.ofList ((UrlPath.cleanChars ('/' :: path.toList)).dropWhile (· == '/'))

/-- The file that a request path stands for. -/
def resolve (c : ServeCommand) (path : String) : String := FilePath.join c.root (relative path)

def indexName : String := "index.html"

/-- Content types by extension in lower case. This is a small part of the public registry of types, and
stands for all of it: a file with another extension is sent as bytes of no known type. -/
def contentTypes : List (String × String) := [
  ("html", "text/html"), ("css", "text/css"), ("txt", "text/plain"), ("json", "application/json"),
  ("png", "image/png"), ("js", "text/javascript"), ("gz", "application/gzip")]

def contentType (path : String) : String :=
  let extension := (FilePath.extension? path).getD ""
  (contentTypes.lookup (String.ofList (Text.toAsciiLower extension.toList))).getD
    "application/octet-stream"

/-- What is found for a path: the file to send and its time, or a page that says why there is none. -/
inductive Found where
  | file (path : String) (modified : Int)
  | page (status : Status)

/-- What a path that cannot be looked at stands for. -/
def foundNothing : FileError → Except FileError Found
  | .notFound => .ok (.page .notFound)
  | .permissionDenied => .ok (.page .forbidden)
  | e => .error e

/-- Looks a path up. -/
def find (w : World) (path : String) : Except FileError Found :=
  match w.stat path with
  | .error e => foundNothing e
  | .ok (.file _ modified) => .ok (.file path modified)
  | .ok .directory =>
    let index := FilePath.join path indexName
    match w.stat index with
    | .error e => foundNothing e
    | .ok (.file _ modified) => .ok (.file index modified)
    | .ok .directory => .ok (.page .notFound)

/-- The page that says why there is no file. -/
def writePage (status : Status) (d : ResponseDraft) : ResponseDraft :=
  let d := (d.resetBody.setStatus status).withHeaders ErrorPage.setHeaders
  d.write (ErrorPage.body ((status.reason?).getD ""))

/-- The response with a file; `HEAD` gets no body. -/
def respond (method path : String) (content : Bytes) (modified : Int) (d : ResponseDraft) :
    ResponseDraft :=
  let d := (d.resetBody.setStatus .ok).withHeaders fun h =>
    (h.insert .contentType (Bytes.ofString (contentType path))).insert .lastModified
      (Bytes.ofString (CalendarDate.headerText modified))
  if method = "HEAD" then d else d.write content

/-- Answers with what is found. A file is read before the draft is touched. -/
def answer (s : Scene) : Found → Scene.Result
  | .page status => (.ok (), s.withDraft (writePage status))
  | .file path modified =>
    match s.world.read path with
    | .error e => (.error (.io e.message), s)
    | .ok content => (.ok (), s.withDraft (respond s.exchange.request.method path content modified))

def run (c : ServeCommand) (s : Scene) : Scene.Result :=
  match find s.world (c.resolve s.exchange.path) with
  | .error e => (.error (.io e.message), s)
  | .ok found => answer s found

end ServeCommand

end RuleGate
