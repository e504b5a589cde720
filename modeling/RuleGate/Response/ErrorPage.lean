import RuleGate.Response.Draft

/-!
# Error pages

Plain-text error responses: a message and a line feed, with a content type that browsers must not
second-guess.
-/

namespace RuleGate.ErrorPage

def body (message : String) : Bytes := Bytes.ofString (message ++ "\n")

/-- Sets the headers that every error page carries. -/
def setHeaders (h : Headers) : Headers :=
  (h.insert .contentType (Bytes.ofString "text/plain; charset=utf-8")).insert .contentTypeOptions
    (Bytes.ofString "nosniff")

/-- A response on its own. The message is the reason phrase of the status unless one is given, and
`extra` overrides the headers of the page. -/
def response (status : Status) (message : Option String) (extra : Headers) : Response :=
  ⟨status, (setHeaders .empty).override extra,
    body (message.getD ((status.reason?).getD "")), none⟩

/-- An error page with the reason phrase of its status. -/
def ofStatus (status : Status) : Response := response status none .empty

/-- Sets an extra header; a name or a value that no header can have is left out. -/
def addHeader (h : Headers) (name value : String) : Headers :=
  match HeaderName.parse? name, HeaderValue.ofString? value with
  | some n, some v => h.insert n v
  | _, _ => h

/-- Makes a draft an error page; what it had as body and as length goes. -/
def write (d : ResponseDraft) (status : Status) (message : String) : ResponseDraft :=
  let d := (d.resetBody.withHeaders (·.erase .contentLength)).withHeaders setHeaders
  (d.setStatus status).write (body message)

end RuleGate.ErrorPage
