import Mathlib.Data.List.Induction
import RuleGate.Proofs.Response.Draft

/-!
# Flushed drafts are well framed

A draft is edited any number of times and then flushed. What the flushed response is made of can be read off the
edits: its body is what was written since the last reset, and the values of a header are those added since it was
last replaced or removed. Whatever lengths and encodings were among them, the response has one length, that of its
body, and nothing else that frames it.
-/

namespace RuleGate

/-- Whether the headers of a response say how long its body is, once and in no other way. -/
structure Response.IsFramed (r : Response) : Prop where
  length : r.headers.getAll .contentLength = [Bytes.ofString (toString r.body.length)]
  encoding : r.headers.getAll .transferEncoding = []
  trailer : r.headers.getAll .trailer = []

/-- Whatever its headers are, a flushed draft is framed. -/
theorem ResponseDraft.isFramed_flush (d : ResponseDraft) : d.flush.IsFramed where
  length := (d.getAll_finalHeaders _).trans (if_pos rfl)
  encoding := (d.getAll_finalHeaders _).trans ((if_neg (by decide)).trans (if_pos (.inl rfl)))
  trailer := (d.getAll_finalHeaders _).trans ((if_neg (by decide)).trans (if_pos (.inr rfl)))

/-- What can be done to a draft before it is flushed. -/
inductive DraftEdit where
  | write (data : Bytes)
  | setStatus (status : Status)
  | resetBody
  | absorb (response : Response)
  | insertHeader (name : HeaderName) (value : Bytes)
  | appendHeader (name : HeaderName) (value : Bytes)
  | eraseHeader (name : HeaderName)
  | appendError (rule text : String)

namespace DraftEdit

def apply (d : ResponseDraft) : DraftEdit → ResponseDraft
  | write data => d.write data
  | setStatus status => d.setStatus status
  | resetBody => d.resetBody
  | absorb response => d.absorb response
  | insertHeader name value => d.withHeaders (·.insert name value)
  | appendHeader name value => d.withHeaders (·.append name value)
  | eraseHeader name => d.withHeaders (·.erase name)
  | appendError rule text => d.appendError rule text

def applyAll (d : ResponseDraft) (edits : List DraftEdit) : ResponseDraft := edits.foldl apply d

/-! ## What an edit says of the response -/

/-- The bytes that an edit adds to the body. -/
def bytes : DraftEdit → Bytes
  | write data => data
  | absorb response => response.body
  | _ => []

/-- Whether an edit leaves nothing of the body there was. -/
def resets : DraftEdit → Bool
  | resetBody => true
  | _ => false

/-- The values that an edit adds to a header. -/
def values (name : HeaderName) : DraftEdit → List Bytes
  | insertHeader n value | appendHeader n value => if n = name then [value] else []
  | absorb response => response.headers.getAll name
  | _ => []

/-- Whether an edit leaves nothing of the values a header had. -/
def clears (name : HeaderName) : DraftEdit → Bool
  | insertHeader n _ | eraseHeader n => n = name
  | _ => false

def status? : DraftEdit → Option Status
  | setStatus status => some status
  | absorb response => some response.status
  | _ => none

def error? : DraftEdit → Option String
  | appendError rule text => some ("rule " ++ Text.quoted rule ++ " error: " ++ text)
  | _ => none

/-- The edits from the last one on that a test holds of, or all of them if it holds of none. -/
def fromLast (p : DraftEdit → Bool) : List DraftEdit → List DraftEdit
  | [] => []
  | e :: edits => if edits.any p then fromLast p edits else e :: edits

theorem fromLast_concat (p : DraftEdit → Bool) (edits : List DraftEdit) (e : DraftEdit) :
    fromLast p (edits ++ [e]) = if p e then [e] else fromLast p edits ++ [e] := by
  induction edits with
  | nil => simp [fromLast]
  | cons first edits ih =>
    rw [List.cons_append, fromLast, fromLast, ih, List.any_append]
    by_cases hany : edits.any p = true <;> by_cases he : p e = true <;> simp [hany, he]

/-! ## One edit -/

variable (d : ResponseDraft) (e : DraftEdit) (edits : List DraftEdit)

theorem body_apply : (apply d e).body = (if resets e then [] else d.body) ++ bytes e := by
  cases e with
  | write data => exact d.body_write data
  | resetBody => exact d.body_resetBody
  | absorb response => exact d.body_absorb response
  | _ => exact (List.append_nil _).symm

theorem getAll_apply (name : HeaderName) : (apply d e).headers.getAll name =
    (if clears name e then [] else d.headers.getAll name) ++ values name e := by
  cases e with
  | insertHeader n value =>
    refine (d.headers.getAll_insert n name value).trans ?_
    by_cases hname : n = name <;> simp [clears, values, hname]
  | appendHeader n value => exact d.headers.getAll_append name n value
  | eraseHeader n =>
    refine (d.headers.getAll_erase n name).trans ?_
    by_cases hname : n = name <;> simp [clears, values, hname]
  | absorb response =>
    rw [apply, d.headers_absorb, Headers.getAll_appendAll]
    rfl
  | _ => exact (List.append_nil _).symm

theorem status?_apply : (apply d e).status? = (status? e).or d.status? := by
  cases e with
  | absorb response => exact d.status?_absorb response
  | _ => rfl

theorem errors_apply : (apply d e).errors = d.errors ++ (error? e).toList := by
  cases e with
  | appendError rule text => rfl
  | absorb response => exact (d.errors_absorb response).trans (List.append_nil _).symm
  | _ => exact (List.append_nil _).symm

/-! ## Runs -/

theorem applyAll_concat : applyAll d (edits ++ [e]) = apply (applyAll d edits) e := List.foldl_concat ..

/-- What each edit may clear and then adds to is, after a run, what was added since it was last cleared. -/
theorem gathered_applyAll {α : Type} (gathered : ResponseDraft → List α) {clear : DraftEdit → Bool}
    {added : DraftEdit → List α} (hempty : gathered .empty = [])
    (hstep : ∀ d e, gathered (apply d e) = (if clear e then [] else gathered d) ++ added e) :
    gathered (applyAll .empty edits) = (fromLast clear edits).flatMap added := by
  induction edits using List.reverseRecOn with
  | nil => exact hempty
  | append_singleton edits e ih =>
    rw [applyAll_concat, hstep, ih, fromLast_concat]
    split <;> simp

theorem body_applyAll : (applyAll .empty edits).body = (fromLast resets edits).flatMap bytes :=
  gathered_applyAll edits ResponseDraft.body rfl body_apply

theorem getAll_applyAll (name : HeaderName) :
    (applyAll .empty edits).headers.getAll name = (fromLast (clears name) edits).flatMap (values name) :=
  gathered_applyAll edits (·.headers.getAll name) rfl fun d e ↦ getAll_apply d e name

theorem status?_applyAll : (applyAll .empty edits).status? = (edits.filterMap status?).getLast? := by
  induction edits using List.reverseRecOn with
  | nil => rfl
  | append_singleton edits e ih =>
    rw [applyAll_concat, status?_apply, ih, List.filterMap_append]
    cases hstatus : status? e <;> simp [hstatus]

theorem errors_applyAll : (applyAll .empty edits).errors = edits.filterMap error? := by
  induction edits using List.reverseRecOn with
  | nil => rfl
  | append_singleton edits e ih =>
    rw [applyAll_concat, errors_apply, ih, List.filterMap_append]
    cases herror : error? e <;> simp [herror]

/-- After any edits the flushed response is framed by the length of its body alone. The body is what was written or
absorbed since the last reset, every other header has the values added since it was last replaced or removed, in their
order, the status is the last one recorded, and the errors come in the order they were recorded in. -/
theorem flushed_response_is_well_framed :
    (applyAll .empty edits).flush.IsFramed ∧
    (applyAll .empty edits).flush.body = (fromLast resets edits).flatMap bytes ∧
    (∀ name ∉ [.contentLength, .transferEncoding, .trailer], (applyAll .empty edits).flush.headers.getAll name =
      (fromLast (clears name) edits).flatMap (values name)) ∧
    (applyAll .empty edits).flush.status = (edits.filterMap status?).getLast?.getD .ok ∧
    (applyAll .empty edits).errorText? =
      if edits.filterMap error? = [] then none else some ("\n".intercalate (edits.filterMap error?)) := by
  refine ⟨ResponseDraft.isFramed_flush _, body_applyAll edits, fun name hname ↦ ?_, ?_, ?_⟩
  · exact (ResponseDraft.getAll_finalHeaders_of_kept _ hname).trans (getAll_applyAll edits name)
  · rw [← status?_applyAll]
    rfl
  · rw [ResponseDraft.errorText?, errors_applyAll]
    simp only [List.isEmpty_iff]

end DraftEdit

end RuleGate
