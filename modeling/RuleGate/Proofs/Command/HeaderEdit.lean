import RuleGate.Proofs.Command.Block
import RuleGate.Proofs.Http.Header

/-!
# What commands record for the response

A command that neither ends its rule nor waits for the response may leave header fields for the response
to come, and nothing else: no status and no body. So a block of such commands that lets the request
through makes of the draft what its edits of response headers make of it.
-/

namespace RuleGate

/-- A change to the values of one header. -/
inductive HeaderEdit where
  | set (name : HeaderName) (value : Bytes)
  | add (name : HeaderName) (value : Bytes)
  | remove (name : HeaderName)

namespace HeaderEdit

/-- The values of a header after an edit. -/
def valuesAfter (name : HeaderName) (values : List Bytes) : HeaderEdit → List Bytes
  | set edited value => if edited = name then [value] else values
  | add edited value => if edited = name then values ++ [value] else values
  | remove edited => if edited = name then [] else values

/-- The values of a header that edits leave where there have been none. -/
def valuesOf (name : HeaderName) (edits : List HeaderEdit) : List Bytes :=
  edits.foldl (valuesAfter name) []

end HeaderEdit

namespace Command

/-- The edit of a response header that a command makes in an exchange. A value that no header can hold
makes none. -/
def headerEdit? (x : Exchange) : Command → Option HeaderEdit
  | field ⟨.set, .responseHeader name, value⟩ =>
    (HeaderValue.ofString? (value.expand x)).map (.set name)
  | field ⟨.add, .responseHeader name, value⟩ =>
    (HeaderValue.ofString? (value.expand x)).map (.add name)
  | field ⟨.remove, .responseHeader name, _⟩ => some (.remove name)
  | _ => none

end Command

/-- The edits of response headers among commands, each made in the scene that its command runs in. -/
def HeaderEdit.ofStages (stages : List (Scene × Command)) : List HeaderEdit :=
  stages.flatMap fun (s, c) ↦ (c.headerEdit? s.exchange).toList

/-! ## Drafts with edited headers -/

/-- The second draft is the first after edits of its headers. The body has not been written to. -/
structure ResponseDraft.EditedBy (d d' : ResponseDraft) (edits : List HeaderEdit) : Prop where
  status : d'.status? = d.status?
  buffer : d'.buffer? = d.buffer?
  headers : ∀ name,
    d'.headers.getAll name = edits.foldl (HeaderEdit.valuesAfter name) (d.headers.getAll name)

namespace ResponseDraft.EditedBy

variable {d d' d'' : ResponseDraft} {edits edits' : List HeaderEdit}

theorem refl (d : ResponseDraft) : d.EditedBy d [] := ⟨rfl, rfl, fun _ ↦ rfl⟩

theorem trans (h : d.EditedBy d' edits) (h' : d'.EditedBy d'' edits') :
    d.EditedBy d'' (edits ++ edits') where
  status := h'.status.trans h.status
  buffer := h'.buffer.trans h.buffer
  headers name := by rw [List.foldl_append, ← h.headers, h'.headers]

end ResponseDraft.EditedBy

/-! ## Commands that let the next one run -/

theorem FieldCommand.getAll_of_editHeaders {op : FieldOp} {name : HeaderName} {value : Template}
    {x : Exchange} {h h' : Headers} (hok : editHeaders op name (value.expand x) h = .ok h')
    (other : HeaderName) :
    h'.getAll other =
      (Command.headerEdit? x (.field ⟨op, .responseHeader name, value⟩)).toList.foldl
        (HeaderEdit.valuesAfter other) (h.getAll other) := by
  cases op with
  | remove =>
    cases hok
    exact h.getAll_erase name other
  | set =>
    simp only [editHeaders] at hok
    split at hok
    · cases hok
    · next v hvalid =>
      cases hok
      simp only [Command.headerEdit?, hvalid]
      exact h.getAll_insert name other v
  | add =>
    simp only [editHeaders] at hok
    split at hok
    · cases hok
    · next v hvalid =>
      cases hok
      by_cases hname : name = other
      · simp [Command.headerEdit?, hvalid, Headers.getAll_append, HeaderEdit.valuesAfter, hname]
      · simp [Command.headerEdit?, hvalid, Headers.getAll_append, HeaderEdit.valuesAfter, hname]

namespace Command

variable {c : Command} {commands : List Command} {s s' : Scene} {o : Outcome}

theorem run_editedBy (hkind : c.kind = .nonTerminating) (hrun : c.run s = (.ok (), s')) :
    s.exchange.draft.EditedBy s'.exchange.draft (c.headerEdit? s.exchange).toList := by
  have hs' : s' = (c.run s).2 := by rw [hrun]
  -- A command that changes the request leaves the draft alone, and of the others only those on response
  -- headers neither end their rule nor wait for the response.
  cases hrequest : c.editsRequest with
  | true =>
    have hedit : c.headerEdit? s.exchange = none := by
      cases c with
      | field c =>
        obtain ⟨op, target, value⟩ := c
        cases target with
        | responseHeader name => cases hrequest
        | _ => cases op <;> rfl
      | _ => rfl
    rw [hs', hedit, (run_onlyRequestChanged hrequest s).draft]
    exact .refl _
  | false =>
    cases c with
    | rewrite source replacement => cases hrequest
    | field c =>
      obtain ⟨op, target, value⟩ := c
      cases target with
      | responseHeader name =>
        simp only [run, FieldCommand.run] at hrun
        split at hrun
        · next h hok =>
          cases hrun
          exact ⟨rfl, rfl, FieldCommand.getAll_of_editHeaders hok⟩
        · cases hrun
      | responseBody => cases hkind
      | statusCode code => cases hkind
      | _ => cases hrequest
    | _ => cases hkind

/-- Commands that let the upstream be called, and do not wait for its response, leave the draft as their
edits of response headers make it. -/
theorem runAll_editedBy (hkinds : ∀ c ∈ commands, c.kind ≠ .onResponse)
    (hrun : runAll s commands = (.ok o, s')) (ho : o ≠ .terminated) :
    s.exchange.draft.EditedBy s'.exchange.draft (HeaderEdit.ofStages (stages s commands)) := by
  induction commands generalizing s with
  | nil =>
    cases hrun
    exact .refl _
  | cons c rest ih =>
    rw [List.forall_mem_cons] at hkinds
    cases firstStep s c rest with
    | handsOn hkind hall =>
      rw [hall] at hrun
      cases hrun
      simp only [stages, hkind]
      exact .refl _
    | fails _ _ hall =>
      rw [hall] at hrun
      cases hrun
    | ends _ _ hall =>
      rw [hall] at hrun
      cases hrun
      exact absurd rfl ho
    | goesOn hends hok hall =>
      rw [hall] at hrun
      have hkind := (kind_of_not_endsRule hends).resolve_right hkinds.1
      have hfirst := run_editedBy hkind hok
      have hrest := ih hkinds.2 hrun
      rw [stages_cons hends, hok]
      exact hfirst.trans hrest

end Command

end RuleGate
