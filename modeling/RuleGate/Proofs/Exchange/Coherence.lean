import RuleGate.Proofs.Exchange.CookieUpdate
import RuleGate.Proofs.Exchange.PathUpdate
import RuleGate.Proofs.Exchange.QueryUpdate
import RuleGate.Proofs.Http.Header

/-!
# Coherence of the memo

Every value that is remembered of a request is the one that would be derived from it now. Reading keeps
that, since it notes what it derives, and so does each change to the request, since it drops the notes
that it makes stale. A change of the query notes the new parameters itself, which is right because
parameters are read back from a target as they were written there.
-/

namespace RuleGate

/-- What is noted is the value, if anything is noted. -/
def Agrees {α : Type} (note : Option α) (value : α) : Prop := ∀ v, note = some v → v = value

section Agrees

variable {α : Type} {note : Option α} {value : α}

theorem Agrees.getD_eq (h : Agrees note value) : note.getD value = value := by
  cases note with
  | none => rfl
  | some v => exact h v rfl

theorem agrees_none : Agrees none value := fun _ h ↦ nomatch h

theorem agrees_some {v : α} (h : v = value) : Agrees (some v) value := fun _ hv ↦ Option.some.inj hv ▸ h

end Agrees

/-- The notes of a memo agree with a request. Cookies are left out: what the gateway writes into the
header of cookies need not be what it would read from there. -/
structure Memo.AgreesWith (m : Memo) (r : Request) : Prop where
  path : Agrees m.path r.decodedPath
  query : Agrees m.query r.queryParams
  credentials : Agrees m.credentials r.credentials?
  peerIp : Agrees m.peerIp r.peerIp?
  bodyForm : Agrees m.bodyForm r.bodyParams
  form : Agrees m.form (r.bodyParams.append r.queryParams)

namespace Exchange

/-- The target of the request can be written and read again, and the memo agrees with the request. -/
structure Coherent (x : Exchange) : Prop where
  target : x.request.uri.Settled
  memo : x.memo.AgreesWith x.request

/-- The exchange with nothing remembered. -/
def forget (x : Exchange) : Exchange := x.withMemo fun _ ↦ .empty

/-- All readers give what they would give if nothing were remembered. -/
structure ReadsAfresh (x : Exchange) : Prop where
  path : x.path = x.forget.path
  query : x.query = x.forget.query
  bodyForm : x.bodyForm = x.forget.bodyForm
  form : x.form = x.forget.form
  credentials : x.credentials? = x.forget.credentials?
  peerIp : x.peerIp? = x.forget.peerIp?

namespace Coherent

variable {x : Exchange}

theorem path_eq (h : x.Coherent) : x.path = x.request.decodedPath := h.memo.path.getD_eq

theorem query_eq (h : x.Coherent) : x.query = x.request.queryParams := h.memo.query.getD_eq

theorem credentials_eq (h : x.Coherent) : x.credentials? = x.request.credentials? :=
  h.memo.credentials.getD_eq

theorem peerIp_eq (h : x.Coherent) : x.peerIp? = x.request.peerIp? := h.memo.peerIp.getD_eq

theorem bodyForm_eq (h : x.Coherent) : x.bodyForm = x.request.bodyParams := h.memo.bodyForm.getD_eq

theorem form_eq (h : x.Coherent) : x.form = x.request.bodyParams.append x.request.queryParams := by
  rw [form, h.bodyForm_eq, h.query_eq]
  exact h.memo.form.getD_eq

theorem readsAfresh (h : x.Coherent) : x.ReadsAfresh :=
  ⟨h.path_eq, h.query_eq, h.bodyForm_eq, h.form_eq, h.credentials_eq, h.peerIp_eq⟩

/-! ## Reading -/

theorem remember (h : x.Coherent) (d : Derived) : (x.remember d).Coherent := by
  cases d with
  | path => exact ⟨h.target, { h.memo with path := agrees_some h.path_eq }⟩
  | query => exact ⟨h.target, { h.memo with query := agrees_some h.query_eq }⟩
  | cookies => exact ⟨h.target, { h.memo with }⟩
  | credentials => exact ⟨h.target, { h.memo with credentials := agrees_some h.credentials_eq }⟩
  | peerIp => exact ⟨h.target, { h.memo with peerIp := agrees_some h.peerIp_eq }⟩
  | bodyForm => exact ⟨h.target, { h.memo with bodyForm := agrees_some h.bodyForm_eq }⟩
  | form =>
    unfold Exchange.remember
    dsimp only
    split
    · exact h
    · exact ⟨h.target,
        { h.memo with
          bodyForm := agrees_some h.bodyForm_eq
          query := agrees_some h.query_eq
          form := agrees_some h.form_eq }⟩

/-! ## Changes to header fields and the body -/

/-- Edits of the header fields may change all that is read from them, and drop it. -/
theorem setHeaders (h : x.Coherent) (headers : Headers) : (x.setHeaders headers).Coherent :=
  ⟨h.target,
    { path := h.memo.path
      query := h.memo.query
      credentials := agrees_none
      peerIp := h.memo.peerIp
      bodyForm := agrees_none
      form := agrees_none }⟩

theorem credentials?_congr {r r' : Request}
    (h : r'.headers.getAll .authorization = r.headers.getAll .authorization) :
    r'.credentials? = r.credentials? := by
  rw [Request.credentials?, Request.credentials?, Headers.getVisible?, Headers.getVisible?,
    Headers.get?, Headers.get?, h]

theorem bodyParams_congr {r r' : Request} (hmethod : r'.method = r.method) (hbody : r'.body = r.body)
    (h : r'.headers.getAll .contentType = r.headers.getAll .contentType) :
    r'.bodyParams = r.bodyParams := by
  have htype : r'.contentType = r.contentType := by
    rw [Request.contentType, Request.contentType, Headers.getVisible?, Headers.getVisible?,
      Headers.get?, Headers.get?, h]
  rw [Request.bodyParams, Request.bodyParams, Request.hasFormMethod, Request.hasFormMethod,
    Request.hasFormType, Request.hasFormType, hmethod, hbody, htype]

/-- A change of the body changes no other header than the declared length. -/
theorem setBody (h : x.Coherent) (body : Bytes) : (x.setBody body).Coherent := by
  refine ⟨h.target, ?_⟩
  have hcredentials : (x.setBody body).request.credentials? = x.request.credentials? :=
    credentials?_congr (Headers.getAll_insert_of_ne _ (by decide) _)
  exact
    { path := h.memo.path
      query := h.memo.query
      credentials := hcredentials ▸ h.memo.credentials
      peerIp := h.memo.peerIp
      bodyForm := agrees_none
      form := agrees_none }

/-- Cookies have a header of their own. -/
theorem withCookieHeader (h : x.Coherent) {headers : Headers} (cookies : Option (List Cookie))
    (hother : ∀ name, name ≠ .cookie → headers.getAll name = x.request.headers.getAll name) :
    ((x.withRequest fun r ↦ { r with headers := headers }).withMemo fun m ↦
      { m with cookies := cookies }).Coherent := by
  refine ⟨h.target, ?_⟩
  have hcredentials : Request.credentials? { x.request with headers := headers } =
      x.request.credentials? := credentials?_congr (hother _ (by decide))
  have hbody : Request.bodyParams { x.request with headers := headers } = x.request.bodyParams :=
    bodyParams_congr rfl rfl (hother _ (by decide))
  exact
    { path := h.memo.path
      query := h.memo.query
      credentials := hcredentials ▸ h.memo.credentials
      peerIp := h.memo.peerIp
      bodyForm := hbody ▸ h.memo.bodyForm
      form := hbody ▸ h.memo.form }

theorem updateCookies (h : x.Coherent) (f : List Cookie → List Cookie) :
    (x.updateCookies f).1.Coherent := by
  rw [updateCookies_eq]
  exact h.withCookieHeader _ fun _ hname ↦ Headers.getAll_withCookies_of_ne _ _ hname

/-! ## Changes to the target -/

theorem updateQuery (h : x.Coherent) (f : Params → Params) : (x.updateQuery f).1.Coherent := by
  rcases updateQuery_cases h.target f with hupdate | hupdate
  · rw [hupdate]
    exact h.remember .query
  · rw [hupdate]
    generalize f x.query = params
    have hpath := Uri.path_withParams h.target params
    constructor
    · exact h.target.withParams params
    · exact
        { path := fun v hv ↦ (h.memo.path v hv).trans (congrArg Percent.decodeOrSelf hpath.symm)
          query := agrees_some (x.request.uri.parse_query_withParams params).symm
          credentials := h.memo.credentials
          peerIp := h.memo.peerIp
          bodyForm := h.memo.bodyForm
          form := agrees_none }

/-- A path that is not empty can be put in place of another one; the query stays. -/
theorem setPath (h : x.Coherent) {path : String} (hpath : path ≠ "") : (x.setPath path).1.Coherent := by
  rcases setPath_cases h.target.fragment_not_mem_query path with hset | hset
  · rw [hset]
    exact h
  · rw [hset]
    constructor
    · exact Uri.settled_withDecodedPath h.target.fragment_not_mem_query hpath
    · exact
        { path := agrees_none
          query := h.memo.query
          credentials := h.memo.credentials
          peerIp := h.memo.peerIp
          bodyForm := h.memo.bodyForm
          form := h.memo.form }

end Coherent

end Exchange

end RuleGate
