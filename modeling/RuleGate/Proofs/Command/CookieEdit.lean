import Mathlib.Data.List.Flatten
import RuleGate.Command.Field
import RuleGate.Proofs.Command.Frame
import RuleGate.Proofs.Exchange.CookieUpdate
import RuleGate.Proofs.Sample

/-!
# Edits of cookies

An edit changes the cookies that rules see, and writes all of them into one line of the header. What rules see
is what is sent exactly if all the cookies are plain. The other cookies stand in the line in their order, unless
the new one cannot be sent: then none is. Lines that are not visible ASCII are no part of what is edited, and go
with the first edit.
-/

namespace RuleGate

namespace Cookie

/-- The cookies with other names, in order. -/
def others (name : String) (cs : List Cookie) : List Cookie := cs.filter (·.name != name)

/-- Cookies stand in header lines, in their order and maybe among further ones. -/
def StandIn (cs : List Cookie) (lines : List Bytes) : Prop :=
  cs = [] ∨ ∃ all, cs.Sublist all ∧ lines = [Bytes.ofString (encodeAll all)]

theorem not_standIn_nil {cs : List Cookie} (h : cs ≠ []) : ¬ StandIn cs [] := by
  rintro (hnil | ⟨all, -, hlines⟩)
  · exact h hnil
  · cases hlines

theorem others_set (name value : String) (cs : List Cookie) : others name (set name value cs) = others name cs := by
  induction cs with
  | nil => simp [set, others]
  | cons c cs ih =>
    rw [set]
    by_cases hname : c.name = name
    · simp [others, hname]
    · simp only [others, if_neg hname, List.filter_cons] at ih ⊢
      rw [ih]

theorem others_eraseFirst (name : String) (cs : List Cookie) :
    others name (eraseFirst name cs) = others name cs := by
  induction cs with
  | nil => rfl
  | cons c cs ih =>
    rw [eraseFirst]
    by_cases hname : c.name = name
    · simp [others, hname]
    · simp only [others, if_neg hname, List.filter_cons] at ih ⊢
      rw [ih]

theorem mem_set_self (name value : String) (cs : List Cookie) : ⟨name, value⟩ ∈ set name value cs := by
  induction cs with
  | nil => exact List.mem_singleton_self _
  | cons c cs ih =>
    rw [set]
    split
    · next hname => exact hname ▸ List.mem_cons_self
    · exact List.mem_cons_of_mem _ ih

theorem mem_of_mem_set {name value : String} {cs : List Cookie} {c : Cookie} (h : c ∈ set name value cs) :
    c ∈ cs ∨ c = ⟨name, value⟩ := by
  induction cs with
  | nil => exact .inr (List.mem_singleton.mp h)
  | cons d cs ih =>
    rw [set] at h
    split at h
    · next hname =>
      rcases List.mem_cons.mp h with rfl | hrest
      · exact .inr (hname ▸ rfl)
      · exact .inl (.tail _ hrest)
    · rcases List.mem_cons.mp h with rfl | hrest
      · exact .inl (.head _)
      · exact (ih hrest).imp_left (.tail _)

theorem mem_of_mem_eraseFirst {name : String} {cs : List Cookie} {c : Cookie} (h : c ∈ eraseFirst name cs) :
    c ∈ cs := by
  induction cs with
  | nil => exact h
  | cons d cs ih =>
    rw [eraseFirst] at h
    split at h
    · exact .tail _ h
    · rcases List.mem_cons.mp h with rfl | hrest
      · exact .head _
      · exact .tail _ (ih hrest)

end Cookie

namespace FieldCommand

variable {op : FieldOp} {key value : String} {cs : List Cookie}

/-- No edit changes the cookies with other names or their order. -/
theorem others_editCookies (op : FieldOp) (key value : String) (cs : List Cookie) :
    Cookie.others key (editCookies op key value cs) = Cookie.others key cs := by
  cases op with
  | set => exact Cookie.others_set key value cs
  | add => simp [editCookies, Cookie.others]
  | remove => exact Cookie.others_eraseFirst key cs

theorem mem_of_mem_editCookies {c : Cookie} (h : c ∈ editCookies op key value cs) :
    c ∈ cs ∨ op ≠ .remove ∧ c = ⟨key, value⟩ := by
  cases op with
  | set => exact (Cookie.mem_of_mem_set h).imp_right fun hc ↦ ⟨nofun, hc⟩
  | add =>
    rcases List.mem_append.mp h with hold | hnew
    · exact .inl hold
    · exact .inr ⟨nofun, List.mem_singleton.mp hnew⟩
  | remove => exact .inl (Cookie.mem_of_mem_eraseFirst h)

theorem mem_editCookies_self (h : op ≠ .remove) : ⟨key, value⟩ ∈ editCookies op key value cs := by
  cases op with
  | set => exact Cookie.mem_set_self key value cs
  | add => exact List.mem_append_right _ (List.mem_singleton_self _)
  | remove => exact absurd rfl h

/-- What holds of all cookies before an edit holds of all after it, if it holds of the new one. -/
theorem forall_mem_editCookies {P : Cookie → Prop} (hold : ∀ c ∈ cs, P c)
    (hnew : op = .remove ∨ P ⟨key, value⟩) : ∀ c ∈ editCookies op key value cs, P c := by
  intro c hc
  rcases mem_of_mem_editCookies hc with hmem | ⟨hop, rfl⟩
  · exact hold c hmem
  · exact hnew.resolve_left hop

end FieldCommand

/-- The text of a cookie that is read from a request is visible. -/
theorem Request.visible_of_mem_cookies {r : Request} {c : Cookie} (h : c ∈ r.cookies) : c.Visible := by
  obtain ⟨line, hline, hc⟩ := List.mem_flatMap.mp h
  obtain ⟨v, -, hv⟩ := List.mem_filterMap.mp hline
  obtain ⟨hvisible, rfl⟩ := HeaderValue.toVisible?_eq_some_iff.mp hv
  exact Cookie.all_written_of_parseLine (by decide) hvisible hc

/-! ## What rules see and what is sent -/

/-- A command that edits the cookies. -/
structure CookieEdit where
  op : FieldOp
  key : String
  value : Template

namespace CookieEdit

variable {e : CookieEdit} {s : Scene}

/-- The cookie that is set or added in a scene. -/
def cookie (e : CookieEdit) (s : Scene) : Cookie := ⟨e.key, e.value.expand s.exchange⟩

/-- What the edit makes of cookies in a scene. -/
def edit (e : CookieEdit) (s : Scene) : List Cookie → List Cookie :=
  FieldCommand.editCookies e.op e.key (e.value.expand s.exchange)

def perform (s : Scene) (e : CookieEdit) : Scene := (FieldCommand.run ⟨e.op, .cookie e.key, e.value⟩ s).2

theorem perform_exchange : (e.perform s).exchange = (s.exchange.updateCookies (e.edit s)).1 := rfl

/-- An edit is always made, and rules then see its result. -/
theorem cookies_perform : (e.perform s).exchange.cookies = e.edit s s.exchange.cookies := by
  rw [perform_exchange, Exchange.cookies_updateCookies]

theorem request_perform : (e.perform s).exchange.request =
    { s.exchange.request with
      headers := s.exchange.request.headers.withCookies (e.edit s s.exchange.cookies) } := by
  rw [perform_exchange, Exchange.request_updateCookies]

/-- What the request has after an edit is what is received of the cookies that rules see. -/
theorem request_cookies_perform :
    (e.perform s).exchange.request.cookies = Cookie.received (e.perform s).exchange.cookies := by
  rw [perform_exchange, Exchange.request_cookies_updateCookies, Exchange.cookies_updateCookies]

/-- What rules see after a run of edits is what the last one made of the cookies that they saw before it, and
what the request has is what is received of that. -/
theorem foldl_perform_concat (front : List CookieEdit) (e : CookieEdit) (s : Scene) :
    let before := front.foldl perform s
    let x := ((front ++ [e]).foldl perform s).exchange
    x.cookies = e.edit before before.exchange.cookies ∧ x.request.cookies = Cookie.received x.cookies := by
  intro before x
  have hlast : x = (e.perform before).exchange := by
    simp only [x, before, List.foldl_append, List.foldl_cons, List.foldl_nil]
  rw [hlast]
  exact ⟨cookies_perform, request_cookies_perform⟩

end CookieEdit

/-- For every request and all edits of its cookies, the cookies that rules see in the end are those that the
request to be sent on has, exactly if there was no edit or each of the cookies that they see is plain. Rules see
what the last edit made of the cookies that they saw before it, and the request has what is received of that. -/
theorem cookies_seen_are_sent_iff (r : Request) (world : World) (edits : List CookieEdit) :
    let after (es : List CookieEdit) : Scene := es.foldl CookieEdit.perform ⟨.start r, world⟩
    let x := (after edits).exchange
    (x.cookies = x.request.cookies ↔ edits = [] ∨ ∀ c ∈ x.cookies, c.IsPlain) ∧
      ∀ front e, edits = front ++ [e] →
        x.cookies = e.edit (after front) (after front).exchange.cookies ∧
          x.request.cookies = Cookie.received x.cookies := by
  intro after x
  have hlast : ∀ front e, edits = front ++ [e] →
      x.cookies = e.edit (after front) (after front).exchange.cookies ∧
        x.request.cookies = Cookie.received x.cookies := by
    rintro front e rfl
    exact CookieEdit.foldl_perform_concat front e _
  refine ⟨?_, hlast⟩
  rcases List.eq_nil_or_concat' edits with hnone | ⟨front, e, hedits⟩
  · refine iff_of_true ?_ (.inl hnone)
    simp only [x, after, hnone]
    rfl
  · have hne : edits ≠ [] := hedits ▸ List.concat_ne_nil e front
    rw [(hlast front e hedits).2, eq_comm, Cookie.received_eq_self_iff, or_iff_right hne]

/-- A value with a separator is one cookie for rules, but two for whoever receives it. -/
theorem cookie_value_splits_in_two :
    let s : Scene := ⟨.start (.plain "/"), .quiet⟩
    let s' := CookieEdit.perform s ⟨.set, "a", ⟨[.literal "1;b=2"]⟩⟩
    s'.exchange.cookies = [⟨"a", "1;b=2"⟩] ∧ s'.exchange.request.cookies = [⟨"a", "1"⟩, ⟨"b", "2"⟩] := by
  exact ⟨by decide +kernel, by decide +kernel⟩

/-! ## The other cookies -/

namespace CookieEdit

variable {e : CookieEdit} {s : Scene}

/-- The edit leaves cookies in the header that can be sent: it removes one, or the one that it writes can be
sent. -/
def LeavesSendable (e : CookieEdit) (s : Scene) : Prop := e.op = .remove ∨ (e.cookie s).Sendable

/-- What an edit does to the cookies with other names and to the rest of the request. -/
structure KeepsOthers (e : CookieEdit) (s : Scene) : Prop where
  /-- Rules see the other cookies as before. -/
  seen : Cookie.others e.key (e.perform s).exchange.cookies = Cookie.others e.key s.exchange.request.cookies
  /-- The lines with cookies have what the edit makes of the cookies that were read, and nothing else. -/
  lines : (e.perform s).exchange.request.headers.getAll .cookie =
    Cookie.sentLines (e.edit s s.exchange.request.cookies)
  /-- The other cookies stand there exactly if there are none or what the edit leaves can be sent. -/
  stand : Cookie.StandIn (Cookie.others e.key s.exchange.request.cookies)
      ((e.perform s).exchange.request.headers.getAll .cookie) ↔
    Cookie.others e.key s.exchange.request.cookies = [] ∨ e.LeavesSendable s
  /-- If it cannot, there is no line with cookies any more. -/
  lost : ¬ e.LeavesSendable s → (e.perform s).exchange.request.headers.getAll .cookie = []
  /-- Others that are plain are read again, unless what the edit wrote is not visible. -/
  received : (∀ c ∈ Cookie.others e.key s.exchange.request.cookies, c.IsPlain) →
    (e.op = .remove ∨ (e.cookie s).Visible) →
      (Cookie.others e.key s.exchange.request.cookies).Sublist (e.perform s).exchange.request.cookies
  /-- No other field of the header changes. -/
  fields : ∀ name, name ≠ .cookie →
    (e.perform s).exchange.request.headers.getAll name = s.exchange.request.headers.getAll name
  /-- Nor does anything but the header. -/
  rest : (e.perform s).exchange.request =
    { s.exchange.request with headers := (e.perform s).exchange.request.headers }

theorem others_edit (cs : List Cookie) : Cookie.others e.key (e.edit s cs) = Cookie.others e.key cs :=
  FieldCommand.others_editCookies _ _ _ _

theorem forall_mem_edit {P : Cookie → Prop} {cs : List Cookie} (hold : ∀ c ∈ cs, P c)
    (hnew : e.op = .remove ∨ P (e.cookie s)) : ∀ c ∈ e.edit s cs, P c :=
  FieldCommand.forall_mem_editCookies hold hnew

theorem others_sublist_edit (cs : List Cookie) : (Cookie.others e.key cs).Sublist (e.edit s cs) := by
  rw [← others_edit (s := s)]
  exact List.filter_sublist

theorem sentLines_edit_of_not_leavesSendable (h : ¬ e.LeavesSendable s) (cs : List Cookie) :
    Cookie.sentLines (e.edit s cs) = [] := by
  rw [LeavesSendable, not_or] at h
  exact Cookie.sentLines_of_not_sendable (FieldCommand.mem_editCookies_self h.1) h.2

theorem standIn_edit_iff {cs : List Cookie} (hold : ∀ c ∈ cs, c.Sendable) :
    Cookie.StandIn (Cookie.others e.key cs) (Cookie.sentLines (e.edit s cs)) ↔
      Cookie.others e.key cs = [] ∨ e.LeavesSendable s := by
  by_cases hnone : Cookie.others e.key cs = []
  · exact iff_of_true (.inl hnone) (.inl hnone)
  rw [or_iff_right hnone]
  constructor
  · intro hstand
    by_contra hnot
    rw [sentLines_edit_of_not_leavesSendable hnot] at hstand
    exact Cookie.not_standIn_nil hnone hstand
  · intro hnew
    have hne : e.edit s cs ≠ [] :=
      fun hnil ↦ hnone (List.sublist_nil.mp (hnil ▸ others_sublist_edit (s := s) cs))
    refine .inr ⟨e.edit s cs, others_sublist_edit cs, ?_⟩
    exact Cookie.sentLines_of_sendable hne (forall_mem_edit hold hnew)

/-- Plain cookies among visible ones are received. -/
theorem others_sublist_received {cs : List Cookie} (hold : ∀ c ∈ cs, c.Visible)
    (hplain : ∀ c ∈ Cookie.others e.key cs, c.IsPlain) (hnew : e.op = .remove ∨ (e.cookie s).Visible) :
    (Cookie.others e.key cs).Sublist (Cookie.received (e.edit s cs)) := by
  have hreread : (Cookie.others e.key cs).flatMap Cookie.reread = Cookie.others e.key cs := by
    rw [List.flatMap_congr fun c hc ↦ (hplain c hc).reread_eq, List.flatMap_singleton']
  rw [Cookie.received_eq, if_pos (forall_mem_edit hold hnew), ← hreread]
  exact (others_sublist_edit cs).flatMap _

end CookieEdit

/-- In every scene in which rules see the cookies that the request has, an edit of the cookies with a name lets
rules see the other ones as before. They stand in the header in their order exactly if there are none or if the
edit leaves cookies that can be sent; otherwise no line with cookies is left. All else of the request stays. -/
theorem cookie_edit_keeps_others (e : CookieEdit) {s : Scene}
    (hread : s.exchange.cookies = s.exchange.request.cookies) : e.KeepsOthers s := by
  have hvisible : ∀ c ∈ s.exchange.request.cookies, c.Visible := fun c hc ↦ Request.visible_of_mem_cookies hc
  have hsendable : ∀ c ∈ s.exchange.request.cookies, c.Sendable := fun c hc ↦ (hvisible c hc).sendable
  have hlines : (e.perform s).exchange.request.headers.getAll .cookie =
      Cookie.sentLines (e.edit s s.exchange.request.cookies) := by
    rw [CookieEdit.request_perform, hread, Headers.getAll_withCookies_self]
  constructor
  · rw [CookieEdit.cookies_perform, hread, CookieEdit.others_edit]
  · exact hlines
  · rw [hlines]
    exact CookieEdit.standIn_edit_iff hsendable
  · intro hnot
    rw [hlines, CookieEdit.sentLines_edit_of_not_leavesSendable hnot]
  · intro hplain hnew
    rw [CookieEdit.request_cookies_perform, CookieEdit.cookies_perform, hread]
    exact CookieEdit.others_sublist_received hvisible hplain hnew
  · intro name hne
    rw [CookieEdit.request_perform, Headers.getAll_withCookies_of_ne _ _ hne]
  · rw [CookieEdit.request_perform]

/-- A request for a path with one line of cookies. -/
def Request.carrying (path line : String) : Request :=
  { Request.plain path with headers := ⟨[(.cookie, Bytes.ofString line)]⟩ }

/-- Notes the path of the request in a cookie. -/
def CookieEdit.lastPath : CookieEdit := ⟨.set, "last", ⟨[.static .requestPath]⟩⟩

theorem cookie_edit_notes_path :
    let s : Scene := ⟨.start (.carrying "/a" "last=0; session=1"), .quiet⟩
    let s' := CookieEdit.lastPath.perform s
    CookieEdit.lastPath.KeepsOthers s ∧ s'.exchange.request = .carrying "/a" "last=/a; session=1" := by
  refine ⟨?_, by decide +kernel⟩
  exact cookie_edit_keeps_others CookieEdit.lastPath (by decide +kernel)

/-- A path with a line end cannot be noted, and the session is lost with it. A line that is not visible ASCII is
lost even if the path can be noted. -/
theorem cookie_edit_loses_others :
    let s : Scene := ⟨.start (.carrying "/a%0Ab" "session=1"), .quiet⟩
    let t : Scene := ⟨.start (.carrying "/a" "session=\u00e9"), .quiet⟩
    s.exchange.request.cookies = [⟨"session", "1"⟩] ∧
      (CookieEdit.lastPath.perform s).exchange.request = .plain "/a%0Ab" ∧
      (CookieEdit.lastPath.perform t).exchange.request = .carrying "/a" "last=/a" := by
  exact ⟨by decide +kernel, by decide +kernel, by decide +kernel⟩

end RuleGate
