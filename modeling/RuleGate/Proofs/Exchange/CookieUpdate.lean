import RuleGate.Exchange.Update
import RuleGate.Proofs.Cookie

/-!
# Cookies in the header fields

What a change of the cookies makes of the header fields: all lines with cookies go, and one line with the new
ones comes in their place. There is no such line if no cookies are left, and none if no value of a header can
hold their text. Readers give the new cookies in any case. So they give what was sent exactly if each of the
new cookies is plain.
-/

namespace RuleGate

namespace Cookie

/-- The header lines that cookies are sent in. -/
def sentLines (cs : List Cookie) : List Bytes :=
  if cs.isEmpty then [] else (HeaderValue.ofString? (encodeAll cs)).toList

/-- What is read from the lines that cookies are sent in. -/
def received (cs : List Cookie) : List Cookie :=
  parseAll ((sentLines cs).filterMap HeaderValue.toVisible?)

variable {cs : List Cookie}

theorem ofString?_encodeAll_eq_some_iff {v : Bytes} :
    HeaderValue.ofString? (encodeAll cs) = some v ↔
      (∀ c ∈ cs, c.Sendable) ∧ v = Bytes.ofString (encodeAll cs) := by
  have hall := all_encodeAll (p := HeaderValue.isValueByte) (by decide) (by decide) cs
  rw [HeaderValue.ofString?, HeaderValue.ofBytes?]
  by_cases hsendable : ∀ c ∈ cs, c.Sendable
  · rw [if_pos (hall.mpr hsendable), Option.some.injEq, and_iff_right hsendable]
    exact eq_comm
  · rw [if_neg (mt hall.mp hsendable)]
    simp [hsendable]

theorem sentLines_of_sendable (hne : cs ≠ []) (h : ∀ c ∈ cs, c.Sendable) :
    sentLines cs = [Bytes.ofString (encodeAll cs)] := by
  rw [sentLines, if_neg (mt List.isEmpty_iff.mp hne), ofString?_encodeAll_eq_some_iff.mpr ⟨h, rfl⟩]
  rfl

/-- One cookie that cannot be sent keeps all from being sent. -/
theorem sentLines_of_not_sendable {c : Cookie} (hc : c ∈ cs) (h : ¬ c.Sendable) : sentLines cs = [] := by
  unfold sentLines
  split
  · rfl
  · cases hvalue : HeaderValue.ofString? (encodeAll cs) with
    | none => rfl
    | some v => exact absurd ((ofString?_encodeAll_eq_some_iff.mp hvalue).1 c hc) h

/-- What is received is what each cookie is read as alone, or nothing if their text is not visible. -/
theorem received_eq (cs : List Cookie) :
    received cs = if ∀ c ∈ cs, c.Visible then cs.flatMap reread else [] := by
  have hall := all_encodeAll (p := HeaderValue.isVisibleAscii) (by decide) (by decide) cs
  by_cases hne : cs = []
  · rw [hne]
    rfl
  · split
    · next hvisible =>
      have hsendable : ∀ c ∈ cs, c.Sendable := fun c hc ↦ (hvisible c hc).sendable
      have htext : HeaderValue.toVisible? (Bytes.ofString (encodeAll cs)) = some (encodeAll cs) :=
        HeaderValue.toVisible?_eq_some_iff.mpr ⟨hall.mpr hvisible, rfl⟩
      rw [received, sentLines_of_sendable hne hsendable, ← parseLine_encodeAll, List.filterMap_cons, htext]
      exact List.flatMap_singleton _ _
    · next hvisible =>
      have hnone : HeaderValue.toVisible? (Bytes.ofString (encodeAll cs)) = none := by
        rw [HeaderValue.toVisible?, if_neg (mt hall.mp hvisible)]
      by_cases hsendable : ∀ c ∈ cs, c.Sendable
      · rw [received, sentLines_of_sendable hne hsendable, List.filterMap_cons, hnone]
        rfl
      · push Not at hsendable
        obtain ⟨c, hc, hbad⟩ := hsendable
        rw [received, sentLines_of_not_sendable hc hbad]
        rfl

/-- Exactly plain cookies are received as they were sent. -/
theorem received_eq_self_iff : received cs = cs ↔ ∀ c ∈ cs, c.IsPlain := by
  rw [received_eq]
  constructor
  · intro hsame
    split at hsame
    · next hvisible =>
      rw [← parseLine_encodeAll, parseLine_encodeAll_eq_self_iff] at hsame
      exact fun c hc ↦ isPlain_of_reread (hsame c hc) (hvisible c hc)
    · rw [← hsame]
      exact List.forall_mem_nil _
  · intro hplain
    rw [if_pos fun c hc ↦ (hplain c hc).visible, ← parseLine_encodeAll, parseLine_encodeAll_eq_self_iff]
    exact fun c hc ↦ (hplain c hc).reread_eq

end Cookie

/-- The header fields with cookies in place of those that were there. -/
def Headers.withCookies (h : Headers) (cs : List Cookie) : Headers :=
  (h.erase .cookie).appendAll ⟨(Cookie.sentLines cs).map fun line ↦ (.cookie, line)⟩

namespace Headers

variable (h : Headers) (cs : List Cookie)

theorem getAll_withCookies_self : (h.withCookies cs).getAll .cookie = Cookie.sentLines cs := by
  rw [withCookies, getAll_appendAll, getAll_erase_self, List.nil_append, getAll, List.filterMap_map]
  simp

theorem getAll_withCookies_of_ne {name : HeaderName} (hne : name ≠ .cookie) :
    (h.withCookies cs).getAll name = h.getAll name := by
  have hnone : (⟨(Cookie.sentLines cs).map fun line ↦ (.cookie, line)⟩ : Headers).getAll name = [] := by
    simp [getAll, List.filterMap_map, hne.symm]
  rw [withCookies, getAll_appendAll, getAll_erase_of_ne h hne, hnone, List.append_nil]

end Headers

namespace Exchange

variable (x : Exchange) (f : List Cookie → List Cookie)

theorem updateCookies_eq : (x.updateCookies f).1 =
    (x.withRequest fun r ↦ { r with headers := r.headers.withCookies (f x.cookies) }).withMemo fun m ↦
      { m with cookies := some (f x.cookies) } := by
  unfold updateCookies Headers.withCookies Cookie.sentLines withRequest
  dsimp only
  generalize f x.cookies = cs
  split
  · simp [Headers.appendAll]
  · cases HeaderValue.ofString? (Cookie.encodeAll cs) with
    | none => simp [Headers.appendAll]
    | some v => simp [Headers.appendAll, Headers.insert, Headers.append, Headers.erase]

theorem cookies_updateCookies : (x.updateCookies f).1.cookies = f x.cookies := by
  rw [updateCookies_eq]
  rfl

theorem request_updateCookies : (x.updateCookies f).1.request =
    { x.request with headers := x.request.headers.withCookies (f x.cookies) } := by
  rw [updateCookies_eq]
  rfl

/-- What the request has after a change is what is received of the new cookies. -/
theorem request_cookies_updateCookies :
    (x.updateCookies f).1.request.cookies = Cookie.received (f x.cookies) := by
  rw [request_updateCookies, Request.cookies, Request.cookieLines, Headers.getAll_withCookies_self]
  rfl

end Exchange

end RuleGate
