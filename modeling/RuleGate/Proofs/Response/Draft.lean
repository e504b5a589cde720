import RuleGate.Proofs.Http.Header
import RuleGate.Response.Draft

/-!
# What is in a draft

What writing, resetting and taking over a response do to the body, the headers, the status and the errors of a
draft, and which values the headers have once it is flushed.
-/

namespace RuleGate.ResponseDraft

variable (d : ResponseDraft)

@[simp] theorem body_withHeaders (f : Headers → Headers) : (d.withHeaders f).body = d.body := rfl

@[simp] theorem body_setStatus (s : Status) : (d.setStatus s).body = d.body := rfl

@[simp] theorem body_resetBody : d.resetBody.body = [] := by
  unfold resetBody body
  cases d.buffer? <;> rfl

@[simp] theorem body_write (data : Bytes) : (d.write data).body = d.body ++ data := by
  unfold write writeInto body
  cases d.buffer? <;> rfl

/-! ## Taking over a response -/

theorem absorb_eq_write {r : Response} (h : r.body ≠ []) : d.absorb r = (d.absorbHead r).write r.body := by
  rw [absorb, absorbInto, if_neg (by rwa [List.isEmpty_iff])]
  rfl

theorem absorb_eq_absorbHead {r : Response} (h : r.body = []) : d.absorb r = d.absorbHead r := by
  rw [absorb, absorbInto, if_pos (by rwa [List.isEmpty_iff])]

@[simp] theorem body_absorb (r : Response) : (d.absorb r).body = d.body ++ r.body := by
  by_cases hbody : r.body = []
  · rw [d.absorb_eq_absorbHead hbody, hbody, List.append_nil]
    rfl
  · rw [d.absorb_eq_write hbody, body_write]
    rfl

@[simp] theorem headers_absorb (r : Response) : (d.absorb r).headers = d.headers.appendAll r.headers := by
  unfold absorb absorbInto
  split <;> rfl

@[simp] theorem status?_absorb (r : Response) : (d.absorb r).status? = some r.status := by
  unfold absorb absorbInto
  split <;> rfl

@[simp] theorem errors_absorb (r : Response) : (d.absorb r).errors = d.errors := by
  unfold absorb absorbInto
  split <;> rfl

/-! ## The headers of the final response -/

theorem getAll_finalHeaders (name : HeaderName) : d.finalHeaders.getAll name =
    if name = .contentLength then [lengthValue d.body.length]
    else if name = .transferEncoding ∨ name = .trailer then []
    else d.headers.getAll name := by
  rw [finalHeaders, Headers.getAll_insert, Headers.getAll_erase, Headers.getAll_erase]
  simp only [eq_comm (b := name)]
  by_cases hencoding : name = .transferEncoding
  · simp [hencoding]
  · by_cases htrailer : name = .trailer <;> simp [hencoding, htrailer]

theorem getAll_finalHeaders_of_kept {name : HeaderName}
    (hname : name ∉ [.contentLength, .transferEncoding, .trailer]) :
    d.finalHeaders.getAll name = d.headers.getAll name := by
  rw [List.mem_cons, List.mem_cons, List.mem_singleton, not_or] at hname
  rw [getAll_finalHeaders, if_neg hname.1, if_neg hname.2]

end RuleGate.ResponseDraft
