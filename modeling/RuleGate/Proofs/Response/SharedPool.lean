import Mathlib.Data.List.Perm.Basic
import RuleGate.Response.SharedPool

/-!
# Drafts that share a pool do not notice each other

However the steps of drafts over one pool are mixed, each draft flushes what it would flush with buffers of
its own. That rests on what the pool keeps: its buffers are empty, so whatever is lent is empty too. The books
balance at all times: each loan was returned once, or one draft holds it.
-/

namespace RuleGate

/-! ## The pool -/

/-- The pool has its limit, keeps to it, and keeps only empty buffers of limited capacity. -/
structure BufferPool.Stocked (limit : Nat) (p : BufferPool) : Prop where
  limit_eq : p.limit = limit
  length_le : p.buffers.length ≤ limit
  content_eq : ∀ b ∈ p.buffers, b.content = []
  capacity_le : ∀ b ∈ p.buffers, b.capacity ≤ maxCapacity

namespace BufferPool.Stocked

variable {limit : Nat} {p : BufferPool}

theorem of_empty? (h : empty? limit = some p) : p.Stocked limit := by
  unfold empty? at h
  split at h
  · cases h
  · cases h
    exact ⟨rfl, Nat.zero_le _, List.forall_mem_nil _, List.forall_mem_nil _⟩

/-- What is acquired is empty, whether it was made or taken out. -/
theorem acquire_content (h : p.Stocked limit) : p.acquire.1.content = [] := by
  unfold acquire
  split
  · rfl
  · next b r hbuffers => exact h.content_eq b (by rw [hbuffers]; exact List.mem_cons_self)

theorem acquire (h : p.Stocked limit) : p.acquire.2.Stocked limit := by
  unfold BufferPool.acquire
  split
  · exact h
  · next b r hbuffers =>
    obtain ⟨hlimit, hlength, hcontent, hcapacity⟩ := h
    rw [hbuffers, List.length_cons] at hlength
    rw [hbuffers, List.forall_mem_cons] at hcontent hcapacity
    exact ⟨hlimit, by dsimp only; omega, hcontent.2, hcapacity.2⟩

/-- Whatever is released, only an empty buffer of limited capacity is kept of it. -/
theorem release (h : p.Stocked limit) (b : Buffer) : (p.release b).Stocked limit := by
  unfold BufferPool.release
  split
  · exact h
  · next hkept =>
    rw [not_or, Nat.not_lt, Nat.not_le] at hkept
    obtain ⟨hcapacity, hroom⟩ := hkept
    obtain ⟨hlimit, -, hcontents, hcapacities⟩ := h
    refine ⟨hlimit, ?_, ?_, ?_⟩
    · rw [List.length_append, List.length_singleton, ← hlimit]
      omega
    · exact List.forall_mem_append.mpr ⟨hcontents, List.forall_mem_singleton.mpr rfl⟩
    · exact List.forall_mem_append.mpr ⟨hcapacities, List.forall_mem_singleton.mpr hcapacity⟩

end BufferPool.Stocked

/-! ## Loans -/

/-- The loan that a draft holds. -/
def Borrower.loan? (d : Borrower) : Option Nat := d.draft.buffer?.map fun _ ↦ d.loan

/-- The books are in order while the drafts hold the given loans: the pool is as it should be, every buffer
was empty when it was lent, and every loan was either returned, once, or is held, once. -/
structure LendingPool.Balanced (limit : Nat) (l : LendingPool) (held : List Nat) : Prop where
  stocked : l.pool.Stocked limit
  lent_empty : ∀ b ∈ l.lent, b.content = []
  once : (l.returned ++ held).Perm (List.range l.lent.length)

namespace LendingPool.Balanced

variable {limit loan : Nat} {l : LendingPool} {front back : List Nat}

theorem start {pool : BufferPool} (h : pool.Stocked limit) : (LendingPool.start pool).Balanced limit [] :=
  ⟨h, List.forall_mem_nil _, .refl _⟩

theorem lend (h : l.Balanced limit (front ++ back)) :
    l.lend.2.Balanced limit (front ++ l.lent.length :: back) where
  stocked := h.stocked.acquire
  lent_empty :=
    List.forall_mem_append.mpr ⟨h.lent_empty, List.forall_mem_singleton.mpr h.stocked.acquire_content⟩
  once := by
    have hnew : (l.returned ++ (front ++ l.lent.length :: back)).Perm
        (l.returned ++ (front ++ back) ++ [l.lent.length]) := by
      rw [← List.append_assoc, ← List.append_assoc]
      exact List.perm_middle.trans (List.perm_append_singleton _ _).symm
    have hcount : l.lend.2.lent.length = l.lent.length + 1 := List.length_append
    rw [hcount, List.range_succ]
    exact hnew.trans (h.once.append_right _)

theorem takeBack (h : l.Balanced limit (front ++ loan :: back)) (b : Buffer) :
    (l.takeBack loan b).Balanced limit (front ++ back) where
  stocked := h.stocked.release b
  lent_empty := h.lent_empty
  once := by
    have hmoved : (l.returned ++ [loan] ++ (front ++ back)).Perm
        (l.returned ++ (front ++ loan :: back)) := by
      rw [List.append_assoc, List.singleton_append]
      exact List.perm_middle.symm.append_left _
    exact hmoved.trans h.once

end LendingPool.Balanced

/-! ## What one step does with loans -/

namespace Borrower

variable {l l' : LendingPool} {d d' : Borrower}

/-- What passes between a draft and the pool in one step. -/
inductive Traffic (l : LendingPool) (d d' : Borrower) (l' : LendingPool) : Prop
  | nothing (holds : d'.loan? = d.loan?) (books : l' = l)
  | borrows (before : d.loan? = none) (after : d'.loan? = some l.lent.length) (books : l' = l.lend.2)
  | returns (loan : Nat) (b : Buffer) (before : d.loan? = some loan) (after : d'.loan? = none)
      (books : l' = l.takeBack loan b)

/-- A draft that was supplied holds a loan, as it does after any change that keeps a buffer. -/
theorem supply_traffic (l : LendingPool) (d : Borrower) (f : ResponseDraft → ResponseDraft)
    (hf : ∀ r, (f r).buffer?.isSome = true) :
    Traffic l d ((d.supply l).2.1.withDraft f) (d.supply l).2.2 := by
  have hloan (e : Borrower) : (e.withDraft f).loan? = some e.loan := by
    obtain ⟨b, hb⟩ := Option.isSome_iff_exists.mp (hf e.draft)
    rw [loan?, withDraft, hb, Option.map_some]
  unfold supply
  split
  · next b hb => exact .nothing (by rw [hloan, loan?, hb, Option.map_some]) rfl
  · next hnone => exact .borrows (by rw [loan?, hnone, Option.map_none]) (hloan _) rfl

theorem handBack_loan? (l : LendingPool) (d : Borrower) : (d.handBack l).1.loan? = none := by
  unfold handBack
  split
  · rfl
  · next hnone => rw [loan?, hnone, Option.map_none]

theorem handBack_of_loan?_eq_none (h : d.loan? = none) (l : LendingPool) : d.handBack l = (d, l) := by
  have hnone : d.draft.buffer? = none := Option.map_eq_none_iff.mp h
  rw [handBack, hnone]

/-- A draft that ends gives back the loan it holds, and a draft without one leaves the pool alone. -/
theorem drop_traffic (l : LendingPool) (d : Borrower) : Traffic l d fresh (d.drop l) := by
  unfold drop handBack
  split
  · next b hb => exact .returns d.loan b (by rw [loan?, hb, Option.map_some]) rfl rfl
  · next hnone =>
    have hloan : d.loan? = none := by rw [loan?, hnone, Option.map_none]
    exact .nothing hloan.symm rfl

/-- The drop at the end of a flush finds nothing left to give back. -/
theorem flush_eq (l : LendingPool) (d : Borrower) : d.flush l = (d.draft.flush, d.drop l) := by
  have hrest := handBack_of_loan?_eq_none (handBack_loan? l d) (d.handBack l).2
  unfold flush drop
  dsimp only
  rw [hrest]

theorem step_traffic (l : LendingPool) (d : Borrower) (what : DraftStep) :
    Traffic l d (d.step l what).1 (d.step l what).2.1 := by
  cases what with
  | write data => exact supply_traffic l d (·.writeInto (d.supply l).1 data) fun _ ↦ rfl
  | resetBody =>
    refine .nothing ?_ rfl
    cases hb : d.draft.buffer? <;> simp [step, withDraft, loan?, ResponseDraft.resetBody, hb]
  | absorb r =>
    simp only [step]
    split
    · exact .nothing rfl rfl
    · next hbody =>
      refine supply_traffic l d (·.absorbInto (d.supply l).1 r) fun _ ↦ ?_
      rw [ResponseDraft.absorbInto, if_neg hbody]
      rfl
  | flush =>
    simp only [step, flush_eq]
    exact drop_traffic l d
  | drop => exact drop_traffic l d

/-- The books stay in order, whatever the step and whatever the other drafts hold. -/
theorem Traffic.balanced (h : Traffic l d d' l') {limit : Nat} {front back : List Nat}
    (hbefore : l.Balanced limit (front ++ (d.loan?.toList ++ back))) :
    l'.Balanced limit (front ++ (d'.loan?.toList ++ back)) := by
  cases h with
  | nothing holds books => rwa [holds, books]
  | borrows before after books =>
    rw [before] at hbefore
    rw [after, books]
    exact hbefore.lend
  | returns loan b before after books =>
    rw [before] at hbefore
    rw [after, books]
    exact hbefore.takeBack b

end Borrower

/-! ## What one step does to a draft -/

namespace ResponseDraft

/-- The drafts differ at most in the capacity of their buffers. -/
structure SameContent (d d' : ResponseDraft) : Prop where
  status : d.status? = d'.status?
  headers : d.headers = d'.headers
  errors : d.errors = d'.errors
  buffer : d.buffer?.map Buffer.content = d'.buffer?.map Buffer.content

namespace SameContent

variable {d d' : ResponseDraft}

theorem refl (d : ResponseDraft) : d.SameContent d := ⟨rfl, rfl, rfl, rfl⟩

theorem body_eq (h : d.SameContent d') : d.body = d'.body := by
  have hbody (r : ResponseDraft) : r.body = (r.buffer?.map Buffer.content).getD [] := by
    unfold body
    split <;> simp_all
  rw [hbody, hbody, h.buffer]

theorem flush_eq (h : d.SameContent d') : d.flush = d'.flush := by
  simp only [flush, finalHeaders, ResponseDraft.status, h.status, h.headers, h.body_eq]

theorem resetBody (h : d.SameContent d') : d.resetBody.SameContent d'.resetBody where
  status := h.status
  headers := h.headers
  errors := h.errors
  buffer := by
    have hnone : d.buffer? = none ↔ d'.buffer? = none := by
      rw [← Option.map_eq_none_iff (f := Buffer.content), h.buffer, Option.map_eq_none_iff]
    cases hb : d.buffer? with
    | none => simp [ResponseDraft.resetBody, hb, hnone.mp hb]
    | some b =>
      cases hb' : d'.buffer? with
      | none => simp [hnone.mpr hb'] at hb
      | some b' => simp [ResponseDraft.resetBody, hb, hb', Buffer.clear]

theorem absorbHead (h : d.SameContent d') (r : Response) :
    (d.absorbHead r).SameContent (d'.absorbHead r) where
  status := rfl
  headers := congrArg (·.appendAll r.headers) h.headers
  errors := h.errors
  buffer := h.buffer

end SameContent

/-- Where the buffer to write into is the draft's own, or an empty one, the body is the same as with a
buffer that was made for it. -/
theorem SameContent.write {d d' : ResponseDraft} (h : d.SameContent d') {spare : Buffer}
    (hspare : d.buffer? = none → spare.content = []) (data : Bytes) :
    (d.writeInto spare data).SameContent (d'.write data) where
  status := h.status
  headers := h.headers
  errors := h.errors
  buffer := by
    have hcontent : (d.buffer?.getD spare).content = (d'.buffer?.getD .fresh).content := by
      have hbuffer := h.buffer
      cases hb : d.buffer? with
      | none =>
        rw [hb, Option.map_none, eq_comm, Option.map_eq_none_iff] at hbuffer
        rw [hbuffer]
        exact hspare hb
      | some b =>
        rw [hb, Option.map_some, eq_comm, Option.map_eq_some_iff] at hbuffer
        obtain ⟨b', hb', hsame⟩ := hbuffer
        rw [hb']
        exact hsame.symm
    simp only [ResponseDraft.write, writeInto, Option.map_some, Buffer.append, hcontent]

theorem SameContent.absorb {d d' : ResponseDraft} (h : d.SameContent d') {spare : Buffer}
    (hspare : d.buffer? = none → spare.content = []) {r : Response} (hbody : r.body.isEmpty = false) :
    (d.absorbInto spare r).SameContent (d'.absorb r) := by
  rw [ResponseDraft.absorb, absorbInto, absorbInto, if_neg (by simp [hbody]), if_neg (by simp [hbody])]
  exact (h.absorbHead r).write hspare r.body

end ResponseDraft

namespace DraftStep

/-- What a step makes of a draft that has buffers of its own, and the response it sends. -/
def alone (d : ResponseDraft) : DraftStep → ResponseDraft × Option Response
  | write data => (d.write data, none)
  | resetBody => (d.resetBody, none)
  | absorb r => (d.absorb r, none)
  | flush => (.empty, some d.flush)
  | drop => (.empty, none)

/-- What steps make of a draft that has buffers of its own, and the responses they send. -/
def allAlone (d : ResponseDraft) : List DraftStep → ResponseDraft × List Response
  | [] => (d, [])
  | what :: steps =>
    let (d', response) := what.alone d
    let (d'', responses) := allAlone d' steps
    (d'', response.toList ++ responses)

end DraftStep

/-- Over a pool that lends empty buffers a step does what it would do to the draft alone. -/
theorem Borrower.step_alone {l : LendingPool} {d : Borrower} {r : ResponseDraft}
    (hlend : l.lend.1.content = []) (h : d.draft.SameContent r) (what : DraftStep) :
    (d.step l what).1.draft.SameContent (what.alone r).1 ∧ (d.step l what).2.2 = (what.alone r).2 := by
  have hsupply : (d.supply l).2.1.draft = d.draft ∧
      (d.draft.buffer? = none → (d.supply l).1.content = []) := by
    unfold supply
    split
    · next b hb => exact ⟨rfl, fun hnone ↦ by rw [hb] at hnone; cases hnone⟩
    · exact ⟨rfl, fun _ ↦ hlend⟩
  cases what with
  | write data =>
    refine ⟨?_, rfl⟩
    simp only [step, withDraft, DraftStep.alone, hsupply.1]
    exact h.write hsupply.2 data
  | resetBody => exact ⟨h.resetBody, rfl⟩
  | absorb sent =>
    simp only [step]
    split
    · next hbody =>
      refine ⟨?_, rfl⟩
      simp only [withDraft, DraftStep.alone, ResponseDraft.absorb, ResponseDraft.absorbInto, if_pos hbody]
      exact h.absorbHead sent
    · next hbody =>
      refine ⟨?_, rfl⟩
      simp only [withDraft, DraftStep.alone, hsupply.1]
      exact h.absorb hsupply.2 (Bool.eq_false_iff.mpr hbody)
  | flush => exact ⟨.refl _, by simp only [step, flush_eq, DraftStep.alone, h.flush_eq]⟩
  | drop => exact ⟨.refl _, rfl⟩

/-! ## Runs -/

namespace SharedPool

/-- The loans that the drafts hold. -/
def held (s : SharedPool) : List Nat := s.drafts.filterMap Borrower.loan?

/-- The responses that the draft with the given number has sent, in order. -/
def sentBy (i : Nat) (s : SharedPool) : List Response :=
  s.flushed.filterMap fun (j, r) ↦ if j = i then some r else none

/-- The steps of the draft with the given number, in order. -/
def stepsOf (i : Nat) (steps : List (Nat × DraftStep)) : List DraftStep :=
  steps.filterMap fun (j, what) ↦ if j = i then some what else none

variable {limit i : Nat} {s : SharedPool} {d : Borrower}

theorem run_cons (s : SharedPool) (first : Nat × DraftStep) (steps : List (Nat × DraftStep)) :
    s.run (first :: steps) = (s.step first.1 first.2).run steps := rfl

theorem step_of_none (h : s.drafts[i]? = none) (what : DraftStep) : s.step i what = s := by
  rw [step, h]

theorem step_of_some (h : s.drafts[i]? = some d) (what : DraftStep) :
    s.step i what = ⟨(d.step s.lending what).2.1, s.drafts.set i (d.step s.lending what).1,
      s.flushed ++ ((d.step s.lending what).2.2.map fun r ↦ (i, r)).toList⟩ := by
  rw [step, h]

theorem step_balanced (h : s.lending.Balanced limit s.held) (i : Nat) (what : DraftStep) :
    (s.step i what).lending.Balanced limit (s.step i what).held := by
  cases hdraft : s.drafts[i]? with
  | none => rwa [step_of_none hdraft]
  | some d =>
    obtain ⟨hi, hd⟩ := List.getElem?_eq_some_iff.mp hdraft
    obtain ⟨front, back, hdrafts, -, hset⟩ : ∃ front back, s.drafts = front ++ s.drafts[i] :: back ∧
        front.length = i ∧ s.drafts.set i (d.step s.lending what).1 =
          front ++ (d.step s.lending what).1 :: back := List.exists_of_set hi
    have hsplit (e : Borrower) : (front ++ e :: back).filterMap Borrower.loan? =
        front.filterMap Borrower.loan? ++ (e.loan?.toList ++ back.filterMap Borrower.loan?) := by
      rw [List.filterMap_append, List.filterMap_cons]
      cases e.loan? <;> rfl
    rw [held, hdrafts, hd, hsplit] at h
    rw [step_of_some hdraft, held, hset, hsplit]
    exact (d.step_traffic s.lending what).balanced h

theorem run_balanced (h : s.lending.Balanced limit s.held) (steps : List (Nat × DraftStep)) :
    (s.run steps).lending.Balanced limit (s.run steps).held := by
  induction steps generalizing s with
  | nil => exact h
  | cons first steps ih =>
    rw [run_cons]
    exact ih (step_balanced h first.1 first.2)

theorem length_drafts_run (s : SharedPool) (steps : List (Nat × DraftStep)) :
    (s.run steps).drafts.length = s.drafts.length := by
  induction steps generalizing s with
  | nil => rfl
  | cons first steps ih =>
    rw [run_cons, ih]
    cases hdraft : s.drafts[first.1]? with
    | none => rw [step_of_none hdraft]
    | some d => rw [step_of_some hdraft, List.length_set]

/-- What the steps addressed to a draft come to, whatever happens to the others between them. -/
theorem run_alone (h : s.lending.Balanced limit s.held) (steps : List (Nat × DraftStep))
    {r : ResponseDraft} (hdraft : s.drafts[i]? = some d) (hsame : d.draft.SameContent r) :
    ∃ d', (s.run steps).drafts[i]? = some d' ∧
      d'.draft.SameContent (DraftStep.allAlone r (stepsOf i steps)).1 ∧
      (s.run steps).sentBy i = s.sentBy i ++ (DraftStep.allAlone r (stepsOf i steps)).2 := by
  induction steps generalizing s d r with
  | nil => exact ⟨d, hdraft, hsame, (List.append_nil _).symm⟩
  | cons first steps ih =>
    obtain ⟨j, what⟩ := first
    have hbalanced := step_balanced h j what
    by_cases hj : j = i
    · -- The draft takes the step itself.
      subst hj
      obtain ⟨hstep, hresponse⟩ := d.step_alone h.stocked.acquire_content hsame what
      have hself : (s.step j what).drafts[j]? = some (d.step s.lending what).1 := by
        obtain ⟨hlt, -⟩ := List.getElem?_eq_some_iff.mp hdraft
        rw [step_of_some hdraft]
        exact List.getElem?_set_self hlt
      have hsent : (s.step j what).sentBy j = s.sentBy j ++ (what.alone r).2.toList := by
        rw [step_of_some hdraft, sentBy, List.filterMap_append, hresponse]
        cases (what.alone r).2 <;> simp [sentBy]
      obtain ⟨d', hd', hsame', hsent'⟩ := ih hbalanced hself hstep
      have hsteps : stepsOf j ((j, what) :: steps) = what :: stepsOf j steps := by simp [stepsOf]
      rw [hsteps]
      refine ⟨d', hd', hsame', ?_⟩
      rw [run_cons, hsent', hsent, List.append_assoc]
      rfl
    · -- Another draft takes it.
      have hother : (s.step j what).drafts[i]? = some d := by
        cases hj' : s.drafts[j]? with
        | none => rwa [step_of_none hj']
        | some e => rwa [step_of_some hj', List.getElem?_set_ne hj]
      have hsent : (s.step j what).sentBy i = s.sentBy i := by
        cases hj' : s.drafts[j]? with
        | none => rw [step_of_none hj']
        | some e =>
          rw [step_of_some hj', sentBy, List.filterMap_append]
          cases (e.step s.lending what).2.2 <;> simp [sentBy, hj]
      obtain ⟨d', hd', hsame', hsent'⟩ := ih hbalanced hother hsame
      have hsteps : stepsOf i ((j, what) :: steps) = stepsOf i steps := by simp [stepsOf, hj]
      rw [hsteps]
      exact ⟨d', hd', hsame', by rw [run_cons, hsent', hsent]⟩

theorem start_balanced {pool : BufferPool} (h : BufferPool.empty? limit = some pool) (drafts : Nat) :
    (start pool drafts).lending.Balanced limit (start pool drafts).held := by
  have hheld : (start pool drafts).held = [] := by
    rw [held, start, List.filterMap_eq_nil_iff]
    intro d hd
    rw [List.eq_of_mem_replicate hd]
    rfl
  rw [hheld]
  exact .start (.of_empty? h)

/-- Whatever drafts do over one pool, in whatever order: the pool keeps to its limit and holds only empty
buffers of limited capacity, every buffer it lends is empty, and every loan is returned once or held by one
draft. Each draft sends what it would send with buffers of its own. Once no draft has use for a buffer, every
loan has been returned once. -/
theorem drafts_share_pool {pool : BufferPool} (hpool : BufferPool.empty? limit = some pool) (drafts : Nat)
    (steps : List (Nat × DraftStep)) :
    ((start pool drafts).run steps).lending.Balanced limit ((start pool drafts).run steps).held ∧
    (∀ i < drafts, ((start pool drafts).run steps).sentBy i =
      (DraftStep.allAlone .empty (stepsOf i steps)).2) ∧
    ((∀ i < drafts, (DraftStep.allAlone .empty (stepsOf i steps)).1.buffer? = none) →
      ((start pool drafts).run steps).lending.returned.Perm
        (List.range ((start pool drafts).run steps).lending.lent.length)) := by
  have hstart := start_balanced hpool drafts
  have hbalanced := run_balanced hstart steps
  have halone (i : Nat) (hi : i < drafts) : ∃ d, ((start pool drafts).run steps).drafts[i]? = some d ∧
      d.draft.SameContent (DraftStep.allAlone .empty (stepsOf i steps)).1 ∧
      ((start pool drafts).run steps).sentBy i = (DraftStep.allAlone .empty (stepsOf i steps)).2 :=
    run_alone hstart steps (List.getElem?_replicate_of_lt hi) (.refl .empty)
  refine ⟨hbalanced, ?_, ?_⟩
  · intro i hi
    obtain ⟨d, -, -, hsent⟩ := halone i hi
    exact hsent
  · intro hdone
    have hheld : ((start pool drafts).run steps).held = [] := by
      rw [held, List.filterMap_eq_nil_iff]
      intro d hd
      obtain ⟨i, hi, hget⟩ := List.getElem_of_mem hd
      have hdraft : i < drafts := by rwa [length_drafts_run, start, List.length_replicate] at hi
      obtain ⟨d', hd', hsame, -⟩ := halone i hdraft
      obtain rfl : d = d' := by
        rw [List.getElem?_eq_getElem hi, hget] at hd'
        exact Option.some.inj hd'
      have hbuffer := hsame.buffer
      rw [hdone i hdraft, Option.map_none, Option.map_eq_none_iff] at hbuffer
      rw [Borrower.loan?, hbuffer, Option.map_none]
    have honce := hbalanced.once
    rwa [hheld, List.append_nil] at honce

/-- Two drafts over a pool with room for one buffer. The first one writes again after it was flushed, and may
get the buffer that it gave back. -/
def mixedSteps : List (Nat × DraftStep) :=
  [(0, .write [1]), (1, .write [2]), (0, .flush), (1, .write [3]), (0, .write [4]), (1, .resetBody),
    (1, .write [5]), (0, .flush), (1, .flush), (1, .drop)]

/-- Each draft sends its own bytes, and the three loans there were have come back. -/
theorem mixedSteps_apart :
    BufferPool.empty? 1 = some ⟨1, []⟩ ∧
    (((start ⟨1, []⟩ 2).run mixedSteps).sentBy 0).map Response.body = [[1], [4]] ∧
    (((start ⟨1, []⟩ 2).run mixedSteps).sentBy 1).map Response.body = [[5]] ∧
    ((start ⟨1, []⟩ 2).run mixedSteps).lending.returned.Perm [0, 1, 2] := by
  have hpool : BufferPool.empty? 1 = some ⟨1, []⟩ := rfl
  obtain ⟨-, hsent, hreturned⟩ := drafts_share_pool hpool 2 mixedSteps
  refine ⟨hpool, ?_, ?_, ?_⟩
  · rw [hsent 0 (by decide)]
    rfl
  · rw [hsent 1 (by decide)]
    rfl
  · refine hreturned fun i hi ↦ ?_
    match i, hi with
    | 0, _ => rfl
    | 1, _ => rfl

end SharedPool

end RuleGate
