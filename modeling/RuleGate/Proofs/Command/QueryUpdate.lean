import RuleGate.Proofs.Command.Activity
import RuleGate.Proofs.Exchange.Grounding
import RuleGate.Proofs.Sample

/-!
# Updates of the query as a whole

A change of the query parameters ought to reach both the target and the readers, or neither. It does where the
target can take a query. A target that is an authority alone cannot: it stays as it was, but the readers give
the new parameters.
-/

namespace RuleGate

theorem Params.encode_eq_empty_iff {p : Params} : p.encode = "" ↔ p = .empty := by
  constructor
  · intro h
    have hread := p.parse_encode
    rw [h] at hread
    exact hread.symm
  · rintro rfl
    rfl

theorem Uri.withParams_eq_self_iff {u : Uri} (h : u.Sound) (hauthority : u.IsAuthority) {p : Params} :
    u.withParams p = u ↔ p = .empty := by
  rw [← Params.encode_eq_empty_iff, ← String.isEmpty_iff, withParams, hauthority.path_eq (h.authority hauthority)]
  obtain ⟨scheme, authority, pathQuery⟩ := u
  obtain rfl : pathQuery = ⟨"", none⟩ := h.authority hauthority
  by_cases hempty : p.encode.isEmpty = true
  · simp [hempty]
  · simp [hempty]

namespace Exchange

variable {x : Exchange} {f : Params → Params}

/-- The target has the parameters as its query, readers give them, and all else of the request stays. -/
structure QueryUpdated (x y : Exchange) (params : Params) : Prop where
  request : y.request = { x.request with uri := x.request.uri.withParams params }
  read : y.query = params

/-- The request is the same, and readers give the same parameters. -/
structure QueryKept (x y : Exchange) : Prop where
  request : y.request = x.request
  read : y.query = x.query

/-- An update of the query is whole: all of it happens, or nothing. -/
def UpdatesWhole (x : Exchange) (f : Params → Params) : Prop :=
  x.QueryUpdated (x.updateQuery f).1 (f x.query) ∨ x.QueryKept (x.updateQuery f).1

theorem queryKept_remember (x : Exchange) : x.QueryKept (x.remember .query) := ⟨rfl, rfl⟩

theorem updatesWhole_of_settled (h : x.request.uri.Settled) (f : Params → Params) : x.UpdatesWhole f := by
  rcases updateQuery_cases h f with hupdate | hupdate
  · exact .inr (hupdate ▸ x.queryKept_remember)
  · exact .inl (hupdate ▸ ⟨rfl, rfl⟩)

/-- Of an authority alone the update is whole only where the two sides cannot differ. -/
theorem updatesWhole_of_authority (h : x.request.uri.Sound) (hauthority : x.request.uri.IsAuthority) :
    x.UpdatesWhole f ↔
      f x.query = x.query ∨ f x.query = .empty ∨
        PathQuery.maxLength ≤ (Bytes.ofString (f x.query).encode).length := by
  rw [UpdatesWhole, updateQuery_of_authority h hauthority]
  by_cases hroom : (Bytes.ofString (f x.query).encode).length < PathQuery.maxLength
  · rw [if_pos hroom]
    constructor
    · rintro (hupdated | hkept)
      · refine .inr (.inl ((Uri.withParams_eq_self_iff h hauthority).mp ?_))
        exact (congrArg Request.uri hupdated.request).symm
      · exact .inl hkept.read
    · rintro (hsame | hempty | hlong)
      · exact .inr ⟨rfl, hsame⟩
      · refine .inl ⟨?_, rfl⟩
        rw [(Uri.withParams_eq_self_iff h hauthority).mpr hempty]
        rfl
      · omega
  · rw [if_neg hroom]
    exact iff_of_true (.inr x.queryKept_remember) (.inr (.inr (Nat.not_lt.mp hroom)))

theorem updateQuery_request_of_authority (h : x.request.uri.Sound) (hauthority : x.request.uri.IsAuthority)
    (f : Params → Params) : (x.updateQuery f).1.request = x.request := by
  rw [updateQuery_of_authority h hauthority]
  split <;> rfl

theorem grounded_lasts : Lasts Grounded where
  remember := Grounded.remember
  setHeaders := fun h _ ↦ ⟨h.target, h.path⟩
  setBody := fun h _ ↦ ⟨h.target, h.path⟩
  updateCookies := Grounded.updateCookies
  updateQuery := Grounded.updateQuery
  setPath := fun h _ ↦ h.setPath
  draft := fun h hframe ↦ ⟨hframe.request ▸ h.target, hframe.request ▸ hframe.memo ▸ h.path⟩

end Exchange

/-- For every request whose target was read, whatever its form and whatever was read and run before, a change of
the query parameters is whole exactly if the target is not an authority alone, or the change leaves the
parameters as they were or leaves none, or they are too long to be written. The request with an authority alone
never changes. -/
theorem query_update_whole_iff (target : String) {r : Request} (world : World) (activities : List Activity)
    (htarget : Uri.ofString target = .ok r.uri)
    (hcompiled : ∀ c, .command c ∈ activities → Command.IsCompiled c) (f : Params → Params) :
    let x := (activities.foldl Activity.perform ⟨.start r, world⟩).exchange
    (x.UpdatesWhole f ↔
      ¬ x.request.uri.IsAuthority ∨ f x.query = x.query ∨ f x.query = .empty ∨
        PathQuery.maxLength ≤ (Bytes.ofString (f x.query).encode).length) ∧
      (x.request.uri.IsAuthority → (x.updateQuery f).1.request = x.request) := by
  intro x
  have hgrounded : x.Grounded :=
    Exchange.grounded_lasts.endures.foldl_perform (Exchange.start_grounded htarget) hcompiled
  refine ⟨?_, fun hauthority ↦ Exchange.updateQuery_request_of_authority hgrounded.target hauthority f⟩
  by_cases hauthority : x.request.uri.IsAuthority
  · rw [Exchange.updatesWhole_of_authority hgrounded.target hauthority, or_iff_right (not_not_intro hauthority)]
  · exact iff_of_true (Exchange.updatesWhole_of_settled (hgrounded.target.settled hauthority) f) (.inl hauthority)

/-- A request for a tunnel to a host. -/
def Request.connecting : Request :=
  { Request.plain "" with method := "CONNECT", uri := ⟨none, some "example.com:443", ⟨"", none⟩⟩ }

/-- A parameter that is removed from a tunnel was not there, so that nothing changes; a target in absolute form
takes the new parameters even if it is written without a path. -/
theorem whole_removal_and_absolute_update :
    (Exchange.start .connecting).UpdatesWhole (·.erase "a") ∧
      (Exchange.start { Request.plain "" with uri := ⟨some "http", some "h", ⟨"", some "a=1"⟩⟩ }).UpdatesWhole
        (·.set "a" "2") := by
  constructor
  · exact (query_update_whole_iff "example.com:443" .quiet [] rfl nofun _).1.mpr (.inr (.inl rfl))
  · exact (query_update_whole_iff "http://h?a=1" .quiet [] rfl nofun _).1.mpr (.inl (by decide))

/-- A parameter set for a tunnel is given to all readers, but the target does not have it. -/
theorem tunnel_update_is_split :
    let s : Scene := ⟨.start .connecting, .quiet⟩
    let s' := (FieldCommand.run ⟨.set, .query "a", ⟨[.literal "1"]⟩⟩ s).2
    Uri.ofString "example.com:443" = .ok s.exchange.request.uri ∧
      s'.exchange.request = s.exchange.request ∧ s'.exchange.request.queryParams = .empty ∧
      s'.exchange.query = ⟨[("a", "1")]⟩ ∧ ¬ s.exchange.UpdatesWhole (·.set "a" "1") := by
  refine ⟨rfl, by decide +kernel, by decide +kernel, by decide +kernel, ?_⟩
  rintro (hupdated | hkept)
  · have huri := congrArg Request.uri hupdated.request
    revert huri
    decide +kernel
  · have hread := hkept.read
    revert hread
    decide +kernel

end RuleGate
