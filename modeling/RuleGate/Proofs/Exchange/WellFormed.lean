import RuleGate.Exchange.Memo
import RuleGate.Proofs.Http.Uri

/-!
# Exchanges that messages can have

Which characters the parts of a request and the headers of both messages may hold. Targets that were read
hold no others.
-/

namespace RuleGate

/-! ## Targets -/

/-- The characters of a target are those that each of its parts allows. -/
structure Uri.WellFormed (u : Uri) : Prop where
  scheme : ∀ s, u.scheme = some s → ∀ c ∈ s.toList, isSchemeChar c = true
  authority : ∀ a, u.authority = some a → ∀ c ∈ a.toList, (c == '%' || isAuthorityChar c) = true
  path : ∀ c ∈ u.pathQuery.path.toList, PathQuery.isPathChar c = true
  query : ∀ q, u.query? = some q → ∀ c ∈ q.toList, PathQuery.isQueryChar c = true

theorem PathQuery.chars_of_parseTail {s : List Char} {pq : PathQuery} (h : parseTail s = .ok pq) :
    (∀ c ∈ pq.path.toList, isPathChar c = true) ∧
      ∀ q, pq.query = some q → ∀ c ∈ q.toList, isQueryChar c = true := by
  unfold parseTail ofChars at h
  dsimp only at h
  split at h
  · next hchars =>
    rw [Bool.and_eq_true, List.all_eq_true, List.all_eq_true] at hchars
    cases h
    refine ⟨fun c hc ↦ ?_, fun q hq c hc ↦ ?_⟩
    · rw [String.toList_ofList] at hc
      exact hchars.1 c hc
    · obtain ⟨query, hquery, rfl⟩ := Option.map_eq_some_iff.mp hq
      rw [String.toList_ofList] at hc
      exact hchars.2 c (by rwa [hquery, Option.getD_some])
  · cases h

namespace Uri

theorem AuthorityScan.char_of_step {a b : AuthorityScan} {c : Char} (h : a.step c = .ok b) :
    (c == '%' || isAuthorityChar c) = true := by
  unfold step at h
  dsimp only at h
  split at h
  · next hc => subst hc; rfl
  split at h
  · next hc => subst hc; rfl
  split at h
  · next hc => subst hc; rfl
  split at h
  · next hc => subst hc; rfl
  split at h
  · next hc => subst hc; rfl
  split at h
  · next hc => rw [hc, Bool.or_true]
  · cases h

theorem AuthorityScan.chars_of_foldlM {s : List Char} {a b : AuthorityScan}
    (h : s.foldlM step a = .ok b) : ∀ c ∈ s, (c == '%' || isAuthorityChar c) = true := by
  induction s generalizing a with
  | nil => exact List.forall_mem_nil _
  | cons c s ih =>
    rw [List.foldlM_cons] at h
    obtain ⟨a', hstep, hrest⟩ := bind_eq_ok.mp h
    exact List.forall_mem_cons.mpr ⟨char_of_step hstep, ih hrest⟩

theorem chars_of_parseAuthority {s authority rest : List Char}
    (h : parseAuthority s = .ok (authority, rest)) :
    ∀ c ∈ authority, (c == '%' || isAuthorityChar c) = true := by
  obtain ⟨scan, hscan, h⟩ := bind_eq_ok.mp h
  split at h
  · cases h
    exact AuthorityScan.chars_of_foldlM hscan
  · cases h

theorem chars_of_parseScheme {s rest : List Char} {scheme : String}
    (h : parseScheme s = .ok (some (scheme, rest))) : ∀ c ∈ scheme.toList, isSchemeChar c = true := by
  unfold parseScheme at h
  dsimp only at h
  split at h
  · cases h
    exact List.all_eq_true.mp (by decide)
  · cases h
    exact List.all_eq_true.mp (by decide)
  · split at h
    · cases h
    · split at h
      · split at h
        · cases h
        · cases h
          rw [String.toList_ofList]
          exact List.all_eq_true.mp List.all_takeWhile
      · cases h

/-- Every target that was read is well-formed. -/
theorem wellFormed_of_ofString {text : String} {u : Uri} (h : ofString text = .ok u) : u.WellFormed := by
  unfold ofString at h
  generalize text.toList = s at h
  unfold parse at h
  split at h
  · cases h
  split at h
  · cases h
  · cases h
    exact ⟨nofun, nofun, List.all_eq_true.mp (by decide), nofun⟩
  · obtain ⟨pq, htail, h⟩ := bind_eq_ok.mp h
    cases h
    obtain ⟨hpath, hquery⟩ := PathQuery.chars_of_parseTail htail
    exact ⟨nofun, nofun, hpath, hquery⟩
  · obtain ⟨scheme, hscheme, h⟩ := bind_eq_ok.mp h
    dsimp only at h
    split at h
    · obtain ⟨⟨authority, rest⟩, hauthority, h⟩ := bind_eq_ok.mp h
      dsimp only at h
      split at h
      · cases h
        refine ⟨nofun, ?_, List.forall_mem_nil _, nofun⟩
        rintro _ ⟨⟩
        rw [String.toList_ofList]
        exact chars_of_parseAuthority hauthority
      · split at h <;> cases h
    · obtain ⟨⟨authority, rest⟩, hauthority, h⟩ := bind_eq_ok.mp h
      dsimp only at h
      split at h
      · cases h
      split at h
      · cases h
      · obtain ⟨pq, htail, h⟩ := bind_eq_ok.mp h
        cases h
        obtain ⟨hpath, hquery⟩ := PathQuery.chars_of_parseTail htail
        refine ⟨?_, ?_, hpath, hquery⟩
        · rintro _ ⟨⟩
          exact chars_of_parseScheme hscheme
        · rintro _ ⟨⟩
          rw [String.toList_ofList]
          exact chars_of_parseAuthority hauthority

end Uri

/-! ## Messages -/

/-- The bytes of all values are those that header values allow. -/
def Headers.WellFormed (h : Headers) : Prop := ∀ field ∈ h.fields, field.2.all HeaderValue.isValueByte = true

theorem Headers.WellFormed.of_mem_getAll {h : Headers} (hformed : h.WellFormed) {name : HeaderName} {v : Bytes}
    (hv : v ∈ h.getAll name) : v.all HeaderValue.isValueByte = true := by
  obtain ⟨field, hfield, hvalue⟩ := List.mem_filterMap.mp hv
  dsimp only at hvalue
  split at hvalue
  · rw [← Option.some.inj hvalue]
    exact hformed field hfield
  · cases hvalue

structure Request.WellFormed (r : Request) : Prop where
  method : isMethod r.method = true
  uri : r.uri.WellFormed
  headers : r.headers.WellFormed
  upstream : ∀ u, r.route.bind Route.upstream = some u → u.WellFormed

/-- Both messages of the exchange are well-formed, so far as the response is there. -/
structure Exchange.WellFormed (x : Exchange) : Prop where
  request : x.request.WellFormed
  draft : x.draft.headers.WellFormed

end RuleGate
