import RuleGate.Proofs.Exchange.WellFormed
import RuleGate.Proofs.Http.Authority
import RuleGate.Proofs.Text.Unbroken
import RuleGate.Template.Basic

/-!
# Line feeds in expansions

Where the line feeds of an expanded template come from: the template itself, the decoded path, decoded
parameters, and the name of the route. Every other variable stays on one line, whatever a well-formed request
and response hold.
-/

namespace RuleGate

/-! ## Parts of targets -/

namespace Uri.WellFormed

variable {u : Uri}

theorem isUnbroken_scheme (h : u.WellFormed) : ∀ s, u.scheme = some s → IsUnbroken s :=
  fun s hs ↦ .of_all rfl (h.scheme s hs)

theorem isUnbroken_authority (h : u.WellFormed) : ∀ a, u.authority = some a → IsUnbroken a :=
  fun a ha ↦ .of_all (p := fun c ↦ c == '%' || isAuthorityChar c) rfl (h.authority a ha)

theorem isUnbroken_query (h : u.WellFormed) : ∀ q, u.query? = some q → IsUnbroken q :=
  fun q hq ↦ .of_all rfl (h.query q hq)

theorem isUnbroken_pathQuery (h : u.WellFormed) : IsUnbroken u.pathQuery.text := by
  have hpath : IsUnbroken u.pathQuery.path := .of_all rfl h.path
  unfold PathQuery.text
  split
  · next q hq => exact (hpath.append (by decide)).append (h.isUnbroken_query q hq)
  · split
    · decide
    · exact hpath

theorem isUnbroken_text (h : u.WellFormed) : IsUnbroken u.text := by
  have hpath : IsUnbroken u.path := by
    unfold Uri.path
    split
    · split
      · decide
      · exact .of_all rfl h.path
    · decide
  unfold Uri.text
  refine ((IsUnbroken.append ?scheme (.getD h.isUnbroken_authority)).append hpath).append ?query
  case scheme =>
    split
    · next s hs => exact (h.isUnbroken_scheme s hs).append (by decide)
    · decide
  case query =>
    split
    · next q hq => exact IsUnbroken.append (by decide) (h.isUnbroken_query q hq)
    · decide

theorem isUnbroken_host (h : u.WellFormed) : ∀ s, u.host? = some s → IsUnbroken s := by
  intro s hs
  obtain ⟨a, ha, rfl⟩ := Option.map_eq_some_iff.mp hs
  have hauthority := h.isUnbroken_authority a ha
  have hhostPort : hostPort a.toList ⊆ a.toList := by
    unfold hostPort
    split
    · next front rest hcut =>
      rw [(Text.cutLast?_eq_some hcut).1]
      exact fun c hc ↦ List.mem_append_right _ (.tail _ hc)
    · exact List.Subset.refl _
  have hbefore (sep : Char) : '\n' ∉ Text.before sep (hostPort a.toList) :=
    fun hmem ↦ hauthority (hhostPort ((List.takeWhile_prefix _).subset hmem))
  unfold hostOf
  dsimp only
  split
  · rw [isUnbroken_ofList, List.mem_append, not_or]
    exact ⟨hbefore ']', by decide⟩
  · exact isUnbroken_ofList.mpr (hbefore ':')

theorem isUnbroken_hostAndPort (h : u.WellFormed) :
    ∀ s, StaticVariable.hostAndPort? u = some s → IsUnbroken s := by
  intro s hs
  obtain ⟨host, hhost, hs⟩ := Option.bind_eq_some_iff.mp hs
  have hunbroken := h.isUnbroken_host host hhost
  split at hs
  · next port _ =>
    rw [← Option.some.inj hs]
    exact (hunbroken.append (by decide)).append (isUnbroken_toString port)
  · rwa [← Option.some.inj hs]

end Uri.WellFormed

theorem Headers.WellFormed.newline_not_mem {h : Headers} (hformed : h.WellFormed) {name : HeaderName}
    {v : Bytes} (hv : v ∈ h.getAll name) : 10 ∉ v := by
  intro hmem
  cases List.all_eq_true.mp (hformed.of_mem_getAll hv) 10 hmem

theorem splitHostPort?_isUnbroken {address host port : String} (haddress : IsUnbroken address)
    (h : splitHostPort? address = some (host, port)) : IsUnbroken host ∧ IsUnbroken port := by
  rcases splitHostPort?_eq_some_iff.mp h with ⟨rfl, -⟩ | ⟨-, rfl, -⟩
  · rw [isUnbroken_append, isUnbroken_append, isUnbroken_append] at haddress
    exact ⟨haddress.1.1.2, haddress.2⟩
  · rw [isUnbroken_append, isUnbroken_append] at haddress
    exact ⟨haddress.1.1, haddress.2⟩

/-! ## Values of variables -/

theorem Request.isUnbroken_visible (r : Request) (name : HeaderName) :
    ∀ s, r.headers.getVisible? name = some s → IsUnbroken s := by
  intro s hs
  obtain ⟨v, -, hv⟩ := Option.bind_eq_some_iff.mp hs
  exact HeaderValue.isUnbroken_of_toVisible? hv

namespace Request.WellFormed

variable {r : Request}

theorem isUnbroken_hostWithPort (h : r.WellFormed) : IsUnbroken r.hostWithPort := by
  unfold hostWithPort
  split
  · next a ha => exact h.uri.isUnbroken_authority a ha
  · exact .getD (r.isUnbroken_visible .host)

theorem isUnbroken_host (h : r.WellFormed) : IsUnbroken r.host := by
  unfold host
  split
  · next host port hsplit => exact (splitHostPort?_isUnbroken h.isUnbroken_hostWithPort hsplit).1
  · exact h.isUnbroken_hostWithPort

theorem isUnbroken_hostPort (h : r.WellFormed) : IsUnbroken r.hostPort := by
  unfold hostPort
  split
  · next host port hsplit => exact (splitHostPort?_isUnbroken h.isUnbroken_hostWithPort hsplit).2
  · decide

theorem isUnbroken_scheme (h : r.WellFormed) : IsUnbroken r.scheme := by
  unfold scheme
  cases hscheme : r.uri.scheme with
  | none => rw [Option.getD_none]; split <;> decide
  | some s => exact h.uri.isUnbroken_scheme s hscheme

theorem isUnbroken_pathQuery (h : r.WellFormed) : IsUnbroken r.pathQuery := by
  unfold pathQuery Uri.pathQuery?
  split
  · exact h.uri.isUnbroken_pathQuery
  · decide

theorem isUnbroken_url (h : r.WellFormed) : IsUnbroken r.url := by
  unfold url
  split
  · exact h.uri.isUnbroken_text
  · split
    · exact h.isUnbroken_pathQuery
    · exact ((h.isUnbroken_scheme.append (by decide)).append h.isUnbroken_hostWithPort).append
        h.isUnbroken_pathQuery

theorem isUnbroken_ofUpstream (h : r.WellFormed) {f : Uri → Option String}
    (hf : ∀ u, u.WellFormed → ∀ s, f u = some s → IsUnbroken s) :
    IsUnbroken (StaticVariable.ofUpstream r f) := by
  refine .getD fun s hs ↦ ?_
  obtain ⟨u, hu, hs⟩ := Option.bind_eq_some_iff.mp hs
  exact hf u (h.upstream u hu) s hs

end Request.WellFormed

theorem StaticVariable.isUnbroken_ofPeer (r : Request) {f : SocketAddress → String}
    (hf : ∀ a, IsUnbroken (f a)) : IsUnbroken (ofPeer r f) := by
  refine .getD fun s hs ↦ ?_
  obtain ⟨a, -, rfl⟩ := Option.map_eq_some_iff.mp hs
  exact hf a

theorem StaticVariable.isUnbroken_withoutFragment {s : String} (h : IsUnbroken s) :
    IsUnbroken (withoutFragment s) :=
  h.ofList (List.takeWhile_prefix _).subset

namespace Template

/-- Whether the value of a segment may hold line feeds, however well-formed the messages are: the decoded
path, decoded parameters, and the name of the route, which may be any text. -/
def Segment.mayBreak : Segment → Bool
  | .static v => v == .requestPath || v == .upstreamName
  | .dynamic ⟨.query, _, _⟩ => true
  | .dynamic ⟨.form, _, _⟩ => true
  | .dynamic ⟨.bodyForm, _, _⟩ => true
  | _ => false

variable {x : Exchange}

theorem isUnbroken_static (h : x.WellFormed) {v : StaticVariable}
    (hv : Segment.mayBreak (.static v) = false) : IsUnbroken (v.value x) := by
  have hrequest := h.request
  cases v with
  | requestMethod =>
    have hmethod := hrequest.method
    rw [isMethod, Bool.and_eq_true, List.all_eq_true] at hmethod
    exact .of_all rfl hmethod.2
  | requestScheme => exact hrequest.isUnbroken_scheme
  | requestHost => exact hrequest.isUnbroken_host
  | requestPort => exact hrequest.isUnbroken_hostPort
  | requestPath => cases hv
  | requestAddress => exact hrequest.isUnbroken_hostWithPort
  | requestQuery => exact StaticVariable.isUnbroken_withoutFragment (.getD hrequest.uri.isUnbroken_query)
  | requestUrl => exact hrequest.isUnbroken_url
  | requestUri => exact StaticVariable.isUnbroken_withoutFragment hrequest.isUnbroken_pathQuery
  | requestContentType => exact .getD (x.request.isUnbroken_visible .contentType)
  | requestContentLength => exact isUnbroken_toString _
  | remoteHost => exact StaticVariable.isUnbroken_ofPeer _ fun a ↦ a.ip.isUnbroken_text
  | remotePort => exact StaticVariable.isUnbroken_ofPeer _ fun a ↦ isUnbroken_toString a.port
  | remoteAddress => exact StaticVariable.isUnbroken_ofPeer _ SocketAddress.isUnbroken_text
  | upstreamName => cases hv
  | upstreamScheme => exact hrequest.isUnbroken_ofUpstream fun u hu ↦ hu.isUnbroken_scheme
  | upstreamHost => exact hrequest.isUnbroken_ofUpstream fun u hu ↦ hu.isUnbroken_host
  | upstreamPort =>
    refine hrequest.isUnbroken_ofUpstream fun u _ s hs ↦ ?_
    obtain ⟨port, -, rfl⟩ := Option.map_eq_some_iff.mp hs
    exact isUnbroken_toString port
  | upstreamAddress => exact hrequest.isUnbroken_ofUpstream fun u hu ↦ hu.isUnbroken_hostAndPort
  | upstreamUrl =>
    refine hrequest.isUnbroken_ofUpstream fun u hu s hs ↦ ?_
    rw [← Option.some.inj hs]
    exact hu.isUnbroken_text
  | responseContentType =>
    refine .getD fun s hs ↦ ?_
    obtain ⟨v, hv, rfl⟩ := Option.map_eq_some_iff.mp hs
    exact Bytes.isUnbroken_toStringLossy (h.draft.newline_not_mem (List.mem_of_mem_head? hv))
  | responseContentLength => exact isUnbroken_toString _
  | statusCode => exact isUnbroken_toString _

theorem isUnbroken_dynamic (h : x.WellFormed) {v : DynamicVariable}
    (hv : Segment.mayBreak (.dynamic v) = false) : IsUnbroken (v.value x) := by
  have hheaders {headers : Headers} (hheaders : headers.WellFormed) (name : HeaderName) (i : Nat) :
      IsUnbroken (((headers.getAll name).map Bytes.toStringLossy)[i]?.getD "") := by
    refine .getD fun s hs ↦ ?_
    obtain ⟨bytes, hbytes, rfl⟩ := List.mem_map.mp (List.mem_of_getElem? hs)
    exact Bytes.isUnbroken_toStringLossy (hheaders.newline_not_mem hbytes)
  obtain ⟨source, key, index⟩ := v
  cases source with
  | header name => exact hheaders h.request.headers name index
  | responseHeader name => exact hheaders h.draft name index
  | query => cases hv
  | form => cases hv
  | bodyForm => cases hv

/-- The number of line feeds in the values that may hold some. -/
def breaks (t : Template) (x : Exchange) : Nat :=
  ((t.segments.filter Segment.mayBreak).flatMap fun segment ↦ (Segment.expand x segment).toList).count '\n'

/-- An expansion has no line feeds but those of the template and of values that may hold some. -/
theorem count_expand (h : x.WellFormed) {t : Template}
    (hliteral : ∀ text, .literal text ∈ t.segments → IsUnbroken text) :
    (t.expand x).toList.count '\n' = t.breaks x := by
  have hsegment (segment : Segment) (hmem : segment ∈ t.segments)
      (hunbroken : Segment.mayBreak segment = false) :
      (Segment.expand x segment).toList.count '\n' = 0 := by
    rw [List.count_eq_zero]
    cases segment with
    | literal text => exact hliteral text hmem
    | static v => exact isUnbroken_static h hunbroken
    | dynamic v => exact isUnbroken_dynamic h hunbroken
  rw [expand, String.toList_join, List.flatMap_map, breaks]
  generalize t.segments = segments at hsegment ⊢
  induction segments with
  | nil => rfl
  | cons segment segments ih =>
    rw [List.forall_mem_cons] at hsegment
    rw [List.flatMap_cons, List.count_append, ih hsegment.2]
    by_cases hbreak : Segment.mayBreak segment = true
    · rw [List.filter_cons_of_pos hbreak, List.flatMap_cons, List.count_append]
    · have hcount := hsegment.1 (Bool.eq_false_iff.mpr hbreak)
      rw [List.filter_cons_of_neg hbreak, hcount, Nat.zero_add]

end Template

end RuleGate
