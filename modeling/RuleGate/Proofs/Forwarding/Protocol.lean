import RuleGate.Condition.Basic
import RuleGate.Proofs.Command.QueryUpdate
import RuleGate.Proofs.Condition.Formula
import RuleGate.Proofs.Forwarding.Sent

/-!
# The protocol that an upstream is told

Rules read the protocol of a request from its target, and from the connection where the target names none.
Forwarding reads it from the target alone, so that a request that came over TLS without a scheme in its target is
secure to the rules and plain to the upstream. What rules change of a request leaves both sources as they came.
-/

namespace RuleGate

theorem Request.scheme_eq_https_iff (r : Request) :
    r.scheme = "https" ↔ r.uri.scheme = some "https" ∨ r.tls = true ∧ r.uri.scheme = none := by
  unfold scheme
  cases r.uri.scheme with
  | some s => simp
  | none => cases r.tls <;> decide

theorem Check.test_https_iff (x : Exchange) :
    (Check.protocol .https).test x = true ↔ x.request.scheme = "https" := by
  rw [Check.test, overProtocol, isSecure, beq_iff_eq]

/-- The text asks the check of the protocol and nothing else. -/
theorem Condition.parse_proto_https (env : Environment) :
    parse env "proto https" = .ok ⟨"proto https", [.check (.protocol .https)], false⟩ := rfl

theorem Condition.holds_proto_https_iff {env : Environment} {secure : Condition}
    (h : parse env "proto https" = .ok secure) (x : Exchange) :
    secure.holds x = true ↔ x.request.scheme = "https" := by
  rw [parse_proto_https] at h
  cases h
  rw [← Check.test_https_iff x]
  simp [holds, formula, Formula.holds, Formula.holdsAll]

/-! ## What rules leave of the protocol -/

namespace Exchange

variable {r : Request} {x : Exchange}

/-- What tells the protocol of a request is as it came. -/
structure SameProtocol (r : Request) (x : Exchange) : Prop where
  grounded : x.Grounded
  tls : x.request.tls = r.tls
  scheme : x.request.uri.scheme = r.uri.scheme

theorem start_sameProtocol {target : String} (h : Uri.ofString target = .ok r.uri) :
    SameProtocol r (start r) := ⟨start_grounded h, rfl, rfl⟩

theorem request_remember (x : Exchange) (d : Derived) : (x.remember d).request = x.request := by
  cases d with
  | form =>
    unfold remember
    dsimp only
    split <;> rfl
  | _ => rfl

/-- A target with a path is settled, whatever was noted of it. -/
theorem Grounded.settled_of_path (h : x.Grounded) (hpath : x.path ≠ "") : x.request.uri.Settled := by
  refine h.target.settled_of_path fun hempty ↦ hpath ?_
  rw [h.path_eq, Request.decodedPath, hempty]
  decide +kernel

theorem SameProtocol.transfer {y : Exchange} (h : SameProtocol r x) (hgrounded : y.Grounded)
    (htls : y.request.tls = x.request.tls) (hscheme : y.request.uri.scheme = x.request.uri.scheme) :
    SameProtocol r y := ⟨hgrounded, htls.trans h.tls, hscheme.trans h.scheme⟩

/-- Another path in a target that has one leaves what tells the protocol. -/
theorem SameProtocol.setPath (h : SameProtocol r x) (hthere : x.path ≠ "") {path : String} (hpath : path ≠ "") :
    SameProtocol r (x.setPath path).1 := by
  have hgrounded := h.grounded.setPath hpath
  rcases setPath_cases h.grounded.target.formed.hasChars.not_mem_query path with hset | hset
  · rw [hset]
    exact h
  · rw [hset] at hgrounded ⊢
    refine h.transfer hgrounded rfl ?_
    change (x.request.uri.withDecodedPath path).scheme = x.request.uri.scheme
    rw [(h.grounded.settled_of_path hthere).withDecodedPath_eq]

theorem SameProtocol.updateQuery (h : SameProtocol r x) (f : Params → Params) :
    SameProtocol r (x.updateQuery f).1 := by
  have hgrounded := h.grounded.updateQuery f
  rcases x.request_updateQuery f with hsame | ⟨pq, params, -, hrequest⟩
  · exact h.transfer hgrounded (by rw [hsame]) (by rw [hsame])
  · exact h.transfer hgrounded (by rw [hrequest]) (by rw [hrequest])

theorem sameProtocol_endures (r : Request) : Endures (SameProtocol r) where
  remember {x} h d :=
    h.transfer (h.grounded.remember d) (by rw [request_remember]) (by rw [request_remember])
  setHeaders h headers := h.transfer (grounded_lasts.setHeaders h.grounded headers) rfl rfl
  setBody h body := h.transfer (grounded_lasts.setBody h.grounded body) rfl rfl
  updateCookies {x} h f :=
    h.transfer (h.grounded.updateCookies f) (by rw [request_updateCookies]) (by rw [request_updateCookies])
  updateQuery h f := h.updateQuery f
  setPath h hthere _ hpath := h.setPath hthere hpath
  draft h hframe :=
    h.transfer (grounded_lasts.draft h.grounded hframe) (by rw [hframe.request]) (by rw [hframe.request])

end Exchange

/-- For every request whose target was read, whatever its form and whatever was read and run before: the condition
`proto https` holds exactly if the scheme that rules see is `https`, and that scheme is the one the request came
with. The upstream gets one protocol, which is `https` exactly if the request came with that scheme in its target,
and `http` otherwise. The two agree exactly if the request did not come over TLS with no scheme in its target. -/
theorem forwarded_proto_agrees_iff (target : String) {r : Request} (world : World) (activities : List Activity)
    {env : Environment} {secure : Condition} {upstream : Uri} {sent : Request}
    (htarget : Uri.ofString target = .ok r.uri)
    (hcompiled : ∀ c, .command c ∈ activities → Command.IsCompiled c)
    (hsecure : Condition.parse env "proto https" = .ok secure)
    (hsent : Forwarding.Sends upstream
      (activities.foldl Activity.perform ⟨.start r, world⟩).exchange.request sent) :
    let x := (activities.foldl Activity.perform ⟨.start r, world⟩).exchange
    let told := sent.headers.getAll .forwardedProto
    (secure.holds x = true ↔ x.request.scheme = "https") ∧ x.request.scheme = r.scheme ∧
      told = [Bytes.ofString (if r.uri.scheme = some "https" then "https" else "http")] ∧
      ((told = [Bytes.ofString "https"] ↔ x.request.scheme = "https") ↔
        ¬ (r.tls = true ∧ r.uri.scheme = none)) := by
  intro x told
  have hsame : Exchange.SameProtocol r x :=
    (Exchange.sameProtocol_endures r).foldl_perform (Exchange.start_sameProtocol htarget) hcompiled
  have hscheme : x.request.scheme = r.scheme := by
    rw [Request.scheme, hsame.scheme, hsame.tls, Request.scheme]
  have htold : told = [Bytes.ofString (if r.uri.scheme = some "https" then "https" else "http")] := by
    obtain ⟨u, -, rfl⟩ := Forwarding.sends_iff.mp hsent
    rw [← hsame.scheme]
    exact Forwarding.getAll_forwardedProto_outgoing _ u
  have hhttps : told = [Bytes.ofString "https"] ↔ r.uri.scheme = some "https" := by
    rw [htold]
    split
    · next h => exact iff_of_true rfl h
    · next h => exact iff_of_false (by decide) h
  refine ⟨Condition.holds_proto_https_iff hsecure x, hscheme, htold, ?_⟩
  rw [hhttps, hscheme, Request.scheme_eq_https_iff]
  constructor
  · intro hagree hplain
    have hnamed := hagree.mpr (.inr hplain)
    rw [hplain.2] at hnamed
    cases hnamed
  · intro hnamed
    rw [or_iff_left hnamed]

/-- A request in absolute form keeps its scheme through a rewrite. -/
theorem rewritten_absolute_request_agrees :
    let r : Request := { Request.plain "" with uri := ⟨some "https", some "example.com", ⟨"/a/b", some "k=1"⟩⟩ }
    let activities : List Activity := [.read .query, .command (.rewrite "/a" "/c")]
    let x := (activities.foldl Activity.perform ⟨.start r, .quiet⟩).exchange
    let secure : Condition := ⟨"proto https", [.check (.protocol .https)], false⟩
    let sent := Forwarding.outgoing x.request ⟨some "http", some "backend", ⟨"/c/b", some "k=1"⟩⟩
    Uri.ofString "https://example.com/a/b?k=1" = .ok r.uri ∧ (Command.rewrite "/a" "/c").IsCompiled ∧
      Condition.parse (fun _ ↦ none) "proto https" = .ok secure ∧
      Forwarding.Sends ⟨some "http", some "backend", ⟨"", none⟩⟩ x.request sent ∧
      x.request.uri.path = "/c/b" ∧ secure.holds x = true ∧
      sent.headers.getAll .forwardedProto = [Bytes.ofString "https"] := by
  intro r activities x secure sent
  have htarget : Uri.ofString "https://example.com/a/b?k=1" = .ok r.uri := rfl
  have hcompiled : (Command.rewrite "/a" "/c").IsCompiled :=
    ⟨fun _ ↦ none, .serve, World.quiet.disk, "rewrite /a /c", rfl⟩
  have hall : ∀ c, Activity.command c ∈ activities → c.IsCompiled := by
    intro c hc
    rcases List.mem_cons.mp hc with hread | hc
    · cases hread
    · cases List.mem_singleton.mp hc
      exact hcompiled
  have hsecure : Condition.parse (fun _ ↦ none) "proto https" = .ok secure := rfl
  have hsent : Forwarding.Sends ⟨some "http", some "backend", ⟨"", none⟩⟩ x.request sent :=
    Forwarding.sends_outgoing (by decide +kernel)
  obtain ⟨hholds, hscheme, htold, -⟩ := forwarded_proto_agrees_iff _ .quiet _ htarget hall hsecure hsent
  exact ⟨htarget, hcompiled, hsecure, hsent, by decide +kernel, hholds.mpr (hscheme.trans rfl), htold⟩

/-- A request in origin form that came over TLS is secure to the rules and plain to the upstream. -/
theorem tls_origin_request_is_told_plain :
    let r : Request := { Request.plain "/" with tls := true }
    let secure : Condition := ⟨"proto https", [.check (.protocol .https)], false⟩
    let sent := Forwarding.outgoing r ⟨some "http", some "backend", ⟨"/", none⟩⟩
    Uri.ofString "/" = .ok r.uri ∧ Condition.parse (fun _ ↦ none) "proto https" = .ok secure ∧
      Forwarding.Sends ⟨some "http", some "backend", ⟨"", none⟩⟩ r sent ∧
      secure.holds (.start r) = true ∧ r.scheme = "https" ∧
      sent.headers.getAll .forwardedProto = [Bytes.ofString "http"] ∧
      ¬ (sent.headers.getAll .forwardedProto = [Bytes.ofString "https"] ↔ r.scheme = "https") := by
  intro r secure sent
  have hsent : Forwarding.Sends ⟨some "http", some "backend", ⟨"", none⟩⟩ r sent :=
    Forwarding.sends_outgoing (by decide +kernel)
  have htold : sent.headers.getAll .forwardedProto = [Bytes.ofString "http"] := by decide +kernel
  refine ⟨rfl, rfl, hsent, by decide +kernel, rfl, htold, ?_⟩
  rw [htold]
  decide

end RuleGate
