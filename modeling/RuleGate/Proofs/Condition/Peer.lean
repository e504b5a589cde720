import RuleGate.Proofs.Command.Activity
import RuleGate.Proofs.Condition.Algebra
import RuleGate.Proofs.Directive.Quoting
import RuleGate.Proofs.Exchange.Coherence
import RuleGate.Proofs.Net.Network
import RuleGate.Proofs.Sample
import RuleGate.Proofs.Template.RoundTrip

/-!
# Conditions on the peer

What a condition on the peer says of the address a request came from, whatever rules have read and changed since: it
holds exactly if the network that the rule names stands for the address. An IPv4 address mapped into an IPv6 address
counts as the IPv4 address. Templates write the address as it came, and that text is the name of its network in a
rule. So what is logged is recognised again, except for mapped addresses: they are logged as IPv6 addresses, and no
peer is ever seen under such an address.
-/

namespace RuleGate

/-! ## The peer while rules work -/

namespace Exchange

/-- The request still comes from the peer that another one came from, and what is noted of it is right. -/
structure SamePeer (r : Request) (x : Exchange) : Prop where
  peer : x.request.peer = r.peer
  note : Agrees x.memo.peerIp r.peerIp?

variable {r : Request} {x : Exchange}

theorem start_samePeer (r : Request) : SamePeer r (start r) := ⟨rfl, agrees_none⟩

theorem SamePeer.peerIp_eq (h : SamePeer r x) : x.peerIp? = r.peerIp? := by
  have hderived : x.request.peerIp? = r.peerIp? := by rw [Request.peerIp?, Request.peerIp?, h.peer]
  rw [peerIp?, hderived, h.note.getD_eq]

theorem SamePeer.remember (h : SamePeer r x) (d : Derived) : SamePeer r (x.remember d) := by
  cases d with
  | peerIp => exact ⟨h.peer, agrees_some h.peerIp_eq⟩
  | form =>
    unfold Exchange.remember
    dsimp only
    split
    · exact h
    · exact ⟨h.peer, h.note⟩
  | _ => exact ⟨h.peer, h.note⟩

/-- No change of a request changes where it came from. -/
theorem samePeer_lasts (r : Request) : Lasts (SamePeer r) where
  remember := SamePeer.remember
  setHeaders h _ := ⟨h.peer, h.note⟩
  setBody h _ := ⟨h.peer, h.note⟩
  updateCookies h _ := by
    rw [updateCookies_eq]
    exact ⟨h.peer, h.note⟩
  updateQuery h f := by
    unfold Exchange.updateQuery
    dsimp only
    split
    · exact h.remember .query
    · exact ⟨h.peer, h.note⟩
  setPath h _ _ _ := by
    unfold Exchange.setPath
    dsimp only
    split
    · exact h
    · exact ⟨h.peer, h.note⟩
  draft h hframe := ⟨by rw [hframe.request, h.peer], by rw [hframe.memo]; exact h.note⟩

end Exchange

/-! ## Networks in conditions -/

theorem Check.compile_remote_iff {args : List String} {check : Check} :
    compile args .remote = .ok check ↔
      ∃ raw n, args = [raw] ∧ Network.Written raw n ∧ check = .remote n.truncate := by
  have hmap : compile args .remote = (Arguments.network args).map .remote := by
    rw [compile]
    cases Arguments.network args <;> rfl
  rw [hmap, map_eq_ok]
  simp only [Network.arguments_network_eq_ok_iff]
  constructor
  · rintro ⟨m, ⟨raw, n, hargs, hwritten, rfl⟩, rfl⟩
    exact ⟨raw, n, hargs, hwritten, rfl⟩
  · rintro ⟨raw, n, hargs, hwritten, rfl⟩
    exact ⟨n.truncate, ⟨raw, n, hargs, hwritten, rfl⟩, rfl⟩

/-- Comparing with a single host never answers otherwise than asking its network. -/
theorem Check.holdsPeer_eq_contains (m : Network) (ip : IpAddress) : holdsPeer m (some ip) = m.contains ip := by
  unfold holdsPeer
  dsimp only
  split
  · next hhost => exact Network.eq_address_eq_contains hhost ip
  · rfl

theorem Check.holdsPeer_truncate_iff {n : Network} (hlength : n.length ≤ n.address.width) (peer : Option IpAddress) :
    holdsPeer n.truncate peer = true ↔ ∃ ip, peer = some ip ∧ n.Covers ip := by
  have htruncated : n.truncate.length ≤ n.truncate.address.width := by
    rwa [Network.truncate_length, Network.truncate_width]
  cases peer with
  | none => simp [holdsPeer]
  | some ip =>
    rw [holdsPeer_eq_contains, Network.contains_iff htruncated, Network.covers_truncate_iff hlength]
    simp

/-- Every address and every prefix can be named in a condition on the peer, and nothing else can. For every network
so named, host bits and all, and every request, whatever rules have read and changed since: the condition holds
exactly if the request has a peer whose address is one the network stands for, where an IPv4 address mapped into IPv6
counts as the IPv4 address. Comparing with a single host is no exception: it is what asking the network would give. -/
theorem remote_is_prefix_containment :
    (∀ a : IpAddress, Network.Written a.text (.ofAddress a)) ∧
    (∀ n : Network, n.length ≤ n.address.width → Network.Written n.text n) ∧
    (∀ args : List String, (∃ check, Check.compile args .remote = .ok check) ↔
      ∃ raw n, args = [raw] ∧ Network.Written raw n) ∧
    ∀ (raw : String) (n : Network) (check : Check), Network.Written raw n →
      Check.compile [raw] .remote = .ok check →
      (∃ m, check = .remote m ∧ ∀ ip, Check.holdsPeer m (some ip) = m.contains ip) ∧
      ∀ (r : Request) (world : World) (activities : List Activity),
        (∀ c, .command c ∈ activities → Command.IsCompiled c) →
        (check.test (activities.foldl Activity.perform ⟨.start r, world⟩).exchange = true ↔
          ∃ p, r.peer = some p ∧ n.Covers p.ip.unmapped) := by
  refine ⟨Network.written_text_address, fun n ↦ Network.written_text, fun args ↦ ?_,
    fun raw n check hwritten hcompile ↦ ?_⟩
  · simp only [Check.compile_remote_iff]
    constructor
    · rintro ⟨check, raw, n, hargs, hwritten, -⟩
      exact ⟨raw, n, hargs, hwritten⟩
    · rintro ⟨raw, n, hargs, hwritten⟩
      exact ⟨_, raw, n, hargs, hwritten, rfl⟩
  · obtain ⟨raw', n', hargs, hwritten', rfl⟩ := Check.compile_remote_iff.mp hcompile
    cases hargs
    obtain rfl : n = n' := hwritten.unique hwritten'
    refine ⟨⟨_, rfl, Check.holdsPeer_eq_contains _⟩, fun r world activities hcompiled ↦ ?_⟩
    have hpeer : Exchange.SamePeer r (activities.foldl Activity.perform ⟨.start r, world⟩).exchange :=
      (Exchange.samePeer_lasts r).endures.foldl_perform (Exchange.start_samePeer r) hcompiled
    rw [Check.test, Check.holdsPeer_truncate_iff hwritten.length_le, hpeer.peerIp_eq, Request.peerIp?]
    cases r.peer <;> simp

/-- The peer is read, and then the path is rewritten. -/
def readPeerThenRewrite : List Activity := [.read .peerIp, .command (.rewrite "/a" "/b")]

theorem isCompiled_of_mem_readPeerThenRewrite : ∀ c, .command c ∈ readPeerThenRewrite → Command.IsCompiled c := by
  intro c hc
  rcases List.mem_cons.mp hc with hread | hc
  · cases hread
  · cases List.mem_singleton.mp hc
    exact ⟨fun _ ↦ none, .serve, World.quiet.disk, "rewrite /a /b", rfl⟩

/-- A network with host bits, and a peer in it whose address is mapped into IPv6, after a rewrite of its path. -/
theorem remote_covers_mapped_peer :
    let n : Network := ⟨.v4 0x0A010203#32, 8⟩
    let r : Request := { Request.plain "/a" with peer := some ⟨.v6 0xFFFF0A090909#128, 5555, 0⟩ }
    let check : Check := .remote ⟨.v4 0x0A000000#32, 8⟩
    n.text = "10.1.2.3/8" ∧ Network.Written "10.1.2.3/8" n ∧ n.length ≤ n.address.width ∧
      Check.compile ["10.1.2.3/8"] .remote = .ok check ∧
      (∀ c, .command c ∈ readPeerThenRewrite → Command.IsCompiled c) ∧
      check.test (readPeerThenRewrite.foldl Activity.perform ⟨.start r, .quiet⟩).exchange = true := by
  intro n r check
  obtain ⟨-, hwritten, -, hholds⟩ := remote_is_prefix_containment
  have hlength : n.length ≤ n.address.width := by decide
  have htext : n.text = "10.1.2.3/8" := by decide +kernel
  have hnamed : Network.Written "10.1.2.3/8" n := htext ▸ hwritten n hlength
  have hcompile : Check.compile ["10.1.2.3/8"] .remote = .ok check :=
    Check.compile_remote_iff.mpr ⟨_, n, rfl, hnamed, congrArg Check.remote (by decide)⟩
  have hcompiled := isCompiled_of_mem_readPeerThenRewrite
  refine ⟨htext, hnamed, hlength, hcompile, hcompiled, ?_⟩
  apply ((hholds _ n check hnamed hcompile).2 r .quiet readPeerThenRewrite hcompiled).mpr
  exact ⟨_, rfl, by decide, by decide +kernel⟩

/-! ## What is logged of a peer -/

open Directive (isText isQuote IsBareWord)

/-- A line of the name of a check and one bare word is the condition that the check holds. -/
theorem Condition.parse_bareCheck (env : Environment) (kind : Check.Kind) {arg : String} {check : Check}
    (harg : IsBareWord arg.toList) (hends : Text.HasEnds Text.isBlank arg.toList)
    (hcuts : ∀ c ∈ arg.toList, c ≠ '&' ∧ c ≠ '|' ∧ c ≠ '\n')
    (hcheck : Check.compile [arg] kind = .ok check) :
    parse env (kind.name ++ " " ++ arg) = .ok ⟨kind.name ++ " " ++ arg, [.check check], kind.readsResponse⟩ := by
  obtain ⟨hname, hnameEnds, hnameCuts, hmark, hkind⟩ : IsBareWord kind.name.toList ∧
      Text.HasEnds Text.isBlank kind.name.toList ∧
      kind.name.toList.all (fun c ↦ c != '&' && c != '|' && c != '\n') = true ∧
      cutMark kind.name = (false, kind.name) ∧ Check.Kind.ofName? kind.name = some kind := by
    cases kind <;> exact ⟨by decide, ⟨⟨_, rfl, rfl⟩, ⟨_, rfl, rfl⟩⟩, rfl, rfl, rfl⟩
  have htext : (kind.name ++ " " ++ arg).toList = kind.name.toList ++ [' '] ++ arg.toList := by simp
  have hcuts : ∀ c ∈ (kind.name ++ " " ++ arg).toList, c ≠ '&' ∧ c ≠ '|' ∧ c ≠ '\n' := by
    intro c hc
    rw [htext, List.mem_append, List.mem_append, List.mem_singleton] at hc
    rcases hc with (hc | rfl) | hc
    · simpa [and_assoc] using List.all_eq_true.mp hnameCuts c hc
    · decide
    · exact hcuts c hc
  have hclause : IsClause (kind.name ++ " " ++ arg).toList :=
    ⟨fun c hc ↦ ⟨(hcuts c hc).1, (hcuts c hc).2.2⟩, htext ▸ hnameEnds.append hends [' ']⟩
  have hbar : (kind.name ++ " " ++ arg).toList.contains '|' = false := by
    rw [Bool.eq_false_iff]
    intro hmem
    exact (hcuts _ (List.contains_iff_mem.mp hmem)).2.1 rfl
  have hread : parseClause env (kind.name ++ " " ++ arg).toList = .ok (.check check, kind.readsResponse) := by
    rw [parseClause_of_no_bar hbar, parseCheck_eq, String.ofList_toList,
      Directive.parse_bareWords hname harg hnameEnds.first hends.first]
    change ofDirective (cutMark kind.name).1 (cutMark kind.name).2 [arg] = _
    rw [hmark]
    simp [ofDirective, hkind, hcheck]
  exact (parse_eq_ok_iff_of_single hclause.splitClauses_eq).mpr ⟨_, hread, rfl⟩

/-- The text of an address can stand in a condition as it is. -/
theorem IpAddress.text_isArgument (a : IpAddress) :
    IsBareWord a.text.toList ∧ Text.HasEnds Text.isBlank a.text.toList ∧
      ∀ c ∈ a.text.toList, c ≠ '&' ∧ c ≠ '|' ∧ c ≠ '\n' := by
  have hne : a.text.toList ≠ [] := by
    intro hnil
    have hread := parse?_text a
    rw [hnil] at hread
    cases hread
  have hblank : ∀ c ∈ a.text.toList, Text.isBlank c = false := forall_mem_text (by decide) a
  refine ⟨forall_mem_text (by decide) a, ⟨?_, ?_⟩, forall_mem_text (by decide) a⟩
  · obtain ⟨c, cs, hcs⟩ := List.exists_cons_of_ne_nil hne
    exact ⟨c, by rw [hcs]; rfl, hblank c (by rw [hcs]; exact .head _)⟩
  · exact ⟨_, List.getLast?_eq_some_getLast hne, hblank _ (List.getLast_mem hne)⟩

/-- The condition that the peer has an address, as it is read. -/
def Condition.onPeer (a : IpAddress) : Condition :=
  ⟨"remote " ++ a.text, [.check (.remote (Network.ofAddress a))], false⟩

theorem Condition.parse_onPeer (env : Environment) (a : IpAddress) :
    parse env ("remote " ++ a.text) = .ok (onPeer a) := by
  have hcheck : Check.compile [a.text] .remote = .ok (.remote (Network.ofAddress a)) := by
    rw [Check.compile_remote_iff]
    exact ⟨_, _, rfl, Network.written_text_address a, by rw [Network.truncate_ofAddress]⟩
  obtain ⟨hword, hends, hcuts⟩ := a.text_isArgument
  exact parse_bareCheck env .remote hword hends hcuts hcheck

namespace Exchange.SamePeer

variable {r : Request} {x : Exchange} {p : SocketAddress}

/-- A template writes the address as it came. -/
theorem expand_remoteHost (h : SamePeer r x) (hpeer : r.peer = some p) :
    (Template.mk [.static .remoteHost]).expand x = p.ip.text := by
  change String.join [StaticVariable.ofPeer x.request fun a ↦ a.ip.text] = _
  simp [StaticVariable.ofPeer, h.peer, hpeer]

/-- A condition compares with the address it is mapped from. -/
theorem holds_onPeer_iff (h : SamePeer r x) (hpeer : r.peer = some p) (a : IpAddress) :
    (Condition.onPeer a).holds x = true ↔ p.ip.unmapped = a := by
  have hhost : (Network.ofAddress a).isHost = true := beq_self_eq_true _
  have hholds := Condition.holds_single ("remote " ++ a.text) (.check (.remote (Network.ofAddress a)), false) x
  rw [Condition.onPeer, hholds, Formula.holds, Check.test, h.peerIp_eq, Request.peerIp?, hpeer, Option.map_some,
    Check.holdsPeer_eq_contains, Network.contains_iff (Nat.le_refl _), Network.covers_host_iff hhost]
  exact eq_comm

end Exchange.SamePeer

/-- The condition on the peer that names the address as templates write it can always be read, whatever rules have
read and changed. It holds exactly if the address is not an IPv4 address mapped into IPv6. -/
theorem logged_peer_matches_iff (env : Environment) {r : Request} {p : SocketAddress} (world : World)
    (activities : List Activity) (hpeer : r.peer = some p)
    (hcompiled : ∀ c, .command c ∈ activities → Command.IsCompiled c) :
    let x := (activities.foldl Activity.perform ⟨.start r, world⟩).exchange
    ∃ (logged : Template) (c : Condition), Template.parse "$remote_host" = .ok logged ∧
      logged.expand x = p.ip.text ∧ Condition.parse env ("remote " ++ logged.expand x) = .ok c ∧
      (c.holds x = true ↔ p.ip.unmapped = p.ip) := by
  intro x
  have hx : Exchange.SamePeer r x :=
    (Exchange.samePeer_lasts r).endures.foldl_perform (Exchange.start_samePeer r) hcompiled
  have hlogged := hx.expand_remoteHost hpeer
  refine ⟨_, _, Template.parse_static .remoteHost, hlogged, ?_, hx.holds_onPeer_iff hpeer p.ip⟩
  rw [hlogged]
  exact Condition.parse_onPeer env p.ip

/-- An IPv6 peer is recognised after a rewrite, by the address that was logged of it. -/
theorem logged_ipv6_peer_matches :
    let p : SocketAddress := ⟨.v6 0x1#128, 5555, 0⟩
    let r : Request := { Request.plain "/a" with peer := some p }
    let x := (readPeerThenRewrite.foldl Activity.perform ⟨.start r, .quiet⟩).exchange
    r.peer = some p ∧ p.ip.unmapped = p.ip ∧
      (∀ c, .command c ∈ readPeerThenRewrite → Command.IsCompiled c) ∧
      ∃ (logged : Template) (c : Condition), Template.parse "$remote_host" = .ok logged ∧ logged.expand x = "::1" ∧
        Condition.parse (fun _ ↦ none) ("remote " ++ logged.expand x) = .ok c ∧ c.holds x = true := by
  intro p r x
  have hpeer : r.peer = some p := rfl
  have hown : p.ip.unmapped = p.ip := by decide
  have htext : p.ip.text = "::1" := by decide +kernel
  have hcompiled := isCompiled_of_mem_readPeerThenRewrite
  obtain ⟨logged, c, hlogged, hexpand, hc, hholds⟩ :=
    logged_peer_matches_iff (fun _ ↦ none) .quiet readPeerThenRewrite hpeer hcompiled
  exact ⟨hpeer, hown, hcompiled, logged, c, hlogged, hexpand.trans htext, hc, hholds.mpr hown⟩

/-- A peer whose IPv4 address is mapped into IPv6 is logged under an address by which no condition recognises it. -/
theorem logged_mapped_peer_is_not_matched :
    let p : SocketAddress := ⟨.v6 0xFFFF7F000001#128, 5555, 0⟩
    let x := Exchange.start { Request.plain "/" with peer := some p }
    ∃ (logged : Template) (c : Condition), Template.parse "$remote_host" = .ok logged ∧
      logged.expand x = "::ffff:127.0.0.1" ∧
      Condition.parse (fun _ ↦ none) ("remote " ++ logged.expand x) = .ok c ∧ c.holds x = false := by
  intro p x
  have hx : Exchange.SamePeer { Request.plain "/" with peer := some p } x := Exchange.start_samePeer _
  have hlogged := hx.expand_remoteHost rfl
  have htext : p.ip.text = "::ffff:127.0.0.1" := by decide +kernel
  refine ⟨_, .onPeer p.ip, Template.parse_static .remoteHost, hlogged.trans htext, ?_, ?_⟩
  · rw [hlogged]
    exact Condition.parse_onPeer _ p.ip
  · rw [Bool.eq_false_iff, Ne, hx.holds_onPeer_iff rfl]
    decide

end RuleGate
