import RuleGate.Proofs.Forwarding.HopByHop
import RuleGate.Proofs.Forwarding.Sent
import RuleGate.Proofs.Net.Address

/-!
# The chain of addresses

A forwarded request has one `X-Forwarded-For` header: the elements of the first one that came in, and the address
of the peer. A chain that came in on several lines is cut after the first of them.
-/

namespace RuleGate

namespace Forwarding

/-- The elements of a chain of addresses, without the blanks around them. -/
def elements (line : String) : List String :=
  (Text.splitOn ',' line.toList).map fun w ↦ String.ofList (Text.trim w)

theorem elements_ne_nil (line : String) : elements line ≠ [] := by
  rw [elements, Ne, List.map_eq_nil_iff]
  exact Text.splitWhere_ne_nil _ _

/-- The characters of an address are visible, and neither commas nor blanks. -/
theorem char_of_mem_text (ip : IpAddress) :
    ∀ c ∈ ip.text.toList, c ≠ ',' ∧ Text.isBlank c = false ∧ HeaderValue.IsVisible c :=
  IpAddress.forall_mem_text (by decide) ip

theorem comma_not_mem_text (ip : IpAddress) : ',' ∉ ip.text.toList := fun hc ↦ (char_of_mem_text ip _ hc).1 rfl

theorem trim_text (ip : IpAddress) : Text.trim ip.text.toList = ip.text.toList :=
  Text.dropBothWhile_eq_self fun c hc ↦ (char_of_mem_text ip c hc).2.1

theorem elements_text (ip : IpAddress) : elements ip.text = [ip.text] := by
  rw [elements, Text.splitOn_eq_singleton (comma_not_mem_text ip), List.map_singleton, trim_text,
    String.ofList_toList]

/-- An address behind a chain is one more element. -/
theorem elements_append (prior : String) (ip : IpAddress) :
    elements (prior ++ ", " ++ ip.text) = elements prior ++ [ip.text] := by
  have hcomma : ',' ∉ ' ' :: ip.text.toList := by
    rw [List.mem_cons, not_or]
    exact ⟨by decide, comma_not_mem_text ip⟩
  have hchars : (prior ++ ", " ++ ip.text).toList = prior.toList ++ ',' :: ' ' :: ip.text.toList := by
    rw [String.toList_append, String.toList_append, List.append_assoc]
    rfl
  have htrim : Text.trim (' ' :: ip.text.toList) = ip.text.toList :=
    calc Text.trim (' ' :: ip.text.toList)
        = Text.trim ip.text.toList := Text.dropBothWhile_cons_of_pos (by decide) _
      _ = ip.text.toList := trim_text ip
  rw [elements, hchars, Text.splitOn_append_cons, Text.splitOn_eq_singleton hcomma, List.map_append,
    List.map_singleton, htrim, String.ofList_toList, elements]

/-- A chain with the address of a peer can be sent. -/
theorem ofString?_forwardedFor (h : Headers) (peer : SocketAddress) :
    HeaderValue.ofString? (forwardedFor h peer) = some (Bytes.ofString (forwardedFor h peer)) := by
  have hip : HeaderValue.ofString? peer.ip.text = some (Bytes.ofString peer.ip.text) :=
    HeaderValue.ofString?_of_visible fun c hc ↦ (char_of_mem_text peer.ip c hc).2.2
  unfold forwardedFor
  split
  · next prior hprior =>
    obtain ⟨v, -, hvisible⟩ := Option.bind_eq_some_iff.mp hprior
    have hcomma : HeaderValue.ofString? ", " = some (Bytes.ofString ", ") := by decide +kernel
    have hwhole := HeaderValue.ofString?_append
      (HeaderValue.ofString?_append (HeaderValue.ofString?_of_toVisible? hvisible) hcomma) hip
    rwa [HeaderValue.ofString?_eq_some hwhole] at hwhole
  · exact hip

/-- The lines of a header, all of them visible. -/
def HasLines (h : Headers) (name : HeaderName) (lines : List String) : Prop :=
  (h.getAll name).map HeaderValue.toVisible? = lines.map some

instance (h : Headers) (name : HeaderName) (lines : List String) : Decidable (HasLines h name lines) :=
  inferInstanceAs (Decidable (_ = _))

theorem HasLines.getVisible? {h : Headers} {name : HeaderName} {lines : List String}
    (hlines : HasLines h name lines) : h.getVisible? name = lines.head? := by
  have hheads : (h.getAll name).head?.map HeaderValue.toVisible? = lines.head?.map some := by
    rw [← List.head?_map, ← List.head?_map, hlines]
  calc h.getVisible? name
      = ((h.getAll name).head?.map HeaderValue.toVisible?).join := by
        rw [Headers.getVisible?, Headers.get?]
        cases (h.getAll name).head? <;> rfl
    _ = (lines.head?.map some).join := by rw [hheads]
    _ = lines.head? := by cases lines.head? <;> rfl

theorem parse?_forwardedFor : HeaderName.parse? "x-forwarded-for" = some .forwardedFor := by decide +kernel

/-- A chain that no `Connection` header lists goes on to where the peer is added. -/
theorem getAll_forwardedFor_stripped {h : Headers} (hlisted : ¬ h.Lists .forwardedFor) :
    (stripHopByHop (h.erase .host)).getAll .forwardedFor = h.getAll .forwardedFor := by
  have hconnection : (h.erase .host).getAll .connection = h.getAll .connection :=
    Headers.getAll_erase_of_ne h (by decide)
  have hkept : HeaderName.forwardedFor ∉ hopByHop ++ listed (h.erase .host) := by
    rw [List.mem_append, mem_hopByHop_iff, mem_listed_iff parse?_forwardedFor, Headers.Lists,
      hconnection]
    exact not_or.mpr ⟨by decide, hlisted⟩
  rw [getAll_stripHopByHop, if_neg hkept]
  exact Headers.getAll_erase_of_ne h (by decide)

/-- The one chain that is sent, with the peer at the end of the first one that came. -/
theorem getAll_forwardedFor_sent {upstream : Uri} {r sent : Request} {peer : SocketAddress}
    (hpeer : r.peer = some peer) (hsent : Sends upstream r sent) :
    sent.headers.getAll .forwardedFor =
      [Bytes.ofString (forwardedFor (stripHopByHop (r.headers.erase .host)) peer)] := by
  obtain ⟨u, -, rfl⟩ := sends_iff.mp hsent
  rw [getAll_forwardedFor_outgoing, addPeer, hpeer]
  dsimp only
  rw [ofString?_forwardedFor]
  exact Headers.getAll_insert_self _ _ _

theorem elements_forwardedFor {h : Headers} {lines : List String} (hlines : HasLines h .forwardedFor lines)
    (peer : SocketAddress) :
    elements (forwardedFor h peer) = (lines.take 1).flatMap elements ++ [peer.ip.text] := by
  unfold forwardedFor
  rw [hlines.getVisible?]
  cases lines with
  | nil => exact elements_text peer.ip
  | cons line rest =>
    rw [List.take_succ_cons, List.take_zero, List.flatMap_singleton]
    exact elements_append line peer.ip

/-- Every line has an element, so that none of them can be left out. -/
theorem flatMap_elements_take_one_iff {lines : List String} :
    (lines.take 1).flatMap elements = lines.flatMap elements ↔ lines.length ≤ 1 := by
  constructor
  · intro h
    match lines, h with
    | [], _ => exact Nat.zero_le 1
    | [_], _ => exact Nat.le_refl 1
    | first :: second :: rest, h =>
      rw [List.take_succ_cons, List.take_zero, List.flatMap_singleton, List.flatMap_cons, List.flatMap_cons] at h
      have hnone := List.append_eq_nil_iff.mp (List.self_eq_append_right.mp h)
      exact absurd hnone.1 (elements_ne_nil second)
  · intro h
    rw [List.take_of_length_le h]

end Forwarding

/-- For every request from a peer whose `X-Forwarded-For` headers are visible and not listed in a `Connection`
header, the request that an upstream gets has one such header. It holds the elements of the first of them, in
their order, and then the address of the peer. These are the elements of all of them only if there is at most
one. -/
theorem forwarded_chain_complete_iff {upstream : Uri} {r sent : Request} {peer : SocketAddress} {lines : List String}
    (hpeer : r.peer = some peer) (hlines : Forwarding.HasLines r.headers .forwardedFor lines)
    (hlisted : ¬ r.headers.Lists .forwardedFor) (hsent : Forwarding.Sends upstream r sent) :
    ∃ chain, sent.headers.getAll .forwardedFor = [Bytes.ofString chain] ∧
      Forwarding.elements chain = (lines.take 1).flatMap Forwarding.elements ++ [peer.ip.text] ∧
      (Forwarding.elements chain = lines.flatMap Forwarding.elements ++ [peer.ip.text] ↔ lines.length ≤ 1) := by
  have hstripped : Forwarding.HasLines (Forwarding.stripHopByHop (r.headers.erase .host)) .forwardedFor lines := by
    rw [Forwarding.HasLines, Forwarding.getAll_forwardedFor_stripped hlisted]
    exact hlines
  have helements := Forwarding.elements_forwardedFor hstripped peer
  refine ⟨_, Forwarding.getAll_forwardedFor_sent hpeer hsent, helements, ?_⟩
  rw [helements, List.append_left_inj, Forwarding.flatMap_elements_take_one_iff]

/-- A chain of two on one line, with blanks around its comma. -/
theorem chain_on_one_line_is_kept :
    let r : Request := { Request.plain "/" with
      headers := ⟨[(.connection, Bytes.ofString "close"), (.forwardedFor, Bytes.ofString "1.2.3.4 ,5.6.7.8")]⟩
      peer := some ⟨.v4 0x0A000009#32, 5000, 0⟩ }
    let upstream : Uri := ⟨some "http", some "backend", ⟨"", none⟩⟩
    let sent := Forwarding.outgoing r ⟨some "http", some "backend", ⟨"/", none⟩⟩
    r.peer = some ⟨.v4 0x0A000009#32, 5000, 0⟩ ∧
      Forwarding.HasLines r.headers .forwardedFor ["1.2.3.4 ,5.6.7.8"] ∧ ¬ r.headers.Lists .forwardedFor ∧
      Forwarding.Sends upstream r sent ∧
      ∃ chain, sent.headers.getAll .forwardedFor = [Bytes.ofString chain] ∧
        Forwarding.elements chain = ["1.2.3.4", "5.6.7.8", "10.0.0.9"] := by
  intro r upstream sent
  have hlines : Forwarding.HasLines r.headers .forwardedFor ["1.2.3.4 ,5.6.7.8"] := by decide +kernel
  have hlisted : ¬ r.headers.Lists .forwardedFor :=
    (Forwarding.mem_listed_iff Forwarding.parse?_forwardedFor).not.mp (by decide +kernel)
  have hsent : Forwarding.Sends upstream r sent := Forwarding.sends_outgoing (by decide +kernel)
  have hpeer : r.peer = some ⟨.v4 0x0A000009#32, 5000, 0⟩ := rfl
  obtain ⟨chain, hchain, helements, -⟩ := forwarded_chain_complete_iff hpeer hlines hlisted hsent
  refine ⟨hpeer, hlines, hlisted, hsent, chain, hchain, ?_⟩
  rw [helements]
  decide +kernel

/-- Of a chain on two lines the second is lost. -/
theorem second_line_of_chain_is_lost :
    let r : Request := { Request.plain "/" with
      headers := ⟨[(.forwardedFor, Bytes.ofString "1.2.3.4"), (.forwardedFor, Bytes.ofString "5.6.7.8")]⟩
      peer := some ⟨.v4 0x0A000009#32, 5000, 0⟩ }
    let upstream : Uri := ⟨some "http", some "backend", ⟨"", none⟩⟩
    let sent := Forwarding.outgoing r ⟨some "http", some "backend", ⟨"/", none⟩⟩
    Forwarding.HasLines r.headers .forwardedFor ["1.2.3.4", "5.6.7.8"] ∧ ¬ r.headers.Lists .forwardedFor ∧
      Forwarding.Sends upstream r sent ∧
      sent.headers.getAll .forwardedFor = [Bytes.ofString "1.2.3.4, 10.0.0.9"] ∧
      ¬ ∃ chain, sent.headers.getAll .forwardedFor = [Bytes.ofString chain] ∧
        Forwarding.elements chain = ["1.2.3.4", "5.6.7.8"].flatMap Forwarding.elements ++ ["10.0.0.9"] := by
  intro r upstream sent
  have hlisted : ¬ r.headers.Lists .forwardedFor :=
    (Forwarding.mem_listed_iff Forwarding.parse?_forwardedFor).not.mp (by decide +kernel)
  have hchain : sent.headers.getAll .forwardedFor = [Bytes.ofString "1.2.3.4, 10.0.0.9"] := by decide +kernel
  refine ⟨by decide +kernel, hlisted, Forwarding.sends_outgoing (by decide +kernel), hchain, ?_⟩
  intro ⟨chain, hother, helements⟩
  rw [hchain, List.singleton_inj] at hother
  rw [← Bytes.ofString_injective hother] at helements
  exact absurd helements (by decide +kernel)

end RuleGate
