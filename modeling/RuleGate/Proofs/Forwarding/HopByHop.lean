import RuleGate.Forwarding
import RuleGate.Proofs.Http.Header
import RuleGate.Proofs.Http.HeaderName
import RuleGate.Proofs.Text.Trim

/-!
# Headers that end at a hop

Besides nine names that always end at a hop, the `Connection` headers of a message list others. They are read
before they are dropped, and what is dropped is exactly what they list: a piece between commas that is a header
name, in any letter case and with any blanks around it. Pieces that are empty or no names drop nothing.
-/

namespace RuleGate

/-- A line lists a name: the name is written between two commas, or between one and an end of the line, in any
letter case and with nothing but blanks around it. -/
def HeaderName.IsListedIn (name : HeaderName) (line : String) : Prop :=
  ∃ left spelled right, Text.IsPiece ',' (left ++ spelled ++ right) line.toList ∧
    (∀ c ∈ left ++ right, c = ' ' ∨ c = '\t') ∧ parse? (String.ofList spelled) = some name

/-- One of the `Connection` headers that are visible ASCII lists the name. -/
def Headers.Lists (h : Headers) (name : HeaderName) : Prop :=
  ∃ v ∈ h.getAll .connection, ∃ line, HeaderValue.toVisible? v = some line ∧ name.IsListedIn line

namespace Forwarding

variable {h : Headers} {name : HeaderName} {text : String}

/-! ## Listed names -/

theorem lists_of_mem_listed (hname : HeaderName.parse? text = some name) (hmem : name ∈ listed h) :
    h.Lists name := by
  obtain ⟨-, -, -, htext⟩ := HeaderName.parse?_eq_some_iff.mp hname
  obtain ⟨line, hline, hmem⟩ := List.mem_flatMap.mp hmem
  obtain ⟨v, hv, hvisible⟩ := List.mem_filterMap.mp hline
  obtain ⟨lower, hlower, hmem⟩ := List.mem_filterMap.mp hmem
  obtain ⟨piece, hpiece, rfl⟩ := List.mem_map.mp hlower
  obtain ⟨left, right, hspaced, hleft, hright⟩ := Text.exists_dropped Text.isBlank piece
  have hspelled : Text.toAsciiLower (Text.trim piece) = Text.toAsciiLower text.toList := by
    split at hmem
    · cases hmem
    · rw [← htext, ← Option.some.inj hmem, String.toList_ofList]
  refine ⟨v, hv, line, hvisible, left, Text.trim piece, right, ?_, ?_, HeaderName.parse?_of_lower hname hspelled⟩
  · rw [Text.trim, ← hspaced]
    exact Text.mem_splitOn_iff.mp hpiece
  · intro c hc
    have hblank : Text.isBlank c = true := (List.mem_append.mp hc).elim (hleft c) (hright c)
    have hinPiece : c ∈ piece := by
      rw [hspaced, List.append_assoc, List.mem_append, List.mem_append]
      exact (List.mem_append.mp hc).imp_right .inr
    exact HeaderValue.space_or_tab_of_isBlank
      (HeaderValue.char_of_toVisible? hvisible c (Text.mem_of_mem_splitWhere hpiece hinPiece)) hblank

theorem mem_listed_of_lists (hlists : h.Lists name) : name ∈ listed h := by
  obtain ⟨v, hv, line, hvisible, left, spelled, right, hpiece, hblank, hspelled⟩ := hlists
  obtain ⟨-, -, hchars, htext⟩ := HeaderName.parse?_eq_some_iff.mp hspelled
  rw [String.toList_ofList] at hchars htext
  have hspace (c : Char) (hc : c ∈ left ++ right) : Text.isBlank c = true := by
    rcases hblank c hc with rfl | rfl <;> rfl
  have htrim : Text.trim (left ++ spelled ++ right) = spelled :=
    calc Text.trim (left ++ spelled ++ right)
        = Text.trim spelled := Text.dropBothWhile_append
          (fun c hc ↦ hspace c (List.mem_append_left _ hc))
          (fun c hc ↦ hspace c (List.mem_append_right _ hc)) spelled
      _ = spelled := Text.dropBothWhile_eq_self fun c hc ↦ HeaderName.isBlank_of_isTokenChar (hchars c hc)
  refine List.mem_flatMap.mpr ⟨line, List.mem_filterMap.mpr ⟨v, hv, hvisible⟩, ?_⟩
  refine List.mem_filterMap.mpr ⟨name.text, List.mem_map.mpr ⟨_, Text.mem_splitOn_iff.mpr hpiece, ?_⟩, ?_⟩
  · rw [htrim, ← htext, String.ofList_toList]
  · rw [if_neg fun hempty ↦ HeaderName.text_ne_empty hspelled (String.isEmpty_iff.mp hempty)]

theorem mem_listed_iff (hname : HeaderName.parse? text = some name) : name ∈ listed h ↔ h.Lists name :=
  ⟨lists_of_mem_listed hname, mem_listed_of_lists⟩

/-! ## What remains -/

theorem mem_hopByHop_iff :
    name ∈ hopByHop ↔ name.text ∈ ["connection", "proxy-connection", "keep-alive", "proxy-authenticate",
      "proxy-authorization", "te", "trailer", "transfer-encoding", "upgrade"] := by
  cases name
  simp [hopByHop]

theorem getAll_stripHopByHop (h : Headers) (name : HeaderName) :
    (stripHopByHop h).getAll name = if name ∈ hopByHop ++ listed h then [] else h.getAll name :=
  Headers.getAll_foldl_erase h _ name

/-- No `Connection` header is left to list anything. -/
theorem listed_stripHopByHop (h : Headers) : listed (stripHopByHop h) = [] := by
  have hnone : (stripHopByHop h).getAll .connection = [] := by
    rw [getAll_stripHopByHop, if_pos (List.mem_append_left _ (mem_hopByHop_iff.mpr (by decide)))]
  rw [listed, hnone]
  rfl

theorem stripHopByHop_idem (h : Headers) : stripHopByHop (stripHopByHop h) = stripHopByHop h := by
  have hkept : ∀ field ∈ (stripHopByHop h).fields, (!hopByHop.contains field.1) = true := by
    intro field hfield
    rw [stripHopByHop, Headers.foldl_erase] at hfield
    have hnone := (List.mem_filter.mp hfield).2
    rw [List.contains_append, Bool.not_or, Bool.and_eq_true] at hnone
    exact hnone.1
  calc stripHopByHop (stripHopByHop h)
      = hopByHop.foldl Headers.erase (stripHopByHop h) := by
        rw [stripHopByHop, listed_stripHopByHop, List.append_nil]
    _ = stripHopByHop h := by rw [Headers.foldl_erase, List.filter_eq_self.mpr hkept]

end Forwarding

/-- For every header map and every name that a header can have: of one of the nine names that always end at a hop,
and of a name that a visible `Connection` header lists, nothing is left; of any other name all values are left in
their order. Stripping again changes nothing. -/
theorem stripped_headers_end_at_hop (h : Headers) :
    (∀ text name, HeaderName.parse? text = some name →
      let ends := name.text ∈ ["connection", "proxy-connection", "keep-alive", "proxy-authenticate",
        "proxy-authorization", "te", "trailer", "transfer-encoding", "upgrade"] ∨ h.Lists name
      (ends → (Forwarding.stripHopByHop h).getAll name = []) ∧
        (¬ ends → (Forwarding.stripHopByHop h).getAll name = h.getAll name)) ∧
      Forwarding.stripHopByHop (Forwarding.stripHopByHop h) = Forwarding.stripHopByHop h := by
  refine ⟨fun text name hname ↦ ?_, Forwarding.stripHopByHop_idem h⟩
  intro ends
  have hends : name ∈ Forwarding.hopByHop ++ Forwarding.listed h ↔ ends := by
    rw [List.mem_append, Forwarding.mem_hopByHop_iff, Forwarding.mem_listed_iff hname]
  rw [Forwarding.getAll_stripHopByHop]
  exact ⟨fun hdrop ↦ if_pos (hends.mpr hdrop), fun hkeep ↦ if_neg fun hmem ↦ hkeep (hends.mp hmem)⟩

/-- A name listed in capitals behind an empty piece and a piece that is no name, on the second of two lines. -/
theorem oddly_listed_header_is_stripped :
    let h : Headers := ⟨[(.connection, Bytes.ofString "close"), (⟨"accept"⟩, Bytes.ofString "text/html"),
      (.connection, Bytes.ofString ",no name,\t X-TRACE "), (⟨"x-trace"⟩, Bytes.ofString "1"),
      (⟨"x-trace"⟩, Bytes.ofString "2"), (⟨"accept"⟩, Bytes.ofString "*/*")]⟩
    HeaderName.parse? "X-Trace" = some ⟨"x-trace"⟩ ∧ h.Lists ⟨"x-trace"⟩ ∧
      (Forwarding.stripHopByHop h).getAll ⟨"x-trace"⟩ = [] ∧
      HeaderName.parse? "Accept" = some ⟨"accept"⟩ ∧ ¬ h.Lists ⟨"accept"⟩ ∧
      (Forwarding.stripHopByHop h).getAll ⟨"accept"⟩ = [Bytes.ofString "text/html", Bytes.ofString "*/*"] ∧
      Forwarding.stripHopByHop (Forwarding.stripHopByHop h) = Forwarding.stripHopByHop h := by
  intro h
  have htrace : HeaderName.parse? "X-Trace" = some ⟨"x-trace"⟩ := by decide +kernel
  have haccept : HeaderName.parse? "Accept" = some ⟨"accept"⟩ := by decide +kernel
  have hlists : h.Lists ⟨"x-trace"⟩ := (Forwarding.mem_listed_iff htrace).mp (by decide +kernel)
  have hother : ¬ h.Lists ⟨"accept"⟩ := (Forwarding.mem_listed_iff haccept).not.mp (by decide +kernel)
  obtain ⟨hnames, hagain⟩ := stripped_headers_end_at_hop h
  refine ⟨htrace, hlists, (hnames _ _ htrace).1 (.inr hlists), haccept, hother, ?_, hagain⟩
  rw [(hnames _ _ haccept).2 (not_or.mpr ⟨by decide, hother⟩)]
  rfl

end RuleGate
