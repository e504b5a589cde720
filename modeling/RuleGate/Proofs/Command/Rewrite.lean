import RuleGate.Proofs.Command.QueryUpdate
import RuleGate.Proofs.Condition.Path
import RuleGate.Proofs.Text.Decoding

/-!
# Rewriting the front of a path

A rewrite puts another front in place of the one that it looks for and keeps the rest of the path, byte for
byte and however it is escaped, as well as all else of the request. The path counts as the text that it decodes
to. One that decodes to no text counts as it is written, and then its escapes are escaped again.
-/

namespace RuleGate

/-- The bytes that the path counts as: those it decodes to if they are a text, or else those it is written
in. -/
def Request.pathBytes (r : Request) : Bytes :=
  if (Percent.decode? r.uri.path).isSome then Percent.decodeBytes (Bytes.ofString r.uri.path)
  else Bytes.ofString r.uri.path

/-- The path that is written for bytes. -/
def Percent.encodePathBytes (s : Bytes) : String := String.ofList (encodeBytes isPathByte s)

theorem Percent.encodePathBytes_ofString (s : String) : encodePathBytes (Bytes.ofString s) = encodePath s := rfl

theorem Request.pathBytes_eq (r : Request) : r.pathBytes = Bytes.ofString r.decodedPath := by
  rw [pathBytes, decodedPath, Percent.decodeOrSelf]
  cases hdecoded : Percent.decode? r.uri.path with
  | none => simp
  | some text =>
    rw [Option.isSome_some, if_pos rfl, Option.getD_some]
    exact (Bytes.ofString_of_toString? hdecoded).symm

/-- A path with a slash in front still has it when it is decoded. -/
theorem Request.decodedPath_slash {r : Request} (h : r.uri.path.startsWith "/" = true) :
    ∃ path, r.decodedPath = "/" ++ path := by
  obtain ⟨back, hpath⟩ := Text.startsWith_iff.mp h
  have hbytes : ∃ rest, r.pathBytes = Bytes.ofString "/" ++ rest := by
    unfold pathBytes
    rw [hpath, Bytes.ofString_append]
    split
    · exact ⟨_, Percent.decodeBytes_cons_of_ne (by decide) _⟩
    · exact ⟨_, rfl⟩
  obtain ⟨rest, hrest⟩ := hbytes
  rw [pathBytes_eq, Bytes.ofString_eq_append_iff] at hrest
  obtain ⟨path, hdecoded, -⟩ := hrest
  exact ⟨path, hdecoded⟩

namespace Exchange.Grounded

variable {x : Exchange} {source replacement : String}

/-- A rewrite looks at the decoded path. -/
theorem rooted_path (h : x.Grounded) (hslash : x.request.uri.path.startsWith "/" = true) :
    Check.rooted x.path = x.request.decodedPath := by
  obtain ⟨path, hpath⟩ := Request.decodedPath_slash hslash
  rw [h.path_eq, hpath, Check.rooted_slash]

/-- A front that is found is replaced, if the new path can be written. -/
theorem rewritePath_of_prefix (h : x.Grounded) (hslash : x.request.uri.path.startsWith "/" = true)
    (rest : String) (hpath : x.request.decodedPath = source ++ rest) :
    (Command.rewritePath source ("/" ++ replacement) x).1 =
      if PathQuery.Fits (Percent.encodePath ("/" ++ replacement ++ rest)) x.request.uri.query? then
        (x.remember .path).withDecodedPath ("/" ++ replacement ++ rest)
      else x.remember .path := by
  have hset := setPath_slash (x := x.remember .path) h.target.formed (replacement ++ rest)
  rw [Command.rewritePath, h.rooted_path hslash, hpath, String.toList_append, Text.dropPrefix?_append]
  dsimp only
  rw [String.ofList_toList, String.append_assoc, hset]
  rfl

theorem rewritePath_of_no_prefix (h : x.Grounded) (hslash : x.request.uri.path.startsWith "/" = true)
    (hpath : ∀ rest, x.request.decodedPath ≠ source ++ rest) :
    (Command.rewritePath source replacement x).1 = x.remember .path := by
  rw [Command.rewritePath, h.rooted_path hslash]
  split
  · next rest hrest =>
    refine absurd (String.toList_inj.mp ?_) (hpath (String.ofList rest))
    rw [String.toList_append, String.toList_ofList]
    exact Text.dropPrefix?_eq_some hrest
  · rfl

end Exchange.Grounded

/-- The written path stands for the bytes of the decoded one, and nothing else of the request is another. -/
theorem Exchange.request_withDecodedPath {x : Exchange} (h : x.request.uri.Settled) {path : String}
    (hpath : path ≠ "") :
    Percent.decodeBytes (Bytes.ofString (x.withDecodedPath path).request.uri.path) = Bytes.ofString path ∧
      (x.withDecodedPath path).request = x.request.withPath (x.withDecodedPath path).request.uri.path := by
  have huri : (x.withDecodedPath path).request.uri =
      { x.request.uri with pathQuery := ⟨Percent.encodePath path, x.request.uri.query?⟩ } :=
    h.withDecodedPath_eq path
  have hwritten : (x.withDecodedPath path).request.uri.path = Percent.encodePath path := by
    rw [huri]
    exact Uri.path_of_ne_empty (Percent.encodePath_ne_empty hpath)
  rw [hwritten]
  refine ⟨Percent.decodeBytes_encodePath path, ?_⟩
  exact congrArg (fun uri ↦ { x.request with uri := uri }) huri

/-- For every request whose target was read, whatever was read and run before: a rewrite to a rooted path finds
its front where the bytes of the path start with it, and then the path stands for the replacement followed by
the same rest, if it can be written at all. In every other case the request stays. -/
theorem rewrite_replaces_front (target : String) {r : Request} (world : World) (activities : List Activity)
    (htarget : Uri.ofString target = .ok r.uri)
    (hcompiled : ∀ c, .command c ∈ activities → Command.IsCompiled c) (source replacement : String)
    (hreplacement : replacement.startsWith "/" = true) :
    let s := activities.foldl Activity.perform ⟨.start r, world⟩
    let request := s.exchange.request
    let rewritten := (Command.run s (.rewrite source replacement)).2.exchange.request
    let fits (rest : Bytes) :=
      PathQuery.Fits (Percent.encodePathBytes (Bytes.ofString replacement ++ rest)) request.uri.query?
    request.uri.path.startsWith "/" = true →
      (∀ rest, request.pathBytes = Bytes.ofString source ++ rest → fits rest →
        Percent.decodeBytes (Bytes.ofString rewritten.uri.path) = Bytes.ofString replacement ++ rest ∧
          rewritten = request.withPath rewritten.uri.path) ∧
      ((∀ rest, request.pathBytes = Bytes.ofString source ++ rest → ¬ fits rest) → rewritten = request) := by
  intro s request rewritten fits hslash
  have hgrounded : s.exchange.Grounded :=
    Exchange.grounded_lasts.endures.foldl_perform (Exchange.start_grounded htarget) hcompiled
  obtain ⟨front, rfl⟩ := Text.startsWith_iff.mp hreplacement
  have hsettled : s.exchange.request.uri.Settled :=
    hgrounded.target.settled_of_path fun hempty ↦ by simp [request, hempty] at hslash
  have hrun : rewritten = (Command.rewritePath source ("/" ++ front) s.exchange).1.request := by
    rw [← Scene.update_exchange]
    rfl
  constructor
  · intro rest hbytes hfits
    rw [Request.pathBytes_eq, Bytes.ofString_eq_append_iff] at hbytes
    obtain ⟨back, hpath, rfl⟩ := hbytes
    have hroom : PathQuery.Fits (Percent.encodePath ("/" ++ front ++ back)) request.uri.query? := by
      rw [← Percent.encodePathBytes_ofString, Bytes.ofString_append]
      exact hfits
    have hwritten : rewritten = ((s.exchange.remember .path).withDecodedPath ("/" ++ front ++ back)).request := by
      rw [hrun, hgrounded.rewritePath_of_prefix hslash back hpath, if_pos hroom]
    rw [hwritten, ← Bytes.ofString_append]
    refine Exchange.request_withDecodedPath (x := s.exchange.remember .path) hsettled ?_
    simp [String.append_eq_empty_iff]
  · intro hno
    by_cases hprefix : ∃ back, request.decodedPath = source ++ back
    · obtain ⟨back, hpath⟩ := hprefix
      have hroom : ¬ PathQuery.Fits (Percent.encodePath ("/" ++ front ++ back)) request.uri.query? := by
        rw [← Percent.encodePathBytes_ofString, Bytes.ofString_append]
        exact hno _ (by rw [Request.pathBytes_eq, hpath, Bytes.ofString_append])
      rw [hrun, hgrounded.rewritePath_of_prefix hslash back hpath, if_neg hroom]
      rfl
    · rw [hrun, hgrounded.rewritePath_of_no_prefix hslash (not_exists.mp hprefix)]
      rfl

/-- A request for a path as it is written, with a query behind it. -/
def Request.askingAt (path query : String) : Request :=
  { Request.plain path with uri := ⟨none, none, ⟨path, some query⟩⟩ }

/-- The rest of the path stands for the same bytes, a slash that was escaped among them, and the query stays. -/
theorem rewrite_keeps_escaped_rest :
    let s : Scene := ⟨.start (.askingAt "/api/caf%c3%a9%2Fx" "q=%2f"), .quiet⟩
    let rewritten := (Command.run s (.rewrite "/api/" "/v1/")).2.exchange.request
    Uri.ofString "/api/caf%c3%a9%2Fx?q=%2f" = .ok s.exchange.request.uri ∧
      s.exchange.request.pathBytes = Bytes.ofString "/api/" ++ Bytes.ofString "café/x" ∧
      Percent.decodeBytes (Bytes.ofString rewritten.uri.path) =
        Bytes.ofString "/v1/" ++ Bytes.ofString "café/x" ∧
      rewritten = .askingAt "/v1/caf%C3%A9/x" "q=%2f" := by
  have hrewrite := rewrite_replaces_front "/api/caf%c3%a9%2Fx?q=%2f" (r := .askingAt "/api/caf%c3%a9%2Fx" "q=%2f")
    .quiet [] rfl nofun "/api/" "/v1/" (by decide +kernel) (by decide +kernel)
  refine ⟨rfl, by decide +kernel, ?_, by decide +kernel⟩
  exact (hrewrite.1 _ (by decide +kernel) (by decide +kernel)).1

/-- An escape that stands for no text is escaped again, so that the path no longer stands for its byte. -/
theorem rewrite_escapes_escape :
    let s : Scene := ⟨.start (.plain "/a/%ff"), .quiet⟩
    let rewritten := (Command.run s (.rewrite "/a" "/b")).2.exchange.request
    Uri.ofString "/a/%ff" = .ok s.exchange.request.uri ∧
      Percent.decodeBytes (Bytes.ofString s.exchange.request.uri.path) = Bytes.ofString "/a" ++ [47, 255] ∧
      rewritten = .plain "/b/%25ff" ∧
      Percent.decodeBytes (Bytes.ofString rewritten.uri.path) ≠ Bytes.ofString "/b" ++ [47, 255] := by
  exact ⟨rfl, by decide +kernel, by decide +kernel, by decide +kernel⟩

end RuleGate
