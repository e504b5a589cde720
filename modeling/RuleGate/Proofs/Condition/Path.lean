import RuleGate.Proofs.Condition.Formula
import RuleGate.Proofs.Percent
import RuleGate.Proofs.Rule.Denial
import RuleGate.Proofs.Sample
import RuleGate.Proofs.Text.Split

/-!
# Conditions and the writing of a path

Conditions see a path decoded, so two requests whose paths decode to the same text are the same to all of
them, however the paths are written. A path that decodes to no text is seen as it is written, and then
only requests with the very same path are the same to all conditions.
-/

namespace RuleGate

/-- The condition that asks a single check. -/
def Condition.ofCheck (c : Check) : Condition := ⟨"", [.check c], false⟩

theorem Condition.holds_ofCheck (c : Check) (x : Exchange) : (ofCheck c).holds x = c.test x := by
  simp [ofCheck, holds, formula, Formula.holds, Formula.holdsAll]

/-! ## Requests that differ in the path -/

/-- The request with another path as written. -/
def Request.withPath (r : Request) (path : String) : Request :=
  { r with uri := { r.uri with pathQuery := { r.uri.pathQuery with path := path } } }

/-- An exchange in which nothing has been read of a request yet. -/
def Exchange.unread (r : Request) (draft : ResponseDraft) (applied : List String) : Exchange :=
  ⟨r, draft, .empty, applied⟩

theorem Exchange.unread_empty (r : Request) : unread r .empty [] = .start r := rfl

variable {r : Request} {path : String} {draft : ResponseDraft} {applied : List String}

/-- Nothing but the check of the path can tell the two requests apart. -/
theorem Check.test_withPath (h : Check.rooted (r.withPath path).decodedPath = Check.rooted r.decodedPath)
    (c : Check) : c.test (.unread r draft applied) = c.test (.unread (r.withPath path) draft applied) := by
  cases c with
  | path m => exact congrArg m.test h.symm
  | _ => rfl

/-! ## How a path is seen -/

theorem Request.decodedPath_of_text {text : String} (h : Percent.decode? r.uri.path = some text) :
    r.decodedPath = text := by
  rw [decodedPath, Percent.decodeOrSelf, h, Option.getD_some]

theorem Request.decodedPath_of_no_text (h : Percent.decode? r.uri.path = none) :
    r.decodedPath = r.uri.path := by
  rw [decodedPath, Percent.decodeOrSelf, h, Option.getD_none]

theorem decodeBytes_slash (s : String) :
    Percent.decodeBytes (Bytes.ofString ("/" ++ s)) =
      47 :: Percent.decodeBytes (Bytes.ofString s) := by
  rw [Bytes.ofString_append]
  exact Percent.decodeBytes_cons_of_ne (by decide) _

theorem Check.rooted_slash (s : String) : rooted ("/" ++ s) = "/" ++ s := by
  have hslash : ("/" ++ s).startsWith "/" = true := Text.startsWith_iff.mpr ⟨s, rfl⟩
  rw [rooted, if_pos (.inr hslash)]

theorem Check.test_exact_path {s : String} (h : r.decodedPath = "/" ++ s) (text : String) :
    (Check.path ⟨.exact text, false⟩).test (.start r) = (text == "/" ++ s) := by
  have hpath : (Exchange.start r).path = "/" ++ s := h
  rw [test, hpath, rooted_slash, Matcher.test, Matcher.MatcherKind.accepts]
  exact Bool.bne_false _

/-- The slash in front of a path does not make two paths the same that decode to the same bytes. -/
theorem eq_of_rooted_eq {a b : String}
    (hdecode : Percent.decodeBytes (Bytes.ofString a) = Percent.decodeBytes (Bytes.ofString b))
    (h : Check.rooted a = Check.rooted b) : a = b := by
  have hlonger {s t : String} (hst : s = "/" ++ t) :
      Percent.decodeBytes (Bytes.ofString s) ≠ Percent.decodeBytes (Bytes.ofString t) := by
    rw [hst, decodeBytes_slash]
    exact List.cons_ne_self _ _
  unfold Check.rooted at h
  split at h
  · split at h
    · exact h
    · exact absurd hdecode (hlonger h)
  · split at h
    · exact absurd hdecode.symm (hlonger h.symm)
    · have htext := congrArg String.toList h
      rw [String.toList_append, String.toList_append] at htext
      exact String.toList_inj.mp (List.append_cancel_left htext)

/-- An exact check of the path tells apart what is written differently, if the path is not text. -/
theorem path_eq_of_conditions (hdecode : Percent.decodeBytes (Bytes.ofString r.uri.path) =
      Percent.decodeBytes (Bytes.ofString (r.withPath path).uri.path))
    (hnone : Percent.decode? r.uri.path = none)
    (h : ∀ c : Condition, c.holds (.start r) = c.holds (.start (r.withPath path))) :
    r.uri.path = (r.withPath path).uri.path := by
  have hnone' : Percent.decode? (r.withPath path).uri.path = none := by
    rwa [Percent.decode?, ← hdecode]
  have hpath : (Exchange.start r).path = r.uri.path := Request.decodedPath_of_no_text hnone
  have hpath' : (Exchange.start (r.withPath path)).path = (r.withPath path).uri.path :=
    Request.decodedPath_of_no_text hnone'
  have hexact := h (.ofCheck (.path ⟨.exact (Check.rooted r.uri.path), false⟩))
  rw [Condition.holds_ofCheck, Condition.holds_ofCheck] at hexact
  simp only [Check.test, Matcher.test, Matcher.MatcherKind.accepts, hpath, hpath', beq_self_eq_true] at hexact
  refine eq_of_rooted_eq hdecode ?_
  simpa using hexact.symm

/-- Requests that differ in how their path is written are the same to all conditions exactly if the path
decodes to text, or is written the same. In the first case a rule that denies the one request also
denies the other. -/
theorem conditions_ignore_path_encoding
    (hdecode : Percent.decodeBytes (Bytes.ofString r.uri.path) =
      Percent.decodeBytes (Bytes.ofString (r.withPath path).uri.path)) :
    ((∀ (c : Condition) (draft : ResponseDraft) (applied : List String),
        c.holds (.unread r draft applied) = c.holds (.unread (r.withPath path) draft applied)) ↔
      (Percent.decode? r.uri.path).isSome = true ∨ r.uri.path = (r.withPath path).uri.path) ∧
    ((Percent.decode? r.uri.path).isSome = true →
      ∀ (rules rest : List Rule) (deny : Rule) (upstream : Handler) (world : World)
        (c : RuleSet.Course) (last : Scene), (RuleSet.ofRules rules).before = deny :: rest →
        deny.block.Denies → deny.applies (.start r) = true →
        c.IsOf rules upstream (r.withPath path) world last → c.call = none) := by
  have hsame (h : (r.withPath path).decodedPath = r.decodedPath) (c : Condition)
      (draft : ResponseDraft) (applied : List String) :
      c.holds (.unread r draft applied) = c.holds (.unread (r.withPath path) draft applied) :=
    Formula.holds_congr (fun check ↦ check.test_withPath (congrArg Check.rooted h)) c.formula
  have htext (h : (Percent.decode? r.uri.path).isSome = true) :
      (r.withPath path).decodedPath = r.decodedPath := by
    obtain ⟨text, htext⟩ := Option.isSome_iff_exists.mp h
    have htext' : Percent.decode? (r.withPath path).uri.path = some text := by
      rwa [Percent.decode?, ← hdecode]
    rw [Request.decodedPath_of_text htext, Request.decodedPath_of_text htext']
  refine ⟨⟨fun h ↦ ?_, fun h ↦ ?_⟩, ?_⟩
  · cases hdecoded : Percent.decode? r.uri.path with
    | some text => exact .inl rfl
    | none => exact .inr (path_eq_of_conditions hdecode hdecoded fun c ↦ h c .empty [])
  · rcases h with h | h
    · exact hsame (htext h)
    · exact hsame (by rw [Request.decodedPath, Request.decodedPath, h])
  · intro h rules rest deny upstream world c last hfirst hdenies happlies hcourse
    refine hcourse.call_eq_none hfirst hdenies ?_
    rw [← happlies]
    exact (hsame (htext h) deny.condition .empty []).symm

theorem encoded_letter_is_seen :
    (Condition.ofCheck (.path ⟨.exact "/admin", false⟩)).holds
      (.start ((Request.plain "/admin").withPath "/%61dmin")) = true := by
  have hdecode : Percent.decodeBytes (Bytes.ofString (Request.plain "/admin").uri.path) =
      Percent.decodeBytes (Bytes.ofString ((Request.plain "/admin").withPath "/%61dmin").uri.path) := by
    decide
  have hadmin : (Request.plain "/admin").decodedPath = "/" ++ "admin" := by decide
  have hsame := (conditions_ignore_path_encoding hdecode).1.mpr (.inl (by decide))
  rw [← Exchange.unread_empty, ← hsame, Exchange.unread_empty, Condition.holds_ofCheck,
    Check.test_exact_path hadmin]
  decide

/-- Escapes of bytes that are no text are told apart by the case of their digits. -/
theorem escaped_path_is_seen_as_written :
    ¬ ∀ (m : Matcher) (r : Request) (path : String),
      Percent.decodeBytes (Bytes.ofString r.uri.path) =
        Percent.decodeBytes (Bytes.ofString (r.withPath path).uri.path) →
      (Check.path m).test (.start r) = (Check.path m).test (.start (r.withPath path)) := by
  intro h
  have hlower : (Request.plain "/%ff").decodedPath = "/" ++ "%ff" := by decide
  have hupper : ((Request.plain "/%ff").withPath "/%FF").decodedPath = "/" ++ "%FF" := by decide
  have hsame := h ⟨.exact "/%ff", false⟩ (.plain "/%ff") "/%FF" (by decide)
  rw [Check.test_exact_path hlower, Check.test_exact_path hupper] at hsame
  revert hsame
  decide

end RuleGate
