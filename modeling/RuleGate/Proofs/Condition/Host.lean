import RuleGate.Condition.Check
import RuleGate.Proofs.Http.Authority
import RuleGate.Proofs.Sample
import RuleGate.Template.Variable

/-!
# Conditions on the host

Which requests to a host are the same to the conditions on it, and to the templates that write it, as a request
that names the host alone. A port behind a name changes nothing. A port behind brackets does, and so does almost
all user information, some of which makes a request look like one to another host.
-/

namespace RuleGate

/-- Matchers tell any two texts apart. -/
theorem Matcher.forall_test_eq_iff {s t : String} : (∀ m : Matcher, m.test s = m.test t) ↔ s = t := by
  constructor
  · intro h
    have hexact := h ⟨.exact t, false⟩
    simp only [test, MatcherKind.accepts, beq_self_eq_true, Bool.bne_false] at hexact
    exact (eq_of_beq hexact).symm
  · intro heq _
    rw [heq]

/-- For every host, every port and every user information, each of which may be absent: a request to the host with
these around it is the same to all conditions on the host as a request to the host alone exactly if these go
unnoticed, that is, there is no user information and no port behind brackets, or the user information holds the
name of the host where it is looked for. The same holds for the host that templates write. -/
theorem host_condition_ignores_rest_iff {x bare : Exchange} {a : Authority} (hx : x.request.Names a)
    (hbare : bare.request.Names a.bare) :
    ((∀ m : Matcher, (Check.host m).test x = (Check.host m).test bare) ↔ a.GoesUnnoticed) ∧
      (StaticVariable.requestHost.value x = StaticVariable.requestHost.value bare ↔ a.GoesUnnoticed) := by
  have hwritten : bare.request.host = a.bare.host.written := Authority.host_of_bare hbare rfl rfl
  have hhost : x.request.host = bare.request.host ↔ a.GoesUnnoticed := by
    rw [hwritten]
    exact Authority.host_eq_written_iff hx
  exact ⟨Matcher.forall_test_eq_iff.trans hhost, hhost⟩

/-- A port behind a name in the `Host` header is ignored. -/
theorem port_behind_name_is_ignored :
    let a : Authority := ⟨none, ⟨"example.com", false, by decide⟩, some "8443", by decide⟩
    let header (text : String) : Exchange :=
      .start { Request.plain "/" with headers := ⟨[(.host, Bytes.ofString text)]⟩ }
    (header "example.com:8443").request.Names a ∧ (header "example.com").request.Names a.bare ∧
      a.GoesUnnoticed ∧
      (∀ m : Matcher, (Check.host m).test (header "example.com:8443") =
        (Check.host m).test (header "example.com")) := by
  intro a header
  have hx : (header "example.com:8443").request.Names a := .inr ⟨rfl, rfl, by decide +kernel⟩
  have hbare : (header "example.com").request.Names a.bare := .inr ⟨rfl, rfl, by decide +kernel⟩
  have hunnoticed : a.GoesUnnoticed := .inl ⟨rfl, fun h ↦ nomatch h⟩
  exact ⟨hx, hbare, hunnoticed, (host_condition_ignores_rest_iff hx hbare).1.mpr hunnoticed⟩

/-- A user hides the host, and one that is named like a host passes for it. A port takes the brackets off an
address. -/
theorem host_condition_sees_user_and_port :
    let target (authority : String) : Exchange :=
      .start { Request.plain "" with uri := ⟨some "http", some authority, ⟨"/", none⟩⟩ }
    let is (host : String) : Check := .host ⟨.exact host, false⟩
    let hidden : Authority := ⟨some "user", ⟨"example.com", false, by decide⟩, none, rfl⟩
    let posing : Authority := ⟨some "example.com:x", ⟨"evil.test", false, by decide⟩, none, rfl⟩
    let address : Authority := ⟨none, ⟨"::1", true, by decide⟩, some "8080", by decide⟩
    (∀ a ∈ [hidden, posing, address],
      Uri.ofString ("http://" ++ a.text ++ "/") = .ok (target a.text).request.uri ∧
        Uri.ofString ("http://" ++ a.bare.text ++ "/") = .ok (target a.bare.text).request.uri ∧
        (target a.text).request.Names a ∧ (target a.bare.text).request.Names a.bare) ∧
      (is "example.com").test (target hidden.bare.text) = true ∧
      (is "example.com").test (target hidden.text) = false ∧
      StaticVariable.requestHost.value (target hidden.text) = "user@example.com" ∧
      (is "example.com").test (target posing.bare.text) = false ∧
      (is "example.com").test (target posing.text) = true ∧
      StaticVariable.requestHost.value (target posing.text) = "example.com" ∧
      (is "[::1]").test (target address.bare.text) = true ∧ (is "[::1]").test (target address.text) = false ∧
      StaticVariable.requestHost.value (target address.text) = "::1" := by
  intro target is hidden posing address
  refine ⟨?_, by decide +kernel⟩
  have hread : ∀ a ∈ [hidden, posing, address],
      Uri.ofString ("http://" ++ a.text ++ "/") = .ok (target a.text).request.uri ∧
        Uri.ofString ("http://" ++ a.bare.text ++ "/") = .ok (target a.bare.text).request.uri := by
    simp only [List.forall_mem_cons]
    decide +kernel
  intro a ha
  exact ⟨(hread a ha).1, (hread a ha).2, .inl rfl, .inl rfl⟩

end RuleGate
