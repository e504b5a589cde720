import RuleGate.Forwarding
import RuleGate.Proofs.Command.QueryUpdate
import RuleGate.Proofs.Http.Absolute

/-!
# Upstream targets

The target that a request gets on an upstream is written as a text and read again. Whatever the target of the
request holds, the scheme and the authority that are read are those of the upstream: the joined path starts with
a slash, so that none of it is taken for a part of the authority, and none of its characters ends it.
-/

namespace RuleGate

namespace Forwarding

variable {base path : String}

/-! ## Joined paths -/

/-- The root in front of a path adds no more than the slash that is missing. -/
theorem joinPath_root (path : String) : joinPath "/" path = joinPath "" path := by
  have hroot : "/".endsWith "/" = true := by decide +kernel
  have hempty : "".endsWith "/" = false := by decide +kernel
  unfold joinPath
  rw [hroot, hempty]
  cases hslash : path.startsWith "/" with
  | false => rfl
  | true =>
    obtain ⟨rest, rfl⟩ := Text.startsWith_iff.mp hslash
    have hdrop : ("/" ++ rest).toList.drop 1 = rest.toList := by
      rw [String.toList_append]
      rfl
    dsimp only
    rw [hdrop, String.ofList_toList, String.empty_append]

theorem joinPath_slash (hbase : base = "" ∨ base.startsWith "/" = true) (path : String) :
    (joinPath base path).startsWith "/" = true := by
  rcases hbase with rfl | hslash
  · have hempty : "".endsWith "/" = false := by decide +kernel
    unfold joinPath
    rw [hempty]
    cases hslash : path.startsWith "/" with
    | false =>
      dsimp only
      rw [String.empty_append]
      exact Text.startsWith_iff.mpr ⟨path, rfl⟩
    | true =>
      dsimp only
      rwa [String.empty_append]
  · obtain ⟨rest, rfl⟩ := Text.startsWith_iff.mp hslash
    unfold joinPath
    split
    · exact Text.startsWith_iff.mpr ⟨_, String.append_assoc⟩
    · exact Text.startsWith_iff.mpr ⟨rest ++ ("/" ++ path), by simp only [String.append_assoc]⟩
    · exact Text.startsWith_iff.mpr ⟨_, String.append_assoc⟩

/-- Joining writes nothing but a slash of its own. -/
theorem mem_joinPath {c : Char} (h : c ∈ (joinPath base path).toList) :
    c ∈ base.toList ∨ c = '/' ∨ c ∈ path.toList := by
  unfold joinPath at h
  split at h
  · rw [String.toList_append, String.toList_ofList, List.mem_append] at h
    exact h.imp_right fun hrest ↦ .inr (List.mem_of_mem_drop hrest)
  · rw [String.toList_append, String.toList_append, List.mem_append, List.mem_append] at h
    rcases h with (hbase | hslash) | hpath
    · exact .inl hbase
    · exact .inr (.inl (List.mem_singleton.mp hslash))
    · exact .inr (.inr hpath)
  · rw [String.toList_append, List.mem_append] at h
    exact h.imp_right .inr

/-! ## Targets -/

variable {upstream request : Uri} {authority : String}

theorem targetText_eq (upstream request : Uri) (authority : String) :
    targetText upstream authority request =
      Uri.absoluteText (upstream.scheme.getD "http") authority (joinPath upstream.path request.path)
        (request.query?.or upstream.query?) := by
  have hbase : joinPath (if upstream.path = "/" then "" else upstream.path) request.path =
      joinPath upstream.path request.path := by
    split
    · next hroot => rw [hroot, joinPath_root]
    · rfl
  unfold targetText Uri.absoluteText PathQuery.written
  dsimp only
  rw [hbase]
  cases request.query?.or upstream.query? <;> simp only [String.append_assoc, String.append_empty]

/-- The characters of a target are those that its parts may hold. -/
theorem hasChars_joinPath (hupstream : upstream.WellFormed) (hrequest : request.WellFormed) :
    PathQuery.HasChars (joinPath upstream.path request.path) (request.query?.or upstream.query?) where
  path c hc := by
    rcases mem_joinPath hc with hbase | rfl | hpath
    · exact hupstream.hasChars.path c hbase
    · decide
    · exact hrequest.hasChars.path c hpath
  query q hq := by
    rcases Option.or_eq_some_iff.mp hq with hquery | ⟨-, hquery⟩
    · exact hrequest.query q hquery
    · exact hupstream.query q hquery

/-- The target is made of parts of the upstream and of the request, unless it is too long. -/
theorem target_eq (hlegible : upstream.Legible) (hupstream : upstream.WellFormed) (hrequest : request.WellFormed)
    (hauthority : upstream.authority = some authority) :
    target upstream request =
      let text := targetText upstream authority request
      if (Text.utf8Encode text.toList).length ≤ PathQuery.maxLength then
        .ok ⟨some (upstream.scheme.getD "http"), some authority,
          ⟨joinPath upstream.path request.path, request.query?.or upstream.query?⟩⟩
      else .error (.upstream (text ++ ": " ++ UriError.tooLong.message)) := by
  have hscheme : Uri.IsScheme (upstream.scheme.getD "http") := by
    cases hscheme : upstream.scheme with
    | none => exact Uri.isScheme_http
    | some s => exact hlegible.scheme s hscheme
  have hread := Uri.ofString_absoluteText hscheme (hlegible.authority authority hauthority)
    (hasChars_joinPath hupstream hrequest) (joinPath_slash (hlegible.path authority hauthority) request.path)
  rw [← targetText_eq] at hread
  unfold target
  rw [hauthority]
  dsimp only
  rw [hread]
  by_cases hfits :
      (Text.utf8Encode (targetText upstream authority request).toList).length ≤ PathQuery.maxLength
  · rw [if_pos hfits, if_pos hfits]
  · rw [if_neg hfits, if_neg hfits]

end Forwarding

/-- For every upstream with an authority and every request whose target was read, whatever its form and whatever
was read and run before: the path of the upstream and that of the request, joined, start with a slash. A target
that is found has the scheme of the upstream, or else `http`, the authority of the upstream, the joined path, and
the query of the request, or else that of the upstream. One is found unless it would be too long. -/
theorem request_cannot_choose_upstream (upstreamText requestText : String) {upstream : Uri} {authority : String}
    {r : Request} (world : World) (activities : List Activity)
    (hupstream : Uri.ofString upstreamText = .ok upstream) (hauthority : upstream.authority = some authority)
    (hrequest : Uri.ofString requestText = .ok r.uri)
    (hcompiled : ∀ c, .command c ∈ activities → Command.IsCompiled c) :
    let request := (activities.foldl Activity.perform ⟨.start r, world⟩).exchange.request.uri
    let path := Forwarding.joinPath upstream.path request.path
    path.startsWith "/" = true ∧
      (∀ u, Forwarding.target upstream request = .ok u →
        u.scheme = some (upstream.scheme.getD "http") ∧ u.authority = some authority ∧ u.path = path ∧
          u.query? = request.query?.or upstream.query?) ∧
      ((∃ u, Forwarding.target upstream request = .ok u) ↔
        (Bytes.ofString (Forwarding.targetText upstream authority request)).length ≤ PathQuery.maxLength) := by
  intro request path
  have hgrounded : (activities.foldl Activity.perform ⟨.start r, world⟩).exchange.Grounded :=
    Exchange.grounded_lasts.endures.foldl_perform (Exchange.start_grounded hrequest) hcompiled
  have hlegible := Uri.legible_of_ofString hupstream
  have hslash : path.startsWith "/" = true :=
    Forwarding.joinPath_slash (hlegible.path authority hauthority) request.path
  have htarget := Forwarding.target_eq hlegible (Uri.wellFormed_of_ofString hupstream)
    hgrounded.target.formed hauthority
  dsimp only at htarget
  refine ⟨hslash, fun u hu ↦ ?_, ?_⟩
  · rw [htarget] at hu
    split at hu
    · cases hu
      refine ⟨rfl, rfl, Uri.path_of_ne_empty ?_, rfl⟩
      rintro hempty
      rw [show path = "" from hempty] at hslash
      exact absurd hslash (by decide +kernel)
    · cases hu
  · rw [htarget]
    split
    · next hfits => exact iff_of_true ⟨_, rfl⟩ hfits
    · next hlong => exact iff_of_false nofun hlong

/-- A path that a rewrite has put an asterisk in place of, which would go over to an authority in front of it. -/
theorem asterisk_goes_behind_base :
    let upstream : Uri := ⟨some "https", some "backend:8443", ⟨"/base", some "k=1"⟩⟩
    let s := [.command (.rewrite "/a" "*")].foldl Activity.perform ⟨.start (.absolute "other" "/a"), .quiet⟩
    let request := s.exchange.request.uri
    Uri.ofString "https://backend:8443/base?k=1" = .ok upstream ∧ upstream.authority = some "backend:8443" ∧
      Uri.ofString "http://other/a" = .ok (Request.absolute "other" "/a").uri ∧
      (Command.rewrite "/a" "*").IsCompiled ∧ request.text = "http://other*" ∧
      ∃ u, Forwarding.target upstream request = .ok u ∧ u.scheme = some "https" ∧
        u.authority = some "backend:8443" ∧ u.path = "/base/*" ∧ u.query? = some "k=1" := by
  have hupstream : Uri.ofString "https://backend:8443/base?k=1" =
      .ok ⟨some "https", some "backend:8443", ⟨"/base", some "k=1"⟩⟩ := rfl
  have hrequest : Uri.ofString "http://other/a" = .ok (Request.absolute "other" "/a").uri := rfl
  have hcompiled : (Command.rewrite "/a" "*").IsCompiled :=
    ⟨fun _ ↦ none, .serve, World.quiet.disk, "rewrite /a *", rfl⟩
  have hall : ∀ c, Activity.command c ∈ [Activity.command (.rewrite "/a" "*")] → c.IsCompiled := by
    intro c hc
    cases List.mem_singleton.mp hc
    exact hcompiled
  have hchoice := request_cannot_choose_upstream _ _ .quiet _ hupstream rfl hrequest hall
  obtain ⟨u, hu⟩ := hchoice.2.2.mpr (by decide +kernel)
  obtain ⟨hscheme, hauthority, hpath, hquery⟩ := hchoice.2.1 u hu
  refine ⟨hupstream, rfl, hrequest, hcompiled, by decide +kernel, u, hu, hscheme, hauthority, ?_, ?_⟩
  · rw [hpath]
    decide +kernel
  · rw [hquery]
    decide +kernel

end RuleGate
