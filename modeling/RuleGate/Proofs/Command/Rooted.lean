import RuleGate.Proofs.Command.Activity
import RuleGate.Proofs.Command.Block
import RuleGate.Proofs.Exchange.CookieUpdate
import RuleGate.Proofs.Exchange.PathUpdate
import RuleGate.Proofs.Exchange.QueryUpdate
import RuleGate.Proofs.Rule.Compilation
import RuleGate.Proofs.Sample

/-!
# Paths that stay rooted

A rewrite is compiled whatever its arguments begin with. A path that does not start with a slash cannot be
written into a target, though, so what such a rewrite makes of a path is dropped, with one exception: the asterisk
is a target of its own. So the path of a request keeps its slash in front while the commands of a block run,
unless one of them puts `*` in place of the whole path of a request without a query.
-/

namespace RuleGate

/-- The path of the target starts with a slash. -/
def Uri.IsRooted (u : Uri) : Prop := u.path.startsWith "/" = true

instance (u : Uri) : Decidable u.IsRooted := inferInstanceAs (Decidable (_ = true))

/-! ## What is read as a path -/

namespace PathQuery

/-- A path that stands alone is empty, rooted or the asterisk. -/
theorem path_of_parse {s : List Char} {pq : PathQuery} (h : parse s = .ok pq) :
    pq.path = "" ∨ pq.path.startsWith "/" = true ∨ pq.path = "*" ∧ pq.query = none := by
  unfold parse at h
  split at h
  · cases h
  · split at h
    · cases h
    · split at h
      · next hstart =>
        cases h
        rwa [String.isEmpty_iff] at hstart
      · cases h

/-- The front of a text up to a mark is read as the path. -/
theorem toList_path_of_parse {s : List Char} {pq : PathQuery} (h : parse s = .ok pq) :
    pq.path.toList = Text.before '?' (Text.before '#' s) := by
  rw [parseTail_ok (parseTail_of_parse h), String.toList_ofList]

/-- What is written behind a path is none of it, whatever it is. -/
theorem path_of_parse_written {path : String} {query : Option String} {pq : PathQuery}
    (hpath : '?' ∉ path.toList ∧ '#' ∉ path.toList) (h : parse (written path query).toList = .ok pq) :
    pq.path = path ∧ pq.query.isSome = query.isSome := by
  have htail := parseTail_ok (parseTail_of_parse h)
  cases query with
  | none =>
    rw [written, Text.before_eq_self hpath.2, Text.before_eq_self hpath.1, Text.cut?_eq_none hpath.1] at htail
    rw [htail, String.ofList_toList]
    exact ⟨rfl, rfl⟩
  | some q =>
    have htext : (written path (some q)).toList = path.toList ++ '?' :: q.toList := by
      simp [written, String.toList_append]
    have hfront : Text.before '#' (path.toList ++ '?' :: q.toList) =
        path.toList ++ '?' :: Text.before '#' q.toList := by
      rw [Text.before_append hpath.2]
      rfl
    have hbefore : Text.before '?' (path.toList ++ '?' :: Text.before '#' q.toList) = path.toList := by
      rw [Text.before_append hpath.1]
      exact List.append_nil _
    rw [htext, hfront, hbefore, Text.cut?_append hpath.1] at htail
    rw [htail, String.ofList_toList]
    exact ⟨rfl, rfl⟩

end PathQuery

/-- The asterisk is written as it is, and nothing else is written so. -/
theorem Percent.encodePath_eq_asterisk_iff {path : String} : encodePath path = "*" ↔ path = "*" := by
  constructor
  · intro h
    rw [← decodeOrSelf_encodePath path, h]
    decide
  · rintro rfl
    decide

namespace Exchange

variable {x : Exchange} {path : String}

/-- A change of the path is dropped, or the path is written with a slash in front, or as the asterisk. -/
theorem setPath_uri_cases (hpath : path ≠ "") :
    (x.setPath path).1.request.uri = x.request.uri ∧ ¬ (path = "*" ∧ x.request.uri.query? = none) ∨
      (x.setPath path).1.request.uri.IsRooted ∧ path ≠ "*" ∨
      (x.setPath path).1.request.uri.path = "*" ∧ path = "*" ∧ x.request.uri.query? = none := by
  unfold setPath
  dsimp only
  split
  · next e hparse =>
    refine .inl ⟨rfl, ?_⟩
    rintro ⟨rfl, hnone⟩
    rw [encodedPath_eq, hnone, PathQuery.written] at hparse
    have hstar : PathQuery.parse (Percent.encodePath "*").toList = .ok ⟨"*", none⟩ := by decide +kernel
    cases hparse.symm.trans hstar
  · next pq hparse =>
    have hparsed := PathQuery.path_of_parse hparse
    rw [encodedPath_eq] at hparse
    obtain ⟨hwritten, hquery⟩ :=
      PathQuery.path_of_parse_written (Percent.delimiter_not_mem_encodePath path) hparse
    have hne : pq.path ≠ "" := hwritten ▸ Percent.encodePath_ne_empty hpath
    have hstar : pq.path = "*" ↔ path = "*" := by rw [hwritten, Percent.encodePath_eq_asterisk_iff]
    refine .inr ?_
    unfold Uri.IsRooted
    rw [Uri.path_of_ne_empty hne]
    rcases hparsed with hempty | hslash | ⟨hasterisk, hnone⟩
    · exact absurd hempty hne
    · refine .inl ⟨hslash, fun h ↦ ?_⟩
      rw [hstar.mpr h] at hslash
      exact absurd hslash (by decide +kernel)
    · rw [hnone, Option.isSome_none, eq_comm, Option.isSome_eq_false_iff, Option.isNone_iff_eq_none] at hquery
      exact .inr ⟨hasterisk, hstar.mp hasterisk, hquery⟩

theorem setPath_isRooted_iff (h : x.request.uri.IsRooted) (hpath : path ≠ "") :
    (x.setPath path).1.request.uri.IsRooted ↔ ¬ (path = "*" ∧ x.request.uri.query? = none) := by
  rcases setPath_uri_cases (x := x) hpath with ⟨hsame, hnot⟩ | ⟨hrooted, hne⟩ | ⟨hstar, heq⟩
  · rw [hsame]
    exact iff_of_true h hnot
  · exact iff_of_true hrooted fun hboth ↦ hne hboth.1
  · refine iff_of_false ?_ (not_not_intro heq)
    unfold Uri.IsRooted
    rw [hstar]
    decide +kernel

/-- A change of the query takes the path as it is. -/
theorem updateQuery_uri_cases (f : Params → Params) :
    (x.updateQuery f).1.request.uri = x.request.uri ∨
      ∃ pq params, PathQuery.parse (pathWithParams x.request.uri.path params).toList = .ok pq ∧
        (x.updateQuery f).1.request.uri = { x.request.uri with pathQuery := pq } := by
  rcases x.request_updateQuery f with hsame | ⟨pq, params, hparse, hrequest⟩
  · exact .inl (congrArg Request.uri hsame)
  · exact .inr ⟨pq, params, hparse, congrArg Request.uri hrequest⟩

theorem exists_pathWithParams (path : String) (p : Params) :
    ∃ back, (pathWithParams path p).toList = path.toList ++ back ∧ (back = [] ∨ back.head? = some '?') := by
  unfold pathWithParams
  split
  · exact ⟨[], (List.append_nil _).symm, .inl rfl⟩
  · refine ⟨'?' :: p.encode.toList, ?_, .inr rfl⟩
    simp [String.toList_append]

theorem updateQuery_isRooted (h : x.request.uri.IsRooted) (f : Params → Params) :
    (x.updateQuery f).1.request.uri.IsRooted := by
  rcases updateQuery_uri_cases f with hsame | ⟨pq, params, hparse, huri⟩
  · rw [hsame]
    exact h
  · obtain ⟨rest, hpath⟩ := Text.startsWith_iff.mp h
    obtain ⟨back, htext, -⟩ := exists_pathWithParams x.request.uri.path params
    have hread := PathQuery.toList_path_of_parse hparse
    rw [htext, hpath, String.toList_append] at hread
    have hslash : pq.path.startsWith "/" = true := by
      rw [← UrlPath.isRooted_iff_startsWith, hread]
      rfl
    have hne : pq.path ≠ "" := by
      rintro hempty
      rw [hempty] at hslash
      exact absurd hslash (by decide +kernel)
    rw [huri, Uri.IsRooted, Uri.path_of_ne_empty hne]
    exact hslash

theorem updateQuery_asterisk (h : x.request.uri.path = "*") (f : Params → Params) :
    (x.updateQuery f).1.request.uri.path = "*" := by
  rcases updateQuery_uri_cases f with hsame | ⟨pq, params, hparse, huri⟩
  · rw [hsame]
    exact h
  · obtain ⟨back, htext, hback⟩ := exists_pathWithParams x.request.uri.path params
    have hread := PathQuery.toList_path_of_parse hparse
    rw [htext, h] at hread
    have hstar : pq.path = "*" := by
      refine String.toList_inj.mp (hread.trans ?_)
      rcases hback with rfl | hmark
      · rfl
      · obtain ⟨rest, rfl⟩ := List.head?_eq_some_iff.mp hmark
        rfl
    rw [huri, Uri.path_of_ne_empty (by rw [hstar]; decide)]
    exact hstar

/-- A path that is rooted or the asterisk stays one of them. -/
theorem rooted_or_asterisk_lasts :
    Lasts fun x ↦ x.request.uri.IsRooted ∨ x.request.uri.path = "*" where
  remember h d := by
    cases d with
    | form =>
      unfold Exchange.remember
      dsimp only
      split <;> exact h
    | _ => exact h
  setHeaders h _ := h
  setBody h _ := h
  updateCookies h f := by
    rw [request_updateCookies]
    exact h
  updateQuery h f := by
    rcases h with hrooted | hstar
    · exact .inl (updateQuery_isRooted hrooted f)
    · exact .inr (updateQuery_asterisk hstar f)
  setPath {x} h _ path hpath := by
    rcases setPath_uri_cases (x := x) hpath with ⟨hsame, -⟩ | ⟨hrooted, -⟩ | ⟨hstar, -⟩
    · rw [hsame]
      exact h
    · exact .inl hrooted
    · exact .inr hstar
  draft h hdraft := by
    rw [hdraft.request]
    exact h

end Exchange

/-! ## What commands do to a rooted path -/

/-- A property that lasts is kept by the commands of a block, wherever the block ends. -/
theorem Exchange.LastsWhere.runAll {P : Exchange → Prop} (h : Lasts P) {s : Scene} (hs : P s.exchange)
    {commands : List Command} (hcommands : ∀ c ∈ commands, c.LeavesPath) :
    P (Command.runAll s commands).2.exchange := by
  induction commands generalizing s with
  | nil => exact hs
  | cons c rest ih =>
    rw [List.forall_mem_cons] at hcommands
    have hfirst := h.runCommand hs hcommands.1
    cases Command.firstStep s c rest with
    | handsOn _ hall =>
      rw [hall]
      exact hs
    | fails _ hrun hall =>
      rw [hrun] at hfirst
      rwa [hall]
    | ends _ hrun hall =>
      rw [hrun] at hfirst
      rwa [hall]
    | goesOn _ hrun hall =>
      rw [hrun] at hfirst
      rw [hall]
      exact ih hfirst hcommands.2

theorem FieldCommand.run_isRooted {c : FieldCommand} (hrequest : c.target.isOfRequest = true) {s : Scene}
    (h : s.exchange.request.uri.IsRooted) : (c.run s).2.exchange.request.uri.IsRooted := by
  obtain ⟨op, target, value⟩ := c
  cases target with
  | header name =>
    simp only [run]
    split <;> exact h
  | query key =>
    simp only [run, Scene.update_exchange]
    exact Exchange.updateQuery_isRooted h _
  | cookie key =>
    simp only [run, Scene.update_exchange, Exchange.request_updateCookies]
    exact h
  | body => exact h
  | _ => cases hrequest

namespace Command

variable {c : Command} {commands : List Command} {s : Scene}

/-- The command puts an asterisk in place of the whole path, and no query keeps it from being written. -/
def Unroots (x : Exchange) : Command → Prop
  | rewrite source replacement => replacement = "*" ∧ source = Check.rooted x.path ∧ x.request.uri.query? = none
  | _ => False

theorem rewritePath_isRooted_iff {x : Exchange} (h : x.request.uri.IsRooted) {source replacement : String}
    (hne : replacement ≠ "") :
    (rewritePath source replacement x).1.request.uri.IsRooted ↔ ¬ (rewrite source replacement).Unroots x := by
  unfold rewritePath
  split
  · next rest hrest =>
    have hpath : replacement ++ String.ofList rest ≠ "" := by
      simp [String.append_eq_empty_iff, hne]
    refine (Exchange.setPath_isRooted_iff (x := x.remember .path) h hpath).trans (not_congr ?_)
    have hsource := Text.dropPrefix?_eq_some hrest
    constructor
    · rintro ⟨hstar, hquery⟩
      -- one character is not enough for a replacement and a rest
      have hchars : replacement.toList ++ rest = ['*'] := by
        rw [← String.toList_ofList (l := rest), ← String.toList_append, hstar]
        rfl
      rcases List.append_eq_singleton_iff.mp hchars with ⟨hempty, -⟩ | ⟨hreplacement, rfl⟩
      · exact absurd (String.toList_inj.mp (hempty.trans rfl)) hne
      · rw [List.append_nil] at hsource
        exact ⟨String.toList_inj.mp (hreplacement.trans rfl), String.toList_inj.mp hsource.symm, hquery⟩
    · rintro ⟨rfl, hwhole, hquery⟩
      rw [← hwhole, List.self_eq_append_right] at hsource
      subst hsource
      exact ⟨by decide, hquery⟩
  · next hnone =>
    refine iff_of_true h ?_
    rintro ⟨-, rfl, -⟩
    have hfound := Text.dropPrefix?_append (Check.rooted x.path).toList []
    rw [List.append_nil, hnone] at hfound
    cases hfound

/-- A path that was rooted is rooted after a command, unless an asterisk was put in its place. -/
theorem run_isRooted_iff (hc : c.LeavesPath) (h : s.exchange.request.uri.IsRooted) :
    (c.run s).2.exchange.request.uri.IsRooted ↔ ¬ c.Unroots s.exchange := by
  cases hedits : c.editsRequest with
  | false =>
    have hother : ¬ c.Unroots s.exchange := by
      cases c with
      | rewrite source replacement => cases hedits
      | _ => exact id
    rw [(run_onlyDraftChanged hedits s).request]
    exact iff_of_true h hother
  | true =>
    cases c with
    | rewrite source replacement => exact rewritePath_isRooted_iff h hc
    | field c => exact iff_of_true (FieldCommand.run_isRooted hedits h) id
    | _ => cases hedits

/-- The path is rooted after each number of commands exactly if none of those that run unroots it. -/
theorem runAll_isRooted_iff (hcommands : ∀ c ∈ commands, c.LeavesPath) (h : s.exchange.request.uri.IsRooted) :
    (∀ n, (runAll s (commands.take n)).2.exchange.request.uri.IsRooted) ↔
      ∀ stage ∈ stages s commands, ¬ stage.2.Unroots stage.1.exchange := by
  induction commands generalizing s with
  | nil =>
    simp only [List.take_nil, stages]
    exact iff_of_true (fun _ ↦ h) (List.forall_mem_nil _)
  | cons c rest ih =>
    rw [List.forall_mem_cons] at hcommands
    have hstep := run_isRooted_iff hcommands.1 h
    rw [← Nat.and_forall_add_one]
    simp only [List.take_zero, List.take_succ_cons]
    refine (and_iff_right h).trans ?_
    cases hends : CommandBlock.endsRule c with
    | true =>
      rcases kind_of_endsRule hends with hkind | hkind
      · have hlast (n : ℕ) : (runAll s (c :: rest.take n)).2 = (c.run s).2 := by
          simp only [runAll, hkind]
          split <;> simp [*]
        simp only [hlast, stages, hkind, List.forall_mem_singleton]
        rw [forall_const, hstep]
      · simp only [runAll, stages, hkind]
        exact iff_of_true (fun _ ↦ h) (List.forall_mem_nil _)
    | false =>
      rw [stages_cons hends]
      simp only [runAll_cons hends]
      cases hrun : c.run s with
      | mk result s' =>
        rw [hrun] at hstep
        cases result with
        | error e =>
          simp only [List.forall_mem_singleton]
          rw [forall_const, hstep]
        | ok _ =>
          rw [List.forall_mem_cons, ← hstep]
          constructor
          · intro hall
            have hfirst := hall 0
            rw [List.take_zero] at hfirst
            exact ⟨hfirst, (ih hcommands.2 hfirst).mp hall⟩
          · rintro ⟨hfirst, hstages⟩
            exact (ih hcommands.2 hfirst).mpr hstages

theorem mem_of_mem_stages {stage : Scene × Command} (h : stage ∈ stages s commands) : stage.2 ∈ commands := by
  induction commands generalizing s with
  | nil => cases h
  | cons c rest ih =>
    cases hends : CommandBlock.endsRule c with
    | true =>
      rcases kind_of_endsRule hends with hkind | hkind
      · simp only [stages, hkind, List.mem_singleton] at h
        rw [h]
        exact .head _
      · simp only [stages, hkind, List.not_mem_nil] at h
    | false =>
      rw [stages_cons hends] at h
      split at h
      · rcases List.mem_cons.mp h with rfl | hrest
        · exact .head _
        · exact .tail _ (ih hrest)
      · rw [List.mem_singleton.mp h]
        exact .head _

end Command

/-! ## Blocks -/

namespace Command

/-- A rewrite compiles as long as something stands in front of a fragment in both arguments, and neither gets a
slash in front that it did not have. -/
theorem exists_compileRewrite {source replacement : String} (hsource : Text.before '#' source.toList ≠ [])
    (hreplacement : Text.before '#' replacement.toList ≠ []) :
    ∃ p q, compileRewrite [source, replacement] = .ok (rewrite p q) ∧
      (p.startsWith "/" = true ↔ source.startsWith "/" = true) ∧
      (q.startsWith "/" = true ↔ replacement.startsWith "/" = true) := by
  obtain ⟨p, hp⟩ := UrlPath.exists_cleanUrl hsource
  obtain ⟨q, hq⟩ := UrlPath.exists_cleanUrl hreplacement
  refine ⟨p, q, ?_, UrlPath.startsWith_of_cleanUrl hp, UrlPath.startsWith_of_cleanUrl hq⟩
  unfold compileRewrite
  dsimp only
  rw [hp, hq]
  rfl

end Command

namespace CommandBlock

variable {env : Environment} {mode : CompileMode} {disk : Disk}

theorem isCompiled_of_mem_lines {lines : List (Nat × String)} {commands : List Command}
    (h : (compileLines env mode disk lines).1 = commands.map .ok) : ∀ c ∈ commands, c.IsCompiled := by
  induction lines generalizing disk commands with
  | nil =>
    rw [compileLines, eq_comm, List.map_eq_nil_iff] at h
    simp [h]
  | cons line lines ih =>
    obtain ⟨i, line⟩ := line
    rw [compileLines_cons] at h
    obtain ⟨c, rest, rfl, hc, hrest⟩ := List.map_eq_cons_iff.mp h.symm
    exact List.forall_mem_cons.mpr ⟨⟨env, mode, disk, line, Condition.atLine_eq_ok_iff.mp hc.symm⟩, ih hrest.symm⟩

theorem leavesPath_of_mem {text : String} {b : CommandBlock} (h : (compile env mode disk text).1 = .ok b) :
    ∀ c ∈ b.commands, c.LeavesPath :=
  fun c hc ↦ (isCompiled_of_mem_lines (compile_eq_ok_iff.mp h).1 c hc).leavesPath

/-- For every block that compiles and every scene whose path starts with a slash: after any number of commands the
path starts with a slash or is the asterisk. It starts with a slash each time exactly if no command that runs puts
an asterisk in place of the whole path of a request without a query, as none does where all replacements start with
a slash. Compilation does not see to that: it takes rewrites whatever their arguments begin with, and leaves
arguments without a slash in front as they are in this. -/
theorem path_is_rooted_or_asterisk (env : Environment) (mode : CompileMode) (disk : Disk) (text : String)
    {b : CommandBlock} (hcompiled : (compile env mode disk text).1 = .ok b) (s : Scene)
    (hslash : s.exchange.request.uri.path.startsWith "/" = true) :
    let path (n : Nat) := (Command.runAll s (b.commands.take n)).2.exchange.request.uri.path
    (∀ n, (path n).startsWith "/" = true ∨ path n = "*") ∧
      ((∀ n, (path n).startsWith "/" = true) ↔
        ∀ stage ∈ Command.stages s b.commands, ¬ stage.2.Unroots stage.1.exchange) ∧
      ((∀ source replacement, .rewrite source replacement ∈ b.commands → replacement.startsWith "/" = true) →
        ∀ n, (path n).startsWith "/" = true) ∧
      ∀ source replacement, Text.before '#' source.toList ≠ [] → Text.before '#' replacement.toList ≠ [] →
        ∃ p q, Command.compileRewrite [source, replacement] = .ok (.rewrite p q) ∧
          (p.startsWith "/" = true ↔ source.startsWith "/" = true) ∧
          (q.startsWith "/" = true ↔ replacement.startsWith "/" = true) := by
  intro path
  have hleaves := leavesPath_of_mem hcompiled
  have hrooted := Command.runAll_isRooted_iff hleaves hslash
  refine ⟨fun n ↦ ?_, hrooted, fun hreplacements ↦ hrooted.mpr ?_, fun _ _ ↦ Command.exists_compileRewrite⟩
  · exact Exchange.rooted_or_asterisk_lasts.runAll (.inl hslash) fun c hc ↦ hleaves c (List.mem_of_mem_take hc)
  · rintro ⟨s', c⟩ hstage hunroots
    have hmem := Command.mem_of_mem_stages hstage
    cases c with
    | rewrite source replacement =>
      obtain ⟨rfl, -, -⟩ := hunroots
      exact absurd (hreplacements source "*" hmem) (by decide +kernel)
    | _ => exact hunroots

/-- An asterisk in place of the whole path gets its slash back where the next rewrite finds it. -/
theorem asterisk_is_rooted_again :
    let b : CommandBlock := ⟨"rewrite /a *\nrewrite /* /b", [.rewrite "/a" "*", .rewrite "/*" "/b"]⟩
    let s : Scene := ⟨.start (.plain "/a"), .quiet⟩
    let path (n : Nat) := (Command.runAll s (b.commands.take n)).2.exchange.request.uri.path
    (compile (fun _ ↦ none) .serve World.quiet.disk b.text).1 = .ok b ∧
      s.exchange.request.uri.path.startsWith "/" = true ∧
      (∀ n, (path n).startsWith "/" = true ∨ path n = "*") ∧ path 1 = "*" ∧ path 2 = "/b" := by
  have hcompiled : (compile (fun _ ↦ none) .serve World.quiet.disk "rewrite /a *\nrewrite /* /b").1 =
      .ok ⟨"rewrite /a *\nrewrite /* /b", [.rewrite "/a" "*", .rewrite "/*" "/b"]⟩ := rfl
  have hslash : (Request.plain "/a").uri.path.startsWith "/" = true := by decide +kernel
  have hpaths := path_is_rooted_or_asterisk _ _ _ _ hcompiled ⟨.start (.plain "/a"), .quiet⟩ hslash
  exact ⟨hcompiled, hslash, hpaths.1, by decide +kernel, by decide +kernel⟩

/-- A block that unroots the path compiles, and behind an authority the asterisk is read as a part of it. -/
theorem asterisk_joins_authority :
    let b : CommandBlock := ⟨"rewrite /a *", [.rewrite "/a" "*"]⟩
    let s : Scene := ⟨.start (.absolute "h.com" "/a"), .quiet⟩
    let rewritten := (Command.runAll s b.commands).2.exchange.request.uri
    (compile (fun _ ↦ none) .serve World.quiet.disk b.text).1 = .ok b ∧
      Uri.ofString "http://h.com/a" = .ok s.exchange.request.uri ∧
      s.exchange.request.uri.path.startsWith "/" = true ∧
      rewritten.path.startsWith "/" = false ∧ rewritten.text = "http://h.com*" ∧
      Uri.ofString rewritten.text = .ok ⟨some "http", some "h.com*", ⟨"", none⟩⟩ := by
  exact ⟨rfl, rfl, by decide +kernel, by decide +kernel, by decide +kernel, by decide +kernel⟩

end CommandBlock

end RuleGate
