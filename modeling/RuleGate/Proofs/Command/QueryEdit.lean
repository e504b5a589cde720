import RuleGate.Proofs.Command.Coherence
import RuleGate.Proofs.Params.Edits
import RuleGate.Proofs.Params.Wire

/-!
# Edits of one query key

Every edit reads the whole query and writes it anew. The path, the scheme and the authority stay, and so do
the pairs with other keys as they are read. On the wire these pairs stand for the same bytes as before where
they spell texts; a component that is not UTF-8 counts as its text as written, and is escaped again.
-/

namespace RuleGate

namespace Params

/-- Between the pairs in front of the first one with a key and those behind it, there is at most that one. -/
theorem others_set (key value : String) (p : Params) : (p.set key value).others key = p.others key := by
  have hfirst : (p.pairs.drop (p.pairs.findIdx (·.1 == key))).filter (·.1 != key) =
      (p.pairs.drop (p.pairs.findIdx (·.1 == key) + 1)).filter (·.1 != key) := by
    by_cases hlt : p.pairs.findIdx (·.1 == key) < p.pairs.length
    · have hkey : p.pairs[p.pairs.findIdx (·.1 == key)].1 = key := beq_iff_eq.mp (List.findIdx_getElem (w := hlt))
      rw [List.drop_eq_getElem_cons hlt, List.filter_cons_of_neg (by simpa using hkey)]
    · rw [List.drop_of_length_le (by omega), List.drop_of_length_le (by omega)]
  rw [others, pairs_set, List.filter_append, List.filter_cons_of_neg (by simp), List.filter_filter]
  simp only [Bool.and_self]
  rw [← hfirst, ← List.filter_append, List.take_append_drop, others]

/-- No edit of one key changes the pairs with other keys or their order. -/
theorem others_editQuery (op : FieldOp) (key value : String) (p : Params) :
    (FieldCommand.editQuery op key value p).others key = p.others key := by
  cases op with
  | set => exact others_set key value p
  | add => simp [FieldCommand.editQuery, Params.add, others]
  | remove => simp [FieldCommand.editQuery, erase, others, List.filter_filter]

end Params

namespace Uri

/-- The query as written, which is nothing if there is none. -/
def queryText (u : Uri) : String := u.query?.getD ""

/-- What an edit of a query key leaves alone in a target. -/
structure KeepsOthers (key : String) (u u' : Uri) : Prop where
  path : u'.path = u.path
  scheme : u'.scheme = u.scheme
  authority : u'.authority = u.authority
  /-- The other pairs are read as before. -/
  read : (Params.parse u'.queryText).others key = (Params.parse u.queryText).others key
  /-- The other pairs stand for the same bytes, unless one that is not UTF-8 was written anew. -/
  wire : Params.wireOthers key u'.queryText = Params.wireOthers key u.queryText ↔
    u' = u ∨ ∀ pair ∈ Params.wireOthers key u.queryText, Params.IsTextPair pair

variable {u : Uri} {key : String}

theorem KeepsOthers.refl (key : String) (u : Uri) : KeepsOthers key u u where
  path := rfl
  scheme := rfl
  authority := rfl
  read := rfl
  wire := iff_of_true rfl (.inl rfl)

/-- Written parameters spell texts, so other bytes come back where the query had such. -/
theorem wireOthers_withParams {p : Params} (h : p.others key = (Params.parse u.queryText).others key) :
    Params.wireOthers key (u.withParams p).queryText = Params.wireOthers key u.queryText ↔
      u.withParams p = u ∨ ∀ pair ∈ Params.wireOthers key u.queryText, Params.IsTextPair pair := by
  have hwritten : Params.wireOthers key (u.withParams p).queryText =
      ((Params.parse u.queryText).others key).map Params.bytesOf := by
    rw [queryText, query_withParams, Params.wireOthers_encode, h]
  constructor
  · intro hsame
    right
    rw [← hsame, hwritten]
    intro pair hpair
    obtain ⟨texts, -, rfl⟩ := List.mem_map.mp hpair
    exact Params.isTextPair_bytesOf texts
  · rintro (hsame | htexts)
    · rw [hsame]
    · rw [hwritten, Params.wireOthers_eq htexts]

theorem keepsOthers_withParams (hsettled : u.Settled) {p : Params}
    (h : p.others key = (Params.parse u.queryText).others key) : KeepsOthers key u (u.withParams p) where
  path := path_withParams hsettled p
  scheme := rfl
  authority := rfl
  read := by rw [queryText, parse_query_withParams, h]
  wire := wireOthers_withParams h

end Uri

theorem Exchange.Coherent.updateQuery_keepsOthers {x : Exchange} (h : x.Coherent) (op : FieldOp)
    (key value : String) :
    Uri.KeepsOthers key x.request.uri
      (x.updateQuery (FieldCommand.editQuery op key value)).1.request.uri := by
  rcases updateQuery_cases h.target (FieldCommand.editQuery op key value) with hupdate | hupdate
  · rw [hupdate]
    exact .refl key x.request.uri
  · rw [hupdate]
    refine Uri.keepsOthers_withParams h.target ?_
    rw [Params.others_editQuery, h.query_eq]
    rfl

/-- Whatever was read and run before, setting, adding or removing a query key keeps the path, the scheme and
the authority of a target in origin form or in absolute form, and the pairs with other keys as they are read.
These stand for the same bytes as before exactly if the target is not changed or if they all spell texts. -/
theorem query_edit_keeps_others (target : String) {r : Request} (world : World)
    (activities : List Activity) (htarget : Uri.ofString target = .ok r.uri)
    (hform : r.uri.scheme.isSome = true ∨ r.uri.authority = none)
    (hcompiled : ∀ c, .command c ∈ activities → Command.IsCompiled c)
    (op : FieldOp) (key : String) (value : Template) :
    Uri.KeepsOthers key (activities.foldl Activity.perform ⟨.start r, world⟩).exchange.request.uri
      (FieldCommand.run ⟨op, .query key, value⟩
        (activities.foldl Activity.perform ⟨.start r, world⟩)).2.exchange.request.uri := by
  have hstart := Exchange.start_coherent (Uri.settled_of_ofString htarget hform)
  have hcoherent := Activity.foldl_perform_coherent (s := ⟨.start r, world⟩) hstart hcompiled
  generalize activities.foldl Activity.perform ⟨.start r, world⟩ = s at hcoherent ⊢
  simp only [FieldCommand.run, Scene.update_exchange]
  exact hcoherent.updateQuery_keepsOthers op key (value.expand s.exchange)

/-- A request for the root with a query. -/
def Request.asking (query : String) : Request :=
  { Request.plain "/" with uri := ⟨none, none, ⟨"/", some query⟩⟩ }

/-- What is set in a query while the other pair spells texts: its bytes stay. -/
theorem query_edit_keeps_accent :
    let s : Scene := ⟨.start (.asking "a=%c3%a9&b=0"), .quiet⟩
    let s' := (FieldCommand.run ⟨.set, .query "b", ⟨[.literal "1"]⟩⟩ s).2
    Uri.KeepsOthers "b" s.exchange.request.uri s'.exchange.request.uri ∧
      s'.exchange.request = .asking "a=%C3%A9&b=1" ∧
      Params.wireOthers "b" "a=%C3%A9&b=1" = [([97], [195, 169])] := by
  refine ⟨?_, by decide +kernel, by decide +kernel⟩
  exact query_edit_keeps_others "/?a=%c3%a9&b=0" .quiet [] rfl (.inr rfl) nofun .set "b" ⟨[.literal "1"]⟩

/-- A byte that is not UTF-8 is taken for its escape as written, whose percent sign is then escaped. -/
theorem query_edit_changes_other_pair :
    let s : Scene := ⟨.start (.asking "a=%ff"), .quiet⟩
    let s' := (FieldCommand.run ⟨.set, .query "b", ⟨[.literal "1"]⟩⟩ s).2
    Uri.ofString "/?a=%ff" = .ok s.exchange.request.uri ∧
      s'.exchange.request = .asking "a=%25ff&b=1" ∧
      Params.wireOthers "b" s.exchange.request.uri.queryText = [([97], [255])] ∧
      Params.wireOthers "b" s'.exchange.request.uri.queryText = [([97], [37, 102, 102])] := by
  exact ⟨rfl, by decide +kernel, by decide +kernel, by decide +kernel⟩

end RuleGate
