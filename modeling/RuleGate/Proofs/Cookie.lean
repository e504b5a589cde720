import RuleGate.Cookie
import RuleGate.Proofs.Http.Header
import RuleGate.Proofs.Text.Trim

/-!
# Cookies that are read as they were written

Cookies are written as they are, without escapes. So a header is read as the cookies that each of the written
ones is read as alone, one after another, and these are the written cookies exactly if each of them is plain: no
part of it ends the cookie, is trimmed or loses quotes.
-/

namespace RuleGate.Cookie

/-- The text of a cookie in a header. -/
def written (c : Cookie) : List Char := c.name.toList ++ '=' :: c.value.toList

/-- What the text of a cookie alone is read as. -/
def reread (c : Cookie) : List Cookie := (Text.splitOn ';' c.written).filterMap parsePair?

/-- The text of a cookie is visible ASCII, so that it is read from a header that it is part of. -/
def Visible (c : Cookie) : Prop := (Text.utf8Encode c.written).all HeaderValue.isVisibleAscii = true

instance (c : Cookie) : Decidable c.Visible := inferInstanceAs (Decidable (_ = true))

/-- The text of a cookie can be part of a header. -/
def Sendable (c : Cookie) : Prop := (Text.utf8Encode c.written).all HeaderValue.isValueByte = true

instance (c : Cookie) : Decidable c.Sendable := inferInstanceAs (Decidable (_ = true))

theorem Visible.sendable {c : Cookie} (h : c.Visible) : c.Sendable := by
  rw [Sendable, List.all_eq_true]
  intro b hb
  exact HeaderValue.isValueByte_of_isVisibleAscii (List.all_eq_true.mp h b hb)

/-- A cookie that is read as it is written. -/
structure IsPlain (c : Cookie) : Prop where
  name_ne_empty : c.name ≠ ""
  sign_not_mem : '=' ∉ c.name.toList
  name_trimmed : Text.trim c.name.toList = c.name.toList
  value_trimmed : Text.trim c.value.toList = c.value.toList
  value_unquoted : unquote c.value.toList = c.value.toList
  separator_not_mem : ';' ∉ c.written
  visible : c.Visible

theorem encodeAll_eq (cs : List Cookie) :
    encodeAll cs = String.ofList (Text.join [';', ' '] (cs.map written)) := rfl

/-! ## One pair -/

theorem parsePair?_eq_some_iff {s : List Char} {c : Cookie} :
    parsePair? s = some c ↔ ∃ a b, Text.cut? '=' (Text.trim s) = some (a, b) ∧ Text.trim a ≠ [] ∧
      c = ⟨String.ofList (Text.trim a), String.ofList (unquote (Text.trim b))⟩ := by
  unfold parsePair?
  cases Text.cut? '=' (Text.trim s) with
  | none => simp
  | some parts =>
    obtain ⟨a, b⟩ := parts
    by_cases hname : Text.trim a = []
    · simp [hname]
    · simp only [Option.bind_eq_bind, Option.bind_some, List.isEmpty_iff, hname, if_false, Option.some.injEq,
        Prod.mk.injEq]
      constructor
      · rintro rfl
        exact ⟨a, b, ⟨rfl, rfl⟩, hname, rfl⟩
      · rintro ⟨a', b', ⟨rfl, rfl⟩, -, rfl⟩
        rfl

theorem unquote_sublist (s : List Char) : (unquote s).Sublist s := by
  unfold unquote
  split
  · split
    · exact (List.dropLast_sublist _).trans (List.sublist_cons_self _ _)
    · exact .refl _
  · exact .refl _

/-- The name and the value of a cookie are parts of the text that it is read from. -/
theorem mem_of_parsePair? {s : List Char} {c : Cookie} (h : parsePair? s = some c) {d : Char}
    (hd : d ∈ c.name.toList ∨ d ∈ c.value.toList) : d ∈ s := by
  obtain ⟨a, b, hcut, -, rfl⟩ := parsePair?_eq_some_iff.mp h
  obtain ⟨hwhole, -⟩ := Text.cut?_eq_some hcut
  apply (Text.dropBothWhile_sublist Text.isBlank s).subset
  rw [show Text.dropBothWhile Text.isBlank s = a ++ '=' :: b from hwhole]
  rw [String.toList_ofList, String.toList_ofList] at hd
  rcases hd with hname | hvalue
  · exact List.mem_append_left _ ((Text.dropBothWhile_sublist _ a).subset hname)
  · exact List.mem_append_right _
      (.tail _ ((Text.dropBothWhile_sublist _ b).subset ((unquote_sublist _).subset hvalue)))

theorem trim_written (c : Cookie) :
    Text.trim c.written = Text.trimStart c.name.toList ++ '=' :: Text.trimEnd c.value.toList :=
  Text.dropBothWhile_append_cons_of_neg (by decide) _ _

/-- Reading gives the same name and value only if nothing of them was dropped. -/
theorem parsePair?_written_iff (c : Cookie) :
    parsePair? c.written = some c ↔
      c.name ≠ "" ∧ '=' ∉ c.name.toList ∧ Text.trim c.name.toList = c.name.toList ∧
        Text.trim c.value.toList = c.value.toList ∧ unquote c.value.toList = c.value.toList := by
  rw [parsePair?_eq_some_iff, trim_written]
  constructor
  · rintro ⟨a, b, hcut, hne, hc⟩
    have hname : c.name.toList = Text.trim a := by rw [hc, String.toList_ofList]
    have hvalue : c.value.toList = unquote (Text.trim b) := by rw [hc, String.toList_ofList]
    have hsign : '=' ∉ c.name.toList := by
      rw [hname]
      exact fun hmem ↦ (Text.cut?_eq_some hcut).2 ((Text.dropBothWhile_sublist _ a).subset hmem)
    have hfront : '=' ∉ Text.trimStart c.name.toList :=
      fun hmem ↦ hsign ((List.dropWhile_suffix _).subset hmem)
    rw [Text.cut?_append hfront] at hcut
    obtain ⟨rfl, rfl⟩ := Prod.mk.inj (Option.some.inj hcut)
    -- No step of reading makes the name or the value longer, so none of them has dropped anything.
    have hstart : Text.trimStart c.name.toList = c.name.toList := by
      refine (List.dropWhile_suffix _).sublist.antisymm ?_
      nth_rewrite 1 [hname]
      exact Text.dropBothWhile_sublist _ _
    have hunquote : c.value.toList.Sublist (Text.trim (Text.trimEnd c.value.toList)) := by
      nth_rewrite 1 [hvalue]
      exact unquote_sublist _
    have hend : Text.trimEnd c.value.toList = c.value.toList := by
      refine (Text.dropEndWhile_front _ _).sublist.antisymm ?_
      exact hunquote.trans (Text.dropBothWhile_sublist _ _)
    rw [hstart] at hname hne
    rw [hend] at hvalue hunquote
    have htrim : Text.trim c.value.toList = c.value.toList :=
      (Text.dropBothWhile_sublist _ _).antisymm hunquote
    rw [htrim] at hvalue
    refine ⟨?_, hsign, hname.symm, htrim, hvalue.symm⟩
    exact fun hempty ↦ hne (by rw [← hname, hempty]; rfl)
  · rintro ⟨hne, hsign, hname, hvalue, hquotes⟩
    have hstart : Text.trimStart c.name.toList = c.name.toList := (Text.dropBothWhile_eq_self_iff.mp hname).1
    have hend : Text.trimEnd c.value.toList = c.value.toList := (Text.dropBothWhile_eq_self_iff.mp hvalue).2
    refine ⟨c.name.toList, c.value.toList, ?_, ?_, ?_⟩
    · rw [hstart, hend, Text.cut?_append hsign]
    · rw [hname]
      exact fun hnil ↦ hne (String.toList_eq_nil_iff.mp hnil)
    · rw [hname, hvalue, hquotes, String.ofList_toList, String.ofList_toList]

/-! ## All pairs of a header -/

/-- The pairs between the separators of a text that are cookies. -/
def parsePieces (s : List Char) : List Cookie := (Text.splitOn ';' s).filterMap parsePair?

theorem parsePieces_blank (s : List Char) : parsePieces (' ' :: s) = parsePieces s := by
  have hpair (w : List Char) : parsePair? (' ' :: w) = parsePair? w := by
    rw [parsePair?, parsePair?, Text.trim, Text.dropBothWhile_cons_of_pos (by decide), Text.trim]
  obtain ⟨w, ws, hsplit, hcons⟩ := Text.splitWhere_cons_of_neg (p := (· == ';')) (c := ' ') (by decide) s
  rw [parsePieces, parsePieces, Text.splitOn, Text.splitOn, hcons, hsplit, List.filterMap_cons,
    List.filterMap_cons, hpair]

/-- The separators that are written divide what is read. -/
theorem parsePieces_join (ws : List (List Char)) :
    parsePieces (Text.join [';', ' '] ws) = ws.flatMap parsePieces := by
  match ws with
  | [] => rfl
  | [w] => simp [Text.join]
  | w :: w' :: ws =>
    have hcut : parsePieces (w ++ ';' :: ' ' :: Text.join [';', ' '] (w' :: ws)) =
        parsePieces w ++ parsePieces (' ' :: Text.join [';', ' '] (w' :: ws)) := by
      rw [parsePieces, Text.splitOn_append_cons, List.filterMap_append]
      rfl
    rw [Text.join_cons_cons, List.append_assoc, List.cons_append, List.singleton_append, hcut,
      parsePieces_blank, parsePieces_join (w' :: ws)]
    exact List.flatMap_cons.symm

/-- A written header is read as what each of its cookies is read as alone. -/
theorem parseLine_encodeAll (cs : List Cookie) : parseLine (encodeAll cs) = cs.flatMap reread := by
  rw [encodeAll_eq, parseLine, String.toList_ofList]
  exact (parsePieces_join _).trans (List.flatMap_map _ _ _)

/-- No cookie that is read holds a separator. -/
theorem separator_not_mem_of_parsePieces {s : List Char} {c : Cookie} (h : c ∈ parsePieces s) :
    ';' ∉ c.written := by
  obtain ⟨w, hw, hc⟩ := List.mem_filterMap.mp h
  have hpiece : ';' ∉ w := fun hmem ↦ absurd (Text.neg_of_mem_splitWhere hw hmem) (by decide)
  rw [written, List.mem_append, List.mem_cons, not_or, not_or]
  exact ⟨fun hmem ↦ hpiece (mem_of_parsePair? hc (.inl hmem)), by decide,
    fun hmem ↦ hpiece (mem_of_parsePair? hc (.inr hmem))⟩

theorem reread_of_separator_not_mem {c : Cookie} (h : ';' ∉ c.written) :
    reread c = (parsePair? c.written).toList := by
  rw [reread, Text.splitOn_eq_singleton h]
  cases hpair : parsePair? c.written <;> simp [hpair]

theorem reread_eq_singleton_iff {c : Cookie} :
    reread c = [c] ↔ ';' ∉ c.written ∧ parsePair? c.written = some c := by
  constructor
  · intro h
    have hsep : ';' ∉ c.written := separator_not_mem_of_parsePieces (s := c.written) (by
      rw [show parsePieces c.written = [c] from h]
      exact List.mem_singleton_self c)
    rw [reread_of_separator_not_mem hsep] at h
    exact ⟨hsep, by cases hpair : parsePair? c.written <;> simp_all⟩
  · rintro ⟨hsep, hpair⟩
    rw [reread_of_separator_not_mem hsep, hpair]
    rfl

section Pieces

variable {α : Type} {f : α → List α}

theorem length_flatMap_le {l : List α} (h : ∀ a ∈ l, (f a).length ≤ 1) : (l.flatMap f).length ≤ l.length := by
  induction l with
  | nil => exact Nat.le_refl 0
  | cons a l ih =>
    rw [List.forall_mem_cons] at h
    rw [List.flatMap_cons, List.length_append, List.length_cons]
    have hrest := ih h.2
    omega

/-- If each element gives at most one, the same list comes back only if each gives itself. -/
theorem eq_singleton_of_flatMap_eq_self {l : List α} (h : ∀ a ∈ l, (f a).length ≤ 1)
    (hsame : l.flatMap f = l) : ∀ a ∈ l, f a = [a] := by
  induction l with
  | nil => exact List.forall_mem_nil _
  | cons a l ih =>
    rw [List.forall_mem_cons] at h
    have hrest := length_flatMap_le h.2
    have hlength := congrArg List.length hsame
    rw [List.flatMap_cons, List.length_append, List.length_cons] at hlength
    obtain ⟨b, hb⟩ := List.length_eq_one_iff.mp (show (f a).length = 1 by omega)
    rw [List.flatMap_cons, hb, List.singleton_append] at hsame
    obtain ⟨rfl, htail⟩ := List.cons.inj hsame
    exact List.forall_mem_cons.mpr ⟨hb, ih h.2 htail⟩

end Pieces

/-- Exactly the cookies that are read alone as they are written are read so in a header. -/
theorem parseLine_encodeAll_eq_self_iff {cs : List Cookie} :
    parseLine (encodeAll cs) = cs ↔ ∀ c ∈ cs, reread c = [c] := by
  rw [parseLine_encodeAll]
  constructor
  · intro hsame
    refine eq_singleton_of_flatMap_eq_self (fun c hc ↦ ?_) hsame
    rw [← hsame] at hc
    obtain ⟨d, -, hd⟩ := List.mem_flatMap.mp hc
    rw [reread_of_separator_not_mem (separator_not_mem_of_parsePieces hd)]
    cases parsePair? c.written <;> simp
  · intro h
    rw [List.flatMap_congr h]
    simp

theorem IsPlain.reread_eq {c : Cookie} (h : c.IsPlain) : reread c = [c] :=
  reread_eq_singleton_iff.mpr ⟨h.separator_not_mem, (parsePair?_written_iff c).mpr
    ⟨h.name_ne_empty, h.sign_not_mem, h.name_trimmed, h.value_trimmed, h.value_unquoted⟩⟩

theorem isPlain_of_reread {c : Cookie} (h : reread c = [c]) (hvisible : c.Visible) : c.IsPlain := by
  obtain ⟨hsep, hpair⟩ := reread_eq_singleton_iff.mp h
  obtain ⟨hne, hsign, hname, hvalue, hquotes⟩ := (parsePair?_written_iff c).mp hpair
  exact ⟨hne, hsign, hname, hvalue, hquotes, hsep, hvisible⟩

/-! ## The bytes of a header -/

theorem all_join {p : UInt8 → Bool} (hsep : p 59 = true) (hblank : p 32 = true) (ws : List (List Char)) :
    (Text.utf8Encode (Text.join [';', ' '] ws)).all p = true ↔
      ∀ w ∈ ws, (Text.utf8Encode w).all p = true := by
  match ws with
  | [] => simp [Text.join, Text.utf8Encode]
  | [w] => simp [Text.join]
  | w :: w' :: ws =>
    have hbetween : (Text.utf8Encode [';', ' ']).all p = true := by
      rw [show Text.utf8Encode [';', ' '] = [59, 32] from rfl]
      simp [hsep, hblank]
    rw [Text.join_cons_cons, Text.utf8Encode_append, Text.utf8Encode_append, List.all_append, List.all_append,
      hbetween, Bool.and_true, Bool.and_eq_true, all_join hsep hblank (w' :: ws), List.forall_mem_cons (a := w)]

theorem all_encodeAll {p : UInt8 → Bool} (hsep : p 59 = true) (hblank : p 32 = true) (cs : List Cookie) :
    (Bytes.ofString (encodeAll cs)).all p = true ↔ ∀ c ∈ cs, (Text.utf8Encode c.written).all p = true := by
  rw [encodeAll_eq, Bytes.ofString, String.toList_ofList, all_join hsep hblank]
  exact List.forall_mem_map

/-- The bytes of a cookie that is read from a line are among those of the line, but for the sign. -/
theorem all_written_of_parseLine {p : UInt8 → Bool} (hsign : p 61 = true) {line : String} {c : Cookie}
    (hline : (Bytes.ofString line).all p = true) (h : c ∈ parseLine line) :
    (Text.utf8Encode c.written).all p = true := by
  obtain ⟨w, hw, hc⟩ := List.mem_filterMap.mp h
  have hmem {d : Char} (hd : d ∈ c.name.toList ∨ d ∈ c.value.toList) : d ∈ line.toList :=
    Text.mem_of_mem_splitWhere hw (mem_of_parsePair? hc hd)
  rw [List.all_eq_true] at hline ⊢
  intro b hb
  obtain ⟨d, hd, hbyte⟩ := List.mem_flatMap.mp hb
  rw [written, List.mem_append, List.mem_cons] at hd
  rcases hd with hname | rfl | hvalue
  · exact hline b (List.mem_flatMap.mpr ⟨d, hmem (.inl hname), hbyte⟩)
  · obtain rfl := List.mem_singleton.mp (show b ∈ [61] from hbyte)
    exact hsign
  · exact hline b (List.mem_flatMap.mpr ⟨d, hmem (.inr hvalue), hbyte⟩)

end RuleGate.Cookie
