import RuleGate.Proofs.Params
import RuleGate.Proofs.Text.Decoding

/-!
# Parameters on the wire

The pairs of a query as the bytes they stand for. Where these bytes are UTF-8, reading the query gives the
texts they spell; where they are not, reading gives the component as it was written, which stands for other
bytes once it is written again.
-/

namespace RuleGate

/-- The bytes spell a text. -/
def Bytes.IsText (s : Bytes) : Prop := s.toString?.isSome = true

instance (s : Bytes) : Decidable s.IsText := inferInstanceAs (Decidable (_ = true))

namespace Params

/-- The bytes that a key or a value stands for: plus signs are spaces, then escapes are decoded. -/
def componentBytes (s : List Char) : Bytes :=
  Percent.decodeBytes (Text.utf8Encode (s.map fun c ↦ if c = '+' then ' ' else c))

/-- The key and the value of a pair as written. -/
def cutPair (s : List Char) : List Char × List Char := (Text.cut? '=' s).getD (s, [])

/-- The bytes that the key and the value of a pair stand for. -/
def wirePair (s : List Char) : Bytes × Bytes := (componentBytes (cutPair s).1, componentBytes (cutPair s).2)

/-- The pairs of a query that are not empty, as the bytes that they stand for. -/
def wirePairs (s : String) : List (Bytes × Bytes) :=
  ((Text.splitOn '&' s.toList).filter (fun w ↦ !w.isEmpty)).map wirePair

/-- The pairs whose key is another one, in order. -/
def others (key : String) (p : Params) : List (String × String) := p.pairs.filter fun pair ↦ pair.1 != key

/-- The pairs of a query whose key stands for other bytes than the given one, in order. -/
def wireOthers (key : String) (s : String) : List (Bytes × Bytes) :=
  (wirePairs s).filter fun pair ↦ pair.1 != Bytes.ofString key

def bytesOf (pair : String × String) : Bytes × Bytes := (Bytes.ofString pair.1, Bytes.ofString pair.2)

/-- Both the key and the value spell a text. -/
def IsTextPair (pair : Bytes × Bytes) : Prop := pair.1.IsText ∧ pair.2.IsText

instance (pair : Bytes × Bytes) : Decidable (IsTextPair pair) := inferInstanceAs (Decidable (_ ∧ _))

/-! ## Reading -/

theorem ofString_decodeComponent {s : List Char} (h : (componentBytes s).IsText) :
    Bytes.ofString (decodeComponent s) = componentBytes s := by
  obtain ⟨text, htext⟩ := Option.isSome_iff_exists.mp h
  have hdecode : decodeComponent s = text := by
    unfold componentBytes at htext
    rw [decodeComponent, Percent.decodeOrSelf, Percent.decode?, Bytes.ofString, String.toList_ofList,
      htext, Option.getD_some]
  rw [hdecode, Bytes.ofString_of_toString? htext]

theorem parsePair_eq (s : List Char) :
    parsePair s = (decodeComponent (cutPair s).1, decodeComponent (cutPair s).2) := by
  unfold parsePair cutPair
  cases Text.cut? '=' s <;> rfl

theorem bytesOf_parsePair {s : List Char} (h : IsTextPair (wirePair s)) :
    bytesOf (parsePair s) = wirePair s := by
  rw [parsePair_eq, bytesOf, ofString_decodeComponent h.1, ofString_decodeComponent h.2, wirePair]

/-- A key that stands for the bytes of a text is read as the text. -/
theorem parsePair_key {s : List Char} {key : String} (h : (wirePair s).1 = Bytes.ofString key) :
    (parsePair s).1 = key := by
  have htext : (componentBytes (cutPair s).1).IsText := by
    rw [show componentBytes (cutPair s).1 = Bytes.ofString key from h, Bytes.IsText,
      Bytes.toString?_ofString, Option.isSome_some]
  apply Bytes.ofString_injective
  rw [parsePair_eq, ofString_decodeComponent htext]
  exact h

/-- Pairs that spell texts are read as these texts, and told from the given key alike. -/
theorem wireOthers_eq {key s : String} (h : ∀ pair ∈ wireOthers key s, IsTextPair pair) :
    wireOthers key s = ((parse s).others key).map bytesOf := by
  unfold wireOthers wirePairs at h ⊢
  unfold others parse
  dsimp only
  generalize (Text.splitOn '&' s.toList).filter (fun w ↦ !w.isEmpty) = pieces at h ⊢
  induction pieces with
  | nil => rfl
  | cons w pieces ih =>
    simp only [List.map_cons, List.filter_cons, bne_iff_ne] at h ih ⊢
    by_cases hkey : (wirePair w).1 = Bytes.ofString key
    · rw [if_neg (not_not_intro hkey)] at h ⊢
      rw [if_neg (not_not_intro (parsePair_key hkey))]
      exact ih h
    · rw [if_pos hkey, List.forall_mem_cons] at h
      have hbytes := bytesOf_parsePair h.1
      have hread : (parsePair w).1 ≠ key := by
        intro heq
        exact hkey (by rw [← hbytes, bytesOf, heq])
      rw [if_pos hkey, if_pos hread, List.map_cons, hbytes, ih h.2]

/-! ## Writing -/

theorem componentBytes_encode (s : String) :
    componentBytes (Percent.encode s).toList = Bytes.ofString s := by
  rw [componentBytes, map_plus_encode, Percent.encode, String.toList_ofList,
    Percent.decodeBytes_encodeBytes Percent.isUnreserved_ascii (by decide)]

theorem wirePair_encodePair (pair : String × String) : wirePair (encodePair pair) = bytesOf pair := by
  rw [wirePair, cutPair, encodePair, Text.cut?_append (delimiter_not_mem_encode (by decide) pair.1),
    Option.getD_some, componentBytes_encode, componentBytes_encode, bytesOf]

/-- Written parameters stand for the bytes of their keys and values. -/
theorem wirePairs_encode (p : Params) : wirePairs p.encode = p.pairs.map bytesOf := by
  have hpair : wirePair ∘ encodePair = bytesOf := funext wirePair_encodePair
  rw [wirePairs, pieces_encode, List.map_map, hpair]

theorem wireOthers_encode (key : String) (p : Params) :
    wireOthers key p.encode = (p.others key).map bytesOf := by
  have hkey : (fun pair : Bytes × Bytes ↦ pair.1 != Bytes.ofString key) ∘ bytesOf =
      fun pair ↦ pair.1 != key := by
    funext pair
    rw [Function.comp_apply, bytesOf, Bool.eq_iff_iff, bne_iff_ne, bne_iff_ne]
    exact Bytes.ofString_injective.ne_iff
  rw [wireOthers, wirePairs_encode, List.filter_map, hkey, others]

theorem isTextPair_bytesOf (pair : String × String) : IsTextPair (bytesOf pair) := by
  unfold IsTextPair bytesOf Bytes.IsText
  rw [Bytes.toString?_ofString, Bytes.toString?_ofString]
  exact ⟨rfl, rfl⟩

end Params

end RuleGate
