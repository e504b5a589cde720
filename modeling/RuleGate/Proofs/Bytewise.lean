import RuleGate.Proofs.Matcher.Bytewise
import RuleGate.Proofs.Template.Pieces

/-!
# Scanners of bytes keep to characters

The scanners keep their positions as numbers of bytes and cut texts at them. On no text, however malformed, do they cut
inside a character, outside of the text or backwards, or run on: they give what the readers of characters give, and the
texts that they cut are pieces of the source.
-/

namespace RuleGate.Bytewise

open Text

/-- The scanner is not at fault and gives what a reader of characters gives. The texts in its result are what is left of
contiguous pieces of the source, so no character is in them that is not in the source. -/
structure ReadsPieces {α : Type} (scan : Bytewise α) (outcome : Compiled α) (texts : α → List String)
    (left : List Char → List Char) (source : String) : Prop where
  run_eq : scan.run = some outcome
  isCut : ∀ result, outcome = .ok result → ∀ text ∈ texts result, IsCut left text.toList source.toList
  subset : ∀ result, outcome = .ok result → ∀ text ∈ texts result, text.toList ⊆ source.toList

section

variable {α : Type} {scan : Bytewise α} {outcome : Compiled α} {texts : α → List String}
  {left : List Char → List Char} {source : String}

theorem ReadsPieces.of_isCut (hrun : scan = ofCompiled outcome) (hleft : ∀ piece, (left piece).Sublist piece)
    (hcut : ∀ result, outcome = .ok result → ∀ text ∈ texts result, IsCut left text.toList source.toList) :
    ReadsPieces scan outcome texts left source :=
  ⟨hrun ▸ rfl, hcut, fun result hresult text htext ↦ (hcut result hresult text htext).subset hleft⟩

end

variable {s : String}

theorem parseBytes_readsPieces (s : String) :
    ReadsPieces (Template.parseBytes s) (Template.parse s) Template.literals Template.withoutEscapes s :=
  .of_isCut (Template.parseBytes_eq s) Template.withoutEscapes_sublist fun _ ht _ htext ↦
    Template.isCut_of_parse ht htext

theorem argumentsAt_readsPieces {rest : List Char} (h : '(' :: rest <:+ s.toList) (func : String) :
    ReadsPieces (Template.argumentsAt s (offset s ('(' :: rest)) func)
      (Template.ArgumentCursor.outcome s func (Template.scanArgs none [] [] rest)) Prod.fst
      (Template.withoutQuotes none) s := by
  refine .of_isCut (Template.argumentsAt_eq h func) (Template.withoutQuotes_sublist none) fun result hresult a ha ↦ ?_
  have hrest : rest <:+: s.toList := ((List.suffix_cons _ rest).trans h).isInfix
  cases hscan : Template.scanArgs none [] [] rest with
  | error e => rw [hscan] at hresult; cases hresult
  | ok out =>
    rw [hscan] at hresult
    cases hresult
    exact (Template.isCut_of_scanArgs hscan ha).mono hrest

/-- Quotes join what stands before them, and characters of more than one byte come through. -/
example : (Template.argumentsAt "f(aé 'b, ü' ,)" 1 "f").run = some (.ok (["aéb, ü"], 15)) := rfl

theorem splitTypedBytes_readsPieces (s : String) :
    ReadsPieces (Matcher.splitTypedBytes s)
      ((Matcher.splitTyped s.toList).map fun (type, e) ↦ (type, String.ofList e)) (fun x ↦ [x.2]) id s := by
  refine .of_isCut (Matcher.splitTypedBytes_eq s) List.Sublist.refl fun result hresult text htext ↦ ?_
  obtain ⟨⟨type, e⟩, he, rfl⟩ := map_eq_ok.mp hresult
  obtain rfl := List.mem_singleton.mp htext
  exact ⟨e, Matcher.isInfix_of_splitTyped he, String.toList_ofList⟩

theorem unquoteBytes_readsPieces (s : String) :
    ReadsPieces (Matcher.unquoteBytes s) ((Matcher.unquote s.toList).map String.ofList) (fun e ↦ [e]) id s := by
  refine .of_isCut (Matcher.unquoteBytes_eq s) List.Sublist.refl fun result hresult text htext ↦ ?_
  obtain ⟨e, he, rfl⟩ := map_eq_ok.mp hresult
  obtain rfl := List.mem_singleton.mp htext
  exact ⟨e, (Matcher.unquote_eq_ok_iff.mp he).isInfix, String.toList_ofList⟩

/-- A cut that is not at fault leaves whole characters on both sides and between its positions. No scanner is at fault
on any text: templates are read to literal text that is a piece with one dollar for each two, argument lists from any
opening bracket to pieces without quotes and blanks outside of them, and typed expressions and quoted ones to pieces as
they are. -/
theorem scanners_cut_between_characters (s : String) :
    (∀ start stop text, slice s start stop = pure text ↔
      ∃ front back, front ++ text.toList ++ back = s.toList ∧ start = (utf8Encode front).length ∧
        stop = (utf8Encode (front ++ text.toList)).length) ∧
    ReadsPieces (Template.parseBytes s) (Template.parse s) Template.literals Template.withoutEscapes s ∧
    (∀ start func, byte? s start = some '('.toUInt8 → ∃ rest, '(' :: rest <:+ s.toList ∧
      start = offset s ('(' :: rest) ∧
      ReadsPieces (Template.argumentsAt s start func)
        (Template.ArgumentCursor.outcome s func (Template.scanArgs none [] [] rest)) Prod.fst
        (Template.withoutQuotes none) s) ∧
    ReadsPieces (Matcher.splitTypedBytes s)
      ((Matcher.splitTyped s.toList).map fun (type, e) ↦ (type, String.ofList e)) (fun x ↦ [x.2]) id s ∧
    ReadsPieces (Matcher.unquoteBytes s) ((Matcher.unquote s.toList).map String.ofList) (fun e ↦ [e]) id s := by
  refine ⟨fun start stop text ↦ slice_eq_pure_iff, parseBytes_readsPieces s, fun start func hstart ↦ ?_,
    splitTypedBytes_readsPieces s, unquoteBytes_readsPieces s⟩
  obtain ⟨rest, hrest, rfl⟩ := exists_of_byte?_ascii (by decide) hstart
  exact ⟨rest, hrest, rfl, argumentsAt_readsPieces hrest func⟩

end RuleGate.Bytewise
