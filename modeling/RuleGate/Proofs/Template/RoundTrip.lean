import Mathlib.Data.List.Chain
import Mathlib.Data.List.TakeWhile
import RuleGate.Proofs.Template.Expansion
import RuleGate.Proofs.Text.Integer

/-!
# Templates that are written and read back

A template is written piece by piece: literal text with a second dollar behind each dollar, a static
variable as a dollar and its name, a dynamic one with its key in quotes and its index behind it. What is read
are the pieces that were written, apart from the bounds between literals, as long as no literal goes on with
the name of a static variable before it.
-/

namespace RuleGate

/-- The name that the variables of a source are referred to by. -/
def DynamicSource.name : DynamicSource → String
  | header _ => "header"
  | responseHeader _ => "resp_header"
  | query => "arg"
  | form => "form"
  | bodyForm => "postform"

namespace DynamicVariable

/-- The variable has an index of 64 bits and a key that its source accepts. -/
structure IsValid (v : DynamicVariable) : Prop where
  accepts : compileSource v.source.name v.key = .ok v.source
  index_lt : v.index < UInt64.size

theorem IsValid.compile_eq {v : DynamicVariable} (h : v.IsValid) :
    compile v.source.name [v.key, toString v.index] = .ok v := by
  have hkey : compileKey [v.key, toString v.index] = .ok (v.key, v.index) := by
    rw [compileKey, Text.readUInt64_toString h.index_lt]
  rw [compile, hkey]
  simp only [bind, Except.bind, h.accepts]
  rfl

theorem name_mem (v : DynamicVariable) : names.contains v.source.name = true := by
  obtain ⟨source, key, index⟩ := v
  cases source <;> rfl

end DynamicVariable

namespace Template

/-! ## Pieces -/

/-- A segment as it is written. The key of a dynamic variable stands in the given quotes. -/
inductive Piece where
  | literal (text : String)
  | static (v : StaticVariable)
  | dynamic (v : DynamicVariable) (quote : Char)

namespace Piece

def segment : Piece → Segment
  | literal text => .literal text
  | static v => .static v
  | dynamic v _ => .dynamic v

/-- What the piece stands for in an exchange. -/
def value (x : Exchange) : Piece → String
  | literal text => text
  | static v => v.value x
  | dynamic v _ => v.value x

/-- A character of literal text as it is written. -/
def escapeChar (c : Char) : List Char := if c = '$' then ['$', '$'] else [c]

def render : Piece → List Char
  | literal text => text.toList.flatMap escapeChar
  | static v => '$' :: v.name.toList
  | dynamic v quote =>
    '$' :: v.source.name.toList ++ ['(', quote] ++ v.key.toList ++ [quote, ',', ' '] ++
      (toString v.index).toList ++ [')']

theorem render_dynamic_append (v : DynamicVariable) (quote : Char) (rest : List Char) :
    (dynamic v quote).render ++ rest =
      '$' :: (v.source.name.toList ++ '(' :: quote :: (v.key.toList ++
        quote :: ',' :: ' ' :: ((toString v.index).toList ++ ')' :: rest))) := by
  simp [render]

/-- The quotes around a key are quotes, and the key does not hold them. -/
def IsWritable : Piece → Prop
  | dynamic v quote => v.IsValid ∧ Directive.isQuote quote = true ∧ quote ∉ v.key.toList
  | _ => True

def isEmpty : Piece → Bool
  | literal text => text.isEmpty
  | _ => false

/-- The second piece does not go on with the name of a variable in the first one. -/
def EndsBefore : Piece → Piece → Prop
  | static _, literal text => ∀ c ∈ text.toList.head?, isNameChar c = false
  | _, _ => True

end Piece

/-- The text of a template. -/
def render (pieces : List Piece) : String := String.ofList (pieces.flatMap Piece.render)

/-- Empty literals aside, no literal goes on with the name of a static variable before it. -/
def Separated (pieces : List Piece) : Prop :=
  (pieces.filter fun p ↦ !p.isEmpty).IsChain Piece.EndsBefore

/-- Puts literal text in front of segments: it joins the literal that is there, or is one of its own unless
it is empty. -/
def consLiteral (text : String) : List Segment → List Segment
  | .literal next :: segments => .literal (text ++ next) :: segments
  | segments => if text.isEmpty then segments else .literal text :: segments

/-- The segments with adjacent literals merged and empty ones dropped. -/
def mergeLiterals : List Segment → List Segment
  | [] => []
  | .literal text :: segments => consLiteral text (mergeLiterals segments)
  | .static v :: segments => .static v :: mergeLiterals segments
  | .dynamic v :: segments => .dynamic v :: mergeLiterals segments

/-- No literal is empty, and no two literals are adjacent. -/
structure IsMerged (segments : List Segment) : Prop where
  nonempty : .literal "" ∉ segments
  apart : segments.IsChain fun s t ↦ Segment.isLiteral s = true → Segment.isLiteral t = false

/-! ## Merging literals -/

section Merging

variable (text next : String) (segments : List Segment)

theorem consLiteral_empty : consLiteral "" segments = segments := by
  unfold consLiteral
  split
  · rw [String.empty_append]
  · rfl

theorem consLiteral_consLiteral :
    consLiteral text (consLiteral next segments) = consLiteral (text ++ next) segments := by
  match segments with
  | .literal last :: segments => simp only [consLiteral, String.append_assoc]
  | [] | .static _ :: _ | .dynamic _ :: _ =>
    by_cases hnext : next = "" <;> simp [consLiteral, hnext]

/-- The literal text read so far, in front of segments that start with no literal. -/
theorem literalSegment_append {segments : List Segment}
    (h : ∀ segment ∈ segments.head?, Segment.isLiteral segment = false) (literal : List Char) :
    literalSegment literal ++ segments = consLiteral (String.ofList literal.reverse) segments := by
  match segments with
  | .literal next :: segments => cases h (.literal next) rfl
  | [] | .static _ :: _ | .dynamic _ :: _ => cases literal <;> simp [literalSegment, consLiteral]

theorem expand_consLiteral (x : Exchange) :
    expand ⟨consLiteral text segments⟩ x = text ++ expand ⟨segments⟩ x := by
  match segments with
  | .literal next :: segments =>
    simp only [consLiteral, expand_cons, Segment.expand, String.append_assoc]
  | [] | .static _ :: _ | .dynamic _ :: _ =>
    by_cases htext : text = "" <;> simp [consLiteral, htext, expand_cons, Segment.expand]

theorem expand_mergeLiterals (x : Exchange) : expand ⟨mergeLiterals segments⟩ x = expand ⟨segments⟩ x := by
  induction segments with
  | nil => rfl
  | cons segment segments ih =>
    cases segment with
    | literal text => rw [mergeLiterals, expand_consLiteral, ih, expand_cons]; rfl
    | static v => rw [mergeLiterals, expand_cons, expand_cons, ih]
    | dynamic v => rw [mergeLiterals, expand_cons, expand_cons, ih]

theorem isMerged_cons {segment : Segment} {segments : List Segment} :
    IsMerged (segment :: segments) ↔ segment ≠ .literal "" ∧
      (∀ t ∈ segments.head?, Segment.isLiteral segment = true → Segment.isLiteral t = false) ∧
      IsMerged segments := by
  constructor
  · rintro ⟨hnonempty, hapart⟩
    rw [List.mem_cons, not_or] at hnonempty
    rw [List.isChain_cons] at hapart
    exact ⟨Ne.symm hnonempty.1, hapart.1, hnonempty.2, hapart.2⟩
  · rintro ⟨hsegment, hhead, hnonempty, hapart⟩
    refine ⟨?_, List.isChain_cons.mpr ⟨hhead, hapart⟩⟩
    rw [List.mem_cons, not_or]
    exact ⟨Ne.symm hsegment, hnonempty⟩

theorem IsMerged.consLiteral {segments : List Segment} (h : IsMerged segments) :
    IsMerged (consLiteral text segments) := by
  match segments with
  | .literal next :: segments =>
    rw [isMerged_cons] at h
    have hnext : next ≠ "" := fun hempty ↦ h.1 (by rw [hempty])
    exact isMerged_cons.mpr ⟨by simp [hnext], h.2⟩
  | [] | .static _ :: _ | .dynamic _ :: _ =>
    by_cases htext : text = ""
    · simpa [Template.consLiteral, htext] using h
    · simpa [Template.consLiteral, htext, isMerged_cons, Segment.isLiteral] using h

theorem isMerged_mergeLiterals : IsMerged (mergeLiterals segments) := by
  induction segments with
  | nil => exact ⟨List.not_mem_nil, .nil⟩
  | cons segment segments ih =>
    cases segment with
    | literal text => exact ih.consLiteral text
    | static v => exact isMerged_cons.mpr ⟨nofun, fun _ _ ↦ nofun, ih⟩
    | dynamic v => exact isMerged_cons.mpr ⟨nofun, fun _ _ ↦ nofun, ih⟩

end Merging

/-! ## Reading what was written -/

section Reading

variable {q : Char} {key word rest rest' : List Char} {v : DynamicVariable} {segment : Segment}
  {segments : List Segment}

theorem parseFrom_escaped (size : Nat) (literal text rest : List Char) :
    parseFrom size literal (text.flatMap Piece.escapeChar ++ rest) =
      parseFrom size (text.reverse ++ literal) rest := by
  induction text generalizing literal with
  | nil => rfl
  | cons c text ih =>
    have hreverse : (c :: text).reverse ++ literal = text.reverse ++ c :: literal := by simp
    rw [hreverse, ← ih, List.flatMap_cons, List.append_assoc]
    by_cases hdollar : c = '$'
    · subst hdollar
      exact parseFrom_dollar_dollar size literal _
    · rw [Piece.escapeChar, if_neg hdollar]
      exact parseFrom_cons_of_ne size literal _ hdollar

/-- A name as references have it: not empty, and made of the characters of names. -/
structure IsName (name : String) : Prop where
  ne_nil : name.toList ≠ []
  chars : ∀ c ∈ name.toList, isNameChar c = true

/-- A reference ends with its name, or with what the name takes along. -/
theorem parseFrom_reference {size : Nat} (literal : List Char) {name : String} (hname : IsName name)
    (hrest : ∀ c ∈ rest.head?, isNameChar c = false)
    (hreference : ∀ position, parseReference position name rest = .ok (segment, rest'))
    (htail : parseFrom size [] rest' = .ok segments) :
    parseFrom size literal ('$' :: (name.toList ++ rest)) =
      .ok (literalSegment literal ++ segment :: segments) := by
  obtain ⟨hne, hchars⟩ := hname
  obtain ⟨c, cs, hcs⟩ := List.exists_cons_of_ne_nil hne
  rw [hcs, List.forall_mem_cons] at hchars
  have htake : c :: (cs ++ rest).takeWhile isNameChar = name.toList := by
    rw [hcs, List.takeWhile_append_of_pos hchars.2]
    cases rest <;> simp_all
  have hdrop : (cs ++ rest).dropWhile isNameChar = rest := by
    rw [List.dropWhile_append_of_pos hchars.2]
    cases rest <;> simp_all
  rw [hcs, List.cons_append, parseFrom]
  · rw [if_pos hchars.1]
    dsimp only
    split
    · next h =>
      rw [htake, hdrop, String.ofList_toList, hreference] at h
      cases h
    · next h =>
      rw [htake, hdrop, String.ofList_toList, hreference] at h
      cases h
      rw [htail]
  · rintro rfl
    exact absurd hchars.1 (by decide)
  · rintro rfl
    exact absurd hchars.1 (by decide)

theorem scanArgs_quoted (h : q ∉ key) (arg : List Char) (args : List String) (rest : List Char) :
    scanArgs (some q) arg args (key ++ q :: rest) =
      scanArgs none [] (String.ofList (arg.reverse ++ key) :: args) rest := by
  induction key generalizing arg with
  | nil => rw [List.nil_append, scanArgs, if_pos rfl, List.append_nil]
  | cons c key ih =>
    rw [List.mem_cons, not_or] at h
    rw [List.cons_append, scanArgs, if_neg (Ne.symm h.1), ih h.2]
    simp

/-- The characters that stand for themselves in an argument without quotes. -/
def isArgumentChar (c : Char) : Bool :=
  !(Directive.isQuote c || c == ')' || c == ',' || isArgumentBlank c)

theorem scanArgs_bare (h : ∀ c ∈ word, isArgumentChar c = true) (arg : List Char) (args : List String)
    (rest : List Char) :
    scanArgs none arg args (word ++ rest) = scanArgs none (word.reverse ++ arg) args rest := by
  induction word generalizing arg with
  | nil => rfl
  | cons c word ih =>
    rw [List.forall_mem_cons, isArgumentChar] at h
    obtain ⟨hc, hword⟩ := h
    simp only [Bool.not_eq_true', Bool.or_eq_false_iff, beq_eq_false_iff_ne] at hc
    rw [List.cons_append, scanArgs]
    simp [hc, ih hword]

theorem isArgumentChar_of_isDigit {c : Char} (h : c.isDigit = true) : isArgumentChar c = true := by
  have hne (d : Char) (hd : d.isDigit = false) : c ≠ d := by
    rintro rfl
    exact absurd h (by simp [hd])
  simp [isArgumentChar, Directive.isQuote, isArgumentBlank, hne '"' rfl, hne '\'' rfl, hne '\x60' rfl,
    hne ')' rfl, hne ',' rfl, hne ' ' rfl, hne '\t' rfl, hne '\n' rfl, hne '\r' rfl]

/-- A key in quotes and a bare word behind it are two arguments. -/
theorem scanArgs_key_word (hquote : Directive.isQuote q = true) (hkey : q ∉ key) (hne : word ≠ [])
    (hword : ∀ c ∈ word, isArgumentChar c = true) (rest : List Char) :
    scanArgs none [] [] (q :: (key ++ q :: ',' :: ' ' :: (word ++ ')' :: rest))) =
      .ok ([String.ofList key, String.ofList word], rest) := by
  have hopen : scanArgs none [] [] (q :: (key ++ q :: ',' :: ' ' :: (word ++ ')' :: rest))) =
      scanArgs (some q) [] [] (key ++ q :: ',' :: ' ' :: (word ++ ')' :: rest)) := by
    rw [scanArgs, if_pos hquote]
  have hcomma (args : List String) (r : List Char) :
      scanArgs none [] args (',' :: ' ' :: r) = scanArgs none [] args r := rfl
  rw [hopen, scanArgs_quoted hkey, hcomma, scanArgs_bare hword]
  simp [scanArgs, Directive.isQuote, endArgument, hne]

theorem parseReference_static (v : StaticVariable) (position : Nat) (rest : List Char) :
    parseReference position v.name rest = .ok (.static v, rest) := by
  have hdynamic : DynamicVariable.names.contains v.name = false := by cases v <;> rfl
  have hname : StaticVariable.ofName? v.name = some v := by cases v <;> rfl
  unfold parseReference
  rw [if_neg (Bool.eq_false_iff.mp hdynamic), hname]

theorem parseReference_dynamic (hv : v.IsValid) (hquote : Directive.isQuote q = true)
    (hkey : q ∉ v.key.toList) (position : Nat) (rest : List Char) :
    parseReference position v.source.name
        ('(' :: q :: (v.key.toList ++ q :: ',' :: ' ' :: ((toString v.index).toList ++ ')' :: rest))) =
      .ok (.dynamic v, rest) := by
  have hdigits : (toString v.index).toList = Nat.toDigits 10 v.index := by
    rw [Nat.toString_eq_ofList_toDigits, String.toList_ofList]
  have hne : (toString v.index).toList ≠ [] := hdigits ▸ Nat.toDigits_ne_nil
  have hword : ∀ c ∈ (toString v.index).toList, isArgumentChar c = true := fun c hc ↦
    isArgumentChar_of_isDigit (Nat.isDigit_of_mem_toDigits (by decide) (by decide) (hdigits ▸ hc))
  rw [parseReference, if_pos v.name_mem]
  simp only [scanArgs_key_word hquote hkey hne hword, String.ofList_toList, hv.compile_eq]

end Reading

/-! ## Pieces next to each other -/

variable {v : StaticVariable} {p : Piece} {pieces : List Piece}

theorem isName_of_all {name : String} (hne : name ≠ "") (hall : name.toList.all isNameChar = true) :
    IsName name where
  ne_nil hnil := hne (String.toList_eq_nil_iff.mp hnil)
  chars := List.all_eq_true.mp hall

theorem isName_static (v : StaticVariable) : IsName v.name := by
  cases v <;> exact isName_of_all (by decide) rfl

/-- A dollar and the name of a static variable are the template of that variable. -/
theorem parse_static (v : StaticVariable) : parse ("$" ++ v.name) = .ok ⟨[.static v]⟩ := by
  have htext : ("$" ++ v.name).toList = '$' :: (v.name.toList ++ []) := by simp
  have hrest : ∀ c ∈ ([] : List Char).head?, isNameChar c = false := fun c hc ↦ nomatch hc
  rw [parse, htext, parseFrom_reference [] (isName_static v) hrest
    (fun position ↦ parseReference_static v position []) (parseFrom_nil _ _)]
  rfl

theorem isName_dynamic (source : DynamicSource) : IsName source.name := by
  cases source <;> rw [DynamicSource.name] <;> exact isName_of_all (by decide) rfl

theorem Separated.tail (h : Separated (p :: pieces)) : Separated pieces := by
  rw [Separated, List.filter_cons] at h
  split at h
  · exact h.tail
  · exact h

theorem Separated.cons_of_isEmpty (h : Separated (.static v :: p :: pieces)) (hp : p.isEmpty = true) :
    Separated (.static v :: pieces) := by
  rw [Separated, List.filter_cons_of_pos rfl, List.filter_cons_of_neg (by simp [hp])] at h
  rw [Separated, List.filter_cons_of_pos rfl]
  exact h

theorem Separated.endsBefore (h : Separated (.static v :: p :: pieces)) (hp : p.isEmpty = false) :
    Piece.EndsBefore (.static v) p := by
  rw [Separated, List.filter_cons_of_pos rfl, List.filter_cons_of_pos (by simp [hp])] at h
  exact (List.isChain_cons_cons.mp h).1

/-- What is written behind a static variable does not go on with its name. -/
theorem Separated.head?_render (h : Separated (.static v :: pieces)) :
    ∀ c ∈ (pieces.flatMap Piece.render).head?, isNameChar c = false := by
  induction pieces with
  | nil => exact nofun
  | cons p pieces ih =>
    have hdollar : isNameChar '$' = false := rfl
    cases p with
    | static w => simpa [Piece.render] using hdollar
    | dynamic w quote => simpa [Piece.render] using hdollar
    | literal text =>
      cases htext : text.toList with
      | nil =>
        have hempty : text = "" := String.toList_eq_nil_iff.mp htext
        subst hempty
        exact ih (h.cons_of_isEmpty rfl)
      | cons c cs =>
        have hnonempty : (Piece.literal text).isEmpty = false := by
          rw [Piece.isEmpty, Bool.eq_false_iff, Ne, String.isEmpty_iff]
          rintro rfl
          cases htext
        have hc : isNameChar c = false := h.endsBefore hnonempty c (by rw [htext]; rfl)
        by_cases hescape : c = '$' <;> simpa [Piece.render, Piece.escapeChar, htext, hescape] using hc

/-- The pieces are read as they were written, behind the literal text read so far. -/
theorem parseFrom_render (hwritable : ∀ p ∈ pieces, p.IsWritable) (hseparated : Separated pieces)
    (size : Nat) (literal : List Char) :
    parseFrom size literal (pieces.flatMap Piece.render) =
      .ok (consLiteral (String.ofList literal.reverse) (mergeLiterals (pieces.map Piece.segment))) := by
  induction pieces generalizing literal with
  | nil =>
    have hnil : ∀ segment ∈ ([] : List Segment).head?, Segment.isLiteral segment = false := by simp
    rw [List.flatMap_nil, parseFrom_nil, List.map_nil, mergeLiterals, ← literalSegment_append hnil,
      List.append_nil]
  | cons p pieces ih =>
    rw [List.forall_mem_cons] at hwritable
    have hrest := ih hwritable.2 hseparated.tail
    have htail : parseFrom size [] (pieces.flatMap Piece.render) =
        .ok (mergeLiterals (pieces.map Piece.segment)) := by
      rw [hrest]
      exact congrArg _ (consLiteral_empty _)
    rw [List.flatMap_cons, List.map_cons]
    cases p with
    | literal text =>
      rw [Piece.render, parseFrom_escaped, hrest]
      simp [Piece.segment, mergeLiterals, consLiteral_consLiteral]
    | static v =>
      have hread := parseFrom_reference literal (isName_static v) hseparated.head?_render
        (fun position ↦ parseReference_static v position _) htail
      rw [Piece.render, List.cons_append, hread, literalSegment_append (by simp [Segment.isLiteral])]
      rfl
    | dynamic v quote =>
      obtain ⟨hv, hquote, hkey⟩ := hwritable.1
      have hbracket : isNameChar '(' = false := rfl
      have hread := parseFrom_reference literal (isName_dynamic v.source)
        (by simpa using hbracket) (fun position ↦ parseReference_dynamic hv hquote hkey position _) htail
      rw [Piece.render_dynamic_append, hread, literalSegment_append (by simp [Segment.isLiteral])]
      rfl

/-- A template that is written piece by piece can be read, and has the segments that were written, with
adjacent literals merged and empty ones dropped. So it expands to the texts of the literals and the values of
the variables, one after the other. -/
theorem parse_render (pieces : List Piece) (hwritable : ∀ p ∈ pieces, p.IsWritable)
    (hseparated : Separated pieces) :
    parse (render pieces) = .ok ⟨mergeLiterals (pieces.map Piece.segment)⟩ ∧
      IsMerged (mergeLiterals (pieces.map Piece.segment)) ∧
      ∀ x, expand ⟨mergeLiterals (pieces.map Piece.segment)⟩ x =
        String.join (pieces.map (Piece.value x)) := by
  refine ⟨?_, isMerged_mergeLiterals _, fun x ↦ ?_⟩
  · have hread := parseFrom_render hwritable hseparated (render pieces).utf8ByteSize []
    rw [List.reverse_nil, String.ofList_nil, consLiteral_empty] at hread
    rw [parse, render, String.toList_ofList, ← render, hread]
    rfl
  · have hvalue (p : Piece) : Segment.expand x p.segment = p.value x := by cases p <;> rfl
    rw [expand_mergeLiterals, expand, List.map_map]
    exact congrArg String.join (List.map_congr_left fun p _ ↦ hvalue p)

/-- Pieces in which a dollar meets a brace, a literal is empty, and a key has quotes, a comma and a bracket. -/
def samplePieces : List Piece :=
  [.literal "5$", .literal "\x7bx\x7d", .static .requestPath, .literal "", .literal "-",
    .dynamic ⟨.header ⟨"x-a"⟩, "X-A", 18446744073709551615⟩ '"', .dynamic ⟨.query, "a, \"b)\"", 2⟩ '\'',
    .literal "c"]

theorem parse_render_sample :
    parse "5$$\x7bx\x7d$req_path-$header(\"X-A\", 18446744073709551615)$arg('a, \"b)\"', 2)c" =
      .ok ⟨[.literal "5$\x7bx\x7d", .static .requestPath, .literal "-",
        .dynamic ⟨.header ⟨"x-a"⟩, "X-A", 18446744073709551615⟩, .dynamic ⟨.query, "a, \"b)\"", 2⟩,
        .literal "c"]⟩ := by
  have hwritable : ∀ p ∈ samplePieces, p.IsWritable := by
    simp only [samplePieces, List.forall_mem_cons, Piece.IsWritable, true_and]
    exact ⟨⟨⟨rfl, by decide⟩, rfl, by decide⟩, ⟨⟨rfl, by decide⟩, rfl, by decide⟩, nofun⟩
  have hseparated : Separated samplePieces := by
    have hdash : isNameChar '-' = false := rfl
    simpa [samplePieces, Separated, Piece.isEmpty, Piece.EndsBefore] using hdash
  have hrender : render samplePieces =
      "5$$\x7bx\x7d$req_path-$header(\"X-A\", 18446744073709551615)$arg('a, \"b)\"', 2)c" := by
    decide
  exact hrender ▸ (parse_render samplePieces hwritable hseparated).1

end Template

end RuleGate
