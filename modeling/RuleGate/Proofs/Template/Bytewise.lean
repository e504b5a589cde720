import RuleGate.Proofs.Template.Expansion
import RuleGate.Proofs.Text.Bytewise

/-!
# Templates read byte by byte

The scanners of bytes give what the readers of characters give, and are never at fault: whenever they stop to act, they
stand between two characters.
-/

namespace RuleGate.Template

open Bytewise

variable {s func : String} {c : Char} {rest r : List Char}

theorem isArgumentBlank_ascii (h : isArgumentBlank c = true) : c.toNat < 0x80 := by
  simp only [isArgumentBlank, Bool.or_eq_true, beq_iff_eq] at h
  rcases h with ((rfl | rfl) | rfl) | rfl <;> decide

theorem suffix_cons_cons (a b : Char) (r : List Char) : r <:+ a :: b :: r := List.suffix_append [a, b] r

/-! ## Argument lists -/

namespace ArgumentCursor

/-- The scanner of bytes in front of the given rest of the text, in the state of a reader of characters. -/
def before (s : String) (rest : List Char) (quote : Option Char) (arg : List Char) (args : List String) :
    ArgumentCursor :=
  ⟨offset s rest, quote.map Char.toUInt8, Text.utf8Encode arg.reverse, args.reverse⟩

variable {q : Option Char} {arg : List Char} {args : List String}

theorem endArgument_before (s : String) (rest : List Char) (q : Option Char) (arg : List Char) (args : List String) :
    (before s rest q arg args).endArgument = (Template.endArgument arg args).reverse := by
  rw [ArgumentCursor.endArgument, Template.endArgument, before]
  simp only [Text.isEmpty_utf8Encode, List.isEmpty_reverse, Bytes.toStringLossy_encode]
  split
  · rfl
  · rw [List.reverse_cons]

/-! What one round does, by the byte that it reads. -/

section Rounds

theorem round_end (s func : String) (q : Option Char) (arg : List Char) (args : List String) :
    round s func (before s [] q arg args) =
      throw (.subject ("func " ++ Text.quoted func)
        (if q.isSome then .unterminatedQuotes else .unterminatedParenthesis)) := by
  cases q <;> simp [round, before, byte?_end]

theorem round_closing_quote (h : c :: rest <:+ s.toList) (hc : c.toNat < 0x80) :
    round s func (before s (c :: rest) (some c) arg args) =
      pure (.inl (before s rest none [] (String.ofList arg.reverse :: args))) := by
  simp only [round, before, byte?_ascii h hc, Option.map_some, if_true, Bytes.toStringLossy_encode, offset_ascii h hc,
    List.reverse_cons]
  rfl

theorem round_opening_quote (h : c :: rest <:+ s.toList) (hquote : Directive.isQuote c = true) :
    round s func (before s (c :: rest) none arg args) = pure (.inl (before s rest (some c) arg args)) := by
  have hc := Directive.isQuote_ascii hquote
  simp only [round, before, byte?_ascii h hc, Option.map_none, isAscii_toUInt8 hc, if_pos hquote, offset_ascii h hc,
    Option.map_some]

theorem round_bracket (h : ')' :: rest <:+ s.toList) :
    round s func (before s (')' :: rest) none arg args) =
      pure (.inr ((Template.endArgument arg args).reverse, offset s (')' :: rest))) := by
  have hc : ')'.toNat < 0x80 := by decide
  have hquote : ¬ Directive.isQuote ')' = true := by decide
  rw [← endArgument_before s (')' :: rest) none]
  simp only [round, before, byte?_ascii h hc, Option.map_none, isAscii_toUInt8 hc, if_neg hquote, if_true]

theorem round_comma (h : ',' :: rest <:+ s.toList) :
    round s func (before s (',' :: rest) none arg args) =
      pure (.inl (before s rest none [] (Template.endArgument arg args))) := by
  have hc : ','.toNat < 0x80 := by decide
  have hquote : ¬ Directive.isQuote ',' = true := by decide
  have hbracket : ¬ ','.toUInt8 = ')'.toUInt8 := by decide
  rw [before, before, ← endArgument_before s (',' :: rest) none]
  simp only [round, before, byte?_ascii h hc, Option.map_none, isAscii_toUInt8 hc, if_neg hquote, if_neg hbracket,
    if_true, offset_ascii h hc]
  rfl

theorem round_blank (h : c :: rest <:+ s.toList) (hblank : isArgumentBlank c = true) :
    round s func (before s (c :: rest) none arg args) = pure (.inl (before s rest none arg args)) := by
  have hc := isArgumentBlank_ascii hblank
  have hother : ¬ Directive.isQuote c = true ∧ ¬ c.toUInt8 = ')'.toUInt8 ∧ ¬ c.toUInt8 = ','.toUInt8 := by
    simp only [isArgumentBlank, Bool.or_eq_true, beq_iff_eq] at hblank
    rcases hblank with ((rfl | rfl) | rfl) | rfl <;> decide
  simp only [round, before, byte?_ascii h hc, Option.map_none, isAscii_toUInt8 hc, if_neg hother.1, if_neg hother.2.1,
    if_neg hother.2.2, if_pos hblank, offset_ascii h hc]

/-- The bytes of the character go to the argument. -/
def Pushes (s func : String) (q : Option Char) (c : Char) : Prop :=
  ∀ b ∈ String.utf8EncodeChar c, ∀ pos bytes args, byte? s pos = some b →
    round s func ⟨pos, q.map Char.toUInt8, bytes, args⟩ =
      pure (.inl ⟨pos + 1, q.map Char.toUInt8, bytes ++ [b], args⟩)

theorem pushes_quoted {q : Char} (hq : q.toNat < 0x80) (hne : c ≠ q) : Pushes s func (some q) c := by
  intro b hb pos bytes args hbyte
  simp only [round, hbyte, Option.map_some, if_neg (ne_toUInt8_of_mem hq hne hb)]

theorem pushes_bare (hquote : ¬ Directive.isQuote c = true) (hbracket : c ≠ ')') (hcomma : c ≠ ',')
    (hblank : ¬ isArgumentBlank c = true) : Pushes s func none c := by
  intro b hb pos bytes args hbyte
  have hclass {p : Char → Bool} (hp : ¬ p c = true) : ¬ isAscii p b = true :=
    Bool.eq_false_iff.mp (isAscii_of_mem (Bool.eq_false_iff.mpr hp) hb)
  simp only [round, hbyte, Option.map_none, if_neg (hclass hquote), if_neg (hclass hblank),
    if_neg (ne_toUInt8_of_mem (by decide) hbracket hb), if_neg (ne_toUInt8_of_mem (by decide) hcomma hb)]

end Rounds

/-! What a run does, by the character in front. -/

theorem loop_push (h : c :: rest <:+ s.toList) (hpush : Pushes s func q c) (n : Nat) :
    loop (round s func) (n + (String.utf8EncodeChar c).length) (before s (c :: rest) q arg args) =
      loop (round s func) n (before s rest q (c :: arg) args) := by
  let state (i : Nat) : ArgumentCursor := ⟨offset s (c :: rest) + i, q.map Char.toUInt8,
    Text.utf8Encode arg.reverse ++ (String.utf8EncodeChar c).take i, args.reverse⟩
  have hround (i : Nat) (hi : i < (String.utf8EncodeChar c).length) :
      round s func (state i) = pure (.inl (state (i + 1))) := by
    rw [hpush _ (List.getElem_mem hi) _ _ _ (byte?_char h hi), List.append_assoc, List.take_append_getElem hi]
    rfl
  have hfirst : state 0 = before s (c :: rest) q arg args := by
    simp only [state, before, Nat.add_zero, List.take_zero, List.append_nil]
  have hlast : state (String.utf8EncodeChar c).length = before s rest q (c :: arg) args := by
    simp only [state, before, offset_cons h, List.take_length, List.reverse_cons, Text.utf8Encode_append,
      Text.utf8Encode_singleton]
  rw [← hfirst, loop_iterate hround, hlast]

theorem loop_act (hc : c.toNat < 0x80) {x y : ArgumentCursor} (hround : round s func x = pure (.inl y)) (n : Nat) :
    loop (round s func) (n + (String.utf8EncodeChar c).length) x = loop (round s func) n y := by
  rw [Text.utf8EncodeChar_ascii hc, List.length_singleton]
  exact loop_of_next hround n

/-- The arguments and the position of the bracket, for the arguments and what stands behind the bracket. -/
def outcome (s func : String) : Compiled (List String × List Char) → Compiled (List String × Nat)
  | .ok (args, r) => .ok (args, offset s r - 1)
  | .error e => .error (.subject ("func " ++ Text.quoted func) e)

theorem loop_before (h : rest <:+ s.toList) (hq : ∀ c ∈ q, c.toNat < 0x80) {n : Nat}
    (hn : (Text.utf8Encode rest).length < n) :
    loop (round s func) n (before s rest q arg args) = ofCompiled (outcome s func (scanArgs q arg args rest)) := by
  have hnone : ∀ d ∈ (none : Option Char), d.toNat < 0x80 := fun d hd ↦ nomatch hd
  induction rest generalizing q arg args n with
  | nil =>
    obtain ⟨n, rfl⟩ := Nat.exists_eq_add_one_of_ne_zero (Nat.ne_of_gt hn)
    rw [loop_of_error (round_end s func q arg args)]
    cases q <;> rfl
  | cons c rest ih =>
    have hrest : rest <:+ s.toList := (List.suffix_cons c rest).trans h
    rw [Text.utf8Encode_cons, List.length_append] at hn
    obtain ⟨n, rfl⟩ := Nat.exists_eq_add_of_le' (Nat.le_of_add_right_le hn.le)
    replace hn : (Text.utf8Encode rest).length < n := by omega
    cases q with
    | some q =>
      have hq' : q.toNat < 0x80 := hq q rfl
      by_cases hc : c = q
      · subst hc
        rw [loop_act hq' (round_closing_quote h hq'), ih hrest hnone hn, scanArgs, if_pos rfl]
      · rw [loop_push h (pushes_quoted hq' hc), ih hrest hq hn, scanArgs, if_neg hc]
    | none =>
      by_cases hquote : Directive.isQuote c = true
      · have hc := Directive.isQuote_ascii hquote
        rw [loop_act hc (round_opening_quote h hquote), ih hrest (by simpa using hc) hn, scanArgs, if_pos hquote]
      by_cases hbracket : c = ')'
      · subst hbracket
        rw [scanArgs, if_neg hquote, if_pos rfl, outcome, ← offset_ascii h (by decide), Nat.add_sub_cancel]
        exact loop_of_result (round_bracket h) n
      by_cases hcomma : c = ','
      · subst hcomma
        rw [loop_act (by decide) (round_comma h), ih hrest hnone hn, scanArgs, if_neg hquote, if_neg hbracket,
          if_pos rfl]
      by_cases hblank : isArgumentBlank c = true
      · rw [loop_act (isArgumentBlank_ascii hblank) (round_blank h hblank), ih hrest hnone hn, scanArgs, if_neg hquote,
          if_neg hbracket, if_neg hcomma, if_pos hblank]
      · rw [loop_push h (pushes_bare hquote hbracket hcomma hblank), ih hrest hnone hn, scanArgs, if_neg hquote,
          if_neg hbracket, if_neg hcomma, if_neg hblank]

end ArgumentCursor

theorem argumentsAt_eq (h : '(' :: rest <:+ s.toList) (func : String) :
    argumentsAt s (offset s ('(' :: rest)) func =
      ofCompiled (ArgumentCursor.outcome s func (scanArgs none [] [] rest)) := by
  have hrest : rest <:+ s.toList := (List.suffix_cons _ rest).trans h
  have hnone : ∀ c ∈ (none : Option Char), c.toNat < 0x80 := fun c hc ↦ nomatch hc
  have hstart : (⟨offset s rest, none, [], []⟩ : ArgumentCursor) = ArgumentCursor.before s rest none [] [] := rfl
  rw [argumentsAt, offset_ascii h (by decide), hstart, ArgumentCursor.loop_before hrest hnone (length_lt_rounds hrest)]

/-! ## References -/

theorem isNameChar_ascii (h : isNameChar c = true) : c.toNat < 0x80 := by
  rw [isNameChar, Bool.or_eq_true, beq_iff_eq] at h
  rcases h with h | rfl
  · rcases (Bool.or_eq_true _ _).mp h with hupper | hlower
    · have hle : c.toNat ≤ 'Z'.toNat := (of_decide_eq_true hupper).2
      exact Nat.lt_of_le_of_lt hle (by decide)
    · have hle : c.toNat ≤ 'z'.toNat := of_decide_eq_true ((Bool.and_eq_true _ _).mp hlower).2
      exact Nat.lt_of_le_of_lt hle (by decide)
  · decide

/-- A name ends in front of the first character that is in no name. -/
theorem loop_nameRound (h : rest <:+ s.toList) {n : Nat} (hn : (Text.utf8Encode rest).length < n) :
    loop (nameRound s) n (offset s rest) = pure (offset s (rest.dropWhile isNameChar)) := by
  induction rest generalizing n with
  | nil =>
    obtain ⟨n, rfl⟩ := Nat.exists_eq_add_one_of_ne_zero (Nat.ne_of_gt hn)
    refine loop_of_result ?_ n
    simp only [nameRound, byte?_end]
    rfl
  | cons c rest ih =>
    have hrest : rest <:+ s.toList := (List.suffix_cons c rest).trans h
    obtain ⟨n, rfl⟩ := Nat.exists_eq_add_one_of_ne_zero (Nat.ne_of_gt (Nat.zero_lt_of_lt hn))
    by_cases hc : isNameChar c = true
    · have hascii := isNameChar_ascii hc
      rw [Text.utf8Encode_cons, Text.utf8EncodeChar_ascii hascii] at hn
      rw [List.dropWhile_cons_of_pos hc, ← ih hrest (Nat.lt_of_succ_lt_succ hn)]
      refine loop_of_next ?_ n
      simp only [nameRound, byte?_ascii h hascii, isAscii_toUInt8 hascii, if_pos hc, offset_ascii h hascii]
    · rw [List.dropWhile_cons_of_neg hc]
      refine loop_of_result ?_ n
      obtain ⟨b, hb, hbyte⟩ := exists_byte? h
      have hname : ¬ isAscii isNameChar b = true :=
        Bool.eq_false_iff.mp (isAscii_of_mem (Bool.eq_false_iff.mpr hc) hb)
      simp only [nameRound, hbyte, if_neg hname]

theorem scanArgs_suffix {q : Option Char} {arg : List Char} {args : List String} {out : List String × List Char}
    (h : scanArgs q arg args rest = .ok out) : out.2 <:+ rest := by
  induction rest generalizing q arg args with
  | nil => cases q <;> cases h
  | cons c rest ih =>
    refine .trans ?_ (List.suffix_cons c rest)
    cases q with
    | some q =>
      rw [scanArgs] at h
      split at h <;> exact ih h
    | none =>
      rw [scanArgs] at h
      split at h
      · exact ih h
      · split at h
        · cases h
          exact List.suffix_rfl
        · split at h
          · exact ih h
          · split at h <;> exact ih h

theorem parseReference_suffix {position : Nat} {name : String} {out : Segment × List Char}
    (h : parseReference position name rest = .ok out) : out.2 <:+ rest := by
  unfold parseReference at h
  split at h
  · split at h
    · split at h
      · cases h
      · next hargs =>
        split at h
        · cases h
          exact (scanArgs_suffix hargs).trans (List.suffix_cons _ _)
        · cases h
    · cases h
  · split at h
    · cases h
      exact List.suffix_rfl
    · cases h

/-- Behind the bracket that closes a list stands what is left of the text. -/
theorem offset_of_scanArgs (h : '(' :: rest <:+ s.toList) {out : List String × List Char}
    (hout : scanArgs none [] [] rest = .ok out) : offset s out.2 - 1 + 1 = offset s out.2 := by
  obtain ⟨front, hfront⟩ := scanArgs_suffix hout
  have hadd : offset s ('(' :: rest) + (Text.utf8Encode ('(' :: front)).length = offset s out.2 := by
    have hsuffix : ('(' :: front) ++ out.2 <:+ s.toList := by rwa [List.cons_append, hfront]
    rw [← offset_add hsuffix, List.cons_append, hfront]
  have hpos := Text.utf8EncodeChar_length_pos '('
  rw [Text.utf8Encode_cons, List.length_append] at hadd
  omega

theorem referenceAt_eq {name : List Char} (h : name ++ rest <:+ s.toList) :
    referenceAt s (offset s (name ++ rest)) (offset s rest) =
      ofCompiled ((parseReference (offset s (name ++ rest)) (String.ofList name) rest).map
        fun (segment, r) ↦ (segment, offset s r)) := by
  have hrest : rest <:+ s.toList := (List.suffix_append name rest).trans h
  rw [referenceAt, slice_offset h, pure_bind]
  generalize offset s (name ++ rest) = position
  generalize String.ofList name = name
  unfold parseReference
  by_cases hdynamic : DynamicVariable.names.contains name = true
  · rw [if_pos hdynamic, if_pos hdynamic]
    cases rest with
    | nil =>
      rw [byte?_end, if_neg (Option.some_ne_none _).symm]
      rfl
    | cons c r =>
      by_cases hc : c = '('
      · subst hc
        rw [if_pos (byte?_ascii hrest (by decide)), argumentsAt_eq hrest]
        cases hargs : scanArgs none [] [] r with
        | error e =>
          simp only [hargs]
          rfl
        | ok out =>
          rw [ArgumentCursor.outcome, ofCompiled_ok_bind]
          simp only [hargs, offset_of_scanArgs hrest hargs]
          cases DynamicVariable.compile name out.1 <;> rfl
      · obtain ⟨b, hb, hbyte⟩ := exists_byte? hrest
        have hne : ¬ some b = some '('.toUInt8 := fun heq ↦ ne_toUInt8_of_mem (by decide) hc hb (Option.some.inj heq)
        rw [hbyte, if_neg hne]
        split
        · next heq => exact absurd (List.cons.inj heq).1 hc
        · rfl
  · rw [if_neg hdynamic, if_neg hdynamic]
    cases StaticVariable.ofName? name <;> rfl

/-! ## Templates -/

namespace Cursor

/-- The scanner of bytes in front of the given rest of the text, with literal text that it has not copied yet. -/
def before (s : String) (uncopied rest : List Char) (literal : String) (segments : List Segment) : Cursor :=
  ⟨offset s rest, offset s (uncopied ++ rest), literal, segments⟩

variable {uncopied : List Char} {literal : String} {segments : List Segment}

theorem before_pos : (before s uncopied rest literal segments).pos = offset s rest := rfl

theorem copyTo_before (h : uncopied ++ rest <:+ s.toList) :
    (before s uncopied rest literal segments).copyTo s (offset s rest) =
      pure ⟨offset s rest, offset s (uncopied ++ rest), literal ++ String.ofList uncopied, segments⟩ := by
  rw [copyTo, before, slice_offset h, pure_bind]

/-- A character without a dollar is passed, and stays to be copied. -/
theorem loop_pass (h : c :: rest <:+ s.toList) (hc : c ≠ '$') (n : Nat) :
    loop (round s) (n + (String.utf8EncodeChar c).length) (before s uncopied (c :: rest) literal segments) =
      loop (round s) n (before s (uncopied ++ [c]) rest literal segments) := by
  let state (i : Nat) : Cursor := ⟨offset s (c :: rest) + i, offset s (uncopied ++ c :: rest), literal, segments⟩
  have hround (i : Nat) (hi : i < (String.utf8EncodeChar c).length) :
      round s (state i) = pure (.inl (state (i + 1))) := by
    have hne := ne_toUInt8_of_mem (d := '$') (by decide) hc (List.getElem_mem hi)
    simp only [round, state, byte?_char h hi, if_neg hne]
    rfl
  have hlast : state (String.utf8EncodeChar c).length = before s (uncopied ++ [c]) rest literal segments := by
    simp only [state, before, offset_cons h, List.append_assoc, List.singleton_append]
  rw [← hlast, ← loop_iterate hround]
  rfl

theorem endLiteral_eq (x : Cursor) : x.endLiteral = x.segments ++ literalSegment x.literal.toList.reverse := by
  rw [endLiteral, literalSegment, List.reverse_reverse, String.ofList_toList]
  by_cases hempty : x.literal = ""
  · simp [hempty]
  · simp [hempty]

theorem round_end (h : uncopied <:+ s.toList) :
    round s (before s uncopied [] literal segments) =
      pure (.inr (segments ++ literalSegment (literal.toList ++ uncopied).reverse)) := by
  have hend : s.utf8ByteSize = offset s [] := rfl
  have hcopy : (before s uncopied [] literal segments).copyTo s (offset s []) = _ := copyTo_before (by simpa using h)
  rw [round, before_pos, byte?_end]
  dsimp only
  rw [hend, hcopy, pure_bind, endLiteral_eq]
  simp

theorem offset_dollar (h : '$' :: rest <:+ s.toList) : offset s ('$' :: rest) + 1 = offset s rest :=
  offset_ascii h (by decide)

theorem byte?_dollar (h : '$' :: rest <:+ s.toList) : byte? s (offset s ('$' :: rest)) = some '$'.toUInt8 :=
  byte?_ascii h (by decide)

/-- In front of a dollar, what has not been copied is. -/
theorem round_dollar (h : uncopied ++ '$' :: rest <:+ s.toList) :
    round s (before s uncopied ('$' :: rest) literal segments) =
      (Cursor.mk (offset s ('$' :: rest)) (offset s (uncopied ++ '$' :: rest)) (literal ++ String.ofList uncopied)
        segments).afterDollar s >>= fun x ↦ pure (.inl x) := by
  rw [round, before_pos, byte?_dollar ((List.suffix_append _ _).trans h)]
  dsimp only
  rw [if_pos rfl, copyTo_before h, pure_bind]

/-! What stands behind a dollar at a position. -/

section AfterDollar

variable {start : Nat}

theorem afterDollar_end (h : ['$'] <:+ s.toList) :
    (Cursor.mk (offset s ['$']) start literal segments).afterDollar s = throw .unterminatedVariable := by
  rw [afterDollar]
  simp only [offset_dollar h, byte?_end]

theorem afterDollar_dollar (h : '$' :: '$' :: rest <:+ s.toList) :
    (Cursor.mk (offset s ('$' :: '$' :: rest)) start literal segments).afterDollar s =
      pure (before s [] rest (literal ++ "$") segments) := by
  have hrest := (List.suffix_cons _ _).trans h
  rw [afterDollar]
  simp only [offset_dollar h, byte?_dollar hrest, if_true, skipTo, before, List.nil_append]
  rw [← offset_dollar hrest, ← offset_dollar h]

theorem afterDollar_brace (h : '$' :: '\x7b' :: rest <:+ s.toList) :
    (Cursor.mk (offset s ('$' :: '\x7b' :: rest)) start literal segments).afterDollar s =
      pure (before s [] rest (literal ++ "$\x7b") segments) := by
  have hrest := (List.suffix_cons _ _).trans h
  have hne : ¬ '\x7b'.toUInt8 = '$'.toUInt8 := by decide
  rw [afterDollar]
  simp only [offset_dollar h, byte?_ascii hrest (show '\x7b'.toNat < 0x80 by decide), if_neg hne, if_true, skipTo,
    before, List.nil_append]
  rw [← offset_ascii hrest (by decide), ← offset_dollar h]

theorem afterDollar_name (h : '$' :: c :: rest <:+ s.toList) (hc : isNameChar c = true) :
    (Cursor.mk (offset s ('$' :: c :: rest)) start literal segments).afterDollar s =
      ofCompiled ((parseReference (offset s (c :: rest)) (String.ofList (c :: rest.takeWhile isNameChar))
        (rest.dropWhile isNameChar)).map fun (segment, r) ↦
          before s [] r "" (segments ++ literalSegment literal.toList.reverse ++ [segment])) := by
  have hrest := (List.suffix_cons _ _).trans h
  have hascii := isNameChar_ascii hc
  have hne {d : Char} (hd : d.toNat < 0x80) (hclass : isNameChar d = false) : ¬ c.toUInt8 = d.toUInt8 := by
    refine ne_toUInt8_of_mem hd ?_ (by rw [Text.utf8EncodeChar_ascii hascii]; exact .head _)
    rintro rfl
    exact Bool.eq_false_iff.mp hclass hc
  have hname : (c :: rest.takeWhile isNameChar) ++ rest.dropWhile isNameChar = c :: rest := by
    rw [List.cons_append, List.takeWhile_append_dropWhile]
  have hstop := loop_nameRound hrest (length_lt_rounds hrest)
  rw [List.dropWhile_cons_of_pos hc] at hstop
  have hreference := referenceAt_eq (s := s) (hname ▸ hrest)
  rw [hname] at hreference
  rw [afterDollar]
  simp only [offset_dollar h, byte?_ascii hrest hascii,
    if_neg (hne (d := '$') (by decide) (by decide)), if_neg (hne (d := '\x7b') (by decide) (by decide)),
    isAscii_toUInt8 hascii, if_pos hc, hstop, pure_bind, hreference, endLiteral_eq]
  generalize parseReference _ _ _ = result
  cases result <;> rfl

theorem afterDollar_other (h : '$' :: c :: rest <:+ s.toList) (hdollar : c ≠ '$') (hbrace : c ≠ '\x7b')
    (hc : ¬ isNameChar c = true) :
    (Cursor.mk (offset s ('$' :: c :: rest)) start literal segments).afterDollar s =
      throw (.subject ("around $ at position " ++ toString (offset s (c :: rest))) .unterminatedVariable) := by
  obtain ⟨b, hb, hbyte⟩ := exists_byte? ((List.suffix_cons _ _).trans h)
  have hname : ¬ isAscii isNameChar b = true := Bool.eq_false_iff.mp (isAscii_of_mem (Bool.eq_false_iff.mpr hc) hb)
  rw [afterDollar]
  simp only [offset_dollar h, hbyte, if_neg hname,
    if_neg (ne_toUInt8_of_mem (d := '$') (by decide) hdollar hb),
    if_neg (ne_toUInt8_of_mem (d := '\x7b') (by decide) hbrace hb)]

end AfterDollar

/-- A dollar takes one round, together with what belongs to it. -/
theorem loop_dollar (h : uncopied ++ '$' :: rest <:+ s.toList) {n : Nat} (hn : 0 < n) :
    loop (round s) n (before s uncopied ('$' :: rest) literal segments) =
      (Cursor.mk (offset s ('$' :: rest)) (offset s (uncopied ++ '$' :: rest)) (literal ++ String.ofList uncopied)
        segments).afterDollar s >>= loop (round s) (n - 1) := by
  obtain ⟨n, rfl⟩ := Nat.exists_eq_add_one_of_ne_zero (Nat.ne_of_gt hn)
  rw [loop, round_dollar h, bind_assoc]
  rfl

/-- A reference takes one round, and nothing in front of it stays to be copied. -/
theorem loop_reference (h : uncopied ++ '$' :: c :: rest <:+ s.toList) (hc : isNameChar c = true) {segment : Segment}
    {behind : List Char} (hreference : parseReference (offset s (c :: rest))
      (String.ofList (c :: rest.takeWhile isNameChar)) (rest.dropWhile isNameChar) = .ok (segment, behind))
    {n : Nat} (hn : 0 < n) :
    loop (round s) n (before s uncopied ('$' :: c :: rest) literal segments) =
      loop (round s) (n - 1)
        (before s [] behind "" (segments ++ literalSegment (literal.toList ++ uncopied).reverse ++ [segment])) := by
  rw [loop_dollar h hn, afterDollar_name ((List.suffix_append _ _).trans h) hc, hreference, String.toList_append,
    String.toList_ofList]
  rfl

/-- Running to the end of the text gives what reading its characters gives. -/
theorem loop_before (h : uncopied ++ rest <:+ s.toList) {n : Nat} (hn : (Text.utf8Encode rest).length < n) :
    loop (round s) n (before s uncopied rest literal segments) =
      ofCompiled ((parseFrom s.utf8ByteSize (literal.toList ++ uncopied).reverse rest).map (segments ++ ·)) := by
  have hpos : 0 < n := Nat.zero_lt_of_lt hn
  have hrest := (List.suffix_append uncopied rest).trans h
  generalize hread : (literal.toList ++ uncopied).reverse = read
  fun_induction parseFrom s.utf8ByteSize read rest generalizing uncopied literal segments n with
  | case1 read =>
    obtain ⟨n, rfl⟩ := Nat.exists_eq_add_one_of_ne_zero (Nat.ne_of_gt hpos)
    rw [loop_of_result (round_end (by simpa using h)), hread]
    rfl
  | case2 read =>
    rw [loop_dollar h hpos, afterDollar_end hrest]
    rfl
  | case3 read r ih =>
    have hr : [] ++ r <:+ s.toList := (suffix_cons_cons _ _ r).trans hrest
    have hlt := Text.length_utf8Encode_lt_cons (List.suffix_cons '$' r) '$'
    rw [loop_dollar h hpos, afterDollar_dollar hrest, pure_bind]
    exact ih hr (by omega) (by omega) hr (by simp [← hread])
  | case4 read r ih =>
    have hr : [] ++ r <:+ s.toList := (suffix_cons_cons _ _ r).trans hrest
    have hlt := Text.length_utf8Encode_lt_cons (List.suffix_cons '\x7b' r) '$'
    rw [loop_dollar h hpos, afterDollar_brace hrest, pure_bind]
    exact ih hr (by omega) (by omega) hr (by simp [← hread])
  | case5 read c r _ _ hc _ e =>
    rename_i he
    rw [loop_dollar h hpos, afterDollar_name hrest hc, show parseReference (offset s (c :: r)) _ _ = _ from he]
    rfl
  | case6 read c r _ _ hc _ segment behind e hbehind =>
    rename_i hreference ih
    have hsuffix : behind <:+ r := (parseReference_suffix hreference).trans (List.dropWhile_suffix isNameChar)
    have hr : [] ++ behind <:+ s.toList := (hsuffix.trans (suffix_cons_cons '$' c r)).trans hrest
    have hlt := Text.length_utf8Encode_lt_cons (hsuffix.trans (List.suffix_cons c r)) '$'
    rw [loop_reference h hc hreference hpos, ih hr (by omega) (by omega) hr rfl, hbehind]
    rfl
  | case7 read c r _ _ hc _ segment behind segments' hbehind =>
    rename_i hreference ih
    have hsuffix : behind <:+ r := (parseReference_suffix hreference).trans (List.dropWhile_suffix isNameChar)
    have hr : [] ++ behind <:+ s.toList := (hsuffix.trans (suffix_cons_cons '$' c r)).trans hrest
    have hlt := Text.length_utf8Encode_lt_cons (hsuffix.trans (List.suffix_cons c r)) '$'
    rw [loop_reference h hc hreference hpos, ih hr (by omega) (by omega) hr rfl, hbehind, ← hread]
    simp [Except.map]
  | case8 read c r hdollar hbrace hc =>
    rw [loop_dollar h hpos, afterDollar_other hrest hdollar hbrace hc]
    rfl
  | case9 read c r hc ih =>
    rw [Text.utf8Encode_cons, List.length_append] at hn
    obtain ⟨n, rfl⟩ := Nat.exists_eq_add_of_le' (Nat.le_of_add_right_le hn.le)
    rw [loop_pass hrest hc]
    exact ih (by simpa using h) (by omega) (by omega) ((List.suffix_cons c r).trans hrest) (by simp [← hread])

end Cursor

/-- Reading a template by its bytes gives what reading its characters gives. -/
theorem parseBytes_eq (s : String) : parseBytes s = ofCompiled (parse s) := by
  have hstart : (⟨0, 0, "", []⟩ : Cursor) = Cursor.before s [] s.toList "" [] := by
    rw [Cursor.before, List.nil_append, offset, ← utf8ByteSize_eq, Nat.sub_self]
  have hsuffix : [] ++ s.toList <:+ s.toList := List.suffix_rfl
  rw [parseBytes, hstart, Cursor.loop_before hsuffix (length_lt_rounds hsuffix), parse,
    String.toList_empty, List.append_nil, List.reverse_nil]
  cases parseFrom s.utf8ByteSize [] s.toList <;> rfl

end RuleGate.Template
