import RuleGate.Proofs.Text.Utf8

/-!
# The bytes behind decoded text

What the decoders say about the bytes they read: bytes that decode to a text are the encoding of that text,
lossy decoding gives a text back that was encoded, and a line feed in its result was a line feed among the bytes.
-/

namespace RuleGate.Text

/-! ## Strict decoding -/

theorem utf8DecodeFrom?_of_last {bits low high : Nat} {s : Bytes} {cs : List Char}
    (h : utf8DecodeFrom? (some ⟨bits, 1, low, high⟩) s = some cs) :
    ∃ (b : UInt8) (r : Bytes) (cs' : List Char), s = b :: r ∧ low ≤ b.toNat ∧ b.toNat ≤ high ∧
      cs = Char.ofNat (bits * 64 + (b.toNat - 0x80)) :: cs' ∧ utf8DecodeFrom? none r = some cs' := by
  cases s with
  | nil => cases h
  | cons b r =>
    rw [utf8DecodeFrom?_cons, utf8Step, utf8Tail] at h
    by_cases hb : low ≤ b.toNat ∧ b.toNat ≤ high
    · simp only [if_pos hb, Nat.le_refl, if_true] at h
      obtain ⟨cs', hrest, rfl⟩ := Option.map_eq_some_iff.mp h
      exact ⟨b, r, cs', rfl, hb.1, hb.2, rfl, hrest⟩
    · simp [if_neg hb] at h

theorem utf8DecodeFrom?_of_more {bits owed low high : Nat} {s : Bytes} {cs : List Char}
    (h : utf8DecodeFrom? (some ⟨bits, owed + 2, low, high⟩) s = some cs) :
    ∃ (b : UInt8) (r : Bytes), s = b :: r ∧ low ≤ b.toNat ∧ b.toNat ≤ high ∧
      utf8DecodeFrom? (some ⟨bits * 64 + (b.toNat - 0x80), owed + 1, 0x80, 0xBF⟩) r = some cs := by
  cases s with
  | nil => cases h
  | cons b r =>
    rw [utf8DecodeFrom?_cons, utf8Step, utf8Tail] at h
    by_cases hb : low ≤ b.toNat ∧ b.toNat ≤ high
    · have howed : ¬ owed + 2 ≤ 1 := by omega
      simp only [if_pos hb, if_neg howed] at h
      exact ⟨b, r, rfl, hb.1, hb.2, h⟩
    · simp [if_neg hb] at h

theorem ofNat_eq_of_toNat {b : UInt8} {n : Nat} (h : n = b.toNat) : UInt8.ofNat n = b := by
  rw [h, UInt8.ofNat_toNat]

/-- A code point that is no surrogate is the value of the character made of it. -/
theorem val_ofNat {v : Nat} (h : v < 0xD800 ∨ 0xDFFF < v ∧ v ≤ 0x10FFFF) :
    (Char.ofNat v).val.toNat = v := by
  have hvalid : v.isValidChar := by
    rcases h with h | h
    · exact .inl h
    · exact .inr ⟨h.1, by omega⟩
  rw [Char.ofNat, dif_pos hvalid]
  rfl

/-! Each length of a character has its first bytes and a range of second bytes. Both are put into the code
point that is encoded here. -/

theorem utf8EncodeChar_one {b : UInt8} (hb : b.toNat ≤ 0x7F) :
    String.utf8EncodeChar (Char.ofNat b.toNat) = [b] := by
  rw [String.utf8EncodeChar, val_ofNat (by omega), if_pos hb, ofNat_eq_of_toNat rfl]

theorem utf8EncodeChar_two {b b₁ : UInt8} (hb : 0xC2 ≤ b.toNat ∧ b.toNat ≤ 0xDF)
    (hlow : 0x80 ≤ b₁.toNat) (hhigh : b₁.toNat ≤ 0xBF) :
    String.utf8EncodeChar (Char.ofNat ((b.toNat - 0xC0) * 64 + (b₁.toNat - 0x80))) = [b, b₁] := by
  rw [String.utf8EncodeChar, val_ofNat (by omega), if_neg (by omega), if_pos (by omega),
    ofNat_eq_of_toNat (b := b) (by omega), ofNat_eq_of_toNat (b := b₁) (by omega)]

theorem utf8EncodeChar_three {b b₁ b₂ : UInt8} (hb : 0xE0 ≤ b.toNat ∧ b.toNat ≤ 0xEF)
    (hlow : (if b.toNat = 0xE0 then 0xA0 else 0x80) ≤ b₁.toNat)
    (hhigh : b₁.toNat ≤ if b.toNat = 0xED then 0x9F else 0xBF)
    (hlow' : 0x80 ≤ b₂.toNat) (hhigh' : b₂.toNat ≤ 0xBF) :
    String.utf8EncodeChar
        (Char.ofNat (((b.toNat - 0xE0) * 64 + (b₁.toNat - 0x80)) * 64 + (b₂.toNat - 0x80))) =
      [b, b₁, b₂] := by
  have hrange : 0xA0 ≤ b₁.toNat ∨ b.toNat ≠ 0xE0 ∧ 0x80 ≤ b₁.toNat := by split at hlow <;> omega
  have hsurrogate : b₁.toNat ≤ 0x9F ∨ b.toNat ≠ 0xED ∧ b₁.toNat ≤ 0xBF := by split at hhigh <;> omega
  clear hlow hhigh
  rw [String.utf8EncodeChar, val_ofNat (by omega), if_neg (by omega), if_neg (by omega),
    if_pos (by omega), ofNat_eq_of_toNat (b := b) (by omega), ofNat_eq_of_toNat (b := b₁) (by omega),
    ofNat_eq_of_toNat (b := b₂) (by omega)]

theorem utf8EncodeChar_four {b b₁ b₂ b₃ : UInt8} (hb : 0xF0 ≤ b.toNat ∧ b.toNat ≤ 0xF4)
    (hlow : (if b.toNat = 0xF0 then 0x90 else 0x80) ≤ b₁.toNat)
    (hhigh : b₁.toNat ≤ if b.toNat = 0xF4 then 0x8F else 0xBF)
    (hlow' : 0x80 ≤ b₂.toNat) (hhigh' : b₂.toNat ≤ 0xBF)
    (hlow'' : 0x80 ≤ b₃.toNat) (hhigh'' : b₃.toNat ≤ 0xBF) :
    String.utf8EncodeChar
        (Char.ofNat ((((b.toNat - 0xF0) * 64 + (b₁.toNat - 0x80)) * 64 + (b₂.toNat - 0x80)) * 64 +
          (b₃.toNat - 0x80))) =
      [b, b₁, b₂, b₃] := by
  have hrange : 0x90 ≤ b₁.toNat ∨ b.toNat ≠ 0xF0 ∧ 0x80 ≤ b₁.toNat := by split at hlow <;> omega
  have hlast : b₁.toNat ≤ 0x8F ∨ b.toNat ≠ 0xF4 ∧ b₁.toNat ≤ 0xBF := by split at hhigh <;> omega
  clear hlow hhigh
  rw [String.utf8EncodeChar, val_ofNat (by omega), if_neg (by omega), if_neg (by omega),
    if_neg (by omega), ofNat_eq_of_toNat (b := b) (by omega), ofNat_eq_of_toNat (b := b₁) (by omega),
    ofNat_eq_of_toNat (b := b₂) (by omega), ofNat_eq_of_toNat (b := b₃) (by omega)]

/-- What is decoded starts with the character whose encoding stands in front. -/
theorem utf8DecodeFrom?_eq_some {b : UInt8} {s : Bytes} {cs : List Char}
    (h : utf8DecodeFrom? none (b :: s) = some cs) :
    ∃ (c : Char) (cs' : List Char) (r : Bytes), cs = c :: cs' ∧ b :: s = String.utf8EncodeChar c ++ r ∧
      utf8DecodeFrom? none r = some cs' := by
  rw [utf8DecodeFrom?_cons, utf8Step, utf8Lead] at h
  -- as many cases as there are lengths of a character
  by_cases hone : b.toNat ≤ 0x7F
  · rw [if_pos hone] at h
    obtain ⟨cs', hrest, rfl⟩ := Option.map_eq_some_iff.mp h
    refine ⟨_, cs', s, rfl, ?_, hrest⟩
    rw [utf8EncodeChar_one hone]
    rfl
  rw [if_neg hone] at h
  by_cases htwo : 0xC2 ≤ b.toNat ∧ b.toNat ≤ 0xDF
  · rw [if_pos htwo] at h
    obtain ⟨b₁, r, cs', rfl, hlow, hhigh, rfl, hrest⟩ := utf8DecodeFrom?_of_last h
    refine ⟨_, cs', r, rfl, ?_, hrest⟩
    rw [utf8EncodeChar_two htwo hlow hhigh]
    rfl
  rw [if_neg htwo] at h
  by_cases hthree : 0xE0 ≤ b.toNat ∧ b.toNat ≤ 0xEF
  · rw [if_pos hthree] at h
    obtain ⟨b₁, _, rfl, hlow, hhigh, h⟩ := utf8DecodeFrom?_of_more h
    obtain ⟨b₂, r, cs', rfl, hlow', hhigh', rfl, hrest⟩ := utf8DecodeFrom?_of_last h
    refine ⟨_, cs', r, rfl, ?_, hrest⟩
    rw [utf8EncodeChar_three hthree hlow hhigh hlow' hhigh']
    rfl
  rw [if_neg hthree] at h
  by_cases hfour : 0xF0 ≤ b.toNat ∧ b.toNat ≤ 0xF4
  · rw [if_pos hfour] at h
    obtain ⟨b₁, _, rfl, hlow, hhigh, h⟩ := utf8DecodeFrom?_of_more h
    obtain ⟨b₂, _, rfl, hlow', hhigh', h⟩ := utf8DecodeFrom?_of_more h
    obtain ⟨b₃, r, cs', rfl, hlow'', hhigh'', rfl, hrest⟩ := utf8DecodeFrom?_of_last h
    refine ⟨_, cs', r, rfl, ?_, hrest⟩
    rw [utf8EncodeChar_four hfour hlow hhigh hlow' hhigh' hlow'' hhigh'']
    rfl
  · simp [if_neg hfour] at h

/-- Bytes that decode to a text are the encoding of the text. -/
theorem utf8Encode_of_decode? {s : Bytes} {cs : List Char} (h : utf8Decode? s = some cs) :
    utf8Encode cs = s := by
  unfold utf8Decode? at h
  induction cs generalizing s with
  | nil =>
    cases s with
    | nil => rfl
    | cons b s =>
      obtain ⟨c, cs', r, hcons, -⟩ := utf8DecodeFrom?_eq_some h
      cases hcons
  | cons c cs ih =>
    cases s with
    | nil => cases h
    | cons b s =>
      obtain ⟨c, cs', r, hcons, hbytes, hrest⟩ := utf8DecodeFrom?_eq_some h
      cases hcons
      rw [utf8Encode_cons, ih hrest, hbytes]

/-! ## Lossy decoding -/

/-- What is begun is past the characters with the least code points, whatever byte comes next. -/
def PartialChar.IsLarge (p : PartialChar) : Prop := 1 ≤ p.bits ∨ 0x90 ≤ p.low

/-- A byte that goes on with a character takes it to a value of at least 16. -/
theorem PartialChar.IsLarge.le_bits {p : PartialChar} (h : p.IsLarge) {b : UInt8} (hlow : p.low ≤ b.toNat) :
    16 ≤ p.bits * 64 + (b.toNat - 0x80) := by
  rcases h with h | h
  · omega
  · omega

theorem ofNat_ne_newline {v : Nat} (h : 16 ≤ v) : Char.ofNat v ≠ '\n' := by
  intro heq
  have hnat : (Char.ofNat v).toNat = 10 := congrArg Char.toNat heq
  by_cases hvalid : v.isValidChar
  · rw [Char.ofNat, dif_pos hvalid] at hnat
    have hv : v = 10 := hnat
    omega
  · rw [Char.ofNat, dif_neg hvalid] at hnat
    cases hnat

theorem utf8Lead_isLarge {b : UInt8} {p : PartialChar} (h : utf8Lead b = .more p) : p.IsLarge := by
  unfold utf8Lead at h
  dsimp only at h
  split at h
  · cases h
  split at h
  · rw [← Utf8Step.more.inj h]
    exact .inl (by dsimp only; omega)
  split at h
  · rw [← Utf8Step.more.inj h, PartialChar.IsLarge]
    dsimp only
    split <;> omega
  split at h
  · rw [← Utf8Step.more.inj h, PartialChar.IsLarge]
    dsimp only
    split <;> omega
  · cases h

theorem utf8Lead_eq_newline {b : UInt8} (h : utf8Lead b = .scalar '\n') : b = 10 := by
  unfold utf8Lead at h
  dsimp only at h
  split at h
  · next hascii =>
    have hvalue : (Char.ofNat b.toNat).val.toNat = 10 :=
      congrArg (fun c : Char ↦ c.val.toNat) (Utf8Step.scalar.inj h)
    rw [val_ofNat (by omega)] at hvalue
    exact UInt8.toNat_inj.mp hvalue
  · split at h
    · cases h
    · split at h
      · cases h
      · split at h <;> cases h

/-- A later byte neither ends a character with a line feed nor makes one likelier. -/
theorem utf8Tail_isLarge {p : PartialChar} (hp : p.IsLarge) (b : UInt8) :
    utf8Tail p b ≠ .scalar '\n' ∧ ∀ p', utf8Tail p b = .more p' → p'.IsLarge := by
  unfold utf8Tail
  dsimp only
  split
  · next hb =>
    have hbits := hp.le_bits hb.1
    split
    · exact ⟨fun h ↦ ofNat_ne_newline hbits (Utf8Step.scalar.inj h), fun p' h ↦ nomatch h⟩
    · refine ⟨Utf8Step.noConfusion, fun p' h ↦ ?_⟩
      rw [← Utf8Step.more.inj h]
      exact .inl (Nat.le_trans (by decide) hbits)
  · exact ⟨Utf8Step.noConfusion, fun p' h ↦ nomatch h⟩

/-- A state in which the next line feed is one of the bytes. -/
def IsLargeState (q : Option PartialChar) : Prop := ∀ p, q = some p → p.IsLarge

theorem isLargeState_none : IsLargeState none := fun _ hp ↦ nomatch hp

theorem utf8Step_eq_newline {q : Option PartialChar} (hq : IsLargeState q) {b : UInt8}
    (h : utf8Step q b = .scalar '\n') : b = 10 := by
  cases q with
  | none => exact utf8Lead_eq_newline h
  | some p => exact absurd h (utf8Tail_isLarge (hq p rfl) b).1

theorem utf8Step_isLarge {q : Option PartialChar} (hq : IsLargeState q) {b : UInt8} {p : PartialChar}
    (h : utf8Step q b = .more p) : IsLargeState (some p) := by
  rintro _ ⟨⟩
  cases q with
  | none => exact utf8Lead_isLarge h
  | some p' => exact (utf8Tail_isLarge (hq p' rfl) b).2 p h

theorem utf8DecodeLossyFrom_cons (q : Option PartialChar) (b : UInt8) (r : Bytes) :
    utf8DecodeLossyFrom q (b :: r) =
      match utf8Step q b with
      | .scalar c => c :: utf8DecodeLossyFrom none r
      | .more q' => utf8DecodeLossyFrom (some q') r
      | .refuse =>
        match q with
        | none => '\uFFFD' :: utf8DecodeLossyFrom none r
        | some _ => '\uFFFD' :: utf8DecodeLossyFrom none (b :: r) := by
  cases q with
  | none => rfl
  | some p =>
    cases hstep : utf8Step (some p) b with
    | scalar c => simp [utf8DecodeLossyFrom, hstep]
    | more p' => simp [utf8DecodeLossyFrom, hstep]
    | refuse =>
      simp only [utf8DecodeLossyFrom, hstep]
      rfl

/-- Lossy decoding loses nothing of what strict decoding reads. -/
theorem utf8DecodeLossyFrom_of_decodeFrom? {q : Option PartialChar} {s : Bytes} {cs : List Char}
    (h : utf8DecodeFrom? q s = some cs) : utf8DecodeLossyFrom q s = cs := by
  induction s generalizing q cs with
  | nil =>
    cases q with
    | none => exact Option.some.inj h
    | some p => cases h
  | cons b s ih =>
    rw [utf8DecodeFrom?_cons] at h
    rw [utf8DecodeLossyFrom_cons]
    cases hstep : utf8Step q b with
    | scalar c =>
      simp only [hstep] at h
      obtain ⟨cs', hrest, rfl⟩ := Option.map_eq_some_iff.mp h
      exact congrArg (c :: ·) (ih hrest)
    | more p =>
      simp only [hstep] at h
      exact ih h
    | refuse => simp [hstep] at h

theorem utf8DecodeLossy_encode (s : List Char) : utf8DecodeLossy (utf8Encode s) = s :=
  utf8DecodeLossyFrom_of_decodeFrom? (utf8Decode?_encode s)

theorem newline_mem_of_lossyFrom {q : Option PartialChar} (hq : IsLargeState q) {s : Bytes}
    (h : '\n' ∈ utf8DecodeLossyFrom q s) : 10 ∈ s := by
  have hreplacement : '\n' ≠ '\uFFFD' := by decide
  induction s generalizing q with
  | nil => cases q <;> simp_all [utf8DecodeLossyFrom]
  | cons b r ih =>
    have hread (q : Option PartialChar) (hq : IsLargeState q) (hstep : utf8Step q b ≠ .refuse)
        (h : '\n' ∈ utf8DecodeLossyFrom q (b :: r)) : 10 ∈ b :: r := by
      rw [utf8DecodeLossyFrom_cons] at h
      cases hb : utf8Step q b with
      | scalar c =>
        simp only [hb] at h
        rcases List.mem_cons.mp h with hc | hrest
        · subst hc
          rw [utf8Step_eq_newline hq hb]
          exact .head r
        · exact .tail b (ih isLargeState_none hrest)
      | more p =>
        simp only [hb] at h
        exact .tail b (ih (utf8Step_isLarge hq hb) h)
      | refuse => exact absurd hb hstep
    have hfirst (h : '\n' ∈ utf8DecodeLossyFrom none (b :: r)) : 10 ∈ b :: r := by
      by_cases hstep : utf8Step none b = .refuse
      · rw [utf8DecodeLossyFrom_cons] at h
        simp only [hstep] at h
        exact .tail b (ih isLargeState_none (List.mem_of_ne_of_mem hreplacement h))
      · exact hread none isLargeState_none hstep h
    by_cases hstep : utf8Step q b = .refuse
    · cases q with
      | none => exact hfirst h
      | some p =>
        -- The byte is read again as a first byte.
        rw [utf8DecodeLossyFrom_cons] at h
        simp only [hstep] at h
        exact hfirst (List.mem_of_ne_of_mem hreplacement h)
    · exact hread q hq hstep h

/-- A line feed in the decoded text was one of the bytes. -/
theorem newline_mem_of_lossy {s : Bytes} (h : '\n' ∈ utf8DecodeLossy s) : 10 ∈ s :=
  newline_mem_of_lossyFrom isLargeState_none h

end RuleGate.Text

namespace RuleGate.Bytes

/-- Bytes that spell a text are its encoding. -/
theorem ofString_of_toString? {s : Bytes} {t : String} (h : s.toString? = some t) : ofString t = s := by
  obtain ⟨cs, hcs, rfl⟩ := Option.map_eq_some_iff.mp h
  rw [ofString, String.toList_ofList, Text.utf8Encode_of_decode? hcs]

theorem toStringLossy_encode (s : List Char) : toStringLossy (Text.utf8Encode s) = String.ofList s := by
  rw [toStringLossy, Text.utf8DecodeLossy_encode]

theorem toStringLossy_ofString (t : String) : toStringLossy (ofString t) = t := by
  rw [ofString, toStringLossy_encode, String.ofList_toList]

/-- Bytes that start with the encoding of a text and spell a text are the encodings of two texts. -/
theorem ofString_eq_append_iff {t front : String} {rest : Bytes} :
    ofString t = ofString front ++ rest ↔ ∃ back, t = front ++ back ∧ ofString back = rest := by
  constructor
  · intro h
    have hdecoded := Text.utf8Decode?_encode_append front.toList rest
    rw [show Text.utf8Encode front.toList ++ rest = Text.utf8Encode t.toList from h.symm,
      Text.utf8Decode?_encode] at hdecoded
    obtain ⟨back, hback, happend⟩ := Option.map_eq_some_iff.mp hdecoded.symm
    refine ⟨String.ofList back, String.toList_inj.mp ?_, ?_⟩
    · rw [String.toList_append, String.toList_ofList, happend]
    · rw [ofString, String.toList_ofList, Text.utf8Encode_of_decode? hback]
  · rintro ⟨back, rfl, rfl⟩
    exact ofString_append front back

end RuleGate.Bytes
