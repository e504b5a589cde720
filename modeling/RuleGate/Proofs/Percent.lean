import RuleGate.Percent
import RuleGate.Proofs.Text.Utf8

/-!
# Percent decoding undoes encoding

Decoding gives back whatever bytes were encoded, as long as the kept bytes are ASCII and the percent
sign is not among them. What an encoder neither keeps nor needs for its escapes does not occur in what
it writes.
-/

namespace RuleGate.Percent

theorem decodeBytes_cons_of_ne {b : UInt8} (h : b ≠ 37) (r : Bytes) :
    decodeBytes (b :: r) = b :: decodeBytes r := by
  match r with
  | [] => rfl
  | [_] => rfl
  | _ :: _ :: _ => rw [decodeBytes, if_neg h]

theorem decodeBytes_escape {high low v : UInt8} (h : escapeValue? high low = some v) (r : Bytes) :
    decodeBytes (37 :: high :: low :: r) = v :: decodeBytes r := by
  rw [decodeBytes, if_pos rfl, h]

/-! ## One byte -/

theorem toNat_char (b : UInt8) : (Char.ofNat b.toNat).toNat = b.toNat := by
  have hb := b.toNat_lt
  rw [Char.ofNat, dif_pos (.inl (by omega))]
  rfl

theorem utf8Encode_ascii {b : UInt8} (h : b.toNat < 128) :
    Text.utf8Encode [Char.ofNat b.toNat] = [b] := by
  have hval : (Char.ofNat b.toNat).val.toNat = b.toNat := toNat_char b
  rw [Text.utf8Encode, List.flatMap_singleton, String.utf8EncodeChar, hval]
  rw [if_pos (by omega), UInt8.ofNat_toNat]

/-- The byte of an upper-case hexadecimal digit. -/
def hexByte (n : Nat) : UInt8 := UInt8.ofNat (if n < 10 then 48 + n else 55 + n)

theorem utf8Encode_hexDigit : ∀ n < 16, Text.utf8Encode [Text.hexDigitUpper n] = [hexByte n] := by
  decide

theorem hexValue?_hexByte : ∀ n < 16, hexValue? (hexByte n) = some (UInt8.ofNat n) := by
  decide

theorem escapeValue?_hexByte (b : UInt8) :
    escapeValue? (hexByte (b.toNat / 16)) (hexByte (b.toNat % 16)) = some b := by
  have hb := b.toNat_lt
  have hsum : UInt8.ofNat (b.toNat / 16) * 16 + UInt8.ofNat (b.toNat % 16) = b := by
    apply UInt8.toNat_inj.mp
    simp only [UInt8.toNat_add, UInt8.toNat_mul, UInt8.toNat_ofNat', UInt8.reduceToNat]
    omega
  rw [escapeValue?, hexValue?_hexByte _ (by omega), hexValue?_hexByte _ (by omega)]
  exact congrArg some hsum

theorem utf8Encode_escapeByte (b : UInt8) :
    Text.utf8Encode (escapeByte b) = [37, hexByte (b.toNat / 16), hexByte (b.toNat % 16)] := by
  have hb := b.toNat_lt
  have hsplit : escapeByte b =
      ['%'] ++ ([Text.hexDigitUpper (b.toNat / 16)] ++ [Text.hexDigitUpper (b.toNat % 16)]) := rfl
  rw [hsplit, Text.utf8Encode_append, Text.utf8Encode_append, utf8Encode_hexDigit _ (by omega),
    utf8Encode_hexDigit _ (by omega)]
  rfl

/-! ## Whole texts -/

section Encode

variable {keep : UInt8 → Bool}

theorem encodeBytes_cons (b : UInt8) (s : Bytes) :
    encodeBytes keep (b :: s) =
      (if keep b then [Char.ofNat b.toNat] else escapeByte b) ++ encodeBytes keep s := rfl

theorem decodeBytes_encodeBytes (hascii : ∀ b, keep b = true → b.toNat < 128) (hpercent : keep 37 = false)
    (s : Bytes) : decodeBytes (Text.utf8Encode (encodeBytes keep s)) = s := by
  induction s with
  | nil => rfl
  | cons b s ih =>
    rw [encodeBytes_cons, Text.utf8Encode_append]
    by_cases hkeep : keep b = true
    · have hne : b ≠ 37 := fun h ↦ by simp [h, hpercent] at hkeep
      rw [if_pos hkeep, utf8Encode_ascii (hascii b hkeep), List.singleton_append,
        decodeBytes_cons_of_ne hne, ih]
    · rw [if_neg hkeep, utf8Encode_escapeByte]
      simp only [List.cons_append, List.nil_append]
      rw [decodeBytes_escape (escapeValue?_hexByte b), ih]

/-- A character that is not kept occurs in encoded text only as part of an escape. -/
theorem not_mem_encodeBytes {d : Char} (hbyte : keep (UInt8.ofNat d.toNat) = false) (hsign : d ≠ '%')
    (hdigit : ∀ n < 16, d ≠ Text.hexDigitUpper n) (s : Bytes) : d ∉ encodeBytes keep s := by
  intro hmem
  obtain ⟨b, _, hd⟩ := List.mem_flatMap.mp hmem
  have hb := b.toNat_lt
  split at hd
  · next hkeep =>
    rw [List.mem_singleton.mp hd, toNat_char, UInt8.ofNat_toNat, hkeep] at hbyte
    cases hbyte
  · simp only [escapeByte, List.mem_cons, List.not_mem_nil, or_false] at hd
    rcases hd with hd | hd | hd
    · exact hsign hd
    · exact hdigit _ (by omega) hd
    · exact hdigit _ (by omega) hd

/-- Encoded text consists of kept bytes, percent signs and hexadecimal digits. -/
theorem forall_mem_encodeBytes {p : Char → Bool}
    (hkept : ∀ n < 256, keep (UInt8.ofNat n) = true → p (Char.ofNat n) = true) (hsign : p '%' = true)
    (hdigit : ∀ n < 16, p (Text.hexDigitUpper n) = true) (s : Bytes) : ∀ c ∈ encodeBytes keep s, p c = true := by
  intro c hc
  obtain ⟨b, _, hb⟩ := List.mem_flatMap.mp hc
  have hbyte := b.toNat_lt
  split at hb
  · next hkeep =>
    rw [List.mem_singleton.mp hb]
    exact hkept b.toNat hbyte (by rwa [UInt8.ofNat_toNat])
  · simp only [escapeByte, List.mem_cons, List.not_mem_nil, or_false] at hb
    rcases hb with rfl | rfl | rfl
    · exact hsign
    · exact hdigit _ (by omega)
    · exact hdigit _ (by omega)

theorem encodeBytes_append (s t : Bytes) : encodeBytes keep (s ++ t) = encodeBytes keep s ++ encodeBytes keep t :=
  List.flatMap_append

end Encode

theorem decodeOrSelf_encodeBytes {keep : UInt8 → Bool} (hascii : ∀ b, keep b = true → b.toNat < 128)
    (hpercent : keep 37 = false) (s : String) :
    decodeOrSelf (String.ofList (encodeBytes keep (Bytes.ofString s))) = s := by
  rw [decodeOrSelf, decode?, Bytes.ofString, String.toList_ofList,
    decodeBytes_encodeBytes hascii hpercent, Bytes.toString?_ofString, Option.getD_some]

theorem ascii_of_forall {keep : UInt8 → Bool}
    (h : ∀ n < 256, keep (UInt8.ofNat n) = true → n < 128) (b : UInt8) (hb : keep b = true) :
    b.toNat < 128 :=
  h b.toNat b.toNat_lt (by rwa [UInt8.ofNat_toNat])

theorem isUnreserved_ascii : ∀ b, isUnreserved b = true → b.toNat < 128 :=
  ascii_of_forall (by decide +kernel)

theorem isPathByte_ascii : ∀ b, isPathByte b = true → b.toNat < 128 :=
  ascii_of_forall (by decide +kernel)

@[simp] theorem decodeOrSelf_encode (s : String) : decodeOrSelf (encode s) = s :=
  decodeOrSelf_encodeBytes isUnreserved_ascii (by decide) s

@[simp] theorem decodeOrSelf_encodePath (s : String) : decodeOrSelf (encodePath s) = s :=
  decodeOrSelf_encodeBytes isPathByte_ascii (by decide) s

end RuleGate.Percent
