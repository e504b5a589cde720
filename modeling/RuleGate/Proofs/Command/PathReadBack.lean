import RuleGate.Proofs.Command.Rewrite

/-!
# Paths that are read back

A path that is put into a request is read back as it was given, whatever characters it holds: what is written
for it is the characters that a path may hold as they are, and escapes for all others. Nothing but the path of
the request changes, and nothing that was noted is forgotten but the path.
-/

namespace RuleGate

namespace Percent

/-- The characters that stand for themselves in a path: those of its segments, and the slash between them. -/
def isPlainPathChar (c : Char) : Bool := c.isAlphanum || "-._~!$&'()*+,;=:@/".toList.contains c

/-- The upper-case hexadecimal digits. -/
def isHexDigitUpper (c : Char) : Bool := c.isDigit || ('A' ≤ c && c ≤ 'F')

/-- The text consists of plain characters and escapes. -/
def isEscaped (plain : Char → Bool) : List Char → Bool
  | [] => true
  | '%' :: high :: low :: rest => isHexDigitUpper high && isHexDigitUpper low && isEscaped plain rest
  | c :: rest => c != '%' && plain c && isEscaped plain rest

theorem isEscaped_cons {plain : Char → Bool} {c : Char} (hsign : c ≠ '%') (rest : List Char) :
    isEscaped plain (c :: rest) = (plain c && isEscaped plain rest) := by
  rw [isEscaped]
  · rw [bne_iff_ne.mpr hsign, Bool.true_and]
  · rintro high low rest' rfl
    exact absurd rfl hsign

theorem isHexDigitUpper_hexDigitUpper : ∀ n < 16, isHexDigitUpper (Text.hexDigitUpper n) = true := by decide

theorem isEscaped_escapeByte {plain : Char → Bool} (b : UInt8) (rest : List Char) :
    isEscaped plain (escapeByte b ++ rest) = isEscaped plain rest := by
  have hb := b.toNat_lt
  rw [escapeByte, List.cons_append, List.cons_append, List.cons_append, List.nil_append, isEscaped,
    isHexDigitUpper_hexDigitUpper _ (by omega), isHexDigitUpper_hexDigitUpper _ (by omega)]
  rfl

/-- An encoder escapes all that it does not keep. -/
theorem isEscaped_encodeBytes {keep : UInt8 → Bool} {plain : Char → Bool} (hpercent : keep 37 = false)
    (hplain : ∀ n < 256, keep (UInt8.ofNat n) = true → plain (Char.ofNat n) = true) (s : Bytes) :
    isEscaped plain (encodeBytes keep s) = true := by
  induction s with
  | nil => rfl
  | cons b s ih =>
    rw [encodeBytes_cons]
    by_cases hkeep : keep b = true
    · have hsign : Char.ofNat b.toNat ≠ '%' := by
        intro h
        have hnat := congrArg Char.toNat h
        rw [toNat_char] at hnat
        have hbyte : b = 37 := UInt8.toNat_inj.mp hnat
        rw [hbyte, hpercent] at hkeep
        cases hkeep
      have hchar : plain (Char.ofNat b.toNat) = true := hplain b.toNat b.toNat_lt (by rwa [UInt8.ofNat_toNat])
      rw [if_pos hkeep, List.singleton_append, isEscaped_cons hsign, hchar, ih]
      rfl
    · rw [if_neg hkeep, isEscaped_escapeByte, ih]

theorem isEscaped_encodePath (path : String) : isEscaped isPlainPathChar (encodePath path).toList = true := by
  rw [encodePath, String.toList_ofList]
  exact isEscaped_encodeBytes (by decide) (by decide +kernel) _

end Percent

/-- For every request whose target was read and is not an authority alone, whatever was read and run before: a
path with a slash in front that can be written is read back as it was given. What is written for it consists of
plain characters and escapes, and besides it neither the request nor the notes of it change. A path that cannot be
written changes nothing. -/
theorem path_reads_back (target : String) {r : Request} (world : World) (activities : List Activity)
    (htarget : Uri.ofString target = .ok r.uri)
    (hcompiled : ∀ c, .command c ∈ activities → Command.IsCompiled c) (path : String)
    (hslash : path.startsWith "/" = true) :
    let x := (activities.foldl Activity.perform ⟨.start r, world⟩).exchange
    let y := (x.setPath path).1
    let fits := PathQuery.Fits (Percent.encodePath path) x.request.uri.query?
    ¬ x.request.uri.IsAuthority →
      (fits → y.path = path ∧ Percent.isEscaped Percent.isPlainPathChar y.request.uri.path.toList = true ∧
        y.request = x.request.withPath y.request.uri.path ∧
        y = { x with request := y.request, memo := { x.memo with path := none } }) ∧
      (¬ fits → y = x) := by
  intro x y fits hform
  have hgrounded : x.Grounded :=
    Exchange.grounded_lasts.endures.foldl_perform (Exchange.start_grounded htarget) hcompiled
  have hsettled : x.request.uri.Settled := hgrounded.target.settled hform
  obtain ⟨rest, rfl⟩ := Text.startsWith_iff.mp hslash
  have hset : y = if fits then x.withDecodedPath ("/" ++ rest) else x :=
    Exchange.setPath_slash hgrounded.target.formed rest
  refine ⟨fun hfits ↦ ?_, fun hlong ↦ ?_⟩
  · rw [if_pos hfits] at hset
    have hne : "/" ++ rest ≠ "" := by simp [String.append_eq_empty_iff]
    have hwritten : y.request.uri.path = Percent.encodePath ("/" ++ rest) := by
      rw [hset]
      exact Uri.path_of_ne_empty (Percent.encodePath_ne_empty hne)
    have hrequest := (Exchange.request_withDecodedPath hsettled hne).2
    rw [← hset] at hrequest
    refine ⟨?_, ?_, hrequest, ?_⟩
    · have hread : y.path = Percent.decodeOrSelf y.request.uri.path := by
        rw [hset]
        rfl
      rw [hread, hwritten, Percent.decodeOrSelf_encodePath]
    · rw [hwritten]
      exact Percent.isEscaped_encodePath _
    · rw [hset]
      rfl
  · rw [hset, if_neg hlong]

/-- What would end a path, or start an escape in it, is read back after the old path has been read. -/
theorem delimiters_read_back :
    let r : Request := { Request.plain "" with uri := ⟨some "http", some "h", ⟨"/old", some "q=1"⟩⟩ }
    let x := ([.read .path, .read .form].foldl Activity.perform ⟨.start r, .quiet⟩).exchange
    let y := (x.setPath "/%?# \x01é").1
    Uri.ofString "http://h/old?q=1" = .ok r.uri ∧ "/%?# \x01é".startsWith "/" = true ∧
      ¬ x.request.uri.IsAuthority ∧ PathQuery.Fits (Percent.encodePath "/%?# \x01é") x.request.uri.query? ∧
      x.memo.path = some "/old" ∧ y.path = "/%?# \x01é" ∧
      y.request.uri.text = "http://h/%25%3F%23%20%01%C3%A9?q=1" := by
  have hslash : "/%?# \x01é".startsWith "/" = true := by decide +kernel
  have hreads := path_reads_back "http://h/old?q=1"
    (r := { Request.plain "" with uri := ⟨some "http", some "h", ⟨"/old", some "q=1"⟩⟩ }) .quiet
    [.read .path, .read .form] rfl nofun "/%?# \x01é" hslash
  refine ⟨rfl, hslash, by decide, by decide +kernel, by decide +kernel, ?_, by decide +kernel⟩
  exact ((hreads (by decide)).1 (by decide +kernel)).1

end RuleGate
