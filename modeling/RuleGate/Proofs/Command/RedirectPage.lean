import RuleGate.Command.Redirect
import RuleGate.Proofs.Response.Draft
import RuleGate.Proofs.Text.Split
import RuleGate.Text.Decimal

/-!
# The text of redirect pages

Readers of a page take what stands between an ampersand and the next semicolon for a reference to a character, which
has a name or a number. A location is put into a page with references in place of all characters that the page is
marked up with, so that none of these ends the location early, and a reader gets the location back.
-/

namespace RuleGate.Redirect

/-- The characters that pages are marked up with. -/
def markup : List Char := ['&', '<', '>', '"', '\'']

/-- The characters that have names in every page. -/
def named : List (List Char × Char) :=
  [("amp".toList, '&'), ("lt".toList, '<'), ("gt".toList, '>'), ("quot".toList, '"'), ("apos".toList, '\'')]

/-- The character that a reference stands for, from what is between its ampersand and its semicolon. -/
def referent? : List Char → Option Char
  | '#' :: digits =>
    if !digits.isEmpty && digits.all Char.isDigit then some (Char.ofNat (Text.Decimal.ofDigits digits)) else none
  | name => named.lookup name

/-- What a reader makes of an ampersand and the text behind it, up to the next ampersand. What is no reference stands
for itself. -/
def unescapePiece (s : List Char) : List Char :=
  match Text.cut? ';' s with
  | some (reference, rest) =>
    match referent? reference with
    | some c => c :: rest
    | none => '&' :: s
  | none => '&' :: s

/-- The text that a reader of a page gets. -/
def unescape (s : List Char) : List Char :=
  match Text.splitOn '&' s with
  | [] => []
  | plain :: pieces => plain ++ pieces.flatMap unescapePiece

/-- A reference to a character of the markup, which itself holds none. -/
structure RefersTo (reference : List Char) (c : Char) : Prop where
  mem : c ∈ markup
  referent_eq : referent? reference = some c
  no_markup : ∀ d ∈ reference, d ∉ markup
  no_semicolon : ';' ∉ reference

/-- Characters of the markup occur in the text only as the ampersands of references to such characters. -/
def IsEscaped (s : List Char) : Prop :=
  ∀ front c back, s = front ++ c :: back → c ∈ markup →
    c = '&' ∧ ∃ reference d rest, back = reference ++ ';' :: rest ∧ RefersTo reference d

/-! ## One character -/

/-- A character is written as it is, or as a reference if it belongs to the markup. -/
theorem escapeChar_cases (c : Char) :
    (c ∉ markup ∧ escapeChar c = [c]) ∨
      ∃ reference, RefersTo reference c ∧ escapeChar c = '&' :: (reference ++ [';']) := by
  by_cases hc : c ∈ markup
  · right
    simp only [markup, List.mem_cons, List.not_mem_nil, or_false] at hc
    rcases hc with rfl | rfl | rfl | rfl | rfl
    · exact ⟨"amp".toList, ⟨by decide, by decide, by simp [markup], by decide⟩, rfl⟩
    · exact ⟨"lt".toList, ⟨by decide, by decide, by simp [markup], by decide⟩, rfl⟩
    · exact ⟨"gt".toList, ⟨by decide, by decide, by simp [markup], by decide⟩, rfl⟩
    · exact ⟨"#34".toList, ⟨by decide, by decide, by simp [markup], by decide⟩, rfl⟩
    · exact ⟨"#39".toList, ⟨by decide, by decide, by simp [markup], by decide⟩, rfl⟩
  · left
    refine ⟨hc, ?_⟩
    simp only [markup, List.mem_cons, List.not_mem_nil, or_false, not_or] at hc
    obtain ⟨hamp, hless, hgreater, hquote, happos⟩ := hc
    rw [escapeChar, if_neg hamp, if_neg hless, if_neg hgreater, if_neg hquote, if_neg happos]

/-! ## Reading back -/

/-- What stands in front of the first ampersand is read as it is. -/
theorem unescape_append {a : List Char} (h : '&' ∉ a) (s : List Char) : unescape (a ++ s) = a ++ unescape s := by
  obtain ⟨plain, pieces, hsplit, happend⟩ := Text.splitOn_append_front h s
  rw [unescape, happend, unescape, hsplit]
  exact List.append_assoc _ _ _

theorem unescape_reference {reference : List Char} {c : Char} (h : RefersTo reference c) (s : List Char) :
    unescape ('&' :: (reference ++ ';' :: s)) = c :: unescape s := by
  have hfree : '&' ∉ reference ++ [';'] := by
    rw [List.mem_append, not_or]
    exact ⟨fun hmem ↦ h.no_markup _ hmem (by decide), by decide⟩
  obtain ⟨plain, pieces, hsplit, happend⟩ := Text.splitOn_append_front hfree s
  rw [List.append_assoc, List.append_assoc, List.singleton_append] at happend
  have hpieces : Text.splitOn '&' ('&' :: (reference ++ ';' :: s)) = [] :: (reference ++ ';' :: plain) :: pieces :=
    (Text.splitOn_append_cons '&' [] _).trans (congrArg _ happend)
  have hpiece : unescapePiece (reference ++ ';' :: plain) = c :: plain := by
    rw [unescapePiece, Text.cut?_append h.no_semicolon]
    dsimp only
    rw [h.referent_eq]
  rw [unescape, hpieces, unescape, hsplit]
  dsimp only
  rw [List.flatMap_cons, hpiece]
  rfl

/-- A reader gets back the text that was escaped. -/
theorem unescape_escape (s : List Char) : unescape (s.flatMap escapeChar) = s := by
  induction s with
  | nil => rfl
  | cons c s ih =>
    rw [List.flatMap_cons]
    obtain ⟨hplain, hwritten⟩ | ⟨reference, hrefers, hwritten⟩ := escapeChar_cases c
    · have hamp : '&' ∉ [c] := fun h ↦ hplain (List.mem_singleton.mp h ▸ by decide)
      rw [hwritten, unescape_append hamp, ih, List.singleton_append]
    · rw [hwritten, List.cons_append, List.append_assoc, List.singleton_append, unescape_reference hrefers, ih]

/-! ## Where markup occurs -/

theorem IsEscaped.append {a b : List Char} (ha : IsEscaped a) (hb : IsEscaped b) : IsEscaped (a ++ b) := by
  intro front c back h hc
  obtain ⟨rest, rfl, hrest⟩ | ⟨rest, rfl, hrest⟩ := List.append_eq_append_iff.mp h
  · -- The character stands in the second text.
    exact hb rest c back hrest hc
  · cases rest with
    | nil => exact hb [] c back (by simpa using hrest.symm) hc
    | cons _ rest =>
      obtain ⟨rfl, hback⟩ := List.cons.inj hrest
      obtain ⟨hamp, reference, d, behind, hrest, hrefers⟩ := ha front c rest rfl hc
      refine ⟨hamp, reference, d, behind ++ b, ?_, hrefers⟩
      rw [hback, hrest, List.append_eq, List.append_assoc, List.cons_append]

theorem isEscaped_of_forall {s : List Char} (h : ∀ c ∈ s, c ∉ markup) : IsEscaped s := by
  rintro front c back rfl hc
  exact absurd hc (h c (List.mem_append_right _ List.mem_cons_self))

theorem isEscaped_reference {reference : List Char} {c : Char} (h : RefersTo reference c) :
    IsEscaped ('&' :: (reference ++ [';'])) := by
  intro front d back hsplit hd
  cases front with
  | nil =>
    obtain ⟨rfl, rfl⟩ := List.cons.inj hsplit
    exact ⟨rfl, reference, c, [], rfl, h⟩
  | cons _ front =>
    -- Behind the ampersand there is no markup.
    have hmem : d ∈ reference ++ [';'] := by
      rw [(List.cons.inj hsplit).2]
      exact List.mem_append_right _ List.mem_cons_self
    obtain hmem | hmem := List.mem_append.mp hmem
    · exact absurd hd (h.no_markup d hmem)
    · rw [List.mem_singleton.mp hmem] at hd
      exact absurd hd (by decide)

theorem isEscaped_escape (s : List Char) : IsEscaped (s.flatMap escapeChar) := by
  induction s with
  | nil => exact isEscaped_of_forall (List.forall_mem_nil _)
  | cons c s ih =>
    rw [List.flatMap_cons]
    obtain ⟨hplain, hwritten⟩ | ⟨reference, hrefers, hwritten⟩ := escapeChar_cases c
    · rw [hwritten]
      exact (isEscaped_of_forall (List.forall_mem_singleton.mpr hplain)).append ih
    · rw [hwritten]
      exact (isEscaped_reference hrefers).append ih

/-! ## The body of a redirect -/

/-- The body that comes with a redirect is its page, whatever the draft held before. -/
theorem body_respond_get (location : String) (d : ResponseDraft) :
    (respond "GET" location d).body = Bytes.ofString (page location) := by
  have hlocation : (setLocation location d.resetBody).body = [] := by
    unfold setLocation
    split
    · rw [ResponseDraft.body_withHeaders, ResponseDraft.body_resetBody]
    · exact d.body_resetBody
  rw [respond]
  simp only [true_or, if_true, ResponseDraft.body_write, ResponseDraft.body_withHeaders,
    ResponseDraft.body_setStatus, hlocation, List.nil_append]

/-- Whatever the location is, the page shows it to a reader and holds no markup in its place. -/
theorem page_shows_location (location : String) : ∃ shown : String,
    IsEscaped shown.toList ∧ unescape shown.toList = location.toList ∧
      ∀ d, (respond "GET" location d).body =
        Bytes.ofString ("<a href=\"" ++ shown ++ "\">Temporary Redirect</a>.\n\n") := by
  refine ⟨escape location, ?_, ?_, body_respond_get location⟩
  · rw [escape, String.toList_ofList]
    exact isEscaped_escape _
  · rw [escape, String.toList_ofList]
    exact unescape_escape _

end RuleGate.Redirect
