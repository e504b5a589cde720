import RuleGate.Proofs.Text.Split
import RuleGate.Sink

/-!
# The names in a path

A path leads from its origin through its names; empty components and single dots lead nowhere. Paths with one
key have the same origin and the same names, and the directory of a path has all its names but the last. Joining a
relative path appends its names.
-/

namespace RuleGate.FilePath

/-- Whether a component leads on from where it is met. -/
def isName (c : List Char) : Bool := !c.isEmpty && c != ['.']

/-- The components that lead on, in order. -/
def names (s : List Char) : List (List Char) := (rawComponents s).filter isName

theorem isName_eq_false {c : List Char} (h : isName c = false) : c = [] ∨ c = ['.'] := by
  rw [isName, Bool.and_eq_false_iff, Bool.not_eq_false', List.isEmpty_iff, bne_eq_false_iff_eq] at h
  exact h

/-- A slash parts the names before it from those behind it. -/
theorem names_append_slash (a b : List Char) : names (a ++ '/' :: b) = names a ++ names b := by
  have hsplit : rawComponents (a ++ '/' :: b) = rawComponents a ++ rawComponents b :=
    Text.splitWhere_append_cons (p := (· == '/')) BEq.rfl a b
  rw [names, hsplit, List.filter_append]
  rfl

theorem names_of_no_slash {s : List Char} (h : '/' ∉ s) :
    names s = if isName s then [s] else [] := by
  rw [names, rawComponents, Text.splitOn_eq_singleton h, List.filter_singleton, cond_eq_ite]

theorem names_of_slashes {s : List Char} (h : s.all (· == '/') = true) : names s = [] := by
  induction s with
  | nil => rfl
  | cons c s ih =>
    rw [List.all_cons, Bool.and_eq_true, beq_iff_eq] at h
    obtain ⟨rfl, hs⟩ := h
    have hslash := names_append_slash [] s
    rw [List.nil_append] at hslash
    rw [hslash, ih hs]
    rfl

theorem names_components (s : List Char) : names s = (components s).filter isName := by
  have hfilter : ((rawComponents s).filter isName).filter isName = (rawComponents s).filter isName := by
    rw [List.filter_filter]
    exact List.filter_congr fun c _ ↦ Bool.and_self _
  have hnames : (rawComponents s).filter (fun c ↦ !c.isEmpty && c != ['.']) = (rawComponents s).filter isName :=
    rfl
  unfold components
  dsimp only
  rw [hnames]
  split
  · rw [List.filter_cons_of_neg (by decide), hfilter]
    rfl
  · rw [hfilter]
    rfl

/-- Paths with one key start from one place and have the same names. -/
theorem of_key_eq {p q : String} (h : key p = key q) :
    isAbsolute p.toList = isAbsolute q.toList ∧ names p.toList = names q.toList := by
  rw [key, key, Key.mk.injEq] at h
  exact ⟨h.1, by rw [names_components, names_components, h.2]⟩

/-- Whatever is no slash and no dot is part of a name. -/
theorem exists_name_of_mem {s : List Char} {c : Char} (hc : c ∈ s) (hslash : c ≠ '/') (hdot : c ≠ '.') :
    ∃ name ∈ names s, c ∈ name := by
  obtain ⟨name, hname, hmem⟩ := Text.mem_splitWhere_of_neg hc (p := (· == '/')) (beq_eq_false_iff_ne.mpr hslash)
  refine ⟨name, List.mem_filter.mpr ⟨hname, ?_⟩, hmem⟩
  cases hleads : isName name with
  | true => rfl
  | false =>
    obtain rfl | rfl := isName_eq_false hleads
    · cases hmem
    · exact absurd (List.mem_singleton.mp hmem) hdot

/-! ## The directory of a path -/

/-- What dropping the end of a path keeps: the origin, the names, and that there is something left. The
last component, if there is a name at all, is a name. -/
structure KeepsNames (s t : List Char) : Prop where
  front : t <+: s
  nonempty : s ≠ [] → t ≠ []
  names_eq : names t = names s
  last : ∀ {a b : List Char}, t = a ++ '/' :: b → '/' ∉ b → names s ≠ [] → isName b = true

theorem KeepsNames.isAbsolute_eq {s t : List Char} (h : KeepsNames s t) : isAbsolute t = isAbsolute s := by
  obtain ⟨u, rfl⟩ := h.front
  cases t with
  | nil =>
    cases u with
    | nil => rfl
    | cons c u => exact absurd rfl (h.nonempty (List.cons_ne_nil c u))
  | cons c t => rfl

/-- A dropped end without names keeps the names. -/
theorem KeepsNames.append {s t u : List Char} (h : KeepsNames s t) (hs : s ≠ []) (hu : names u = []) :
    KeepsNames (s ++ '/' :: u) t := by
  have hnames : names (s ++ '/' :: u) = names s := by rw [names_append_slash, hu, List.append_nil]
  exact ⟨h.front.trans (List.prefix_append _ _), fun _ ↦ h.nonempty hs, h.names_eq.trans hnames.symm,
    fun ht hb hsome ↦ h.last ht hb (hnames ▸ hsome)⟩

theorem keepsNames_root {s : List Char} (hs : names s = []) (hroot : ['/'] <+: s) : KeepsNames s ['/'] :=
  ⟨hroot, fun _ ↦ List.cons_ne_nil _ _, by rw [hs]; rfl, fun _ _ hsome ↦ absurd hs hsome⟩

theorem keepsNames_go (t : List Char) : KeepsNames t.reverse (dropTail.go t) := by
  fun_induction dropTail.go t with
  | case1 r hr =>
    obtain rfl := List.isEmpty_iff.mp hr
    exact keepsNames_root rfl (List.prefix_refl _)
  | case2 r hr ih =>
    rw [List.reverse_cons]
    exact ih.append (by simpa using hr) rfl
  | case3 r hr =>
    obtain rfl := List.isEmpty_iff.mp hr
    exact keepsNames_root rfl ⟨['.'], rfl⟩
  | case4 r hr ih =>
    rw [List.reverse_cons, List.reverse_cons, List.append_assoc]
    exact ih.append (by simpa using hr) rfl
  | case5 t hslash hdot =>
    refine ⟨List.prefix_refl _, id, rfl, fun {a b} ht hb _ ↦ ?_⟩
    -- The path does not end in a slash or in a slash and a dot, so what follows its last slash is a name.
    have hreverse : t = b.reverse ++ '/' :: a.reverse := by
      rw [← List.reverse_reverse t, ht]
      simp
    cases hleads : isName b with
    | true => rfl
    | false =>
      obtain rfl | rfl := isName_eq_false hleads
      · exact (hslash _ hreverse).elim
      · exact (hdot _ hreverse).elim

theorem keepsNames_dropTail (s : List Char) : KeepsNames s (dropTail s) := by
  have hgo := keepsNames_go s.reverse
  rwa [List.reverse_reverse] at hgo

/-- The path of a directory that has all names but the last, from the same origin. It is a front of the path
as it is written, or a dot. -/
structure IsDirectoryOf (parent path : List Char) : Prop where
  origin : isAbsolute parent = isAbsolute path
  names_eq : names parent = (names path).dropLast
  nonempty : parent ≠ []
  written : parent <+: path ∨ parent = ['.']

/-- A path without a slash is a name below the place it starts from. -/
theorem isDirectoryOf_of_no_slash {path d : List Char} (hkeeps : KeepsNames path d) (hsome : names path ≠ [])
    (hslash : '/' ∉ d) : IsDirectoryOf ['.'] path where
  origin := by
    rw [← hkeeps.isAbsolute_eq]
    cases d with
    | nil => rfl
    | cons c d =>
      have hc : c ≠ '/' := fun hc ↦ hslash (hc ▸ List.mem_cons_self)
      simp [isAbsolute, hc]
  names_eq := by
    rw [← hkeeps.names_eq, names_of_no_slash hslash] at hsome ⊢
    split
    · rfl
    · next hname => simp [hname] at hsome
  nonempty := List.cons_ne_nil _ _
  written := .inr rfl

/-- What stands before the last slash has all names but the last. -/
theorem names_before_slash {path f l : List Char} (hkeeps : KeepsNames path (f ++ '/' :: l))
    (hsome : names path ≠ []) (hslash : '/' ∉ l) : names f = (names path).dropLast := by
  have hl : isName l = true := hkeeps.last rfl hslash hsome
  rw [← hkeeps.names_eq, names_append_slash, names_of_no_slash hslash, if_pos hl, List.dropLast_concat]

theorem isDirectoryOf_root {path f l : List Char} (hkeeps : KeepsNames path (f ++ '/' :: l))
    (hsome : names path ≠ []) (hslash : '/' ∉ l) (hf : f.all (· == '/') = true)
    (habsolute : isAbsolute path = true) : IsDirectoryOf ['/'] path where
  origin := habsolute.symm
  names_eq := by
    rw [← names_before_slash hkeeps hsome hslash, names_of_slashes hf]
    rfl
  nonempty := List.cons_ne_nil _ _
  written := by
    cases path with
    | nil => cases habsolute
    | cons c path =>
      rw [isAbsolute, List.head?_cons, beq_iff_eq, Option.some.injEq] at habsolute
      exact .inl ⟨path, by rw [habsolute]; rfl⟩

theorem isDirectoryOf_front {path f l : List Char} (hkeeps : KeepsNames path (f ++ '/' :: l))
    (hsome : names path ≠ []) (hslash : '/' ∉ l) (hf : f ≠ []) : IsDirectoryOf (dropTail f) path where
  origin := by
    rw [(keepsNames_dropTail f).isAbsolute_eq, ← hkeeps.isAbsolute_eq]
    obtain ⟨c, f, rfl⟩ := List.exists_cons_of_ne_nil hf
    rfl
  names_eq := (keepsNames_dropTail f).names_eq.trans (names_before_slash hkeeps hsome hslash)
  nonempty := (keepsNames_dropTail f).nonempty hf
  written := .inl (((keepsNames_dropTail f).front.trans (List.prefix_append _ _)).trans hkeeps.front)

theorem parent?_eq {path : String} (hsome : names path.toList ≠ []) :
    parent? path =
      match Text.cutLast? '/' (dropTail path.toList) with
      | none => some ""
      | some (front, _) =>
        if front.all (· == '/') ∧ isAbsolute path.toList then some "/"
        else some (String.ofList (dropTail front)) := by
  unfold parent?
  split
  · next hnil =>
    rw [names_components, hnil] at hsome
    exact absurd rfl hsome
  · rfl

theorem parentOf_of_empty {path : String} (h : parent? path = some "") : LogSink.parentOf path = "." := by
  rw [LogSink.parentOf, h]
  rfl

theorem parentOf_of_nonempty {path : String} {parent : List Char}
    (h : parent? path = some (String.ofList parent)) (hparent : parent ≠ []) :
    LogSink.parentOf path = String.ofList parent := by
  have hempty : (String.ofList parent).isEmpty = false := by
    rw [← Bool.not_eq_true, String.isEmpty_iff, String.ofList_eq_empty_iff]
    exact hparent
  simp only [LogSink.parentOf, h, hempty, Bool.false_eq_true, if_false]

/-- The directory that has to exist for a sink. -/
theorem isDirectoryOf_parentOf {path : String} (hsome : names path.toList ≠ []) :
    IsDirectoryOf (LogSink.parentOf path).toList path.toList := by
  have hkeeps := keepsNames_dropTail path.toList
  have hparent := parent?_eq hsome
  cases hcut : Text.cutLast? '/' (dropTail path.toList) with
  | none =>
    rw [hcut] at hparent
    rw [parentOf_of_empty hparent]
    exact isDirectoryOf_of_no_slash hkeeps hsome (Text.not_mem_of_cutLast?_eq_none hcut)
  | some cut =>
    obtain ⟨f, l⟩ := cut
    obtain ⟨hdropped, hl⟩ := Text.cutLast?_eq_some hcut
    rw [hdropped] at hkeeps
    simp only [hcut] at hparent
    by_cases hroot : f.all (· == '/') ∧ isAbsolute path.toList
    · rw [if_pos hroot] at hparent
      have hslash : parent? path = some (String.ofList ['/']) := hparent
      rw [parentOf_of_nonempty hslash (List.cons_ne_nil _ _), String.toList_ofList]
      exact isDirectoryOf_root hkeeps hsome hl hroot.1 hroot.2
    · have hf : f ≠ [] := by
        rintro rfl
        exact hroot ⟨rfl, hkeeps.isAbsolute_eq.symm⟩
      rw [if_neg hroot] at hparent
      have hdirectory := isDirectoryOf_front hkeeps hsome hl hf
      rw [parentOf_of_nonempty hparent hdirectory.nonempty, String.toList_ofList]
      exact hdirectory

/-! ## Paths that lead down -/

/-- A name that leads to something directly below the place where it is met. -/
structure IsChild (name : List Char) : Prop where
  ne_nil : name ≠ []
  ne_dot : name ≠ ['.']
  ne_dots : name ≠ ['.', '.']
  no_slash : '/' ∉ name

theorem IsChild.isName_eq {name : List Char} (h : IsChild name) : isName name = true := by
  simp [isName, h.ne_nil, h.ne_dot]

/-- Children that are joined are the names of the path they make. -/
theorem names_join_children {children : List (List Char)} (h : ∀ c ∈ children, IsChild c) :
    names (Text.join ['/'] children) = children := by
  cases children with
  | nil => rfl
  | cons c rest =>
    have hsplit : rawComponents (Text.join ['/'] (c :: rest)) = c :: rest :=
      Text.splitOn_join (List.cons_ne_nil c rest) fun d hd ↦ (h d hd).no_slash
    rw [names, hsplit, List.filter_eq_self]
    exact fun d hd ↦ (h d hd).isName_eq

theorem names_join (base name : String) :
    names (join base name).toList = names base.toList ++ names name.toList := by
  unfold join
  split
  · next hends =>
    rw [String.toList_append]
    rcases hends with hempty | hslash
    · rw [String.isEmpty_iff.mp hempty]
      rfl
    · obtain ⟨front, hbase⟩ := Text.endsWith_iff.mp hslash
      rw [hbase, String.toList_append, show "/".toList = '/' :: [] from rfl, List.append_assoc, List.cons_append,
        List.nil_append, names_append_slash, names_append_slash]
      rw [show names [] = [] from rfl, List.append_nil]
  · have htext : (base ++ "/" ++ name).toList = base.toList ++ '/' :: name.toList := by
      simp [String.toList_append]
    rw [htext, names_append_slash]

/-- What is joined to a path does not move its origin. -/
theorem isAbsolute_join {base name : String} (h : isAbsolute name.toList = false) :
    isAbsolute (join base name).toList = isAbsolute base.toList := by
  unfold join
  cases hbase : base.toList with
  | nil =>
    have hempty : base = "" := String.toList_inj.mp (hbase.trans rfl)
    subst hempty
    exact (by simpa using h : isAbsolute _ = false)
  | cons c rest => split <;> simp [hbase, isAbsolute]

end RuleGate.FilePath
