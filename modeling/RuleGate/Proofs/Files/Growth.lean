import RuleGate.Proofs.Except
import RuleGate.Proofs.Files.Path

/-!
# Walks, and file systems that grow

A walk follows the names of a path from directory to directory. Opening a sink may add an empty file where
nothing was. In the larger file system every walk leads where it did before, the directories are the same, and
whatever was found is still there.
-/

namespace RuleGate.FileSystem

variable {fs fs' fs'' : FileSystem}

/-! ## Walks -/

/-- The place that components lead to, one after the other. -/
def walk (fs : FileSystem) (origin : Place) (components : List (List Char)) : Except FileError Place :=
  components.foldlM fs.enter origin

theorem walk_cons (fs : FileSystem) (origin : Place) (c : List Char) (cs : List (List Char)) :
    fs.walk origin (c :: cs) = fs.enter origin c >>= fun p ↦ fs.walk p cs := List.foldlM_cons ..

theorem walk_append (fs : FileSystem) (origin : Place) (cs ds : List (List Char)) :
    fs.walk origin (cs ++ ds) = fs.walk origin cs >>= fun p ↦ fs.walk p ds := List.foldlM_append ..

/-- Only a directory is entered. -/
theorem directory_of_enter {p q : Place} {c : List Char} (h : fs.enter p c = .ok q) :
    fs.nodeAt? p = some .directory := by
  unfold enter at h
  split at h
  · cases h
  · cases h
  · next hnode => exact hnode

/-- A component that is no name stays where it is. -/
theorem enter_of_not_name {c : List Char} (hc : FilePath.isName c = false) {p q : Place} :
    fs.enter p c = .ok q ↔ q = p ∧ fs.nodeAt? p = some .directory := by
  have hstay : c = [] ∨ c = ['.'] := FilePath.isName_eq_false hc
  constructor
  · intro h
    have hnode := directory_of_enter h
    rw [enter, hnode] at h
    dsimp only at h
    rw [if_pos hstay] at h
    exact ⟨(Except.ok.inj h).symm, hnode⟩
  · rintro ⟨rfl, hnode⟩
    rw [enter, hnode]
    exact if_pos hstay

/-- A walk begins in a directory, if it leads to one. -/
theorem directory_of_walk {p q : Place} {cs : List (List Char)} (h : fs.walk p cs = .ok q)
    (hq : fs.nodeAt? q = some .directory) : fs.nodeAt? p = some .directory := by
  cases cs with
  | nil => rwa [Except.ok.inj h]
  | cons c cs =>
    rw [walk_cons] at h
    obtain ⟨p', henter, -⟩ := bind_eq_ok.mp h
    exact directory_of_enter henter

/-- A walk leads where its names alone lead. -/
theorem walk_names {p q : Place} {cs : List (List Char)} (h : fs.walk p cs = .ok q) :
    fs.walk p (cs.filter FilePath.isName) = .ok q := by
  induction cs generalizing p with
  | nil => exact h
  | cons c cs ih =>
    rw [walk_cons] at h
    obtain ⟨p', henter, hrest⟩ := bind_eq_ok.mp h
    cases hc : FilePath.isName c with
    | true =>
      rw [List.filter_cons_of_pos hc, walk_cons, henter]
      exact ih hrest
    | false =>
      obtain ⟨rfl, -⟩ := (enter_of_not_name hc).mp henter
      rw [List.filter_cons_of_neg (Bool.eq_false_iff.mp hc)]
      exact ih hrest

/-- Names that lead to a directory lead there with other components between them. -/
theorem walk_of_names {p q : Place} {cs : List (List Char)}
    (h : fs.walk p (cs.filter FilePath.isName) = .ok q) (hq : fs.nodeAt? q = some .directory) :
    fs.walk p cs = .ok q := by
  induction cs generalizing p with
  | nil => exact h
  | cons c cs ih =>
    cases hc : FilePath.isName c with
    | true =>
      rw [List.filter_cons_of_pos hc, walk_cons] at h
      obtain ⟨p', henter, hrest⟩ := bind_eq_ok.mp h
      rw [walk_cons, henter]
      exact ih hrest
    | false =>
      rw [List.filter_cons_of_neg (Bool.eq_false_iff.mp hc)] at h
      rw [walk_cons, (enter_of_not_name hc).mpr ⟨rfl, directory_of_walk h hq⟩]
      exact ih h

/-- A child is entered directly below. -/
theorem enter_child {p q : Place} {c : List Char} (hc : FilePath.IsChild c) (h : fs.enter p c = .ok q) :
    q = p ++ [c] := by
  rw [enter, directory_of_enter h] at h
  dsimp only at h
  rw [if_neg (not_or.mpr ⟨hc.ne_nil, hc.ne_dot⟩), if_neg hc.ne_dots] at h
  split at h
  · cases h
  · exact (Except.ok.inj h).symm

/-- A walk along children never turns back. -/
theorem walk_children {p q : Place} {cs : List (List Char)} (hcs : ∀ c ∈ cs, FilePath.IsChild c)
    (h : fs.walk p cs = .ok q) : q = p ++ cs := by
  induction cs generalizing p with
  | nil => rw [← Except.ok.inj h, List.append_nil]
  | cons c cs ih =>
    rw [List.forall_mem_cons] at hcs
    rw [walk_cons] at h
    obtain ⟨p', henter, hrest⟩ := bind_eq_ok.mp h
    rw [ih hcs.2 hrest, enter_child hcs.1 henter, List.append_assoc, List.singleton_append]

/-! ## Paths -/

/-- The place that a path starts from. -/
def origin (fs : FileSystem) (path : String) : Place :=
  if FilePath.isAbsolute path.toList then [] else fs.current

/-- Where the names of a path lead, whatever its text. -/
def follow (fs : FileSystem) (path : String) : Except FileError Place :=
  fs.walk (fs.origin path) (FilePath.names path.toList)

/-- The components that are walked from the origin. -/
def walked (path : String) : List (List Char) :=
  FilePath.rawComponents (if FilePath.isAbsolute path.toList then path.toList.drop 1 else path.toList)

theorem walked_ne_nil (path : String) : walked path ≠ [] := Text.splitWhere_ne_nil _ _

theorem filter_walked (path : String) : (walked path).filter FilePath.isName = FilePath.names path.toList := by
  unfold walked
  split
  · next habsolute =>
    cases hpath : path.toList with
    | nil =>
      rw [hpath] at habsolute
      cases habsolute
    | cons c s =>
      rw [hpath, FilePath.isAbsolute, List.head?_cons, beq_iff_eq, Option.some.injEq] at habsolute
      have hnames := FilePath.names_append_slash [] s
      rw [habsolute]
      exact hnames.symm
  · rfl

theorem locate_eq (fs : FileSystem) (path : String) :
    fs.locate path =
      match textError? path.toList with
      | some e => .error e
      | none => fs.walk (fs.origin path) (walked path) := by
  unfold locate origin walked walk
  dsimp only
  cases FilePath.isAbsolute path.toList <;> rfl

theorem locate_eq_ok {path : String} {p : Place} :
    fs.locate path = .ok p ↔
      textError? path.toList = none ∧ fs.walk (fs.origin path) (walked path) = .ok p := by
  rw [locate_eq]
  split
  · next e herror => simp [herror]
  · next hnone => simp [hnone]

theorem follow_of_locate {path : String} {p : Place} (h : fs.locate path = .ok p) :
    fs.follow path = .ok p := by
  rw [follow, ← filter_walked]
  exact walk_names (locate_eq_ok.mp h).2

theorem locate_of_follow {path : String} {p : Place} (htext : textError? path.toList = none)
    (h : fs.follow path = .ok p) (hp : fs.nodeAt? p = some .directory) : fs.locate path = .ok p := by
  rw [follow, ← filter_walked] at h
  exact locate_eq_ok.mpr ⟨htext, walk_of_names h hp⟩

/-- A path of children below another path leads to a place below the one that this path leads to. -/
theorem place_below {base path : String} {children : List (List Char)}
    (horigin : FilePath.isAbsolute path.toList = FilePath.isAbsolute base.toList)
    (hnames : FilePath.names path.toList = FilePath.names base.toList ++ children)
    (hchildren : ∀ c ∈ children, FilePath.IsChild c) {p : Place} (h : fs.locate path = .ok p) :
    ∃ q, fs.follow base = .ok q ∧ p = q ++ children := by
  have hfollow := follow_of_locate h
  rw [follow, hnames, origin, horigin, walk_append] at hfollow
  obtain ⟨q, hbase, hrest⟩ := bind_eq_ok.mp hfollow
  exact ⟨q, hbase, walk_children hchildren hrest⟩

theorem stat_eq_ok {path : String} {n : FileNode} :
    fs.stat path = .ok n ↔ ∃ p, fs.locate path = .ok p ∧ fs.nodeAt? p = some n := by
  unfold stat
  rw [bind_eq_ok]
  refine exists_congr fun p ↦ and_congr_right fun _ ↦ ?_
  split <;> simp_all

theorem isDirectory_iff {path : String} :
    fs.isDirectory path = true ↔ fs.stat path = .ok .directory := by
  unfold isDirectory
  split <;> simp_all

/-! ## Growth -/

/-- What was there is there still, and what is new is a file. -/
structure Grows (fs fs' : FileSystem) : Prop where
  current : fs'.current = fs.current
  node : ∀ p, fs'.nodeAt? p = fs.nodeAt? p ∨
    fs.nodeAt? p = none ∧ ∃ content modified, fs'.nodeAt? p = some (.file content modified)

theorem Grows.refl (fs : FileSystem) : fs.Grows fs := ⟨rfl, fun _ ↦ .inl rfl⟩

theorem Grows.trans (h : fs.Grows fs') (h' : fs'.Grows fs'') : fs.Grows fs'' where
  current := h'.current.trans h.current
  node p := by
    obtain hsame | ⟨hnone, hnew⟩ := h.node p
    · rw [← hsame]
      exact h'.node p
    · obtain hsame' | ⟨hnone', -⟩ := h'.node p
      · rw [hsame']
        exact .inr ⟨hnone, hnew⟩
      · obtain ⟨content, modified, hfile⟩ := hnew
        rw [hfile] at hnone'
        cases hnone'

theorem Grows.nodeAt?_of_some (h : fs.Grows fs') {p : Place} {n : FileNode} (hn : fs.nodeAt? p = some n) :
    fs'.nodeAt? p = some n := by
  obtain hsame | ⟨hnone, -⟩ := h.node p
  · rw [hsame, hn]
  · rw [hn] at hnone
    cases hnone

/-- The directories are the same. -/
theorem Grows.directory_iff (h : fs.Grows fs') (p : Place) :
    fs'.nodeAt? p = some .directory ↔ fs.nodeAt? p = some .directory := by
  refine ⟨fun hp ↦ ?_, h.nodeAt?_of_some⟩
  obtain hsame | ⟨-, content, modified, hfile⟩ := h.node p
  · rwa [← hsame]
  · rw [hfile] at hp
    cases hp

theorem enter_congr {p : Place} (h : fs.nodeAt? p = fs'.nodeAt? p) (c : List Char) :
    fs.enter p c = fs'.enter p c := by rw [enter, enter, h]

theorem Grows.enter_eq_ok (h : fs.Grows fs') {p q : Place} {c : List Char} :
    fs'.enter p c = .ok q ↔ fs.enter p c = .ok q := by
  constructor
  · intro henter
    have hp := directory_of_enter henter
    rwa [enter_congr ((h.directory_iff p).mp hp |>.trans hp.symm)]
  · intro henter
    have hp := directory_of_enter henter
    rwa [enter_congr ((h.directory_iff p).mpr hp |>.trans hp.symm)]

theorem Grows.walk_eq_ok (h : fs.Grows fs') {p q : Place} {cs : List (List Char)} :
    fs'.walk p cs = .ok q ↔ fs.walk p cs = .ok q := by
  induction cs generalizing p with
  | nil => rfl
  | cons c cs ih =>
    rw [walk_cons, walk_cons, bind_eq_ok, bind_eq_ok]
    exact exists_congr fun p' ↦ and_congr h.enter_eq_ok ih

theorem Grows.origin_eq (h : fs.Grows fs') (path : String) : fs'.origin path = fs.origin path := by
  rw [origin, origin, h.current]

theorem Grows.locate_eq_ok (h : fs.Grows fs') {path : String} {p : Place} :
    fs'.locate path = .ok p ↔ fs.locate path = .ok p := by
  rw [FileSystem.locate_eq_ok, FileSystem.locate_eq_ok, h.origin_eq, h.walk_eq_ok]

theorem Grows.stat_eq_ok (h : fs.Grows fs') {path : String} {n : FileNode} (hn : fs.stat path = .ok n) :
    fs'.stat path = .ok n := by
  obtain ⟨p, hlocate, hp⟩ := FileSystem.stat_eq_ok.mp hn
  exact FileSystem.stat_eq_ok.mpr ⟨p, h.locate_eq_ok.mpr hlocate, h.nodeAt?_of_some hp⟩

@[simp] theorem current_put (fs : FileSystem) (p : Place) (n : FileNode) : (fs.put p n).current = fs.current := by
  unfold put
  split <;> rfl

theorem nodeAt?_put_of_none {p : Place} (hp : fs.nodeAt? p = none) (n : FileNode) (q : Place) :
    (fs.put p n).nodeAt? q = if q = p then some n else fs.nodeAt? q := by
  have hsome : p.isEmpty = false := by
    unfold nodeAt? at hp
    split at hp
    · cases hp
    · next hsome => exact Bool.eq_false_iff.mpr hsome
  have hlookup : fs.nodes.lookup p = none := by rwa [nodeAt?, hsome, if_neg Bool.false_ne_true] at hp
  rw [put, hlookup, if_neg (by simp)]
  by_cases hq : q = p
  · subst hq
    simp [nodeAt?, hsome, hlookup, List.lookup_append]
  · have hne : (q == p) = false := beq_eq_false_iff_ne.mpr hq
    rw [if_neg hq, nodeAt?, nodeAt?, List.lookup_append]
    simp [List.lookup_cons, hne]

/-- A path that is opened for appending leads to a file, or to where nothing was and a file is now. -/
theorem of_openAppend {path : String} {p : Place} (h : fs.openAppend path = .ok (p, fs')) :
    fs.locate path = .ok p ∧
      ((∃ content modified, fs.nodeAt? p = some (.file content modified)) ∧ fs' = fs ∨
        fs.nodeAt? p = none ∧ fs' = fs.put p (.file [] 0)) := by
  unfold openAppend at h
  dsimp only at h
  split at h
  · -- A path that ends in a slash is always refused, whatever its front names.
    split at h
    · cases h
    · split at h
      · obtain ⟨_, -, hrefused⟩ := bind_eq_ok.mp h
        cases hrefused
      · cases h
  · obtain ⟨place, hlocate, hopened⟩ := bind_eq_ok.mp h
    split at hopened
    · cases hopened
    · next content modified hfile =>
      cases hopened
      exact ⟨hlocate, .inl ⟨⟨content, modified, hfile⟩, rfl⟩⟩
    · next hnone =>
      cases hopened
      exact ⟨hlocate, .inr ⟨hnone, rfl⟩⟩

/-- Opening a file for appending adds nothing but that file. -/
theorem grows_of_openAppend {path : String} {p : Place} (h : fs.openAppend path = .ok (p, fs')) :
    fs.Grows fs' := by
  obtain ⟨-, ⟨-, rfl⟩ | ⟨hnone, rfl⟩⟩ := of_openAppend h
  · exact .refl _
  · refine ⟨current_put _ _ _, fun q ↦ ?_⟩
    rw [nodeAt?_put_of_none hnone]
    split
    · next hq => exact .inr ⟨by rw [hq, hnone], [], 0, rfl⟩
    · exact .inl rfl

end RuleGate.FileSystem
