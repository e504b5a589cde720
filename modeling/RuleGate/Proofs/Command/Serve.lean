import RuleGate.Proofs.Command.Frame
import RuleGate.Proofs.Files.Growth
import RuleGate.Proofs.Sample
import RuleGate.Proofs.UrlPath

/-!
# Static files stay below their directory

Whatever path a request asks for, the path that is looked up is the root with children behind it, so it leads to
no place that is not below that of the root. All that is served, and all that fails, depends on the world through
two paths, this one and that of the index page in it. There are no links in the file system here, so nothing is
said of them.
-/

namespace RuleGate

/-- What is kept of a rooted path is a path of children. -/
theorem UrlPath.IsKept.isChild {segment : List Char} (h : IsKept true segment) : FilePath.IsChild segment :=
  ⟨h.ne_nil, h.ne_dot, h.ne_dots rfl, h.no_slash⟩

/-- The scene with other files. -/
def Scene.withFiles (s : Scene) (files : FileSystem) : Scene :=
  s.withWorld fun w ↦ { w with disk := { w.disk with files := files } }

namespace ServeCommand

/-- The names that a request path leads through below the root. -/
def names (path : String) : List (List Char) :=
  UrlPath.resolve true (UrlPath.segments ('/' :: path.toList))

theorem isChild_names (path : String) : ∀ name ∈ names path, FilePath.IsChild name :=
  fun name hname ↦ (UrlPath.isKept_resolve true _ name hname).isChild

theorem relative_eq (path : String) : relative path = String.ofList (Text.join ['/'] (names path)) := by
  have hfree : UrlPath.isRooted (Text.join ['/'] (names path)) = false :=
    UrlPath.isRooted_join (UrlPath.isKept_resolve true _)
  rw [relative, UrlPath.cleanChars_slash, List.dropWhile_cons_of_pos (p := (· == '/')) rfl]
  -- The names come without a slash in front, so no more than the one of the root is dropped.
  refine congrArg String.ofList (?_ : List.dropWhile _ (Text.join ['/'] (names path)) = _)
  cases hjoin : Text.join ['/'] (names path) with
  | nil => rfl
  | cons c rest =>
    rw [hjoin] at hfree
    exact List.dropWhile_cons_of_neg (by simpa [UrlPath.isRooted] using hfree)

theorem isAbsolute_relative (path : String) : FilePath.isAbsolute (relative path).toList = false := by
  rw [relative_eq, String.toList_ofList]
  exact UrlPath.isRooted_join (UrlPath.isKept_resolve true _)

/-- The names of the root, and then those below it. -/
theorem names_resolve (c : ServeCommand) (path : String) :
    FilePath.names (c.resolve path).toList = FilePath.names c.root.toList ++ names path := by
  rw [resolve, FilePath.names_join, relative_eq, String.toList_ofList,
    FilePath.names_join_children (isChild_names path)]

theorem isAbsolute_resolve (c : ServeCommand) (path : String) :
    FilePath.isAbsolute (c.resolve path).toList = FilePath.isAbsolute c.root.toList :=
  FilePath.isAbsolute_join (isAbsolute_relative path)

/-! ## What is looked up -/

/-- The paths that are looked up for a path: the path, and the index page in it. -/
def lookups (path : String) : List String := [path, FilePath.join path indexName]

/-- Both paths that are looked up are the root with children behind it. -/
theorem exists_children_of_lookup {c : ServeCommand} {path lookup : String}
    (h : lookup ∈ lookups (c.resolve path)) :
    ∃ children, (∀ name ∈ children, FilePath.IsChild name) ∧
      FilePath.names lookup.toList = FilePath.names c.root.toList ++ children ∧
      FilePath.isAbsolute lookup.toList = FilePath.isAbsolute c.root.toList := by
  have hindex : FilePath.IsChild indexName.toList := ⟨by decide, by decide, by decide, by decide⟩
  rw [lookups, List.mem_cons, List.mem_singleton] at h
  rcases h with rfl | rfl
  · exact ⟨names path, isChild_names path, names_resolve c path, isAbsolute_resolve c path⟩
  · refine ⟨names path ++ [indexName.toList], ?_, ?_, ?_⟩
    · exact List.forall_mem_append.mpr ⟨isChild_names path, List.forall_mem_singleton.mpr hindex⟩
    · rw [FilePath.names_join, names_resolve, List.append_assoc, FilePath.names_of_no_slash hindex.no_slash,
        if_pos hindex.isName_eq]
    · rw [FilePath.isAbsolute_join (by decide), isAbsolute_resolve]

/-- The same is there in both worlds, and reading it ends the same. -/
def SameThere (w v : World) (lookup : String) : Prop :=
  v.stat lookup = w.stat lookup ∧ v.read lookup = w.read lookup

/-- Worlds with the same at the two lookups find the same. -/
theorem find_congr {w v : World} {path : String} (h : ∀ lookup ∈ lookups path, SameThere w v lookup) :
    find v path = find w path := by
  have hpath : v.stat path = w.stat path := (h path (.head _)).1
  have hindex : v.stat (FilePath.join path indexName) = w.stat (FilePath.join path indexName) :=
    (h _ (.tail _ (.head _))).1
  simp only [find, hpath, hindex]

/-- A file that is found is at one of the two lookups. -/
theorem mem_lookups_of_find {w : World} {path file : String} {modified : Int}
    (h : find w path = .ok (.file file modified)) : file ∈ lookups path := by
  have hnothing (e : FileError) : foundNothing e ≠ .ok (.file file modified) := by cases e <;> nofun
  simp only [find] at h
  split at h
  · exact absurd h (hnothing _)
  · cases h
    exact .head _
  · split at h
    · exact absurd h (hnothing _)
    · cases h
      exact .tail _ (.head _)
    · cases h

theorem run_congr {c : ServeCommand} {s : Scene} {v : World}
    (h : ∀ lookup ∈ lookups (c.resolve s.exchange.path), SameThere s.world v lookup) :
    c.run ⟨s.exchange, v⟩ = ((c.run s).1, ⟨(c.run s).2.exchange, v⟩) := by
  unfold run
  dsimp only
  rw [find_congr h]
  cases hfind : find s.world (c.resolve s.exchange.path) with
  | error e => rfl
  | ok found =>
    cases found with
    | page status => rfl
    | file path modified =>
      have hread : v.read path = s.world.read path := (h path (mem_lookups_of_find hfind)).2
      simp only [answer, hread]
      cases s.world.read path <;> rfl

theorem sameThere_of_stat {w : World} {files : FileSystem} {lookup : String}
    (h : files.stat lookup = w.disk.files.stat lookup) :
    SameThere w { w with disk := { w.disk with files := files } } lookup := by
  have hread : files.read lookup = w.disk.files.read lookup := by rw [FileSystem.read, h, FileSystem.read]
  constructor
  · simp only [World.stat, h]
  · simp only [World.read, hread]

theorem run_withFiles {c : ServeCommand} {s : Scene} {files : FileSystem}
    (h : ∀ lookup ∈ lookups (c.resolve s.exchange.path), files.stat lookup = s.world.disk.files.stat lookup) :
    c.run (s.withFiles files) = ((c.run s).1, (c.run s).2.withFiles files) := by
  have hworld : (c.run s).2.world = s.world := run_world c s
  rw [Scene.withFiles, Scene.withWorld, run_congr fun lookup hmem ↦ sameThere_of_stat (h lookup hmem)]
  rw [Scene.withFiles, Scene.withWorld, hworld]

/-- For every root and every request path, as it reads once it is decoded: the path that is looked up is the root
with children behind it, the command depends on the files through this path and the index page in it alone, and
neither of these leads to a place that is not below the one that the root leads to. What fails of the world bears
on the command at the same two paths alone. -/
theorem served_below_root (c : ServeCommand) (s : Scene) :
    let path := c.resolve s.exchange.path
    (∃ children : List (List Char),
      (∀ name ∈ children, name ≠ [] ∧ name ≠ ['.'] ∧ name ≠ ['.', '.'] ∧ '/' ∉ name) ∧
        path = FilePath.join c.root (String.ofList (Text.join ['/'] children))) ∧
      (∀ files : FileSystem,
        (∀ lookup ∈ [path, FilePath.join path "index.html"], files.stat lookup = s.world.disk.files.stat lookup) →
          c.run (s.withFiles files) = ((c.run s).1, (c.run s).2.withFiles files)) ∧
      (∀ world : World,
        (∀ lookup ∈ [path, FilePath.join path "index.html"],
          world.stat lookup = s.world.stat lookup ∧ world.read lookup = s.world.read lookup) →
          c.run ⟨s.exchange, world⟩ = ((c.run s).1, ⟨(c.run s).2.exchange, world⟩)) ∧
      ∀ lookup ∈ [path, FilePath.join path "index.html"], ∀ place,
        s.world.disk.files.locate lookup = .ok place →
          ∃ root, s.world.disk.files.follow c.root = .ok root ∧ root <+: place := by
  intro path
  refine ⟨⟨names s.exchange.path, fun name hname ↦ ?_, ?_⟩, fun files hsame ↦ ?_, fun world hsame ↦ ?_,
    fun lookup hlookup place hplace ↦ ?_⟩
  · have hchild := isChild_names s.exchange.path name hname
    exact ⟨hchild.ne_nil, hchild.ne_dot, hchild.ne_dots, hchild.no_slash⟩
  · exact congrArg (FilePath.join c.root) (relative_eq s.exchange.path)
  · exact run_withFiles hsame
  · exact run_congr hsame
  · obtain ⟨children, hchildren, hnames, horigin⟩ := exists_children_of_lookup hlookup
    obtain ⟨root, hroot, rfl⟩ := FileSystem.place_below horigin hnames hchildren hplace
    exact ⟨root, hroot, List.prefix_append _ _⟩

/-- Slashes that were escaped part the names of a path like all others, and dots do not lead out of the root. -/
example : (⟨"/srv/www"⟩ : ServeCommand).resolve (Request.plain "/..%2F%2e%2e/etc//x").decodedPath =
    "/srv/www/etc/x" := by decide +kernel

end ServeCommand

end RuleGate
