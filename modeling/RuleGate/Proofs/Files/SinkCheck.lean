import RuleGate.Command.Report
import RuleGate.Proofs.Files.Sink

/-!
# What the check of a sink leaves out

The check of a sink looks at the kind of the path and of its directory, and not at the path itself. So it passes all
that can be opened, and besides that the paths that no file can have: the empty one, those that are too long or hold a
NUL byte, and those without a name behind the last slash or with one that is too long. The check changes nothing, and
opening adds at most one empty file where the path leads.
-/

namespace RuleGate

/-- A path that a file can have. -/
structure FilePath.NamesFile (path : String) : Prop where
  no_nul : '\x00' ∉ path.toList
  length_le : (Text.utf8Encode path.toList).length ≤ FileSystem.maxPath
  last : ∃ front name, rawComponents path.toList = front ++ [name] ∧ isName name = true ∧
    (Text.utf8Encode name).length ≤ FileSystem.maxName

namespace FileSystem

variable {fs fs' : FileSystem} {path : String}

/-- The second file system is the first with an empty file at a place. -/
structure Creates (fs fs' : FileSystem) (place : Place) : Prop where
  current : fs'.current = fs.current
  node : ∀ q, fs'.nodeAt? q = if q = place then some (.file [] 0) else fs.nodeAt? q

theorem creates_put {place : Place} (h : fs.nodeAt? place = none) : fs.Creates (fs.put place (.file [] 0)) place :=
  ⟨current_put _ _ _, nodeAt?_put_of_none h _⟩

/-! ## The last component -/

/-- The slash in front of an absolute path is no component of the walk. -/
theorem exists_rawComponents_eq (path : String) :
    ∃ front, FilePath.rawComponents path.toList = front ++ walked path := by
  unfold walked
  split
  · next habsolute =>
    obtain ⟨rest, hrest⟩ := List.head?_eq_some_iff.mp (beq_iff_eq.mp habsolute)
    refine ⟨[[]], ?_⟩
    rw [hrest]
    exact Text.splitOn_append_cons '/' [] rest
  · exact ⟨[], rfl⟩

theorem enter_name {p : Place} {name : List Char} (hp : fs.nodeAt? p = some .directory)
    (hname : FilePath.isName name = true) : fs.enter p name =
      if name = ['.', '.'] then .ok p.dropLast
      else if maxName < (Text.utf8Encode name).length then .error .nameTooLong
      else .ok (p ++ [name]) := by
  rw [enter, hp]
  refine if_neg ?_
  rintro (rfl | rfl)
  · cases hname
  · exact absurd hname (by decide)

/-- From a directory, every name that is short enough leads on. -/
theorem exists_enter {p : Place} {name : List Char} (hp : fs.nodeAt? p = some .directory)
    (hname : FilePath.isName name = true) (hlength : (Text.utf8Encode name).length ≤ maxName) :
    ∃ q, fs.enter p name = .ok q := by
  rw [enter_name hp hname]
  split
  · exact ⟨_, rfl⟩
  · rw [if_neg (Nat.not_lt.mpr hlength)]
    exact ⟨_, rfl⟩

/-- What leads to no directory is a name, and short enough. -/
theorem name_of_enter {p q : Place} {component : List Char} (h : fs.enter p component = .ok q)
    (hq : fs.nodeAt? q ≠ some .directory) :
    FilePath.isName component = true ∧ (Text.utf8Encode component).length ≤ maxName := by
  have hp := directory_of_enter h
  have hname : FilePath.isName component = true := by
    cases hc : FilePath.isName component with
    | true => rfl
    | false =>
      obtain ⟨rfl, -⟩ := (enter_of_not_name hc).mp h
      exact absurd hp hq
  refine ⟨hname, ?_⟩
  by_cases hdots : component = ['.', '.']
  · rw [hdots]
    decide
  · by_contra hlong
    rw [enter_name hp hname, if_neg hdots, if_pos (Nat.not_le.mp hlong)] at h
    cases h

theorem exists_walked_eq (path : String) : ∃ before way last,
    walked path = way ++ [last] ∧ FilePath.rawComponents path.toList = before ++ way ++ [last] := by
  obtain ⟨way, last, hwalked⟩ := (List.eq_nil_or_concat' (walked path)).resolve_left (walked_ne_nil path)
  obtain ⟨before, hraw⟩ := exists_rawComponents_eq path
  exact ⟨before, way, last, hwalked, by rw [hraw, hwalked, List.append_assoc]⟩

/-- A walk of all components but the last leads to a directory, from which the last one leads on. -/
theorem exists_of_locate {q : Place} (h : fs.locate path = .ok q) :
    ∃ front last p, FilePath.rawComponents path.toList = front ++ [last] ∧ fs.enter p last = .ok q := by
  obtain ⟨before, way, last, hwalked, hraw⟩ := exists_walked_eq path
  have hwalk := (locate_eq_ok.mp h).2
  rw [hwalked, walk_append] at hwalk
  obtain ⟨p, -, hlast⟩ := bind_eq_ok.mp hwalk
  obtain ⟨q', henter, hq'⟩ := bind_eq_ok.mp ((walk_cons fs p last []).symm.trans hlast)
  cases hq'
  exact ⟨before ++ way, last, p, hraw, henter⟩

/-- A name behind the last slash is found from the directory of the path. -/
theorem exists_locate {name : List Char} {front : List (List Char)}
    (hparent : fs.isDirectory (LogSink.parentOf path) = true) (htext : textError? path.toList = none)
    (hraw : FilePath.rawComponents path.toList = front ++ [name]) (hname : FilePath.isName name = true)
    (hlength : (Text.utf8Encode name).length ≤ maxName) : ∃ q, fs.locate path = .ok q := by
  obtain ⟨before, way, last, hwalked, hlast⟩ := exists_walked_eq path
  obtain rfl : name = last := (List.append_singleton_inj.mp (hraw.symm.trans hlast)).2
  have hnames : FilePath.names path.toList = way.filter FilePath.isName ++ [name] := by
    rw [← filter_walked, hwalked, List.filter_append, List.filter_singleton, hname, cond_true]
  have hdirectory : FilePath.IsDirectoryOf (LogSink.parentOf path).toList path.toList :=
    FilePath.isDirectoryOf_parentOf (by rw [hnames]; simp)
  obtain ⟨p, hlocate, hp⟩ := stat_eq_ok.mp (isDirectory_iff.mp hparent)
  have hway : fs.walk (fs.origin path) (way.filter FilePath.isName) = .ok p := by
    have hfollow := follow_of_locate hlocate
    rwa [follow, hdirectory.names_eq, hnames, List.dropLast_concat, origin, hdirectory.origin] at hfollow
  obtain ⟨q, henter⟩ := exists_enter hp hname hlength
  refine ⟨q, locate_eq_ok.mpr ⟨htext, ?_⟩⟩
  rw [hwalked, walk_append, walk_of_names hway hp]
  exact (walk_cons fs p name []).trans (by rw [henter]; rfl)

/-! ## Opening -/

theorem getLast?_ne_slash {name : List Char} {front : List (List Char)} {s : List Char}
    (hraw : FilePath.rawComponents s = front ++ [name]) (hname : name ≠ []) : s.getLast? ≠ some '/' := by
  intro hslash
  obtain ⟨t, rfl⟩ := List.getLast?_eq_some_iff.mp hslash
  have hsplit : FilePath.rawComponents (t ++ ['/']) = FilePath.rawComponents t ++ [[]] :=
    Text.splitOn_append_cons '/' t []
  rw [hsplit] at hraw
  exact hname (List.append_singleton_inj.mp hraw).2.symm

/-- Without a slash at its end, a path that leads to no directory is opened. -/
theorem exists_openAppend {q : Place} (hslash : path.toList.getLast? ≠ some '/') (hlocate : fs.locate path = .ok q)
    (hq : fs.nodeAt? q ≠ some .directory) : ∃ opened, fs.openAppend path = .ok opened := by
  unfold openAppend
  dsimp only
  rw [if_neg hslash, hlocate]
  cases hnode : fs.nodeAt? q with
  | none => exact ⟨_, bind_eq_ok.mpr ⟨q, rfl, by rw [hnode]; rfl⟩⟩
  | some node =>
    cases node with
    | directory => exact absurd hnode hq
    | file content modified => exact ⟨_, bind_eq_ok.mpr ⟨q, rfl, by rw [hnode]; rfl⟩⟩

theorem namesFile_of_openAppend {opened : Place × FileSystem} (h : fs.openAppend path = .ok opened) :
    FilePath.NamesFile path := by
  obtain ⟨hlocate, hopened⟩ := of_openAppend h
  have hfile : fs.nodeAt? opened.1 ≠ some .directory := by
    obtain ⟨⟨content, modified, hfile⟩, -⟩ | ⟨hnone, -⟩ := hopened
    · simp [hfile]
    · simp [hnone]
  obtain ⟨hnul, -, hlength⟩ := textError?_eq_none_iff.mp (locate_eq_ok.mp hlocate).1
  obtain ⟨front, last, p, hraw, henter⟩ := exists_of_locate hlocate
  exact ⟨hnul, hlength, front, last, hraw, name_of_enter henter hfile⟩

/-- What is opened is what passes both tests of the check and is the path of a file. -/
theorem exists_openAppend_iff :
    (∃ opened, fs.openAppend path = .ok opened) ↔
      (fs.isDirectory path = false ∧ fs.isDirectory (LogSink.parentOf path) = true) ∧ FilePath.NamesFile path := by
  constructor
  · rintro ⟨opened, hopened⟩
    have hleads := leadsToFile_of_openAppend hopened
    have hfile := namesFile_of_openAppend hopened
    exact ⟨⟨hleads.isDirectory_eq_false, hleads.isDirectory_parentOf hfile.length_le⟩, hfile⟩
  · rintro ⟨⟨hself, hparent⟩, hfile⟩
    obtain ⟨front, name, hraw, hname, hlength⟩ := hfile.last
    have hne : name ≠ [] := by
      rintro rfl
      cases hname
    have hnonempty : path.toList ≠ [] := by
      intro hnil
      rw [hnil] at hraw
      exact hne (List.append_singleton_inj.mp (hraw.symm.trans (List.nil_append [[]]).symm)).2
    have htext := textError?_eq_none_iff.mpr ⟨hfile.no_nul, hnonempty, hfile.length_le⟩
    obtain ⟨q, hlocate⟩ := exists_locate hparent htext hraw hname hlength
    refine exists_openAppend (getLast?_ne_slash hraw hne) hlocate fun hq ↦ ?_
    rw [isDirectory_iff.mpr (stat_eq_ok.mpr ⟨q, hlocate, hq⟩)] at hself
    cases hself

end FileSystem

/-! ## Sinks -/

namespace LogSink

variable {files : FileSystem} {path : String}

theorem exists_check_iff :
    (∃ sink, check files path = .ok sink) ↔
      (stream? path).isSome ∨ files.isDirectory path = false ∧ files.isDirectory (parentOf path) = true := by
  unfold check
  cases stream? path with
  | some sink => simp
  | none => cases files.isDirectory path <;> cases files.isDirectory (parentOf path) <;> simp

theorem acquire_ofFiles (files : FileSystem) (path : String) :
    acquire (Disk.ofFiles files) path =
      match stream? path, openFile (Disk.ofFiles files) path with
      | some sink, _ => (.ok sink, Disk.ofFiles files)
      | none, .ok (sink, disk) => (.ok sink, disk)
      | none, .error e => (.error (.invalidArguments (path ++ ": " ++ e.message)), Disk.ofFiles files) := by
  unfold acquire
  rw [show (Disk.ofFiles files).openSinks.lookup (FilePath.key path) = none from rfl, Option.or_none]
  cases stream? path with
  | some sink => rfl
  | none => cases openFile (Disk.ofFiles files) path <;> rfl

theorem exists_acquire_iff :
    (∃ sink, (acquire (Disk.ofFiles files) path).1 = .ok sink) ↔
      (stream? path).isSome ∨ ∃ opened, files.openAppend path = .ok opened := by
  rw [acquire_ofFiles, openFile]
  cases stream? path with
  | some sink => simp
  | none => cases h : files.openAppend path <;> simp [Disk.ofFiles, h, bind, Except.bind, pure, Except.pure]

/-- Opening adds at most an empty file. -/
theorem files_acquire (files : FileSystem) (path : String) :
    (acquire (Disk.ofFiles files) path).2.files = files ∨
      ∃ place, files.locate path = .ok place ∧ files.nodeAt? place = none ∧
        files.Creates (acquire (Disk.ofFiles files) path).2.files place := by
  rw [acquire_ofFiles]
  split
  · exact .inl rfl
  · next sink disk hopen =>
    obtain ⟨⟨place, after⟩, hfile, hopened⟩ := bind_eq_ok.mp hopen
    cases hopened
    obtain ⟨hlocate, ⟨-, rfl⟩ | ⟨hnone, rfl⟩⟩ := FileSystem.of_openAppend hfile
    · exact .inl rfl
    · exact .inr ⟨place, hlocate, hnone, FileSystem.creates_put hnone⟩
  · exact .inl rfl

end LogSink

namespace LogCommand

/-- A sink that nothing has opened yet is opened exactly if it passes the check and its path is a stream or one that
a file can have. The check leaves the disk alone, and opening adds at most an empty file where the path leads. -/
theorem checked_sink_opens_iff (files : FileSystem) (path : String) :
    ((∃ sink, (sinkFor .serve (Disk.ofFiles files) path).1 = .ok sink) ↔
      (∃ sink, (sinkFor .check (Disk.ofFiles files) path).1 = .ok sink) ∧
        ((LogSink.stream? path).isSome ∨ FilePath.NamesFile path)) ∧
    (sinkFor .check (Disk.ofFiles files) path).2 = Disk.ofFiles files ∧
    ((sinkFor .serve (Disk.ofFiles files) path).2.files = files ∨
      ∃ place, files.locate path = .ok place ∧ files.nodeAt? place = none ∧
        files.Creates (sinkFor .serve (Disk.ofFiles files) path).2.files place) := by
  have hopens : (∃ sink, (LogSink.acquire (Disk.ofFiles files) path).1 = .ok sink) ↔
      (∃ sink, LogSink.check files path = .ok sink) ∧
        ((LogSink.stream? path).isSome ∨ FilePath.NamesFile path) := by
    rw [LogSink.exists_acquire_iff, LogSink.exists_check_iff, FileSystem.exists_openAppend_iff, or_and_left]
  exact ⟨hopens, rfl, LogSink.files_acquire files path⟩

/-- The empty path and one that ends in a slash pass the check, for their directory is there, and are no files. -/
theorem checked_sink_does_not_open :
    ((sinkFor .check (Disk.ofFiles ⟨[], []⟩) "").1.isOk = true ∧
      (sinkFor .serve (Disk.ofFiles ⟨[], []⟩) "").1 =
        .error (.invalidArguments ": No such file or directory (os error 2)")) ∧
    ((sinkFor .check (Disk.ofFiles ⟨[], []⟩) "audit/").1.isOk = true ∧
      (sinkFor .serve (Disk.ofFiles ⟨[], []⟩) "audit/").1 =
        .error (.invalidArguments "audit/: Is a directory (os error 21)")) :=
  ⟨⟨by decide +kernel, rfl⟩, ⟨by decide +kernel, rfl⟩⟩

end LogCommand

end RuleGate
