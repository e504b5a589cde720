import RuleGate.Proofs.Files.Growth
import RuleGate.Proofs.Text.Utf8

/-!
# Sinks that are opened and sinks that are checked

What is opened as a sink leads through directories to something that is no directory, and so does every other
path with its key. A path that does so passes the check of sinks, unless it is too long. So the check refuses
nothing that can be opened, also once other sinks have been opened.
-/

namespace RuleGate

namespace FileSystem

variable {fs fs' : FileSystem} {path path' : String}

/-- The names of a path lead through directories to something that is no directory. -/
structure LeadsToFile (fs : FileSystem) (path : String) : Prop where
  place : ∃ front last p q, FilePath.names path.toList = front ++ [last] ∧
    fs.walk (fs.origin path) front = .ok p ∧ fs.enter p last = .ok q ∧ fs.nodeAt? q ≠ some .directory
  no_nul : ∀ name ∈ FilePath.names path.toList, '\x00' ∉ name

/-- Only the key of a path matters. -/
theorem LeadsToFile.congr (h : fs.LeadsToFile path) (hkey : FilePath.key path = FilePath.key path') :
    fs.LeadsToFile path' := by
  obtain ⟨habsolute, hnames⟩ := FilePath.of_key_eq hkey
  have horigin : fs.origin path = fs.origin path' := by rw [origin, origin, habsolute]
  obtain ⟨hplace, hnul⟩ := h
  rw [hnames] at hplace hnul
  rw [horigin] at hplace
  exact ⟨hplace, hnul⟩

theorem Grows.leadsToFile (h : fs.Grows fs') (hfile : fs'.LeadsToFile path) : fs.LeadsToFile path := by
  obtain ⟨⟨front, last, p, q, hnames, hwalk, henter, hq⟩, hnul⟩ := hfile
  rw [h.origin_eq] at hwalk
  exact ⟨⟨front, last, p, q, hnames, h.walk_eq_ok.mp hwalk, h.enter_eq_ok.mp henter,
    fun hdirectory ↦ hq ((h.directory_iff q).mpr hdirectory)⟩, hnul⟩

theorem LeadsToFile.follow_eq (h : fs.LeadsToFile path) :
    ∃ q, fs.follow path = .ok q ∧ fs.nodeAt? q ≠ some .directory := by
  obtain ⟨⟨front, last, p, q, hnames, hwalk, henter, hq⟩, -⟩ := h
  refine ⟨q, ?_, hq⟩
  rw [follow, hnames, walk_append, hwalk]
  exact (walk_cons fs p last []).trans (by rw [henter]; rfl)

/-- The text of a path is in order unless it holds a NUL byte, is empty or is too long. -/
theorem textError?_eq_none_iff {s : List Char} : textError? s = none ↔
    '\x00' ∉ s ∧ s ≠ [] ∧ (Text.utf8Encode s).length ≤ maxPath := by
  unfold textError?
  split
  · next hnul => simp [List.contains_iff_mem.mp hnul]
  · next hnul =>
    rw [List.contains_iff_mem] at hnul
    split
    · next hempty => simp [List.isEmpty_iff.mp hempty]
    · next hempty =>
      rw [List.isEmpty_iff] at hempty
      split
      · next hlong => exact iff_of_false nofun fun h ↦ absurd h.2.2 (Nat.not_le.mpr hlong)
      · next hlong => exact iff_of_true rfl ⟨hnul, hempty, Nat.not_lt.mp hlong⟩

/-- The directory that a walk starts from is no file, so it has names to follow. -/
theorem leadsToFile_of_locate {q : Place} (hlocate : fs.locate path = .ok q)
    (hq : fs.nodeAt? q ≠ some .directory) : fs.LeadsToFile path where
  place := by
    have hfollow : fs.walk (fs.origin path) (FilePath.names path.toList) = .ok q := follow_of_locate hlocate
    obtain hnil | ⟨front, last, hnames⟩ := List.eq_nil_or_concat (FilePath.names path.toList)
    · rw [hnil] at hfollow
      obtain ⟨c, cs, hwalked⟩ := List.exists_cons_of_ne_nil (walked_ne_nil path)
      have hwalk := (locate_eq_ok.mp hlocate).2
      rw [hwalked, walk_cons] at hwalk
      obtain ⟨_, henter, -⟩ := bind_eq_ok.mp hwalk
      rw [← Except.ok.inj hfollow] at hq
      exact absurd (directory_of_enter henter) hq
    · rw [hnames, List.concat_eq_append, walk_append] at hfollow
      obtain ⟨p, hfront, hlast⟩ := bind_eq_ok.mp hfollow
      rw [walk_cons] at hlast
      obtain ⟨q', henter, hq'⟩ := bind_eq_ok.mp hlast
      cases hq'
      exact ⟨front, last, p, q, by rw [hnames, List.concat_eq_append], hfront, henter, hq⟩
  no_nul := by
    intro name hname hmem
    have hpath : '\x00' ∈ path.toList := Text.mem_of_mem_splitWhere (List.mem_filter.mp hname).1 hmem
    exact (textError?_eq_none_iff.mp (locate_eq_ok.mp hlocate).1).1 hpath

theorem leadsToFile_of_openAppend {q : Place} (h : fs.openAppend path = .ok (q, fs')) :
    fs.LeadsToFile path := by
  obtain ⟨hlocate, ⟨⟨content, modified, hfile⟩, -⟩ | ⟨hnone, -⟩⟩ := of_openAppend h
  · exact leadsToFile_of_locate hlocate (by simp [hfile])
  · exact leadsToFile_of_locate hlocate (by simp [hnone])

/-! ## The check -/

theorem LeadsToFile.isDirectory_eq_false (h : fs.LeadsToFile path) : fs.isDirectory path = false := by
  obtain ⟨q, hfollow, hq⟩ := h.follow_eq
  rw [← Bool.not_eq_true, isDirectory_iff, stat_eq_ok]
  rintro ⟨q', hlocate, hdirectory⟩
  obtain rfl : q = q' := Except.ok.inj (hfollow.symm.trans (follow_of_locate hlocate))
  exact hq hdirectory

theorem LeadsToFile.no_nul_in_path (h : fs.LeadsToFile path) : '\x00' ∉ path.toList := by
  intro hmem
  obtain ⟨name, hname, hnul⟩ := FilePath.exists_name_of_mem hmem (by decide) (by decide)
  exact h.no_nul name hname hnul

/-- The text of the directory of a path is in order if that of the path is. -/
theorem textError?_of_isDirectoryOf {parent path : List Char} (h : FilePath.IsDirectoryOf parent path)
    (hnul : '\x00' ∉ path) (hlength : (Text.utf8Encode path).length ≤ maxPath) :
    textError? parent = none := by
  have hnul' : '\x00' ∉ parent := by
    obtain hwithin | rfl := h.written
    · exact fun hmem ↦ hnul (hwithin.subset hmem)
    · decide
  have hlength' : (Text.utf8Encode parent).length ≤ maxPath := by
    obtain ⟨rest, rfl⟩ | rfl := h.written
    · rw [Text.utf8Encode_append, List.length_append] at hlength
      omega
    · decide
  exact textError?_eq_none_iff.mpr ⟨hnul', h.nonempty, hlength'⟩

theorem LeadsToFile.isDirectory_parentOf (h : fs.LeadsToFile path)
    (hlength : (Text.utf8Encode path.toList).length ≤ maxPath) :
    fs.isDirectory (LogSink.parentOf path) = true := by
  obtain ⟨front, last, p, q, hnames, hwalk, henter, -⟩ := h.place
  have hparent : FilePath.IsDirectoryOf (LogSink.parentOf path).toList path.toList :=
    FilePath.isDirectoryOf_parentOf (by rw [hnames]; simp)
  have hp : fs.nodeAt? p = some .directory := directory_of_enter henter
  have hfollow : fs.follow (LogSink.parentOf path) = .ok p := by
    rw [follow, hparent.names_eq, hnames, List.dropLast_concat, origin, hparent.origin]
    exact hwalk
  have htext := textError?_of_isDirectoryOf hparent h.no_nul_in_path hlength
  exact isDirectory_iff.mpr (stat_eq_ok.mpr ⟨p, locate_of_follow htext hfollow hp, hp⟩)

/-- A path that leads to a file passes the check, if it is not too long. -/
theorem LeadsToFile.check_eq_ok (h : fs.LeadsToFile path)
    (hlength : (Text.utf8Encode path.toList).length ≤ maxPath) :
    ∃ sink, LogSink.check fs path = .ok sink := by
  unfold LogSink.check
  split
  · next sink _ => exact ⟨sink, rfl⟩
  · rw [h.isDirectory_eq_false, h.isDirectory_parentOf hlength]
    exact ⟨_, rfl⟩

end FileSystem

/-! ## Disks -/

namespace Disk

variable {disk disk' disk'' : Disk} {path : String}

/-- What opening sinks makes of a disk: its file system grows, and each new sink is open under the key of a
path that leads to a file. -/
structure Opens (disk disk' : Disk) : Prop where
  files : disk.files.Grows disk'.files
  sinks : ∀ key sink, disk'.openSinks.lookup key = some sink →
    disk.openSinks.lookup key = some sink ∨
      ∃ path, FilePath.key path = key ∧ disk.files.LeadsToFile path

theorem Opens.refl (disk : Disk) : disk.Opens disk := ⟨.refl _, fun _ _ h ↦ .inl h⟩

theorem Opens.trans (h : disk.Opens disk') (h' : disk'.Opens disk'') : disk.Opens disk'' where
  files := h.files.trans h'.files
  sinks key sink hsink := by
    obtain hopen | ⟨path, hkey, hfile⟩ := h'.sinks key sink hsink
    · exact h.sinks key sink hopen
    · exact .inr ⟨path, hkey, h.files.leadsToFile hfile⟩

theorem leadsToFile_of_openFile {opened : LogSink × Disk} (h : LogSink.openFile disk path = .ok opened) :
    disk.files.LeadsToFile path := by
  obtain ⟨⟨place, files⟩, hfile, -⟩ := bind_eq_ok.mp h
  exact FileSystem.leadsToFile_of_openAppend hfile

theorem opens_of_openFile {sink : LogSink} (h : LogSink.openFile disk path = .ok (sink, disk')) :
    disk.Opens disk' := by
  have hleads := leadsToFile_of_openFile h
  obtain ⟨⟨place, files⟩, hfile, hopened⟩ := bind_eq_ok.mp h
  cases hopened
  refine ⟨FileSystem.grows_of_openAppend hfile, fun key sink hsink ↦ ?_⟩
  rw [List.lookup_append, Option.or_eq_some_iff] at hsink
  obtain hopen | ⟨-, hnew⟩ := hsink
  · exact .inl hopen
  · rw [List.lookup_cons] at hnew
    split at hnew
    · next hkey => exact .inr ⟨path, (eq_of_beq hkey).symm, hleads⟩
    · cases hnew

theorem opens_of_acquire (disk : Disk) (path : String) : disk.Opens (LogSink.acquire disk path).2 := by
  unfold LogSink.acquire
  split
  · exact .refl _
  · split
    · next hopened => exact opens_of_openFile hopened
    · exact .refl _

/-- A sink that can be opened passes the check on the disk before any was opened, if its path is not too
long. -/
theorem check_of_acquire {files : FileSystem} {sink : LogSink} (hdisk : (ofFiles files).Opens disk)
    (h : (LogSink.acquire disk path).1 = .ok sink)
    (hlength : (Text.utf8Encode path.toList).length ≤ FileSystem.maxPath) :
    ∃ sink, LogSink.check files path = .ok sink := by
  unfold LogSink.acquire at h
  split at h
  · next open? hopen =>
    obtain hstream | ⟨-, hopen⟩ := Option.or_eq_some_iff.mp hopen
    · exact ⟨open?, by rw [LogSink.check, hstream]⟩
    · obtain hbefore | ⟨path', hkey, hfile⟩ := hdisk.sinks _ _ hopen
      · cases hbefore
      · exact (hfile.congr hkey).check_eq_ok hlength
  · split at h
    · next hopened => exact (hdisk.files.leadsToFile (leadsToFile_of_openFile hopened)).check_eq_ok hlength
    · cases h

end Disk

end RuleGate
