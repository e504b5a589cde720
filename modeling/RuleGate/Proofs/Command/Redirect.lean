import RuleGate.Proofs.Command.RedirectPage
import RuleGate.Proofs.UrlPath.BelowRoot

/-!
# Redirects to relative targets

A target that is no URL and has no slash in front is looked up in the directory of the request path, however many
slashes that path starts with. The location is the clean path below the root that the lookup gives, with the query of
the target behind it as it is, so the redirect never leaves the site. The page that comes with it shows the location
and no other markup.
-/

namespace RuleGate.Redirect

/-! ## The location -/

theorem isAbsolute_iff {target : String} : isAbsolute target.toList = true ↔
    "://".toList <:+: target.toList ∨ target.startsWith "/" = true := by
  rw [isAbsolute, Bool.or_eq_true, Text.hasPiece_iff, ← UrlPath.isRooted_iff_startsWith]
  exact Iff.rfl

/-- The directory of a path is what stands in front of its last slash, and slashes at its end do not matter. -/
theorem resolve_directory {directory name file p : List Char} (hname : '/' ∉ name)
    (hrooted : UrlPath.isRooted (directory ++ '/' :: file) = true)
    (h : UrlPath.cleanUrlChars (directory ++ '/' :: file) = .ok p) :
    resolve (Redirect.directory (directory ++ '/' :: name)) file = p := by
  have hfront : Text.dropEndWhile (· == '/') (Redirect.directory (directory ++ '/' :: name)) =
      Text.dropEndWhile (· == '/') directory := by
    rw [Redirect.directory, Text.cutLast?_append hname]
    dsimp only
    split
    · next hempty =>
      rw [List.isEmpty_iff.mp hempty]
      rfl
    · rfl
  rw [resolve, hfront, UrlPath.cleanUrlChars_dropEndWhile hrooted, h]

/-- The file and the query of a relative target. -/
theorem exists_file_query (target : List Char) : ∃ file query, target = file ++ query ∧ '?' ∉ file ∧
    (query = [] ∨ query.head? = some '?') ∧
    ∀ path, isAbsolute target = false → locationChars path target = resolve (directory path) file ++ query := by
  cases hcut : Text.cut? '?' target with
  | none =>
    have hfree := Text.not_mem_of_cut?_eq_none hcut
    refine ⟨target, [], (List.append_nil _).symm, hfree, .inl rfl, fun path habsolute ↦ ?_⟩
    rw [locationChars, habsolute, hcut, Text.before_eq_self hfree, List.append_nil]
    rfl
  | some cut =>
    obtain ⟨file, query⟩ := cut
    obtain ⟨rfl, hfree⟩ := Text.cut?_eq_some hcut
    refine ⟨file, '?' :: query, rfl, hfree, .inr rfl, fun path habsolute ↦ ?_⟩
    have hbefore : Text.before '?' (file ++ '?' :: query) = file := by
      rw [Text.before_append hfree]
      exact List.append_nil _
    rw [locationChars, habsolute, hcut, hbefore]
    rfl

/-- The lookup of a relative target always succeeds. -/
theorem exists_location {path target : List Char} (hpath : UrlPath.isRooted path = true)
    (habsolute : isAbsolute target = false) : ∃ directory name file query p,
      path = directory ++ '/' :: name ∧ '/' ∉ name ∧ target = file ++ query ∧ '?' ∉ file ∧
      (query = [] ∨ query.head? = some '?') ∧ UrlPath.isRooted (directory ++ '/' :: file) = true ∧
      UrlPath.cleanUrlChars (directory ++ '/' :: file) = .ok p ∧ locationChars path target = p ++ query := by
  obtain ⟨rest, hrest⟩ := List.head?_eq_some_iff.mp (beq_iff_eq.mp hpath)
  have hslash : Text.cutLast? '/' path ≠ none := fun hnone ↦
    Text.not_mem_of_cutLast?_eq_none hnone (by rw [hrest]; exact .head _)
  obtain ⟨⟨directory, name⟩, hcut⟩ := Option.ne_none_iff_exists'.mp hslash
  obtain ⟨rfl, hname⟩ := Text.cutLast?_eq_some hcut
  obtain ⟨file, query, htarget, hfile, hquery, hlocation⟩ := exists_file_query target
  have hrooted : UrlPath.isRooted (directory ++ '/' :: file) = true :=
    (UrlPath.isRooted_append_slash directory file name).trans hpath
  obtain ⟨p, hp⟩ := UrlPath.cleanUrlChars_eq_ok_iff.mpr (UrlPath.before_ne_nil_of_isRooted hrooted)
  refine ⟨directory, name, file, query, p, rfl, hname, htarget, hfile, hquery, hrooted, hp, ?_⟩
  rw [hlocation _ habsolute, resolve_directory hname hrooted hp]

/-- Without question marks in its parts, the path of a location has none. -/
theorem before_location {directory file query p : List Char} (hdirectory : '?' ∉ directory) (hfile : '?' ∉ file)
    (hquery : query = [] ∨ query.head? = some '?') (hp : UrlPath.cleanUrlChars (directory ++ '/' :: file) = .ok p) :
    Text.before '?' (p ++ query) = p := by
  have hfree : '?' ∉ p := by
    intro hmem
    obtain hslash | hdot | hmem := UrlPath.mem_of_mem_cleanUrlChars hp hmem
    · exact absurd hslash (by decide)
    · exact absurd hdot (by decide)
    · obtain hmem | hmem := List.mem_append.mp hmem
      · exact hdirectory hmem
      · exact hfile ((List.mem_cons.mp hmem).resolve_left (by decide))
  rw [Text.before_append hfree]
  obtain rfl | hhead := hquery
  · exact List.append_nil _
  · obtain ⟨rest, rfl⟩ := List.head?_eq_some_iff.mp hhead
    exact List.append_nil _

/-- A target that is no URL and has no slash in front leads from a path with a slash in front to the clean path of its
file in the directory of the path, with one slash in front and no way up, and its query stays as it is. The page shows
the location to a reader, and holds no markup in its place. -/
theorem relative_redirect_stays_on_site {path target : String} (hpath : path.startsWith "/" = true)
    (hmark : '?' ∉ path.toList) (hscheme : ¬ "://".toList <:+: target.toList)
    (hfree : target.startsWith "/" = false) :
    ∃ directory name file query p : String,
      path = directory ++ "/" ++ name ∧ '/' ∉ name.toList ∧
      target = file ++ query ∧ '?' ∉ file.toList ∧ (query = "" ∨ query.startsWith "?" = true) ∧
      UrlPath.cleanUrl (directory ++ "/" ++ file) = .ok p ∧ UrlPath.IsBelowRoot p ∧
      location path target = p ++ query ∧ Text.before '?' (location path target).toList = p.toList ∧
      ∃ shown : String, IsEscaped shown.toList ∧ unescape shown.toList = (location path target).toList ∧
        ∀ d, (respond "GET" (location path target) d).body =
          Bytes.ofString ("<a href=\"" ++ shown ++ "\">Temporary Redirect</a>.\n\n") := by
  have habsolute : isAbsolute target.toList = false := by
    rw [← Bool.not_eq_true, isAbsolute_iff, not_or, Bool.not_eq_true]
    exact ⟨hscheme, hfree⟩
  have hrooted : UrlPath.isRooted path.toList = true := (UrlPath.isRooted_iff_startsWith path).mpr hpath
  obtain ⟨directory, name, file, query, p, hparts, hname, htarget, hfile, hquery, hlookup, hp, hlocation⟩ :=
    exists_location hrooted habsolute
  have hdirectory : '?' ∉ directory := fun hmem ↦ hmark (by rw [hparts]; exact List.mem_append_left _ hmem)
  have hjoin (back : List Char) :
      (String.ofList directory ++ "/" ++ String.ofList back).toList = directory ++ '/' :: back := by simp
  have hclean : UrlPath.cleanUrl (String.ofList directory ++ "/" ++ String.ofList file) = .ok (String.ofList p) := by
    rw [UrlPath.cleanUrl, hjoin, hp]
    rfl
  refine ⟨String.ofList directory, String.ofList name, String.ofList file, String.ofList query, String.ofList p,
    ?_, ?_, ?_, ?_, ?_, hclean, ?_, ?_, ?_, page_shows_location _⟩
  · rw [← String.toList_inj, hjoin, hparts]
  · rwa [String.toList_ofList]
  · rw [← String.toList_inj, htarget, ← String.ofList_append, String.toList_ofList]
  · rwa [String.toList_ofList]
  · obtain rfl | hhead := hquery
    · exact .inl rfl
    · obtain ⟨rest, rfl⟩ := List.head?_eq_some_iff.mp hhead
      exact .inr (Text.startsWith_iff.mpr ⟨String.ofList rest, by rw [← String.toList_inj]; simp⟩)
  · refine UrlPath.isBelowRoot_of_cleanUrl ?_ hclean
    rwa [← UrlPath.isRooted_iff_startsWith, hjoin]
  · rw [location, hlocation, String.ofList_append]
  · rw [location, String.toList_ofList, String.toList_ofList, hlocation]
    exact before_location hdirectory hfile hquery hp

/-- The host of another site in front of the path, and more ways up than there are directories. -/
theorem climbing_redirect_stays_on_site :
    ("//evil.test//a/".startsWith "/" = true ∧ '?' ∉ "//evil.test//a/".toList ∧
      ¬ "://".toList <:+: "../../../b/?x=<1>&y".toList ∧ "../../../b/?x=<1>&y".startsWith "/" = false) ∧
    location "//evil.test//a/" "../../../b/?x=<1>&y" = "/b/?x=<1>&y" ∧ UrlPath.IsBelowRoot "/b/" := by
  have hstart : "//evil.test//a/".startsWith "/" = true := by decide +kernel
  have hmark : '?' ∉ "//evil.test//a/".toList := by decide
  have hscheme : ¬ "://".toList <:+: "../../../b/?x=<1>&y".toList := mt Text.hasPiece_iff.mpr (by decide +kernel)
  have hfree : "../../../b/?x=<1>&y".startsWith "/" = false := by decide +kernel
  have hlocation : location "//evil.test//a/" "../../../b/?x=<1>&y" = "/b/?x=<1>&y" := by decide +kernel
  obtain ⟨-, -, -, -, p, -, -, -, -, -, -, hbelow, -, hpath, -⟩ :=
    relative_redirect_stays_on_site hstart hmark hscheme hfree
  have hp : p = "/b/" := by
    rw [← String.toList_inj, ← hpath, hlocation]
    decide
  exact ⟨⟨hstart, hmark, hscheme, hfree⟩, hlocation, hp ▸ hbelow⟩

end RuleGate.Redirect
