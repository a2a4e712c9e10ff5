import DownloadCache.Cache.Adoption
import DownloadCache.Proofs.FileSystem.Locating
import DownloadCache.Proofs.FileSystem.WellFormed

/-!
# The place of an adopted file

The candidates for the place of a file have different names (`numberedName_injective`).  A
candidate is taken because an entry owns it or because it is a directory, which is then listed in
the directory of the cache.  There are no more taken candidates than owned paths and listed names
together, so that one of those that are tried is free and the place that is chosen is not taken
(`isTaken_destination`).
-/

namespace DownloadCache

set_option autoImplicit false

/-! ## Names in a directory -/

/-- A path within a directory can be handed over only if that of the directory can. -/
theorem FileSystem.checkPath_of_child {directory : Path} {name : String}
    (filled : directory.text ≠ "")
    (checked : checkPath (directory.child name) = .ok ()) : checkPath directory = .ok () := by
  obtain ⟨clean, -, short⟩ := checkPath_eq_ok_iff.mp checked
  obtain ⟨rest, whole⟩ : ∃ rest, (directory.child name).text = directory.text ++ rest := by
    unfold Path.child
    split
    · simp_all
    · split
      · exact ⟨_, rfl⟩
      · exact ⟨"/" ++ name, String.append_assoc⟩
  rw [whole] at clean short
  refine checkPath_eq_ok_iff.mpr ⟨fun nul => clean ?_, filled, ?_⟩
  · rw [String.toList_append]
    exact List.mem_append_left _ nul
  · rw [String.utf8ByteSize_append] at short
    exact Nat.le_of_add_right_le short

/-- A directory is listed where its path within the directory above leads to it. -/
theorem FileSystem.mem_list_of_namesDirectory {files : FileSystem} {directory : Path}
    {name : String} (filled : directory.text ≠ "") (legal : IsName name)
    (named : files.namesDirectory (directory.child name) = true) :
    ∃ names, files.list directory = .ok names ∧ name ∈ names := by
  obtain ⟨place, located⟩ : ∃ place, files.locate (directory.child name) = .ok place := by
    cases located : files.locate (directory.child name) with
    | error cause => simp [namesDirectory, linkStatus, located, Bind.bind, Except.bind] at named
    | ok place => exact ⟨place, rfl⟩
  obtain ⟨home, object, spotted, -, found, -⟩ :=
    (locate_eq_ok_iff (lastStep_child directory legal)).mp located
  obtain ⟨checked, walked, isDirectory, -⟩ := spot_eq_ok_iff.mp spotted
  rw [Path.steps_child directory legal, List.dropLast_concat, start,
    Path.isAbsolute_child directory legal] at walked
  have resolved : files.resolve directory = .ok (.present home) := by
    refine resolve_eq_ok_iff.mpr ⟨checkPath_of_child filled checked, ?_⟩
    rw [Trail.allSteps]
    split
    · have solid := checkDirectory_present_eq_ok_iff.mp isDirectory
      exact walk_append walked (.stay solid (.done 0 home))
    · exact walked
  refine ⟨files.names home, ?_, ?_⟩
  · rw [list, bind_eq_ok_iff]
    exact ⟨_, resolved, check_bind_eq_ok_iff.mpr ⟨isDirectory, rfl⟩⟩
  · exact FileSystem.mem_names_iff.mpr (by simp [found])

/-! ## Candidates -/

namespace Site

/-- The name of a candidate for the place of a file. -/
def numberedName (fileName : String) (number : Nat) : String :=
  if number = 0 then fileName else fileName ++ "-" ++ toString number

theorem candidate_eq (site : Site) (fileName : String) (number : Nat) :
    site.candidate fileName number = site.cache.directory.child (numberedName fileName number) :=
  rfl

theorem isName_numberedName {fileName : String} (legal : IsName fileName) (number : Nat) :
    IsName (numberedName fileName number) := by
  rw [numberedName]
  split
  · exact legal
  · exact legal.numbered number

/-- Different numbers give different names. -/
theorem numberedName_injective (fileName : String) :
    Function.Injective (numberedName fileName) := by
  have longer : ∀ number : Nat, fileName ++ "-" ++ toString number ≠ fileName := by
    intro number same
    have lengths := congrArg String.length same
    have dash : "-".length = 1 := rfl
    rw [String.length_append, String.length_append, dash] at lengths
    omega
  intro first second same
  rw [numberedName, numberedName] at same
  split at same <;> split at same
  · omega
  · exact absurd same.symm (longer second)
  · exact absurd same (longer first)
  · rw [String.append_right_inj] at same
    have digits := congrArg String.toList same
    rw [Nat.toString_eq_repr, Nat.toString_eq_repr, Nat.toList_repr, Nat.toList_repr] at digits
    simpa only [Nat.ofDigitChars_ten_toDigits] using congrArg (Nat.ofDigitChars 10 · 0) digits

/-- The place that is chosen is that of a name in the directory of the cache. -/
theorem exists_destination_eq_child (site : Site) {fileName : String} (legal : IsName fileName) :
    ∃ name, IsName name ∧ site.destination fileName = site.cache.directory.child name :=
  ⟨_, isName_numberedName legal _, rfl⟩

/-! ## The first free candidate -/

/-- The name of an owned path, if its last component is one. -/
def ownedName? (owner : List Component × String) : Option String :=
  match owner.1.getLast? with
  | some (.name name) => some name
  | _ => none

/-- A taken candidate is owned by its name or listed by it. -/
theorem mem_taken {site : Site} {name : String} (filled : site.cache.directory.text ≠ "")
    (legal : IsName name) (taken : site.isTaken (site.cache.directory.child name) = true) :
    name ∈ site.cache.index.owners.filterMap ownedName? ++
      (site.files.list site.cache.directory).toOption.getD [] := by
  rw [isTaken, Bool.or_eq_true] at taken
  rw [List.mem_append]
  rcases taken with owned | named
  · obtain ⟨key, lookedUp⟩ := Option.isSome_iff_exists.mp owned
    refine .inl (List.mem_filterMap.mpr ⟨_, mem_of_lookup_eq_some lookedUp, ?_⟩)
    simp [ownedName?, Path.components_child _ legal]
  · obtain ⟨names, listed, member⟩ := FileSystem.mem_list_of_namesDirectory filled legal named
    rw [listed]
    exact .inr member

/-- **The place that is chosen is not taken.**  Of the candidates that are tried, there is one more
than can be taken. -/
theorem isTaken_destination {site : Site} {fileName : String}
    (filled : site.cache.directory.text ≠ "") (legal : IsName fileName) :
    site.isTaken (site.destination fileName) = false := by
  rw [destination]
  cases tried : (List.range (site.takenBound + 1)).find? fun number =>
      !site.isTaken (site.candidate fileName number) with
  | some number => simpa using List.find?_some tried
  | none =>
      have allTaken := List.find?_eq_none.mp tried
      let names := (List.range (site.takenBound + 1)).map (numberedName fileName)
      have distinct : names.Nodup := List.nodup_range.map (numberedName_injective fileName)
      have within : names ⊆ site.cache.index.owners.filterMap ownedName? ++
          (site.files.list site.cache.directory).toOption.getD [] := by
        intro name member
        obtain ⟨number, tried, rfl⟩ := List.mem_map.mp member
        exact mem_taken filled (isName_numberedName legal number)
          (by simpa [candidate_eq] using allTaken number tried)
      have few := distinct.length_le_of_subset within
      have owned := List.length_filterMap_le ownedName? site.cache.index.owners
      simp only [names, List.length_map, List.length_range, List.length_append, takenBound] at few
      omega

end Site

end DownloadCache
