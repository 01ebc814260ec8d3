import CodexOS.Filesystem.Edits

/-! # What every operation commits

For each operation: if it gets as far as a commit, the new list is sorted, and as
a map it differs from the old one exactly at the paths the operation names.
-/

namespace CodexOS.Filesystem

open Bytes Effect

variable {files next : List FileEntry} {path : Text} {data : Bytes} {permissions : UInt16}

/-- The list is sorted and its map is the given one. -/
structure Maps (next : List FileEntry) (map : Text → Option FileEntry) : Prop where
  sorted : Sorted next
  find : ∀ other, find next other = map other

def replaced (files : List FileEntry) (path : Text) (entry : Option FileEntry) (other : Text) :
    Option FileEntry :=
  if other = path then entry else find files other

/-- The migration pass after an edit that keeps the tree closed. -/
theorem maps_of_materialize (ok : materializeMissingParentDirectories edited = .ok next)
    (closed : Closed edited) (maps : Maps edited map) : Maps next map := by
  rw [materialize_eq maps.sorted closed] at ok
  cases ok
  exact maps

theorem maps_update (path : Text) (sorted : Sorted files)
    (keepsName : ∀ entry, (change entry).name = entry.name) :
    Maps (update files path change) (replaced files path ((find files path).map change)) where
  sorted := sorted_update sorted keepsName
  find _ := Keyed.find_update keepsName

theorem maps_insert (sorted : Sorted files) (missing : find files entry.name = none) :
    Maps (sortByName (files ++ [entry])) (replaced files entry.name (some entry)) where
  sorted := sorted_insert sorted missing
  find := find_insert sorted missing

theorem maps_eraseIdx (tree : Tree files) (at_ : files[index]? = some entry) :
    Maps (files.eraseIdx index) (replaced files entry.name none) where
  sorted := sorted_eraseIdx tree.sorted index
  find _ := Keyed.find_eraseIdx tree.sorted.distinct at_

/-- The entry a write leaves at its path. -/
def writtenEntry (files : List FileEntry) (path : Text) (data : Bytes)
    (permissions : Option UInt16) : FileEntry where
  name := path
  data
  kind := .file
  permissions := permissions.getD <|
    match find files path with
    | some existing => existing.permissions
    | none => defaultFilePermissions

theorem writeFileEntries_maps {permissions : Option UInt16} (tree : Tree files)
    (ok : writeFileEntries files path data permissions = .ok next) :
    Maps next (replaced files path (some (writtenEntry files path data permissions))) := by
  unfold writeFileEntries at ok
  obtain ⟨⟨⟩, -, ok⟩ := of_except_bind ok
  obtain ⟨⟨⟩, parent, ok⟩ := of_except_bind ok
  obtain ⟨edited, isEdited, ok⟩ := of_except_bind ok
  unfold placeFile at isEdited
  cases found : find files path with
  | some existing =>
    simp only [found] at isEdited
    split at isEdited
    · cases isEdited
    rename_i isFile
    split at isEdited
    · cases isEdited
    cases isEdited
    have isWritten : (find files path).map (fun entry =>
        { entry with data, permissions := permissions.getD entry.permissions }) =
          some (writtenEntry files path data permissions) := by
      simp only [writtenEntry, found, Option.map_some, (Keyed.find_eq_some found).2,
        not_not.mp isFile]
    rw [← isWritten]
    apply maps_of_materialize ok
    · apply closed_update tree.closed
      · exact fun _ => rfl
      · exact fun _ => rfl
    · exact maps_update path tree.sorted fun _ => rfl
  | none =>
    simp only [found] at isEdited
    split at isEdited
    · cases isEdited
    cases isEdited
    obtain ⟨above, isParent, present⟩ := (hasParent_of_ensure parent).present
    have isWritten : writtenEntry files path data permissions =
        { name := path
          data
          kind := .file
          permissions := permissions.getD defaultFilePermissions } := by
      simp only [writtenEntry, found]
    rw [isWritten]
    apply maps_of_materialize ok
    · exact closed_insert tree.closed isParent present
    · exact maps_insert tree.sorted found

theorem insertDirectory_maps (sorted : Sorted files) (closed : Closed files)
    (directories : ∀ entry ∈ files, entry.kind = .directory → entry.data = [])
    (ok : insertDirectory files path permissions = .ok next) :
    Closed next ∧ Maps next (replaced files path (some (newDirectory path permissions))) := by
  unfold insertDirectory at ok
  obtain ⟨⟨⟩, parent, ok⟩ := of_except_bind ok
  cases found : find files path with
  | some existing =>
    simp only [found] at ok
    split at ok
    · cases ok
    rename_i isDirectory
    rw [not_not] at isDirectory
    cases ok
    obtain ⟨mem, isName⟩ := Keyed.find_eq_some found
    have isNew : (find files path).map (fun entry => { entry with permissions }) =
        some (newDirectory path permissions) := by
      simp only [newDirectory, found, Option.map_some, isName, isDirectory,
        directories existing mem isDirectory]
    rw [← isNew]
    refine ⟨closed_update closed (fun _ => rfl) fun _ => rfl, ?_⟩
    exact maps_update path sorted fun _ => rfl
  | none =>
    simp only [found] at ok
    split at ok
    · cases ok
    cases ok
    obtain ⟨above, isParent, present⟩ := (hasParent_of_ensure parent).present
    exact ⟨closed_insert closed isParent present, maps_insert sorted found⟩

theorem createDirEntries_maps (tree : Tree files)
    (ok : createDirEntries files path permissions = .ok next) :
    Maps next (replaced files path (some (newDirectory path permissions))) := by
  unfold createDirEntries at ok
  obtain ⟨⟨⟩, -, ok⟩ := of_except_bind ok
  obtain ⟨⟨⟩, -, ok⟩ := of_except_bind ok
  obtain ⟨edited, isEdited, ok⟩ := of_except_bind ok
  obtain ⟨closed, maps⟩ := insertDirectory_maps tree.sorted tree.closed
    (fun entry mem isDirectory => (tree.directories entry mem isDirectory).1) isEdited
  exact maps_of_materialize ok closed maps

theorem setPermissionsEntries_maps (tree : Tree files)
    (ok : setPermissionsEntries files path permissions = .ok next) :
    ∃ entry, find files path = some entry ∧
      Maps next (replaced files path (some { entry with permissions })) := by
  unfold setPermissionsEntries at ok
  obtain ⟨⟨⟩, -, ok⟩ := of_except_bind ok
  obtain ⟨⟨⟩, -, ok⟩ := of_except_bind ok
  cases found : find files path with
  | none =>
    simp only [found] at ok
    cases ok
  | some entry =>
    simp only [found] at ok
    refine ⟨entry, rfl, ?_⟩
    have isNew : (find files path).map (fun entry => { entry with permissions }) =
        some { entry with permissions } := by
      rw [found, Option.map_some]
    rw [← isNew]
    apply maps_of_materialize ok
    · apply closed_update tree.closed
      · exact fun _ => rfl
      · exact fun _ => rfl
    · exact maps_update path tree.sorted fun _ => rfl

theorem getElem?_of_findIdx (found : (files.findIdx? fun entry => entry.name = path) = some index) :
    ∃ entry, files[index]? = some entry ∧ entry.name = path := by
  obtain ⟨bound, isName, -⟩ := List.findIdx?_eq_some_iff_getElem.mp found
  exact ⟨_, List.getElem?_eq_getElem bound, of_decide_eq_true isName⟩

theorem file_no_parent (tree : Tree files) (mem : file ∈ files) (isFile : file.kind = .file) :
    ∀ other ∈ files, parentPath other.name ≠ .ok file.name := by
  intro other inside isParent
  obtain ⟨parent, isParent', isRoot | ⟨directory, directoryMem, isName, isDirectory⟩⟩ :=
    tree.closed other inside
  · rw [isParent] at isParent'
    cases isParent'
    apply root_not_valid
    rw [← isRoot]
    exact tree.names file mem
  · rw [isParent] at isParent'
    cases isParent'
    rw [tree.sorted.distinct.eq directoryMem mem isName, isFile] at isDirectory
    cases isDirectory

theorem removeFileEntries_maps (tree : Tree files) (ok : removeFileEntries files path = .ok next) :
    Maps next (replaced files path none) := by
  unfold removeFileEntries at ok
  obtain ⟨⟨⟩, -, ok⟩ := of_except_bind ok
  cases found : files.findIdx? fun entry => entry.name = path with
  | none =>
    simp only [found] at ok
    cases ok
  | some index =>
    obtain ⟨entry, at_, rfl⟩ := getElem?_of_findIdx found
    simp only [found, at_] at ok
    split at ok
    · cases ok
    rename_i isFile
    split at ok
    · cases ok
    have noParent := file_no_parent tree (List.mem_of_getElem? at_) (not_not.mp isFile)
    exact maps_of_materialize ok (closed_eraseIdx tree.closed tree.sorted at_ noParent)
      (maps_eraseIdx tree at_)

theorem ensureEmpty_ok (ok : ensureEmpty path entries = .ok ()) :
    ∀ other ∈ entries, parentPath other.name ≠ .ok path := by
  induction entries with
  | nil => exact nofun
  | cons entry entries ih =>
    unfold ensureEmpty at ok
    obtain ⟨parent, isParent, ok⟩ := of_except_bind ok
    split at ok
    · cases ok
    rename_i different
    refine List.forall_mem_cons.mpr ⟨?_, ih ok⟩
    rw [isParent]
    intro same
    cases same
    exact different rfl

theorem removeDirEntries_maps (tree : Tree files) (ok : removeDirEntries files path = .ok next) :
    Maps next (replaced files path none) := by
  unfold removeDirEntries at ok
  obtain ⟨⟨⟩, -, ok⟩ := of_except_bind ok
  cases found : files.findIdx? fun entry => entry.name = path with
  | none =>
    simp only [found] at ok
    cases ok
  | some index =>
    obtain ⟨entry, at_, rfl⟩ := getElem?_of_findIdx found
    simp only [found, at_] at ok
    split at ok
    · cases ok
    split at ok
    · cases ok
    obtain ⟨⟨⟩, empty, ok⟩ := of_except_bind ok
    exact maps_of_materialize ok (closed_eraseIdx tree.closed tree.sorted at_ (ensureEmpty_ok empty))
      (maps_eraseIdx tree at_)

/-- The paths made of the first components, one more at a time. -/
def prefixesFrom : List Text → List Text → List Text
  | _, [] => []
  | made, component :: components =>
    join (made ++ [component]) :: prefixesFrom (made ++ [component]) components

/-- A path and all paths above it, the shortest first. -/
def prefixes (path : Text) : List Text :=
  prefixesFrom [] ((split path).drop 1)

/-- A map in which the missing ones among some paths are directories. -/
def withDirectories (files : List FileEntry) (path : Text) (permissions : UInt16)
    (paths : List Text) (other : Text) : Option FileEntry :=
  match find files other with
  | some entry => some entry
  | none =>
    if other ∈ paths then
      some <| newDirectory other <|
        if other = path then permissions else defaultDirectoryPermissions
    else none

theorem Maps.directories (maps : Maps next (replaced files path (some entry)))
    (directories : ∀ entry ∈ files, entry.kind = .directory → entry.data = [])
    (isNew : entry.data = []) : ∀ entry ∈ next, entry.kind = .directory → entry.data = [] := by
  intro other mem isDirectory
  have found : Filesystem.find next other.name = some other :=
    (Keyed.find_iff maps.sorted.distinct).mpr ⟨mem, rfl⟩
  rw [maps.find, replaced] at found
  split at found
  · cases found
    exact isNew
  · exact directories other (Keyed.find_eq_some found).1 isDirectory

theorem createPrefixes_maps (sorted : Sorted files) (closed : Closed files)
    (directories : ∀ entry ∈ files, entry.kind = .directory → entry.data = [])
    (ok : createPrefixes path permissions (join made) components files = .ok next) :
    Closed next ∧
      Maps next (withDirectories files path permissions (prefixesFrom made components)) := by
  induction components generalizing made files with
  | nil =>
    cases ok
    refine ⟨closed, sorted, ?_⟩
    intro other
    rw [withDirectories]
    cases find next other with
    | none => rw [prefixesFrom, if_neg List.not_mem_nil]
    | some entry => rfl
  | cons component components ih =>
    unfold createPrefixes at ok
    rw [← join_concat] at ok
    cases found : find files (join (made ++ [component])) with
    | some existing =>
      simp only [found] at ok
      split at ok
      · cases ok
      obtain ⟨closed', maps⟩ := ih sorted closed directories ok
      refine ⟨closed', maps.sorted, ?_⟩
      intro other
      rw [maps.find, withDirectories, withDirectories]
      cases isFound : find files other with
      | some entry => rfl
      | none =>
        have other_ne : other ≠ join (made ++ [component]) := by
          rintro rfl
          rw [found] at isFound
          cases isFound
        simp only [prefixesFrom, List.mem_cons, other_ne, false_or]
    | none =>
      simp only [found] at ok
      obtain ⟨inserted, isInserted, ok⟩ := of_except_bind ok
      obtain ⟨closed', maps⟩ := insertDirectory_maps sorted closed directories isInserted
      obtain ⟨closed'', maps'⟩ := ih maps.sorted closed' (maps.directories directories rfl) ok
      refine ⟨closed'', maps'.sorted, ?_⟩
      intro other
      rw [maps'.find, withDirectories, withDirectories, maps.find, replaced]
      by_cases same : other = join (made ++ [component])
      · subst same
        simp only [found, prefixesFrom, List.mem_cons, true_or, if_true]
      · rw [if_neg same]
        simp only [prefixesFrom, List.mem_cons, same, false_or]

theorem createDirAllEntries_maps (tree : Tree files)
    (ok : createDirAllEntries files path permissions = .ok next) :
    Maps next (withDirectories files path permissions (prefixes path)) := by
  unfold createDirAllEntries at ok
  obtain ⟨⟨⟩, -, ok⟩ := of_except_bind ok
  obtain ⟨⟨⟩, -, ok⟩ := of_except_bind ok
  obtain ⟨edited, isEdited, ok⟩ := of_except_bind ok
  rw [← join_nil] at isEdited
  obtain ⟨closed, maps⟩ := createPrefixes_maps tree.sorted tree.closed
    (fun entry mem isDirectory => (tree.directories entry mem isDirectory).1) isEdited
  exact maps_of_materialize ok closed maps

end CodexOS.Filesystem
