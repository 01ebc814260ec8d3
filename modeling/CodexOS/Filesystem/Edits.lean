import CodexOS.Filesystem.Tree

/-! # What an operation does to the entries

On a sorted list whose parents are all there the migration pass does nothing, so
that every operation commits exactly its own edit.
-/

namespace CodexOS.Filesystem

variable {files next : List FileEntry} {entry : FileEntry} {path : Text}

def Sorted (files : List FileEntry) : Prop :=
  (files.map FileEntry.name).Pairwise fun left right => left.bytes < right.bytes

theorem Sorted.distinct (sorted : Sorted files) : Keyed.Distinct FileEntry.name files := by
  refine List.Pairwise.imp ?_ sorted
  intro left right before same
  exact Std.ne_of_lt before (congrArg Text.bytes same)

theorem sortByName_of_sorted (sorted : Sorted files) : sortByName files = files := by
  apply List.Pairwise.insertionSort_eq
  refine List.Pairwise.imp ?_ (List.pairwise_map.mp sorted)
  intro left right before
  exact List.le_of_lt before

instance : Std.Total fun left right : FileEntry => left.name.bytes ≤ right.name.bytes where
  total left right := List.le_total left.name.bytes right.name.bytes

instance : IsTrans FileEntry fun left right => left.name.bytes ≤ right.name.bytes where
  trans _ _ _ first second := List.le_trans first second

theorem sorted_sortByName (distinct : Keyed.Distinct FileEntry.name files) :
    Sorted (sortByName files) := by
  have distinct' : Keyed.Distinct FileEntry.name (sortByName files) := distinct.insertionSort
  have ordered : (sortByName files).Pairwise fun left right =>
      left.name.bytes ≤ right.name.bytes :=
    List.pairwise_insertionSort _ _
  unfold Sorted
  rw [List.pairwise_map]
  refine (ordered.and (List.pairwise_map.mp distinct')).imp ?_
  rintro left right ⟨notAfter, different⟩
  exact Std.lt_of_le_of_ne notAfter fun same => different (bytes_injective same)

section

variable (files : List FileEntry)

def IsDirectory (path : Text) : Prop :=
  ∃ directory ∈ files, directory.name = path ∧ directory.kind = .directory

def Present (path : Text) : Prop :=
  path = root ∨ IsDirectory files path

def Closed : Prop :=
  ∀ entry ∈ files, ∃ parent, parentPath entry.name = .ok parent ∧ Present files parent

end

section

theorem addAncestors_present (closed : Closed files) (fuel : Nat) (present : Present files path)
    (known : ∀ other ∈ required, IsDirectory files other) :
    ∃ required', addAncestors fuel path required = .ok required' ∧
      ∀ other ∈ required', IsDirectory files other := by
  induction fuel generalizing path required with
  | zero => exact ⟨required, rfl, known⟩
  | succ fuel ih =>
    unfold addAncestors
    by_cases isRoot : path = root
    · rw [if_pos isRoot]
      exact ⟨required, rfl, known⟩
    · obtain ⟨directory, mem, isName, isDirectory⟩ := present.resolve_left isRoot
      obtain ⟨parent, isParent, present'⟩ := closed directory mem
      rw [isName] at isParent
      rw [if_neg isRoot, isParent]
      apply ih present'
      intro other mem'
      split at mem'
      · exact known other mem'
      · rcases List.mem_append.mp mem' with old | new
        · exact known other old
        · cases List.mem_singleton.mp new
          exact ⟨directory, mem, isName, isDirectory⟩

theorem requiredParents_present (closed : Closed files) (part : entries ⊆ files)
    (known : ∀ other ∈ required, IsDirectory files other) :
    ∃ required', requiredParents entries required = .ok required' ∧
      ∀ other ∈ required', IsDirectory files other := by
  induction entries generalizing required with
  | nil => exact ⟨required, rfl, known⟩
  | cons entry entries ih =>
    obtain ⟨parent, isParent, present⟩ := closed entry (part List.mem_cons_self)
    obtain ⟨required', isRequired, known'⟩ :=
      addAncestors_present closed entry.name.length present known
    unfold requiredParents
    rw [isParent]
    change ∃ required', (do
      let required ← addAncestors entry.name.length parent required
      requiredParents entries required) = .ok required' ∧ _
    rw [isRequired]
    exact ih (fun other mem => part (List.mem_cons_of_mem _ mem)) known'

theorem addDirectories_present (distinct : Keyed.Distinct FileEntry.name files)
    (known : ∀ other ∈ required, IsDirectory files other) :
    addDirectories required files = .ok files := by
  induction required with
  | nil => rfl
  | cons path required ih =>
    obtain ⟨directory, mem, isName, isDirectory⟩ := known path List.mem_cons_self
    have found : find files path = some directory :=
      (Keyed.find_iff distinct).mpr ⟨mem, isName⟩
    unfold addDirectories
    rw [found]
    change (if directory.kind ≠ .directory then _ else _) = _
    rw [if_neg (not_not.mpr isDirectory)]
    exact ih fun other mem => known other (List.mem_cons_of_mem _ mem)

theorem materialize_eq (sorted : Sorted files) (closed : Closed files) :
    materializeMissingParentDirectories files = .ok files := by
  have none : ∀ other ∈ ([] : List Text), IsDirectory files other := nofun
  obtain ⟨required, isRequired, known⟩ :=
    requiredParents_present closed (List.Subset.refl files) none
  have known' : ∀ other ∈ required.insertionSort fun left right => left.bytes ≤ right.bytes,
      IsDirectory files other := by
    intro other mem
    exact known other ((List.perm_insertionSort _ _).mem_iff.mp mem)
  unfold materializeMissingParentDirectories
  rw [isRequired]
  change (do
    let entries ← addDirectories _ files
    return sortByName entries) = _
  rw [addDirectories_present sorted.distinct known']
  exact congrArg Except.ok (sortByName_of_sorted sorted)

end

section

/-- A directory in which entries can be made. -/
structure Writable (directory : FileEntry) : Prop where
  kind : directory.kind = .directory
  write : directory.permissions &&& ownerWrite ≠ 0
  execute : directory.permissions &&& ownerExecute ≠ 0

/-- The parent of the path is the root or a directory in which entries can be made. -/
def HasParent (files : List FileEntry) (path : Text) : Prop :=
  ∃ parent, parentPath path = .ok parent ∧
    (parent = root ∨ ∃ directory ∈ files, directory.name = parent ∧ Writable directory)

theorem hasParent_of_ensure (ok : ensureParentDirectory files path = .ok ()) :
    HasParent files path := by
  unfold ensureParentDirectory at ok
  cases isParent : parentPath path with
  | error stop =>
    rw [isParent] at ok
    cases ok
  | ok parent =>
    rw [isParent] at ok
    change (if parent = root then _ else _) = _ at ok
    by_cases isRoot : parent = root
    · exact ⟨parent, isParent, .inl isRoot⟩
    rw [if_neg isRoot] at ok
    cases found : find files parent with
    | none =>
      rw [found] at ok
      cases ok
    | some directory =>
      rw [found] at ok
      obtain ⟨mem, isName⟩ := Keyed.find_eq_some found
      dsimp only at ok
      split at ok
      · cases ok
      split at ok
      · cases ok
      rename_i kind permissions
      rw [not_not] at kind
      rw [not_or] at permissions
      exact ⟨parent, isParent,
        .inr ⟨directory, mem, isName, kind, permissions.2, permissions.1⟩⟩

theorem HasParent.present (has : HasParent files path) :
    ∃ parent, parentPath path = .ok parent ∧ Present files parent := by
  obtain ⟨parent, isParent, isRoot | ⟨directory, mem, isName, writable⟩⟩ := has
  · exact ⟨parent, isParent, .inl isRoot⟩
  · exact ⟨parent, isParent, .inr ⟨directory, mem, isName, writable.kind⟩⟩

end

/-- What holds of the entries of a mounted file system. -/
structure Tree (files : List FileEntry) : Prop where
  sorted : Sorted files
  names : ∀ entry ∈ files, ValidPath entry.name
  count : files.length ≤ maxFiles
  permissions : ∀ entry ∈ files, validatePermissions entry.permissions = .ok ()
  directories : ∀ entry ∈ files, entry.kind = .directory →
    entry.data = [] ∧ entry.permissions &&& ownerExecute ≠ 0
  parents : ∀ entry ∈ files, HasParent files entry.name

theorem Tree.closed (tree : Tree files) : Closed files :=
  fun entry mem => (tree.parents entry mem).present

section

open Effect

theorem validateEntry_ok (ok : validateEntry files true entry = .ok ()) :
    ValidPath entry.name ∧ validatePermissions entry.permissions = .ok () ∧
      (entry.kind = .directory → entry.data = [] ∧ entry.permissions &&& ownerExecute ≠ 0) ∧
      HasParent files entry.name := by
  unfold validateEntry at ok
  obtain ⟨⟨⟩, valid, ok⟩ := of_except_bind ok
  obtain ⟨⟨⟩, permissions, ok⟩ := of_except_bind ok
  split at ok
  · cases ok
  rename_i noData
  split at ok
  · cases ok
  rename_i execute
  rw [if_pos rfl] at ok
  refine ⟨valid, permissions, ?_, hasParent_of_ensure ok⟩
  intro isDirectory
  exact ⟨not_not.mp fun data => noData ⟨isDirectory, data⟩,
    fun none => execute ⟨isDirectory, none⟩⟩

theorem of_forM_ok {entries : List FileEntry} {check : FileEntry → Fallible Unit}
    (ok : entries.forM check = .ok ()) : ∀ entry ∈ entries, check entry = .ok () := by
  induction entries with
  | nil => exact nofun
  | cons first rest ih =>
    rw [List.forM_eq_forM, List.forM_cons] at ok
    obtain ⟨⟨⟩, here, ok⟩ := of_except_bind ok
    exact List.forall_mem_cons.mpr ⟨here, ih ok⟩

/-- A sorted list that passes the checks of the encoder is a tree. -/
theorem tree_of_validate (sorted : Sorted files) (count : files.length ≤ maxFiles)
    (ok : validateTree files true = .ok ()) : Tree files := by
  have each := of_forM_ok ok
  exact
    { sorted
      count
      names := fun entry mem => (validateEntry_ok (each entry mem)).1
      permissions := fun entry mem => (validateEntry_ok (each entry mem)).2.1
      directories := fun entry mem => (validateEntry_ok (each entry mem)).2.2.1
      parents := fun entry mem => (validateEntry_ok (each entry mem)).2.2.2 }

end

/-! ## Single edits -/

section

variable {change : FileEntry → FileEntry}

theorem sorted_update (sorted : Sorted files)
    (keepsName : ∀ entry, (change entry).name = entry.name) : Sorted (update files path change) := by
  unfold Sorted update
  rw [Keyed.map_update keepsName]
  exact sorted

/-- A list with the same names and kinds has the same directories. -/
theorem closed_of_map (closed : Closed files)
    (same : next.map (fun entry => (entry.name, entry.kind)) =
      files.map fun entry => (entry.name, entry.kind)) : Closed next := by
  have transfer {left right : List FileEntry}
      (same : left.map (fun entry => (entry.name, entry.kind)) =
        right.map fun entry => (entry.name, entry.kind)) {entry : FileEntry}
      (mem : entry ∈ left) :
      ∃ other ∈ right, other.name = entry.name ∧ other.kind = entry.kind := by
    have isMem := List.mem_map_of_mem (f := fun entry => (entry.name, entry.kind)) mem
    rw [same] at isMem
    obtain ⟨other, inside, equal⟩ := List.mem_map.mp isMem
    exact ⟨other, inside, congrArg Prod.fst equal, congrArg Prod.snd equal⟩
  intro entry mem
  obtain ⟨old, oldMem, sameName, -⟩ := transfer same mem
  obtain ⟨parent, isParent, isRoot | ⟨directory, directoryMem, isName, isDirectory⟩⟩ :=
    closed old oldMem
  · exact ⟨parent, sameName ▸ isParent, .inl isRoot⟩
  · obtain ⟨new, newMem, newName, newKind⟩ := transfer same.symm directoryMem
    exact ⟨parent, sameName ▸ isParent,
      .inr ⟨new, newMem, newName.trans isName, newKind.trans isDirectory⟩⟩

theorem closed_update (closed : Closed files)
    (keepsName : ∀ entry, (change entry).name = entry.name)
    (keepsKind : ∀ entry, (change entry).kind = entry.kind) : Closed (update files path change) := by
  apply closed_of_map closed
  apply Keyed.map_update
  intro entry
  rw [keepsName, keepsKind]

theorem mem_sortByName : entry ∈ sortByName files ↔ entry ∈ files :=
  (List.perm_insertionSort _ _).mem_iff

theorem fresh_of_find (missing : find files entry.name = none) :
    ∀ other ∈ files, other.name ≠ entry.name :=
  Keyed.find_eq_none.mp missing

theorem sorted_insert (sorted : Sorted files) (missing : find files entry.name = none) :
    Sorted (sortByName (files ++ [entry])) :=
  sorted_sortByName (Keyed.distinct_concat sorted.distinct (fresh_of_find missing))

theorem find_insert (sorted : Sorted files) (missing : find files entry.name = none) (other : Text) :
    find (sortByName (files ++ [entry])) other =
      if other = entry.name then some entry else find files other := by
  unfold find sortByName
  rw [Keyed.find_insertionSort (Keyed.distinct_concat sorted.distinct (fresh_of_find missing))]
  exact Keyed.find_concat (fresh_of_find missing)

theorem closed_insert (closed : Closed files) (isParent : parentPath entry.name = .ok parent)
    (present : Present files parent) :
    Closed (sortByName (files ++ [entry])) := by
  have grows {path : Text} (present : Present files path) :
      Present (sortByName (files ++ [entry])) path := by
    refine present.imp_right ?_
    rintro ⟨directory, mem, isDirectory⟩
    exact ⟨directory, mem_sortByName.mpr (List.mem_append_left _ mem), isDirectory⟩
  intro other mem
  rcases List.mem_append.mp (mem_sortByName.mp mem) with old | new
  · obtain ⟨parent, isParent, present⟩ := closed other old
    exact ⟨parent, isParent, grows present⟩
  · cases List.mem_singleton.mp new
    exact ⟨parent, isParent, grows present⟩

theorem sorted_eraseIdx (sorted : Sorted files) (index : Nat) : Sorted (files.eraseIdx index) :=
  List.Pairwise.sublist ((List.eraseIdx_sublist files index).map _) sorted

/-- An entry that is no parent may go. -/
theorem closed_eraseIdx (closed : Closed files) (sorted : Sorted files)
    (at_ : files[index]? = some entry)
    (noParent : ∀ other ∈ files, parentPath other.name ≠ .ok entry.name) :
    Closed (files.eraseIdx index) := by
  intro other mem
  have old := (List.eraseIdx_sublist files index).subset mem
  obtain ⟨parent, isParent, present⟩ := closed other old
  refine ⟨parent, isParent, present.imp_right ?_⟩
  rintro ⟨directory, inside, isName, isDirectory⟩
  have different : directory.name ≠ entry.name := by
    intro same
    apply noParent other old
    rw [isParent, ← isName, same]
  have found : Keyed.find FileEntry.name (files.eraseIdx index) directory.name = some directory := by
    rw [Keyed.find_eraseIdx sorted.distinct at_, if_neg different]
    exact (Keyed.find_iff sorted.distinct).mpr ⟨inside, rfl⟩
  exact ⟨directory, (Keyed.find_eq_some found).1, isName, isDirectory⟩

end

end CodexOS.Filesystem
