import CodexOS.Filesystem.Commit
import CodexOS.Filesystem.Operations

/-! # One operation

Every operation computes a new list from the entries and commits it. What it can
do to the file system is therefore the same for all of them: nothing, or the calls
of one commit.
-/

namespace CodexOS.Filesystem

open Bytes Block BlockDevice Effect

/-- The list an operation wants to commit. -/
def Operation.next (files : List FileEntry) : Operation → Fallible (List FileEntry)
  | .writeFile path data => writeFileEntries files path data none
  | .writeFileWithPermissions path data permissions => do
    validatePermissions permissions
    writeFileEntries files path data (some permissions)
  | .createDir path permissions => createDirEntries files path permissions
  | .createDirAll path permissions => createDirAllEntries files path permissions
  | .setPermissions path permissions => setPermissionsEntries files path permissions
  | .removeFile path => removeFileEntries files path
  | .removeDir path => removeDirEntries files path

/-- The map an operation is for, from paths to entries. -/
def Operation.mapped (files : List FileEntry) : Operation → Text → Option FileEntry
  | .writeFile path data => replaced files path (some (writtenEntry files path data none))
  | .writeFileWithPermissions path data permissions =>
    replaced files path (some (writtenEntry files path data (some permissions)))
  | .createDir path permissions => replaced files path (some (newDirectory path permissions))
  | .createDirAll path permissions => withDirectories files path permissions (prefixes path)
  | .setPermissions path permissions =>
    replaced files path ((find files path).map fun entry => { entry with permissions })
  | .removeFile path => replaced files path none
  | .removeDir path => replaced files path none

section

variable {files next : List FileEntry} {operation : Operation}

theorem Operation.next_maps (tree : Tree files) (ok : operation.next files = .ok next) :
    Maps next (operation.mapped files) := by
  cases operation with
  | writeFile path data => exact writeFileEntries_maps tree ok
  | writeFileWithPermissions path data permissions =>
    obtain ⟨-, -, ok⟩ := of_except_bind ok
    exact writeFileEntries_maps tree ok
  | createDir path permissions => exact createDirEntries_maps tree ok
  | createDirAll path permissions => exact createDirAllEntries_maps tree ok
  | setPermissions path permissions =>
    obtain ⟨entry, found, maps⟩ := setPermissionsEntries_maps tree ok
    rw [Operation.mapped, found]
    exact maps
  | removeFile path => exact removeFileEntries_maps tree ok
  | removeDir path => exact removeDirEntries_maps tree ok

end

/-! ## What an operation can do -/

section

variable {filesystem : CodexFs Disk} {operation : Operation}

theorem onDevice_ok {filesystem : CodexFs δ} (run : x.run filesystem.device = .ok a device) :
    (onDevice x).run filesystem = .ok a { filesystem with device } := by
  change onDevice x filesystem = _
  rw [onDevice, run]

theorem onDevice_error {filesystem : CodexFs δ} (run : x.run filesystem.device = .error stop device) :
    (onDevice x).run filesystem = .error stop { filesystem with device } := by
  change onDevice x filesystem = _
  rw [onDevice, run]

/-- The file system after a commit that was served. -/
def CodexFs.committed (filesystem : CodexFs Disk) (prepared : Prepared) (device : Disk) :
    CodexFs Disk :=
  { filesystem with
    device
    generation := prepared.generation
    activeRecordStart := prepared.recordStart
    activeRecordSectors := prepared.recordSectors }

/-- The ways a commit can end. -/
inductive Commits (filesystem : CodexFs Disk) (files : List FileEntry) :
    EStateM.Result Stop (CodexFs Disk) Unit → Prop
  | rejected {stop : Stop} (error : prepare filesystem files = .error stop) :
      Commits filesystem files (.error stop filesystem)
  | failed {prepared : Prepared} {stop : Stop} {device : Disk}
      (ready : prepare filesystem files = .ok prepared)
      (run : (storeSnapshot prepared).run filesystem.device = .error stop device) :
      Commits filesystem files (.error stop { filesystem with device })
  | stored {prepared : Prepared} {device : Disk}
      (ready : prepare filesystem files = .ok prepared)
      (run : (storeSnapshot prepared).run filesystem.device = .ok () device) :
      Commits filesystem files (.ok () (filesystem.committed prepared device))

theorem commitFiles_commits (filesystem : CodexFs Disk) (files : List FileEntry) :
    Commits filesystem files ((commitFiles files).run filesystem) := by
  unfold commitFiles
  rw [run_get_bind]
  cases ready : prepare filesystem files with
  | error stop => exact .rejected ready
  | ok prepared =>
    rw [lift_ok_bind]
    cases run : (storeSnapshot prepared).run filesystem.device with
    | ok value device =>
      rw [bind_ok (onDevice_ok run)]
      exact .stored ready run
    | error stop device =>
      rw [bind_error (onDevice_error run)]
      exact .failed ready run

/-- The ways an operation can end. -/
inductive Performs (filesystem : CodexFs Disk) (operation : Operation) :
    EStateM.Result Stop (CodexFs Disk) Unit → Prop
  | invalid {stop : Stop} (error : operation.next filesystem.files = .error stop) :
      Performs filesystem operation (.error stop filesystem)
  | unchanged (same : operation.next filesystem.files = .ok filesystem.files) :
      Performs filesystem operation (.ok () filesystem)
  | refused {next : List FileEntry} {stop : Stop} {filesystem' : CodexFs Disk}
      (isNext : operation.next filesystem.files = .ok next)
      (commits : Commits filesystem next (.error stop filesystem')) :
      Performs filesystem operation (.error stop filesystem')
  | committed {next : List FileEntry} {filesystem' : CodexFs Disk}
      (isNext : operation.next filesystem.files = .ok next)
      (commits : Commits filesystem next (.ok () filesystem')) :
      Performs filesystem operation (.ok () { filesystem' with files := next })

theorem replaceFiles_performs (isNext : operation.next filesystem.files = .ok next) :
    Performs filesystem operation ((replaceFiles next).run filesystem) := by
  have commits := commitFiles_commits filesystem next
  unfold replaceFiles
  cases run : (commitFiles next).run filesystem with
  | ok value filesystem' =>
    rw [run] at commits
    rw [bind_ok run]
    exact .committed isNext commits
  | error stop filesystem' =>
    rw [run] at commits
    rw [bind_error run]
    exact .refused isNext commits

theorem run_lift_ok (ok : x = .ok a) :
    (lift x).run state = .ok a state := by
  rw [ok]
  rfl

/-- The operations that commit only a change. -/
def Operation.skipsUnchanged : Operation → Bool
  | .createDir .. | .createDirAll .. | .setPermissions .. => true
  | _ => false

/-- Every operation computes its list and stores it. -/
theorem perform_eq (filesystem : CodexFs Disk) (operation : Operation) :
    operation.perform.run filesystem = (lift (operation.next filesystem.files) >>= fun next =>
      if operation.skipsUnchanged = true ∧ next = filesystem.files then pure ()
      else replaceFiles next).run filesystem := by
  have stored (entries : Fallible (List FileEntry)) :
      (lift entries >>= replaceFiles).run filesystem = (lift entries >>= fun next =>
        if false = true ∧ next = filesystem.files then pure ()
        else replaceFiles next).run filesystem := by
    simp
  have changed (entries : Fallible (List FileEntry)) :
      (lift entries >>= replaceIfChanged).run filesystem = (lift entries >>= fun next =>
        if true = true ∧ next = filesystem.files then pure ()
        else replaceFiles next).run filesystem := by
    cases entries with
    | error stop => rfl
    | ok next =>
      change (if next ≠ filesystem.files then replaceFiles next else pure ()).run filesystem =
        (if true = true ∧ next = filesystem.files then pure () else replaceFiles next).run filesystem
      by_cases same : next = filesystem.files <;> simp [same]
  cases operation with
  | writeFile path data => exact stored _
  | writeFileWithPermissions path data permissions =>
    rw [Operation.next]
    cases valid : validatePermissions permissions with
    | error stop => exact bind_error (by rw [valid]; rfl)
    | ok value => exact (bind_ok (run_lift_ok valid)).trans (stored _)
  | createDir path permissions => exact changed _
  | createDirAll path permissions => exact changed _
  | setPermissions path permissions => exact changed _
  | removeFile path => exact stored _
  | removeDir path => exact stored _

theorem perform_performs (filesystem : CodexFs Disk) (operation : Operation) :
    Performs filesystem operation (operation.perform.run filesystem) := by
  rw [perform_eq]
  cases isNext : operation.next filesystem.files with
  | error stop => exact .invalid isNext
  | ok next =>
    rw [bind_ok (run_lift_ok rfl)]
    split
    · rename_i same
      exact .unchanged (same.2 ▸ isNext)
    · exact replaceFiles_performs isNext

end

end CodexOS.Filesystem
