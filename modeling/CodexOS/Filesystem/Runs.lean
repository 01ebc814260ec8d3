import CodexOS.Filesystem.Format

/-! # Orderly runs

In a run whose operations return, the disk holds two versions: the current one, and
the one before it in the other superblock sector. Nothing waits in the cache.
-/

namespace CodexOS.Filesystem

open Bytes Block BlockDevice Effect Word64

/-- Formatting, then operations that return, and remounts with all reads served. The history lists
    what was committed, the newest first. -/
inductive Run (count : Nat) : CodexFs Disk → List (List FileEntry) → Prop
  | format {filesystem : CodexFs Disk}
      (formatted : mountOrFormat (Disk.blank count) = .ok filesystem) :
      Run count filesystem [filesystem.files]
  | operate {filesystem filesystem' : CodexFs Disk} {history : List (List FileEntry)}
      {operation : Operation} {plan : List Fate} (run : Run count filesystem history)
      (returned : operation.perform.run (filesystem.withPlan plan) = .ok () filesystem') :
      Run count filesystem'
        (if filesystem'.generation = filesystem.generation then history
        else filesystem'.files :: history)
  | remount {filesystem filesystem' filesystem'' : CodexFs Disk}
      {history : List (List FileEntry)} {plan : List Fate} (run : Run count filesystem history)
      (unmounted : unmount.run (filesystem.withPlan plan) = .ok () filesystem')
      (mounted : mountOrFormat { filesystem'.device with plan := [] } = .ok filesystem'') :
      Run count filesystem'' history

/-- The version before the current one, or the empty sector if there was none. -/
def Backed (count : Nat) (image : Nat → Sector) (version : Version) :
    List (List FileEntry) → Prop
  | [] => image (superSector (version.superblock.generation + 1)) = .filled 0
  | files :: _ => ∃ previous : Version, previous.files = files ∧ previous.Valid count ∧
      previous.Stored image ∧
      previous.superblock.generation + 1 = version.superblock.generation ∧
      Apart version.superblock.recordStart version.superblock.recordSectors
        previous.superblock.recordStart previous.superblock.recordSectors

/-- The disk holds the current version and the one before it. -/
structure Orderly (count : Nat) (filesystem : CodexFs Disk) (history : List (List FileEntry)) :
    Prop where
  flushed : filesystem.device.medium.pending = []
  current : ∃ version older, Active count filesystem version ∧
    version.Stored filesystem.device.medium.contents ∧ history = version.files :: older ∧
    Backed count filesystem.device.medium.contents version older

section

variable {count : Nat} {filesystem filesystem' : CodexFs Disk} {history older : List (List FileEntry)}
  {version : Version} {image : Nat → Sector}

theorem Backed.outdated (backed : Backed count image version older) :
    Outdated count version.superblock.generation
      (image (superSector (version.superblock.generation + 1))) := by
  cases older with
  | nil =>
    change image _ = _ at backed
    rw [backed]
    exact outdated_zero _
  | cons files older =>
    obtain ⟨previous, -, valid, stored, next, -⟩ := backed
    have sector : superSector (version.superblock.generation + 1) =
        superSector previous.superblock.generation := by
      rw [← next, superSector_add_two]
    intro superblock decoded
    rw [sector, stored.superblock, decodeSuperblock_encodeSuperblock valid.superblock] at decoded
    cases decoded
    omega

theorem untouched_current (active : Active count filesystem version)
    (ready : prepared.Ready filesystem files) :
    Untouched (Current count version) prepared :=
  (untouched_stored ready active).and (untouched_sector ready _ _)

theorem active_committed (ready : prepared.Ready filesystem files) (sorted : Sorted files)
    (size : filesystem.device.count = count) (count_lt : count < Word64.size)
    (isCount : device.count = count) :
    Active count { filesystem.committed prepared device with files }
      (prepared.version count files) where
  size := isCount
  valid := ready.valid sorted size count_lt
  files := rfl
  generation := rfl
  start := rfl
  sectors := rfl

theorem orderly_commit (count_lt : count < Word64.size) (orderly : Orderly count filesystem history)
    (sorted : Sorted files) (commits : Commits filesystem files (.ok () filesystem')) :
    Orderly count { filesystem' with files } (files :: history) ∧
      filesystem'.generation = filesystem.generation + 1 := by
  obtain ⟨version, older, active, stored, rfl, backed⟩ := orderly.current
  have every : filesystem.device.medium.Every (Current count version) :=
    Medium.every_of_flushed orderly.flushed ⟨stored, backed.outdated⟩
  obtain ⟨prepared, device, isPrepared, rfl, isCount, flushed, landed⟩ :=
    commits.of_ok active.size (fun _ => untouched_current active) every
  have ready := prepare_ok isPrepared
  have next : prepared.generation = version.superblock.generation + 1 := by
    rw [ready.generation, active.generation]
  have apart := ready.free.apart (by
    rw [active.sectors]
    exact active.valid.superblock.sectors)
  rw [active.start, active.sectors] at apart
  refine ⟨⟨flushed, prepared.version count files, version.files :: older,
    active_committed ready sorted active.size count_lt isCount, landed.stored ready, rfl,
    version, rfl, active.valid, ?_, next.symm, apart⟩, ready.generation⟩
  exact landed.keeps active.valid next fun _ current => current.1

theorem format_committed (room : 136 ≤ count)
    (formatted : mountOrFormat (Disk.blank count) = .ok filesystem) :
    ∃ prepared device, prepare (unformatted (Disk.blank count)) [] = .ok prepared ∧
      filesystem = (unformatted (Disk.blank count)).committed prepared device ∧
      device.count = count ∧ device.medium.pending = [] ∧
      Landed (fun image => image (superSector 2) = .filled 0) prepared count
        device.medium.contents := by
  rw [mountOrFormat_blank room] at formatted
  have commits := commitFiles_commits (unformatted (Disk.blank count)) []
  cases run : (commitFiles []).run (unformatted (Disk.blank count)) with
  | error stop failed =>
    rw [run] at formatted
    cases formatted
  | ok value filesystem' =>
    rw [run] at formatted commits
    cases formatted
    have every : (unformatted (Disk.blank count)).device.medium.Every
        fun image => image (superSector 2) = .filled 0 :=
      Medium.every_of_flushed rfl rfl
    exact commits.of_ok rfl (fun _ ready => untouched_sector ready 2 (· = .filled 0)) every

theorem orderly_format (count_lt : count < Word64.size) (room : 136 ≤ count)
    (formatted : mountOrFormat (Disk.blank count) = .ok filesystem) :
    Orderly count filesystem [filesystem.files] := by
  obtain ⟨prepared, device, isPrepared, rfl, isCount, flushed, landed⟩ :=
    format_committed room formatted
  have ready := prepare_ok isPrepared
  have sorted : Sorted [] := List.Pairwise.nil
  have first : prepared.generation = 1 := ready.generation
  refine ⟨flushed, prepared.version count [], [],
    active_committed ready sorted rfl count_lt isCount, landed.stored ready, rfl, ?_⟩
  obtain ⟨old, zero, -, isImage⟩ := landed
  change device.medium.contents (superSector (prepared.generation + 1)) = _
  rw [isImage, Function.update_of_ne (superSector_succ_ne _), first]
  exact zero

theorem selectFrom_device {device : Disk} {generation sectors attempt left : Nat}
    (same : device.count = filesystem.device.count) :
    selectFrom { filesystem with device } generation sectors attempt left =
      selectFrom filesystem generation sectors attempt left := by
  have sameCount : sectorCount device = sectorCount filesystem.device := same
  induction left generalizing attempt with
  | zero => rfl
  | succ left ih =>
    unfold selectFrom
    simp only [ih, sameCount]

theorem prepare_device {device : Disk} (files : List FileEntry)
    (same : device.count = filesystem.device.count) :
    prepare { filesystem with device } files = prepare filesystem files := by
  unfold prepare selectRecordStart
  simp only [selectFrom_device same]

theorem prepare_withPlan (files : List FileEntry) (plan : List Fate) :
    prepare (filesystem.withPlan plan) files = prepare filesystem files :=
  prepare_device files rfl

theorem Active.withPlan (active : Active count filesystem version) (plan : List Fate) :
    Active count (filesystem.withPlan plan) version where
  size := active.size
  valid := active.valid
  files := active.files
  generation := active.generation
  start := active.start
  sectors := active.sectors

theorem Orderly.withPlan (orderly : Orderly count filesystem history) (plan : List Fate) :
    Orderly count (filesystem.withPlan plan) history := by
  obtain ⟨version, older, active, stored, isHistory, backed⟩ := orderly.current
  exact ⟨orderly.flushed, version, older, active.withPlan plan, stored, isHistory, backed⟩

theorem Orderly.tree (orderly : Orderly count filesystem history) : Tree filesystem.files := by
  obtain ⟨version, -, active, -⟩ := orderly.current
  rw [active.files]
  exact active.valid.tree

theorem orderly_perform (count_lt : count < Word64.size)
    (orderly : Orderly count filesystem history)
    (performs : Performs filesystem operation (.ok () filesystem')) :
    Orderly count filesystem' (if filesystem'.generation = filesystem.generation then history
      else filesystem'.files :: history) := by
  cases performs with
  | unchanged same =>
    rw [if_pos rfl]
    exact orderly
  | @committed next filesystem' isNext commits =>
    have sorted := (Operation.next_maps orderly.tree isNext).sorted
    obtain ⟨orderly', generation⟩ := orderly_commit count_lt orderly sorted commits
    rw [if_neg]
    · exact orderly'
    · change filesystem'.generation ≠ _
      omega

theorem unmount_ok (ok : unmount.run filesystem = .ok () filesystem') :
    filesystem'.device.count = filesystem.device.count ∧
      filesystem'.device.medium = filesystem.device.medium.flush := by
  obtain ⟨⟨size, medium, plan⟩, _, _, _, _, _, _, _⟩ := filesystem
  rcases plan with _ | ⟨_ | error | error, plan⟩
  · cases ok
    exact ⟨rfl, rfl⟩
  · cases ok
    exact ⟨rfl, rfl⟩
  · cases ok
  · cases ok

theorem active_mounted (isCount : disk.count = count) (valid : version.Valid count) :
    Active count (mounted disk { superblock := version.superblock, files := version.files })
      version where
  size := isCount
  valid
  files := rfl
  generation := rfl
  start := rfl
  sectors := rfl

theorem Run.orderly (count_lt : count < Word64.size) (room : 136 ≤ count)
    (run : Run count filesystem history) : Orderly count filesystem history := by
  induction run with
  | format formatted => exact orderly_format count_lt room formatted
  | @operate filesystem filesystem' history operation plan run returned ih =>
    have performs := perform_performs (filesystem.withPlan plan) operation
    rw [returned] at performs
    have kept := orderly_perform count_lt (ih.withPlan plan) performs
    exact kept
  | @remount filesystem filesystem' filesystem'' history plan run unmounted isMounted ih =>
    obtain ⟨version, older, active, stored, isHistory, backed⟩ := ih.current
    obtain ⟨size, medium⟩ := unmount_ok unmounted
    have isCount : filesystem'.device.count = count := size.trans active.size
    have contents : filesystem'.device.medium.contents = filesystem.device.medium.contents := by
      rw [medium]
      rfl
    rw [← contents] at stored backed
    have found := stored.latest_eq active.valid backed.outdated
    rw [← isCount] at found
    have mount : mountOrFormat { filesystem'.device with plan := [] } = .ok (mounted
        { filesystem'.device with plan := [] }
        { superblock := version.superblock, files := version.files }) :=
      mountOrFormat_of_latest (isCount ▸ room) rfl found
    rw [mount] at isMounted
    cases isMounted
    refine ⟨?_, version, older, active_mounted isCount active.valid, stored, isHistory, backed⟩
    change filesystem'.device.medium.pending = []
    rw [medium]
    rfl

theorem Run.room (run : Run count filesystem history) : 136 ≤ count := by
  induction run with
  | format formatted =>
    by_contra small
    rw [@mountOrFormat_small (Disk.blank count) small] at formatted
    cases formatted
  | operate run returned ih => exact ih
  | remount run unmounted isMounted ih => exact ih

end

end CodexOS.Filesystem
