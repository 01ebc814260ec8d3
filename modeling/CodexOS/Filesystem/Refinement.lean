import CodexOS.Filesystem.Runs

/-! # The file system as a map

Here device calls may fail at any time, and the power may go at any time. Whatever
happens, the entries in memory are a tree, an operation that returns changes the map
as its name says, and one that fails for a reason of its own changes nothing.

After commits that the device failed, a superblock can stand on the disk whose record
was overwritten since. A mount then relies on checksums: `NoCollision` says that they
tell the bytes that were written from others. No mount of a tidy disk needs it.
-/

namespace CodexOS.Filesystem

open Bytes Block BlockDevice Effect Word64

/-- The version a commit writes, if it gets as far as writing. -/
def attempted (filesystem : CodexFs Disk) (next : Fallible (List FileEntry)) : List Version :=
  match next with
  | .error _ => []
  | .ok files =>
    match prepare filesystem files with
    | .error _ => []
    | .ok prepared => [prepared.version filesystem.device.count files]

/-- Where a record was written there are no other bytes with its checksum. -/
def NoCollision (written : List Version) (image : Nat → Sector) : Prop :=
  ∀ version ∈ written,
    crc32 (gather image version.superblock.recordStart version.superblock.recordSectors) =
      crc32 version.record →
    gather image version.superblock.recordStart version.superblock.recordSectors = version.record

/-- Formatting, and then anything: operations and mounts with calls that fail, and power failures.
    The list has all versions ever written. The flag says that no commit has failed on the device
    since the last one that returned, and that no mount since then had reads that may fail. -/
inductive Reaches (count : Nat) : CodexFs Disk → List Version → Bool → Prop
  | format {filesystem : CodexFs Disk}
      (formatted : mountOrFormat (Disk.blank count) = .ok filesystem) :
      Reaches count filesystem (attempted (unformatted (Disk.blank count)) (.ok [])) true
  | returned {filesystem filesystem' : CodexFs Disk} {written : List Version} {tidy : Bool}
      {operation : Operation} {plan : List Fate} (run : Reaches count filesystem written tidy)
      (ok : operation.perform.run (filesystem.withPlan plan) = .ok () filesystem') :
      Reaches count filesystem' (attempted filesystem (operation.next filesystem.files) ++ written)
        (tidy || filesystem'.generation ≠ filesystem.generation)
  | rejected {filesystem filesystem' : CodexFs Disk} {written : List Version} {tidy : Bool}
      {operation : Operation} {plan : List Fate} {stop : Stop}
      (run : Reaches count filesystem written tidy)
      (error : operation.perform.run (filesystem.withPlan plan) = .error stop filesystem')
      (own : ¬DeviceError stop) : Reaches count filesystem' written tidy
  | failed {filesystem filesystem' : CodexFs Disk} {written : List Version} {tidy : Bool}
      {operation : Operation} {plan : List Fate} {stop : Stop}
      (run : Reaches count filesystem written tidy)
      (error : operation.perform.run (filesystem.withPlan plan) = .error stop filesystem') :
      Reaches count filesystem' (attempted filesystem (operation.next filesystem.files) ++ written)
        false
  | verified {filesystem : CodexFs Disk} {written : List Version} {tidy : Bool} {plan : List Fate}
      (run : Reaches count filesystem written tidy) :
      Reaches count (after verifyCommittedState (filesystem.withPlan plan)) written tidy
  | remount {filesystem filesystem' filesystem'' : CodexFs Disk} {written : List Version}
      {tidy : Bool} {plan plan' : List Fate} (run : Reaches count filesystem written tidy)
      (unmounted : unmount.run (filesystem.withPlan plan) = .ok () filesystem')
      (trusted : tidy = true ∧ plan' = [] ∨
        NoCollision written filesystem'.device.medium.contents)
      (mounted : mountOrFormat { filesystem'.device with plan := plan' } = .ok filesystem'') :
      Reaches count filesystem'' written (tidy && plan'.isEmpty)
  | restart {filesystem filesystem' : CodexFs Disk} {written : List Version} {tidy : Bool}
      {image : Nat → Sector} {plan : List Fate} (run : Reaches count filesystem written tidy)
      (survives : filesystem.device.medium.Survives image)
      (trusted : tidy = true ∧ plan = [] ∨ NoCollision written image)
      (mounted : mountOrFormat { Disk.restart count image with plan } = .ok filesystem') :
      Reaches count filesystem' written (tidy && plan.isEmpty)

/-! ## What is on the disk -/

/-- A superblock sector is blank, or has the superblock of a version that was written. -/
def Accounted (written : List Version) (image : Nat → Sector) : Prop :=
  ∀ number, number = superblockASector ∨ number = superblockBSector → image number = .filled 0 ∨
    ∃ version ∈ written, number = superSector version.superblock.generation ∧
      image number = encodeSuperblock version.superblock

/-- The active version is stored, the superblocks are accounted for, and on a tidy disk nothing is
    newer. -/
structure Sighted (count : Nat) (written : List Version) (tidy : Bool) (version : Version)
    (image : Nat → Sector) : Prop where
  stored : version.Stored image
  accounted : Accounted written image
  outdated : tidy = true → Outdated count version.superblock.generation
    (image (superSector (version.superblock.generation + 1)))

/-- What all reachable states keep. -/
structure Kept (count : Nat) (filesystem : CodexFs Disk) (written : List Version) (tidy : Bool) :
    Prop where
  valid : ∀ version ∈ written, version.Valid count
  current : ∃ version, Active count filesystem version ∧
    filesystem.device.medium.Every (Sighted count written tidy version)

section

variable {count : Nat} {filesystem : CodexFs Disk} {written : List Version} {tidy : Bool}
  {version : Version} {image : Nat → Sector} {prepared : Prepared} {files : List FileEntry}

theorem Accounted.mono (accounted : Accounted written image) (sub : written ⊆ more) :
    Accounted more image := by
  intro number isSuper
  refine (accounted number isSuper).imp_right ?_
  rintro ⟨version, mem, isNumber, isSector⟩
  exact ⟨version, sub mem, isNumber, isSector⟩

theorem untouched_accounted (ready : prepared.Ready filesystem files) :
    Untouched (Accounted written) prepared := by
  intro image offset sector inside accounted number isSuper
  have area : 8 ≤ prepared.recordStart := ready.free.area
  have low : number < 8 := by
    rcases isSuper with rfl | rfl <;> decide
  rw [Function.update_of_ne (by omega)]
  exact accounted number isSuper

theorem untouched_sighted (active : Active count filesystem version)
    (ready : prepared.Ready filesystem files) :
    Untouched (Sighted count written tidy version) prepared := by
  intro image offset sector inside sighted
  constructor
  · exact untouched_stored ready active image offset sector inside sighted.stored
  · exact untouched_accounted ready image offset sector inside sighted.accounted
  · intro isTidy
    exact untouched_sector ready _ (Outdated count version.superblock.generation) image offset
      sector inside (sighted.outdated isTidy)

theorem Landed.accounted (landed : Landed property prepared count image)
    (accounted : ∀ image, property image → Accounted written image) :
    Accounted (prepared.version count files :: written) image := by
  obtain ⟨old, holds, -, rfl⟩ := landed
  intro number isSuper
  by_cases same : number = superSector prepared.generation
  · rw [same, Function.update_self]
    exact .inr ⟨_, List.mem_cons_self, rfl, rfl⟩
  · rw [Function.update_of_ne same]
    exact (accounted old holds).mono (List.subset_cons_self _ _) number isSuper

theorem Landed.sighted (landed : Landed (Sighted count written tidy version) prepared count image)
    (active : Active count filesystem version) (ready : prepared.Ready filesystem files) :
    Sighted count (prepared.version count files :: written) true (prepared.version count files)
      image := by
  have current := landed.current active ready fun _ sighted => sighted.stored
  exact ⟨current.1, landed.accounted fun _ sighted => sighted.accounted, fun _ => current.2⟩

theorem attempted_eq (isPrepared : prepare filesystem files = .ok prepared)
    (size : filesystem.device.count = count) :
    attempted filesystem (.ok files) = [prepared.version count files] := by
  simp only [attempted, isPrepared, size]

theorem attempted_withPlan (plan : List Fate) (next : Fallible (List FileEntry)) :
    attempted (filesystem.withPlan plan) next = attempted filesystem next := by
  unfold attempted
  simp only [prepare_withPlan]
  rfl

end

/-! ## Steps -/

section

variable {count : Nat} {filesystem filesystem' : CodexFs Disk} {written : List Version} {tidy : Bool}
  {version : Version} {image : Nat → Sector} {operation : Operation} {stop : Stop}

section

variable (kept : Kept count filesystem written tidy)

include kept

theorem Kept.tree : Tree filesystem.files := by
  obtain ⟨version, active, -⟩ := kept.current
  rw [active.files]
  exact active.valid.tree

theorem Kept.withPlan (plan : List Fate) : Kept count (filesystem.withPlan plan) written tidy := by
  obtain ⟨version, active, every⟩ := kept.current
  exact ⟨kept.valid, version, active.withPlan plan, every⟩

theorem Kept.weaken (valid : ∀ version ∈ more, version.Valid count) (sub : written ⊆ more)
    (less : tidy' = true → tidy = true) : Kept count filesystem more tidy' := by
  obtain ⟨version, active, every⟩ := kept.current
  refine ⟨valid, version, active, every.imp fun image sighted => ?_⟩
  exact ⟨sighted.stored, sighted.accounted.mono sub, fun isTidy => sighted.outdated (less isTidy)⟩

end

theorem Kept.attempted_valid (count_lt : count < Word64.size)
    (kept : Kept count filesystem written tidy) (operation : Operation) :
    ∀ version ∈ attempted filesystem (operation.next filesystem.files) ++ written,
      version.Valid count := by
  intro version mem
  rcases List.mem_append.mp mem with new | old
  · obtain ⟨current, active, -⟩ := kept.current
    cases isNext : operation.next filesystem.files with
    | error stop =>
      rw [isNext] at new
      cases new
    | ok next =>
      rw [isNext] at new
      cases isPrepared : prepare filesystem next with
      | error stop =>
        simp only [attempted, isPrepared] at new
        cases new
      | ok prepared =>
        rw [attempted_eq isPrepared active.size] at new
        cases List.mem_singleton.mp new
        exact (prepare_ok isPrepared).valid (Operation.next_maps kept.tree isNext).sorted
          active.size count_lt
  · exact kept.valid version old

theorem kept_format (count_lt : count < Word64.size) (room : 136 ≤ count)
    (formatted : mountOrFormat (Disk.blank count) = .ok filesystem) :
    Kept count filesystem (attempted (unformatted (Disk.blank count)) (.ok [])) true := by
  obtain ⟨prepared, device, isPrepared, rfl, isCount, flushed, landed⟩ :=
    format_committed room formatted
  have ready := prepare_ok isPrepared
  have sorted : Sorted [] := List.Pairwise.nil
  have first : prepared.generation = 1 := ready.generation
  have zero : device.medium.contents (superSector (prepared.generation + 1)) = .filled 0 := by
    obtain ⟨old, zero, -, isImage⟩ := landed
    rw [isImage, Function.update_of_ne (superSector_succ_ne _), first]
    exact zero
  have stored := landed.stored ready
  rw [attempted_eq isPrepared rfl]
  refine ⟨?_, prepared.version count [], active_committed ready sorted rfl count_lt isCount,
    Medium.every_of_flushed flushed ⟨stored, ?_, ?_⟩⟩
  · intro version mem
    cases List.mem_singleton.mp mem
    exact ready.valid sorted rfl count_lt
  · intro number isSuper
    rcases superSector_cases prepared.generation isSuper with rfl | rfl
    · exact .inr ⟨_, List.mem_cons_self, rfl, stored.superblock⟩
    · exact .inl zero
  · intro _
    change Outdated count _ (device.medium.contents (superSector (prepared.generation + 1)))
    rw [zero]
    exact outdated_zero _

theorem kept_returned (count_lt : count < Word64.size)
    (kept : Kept count filesystem written tidy)
    (performs : Performs filesystem operation (.ok () filesystem')) :
    Kept count filesystem' (attempted filesystem (operation.next filesystem.files) ++ written)
      (tidy || filesystem'.generation ≠ filesystem.generation) := by
  have valid := kept.attempted_valid count_lt operation
  cases performs with
  | unchanged same =>
    apply kept.weaken valid (List.subset_append_right _ _)
    simp
  | @committed next filesystem' isNext commits =>
    obtain ⟨version, active, every⟩ := kept.current
    obtain ⟨prepared, device, isPrepared, rfl, isCount, flushed, landed⟩ :=
      commits.of_ok active.size (fun _ => untouched_sighted active) every
    have ready := prepare_ok isPrepared
    have sorted := (Operation.next_maps kept.tree isNext).sorted
    have sighted := landed.sighted active ready
    rw [isNext, attempted_eq isPrepared active.size] at valid ⊢
    refine ⟨valid, prepared.version count next,
      active_committed ready sorted active.size count_lt isCount,
      Medium.every_of_flushed flushed ?_⟩
    exact ⟨sighted.stored, sighted.accounted, fun _ => sighted.outdated rfl⟩

/-- An operation that fails for a reason of its own changes nothing. -/
theorem unchanged_of_own (performs : Performs filesystem operation (.error stop filesystem'))
    (own : ¬DeviceError stop) : filesystem' = filesystem := by
  cases performs with
  | invalid error => rfl
  | refused isNext commits =>
    have every : filesystem.device.medium.Every fun _ => True := fun _ _ => trivial
    rcases commits.of_error rfl (fun _ _ _ _ _ _ _ => trivial) every with
      same | ⟨prepared, device, isPrepared, isState, torn⟩
    · exact same
    · exact absurd torn.1 own

theorem kept_failed (count_lt : count < Word64.size) (kept : Kept count filesystem written tidy)
    (performs : Performs filesystem operation (.error stop filesystem')) :
    Kept count filesystem' (attempted filesystem (operation.next filesystem.files) ++ written)
      false := by
  have valid := kept.attempted_valid count_lt operation
  have nothing : Kept count filesystem
      (attempted filesystem (operation.next filesystem.files) ++ written) false :=
    kept.weaken valid (List.subset_append_right _ _) nofun
  cases performs with
  | invalid error => exact nothing
  | @refused next _ _ isNext commits =>
    obtain ⟨version, active, every⟩ := kept.current
    rcases commits.of_error active.size (fun _ => untouched_sighted active) every with
      rfl | ⟨prepared, device, isPrepared, rfl, -, isCount, torn⟩
    · exact nothing
    · have ready := prepare_ok isPrepared
      have next : prepared.generation = version.superblock.generation + 1 := by
        rw [ready.generation, active.generation]
      rw [isNext, attempted_eq isPrepared active.size] at valid ⊢
      refine ⟨valid, version, ⟨isCount, active.valid, active.files, active.generation,
        active.start, active.sectors⟩, torn.imp fun image => ?_⟩
      rintro (old | landed)
      · exact ⟨old.stored, old.accounted.mono (List.subset_cons_self _ _), nofun⟩
      · exact ⟨landed.keeps active.valid next fun _ sighted => sighted.stored,
          landed.accounted fun _ sighted => sighted.accounted, nofun⟩

/-- A snapshot that was loaded is a version that was written, if the checksums can be trusted. -/
theorem version_of_candidate (valid : ∀ version ∈ written, version.Valid count)
    (accounted : Accounted written image)
    (isSuper : number = superblockASector ∨ number = superblockBSector)
    (found : candidate count image number = some snapshot) :
    ∃ version ∈ written, number = superSector version.superblock.generation ∧
      image number = encodeSuperblock version.superblock ∧
      snapshot.superblock = version.superblock ∧
      (NoCollision written image → version.Stored image ∧ snapshot.files = version.files) := by
  obtain ⟨decoded, read⟩ := candidate_eq_some found
  rcases accounted number isSuper with zero | ⟨version, mem, isNumber, isSector⟩
  · rw [zero] at decoded
    exact absurd decoded (decodeSuperblock_zero _)
  · have good := valid version mem
    rw [isSector, decodeSuperblock_encodeSuperblock good.superblock] at decoded
    have same : version.superblock = snapshot.superblock := Except.ok.inj decoded
    refine ⟨version, mem, isNumber, isSector, same.symm, ?_⟩
    intro exact_
    rw [← same] at read
    unfold recordFiles at read
    dsimp only at read
    split at read
    · cases read
    rename_i checked
    rw [not_not, good.crc] at checked
    have isRecord := exact_ version mem checked
    rw [isRecord, good.encoded.decode good.superblock.generation_lt good.tree.sorted.distinct,
      if_pos rfl] at read
    refine ⟨⟨isNumber ▸ isSector, ?_⟩, (Except.ok.inj read).symm⟩
    intro offset inside
    rw [← slice_gather inside, isRecord]

/-- Mounting a disk on which a version is stored loads what a superblock sector leads to. -/
theorem mount_loaded (room : 136 ≤ disk.count) (valid : version.Valid disk.count)
    (stored : version.Stored disk.medium.contents) (mount : mountOrFormat disk = .ok filesystem) :
    ∃ snapshot number, (number = superblockASector ∨ number = superblockBSector) ∧
      candidate disk.count disk.medium.contents number = some snapshot ∧
      ∃ disk' : Disk, disk'.count = disk.count ∧ disk'.medium = disk.medium ∧
        filesystem = mounted disk' snapshot := by
  have spec := (Disk.reads disk.count disk.medium).loadLatestSnapshot (.inl trivial) disk ⟨rfl, rfl⟩
  cases load : loadLatestSnapshot.run disk with
  | error stop disk' =>
    rw [mountOrFormat_of_load_error room load] at mount
    cases mount
  | ok found disk' =>
    rw [load] at spec
    obtain ⟨⟨size, medium⟩, sourced, -, blank⟩ := spec
    cases found with
    | none =>
      have isSuper : superSector version.superblock.generation = superblockASector ∨
          superSector version.superblock.generation = superblockBSector := by
        unfold superSector
        split
        · exact .inl rfl
        · exact .inr rfl
      have nonzero := nonzero_of_decodeSuperblock
        (decodeSuperblock_encodeSuperblock valid.superblock)
      rw [← stored.superblock, blank rfl _ isSuper] at nonzero
      cases nonzero
    | some snapshot =>
      obtain ⟨number, isSuper, found⟩ := sourced snapshot rfl
      rw [mountOrFormat_of_load room load size] at mount
      cases mount
      exact ⟨snapshot, number, isSuper, found, disk', size, medium, rfl⟩

/-- Mounting contents that a power failure or an unmount left. -/
theorem kept_mount (room : 136 ≤ count) (kept : Kept count filesystem written tidy)
    (survives : filesystem.device.medium.Survives image) (size : disk.count = count)
    (settled : disk.medium = .settled image) (isPlan : disk.plan = plan)
    (trusted : tidy = true ∧ plan = [] ∨ NoCollision written image)
    (mount : mountOrFormat disk = .ok filesystem') :
    Kept count filesystem' written (tidy && plan.isEmpty) := by
  obtain ⟨version, active, every⟩ := kept.current
  have sighted := every image survives
  have contents : disk.medium.contents = image := by rw [settled, Medium.contents_settled]
  have sees (disk' : Disk) (medium : disk'.medium = disk.medium) {property : (Nat → Sector) → Prop}
      (holds : property image) : disk'.medium.Every property := by
    rw [medium, settled]
    exact Medium.every_of_flushed rfl holds
  by_cases clean : tidy = true ∧ plan = []
  · obtain ⟨rfl, rfl⟩ := clean
    have found := sighted.stored.latest_eq active.valid (sighted.outdated rfl)
    rw [← contents, ← size] at found
    rw [mountOrFormat_of_latest (size ▸ room) isPlan found] at mount
    cases mount
    exact ⟨kept.valid, version, active_mounted size active.valid, sees disk rfl sighted⟩
  · have exact_ := trusted.resolve_left clean
    rw [← contents] at sighted
    obtain ⟨snapshot, number, isSuper, found, disk', size', medium, rfl⟩ :=
      mount_loaded (size ▸ room) (size.symm ▸ active.valid) sighted.stored mount
    rw [size, contents] at found
    rw [contents] at sighted
    obtain ⟨loaded, mem, -, -, same, holds⟩ :=
      version_of_candidate kept.valid sighted.accounted isSuper found
    obtain ⟨stored, files⟩ := holds exact_
    obtain ⟨superblock, entries⟩ := snapshot
    cases same
    cases files
    refine ⟨kept.valid, loaded, active_mounted (size'.trans size) (kept.valid loaded mem),
      sees disk' medium ⟨stored, sighted.accounted, ?_⟩⟩
    intro isTidy
    rw [Bool.and_eq_true, List.isEmpty_iff] at isTidy
    exact absurd isTidy clean

theorem kept_verified (kept : Kept count filesystem written tidy) :
    Kept count (after verifyCommittedState filesystem) written tidy := by
  obtain ⟨version, active, every⟩ := kept.current
  have sighted := every.contents
  have sees {device : Disk} (medium : device.medium = filesystem.device.medium) :
      device.medium.Every (Sighted count written tidy version) := by
    rw [medium]
    exact every
  have same {device : Disk} (size : device.count = count)
      (medium : device.medium = filesystem.device.medium) :
      Kept count { filesystem with device } written tidy :=
    ⟨kept.valid, version, ⟨size, active.valid, active.files, active.generation, active.start,
      active.sectors⟩, sees medium⟩
  have load : Spec (· = filesystem) (onDevice loadLatestSnapshot)
      (fun found filesystem' => ∃ device : Disk, filesystem' = { filesystem with device } ∧
        device.count = count ∧ device.medium = filesystem.device.medium ∧
        Sourced count filesystem.device.medium.contents found)
      fun _ filesystem' => Kept count filesystem' written tidy := by
    intro start isStart
    cases isStart
    have spec := (Disk.reads count filesystem.device.medium).loadLatestSnapshot (.inl trivial)
      filesystem.device ⟨active.size, rfl⟩
    cases run : loadLatestSnapshot.run filesystem.device with
    | error stop device =>
      rw [run] at spec
      rw [onDevice_error run]
      exact same spec.1.1 spec.1.2
    | ok found device =>
      rw [run] at spec
      rw [onDevice_ok run]
      exact ⟨device, rfl, spec.1.1, spec.1.2, spec.2.1⟩
  have verify : Spec (· = filesystem) verifyCommittedState
      (fun _ filesystem' => Kept count filesystem' written tidy)
      fun _ filesystem' => Kept count filesystem' written tidy := by
    unfold verifyCommittedState
    apply load.bind
    intro found
    apply Spec.get_bind
    rintro _ ⟨device, rfl, size, medium, sourced⟩
    cases found with
    | none =>
      apply Spec.throw
      rintro _ ⟨device', rfl, size', medium', -⟩
      exact same size' medium'
    | some snapshot =>
      refine .ite (fun _ => .throw _ ?_) fun agree => ?_
      · rintro _ ⟨device', rfl, size', medium', -⟩
        exact same size' medium'
      · -- Of the two sectors only one can hold this generation, and it holds the active version.
        obtain ⟨number, isSuper, found⟩ := sourced snapshot rfl
        obtain ⟨loaded, -, isNumber, isSector, isSuperblock, -⟩ :=
          version_of_candidate kept.valid sighted.accounted isSuper found
        have generation : snapshot.superblock.generation = version.superblock.generation := by
          rw [← active.generation]
          exact not_not.mp fun different => agree (.inl different)
        have isVersion : snapshot.superblock = version.superblock := by
          have decoded := (candidate_eq_some found).1
          rw [isNumber, ← isSuperblock, generation, sighted.stored.superblock,
            decodeSuperblock_encodeSuperblock active.valid.superblock] at decoded
          exact (Except.ok.inj decoded).symm
        intro _ _
        refine ⟨kept.valid, version, ⟨size, active.valid, active.files, active.generation,
          ?_, ?_⟩, sees medium⟩
        · exact congrArg Superblock.recordStart isVersion
        · exact congrArg Superblock.recordSectors isVersion
  exact verify.after rfl

end

/-! ## All runs -/

section

variable {count : Nat} {filesystem : CodexFs Disk} {written : List Version} {tidy : Bool}

theorem Reaches.kept (count_lt : count < Word64.size) (room : 136 ≤ count)
    (run : Reaches count filesystem written tidy) : Kept count filesystem written tidy := by
  induction run with
  | format formatted => exact kept_format count_lt room formatted
  | @returned filesystem filesystem' written tidy operation plan run ok ih =>
    have performs := perform_performs (filesystem.withPlan plan) operation
    rw [ok] at performs
    have kept := kept_returned count_lt (ih.withPlan plan) performs
    rw [attempted_withPlan] at kept
    exact kept
  | @rejected filesystem filesystem' written tidy operation plan stop run error own ih =>
    have performs := perform_performs (filesystem.withPlan plan) operation
    rw [error] at performs
    rw [unchanged_of_own performs own]
    exact ih.withPlan plan
  | @failed filesystem filesystem' written tidy operation plan stop run error ih =>
    have performs := perform_performs (filesystem.withPlan plan) operation
    rw [error] at performs
    have kept := kept_failed count_lt (ih.withPlan plan) performs
    rw [attempted_withPlan] at kept
    exact kept
  | @verified filesystem written tidy plan run ih => exact kept_verified (ih.withPlan plan)
  | @remount filesystem filesystem' filesystem'' written tidy plan plan' run unmounted trusted
      mounted ih =>
      obtain ⟨size, medium⟩ := unmount_ok unmounted
      obtain ⟨version, active, -⟩ := ih.current
      have contents : filesystem'.device.medium.contents = filesystem.device.medium.contents := by
        rw [medium]
        rfl
      rw [contents] at trusted
      have settled : ({ filesystem'.device with plan := plan' } : Disk).medium =
          .settled filesystem.device.medium.contents := medium
      have sized : ({ filesystem'.device with plan := plan' } : Disk).count = count :=
        size.trans active.size
      exact kept_mount room ih Medium.survives_contents sized settled rfl trusted mounted
  | restart run survives trusted mounted ih =>
    exact kept_mount room ih survives rfl rfl rfl trusted mounted

/-- In every reachable state the entries are a tree; an operation that returns changes the map from
    paths to entries as its name says; and one that fails for a reason of its own leaves the whole
    file system as it was, the disk included. -/
theorem refines_map (room : 136 ≤ count) (count_lt : count < Word64.size)
    (run : Reaches count filesystem written tidy) :
    Tree filesystem.files ∧
    (∀ (operation : Operation) plan done,
      operation.perform.run (filesystem.withPlan plan) = .ok () done →
      ∀ path, find done.files path = operation.mapped filesystem.files path) ∧
    ∀ (operation : Operation) plan stop failed,
      operation.perform.run (filesystem.withPlan plan) = .error stop failed →
      ¬DeviceError stop → failed = filesystem.withPlan plan := by
  have kept := run.kept count_lt room
  refine ⟨kept.tree, ?_, ?_⟩
  · intro operation plan done returned
    have performs := perform_performs (filesystem.withPlan plan) operation
    rw [returned] at performs
    cases performs with
    | unchanged same => exact (Operation.next_maps kept.tree same).find
    | committed isNext commits => exact (Operation.next_maps kept.tree isNext).find
  · intro operation plan stop failed error own
    have performs := perform_performs (filesystem.withPlan plan) operation
    rw [error] at performs
    exact unchanged_of_own performs own

/-- A directory made on a formatted disk is found at its path. -/
theorem refines_map_formatted : ∃ filesystem written, Reaches 136 filesystem written true ∧
    Tree filesystem.files ∧ ∀ plan done,
      (Operation.createDir ['/', 'a'] 0o700).perform.run (filesystem.withPlan plan) = .ok () done →
      find done.files ['/', 'a'] = some (newDirectory ['/', 'a'] 0o700) := by
  obtain ⟨filesystem, formatted, -⟩ :=
    format_blank (Nat.le_refl 136) (show 136 < Word64.size by decide)
  obtain ⟨tree, maps, -⟩ :=
    refines_map (Nat.le_refl 136) (by decide) (Reaches.format formatted)
  refine ⟨filesystem, _, .format formatted, tree, fun plan done returned => ?_⟩
  rw [maps (.createDir ['/', 'a'] 0o700) plan done returned ['/', 'a']]
  rfl

end

end CodexOS.Filesystem
