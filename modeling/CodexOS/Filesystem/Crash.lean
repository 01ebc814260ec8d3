import CodexOS.Filesystem.Runs

/-! # Power failures and damage

A commit replaces the older one of two versions, so a power failure at any point
of an operation leaves the current version or the next one. And as the two lie side
by side, damage to the newer one leaves the older one.
-/

namespace CodexOS.Filesystem

open Bytes Block BlockDevice Effect Word64

/-! ## Power failures -/

section

variable {count : Nat} {filesystem filesystem' : CodexFs Disk} {history : List (List FileEntry)}
  {version : Version} {image : Nat → Sector}

theorem mount_restart (room : 136 ≤ count) (valid : version.Valid count)
    (current : Current count version image) :
    mountOrFormat (Disk.restart count image) = .ok (mounted (Disk.restart count image)
      { superblock := version.superblock, files := version.files }) :=
  mountOrFormat_of_latest room rfl (current.1.latest_eq valid current.2)

theorem perform_served {operation : Operation} {next : List FileEntry} {prepared : Prepared}
    (isNext : operation.next filesystem.files = .ok next)
    (isPrepared : prepare filesystem next = .ok prepared) (reliable : filesystem.device.plan = []) :
    ∃ done, operation.perform.run filesystem = .ok () done ∧ done.files = next := by
  rw [perform_eq, bind_ok (run_lift_ok isNext)]
  split
  · rename_i same
    exact ⟨filesystem, rfl, same.2.symm⟩
  · obtain ⟨device, -, committed⟩ := commitFiles_served isPrepared reliable
    exact ⟨_, bind_ok committed, rfl⟩

/-- The contents that an operation can leave when the power fails: the current version, or the one
    it was to commit. -/
theorem perform_survives {operation : Operation} (count_lt : count < Word64.size)
    (active : Active count filesystem version)
    (every : filesystem.device.medium.Every (Current count version)) :
    (after operation.perform filesystem).device.medium.Every fun image =>
      Current count version image ∨ ∃ next prepared, operation.next filesystem.files = .ok next ∧
        prepare filesystem next = .ok prepared ∧ (prepared.version count next).Valid count ∧
        Current count (prepared.version count next) image := by
  have performs := perform_performs filesystem operation
  have tree : Tree filesystem.files := active.files ▸ active.valid.tree
  have lands {next : List FileEntry} {prepared : Prepared}
      (isNext : operation.next filesystem.files = .ok next)
      (isPrepared : prepare filesystem next = .ok prepared) {image : Nat → Sector}
      (landed : Landed (Current count version) prepared count image) :
      ∃ next prepared, operation.next filesystem.files = .ok next ∧
        prepare filesystem next = .ok prepared ∧ (prepared.version count next).Valid count ∧
        Current count (prepared.version count next) image :=
    have ready := prepare_ok isPrepared
    ⟨next, prepared, isNext, isPrepared,
      ready.valid (Operation.next_maps tree isNext).sorted active.size count_lt,
      landed.current active ready fun _ current => current.1⟩
  cases run : operation.perform.run filesystem with
  | ok value filesystem' =>
    rw [run] at performs
    rw [after_ok run]
    cases performs with
    | unchanged same => exact every.imp fun _ => .inl
    | @committed next filesystem' isNext commits =>
      obtain ⟨prepared, device, isPrepared, rfl, -, flushed, landed⟩ :=
        commits.of_ok active.size (fun _ => untouched_current active) every
      exact Medium.every_of_flushed flushed (.inr (lands isNext isPrepared landed))
  | error stop filesystem' =>
    rw [run] at performs
    rw [after_error run]
    cases performs with
    | invalid error => exact every.imp fun _ => .inl
    | @refused next _ _ isNext commits =>
      rcases commits.of_error active.size (fun _ => untouched_current active) every with
        rfl | ⟨prepared, device, isPrepared, rfl, torn⟩
      · exact every.imp fun _ => .inl
      · exact torn.2.2.imp fun image => Or.imp_right (lands isNext isPrepared)

theorem perform_durable {operation : Operation} (count_lt : count < Word64.size)
    (active : Active count filesystem version) (flushed : filesystem.device.medium.pending = [])
    (current : Current count version filesystem.device.medium.contents)
    (returned : operation.perform.run filesystem = .ok () filesystem') :
    ∃ version' : Version, version'.files = filesystem'.files ∧ version'.Valid count ∧
      filesystem'.device.medium.Every (Current count version') := by
  have every := Medium.every_of_flushed flushed current
  have performs := perform_performs filesystem operation
  have tree : Tree filesystem.files := active.files ▸ active.valid.tree
  rw [returned] at performs
  cases performs with
  | unchanged same => exact ⟨version, active.files.symm, active.valid, every⟩
  | @committed next filesystem' isNext commits =>
    obtain ⟨prepared, device, isPrepared, rfl, isCount, flushed', landed⟩ :=
      commits.of_ok active.size (fun _ => untouched_current active) every
    have ready := prepare_ok isPrepared
    exact ⟨prepared.version count next, rfl,
      ready.valid (Operation.next_maps tree isNext).sorted active.size count_lt,
      Medium.every_of_flushed flushed' (landed.current active ready fun _ current => current.1)⟩

/-- After a power failure at any point of an operation the disk mounts, with the entries from
    before the operation or those it makes when it is served; and with those it made if it had
    returned. How far the operation got is in the plan, what reached the medium in the image. -/
theorem crash_atomicity (room : 136 ≤ count) (count_lt : count < Word64.size)
    (run : Run count filesystem history) (operation : Operation) (plan : List Fate)
    (survives : (after operation.perform (filesystem.withPlan plan)).device.medium.Survives image) :
    ∃ rebooted, mountOrFormat (Disk.restart count image) = .ok rebooted ∧
      (rebooted.files = filesystem.files ∨
        ∃ done, operation.perform.run (filesystem.withPlan []) = .ok () done ∧
          rebooted.files = done.files) ∧
      ∀ done, operation.perform.run (filesystem.withPlan plan) = .ok () done →
        rebooted.files = done.files := by
  have orderly := run.orderly count_lt room
  obtain ⟨version, older, active, stored, -, backed⟩ := orderly.current
  have current : Current count version filesystem.device.medium.contents :=
    ⟨stored, backed.outdated⟩
  have active' := active.withPlan plan
  have every : (filesystem.withPlan plan).device.medium.Every (Current count version) :=
    Medium.every_of_flushed orderly.flushed current
  have last {rebooted : CodexFs Disk}
      (mount : mountOrFormat (Disk.restart count image) = .ok rebooted) :
      ∀ done, operation.perform.run (filesystem.withPlan plan) = .ok () done →
        rebooted.files = done.files := by
    intro done returned
    obtain ⟨version', files, valid, every'⟩ :=
      perform_durable count_lt active' orderly.flushed current returned
    rw [after_ok returned] at survives
    rw [mount_restart room valid (every' image survives)] at mount
    cases mount
    exact files
  rcases perform_survives count_lt active' every image survives with
    before | ⟨next, prepared, isNext, isPrepared, valid, new⟩
  · have mount := mount_restart room active.valid before
    exact ⟨_, mount, .inl active.files.symm, last mount⟩
  · have mount := mount_restart room valid new
    have isNext' : operation.next (filesystem.withPlan []).files = .ok next := isNext
    have isPrepared' : prepare (filesystem.withPlan []) next = .ok prepared := by
      rw [prepare_withPlan, ← isPrepared, prepare_withPlan]
    obtain ⟨done, returned, files⟩ := perform_served isNext' isPrepared' rfl
    exact ⟨_, mount, .inr ⟨done, returned, files.symm⟩, last mount⟩

/-- A directory made on a formatted disk, with the power failing right after the superblock was
    handed to the device. -/
theorem crash_atomicity_create_dir : ∃ filesystem image, Run 136 filesystem [filesystem.files] ∧
    (after (Operation.createDir ['/', 'a'] 0o755).perform (filesystem.withPlan
      (List.replicate 65 .served ++ [.unanswered .requestTimedOut]))).device.medium.Survives image ∧
    ∃ rebooted, mountOrFormat (Disk.restart 136 image) = .ok rebooted ∧
      (rebooted.files = filesystem.files ∨
        ∃ done, (Operation.createDir ['/', 'a'] 0o755).perform.run (filesystem.withPlan []) =
          .ok () done ∧ rebooted.files = done.files) := by
  obtain ⟨filesystem, formatted, -⟩ :=
    format_blank (Nat.le_refl 136) (show 136 < Word64.size by decide)
  have survives := @Medium.survives_contents _ _ _
    (after (Operation.createDir ['/', 'a'] 0o755).perform (filesystem.withPlan
      (List.replicate 65 .served ++ [.unanswered .requestTimedOut]))).device.medium
  obtain ⟨rebooted, mount, files, -⟩ := crash_atomicity (Nat.le_refl 136) (by decide)
    (.format formatted) (.createDir ['/', 'a'] 0o755)
    (List.replicate 65 .served ++ [.unanswered .requestTimedOut]) survives
  exact ⟨filesystem, _, .format formatted, survives, rebooted, mount, files⟩

end

/-! ## Damage -/

section

variable {count : Nat} {filesystem : CodexFs Disk} {image damaged : Nat → Sector}
  {version previous : Version} {files previousFiles : List FileEntry}
  {older : List (List FileEntry)}

/-- Contents that differ at most in the superblock sector and the record of a superblock. -/
def Confined (superblock : Superblock) (image damaged : Nat → Sector) : Prop :=
  ∀ number, number ≠ superSector superblock.generation →
    ¬(superblock.recordStart ≤ number ∧
      number < superblock.recordStart + superblock.recordSectors) → damaged number = image number

/-- The superblock in a sector cannot be decoded, or its record cannot be loaded. -/
def Unloadable (count : Nat) (image : Nat → Sector) (number : Nat) : Prop :=
  ∀ superblock, decodeSuperblock (image number) count = .ok superblock →
    ∀ files, outcome (readRecord superblock) (Disk.restart count image) ≠ .ok files

theorem readRecord_restart (inside : superblock.recordStart + superblock.recordSectors ≤ count)
    (layout : superblock.recordBytes = superblock.recordSectors * sectorSize)
    (read : recordFiles image superblock = .ok files) :
    (readRecord superblock).run (Disk.restart count image) =
      .ok files (Disk.restart count image) := by
  have all : nextReads superblock.recordSectors (Disk.restart count image).plan = (true, []) :=
    nextReads_nil
  rw [readRecord_run (by rw [all]) inside layout, all, Disk.later_reliable rfl]
  exact run_lift_ok read

theorem Unloadable.candidate_eq (unloadable : Unloadable count image number) :
    candidate count image number = none := by
  cases found : candidate count image number with
  | none => rfl
  | some snapshot =>
    obtain ⟨decoded, read⟩ := candidate_eq_some found
    obtain ⟨-, -, inside, layout⟩ := decodeSuperblock_ok decoded
    exact absurd (outcome_ok (readRecord_restart inside layout read)) (unloadable _ decoded _)

/-- Damage to the newer one of two versions does not reach the older one. -/
theorem stored_of_confined (valid : previous.Valid count) (valid' : version.Valid count)
    (next : previous.superblock.generation + 1 = version.superblock.generation)
    (apart : Apart version.superblock.recordStart version.superblock.recordSectors
      previous.superblock.recordStart previous.superblock.recordSectors)
    (stored : previous.Stored image) (confined : Confined version.superblock image damaged) :
    previous.Stored damaged := by
  apply stored.congr
  intro number covers
  have area := valid.superblock.start
  have area' := valid'.superblock.start
  have low := superSector_lt previous.superblock.generation
  have low' := superSector_lt version.superblock.generation
  unfold Apart at apart
  apply confined
  · rintro rfl
    rcases covers with same | within
    · rw [← next] at same
      exact superSector_succ_ne _ same
    · omega
  · rcases covers with rfl | within
    · omega
    · omega

theorem readRecord_stored (valid : version.Valid count) (stored : version.Stored image) :
    (readRecord version.superblock).run (Disk.restart count image) =
      .ok version.files (Disk.restart count image) :=
  readRecord_restart valid.superblock.inside valid.superblock.bytes (stored.recordFiles_eq valid)

/-- After two commits the disk holds the last two versions, side by side. Whatever happens to the
    newer one, the older one can still be mounted. -/
theorem two_versions (room : 136 ≤ count) (count_lt : count < Word64.size)
    (run : Run count filesystem (files :: previousFiles :: older)) :
    ∃ newest oldest : Superblock,
      decodeSuperblock (filesystem.device.medium.contents (superSector newest.generation)) count =
        .ok newest ∧
      decodeSuperblock (filesystem.device.medium.contents (superSector oldest.generation)) count =
        .ok oldest ∧
      superSector oldest.generation ≠ superSector newest.generation ∧
      newest.generation = filesystem.generation ∧
      oldest.generation + 1 = filesystem.generation ∧
      Apart newest.recordStart newest.recordSectors oldest.recordStart oldest.recordSectors ∧
      recordAreaStart ≤ newest.recordStart ∧ newest.recordStart + newest.recordSectors ≤ count ∧
      recordAreaStart ≤ oldest.recordStart ∧ oldest.recordStart + oldest.recordSectors ≤ count ∧
      outcome (readRecord newest) (Disk.restart count filesystem.device.medium.contents) =
        .ok files ∧
      outcome (readRecord oldest) (Disk.restart count filesystem.device.medium.contents) =
        .ok previousFiles ∧
      filesystem.files = files ∧
      ∀ damaged, Confined newest filesystem.device.medium.contents damaged →
        Unloadable count damaged (superSector newest.generation) →
        ∃ rebooted, mountOrFormat (Disk.restart count damaged) = .ok rebooted ∧
          rebooted.files = previousFiles ∧ rebooted.generation = oldest.generation := by
  obtain ⟨version, rest, active, stored, isHistory, backed⟩ :=
    (run.orderly count_lt room).current
  cases isHistory
  obtain ⟨previous, rfl, valid, stored', next, apart⟩ := backed
  have different : superSector previous.superblock.generation ≠
      superSector version.superblock.generation := by
    rw [← next]
    exact (superSector_succ_ne _).symm
  refine ⟨version.superblock, previous.superblock, ?_, ?_, different, active.generation.symm,
    next.trans active.generation.symm, apart, active.valid.superblock.start,
    active.valid.superblock.inside, valid.superblock.start, valid.superblock.inside,
    outcome_ok (readRecord_stored active.valid stored), outcome_ok (readRecord_stored valid stored'),
    active.files, ?_⟩
  · rw [stored.superblock, decodeSuperblock_encodeSuperblock active.valid.superblock]
  · rw [stored'.superblock, decodeSuperblock_encodeSuperblock valid.superblock]
  · intro damaged confined unloadable
    have kept := stored_of_confined valid active.valid next apart stored' confined
    have found := latest_of_candidates (kept.candidate_eq valid) fun snapshot isOther => by
      rw [next, unloadable.candidate_eq] at isOther
      cases isOther
    exact ⟨_, mountOrFormat_of_latest room rfl found, rfl, rfl⟩

theorem prepare_create_dir : ∃ first prepared, Run 136 first [first.files] ∧
    first.device.plan = [] ∧ first.files = [] ∧
    (Operation.createDir ['/', 'a'] 0o755).next first.files =
      .ok [newDirectory ['/', 'a'] 0o755] ∧
    prepare first [newDirectory ['/', 'a'] 0o755] = .ok prepared := by
  obtain ⟨prepared, isPrepared, generation, sectors, start⟩ :=
    prepare_unformatted (Nat.le_refl 136) (show 136 < Word64.size by decide)
  obtain ⟨device, reliable, committed⟩ := commitFiles_served isPrepared rfl
  obtain ⟨first, isFirst⟩ : ∃ first, first =
      (unformatted (Disk.blank 136)).committed prepared device := ⟨_, rfl⟩
  have formatted : mountOrFormat (Disk.blank 136) = .ok first := by
    rw [mountOrFormat_blank (Nat.le_refl 136), committed, isFirst]
    rfl
  have run : Run 136 first [first.files] := .format formatted
  obtain ⟨version, -, active, -⟩ := (run.orderly (by decide) (Nat.le_refl 136)).current
  have size : sectorCount first.device = 136 := active.size
  have isGeneration : first.generation = 1 := isFirst ▸ generation
  have isFiles : first.files = [] := isFirst ▸ rfl
  have isSectors : first.activeRecordSectors = 64 := isFirst ▸ sectors
  have isStart : first.activeRecordStart = 72 := isFirst ▸ start
  have isSpan : first.recordSlotSectors = 64 := isFirst ▸ rfl
  have isSlots : first.recordSlots = 2 := isFirst ▸ rfl
  have isNext : (Operation.createDir ['/', 'a'] 0o755).next first.files =
      .ok [newDirectory ['/', 'a'] 0o755] := by
    rw [isFiles]
    decide
  obtain ⟨record, isRecord, length⟩ :=
    encodeRecord_small 2 (show [newDirectory ['/', 'a'] 0o755].length ≤ maxFiles by decide)
      (by decide) (by decide)
  refine ⟨first, ⟨2, record, 64, 8⟩, run, isFirst ▸ reliable, isFiles, isNext, ?_⟩
  have divided : record.length / sectorSize = 64 := by
    rw [length]
    rfl
  unfold prepare selectRecordStart
  rw [isGeneration, addOr_of_lt (by decide), except_ok_bind, isRecord, except_ok_bind]
  dsimp only
  rw [divided, isSpan, isSlots, if_neg (by decide), if_neg (by decide), selectFrom, isSlots, isSpan,
    isSectors, isStart, size]
  rfl

theorem run_create_dir : ∃ filesystem, Run 136 filesystem [[newDirectory ['/', 'a'] 0o755], []] := by
  obtain ⟨first, prepared, run, isReliable, isFiles, isNext, isPrepared⟩ := prepare_create_dir
  obtain ⟨done, returned, files⟩ := perform_served isNext isPrepared isReliable
  have same : first.withPlan [] = first := by
    unfold CodexFs.withPlan
    rw [← isReliable]
  have performed : (Operation.createDir ['/', 'a'] 0o755).perform.run (first.withPlan []) =
      .ok () done := by
    rw [same]
    exact returned
  have run' := run.operate performed
  by_cases unchanged : done.generation = first.generation
  · rw [if_pos unchanged] at run'
    obtain ⟨version', rest, active', -, isHistory, -⟩ :=
      (run'.orderly (by decide) (Nat.le_refl 136)).current
    have empty : first.files = version'.files := (List.cons.inj isHistory).1
    rw [isFiles, ← active'.files, files] at empty
    cases empty
  · rw [if_neg unchanged, isFiles, files] at run'
    exact ⟨done, run'⟩

/-- The directory is lost with its superblock, and the formatted disk is found again. -/
theorem two_versions_create_dir : ∃ filesystem newest,
    Run 136 filesystem [[newDirectory ['/', 'a'] 0o755], []] ∧
    decodeSuperblock (filesystem.device.medium.contents (superSector newest.generation)) 136 =
      .ok newest ∧
    ∃ rebooted, mountOrFormat (Disk.restart 136 (Function.update
      filesystem.device.medium.contents (superSector newest.generation) (.filled 0))) =
        .ok rebooted ∧ rebooted.files = [] := by
  obtain ⟨filesystem, run⟩ := run_create_dir
  obtain ⟨newest, oldest, decoded, -, -, -, -, -, -, -, -, -, -, -, -, falls⟩ :=
    two_versions (Nat.le_refl 136) (by decide) run
  refine ⟨filesystem, newest, run, decoded, ?_⟩
  obtain ⟨rebooted, mount, files, -⟩ := falls (Function.update
      filesystem.device.medium.contents (superSector newest.generation) (.filled 0))
    (fun number other _ => Function.update_of_ne other _ _) (by
      intro superblock decoded
      rw [Function.update_self] at decoded
      exact absurd decoded (decodeSuperblock_zero superblock))
  exact ⟨rebooted, mount, files⟩

end

end CodexOS.Filesystem
