import CodexOS.Filesystem.Crash

/-! # Mounting with reads that fail

A mount that cannot read a superblock sector returns the error. A mount that
cannot read the record of a superblock goes on with the other superblock, as if the
record were damaged, so one read that fails for the moment can bring an older
version back.
-/

namespace CodexOS.Filesystem

open Bytes Block BlockDevice Effect Word64

section

variable {disk : Disk} {newest snapshot : LoadedSnapshot}

/-- Two snapshots that a mount makes the same file system of, up to where the record lies. -/
def SameVersion (first second : LoadedSnapshot) : Prop :=
  first.superblock.generation = second.superblock.generation ∧ first.files = second.files

/-- The reads of the mount pass over the newest record: both superblock sectors are read, a read
    of the newest record fails, and all reads of the other record, which holds another version,
    are served. -/
def PassesOver (disk : Disk) (newest : LoadedSnapshot) : Prop :=
  let image := disk.medium.contents
  let supers := nextReads 2 disk.plan
  let first := recordReads disk.count image superblockASector supers.2
  let second := recordReads disk.count image superblockBSector first.2
  136 ≤ disk.count ∧ supers.1 = true ∧ ∃ other, ¬SameVersion other newest ∧
    (candidate disk.count image superblockASector = some newest ∧
        candidate disk.count image superblockBSector = some other ∧
        first.1 = false ∧ second.1 = true ∨
      candidate disk.count image superblockASector = some other ∧
        candidate disk.count image superblockBSector = some newest ∧
        first.1 = true ∧ second.1 = false)

theorem newer_cases (found : newer first second = some newest) :
    first = some newest ∧ (∀ other, second = some other →
        other.superblock.generation ≤ newest.superblock.generation) ∨
      second = some newest ∧ ∀ other, first = some other →
        other.superblock.generation < newest.superblock.generation := by
  cases second with
  | none => exact .inl ⟨found, nofun⟩
  | some snapshot =>
    rw [newer] at found
    split at found
    next isNewer =>
      cases found
      refine .inr ⟨rfl, ?_⟩
      rintro other rfl
      simpa using isNewer
    next notNewer =>
      cases found
      refine .inl ⟨rfl, ?_⟩
      rintro other same
      cases same
      simpa using notNewer

theorem readable_eq_some (found : readable count image number plan = some snapshot) :
    (recordReads count image number plan).1 = true ∧
      candidate count image number = some snapshot := by
  unfold readable at found
  split at found
  next served => exact ⟨served, found⟩
  next => cases found

theorem mountOrFormat_loadable (room : 136 ≤ disk.count)
    (served : (nextReads 2 disk.plan).1 = true)
    (found : loadable disk.count disk.medium.contents (nextReads 2 disk.plan).2 = some snapshot) :
    ∃ disk', mountOrFormat disk = .ok (mounted disk' snapshot) := by
  have load := loadLatestSnapshot_read (by omega) served
  rw [found, if_neg (by rintro ⟨none, -⟩; cases none)] at load
  exact ⟨_, mountOrFormat_of_load room load rfl⟩

theorem mountOrFormat_passesOver (passes : PassesOver disk newest) :
    ∃ disk' other number, mountOrFormat disk = .ok (mounted disk' other) ∧
      (number = superblockASector ∨ number = superblockBSector) ∧
      candidate disk.count disk.medium.contents number = some other ∧
      ¬SameVersion other newest := by
  obtain ⟨room, served, other, differs, passed⟩ := passes
  have found : loadable disk.count disk.medium.contents (nextReads 2 disk.plan).2 = some other := by
    unfold loadable readable
    rcases passed with ⟨-, isOther, first, second⟩ | ⟨isOther, -, first, second⟩
    · rw [first, second, isOther]
      rfl
    · rw [first, second, isOther]
      rfl
  obtain ⟨disk', mount⟩ := mountOrFormat_loadable room served found
  rcases passed with ⟨-, isOther, -⟩ | ⟨isOther, -⟩
  · exact ⟨disk', other, _, mount, .inr rfl, isOther, differs⟩
  · exact ⟨disk', other, _, mount, .inl rfl, isOther, differs⟩

theorem mount_ok_loadable (found : latest disk.count disk.medium.contents = some newest)
    (mount : mountOrFormat disk = .ok filesystem) :
    136 ≤ disk.count ∧ (nextReads 2 disk.plan).1 = true ∧
      ∃ snapshot disk', filesystem = mounted disk' snapshot ∧
        loadable disk.count disk.medium.contents (nextReads 2 disk.plan).2 = some snapshot := by
  by_cases room : 136 ≤ disk.count
  case neg =>
    rw [mountOrFormat_small room] at mount
    cases mount
  cases served : (nextReads 2 disk.plan).1 with
  | false =>
    obtain ⟨stop, disk', load⟩ := loadLatestSnapshot_failed (by omega) served
    rw [mountOrFormat_of_load_error room load] at mount
    cases mount
  | true =>
    refine ⟨room, rfl, ?_⟩
    cases loaded : loadable disk.count disk.medium.contents (nextReads 2 disk.plan).2 with
    | some snapshot =>
      obtain ⟨disk', isMounted⟩ := mountOrFormat_loadable room served loaded
      rw [isMounted] at mount
      cases mount
      exact ⟨snapshot, disk', rfl, rfl⟩
    | none =>
      -- The superblock of the newest snapshot is not zero, so the disk is not formatted anew.
      have load := loadLatestSnapshot_read (by omega) served
      have nonzero : (disk.medium.contents superblockASector).bytes.any (· ≠ 0) = true ∨
          (disk.medium.contents superblockBSector).bytes.any (· ≠ 0) = true := by
        rcases newer_cases found with ⟨isNewest, -⟩ | ⟨isNewest, -⟩
        · exact .inl (nonzero_of_decodeSuperblock (candidate_eq_some isNewest).1)
        · exact .inr (nonzero_of_decodeSuperblock (candidate_eq_some isNewest).1)
      rw [loaded, if_pos ⟨rfl, nonzero⟩] at load
      rw [mountOrFormat_of_load_error room load] at mount
      cases mount

/-- What is read in place of the newest snapshot is what the reads passed over it to. -/
theorem passesOver_of_loadable (found : latest disk.count disk.medium.contents = some newest)
    (room : 136 ≤ disk.count) (served : (nextReads 2 disk.plan).1 = true)
    (loaded : loadable disk.count disk.medium.contents (nextReads 2 disk.plan).2 = some snapshot)
    (differs : ¬SameVersion snapshot newest) : PassesOver disk newest := by
  refine ⟨room, served, snapshot, differs, ?_⟩
  have other (isNewest : snapshot = newest) : False := differs (isNewest ▸ ⟨rfl, rfl⟩)
  unfold loadable at loaded
  rcases newer_cases found with ⟨isNewest, notNewer⟩ | ⟨isNewest, older⟩
  · left
    cases first : (recordReads disk.count disk.medium.contents superblockASector
        (nextReads 2 disk.plan).2).1 with
    | true =>
      rw [show readable _ _ superblockASector _ = some newest from (if_pos first).trans isNewest,
        newer_of_le fun other isOther => notNewer other (readable_eq_some isOther).2]
        at loaded
      cases loaded
      exact (other rfl).elim
    | false =>
      rw [show readable _ _ superblockASector _ = none from if_neg (ne_true_of_eq_false first),
        newer_none] at loaded
      obtain ⟨second, isOther⟩ := readable_eq_some loaded
      exact ⟨isNewest, isOther, rfl, second⟩
  · right
    cases second : (recordReads disk.count disk.medium.contents superblockBSector
        (recordReads disk.count disk.medium.contents superblockASector
          (nextReads 2 disk.plan).2).2).1 with
    | true =>
      rw [show readable _ _ superblockBSector _ = some newest from (if_pos second).trans isNewest,
        newer_of_lt fun other isOther => older other (readable_eq_some isOther).2]
        at loaded
      cases loaded
      exact (other rfl).elim
    | false =>
      rw [show readable _ _ superblockBSector _ = none from if_neg (ne_true_of_eq_false second)]
        at loaded
      obtain ⟨first, isOther⟩ := readable_eq_some loaded
      exact ⟨isOther, isNewest, first, rfl⟩

/-- A mount returns an error or the newest version, for exactly those plans that do not pass over
    the newest record. -/
theorem mount_newest_iff (found : latest disk.count disk.medium.contents = some newest) :
    (∀ filesystem, mountOrFormat disk = .ok filesystem →
      filesystem.generation = newest.superblock.generation ∧ filesystem.files = newest.files) ↔
    ¬PassesOver disk newest := by
  constructor
  · intro isNewest passes
    obtain ⟨disk', other, -, mount, -, -, differs⟩ := mountOrFormat_passesOver passes
    exact differs (isNewest _ mount)
  · intro notPassed filesystem mount
    obtain ⟨room, served, snapshot, disk', rfl, loaded⟩ := mount_ok_loadable found mount
    by_contra differs
    exact notPassed (passesOver_of_loadable found room served loaded differs)

theorem nextReads_replicate (left : Nat) (plan : List Fate) :
    nextReads left (List.replicate left .served ++ plan) = (true, plan) := by
  induction left with
  | zero => rfl
  | succ left ih => exact ih

theorem Version.Stored.recordReads_eq {version : Version} {count : Nat} {image : Nat → Sector}
    (stored : version.Stored image) (valid : version.Valid count) (plan : List Fate) :
    recordReads count image (superSector version.superblock.generation) plan =
      nextReads version.superblock.recordSectors plan := by
  unfold recordReads
  rw [stored.superblock, decodeSuperblock_encodeSuperblock valid.superblock]
  rfl

theorem exists_passesOver {version previous : Version} {count : Nat} {image : Nat → Sector}
    (room : 136 ≤ count) (valid : version.Valid count) (stored : version.Stored image)
    (valid' : previous.Valid count) (stored' : previous.Stored image)
    (next : previous.superblock.generation + 1 = version.superblock.generation) :
    ∃ plan, PassesOver { count, medium := .settled image, plan }
      { superblock := version.superblock, files := version.files } := by
  have newest := stored.candidate_eq valid
  have other := stored'.candidate_eq valid'
  have reads := stored.recordReads_eq valid
  have reads' := stored'.recordReads_eq valid'
  have different : ¬SameVersion { superblock := previous.superblock, files := previous.files }
      { superblock := version.superblock, files := version.files } := by
    rintro ⟨same, -⟩
    change previous.superblock.generation = version.superblock.generation at same
    omega
  obtain ⟨sectors, isSectors⟩ : ∃ sectors, version.superblock.recordSectors = sectors + 1 :=
    Nat.exists_eq_succ_of_ne_zero valid.superblock.sectors
  rcases Nat.mod_two_eq_zero_or_one version.superblock.generation with even | odd
  · have here : superSector version.superblock.generation = superblockASector := if_pos even
    have there : superSector previous.superblock.generation = superblockBSector :=
      if_neg (by omega)
    rw [here] at newest reads
    rw [there] at other reads'
    refine ⟨[.served, .served, .refused .requestTimedOut], room, rfl, _, different, .inl ?_⟩
    refine ⟨newest, other, ?_, ?_⟩
    · rw [Medium.contents_settled, reads, isSectors]
      rfl
    · rw [Medium.contents_settled, reads, isSectors, reads']
      exact congrArg Prod.fst nextReads_nil
  · have here : superSector version.superblock.generation = superblockBSector :=
      if_neg (by omega)
    have there : superSector previous.superblock.generation = superblockASector :=
      if_pos (by omega)
    rw [here] at newest reads
    rw [there] at other reads'
    have served : nextReads previous.superblock.recordSectors
        (nextReads 2 (.served :: .served ::
          (List.replicate previous.superblock.recordSectors .served ++
            [.refused .requestTimedOut]))).2 = (true, [.refused .requestTimedOut]) :=
      nextReads_replicate _ _
    refine ⟨.served :: .served :: (List.replicate previous.superblock.recordSectors .served ++
      [.refused .requestTimedOut]), room, rfl, _, different, .inr ?_⟩
    refine ⟨other, newest, ?_, ?_⟩
    · rw [Medium.contents_settled, reads', served]
    · rw [Medium.contents_settled, reads', served, reads, isSectors]
      rfl

/-- A directory was created on a formatted disk. When one read of the new record fails, the mount
    returns the empty file system of the format. -/
theorem mount_newest_rolled_back : ∃ (disk : Disk) (newest : LoadedSnapshot)
    (filesystem : CodexFs Disk), latest disk.count disk.medium.contents = some newest ∧
      newest.files = [newDirectory ['/', 'a'] 0o755] ∧
      mountOrFormat disk = .ok filesystem ∧ filesystem.files = [] ∧
      filesystem.generation < newest.superblock.generation := by
  obtain ⟨filesystem, run⟩ := run_create_dir
  obtain ⟨version, rest, active, stored, isHistory, backed⟩ :=
    (run.orderly (by decide) (Nat.le_refl 136)).current
  have found := stored.latest_eq active.valid backed.outdated
  obtain ⟨isFiles, rfl⟩ := List.cons.inj isHistory
  obtain ⟨previous, noFiles, valid, stored', next, -⟩ := backed
  obtain ⟨plan, passes⟩ :=
    exists_passesOver (Nat.le_refl 136) active.valid stored valid stored' next
  obtain ⟨disk', other, number, mount, isSuper, isOther, differs⟩ :=
    mountOrFormat_passesOver passes
  refine ⟨{ count := 136, medium := .settled filesystem.device.medium.contents, plan },
    { superblock := version.superblock, files := version.files }, mounted disk' other, found,
    isFiles.symm, mount, ?_⟩
  change candidate 136 filesystem.device.medium.contents number = some other at isOther
  rcases superSector_cases previous.superblock.generation isSuper with rfl | rfl
  · rw [stored'.candidate_eq valid] at isOther
    cases isOther
    refine ⟨noFiles, ?_⟩
    change previous.superblock.generation < version.superblock.generation
    omega
  · rw [next, stored.candidate_eq active.valid] at isOther
    cases isOther
    exact absurd ⟨rfl, rfl⟩ differs

/-- The same disk without failing reads. -/
theorem mount_newest_iff_create_dir : ∃ (disk : Disk) (newest : LoadedSnapshot),
    latest disk.count disk.medium.contents = some newest ∧
    newest.files = [newDirectory ['/', 'a'] 0o755] ∧ ¬PassesOver disk newest ∧
    ∀ filesystem, mountOrFormat disk = .ok filesystem →
      filesystem.generation = newest.superblock.generation ∧ filesystem.files = newest.files := by
  obtain ⟨filesystem, run⟩ := run_create_dir
  obtain ⟨version, rest, active, stored, isHistory, backed⟩ :=
    (run.orderly (by decide) (Nat.le_refl 136)).current
  have found : latest (Disk.restart 136 filesystem.device.medium.contents).count
      (Disk.restart 136 filesystem.device.medium.contents).medium.contents =
        some { superblock := version.superblock, files := version.files } :=
    stored.latest_eq active.valid backed.outdated
  have served : ¬PassesOver (Disk.restart 136 filesystem.device.medium.contents)
      { superblock := version.superblock, files := version.files } := by
    rintro ⟨-, -, other, -, ⟨-, -, failed, -⟩ | ⟨-, -, -, failed⟩⟩
    · change (recordReads 136 _ superblockASector []).1 = false at failed
      rw [recordReads_nil] at failed
      cases failed
    · change (recordReads 136 _ superblockBSector
        (recordReads 136 _ superblockASector []).2).1 = false at failed
      rw [recordReads_nil, recordReads_nil] at failed
      cases failed
  exact ⟨Disk.restart 136 filesystem.device.medium.contents,
    { superblock := version.superblock, files := version.files }, found,
    (List.cons.inj isHistory).1.symm, served, (mount_newest_iff found).mpr served⟩

end

end CodexOS.Filesystem
