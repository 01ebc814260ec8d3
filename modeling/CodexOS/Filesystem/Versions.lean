import CodexOS.Filesystem.Mount

/-! # Versions of the entries

A version is a list of entries with the record and the superblock that were made
for it. It is stored when its superblock sector and its record sectors are on the
disk. A stored version can be mounted when the other superblock sector leads to
nothing newer.
-/

namespace CodexOS.Filesystem

open Bytes Block BlockDevice Effect Word64

structure Version where
  superblock : Superblock
  record : Bytes
  files : List FileEntry

namespace Version

/-- The superblock and the record were made for the entries. -/
structure Valid (version : Version) (count : Nat) : Prop where
  superblock : version.superblock.WellFormed count
  encoded : Encoded version.superblock.generation version.files version.record
  length : version.record.length = version.superblock.recordSectors * sectorSize
  crc : version.superblock.recordCrc = crc32 version.record
  tree : Tree version.files

def Covers (version : Version) (number : Nat) : Prop :=
  number = superSector version.superblock.generation ∨
    version.superblock.recordStart ≤ number ∧
      number < version.superblock.recordStart + version.superblock.recordSectors

/-- The version is on a disk with these contents. -/
structure Stored (version : Version) (image : Nat → Sector) : Prop where
  superblock : image (superSector version.superblock.generation) =
    encodeSuperblock version.superblock
  record : InPlace image version.superblock.recordStart version.superblock.recordSectors
    version.record

variable {version : Version} {image image' : Nat → Sector} {count number : Nat} {sector : Sector}

section

variable (stored : version.Stored image)

include stored

theorem Stored.congr (same : ∀ number, version.Covers number → image' number = image number) :
    version.Stored image' where
  superblock := by rw [same _ (.inl rfl), stored.superblock]
  record offset inside := by
    rw [same _ (.inr ⟨Nat.le_add_right _ _, by omega⟩), stored.record offset inside]

theorem Stored.update (other : ¬version.Covers number) :
    version.Stored (Function.update image number sector) := by
  apply stored.congr
  intro covered covers
  apply Function.update_of_ne
  rintro rfl
  exact other covers

theorem Stored.recordFiles_eq (valid : version.Valid count) :
    recordFiles image version.superblock = .ok version.files := by
  unfold recordFiles
  dsimp only
  rw [gather_of_inPlace valid.length stored.record, if_neg (not_not.mpr valid.crc.symm),
    valid.encoded.decode valid.superblock.generation_lt valid.tree.sorted.distinct, if_pos rfl]

theorem Stored.candidate_eq (valid : version.Valid count) :
    candidate count image (superSector version.superblock.generation) =
      some { superblock := version.superblock, files := version.files } := by
  unfold candidate
  rw [stored.superblock, decodeSuperblock_encodeSuperblock valid.superblock]
  dsimp only [value]
  rw [stored.recordFiles_eq valid]
  rfl

end

end Version

/-! ## The newest version -/

section

variable {version : Version} {image : Nat → Sector} {count generation : Nat}

theorem superSector_succ_ne (generation : Nat) :
    superSector (generation + 1) ≠ superSector generation := by
  unfold superSector superblockASector superblockBSector
  split <;> split <;> omega

theorem superSector_lt (generation : Nat) : superSector generation < recordAreaStart := by
  unfold superSector
  split <;> decide

theorem superSector_add_two (generation : Nat) :
    superSector (generation + 2) = superSector generation := by
  rw [superSector, superSector, Nat.add_mod_right]

theorem superSector_cases (generation : Nat)
    (isSuper : number = superblockASector ∨ number = superblockBSector) :
    number = superSector generation ∨ number = superSector (generation + 1) := by
  unfold superSector
  rcases Nat.mod_two_eq_zero_or_one generation with even | odd
  · rw [if_pos even, if_neg (by omega)]
    exact isSuper
  · rw [if_neg (by omega), if_pos (by omega)]
    exact isSuper.symm

theorem newer_of_le (notNewer : ∀ other, second = some other →
      other.superblock.generation ≤ snapshot.superblock.generation) :
    newer (some snapshot) second = some snapshot := by
  cases second with
  | none => rfl
  | some other =>
    rw [newer, if_neg]
    rw [Option.all_some, decide_eq_true_eq]
    exact Nat.not_lt.mpr (notNewer other rfl)

theorem newer_of_lt (older : ∀ other, first = some other →
      other.superblock.generation < snapshot.superblock.generation) :
    newer first (some snapshot) = some snapshot := by
  cases first with
  | none => rfl
  | some other =>
    rw [newer, if_pos]
    rw [Option.all_some, decide_eq_true_eq]
    exact older other rfl

/-- What one sector leads to is newer than what the other one leads to. -/
theorem latest_of_candidates
    (found : candidate count image (superSector generation) = some snapshot)
    (other : ∀ snapshot', candidate count image (superSector (generation + 1)) = some snapshot' →
      snapshot'.superblock.generation < snapshot.superblock.generation) :
    latest count image = some snapshot := by
  unfold latest
  rcases Nat.mod_two_eq_zero_or_one generation with even | odd
  · have here : superSector generation = superblockASector := if_pos even
    have there : superSector (generation + 1) = superblockBSector := if_neg (by omega)
    rw [here] at found
    rw [there] at other
    rw [found]
    exact newer_of_le fun snapshot' isOther => Nat.le_of_lt (other snapshot' isOther)
  · have here : superSector generation = superblockBSector := if_neg (by omega)
    have there : superSector (generation + 1) = superblockASector := if_pos (by omega)
    rw [here] at found
    rw [there] at other
    rw [found]
    exact newer_of_lt other

/-- A superblock sector that leads to no version as new as the given one. -/
def Outdated (count generation : Nat) (sector : Sector) : Prop :=
  ∀ superblock, decodeSuperblock sector count = .ok superblock → superblock.generation < generation

theorem candidate_eq_some (found : candidate count image number = some snapshot) :
    decodeSuperblock (image number) count = .ok snapshot.superblock ∧
      recordFiles image snapshot.superblock = .ok snapshot.files := by
  unfold candidate at found
  cases decoded : decodeSuperblock (image number) count with
  | error stop =>
    rw [decoded] at found
    cases found
  | ok superblock =>
    rw [decoded] at found
    cases read : recordFiles image superblock with
    | error stop =>
      simp only [value, read] at found
      cases found
    | ok files =>
      simp only [value, read] at found
      cases found
      exact ⟨rfl, read⟩

theorem Version.Stored.latest_eq (stored : version.Stored image) (valid : version.Valid count)
    (outdated : Outdated count version.superblock.generation
      (image (superSector (version.superblock.generation + 1)))) :
    latest count image = some { superblock := version.superblock, files := version.files } :=
  latest_of_candidates (stored.candidate_eq valid) fun _ found =>
    outdated _ (candidate_eq_some found).1

end

/-! ## Mounting -/

section

variable {count : Nat}

theorem recordSlotSpan_eq (room : 136 ≤ count) :
    recordSlotSpan count = .ok (min maxRecordSectors ((count - 8) / 2)) := by
  have half : ¬(count - 8) / 2 < recordSectors := by
    change ¬_ < 64
    omega
  unfold recordSlotSpan checkedSub
  rw [if_pos (show recordAreaStart ≤ count by change 8 ≤ count; omega)]
  exact if_neg half

theorem recordSlotSpan_small (small : ¬136 ≤ count) :
    recordSlotSpan count = fail .deviceTooSmall := by
  have half : (count - 8) / 2 < recordSectors := by
    change _ < 64
    omega
  unfold recordSlotSpan checkedSub
  by_cases area : recordAreaStart ≤ count
  · rw [if_pos area]
    exact if_pos half
  · rw [if_neg area]

theorem two_le_slots (room : 136 ≤ count) :
    2 ≤ (count - 8) / min maxRecordSectors ((count - 8) / 2) := by
  have span : 0 < min maxRecordSectors ((count - 8) / 2) := by
    rw [Nat.lt_min]
    constructor
    · decide
    · omega
  rw [Nat.le_div_iff_mul_le span]
  have bound := Nat.min_le_right maxRecordSectors ((count - 8) / 2)
  omega

theorem recordSlotCount_eq (room : 136 ≤ count) :
    recordSlotCount count (min maxRecordSectors ((count - 8) / 2)) =
      .ok ((count - 8) / min maxRecordSectors ((count - 8) / 2)) := by
  have enough := two_le_slots room
  unfold recordSlotCount checkedSub
  rw [if_pos (show recordAreaStart ≤ count by change 8 ≤ count; omega)]
  exact if_neg (Nat.not_lt.mpr enough)

end

section

variable {disk : Disk} {snapshot : LoadedSnapshot}

/-- The file system that a mount makes of a snapshot. -/
def mounted (disk : Disk) (snapshot : LoadedSnapshot) : CodexFs Disk where
  device := disk
  files := snapshot.files
  generation := snapshot.superblock.generation
  recordSlots := (disk.count - 8) / min maxRecordSectors ((disk.count - 8) / 2)
  recordSlotSectors := min maxRecordSectors ((disk.count - 8) / 2)
  activeRecordStart := snapshot.superblock.recordStart
  activeRecordSectors := snapshot.superblock.recordSectors
  mountState := .existing

theorem mountOrFormat_of_load (room : 136 ≤ disk.count)
    (loaded : loadLatestSnapshot.run disk = .ok (some snapshot) disk')
    (count : disk'.count = disk.count) :
    mountOrFormat disk = .ok (mounted disk' snapshot) := by
  simp only [mountOrFormat, Disk.supportsFlush_eq, Disk.sectorCount_eq, recordSlotSpan_eq room,
    recordSlotCount_eq room, loaded, mounted, count, not_true_eq_false, if_false]

theorem mountOrFormat_of_load_error (room : 136 ≤ disk.count)
    (loaded : loadLatestSnapshot.run disk = .error stop disk') :
    mountOrFormat disk = .error (stop, disk') := by
  simp only [mountOrFormat, Disk.supportsFlush_eq, Disk.sectorCount_eq, recordSlotSpan_eq room,
    recordSlotCount_eq room, loaded, not_true_eq_false, if_false]

theorem mountOrFormat_small (small : ¬136 ≤ disk.count) :
    mountOrFormat disk = .error (.failed .deviceTooSmall, disk) := by
  simp only [mountOrFormat, Disk.supportsFlush_eq, Disk.sectorCount_eq, recordSlotSpan_small small,
    not_true_eq_false, if_false]
  rfl

theorem mountOrFormat_of_latest (room : 136 ≤ disk.count) (reliable : disk.plan = [])
    (found : latest disk.count disk.medium.contents = some snapshot) :
    mountOrFormat disk = .ok (mounted disk snapshot) := by
  apply mountOrFormat_of_load room _ rfl
  rw [loadLatestSnapshot_run reliable (by omega), found, if_neg]
  rintro ⟨none, -⟩
  cases none

end

/-! ## The version of a commit -/

/-- The file system in memory is this version. -/
structure Active (count : Nat) (filesystem : CodexFs Disk) (version : Version) : Prop where
  size : filesystem.device.count = count
  valid : version.Valid count
  files : filesystem.files = version.files
  generation : filesystem.generation = version.superblock.generation
  start : filesystem.activeRecordStart = version.superblock.recordStart
  sectors : filesystem.activeRecordSectors = version.superblock.recordSectors

/-- The version that a prepared commit makes. -/
def Prepared.version (prepared : Prepared) (count : Nat) (files : List FileEntry) : Version where
  superblock := prepared.superblock count
  record := prepared.record
  files

section

variable {count : Nat} {filesystem : CodexFs Disk} {prepared : Prepared} {files : List FileEntry}
  {version : Version} {image : Nat → Sector} {property : (Nat → Sector) → Prop}

theorem Prepared.Ready.valid (ready : prepared.Ready filesystem files) (sorted : Sorted files)
    (isCount : filesystem.device.count = count) (count_lt : count < Word64.size) :
    (prepared.version count files).Valid count := by
  have most := ready.encoded.most
  have length := ready.length
  have maxBytes : maxRecordBytes = maxRecordSectors * sectorSize := rfl
  rw [length, maxBytes] at most
  have inside : prepared.recordStart + prepared.recordSectors ≤ count := isCount ▸ ready.free.inside
  exact
    { superblock :=
        { generation := by
            change prepared.generation ≠ 0
            rw [ready.generation]
            exact Nat.succ_ne_zero _
          generation_lt := ready.generation_lt
          start := ready.free.area
          inside
          capacity_lt := count_lt
          sectors := ready.sectors
          sectors_le := Nat.le_of_mul_le_mul_right most (by decide)
          bytes := length
          capacitySectors := Nat.le_refl _ }
      encoded := ready.encoded
      length
      crc := rfl
      tree := tree_of_validate sorted ready.encoded.count ready.encoded.valid }

theorem Landed.stored (landed : Landed property prepared count image)
    (ready : prepared.Ready filesystem files) : (prepared.version count files).Stored image := by
  obtain ⟨old, -, inPlace, rfl⟩ := landed
  have area := ready.free.area
  have low := superSector_lt prepared.generation
  constructor
  · exact Function.update_self _ _ _
  · intro offset inside
    rw [Function.update_of_ne]
    · exact inPlace offset inside
    · change prepared.recordStart + offset ≠ _
      omega

theorem Landed.keeps (landed : Landed property prepared count image) (valid : version.Valid count)
    (next : prepared.generation = version.superblock.generation + 1)
    (stored : ∀ image, property image → version.Stored image) : version.Stored image := by
  obtain ⟨old, holds, -, rfl⟩ := landed
  apply (stored old holds).update
  have area := valid.superblock.start
  have low := superSector_lt prepared.generation
  rintro (same | ⟨above, -⟩)
  · rw [next] at same
    exact superSector_succ_ne _ same
  · omega

/-- The current version and nothing newer. -/
def Current (count : Nat) (version : Version) (image : Nat → Sector) : Prop :=
  version.Stored image ∧ Outdated count version.superblock.generation
    (image (superSector (version.superblock.generation + 1)))

theorem Landed.current (landed : Landed property prepared count image)
    (active : Active count filesystem version) (ready : prepared.Ready filesystem files)
    (stored : ∀ image, property image → version.Stored image) :
    Current count (prepared.version count files) image := by
  have next : prepared.generation = version.superblock.generation + 1 := by
    rw [ready.generation, active.generation]
  have kept : version.Stored image := landed.keeps active.valid next stored
  refine ⟨landed.stored ready, ?_⟩
  have sector : superSector ((prepared.version count files).superblock.generation + 1) =
      superSector version.superblock.generation := by
    change superSector (prepared.generation + 1) = _
    rw [next, superSector_add_two]
  intro superblock decoded
  rw [sector, kept.superblock, decodeSuperblock_encodeSuperblock active.valid.superblock] at decoded
  cases decoded
  change _ < prepared.generation
  omega

theorem untouched_stored (ready : prepared.Ready filesystem files)
    (active : Active count filesystem version) : Untouched version.Stored prepared := by
  intro image offset sector inside stored
  have area := ready.free.area
  have low := superSector_lt version.superblock.generation
  have nonempty : filesystem.activeRecordSectors ≠ 0 := by
    rw [active.sectors]
    exact active.valid.superblock.sectors
  have apart := ready.free.apart nonempty
  rw [active.start, active.sectors, Apart] at apart
  apply stored.update
  rintro (same | within)
  · omega
  · omega

theorem untouched_sector (ready : prepared.Ready filesystem files) (generation : Nat)
    (holds : Sector → Prop) :
    Untouched (fun image => holds (image (superSector generation))) prepared := by
  intro image offset sector inside held
  have area := ready.free.area
  have low := superSector_lt generation
  rwa [Function.update_of_ne (by omega)]

theorem Untouched.and (first : Untouched property prepared) (second : Untouched other prepared) :
    Untouched (fun image => property image ∧ other image) prepared :=
  fun image offset sector inside holds =>
    ⟨first image offset sector inside holds.1, second image offset sector inside holds.2⟩

theorem Prepared.Ready.spec_store (ready : prepared.Ready filesystem files)
    (isCount : filesystem.device.count = count) (untouched : Untouched property prepared) :
    Spec (Holds count (Medium.Every · property)) (storeSnapshot prepared)
      (fun _ => Holds count fun medium => medium.pending = [] ∧
        Landed property prepared count medium.contents)
      (Torn property prepared count) := by
  have inside : prepared.recordStart + prepared.recordSectors ≤ filesystem.device.count :=
    ready.free.inside
  have area := ready.free.area
  exact spec_storeSnapshot untouched (isCount ▸ inside) (by omega) ready.length

theorem Commits.of_ok (commits : Commits filesystem files (.ok () filesystem'))
    (isCount : filesystem.device.count = count)
    (untouched : ∀ prepared : Prepared, prepared.Ready filesystem files →
      Untouched property prepared) (every : filesystem.device.medium.Every property) :
    ∃ prepared device, prepare filesystem files = .ok prepared ∧
      filesystem' = filesystem.committed prepared device ∧ device.count = count ∧
      device.medium.pending = [] ∧ Landed property prepared count device.medium.contents := by
  cases commits with
  | @stored prepared device isPrepared run =>
    have ready := prepare_ok isPrepared
    have holds := ready.spec_store isCount (untouched prepared ready) filesystem.device
      ⟨isCount, every⟩
    rw [run] at holds
    exact ⟨prepared, device, isPrepared, rfl, holds⟩

theorem Commits.of_error (commits : Commits filesystem files (.error stop filesystem'))
    (isCount : filesystem.device.count = count)
    (untouched : ∀ prepared : Prepared, prepared.Ready filesystem files →
      Untouched property prepared) (every : filesystem.device.medium.Every property) :
    filesystem' = filesystem ∨ ∃ prepared device, prepare filesystem files = .ok prepared ∧
      filesystem' = { filesystem with device } ∧ Torn property prepared count stop device := by
  cases commits with
  | rejected error => exact .inl rfl
  | @failed prepared _ device isPrepared run =>
    have ready := prepare_ok isPrepared
    have holds := ready.spec_store isCount (untouched prepared ready) filesystem.device
      ⟨isCount, every⟩
    rw [run] at holds
    exact .inr ⟨prepared, device, isPrepared, rfl, holds⟩

end

end CodexOS.Filesystem
