import CodexOS.Filesystem.Versions

/-! # Formatting

With all device calls served a commit returns, as soon as its record fits. On a
disk of zeros `mount_or_format` commits the empty list.
-/

namespace CodexOS.Filesystem

open Bytes Block BlockDevice Effect Word64

/-! ## Commits that are served -/

section

variable {count : Nat} {filesystem : CodexFs Disk} {prepared : Prepared} {files : List FileEntry}

/-- The calls since the plan was `start` were all served. -/
def AllServed (count : Nat) (start : List Fate) (disk : Disk) : Prop :=
  disk.count = count ∧ ∃ used, start = used ++ disk.plan ∧ ∀ fate ∈ used, fate = .served

/-- One of the calls since the plan was `start` was not served. -/
def OneFailed (start : List Fate) (disk : Disk) : Prop :=
  ∃ used, start = used ++ disk.plan ∧ ∃ fate ∈ used, fate ≠ .served

variable {start : List Fate}

theorem AllServed.answered (served : AllServed count start ⟨count, medium, fate :: plan⟩) :
    (fate = .served → AllServed count start ⟨count, medium', plan⟩) ∧
      (fate ≠ .served → OneFailed start ⟨count, medium', plan⟩) := by
  obtain ⟨-, used, isStart, all⟩ := served
  have longer : start = (used ++ [fate]) ++ plan := by
    rw [isStart, List.append_assoc, List.singleton_append]
  constructor
  · intro here
    refine ⟨rfl, used ++ [fate], longer, fun other mem => ?_⟩
    rcases List.mem_append.mp mem with mem | mem
    · exact all other mem
    · rw [List.mem_singleton.mp mem, here]
  · intro here
    exact ⟨used ++ [fate], longer, fate, by simp, here⟩

theorem served_answer {α : Type} {step : EStateM BlockError Disk α} {value : Disk → α}
    {effect : Medium Nat Sector → Medium Nat Sector}
    (isStep : ∀ disk : Disk, disk.count = count →
      step.run disk = disk.answer (value disk) (effect disk.medium)) :
    Spec (AllServed count start) (call step) (fun _ => AllServed count start)
      fun _ => OneFailed start := by
  intro disk served
  have run := isStep disk served.1
  unfold Disk.answer at run
  obtain ⟨size, medium, plan⟩ := disk
  obtain rfl : size = count := served.1
  cases plan with
  | nil =>
    rw [call_ok run]
    exact served
  | cons fate plan =>
    cases fate with
    | served =>
      rw [call_ok run]
      exact served.answered.1 rfl
    | refused error =>
      rw [call_error run]
      exact served.answered.2 nofun
    | unanswered error =>
      rw [call_error run]
      exact served.answered.2 nofun

theorem served_writeSector (inside : sector < count) :
    Spec (AllServed count start) (call (writeSector sector input)) (fun _ => AllServed count start)
      fun _ => OneFailed start := by
  refine @served_answer _ _ _ _ (fun _ => ()) (·.write sector input) fun disk isCount => ?_
  change (if disk.count ≤ sector then _ else _) = _
  rw [if_neg (by omega)]

theorem served_flush :
    Spec (AllServed count start) (call flush) (fun _ => AllServed count start)
      fun _ => OneFailed start :=
  @served_answer _ _ _ _ (fun _ => ()) _ fun _ _ => rfl

theorem served_writeSectors (inside : first + sectors ≤ count)
    (length : record.length = sectors * sectorSize) (total : offset + left = sectors) :
    Spec (AllServed count start) (writeSectors first record offset left)
      (fun _ => AllServed count start) fun _ => OneFailed start := by
  induction left generalizing offset with
  | zero => exact .pure () fun _ => id
  | succ left ih =>
    obtain ⟨sector, isSector, -⟩ := sectorOf_eq length (show offset < sectors by omega)
    unfold writeSectors
    rw [isSector, lift_ok_bind]
    exact Spec.bind (served_writeSector (by omega)) fun _ => ih (by omega)

/-- A commit returns if all its calls are served, and fails at the first one that is not. -/
theorem served_storeSnapshot (inside : prepared.recordStart + prepared.recordSectors ≤ count)
    (area : recordAreaStart ≤ count)
    (length : prepared.record.length = prepared.recordSectors * sectorSize) :
    Spec (AllServed count start) (storeSnapshot prepared) (fun _ => AllServed count start)
      fun _ => OneFailed start := by
  have super := superSector_lt prepared.generation
  unfold storeSnapshot
  apply (served_writeSectors inside length (Nat.zero_add _)).bind
  intro _
  apply served_flush.bind
  intro _
  apply Spec.get_bind
  intro disk holds
  exact (served_writeSector (by omega)).bind fun _ => served_flush

/-- A disk whose calls are all served. -/
def Reliable (count : Nat) (disk : Disk) : Prop :=
  disk.count = count ∧ disk.plan = []

theorem reliable_storeSnapshot (inside : prepared.recordStart + prepared.recordSectors ≤ count)
    (area : recordAreaStart ≤ count)
    (length : prepared.record.length = prepared.recordSectors * sectorSize) :
    Spec (Reliable count) (storeSnapshot prepared) (fun _ => Reliable count)
      fun _ _ => False := by
  refine (@served_storeSnapshot _ _ [] inside area length).weaken ?_ ?_ ?_
  · rintro disk ⟨isCount, nothing⟩
    exact ⟨isCount, [], nothing.symm, nofun⟩
  · rintro _ disk ⟨isCount, used, isNil, -⟩
    exact ⟨isCount, (List.append_eq_nil_iff.mp isNil.symm).2⟩
  · rintro _ disk ⟨used, isNil, fate, mem, -⟩
    rw [(List.append_eq_nil_iff.mp isNil.symm).1] at mem
    cases mem

theorem commitFiles_served (isPrepared : prepare filesystem files = .ok prepared)
    (reliable : filesystem.device.plan = []) :
    ∃ device, device.plan = [] ∧
      (commitFiles files).run filesystem = .ok () (filesystem.committed prepared device) := by
  have ready := prepare_ok isPrepared
  have inside : prepared.recordStart + prepared.recordSectors ≤ filesystem.device.count :=
    ready.free.inside
  have area := ready.free.area
  have served := reliable_storeSnapshot inside (by omega) ready.length filesystem.device
    ⟨rfl, reliable⟩
  have commits := commitFiles_commits filesystem files
  generalize (commitFiles files).run filesystem = result at commits
  cases commits with
  | rejected error =>
    rw [isPrepared] at error
    cases error
  | failed isPrepared' run =>
    rw [isPrepared] at isPrepared'
    cases isPrepared'
    rw [run] at served
    exact served.elim
  | @stored _ device isPrepared' run =>
    rw [isPrepared] at isPrepared'
    cases isPrepared'
    rw [run] at served
    exact ⟨device, served.2, rfl⟩

end

/-! ## Formatting -/

section

variable {count : Nat} {disk : Disk}

theorem decodeSuperblock_zero (superblock : Superblock) :
    decodeSuperblock (.filled 0) count ≠ .ok superblock := by
  intro ok
  unfold decodeSuperblock at ok
  dsimp only at ok
  obtain ⟨version, -, ok⟩ := of_except_bind ok
  obtain ⟨headerBytes, -, ok⟩ := of_except_bind ok
  split at ok
  · cases ok
  · rename_i supported
    exact supported (.inl (by decide))

theorem nonzero_of_decodeSuperblock (decoded : decodeSuperblock sector count = .ok superblock) :
    sector.bytes.any (· ≠ 0) = true := by
  by_contra zero
  rw [Bool.not_eq_true] at zero
  have isZero : sector = .filled 0 := by
    apply Sector.ext
    apply List.eq_replicate_iff.mpr
    refine ⟨Sector.length_eq _, fun byte mem => ?_⟩
    have small := List.any_eq_false.mp zero byte mem
    simpa using small
  rw [isZero] at decoded
  exact decodeSuperblock_zero _ decoded

theorem outdated_zero (generation : Nat) : Outdated count generation (.filled 0) :=
  fun superblock ok => absurd ok (decodeSuperblock_zero superblock)

/-- The file system that `mount_or_format` commits for the first time. -/
def unformatted (disk : Disk) : CodexFs Disk where
  device := disk
  files := []
  generation := 0
  recordSlots := (disk.count - 8) / min maxRecordSectors ((disk.count - 8) / 2)
  recordSlotSectors := min maxRecordSectors ((disk.count - 8) / 2)
  activeRecordStart := 0
  activeRecordSectors := 0
  mountState := .formatted

theorem candidate_zero (zero : image number = .filled 0) :
    candidate count image number = none := by
  cases found : candidate count image number with
  | none => rfl
  | some snapshot =>
    have decoded := (candidate_eq_some found).1
    rw [zero] at decoded
    exact absurd decoded (decodeSuperblock_zero _)

section

variable (room : 136 ≤ count)

include room

theorem loadLatestSnapshot_blank :
    loadLatestSnapshot.run (Disk.blank count) = .ok none (Disk.blank count) := by
  have none : latest count (Disk.blank count).medium.contents = none := by
    unfold latest
    rw [candidate_zero rfl, candidate_zero rfl]
    rfl
  have size : (Disk.blank count).count = count := rfl
  rw [loadLatestSnapshot_run rfl (by rw [size]; omega), size, none, if_neg]
  have zero : ¬(Sector.filled 0).bytes.any (· ≠ 0) = true := by
    simp [Sector.filled]
  rintro ⟨-, nonzero | nonzero⟩
  · exact zero nonzero
  · exact zero nonzero

theorem mountOrFormat_blank :
    mountOrFormat (Disk.blank count) =
      handOver ((commitFiles []).run (unformatted (Disk.blank count))) := by
  have isCount : (Disk.blank count).count = count := rfl
  simp only [mountOrFormat, Disk.supportsFlush_eq, Disk.sectorCount_eq, isCount,
    recordSlotSpan_eq room, recordSlotCount_eq room, loadLatestSnapshot_blank room,
    not_true_eq_false, if_false]
  rfl

theorem prepare_unformatted (count_lt : count < Word64.size) :
    ∃ prepared, prepare (unformatted (Disk.blank count)) [] = .ok prepared ∧
      prepared.generation = 1 ∧ prepared.recordSectors = 64 ∧
      prepared.recordStart = 8 + min maxRecordSectors ((count - 8) / 2) := by
  obtain ⟨record, isRecord, length⟩ :=
    encodeRecord_small 1 (show ([] : List FileEntry).length ≤ maxFiles by decide) rfl (by decide)
  have span : 64 ≤ min maxRecordSectors ((count - 8) / 2) := by
    rw [Nat.le_min]
    constructor
    · decide
    · omega
  have slots := two_le_slots room
  have fits : 8 + 2 * min maxRecordSectors ((count - 8) / 2) ≤ count := by
    have bound := Nat.min_le_right maxRecordSectors ((count - 8) / 2)
    omega
  have start : selectRecordStart (unformatted (Disk.blank count)) 1 64 =
      .ok (8 + min maxRecordSectors ((count - 8) / 2)) := by
    unfold selectRecordStart
    obtain ⟨left, isLeft⟩ := Nat.exists_eq_add_of_le' (Nat.le_of_succ_le slots)
    have isSlots : (unformatted (Disk.blank count)).recordSlots = left + 1 := isLeft
    have isSpan : (unformatted (Disk.blank count)).recordSlotSectors =
      min maxRecordSectors ((count - 8) / 2) := rfl
    have slot : (1 + 0) % (left + 1) = 1 := Nat.mod_eq_of_lt (by omega)
    rw [isSlots, selectFrom, addOr_of_lt (by decide), except_ok_bind, isSlots, isSpan]
    dsimp only
    rw [slot, mulOr, checkedMul, Nat.one_mul, if_pos (by omega)]
    change (addOr .arithmeticOverflow 8 _ >>= _) = _
    rw [addOr_of_lt (by omega), except_ok_bind, addOr_of_lt (by omega), except_ok_bind, if_neg]
    · rfl
    · change ¬count < _
      omega
  refine ⟨⟨1, record, 64, 8 + min maxRecordSectors ((count - 8) / 2)⟩, ?_, rfl, rfl, rfl⟩
  have sectors : record.length / sectorSize = 64 := by
    rw [length]
    rfl
  have isGeneration : addOr .arithmeticOverflow (unformatted (Disk.blank count)).generation 1 =
      .ok 1 := rfl
  have isSpan : (unformatted (Disk.blank count)).recordSlotSectors =
      min maxRecordSectors ((count - 8) / 2) := rfl
  unfold prepare
  rw [isGeneration, except_ok_bind, isRecord, except_ok_bind]
  dsimp only
  rw [sectors, if_neg (by decide), isSpan, if_neg (by omega), start]
  rfl

theorem format_blank (count_lt : count < Word64.size) :
    ∃ filesystem, mountOrFormat (Disk.blank count) = .ok filesystem ∧ filesystem.files = [] := by
  obtain ⟨prepared, isPrepared, -⟩ := prepare_unformatted room count_lt
  obtain ⟨device, -, committed⟩ := commitFiles_served isPrepared rfl
  refine ⟨(unformatted (Disk.blank count)).committed prepared device, ?_, rfl⟩
  rw [mountOrFormat_blank room, committed]
  rfl

end

end

end CodexOS.Filesystem
