import CodexOS.Filesystem.ReadFailure

/-! # What a mount reads and writes

The file system code is generic in its device, so it runs unchanged on a device that
keeps a log of its calls.
-/

namespace CodexOS.Filesystem

open Block BlockDevice Effect

inductive Access
  | read (sector : Nat)
  | write (sector : Nat)
  | flush
  deriving DecidableEq

/-- A disk with a log of its calls. -/
structure Probe where
  disk : Disk
  log : List Access

namespace Probe

def logged {α : Type} (access : Access) (call : EStateM BlockError Disk α) :
    EStateM BlockError Probe α := fun probe =>
  match call.run probe.disk with
  | .ok a disk => .ok a { disk, log := access :: probe.log }
  | .error error disk => .error error { disk, log := access :: probe.log }

instance : BlockDevice Probe where
  sectorCount probe := sectorCount probe.disk
  supportsFlush probe := supportsFlush probe.disk
  readSector sector := logged (.read sector) (readSector sector)
  writeSector sector input := logged (.write sector) (writeSector sector input)
  flush := logged .flush flush

end Probe

/-- Nothing but reads of sectors that are there has happened to the disk. -/
def Probe.Untouched (disk : Disk) (probe : Probe) : Prop :=
  probe.disk = disk ∧ ∀ access ∈ probe.log, ∃ sector < disk.count, access = .read sector

/-- All reads so far were of sectors that are there. -/
def Probe.InRange (count : Nat) (probe : Probe) : Prop :=
  ∀ sector, .read sector ∈ probe.log → sector < count

section

variable {disk : Disk} {probe : Probe} {access : Access} {count : Nat}

theorem Probe.Untouched.inRange (untouched : probe.Untouched disk) : probe.InRange disk.count := by
  intro sector mem
  obtain ⟨_, inside, same⟩ := untouched.2 _ mem
  cases same
  exact inside

theorem call_logged_ok (run : x.run probe.disk = .ok a disk) :
    (call (Probe.logged access x)).run probe = .ok a { disk, log := access :: probe.log } := by
  refine call_ok (show Probe.logged access x probe = _ from ?_)
  rw [Probe.logged, run]

theorem call_logged_error (run : x.run probe.disk = .error error disk) :
    (call (Probe.logged access x)).run probe =
      .error (.failed (.block error)) { disk, log := access :: probe.log } := by
  refine call_error (show Probe.logged access x probe = _ from ?_)
  rw [Probe.logged, run]

theorem reads_untouched (reliable : disk.plan = []) :
    Reads (Probe.Untouched disk) False disk.count disk.medium.contents where
  size probe untouched := congrArg Disk.count untouched.1
  read number inside := by
    rintro ⟨_, log⟩ ⟨isDisk, onlyReads⟩
    obtain rfl : disk = _ := isDisk.symm
    have inside := inside.resolve_left id
    have run : (readSector number).run disk = .ok (disk.medium.contents number) disk := by
      refine (if_neg (Nat.not_le.mpr inside)).trans ?_
      obtain ⟨count, medium, plan⟩ := disk
      cases reliable
      rfl
    have isLogged : (call (readSector number)).run (⟨disk, log⟩ : Probe) = _ := call_logged_ok run
    rw [isLogged]
    exact ⟨⟨rfl, List.forall_mem_cons.mpr ⟨⟨number, inside, rfl⟩, onlyReads⟩⟩, rfl⟩

theorem inRange_logged (access : Access) (noRead : ∀ sector, access ≠ .read sector)
    (x : EStateM BlockError Disk α) :
    Spec (Probe.InRange count) (call (Probe.logged access x)) (fun _ => Probe.InRange count)
      fun _ => Probe.InRange count := by
  intro probe inRange
  have kept : ∀ disk, Probe.InRange count ⟨disk, access :: probe.log⟩ := by
    intro disk sector mem
    rcases List.mem_cons.mp mem with same | mem
    · exact absurd same.symm (noRead sector)
    · exact inRange sector mem
  cases run : x.run probe.disk with
  | ok a disk =>
    rw [call_logged_ok run]
    exact kept disk
  | error error disk =>
    rw [call_logged_error run]
    exact kept disk

theorem inRange_writeSectors (start : Nat) (record : Bytes) (offset left : Nat) :
    Spec (Probe.InRange count) (writeSectors start record offset left) (fun _ => Probe.InRange count)
      fun _ => Probe.InRange count := by
  induction left generalizing offset with
  | zero => exact .pure _ fun _ => id
  | succ left ih =>
    refine Spec.bind ((spec_lift _).weaken (fun _ => id) (fun _ _ => And.left) fun _ _ => And.left)
      fun sector => ?_
    exact (inRange_logged (.write (start + offset)) nofun _).bind fun _ => ih (offset + 1)

/-- A commit reads nothing. -/
theorem inRange_commitFiles (files : List FileEntry) :
    Spec (fun filesystem : CodexFs Probe => filesystem.device.InRange count) (commitFiles files)
      (fun _ filesystem => filesystem.device.InRange count)
      fun _ filesystem => filesystem.device.InRange count := by
  refine Spec.get_bind fun filesystem _ => ?_
  refine Spec.bind ((spec_lift _).weaken (fun _ => id) (fun _ _ => And.left) fun _ _ => And.left)
    fun prepared => ?_
  have stored : Spec (Probe.InRange count) (storeSnapshot prepared) (fun _ => Probe.InRange count)
      fun _ => Probe.InRange count := by
    refine (inRange_writeSectors _ _ _ _).bind fun _ => ?_
    refine (inRange_logged .flush nofun _).bind fun _ => Spec.get_bind fun device _ => ?_
    exact (inRange_logged (.write _) nofun _).bind fun _ => inRange_logged .flush nofun _
  refine Spec.bind ?_ fun _ _ inRange => inRange
  intro filesystem inRange
  have ends := stored filesystem.device inRange
  cases run : (storeSnapshot prepared).run filesystem.device with
  | ok _ device =>
    rw [run] at ends
    rw [onDevice_ok run]
    exact ends
  | error _ device =>
    rw [run] at ends
    rw [onDevice_error run]
    exact ends

end

/-- The device as a mount leaves it. -/
def deviceOf {δ : Type} : Except (Stop × δ) (CodexFs δ) → δ
  | .ok filesystem => filesystem.device
  | .error (_, device) => device

theorem inRange_handOver {filesystem : CodexFs Probe} (inRange : filesystem.device.InRange count) :
    (deviceOf (handOver ((commitFiles files).run filesystem))).InRange count := by
  have ends := inRange_commitFiles files filesystem inRange
  cases run : (commitFiles files).run filesystem with
  | ok _ filesystem' =>
    rw [run] at ends
    exact ends
  | error _ filesystem' =>
    rw [run] at ends
    exact ends

/-- Both superblock sectors are zero. -/
def Unformatted (disk : Disk) : Prop :=
  ∀ number, number = superblockASector ∨ number = superblockBSector →
    (disk.medium.contents number).bytes.any (· ≠ 0) = false

/-- A superblock sector decodes, and so does the record it names, with its checksum and its
    generation. -/
def Snapshot (disk : Disk) (snapshot : LoadedSnapshot) : Prop :=
  ∃ number, (number = superblockASector ∨ number = superblockBSector) ∧
    candidate disk.count disk.medium.contents number = some snapshot

theorem latest_greatest {disk : Disk} (found : latest disk.count disk.medium.contents = some newest)
    (valid : Snapshot disk other) :
    other.superblock.generation ≤ newest.superblock.generation := by
  obtain ⟨number, rfl | rfl, isOther⟩ := valid
  all_goals
    obtain ⟨isNewest, least⟩ | ⟨isNewest, greater⟩ := newer_cases found
  · cases isOther.symm.trans isNewest
    exact Nat.le_refl _
  · exact (greater other isOther).le
  · exact least other isOther
  · cases isOther.symm.trans isNewest
    exact Nat.le_refl _

/-- A mount reads only sectors that are there. Unless both superblock sectors are zero it writes
    nothing, and it fails, without a panic, or takes the files of a snapshot with the greatest
    generation. -/
theorem mount_never_destroys (disk : Disk) (reliable : disk.plan = []) :
    (deviceOf (mountOrFormat (⟨disk, []⟩ : Probe))).InRange disk.count ∧
    (¬Unformatted disk →
      (deviceOf (mountOrFormat (⟨disk, []⟩ : Probe))).Untouched disk ∧
      ((∃ error device, mountOrFormat (⟨disk, []⟩ : Probe) = .error (.failed error, device)) ∨
        ∃ filesystem snapshot, mountOrFormat (⟨disk, []⟩ : Probe) = .ok filesystem ∧
          filesystem.files = snapshot.files ∧
          filesystem.generation = snapshot.superblock.generation ∧ Snapshot disk snapshot ∧
          ∀ other, Snapshot disk other →
            other.superblock.generation ≤ snapshot.superblock.generation)) := by
  have start : (⟨disk, []⟩ : Probe).Untouched disk := ⟨rfl, nofun⟩
  generalize isMount : mountOrFormat (⟨disk, []⟩ : Probe) = result
  unfold mountOrFormat at isMount
  rw [if_neg (show ¬¬supportsFlush (⟨disk, []⟩ : Probe) = true from not_not.mpr rfl),
    show sectorCount (⟨disk, []⟩ : Probe) = disk.count from rfl] at isMount
  by_cases room : 136 ≤ disk.count
  · rw [recordSlotSpan_eq room] at isMount
    dsimp only at isMount
    rw [recordSlotCount_eq room] at isMount
    dsimp only at isMount
    have loads := (reads_untouched reliable).loadLatestSnapshot (.inr (by omega)) _ start
    cases load : loadLatestSnapshot.run (⟨disk, []⟩ : Probe) with
    | error stop probe =>
      rw [load] at loads isMount
      obtain ⟨untouched, isStop⟩ := loads
      cases isStop.resolve_left id
      rw [← isMount]
      exact ⟨untouched.inRange, fun _ => ⟨untouched, .inl ⟨_, _, rfl⟩⟩⟩
    | ok found probe =>
      rw [load] at loads isMount
      obtain ⟨untouched, sourced, isLatest, blank⟩ := loads
      cases found with
      | some snapshot =>
        rw [← isMount]
        have isLatest := (isLatest.resolve_left id).symm
        exact ⟨untouched.inRange, fun _ => ⟨untouched, .inr ⟨_, snapshot, rfl, rfl, rfl,
          sourced snapshot rfl, fun _ => latest_greatest isLatest⟩⟩⟩
      | none =>
        refine ⟨?_, fun formatted => absurd (blank rfl) formatted⟩
        rw [← isMount]
        exact inRange_handOver untouched.inRange
  · rw [recordSlotSpan_small room] at isMount
    rw [← isMount]
    exact ⟨start.inRange, fun _ => ⟨start, .inl ⟨_, _, rfl⟩⟩⟩

/-- A byte in a superblock sector that does not decode. -/
theorem mount_never_destroys_damaged :
    ∃ (disk : Disk) (device : Probe), disk.plan = [] ∧ ¬Unformatted disk ∧
      deviceOf (mountOrFormat (⟨disk, []⟩ : Probe)) = device ∧ device.Untouched disk := by
  refine ⟨Disk.restart 136 fun _ => .filled 1, _, rfl, fun zero => ?_, rfl, ?_⟩
  · cases zero superblockASector (.inl rfl)
  · refine ((mount_never_destroys (Disk.restart 136 fun _ => .filled 1) rfl).2 fun zero => ?_).1
    cases zero superblockASector (.inl rfl)

end CodexOS.Filesystem
