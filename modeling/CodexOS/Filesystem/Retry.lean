import CodexOS.Filesystem.Crash

/-! # Commits that the device fails

A commit whose device calls fail leaves the file system in memory as it was. The
superblock of the version it was to make may be on the disk all the same, and the
same operation, done again, makes the same generation in the same superblock sector.
What it finds there does not matter, as only the version in memory has to stay.
-/

namespace CodexOS.Filesystem

open Bytes Block BlockDevice Effect Word64

section

variable {count : Nat} {filesystem : CodexFs Disk} {history : List (List FileEntry)}
  {version : Version} {image : Nat → Sector} {operation : Operation} {next : List FileEntry}
  {device : Disk}

/-- A device call of the operation returned an error; it may have had its effect or not. -/
def DeviceFails (filesystem : CodexFs Disk) (operation : Operation) : Prop :=
  OneFailed filesystem.device.plan (after operation.perform filesystem).device

/-- What calls were made is determined by the plans before and after. -/
theorem AllServed.not_oneFailed (served : AllServed count start disk) : ¬OneFailed start disk := by
  rintro ⟨used, isStart, fate, mem, notServed⟩
  obtain ⟨-, used', isStart', all⟩ := served
  rw [isStart, List.append_cancel_right_eq] at isStart'
  exact notServed (all fate (isStart' ▸ mem))

theorem not_oneFailed_self : ¬OneFailed disk.plan disk :=
  AllServed.not_oneFailed ⟨rfl, [], rfl, nofun⟩

/-- How a prepared commit ends, by its device calls. -/
theorem Prepared.Ready.served (ready : prepared.Ready filesystem next) :
    Spec (AllServed filesystem.device.count filesystem.device.plan) (storeSnapshot prepared)
      (fun _ => AllServed filesystem.device.count filesystem.device.plan)
      fun _ => OneFailed filesystem.device.plan := by
  have inside : prepared.recordStart + prepared.recordSectors ≤ filesystem.device.count :=
    ready.free.inside
  have area := ready.free.area
  exact served_storeSnapshot inside (by omega) ready.length

/-- The operation has a list to commit. -/
structure Operation.Writes (operation : Operation) (filesystem : CodexFs Disk)
    (next : List FileEntry) (prepared : Prepared) : Prop where
  isNext : operation.next filesystem.files = .ok next
  isPrepared : prepare filesystem next = .ok prepared
  changes : operation.skipsUnchanged = true → next ≠ filesystem.files

theorem perform_run (isNext : operation.next filesystem.files = .ok next)
    (changes : operation.skipsUnchanged = true → next ≠ filesystem.files) :
    operation.perform.run filesystem = (replaceFiles next).run filesystem := by
  rw [perform_eq, bind_ok (run_lift_ok isNext), if_neg fun same => changes same.1 same.2]

section

variable {prepared : Prepared} {stop : Stop}

section

variable (writes : operation.Writes filesystem next prepared)

include writes

theorem Operation.Writes.error
    (failed : (storeSnapshot prepared).run filesystem.device = .error stop device) :
    operation.perform.run filesystem = .error stop { filesystem with device } := by
  have commit : (commitFiles next).run filesystem = .error stop { filesystem with device } :=
    (bind_ok (run_lift_ok writes.isPrepared)).trans (bind_error (onDevice_error failed))
  rw [perform_run writes.isNext writes.changes]
  exact bind_error commit

theorem Operation.Writes.ok
    (stored : (storeSnapshot prepared).run filesystem.device = .ok () device) :
    operation.perform.run filesystem =
      .ok () { filesystem.committed prepared device with files := next } := by
  have commit : (commitFiles next).run filesystem =
      .ok () (filesystem.committed prepared device) :=
    (bind_ok (run_lift_ok writes.isPrepared)).trans (bind_ok (onDevice_ok stored))
  rw [perform_run writes.isNext writes.changes]
  exact bind_ok commit

/-- Whether the device fails an operation that writes is decided in its commit. -/
theorem Operation.Writes.cases :
    (∃ stop device, (storeSnapshot prepared).run filesystem.device = .error stop device ∧
        DeviceFails filesystem operation) ∨
      ∃ device, (storeSnapshot prepared).run filesystem.device = .ok () device ∧
        ¬DeviceFails filesystem operation := by
  have traced := (prepare_ok writes.isPrepared).served filesystem.device ⟨rfl, [], rfl, nofun⟩
  unfold DeviceFails
  cases run : (storeSnapshot prepared).run filesystem.device with
  | ok value device =>
    rw [run] at traced
    rw [after_ok (writes.ok run)]
    exact .inr ⟨device, rfl, traced.not_oneFailed⟩
  | error stop device =>
    rw [run] at traced
    rw [after_error (writes.error run)]
    exact .inl ⟨stop, device, rfl, traced⟩

end

theorem DeviceFails.writes (fails : DeviceFails filesystem operation) :
    ∃ next prepared, operation.Writes filesystem next prepared := by
  have reaches {next : List FileEntry} {prepared : Prepared}
      (isNext : operation.next filesystem.files = .ok next)
      (isPrepared : prepare filesystem next = .ok prepared) :
      ∃ next prepared, operation.Writes filesystem next prepared := by
    refine ⟨next, prepared, isNext, isPrepared, fun skips same => ?_⟩
    have done : operation.perform.run filesystem = .ok () filesystem := by
      rw [perform_eq, bind_ok (run_lift_ok isNext), if_pos ⟨skips, same⟩]
      rfl
    rw [DeviceFails, after_ok done] at fails
    exact not_oneFailed_self fails
  have performs := perform_performs filesystem operation
  unfold DeviceFails after at fails
  generalize operation.perform.run filesystem = result at performs fails
  cases performs with
  | invalid error => exact absurd fails not_oneFailed_self
  | unchanged same => exact absurd fails not_oneFailed_self
  | refused isNext commits =>
    cases commits with
    | rejected error => exact absurd fails not_oneFailed_self
    | failed isPrepared run => exact reaches isNext isPrepared
  | committed isNext commits =>
    cases commits with
    | stored isPrepared run => exact reaches isNext isPrepared

end

/-- A mount finds such entries, whether the power failed before it or not. -/
def Remounts (device : Disk) (allowed : List FileEntry → Prop) : Prop :=
  (∃ mounted, mountOrFormat (device.later []) = .ok mounted ∧ allowed mounted.files) ∧
    ∀ image, device.medium.Survives image →
      ∃ mounted, mountOrFormat (Disk.restart device.count image) = .ok mounted ∧
        allowed mounted.files

theorem remounts_of_every (room : 136 ≤ device.count)
    (every : device.medium.Every fun image => ∃ version : Version, version.Valid device.count ∧
      Current device.count version image ∧ allowed version.files) : Remounts device allowed := by
  refine ⟨?_, fun image survives => ?_⟩
  · obtain ⟨version, valid, current, allowed⟩ := every.contents
    exact ⟨_, mountOrFormat_of_latest room rfl (current.1.latest_eq valid current.2), allowed⟩
  · obtain ⟨version, valid, current, allowed⟩ := every image survives
    exact ⟨_, mount_restart room valid current, allowed⟩

/-- What a failed commit leaves on the disk: the version in memory, and maybe the superblock of the
    one it was to make. -/
theorem Operation.Writes.torn (room : 136 ≤ count) (count_lt : count < Word64.size)
    (writes : operation.Writes filesystem next prepared) (active : Active count filesystem version)
    (every : filesystem.device.medium.Every (Current count version))
    (failed : (storeSnapshot prepared).run filesystem.device = .error stop device) :
    DeviceError stop ∧ device.count = count ∧ device.medium.Every version.Stored ∧
      Remounts device fun files => files = filesystem.files ∨ files = next := by
  have ready := prepare_ok writes.isPrepared
  have tree : Tree filesystem.files := active.files ▸ active.valid.tree
  have sorted := (Operation.next_maps tree writes.isNext).sorted
  have torn := ready.spec_store active.size (untouched_current active ready) filesystem.device
    ⟨active.size, every⟩
  rw [failed] at torn
  obtain ⟨isDevice, isCount, left⟩ := torn
  have followed : prepared.generation = version.superblock.generation + 1 := by
    rw [ready.generation, active.generation]
  refine ⟨isDevice, isCount, left.imp fun image => ?_, remounts_of_every (isCount ▸ room)
    (left.imp fun image => ?_)⟩
  · rintro (current | landed)
    · exact current.1
    · exact landed.keeps active.valid followed fun _ current => current.1
  · rw [isCount]
    rintro (current | landed)
    · exact ⟨version, active.valid, current, .inl active.files.symm⟩
    · exact ⟨prepared.version count next, ready.valid sorted active.size count_lt,
        landed.current active ready fun _ current => current.1, .inr rfl⟩

/-- A commit over whatever a failed one left: only the version in memory has to be there. -/
theorem Operation.Writes.committed {prepared : Prepared} (room : 136 ≤ count)
    (count_lt : count < Word64.size) (writes : operation.Writes filesystem next prepared)
    (active : Active count filesystem version)
    (every : filesystem.device.medium.Every version.Stored)
    (stored : (storeSnapshot prepared).run filesystem.device = .ok () device) :
    Remounts device (· = next) := by
  have ready := prepare_ok writes.isPrepared
  have tree : Tree filesystem.files := active.files ▸ active.valid.tree
  have sorted := (Operation.next_maps tree writes.isNext).sorted
  have landed := ready.spec_store active.size (untouched_stored ready active) filesystem.device
    ⟨active.size, every⟩
  rw [stored] at landed
  obtain ⟨isCount, flushed, landed⟩ := landed
  refine remounts_of_every (isCount ▸ room) (Medium.every_of_flushed flushed ?_)
  rw [isCount]
  exact ⟨prepared.version count next, ready.valid sorted active.size count_lt,
    landed.current active ready fun _ => id, rfl⟩

/-- When the device fails an operation, the operation fails and only the device has changed; a mount
    then finds the entries as they were or as the operation was to make them. Done again with its
    calls served, the operation is committed, and a mount finds what it made. -/
theorem failed_commit_atomicity (count_lt : count < Word64.size)
    (run : Run count filesystem history) (operation : Operation) (plan : List Fate)
    (fails : DeviceFails (filesystem.withPlan plan) operation) :
    ∃ next device error, operation.next filesystem.files = .ok next ∧
      operation.perform.run (filesystem.withPlan plan) =
        .error (.failed (.block error)) { filesystem with device } ∧
      Remounts device (fun files => files = filesystem.files ∨ files = next) ∧
      ∀ plan', ¬DeviceFails ({ filesystem with device }.withPlan plan') operation →
        ∃ done, operation.perform.run ({ filesystem with device }.withPlan plan') = .ok () done ∧
          done.files = next ∧ done.generation = filesystem.generation + 1 ∧
          Remounts done.device (· = next) := by
  have room := run.room
  have orderly := run.orderly count_lt room
  obtain ⟨version, older, active, stored, -, backed⟩ := orderly.current
  have every : (filesystem.withPlan plan).device.medium.Every (Current count version) :=
    Medium.every_of_flushed orderly.flushed ⟨stored, backed.outdated⟩
  obtain ⟨next, prepared, writes⟩ := fails.writes
  obtain ⟨stop, device, failed, -⟩ | ⟨device, -, served⟩ := writes.cases
  · obtain ⟨⟨error, rfl⟩, isCount, kept, remounts⟩ :=
      writes.torn room count_lt (active.withPlan plan) every failed
    refine ⟨next, device, error, writes.isNext, writes.error failed, remounts, fun plan' served => ?_⟩
    have active' : Active count ({ filesystem with device }.withPlan plan') version :=
      ⟨isCount, active.valid, active.files, active.generation, active.start, active.sectors⟩
    have again : operation.Writes ({ filesystem with device }.withPlan plan') next prepared := by
      refine ⟨writes.isNext, ?_, writes.changes⟩
      rw [prepare_withPlan, prepare_device next (isCount.trans active.size.symm),
        ← writes.isPrepared, prepare_withPlan]
    obtain ⟨_, _, -, fails⟩ | ⟨device', stored', -⟩ := again.cases
    · exact absurd fails served
    · exact ⟨_, again.ok stored', rfl, (prepare_ok again.isPrepared).generation,
        again.committed room count_lt active' kept stored'⟩
  · exact absurd fails served

end

theorem Prepared.Ready.refused {filesystem : CodexFs Disk} {prepared : Prepared}
    {files : List FileEntry} {error : BlockError} {plan : List Fate}
    (ready : prepared.Ready filesystem files) (isPlan : filesystem.device.plan = .refused error :: plan) :
    (storeSnapshot prepared).run filesystem.device =
      .error (.failed (.block error)) (filesystem.device.later plan) := by
  obtain ⟨left, isLeft⟩ := Nat.exists_eq_succ_of_ne_zero ready.sectors
  have inside : prepared.recordStart + prepared.recordSectors ≤ filesystem.device.count :=
    ready.free.inside
  obtain ⟨sector, isSector, -⟩ := sectorOf_eq ready.length (show 0 < prepared.recordSectors by omega)
  have write : (writeSector (prepared.recordStart + 0) sector).run filesystem.device =
      .error error (filesystem.device.later plan) := by
    change (if filesystem.device.count ≤ prepared.recordStart + 0 then _ else _) = _
    rw [if_neg (by omega), Disk.answer, isPlan]
    rfl
  have writes : (writeSectors prepared.recordStart prepared.record 0 prepared.recordSectors).run
      filesystem.device = .error (.failed (.block error)) (filesystem.device.later plan) := by
    rw [isLeft]
    exact (bind_ok (run_lift_ok isSector)).trans (bind_error (call_error write))
  exact bind_error writes

/-- The first write of the commit is refused; done again, the directory is there. -/
theorem failed_commit_atomicity_create_dir : ∃ filesystem device error,
    Run 136 filesystem [filesystem.files] ∧
    (Operation.createDir ['/', 'a'] 0o755).perform.run
      (filesystem.withPlan [.refused .requestTimedOut]) =
        .error (.failed (.block error)) { filesystem with device } ∧
    ∃ done, (Operation.createDir ['/', 'a'] 0o755).perform.run
        ({ filesystem with device }.withPlan []) = .ok () done ∧
      Remounts done.device (· = [newDirectory ['/', 'a'] 0o755]) := by
  obtain ⟨first, prepared, run, -, isFiles, isNext, isPrepared⟩ := prepare_create_dir
  have writes : (Operation.createDir ['/', 'a'] 0o755).Writes
      (first.withPlan [.refused .requestTimedOut]) [newDirectory ['/', 'a'] 0o755] prepared := by
    refine ⟨isNext, (prepare_withPlan _ _).trans isPrepared, fun _ => ?_⟩
    change _ ≠ first.files
    rw [isFiles]
    exact List.cons_ne_nil _ _
  have fails : DeviceFails (first.withPlan [.refused .requestTimedOut])
      (.createDir ['/', 'a'] 0o755) := by
    obtain ⟨_, _, -, fails⟩ | ⟨device, stored, -⟩ := writes.cases
    · exact fails
    · rw [(prepare_ok writes.isPrepared).refused rfl] at stored
      cases stored
  obtain ⟨next, device, error, isNext', failed, -, again⟩ :=
    failed_commit_atomicity (by decide) run _ _ fails
  cases isNext.symm.trans isNext'
  have served : ¬DeviceFails ({ first with device }.withPlan []) (.createDir ['/', 'a'] 0o755) := by
    rintro ⟨used, isNil, fate, mem, -⟩
    rw [(List.append_eq_nil_iff.mp isNil.symm).1] at mem
    cases mem
  obtain ⟨done, returned, -, -, remounts⟩ := again [] served
  exact ⟨first, device, error, run, failed, done, returned, remounts⟩

end CodexOS.Filesystem
