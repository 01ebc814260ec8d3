import CodexOS.Release.Update

/-! # Who writes the boot records

Three programs write them: the updater, the loader when it falls back to the other
slot, and the loader when it finds no record at all. Each may lose power in the
write of a record. Whatever their order, a record is in the file of its
generation's parity, so a write of the next record never hits the newest one.
-/

namespace CodexOS.Release

open Bytes Effect

/-- A write of the loader; the one that is its call number `cut` is cut short. -/
def writeFileCut (cut : Option (Nat × LastWrite)) (file : BootFile) (bytes : Bytes) : Boot Bool :=
  fun firmware =>
    match cut with
    | none => writeFile file bytes firmware
    | some (call, last) =>
      if firmware.calls = call then
        .ok false
          { firmware with
            calls := firmware.calls + 1
            files := last.apply firmware.files file bytes }
      else writeFile file bytes firmware

section

variable (write : BootFile → Bytes → Boot Bool)

/-- `writeVerifiedBootState` over any way of writing. -/
def writeVerifiedBootStateOver (file : BootFile) (state : BootState) : Boot Unit := do
  let written ← write file state.encode
  if !written then throw .bootStateRepairFailed
  let some bytes ← readFile file | throw .bootStateRepairFailed
  if (BootState.decode bytes).toOption ≠ some state then throw .bootStateRepairFailed

def repairBootStateOver (slot : SystemSlot) (releaseVersion : UInt64) : Boot BootState := do
  let first : BootState :=
    { generation := 1, activeSlot := slot, activeReleaseVersion := releaseVersion }
  let second : BootState := { first with generation := 2 }
  writeVerifiedBootStateOver write .bootState0 first
  writeVerifiedBootStateOver write .bootState1 second
  pure second

def persistFallbackBootStateOver (current : BootState) (fallback : SystemSlot)
    (releaseVersion : UInt64) : Boot BootState := do
  if current.generation.toNat + 1 ≥ 2 ^ 64 then throw .bootStateGenerationExhausted
  let generation := current.generation + 1
  let repaired : BootState :=
    { generation, activeSlot := fallback, activeReleaseVersion := releaseVersion }
  writeVerifiedBootStateOver write (bootStateFile generation) repaired
  pure repaired

/-- The loader's fallback, from its reading of the records on. -/
def fallbackRepair (fallback : SystemSlot) (releaseVersion : UInt64) : Boot BootState := do
  let current ← loadBootState
  persistFallbackBootStateOver write current fallback releaseVersion

/-- The loader's repair of both records, which it makes only if it could read none. -/
def dualRepair (slot : SystemSlot) (releaseVersion : UInt64) : Boot BootState := do
  match ← attempt loadBootState with
  | .ok current => pure current
  | .error _ => repairBootStateOver write slot releaseVersion

end

/-- A version that a release can have. -/
def Released (version : UInt64) : Prop :=
  ∃ bytes manifest, UpdateManifest.decode bytes = .ok manifest ∧ manifest.releaseVersion = version

/-- One run of a program that writes boot records, and what becomes of its writes. -/
inductive Writer where
  | update (platform : Platform) (kernel manifest : Bytes) (verifyingKey : PublicKey)
      (version : UInt64) (loss : Option (Nat × LastWrite))
  | fallback (nvram : Nvram) (slot : SystemSlot) (version : UInt64) (cut : Option (Nat × LastWrite))
  | dual (nvram : Nvram) (slot : SystemSlot) (version : UInt64) (cut : Option (Nat × LastWrite))

namespace Writer

/-- The volume it leaves, and the record it returns if it succeeds. -/
def run (files : Volume) : Writer → Volume × Option BootState
  | .update platform kernel manifest verifyingKey version loss =>
    let x := applySignedUpdateToFilesystem platform kernel manifest verifyingKey version
    ((after x { files, loss }).files, (outcome x { files, loss }).toOption)
  | .fallback nvram slot version cut =>
    let x := fallbackRepair (writeFileCut cut) slot version
    let start := powerOn files nvram fun _ => .none
    ((after x start).files, (outcome x start).toOption)
  | .dual nvram slot version cut =>
    let x := dualRepair (writeFileCut cut) slot version
    let start := powerOn files nvram fun _ => .none
    ((after x start).files, (outcome x start).toOption)

/-- A record that is cut short is recognised as such, and the loader names a release. -/
def Possible : Writer → Prop
  | .update _ _ _ _ _ loss => TornDetected 2 loss
  | .fallback _ _ version cut => Released version ∧ ∀ call last, cut = some (call, last) →
      last.Recognised
  | .dual _ _ version cut => Released version ∧ ∀ call last, cut = some (call, last) →
      last.Recognised

/-- The one record it writes when the newest one is `state`. -/
def single (state : BootState) : Writer → Option BootState
  | .update _ _ _ _ version _ => some (nextRecord state version)
  | .fallback _ slot version _ =>
    some
      { generation := state.generation + 1
        activeSlot := slot
        activeReleaseVersion := version }
  | .dual _ _ _ _ => none

end Writer

/-- The volumes that come about from an installed image. -/
inductive Maintained : Volume → Prop where
  | installed {files : Volume} {first second : BootState}
      (isFirst : recordIn files .bootState0 = some first) (one : first.generation = 1)
      (isSecond : recordIn files .bootState1 = some second) (two : second.generation = 2) :
      Maintained files
  | wrote {files : Volume} (before : Maintained files) {writer : Writer}
      (possible : writer.Possible) : Maintained (writer.run files).1

/-- The loader reads this record from the volume. -/
def Loads (files : Volume) (state : BootState) : Prop :=
  ∀ nvram, outcome loadBootState (powerOn files nvram fun _ => .none) = .ok state

section

variable {files files' : Volume} {record state : BootState} {last : LastWrite}

theorem SameRecords.trans (first : SameRecords files files') (second : SameRecords files' files'') :
    SameRecords files files'' :=
  fun file isRecord => (second file isRecord).trans (first file isRecord)

theorem SameRecords.write (same : SameRecords files files') (last : LastWrite) (file : BootFile)
    (bytes : Bytes) : SameRecords (last.apply files file bytes) (last.apply files' file bytes) := by
  intro other isRecord
  cases last with
  | untouched => exact same other isRecord
  | complete => simp only [LastWrite.apply, Volume.set, Function.update_apply, same other isRecord]
  | torn => simp only [LastWrite.apply, Function.update_apply, same other isRecord]

/-- However its write ends, a record that is written to its own file leaves all in place. -/
theorem RecordsInPlace.write (inPlace : RecordsInPlace files)
    (own : file = bootStateFile record.generation)
    (readBack : BootState.decode record.encode = .ok record) (recognised : last.Recognised) :
    RecordsInPlace (last.apply files file record.encode) := by
  intro other held isRecord found
  by_cases here : other = file
  · subst here
    cases last with
    | untouched => exact inPlace _ held isRecord found
    | complete =>
      rw [LastWrite.apply, recordIn_set_self readBack] at found
      cases found
      exact own
    | torn content =>
      rw [LastWrite.apply, recordIn_update_self fun bytes same => recognised bytes (by rw [same])]
        at found
      cases found
  · refine inPlace other held isRecord ?_
    rwa [recordIn, LastWrite.apply_of_ne here] at found

theorem loads_iff : Loads files state ↔ newestRecord files = some state := by
  have reads (nvram : Nvram) :=
    loadBootState_served (fun _ => rfl) (powerOn files nvram fun _ => .none) ⟨rfl, rfl, rfl⟩
  constructor
  · intro loads
    have read := reads ⟨none, none⟩
    have run := run_of_outcome_ok (loads ⟨none, none⟩)
    rw [run] at read
    exact read.2
  · intro newest nvram
    have read := reads nvram
    cases run : loadBootState.run (powerOn files nvram fun _ => .none) with
    | ok found firmware =>
      rw [run] at read
      rw [outcome_ok run, ← Option.some.inj (newest.symm.trans read.2)]
    | error error firmware =>
      rw [run] at read
      exact absurd (newest.symm.trans read.2.1) (Option.some_ne_none _)

end

section

variable {files : Volume} {nvram : Nvram} {state record : BootState} {version : UInt64}
  {cut : Option (Nat × LastWrite)}

/-- How the one record of a run is left: `room` for its generation and its version are checked
    before anything is written. -/
structure Written (files : Volume) (state record : BootState) (files' : Volume) (last : LastWrite) :
    Prop where
  recognised : last.Recognised
  same : SameRecords (last.apply files (bootStateFile record.generation) record.encode) files'
  room : last ≠ .untouched → ¬state.generation.toNat + 1 ≥ 2 ^ 64
  release : last ≠ .untouched → record.activeReleaseVersion ≠ 0

theorem unwritten (same : SameRecords files files') :
    Written files state record files' .untouched where
  recognised := nofun
  same := same
  room := fun touched => absurd rfl touched
  release := fun touched => absurd rfl touched

theorem released_ne_zero (released : Released version) : version ≠ 0 := by
  obtain ⟨bytes, manifest, decoded, rfl⟩ := released
  exact (UpdateManifest.of_decode decoded).2.release

section

variable (recognised : ∀ call last, cut = some (call, last) → last.Recognised)

include recognised

theorem writeFileCut_spec (file : BootFile) (bytes : Bytes) :
    Spec (At files (fun _ => .none) nvram) (writeFileCut cut file bytes)
      (fun written s => ∃ last : LastWrite, (last.Recognised ∧ (written = true → last = .complete)) ∧
        At (last.apply files file bytes) (fun _ => .none) nvram s) fail := by
  intro s h
  by_cases hit : ∃ call last, cut = some (call, last) ∧ s.calls = call
  · obtain ⟨call, last, rfl, hit⟩ := hit
    have run : (writeFileCut (some (call, last)) file bytes).run s =
        .ok false
          { s with
            calls := s.calls + 1
            files := last.apply s.files file bytes } := if_pos hit
    rw [run]
    exact ⟨last, ⟨recognised call last rfl, nofun⟩,
      congrArg (fun v : Volume => last.apply v file bytes) h.files, h.faults, h.nvram⟩
  · have run : (writeFileCut cut file bytes).run s = (writeFile file bytes).run s := by
      cases cut with
      | none => rfl
      | some ahead => exact if_neg fun same => hit ⟨_, _, rfl, same⟩
    rw [run, run_writeFile, h.faults]
    exact ⟨.complete, ⟨nofun, fun _ => rfl⟩,
      congrArg (fun v : Volume => v.set file bytes) h.files, rfl, h.nvram⟩

/-- A record is written whole when the loader says so; otherwise its file may be spoilt. -/
theorem writeVerifiedBootStateOver_spec (file : BootFile) (record : BootState) :
    Spec (At files (fun _ => .none) nvram)
      (writeVerifiedBootStateOver (writeFileCut cut) file record)
      (fun _ => At (files.set file record.encode) (fun _ => .none) nvram)
      (fun _ s => ∃ last : LastWrite, last.Recognised ∧
        At (last.apply files file record.encode) (fun _ => .none) nvram s) := by
  refine .bind (writeFileCut_spec recognised file record.encode) fun written =>
    .exists_pre fun last => ?_
  rintro s ⟨⟨recognised, finished⟩, h⟩
  cases written with
  | false => exact ⟨last, recognised, h⟩
  | true =>
    obtain rfl := finished rfl
    refine Spec.bind (readFile_spec file) (fun bytes => Spec.assume fun _ => ?_) s h
    cases bytes with
    | none => exact .throw _ fun s h => ⟨.complete, nofun, h⟩
    | some bytes =>
      exact .ite (fun _ => .throw _ fun s h => ⟨.complete, nofun, h⟩) fun _ => .pure _ fun s h => h

theorem fallbackRepair_spec (release : version ≠ 0) (newest : newestRecord files = some state)
    (slot : SystemSlot) :
    Spec (At files (fun _ => .none) nvram) (fallbackRepair (writeFileCut cut) slot version)
      (fun repaired s =>
        repaired = { generation := state.generation + 1, activeSlot := slot,
                     activeReleaseVersion := version } ∧
        Written files state repaired s.files .complete)
      (fun _ s => ∃ last, Written files state
        { generation := state.generation + 1, activeSlot := slot,
          activeReleaseVersion := version } s.files last) := by
  refine .bind ((loadBootState_served fun _ => rfl).weaken_fail ?_)
    fun current => .assume fun found => ?_
  · rintro _ s ⟨-, none, -⟩
    rw [newest] at none
    cases none
  obtain rfl : current = state := Option.some.inj (found.symm.trans newest)
  refine .ite (fun exhausted => ?_) fun room => ?_
  · refine .throw_bind _ fun s h => ⟨.untouched, unwritten fun _ _ => ?_⟩
    rw [h.files]
  refine .bind ((writeVerifiedBootStateOver_spec recognised _ _).weaken_fail ?_) fun _ => .pure _ fun s h => ⟨rfl, ?_⟩
  · rintro _ s ⟨last, recognised, h⟩
    exact ⟨last, recognised, fun file _ => by rw [h.files], fun _ => room, fun _ => release⟩
  · exact ⟨nofun, fun file _ => by rw [h.files]; rfl, fun _ => room, fun _ => release⟩

omit recognised in
theorem fallbackRepair_none (none : newestRecord files = none) (slot : SystemSlot) :
    Spec (At files (fun _ => .none) nvram) (fallbackRepair (writeFileCut cut) slot version)
      (fun _ _ => False) (fun _ => At files (fun _ => .none) nvram) := by
  refine .bind ((loadBootState_served fun _ => rfl).weaken_fail
    fun _ _ h => h.1) fun current => .assume fun found => ?_
  rw [none] at found
  cases found

theorem dualRepair_spec (release : version ≠ 0) (inPlace : RecordsInPlace files)
    (slot : SystemSlot) :
    Spec (At files (fun _ => .none) nvram) (dualRepair (writeFileCut cut) slot version)
      (fun _ s => RecordsInPlace s.files) (fun _ s => RecordsInPlace s.files) := by
  let record (generation : UInt64) : BootState :=
    { generation, activeSlot := slot, activeReleaseVersion := version }
  have readBack (generation : UInt64) (positive : generation ≠ 0) :
      BootState.decode (record generation).encode = .ok (record generation) :=
    decode_record slot positive release
  have first (last : LastWrite) (recognised : last.Recognised) :
      RecordsInPlace (last.apply files .bootState0 (record 1).encode) :=
    inPlace.write (show _ = bootStateFile 1 by decide) (readBack 1 (by decide)) recognised
  have second (last : LastWrite) (recognised : last.Recognised) :
      RecordsInPlace (last.apply (files.set .bootState0 (record 1).encode) .bootState1
        (record 2).encode) :=
    (first .complete nofun).write (show _ = bootStateFile 2 by decide) (readBack 2 (by decide))
      recognised
  refine .bind (Spec.attempt (loadBootState_served fun _ => rfl)) fun answer => ?_
  cases answer with
  | ok current => exact .pure _ fun s h => h.1.files ▸ inPlace
  | error error =>
    refine .assume fun _ => .bind ((writeVerifiedBootStateOver_spec recognised _ _).weaken_fail ?_) fun _ => ?_
    · rintro _ s ⟨last, recognised, h⟩
      exact h.files ▸ first last recognised
    refine .bind ((writeVerifiedBootStateOver_spec recognised _ _).weaken_fail ?_) fun _ => .pure _ fun s h => ?_
    · rintro _ s ⟨last, recognised, h⟩
      exact h.files ▸ second last recognised
    · exact h.files ▸ second .complete nofun

end

section

variable {platform : Platform} {kernel manifest : Bytes} {verifyingKey : PublicKey}

theorem latestBootState_keeps :
    Spec pre latestBootState (fun _ => pre) (fun _ => pre) := by
  refine .get_bind fun disk _ => ?_
  cases newestRecord disk.files with
  | none => exact .throw _ fun _ h => h
  | some state => exact .pure _ fun _ h => h

/-- The updater writes the slots around its one record. -/
theorem applySignedUpdateToFilesystem_records (newest : newestRecord files = some state) :
    Spec (fun disk => disk.files = files ∧ TornDetected 2 disk.loss)
      (applySignedUpdateToFilesystem platform kernel manifest verifyingKey version)
      (fun next disk => next = nextRecord state version ∧
        Written files state next disk.files .complete)
      (fun _ disk => ∃ last, Written files state (nextRecord state version) disk.files last) := by
  unfold applySignedUpdateToFilesystem
  refine .bind (latestBootState_spec state fun _ h => h.1 ▸ newest) fun current =>
    .assume fun isCurrent => ?_
  obtain rfl : state = current := isCurrent.symm
  refine .ite (fun _ => .throw_bind _ fun disk h => ⟨.untouched, unwritten fun _ _ => ?_⟩)
    fun newer => ?_
  · rw [h.1]
  have release : version ≠ 0 := by
    rintro rfl
    exact newer (UInt64.zero_le)
  refine .bind (installSlot_spec.weaken_fail ?_) fun _ =>
    .assume fun _ => ?_
  · exact fun _ disk same => ⟨.untouched, unwritten same.sameRecords⟩
  have installed : SameRecords files
      ((files.set (.kernel state.activeSlot.other) kernel).set
        (.manifest state.activeSlot.other) manifest) :=
    sameOutside_release.sameRecords
  refine .ite (fun _ => .throw_bind _ fun disk h => ⟨.untouched, unwritten ?_⟩) fun room => ?_
  · rw [h.1]
    exact installed
  have whole {files' : Volume} (same : SameRecords _ files') :
      Written files state (nextRecord state version) files' .complete :=
    ⟨nofun, (installed.write .complete _ _).trans same, fun _ => room, fun _ => release⟩
  refine .bind ((writeFatFile_spec_zero _ _).weaken_fail ?_) fun _ => ?_
  · rintro _ disk ⟨last, same, detected⟩
    rw [same]
    exact ⟨last, detected, installed.write last _ _, fun _ => room, fun _ => release⟩
  refine .bind (latestBootState_keeps.weaken_fail ?_) fun read => ?_
  · rintro _ disk same
    exact ⟨.complete, whole fun _ _ => by rw [same]; rfl⟩
  refine .ite (fun _ => .throw_bind _ fun disk same => ⟨.complete, whole fun _ _ => by rw [same]; rfl⟩)
    fun _ => ?_
  refine .bind (installSlot_sameOutside.weaken_fail ?_) fun _ =>
    .pure _ ?_
  · exact fun _ disk same => ⟨.complete, whole same.sameRecords⟩
  · exact fun disk same => ⟨rfl, whole same.sameRecords⟩

theorem applySignedUpdateToFilesystem_none (none : newestRecord files = none) :
    Spec (fun disk => disk.files = files)
      (applySignedUpdateToFilesystem platform kernel manifest verifyingKey version)
      (fun _ _ => False) (fun _ disk => disk.files = files) := by
  have latest : Spec (fun disk => disk.files = files) latestBootState (fun _ _ => False)
      (fun _ disk => disk.files = files) := by
    refine .get_bind fun disk same => ?_
    rw [same, none]
    exact .throw _ fun _ h => h
  exact .bind latest fun _ _ impossible => impossible.elim

end

theorem written_of_spec {ε σ : Type} {x : EStateM ε σ BootState} {pre : σ → Prop} {start : σ}
    {filesOf : σ → Volume}
    (spec : Spec pre x
      (fun next s => next = record ∧ Written files state next (filesOf s) .complete)
      (fun _ s => ∃ last, Written files state record (filesOf s) last)) (holds : pre start) :
    ∃ last, Written files state record (filesOf (after x start)) last ∧
      ∀ returned, (outcome x start).toOption = some returned →
        returned = record ∧ last = .complete := by
  rcases spec.cases holds with ⟨next, returns, rfl, written⟩ | ⟨error, fails, last, written⟩
  · refine ⟨.complete, written, fun returned same => ?_⟩
    rw [returns] at same
    exact ⟨(Option.some.inj same).symm, rfl⟩
  · refine ⟨last, written, fun returned same => ?_⟩
    rw [fails] at same
    cases same

/-- The one record of a run, and how its write ended: whole, if the run succeeds. -/
theorem Writer.written {writer : Writer} (possible : writer.Possible)
    (newest : newestRecord files = some state) (isSingle : writer.single state = some record) :
    ∃ last, Written files state record (writer.run files).1 last ∧
      ∀ returned, (writer.run files).2 = some returned → returned = record ∧ last = .complete := by
  cases writer with
  | update platform kernel manifest verifyingKey version loss =>
    cases isSingle
    exact written_of_spec (applySignedUpdateToFilesystem_records newest) ⟨rfl, possible⟩
  | fallback nvram slot version cut =>
    cases isSingle
    exact written_of_spec
      (fallbackRepair_spec possible.2 (released_ne_zero possible.1) newest slot) ⟨rfl, rfl, rfl⟩
  | dual => cases isSingle

variable {files' : Volume} {last : LastWrite}

theorem Written.readBack (written : Written files state record files' last)
    (next : record.generation = state.generation + 1) (touched : last ≠ .untouched) :
    BootState.decode record.encode = .ok record := by
  refine BootState.decode_encode ?_ (written.release touched)
  rw [next]
  exact succ_ne_zero (written.room touched)

theorem Written.inPlace (written : Written files state record files' last)
    (next : record.generation = state.generation + 1) (inPlace : RecordsInPlace files) :
    RecordsInPlace files' := by
  refine written.same.inPlace ?_
  by_cases touched : last = .untouched
  · rw [touched]
    exact inPlace
  · exact inPlace.write rfl (written.readBack next touched) written.recognised

theorem generation_single {writer : Writer} (isSingle : writer.single state = some record) :
    record.generation = state.generation + 1 := by
  cases writer with
  | update => cases isSingle; rfl
  | fallback => cases isSingle; rfl
  | dual => cases isSingle

/-- Every run leaves the records in place, whatever it finds. -/
theorem Writer.inPlace {writer : Writer} (possible : writer.Possible)
    (inPlace : RecordsInPlace files) : RecordsInPlace (writer.run files).1 := by
  cases newest : newestRecord files with
  | some state =>
    cases isSingle : writer.single state with
    | some record =>
      obtain ⟨last, written, -⟩ := writer.written possible newest isSingle
      exact written.inPlace (generation_single isSingle) inPlace
    | none =>
      cases writer with
      | update => cases isSingle
      | fallback => cases isSingle
      | dual nvram slot version cut =>
        exact (dualRepair_spec possible.2 (released_ne_zero possible.1) inPlace slot).after
          ⟨rfl, rfl, rfl⟩
  | none =>
    cases writer with
    | update platform kernel manifest verifyingKey version loss =>
      have same : (after (applySignedUpdateToFilesystem platform kernel manifest verifyingKey
          version) { files, loss }).files = files :=
        ((applySignedUpdateToFilesystem_none newest).weaken (fun _ h => h) nofun
          fun _ _ h => h).after rfl
      rw [← same] at inPlace
      exact inPlace
    | fallback nvram slot version cut =>
      have same : At files (fun _ => .none) nvram
          (after (fallbackRepair (writeFileCut cut) slot version)
            (powerOn files nvram fun _ => .none)) :=
        ((fallbackRepair_none newest slot).weaken (fun _ h => h) nofun fun _ _ h => h).after
          ⟨rfl, rfl, rfl⟩
      rw [← same.files] at inPlace
      exact inPlace
    | dual nvram slot version cut =>
      exact (dualRepair_spec possible.2 (released_ne_zero possible.1) inPlace slot).after
        ⟨rfl, rfl, rfl⟩

theorem Maintained.inPlace (run : Maintained files) : RecordsInPlace files := by
  induction run with
  | @installed files first second isFirst one isSecond two =>
    intro file record isRecord found
    obtain rfl | rfl := isRecord
    · obtain rfl := Option.some.inj (isFirst.symm.trans found)
      rw [one]
      decide
    · obtain rfl := Option.some.inj (isSecond.symm.trans found)
      rw [two]
      decide
  | wrote before possible ih => exact Writer.inPlace possible ih

theorem Written.newest (written : Written files state record files' last)
    (next : record.generation = state.generation + 1) (inPlace : RecordsInPlace files)
    (newest : newestRecord files = some state) (room : ¬state.generation.toNat + 1 ≥ 2 ^ 64) :
    (last = .complete ∧ newestRecord files' = some record ∧
        recordIn files' (bootStateFile record.generation) = some record) ∨
      (last ≠ .complete ∧ newestRecord files' = some state ∧
        recordIn files' (bootStateFile record.generation) ≠ some record) := by
  have newer := lt_generation_succ room
  have isRecord := bootStateFile_cases record.generation
  rw [written.same.newest_eq, written.same.recordIn_eq isRecord]
  cases last with
  | untouched =>
    refine .inr ⟨nofun, newest, fun found => ?_⟩
    have older := newestRecord_ge newest isRecord found
    rw [next] at older
    exact absurd newer (UInt64.not_lt.mpr older)
  | complete =>
    have readBack := written.readBack next nofun
    refine .inl ⟨rfl, newestRecord_set isRecord readBack ?_, recordIn_set_self readBack⟩
    intro other held isRecord found
    rw [next]
    exact UInt64.lt_of_le_of_lt (newestRecord_ge newest isRecord found) newer
  | torn content =>
    have spoilt : ∀ bytes, content = some bytes → (BootState.decode bytes).toOption = none :=
      fun bytes same => written.recognised bytes (by rw [same])
    refine .inr ⟨nofun, ?_, fun found => ?_⟩
    · rw [next]
      exact newestRecord_torn newest inPlace room spoilt
    · rw [LastWrite.apply, recordIn_update_self spoilt] at found
      cases found

theorem odd_generation (generation : UInt64) :
    bootStateFile generation = .bootState0 ↔ generation.toNat % 2 = 1 := by
  rw [bootStateFile_eq]
  split <;> simp [*]

/-- Records of odd generation are in the first file and the others in the second. The next record
    of a run goes to the file that does not hold the newest one: until it is whole the loader reads
    the newest record, and from then on the next. -/
theorem boot_state_alternation (run : Maintained files) :
    (∀ record, recordIn files .bootState0 = some record → record.generation.toNat % 2 = 1) ∧
    (∀ record, recordIn files .bootState1 = some record → record.generation.toNat % 2 = 0) ∧
    ∀ state, Loads files state → state.generation.toNat + 1 < 2 ^ 64 →
      ∀ writer : Writer, writer.Possible → ∀ record, writer.single state = some record →
        record.generation.toNat = state.generation.toNat + 1 ∧
        recordIn files (bootStateFile record.generation) ≠ some state ∧
        (∀ file, file = .bootState0 ∨ file = .bootState1 →
          file ≠ bootStateFile record.generation → (writer.run files).1 file = files file) ∧
        (recordIn (writer.run files).1 (bootStateFile record.generation) = some record →
          Loads (writer.run files).1 record) ∧
        (recordIn (writer.run files).1 (bootStateFile record.generation) ≠ some record →
          Loads (writer.run files).1 state) ∧
        ∀ returned, (writer.run files).2 = some returned → returned = record ∧
          recordIn (writer.run files).1 (bootStateFile record.generation) = some record := by
  have inPlace := run.inPlace
  refine ⟨fun record found => ?_, fun record found => ?_, ?_⟩
  · exact (odd_generation _).mp (inPlace _ record (.inl rfl) found).symm
  · have even : ¬record.generation.toNat % 2 = 1 := by
      rw [← odd_generation, ← inPlace _ record (.inr rfl) found]
      nofun
    omega
  intro state loads hasRoom writer possible record isSingle
  have room := Nat.not_le_of_lt hasRoom
  have newest := loads_iff.mp loads
  have next := generation_single isSingle
  have different := bootStateFile_ne_succ room
  obtain ⟨last, written, returns⟩ := writer.written possible newest isSingle
  have ended := written.newest next inPlace newest room
  refine ⟨?_, ?_, ?_, ?_, ?_, ?_⟩
  · rw [next, UInt64.toNat_add, UInt64.toNat_one]
    omega
  · intro found
    rw [next] at found
    exact different (inPlace _ state (bootStateFile_cases _) found).symm
  · intro file isRecord other
    rw [written.same file isRecord]
    exact LastWrite.apply_of_ne other _
  · intro whole
    rcases ended with ⟨-, newest', -⟩ | ⟨-, -, partly⟩
    · exact loads_iff.mpr newest'
    · exact absurd whole partly
  · intro partly
    rcases ended with ⟨-, -, whole⟩ | ⟨-, newest', -⟩
    · exact absurd whole partly
    · exact loads_iff.mpr newest'
  · intro returned same
    obtain ⟨rfl, complete⟩ := returns returned same
    rcases ended with ⟨-, -, whole⟩ | ⟨incomplete, -⟩
    · exact ⟨rfl, whole⟩
    · exact absurd complete incomplete

def installedRecord (generation : UInt64) : BootState where
  generation := generation
  activeSlot := .A
  activeReleaseVersion := 1

/-- The records of a new image. -/
def installedImage : Volume
  | .bootState0 => some (installedRecord 1).encode
  | .bootState1 => some (installedRecord 2).encode
  | _ => none

theorem boot_state_alternation_installed :
    Maintained installedImage ∧ Loads installedImage (installedRecord 2) ∧
      ∀ writer : Writer, writer.Possible → ∀ record, writer.single (installedRecord 2) = some record →
        recordIn installedImage (bootStateFile record.generation) ≠ some (installedRecord 2) ∧
        (recordIn (writer.run installedImage).1 (bootStateFile record.generation) ≠ some record →
          Loads (writer.run installedImage).1 (installedRecord 2)) := by
  have first : recordIn installedImage .bootState0 = some (installedRecord 1) := by
    have readBack : BootState.decode (installedRecord 1).encode = .ok (installedRecord 1) :=
      decode_record .A (by decide) (by decide)
    simp only [recordIn, installedImage, readBack, Except.toOption]
  have second : recordIn installedImage .bootState1 = some (installedRecord 2) := by
    have readBack : BootState.decode (installedRecord 2).encode = .ok (installedRecord 2) :=
      decode_record .A (by decide) (by decide)
    simp only [recordIn, installedImage, readBack, Except.toOption]
  have loads : Loads installedImage (installedRecord 2) := by
    rw [loads_iff, newestRecord, first, second]
    decide
  have installed : Maintained installedImage := .installed first rfl second rfl
  refine ⟨installed, loads, fun writer possible record isSingle => ?_⟩
  obtain ⟨-, other, -, -, kept, -⟩ := (boot_state_alternation installed).2.2 _ loads (by decide) writer
    possible record isSingle
  exact ⟨other, kept⟩

end

end CodexOS.Release
