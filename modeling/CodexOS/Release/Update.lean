import CodexOS.Release.Reboot

/-! # Installing an update

The updater writes the inactive slot, checks it, records it as active and then
brings the other slot up to date. Power may be lost in any of its five writes,
and the write it hits may leave its file as it was, complete or torn. The next
boot finds the old release or the new one: what the loader reads changes in one
step, when the new boot record is complete.
-/

namespace CodexOS.Release

open Bytes Effect

/-- How the write that is cut short by a power loss leaves its file. -/
inductive LastWrite where
  | untouched
  | complete
  | torn (content : Option Bytes)

/-- The installed image, and the power loss ahead: after how many complete writes, and what
    becomes of the next one. Without one the updater runs to its end. -/
structure Disk where
  files : Volume
  loss : Option (Nat × LastWrite)

def LastWrite.apply (last : LastWrite) (files : Volume) (file : BootFile) (bytes : Bytes) : Volume :=
  match last with
  | .untouched => files
  | .complete => files.set file bytes
  | .torn content => Function.update files file content

/-- What is left of a torn record is not taken for one. -/
def LastWrite.Recognised (last : LastWrite) : Prop :=
  ∀ torn, last = .torn (some torn) → (BootState.decode torn).toOption = none

inductive UpdateError where
  | noBootState
  | versionNotNewer (version installed : UInt64)
  | unreadable (file : BootFile)
  | manifestInvalid (error : ManifestError)
  | kernelSizeMismatch
  | kernelHashMismatch
  | keyIdMismatch
  | nextTrustKeyInvalid
  | nextTrustKeyIdMismatch
  | signatureInvalid
  | inactiveReadbackDiffers
  | generationExhausted
  | bootStateReadbackDiffers
  | redundantReadbackDiffers
  | powerLoss

abbrev Update := EStateM UpdateError Disk

def readFatFile (file : BootFile) : Update Bytes := do
  let disk ← get
  match disk.files file with
  | some bytes => pure bytes
  | none => throw (.unreadable file)

def writeFatFile (file : BootFile) (bytes : Bytes) : Update Unit := fun disk =>
  match disk.loss with
  | none => .ok () { disk with files := disk.files.set file bytes }
  | some (writes + 1, last) =>
    .ok () { files := disk.files.set file bytes, loss := some (writes, last) }
  | some (0, last) => .error .powerLoss { disk with files := last.apply disk.files file bytes }

def latestBootState : Update BootState := do
  let disk ← get
  match newestRecord disk.files with
  | some state => pure state
  | none => throw .noBootState

section

variable (platform : Platform)

def validateManifestNextTrustKey (manifest : UpdateManifest) : Update Unit := do
  if !manifest.hasNextTrustKey then return
  if !platform.validKey manifest.nextTrustPublicKey then throw .nextTrustKeyInvalid
  let nextKeyId := keyIdForPublicKey platform manifest.nextTrustPublicKey
  if nextKeyId ≠ manifest.nextTrustKeyId then throw .nextTrustKeyIdMismatch

def verifySignedReleaseWithKey (kernel encodedManifest : Bytes) (verifyingKey : PublicKey) :
    Update UpdateManifest := do
  let manifest ←
    match UpdateManifest.decode encodedManifest with
    | .ok manifest => pure manifest
    | .error error => throw (.manifestInvalid error)
  if kernel.length ≠ manifest.kernelSize.toNat then throw .kernelSizeMismatch
  if platform.sha256 kernel ≠ manifest.kernelSha256 then throw .kernelHashMismatch
  if keyIdForPublicKey platform verifyingKey ≠ manifest.keyId then throw .keyIdMismatch
  validateManifestNextTrustKey platform manifest
  if !platform.verifyStrict verifyingKey (manifest.signingBytes.take manifest.signingLen)
      manifest.signature then
    throw .signatureInvalid
  pure manifest

/-- Write a release into a slot, read it back and verify it. -/
def installSlot (slot : SystemSlot) (kernel manifest : Bytes) (verifyingKey : PublicKey)
    (differs : UpdateError) : Update Unit := do
  writeFatFile (.kernel slot) kernel
  writeFatFile (.manifest slot) manifest
  let kernelReadback ← readFatFile (.kernel slot)
  let manifestReadback ← readFatFile (.manifest slot)
  let _ ← verifySignedReleaseWithKey platform kernelReadback manifestReadback verifyingKey
  if kernelReadback ≠ kernel ∨ manifestReadback ≠ manifest then throw differs

def applySignedUpdateToFilesystem (kernel manifest : Bytes) (verifyingKey : PublicKey)
    (version : UInt64) : Update BootState := do
  let current ← latestBootState
  if version ≤ current.activeReleaseVersion then
    throw (.versionNotNewer version current.activeReleaseVersion)
  let inactive := current.activeSlot.other
  installSlot platform inactive kernel manifest verifyingKey .inactiveReadbackDiffers
  if current.generation.toNat + 1 ≥ 2 ^ 64 then throw .generationExhausted
  let generation := current.generation + 1
  let nextState : BootState :=
    { generation, activeSlot := inactive, activeReleaseVersion := version }
  writeFatFile (bootStateFile generation) nextState.encode
  if (← latestBootState) ≠ nextState then throw .bootStateReadbackDiffers
  installSlot platform current.activeSlot kernel manifest verifyingKey .redundantReadbackDiffers
  pure nextState

end

/-- A torn boot record is recognised, if the write after `writes` complete ones is the one torn. -/
def TornDetected (writes : Nat) (loss : Option (Nat × LastWrite)) : Prop :=
  ∀ bytes, loss = some (writes, .torn (some bytes)) → (BootState.decode bytes).toOption = none

/-- What the updater has checked of a release before it records it. -/
structure SignedBy (platform : Platform) (kernel : Bytes) (manifest : UpdateManifest)
    (verifyingKey : PublicKey) : Prop where
  size : kernel.length = manifest.kernelSize.toNat
  hash : platform.sha256 kernel = manifest.kernelSha256
  keyId : keyIdForPublicKey platform verifyingKey = manifest.keyId
  nextKey : manifest.hasNextTrustKey = true →
    platform.validKey manifest.nextTrustPublicKey = true ∧
      keyIdForPublicKey platform manifest.nextTrustPublicKey = manifest.nextTrustKeyId
  signed : platform.verifyStrict verifyingKey (manifest.signingBytes.take manifest.signingLen)
    manifest.signature = true

section

variable {platform : Platform} {files : Volume} {slot : SystemSlot} {kernel manifest : Bytes}
  {verifyingKey : PublicKey} {writes : Nat}

theorem verifySignedReleaseWithKey_spec :
    Spec pre (verifySignedReleaseWithKey platform kernel manifest verifyingKey)
      (fun decoded disk => pre disk ∧ UpdateManifest.decode manifest = .ok decoded ∧
        SignedBy platform kernel decoded verifyingKey)
      (fun _ disk => pre disk) := by
  unfold verifySignedReleaseWithKey
  cases decoded : UpdateManifest.decode manifest with
  | error e => exact Spec.throw_bind _ fun _ h => h
  | ok release =>
  simp only [pure_bind]
  refine Spec.ite (fun _ => Spec.throw_bind _ fun _ h => h) fun size => ?_
  refine Spec.ite (fun _ => Spec.throw_bind _ fun _ h => h) fun hash => ?_
  refine Spec.ite (fun _ => Spec.throw_bind _ fun _ h => h) fun keyId => ?_
  have nextKey : Spec pre (validateManifestNextTrustKey platform release)
      (fun _ disk => pre disk ∧ (release.hasNextTrustKey = true →
        platform.validKey release.nextTrustPublicKey = true ∧
          keyIdForPublicKey platform release.nextTrustPublicKey = release.nextTrustKeyId))
      (fun _ disk => pre disk) := by
    unfold validateManifestNextTrustKey
    refine Spec.ite (fun absent => Spec.pure _ fun _ h => ⟨h, ?_⟩) fun present => ?_
    · intro present
      simp [present] at absent
    refine Spec.ite (fun _ => Spec.throw_bind _ fun _ h => h) fun valid => ?_
    refine Spec.ite (fun _ => Spec.throw _ fun _ h => h) fun sameId => ?_
    exact Spec.pure _ fun _ h => ⟨h, fun _ => ⟨by simpa using valid, not_not.mp sameId⟩⟩
  refine Spec.bind nextKey fun _ => Spec.assume fun nextKey => ?_
  refine Spec.ite (fun _ => Spec.throw_bind _ fun _ h => h) fun signed => ?_
  exact Spec.pure _ fun _ h => ⟨h, rfl, not_not.mp size, not_not.mp hash, not_not.mp keyId, nextKey,
    by simpa using signed⟩

theorem writeFatFile_spec (file : BootFile) (bytes : Bytes) :
    Spec (fun disk => disk.files = files ∧ TornDetected (writes + 1) disk.loss)
      (writeFatFile file bytes)
      (fun _ disk => disk.files = files.set file bytes ∧ TornDetected writes disk.loss)
      (fun _ disk => ∃ last : LastWrite, disk.files = last.apply files file bytes) := by
  rintro ⟨before, loss⟩ ⟨rfl, detected⟩
  cases loss with
  | none => exact ⟨rfl, nofun⟩
  | some ahead =>
    obtain ⟨left, last⟩ := ahead
    cases left with
    | zero => exact ⟨last, rfl⟩
    | succ left =>
      refine ⟨rfl, fun bytes torn => ?_⟩
      cases torn
      exact detected bytes rfl

theorem writeFatFile_spec_zero (file : BootFile) (bytes : Bytes) :
    Spec (fun disk => disk.files = files ∧ TornDetected 0 disk.loss) (writeFatFile file bytes)
      (fun _ disk => disk.files = files.set file bytes)
      (fun _ disk => ∃ last : LastWrite, disk.files = last.apply files file bytes ∧
        last.Recognised) := by
  rintro ⟨before, loss⟩ ⟨rfl, detected⟩
  cases loss with
  | none => exact rfl
  | some ahead =>
    obtain ⟨left, last⟩ := ahead
    cases left with
    | zero => exact ⟨last, rfl, fun torn same => detected torn (by rw [same])⟩
    | succ left => exact rfl

/-- Only the files of the slot differ. -/
def SameOutside (slot : SystemSlot) (files files' : Volume) : Prop :=
  ∀ file, file ≠ .kernel slot → file ≠ .manifest slot → files' file = files file

theorem LastWrite.apply_of_ne {last : LastWrite} (different : other ≠ file) (bytes : Bytes) :
    last.apply files file bytes other = files other := by
  cases last with
  | untouched => rfl
  | complete => exact Function.update_of_ne different _ _
  | torn => exact Function.update_of_ne different _ _

theorem sameOutside_apply (own : file = .kernel slot ∨ file = .manifest slot)
    (same : SameOutside slot files before) (last : LastWrite) (bytes : Bytes) :
    SameOutside slot files (last.apply before file bytes) := by
  intro other notKernel notManifest
  refine (LastWrite.apply_of_ne ?_ bytes).trans (same other notKernel notManifest)
  obtain rfl | rfl := own
  · exact notKernel
  · exact notManifest

theorem sameOutside_kernel : SameOutside slot files (files.set (.kernel slot) kernel) :=
  sameOutside_apply (.inl rfl) (fun _ _ _ => rfl) .complete kernel

theorem sameOutside_release :
    SameOutside slot files ((files.set (.kernel slot) kernel).set (.manifest slot) manifest) :=
  sameOutside_apply (.inr rfl) sameOutside_kernel .complete manifest

/-- The files of the boot records are the same in both volumes. -/
def SameRecords (files files' : Volume) : Prop :=
  ∀ file, file = .bootState0 ∨ file = .bootState1 → files' file = files file

theorem SameOutside.sameRecords (same : SameOutside slot files files') :
    SameRecords files files' := by
  intro file isRecord
  obtain rfl | rfl := isRecord <;> exact same _ (by simp) (by simp)

theorem SameRecords.recordIn_eq (same : SameRecords files files')
    (isRecord : file = .bootState0 ∨ file = .bootState1) :
    recordIn files' file = recordIn files file := by
  simp only [recordIn, same file isRecord]

theorem SameRecords.newest_eq (same : SameRecords files files') :
    newestRecord files' = newestRecord files := by
  simp only [newestRecord, same.recordIn_eq (.inl rfl), same.recordIn_eq (.inr rfl)]

theorem readFatFile_spec (bytes : Bytes) (found : ∀ disk, pre disk → disk.files file = some bytes) :
    Spec pre (readFatFile file) (fun read disk => pre disk ∧ read = bytes) fail := by
  intro disk holds
  have run : (readFatFile file).run disk = .ok bytes disk := by
    change (match disk.files file with
      | some bytes => (pure bytes : Update Bytes)
      | none => throw (UpdateError.unreadable file)).run disk = _
    rw [found disk holds]
    rfl
  rw [run]
  exact ⟨holds, rfl⟩

theorem latestBootState_spec (state : BootState)
    (newest : ∀ disk, pre disk → newestRecord disk.files = some state) :
    Spec pre latestBootState (fun read disk => pre disk ∧ read = state) fail := by
  intro disk holds
  have run : latestBootState.run disk = .ok state disk := by
    change (match newestRecord disk.files with
      | some state => (pure state : Update BootState)
      | none => throw UpdateError.noBootState).run disk = _
    rw [newest disk holds]
    rfl
  rw [run]
  exact ⟨holds, rfl⟩

/-- A slot is installed and verified, or only its own files are in disarray. -/
theorem installSlot_spec :
    Spec (fun disk => disk.files = files ∧ TornDetected (writes + 2) disk.loss)
      (installSlot platform slot kernel manifest verifyingKey differs)
      (fun _ disk => (disk.files = (files.set (.kernel slot) kernel).set (.manifest slot) manifest ∧
          TornDetected writes disk.loss) ∧
        ∃ decoded, UpdateManifest.decode manifest = .ok decoded ∧
          SignedBy platform kernel decoded verifyingKey)
      (fun _ disk => SameOutside slot files disk.files) := by
  unfold installSlot
  refine Spec.bind ((writeFatFile_spec _ _).weaken_fail ?_) fun _ => ?_
  · rintro _ disk ⟨last, same⟩
    exact same ▸ sameOutside_apply (.inl rfl) (fun _ _ _ => rfl) last kernel
  refine Spec.bind ((writeFatFile_spec _ _).weaken_fail ?_) fun _ => ?_
  · rintro _ disk ⟨last, same⟩
    exact same ▸ sameOutside_apply (.inr rfl) sameOutside_kernel last manifest
  refine Spec.bind (readFatFile_spec kernel fun _ h => by simp [h.1, Volume.set]) fun _ => Spec.assume ?_
  rintro rfl
  refine Spec.bind (readFatFile_spec manifest fun _ h => by simp [h.1, Volume.set]) fun _ => Spec.assume ?_
  rintro rfl
  refine Spec.bind (verifySignedReleaseWithKey_spec.weaken_fail ?_)
    fun decoded => Spec.assume fun verified => ?_
  · rintro _ disk ⟨same, -⟩
    exact same ▸ sameOutside_release
  refine Spec.ite (fun differ => absurd differ (by simp)) fun _ => ?_
  exact Spec.pure _ fun _ h => ⟨h, decoded, verified⟩

end

/-- Every boot record is in the file of its generation's parity. -/
def RecordsInPlace (files : Volume) : Prop :=
  ∀ file record, file = .bootState0 ∨ file = .bootState1 →
    recordIn files file = some record → file = bootStateFile record.generation

/-- The image is installed: every boot record is in its file, and the newest one names a slot that
    holds a valid release of the recorded version. -/
structure Installed (platform : Platform) (files : Volume) (nvram : Nvram) (state : BootState)
    (old : KernelImageInfo) : Prop where
  newest : newestRecord files = some state
  inPlace : RecordsInPlace files
  valid : outcome (loadSystemSlot platform state.activeSlot) (powerOn files nvram fun _ => .none) =
    .ok old
  version : old.releaseVersion = state.activeReleaseVersion

/-- The record the updater writes. -/
def nextRecord (state : BootState) (version : UInt64) : BootState where
  generation := state.generation + 1
  activeSlot := state.activeSlot.other
  activeReleaseVersion := version

/-- What the loader finds before the new record is complete. -/
structure OldPhase (files : Volume) (state : BootState) (files' : Volume) : Prop where
  newest : newestRecord files' = some state
  kernelFile : files' (.kernel state.activeSlot) = files (.kernel state.activeSlot)
  manifestFile : files' (.manifest state.activeSlot) = files (.manifest state.activeSlot)

/-- What it finds from then on. -/
structure NewPhase (platform : Platform) (state : BootState) (kernel manifest : Bytes)
    (verifyingKey : PublicKey) (version : UInt64) (files' : Volume) : Prop where
  newest : newestRecord files' = some (nextRecord state version)
  kernelFile : files' (.kernel state.activeSlot.other) = some kernel
  manifestFile : files' (.manifest state.activeSlot.other) = some manifest
  verified : ∃ decoded, UpdateManifest.decode manifest = .ok decoded ∧
    SignedBy platform kernel decoded verifyingKey
  newer : state.activeReleaseVersion < version

section

variable {platform : Platform} {files files' : Volume} {nvram : Nvram} {state : BootState}
  {kernel manifest : Bytes} {verifyingKey : PublicKey} {version : UInt64}

theorem SameRecords.inPlace (same : SameRecords files files') (inPlace : RecordsInPlace files) :
    RecordsInPlace files' := by
  intro file record isRecord found
  rw [same.recordIn_eq isRecord] at found
  exact inPlace file record isRecord found

theorem oldPhase_of_sameOutside (newest : newestRecord files = some state)
    (same : SameOutside state.activeSlot.other files files') : OldPhase files state files' := by
  have other := state.activeSlot.other_ne
  refine ⟨same.sameRecords.newest_eq.trans newest, same _ ?_ (by simp), same _ (by simp) ?_⟩
  · simpa using other.symm
  · simpa using other.symm

theorem newPhase_of_sameOutside
    (new : NewPhase platform state kernel manifest verifyingKey version before)
    (same : SameOutside state.activeSlot before files') :
    NewPhase platform state kernel manifest verifyingKey version files' := by
  have other := state.activeSlot.other_ne
  refine ⟨same.sameRecords.newest_eq.trans new.newest, ?_, ?_, new.verified, new.newer⟩
  · rw [same _ (by simpa using other) (by simp), new.kernelFile]
  · rw [same _ (by simp) (by simpa using other), new.manifestFile]

theorem bootStateFile_eq (generation : UInt64) :
    bootStateFile generation = if generation.toNat % 2 = 1 then .bootState0 else .bootState1 := by
  have odd : generation &&& 1 = 1 ↔ generation.toNat % 2 = 1 := by
    rw [← UInt64.toNat_inj, UInt64.toNat_and, UInt64.toNat_one, Nat.and_one_is_mod]
  simp only [bootStateFile, odd]

theorem bootStateFile_ne_succ (room : ¬generation.toNat + 1 ≥ 2 ^ 64) :
    bootStateFile generation ≠ bootStateFile (generation + 1) := by
  have next : (generation + 1).toNat = generation.toNat + 1 := by
    rw [UInt64.toNat_add, UInt64.toNat_one]
    omega
  rw [bootStateFile_eq, bootStateFile_eq, next]
  by_cases odd : generation.toNat % 2 = 1
  · rw [if_pos odd, if_neg (by omega)]
    simp
  · rw [if_neg odd, if_pos (by omega)]
    simp

theorem newestRecord_mem (newest : newestRecord files = some state) :
    recordIn files .bootState0 = some state ∨ recordIn files .bootState1 = some state := by
  rw [newestRecord, newerBootState_none] at newest
  cases first : recordIn files .bootState0 with
  | none => exact .inr (by rwa [first, newerBootState_none] at newest)
  | some current =>
    cases second : recordIn files .bootState1 with
    | none =>
      rw [first, second] at newest
      exact .inl newest
    | some candidate =>
      rw [first, second, newerBootState] at newest
      split at newest
      · exact .inr newest
      · exact .inl newest

theorem recordIn_newest (inPlace : RecordsInPlace files) (newest : newestRecord files = some state) :
    recordIn files (bootStateFile state.generation) = some state := by
  obtain first | second := newestRecord_mem newest
  · rwa [← inPlace _ state (.inl rfl) first]
  · rwa [← inPlace _ state (.inr rfl) second]

theorem generation_ne_zero_of_recordIn (found : recordIn files file = some record) :
    record.generation ≠ 0 := by
  unfold recordIn at found
  split at found
  · cases found
  · rename_i bytes _
    cases decoded : BootState.decode bytes with
    | error e => simp [decoded, Except.toOption] at found
    | ok state =>
      rw [decoded] at found
      cases found
      exact (BootState.accepted_of_decode decoded).generation_ne

theorem recordIn_update_self
    (undecodable : ∀ bytes, content = some bytes → (BootState.decode bytes).toOption = none) :
    recordIn (Function.update files file content) file = none := by
  cases content with
  | none => simp [recordIn]
  | some bytes => simp [recordIn, undecodable bytes rfl]

/-- Spoiling the file of the next record leaves the newest one in force. -/
theorem newestRecord_torn (newest : newestRecord files = some state)
    (inPlace : RecordsInPlace files) (room : ¬state.generation.toNat + 1 ≥ 2 ^ 64)
    (undecodable : ∀ bytes, content = some bytes → (BootState.decode bytes).toOption = none) :
    newestRecord (Function.update files (bootStateFile (state.generation + 1)) content) =
      some state := by
  have different := bootStateFile_ne_succ room
  have kept : ∀ file, file ≠ bootStateFile (state.generation + 1) →
      recordIn (Function.update files (bootStateFile (state.generation + 1)) content) file =
        recordIn files file := by
    intro file other
    simp only [recordIn, Function.update_of_ne other]
  have spoilt : recordIn (Function.update files (bootStateFile (state.generation + 1)) content)
      (bootStateFile (state.generation + 1)) = none := recordIn_update_self undecodable
  have held := recordIn_newest inPlace newest
  rw [← kept _ different] at held
  obtain first | second := bootStateFile_cases (state.generation + 1)
  · have other : bootStateFile state.generation = .bootState1 :=
      (bootStateFile_cases _).resolve_left fun same => different (same.trans first.symm)
    rw [first] at spoilt held ⊢
    rw [other] at held
    rw [newestRecord, spoilt, held]
    rfl
  · have other : bootStateFile state.generation = .bootState0 :=
      (bootStateFile_cases _).resolve_right fun same => different (same.trans second.symm)
    rw [second] at spoilt held ⊢
    rw [other] at held
    rw [newestRecord, spoilt, held]
    rfl

/-- Both slots, and no change of the records: what the updater needs to write the new record. -/
structure Prepared (platform : Platform) (files : Volume) (state : BootState)
    (kernel manifest : Bytes) (verifyingKey : PublicKey) (version : UInt64) (files' : Volume) :
    Prop where
  old : OldPhase files state files'
  inPlace : RecordsInPlace files'
  kernelFile : files' (.kernel state.activeSlot.other) = some kernel
  manifestFile : files' (.manifest state.activeSlot.other) = some manifest
  verified : ∃ decoded, UpdateManifest.decode manifest = .ok decoded ∧
    SignedBy platform kernel decoded verifyingKey
  newer : state.activeReleaseVersion < version

theorem prepared_of_installed (newest : newestRecord files = some state)
    (inPlace : RecordsInPlace files)
    (verified : ∃ decoded, UpdateManifest.decode manifest = .ok decoded ∧
      SignedBy platform kernel decoded verifyingKey)
    (newer : state.activeReleaseVersion < version) :
    Prepared platform files state kernel manifest verifyingKey version
      ((files.set (.kernel state.activeSlot.other) kernel).set
        (.manifest state.activeSlot.other) manifest) where
  old := oldPhase_of_sameOutside newest sameOutside_release
  inPlace := sameOutside_release.sameRecords.inPlace inPlace
  kernelFile := by simp [Volume.set]
  manifestFile := by simp [Volume.set]
  verified := verified
  newer := newer

theorem update_record (files : Volume) (generation : UInt64) (content : Option Bytes)
    (slot : SystemSlot) :
    Function.update files (bootStateFile generation) content (.kernel slot) = files (.kernel slot) ∧
      Function.update files (bootStateFile generation) content (.manifest slot) =
        files (.manifest slot) := by
  obtain same | same := bootStateFile_cases generation <;> simp [same]

section

variable {before : Volume} (room : ¬state.generation.toNat + 1 ≥ 2 ^ 64)
  (prepared : Prepared platform files state kernel manifest verifyingKey version before)

include room prepared

theorem Prepared.newPhase :
    NewPhase platform state kernel manifest verifyingKey version
      (before.set (bootStateFile (state.generation + 1)) (nextRecord state version).encode) where
  newest := by
    refine newestRecord_next prepared.old.newest room ?_ _
    rintro rfl
    exact absurd prepared.newer (UInt64.not_lt_zero)
  kernelFile := (update_record ..).1.trans prepared.kernelFile
  manifestFile := (update_record ..).2.trans prepared.manifestFile
  verified := prepared.verified
  newer := prepared.newer

theorem Prepared.torn
    (undecodable : ∀ bytes, content = some bytes → (BootState.decode bytes).toOption = none) :
    OldPhase files state
      (Function.update before (bootStateFile (state.generation + 1)) content) where
  newest := newestRecord_torn prepared.old.newest prepared.inPlace room undecodable
  kernelFile := (update_record ..).1.trans prepared.old.kernelFile
  manifestFile := (update_record ..).2.trans prepared.old.manifestFile

/-- However the write of the new record ends, the loader is in one of the two phases. -/
theorem Prepared.recordWrite (last : LastWrite)
    (detected : last.Recognised) :
    OldPhase files state (last.apply before (bootStateFile (state.generation + 1))
        (nextRecord state version).encode) ∨
      NewPhase platform state kernel manifest verifyingKey version
        (last.apply before (bootStateFile (state.generation + 1))
          (nextRecord state version).encode) := by
  cases last with
  | untouched => exact .inl prepared.old
  | complete => exact .inr (prepared.newPhase room)
  | torn content =>
    exact .inl (prepared.torn room fun bytes same => detected bytes (by rw [same]))

end

theorem exists_tornDetected (loss : Option (Nat × LastWrite)) :
    ∃ writes, TornDetected (writes + 2) loss := by
  cases loss with
  | none => exact ⟨0, nofun⟩
  | some ahead =>
    refine ⟨ahead.1, fun bytes torn => ?_⟩
    have same : ahead.1 = ahead.1 + 2 := congrArg (fun loss => (loss.getD (0, .untouched)).1) torn
    omega

/-- Wherever it stops, the installation of a slot concerns only that slot. -/
theorem installSlot_sameOutside :
    Spec (fun disk => disk.files = files)
      (installSlot platform slot kernel manifest verifyingKey differs)
      (fun _ disk => SameOutside slot files disk.files)
      (fun _ disk => SameOutside slot files disk.files) := by
  have each (writes : Nat) :
      Spec (fun disk => disk.files = files ∧ TornDetected (writes + 2) disk.loss)
        (installSlot platform slot kernel manifest verifyingKey differs)
        (fun _ disk => SameOutside slot files disk.files)
        (fun _ disk => SameOutside slot files disk.files) := by
    refine installSlot_spec.weaken (fun _ h => h) ?_ fun _ _ same => same
    rintro _ disk ⟨⟨same, -⟩, -⟩
    rw [same]
    exact sameOutside_release
  refine (Spec.exists_pre each).weaken ?_ (fun _ _ h => h) fun _ _ h => h
  intro disk same
  obtain ⟨writes, detected⟩ := exists_tornDetected disk.loss
  exact ⟨writes, same, detected⟩

/-- Bringing the other slot up to date does not concern the loader. -/
theorem installSlot_redundant
    (new : NewPhase platform state kernel manifest verifyingKey version before) :
    Spec (fun disk => disk.files = before)
      (installSlot platform state.activeSlot kernel manifest verifyingKey differs)
      (fun _ disk => NewPhase platform state kernel manifest verifyingKey version disk.files)
      (fun _ disk => NewPhase platform state kernel manifest verifyingKey version disk.files) :=
  installSlot_sameOutside.weaken (fun _ h => h) (fun _ _ same => newPhase_of_sameOutside new same)
    fun _ _ same => newPhase_of_sameOutside new same

/-- The updater takes the loader from the old phase to the new one, and leaves it in one of them
    wherever it stops. -/
theorem applySignedUpdateToFilesystem_spec (newest : newestRecord files = some state)
    (inPlace : RecordsInPlace files) :
    Spec (fun disk => disk.files = files ∧ TornDetected 2 disk.loss)
      (applySignedUpdateToFilesystem platform kernel manifest verifyingKey version)
      (fun _ disk => NewPhase platform state kernel manifest verifyingKey version disk.files)
      (fun _ disk => OldPhase files state disk.files ∨
        NewPhase platform state kernel manifest verifyingKey version disk.files) := by
  have start : OldPhase files state files := ⟨newest, rfl, rfl⟩
  unfold applySignedUpdateToFilesystem
  refine Spec.bind (latestBootState_spec state fun _ h => h.1 ▸ newest) fun _ => Spec.assume ?_
  rintro rfl
  refine Spec.ite (fun _ => Spec.throw_bind _ fun _ h => .inl (h.1 ▸ start)) fun newer => ?_
  refine Spec.bind (installSlot_spec.weaken_fail ?_) fun _ =>
    Spec.assume fun verified => ?_
  · intro _ disk same
    exact .inl (oldPhase_of_sameOutside newest same)
  have prepared := prepared_of_installed newest inPlace verified (UInt64.not_le.mp newer)
  refine Spec.ite (fun _ => Spec.throw_bind _ fun _ h => .inl (h.1 ▸ prepared.old)) fun room => ?_
  have new := prepared.newPhase room
  refine Spec.bind ((writeFatFile_spec_zero _ _).weaken_fail ?_) fun _ => ?_
  · rintro _ disk ⟨last, same, detected⟩
    exact same ▸ prepared.recordWrite room last detected
  refine Spec.bind (latestBootState_spec _ fun _ h => h ▸ new.newest) fun _ => Spec.assume ?_
  rintro rfl
  refine Spec.ite (fun differs => absurd rfl differs) fun _ => ?_
  -- the rest writes only the slot that the new record does not name
  refine Spec.bind ((installSlot_redundant new).weaken_fail
    fun _ _ h => .inr h) fun _ => Spec.pure _ fun _ h => h

end

section

variable {platform : Platform} {files files' : Volume} {nvram : Nvram} {state : BootState}
  {root : TrustRoot} {old : KernelImageInfo} {kernel manifest : Bytes} {version : UInt64}

theorem SignedBy.nextTrustRoot_ne_none (signed : SignedBy platform kernel decoded verifyingKey)
    (current : TrustRoot) :
    nextTrustRoot platform decoded current ≠ none := by
  unfold nextTrustRoot
  by_cases present : decoded.hasNextTrustKey = true
  · obtain ⟨valid, sameId⟩ := signed.nextKey present
    rw [if_neg (by simp [present]), if_neg (by simp [valid]), if_neg (not_not.mpr sameId)]
    split <;> simp
  · simp [present]

section

variable (installed : Installed platform files nvram state old)

include installed

theorem Installed.examined :
    ∃ nvram', examine platform files nvram state.activeSlot = (some old, nvram') :=
  ⟨_, Prod.ext ((outcome_loadSystemSlot (fun _ => rfl) ⟨rfl, rfl, rfl⟩).mp installed.valid) rfl⟩

theorem Installed.boot_old (phase : OldPhase files state files') :
    ∃ image, (boot platform files' nvram).image = some image ∧ SameRelease image old := by
  obtain ⟨nvram', examined⟩ := installed.examined
  rw [← examine_congr phase.kernelFile phase.manifestFile] at examined
  rw [boot_of_active phase.newest examined installed.version]
  exact ⟨_, rfl, rfl, rfl⟩

/-- In the new phase it boots the update, which the root in force has signed and which is newer
    than the release the floor admits. -/
theorem Installed.boot_new (active : trustRootOf platform nvram = some root)
    (payload : ∀ decoded, UpdateManifest.decode manifest = .ok decoded →
      decoded.releaseVersion = version ∧ (stagedImage platform kernel decoded).isSome)
    (phase : NewPhase platform state kernel manifest root.publicKey version files') :
    ∃ image, (boot platform files' nvram).image = some image ∧ image.releaseVersion = version ∧
      image.kernelSha256 = platform.sha256 kernel := by
  obtain ⟨nvram', examined⟩ := installed.examined
  obtain ⟨root', oldManifest, floor, -, admitted, -, -⟩ := of_examine_some examined
  obtain rfl : root' = root := Option.some.inj (admitted.active.symm.trans active)
  obtain ⟨oldKernel, -, oldVerified, -⟩ := slotRelease_eq_some.mp admitted.release
  obtain ⟨decoded, decodes, signed⟩ := phase.verified
  obtain ⟨rfl, staged⟩ := payload decoded decodes
  obtain ⟨image, staged⟩ := Option.isSome_iff_exists.mp staged
  have verified : Verified platform kernel decoded root' :=
    ⟨signed.size, signed.hash, oldVerified.key, (trustRootOf_keyId active).trans signed.keyId,
      signed.signed⟩
  have admitted' : Admitted platform files' nvram state.activeSlot.other root' decoded image floor := by
    refine ⟨active, slotRelease_eq_some.mpr ⟨kernel, slotFiles_eq_some.mpr ⟨manifest, phase.kernelFile,
      phase.manifestFile, decodes⟩, verified, staged⟩, admitted.known, ?_⟩
    have newer := phase.newer
    rw [← installed.version, admitted.releaseVersion] at newer
    exact UInt64.not_lt.mpr (UInt64.le_of_lt
      (UInt64.lt_of_le_of_lt (UInt64.not_lt.mp admitted.atLeast) newer))
  obtain ⟨next, well⟩ := Option.ne_none_iff_exists'.mp (signed.nextTrustRoot_ne_none root')
  have accepted : examine platform files' nvram (nextRecord state decoded.releaseVersion).activeSlot =
      (some image, _) := examine_of_next_some admitted' well
  rw [boot_of_active phase.newest accepted admitted'.releaseVersion]
  exact ⟨_, rfl, admitted'.releaseVersion, admitted'.kernelSha256.trans signed.hash.symm⟩

end

theorem OldPhase.not_recorded (phase : OldPhase files state files') :
    recordIn files' (bootStateFile (state.generation + 1)) ≠ some (nextRecord state version) := by
  intro recorded
  have le : state.generation + 1 ≤ state.generation :=
    newestRecord_ge phase.newest (bootStateFile_cases _) recorded
  -- only a generation that wraps around is not newer, and no record has generation 0
  have wraps : state.generation + 1 = 0 := by
    rw [UInt64.le_iff_toNat_le, UInt64.toNat_add, UInt64.toNat_one] at le
    rw [← UInt64.toNat_inj, UInt64.toNat_add, UInt64.toNat_one, UInt64.toNat_zero]
    have := state.generation.toNat_lt
    omega
  exact generation_ne_zero_of_recordIn recorded wraps

end

end CodexOS.Release
