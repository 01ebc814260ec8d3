import CodexOS.Release.Slot

/-! # A boot as a function

With every firmware call served, a boot is determined by the volume and the
variables. `boot` is that function: which kernel is booted, and what the volume
and the variables hold afterwards. `loadKernelImage` computes it.
-/

namespace CodexOS.Release

open Bytes Effect

def recordIn (files : Volume) (file : BootFile) : Option BootState :=
  match files file with
  | none => none
  | some bytes => (BootState.decode bytes).toOption

def newestRecord (files : Volume) : Option BootState :=
  newerBootState (newerBootState none (recordIn files .bootState0)) (recordIn files .bootState1)

structure BootResult where
  image : Option KernelImageInfo
  files : Volume
  nvram : Nvram

section

variable (platform : Platform) (files : Volume)

/-- Boot the other slot, and record that from now on it is the active one. -/
def failOver (nvram : Nvram) (state : BootState) : BootResult :=
  let fallback := state.activeSlot.other
  match examine platform files nvram fallback with
  | (none, nvram') => { image := none, files, nvram := nvram' }
  | (some image, nvram') =>
    let booted (generation : UInt64) :=
      { image with
        systemSlot := fallback.asU8
        recoveryFallback := 1
        bootStateGeneration := generation }
    -- the last generation has no successor, so nothing can be recorded
    if state.generation.toNat + 1 ≥ 2 ^ 64 then
      { image := some (booted state.generation), files, nvram := nvram' }
    else
      let generation := state.generation + 1
      let record : BootState :=
        { generation, activeSlot := fallback, activeReleaseVersion := image.releaseVersion }
      { image := some (booted generation)
        files := files.set (bootStateFile generation) record.encode
        nvram := nvram' }

/-- Boot the slot a record names, if it holds the release the record names. -/
def bootFrom (nvram : Nvram) (state : BootState) : BootResult :=
  match examine platform files nvram state.activeSlot with
  | (none, nvram') => failOver platform files nvram' state
  | (some image, nvram') =>
    if image.releaseVersion = state.activeReleaseVersion then
      { image := some { image with
          bootStateGeneration := state.generation
          systemSlot := state.activeSlot.asU8 }
        files
        nvram := nvram' }
    else failOver platform files nvram' state

/-- The slot with the greater release; the first on a tie. -/
def newerImage : Option KernelImageInfo → Option KernelImageInfo → Option (SystemSlot × KernelImageInfo)
  | none, none => none
  | some a, none => some (.A, a)
  | none, some b => some (.B, b)
  | some a, some b => if b.releaseVersion > a.releaseVersion then some (.B, b) else some (.A, a)

/-- Without a boot record: examine both slots and boot the newer release. -/
def scan (nvram : Nvram) : BootResult :=
  let (first, middle) := examine platform files nvram .A
  let (second, last) := examine platform files middle .B
  match newerImage first second with
  | none => { image := none, files, nvram := last }
  | some (slot, image) =>
    let record (generation : UInt64) : BootState :=
      { generation, activeSlot := slot, activeReleaseVersion := image.releaseVersion }
    { image := some { image with
        systemSlot := slot.asU8
        recoveryFallback := 1
        bootStateGeneration := 2 }
      files := (files.set .bootState0 (record 1).encode).set .bootState1 (record 2).encode
      nvram := last }

def boot (nvram : Nvram) : BootResult :=
  match newestRecord files with
  | some state => bootFrom platform files nvram state
  | none => scan platform files nvram

end

section

variable {platform : Platform} {files : Volume} {faults : Nat → Fault} {nvram : Nvram}

theorem readBootState_served (served : Served faults) (file : BootFile) :
    Spec (At files faults nvram) (readBootState file)
      (fun r s => At files faults nvram s ∧ r = recordIn files file) fail := by
  refine Spec.bind (readFile_spec file) fun bytes => Spec.assume fun read => ?_
  unfold recordIn
  obtain rfl | ⟨-, faulty⟩ := read
  · cases files file with
    | none => exact Spec.pure _ fun s h => ⟨h, rfl⟩
    | some bytes => exact Spec.pure _ fun s h => ⟨h, rfl⟩
  · exact absurd served faulty

theorem loadBootState_served (served : Served faults) :
    Spec (At files faults nvram) loadBootState
      (fun state s => At files faults nvram s ∧ newestRecord files = some state)
      (fun e s => At files faults nvram s ∧ newestRecord files = none ∧ e = .bootStateUnavailable) := by
  refine Spec.bind (readBootState_served served _) fun first => Spec.assume fun readFirst => ?_
  refine Spec.bind (readBootState_served served _) fun second => Spec.assume fun readSecond => ?_
  subst readFirst readSecond
  change Spec _ (match newestRecord files with
    | some state => pure state
    | none => throw KernelLoadError.bootStateUnavailable) _ _
  cases newestRecord files with
  | none => exact Spec.throw _ fun s h => ⟨h, rfl, rfl⟩
  | some state => exact Spec.pure _ fun s h => ⟨h, rfl⟩

theorem writeVerifiedBootState_served (served : Served faults) (file : BootFile)
    (readBack : BootState.decode state.encode = .ok state) :
    Spec (At files faults nvram) (writeVerifiedBootState file state)
      (fun _ s => At (files.set file state.encode) faults nvram s) fail := by
  have write : Spec (At files faults nvram) (writeFile file state.encode)
      (fun written s => At (files.set file state.encode) faults nvram s ∧ written = true) fail := by
    intro s h
    have none : s.faults s.calls = .none := h.faults ▸ served s.calls
    rw [run_writeFile, none]
    exact ⟨⟨congrArg (fun v : Volume => v.set file state.encode) h.files, h.faults, h.nvram⟩, rfl⟩
  unfold writeVerifiedBootState
  refine Spec.bind write fun written => Spec.assume ?_
  rintro rfl
  refine Spec.bind (readFile_spec file) fun bytes => Spec.assume fun read => ?_
  have found : bytes = some state.encode := by
    obtain rfl | ⟨-, faulty⟩ := read
    · exact Function.update_self file (some state.encode) files
    · exact absurd served faulty
  subst found
  have same : ¬(BootState.decode state.encode).toOption ≠ some state := by
    simp [readBack, Except.toOption]
  dsimp only
  rw [if_neg same]
  exact Spec.pure _ fun s h => h

theorem decode_record (slot : SystemSlot) (positive : generation ≠ 0) (release : version ≠ 0) :
    BootState.decode
        (BootState.encode { generation, activeSlot := slot, activeReleaseVersion := version }) =
      .ok { generation, activeSlot := slot, activeReleaseVersion := version } :=
  BootState.decode_encode positive release

theorem succ_ne_zero {generation : UInt64} (room : ¬generation.toNat + 1 ≥ 2 ^ 64) :
    generation + 1 ≠ 0 := by
  intro zero
  have := congrArg UInt64.toNat zero
  rw [UInt64.toNat_add] at this
  simp at this
  omega

section

variable (served : Served faults)

include served

theorem persistFallbackBootState_served (state : BootState) (fallback : SystemSlot)
    (release : version ≠ 0) :
    Spec (At files faults nvram) (persistFallbackBootState state fallback version)
      (fun repaired s => ¬state.generation.toNat + 1 ≥ 2 ^ 64 ∧
        repaired =
          { generation := state.generation + 1
            activeSlot := fallback
            activeReleaseVersion := version } ∧
        At (files.set (bootStateFile (state.generation + 1)) repaired.encode) faults nvram s)
      (fun _ s => state.generation.toNat + 1 ≥ 2 ^ 64 ∧ At files faults nvram s) := by
  unfold persistFallbackBootState
  refine Spec.ite (fun exhausted => Spec.throw_bind _ fun s h => ⟨exhausted, h⟩) fun room => ?_
  refine Spec.bind (writeVerifiedBootState_served served _
    (decode_record fallback (succ_ne_zero room) release)) fun _ => ?_
  exact Spec.pure _ fun s h => ⟨room, rfl, h⟩

theorem repairBootState_served (slot : SystemSlot) (release : version ≠ 0) :
    Spec (At files faults nvram) (repairBootState slot version)
      (fun state s => state.generation = 2 ∧
        At ((files.set .bootState0 (BootState.encode
            { generation := 1, activeSlot := slot, activeReleaseVersion := version })).set
          .bootState1 (BootState.encode
            { generation := 2, activeSlot := slot, activeReleaseVersion := version })) faults nvram s)
      (fun _ _ => False) := by
  unfold repairBootState
  refine Spec.bind (writeVerifiedBootState_served served _
    (decode_record slot (by decide) release)) fun _ => ?_
  refine Spec.bind (writeVerifiedBootState_served served _
    (decode_record slot (by decide) release)) fun _ => ?_
  exact Spec.pure _ fun s h => ⟨rfl, h⟩

theorem attempt_loadSystemSlot_served (slot : SystemSlot) :
    Spec (At files faults nvram) (attempt (loadSystemSlot platform slot))
      (fun r s => ∃ nvram', At files faults nvram' s ∧
        examine platform files nvram slot = (r.toOption, nvram')) fail := by
  refine (Spec.attempt loadSystemSlot_spec).weaken (fun _ h => h) ?_ fun _ _ h => h
  intro r s h
  cases r with
  | ok image => exact h
  | error e =>
    obtain ⟨nvram', holds, -, examined⟩ := h
    exact ⟨nvram', holds, examined served⟩

/-- `x` computes `result`: it returns its image if there is one, fails otherwise, and leaves its
    volume and variables. -/
def Computes (pre : Firmware → Prop) (x : Boot KernelImageInfo) (result : BootResult) : Prop :=
  Spec pre x (fun image s => result = { image := some image, files := s.files, nvram := s.nvram })
    (fun _ s => result = { image := none, files := s.files, nvram := s.nvram })

theorem bootFallback_served (state : BootState) :
    Computes (At files faults nvram) (bootFallback platform state)
      (failOver platform files nvram state) := by
  refine Spec.bind (attempt_loadSystemSlot_served served _) fun r =>
    Spec.exists_pre fun nvram' => Spec.assume fun examined => ?_
  cases r with
  | error e =>
    refine Spec.throw _ fun s h => ?_
    simp only [failOver, examined, Except.toOption, h.files, h.nvram]
  | ok image =>
    have accepted : examine platform files nvram state.activeSlot.other = (some image, nvram') :=
      examined
    have release : image.releaseVersion ≠ 0 := releaseVersion_ne_zero accepted
    refine Spec.bind (Spec.attempt (persistFallbackBootState_served served state _ release))
      fun r => ?_
    cases r with
    | ok repaired =>
      refine Spec.pure _ ?_
      rintro s ⟨room, rfl, h⟩
      simp only [failOver, accepted, if_neg room, h.files, h.nvram]
    | error e =>
      refine Spec.pure _ ?_
      rintro s ⟨exhausted, h⟩
      simp only [failOver, accepted, if_pos exhausted, h.files, h.nvram]

theorem bootRecorded_served (state : BootState) :
    Computes (At files faults nvram) (bootRecorded platform state)
      (bootFrom platform files nvram state) := by
  refine Spec.bind (attempt_loadSystemSlot_served served _) fun r =>
    Spec.exists_pre fun nvram' => Spec.assume fun examined => ?_
  cases r with
  | error e =>
    simp only [bootFrom, examined, Except.toOption]
    exact bootFallback_served served state
  | ok image =>
    simp only [bootFrom, examined, Except.toOption]
    split
    · exact Spec.pure _ fun s h => by rw [h.files, h.nvram]
    · exact bootFallback_served served state

end

theorem newerImage_eq (first second : Except KernelLoadError KernelImageInfo) :
    newerImage first.toOption second.toOption =
      betterImage (betterImage none .A first) .B second := by
  cases first with
  | error _ => cases second <;> rfl
  | ok a => cases second <;> rfl

theorem newerImage_cases (h : newerImage first second = some (slot, image)) :
    slot = .A ∧ first = some image ∨ slot = .B ∧ second = some image := by
  unfold newerImage at h
  split at h
  · cases h
  · cases h
    exact .inl ⟨rfl, rfl⟩
  · cases h
    exact .inr ⟨rfl, rfl⟩
  · split at h
    · cases h
      exact .inr ⟨rfl, rfl⟩
    · cases h
      exact .inl ⟨rfl, rfl⟩

theorem recoverFromMissingBootState_served (served : Served faults) :
    Computes (At files faults nvram) (recoverFromMissingBootState platform)
      (scan platform files nvram) := by
  refine Spec.bind (attempt_loadSystemSlot_served served _) fun first =>
    Spec.exists_pre fun middle => Spec.assume fun examinedA => ?_
  refine Spec.bind (attempt_loadSystemSlot_served served _) fun second =>
    Spec.exists_pre fun last => Spec.assume fun examinedB => ?_
  simp only [scan, examinedA, examinedB, ← newerImage_eq]
  cases chosen : newerImage first.toOption second.toOption with
  | none => exact Spec.throw _ fun s h => by rw [h.files, h.nvram]
  | some pair =>
    obtain ⟨slot, image⟩ := pair
    have release : image.releaseVersion ≠ 0 := by
      obtain ⟨-, held⟩ | ⟨-, held⟩ := newerImage_cases chosen
      · exact releaseVersion_ne_zero (held ▸ examinedA)
      · exact releaseVersion_ne_zero (held ▸ examinedB)
    refine Spec.bind (Spec.attempt (repairBootState_served served slot release)) fun r => ?_
    cases r with
    | ok state =>
      refine Spec.pure _ ?_
      rintro s ⟨second, h⟩
      simp only [h.files, h.nvram, second]
    | error e => exact fun s impossible => False.elim impossible

theorem loadKernelImage_served (served : Served faults) :
    Computes (At files faults nvram) (loadKernelImage platform) (boot platform files nvram) := by
  have start fail : Spec (At files faults nvram) nextFault
      (fun fault s => At files faults nvram s ∧ fault = .none) fail :=
    fun s h => ⟨⟨h.files, h.faults, h.nvram⟩, h.faults ▸ served s.calls⟩
  unfold loadKernelImage
  refine Spec.bind (start _) fun fault => Spec.assume fun none => ?_
  subst none
  refine Spec.bind (Spec.attempt (loadBootState_served served)) fun r => ?_
  unfold boot
  cases r with
  | ok state =>
    refine Spec.assume fun recorded => ?_
    rw [recorded]
    exact bootRecorded_served served state
  | error e =>
    refine Spec.assume fun missing => ?_
    obtain ⟨missing, rfl⟩ := missing
    rw [missing]
    exact recoverFromMissingBootState_served served

end

/-- `image` is the staged kernel `base`, with a note of how it was reached. -/
def BootedAs (image base : KernelImageInfo) : Prop :=
  ∃ generation slot fallback, image =
    { base with
      bootStateGeneration := generation
      systemSlot := slot
      recoveryFallback := fallback }

/-- Examining the slot fails, or finds another release than required. -/
def Refused (platform : Platform) (files : Volume) (nvram : Nvram) (slot : SystemSlot)
    (required : Option UInt64) : Prop :=
  ∀ image, (examine platform files nvram slot).1 = some image →
    ∃ version, required = some version ∧ image.releaseVersion ≠ version

section

variable {platform : Platform} {files : Volume} {nvram : Nvram} {slot : SystemSlot}

theorem raiseFloor_self (floor : UInt64) : raiseFloor nvram floor floor = nvram :=
  if_neg (UInt64.lt_irrefl floor)

theorem eq_none_of_refused (h : Refused platform files nvram slot none) :
    (examine platform files nvram slot).1 = none := by
  cases examined : (examine platform files nvram slot).1 with
  | none => rfl
  | some image =>
    obtain ⟨_, impossible, -⟩ := h image examined
    cases impossible

theorem failOver_none
    (examined : examine platform files nvram state.activeSlot.other = (none, nvram')) :
    (failOver platform files nvram state).image = none := by
  simp only [failOver, examined]

theorem failOver_booted
    (accepted : (examine platform files nvram state.activeSlot.other).1 = some image) :
    ∃ booted, (failOver platform files nvram state).image = some booted ∧ BootedAs booted image ∧
      booted.systemSlot = state.activeSlot.other.asU8 := by
  obtain ⟨left, examined⟩ : ∃ left, examine platform files nvram state.activeSlot.other =
      (some image, left) := ⟨_, Prod.ext accepted rfl⟩
  simp only [failOver, examined]
  split
  · exact ⟨_, rfl, ⟨_, _, _, rfl⟩, rfl⟩
  · exact ⟨_, rfl, ⟨_, _, _, rfl⟩, rfl⟩

theorem boot_of_scan (missing : newestRecord files = none)
    (chosen : newerImage (examine platform files nvram .A).1
      (examine platform files (examine platform files nvram .A).2 .B).1 = some (slot, image)) :
    ∃ booted, (boot platform files nvram).image = some booted ∧ BootedAs booted image ∧
      booted.systemSlot = slot.asU8 := by
  simp only [boot, missing, scan, chosen]
  exact ⟨_, rfl, ⟨_, _, _, rfl⟩, rfl⟩

theorem boot_of_refused (recorded : newestRecord files = some state)
    (refused : Refused platform files nvram state.activeSlot (some state.activeReleaseVersion)) :
    boot platform files nvram =
      failOver platform files (examine platform files nvram state.activeSlot).2 state := by
  simp only [boot, recorded, bootFrom]
  cases examined : examine platform files nvram state.activeSlot with
  | mk result left =>
    cases result with
    | none => rfl
    | some image =>
      obtain ⟨version, same, differs⟩ := refused image (by rw [examined])
      cases same
      exact if_neg differs

theorem boot_of_rejected (recorded : newestRecord files = some state)
    (active : examine platform files nvram state.activeSlot = (none, nvram))
    (other : examine platform files nvram state.activeSlot.other = (none, left)) :
    (boot platform files nvram).image = none := by
  have refused : Refused platform files nvram state.activeSlot (some state.activeReleaseVersion) := by
    intro image accepted
    rw [active] at accepted
    cases accepted
  rw [boot_of_refused recorded refused, active]
  exact failOver_none other

end

/-- The start of a boot. -/
def powerOn (files : Volume) (nvram : Nvram) (faults : Nat → Fault) : Firmware :=
  { files, nvram, faults, calls := 0 }

section

variable {platform : Platform} {files : Volume} {nvram : Nvram} {faults : Nat → Fault}

section

variable (served : Served faults)

include served

/-- A served boot from power on, read off the loader's run. -/
theorem boot_eq :
    boot platform files nvram =
      { image := (outcome (loadKernelImage platform) (powerOn files nvram faults)).toOption
        files := (after (loadKernelImage platform) (powerOn files nvram faults)).files
        nvram := (after (loadKernelImage platform) (powerOn files nvram faults)).nvram } := by
  have refines : Computes (At files faults nvram) (loadKernelImage platform)
      (boot platform files nvram) := loadKernelImage_served served
  have computes := refines (powerOn files nvram faults) ⟨rfl, rfl, rfl⟩
  cases run : (loadKernelImage platform).run (powerOn files nvram faults) with
  | ok image s =>
    rw [run] at computes
    rw [outcome_ok run, after_ok run]
    exact computes
  | error e s =>
    rw [run] at computes
    rw [outcome_error run, after_error run]
    exact computes

theorem after_files :
    (after (loadKernelImage platform) (powerOn files nvram faults)).files =
      (boot platform files nvram).files := by
  rw [boot_eq served]

theorem after_nvram :
    (after (loadKernelImage platform) (powerOn files nvram faults)).nvram =
      (boot platform files nvram).nvram := by
  rw [boot_eq served]

theorem outcome_eq_ok :
    outcome (loadKernelImage platform) (powerOn files nvram faults) = .ok image ↔
      (boot platform files nvram).image = some image := by
  rw [boot_eq served]
  cases outcome (loadKernelImage platform) (powerOn files nvram faults) with
  | ok booted => simp [Except.toOption]
  | error e => simp [Except.toOption]

end

theorem boot_of_active (recorded : newestRecord files = some state)
    (accepted : examine platform files nvram state.activeSlot = (some image, nvram'))
    (version : image.releaseVersion = state.activeReleaseVersion) :
    boot platform files nvram =
      { image := some { image with
          bootStateGeneration := state.generation
          systemSlot := state.activeSlot.asU8 }
        files
        nvram := nvram' } := by
  simp only [boot, recorded, bootFrom, accepted, if_pos version]

end

/-! ## A platform to compute with

Hashes are the first bytes, a signature starts with the key that made it, and every
file is the same one-segment kernel.
-/

namespace Toy

def key (n : UInt8) : PublicKey :=
  arrayAt 32 [n] 0

def platform : Platform where
  sha256 bytes := arrayAt 32 bytes 0
  validKey key := key != Vector.replicate 32 0
  verifyStrict key _ signature := arrayAt 32 signature.toList 0 == key
  -- the key `01 00 … 00`
  trustedPublicKeyHex := some (0x30 :: 0x31 :: List.replicate 62 0x30)
  elfFile _ := some
    { entryPoint := 0x200000
      phCount := 1
      programHeaders :=
        [{ isLoad := true, virtualAddr := 0x200000, physicalAddr := 0x200000, offset := 0,
           fileSize := 1, memSize := 1, isRead := true, isWrite := false, isExecute := true }]
      sections := [] }
  allocatePages _ _ := some 0x200000

def kernel : Bytes := [0x7f]

/-- A release signed by `signer` that names `next` as the next key; `key 0` names none. -/
def manifest (version : UInt64) (signer next : UInt8) : UpdateManifest :=
  { UpdateManifest.unsignedWithNextTrustKey version 1 (platform.sha256 kernel)
      (keyIdForPublicKey platform (key signer)) (key next) (keyIdForPublicKey platform (key next)) with
    signature := arrayAt 64 (key signer).toList 0 }

/-- Variables that were never written. -/
def fresh : Nvram where
  highestRelease := none
  trustRoot := none

def record (version : UInt64) : BootState where
  generation := 1
  activeSlot := .A
  activeReleaseVersion := version

/-- Both slots hold the kernel, each with its own manifest. -/
def volume (record : BootState) (a b : UpdateManifest) : Volume
  | .bootState0 => some record.encode
  | .bootState1 => none
  | .kernel _ => some kernel
  | .manifest .A => some a.encode
  | .manifest .B => some b.encode

theorem stagedImage_kernel (manifest : UpdateManifest) :
    ∃ image, stagedImage platform kernel manifest = some image := by
  obtain ⟨info, parsed⟩ : ∃ info, parseKernelImage platform kernel = some info := ⟨_, rfl⟩
  have span : outcome (stageKernelImageSpan platform info.segments kernel) [] =
      .ok { imageBase := 0x200000, pageCount := 1, allocationPhys := 0x200000, relocationCount := 0 } := by
    cases parsed
    decide +kernel
  simp only [stagedImage, parsed, stageKernelSegments, run_of_outcome_ok span]
  exact ⟨_, rfl⟩

theorem trustRootOf_fresh : trustRootOf platform fresh =
      some
        { publicKey := key 1
          keyId := keyIdForPublicKey platform (key 1)
          source := .embedded
          activationReleaseVersion := 0 } := by
  have embedded : embeddedTrustedPublicKey platform = some (key 1) := by decide +kernel
  simp [trustRootOf, embedded, Nvram.read, Nvram.get, fresh]

theorem keyId_injective
    (h : keyIdForPublicKey platform (key m) = keyIdForPublicKey platform (key n)) : m = n := by
  have first := congrArg (fun v : KeyId => v[0]) h
  simpa [keyIdForPublicKey, platform, key, arrayAt, byteAt] using first

theorem key_injective (h : key m = key n) : m = n :=
  keyId_injective (congrArg _ h)

theorem key_eq_zero : key n = Vector.replicate 32 0 ↔ n = 0 := by
  have zero : key 0 = Vector.replicate 32 0 := by decide
  rw [← zero]
  exact ⟨key_injective, congrArg key⟩

theorem keyId_eq_zero :
    keyIdForPublicKey platform (key n) = Vector.replicate 16 0 ↔ n = 0 := by
  have zero : keyIdForPublicKey platform (key 0) = Vector.replicate 16 0 := by decide
  rw [← zero]
  exact ⟨keyId_injective, congrArg fun n => keyIdForPublicKey platform (key n)⟩

theorem validKey_key : platform.validKey (key n) = true ↔ n ≠ 0 := by
  simp only [platform, bne_iff_ne, ne_eq, key_eq_zero]

theorem signature_starts_with_key (n : UInt8) :
    arrayAt 32 (arrayAt 64 (key n).toList 0).toList 0 = key n := by
  ext i small
  have inside : i < 64 := by omega
  simp [arrayAt, byteAt, inside]

theorem signature_ne_zero (valid : n ≠ 0) :
    arrayAt 64 (key n).toList 0 ≠ Vector.replicate 64 0 := by
  intro zero
  have same := signature_starts_with_key n
  rw [zero] at same
  exact valid (key_eq_zero.mp (same.symm.trans (by decide)))

theorem verified {version : UInt64} {signer next : UInt8} {root : TrustRoot}
    (valid : signer ≠ 0) (publicKey : root.publicKey = key signer)
    (keyId : root.keyId = keyIdForPublicKey platform (key signer)) :
    Verified platform kernel (manifest version signer next) root := by
  refine ⟨rfl, rfl, ?_, keyId, ?_⟩
  · rw [publicKey]
    exact validKey_key.mpr valid
  · have signed := signature_starts_with_key signer
    simp only [platform, manifest, publicKey, signed, BEq.rfl]

theorem wellFormed (release : version ≠ 0) (valid : signer ≠ 0) :
    (manifest version signer next).WellFormed := by
  refine ⟨.inr rfl, release, (by decide : (1 : UInt64) ≠ 0), ?_, ?_, ?_⟩
  · exact fun zero => valid (keyId_eq_zero.mp zero)
  · exact key_eq_zero.trans keyId_eq_zero.symm
  · exact signature_ne_zero valid

theorem nextTrustRoot_keep :
    nextTrustRoot platform (manifest version signer 0) root = some none := by
  have absent : (manifest version signer 0).hasNextTrustKey = false := by
    change (key 0 != Vector.replicate 32 0) = false
    decide
  simp [nextTrustRoot, absent]

/-- The trust root a manifest naming key `next` asks for. -/
def nextRoot (version : UInt64) (next : UInt8) : TrustRootState where
  activationReleaseVersion := version
  publicKey := key next
  keyId := keyIdForPublicKey platform (key next)

theorem nextTrustRoot_rotate (publicKey : root.publicKey = key signer) (valid : next ≠ 0)
    (different : next ≠ signer) :
    nextTrustRoot platform (manifest version signer next) root = some (some (nextRoot version next)) := by
  have present : (manifest version signer next).hasNextTrustKey = true := by
    change (key next != Vector.replicate 32 0) = true
    exact bne_iff_ne.mpr fun zero => valid (key_eq_zero.mp zero)
  have other : ¬(manifest version signer next).nextTrustPublicKey = root.publicKey := by
    rw [publicKey]
    exact fun same => different (key_injective same)
  have wellFormed : platform.validKey (manifest version signer next).nextTrustPublicKey = true :=
    validKey_key.mpr valid
  unfold nextTrustRoot
  rw [if_neg (by simp [present]), if_neg (by simp [wellFormed]), if_neg (by exact not_not.mpr rfl),
    if_neg other]
  rfl

theorem decode_manifest (release : version ≠ 0) (valid : signer ≠ 0) :
    UpdateManifest.decode (manifest version signer next).encode =
      .ok (manifest version signer next) :=
  UpdateManifest.decode_encode (wellFormed release valid) rfl

section

variable (files : Volume) (slot : SystemSlot) (hasKernel : files (.kernel slot) = some kernel)
  (hasManifest : files (.manifest slot) = some (manifest version signer next).encode)
  (release : version ≠ 0) (valid : signer ≠ 0)

include hasKernel hasManifest release valid

theorem exists_admitted (active : trustRootOf platform nvram = some root)
    (publicKey : root.publicKey = key signer)
    (keyId : root.keyId = keyIdForPublicKey platform (key signer))
    (known : releaseFloor nvram = some floor) (atLeast : floor ≤ version) :
    ∃ image, Admitted platform files nvram slot root (manifest version signer next) image floor := by
  obtain ⟨image, staged⟩ := stagedImage_kernel (manifest version signer next)
  have found : slotFiles files slot = some (kernel, manifest version signer next) :=
    slotFiles_eq_some.mpr ⟨_, hasKernel, hasManifest, decode_manifest release valid⟩
  exact ⟨image, active,
    slotRelease_eq_some.mpr ⟨kernel, found, verified valid publicKey keyId, staged⟩, known,
    UInt64.not_lt.mpr atLeast⟩

theorem exists_examine (active : trustRootOf platform nvram = some root)
    (publicKey : root.publicKey = key signer)
    (keyId : root.keyId = keyIdForPublicKey platform (key signer))
    (known : releaseFloor nvram = some floor) (atLeast : floor ≤ version)
    (well : nextTrustRoot platform (manifest version signer next) root = some state) :
    ∃ image, image.releaseVersion = version ∧
      examine platform files nvram slot =
        (some image, adoptRoot (raiseFloor nvram floor version) state) := by
  obtain ⟨image, admitted⟩ := exists_admitted files slot hasKernel hasManifest release valid active
    publicKey keyId known atLeast
  exact ⟨image, admitted.releaseVersion, examine_of_next_some admitted well⟩

theorem examine_below (known : releaseFloor nvram = some floor) (below : version < floor) : examine platform files nvram slot = (none, nvram) := by
  refine examine_of_not_admitted ?_
  intro root found image floor' admitted
  obtain ⟨rfl, -, -⟩ := admitted.of_files hasKernel hasManifest (decode_manifest release valid)
  cases known.symm.trans admitted.known
  exact admitted.atLeast below

theorem examine_untrusted (active : trustRootOf platform nvram = some root)
    (keyId : root.keyId = keyIdForPublicKey platform (key trusted)) (other : trusted ≠ signer) :
    examine platform files nvram slot = (none, nvram) := by
  refine examine_of_not_admitted ?_
  intro root' found image floor admitted
  obtain ⟨rfl, verified, -⟩ :=
    admitted.of_files hasKernel hasManifest (decode_manifest release valid)
  cases active.symm.trans admitted.active
  exact other (keyId_injective (keyId.symm.trans verified.keyId))

end

theorem newestRecord_volume {record : BootState} (generation : record.generation ≠ 0)
    (version : record.activeReleaseVersion ≠ 0) (a b : UpdateManifest) :
    newestRecord (volume record a b) = some record := by
  have first : recordIn (volume record a b) .bootState0 = some record := by
    simp [recordIn, volume, BootState.decode_encode generation version, Except.toOption]
  have second : recordIn (volume record a b) .bootState1 = none := rfl
  simp [newestRecord, first, second, newerBootState]

end Toy

end CodexOS.Release
