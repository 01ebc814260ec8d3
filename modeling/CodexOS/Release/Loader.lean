import CodexOS.Lib.Effect
import CodexOS.Release.KernelImage

/-! # The loader's choice of a kernel

`loadKernelImage` reads the boot records, examines one or both system slots and
returns a staged, verified kernel. Its world is the boot volume and two
nonvolatile firmware variables. Every firmware call may fail: `faults` says, call
by call, what the firmware does, so a statement for all `faults` covers any
failure and, with every call failing from some point on, a power loss there.
-/

namespace CodexOS.Release

open Bytes Effect

/-- What the firmware does with one call. -/
inductive Fault where
  /-- The call is served. -/
  | none
  /-- The call fails and has no effect. -/
  | refused
  /-- The call fails although a write took effect. -/
  | unacknowledged
  deriving DecidableEq

/-- The files of the boot volume that the loader opens. -/
inductive BootFile where
  /-- `\BOOTSTA0.BIN` -/
  | bootState0
  /-- `\BOOTSTA1.BIN` -/
  | bootState1
  /-- `\SYSTEM\<slot>\KERNEL.ELF` -/
  | kernel (slot : SystemSlot)
  /-- `\SYSTEM\<slot>\KERNEL.SIG` -/
  | manifest (slot : SystemSlot)
  deriving DecidableEq

/-- A volume: a file that is missing or cannot be read is `none`. -/
abbrev Volume := BootFile → Option Bytes

def Volume.set (files : Volume) (file : BootFile) (bytes : Bytes) : Volume :=
  Function.update files file (some bytes)

/-- The loader's nonvolatile variables, absent until first written. -/
structure Nvram where
  /-- `CodexOsHighestRelease` -/
  highestRelease : Option Bytes
  /-- `CodexOsTrustRoot` -/
  trustRoot : Option Bytes
  deriving DecidableEq

inductive Variable where
  | highestRelease
  | trustRoot
  deriving DecidableEq

def Nvram.get (nvram : Nvram) : Variable → Option Bytes
  | .highestRelease => nvram.highestRelease
  | .trustRoot => nvram.trustRoot

def Nvram.set (nvram : Nvram) : Variable → Bytes → Nvram
  | .highestRelease, bytes => { nvram with highestRelease := some bytes }
  | .trustRoot, bytes => { nvram with trustRoot := some bytes }

inductive Status where
  | notFound
  | bufferTooSmall
  | deviceError
  deriving DecidableEq

/-- The answer to a read of a variable into a buffer of `size` bytes. -/
def Nvram.read (nvram : Nvram) (name : Variable) (size : Nat) : Except Status Bytes :=
  match nvram.get name with
  | none => .error .notFound
  | some value => if value.length > size then .error .bufferTooSmall else .ok value

structure Firmware where
  files : Volume
  nvram : Nvram
  faults : Nat → Fault
  calls : Nat

inductive KernelLoadError where
  | fileSystemUnavailable
  | bootStateUnavailable
  | bootStateRepairFailed
  | bootStateGenerationExhausted
  | kernelReadFailed
  | manifestReadFailed
  | manifestInvalid (error : ManifestError)
  | kernelSizeMismatch
  | kernelHashMismatch
  | trustedKeyUnavailable
  | persistedTrustRootInvalid
  | persistedTrustRootUnavailable
  | nextTrustKeyInvalid
  | nextTrustKeyIdMismatch
  | trustRootUpdateFailed
  | keyIdMismatch
  | signatureInvalid
  | rollbackStateUnavailable
  | rollbackDetected (candidate minimum : UInt64)
  | bothSystemSlotsUnavailable
  | invalidElf
  | stagingFailed
  deriving DecidableEq

abbrev Boot := EStateM KernelLoadError Firmware

def nextFault : Boot Fault := fun firmware =>
  .ok (firmware.faults firmware.calls) { firmware with calls := firmware.calls + 1 }

section

variable (file : BootFile)

def readFile : Boot (Option Bytes) := do
  let fault ← nextFault
  let firmware ← get
  pure (if fault = .none then firmware.files file else none)

/-- Returns whether the firmware reported success. -/
def writeFile (bytes : Bytes) : Boot Bool := do
  let fault ← nextFault
  if fault ≠ .refused then
    modify fun firmware => { firmware with files := firmware.files.set file bytes }
  pure (fault = .none)

/-- Read a variable into a buffer of `size` bytes. -/
def getVariable (name : Variable) (size : Nat) : Boot (Except Status Bytes) := do
  let fault ← nextFault
  let firmware ← get
  pure (if fault = .none then firmware.nvram.read name size else .error .deviceError)

/-- Returns whether the firmware reported success. -/
def setVariable (name : Variable) (value : Bytes) : Boot Bool := do
  let fault ← nextFault
  if fault ≠ .refused then
    modify fun firmware => { firmware with nvram := firmware.nvram.set name value }
  pure (fault = .none)

inductive TrustRootSource where
  | embedded
  | persisted
  deriving DecidableEq

structure TrustRoot where
  publicKey : PublicKey
  keyId : KeyId
  source : TrustRootSource
  activationReleaseVersion : UInt64
  deriving DecidableEq

def hexNibble (byte : UInt8) : Option UInt8 :=
  if 0x30 ≤ byte ∧ byte ≤ 0x39 then some (byte - 0x30)
  else if 0x61 ≤ byte ∧ byte ≤ 0x66 then some (byte - 0x61 + 10)
  else if 0x41 ≤ byte ∧ byte ≤ 0x46 then some (byte - 0x41 + 10)
  else none

/-- Two hexadecimal digits for every byte. -/
def decodeHex : Bytes → Option Bytes
  | [] => some []
  | [_] => none
  | high :: low :: rest => do
    let high ← hexNibble high
    let low ← hexNibble low
    let bytes ← decodeHex rest
    some ((high <<< 4 ||| low) :: bytes)

section

variable (platform : Platform)

def embeddedTrustedPublicKey : Option PublicKey :=
  match platform.trustedPublicKeyHex with
  | none => none
  | some encoded =>
    if encoded.length ≠ 64 then none
    else (decodeHex encoded).map fun key => arrayAt 32 key 0

def keyIdForPublicKey (publicKey : PublicKey) : KeyId :=
  arrayAt 16 (platform.sha256 publicKey.toList).toList 0

def activeTrustRoot : Boot TrustRoot := do
  let some embeddedPublicKey := embeddedTrustedPublicKey platform
    | throw .trustedKeyUnavailable
  let embedded : TrustRoot :=
    { publicKey := embeddedPublicKey
      keyId := keyIdForPublicKey platform embeddedPublicKey
      source := .embedded
      activationReleaseVersion := 0 }
  match ← getVariable .trustRoot trustRootStateBytes with
  | .ok value =>
    if value.length ≠ trustRootStateBytes then throw .persistedTrustRootInvalid
    else
      match TrustRootState.decode value with
      | .error _ => throw .persistedTrustRootInvalid
      | .ok state =>
        if !platform.validKey state.publicKey then throw .persistedTrustRootInvalid
        else if keyIdForPublicKey platform state.publicKey ≠ state.keyId then
          throw .persistedTrustRootInvalid
        else
          pure
            { publicKey := state.publicKey
              keyId := state.keyId
              source := .persisted
              activationReleaseVersion := state.activationReleaseVersion }
  | .error .notFound => pure embedded
  | .error _ => throw .persistedTrustRootUnavailable

/-- The trust root under which the release verified. -/
def verifyKernelRelease (kernel : Bytes) (manifest : UpdateManifest) :
    Boot TrustRoot := do
  if kernel.length ≠ manifest.kernelSize.toNat then throw .kernelSizeMismatch
  if platform.sha256 kernel ≠ manifest.kernelSha256 then throw .kernelHashMismatch
  let trustRoot ← activeTrustRoot platform
  if !platform.validKey trustRoot.publicKey then throw .trustedKeyUnavailable
  if trustRoot.keyId ≠ manifest.keyId then throw .keyIdMismatch
  if !platform.verifyStrict trustRoot.publicKey (manifest.signingBytes.take manifest.signingLen)
      manifest.signature then
    throw .signatureInvalid
  pure trustRoot

/-- The stored release floor; zero before any release was booted. -/
def readReleaseFloor : Boot UInt64 := do
  match ← getVariable .highestRelease 8 with
  | .ok value =>
    if value.length = 8 then pure (UInt64.ofNat (leNat value))
    else throw .rollbackStateUnavailable
  | .error .notFound => pure 0
  | .error _ => throw .rollbackStateUnavailable

def enforceReleaseVersion (candidate : UInt64) : Boot Unit := do
  let minimum ← readReleaseFloor
  if candidate < minimum then throw (.rollbackDetected candidate minimum)
  if candidate > minimum then
    let written ← setVariable .highestRelease (le 8 candidate.toNat)
    if !written then throw .rollbackStateUnavailable

/-- Persist a trust root and read it back. -/
def storeTrustRoot (state : TrustRootState) : Boot Unit := do
  let written ← setVariable .trustRoot state.encode
  if !written then throw .trustRootUpdateFailed
  match ← getVariable .trustRoot trustRootStateBytes with
  | .error _ => throw .trustRootUpdateFailed
  | .ok value =>
    if value.length ≠ trustRootStateBytes ∨
        (TrustRootState.decode value).toOption ≠ some state then
      throw .trustRootUpdateFailed

def applyTrustRootUpdate (manifest : UpdateManifest) (current : TrustRoot) :
    Boot Unit := do
  if !manifest.hasNextTrustKey then return
  let nextPublicKey := manifest.nextTrustPublicKey
  if !platform.validKey nextPublicKey then throw .nextTrustKeyInvalid
  let nextKeyId := keyIdForPublicKey platform nextPublicKey
  if nextKeyId ≠ manifest.nextTrustKeyId then throw .nextTrustKeyIdMismatch
  if nextPublicKey = current.publicKey then return
  storeTrustRoot
    { activationReleaseVersion := manifest.releaseVersion
      publicKey := nextPublicKey
      keyId := nextKeyId }

/-- Stage the kernel; with a fault the firmware has no pages for it. -/
def stageServed (info : KernelImageInfo) (bytes : Bytes) :
    Boot (Option KernelImageInfo) := do
  let fault ← nextFault
  pure (if fault = .none then stageKernelSegments platform info bytes else none)

def loadSystemSlot (slot : SystemSlot) : Boot KernelImageInfo := do
  let some bytes ← readFile (.kernel slot) | throw .kernelReadFailed
  let some manifestBytes ← readFile (.manifest slot) | throw .manifestReadFailed
  let manifest ←
    match UpdateManifest.decode manifestBytes with
    | .ok manifest => pure manifest
    | .error error => throw (.manifestInvalid error)
  let trustRoot ← verifyKernelRelease platform bytes manifest
  let some parsed := parseKernelImage platform bytes | throw .invalidElf
  let info : KernelImageInfo :=
    { parsed with
      releaseVersion := manifest.releaseVersion
      signatureVerified := 1
      verificationKeyId := manifest.keyId
      kernelSha256 := manifest.kernelSha256 }
  let some staged ← stageServed platform info bytes | throw .stagingFailed
  enforceReleaseVersion manifest.releaseVersion
  applyTrustRootUpdate platform manifest trustRoot
  pure staged

end

/-- The boot record a file holds, when it holds one. -/
def readBootState : Boot (Option BootState) := do
  match ← readFile file with
  | none => pure none
  | some bytes => pure (BootState.decode bytes).toOption

/-- The record with the greater generation; the earlier one on a tie. -/
def newerBootState (selected : Option BootState) (candidate : Option BootState) :
    Option BootState :=
  match selected, candidate with
  | selected, none => selected
  | none, some state => some state
  | some current, some state =>
    if state.generation > current.generation then some state else some current

def loadBootState : Boot BootState := do
  let first ← readBootState .bootState0
  let second ← readBootState .bootState1
  match newerBootState (newerBootState none first) second with
  | some state => pure state
  | none => throw .bootStateUnavailable

def writeVerifiedBootState (state : BootState) : Boot Unit := do
  let written ← writeFile file state.encode
  if !written then throw .bootStateRepairFailed
  let some bytes ← readFile file | throw .bootStateRepairFailed
  if (BootState.decode bytes).toOption ≠ some state then throw .bootStateRepairFailed

end

/-- Records of odd generation live in the first file, the others in the second. -/
def bootStateFile (generation : UInt64) : BootFile :=
  if generation &&& 1 = 1 then .bootState0 else .bootState1

def repairBootState (slot : SystemSlot) (releaseVersion : UInt64) : Boot BootState := do
  let first : BootState :=
    { generation := 1, activeSlot := slot, activeReleaseVersion := releaseVersion }
  let second : BootState := { first with generation := 2 }
  writeVerifiedBootState .bootState0 first
  writeVerifiedBootState .bootState1 second
  pure second

def persistFallbackBootState (current : BootState) (fallback : SystemSlot)
    (releaseVersion : UInt64) : Boot BootState := do
  if current.generation.toNat + 1 ≥ 2 ^ 64 then throw .bootStateGenerationExhausted
  let generation := current.generation + 1
  let repaired : BootState :=
    { generation, activeSlot := fallback, activeReleaseVersion := releaseVersion }
  writeVerifiedBootState (bootStateFile generation) repaired
  pure repaired

/-- The scan's choice between what it holds and a newly verified slot. -/
def betterImage (selected : Option (SystemSlot × KernelImageInfo)) (slot : SystemSlot)
    (outcome : Except KernelLoadError KernelImageInfo) : Option (SystemSlot × KernelImageInfo) :=
  match outcome, selected with
  | .error _, selected => selected
  | .ok image, none => some (slot, image)
  | .ok image, some (held, current) =>
    if image.releaseVersion > current.releaseVersion then some (slot, image)
    else some (held, current)

section

variable (platform : Platform)

def recoverFromMissingBootState : Boot KernelImageInfo := do
  let first ← attempt (loadSystemSlot platform .A)
  let selected := betterImage none .A first
  let second ← attempt (loadSystemSlot platform .B)
  match betterImage selected .B second with
  | none => throw .bothSystemSlotsUnavailable
  | some (slot, image) =>
    let image := { image with systemSlot := slot.asU8, recoveryFallback := 1 }
    match ← attempt (repairBootState slot image.releaseVersion) with
    | .ok state => pure { image with bootStateGeneration := state.generation }
    | .error _ => pure { image with bootStateGeneration := 0 }

/-- Boot from the slot the active one failed over to. -/
def bootFallback (state : BootState) : Boot KernelImageInfo := do
  let fallback := state.activeSlot.other
  match ← attempt (loadSystemSlot platform fallback) with
  | .error _ => throw .bothSystemSlotsUnavailable
  | .ok image =>
    let image := { image with systemSlot := fallback.asU8, recoveryFallback := 1 }
    match ← attempt (persistFallbackBootState state fallback image.releaseVersion) with
    | .ok repaired => pure { image with bootStateGeneration := repaired.generation }
    | .error _ => pure { image with bootStateGeneration := state.generation }

/-- Boot with a boot record at hand: the active slot if it holds the recorded release. -/
def bootRecorded (state : BootState) : Boot KernelImageInfo := do
  match ← attempt (loadSystemSlot platform state.activeSlot) with
  | .ok image =>
    if image.releaseVersion = state.activeReleaseVersion then
      pure { image with
        bootStateGeneration := state.generation
        systemSlot := state.activeSlot.asU8 }
    else bootFallback platform state
  | .error _ => bootFallback platform state

def loadKernelImage : Boot KernelImageInfo := do
  let fault ← nextFault
  if fault ≠ .none then throw .fileSystemUnavailable
  match ← attempt loadBootState with
  | .ok state => bootRecorded platform state
  | .error .bootStateUnavailable => recoverFromMissingBootState platform
  | .error error => throw error

end

end CodexOS.Release
