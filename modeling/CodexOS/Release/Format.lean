import CodexOS.Crc32

/-! # Release manifests, boot records and the persisted trust root

The three fixed-size formats shared by the updater and the loader. Each is a
zeroed buffer with its fields written at fixed offsets; decoding checks the
magic, the sizes, the reserved bytes and, where there is one, the checksum.
-/

namespace CodexOS.Release

open Bytes

def manifestMagic : Bytes := [0x43, 0x44, 0x58, 0x55, 0x50, 0x44, 0x31, 0x00]
def legacyManifestFormatVersion : UInt32 := 1
def manifestFormatVersion : UInt32 := 2
def legacyManifestBytes : Nat := 160
def manifestBytes : Nat := 224
def legacySigningBytes : Nat := 80
def signingBytesLength : Nat := 160
def bootStateMagic : Bytes := [0x43, 0x44, 0x58, 0x42, 0x4f, 0x4f, 0x54, 0x31]
def bootStateFormatVersion : UInt32 := 1
def bootStateBytes : Nat := 64
def trustRootStateMagic : Bytes := [0x43, 0x44, 0x58, 0x54, 0x52, 0x53, 0x54, 0x31]
def trustRootStateFormatVersion : UInt32 := 1
def trustRootStateBytes : Nat := 80

abbrev Sha256Hash := Vector UInt8 32
abbrev PublicKey := Vector UInt8 32
abbrev KeyId := Vector UInt8 16
abbrev Signature := Vector UInt8 64

inductive ManifestError where
  | invalidLength
  | invalidMagic
  | unsupportedFormat
  | invalidHeaderSize
  | invalidReleaseVersion
  | invalidKernelSize
  | invalidKeyId
  | invalidNextTrustKey
  | invalidSignature
  | nonzeroReservedBytes
  deriving DecidableEq

inductive BootStateError where
  | invalidLength
  | invalidMagic
  | unsupportedFormat
  | invalidHeaderSize
  | invalidGeneration
  | invalidSlot
  | invalidReleaseVersion
  | invalidChecksum
  | nonzeroReservedBytes
  deriving DecidableEq

inductive TrustRootStateError where
  | invalidLength
  | invalidMagic
  | unsupportedFormat
  | invalidHeaderSize
  | invalidActivationRelease
  | invalidPublicKey
  | invalidKeyId
  | invalidChecksum
  | nonzeroReservedBytes
  deriving DecidableEq

def putU32 (output : Bytes) (offset : Nat) (value : UInt32) : Bytes :=
  put output offset (le 4 value.toNat)

def putU64 (output : Bytes) (offset : Nat) (value : UInt64) : Bytes :=
  put output offset (le 8 value.toNat)

def getU32 (input : Bytes) (offset : Nat) : UInt32 :=
  UInt32.ofNat (leNat (slice input offset 4))

def getU64 (input : Bytes) (offset : Nat) : UInt64 :=
  UInt64.ofNat (leNat (slice input offset 8))

/-- Whether some byte of the range is set: the test of the reserved bytes. -/
def anyNonzero (bytes : Bytes) : Bool :=
  bytes.any (· != 0)

theorem getU32_of_slice (field : slice input offset 4 = le 4 value.toNat) :
    getU32 input offset = value := by
  have small : value.toNat < 256 ^ 4 := value.toNat_lt
  simp only [getU32, field, leNat_le_of_lt small, UInt32.ofNat_toNat]

theorem getU64_of_slice (field : slice input offset 8 = le 8 value.toNat) :
    getU64 input offset = value := by
  have small : value.toNat < 256 ^ 8 := value.toNat_lt
  simp only [getU64, field, leNat_le_of_lt small, UInt64.ofNat_toNat]

@[simp] theorem anyNonzero_zeros (n : Nat) : anyNonzero (zeros n) = false := by
  simp [anyNonzero, zeros]

theorem putU32_zero_putU32 (blank : slice body offset 4 = zeros 4) :
    putU32 (putU32 body offset value) offset 0 = body := by
  unfold putU32
  rw [put_put_same (by simp only [length_le])]
  apply put_of_slice
  rw [length_le, blank]
  exact (le_zero 4).symm

inductive SystemSlot where
  | A
  | B
  deriving DecidableEq

namespace SystemSlot

def asU8 : SystemSlot → UInt8
  | A => 0
  | B => 1

def fromU8 (value : UInt8) : Option SystemSlot :=
  if value = 0 then some A else if value = 1 then some B else none

def other : SystemSlot → SystemSlot
  | A => B
  | B => A

@[simp] theorem fromU8_asU8 (slot : SystemSlot) : fromU8 slot.asU8 = some slot := by
  cases slot <;> rfl

@[simp] theorem other_other (slot : SystemSlot) : slot.other.other = slot := by
  cases slot <;> rfl

theorem other_ne (slot : SystemSlot) : slot.other ≠ slot := by
  cases slot <;> decide

end SystemSlot

structure BootState where
  generation : UInt64
  activeSlot : SystemSlot
  activeReleaseVersion : UInt64
  deriving DecidableEq

namespace BootState

section

variable (state : BootState)

include state

/-- The record before its checksum is filled in. -/
def encodeBody : Bytes :=
  let output := zeros bootStateBytes
  let output := put output 0 bootStateMagic
  let output := putU32 output 8 bootStateFormatVersion
  let output := putU32 output 12 (UInt32.ofNat bootStateBytes)
  let output := putU64 output 16 state.generation
  let output := put output 24 [state.activeSlot.asU8]
  putU64 output 32 state.activeReleaseVersion

def encode : Bytes :=
  let output := state.encodeBody
  putU32 output 40 (crc32 output)

def decode (input : Bytes) : Except BootStateError BootState :=
  if input.length ≠ bootStateBytes then .error .invalidLength
  else if slice input 0 8 ≠ bootStateMagic then .error .invalidMagic
  else if getU32 input 8 ≠ bootStateFormatVersion then .error .unsupportedFormat
  else if (getU32 input 12).toNat ≠ bootStateBytes then .error .invalidHeaderSize
  else
    let generation := getU64 input 16
    if generation = 0 then .error .invalidGeneration
    else
      match SystemSlot.fromU8 (byteAt input 24) with
      | none => .error .invalidSlot
      | some activeSlot =>
        let activeReleaseVersion := getU64 input 32
        if activeReleaseVersion = 0 then .error .invalidReleaseVersion
        else if anyNonzero (slice input 25 7) || anyNonzero (input.drop 44) then
          .error .nonzeroReservedBytes
        else
          let storedChecksum := getU32 input 40
          let copy := putU32 input 40 0
          if crc32 copy ≠ storedChecksum then .error .invalidChecksum
          else .ok { generation, activeSlot, activeReleaseVersion }

@[simp] theorem length_encodeBody : state.encodeBody.length = 64 := by
  simp [encodeBody, putU32, putU64, bootStateBytes]

@[simp] theorem length_encode : state.encode.length = 64 := by
  simp [encode, putU32]

theorem slice_encodeBody :
    slice state.encodeBody 0 8 = bootStateMagic ∧
    slice state.encodeBody 8 4 = le 4 bootStateFormatVersion.toNat ∧
    slice state.encodeBody 12 4 = le 4 (UInt32.ofNat bootStateBytes).toNat ∧
    slice state.encodeBody 16 8 = le 8 state.generation.toNat ∧
    slice state.encodeBody 24 1 = [state.activeSlot.asU8] ∧
    slice state.encodeBody 25 7 = zeros 7 ∧
    slice state.encodeBody 32 8 = le 8 state.activeReleaseVersion.toNat ∧
    slice state.encodeBody 40 4 = zeros 4 ∧
    slice state.encodeBody 44 20 = zeros 20 := by
  refine ⟨?_, ?_, ?_, ?_, ?_, ?_, ?_, ?_, ?_⟩ <;>
    simp [encodeBody, putU32, putU64, bootStateBytes, bootStateMagic, slice_put_same,
      slice_put_disjoint, slice_zeros]

end

theorem slice_encode {state : BootState} {offset n : Nat} (apart : offset + n ≤ 40 ∨ 44 ≤ offset) :
    slice state.encode offset n = slice state.encodeBody offset n :=
  slice_put_disjoint (by simpa using apart)

theorem decode_encode {state : BootState} (generation : state.generation ≠ 0)
    (version : state.activeReleaseVersion ≠ 0) : decode state.encode = .ok state := by
  obtain ⟨magic, format, header, gen, slot, reserved, ver, blank, tail⟩ := slice_encodeBody state
  have length : state.encode.length = bootStateBytes := length_encode state
  have readMagic := (slice_encode (by omega)).trans magic
  have readFormat := getU32_of_slice ((slice_encode (by omega)).trans format)
  have readHeader : (getU32 state.encode 12).toNat = bootStateBytes := by
    rw [getU32_of_slice (by rw [slice_encode (by omega), header])]
    rfl
  have readGeneration := getU64_of_slice ((slice_encode (by omega)).trans gen)
  have readSlot := byteAt_of_slice ((slice_encode (by omega)).trans slot)
  have readVersion := getU64_of_slice ((slice_encode (by omega)).trans ver)
  have readReserved := (slice_encode (by omega)).trans reserved
  have readTail : state.encode.drop 44 = zeros 20 := by
    rw [drop_eq_slice (n := 20) (by simp), slice_encode (by omega), tail]
  have checksum : crc32 (putU32 state.encode 40 0) = getU32 state.encode 40 := by
    unfold encode
    rw [putU32_zero_putU32 blank]
    exact (getU32_of_slice (by simp [putU32, slice_put_same])).symm
  simp [decode, length, readMagic, readFormat, readHeader, readGeneration, generation, readSlot,
    readVersion, version, readReserved, readTail, checksum]

end BootState

structure UpdateManifest where
  formatVersion : UInt32
  releaseVersion : UInt64
  kernelSize : UInt64
  kernelSha256 : Sha256Hash
  keyId : KeyId
  nextTrustPublicKey : PublicKey
  nextTrustKeyId : KeyId
  signature : Signature
  deriving DecidableEq

namespace UpdateManifest

def unsigned (releaseVersion kernelSize : UInt64) (kernelSha256 : Sha256Hash) (keyId : KeyId) :
    UpdateManifest where
  formatVersion := manifestFormatVersion
  releaseVersion := releaseVersion
  kernelSize := kernelSize
  kernelSha256 := kernelSha256
  keyId := keyId
  nextTrustPublicKey := Vector.replicate 32 0
  nextTrustKeyId := Vector.replicate 16 0
  signature := Vector.replicate 64 0

def unsignedWithNextTrustKey (releaseVersion kernelSize : UInt64) (kernelSha256 : Sha256Hash)
    (keyId : KeyId) (nextTrustPublicKey : PublicKey) (nextTrustKeyId : KeyId) : UpdateManifest where
  formatVersion := manifestFormatVersion
  releaseVersion := releaseVersion
  kernelSize := kernelSize
  kernelSha256 := kernelSha256
  keyId := keyId
  nextTrustPublicKey := nextTrustPublicKey
  nextTrustKeyId := nextTrustKeyId
  signature := Vector.replicate 64 0

section

variable (manifest : UpdateManifest)

def hasNextTrustKey : Bool :=
  manifest.nextTrustPublicKey != Vector.replicate 32 0

def signingLen : Nat :=
  if manifest.formatVersion = legacyManifestFormatVersion then legacySigningBytes
  else signingBytesLength

def signingBytes : Bytes :=
  let signing := zeros signingBytesLength
  let signing := put signing 0 manifestMagic
  if manifest.formatVersion = legacyManifestFormatVersion then
    let signing := putU32 signing 8 legacyManifestFormatVersion
    let signing := putU32 signing 12 (UInt32.ofNat legacyManifestBytes)
    let signing := putU64 signing 16 manifest.releaseVersion
    let signing := putU64 signing 24 manifest.kernelSize
    let signing := put signing 32 manifest.kernelSha256.toList
    put signing 64 manifest.keyId.toList
  else
    let signing := putU32 signing 8 manifestFormatVersion
    let signing := putU32 signing 12 (UInt32.ofNat manifestBytes)
    let signing := putU64 signing 16 manifest.releaseVersion
    let signing := putU64 signing 24 manifest.kernelSize
    let signing := put signing 32 manifest.kernelSha256.toList
    let signing := put signing 64 manifest.keyId.toList
    let signing := put signing 80 manifest.nextTrustPublicKey.toList
    put signing 112 manifest.nextTrustKeyId.toList

def encode : Bytes :=
  let output := zeros manifestBytes
  let output := put output 0 manifest.signingBytes
  put output 160 manifest.signature.toList

end

/-- The part of a manifest that depends on the format version: signature, next key and its id. -/
def decodeTail (input : Bytes) (formatVersion : UInt32) (headerSize : Nat) :
    Except ManifestError (Signature × PublicKey × KeyId) :=
  if formatVersion = legacyManifestFormatVersion then
    if input.length ≠ legacyManifestBytes ∨ headerSize ≠ legacyManifestBytes then
      .error .invalidHeaderSize
    else if anyNonzero (slice input 144 16) then .error .nonzeroReservedBytes
    else .ok (arrayAt 64 input 80, Vector.replicate 32 0, Vector.replicate 16 0)
  else if formatVersion = manifestFormatVersion then
    if input.length ≠ manifestBytes ∨ headerSize ≠ manifestBytes then .error .invalidHeaderSize
    else
      let nextTrustPublicKey := arrayAt 32 input 80
      let nextTrustKeyId := arrayAt 16 input 112
      let nextKeyIsZero := nextTrustPublicKey == Vector.replicate 32 0
      let nextIdIsZero := nextTrustKeyId == Vector.replicate 16 0
      if nextKeyIsZero != nextIdIsZero then .error .invalidNextTrustKey
      else if anyNonzero (slice input 128 32) then .error .nonzeroReservedBytes
      else .ok (arrayAt 64 input 160, nextTrustPublicKey, nextTrustKeyId)
  else .error .unsupportedFormat

def decode (input : Bytes) : Except ManifestError UpdateManifest :=
  if input.length ≠ legacyManifestBytes ∧ input.length ≠ manifestBytes then .error .invalidLength
  else if slice input 0 8 ≠ manifestMagic then .error .invalidMagic
  else
    let formatVersion := getU32 input 8
    let headerSize := (getU32 input 12).toNat
    let releaseVersion := getU64 input 16
    if releaseVersion = 0 then .error .invalidReleaseVersion
    else
      let kernelSize := getU64 input 24
      if kernelSize = 0 then .error .invalidKernelSize
      else
        let kernelSha256 := arrayAt 32 input 32
        let keyId := arrayAt 16 input 64
        if keyId = Vector.replicate 16 0 then .error .invalidKeyId
        else
          match decodeTail input formatVersion headerSize with
          | .error error => .error error
          | .ok (signature, nextTrustPublicKey, nextTrustKeyId) =>
            if signature = Vector.replicate 64 0 then .error .invalidSignature
            else
              .ok { formatVersion, releaseVersion, kernelSize, kernelSha256, keyId,
                    nextTrustPublicKey, nextTrustKeyId, signature }

/-- What decoding guarantees of a manifest, whatever its format. -/
structure WellFormed (manifest : UpdateManifest) : Prop where
  format : manifest.formatVersion = legacyManifestFormatVersion ∨
    manifest.formatVersion = manifestFormatVersion
  release : manifest.releaseVersion ≠ 0
  kernel : manifest.kernelSize ≠ 0
  keyId : manifest.keyId ≠ Vector.replicate 16 0
  nextKey : manifest.nextTrustPublicKey = Vector.replicate 32 0 ↔
    manifest.nextTrustKeyId = Vector.replicate 16 0
  signature : manifest.signature ≠ Vector.replicate 64 0

@[simp] theorem length_signingBytes (manifest : UpdateManifest) :
    manifest.signingBytes.length = 160 := by
  unfold signingBytes
  dsimp only
  split <;> simp [putU32, putU64, signingBytesLength]

@[simp] theorem length_encode (manifest : UpdateManifest) : manifest.encode.length = 224 := by
  simp [encode, manifestBytes]

theorem slice_encode {manifest : UpdateManifest} {offset n : Nat} (inside : offset + n ≤ 160) :
    slice manifest.encode offset n = slice manifest.signingBytes offset n := by
  unfold encode
  rw [slice_put_disjoint (.inl (by omega))]
  have within : slice (put (zeros manifestBytes) 0 manifest.signingBytes) (0 + offset) n =
      slice manifest.signingBytes offset n :=
    slice_put_within (by simpa using inside) (by simp [manifestBytes])
  simpa using within

theorem slice_signingBytes {manifest : UpdateManifest}
    (format : manifest.formatVersion = manifestFormatVersion) :
    slice manifest.signingBytes 0 8 = manifestMagic ∧
    slice manifest.signingBytes 8 4 = le 4 manifestFormatVersion.toNat ∧
    slice manifest.signingBytes 12 4 = le 4 (UInt32.ofNat manifestBytes).toNat ∧
    slice manifest.signingBytes 16 8 = le 8 manifest.releaseVersion.toNat ∧
    slice manifest.signingBytes 24 8 = le 8 manifest.kernelSize.toNat ∧
    slice manifest.signingBytes 32 32 = manifest.kernelSha256.toList ∧
    slice manifest.signingBytes 64 16 = manifest.keyId.toList ∧
    slice manifest.signingBytes 80 32 = manifest.nextTrustPublicKey.toList ∧
    slice manifest.signingBytes 112 16 = manifest.nextTrustKeyId.toList ∧
    slice manifest.signingBytes 128 32 = zeros 32 := by
  have current : ¬ manifest.formatVersion = legacyManifestFormatVersion := by
    rw [format]
    decide
  refine ⟨?_, ?_, ?_, ?_, ?_, ?_, ?_, ?_, ?_, ?_⟩ <;>
    simp [signingBytes, current, putU32, putU64, manifestMagic, signingBytesLength,
      slice_put_same, slice_put_disjoint, slice_zeros]

theorem decodeTail_encode {manifest : UpdateManifest} (wellFormed : manifest.WellFormed)
    (format : manifest.formatVersion = manifestFormatVersion) :
    decodeTail manifest.encode manifestFormatVersion manifestBytes =
      .ok (manifest.signature, manifest.nextTrustPublicKey, manifest.nextTrustKeyId) := by
  obtain ⟨-, -, -, -, -, -, -, key, ident, reserved⟩ := slice_signingBytes format
  have length : manifest.encode.length = manifestBytes := length_encode manifest
  have readKey := arrayAt_of_slice (by simp) ((slice_encode (by omega)).trans key)
  have readId := arrayAt_of_slice (by simp) ((slice_encode (by omega)).trans ident)
  have readReserved : anyNonzero (slice manifest.encode 128 32) = false := by
    rw [slice_encode (by omega), reserved, anyNonzero_zeros]
  have readSignature : arrayAt 64 manifest.encode 160 = manifest.signature :=
    arrayAt_of_slice (by simp)
      (by unfold encode; exact slice_put_same (by simp) (by simp [manifestBytes]))
  have agree : ((manifest.nextTrustPublicKey == Vector.replicate 32 0) !=
      (manifest.nextTrustKeyId == Vector.replicate 16 0)) = false := by
    rw [bne_eq_false_iff_eq, Bool.eq_iff_iff, beq_iff_eq, beq_iff_eq]
    exact wellFormed.nextKey
  have other : ¬ manifestFormatVersion = legacyManifestFormatVersion := by decide
  unfold decodeTail
  rw [if_neg other, if_pos rfl, if_neg (by simp [length])]
  dsimp only
  rw [readKey, readId, agree, if_neg Bool.false_ne_true, readReserved,
    if_neg Bool.false_ne_true, readSignature]

theorem decode_encode {manifest : UpdateManifest} (wellFormed : manifest.WellFormed)
    (format : manifest.formatVersion = manifestFormatVersion) :
    decode manifest.encode = .ok manifest := by
  obtain ⟨magic, version, header, release, kernel, hash, keyId, -, -, -⟩ :=
    slice_signingBytes format
  have length : manifest.encode.length = manifestBytes := length_encode manifest
  have readMagic := (slice_encode (by omega)).trans magic
  have readFormat := getU32_of_slice ((slice_encode (by omega)).trans version)
  have readHeader : (getU32 manifest.encode 12).toNat = manifestBytes := by
    rw [getU32_of_slice (by rw [slice_encode (by omega), header])]
    rfl
  have readRelease := getU64_of_slice ((slice_encode (by omega)).trans release)
  have readKernel := getU64_of_slice ((slice_encode (by omega)).trans kernel)
  have readHash := arrayAt_of_slice (by simp) ((slice_encode (by omega)).trans hash)
  have readKeyId := arrayAt_of_slice (by simp) ((slice_encode (by omega)).trans keyId)
  unfold decode
  rw [if_neg (by simp [length]), if_neg (by simp [readMagic])]
  dsimp only
  rw [readRelease, if_neg wellFormed.release, readKernel, if_neg wellFormed.kernel, readKeyId,
    if_neg wellFormed.keyId, readFormat, readHeader, decodeTail_encode wellFormed format]
  dsimp only
  rw [if_neg wellFormed.signature, readHash, ← format]

end UpdateManifest

structure TrustRootState where
  activationReleaseVersion : UInt64
  publicKey : PublicKey
  keyId : KeyId
  deriving DecidableEq

namespace TrustRootState

section

variable (state : TrustRootState)

include state

/-- The state before its checksum is filled in. -/
def encodeBody : Bytes :=
  let output := zeros trustRootStateBytes
  let output := put output 0 trustRootStateMagic
  let output := putU32 output 8 trustRootStateFormatVersion
  let output := putU32 output 12 (UInt32.ofNat trustRootStateBytes)
  let output := putU64 output 16 state.activationReleaseVersion
  let output := put output 24 state.publicKey.toList
  put output 56 state.keyId.toList

def encode : Bytes :=
  let output := state.encodeBody
  putU32 output 72 (crc32 output)

def decode (input : Bytes) : Except TrustRootStateError TrustRootState :=
  if input.length ≠ trustRootStateBytes then .error .invalidLength
  else if slice input 0 8 ≠ trustRootStateMagic then .error .invalidMagic
  else if getU32 input 8 ≠ trustRootStateFormatVersion then .error .unsupportedFormat
  else if (getU32 input 12).toNat ≠ trustRootStateBytes then .error .invalidHeaderSize
  else
    let activationReleaseVersion := getU64 input 16
    if activationReleaseVersion = 0 then .error .invalidActivationRelease
    else
      let publicKey := arrayAt 32 input 24
      if publicKey = Vector.replicate 32 0 then .error .invalidPublicKey
      else
        let keyId := arrayAt 16 input 56
        if keyId = Vector.replicate 16 0 then .error .invalidKeyId
        else if anyNonzero (slice input 76 4) then .error .nonzeroReservedBytes
        else
          let storedChecksum := getU32 input 72
          let copy := putU32 input 72 0
          if crc32 copy ≠ storedChecksum then .error .invalidChecksum
          else .ok { activationReleaseVersion, publicKey, keyId }

@[simp] theorem length_encodeBody : state.encodeBody.length = 80 := by
  simp [encodeBody, putU32, putU64, trustRootStateBytes]

@[simp] theorem length_encode : state.encode.length = 80 := by
  simp [encode, putU32]

theorem slice_encodeBody :
    slice state.encodeBody 0 8 = trustRootStateMagic ∧
    slice state.encodeBody 8 4 = le 4 trustRootStateFormatVersion.toNat ∧
    slice state.encodeBody 12 4 = le 4 (UInt32.ofNat trustRootStateBytes).toNat ∧
    slice state.encodeBody 16 8 = le 8 state.activationReleaseVersion.toNat ∧
    slice state.encodeBody 24 32 = state.publicKey.toList ∧
    slice state.encodeBody 56 16 = state.keyId.toList ∧
    slice state.encodeBody 72 4 = zeros 4 ∧
    slice state.encodeBody 76 4 = zeros 4 := by
  refine ⟨?_, ?_, ?_, ?_, ?_, ?_, ?_, ?_⟩ <;>
    simp [encodeBody, putU32, putU64, trustRootStateBytes, trustRootStateMagic, slice_put_same,
      slice_put_disjoint, slice_zeros]

end

theorem slice_encode {state : TrustRootState} {offset n : Nat}
    (apart : offset + n ≤ 72 ∨ 76 ≤ offset) :
    slice state.encode offset n = slice state.encodeBody offset n :=
  slice_put_disjoint (by simpa using apart)

theorem decode_encode {state : TrustRootState} (activation : state.activationReleaseVersion ≠ 0)
    (publicKey : state.publicKey ≠ Vector.replicate 32 0)
    (keyId : state.keyId ≠ Vector.replicate 16 0) : decode state.encode = .ok state := by
  obtain ⟨magic, format, header, version, key, ident, blank, tail⟩ := slice_encodeBody state
  have length : state.encode.length = trustRootStateBytes := length_encode state
  have readMagic := (slice_encode (by omega)).trans magic
  have readFormat := getU32_of_slice ((slice_encode (by omega)).trans format)
  have readHeader : (getU32 state.encode 12).toNat = trustRootStateBytes := by
    rw [getU32_of_slice (by rw [slice_encode (by omega), header])]
    rfl
  have readVersion := getU64_of_slice ((slice_encode (by omega)).trans version)
  have readKey := arrayAt_of_slice (by simp) ((slice_encode (by omega)).trans key)
  have readId := arrayAt_of_slice (by simp) ((slice_encode (by omega)).trans ident)
  have readTail := (slice_encode (by omega)).trans tail
  have checksum : crc32 (putU32 state.encode 72 0) = getU32 state.encode 72 := by
    unfold encode
    rw [putU32_zero_putU32 blank]
    exact (getU32_of_slice (by simp [putU32, slice_put_same])).symm
  simp [decode, length, readMagic, readFormat, readHeader, readVersion, activation, readKey,
    publicKey, readId, keyId, readTail, checksum]

end TrustRootState

-- From here on the formats are used through their round trips only.
attribute [irreducible] BootState.encode BootState.decode UpdateManifest.encode
  UpdateManifest.decode TrustRootState.encode TrustRootState.decode

end CodexOS.Release
