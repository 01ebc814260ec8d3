import CodexOS.Release.Format

/-! # Each record has one encoding

The decoders check every byte that is not read into a field, so a string that is
accepted is determined by what it decodes to. For manifests the same holds of the
signed part alone: whoever keeps the signature cannot change a field.
-/

namespace CodexOS.Release

open Bytes

section

variable {input : Bytes} {offset : Nat}

theorem slice_of_getU32 (room : offset + 4 ≤ input.length) :
    slice input offset 4 = le 4 (getU32 input offset).toNat := by
  have length := length_slice room
  have small := leNat_lt (slice input offset 4)
  have back := le_leNat (slice input offset 4)
  rw [length] at small back
  rw [getU32, UInt32.toNat_ofNat_of_lt' (by simpa using small), back]

theorem slice_of_getU64 (room : offset + 8 ≤ input.length) :
    slice input offset 8 = le 8 (getU64 input offset).toNat := by
  have length := length_slice room
  have small := leNat_lt (slice input offset 8)
  have back := le_leNat (slice input offset 8)
  rw [length] at small back
  rw [getU64, UInt64.toNat_ofNat_of_lt' (by simpa using small), back]

theorem slice_of_byteAt (room : offset + 1 ≤ input.length) :
    slice input offset 1 = [byteAt input offset] := by
  have bound : offset < input.length := room
  rw [slice, List.drop_eq_getElem_cons bound, byteAt, List.getD_eq_getElem?_getD,
    List.getElem?_eq_getElem bound]
  rfl

theorem eq_zeros_of_anyNonzero (none_set : anyNonzero bytes = false) :
    bytes = zeros bytes.length := by
  rw [zeros, List.eq_replicate_iff]
  refine ⟨rfl, fun b mem => ?_⟩
  simpa using List.any_eq_false.mp none_set b mem

theorem eq_putU32_of_cleared (room : offset + 4 ≤ input.length)
    (cleared : putU32 input offset 0 = body) :
    input = putU32 body offset (getU32 input offset) := by
  rw [← cleared, putU32, putU32, put_put_same (by simp), ← slice_of_getU32 room, put_slice_self]

end

namespace SystemSlot

theorem asU8_of_fromU8 (h : fromU8 value = some slot) :
    slot.asU8 = value := by
  unfold fromU8 at h
  split_ifs at h with isA isB
  · cases h
    exact isA.symm
  · cases h
    exact isB.symm

end SystemSlot

namespace BootState

/-- Everything an accepted record was checked for. -/
structure Accepted (input : Bytes) (state : BootState) : Prop where
  length : input.length = 64
  magic : slice input 0 8 = bootStateMagic
  format : getU32 input 8 = bootStateFormatVersion
  header : (getU32 input 12).toNat = bootStateBytes
  generation : getU64 input 16 = state.generation
  slot : byteAt input 24 = state.activeSlot.asU8
  reserved : slice input 25 7 = zeros 7
  version : getU64 input 32 = state.activeReleaseVersion
  tail : slice input 44 20 = zeros 20
  checksum : crc32 (putU32 input 40 0) = getU32 input 40
  generation_ne : state.generation ≠ 0
  version_ne : state.activeReleaseVersion ≠ 0

theorem accepted_of_decode (h : decode input = .ok state) :
    Accepted input state := by
  unfold decode at h
  dsimp only at h
  cases isSlot : SystemSlot.fromU8 (byteAt input 24) with
  | none =>
    rw [isSlot] at h
    split_ifs at h
  | some slot =>
    rw [isSlot] at h
    dsimp only at h
    split_ifs at h with length magic format header generation version reserved checksum
    cases h
    rw [Bool.not_eq_true, Bool.or_eq_false_iff] at reserved
    have size : input.length = 64 := not_not.mp length
    have isTail : input.drop 44 = slice input 44 20 := drop_eq_slice size
    have tail := eq_zeros_of_anyNonzero reserved.2
    rw [isTail, length_slice (by omega)] at tail
    have gap := eq_zeros_of_anyNonzero reserved.1
    rw [length_slice (by omega)] at gap
    exact
      { length := size
        magic := not_not.mp magic
        format := not_not.mp format
        header := not_not.mp header
        generation := rfl
        slot := (SystemSlot.asU8_of_fromU8 isSlot).symm
        reserved := gap
        version := rfl
        tail := tail
        checksum := not_not.mp checksum
        generation_ne := generation
        version_ne := version }

theorem Accepted.cleared (accepted : Accepted input state) :
    putU32 input 40 0 = state.encodeBody := by
  obtain ⟨magic, format, header, generation, slot, reserved, version, blank, tail⟩ :=
    slice_encodeBody state
  have length := accepted.length
  have outside : ∀ {offset n : Nat}, offset + n ≤ 40 ∨ 44 ≤ offset →
      slice (putU32 input 40 0) offset n = slice input offset n :=
    fun apart => slice_put_disjoint (by simpa using apart)
  apply eq_of_sameFields [8, 4, 4, 8, 1, 7, 8, 4, 20] (by simp [putU32, length]) (by simp)
  refine ⟨?_, ?_, ?_, ?_, ?_, ?_, ?_, ?_, ?_, trivial⟩
  · rw [outside (by omega), accepted.magic, magic]
  · rw [outside (by omega), slice_of_getU32 (by omega), accepted.format, format]
  · rw [outside (by omega), slice_of_getU32 (by omega), accepted.header, header]
    rfl
  · rw [outside (by omega), slice_of_getU64 (by omega), accepted.generation, generation]
  · rw [outside (by omega), slice_of_byteAt (by omega), accepted.slot, slot]
  · rw [outside (by omega), accepted.reserved, reserved]
  · rw [outside (by omega), slice_of_getU64 (by omega), accepted.version, version]
  · rw [blank]
    exact slice_put_same (by simp) (by omega)
  · rw [outside (by omega), accepted.tail, tail]

theorem decode_iff :
    decode input = .ok state ↔
      input = state.encode ∧ state.generation ≠ 0 ∧ state.activeReleaseVersion ≠ 0 := by
  constructor
  · intro h
    have accepted := accepted_of_decode h
    refine ⟨?_, accepted.generation_ne, accepted.version_ne⟩
    have room : 40 + 4 ≤ input.length := by rw [accepted.length]; decide
    rw [encode, ← accepted.cleared, accepted.checksum, accepted.cleared]
    exact eq_putU32_of_cleared room accepted.cleared
  · rintro ⟨rfl, generation, version⟩
    exact decode_encode generation version

end BootState

namespace TrustRootState

/-- Everything an accepted trust root was checked for. -/
structure Accepted (input : Bytes) (state : TrustRootState) : Prop where
  length : input.length = 80
  magic : slice input 0 8 = trustRootStateMagic
  format : getU32 input 8 = trustRootStateFormatVersion
  header : (getU32 input 12).toNat = trustRootStateBytes
  activation : getU64 input 16 = state.activationReleaseVersion
  publicKey : slice input 24 32 = state.publicKey.toList
  keyId : slice input 56 16 = state.keyId.toList
  tail : slice input 76 4 = zeros 4
  checksum : crc32 (putU32 input 72 0) = getU32 input 72
  activation_ne : state.activationReleaseVersion ≠ 0
  publicKey_ne : state.publicKey ≠ Vector.replicate 32 0
  keyId_ne : state.keyId ≠ Vector.replicate 16 0

theorem accepted_of_decode (h : decode input = .ok state) : Accepted input state := by
  unfold decode at h
  dsimp only at h
  split_ifs at h with length magic format header activation publicKey keyId reserved checksum
  rw [Except.ok.injEq] at h
  subst h
  have size : input.length = 80 := not_not.mp length
  have tail := eq_zeros_of_anyNonzero (Bool.not_eq_true _ ▸ reserved)
  rw [length_slice (by omega)] at tail
  exact
    { length := size
      magic := not_not.mp magic
      format := not_not.mp format
      header := not_not.mp header
      activation := rfl
      publicKey := (toList_arrayAt (by omega)).symm
      keyId := (toList_arrayAt (by omega)).symm
      tail := tail
      checksum := not_not.mp checksum
      activation_ne := activation
      publicKey_ne := publicKey
      keyId_ne := keyId }

theorem Accepted.cleared (accepted : Accepted input state) :
    putU32 input 72 0 = state.encodeBody := by
  obtain ⟨magic, format, header, activation, key, ident, blank, tail⟩ := slice_encodeBody state
  have length := accepted.length
  have outside : ∀ {offset n : Nat}, offset + n ≤ 72 ∨ 76 ≤ offset →
      slice (putU32 input 72 0) offset n = slice input offset n :=
    fun apart => slice_put_disjoint (by simpa using apart)
  apply eq_of_sameFields [8, 4, 4, 8, 32, 16, 4, 4] (by simp [putU32, length]) (by simp)
  refine ⟨?_, ?_, ?_, ?_, ?_, ?_, ?_, ?_, trivial⟩
  · rw [outside (by omega), accepted.magic, magic]
  · rw [outside (by omega), slice_of_getU32 (by omega), accepted.format, format]
  · rw [outside (by omega), slice_of_getU32 (by omega), accepted.header, header]
    rfl
  · rw [outside (by omega), slice_of_getU64 (by omega), accepted.activation, activation]
  · rw [outside (by omega), accepted.publicKey, key]
  · rw [outside (by omega), accepted.keyId, ident]
  · rw [blank]
    exact slice_put_same (by simp) (by omega)
  · rw [outside (by omega), accepted.tail, tail]

theorem decode_iff :
    decode input = .ok state ↔
      input = state.encode ∧ state.activationReleaseVersion ≠ 0 ∧
        state.publicKey ≠ Vector.replicate 32 0 ∧ state.keyId ≠ Vector.replicate 16 0 := by
  constructor
  · intro h
    have accepted := accepted_of_decode h
    refine ⟨?_, accepted.activation_ne, accepted.publicKey_ne, accepted.keyId_ne⟩
    have room : 72 + 4 ≤ input.length := by rw [accepted.length]; decide
    rw [encode, ← accepted.cleared, accepted.checksum, accepted.cleared]
    exact eq_putU32_of_cleared room accepted.cleared
  · rintro ⟨rfl, activation, publicKey, keyId⟩
    exact decode_encode activation publicKey keyId

end TrustRootState

namespace UpdateManifest

/-- The first format: the signature follows the signed part, and there is no next key. -/
structure LegacyLayout (input : Bytes) (manifest : UpdateManifest) : Prop where
  format : manifest.formatVersion = legacyManifestFormatVersion
  length : input.length = 160
  header : (getU32 input 12).toNat = legacyManifestBytes
  signature : slice input 80 64 = manifest.signature.toList
  reserved : slice input 144 16 = zeros 16
  nextKey : manifest.nextTrustPublicKey = Vector.replicate 32 0
  nextKeyId : manifest.nextTrustKeyId = Vector.replicate 16 0

structure CurrentLayout (input : Bytes) (manifest : UpdateManifest) : Prop where
  format : manifest.formatVersion = manifestFormatVersion
  length : input.length = 224
  header : (getU32 input 12).toNat = manifestBytes
  nextKey : slice input 80 32 = manifest.nextTrustPublicKey.toList
  nextKeyId : slice input 112 16 = manifest.nextTrustKeyId.toList
  reserved : slice input 128 32 = zeros 32
  signature : slice input 160 64 = manifest.signature.toList

/-- Where an accepted manifest has its fields. -/
structure Accepted (input : Bytes) (manifest : UpdateManifest) : Prop where
  magic : slice input 0 8 = manifestMagic
  format : getU32 input 8 = manifest.formatVersion
  release : getU64 input 16 = manifest.releaseVersion
  kernel : getU64 input 24 = manifest.kernelSize
  hash : slice input 32 32 = manifest.kernelSha256.toList
  keyId : slice input 64 16 = manifest.keyId.toList
  layout : LegacyLayout input manifest ∨ CurrentLayout input manifest

theorem layout_of_decodeTail (h : decodeTail input manifest.formatVersion (getU32 input 12).toNat =
      .ok (manifest.signature, manifest.nextTrustPublicKey, manifest.nextTrustKeyId)) :
    (LegacyLayout input manifest ∨ CurrentLayout input manifest) ∧
      (manifest.nextTrustPublicKey = Vector.replicate 32 0 ↔
        manifest.nextTrustKeyId = Vector.replicate 16 0) := by
  unfold decodeTail at h
  dsimp only at h
  split_ifs at h with legacy sizes reserved current sizes agree reserved
  all_goals
    rw [not_or, not_not, not_not] at sizes
    rw [Except.ok.injEq, Prod.mk.injEq, Prod.mk.injEq] at h
    obtain ⟨signature, nextKey, nextKeyId⟩ := h
    have blank := eq_zeros_of_anyNonzero (Bool.not_eq_true _ ▸ reserved)
  · have length : input.length = 160 := sizes.1
    rw [length_slice (by omega)] at blank
    refine ⟨.inl ⟨legacy, length, sizes.2, ?_, blank, nextKey.symm, nextKeyId.symm⟩,
      iff_of_true nextKey.symm nextKeyId.symm⟩
    rw [← signature, toList_arrayAt (by omega)]
  · have length : input.length = 224 := sizes.1
    rw [length_slice (by omega)] at blank
    rw [nextKey, nextKeyId, Bool.not_eq_true, bne_eq_false_iff_eq, Bool.eq_iff_iff, beq_iff_eq,
      beq_iff_eq] at agree
    refine ⟨.inr ⟨current, length, sizes.2, ?_, ?_, blank, ?_⟩, agree⟩
    · rw [← nextKey, toList_arrayAt (by omega)]
    · rw [← nextKeyId, toList_arrayAt (by omega)]
    · rw [← signature, toList_arrayAt (by omega)]

theorem of_decode (h : decode input = .ok manifest) :
    Accepted input manifest ∧ manifest.WellFormed := by
  unfold decode at h
  dsimp only at h
  cases tail : decodeTail input (getU32 input 8) (getU32 input 12).toNat with
  | error e =>
    rw [tail] at h
    split_ifs at h
  | ok fields =>
    obtain ⟨signature, nextKey, nextKeyId⟩ := fields
    rw [tail] at h
    dsimp only at h
    split_ifs at h with length magic release kernel keyId signed
    rw [Except.ok.injEq] at h
    obtain ⟨layout, nextKeys⟩ := @layout_of_decodeTail input manifest (h ▸ tail)
    subst h
    have size : 160 ≤ input.length := by
      have : input.length = 160 ∨ input.length = 224 := by
        by_contra neither
        exact length (not_or.mp neither)
      omega
    refine ⟨⟨not_not.mp magic, rfl, rfl, rfl, ?_, ?_, layout⟩,
      ⟨layout.imp LegacyLayout.format CurrentLayout.format, release, kernel, keyId, nextKeys, signed⟩⟩
    · exact (toList_arrayAt (by omega)).symm
    · exact (toList_arrayAt (by omega)).symm

theorem accepted_of_decode (h : decode input = .ok manifest) : Accepted input manifest :=
  (of_decode h).1

/-- Where the 64 bytes of the signature lie. -/
def signatureOffset (manifest : UpdateManifest) : Nat :=
  if manifest.formatVersion = legacyManifestFormatVersion then 80 else 160

section

variable {input other : Bytes} {manifest : UpdateManifest}

theorem LegacyLayout.signingLen (layout : LegacyLayout input manifest) : manifest.signingLen = 80 :=
  if_pos layout.format

theorem LegacyLayout.signatureOffset (layout : LegacyLayout input manifest) :
    manifest.signatureOffset = 80 :=
  if_pos layout.format

section

variable (layout : CurrentLayout input manifest)

include layout

theorem CurrentLayout.notLegacy : ¬manifest.formatVersion = legacyManifestFormatVersion := by
  rw [layout.format]
  decide

theorem CurrentLayout.signingLen : manifest.signingLen = 160 :=
  if_neg layout.notLegacy

theorem CurrentLayout.signatureOffset : manifest.signatureOffset = 160 :=
  if_neg layout.notLegacy

end

theorem slice_signingBytes_legacy (format : manifest.formatVersion = legacyManifestFormatVersion) :
    slice manifest.signingBytes 0 8 = manifestMagic ∧
    slice manifest.signingBytes 8 4 = le 4 legacyManifestFormatVersion.toNat ∧
    slice manifest.signingBytes 12 4 = le 4 (UInt32.ofNat legacyManifestBytes).toNat ∧
    slice manifest.signingBytes 16 8 = le 8 manifest.releaseVersion.toNat ∧
    slice manifest.signingBytes 24 8 = le 8 manifest.kernelSize.toNat ∧
    slice manifest.signingBytes 32 32 = manifest.kernelSha256.toList ∧
    slice manifest.signingBytes 64 16 = manifest.keyId.toList := by
  refine ⟨?_, ?_, ?_, ?_, ?_, ?_, ?_⟩ <;>
    simp [signingBytes, format, putU32, putU64, manifestMagic, signingBytesLength,
      slice_put_same, slice_put_disjoint]

theorem LegacyLayout.signed (layout : LegacyLayout input manifest)
    (accepted : Accepted input manifest) : manifest.signingBytes.take 80 = input.take 80 := by
  obtain ⟨magic, format, header, release, kernel, hash, keyId⟩ :=
    slice_signingBytes_legacy layout.format
  have length := layout.length
  have prefixed : ∀ {bytes : Bytes} {offset n : Nat}, offset + n ≤ 80 →
      slice (bytes.take 80) offset n = slice bytes offset n := by
    intro bytes offset n inside
    rw [show bytes.take 80 = slice bytes 0 80 from rfl, slice_slice inside, Nat.zero_add]
  apply eq_of_sameFields [8, 4, 4, 8, 8, 32, 16] (by simp) (by simp [length])
  refine ⟨?_, ?_, ?_, ?_, ?_, ?_, ?_, trivial⟩
  · rw [prefixed (by omega), prefixed (by omega), magic, accepted.magic]
  · rw [prefixed (by omega), prefixed (by omega), format, slice_of_getU32 (by omega),
      accepted.format, layout.format]
  · rw [prefixed (by omega), prefixed (by omega), header, slice_of_getU32 (by omega), layout.header]
    rfl
  · rw [prefixed (by omega), prefixed (by omega), release, slice_of_getU64 (by omega),
      accepted.release]
  · rw [prefixed (by omega), prefixed (by omega), kernel, slice_of_getU64 (by omega),
      accepted.kernel]
  · rw [prefixed (by omega), prefixed (by omega), hash, accepted.hash]
  · rw [prefixed (by omega), prefixed (by omega), keyId, accepted.keyId]

theorem CurrentLayout.encode_eq (layout : CurrentLayout input manifest)
    (accepted : Accepted input manifest) : manifest.encode = input := by
  obtain ⟨magic, format, header, release, kernel, hash, keyId, nextKey, nextKeyId, reserved⟩ :=
    slice_signingBytes layout.format
  have length := layout.length
  apply eq_of_sameFields [8, 4, 4, 8, 8, 32, 16, 32, 16, 32, 64] (by simp) (by simp [length])
  refine ⟨?_, ?_, ?_, ?_, ?_, ?_, ?_, ?_, ?_, ?_, ?_, trivial⟩
  · rw [slice_encode (by omega), magic, accepted.magic]
  · rw [slice_encode (by omega), format, slice_of_getU32 (by omega), accepted.format, layout.format]
  · rw [slice_encode (by omega), header, slice_of_getU32 (by omega), layout.header]
    rfl
  · rw [slice_encode (by omega), release, slice_of_getU64 (by omega), accepted.release]
  · rw [slice_encode (by omega), kernel, slice_of_getU64 (by omega), accepted.kernel]
  · rw [slice_encode (by omega), hash, accepted.hash]
  · rw [slice_encode (by omega), keyId, accepted.keyId]
  · rw [slice_encode (by omega), nextKey, layout.nextKey]
  · rw [slice_encode (by omega), nextKeyId, layout.nextKeyId]
  · rw [slice_encode (by omega), reserved, layout.reserved]
  · rw [layout.signature]
    unfold encode
    exact slice_put_same (by simp) (by simp [manifestBytes])

theorem CurrentLayout.signed (layout : CurrentLayout input manifest)
    (accepted : Accepted input manifest) : manifest.signingBytes.take 160 = input.take 160 := by
  have whole : slice manifest.encode 0 160 = slice manifest.signingBytes 0 160 :=
    slice_encode (by omega)
  rw [layout.encode_eq accepted] at whole
  exact whole.symm

section

variable (accepted : Accepted input manifest)

include accepted

theorem Accepted.signed :
    manifest.signingBytes.take manifest.signingLen = input.take manifest.signingLen := by
  rcases accepted.layout with legacy | current
  · rw [legacy.signingLen]
    exact legacy.signed accepted
  · rw [current.signingLen]
    exact current.signed accepted

theorem Accepted.zero_outside (atPlace : input[i]? = some b) (behind : manifest.signingLen ≤ i)
    (outside : i < manifest.signatureOffset ∨ manifest.signatureOffset + 64 ≤ i) : b = 0 := by
  have bound : i < input.length := (List.getElem?_eq_some_iff.mp atPlace).1
  rcases accepted.layout with legacy | current
  · rw [legacy.signingLen] at behind
    rw [legacy.signatureOffset] at outside
    have length := legacy.length
    have read : (slice input 144 16)[i - 144]? = some b := by
      rw [getElem?_slice, if_pos (by omega), show 144 + (i - 144) = i by omega, atPlace]
    rw [legacy.reserved, zeros, List.getElem?_replicate, if_pos (by omega)] at read
    exact (Option.some.inj read).symm
  · rw [current.signingLen] at behind
    rw [current.signatureOffset] at outside
    have length := current.length
    omega

theorem Accepted.unique (accepted' : Accepted other manifest) : input = other := by
  rcases accepted.layout with legacy | current <;> rcases accepted'.layout with legacy' | current'
  · have length := legacy.length
    have length' := legacy'.length
    apply eq_of_sameFields [80, 64, 16] (by simp [length]) (by simp [length'])
    refine ⟨?_, ?_, ?_, trivial⟩
    · exact (legacy.signed accepted).symm.trans (legacy'.signed accepted')
    · rw [legacy.signature, legacy'.signature]
    · rw [legacy.reserved, legacy'.reserved]
  · exact absurd legacy.format current'.notLegacy
  · exact absurd legacy'.format current.notLegacy
  · rw [← current.encode_eq accepted, current'.encode_eq accepted']

end

theorem slice_eq_of_take (same : input.take k = other.take k) (inside : offset + n ≤ k) :
    slice input offset n = slice other offset n := by
  have within : ∀ bytes : Bytes, slice bytes offset n = slice (bytes.take k) offset n := by
    intro bytes
    rw [show bytes.take k = slice bytes 0 k from rfl, slice_slice inside, Nat.zero_add]
  rw [within input, within other, same]

section

variable (accepted : Accepted input manifest) (accepted' : Accepted other manifest')

include accepted accepted'

theorem Accepted.common_eq (same : input.take k = other.take k) (signed : 80 ≤ k) :
    manifest.formatVersion = manifest'.formatVersion ∧
      manifest.releaseVersion = manifest'.releaseVersion ∧
      manifest.kernelSize = manifest'.kernelSize ∧
      manifest.kernelSha256 = manifest'.kernelSha256 ∧ manifest.keyId = manifest'.keyId := by
  refine ⟨?_, ?_, ?_, ?_, ?_⟩
  · rw [← accepted.format, ← accepted'.format, getU32, getU32, slice_eq_of_take same (by omega)]
  · rw [← accepted.release, ← accepted'.release, getU64, getU64, slice_eq_of_take same (by omega)]
  · rw [← accepted.kernel, ← accepted'.kernel, getU64, getU64, slice_eq_of_take same (by omega)]
  · apply Vector.toList_inj.mp
    rw [← accepted.hash, ← accepted'.hash, slice_eq_of_take same (by omega)]
  · apply Vector.toList_inj.mp
    rw [← accepted.keyId, ← accepted'.keyId, slice_eq_of_take same (by omega)]

theorem Accepted.nextKey_eq
    (same : input.take manifest.signingLen = other.take manifest'.signingLen) :
    manifest.signingLen = manifest'.signingLen ∧ 80 ≤ manifest.signingLen ∧
      manifest.nextTrustPublicKey = manifest'.nextTrustPublicKey ∧
      manifest.nextTrustKeyId = manifest'.nextTrustKeyId := by
  have sameLength := congrArg List.length same
  rcases accepted.layout with legacy | current <;> rcases accepted'.layout with legacy' | current'
  · rw [legacy.signingLen, legacy'.signingLen, legacy.nextKey, legacy'.nextKey, legacy.nextKeyId,
      legacy'.nextKeyId]
    exact ⟨rfl, le_rfl, rfl, rfl⟩
  · rw [legacy.signingLen, current'.signingLen, List.length_take, List.length_take, legacy.length,
      current'.length] at sameLength
    exact absurd sameLength (by decide)
  · rw [current.signingLen, legacy'.signingLen, List.length_take, List.length_take, current.length,
      legacy'.length] at sameLength
    exact absurd sameLength (by decide)
  · rw [current.signingLen, current'.signingLen] at same ⊢
    refine ⟨rfl, by decide, ?_, ?_⟩
    · apply Vector.toList_inj.mp
      rw [← current.nextKey, ← current'.nextKey, slice_eq_of_take same (by omega)]
    · apply Vector.toList_inj.mp
      rw [← current.nextKeyId, ← current'.nextKeyId, slice_eq_of_take same (by omega)]

/-- The signed part has every field but the signature. -/
theorem Accepted.fields_eq (same : input.take manifest.signingLen = other.take manifest'.signingLen) :
    { manifest with signature := manifest'.signature } = manifest' := by
  obtain ⟨sameLen, signed, nextKey, nextKeyId⟩ := accepted.nextKey_eq accepted' same
  rw [← sameLen] at same
  obtain ⟨format, release, kernel, hash, keyId⟩ := accepted.common_eq accepted' same signed
  rw [format, release, kernel, hash, keyId, nextKey, nextKeyId]

end

end

/-- A manifest of the first format, as a string and as what it decodes to. -/
def legacySample : Bytes × UpdateManifest :=
  (manifestMagic ++ le 4 1 ++ le 4 160 ++ le 8 7 ++ le 8 4096 ++ List.replicate 32 1 ++
    List.replicate 16 2 ++ List.replicate 64 3 ++ zeros 16,
    { formatVersion := legacyManifestFormatVersion
      releaseVersion := 7
      kernelSize := 4096
      kernelSha256 := Vector.replicate 32 1
      keyId := Vector.replicate 16 2
      nextTrustPublicKey := Vector.replicate 32 0
      nextTrustKeyId := Vector.replicate 16 0
      signature := Vector.replicate 64 3 })

/-- What is signed is what is used: the signed prefix of an accepted manifest is what its fields
    encode to, the rest is the signature and zeros, and neither the string nor a field can change
    while the manifest, or the signed prefix, stays. -/
theorem signed_bytes_exact :
    (∀ (input : Bytes) (manifest : UpdateManifest), decode input = .ok manifest →
      manifest.signingBytes.take manifest.signingLen = input.take manifest.signingLen ∧
        (∀ (i : Nat) (b : UInt8), input[i]? = some b → manifest.signingLen ≤ i →
          i < manifest.signatureOffset ∨ manifest.signatureOffset + 64 ≤ i → b = 0) ∧
        slice input manifest.signatureOffset 64 = manifest.signature.toList ∧
        (manifest.formatVersion = manifestFormatVersion → manifest.encode = input)) ∧
    (∀ (input other : Bytes) (manifest : UpdateManifest), decode input = .ok manifest →
      decode other = .ok manifest → input = other) ∧
    ∀ (input other : Bytes) (manifest manifest' : UpdateManifest), decode input = .ok manifest →
      decode other = .ok manifest' →
      input.take manifest.signingLen = other.take manifest'.signingLen →
      { manifest with signature := manifest'.signature } = manifest' := by
  refine ⟨fun input manifest h => ?_, fun input other manifest h h' => ?_,
    fun input other manifest manifest' h h' same => ?_⟩
  · have accepted := accepted_of_decode h
    refine ⟨accepted.signed, fun i b atPlace => accepted.zero_outside atPlace, ?_, fun format => ?_⟩
    · rcases accepted.layout with legacy | current
      · rw [legacy.signatureOffset, legacy.signature]
      · rw [current.signatureOffset, current.signature]
    · rcases accepted.layout with legacy | current
      · rw [legacy.format] at format
        exact absurd format (by decide)
      · exact current.encode_eq accepted
  · exact (accepted_of_decode h).unique (accepted_of_decode h')
  · exact (accepted_of_decode h).fields_eq (accepted_of_decode h') same

theorem signed_bytes_exact_legacy :
    decode legacySample.1 = .ok legacySample.2 ∧
      legacySample.2.signingBytes.take 80 = legacySample.1.take 80 := by
  have accepted : decode legacySample.1 = .ok legacySample.2 := by decide +kernel
  exact ⟨accepted, (signed_bytes_exact.1 _ _ accepted).1⟩

/-- The encoder always writes the long layout, so that a manifest of the first format does not
    decode again. -/
theorem reencode_iff {input : Bytes} {manifest : UpdateManifest}
    (accepted : decode input = .ok manifest) :
    decode manifest.encode = .ok manifest ↔ getU32 input 8 = manifestFormatVersion := by
  have fields := accepted_of_decode accepted
  rw [fields.format]
  constructor
  · intro again
    rcases (accepted_of_decode again).layout with legacy | current
    · have length := legacy.length
      rw [length_encode] at length
      exact absurd length (by decide)
    · exact current.format
  · intro format
    exact decode_encode (of_decode accepted).2 format

theorem reencode_legacy_fails :
    decode legacySample.1 = .ok legacySample.2 ∧
      decode legacySample.2.encode = .error .invalidHeaderSize := by
  decide +kernel

theorem reencode_iff_legacy :
    decode legacySample.1 = .ok legacySample.2 ∧
      ¬decode legacySample.2.encode = .ok legacySample.2 := by
  have accepted : decode legacySample.1 = .ok legacySample.2 := by decide +kernel
  refine ⟨accepted, fun again => ?_⟩
  have current := (reencode_iff accepted).mp again
  exact absurd current (by decide +kernel)

end UpdateManifest

/-- Each decoder accepts one string for each valid state, and nothing else. -/
theorem persistent_states_canonical :
    (∀ (input : Bytes) (state : BootState), BootState.decode input = .ok state ↔
      input = state.encode ∧ state.generation ≠ 0 ∧ state.activeReleaseVersion ≠ 0) ∧
    ∀ (input : Bytes) (state : TrustRootState), TrustRootState.decode input = .ok state ↔
      input = state.encode ∧ state.activationReleaseVersion ≠ 0 ∧
        state.publicKey ≠ Vector.replicate 32 0 ∧ state.keyId ≠ Vector.replicate 16 0 :=
  ⟨fun _ _ => BootState.decode_iff, fun _ _ => TrustRootState.decode_iff⟩

end CodexOS.Release
