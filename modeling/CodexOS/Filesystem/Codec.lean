import CodexOS.Filesystem.Edits
import CodexOS.Filesystem.Record

/-! # Reading back what was written

A record is the header, the entries one after the other and zeros up to a whole
number of sectors. Decoding a record or a superblock returns what was encoded.
-/

namespace CodexOS.Filesystem

open Bytes Block Effect Word64

section

variable {input : Bytes} {size offset value left right : Nat} {error : FsError}

theorem getLe_of_slice (room : offset + size ≤ input.length) (small : value < 256 ^ size)
    (field : slice input offset size = le size value) : getLe size input offset = .ok value := by
  rw [getLe, if_pos room, field, leNat_le_of_lt small]

theorem addOr_of_lt (small : left + right < Word64.size) : addOr error left right = .ok (left + right) := by
  rw [addOr, checkedAdd, if_pos small]

theorem addOr_ok {sum : Nat} (ok : addOr error left right = .ok sum) :
    left + right < Word64.size ∧ sum = left + right := by
  unfold addOr checkedAdd at ok
  split at ok
  · rename_i found
    split at found
    · cases ok
      cases found
      exact ⟨‹_›, rfl⟩
    · cases found
  · cases ok

end

/-! ## Superblocks -/

section

variable {superblock : Superblock} {capacity : Nat}

theorem slice_superblockBody (superblock : Superblock) :
    slice (superblockBody superblock) 0 8 = superblockMagic ∧
    slice (superblockBody superblock) 8 4 = le 4 formatVersion ∧
    slice (superblockBody superblock) 12 4 = le 4 64 ∧
    slice (superblockBody superblock) 16 8 = le 8 superblock.generation ∧
    slice (superblockBody superblock) 24 8 = le 8 superblock.recordStart ∧
    slice (superblockBody superblock) 32 4 = le 4 superblock.recordSectors ∧
    slice (superblockBody superblock) 36 4 = le 4 superblock.recordBytes ∧
    slice (superblockBody superblock) 40 4 = le 4 superblock.recordCrc.toNat ∧
    slice (superblockBody superblock) 44 4 = zeros 4 ∧
    slice (superblockBody superblock) 48 8 = le 8 superblock.capacitySectors := by
  refine ⟨?_, ?_, ?_, ?_, ?_, ?_, ?_, ?_, ?_, ?_⟩ <;>
    simp [superblockBody, putU32, putU64, sectorSize, superblockMagic, slice_put_same,
      slice_put_disjoint, slice_zeros]

theorem slice_encodeSuperblock {offset n : Nat} (apart : offset + n ≤ 44 ∨ 48 ≤ offset) :
    slice (encodeSuperblock superblock).bytes offset n =
      slice (superblockBody superblock) offset n := by
  unfold encodeSuperblock putU32
  apply slice_put_disjoint
  rw [length_le, superCrcOffset]
  exact apart

/-- A superblock whose fields the decoder accepts. -/
structure Superblock.WellFormed (superblock : Superblock) (capacity : Nat) : Prop where
  generation : superblock.generation ≠ 0
  generation_lt : superblock.generation < Word64.size
  start : recordAreaStart ≤ superblock.recordStart
  inside : superblock.recordStart + superblock.recordSectors ≤ capacity
  capacity_lt : capacity < Word64.size
  sectors : superblock.recordSectors ≠ 0
  sectors_le : superblock.recordSectors ≤ maxRecordSectors
  bytes : superblock.recordBytes = superblock.recordSectors * sectorSize
  capacitySectors : superblock.capacitySectors ≤ capacity

theorem decodeSuperblock_encodeSuperblock (good : superblock.WellFormed capacity) :
    decodeSuperblock (encodeSuperblock superblock) capacity = .ok superblock := by
  obtain ⟨magic, version, header, generation, start, sectors, bytes, crc, blank, capacityField⟩ :=
    slice_superblockBody superblock
  have size : Word64.size = 256 ^ 8 := rfl
  have startBound := good.inside
  have capacityBound := good.capacity_lt
  have stated := good.capacitySectors
  have layout : superblock.recordBytes = superblock.recordSectors * 512 := good.bytes
  have sectorsBound := good.sectors_le
  have sectorsPos := Nat.pos_of_ne_zero good.sectors
  have maxSectors : maxRecordSectors = 8192 := rfl
  have sectorBytes : sectorSize = 512 := rfl
  have length := (encodeSuperblock superblock).length_eq
  have field {offset n value : Nat} (apart : offset + n ≤ 44 ∨ 48 ≤ offset ∧ offset + n ≤ 512)
      (small : value < 256 ^ n) (isField : slice (superblockBody superblock) offset n = le n value) :
      getLe n (encodeSuperblock superblock).bytes offset = .ok value :=
    getLe_of_slice (by omega) small (by rw [slice_encodeSuperblock (by omega), isField])
  have readVersion : getU32 (encodeSuperblock superblock).bytes 8 = .ok 3 :=
    field (by omega) (by decide) version
  have readHeader : getU32 (encodeSuperblock superblock).bytes 12 = .ok 64 :=
    field (by omega) (by decide) header
  have readSectors : getU32 (encodeSuperblock superblock).bytes 32 = .ok superblock.recordSectors :=
    field (by omega) (by omega) sectors
  have readBytes : getU32 (encodeSuperblock superblock).bytes 36 = .ok superblock.recordBytes :=
    field (by omega) (by omega) bytes
  have readGeneration :
      getU64 (encodeSuperblock superblock).bytes 16 = .ok superblock.generation :=
    field (by omega) good.generation_lt generation
  have readStart : getU64 (encodeSuperblock superblock).bytes 24 = .ok superblock.recordStart :=
    field (by omega) (by omega) start
  have readCapacity :
      getU64 (encodeSuperblock superblock).bytes 48 = .ok superblock.capacitySectors :=
    field (by omega) (by omega) capacityField
  have readCrc : getU32 (encodeSuperblock superblock).bytes 40 = .ok superblock.recordCrc.toNat :=
    field (by omega) superblock.recordCrc.toNat_lt crc
  have readMagic : slice (encodeSuperblock superblock).bytes 0 8 = superblockMagic := by
    rw [slice_encodeSuperblock (by omega), magic]
  have cleared : putU32 (encodeSuperblock superblock).bytes superCrcOffset 0 =
      superblockBody superblock := by
    unfold encodeSuperblock putU32
    rw [put_put_same (by simp only [length_le])]
    apply put_of_slice
    rw [length_le]
    exact blank.trans (le_zero 4).symm
  have readChecksum : getU32 (encodeSuperblock superblock).bytes superCrcOffset =
      .ok (crc32 (superblockBody superblock)).toNat := by
    refine getLe_of_slice (by change 44 + 4 ≤ _; omega) (UInt32.toNat_lt _) ?_
    unfold encodeSuperblock putU32
    apply slice_put_same (length_le 4 _)
    rw [length_superblockBody]
    decide
  have valid : validRecordLayout 3 superblock.recordSectors superblock.recordBytes = true := by
    unfold validRecordLayout
    rw [if_neg (by omega), if_neg, if_neg (not_not.mpr good.bytes)]
    · rfl
    · have maxBytes : maxRecordBytes = 8192 * 512 := rfl
      have headerBytes : recordHeaderBytes = 64 := rfl
      omega
  have sum : addOr .arithmeticOverflow superblock.recordStart superblock.recordSectors =
      .ok (superblock.recordStart + superblock.recordSectors) :=
    addOr_of_lt (by omega)
  have supported : ¬(slice (encodeSuperblock superblock).bytes 0 8 ≠ superblockMagic ∨
      ¬(minFormatVersion ≤ 3 ∧ 3 ≤ formatVersion) ∨ 64 ≠ 64) := by
    rw [readMagic]
    decide
  have inRange : ¬(superblock.generation = 0 ∨ superblock.recordStart < recordAreaStart ∨
      capacity < superblock.recordStart + superblock.recordSectors) := by
    have startOk := good.start
    have generationOk := good.generation
    omega
  unfold decodeSuperblock
  dsimp only
  rw [readVersion, except_ok_bind, readHeader, except_ok_bind, if_neg supported, readSectors,
    except_ok_bind, readBytes, except_ok_bind, if_neg (not_not.mpr valid), readChecksum,
    except_ok_bind, cleared, if_neg (not_not.mpr rfl), readGeneration, except_ok_bind, readStart,
    except_ok_bind, readCapacity, except_ok_bind, sum, except_ok_bind, if_neg inRange,
    if_neg (fun old => Nat.lt_irrefl 3 old.1), if_neg (Nat.not_lt.mpr stated), readCrc,
    except_ok_bind, UInt32.ofNat_toNat]
  rfl

end

/-! ## Records -/

/-- An entry as it stands in a record. -/
def entryBytes (file : FileEntry) : Bytes :=
  le 2 file.name.bytes.length ++ (le 2 (encodeKind file.kind) ++ (le 4 file.data.length ++
    (le 2 file.permissions.toNat ++ (le 2 0 ++ (file.name.bytes ++ file.data)))))

def payload (files : List FileEntry) : Bytes :=
  files.flatMap entryBytes

section

variable {record : Bytes} {cursor : Nat} {file : FileEntry} {files : List FileEntry}

theorem length_entryBytes (file : FileEntry) :
    (entryBytes file).length = recordEntryBytes + file.name.bytes.length + file.data.length := by
  simp only [entryBytes, List.length_append, length_le, recordEntryBytes]
  omega

theorem payload_cons : payload (file :: files) = entryBytes file ++ payload files :=
  List.flatMap_cons

theorem put_append_at {bs src dst : Bytes} {off off' : Nat} (next : off' = off + src.length) :
    put (put bs off src) off' dst = put bs off (src ++ dst) := by
  rw [next, put_append]

theorem encodeEntry_eq (valid : ValidPath file.name) :
    encodeEntry (record, cursor) file =
      .ok (put record cursor (entryBytes file), cursor + (entryBytes file).length) := by
  unfold encodeEntry
  dsimp only
  rw [valid, except_ok_bind]
  unfold putU16 putU32 entryBytes
  rw [put_append_at (by simp), put_append_at (by simp [recordEntryBytes]), put_append_at (by simp),
    put_append_at (by simp), put_append_at (by simp), put_append_at (by simp)]
  simp only [List.length_append, length_le, recordEntryBytes]
  congr 2
  omega

theorem encodeEntries_eq (valid : ∀ file ∈ files, ValidPath file.name) :
    files.foldlM encodeEntry (record, cursor) =
      .ok (put record cursor (payload files), cursor + (payload files).length) := by
  induction files generalizing record cursor with
  | nil =>
    rw [payload, List.flatMap_nil, put_nil]
    rfl
  | cons file files ih =>
    obtain ⟨here, rest⟩ := List.forall_mem_cons.mp valid
    rw [List.foldlM_cons, encodeEntry_eq here, except_ok_bind, ih rest, put_append, payload_cons,
      List.length_append, Nat.add_assoc]

theorem requiredRecordBytes_ok {bytes start : Nat}
    (ok : files.foldlM (fun bytes file => do
      let bytes ← addOr .arithmeticOverflow bytes recordEntryBytes
      let bytes ← addOr .arithmeticOverflow bytes file.name.bytes.length
      addOr .arithmeticOverflow bytes file.data.length) start = Except.ok bytes) :
    bytes = start + (payload files).length := by
  induction files generalizing start with
  | nil =>
    cases ok
    rfl
  | cons file files ih =>
    rw [List.foldlM_cons] at ok
    obtain ⟨next, isNext, ok⟩ := of_except_bind ok
    obtain ⟨first, isFirst, isNext⟩ := of_except_bind isNext
    obtain ⟨second, isSecond, isNext⟩ := of_except_bind isNext
    obtain ⟨-, rfl⟩ := addOr_ok isFirst
    obtain ⟨-, rfl⟩ := addOr_ok isSecond
    obtain ⟨-, rfl⟩ := addOr_ok isNext
    rw [ih ok, payload_cons, List.length_append, length_entryBytes]
    omega

end

/-- What `encode_record` returns. -/
structure Encoded (generation : Nat) (files : List FileEntry) (record : Bytes) : Prop where
  count : files.length ≤ maxFiles
  valid : validateTree files true = .ok ()
  whole : record.length % sectorSize = 0
  least : recordBytes ≤ record.length
  most : record.length ≤ maxRecordBytes
  room : recordHeaderBytes + (payload files).length ≤ record.length
  isRecord : record = sealRecord (put (recordFront record.length generation files.length)
    recordHeaderBytes (payload files)) (recordHeaderBytes + (payload files).length)

theorem length_recordFront (size generation count : Nat) :
    (recordFront size generation count).length = size := by
  simp [recordFront, putU32, putU64]

theorem length_sealRecord (record : Bytes) (cursor : Nat) :
    (sealRecord record cursor).length = record.length := by
  simp [sealRecord, putU32]

theorem encodeRecord_ok {generation : Nat} {files : List FileEntry} {record : Bytes}
    (ok : encodeRecord generation files = .ok record) : Encoded generation files record := by
  unfold encodeRecord at ok
  split at ok
  · cases ok
  rename_i count
  obtain ⟨⟨⟩, valid, ok⟩ := of_except_bind ok
  obtain ⟨requiredBytes, required, ok⟩ := of_except_bind ok
  obtain ⟨aligned, isAligned, ok⟩ := of_except_bind ok
  dsimp only at ok
  split at ok
  · cases ok
  rename_i small
  have names : ∀ file ∈ files, ValidPath file.name :=
    fun file mem => (validateEntry_ok (of_forM_ok valid file mem)).1
  rw [encodeEntries_eq names, except_ok_bind] at ok
  cases ok
  have isRequired := requiredRecordBytes_ok required
  unfold alignUpUsize at isAligned
  obtain ⟨sum, isSum, isAligned⟩ := of_except_bind isAligned
  obtain ⟨-, rfl⟩ := addOr_ok isSum
  cases isAligned
  have length : (sealRecord (put (recordFront
      (max ((requiredBytes + (sectorSize - 1)) / sectorSize * sectorSize) recordBytes) generation
      files.length) recordHeaderBytes (payload files))
      (recordHeaderBytes + (payload files).length)).length =
        max ((requiredBytes + (sectorSize - 1)) / sectorSize * sectorSize) recordBytes := by
    rw [length_sealRecord, length_put, length_recordFront]
  have sectorBytes : sectorSize = 512 := rfl
  have minimum : recordBytes = 64 * 512 := rfl
  refine ⟨Nat.not_lt.mp count, valid, ?_, ?_, ?_, ?_, ?_⟩
  · rw [length, sectorBytes, minimum]
    omega
  · rw [length]
    exact Nat.le_max_right _ _
  · rw [length]
    exact Nat.not_lt.mp small
  · rw [length, isRequired, sectorBytes]
    omega
  · rw [length]

section

variable {record : Bytes} {cursor payloadEnd : Nat} {file : FileEntry} {files : List FileEntry}

theorem slice_entryBytes (file : FileEntry) :
    slice (entryBytes file) 0 2 = le 2 file.name.bytes.length ∧
    slice (entryBytes file) 2 2 = le 2 (encodeKind file.kind) ∧
    slice (entryBytes file) 4 4 = le 4 file.data.length ∧
    slice (entryBytes file) 8 2 = le 2 file.permissions.toNat ∧
    slice (entryBytes file) 10 2 = le 2 0 ∧
    slice (entryBytes file) 12 file.name.bytes.length = file.name.bytes ∧
    slice (entryBytes file) (12 + file.name.bytes.length) file.data.length = file.data := by
  refine ⟨?_, ?_, ?_, ?_, ?_, ?_, ?_⟩
  case refine_7 =>
    unfold entryBytes
    rw [slice_append_right (by simp; omega), slice_append_right (by simp; omega),
      slice_append_right (by simp; omega), slice_append_right (by simp; omega),
      slice_append_right (by simp; omega), slice_append_right (by simp; omega)]
    convert slice_self rfl using 2
    simp
    omega
  all_goals simp [entryBytes, slice_append_right, slice_append_first]

theorem decodeKind_encodeKind (kind : EntryKind) : decodeKind (encodeKind kind) = .ok kind := by
  cases kind <;> rfl

theorem ValidPath.short {path : Text} (valid : ValidPath path) : path.bytes.length ≤ 128 := by
  unfold ValidPath validatePath at valid
  split at valid
  · cases valid
  · rename_i good
    rw [not_or, not_or] at good
    exact Nat.not_lt.mp good.2.1

theorem decodeMode_entry {raw : Nat} (isRaw : raw = encodeKind file.kind)
    (permissions : validatePermissions file.permissions = .ok ())
    (stored : getU16 record (cursor + 8) = .ok file.permissions.toNat)
    (reserved : getU16 record (cursor + 10) = .ok 0) :
    decodeMode record formatVersion cursor raw = .ok (file.kind, file.permissions) := by
  unfold decodeMode
  rw [if_neg (by decide), isRaw, decodeKind_encodeKind, except_ok_bind, stored, except_ok_bind,
    reserved, except_ok_bind, if_neg (not_not.mpr rfl), UInt16.ofNat_toNat, permissions,
    except_ok_bind]
  rfl

theorem decodeEntry_entryBytes (stored : slice record cursor (entryBytes file).length = entryBytes file)
    (inside : cursor + (entryBytes file).length ≤ payloadEnd) (room : payloadEnd ≤ record.length)
    (small : record.length ≤ maxRecordBytes) (valid : ValidPath file.name)
    (permissions : validatePermissions file.permissions = .ok ())
    (noData : file.kind = .directory → file.data = [])
    (fresh : ∀ entry ∈ files, entry.name ≠ file.name) :
    decodeEntry record formatVersion payloadEnd cursor files =
      .ok (file, cursor + (entryBytes file).length) := by
  obtain ⟨nameLen, kind, dataLen, mode, reserved, name, data⟩ := slice_entryBytes file
  have length := length_entryBytes file
  have header : recordEntryBytes = 12 := rfl
  have most : maxRecordBytes = 8192 * 512 := rfl
  have word : Word64.size = 2 ^ 64 := rfl
  have short := valid.short
  have read {offset n : Nat} {field : Bytes} (within : offset + n ≤ (entryBytes file).length)
      (isField : slice (entryBytes file) offset n = field) :
      slice record (cursor + offset) n = field := by
    rw [← isField, ← slice_slice within, stored]
  have kindSmall : encodeKind file.kind < 256 ^ 2 := by
    cases file.kind <;> decide
  have readNameLen : getU16 record cursor = .ok file.name.bytes.length :=
    getLe_of_slice (by omega) (by omega) (Nat.add_zero cursor ▸ read (by omega) nameLen)
  have readKind : getU16 record (cursor + 2) = .ok (encodeKind file.kind) :=
    getLe_of_slice (by omega) kindSmall (read (by omega) kind)
  have readDataLen : getU32 record (cursor + 4) = .ok file.data.length :=
    getLe_of_slice (by omega) (by omega) (read (by omega) dataLen)
  have readMode : decodeMode record formatVersion cursor (encodeKind file.kind) =
      .ok (file.kind, file.permissions) :=
    decodeMode_entry rfl permissions
      (getLe_of_slice (by omega) file.permissions.toNat_lt (read (by omega) mode))
      (getLe_of_slice (by omega) (by omega) (read (by omega) reserved))
  have readName : range record (cursor + 12) (cursor + 12 + file.name.bytes.length) =
      .ok file.name.bytes := by
    rw [range, if_pos (by omega), Nat.add_sub_cancel_left, read (by omega) name]
  have readData : range record (cursor + 12 + file.name.bytes.length)
      (cursor + 12 + file.name.bytes.length + file.data.length) = .ok file.data := by
    rw [range, if_pos (by omega), Nat.add_sub_cancel_left, Nat.add_assoc cursor,
      read (by omega) data]
  have unused : ¬files.any (fun entry => entry.name = file.name) = true := by
    intro found
    obtain ⟨entry, mem, same⟩ := List.any_eq_true.mp found
    exact fresh entry mem (of_decide_eq_true same)
  unfold decodeEntry
  dsimp only
  rw [if_neg (by decide : ¬formatVersion = 1), header, addOr_of_lt (by omega), except_ok_bind,
    if_neg (by omega), readNameLen, except_ok_bind, readKind, except_ok_bind, readDataLen,
    except_ok_bind, readMode, except_ok_bind, addOr_of_lt (by omega), except_ok_bind,
    addOr_of_lt (by omega), except_ok_bind, if_neg (by omega), readName, except_ok_bind,
    fromUtf8_bytes]
  dsimp only
  rw [valid, except_ok_bind, if_neg, if_neg unused, readData, except_ok_bind]
  · rw [length, header, ← Nat.add_assoc, ← Nat.add_assoc]
    rfl
  · rintro ⟨isDirectory, nonempty⟩
    exact nonempty (by rw [noData isDirectory]; rfl)

theorem decodeEntries_payload {done : List FileEntry}
    (stored : slice record cursor (payload files).length = payload files)
    (inside : cursor + (payload files).length ≤ payloadEnd) (room : payloadEnd ≤ record.length)
    (small : record.length ≤ maxRecordBytes)
    (valid : ∀ file ∈ files, ValidPath file.name ∧
      validatePermissions file.permissions = .ok () ∧ (file.kind = .directory → file.data = []))
    (distinct : Keyed.Distinct FileEntry.name (done ++ files)) :
    decodeEntries record formatVersion payloadEnd files.length cursor done =
      .ok (done ++ files, cursor + (payload files).length) := by
  induction files generalizing cursor done with
  | nil =>
    rw [List.append_nil]
    rfl
  | cons file files ih =>
    obtain ⟨⟨name, permissions, noData⟩, rest⟩ := List.forall_mem_cons.mp valid
    rw [payload_cons, List.length_append] at stored inside
    have first : slice record cursor (entryBytes file).length = entryBytes file := by
      have within : 0 + (entryBytes file).length ≤
          (entryBytes file).length + (payload files).length := by omega
      rw [← Nat.add_zero cursor, ← slice_slice within, stored, slice_append_first rfl]
    have second : slice record (cursor + (entryBytes file).length) (payload files).length =
        payload files := by
      rw [← slice_slice (Nat.le_refl _), stored, slice_append_right (Nat.le_refl _),
        Nat.sub_self, slice_self rfl]
    have fresh : ∀ entry ∈ done, entry.name ≠ file.name := by
      intro entry mem same
      unfold Keyed.Distinct at distinct
      rw [List.map_append, List.nodup_append] at distinct
      exact distinct.2.2 _ (List.mem_map_of_mem mem) _
        (List.mem_map_of_mem List.mem_cons_self) same
    rw [List.append_cons] at distinct ⊢
    rw [List.length_cons, decodeEntries, decodeEntry_entryBytes first (by omega) room small name
      permissions noData fresh, except_ok_bind]
    dsimp only
    rw [ih second (by omega) rest distinct, payload_cons, List.length_append, Nat.add_assoc]

end

/-! ## A record as a whole -/

section

variable {record : Bytes} {generation : Nat} {files : List FileEntry}

theorem slice_recordFront {size : Nat} (generation count : Nat) (room : recordHeaderBytes ≤ size) :
    slice (recordFront size generation count) 0 8 = recordMagic ∧
    slice (recordFront size generation count) 8 4 = le 4 formatVersion ∧
    slice (recordFront size generation count) 12 4 = le 4 recordHeaderBytes ∧
    slice (recordFront size generation count) 16 8 = le 8 generation ∧
    slice (recordFront size generation count) 24 4 = le 4 count ∧
    slice (recordFront size generation count) 36 4 = zeros 4 := by
  change 64 ≤ size at room
  unfold recordFront putU32 putU64
  refine ⟨?_, ?_, ?_, ?_, ?_, ?_⟩ <;>
    simp (disch := first | (simp [recordMagic]; done) | (simp [recordMagic]; omega)) only
      [slice_put_disjoint, slice_put_same, slice_zeros]

theorem slice_sealRecord_apart {cursor offset n : Nat} (apart : offset + n ≤ 28 ∨ 40 ≤ offset) :
    slice (sealRecord record cursor) offset n = slice record offset n := by
  unfold sealRecord putU32 recordHeaderCrcOffset
  dsimp only
  rw [slice_put_disjoint (by rw [length_le]; omega), slice_put_disjoint (by rw [length_le]; omega),
    slice_put_disjoint (by rw [length_le]; omega)]

theorem slice_sealRecord (record : Bytes) (cursor : Nat) (room : recordHeaderBytes ≤ record.length)
    (blank : slice record 36 4 = zeros 4) :
    slice (sealRecord record cursor) 28 4 = le 4 (cursor - recordHeaderBytes) ∧
    slice (sealRecord record cursor) 32 4 =
      le 4 (crc32 (slice record recordHeaderBytes (cursor - recordHeaderBytes))).toNat ∧
    slice (sealRecord record cursor) recordHeaderCrcOffset 4 =
      le 4 (crc32 (putU32 (slice (sealRecord record cursor) 0 recordHeaderBytes)
        recordHeaderCrcOffset 0)).toNat := by
  change 64 ≤ record.length at room
  refine ⟨?_, ?_, ?_⟩
  · unfold sealRecord putU32 recordHeaderCrcOffset
    dsimp only
    rw [slice_put_disjoint (by rw [length_le]; omega), slice_put_disjoint (by rw [length_le]; omega),
      slice_put_same (length_le 4 _) (by omega)]
  · unfold sealRecord putU32 recordHeaderCrcOffset
    dsimp only
    rw [slice_put_disjoint (by rw [length_le]; omega),
      slice_put_same (length_le 4 _) (by rw [length_put]; omega),
      slice_put_disjoint (by rw [length_le]; right; decide)]
  · have cleared {front : Bytes} {crc : Nat} (blank : slice front 36 4 = zeros 4)
        (size : 64 ≤ front.length) :
        put (slice (put front 36 (le 4 crc)) 0 64) 36 (le 4 0) = slice front 0 64 := by
      apply List.ext_getElem?
      intro index
      have field : (slice front 36 4)[index - 36]? = (zeros 4)[index - 36]? := by rw [blank]
      have long : (slice (put front 36 (le 4 crc)) 0 64).length = 64 :=
        length_slice (by rw [length_put]; omega)
      rw [getElem?_slice] at field
      rw [getElem?_put, getElem?_slice, getElem?_slice, getElem?_put, length_le, length_le, long,
        Nat.zero_add, le_zero]
      by_cases inField : 36 ≤ index ∧ index < 40
      · rw [if_pos (by omega), if_pos (by omega), ← field, if_pos (by omega)]
        congr 1
        omega
      · rw [if_neg (by omega)]
        split
        · rw [if_neg (by omega)]
        · rfl
    unfold sealRecord putU32 recordHeaderCrcOffset
    dsimp only
    rw [slice_put_same (length_le 4 _) (by rw [length_put, length_put]; omega)]
    change _ = le 4 (crc32 (put (slice _ 0 64) 36 (le 4 0))).toNat
    rw [cleared _ (by rw [length_put, length_put]; omega)]
    · rfl
    · rw [slice_put_disjoint (by rw [length_le]; omega),
        slice_put_disjoint (by rw [length_le]; omega), blank]

/-- Decoding a record: its entries if the generation is the expected one, and only then. -/
theorem Encoded.decode (encoded : Encoded generation files record)
    (generation_lt : generation < Word64.size) (distinct : Keyed.Distinct FileEntry.name files)
    (expected : Nat) :
    decodeRecord record expected =
      if expected = generation then .ok files else fail .corruptRecord := by
  have most := encoded.most
  have room := encoded.room
  have least := encoded.least
  have count := encoded.count
  have headerBytes : recordHeaderBytes = 64 := rfl
  have word : Word64.size = 2 ^ 64 := rfl
  have maxBytes : maxRecordBytes = 8192 * 512 := rfl
  have minBytes : recordBytes = 64 * 512 := rfl
  have maxCount : maxFiles = 128 := rfl
  obtain ⟨front, isFront⟩ : ∃ front, front = recordFront record.length generation files.length :=
    ⟨_, rfl⟩
  have frontLength : front.length = record.length := by rw [isFront, length_recordFront]
  have isRecord : record = sealRecord (put front recordHeaderBytes (payload files))
      (recordHeaderBytes + (payload files).length) := by
    rw [isFront]
    exact encoded.isRecord
  obtain ⟨magic, version, header, generationField, countField, blank⟩ :=
    slice_recordFront generation files.length (show recordHeaderBytes ≤ record.length by omega)
  rw [← isFront] at magic version header generationField countField blank
  have early {offset n : Nat} {field : Bytes} (before : offset + n ≤ 28)
      (isField : slice front offset n = field) : slice record offset n = field := by
    rw [isRecord, slice_sealRecord_apart (by omega), slice_put_disjoint (by omega), isField]
  have payloadSlice : slice record recordHeaderBytes (payload files).length = payload files := by
    rw [isRecord, slice_sealRecord_apart (by omega), slice_put_same rfl (by omega)]
  obtain ⟨payloadField, crcField, headerCrcField⟩ :=
    slice_sealRecord (put front recordHeaderBytes (payload files))
      (recordHeaderBytes + (payload files).length) (by rw [length_put]; omega)
      (by rw [slice_put_disjoint (by omega), blank])
  rw [← isRecord, Nat.add_sub_cancel_left] at payloadField crcField
  rw [← isRecord] at headerCrcField
  rw [slice_put_same rfl (by omega)] at crcField
  have readMagic := early (by omega) magic
  have readVersion : getU32 record 8 = .ok formatVersion :=
    getLe_of_slice (by omega) (by decide) (early (by omega) version)
  have readHeader : getU32 record 12 = .ok recordHeaderBytes :=
    getLe_of_slice (by omega) (by decide) (early (by omega) header)
  have readGeneration : getU64 record 16 = .ok generation :=
    getLe_of_slice (by omega) generation_lt (early (by omega) generationField)
  have readCount : getU32 record 24 = .ok files.length :=
    getLe_of_slice (by omega) (by omega) (early (by omega) countField)
  have readPayload : getU32 record 28 = .ok (payload files).length :=
    getLe_of_slice (by omega) (by omega) payloadField
  have readCrc : getU32 record 32 = .ok (crc32 (payload files)).toNat :=
    getLe_of_slice (by omega) (UInt32.toNat_lt _) crcField
  have headerLength : (slice record 0 recordHeaderBytes).length = 64 :=
    length_slice (by omega)
  have readHeaderCrc : getU32 (slice record 0 recordHeaderBytes) recordHeaderCrcOffset =
      .ok (crc32 (putU32 (slice record 0 recordHeaderBytes) recordHeaderCrcOffset 0)).toNat := by
    refine getLe_of_slice (by rw [headerLength]; decide) (UInt32.toNat_lt _) ?_
    rw [slice_slice (by decide), Nat.zero_add]
    exact headerCrcField
  unfold decodeRecord
  rw [if_neg (by omega), readVersion, except_ok_bind, readHeader, except_ok_bind, readGeneration,
    except_ok_bind]
  by_cases same : expected = generation
  · have supported : ¬(slice record 0 8 ≠ recordMagic ∨
        ¬(minFormatVersion ≤ formatVersion ∧ formatVersion ≤ formatVersion) ∨
        recordHeaderBytes ≠ recordHeaderBytes ∨ generation ≠ expected) := by
      rintro (wrong | wrong | wrong | wrong)
      · exact wrong readMagic
      · exact wrong (by decide)
      · exact wrong rfl
      · exact wrong same.symm
    have each := of_forM_ok encoded.valid
    have distinct : Keyed.Distinct FileEntry.name ([] ++ files) := distinct
    rw [if_pos same, if_neg supported]
    dsimp only
    rw [readHeaderCrc, except_ok_bind, if_neg (not_not.mpr rfl), readCount, except_ok_bind,
      readPayload, except_ok_bind, if_neg (by omega), addOr_of_lt (by omega), except_ok_bind,
      if_neg (by omega), range, if_pos (by omega), except_ok_bind, Nat.add_sub_cancel_left,
      payloadSlice, readCrc, except_ok_bind, if_neg (not_not.mpr rfl),
      decodeEntries_payload payloadSlice (Nat.le_refl _) room most
        (fun file mem => ⟨(validateEntry_ok (each file mem)).1,
          (validateEntry_ok (each file mem)).2.1,
          fun isDirectory => ((validateEntry_ok (each file mem)).2.2.1 isDirectory).1⟩)
        distinct,
      except_ok_bind]
    dsimp only
    rw [if_neg (not_not.mpr rfl), List.nil_append]
    change (validateTree files true >>= fun _ => pure files) = _
    rw [encoded.valid]
    rfl
  · rw [if_neg same, if_pos (.inr (.inr (.inr (Ne.symm same))))]

end

section

theorem requiredRecordBytes_eq {files : List FileEntry} {start : Nat}
    (small : start + (payload files).length < Word64.size) :
    files.foldlM (fun bytes file => do
      let bytes ← addOr .arithmeticOverflow bytes recordEntryBytes
      let bytes ← addOr .arithmeticOverflow bytes file.name.bytes.length
      addOr .arithmeticOverflow bytes file.data.length) start =
      Except.ok (start + (payload files).length) := by
  induction files generalizing start with
  | nil => rfl
  | cons file files ih =>
    rw [payload_cons, List.length_append, length_entryBytes] at small ⊢
    rw [List.foldlM_cons, addOr_of_lt (by omega), except_ok_bind, addOr_of_lt (by omega),
      except_ok_bind, addOr_of_lt (by omega), except_ok_bind, ih (by omega)]
    congr 1
    omega

theorem encodeRecord_small {files : List FileEntry} (generation : Nat)
    (count : files.length ≤ maxFiles) (valid : validateTree files true = .ok ())
    (small : recordHeaderBytes + (payload files).length ≤ recordBytes) :
    ∃ record, encodeRecord generation files = .ok record ∧ record.length = recordBytes := by
  have least : recordBytes = 64 * 512 := rfl
  have sectorBytes : sectorSize = 512 := rfl
  have word : Word64.size = 2 ^ 64 := rfl
  have names : ∀ file ∈ files, ValidPath file.name :=
    fun file mem => (validateEntry_ok (of_forM_ok valid file mem)).1
  have required : requiredRecordBytes files =
      .ok (recordHeaderBytes + (payload files).length) := requiredRecordBytes_eq (by omega)
  have aligned : max ((recordHeaderBytes + (payload files).length + (sectorSize - 1)) /
      sectorSize * sectorSize) recordBytes = recordBytes := by
    apply Nat.max_eq_right
    rw [sectorBytes, least]
    omega
  refine ⟨sealRecord (put (recordFront recordBytes generation files.length) recordHeaderBytes
    (payload files)) (recordHeaderBytes + (payload files).length), ?_, ?_⟩
  case refine_2 => rw [length_sealRecord, length_put, length_recordFront]
  unfold encodeRecord
  rw [if_neg (Nat.not_lt.mpr count), valid, except_ok_bind, required, except_ok_bind, alignUpUsize,
    addOr_of_lt (by omega), except_ok_bind]
  change (if maxRecordBytes < max _ _ then _ else _) = _
  rw [aligned, if_neg (by decide), encodeEntries_eq names, except_ok_bind]
  rfl

end

end CodexOS.Filesystem
