import CodexOS.Filesystem.Perform

/-! # What a mount reads

With all reads served, mounting is a function of the contents of the disk: of the
two superblock sectors, the newer one whose record can be read decides. Decoding
never goes out of bounds, whatever the bytes are.
-/

namespace CodexOS.Filesystem

open Bytes Block BlockDevice Effect Word64

/-! ## Decoding does not panic -/

section

variable {record : Bytes} {files : List FileEntry}

theorem avoids_fail :
    Avoids .panicked (fail error) post :=
  nofun

theorem avoids_getLe (size : Nat) (input : Bytes) (offset : Nat) :
    Avoids .panicked (getLe size input offset) fun _ => True :=
  .ite (fun _ => trivial) fun _ => avoids_fail

theorem avoids_addOr (error : FsError) (left right : Nat) :
    Avoids .panicked (addOr error left right) fun sum => sum = left + right := by
  cases sum : addOr error left right with
  | ok value => exact (addOr_ok sum).2
  | error stop =>
    unfold addOr at sum
    split at sum
    · cases sum
    · cases sum
      exact nofun

theorem avoids_range (order : start ≤ stop) (inside : stop ≤ record.length) :
    Avoids .panicked (range record start stop) fun _ => True := by
  rw [range, if_pos ⟨order, inside⟩]
  trivial

theorem avoids_validatePath (path : Text) : Avoids .panicked (validatePath path) fun _ => True :=
  .ite (fun _ => avoids_fail) fun _ => trivial

theorem avoids_validatePermissions (permissions : UInt16) :
    Avoids .panicked (validatePermissions permissions) fun _ => True :=
  .ite (fun _ => avoids_fail) fun _ => trivial

theorem avoids_parentPath (path : Text) : Avoids .panicked (parentPath path) fun _ => True := by
  refine .ite (fun _ => avoids_fail) fun _ => .bind (avoids_validatePath path) fun _ _ => ?_
  split
  · exact avoids_fail
  · trivial
  · trivial

theorem avoids_validateEntry (required : Bool) (entry : FileEntry) :
    Avoids .panicked (validateEntry files required entry) fun _ => True := by
  refine .bind (avoids_validatePath _) fun _ _ => .bind (avoids_validatePermissions _) fun _ _ => ?_
  refine .ite (fun _ => avoids_fail) fun _ => .ite (fun _ => avoids_fail) fun _ =>
    .ite (fun _ => ?_) fun _ => trivial
  refine .bind (avoids_parentPath _) fun parent _ => .ite (fun _ => trivial) fun _ => ?_
  split
  · exact avoids_fail
  · exact .ite (fun _ => avoids_fail) fun _ => .ite (fun _ => avoids_fail) fun _ => trivial

theorem avoids_validateTree (required : Bool) :
    Avoids .panicked (validateTree files required) fun _ => True := by
  have each (entries : List FileEntry) :
      Avoids .panicked (entries.forM (validateEntry files required)) fun _ => True := by
    induction entries with
    | nil => trivial
    | cons entry entries ih =>
      rw [List.forM_eq_forM, List.forM_cons]
      exact .bind (avoids_validateEntry required entry) fun _ _ => ih
  exact each files

theorem avoids_decodeMode (version cursor flags : Nat) :
    Avoids .panicked (decodeMode record version cursor flags) fun _ => True := by
  refine .ite (fun _ => .ite (fun _ => avoids_fail) fun _ => trivial) fun _ => ?_
  have kind : Avoids .panicked (decodeKind flags) fun _ => True :=
    .ite (fun _ => trivial) fun _ => .ite (fun _ => trivial) fun _ => avoids_fail
  exact kind.bind fun _ _ => (avoids_getLe 2 _ _).bind fun _ _ => (avoids_getLe 2 _ _).bind
    fun _ _ => .ite (fun _ => avoids_fail) fun _ => .bind (avoids_validatePermissions _)
      fun _ _ => trivial

theorem avoids_decodeEntry (room : payloadEnd ≤ record.length) :
    Avoids .panicked (decodeEntry record version payloadEnd cursor files) fun _ => True := by
  refine (avoids_addOr _ _ _).bind fun metadataEnd _ => .ite (fun _ => avoids_fail) fun _ => ?_
  refine (avoids_getLe 2 _ _).bind fun nameLen _ => (avoids_getLe 2 _ _).bind fun flags _ =>
    (avoids_getLe 4 _ _).bind fun dataLen _ => (avoids_decodeMode _ _ _).bind fun mode _ => ?_
  refine (avoids_addOr _ _ _).bind fun nameEnd isNameEnd =>
    (avoids_addOr _ _ _).bind fun dataEnd isDataEnd => .ite (fun _ => avoids_fail) fun inside => ?_
  refine (avoids_range (by omega) (by omega)).bind fun nameBytes _ => ?_
  split
  · exact avoids_fail
  · refine (avoids_validatePath _).bind fun _ _ => .ite (fun _ => avoids_fail) fun _ =>
      .ite (fun _ => avoids_fail) fun _ => ?_
    exact (avoids_range (by omega) (by omega)).bind fun _ _ => trivial

theorem avoids_decodeEntries (room : payloadEnd ≤ record.length) :
    Avoids .panicked (decodeEntries record version payloadEnd count cursor files)
      fun _ => True := by
  induction count generalizing cursor files with
  | zero => trivial
  | succ count ih => exact (avoids_decodeEntry room).bind fun _ _ => ih

theorem avoids_decodeRecord (record : Bytes) (generation : Nat) :
    Avoids .panicked (decodeRecord record generation) fun _ => True := by
  refine .ite (fun _ => avoids_fail) fun _ => (avoids_getLe 4 _ _).bind fun version _ =>
    (avoids_getLe 4 _ _).bind fun headerBytes _ => (avoids_getLe 8 _ _).bind fun found _ => ?_
  refine .ite (fun _ => avoids_fail) fun _ => (avoids_getLe 4 _ _).bind fun headerCrc _ =>
    .ite (fun _ => avoids_fail) fun _ => ?_
  refine (avoids_getLe 4 _ _).bind fun entryCount _ => (avoids_getLe 4 _ _).bind
    fun payloadBytes _ => .ite (fun _ => avoids_fail) fun _ => ?_
  refine (avoids_addOr _ _ _).bind fun payloadEnd isEnd => .ite (fun _ => avoids_fail)
    fun room => ?_
  refine (avoids_range (by omega) (by omega)).bind fun payload _ => (avoids_getLe 4 _ _).bind
    fun payloadCrc _ => .ite (fun _ => avoids_fail) fun _ => ?_
  exact (avoids_decodeEntries (by omega)).bind fun decoded _ => .ite (fun _ => avoids_fail)
    fun _ => (avoids_validateTree _).bind fun _ _ => trivial

end

/-! ## Records on a disk -/

/-- The bytes of some sectors. -/
def gather (image : Nat → Sector) (start sectors : Nat) : Bytes :=
  (List.range sectors).flatMap fun offset => (image (start + offset)).bytes

/-- The entries of the record a superblock names. -/
def recordFiles (image : Nat → Sector) (superblock : Superblock) : Fallible (List FileEntry) :=
  let record := gather image superblock.recordStart superblock.recordSectors
  if crc32 record ≠ superblock.recordCrc then fail .corruptRecord
  else decodeRecord record superblock.generation

section

variable {image : Nat → Sector} {start sectors : Nat} {disk : Disk}

theorem gather_succ : gather image start (sectors + 1) =
    gather image start sectors ++ (image (start + sectors)).bytes := by
  simp only [gather, List.range_succ, List.flatMap_append, List.flatMap_cons, List.flatMap_nil,
    List.append_nil]

theorem length_gather : (gather image start sectors).length = sectors * sectorSize := by
  induction sectors with
  | zero => rw [Nat.zero_mul]; rfl
  | succ sectors ih => rw [gather_succ, List.length_append, ih, Sector.length_eq, Nat.succ_mul]

theorem slice_gather (inside : offset < sectors) :
    slice (gather image start sectors) (offset * sectorSize) sectorSize =
      (image (start + offset)).bytes := by
  induction sectors with
  | zero => cases inside
  | succ sectors ih =>
    rw [gather_succ]
    rcases Nat.lt_succ_iff_lt_or_eq.mp inside with earlier | rfl
    · rw [slice_append_left, ih earlier]
      rw [length_gather, ← Nat.succ_mul]
      exact Nat.mul_le_mul_right _ earlier
    · rw [slice_append_right (Nat.le_of_eq length_gather), length_gather, Nat.sub_self,
        slice_self (Sector.length_eq _)]

theorem gather_of_inPlace (length : record.length = sectors * sectorSize)
    (inPlace : InPlace image start sectors record) : gather image start sectors = record := by
  apply eq_of_slices length_gather length
  intro offset inside
  rw [slice_gather inside, inPlace offset inside]

/-- The first `offset` of the sectors have been read into the record. -/
structure Filled (image : Nat → Sector) (start sectors offset left : Nat) (record : Bytes) : Prop where
  total : offset + left = sectors
  length : record.length = sectors * sectorSize
  read : ∀ i < offset, slice record (i * sectorSize) sectorSize = (image (start + i)).bytes

theorem filled_zeros (length : bytes = sectors * sectorSize) :
    Filled image start sectors 0 sectors (zeros bytes) :=
  ⟨Nat.zero_add _, by rw [length_zeros, length], nofun⟩

theorem Filled.eq (filled : Filled image start sectors offset 0 record) :
    record = gather image start sectors := by
  cases filled.total
  apply eq_of_slices filled.length length_gather
  intro i inside
  rw [filled.read i inside, slice_gather inside]

theorem Filled.room (filled : Filled image start sectors offset (left + 1) record) :
    offset * sectorSize + sectorSize ≤ record.length := by
  have total := filled.total
  rw [filled.length, ← Nat.succ_mul]
  exact Nat.mul_le_mul_right _ (by omega)

theorem Filled.put (filled : Filled image start sectors offset (left + 1) record) :
    Filled image start sectors (offset + 1) left
      (put record (offset * sectorSize) (image (start + offset)).bytes) where
  total := by rw [← filled.total, Nat.succ_add_eq_add_succ]
  length := by rw [length_put, filled.length]
  read i before := by
    rcases Nat.lt_succ_iff_lt_or_eq.mp before with earlier | rfl
    · rw [slice_put_disjoint, filled.read i earlier]
      left
      rw [← Nat.succ_mul]
      exact Nat.mul_le_mul_right _ earlier
    · exact slice_put_same (Sector.length_eq _) filled.room

theorem readSectors_run (inside : start + sectors ≤ disk.count)
    (filled : Filled disk.medium.contents start sectors offset left record) :
    ((nextReads left disk.plan).1 = true → (readSectors start offset left record).run disk =
      .ok (gather disk.medium.contents start sectors) (disk.later (nextReads left disk.plan).2)) ∧
    ((nextReads left disk.plan).1 = false →
      ∃ error, (readSectors start offset left record).run disk =
        .error (.failed (.block error)) (disk.later (nextReads left disk.plan).2)) := by
  induction left generalizing disk offset record with
  | zero =>
    refine ⟨fun _ => ?_, nofun⟩
    rw [filled.eq]
    rfl
  | succ left ih =>
    have room := filled.total
    unfold readSectors
    cases first : (nextRead disk.plan).1 with
    | false =>
      rw [nextReads_failed first, first]
      obtain ⟨error, run⟩ := call_readSector_failed (show start + offset < disk.count by omega)
        first
      exact ⟨nofun, fun _ => ⟨error, bind_error run⟩⟩
    | true =>
      rw [nextReads_served first, bind_ok (call_readSector (by omega) first), if_pos filled.room]
      exact @ih (disk.later _) _ _ inside filled.put

theorem readRecord_run (served : (nextReads superblock.recordSectors disk.plan).1 = true)
    (inside : superblock.recordStart + superblock.recordSectors ≤ disk.count)
    (layout : superblock.recordBytes = superblock.recordSectors * sectorSize) :
    (readRecord superblock).run disk = (lift (recordFiles disk.medium.contents superblock)).run
      (disk.later (nextReads superblock.recordSectors disk.plan).2) := by
  have read := (readSectors_run inside (filled_zeros layout)).1 served
  unfold readRecord recordFiles
  rw [bind_ok read]
  dsimp only
  split
  · rfl
  · rfl

theorem readRecord_failed (failed : (nextReads superblock.recordSectors disk.plan).1 = false)
    (inside : superblock.recordStart + superblock.recordSectors ≤ disk.count)
    (layout : superblock.recordBytes = superblock.recordSectors * sectorSize) :
    ∃ error, (readRecord superblock).run disk = .error (.failed (.block error))
      (disk.later (nextReads superblock.recordSectors disk.plan).2) := by
  obtain ⟨error, read⟩ := (readSectors_run inside (filled_zeros layout)).2 failed
  exact ⟨error, bind_error read⟩

end

/-! ## Superblocks on a disk -/

theorem decodeSuperblock_ok (ok : decodeSuperblock sector count = .ok superblock) :
    superblock.generation ≠ 0 ∧ recordAreaStart ≤ superblock.recordStart ∧
      superblock.recordStart + superblock.recordSectors ≤ count ∧
      superblock.recordBytes = superblock.recordSectors * sectorSize := by
  unfold decodeSuperblock at ok
  dsimp only at ok
  obtain ⟨version, -, ok⟩ := of_except_bind ok
  obtain ⟨headerBytes, -, ok⟩ := of_except_bind ok
  split at ok
  · cases ok
  obtain ⟨recordSectors, -, ok⟩ := of_except_bind ok
  obtain ⟨recordBytes, -, ok⟩ := of_except_bind ok
  split at ok
  · cases ok
  rename_i layout
  rw [not_not] at layout
  obtain ⟨checksum, -, ok⟩ := of_except_bind ok
  split at ok
  · cases ok
  obtain ⟨generation, -, ok⟩ := of_except_bind ok
  obtain ⟨recordStart, -, ok⟩ := of_except_bind ok
  obtain ⟨capacity, -, ok⟩ := of_except_bind ok
  obtain ⟨recordEnd, isEnd, ok⟩ := of_except_bind ok
  obtain ⟨-, rfl⟩ := addOr_ok isEnd
  split at ok
  · cases ok
  rename_i bounds
  split at ok
  · cases ok
  split at ok
  · cases ok
  obtain ⟨crc, -, ok⟩ := of_except_bind ok
  cases ok
  unfold validRecordLayout at layout
  split at layout
  · cases layout
  split at layout
  · cases layout
  split at layout
  · cases layout
  rename_i isBytes
  refine ⟨?_, ?_, ?_, not_not.mp isBytes⟩ <;> dsimp only <;> omega

theorem avoids_decodeSuperblock (sector : Sector) (count : Nat) :
    Avoids .panicked (decodeSuperblock sector count) fun _ => True := by
  refine (avoids_getLe 4 _ _).bind fun _ _ => (avoids_getLe 4 _ _).bind fun _ _ =>
    .ite (fun _ => avoids_fail) fun _ => (avoids_getLe 4 _ _).bind fun _ _ =>
    (avoids_getLe 4 _ _).bind fun _ _ => .ite (fun _ => avoids_fail) fun _ => ?_
  refine (avoids_getLe 4 _ _).bind fun _ _ => .ite (fun _ => avoids_fail) fun _ =>
    (avoids_getLe 8 _ _).bind fun _ _ => (avoids_getLe 8 _ _).bind fun _ _ =>
    (avoids_getLe 8 _ _).bind fun _ _ => (avoids_addOr _ _ _).bind fun _ _ => ?_
  exact .ite (fun _ => avoids_fail) fun _ => .ite (fun _ => avoids_fail) fun _ =>
    .ite (fun _ => avoids_fail) fun _ => (avoids_getLe 4 _ _).bind fun _ _ => trivial

/-- The value of a computation, if it returns one. -/
def value {α : Type} (result : Fallible α) : Option α :=
  match result with
  | .ok a => some a
  | .error _ => none

theorem okOf_eq (avoids : Avoids .panicked result post) : okOf result = .ok (value result) := by
  cases result with
  | ok a => rfl
  | error stop =>
    cases stop with
    | panicked => exact absurd rfl avoids
    | failed error => rfl

/-- The snapshot that a superblock sector leads to. -/
def candidate (count : Nat) (image : Nat → Sector) (number : Nat) : Option LoadedSnapshot :=
  match value (decodeSuperblock (image number) count) with
  | none => none
  | some superblock =>
    (value (recordFiles image superblock)).map fun files => { superblock, files }

/-- The newer one of two snapshots, the first one if there is no difference. -/
def newer : Option LoadedSnapshot → Option LoadedSnapshot → Option LoadedSnapshot
  | best, none => best
  | best, some snapshot =>
    if best.all fun current => current.superblock.generation < snapshot.superblock.generation then
      some snapshot
    else best

/-- The snapshot that a mount takes. -/
def latest (count : Nat) (image : Nat → Sector) : Option LoadedSnapshot :=
  newer (candidate count image superblockASector) (candidate count image superblockBSector)

section

variable {disk : Disk} {number : Nat}

theorem readSuperblock_run (inside : number < disk.count)
    (served : (nextRead disk.plan).1 = true) :
    (readSuperblock number).run disk =
      .ok (value (decodeSuperblock (disk.medium.contents number) disk.count),
        (disk.medium.contents number).bytes.any (· ≠ 0)) (disk.later (nextRead disk.plan).2) := by
  unfold readSuperblock
  rw [bind_ok (call_readSector inside served)]
  have decode : okOf (decodeSuperblock (disk.medium.contents number)
        (sectorCount (disk.later (nextRead disk.plan).2))) =
      .ok (value (decodeSuperblock (disk.medium.contents number) disk.count)) :=
    okOf_eq (avoids_decodeSuperblock _ _)
  have got (disk : Disk) : (get : EStateM Stop Disk Disk).run disk = .ok disk disk := rfl
  rw [bind_ok (got _), bind_ok (run_lift_ok decode)]
  rfl

/-- How the reads of the record end that a superblock sector names. -/
def recordReads (count : Nat) (image : Nat → Sector) (number : Nat) (plan : List Fate) :
    Bool × List Fate :=
  match value (decodeSuperblock (image number) count) with
  | none => (true, plan)
  | some superblock => nextReads superblock.recordSectors plan

theorem recordReads_nil (count : Nat) (image : Nat → Sector) :
    recordReads count image number [] = (true, []) := by
  unfold recordReads
  split
  · rfl
  · exact nextReads_nil

/-- The snapshot of a superblock sector, if the reads of its record are served. -/
def readable (count : Nat) (image : Nat → Sector) (number : Nat) (plan : List Fate) :
    Option LoadedSnapshot :=
  if (recordReads count image number plan).1 then candidate count image number else none

/-- A candidate that cannot be read is passed over. -/
theorem considerCandidate_run (best : Option LoadedSnapshot) :
    (considerCandidate best
        (value (decodeSuperblock (disk.medium.contents number) disk.count))).run disk =
      .ok (newer best (readable disk.count disk.medium.contents number disk.plan))
        (disk.later (recordReads disk.count disk.medium.contents number disk.plan).2) := by
  unfold readable recordReads candidate
  cases decoded : decodeSuperblock (disk.medium.contents number) disk.count with
  | error stop => rfl
  | ok superblock =>
    obtain ⟨-, -, inside, layout⟩ := decodeSuperblock_ok decoded
    unfold considerCandidate value
    dsimp only
    cases reads : (nextReads superblock.recordSectors disk.plan).1 with
    | false =>
      obtain ⟨error, read⟩ := readRecord_failed reads inside layout
      rw [bind_ok (attempt_eq _ _), outcome, after, read]
      rfl
    | true =>
      have read := readRecord_run reads inside layout
      have attempted : (attempt (readRecord superblock)).run disk =
          .ok (recordFiles disk.medium.contents superblock)
            (disk.later (nextReads superblock.recordSectors disk.plan).2) := by
        rw [attempt_eq]
        unfold outcome after
        rw [read]
        cases recordFiles disk.medium.contents superblock <;> rfl
      have noPanic : Avoids .panicked (recordFiles disk.medium.contents superblock)
          fun _ => True :=
        .ite (fun _ => avoids_fail) fun _ => avoids_decodeRecord _ _
      rw [bind_ok attempted, bind_ok (run_lift_ok (okOf_eq noPanic))]
      cases recordFiles disk.medium.contents superblock with
      | error stop => rfl
      | ok files =>
        change (if _ then _ else _ : EStateM Stop Disk _).run _ = .ok (if _ then _ else _) _
        split <;> rfl

theorem newer_none (found : Option LoadedSnapshot) : newer none found = found := by
  cases found <;> rfl

/-- What a load finds after it has read both superblock sectors: the two candidates are read one
    after the other. -/
def loadable (count : Nat) (image : Nat → Sector) (plan : List Fate) : Option LoadedSnapshot :=
  newer (readable count image superblockASector plan)
    (readable count image superblockBSector (recordReads count image superblockASector plan).2)

/-- The rest of the plan then. -/
def recordsRead (count : Nat) (image : Nat → Sector) (plan : List Fate) : List Fate :=
  (recordReads count image superblockBSector (recordReads count image superblockASector plan).2).2

/-- Loading, with both superblock sectors read. -/
theorem loadLatestSnapshot_read (room : 2 ≤ disk.count)
    (served : (nextReads 2 disk.plan).1 = true) :
    loadLatestSnapshot.run disk =
      if (loadable disk.count disk.medium.contents (nextReads 2 disk.plan).2).isNone ∧
          ((disk.medium.contents superblockASector).bytes.any (· ≠ 0) ∨
            (disk.medium.contents superblockBSector).bytes.any (· ≠ 0)) then
        .error (.failed .corruptSuperblocks)
          (disk.later (recordsRead disk.count disk.medium.contents (nextReads 2 disk.plan).2))
      else .ok (loadable disk.count disk.medium.contents (nextReads 2 disk.plan).2)
        (disk.later (recordsRead disk.count disk.medium.contents (nextReads 2 disk.plan).2)) := by
  have insideA : superblockASector < disk.count := Nat.lt_of_lt_of_le (by decide) room
  have insideB : superblockBSector < disk.count := Nat.lt_of_lt_of_le (by decide) room
  cases first : (nextRead disk.plan).1 with
  | false =>
    rw [nextReads_failed first, first] at served
    cases served
  | true =>
    rw [nextReads_served first] at served ⊢
    cases second : (nextRead (nextRead disk.plan).2).1 with
    | false =>
      rw [nextReads_failed second, second] at served
      cases served
    | true =>
      rw [nextReads_served second]
      have readB := @readSuperblock_run (disk.later (nextRead disk.plan).2) _ insideB second
      have consider (number : Nat) (plan : List Fate) (best : Option LoadedSnapshot) :
          (considerCandidate best (value (decodeSuperblock (disk.medium.contents number)
            disk.count))).run (disk.later plan) =
          .ok (newer best (readable disk.count disk.medium.contents number plan))
            (disk.later (recordReads disk.count disk.medium.contents number plan).2) :=
        @considerCandidate_run (disk.later plan) number best
      refine (bind_ok (readSuperblock_run insideA first)).trans ((bind_ok readB).trans
        ((bind_ok (consider _ _ _)).trans ((bind_ok (consider _ _ _)).trans ?_)))
      rw [newer_none]
      exact apply_ite (fun load : EStateM Stop Disk _ => load.run _) _ _ _

theorem loadLatestSnapshot_failed (room : 2 ≤ disk.count)
    (failed : (nextReads 2 disk.plan).1 = false) :
    ∃ stop disk', loadLatestSnapshot.run disk = .error stop disk' := by
  have insideA : superblockASector < disk.count := Nat.lt_of_lt_of_le (by decide) room
  have insideB : superblockBSector < disk.count := Nat.lt_of_lt_of_le (by decide) room
  unfold loadLatestSnapshot
  cases first : (nextRead disk.plan).1 with
  | false =>
    obtain ⟨error, run⟩ := call_readSector_failed insideA first
    exact ⟨_, _, bind_error (bind_error run)⟩
  | true =>
    rw [nextReads_served first] at failed
    rw [bind_ok (readSuperblock_run insideA first)]
    cases second : (nextRead (nextRead disk.plan).2).1 with
    | false =>
      obtain ⟨error, run⟩ := @call_readSector_failed (disk.later (nextRead disk.plan).2) _
        insideB second
      exact ⟨_, _, bind_error (bind_error run)⟩
    | true =>
      rw [nextReads_served second] at failed
      cases failed

theorem loadLatestSnapshot_run (reliable : disk.plan = []) (room : 2 ≤ disk.count) :
    loadLatestSnapshot.run disk =
      if (latest disk.count disk.medium.contents).isNone ∧
          ((disk.medium.contents superblockASector).bytes.any (· ≠ 0) ∨
            (disk.medium.contents superblockBSector).bytes.any (· ≠ 0)) then
        .error (.failed .corruptSuperblocks) disk
      else .ok (latest disk.count disk.medium.contents) disk := by
  have all : nextReads 2 disk.plan = (true, []) := by rw [reliable, nextReads_nil]
  have isLatest : loadable disk.count disk.medium.contents [] =
      latest disk.count disk.medium.contents := by
    unfold loadable readable
    rw [recordReads_nil, recordReads_nil]
    rfl
  have noneLeft : recordsRead disk.count disk.medium.contents [] = [] := by
    unfold recordsRead
    rw [recordReads_nil, recordReads_nil]
  rw [loadLatestSnapshot_read room (by rw [all]), all, isLatest, noneLeft, Disk.later_reliable reliable]

end

/-! ## Reads of any device -/

section

variable {δ : Type} [BlockDevice δ] {same : δ → Prop} {faulty : Prop} {count : Nat}
  {image : Nat → Sector}

/-- Reading returns the sectors of `image` and keeps what `same` says of the device. Only if it is
    faulty may a read fail or go outside. -/
structure Reads (same : δ → Prop) (faulty : Prop) (count : Nat) (image : Nat → Sector) : Prop where
  size : ∀ device, same device → sectorCount device = count
  read : ∀ number, faulty ∨ number < count → Spec same (call (readSector number))
    (fun sector device => same device ∧ sector = image number)
    fun stop device => same device ∧ faulty ∧ DeviceError stop

theorem spec_lift (x : Fallible α) :
    Spec pre (lift x) (fun a state => pre state ∧ x = .ok a)
      fun stop state => pre state ∧ x = .error stop := by
  intro state holds
  cases x with
  | ok a => exact ⟨holds, rfl⟩
  | error stop => exact ⟨holds, rfl⟩

variable (reads : Reads same faulty count image)

include reads

theorem Reads.readSectors (inside : faulty ∨ start + sectors ≤ count)
    (filled : Filled image start sectors offset left record) :
    Spec same (readSectors start offset left record)
      (fun result device => same device ∧ result = gather image start sectors)
      fun stop device => same device ∧ faulty ∧ DeviceError stop := by
  induction left generalizing offset record with
  | zero => exact .pure record fun device holds => ⟨holds, filled.eq⟩
  | succ left ih =>
    have room := filled.total
    unfold Filesystem.readSectors
    apply (reads.read (start + offset) (inside.imp_right (by omega))).bind
    intro sector
    apply Spec.assume
    rintro rfl
    rw [if_pos filled.room]
    exact ih filled.put

theorem Reads.readRecord
    (inside : faulty ∨ superblock.recordStart + superblock.recordSectors ≤ count)
    (layout : superblock.recordBytes = superblock.recordSectors * sectorSize) :
    Spec same (readRecord superblock)
      (fun files device => same device ∧ recordFiles image superblock = .ok files)
      fun stop device => same device ∧
        (faulty ∧ DeviceError stop ∨ recordFiles image superblock = .error stop) := by
  unfold Filesystem.readRecord
  refine ((reads.readSectors inside (filled_zeros layout)).weaken_fail
    fun _ _ failed => ⟨failed.1, .inl failed.2⟩).bind ?_
  intro record
  apply Spec.assume
  intro isRecord
  unfold recordFiles
  rw [← isRecord]
  dsimp only
  split
  · exact .throw _ fun _ holds => ⟨holds, .inr rfl⟩
  · exact (spec_lift _).weaken_fail fun _ _ failed => ⟨failed.1, .inr failed.2⟩

theorem Reads.readSuperblock (number : Nat) (inside : faulty ∨ number < count) :
    Spec same (readSuperblock number)
      (fun found device => same device ∧ found =
        (value (decodeSuperblock (image number) count), (image number).bytes.any (· ≠ 0)))
      fun stop device => same device ∧ faulty ∧ DeviceError stop := by
  unfold Filesystem.readSuperblock
  apply (reads.read number inside).bind
  intro sector
  apply Spec.assume
  intro isSector
  apply Spec.get_bind
  intro device holds
  rw [reads.size device holds, okOf_eq (avoids_decodeSuperblock _ _), isSector]
  exact fun _ holds => ⟨holds, rfl⟩

/-- A candidate is compared with the best one so far; only a fault makes the code pass it over. -/
theorem Reads.considerCandidate (best : Option LoadedSnapshot) :
    Spec same (considerCandidate best (value (decodeSuperblock (image number) count)))
      (fun found device => same device ∧
        (found = newer best (candidate count image number) ∨ faulty ∧ found = best))
      fun _ _ => False := by
  unfold candidate
  cases decoded : decodeSuperblock (image number) count with
  | error stop => exact .pure best fun device holds => ⟨holds, .inl rfl⟩
  | ok superblock =>
    obtain ⟨-, -, inside, layout⟩ := decodeSuperblock_ok decoded
    unfold Filesystem.considerCandidate value
    dsimp only
    apply (reads.readRecord (.inr inside) layout).attempt.bind
    intro result
    cases result with
    | error stop =>
      rintro device ⟨holds, ⟨isFaulty, error, rfl⟩ | failed⟩
      · exact ⟨holds, .inr ⟨isFaulty, rfl⟩⟩
      · rw [failed]
        cases stop with
        | failed error => exact ⟨holds, .inl rfl⟩
        | panicked =>
          unfold recordFiles at failed
          dsimp only at failed
          split at failed
          · cases failed
          · exact absurd failed (avoids_decodeRecord _ _).ne
    | ok files =>
      apply Spec.assume
      intro read
      rw [read]
      refine Spec.ite (fun isNewer => .pure _ fun device holds => ⟨holds, .inl ?_⟩)
        fun older => .pure best fun device holds => ⟨holds, .inl ?_⟩
      · exact (if_pos isNewer).symm
      · exact (if_neg older).symm

end

/-- The snapshot, if there is one, is what a superblock sector leads to. -/
def Sourced (count : Nat) (image : Nat → Sector) (found : Option LoadedSnapshot) : Prop :=
  ∀ snapshot, found = some snapshot →
    ∃ number, (number = superblockASector ∨ number = superblockBSector) ∧
      candidate count image number = some snapshot

theorem Sourced.newer (sourced : Sourced count image best)
    (isSuper : number = superblockASector ∨ number = superblockBSector) :
    Sourced count image (newer best (candidate count image number)) := by
  intro snapshot found
  unfold Filesystem.newer at found
  split at found
  · exact sourced snapshot found
  · split at found
    · rename_i isCandidate _
      exact ⟨number, isSuper, isCandidate.trans found⟩
    · exact sourced snapshot found

/-- What is loaded: a snapshot of the disk, the latest one unless there are faults, or nothing if
    the superblock sectors are zero. -/
theorem Reads.loadLatestSnapshot [BlockDevice δ] {same : δ → Prop}
    (reads : Reads same faulty count image) (room : faulty ∨ 2 ≤ count) :
    Spec same loadLatestSnapshot
      (fun found device => same device ∧ Sourced count image found ∧
        (faulty ∨ found = latest count image) ∧
        (found = none → ∀ number, number = superblockASector ∨ number = superblockBSector →
          (image number).bytes.any (· ≠ 0) = false))
      fun stop device => same device ∧ (faulty ∨ stop = .failed .corruptSuperblocks) := by
  have superblock {number : Nat} (low : number < 2) := (reads.readSuperblock number
    (room.imp_right (by omega))).weaken_fail fun stop _ failed => (⟨failed.1, .inl failed.2.1⟩ :
        _ ∧ (faulty ∨ stop = .failed .corruptSuperblocks))
  unfold Filesystem.loadLatestSnapshot
  apply (superblock (show superblockASector < 2 by decide)).bind
  intro first
  apply Spec.assume
  rintro rfl
  apply (superblock (show superblockBSector < 2 by decide)).bind
  intro second
  apply Spec.assume
  rintro rfl
  apply ((reads.considerCandidate none).weaken_fail fun _ _ => nofun).bind
  intro best
  apply Spec.assume
  intro isBest
  apply ((reads.considerCandidate best).weaken_fail fun _ _ => nofun).bind
  intro found
  apply Spec.assume
  intro isFound
  have sourced : Sourced count image best := by
    rcases isBest with rfl | ⟨-, rfl⟩
    · exact Sourced.newer nofun (.inl rfl)
    · exact nofun
  refine .ite (fun _ => .throw _ fun _ holds => ⟨holds, .inr rfl⟩) fun zero =>
    .pure _ fun device holds => ⟨holds, ?_, ?_, ?_⟩
  · rcases isFound with rfl | ⟨-, rfl⟩
    · exact sourced.newer (.inr rfl)
    · exact sourced
  · rcases isFound with rfl | ⟨isFaulty, -⟩
    · rcases isBest with rfl | ⟨isFaulty, -⟩
      · rw [newer_none]
        exact .inr rfl
      · exact .inl isFaulty
    · exact .inl isFaulty
  · rintro rfl number (rfl | rfl)
    · exact Bool.not_eq_true _ ▸ fun nonzero => zero ⟨rfl, .inl nonzero⟩
    · exact Bool.not_eq_true _ ▸ fun nonzero => zero ⟨rfl, .inr nonzero⟩

theorem Disk.reads (count : Nat) (medium : Medium Nat Sector) :
    Reads (Holds count (· = medium)) True count medium.contents where
  size _ holds := holds.1
  read number _ := by
    rintro disk ⟨isCount, rfl⟩
    by_cases outside : disk.count ≤ number
    · have run : (readSector number).run disk = .error .sectorOutOfRange disk := if_pos outside
      rw [call_error run]
      exact ⟨⟨isCount, rfl⟩, trivial, _, rfl⟩
    · have run : (readSector number).run disk =
          disk.answer (disk.medium.contents number) disk.medium := if_neg outside
      unfold Disk.answer at run
      rcases disk with ⟨_, medium, _ | ⟨_ | error | error, plan⟩⟩
      · rw [call_ok run]
        exact ⟨⟨isCount, rfl⟩, rfl⟩
      · rw [call_ok run]
        exact ⟨⟨isCount, rfl⟩, rfl⟩
      · rw [call_error run]
        exact ⟨⟨isCount, rfl⟩, trivial, error, rfl⟩
      · rw [call_error run]
        exact ⟨⟨isCount, rfl⟩, trivial, error, rfl⟩

end CodexOS.Filesystem
