import CodexOS.Filesystem.Codec
import CodexOS.Filesystem.Disk

/-! # What a commit does to the disk

The record goes to sectors that the active record does not use, and is flushed
before the superblock is written. So until the superblock lands nothing else has
changed, and when it lands its record is in place.
-/

namespace CodexOS.Filesystem

open Bytes Block BlockDevice Effect Word64

/-- Sectors from one number on that have none in common with others. -/
def Apart (start sectors start' sectors' : Nat) : Prop :=
  start + sectors ≤ start' ∨ start' + sectors' ≤ start

/-- A record lies in its sectors. -/
def InPlace (image : Nat → Sector) (start sectors : Nat) (record : Bytes) : Prop :=
  ∀ offset < sectors, (image (start + offset)).bytes = slice record (offset * sectorSize) sectorSize

/-! ## Before the first write -/

section

variable {δ : Type} [BlockDevice δ] {filesystem : CodexFs δ} {files : List FileEntry}

theorem rangesOverlap_ok
    (ok : rangesOverlap leftStart leftSectors rightStart rightSectors = .ok false) :
    Apart leftStart leftSectors rightStart rightSectors := by
  unfold rangesOverlap at ok
  obtain ⟨leftEnd, isLeft, ok⟩ := of_except_bind ok
  obtain ⟨rightEnd, isRight, ok⟩ := of_except_bind ok
  obtain ⟨-, rfl⟩ := addOr_ok isLeft
  obtain ⟨-, rfl⟩ := addOr_ok isRight
  have apart := of_decide_eq_false (Except.ok.inj ok)
  unfold Apart
  omega

/-- Where a record may go. -/
structure Free (filesystem : CodexFs δ) (start sectors : Nat) : Prop where
  area : recordAreaStart ≤ start
  inside : start + sectors ≤ sectorCount filesystem.device
  apart : filesystem.activeRecordSectors ≠ 0 →
    Apart start sectors filesystem.activeRecordStart filesystem.activeRecordSectors

theorem selectFrom_ok {generation sectors attempt left start : Nat}
    (ok : selectFrom filesystem generation sectors attempt left = .ok start) :
    Free filesystem start sectors := by
  induction left generalizing attempt with
  | zero => cases ok
  | succ left ih =>
    unfold selectFrom at ok
    obtain ⟨probe, -, ok⟩ := of_except_bind ok
    obtain ⟨offset, -, ok⟩ := of_except_bind ok
    obtain ⟨recordStart, isStart, ok⟩ := of_except_bind ok
    obtain ⟨recordEnd, isEnd, ok⟩ := of_except_bind ok
    obtain ⟨-, rfl⟩ := addOr_ok isEnd
    split at ok
    · exact ih ok
    rename_i inside
    have area : recordAreaStart ≤ recordStart := (addOr_ok isStart).2 ▸ Nat.le_add_right _ _
    split at ok
    · rename_i none
      cases ok
      exact ⟨area, Nat.not_lt.mp inside, fun active => absurd none active⟩
    obtain ⟨overlap, isOverlap, ok⟩ := of_except_bind ok
    cases overlap with
    | true => exact ih ok
    | false =>
      cases ok
      exact ⟨area, Nat.not_lt.mp inside, fun _ => rangesOverlap_ok isOverlap⟩

/-- What holds of a prepared commit. -/
structure Prepared.Ready (prepared : Prepared) (filesystem : CodexFs δ) (files : List FileEntry) :
    Prop where
  generation : prepared.generation = filesystem.generation + 1
  generation_lt : prepared.generation < Word64.size
  encoded : Encoded prepared.generation files prepared.record
  length : prepared.record.length = prepared.recordSectors * sectorSize
  sectors : prepared.recordSectors ≠ 0
  free : Free filesystem prepared.recordStart prepared.recordSectors

theorem prepare_ok {prepared : Prepared} (ok : prepare filesystem files = .ok prepared) :
    prepared.Ready filesystem files := by
  unfold prepare at ok
  obtain ⟨generation, isGeneration, ok⟩ := of_except_bind ok
  obtain ⟨record, isRecord, ok⟩ := of_except_bind ok
  dsimp only at ok
  split at ok
  · cases ok
  split at ok
  · cases ok
  rename_i sectors
  obtain ⟨start, isStart, ok⟩ := of_except_bind ok
  cases ok
  have encoded := encodeRecord_ok isRecord
  obtain ⟨small, sum⟩ := addOr_ok isGeneration
  exact
    { generation := sum
      generation_lt := sum ▸ small
      encoded
      length := (Nat.div_mul_cancel (Nat.dvd_of_mod_eq_zero encoded.whole)).symm
      sectors := fun none => sectors (.inl none)
      free := selectFrom_ok isStart }

end

/-! ## The writes -/

section

variable {count : Nat} {prepared : Prepared} {property : (Nat → Sector) → Prop}

theorem sectorOf_eq (length : record.length = sectors * sectorSize) (inside : offset < sectors) :
    ∃ sector, sectorOf record offset = .ok sector ∧
      sector.bytes = slice record (offset * sectorSize) sectorSize := by
  have whole : (slice record (offset * sectorSize) sectorSize).length = sectorSize := by
    apply length_slice
    rw [length]
    calc
      offset * sectorSize + sectorSize = (offset + 1) * sectorSize := by ring
      _ ≤ sectors * sectorSize := Nat.mul_le_mul_right _ inside
  exact ⟨⟨_, whole⟩, by rw [sectorOf, dif_pos whole], rfl⟩

/-- The disk while the record is written: nothing else has changed, and reads see the sectors
    written so far. -/
def Writing (property : (Nat → Sector) → Prop) (prepared : Prepared) (offset : Nat)
    (medium : Medium Nat Sector) : Prop :=
  medium.Every property ∧
    InPlace medium.contents prepared.recordStart offset prepared.record

/-- A property that writing the record does not touch. -/
def Untouched (property : (Nat → Sector) → Prop) (prepared : Prepared) : Prop :=
  ∀ image offset sector, offset < prepared.recordSectors → property image →
    property (Function.update image (prepared.recordStart + offset) sector)

theorem writing_step (untouched : Untouched property prepared)
    (inside : offset < prepared.recordSectors)
    (isSector : sector.bytes = slice prepared.record (offset * sectorSize) sectorSize)
    (writing : Writing property prepared offset medium) :
    Writing property prepared (offset + 1)
      (medium.write (prepared.recordStart + offset) sector) := by
  refine ⟨writing.1.write (fun _ => id) fun image => untouched image offset sector inside, ?_⟩
  intro other before
  rw [Medium.contents_write]
  by_cases same : other = offset
  · rw [same, Function.update_self, isSector]
  · rw [Function.update_of_ne (by omega)]
    exact writing.2 other (by omega)

theorem spec_writeSectors (untouched : Untouched property prepared)
    (inside : prepared.recordStart + prepared.recordSectors ≤ count)
    (length : prepared.record.length = prepared.recordSectors * sectorSize)
    (total : offset + left = prepared.recordSectors) :
    Spec (Holds count (Writing property prepared offset))
      (writeSectors prepared.recordStart prepared.record offset left)
      (fun _ => Holds count (Writing property prepared prepared.recordSectors))
      fun stop disk => DeviceError stop ∧ Holds count (Medium.Every · property) disk := by
  induction left generalizing offset with
  | zero =>
    cases total
    exact .pure () fun _ => id
  | succ left ih =>
    have here : offset < prepared.recordSectors := by omega
    obtain ⟨sector, isSector, bytes⟩ := sectorOf_eq length here
    unfold writeSectors
    rw [isSector, lift_ok_bind]
    refine Spec.bind (spec_writeSector (by omega) (fun _ writing => writing.1) ?_ ?_)
      fun _ => ih (by omega)
    · intro medium writing
      exact (writing_step untouched here bytes writing).1
    · intro medium writing
      exact writing_step untouched here bytes writing

/-- The contents when the superblock of a prepared commit has landed on contents with a property. -/
def Landed (property : (Nat → Sector) → Prop) (prepared : Prepared) (count : Nat)
    (image : Nat → Sector) : Prop :=
  ∃ old, property old ∧ InPlace old prepared.recordStart prepared.recordSectors prepared.record ∧
    image = Function.update old (superSector prepared.generation)
      (encodeSuperblock (prepared.superblock count))

/-- A commit that the device failed: it left the old contents, or the superblock has landed. -/
def Torn (property : (Nat → Sector) → Prop) (prepared : Prepared) (count : Nat) (stop : Stop)
    (disk : Disk) : Prop :=
  DeviceError stop ∧ Holds count (Medium.Every · fun image =>
    property image ∨ Landed property prepared count image) disk

theorem torn_of_every (failed : DeviceError stop ∧ Holds count (Medium.Every · property) disk) :
    Torn property prepared count stop disk :=
  ⟨failed.1, failed.2.1, failed.2.2.imp fun _ => .inl⟩

/-- The device calls of a commit: on success the superblock has landed and is durable. -/
theorem spec_storeSnapshot (untouched : Untouched property prepared)
    (inside : prepared.recordStart + prepared.recordSectors ≤ count)
    (area : recordAreaStart ≤ count)
    (length : prepared.record.length = prepared.recordSectors * sectorSize) :
    Spec (Holds count (Medium.Every · property)) (storeSnapshot prepared)
      (fun _ => Holds count fun medium => medium.pending = [] ∧
        Landed property prepared count medium.contents)
      (Torn property prepared count) := by
  have super : superSector prepared.generation < count := by
    have small : superSector prepared.generation < recordAreaStart := by
      unfold superSector
      split <;> decide
    omega
  have flushRecord : Spec (Holds count (Writing property prepared prepared.recordSectors))
      (call flush)
      (fun _ => Holds count (Medium.Every · fun image => property image ∧
        InPlace image prepared.recordStart prepared.recordSectors prepared.record))
      (Torn property prepared count) := by
    refine Spec.weaken (spec_flush (fun _ writing => writing.1) (fun _ writing => writing.1.flush)
      fun _ writing => ?_) (fun _ => id) (fun _ _ => id) fun _ _ => torn_of_every
    exact Medium.every_of_flushed rfl ⟨writing.1.contents, writing.2⟩
  have writeSuperblock : Spec (Holds count (Medium.Every · fun image => property image ∧
        InPlace image prepared.recordStart prepared.recordSectors prepared.record))
      (call (writeSector (superSector prepared.generation)
        (encodeSuperblock (prepared.superblock count))))
      (fun _ => Holds count fun medium => Landed property prepared count medium.contents ∧
        medium.Every fun image => property image ∨ Landed property prepared count image)
      (Torn property prepared count) := by
    have lands {medium : Medium Nat Sector} (every : medium.Every fun image => property image ∧
        InPlace image prepared.recordStart prepared.recordSectors prepared.record) :
        (medium.write (superSector prepared.generation)
          (encodeSuperblock (prepared.superblock count))).Every fun image =>
            property image ∨ Landed property prepared count image :=
      every.write (fun image holds => .inl holds.1)
        fun image holds => .inr ⟨image, holds.1, holds.2, rfl⟩
    refine spec_writeSector super (fun medium every => ?_) (fun _ => lands) fun medium every => ?_
    · exact every.imp fun image holds => .inl holds.1
    · rw [Medium.contents_write]
      exact ⟨⟨_, every.contents.1, every.contents.2, rfl⟩, lands every⟩
  unfold storeSnapshot
  apply Spec.bind ((spec_writeSectors untouched inside length (Nat.zero_add _)).weaken
    (fun _ holds => ⟨holds.1, holds.2, nofun⟩) (fun _ _ => id) fun _ _ => torn_of_every)
  intro _
  apply flushRecord.bind
  intro _
  apply Spec.get_bind
  intro disk holds
  have isCount : sectorCount disk = count := holds.1
  dsimp only
  rw [isCount]
  exact writeSuperblock.bind fun _ => spec_flush (fun _ holds => holds.2)
    (fun _ holds => holds.2.flush) fun _ holds => ⟨rfl, holds.1⟩

end

end CodexOS.Filesystem
