import CodexOS.Filesystem.CodexFs
import CodexOS.Lib.Medium

/-! # A disk that may fail

The device under the file system: a medium with a write cache, and a plan of how
the next calls end. With nothing planned every call is served. A call that fails
may have taken effect or not, so a power failure at some point of an operation is
a plan that fails there, followed by whatever contents survive.
-/

namespace CodexOS.Filesystem

open Bytes Block BlockDevice Effect

/-- How a call ends. -/
inductive Fate
  | served
  | refused (error : BlockError)
  | unanswered (error : BlockError)
  deriving DecidableEq

structure Disk where
  count : Nat
  medium : Medium Nat Sector
  plan : List Fate

namespace Disk

/-- A call of a disk: what it returns and does if it has an effect, and how it ends. -/
def answer {α : Type} (disk : Disk) (value : α) (medium : Medium Nat Sector) :
    EStateM.Result BlockError Disk α :=
  match disk.plan with
  | [] => .ok value { disk with medium }
  | .served :: plan => .ok value { disk with medium, plan }
  | .refused error :: plan => .error error { disk with plan }
  | .unanswered error :: plan => .error error { disk with medium, plan }

instance : BlockDevice Disk where
  sectorCount := count
  supportsFlush _ := true
  readSector sector := fun disk =>
    if disk.count ≤ sector then .error .sectorOutOfRange disk
    else disk.answer (disk.medium.contents sector) disk.medium
  writeSector sector input := fun disk =>
    if disk.count ≤ sector then .error .sectorOutOfRange disk
    else disk.answer () (disk.medium.write sector input)
  flush := fun disk => disk.answer () disk.medium.flush

theorem sectorCount_eq (disk : Disk) : sectorCount disk = disk.count :=
  rfl

theorem supportsFlush_eq (disk : Disk) : supportsFlush disk = true :=
  rfl

/-- The disk after the power came back: no cache, and every call is served. -/
def restart (count : Nat) (image : Nat → Sector) : Disk where
  count
  medium := .settled image
  plan := []

/-- A disk of zeros. -/
def blank (count : Nat) : Disk :=
  restart count fun _ => .filled 0

end Disk

/-- The file system with a plan for the next calls of its device. -/
def CodexFs.withPlan (filesystem : CodexFs Disk) (plan : List Fate) : CodexFs Disk :=
  { filesystem with device := { filesystem.device with plan } }

def DeviceError (stop : Stop) : Prop :=
  ∃ error, stop = .failed (.block error)

/-! ## The calls -/

section

theorem call_ok (run : x.run device = .ok a device') : (call x).run device = .ok a device' := by
  change call x device = _
  rw [call, run]

theorem call_error (run : x.run device = .error error device') :
    (call x).run device = .error (.failed (.block error)) device' := by
  change call x device = _
  rw [call, run]

variable {count sector : Nat} {input : Sector} {before reached done : Medium Nat Sector → Prop}

/-- A disk of some size whose medium has a property. -/
def Holds (count : Nat) (property : Medium Nat Sector → Prop) (disk : Disk) : Prop :=
  disk.count = count ∧ property disk.medium

theorem spec_answer {α : Type} {step : EStateM BlockError Disk α} {value : Disk → α}
    {effect : Medium Nat Sector → Medium Nat Sector}
    (isStep : ∀ disk : Disk, disk.count = count →
      step.run disk = disk.answer (value disk) (effect disk.medium))
    (kept : ∀ medium, before medium → reached medium)
    (lands : ∀ medium, before medium → reached (effect medium))
    (returns : ∀ medium, before medium → done (effect medium)) :
    Spec (Holds count before) (call step) (fun _ => Holds count done)
      fun stop disk => DeviceError stop ∧ Holds count reached disk := by
  rintro disk ⟨isCount, holds⟩
  have run := isStep disk isCount
  unfold Disk.answer at run
  rcases disk with ⟨_, medium, _ | ⟨_ | error | error, plan⟩⟩
  · rw [call_ok run]
    exact ⟨isCount, returns medium holds⟩
  · rw [call_ok run]
    exact ⟨isCount, returns medium holds⟩
  · rw [call_error run]
    exact ⟨⟨error, rfl⟩, isCount, kept medium holds⟩
  · rw [call_error run]
    exact ⟨⟨error, rfl⟩, isCount, lands medium holds⟩

theorem spec_writeSector (inside : sector < count)
    (kept : ∀ medium, before medium → reached medium)
    (lands : ∀ medium, before medium → reached (medium.write sector input))
    (returns : ∀ medium, before medium → done (medium.write sector input)) :
    Spec (Holds count before) (call (writeSector sector input)) (fun _ => Holds count done)
      fun stop disk => DeviceError stop ∧ Holds count reached disk := by
  apply spec_answer _ kept lands returns
  · exact fun _ => ()
  · intro disk isCount
    change (if disk.count ≤ sector then _ else _) = _
    rw [if_neg (by omega)]

theorem spec_flush (kept : ∀ medium, before medium → reached medium)
    (lands : ∀ medium, before medium → reached medium.flush)
    (returns : ∀ medium, before medium → done medium.flush) :
    Spec (Holds count before) (call flush) (fun _ => Holds count done)
      fun stop disk => DeviceError stop ∧ Holds count reached disk :=
  @spec_answer _ _ _ _ _ _ (fun _ => ()) _ (fun _ _ => rfl) kept lands returns

end

/-! ## Reads -/

/-- How the next call ends, for a call that changes nothing: whether it is served, and the rest of
    the plan. -/
def nextRead : List Fate → Bool × List Fate
  | [] => (true, [])
  | .served :: plan => (true, plan)
  | .refused _ :: plan => (false, plan)
  | .unanswered _ :: plan => (false, plan)

/-- The same for some reads in a row, of which the first failure is the last one. -/
def nextReads : Nat → List Fate → Bool × List Fate
  | 0, plan => (true, plan)
  | left + 1, plan => if (nextRead plan).1 then nextReads left (nextRead plan).2 else nextRead plan

section

variable {disk : Disk} {sector left : Nat} {plan : List Fate}

theorem nextReads_nil : nextReads left [] = (true, []) := by
  induction left with
  | zero => rfl
  | succ left ih => exact ih

theorem nextReads_served (served : (nextRead plan).1 = true) :
    nextReads (left + 1) plan = nextReads left (nextRead plan).2 :=
  if_pos served

theorem nextReads_failed (failed : (nextRead plan).1 = false) :
    nextReads (left + 1) plan = nextRead plan := by
  rw [nextReads, failed]
  rfl

/-- The disk when some of its calls are over. -/
def Disk.later (disk : Disk) (plan : List Fate) : Disk :=
  { disk with plan }

theorem Disk.later_reliable (reliable : disk.plan = []) : disk.later [] = disk := by
  rw [Disk.later, ← reliable]

theorem call_readSector (inside : sector < disk.count) (served : (nextRead disk.plan).1 = true) :
    (call (readSector sector)).run disk =
      .ok (disk.medium.contents sector) (disk.later (nextRead disk.plan).2) := by
  apply call_ok
  change (if disk.count ≤ sector then _ else _) = _
  rw [if_neg (Nat.not_le.mpr inside)]
  rcases disk with ⟨count, medium, _ | ⟨_ | error | error, plan⟩⟩
  · rfl
  · rfl
  · cases served
  · cases served

theorem call_readSector_failed (inside : sector < disk.count)
    (failed : (nextRead disk.plan).1 = false) :
    ∃ error, (call (readSector sector)).run disk =
      .error (.failed (.block error)) (disk.later (nextRead disk.plan).2) := by
  have run : (readSector sector).run disk =
      disk.answer (disk.medium.contents sector) disk.medium := if_neg (Nat.not_le.mpr inside)
  rcases disk with ⟨count, medium, _ | ⟨_ | error | error, plan⟩⟩
  · cases failed
  · cases failed
  · exact ⟨error, call_error run⟩
  · exact ⟨error, call_error run⟩

end

end CodexOS.Filesystem
