import CodexOS.BootInfo
import CodexOS.Lib.ByteMemory
import Mathlib.Data.Nat.Bitwise

/-! # Page-table entries and the hardware's walk over them

An entry holds the address of a page in its middle bits and flags around them. The
processor finds the translation of an address by reading one entry of a table at
each of four levels.
-/

namespace CodexOS.Vm

abbrev Index := Fin 512

instance Index.neZero : NeZero 512 :=
  ⟨by decide⟩

def addressMask : Nat := 0x000ffffffffff000
def entryPresent : Nat := 1
def entryWritable : Nat := 2
def entryUser : Nat := 4
/-- An entry of the two middle levels with this flag maps a large page itself. -/
def entryLarge : Nat := 0x80
def entryNoExecute : Nat := 0x8000000000000000

structure Indices where
  l4 : Index
  l3 : Index
  l2 : Index
  l1 : Index
  deriving DecidableEq

def splitIndices (virt : Nat) : Indices where
  l4 := Fin.ofNat 512 (virt / 2 ^ 39)
  l3 := Fin.ofNat 512 (virt / 2 ^ 30)
  l2 := Fin.ofNat 512 (virt / 2 ^ 21)
  l1 := Fin.ofNat 512 (virt / 2 ^ 12)

def makeTableEntry (phys : Nat) : Nat :=
  phys &&& addressMask ||| entryPresent ||| entryWritable

def makeUserTableEntry (phys : Nat) : Nat :=
  phys &&& addressMask ||| entryPresent ||| entryWritable ||| entryUser

def makeLeafEntry (phys : Nat) (writable executable : Bool) : Nat :=
  let entry := phys &&& addressMask ||| entryPresent
  let entry := if writable then entry ||| entryWritable else entry
  if executable then entry else entry ||| entryNoExecute

def has (entry flag : Nat) : Bool :=
  entry &&& flag ≠ 0

def isPresent (entry : Nat) : Bool :=
  has entry entryPresent

def entryAddress (entry : Nat) : Nat :=
  entry &&& addressMask

/-- The start of a page that an entry can hold. -/
def IsFrame (phys : Nat) : Prop :=
  phys % pageSize = 0 ∧ phys < 2 ^ 52

instance (phys : Nat) : Decidable (IsFrame phys) :=
  inferInstanceAs (Decidable (_ ∧ _))

section

theorem mask_eq : addressMask = (2 ^ 40 - 1) <<< 12 := by
  decide

theorem testBit_mask (i : Nat) : addressMask.testBit i = decide (12 ≤ i ∧ i < 52) := by
  rw [mask_eq, Nat.testBit_shiftLeft, Nat.testBit_two_pow_sub_one]
  by_cases low : 12 ≤ i
  · have same : i - 12 < 40 ↔ i < 52 := by omega
    simp [low, same]
  · simp [low]

theorem IsFrame.and_mask (frame : IsFrame phys) : phys &&& addressMask = phys := by
  obtain ⟨aligned, small⟩ := frame
  have shifted : phys = 2 ^ 12 * (phys / 2 ^ 12) := by
    simp only [pageSize] at aligned
    omega
  apply Nat.eq_of_testBit_eq
  intro i
  rw [Nat.testBit_and, testBit_mask]
  by_cases inside : 12 ≤ i ∧ i < 52
  · simp [inside]
  · rw [decide_eq_false inside, Bool.and_false]
    by_cases low : 12 ≤ i
    · exact (Nat.testBit_lt_two_pow
        (small.trans_le (Nat.pow_le_pow_right (by decide) (by omega)))).symm
    · rw [shifted, Nat.testBit_two_pow_mul]
      simp [low]

theorem isFrame_entryAddress (entry : Nat) : IsFrame (entryAddress entry) := by
  constructor
  · apply Nat.eq_of_testBit_eq
    intro i
    rw [show pageSize = 2 ^ 12 by decide, Nat.testBit_mod_two_pow, entryAddress, Nat.testBit_and,
      testBit_mask, Nat.zero_testBit]
    by_cases low : i < 12
    · have outside : ¬(12 ≤ i ∧ i < 52) := by omega
      simp [outside]
    · simp [low]
  · exact lt_of_le_of_lt Nat.and_le_right (by decide)

end

section

/-- An address with flags around it: the shape of every entry the code makes. -/
def compose (address flags : Nat) : Nat :=
  address &&& addressMask ||| flags

def leafFlags (writable executable : Bool) : Nat :=
  let flags := if writable then entryPresent ||| entryWritable else entryPresent
  if executable then flags else flags ||| entryNoExecute

theorem has_compose (outside : addressMask &&& flag = 0) :
    has (compose address flags) flag = has flags flag := by
  unfold has compose
  rw [Nat.and_or_distrib_right, Nat.and_assoc, outside, Nat.and_zero, Nat.zero_or]

theorem entryAddress_compose (outside : flags &&& addressMask = 0) :
    entryAddress (compose address flags) = entryAddress address := by
  unfold entryAddress compose
  rw [Nat.and_or_distrib_right, outside, Nat.or_zero, Nat.and_assoc, Nat.and_self]

theorem compose_lt (small : flags < 2 ^ 64) :
    compose address flags < 2 ^ 64 :=
  Nat.or_lt_two_pow (lt_of_le_of_lt Nat.and_le_right (by decide)) small

theorem makeTableEntry_eq (phys : Nat) :
    makeTableEntry phys = compose phys (entryPresent ||| entryWritable) :=
  Nat.or_assoc _ _ _

theorem makeUserTableEntry_eq (phys : Nat) :
    makeUserTableEntry phys = compose phys (entryPresent ||| entryWritable ||| entryUser) := by
  unfold makeUserTableEntry compose
  rw [Nat.or_assoc, Nat.or_assoc, Nat.or_assoc]

theorem makeLeafEntry_eq (phys : Nat) (writable executable : Bool) :
    makeLeafEntry phys writable executable = compose phys (leafFlags writable executable) := by
  cases writable <;> cases executable <;>
    simp only [makeLeafEntry, leafFlags, compose, Bool.false_eq_true, if_true, if_false,
      Nat.or_assoc]

@[simp] theorem isPresent_zero : isPresent 0 = false := by
  decide

section

variable (phys : Nat)

@[simp] theorem isPresent_makeTableEntry : isPresent (makeTableEntry phys) = true := by
  rw [makeTableEntry_eq, isPresent, has_compose (by decide)]
  decide

@[simp] theorem writable_makeTableEntry : has (makeTableEntry phys) entryWritable = true := by
  rw [makeTableEntry_eq, has_compose (by decide)]
  decide

@[simp] theorem large_makeTableEntry : has (makeTableEntry phys) entryLarge = false := by
  rw [makeTableEntry_eq, has_compose (by decide)]
  decide

@[simp] theorem user_makeTableEntry : has (makeTableEntry phys) entryUser = false := by
  rw [makeTableEntry_eq, has_compose (by decide)]
  decide

@[simp] theorem noExecute_makeTableEntry : has (makeTableEntry phys) entryNoExecute = false := by
  rw [makeTableEntry_eq, has_compose (by decide)]
  decide

theorem makeTableEntry_lt : makeTableEntry phys < 2 ^ 64 := by
  rw [makeTableEntry_eq]
  exact compose_lt (by decide)

variable {phys}

theorem IsFrame.entryAddress_makeTableEntry (frame : IsFrame phys) :
    entryAddress (makeTableEntry phys) = phys := by
  rw [makeTableEntry_eq, entryAddress_compose (by decide)]
  exact frame.and_mask

end

section

variable (phys : Nat) (writable executable : Bool)

@[simp] theorem isPresent_makeLeafEntry : isPresent (makeLeafEntry phys writable executable) = true := by
  rw [makeLeafEntry_eq, isPresent, has_compose (by decide)]
  revert writable executable
  decide

@[simp] theorem writable_makeLeafEntry :
    has (makeLeafEntry phys writable executable) entryWritable = writable := by
  rw [makeLeafEntry_eq, has_compose (by decide)]
  revert writable executable
  decide

@[simp] theorem noExecute_makeLeafEntry :
    has (makeLeafEntry phys writable executable) entryNoExecute = !executable := by
  rw [makeLeafEntry_eq, has_compose (by decide)]
  revert writable executable
  decide

@[simp] theorem entryAddress_makeLeafEntry :
    entryAddress (makeLeafEntry phys writable executable) = entryAddress phys := by
  rw [makeLeafEntry_eq, entryAddress_compose]
  revert writable executable
  decide

theorem makeLeafEntry_congr (same : entryAddress phys' = entryAddress phys) :
    makeLeafEntry phys' writable executable = makeLeafEntry phys writable executable := by
  unfold entryAddress at same
  rw [makeLeafEntry, makeLeafEntry, same]

theorem makeLeafEntry_lt : makeLeafEntry phys writable executable < 2 ^ 64 := by
  rw [makeLeafEntry_eq]
  apply compose_lt
  revert writable executable
  decide

end

end

section

/-- What the processor may do with an address. -/
structure Access where
  phys : Nat
  writable : Bool
  executable : Bool
  user : Bool
  deriving DecidableEq

/-- A right must be given by every entry on the way. -/
def accessOf (entries : List Nat) (phys : Nat) : Access where
  phys := phys
  writable := entries.all (has · entryWritable)
  executable := !entries.any (has · entryNoExecute)
  user := entries.all (has · entryUser)

def readEntry (memory : ByteMemory) (table : Nat) (index : Index) : Nat :=
  memory.loadWord (table + 8 * index)

/-- The index into the table at each level, with the number of address bits below it. -/
def walkLevels (virt : Nat) : List (Index × Nat) :=
  let indices := splitIndices virt
  [(indices.l4, 39), (indices.l3, 30), (indices.l2, 21), (indices.l1, 12)]

/-- The entry maps a page itself: always at the last level, never at the first. -/
def mapsPage (bits entry : Nat) : Bool :=
  bits = 12 || (bits ≠ 39 && has entry entryLarge)

/-- The walk from a table on, with the entries read before it. -/
def walkFrom (memory : ByteMemory) (virt : Nat) :
    List Nat → Nat → List (Index × Nat) → Option Access
  | _, _, [] => none
  | above, table, (index, bits) :: below =>
    let entry := readEntry memory table index
    if !isPresent entry then none
    else if mapsPage bits entry then
      some (accessOf (above ++ [entry])
        (entryAddress entry / 2 ^ bits * 2 ^ bits + virt % 2 ^ bits))
    else walkFrom memory virt (above ++ [entry]) (entryAddress entry) below

/-- The walk of the processor from the table that CR3 names. -/
def hardwareWalk (memory : ByteMemory) (root virt : Nat) : Option Access :=
  walkFrom memory virt [] (entryAddress root) (walkLevels virt)

section

variable {memory : ByteMemory} {virt table bits : Nat} {above : List Nat} {index : Index}
  {below : List (Index × Nat)}

theorem walkFrom_absent (absent : isPresent (readEntry memory table index) = false) :
    walkFrom memory virt above table ((index, bits) :: below) = none := by
  simp [walkFrom, absent]

theorem walkFrom_page (present : isPresent (readEntry memory table index) = true)
    (page : mapsPage bits (readEntry memory table index) = true) :
    walkFrom memory virt above table ((index, bits) :: below) =
      some (accessOf (above ++ [readEntry memory table index])
        (entryAddress (readEntry memory table index) / 2 ^ bits * 2 ^ bits + virt % 2 ^ bits)) := by
  simp [walkFrom, present, page]

theorem walkFrom_table (present : isPresent (readEntry memory table index) = true)
    (inner : mapsPage bits (readEntry memory table index) = false) :
    walkFrom memory virt above table ((index, bits) :: below) =
      walkFrom memory virt (above ++ [readEntry memory table index])
        (entryAddress (readEntry memory table index)) below := by
  simp [walkFrom, present, inner]

end

end

end CodexOS.Vm
