import Mathlib.Data.List.Basic
import Mathlib.Data.Nat.Basic
import Mathlib.Tactic.Ring

/-! # Byte strings with fixed-offset fields

A format writes its fields into a zeroed buffer at known offsets and reads them
back from the same offsets. `put` is the write, `slice` the read; the laws below
say that a field reads back as written and that writes at other offsets do not
disturb it. `le` and `leNat` are the little-endian integers of such formats.
-/

abbrev Bytes := List UInt8

namespace Bytes

/-- The `n` low bytes of `v`, least significant first. -/
def le : Nat → Nat → Bytes
  | 0, _ => []
  | n + 1, v => UInt8.ofNat v :: le n (v / 256)

/-- The number spelled by a byte string, least significant byte first. -/
def leNat : Bytes → Nat
  | [] => 0
  | b :: bs => b.toNat + 256 * leNat bs

/-- Overwrite the bytes from `off` on with `src`; the buffer keeps its size. -/
def put (bs : Bytes) (off : Nat) (src : Bytes) : Bytes :=
  bs.mapIdx fun i b => if off ≤ i then (src[i - off]?).getD b else b

def slice (bs : Bytes) (off n : Nat) : Bytes :=
  (bs.drop off).take n

def byteAt (bs : Bytes) (off : Nat) : UInt8 :=
  bs.getD off 0

def zeros (n : Nat) : Bytes :=
  List.replicate n 0

/-- The fixed-size array found at `off`. -/
def arrayAt (n : Nat) (bs : Bytes) (off : Nat) : Vector UInt8 n :=
  Vector.ofFn fun i => byteAt bs (off + i)

@[simp] theorem length_le (n v : Nat) : (le n v).length = n := by
  induction n generalizing v with
  | zero => rfl
  | succ n ih => simp only [le, List.length_cons, ih]

@[simp] theorem length_zeros (n : Nat) : (zeros n).length = n :=
  List.length_replicate

theorem leNat_lt (bs : Bytes) : leNat bs < 256 ^ bs.length := by
  induction bs with
  | nil => simp [leNat]
  | cons b bs ih =>
    have small : b.toNat < 256 := b.toNat_lt
    simp only [leNat, List.length_cons, Nat.pow_succ]
    omega

theorem leNat_le (n v : Nat) : leNat (le n v) = v % 256 ^ n := by
  induction n generalizing v with
  | zero => simp [le, leNat, Nat.mod_one]
  | succ n ih =>
    have head : (UInt8.ofNat v).toNat = v % 256 := by simp [UInt8.toNat_ofNat']
    simp only [le, leNat, ih, head]
    rw [Nat.pow_succ, Nat.mul_comm (256 ^ n) 256, Nat.mod_mul]

theorem leNat_le_of_lt (small : v < 256 ^ n) : leNat (le n v) = v := by
  rw [leNat_le, Nat.mod_eq_of_lt small]

theorem le_leNat (bs : Bytes) : le bs.length (leNat bs) = bs := by
  induction bs with
  | nil => rfl
  | cons b bs ih =>
    have small : b.toNat < 256 := b.toNat_lt
    have low : UInt8.ofNat (b.toNat + 256 * leNat bs) = b := by
      apply UInt8.toNat_inj.mp
      rw [UInt8.toNat_ofNat']
      omega
    have high : (b.toNat + 256 * leNat bs) / 256 = leNat bs := by omega
    simp only [List.length_cons, le, leNat, low, high, ih]

theorem getElem?_put (bs src : Bytes) (off i : Nat) :
    (put bs off src)[i]? =
      if off ≤ i ∧ i < off + src.length ∧ i < bs.length then src[i - off]? else bs[i]? := by
  unfold put
  rw [List.getElem?_mapIdx]
  by_cases present : i < bs.length
  · rw [List.getElem?_eq_getElem present, Option.map_some]
    by_cases inside : off ≤ i ∧ i < off + src.length
    · have found : i - off < src.length := by omega
      rw [if_pos inside.1, if_pos (show _ ∧ _ ∧ _ from ⟨inside.1, inside.2, present⟩),
        List.getElem?_eq_getElem found]
      rfl
    · rw [if_neg (show ¬(off ≤ i ∧ i < off + src.length ∧ i < bs.length) by omega)]
      by_cases reached : off ≤ i
      · rw [if_pos reached, List.getElem?_eq_none (by omega)]
        rfl
      · rw [if_neg reached]
  · rw [if_neg (show ¬(off ≤ i ∧ i < off + src.length ∧ i < bs.length) by omega),
      List.getElem?_eq_none (Nat.le_of_not_lt present)]
    rfl

theorem getElem?_slice (bs : Bytes) (off n i : Nat) :
    (slice bs off n)[i]? = if i < n then bs[off + i]? else none := by
  unfold slice
  rw [List.getElem?_take, List.getElem?_drop]

@[simp] theorem length_put (bs src : Bytes) (off : Nat) : (put bs off src).length = bs.length := by
  simp only [put, List.length_mapIdx]

theorem length_slice (room : off + n ≤ bs.length) :
    (slice bs off n).length = n := by
  simp only [slice, List.length_take, List.length_drop]
  omega

theorem slice_put_same (size : src.length = n) (room : off + n ≤ bs.length) :
    slice (put bs off src) off n = src := by
  subst size
  apply List.ext_getElem?
  intro i
  rw [getElem?_slice, getElem?_put]
  by_cases inside : i < src.length
  · rw [if_pos inside, if_pos ⟨by omega, by omega, by omega⟩, Nat.add_sub_cancel_left]
  · rw [if_neg inside, List.getElem?_eq_none (by omega)]

theorem slice_put_disjoint (apart : o + n ≤ off ∨ off + src.length ≤ o) :
    slice (put bs off src) o n = slice bs o n := by
  apply List.ext_getElem?
  intro i
  rw [getElem?_slice, getElem?_slice]
  by_cases inside : i < n
  · rw [if_pos inside, if_pos inside, getElem?_put, if_neg (by omega)]
  · rw [if_neg inside, if_neg inside]

theorem slice_put_within (inside : o + n ≤ src.length) (room : off + src.length ≤ bs.length) :
    slice (put bs off src) (off + o) n = slice src o n := by
  apply List.ext_getElem?
  intro i
  rw [getElem?_slice, getElem?_slice]
  by_cases small : i < n
  · rw [if_pos small, if_pos small, getElem?_put, if_pos (by omega)]
    congr 1
    omega
  · rw [if_neg small, if_neg small]

theorem slice_zeros (room : off + n ≤ m) : slice (zeros m) off n = zeros n := by
  unfold slice zeros
  rw [List.drop_replicate, List.take_replicate]
  congr 1
  omega

theorem put_slice_self (bs : Bytes) (off n : Nat) : put bs off (slice bs off n) = bs := by
  apply List.ext_getElem?
  intro i
  rw [getElem?_put]
  split
  · rename_i inside
    have small : i - off < n := by
      have bound : (slice bs off n).length ≤ n := List.length_take_le _ _
      omega
    rw [getElem?_slice, if_pos small]
    congr 1
    omega
  · rfl

theorem put_put_same (size : src.length = dst.length) :
    put (put bs off src) off dst = put bs off dst := by
  apply List.ext_getElem?
  intro i
  rw [getElem?_put, getElem?_put, getElem?_put, length_put]
  split
  · rfl
  · rw [if_neg (by omega)]

theorem put_append (bs src dst : Bytes) (off : Nat) :
    put (put bs off src) (off + src.length) dst = put bs off (src ++ dst) := by
  apply List.ext_getElem?
  intro i
  rw [getElem?_put, getElem?_put, getElem?_put, length_put, List.length_append]
  by_cases first : off ≤ i ∧ i < off + src.length ∧ i < bs.length
  · rw [if_neg (by omega), if_pos first, if_pos (by omega), List.getElem?_append_left (by omega)]
  · by_cases second : off + src.length ≤ i ∧ i < off + src.length + dst.length ∧ i < bs.length
    · rw [if_pos second, if_pos (by omega), List.getElem?_append_right (by omega)]
      congr 1
      omega
    · rw [if_neg second, if_neg first, if_neg (by omega)]

theorem put_nil (bs : Bytes) (off : Nat) : put bs off [] = bs := by
  apply List.ext_getElem?
  intro i
  rw [getElem?_put, if_neg]
  simp only [List.length_nil]
  omega

theorem slice_slice (inside : o + m ≤ n) :
    slice (slice bs off n) o m = slice bs (off + o) m := by
  apply List.ext_getElem?
  intro i
  rw [getElem?_slice, getElem?_slice, getElem?_slice]
  by_cases small : i < m
  · rw [if_pos small, if_pos small, if_pos (by omega), Nat.add_assoc]
  · rw [if_neg small, if_neg small]

theorem slice_append_left (inside : off + n ≤ bs.length) :
    slice (bs ++ cs) off n = slice bs off n := by
  unfold slice
  rw [List.drop_append_of_le_length (by omega), List.take_append_of_le_length]
  rw [List.length_drop]
  omega

theorem slice_append_right (after : bs.length ≤ off) :
    slice (bs ++ cs) off n = slice cs (off - bs.length) n := by
  unfold slice
  rw [List.drop_append, List.drop_eq_nil_of_le after, List.nil_append]

theorem slice_append_first (size : bs.length = n) :
    slice (bs ++ cs) 0 n = bs := by
  subst size
  exact List.take_left

theorem slice_self (size : bs.length = n) : slice bs 0 n = bs := by
  subst size
  exact List.take_length

/-- Strings of whole blocks are equal if their blocks are. -/
theorem eq_of_slices (length : bs.length = n * size) (length' : cs.length = n * size)
    (same : ∀ i < n, slice bs (i * size) size = slice cs (i * size) size) : bs = cs := by
  apply List.ext_getElem?
  intro index
  by_cases inside : index < n * size
  · have pos : 0 < size := Nat.pos_of_lt_mul_left inside
    have block := same (index / size) (Nat.div_lt_of_lt_mul (Nat.mul_comm n size ▸ inside))
    have entry := congrArg (·[index % size]?) block
    have small : index % size < size := Nat.mod_lt _ pos
    rwa [getElem?_slice, getElem?_slice, if_pos small, if_pos small, Nat.mul_comm,
      Nat.div_add_mod] at entry
  · rw [List.getElem?_eq_none (by omega), List.getElem?_eq_none (by omega)]

/-- Two strings have the same fields, if fields of these sizes lie one after the other. -/
def SameFields (bs cs : Bytes) : Nat → List Nat → Prop
  | _, [] => True
  | off, n :: sizes => slice bs off n = slice cs off n ∧ SameFields bs cs (off + n) sizes

theorem SameFields.drop_eq (same : SameFields bs cs off sizes)
    (length : bs.length = off + sizes.sum) (length' : cs.length = off + sizes.sum) :
    bs.drop off = cs.drop off := by
  induction sizes generalizing off with
  | nil =>
    rw [List.drop_eq_nil_of_le (by simpa using length.le),
      List.drop_eq_nil_of_le (by simpa using length'.le)]
  | cons n sizes ih =>
    rw [List.sum_cons] at length length'
    have rest := ih same.2 (by omega) (by omega)
    rw [← List.take_append_drop n (bs.drop off), ← List.take_append_drop n (cs.drop off),
      List.drop_drop, List.drop_drop, rest]
    exact congrArg (· ++ _) same.1

theorem eq_of_sameFields (sizes : List Nat) (length : bs.length = sizes.sum)
    (length' : cs.length = sizes.sum) (same : SameFields bs cs 0 sizes) : bs = cs :=
  same.drop_eq (by rw [length, Nat.zero_add]) (by rw [length', Nat.zero_add])

theorem byteAt_of_slice (field : slice bs off 1 = [b]) :
    byteAt bs off = b := by
  have read : (slice bs off 1)[0]? = some b := by rw [field]; rfl
  rw [getElem?_slice, if_pos Nat.one_pos, Nat.add_zero] at read
  rw [byteAt, List.getD_eq_getElem?_getD, read, Option.getD_some]

theorem drop_eq_slice (size : bs.length = off + n) :
    bs.drop off = slice bs off n := by
  unfold slice
  rw [List.take_of_length_le (by rw [List.length_drop]; omega)]

theorem put_of_slice (field : slice bs off src.length = src) :
    put bs off src = bs := by
  conv_lhs => rw [← field]
  exact put_slice_self bs off src.length

theorem le_zero (n : Nat) : le n 0 = zeros n := by
  induction n with
  | zero => rfl
  | succ n ih => simp only [le, Nat.zero_div, ih, zeros, List.replicate_succ]; rfl

theorem toList_arrayAt (room : off + n ≤ bs.length) :
    (arrayAt n bs off).toList = slice bs off n := by
  apply List.ext_getElem
  · simp [length_slice room]
  · intro i small _
    have inside : i < n := by simpa using small
    have present : off + i < bs.length := by omega
    have read : (slice bs off n)[i]? = some bs[off + i] := by
      rw [getElem?_slice, if_pos inside, List.getElem?_eq_getElem present]
    have get := (List.getElem?_eq_some_iff.mp read).2
    rw [get]
    simp [arrayAt, byteAt, List.getD_eq_getElem?_getD, List.getElem?_eq_getElem present]

theorem arrayAt_of_slice (room : off + n ≤ bs.length) (same : slice bs off n = v.toList) :
    arrayAt n bs off = v := by
  apply Vector.toList_inj.mp
  rw [toList_arrayAt room, same]

end Bytes
