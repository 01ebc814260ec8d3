import CodexOS.Lib.Bytes

/-! # Byte-addressed memory

A store changes the bytes it covers and no others; a load that lies within a
store returns that part of it. Words are 64-bit and little-endian.
-/

/-- The byte at every address. -/
abbrev ByteMemory := Nat → UInt8

namespace ByteMemory

open Bytes

section

variable (memory : ByteMemory)

def store (address : Nat) (bytes : Bytes) : ByteMemory := fun a =>
  if address ≤ a then (bytes[a - address]?).getD (memory a) else memory a

def load (address count : Nat) : Bytes :=
  (List.range count).map fun i => memory (address + i)

def loadWord (address : Nat) : Nat :=
  leNat (load memory address 8)

/-- Words in consecutive places, as the fields of a C structure. -/
def wordBytes (words : List Nat) : Bytes :=
  words.flatMap (le 8)

def storeWords (address : Nat) (words : List Nat) : ByteMemory :=
  store memory address (wordBytes words)

end

section

variable {memory memory' : ByteMemory} {address count : Nat} {bytes : Bytes}

theorem store_of_outside (outside : a < address ∨ address + bytes.length ≤ a) :
    store memory address bytes a = memory a := by
  unfold store
  split
  · rw [List.getElem?_eq_none (by omega), Option.getD_none]
  · rfl

theorem load_congr (same : ∀ a, address ≤ a → a < address + count → memory' a = memory a) :
    load memory' address count = load memory address count := by
  refine List.map_congr_left fun i mem => same _ (by omega) ?_
  have := List.mem_range.mp mem
  omega

theorem loadWord_congr (same : ∀ a, address ≤ a → a < address + 8 → memory' a = memory a) :
    loadWord memory' address = loadWord memory address := by
  rw [loadWord, loadWord, load_congr same]

/-- A load within a store returns what was stored there. -/
theorem load_store (within : offset + count ≤ bytes.length) :
    load (store memory address bytes) (address + offset) count = slice bytes offset count := by
  refine List.ext_getElem? fun i => ?_
  rw [getElem?_slice, load, List.getElem?_map]
  by_cases present : i < count
  · have found : offset + i < bytes.length := by omega
    rw [if_pos present, List.getElem?_range present, Option.map_some, store, if_pos (by omega),
      show address + offset + i - address = offset + i by omega, List.getElem?_eq_getElem found,
      Option.getD_some]
  · rw [if_neg present, List.getElem?_eq_none (by simpa using present), Option.map_none]

theorem length_wordBytes (words : List Nat) : (wordBytes words).length = 8 * words.length := by
  induction words with
  | nil => rfl
  | cons word rest ih =>
    rw [wordBytes, List.flatMap_cons, List.length_append, length_le, List.length_cons]
    change 8 + (wordBytes rest).length = _
    omega

theorem slice_wordBytes (found : words[k]? = some word) :
    slice (wordBytes words) (8 * k) 8 = le 8 word := by
  induction words generalizing k with
  | nil => simp at found
  | cons head rest ih =>
    change slice (le 8 head ++ wordBytes rest) _ 8 = _
    cases k with
    | zero =>
      cases found
      simp [slice]
    | succ k =>
      rw [← ih (by simpa using found), slice, slice, List.drop_append, length_le,
        List.drop_eq_nil_of_le (by simp), List.nil_append,
        show 8 * (k + 1) - 8 = 8 * k by omega]

theorem loadWord_storeWords {words : List Nat} {k word : Nat} (found : words[k]? = some word)
    (small : word < 2 ^ 64) : loadWord (storeWords memory address words) (address + 8 * k) = word := by
  have bound : k < words.length := (List.getElem?_eq_some_iff.mp found).1
  rw [loadWord, storeWords, load_store (by rw [length_wordBytes]; omega), slice_wordBytes found,
    leNat_le_of_lt (by simpa using small)]

theorem storeWords_of_outside (outside : a < address ∨ address + 8 * words.length ≤ a) :
    storeWords memory address words a = memory a :=
  store_of_outside (by rwa [length_wordBytes])

/-- A word beside those of a store is whole or untouched. -/
theorem loadWord_storeWords_cases (aligned : address % 8 = place % 8)
    (small : ∀ word ∈ words, word < 2 ^ 64) :
    loadWord (storeWords memory address words) place = loadWord memory place ∨
      loadWord (storeWords memory address words) place ∈ words := by
  by_cases inside : address ≤ place ∧ place < address + 8 * words.length
  · right
    have bound : (place - address) / 8 < words.length := by omega
    have found := List.getElem?_eq_getElem bound
    have stored : loadWord (storeWords memory address words)
        (address + 8 * ((place - address) / 8)) = words[(place - address) / 8] :=
      loadWord_storeWords found (small _ (List.getElem_mem bound))
    rw [show address + 8 * ((place - address) / 8) = place by omega] at stored
    rw [stored]
    exact List.getElem_mem bound
  · left
    refine loadWord_congr fun a low high => storeWords_of_outside ?_
    omega

theorem loadWord_lt (memory : ByteMemory) (address : Nat) : loadWord memory address < 2 ^ 64 := by
  have bound := leNat_lt (load memory address 8)
  have length : (load memory address 8).length = 8 := by simp [load]
  rwa [length] at bound

end

end ByteMemory
