import Mathlib.Algebra.Group.Nat.Defs
import Mathlib.Data.Nat.Basic

/-! # Saturating and checked arithmetic of 64-bit words

Words are natural numbers below `2 ^ 64`; the operations say themselves what
happens at the bound.
-/

namespace Word64

def size : Nat := 2 ^ 64

def maxValue : Nat := size - 1

def saturatingAdd (a b : Nat) : Nat :=
  min (a + b) maxValue

def saturatingMul (a b : Nat) : Nat :=
  min (a * b) maxValue

def checkedAdd (a b : Nat) : Option Nat :=
  if a + b < size then some (a + b) else none

def checkedSub (a b : Nat) : Option Nat :=
  if b ≤ a then some (a - b) else none

def checkedMul (a b : Nat) : Option Nat :=
  if a * b < size then some (a * b) else none

theorem saturatingAdd_of_lt (small : a + b < size) : saturatingAdd a b = a + b := by
  simp only [saturatingAdd, maxValue]
  omega

theorem saturatingMul_of_lt (small : a * b < size) : saturatingMul a b = a * b := by
  simp only [saturatingMul, maxValue]
  omega

theorem checkedAdd_eq_some : checkedAdd a b = some c ↔ a + b < size ∧ a + b = c := by
  simp only [checkedAdd, Option.ite_none_right_eq_some, Option.some.injEq]

theorem checkedSub_eq_some : checkedSub a b = some c ↔ b ≤ a ∧ a - b = c := by
  rw [checkedSub, Option.ite_none_right_eq_some, Option.some.injEq]

theorem checkedMul_eq_some : checkedMul a b = some c ↔ a * b < size ∧ a * b = c := by
  simp only [checkedMul, Option.ite_none_right_eq_some, Option.some.injEq]

end Word64
