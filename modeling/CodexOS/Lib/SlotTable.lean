import Mathlib.Data.List.Basic

/-! # Tables of slots

A fixed row of slots, each free or taken by an entry. Entries are found by a key,
and no two entries have the same one. Where in the table an entry stands does not
matter: a table is as good as the partial map `lookup`.
-/

namespace SlotTable

variable {α κ : Type} (key : α → κ)

/-- The entry with a key, wherever it stands. -/
def lookup [DecidableEq κ] (slots : List (Option α)) (k : κ) : Option α :=
  slots.findSome? fun slot => slot.filter fun entry => key entry = k

/-- The place of the entry with a key. -/
def position [DecidableEq κ] (slots : List (Option α)) (k : κ) : Option Nat :=
  slots.findIdx? fun slot => slot.any fun entry => key entry = k

def Distinct (slots : List (Option α)) : Prop :=
  ∀ (i j : Nat) (a b : α), slots[i]? = some (some a) → slots[j]? = some (some b) →
    key a = key b → i = j

/-- The place `i` belongs to `k`: an entry stands there exactly if its key is `k`. -/
def Place (slots : List (Option α)) (k : κ) (i : Nat) : Prop :=
  i < slots.length ∧ ∀ (j : Nat) (a : α), slots[j]? = some (some a) → (key a = k ↔ j = i)

variable {key} [DecidableEq κ] {slots : List (Option α)} {k k' : κ} {i : Nat} {a : α} {new : Option α}

theorem lookup_eq_some (found : lookup key slots k = some a) :
    key a = k ∧ ∃ j : Nat, slots[j]? = some (some a) := by
  obtain ⟨slot, mem, isEntry⟩ := List.exists_of_findSome?_eq_some found
  obtain ⟨rfl, hasKey⟩ := Option.filter_eq_some_iff.mp isEntry
  exact ⟨of_decide_eq_true hasKey, List.mem_iff_getElem?.mp mem⟩

theorem lookup_eq_none (missing : lookup key slots k = none) {j : Nat}
    (at_ : slots[j]? = some (some a)) : key a ≠ k := by
  have none := List.findSome?_eq_none_iff.mp missing _ (List.mem_of_getElem? at_)
  exact fun hasKey => Option.filter_eq_none_iff.mp none a rfl (decide_eq_true hasKey)

theorem lookup_iff (distinct : Distinct key slots) :
    lookup key slots k = some a ↔ key a = k ∧ ∃ j : Nat, slots[j]? = some (some a) := by
  constructor
  · exact lookup_eq_some
  · rintro ⟨hasKey, j, at_⟩
    cases found : lookup key slots k with
    | none => exact absurd hasKey (lookup_eq_none found at_)
    | some b =>
      obtain ⟨hasKey', j', at'⟩ := lookup_eq_some found
      have same := distinct j j' a b at_ at' (hasKey.trans hasKey'.symm)
      subst same
      rw [at_] at at'
      cases at'
      rfl

theorem position_eq_some (found : position key slots k = some i) :
    ∃ a, slots[i]? = some (some a) ∧ key a = k := by
  obtain ⟨bound, hit, -⟩ := List.findIdx?_eq_some_iff_getElem.mp found
  cases isSlot : slots[i] with
  | none =>
    rw [isSlot] at hit
    cases hit
  | some a =>
    rw [isSlot] at hit
    exact ⟨a, (List.getElem?_eq_getElem bound).trans (congrArg some isSlot),
      of_decide_eq_true hit⟩

theorem position_eq_none (missing : position key slots k = none) : lookup key slots k = none := by
  refine List.findSome?_eq_none_iff.mpr ?_
  intro slot mem
  have miss := List.findIdx?_eq_none_iff.mp missing slot mem
  cases slot with
  | none => rfl
  | some a =>
    apply Option.filter_eq_none_iff.mpr
    intro b same hit
    cases same
    exact Bool.false_ne_true (miss.symm.trans hit)

theorem place_of_position (distinct : Distinct key slots) (found : position key slots k = some i) :
    Place key slots k i := by
  obtain ⟨a, at_, hasKey⟩ := position_eq_some found
  refine ⟨(List.getElem?_eq_some_iff.mp at_).1, ?_⟩
  intro j b at'
  constructor
  · intro hasKey'
    exact distinct j i b a at' at_ (hasKey'.trans hasKey.symm)
  · intro same
    subst same
    rw [at_] at at'
    cases at'
    exact hasKey

theorem place_of_free (missing : lookup key slots k = none) (free : slots[i]? = some none) :
    Place key slots k i := by
  refine ⟨(List.getElem?_eq_some_iff.mp free).1, ?_⟩
  intro j b at_
  constructor
  · intro hasKey
    exact absurd hasKey (lookup_eq_none missing at_)
  · intro same
    subst same
    rw [free] at at_
    cases at_

omit [DecidableEq κ] in
/-- What stands where once the place of `k` is rewritten. -/
theorem getElem?_set_place (place : Place key slots k i) :
    (slots.set i new)[j]? = some (some a) ↔
      j = i ∧ new = some a ∨ slots[j]? = some (some a) ∧ key a ≠ k := by
  by_cases same : j = i
  · subst same
    rw [List.getElem?_set_self place.1]
    constructor
    · intro isNew
      exact .inl ⟨rfl, Option.some.inj isNew⟩
    · rintro (⟨-, isNew⟩ | ⟨at_, other⟩)
      · rw [isNew]
      · exact absurd ((place.2 j a at_).mpr rfl) other
  · rw [List.getElem?_set_ne (Ne.symm same)]
    constructor
    · intro at_
      exact .inr ⟨at_, fun hasKey => same ((place.2 j a at_).mp hasKey)⟩
    · rintro (⟨isPlace, -⟩ | ⟨at_, -⟩)
      · exact absurd isPlace same
      · exact at_

omit [DecidableEq κ] in
theorem Distinct.set (distinct : Distinct key slots) (place : Place key slots k i)
    (hasKey : ∀ a, new = some a → key a = k) : Distinct key (slots.set i new) := by
  intro j j' a b at_ at' same
  rcases (getElem?_set_place place).mp at_ with ⟨rfl, isNew⟩ | ⟨old, other⟩
  · rcases (getElem?_set_place place).mp at' with ⟨rfl, -⟩ | ⟨-, other⟩
    · rfl
    · exact absurd (same.symm.trans (hasKey a isNew)) other
  · rcases (getElem?_set_place place).mp at' with ⟨rfl, isNew⟩ | ⟨old', -⟩
    · exact absurd (same.trans (hasKey b isNew)) other
    · exact distinct j j' a b old old' same

theorem lookup_set_same (distinct : Distinct key slots) (place : Place key slots k i)
    (hasKey : ∀ a, new = some a → key a = k) : lookup key (slots.set i new) k = new := by
  apply Option.ext
  intro a
  rw [lookup_iff (distinct.set place hasKey)]
  constructor
  · rintro ⟨isKey, j, at_⟩
    rcases (getElem?_set_place place).mp at_ with ⟨-, isNew⟩ | ⟨-, other⟩
    · exact isNew
    · exact absurd isKey other
  · intro isNew
    exact ⟨hasKey a isNew, i, (getElem?_set_place place).mpr (.inl ⟨rfl, isNew⟩)⟩

theorem lookup_set_other (distinct : Distinct key slots) (place : Place key slots k i)
    (hasKey : ∀ a, new = some a → key a = k) (other : k' ≠ k) :
    lookup key (slots.set i new) k' = lookup key slots k' := by
  apply Option.ext
  intro a
  rw [lookup_iff (distinct.set place hasKey), lookup_iff distinct]
  constructor
  · rintro ⟨isKey, j, at_⟩
    rcases (getElem?_set_place place).mp at_ with ⟨-, isNew⟩ | ⟨old, -⟩
    · exact absurd (isKey.symm.trans (hasKey a isNew)) other
    · exact ⟨isKey, j, old⟩
  · rintro ⟨isKey, j, old⟩
    exact ⟨isKey, j, (getElem?_set_place place).mpr
      (.inr ⟨old, fun isOwn => other (isKey.symm.trans isOwn)⟩)⟩

section

variable {kept : α → Bool}

theorem getElem?_keep {j : Nat} :
    (slots.map (Option.filter kept))[j]? = some (some a) ↔
      slots[j]? = some (some a) ∧ kept a = true := by
  rw [List.getElem?_map, Option.map_eq_some_iff]
  constructor
  · rintro ⟨slot, at_, isKept⟩
    obtain ⟨rfl, good⟩ := Option.filter_eq_some_iff.mp isKept
    exact ⟨at_, good⟩
  · rintro ⟨at_, good⟩
    exact ⟨some a, at_, Option.filter_eq_some_iff.mpr ⟨rfl, good⟩⟩

omit [DecidableEq κ] in
theorem Distinct.keep (distinct : Distinct key slots) :
    Distinct key (slots.map (Option.filter kept)) := by
  intro i j a b at_ at'
  exact distinct i j a b (getElem?_keep.mp at_).1 (getElem?_keep.mp at').1

theorem lookup_keep (distinct : Distinct key slots) :
    lookup key (slots.map (Option.filter kept)) k = (lookup key slots k).filter kept := by
  apply Option.ext
  intro a
  rw [lookup_iff distinct.keep, Option.filter_eq_some_iff, lookup_iff distinct]
  constructor
  · rintro ⟨isKey, j, at_⟩
    obtain ⟨old, good⟩ := getElem?_keep.mp at_
    exact ⟨⟨isKey, j, old⟩, good⟩
  · rintro ⟨⟨isKey, j, old⟩, good⟩
    exact ⟨isKey, j, getElem?_keep.mpr ⟨old, good⟩⟩

end

end SlotTable
