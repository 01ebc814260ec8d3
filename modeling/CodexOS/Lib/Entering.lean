import Mathlib.Data.List.Count
import Mathlib.Data.Set.Card

/-! # Entering bindings into a partial map

Bindings are entered one after the other. A key that is free is bound and counted as
new; a key that is bound must be bound to the same value already.
-/

namespace Entering

variable {κ β : Type} [DecidableEq κ]

/-- The map after all entries, and how many of them were new. -/
inductive Enters : (κ → Option β) → List (κ × β) → Nat → (κ → Option β) → Prop
  | nil {map : κ → Option β} : Enters map [] 0 map
  | new {map map' : κ → Option β} {key : κ} {value : β} {entries : List (κ × β)} {count : Nat}
      (free : map key = none) (rest : Enters (Function.update map key (some value)) entries count map') :
      Enters map ((key, value) :: entries) (count + 1) map'
  | old {map map' : κ → Option β} {key : κ} {value : β} {entries : List (κ × β)} {count : Nat}
      (bound : map key = some value) (rest : Enters map entries count map') :
      Enters map ((key, value) :: entries) count map'

/-- The keys that are bound. -/
def domain (map : κ → Option β) : Set κ :=
  {key | (map key).isSome}

omit [DecidableEq κ] in
theorem ncard_domain_le [Finite κ] (map : κ → Option β) : (domain map).ncard ≤ Nat.card κ := by
  rw [← Set.ncard_univ]
  exact Set.ncard_le_ncard (Set.subset_univ _) (Set.toFinite _)

namespace Enters

variable {map map' : κ → Option β} {entries : List (κ × β)} {count : Nat} {key : κ} {value : β}

section

variable (enters : Enters map entries count map')

include enters

theorem kept (bound : map key = some value) : map' key = some value := by
  induction enters with
  | nil => exact bound
  | @new map _ other _ _ _ free _ ih =>
    refine ih ?_
    have different : key ≠ other := by
      rintro rfl
      rw [free] at bound
      cases bound
    rw [Function.update_of_ne different, bound]
  | old _ _ ih => exact ih bound

theorem bound (mem : (key, value) ∈ entries) : map' key = some value := by
  induction enters with
  | nil => cases mem
  | new free rest ih =>
    rcases List.mem_cons.mp mem with same | later
    · cases same
      exact rest.kept (Function.update_self ..)
    · exact ih later
  | old isBound rest ih =>
    rcases List.mem_cons.mp mem with same | later
    · cases same
      exact rest.kept isBound
    · exact ih later

theorem others (other : key ∉ entries.map Prod.fst) : map' key = map key := by
  induction enters with
  | nil => rfl
  | new free rest ih =>
    rw [List.map_cons, List.mem_cons, not_or] at other
    rw [ih other.2, Function.update_of_ne other.1]
  | old isBound rest ih =>
    rw [List.map_cons, List.mem_cons, not_or] at other
    exact ih other.2

/-- If no key is entered twice, the new entries are those whose key was free at the start. -/
theorem count_eq (distinct : (entries.map Prod.fst).Nodup) :
    count = entries.countP fun entry => (map entry.1).isNone := by
  induction enters with
  | nil => rfl
  | @new map _ key _ entries _ free rest ih =>
    obtain ⟨fresh, distinct⟩ := List.nodup_cons.mp distinct
    rw [List.countP_cons_of_pos (by simp [free]), ih distinct]
    congr 1
    refine List.countP_congr fun entry mem => ?_
    have different : entry.1 ≠ key := fun same => fresh (List.mem_map.mpr ⟨entry, mem, same⟩)
    rw [Function.update_of_ne different]
  | old isBound rest ih =>
    obtain ⟨-, distinct⟩ := List.nodup_cons.mp distinct
    rw [List.countP_cons_of_neg (by simp [isBound]), ih distinct]

end

theorem ncard_domain [Finite κ] (enters : Enters map entries count map') :
    (domain map').ncard = (domain map).ncard + count := by
  induction enters with
  | nil => rfl
  | @new map _ key value _ _ free rest ih =>
    have grown : domain (Function.update map key (some value)) = insert key (domain map) := by
      ext other
      by_cases same : other = key
      · subst same
        simp [domain]
      · simp [domain, same]
    have fresh : key ∉ domain map := by simp [domain, free]
    rw [ih, grown, Set.ncard_insert_of_notMem fresh (Set.toFinite _)]
    omega
  | old isBound rest ih => exact ih

end Enters

section

variable {n : Nat} {p : Nat → Prop} [DecidablePred p]

/-- If with each number all smaller ones are in a set, it is as long an initial part as it has
    members. -/
theorem lt_card_iff (down : ∀ j < n, p j → ∀ i < j, p i) (inside : i < n) :
    p i ↔ i < ((Finset.range n).filter p).card := by
  constructor
  · intro holds
    have initial : Finset.range (i + 1) ⊆ (Finset.range n).filter p := by
      intro j mem
      rw [Finset.mem_range] at mem
      rw [Finset.mem_filter, Finset.mem_range]
      refine ⟨by omega, ?_⟩
      rcases Nat.lt_succ_iff_lt_or_eq.mp mem with below | rfl
      · exact down i inside holds j below
      · exact holds
    have cards := Finset.card_le_card initial
    rw [Finset.card_range] at cards
    exact cards
  · intro few
    by_contra fails
    have initial : (Finset.range n).filter p ⊆ Finset.range i := by
      intro j mem
      rw [Finset.mem_filter, Finset.mem_range] at mem
      rw [Finset.mem_range]
      by_contra above
      rcases Nat.eq_or_lt_of_le (Nat.le_of_not_lt above) with rfl | beyond
      · exact fails mem.2
      · exact fails (down j mem.1 mem.2 i beyond)
    have cards := Finset.card_le_card initial
    rw [Finset.card_range] at cards
    omega

theorem of_lt_card (within : ∀ j < n, p j → j < ((Finset.range n).filter p).card) (inside : j < n)
    (holds : p j) : ∀ i < j, p i := by
  have initial : (Finset.range n).filter p ⊆ Finset.range ((Finset.range n).filter p).card := by
    intro k mem
    rw [Finset.mem_filter, Finset.mem_range] at mem
    exact Finset.mem_range.mpr (within k mem.1 mem.2)
  have same := Finset.eq_of_subset_of_card_le initial (by rw [Finset.card_range])
  intro i below
  have mem : i ∈ (Finset.range n).filter p := by
    rw [same, Finset.mem_range]
    exact below.trans (within j inside holds)
  exact (Finset.mem_filter.mp mem).2

end

end Entering
