import Mathlib.Data.List.Sort
import Mathlib.Data.List.Nodup

/-! # Lists of entries with distinct keys

A list whose entries have distinct keys is a finite map. The lemmas say what the
usual edits of the list do to the map, whatever the order of the list is, and that
sorting by a linear order of the keys does nothing to it.
-/

namespace Keyed

variable {α κ : Type} [DecidableEq κ] (key : α → κ)

def find (entries : List α) (k : κ) : Option α :=
  entries.find? fun entry => key entry = k

/-- Change the first entry with a key in its place. -/
def update (entries : List α) (k : κ) (change : α → α) : List α :=
  match entries with
  | [] => []
  | entry :: entries =>
    if key entry = k then change entry :: entries else entry :: update entries k change

omit [DecidableEq κ] in
/-- No two entries have the same key. -/
def Distinct (entries : List α) : Prop :=
  (entries.map key).Nodup

variable {key} {entries entries' : List α} {entry other : α} {k k' : κ} {change : α → α}

theorem find_eq_some (found : find key entries k = some entry) :
    entry ∈ entries ∧ key entry = k := by
  unfold find at found
  exact ⟨List.mem_of_find?_eq_some found, by simpa using List.find?_some found⟩

theorem find_eq_none : find key entries k = none ↔ ∀ entry ∈ entries, key entry ≠ k := by
  rw [find, List.find?_eq_none]
  simp only [decide_eq_true_eq, ne_eq]

theorem find_cons :
    find key (entry :: entries) k = if key entry = k then some entry else find key entries k := by
  unfold find
  rw [List.find?_cons]
  split
  · rename_i isKey
    rw [if_pos (of_decide_eq_true isKey)]
  · rename_i isOther
    rw [if_neg (of_decide_eq_false isOther)]

omit [DecidableEq κ] in
theorem Distinct.eq (distinct : Distinct key entries) (mem : entry ∈ entries)
    (mem' : other ∈ entries) (same : key entry = key other) : entry = other :=
  List.inj_on_of_nodup_map distinct mem mem' same

theorem find_iff (distinct : Distinct key entries) :
    find key entries k = some entry ↔ entry ∈ entries ∧ key entry = k := by
  constructor
  · exact find_eq_some
  · rintro ⟨mem, rfl⟩
    cases found : find key entries (key entry) with
    | none => exact absurd rfl (find_eq_none.mp found entry mem)
    | some other =>
      obtain ⟨mem', same⟩ := find_eq_some found
      rw [distinct.eq mem' mem same]

omit [DecidableEq κ] in
theorem Distinct.perm (distinct : Distinct key entries) (perm : entries.Perm entries') :
    Distinct key entries' :=
  (perm.map key).nodup_iff.mp distinct

theorem find_perm (distinct : Distinct key entries) (perm : entries.Perm entries') :
    find key entries' k = find key entries k := by
  apply Option.ext
  intro entry
  rw [find_iff distinct, find_iff (distinct.perm perm), perm.mem_iff]

section

theorem map_update (keeps : ∀ entry, f (change entry) = f entry) :
    (update key entries k change).map f = entries.map f := by
  induction entries with
  | nil => rfl
  | cons entry entries ih =>
    unfold update
    split
    · rw [List.map_cons, List.map_cons, keeps]
    · rw [List.map_cons, List.map_cons, ih]

theorem find_update (keeps : ∀ entry, key (change entry) = key entry) :
    find key (update key entries k change) k' =
      if k' = k then (find key entries k).map change else find key entries k' := by
  induction entries with
  | nil => split <;> rfl
  | cons entry entries ih =>
    unfold update
    by_cases isKey : key entry = k
    · rw [if_pos isKey, find_cons, find_cons, find_cons, keeps, if_pos isKey]
      by_cases same : k' = k
      · rw [if_pos same, if_pos (isKey.trans same.symm), Option.map_some]
      · rw [if_neg same]
        have other : ¬key entry = k' := fun isOther => same (isOther.symm.trans isKey)
        rw [if_neg other, if_neg other]
    · rw [if_neg isKey, find_cons, find_cons, find_cons, if_neg isKey, ih]
      by_cases same : k' = k
      · rw [if_pos same, if_pos same, if_neg (same ▸ isKey)]
      · rw [if_neg same, if_neg same]

section

variable {index : Nat}

/-- What is done at the place of a key is done to its entry. -/
theorem of_findIdx? (place : (entries.findIdx? fun entry => key entry = k) = some index) :
    entries[index]? = find key entries k ∧
      ∀ change, entries.modify index change = update key entries k change := by
  induction entries generalizing index with
  | nil => cases place
  | cons entry entries ih =>
    rw [List.findIdx?_cons] at place
    simp only [find_cons, update]
    by_cases isKey : key entry = k
    · simp only [isKey, decide_true, if_true, Option.some.injEq] at place
      simp only [← place, if_pos isKey]
      exact ⟨rfl, fun _ => rfl⟩
    · simp only [isKey, decide_false, Bool.false_eq_true, if_false, Option.map_eq_some_iff] at place
      obtain ⟨rest, place, rfl⟩ := place
      simp only [if_neg isKey, List.getElem?_cons_succ, List.modify_succ_cons, (ih place).1]
      exact ⟨trivial, fun change => by rw [(ih place).2]⟩

end

end

omit [DecidableEq κ] in
theorem distinct_concat (distinct : Distinct key entries)
    (fresh : ∀ other ∈ entries, key other ≠ key entry) : Distinct key (entries ++ [entry]) := by
  unfold Distinct
  rw [List.map_append, List.nodup_append]
  refine ⟨distinct, List.nodup_singleton _, ?_⟩
  intro k mem k' mem' same
  obtain ⟨other, inside, rfl⟩ := List.mem_map.mp mem
  cases List.mem_singleton.mp mem'
  exact fresh other inside same

theorem find_concat (fresh : ∀ other ∈ entries, key other ≠ key entry) :
    find key (entries ++ [entry]) k =
      if k = key entry then some entry else find key entries k := by
  have appended : find key (entries ++ [entry]) k =
      (find key entries k).or (find key [entry] k) :=
    List.find?_append
  rw [appended, find_cons]
  by_cases same : k = key entry
  · rw [if_pos same, if_pos same.symm, same, find_eq_none.mpr fresh, Option.none_or]
  · rw [if_neg same, if_neg (Ne.symm same)]
    exact Option.or_none

omit [DecidableEq κ] in
theorem Distinct.eraseIdx (distinct : Distinct key entries) (index : Nat) :
    Distinct key (entries.eraseIdx index) :=
  distinct.sublist ((List.eraseIdx_sublist entries index).map key)

theorem find_eraseIdx (distinct : Distinct key entries) (at_ : entries[index]? = some entry) :
    find key (entries.eraseIdx index) k = if k = key entry then none else find key entries k := by
  apply Option.ext
  intro other
  have isMem : other ∈ entries.eraseIdx index ↔ other ∈ entries ∧ key other ≠ key entry := by
    rw [List.mem_eraseIdx_iff_getElem?]
    constructor
    · rintro ⟨place, elsewhere, at'⟩
      refine ⟨List.mem_of_getElem? at', ?_⟩
      intro same
      have keys : (entries.map key)[place]? = (entries.map key)[index]? := by
        rw [List.getElem?_map, List.getElem?_map, at', at_, Option.map_some, Option.map_some, same]
      have bound : place < (entries.map key).length := by
        rw [List.length_map]
        exact (List.getElem?_eq_some_iff.mp at').1
      exact elsewhere ((List.getElem?_inj bound distinct).mp keys)
    · rintro ⟨mem, isOther⟩
      obtain ⟨place, at'⟩ := List.mem_iff_getElem?.mp mem
      refine ⟨place, ?_, at'⟩
      rintro rfl
      rw [at_] at at'
      cases at'
      exact isOther rfl
  rw [find_iff (distinct.eraseIdx index), isMem]
  by_cases same : k = key entry
  · rw [if_pos same, same]
    simp
  · rw [if_neg same, find_iff distinct]
    constructor
    · rintro ⟨⟨mem, -⟩, hasKey⟩
      exact ⟨mem, hasKey⟩
    · rintro ⟨mem, rfl⟩
      exact ⟨⟨mem, same⟩, rfl⟩

section

variable {le : α → α → Prop} [DecidableRel le]

theorem find_insertionSort (distinct : Distinct key entries) :
    find key (entries.insertionSort le) k = find key entries k :=
  find_perm distinct (List.perm_insertionSort le entries).symm

omit [DecidableEq κ] in
theorem Distinct.insertionSort (distinct : Distinct key entries) :
    Distinct key (entries.insertionSort le) :=
  distinct.perm (List.perm_insertionSort le entries).symm

end

end Keyed
