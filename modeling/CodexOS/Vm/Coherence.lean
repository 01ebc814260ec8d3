import CodexOS.Lib.Keyed
import CodexOS.Vm.TableTree

/-! # The manager keeps a wired tree

The manager's lists of tables, taken together, are a tree. Making a table hangs it
into the tree and entering a leaf binds one page; both keep the tree wired, whether
or not the operation they belong to fails later.
-/

namespace CodexOS.Vm

open Effect VirtualMemoryManager TableTree

section

variable {α : Type} [PageSource α]

/-- What the manager relies on: a page it gets is a page frame that nobody uses. -/
structure Supply (α : Type) [PageSource α] where
  Valid : α → Prop
  Used : α → Nat → Prop
  fresh : ∀ {pages page}, Valid pages → (PageSource.allocatePage pages).1 = some page →
    IsFrame page ∧ ¬Used pages page ∧ Used (PageSource.allocatePage pages).2 page
  valid : ∀ {pages}, Valid pages → Valid (PageSource.allocatePage pages).2
  keeps : ∀ {pages page}, Valid pages → Used pages page →
    Used (PageSource.allocatePage pages).2 page

/-- Answers that are page frames, none of them given twice. -/
def PageAnswers.Fresh (answers : PageAnswers) : Prop :=
  (answers.allocations.filterMap id).Nodup ∧
    ∀ page, some page ∈ answers.allocations → IsFrame page

/-- A page is used once it cannot be an answer any more. -/
def PageAnswers.supply : Supply PageAnswers where
  Valid := PageAnswers.Fresh
  Used answers page := some page ∉ answers.allocations
  fresh := by
    rintro ⟨allocations, _⟩ page ⟨nodup, frames⟩ answer
    cases allocations with
    | nil => cases answer
    | cons first rest =>
      have isFirst : first = some page := answer
      subst isFirst
      simp only [List.filterMap_cons, id_eq, List.nodup_cons, List.mem_filterMap] at nodup
      refine ⟨frames page (by simp), by simp, ?_⟩
      exact fun again => nodup.1 ⟨some page, again, rfl⟩
  valid := by
    rintro ⟨allocations, _⟩ ⟨nodup, frames⟩
    cases allocations with
    | nil => exact ⟨nodup, frames⟩
    | cons first rest =>
      refine ⟨?_, fun page mem => frames page (List.mem_cons_of_mem _ mem)⟩
      exact nodup.sublist ((List.sublist_cons_self first rest).filterMap id)
  keeps := by
    rintro ⟨allocations, _⟩ page _ notThere
    exact fun mem => notThere (List.mem_of_mem_tail mem)

end

namespace VirtualMemoryManager

/-- The tables that `n` indices lead to. -/
def level (manager : VirtualMemoryManager) : Nat → List Table
  | 0 => [{ key := [], page := manager.root }]
  | 1 => manager.l3Tables
  | 2 => manager.l2Tables
  | 3 => manager.l1Tables
  | _ => []

def tree (manager : VirtualMemoryManager) : TableTree := fun path =>
  (Keyed.find Table.key (manager.level path.length) path).map Table.page

/-- Each list has the tables of its level, at most one for each path. -/
structure Shelved (manager : VirtualMemoryManager) : Prop where
  distinct : ∀ n, Keyed.Distinct Table.key (manager.level n)
  length : ∀ n, ∀ table ∈ manager.level n, table.key.length = n

theorem Shelved.tree_iff (shelved : Shelved manager) :
    manager.tree path = some page ↔ { key := path, page } ∈ manager.level path.length := by
  rw [tree, Option.map_eq_some_iff]
  constructor
  · rintro ⟨table, found, rfl⟩
    obtain ⟨mem, rfl⟩ := Keyed.find_eq_some found
    exact mem
  · intro mem
    exact ⟨_, (Keyed.find_iff (shelved.distinct _)).mpr ⟨mem, rfl⟩, rfl⟩

/-- A manager with a root and nothing in it. -/
structure Bare (manager : VirtualMemoryManager) (root : Nat) : Prop where
  isRoot : manager.root = .new root
  noL3 : manager.l3Tables = []
  noL2 : manager.l2Tables = []
  noL1 : manager.l1Tables = []

namespace Bare

variable {manager : VirtualMemoryManager} {root : Nat}

theorem level_succ (bare : Bare manager root) (n : Nat) : manager.level (n + 1) = [] := by
  match n with
  | 0 => exact bare.noL3
  | 1 => exact bare.noL2
  | 2 => exact bare.noL1
  | n + 3 => rfl

theorem tree (bare : Bare manager root) :
    manager.tree = fun path => if path = [] then some (.new root) else none := by
  funext path
  cases path with
  | nil => exact congrArg some bare.isRoot
  | cons index path =>
    rw [VirtualMemoryManager.tree, List.length_cons, bare.level_succ]
    rfl

theorem shelved (bare : Bare manager root) : Shelved manager := by
  constructor
  · intro n
    cases n with
    | zero => exact List.nodup_singleton _
    | succ n =>
      rw [bare.level_succ]
      exact List.nodup_nil
  · intro n table mem
    cases n with
    | zero => rw [List.mem_singleton.mp mem, List.length_nil]
    | succ n =>
      rw [bare.level_succ] at mem
      cases mem

end Bare

section

variable {manager manager' : VirtualMemoryManager} {path : List Index} {index : Index}
  {phys entry : Nat}

/-- Only the entry `index` of the table at `path` is set. -/
structure Sets (path : List Index) (index : Index) (entry : Nat)
    (manager manager' : VirtualMemoryManager) : Prop where
  table : manager'.level path.length =
    Keyed.update Table.key (manager.level path.length) path (·.setEntry index entry)
  others : ∀ n, n ≠ path.length → manager'.level n = manager.level n

/-- A table is made below the one at `path` and entered there. -/
structure Creates (path : List Index) (index : Index) (phys : Nat)
    (manager manager' : VirtualMemoryManager) : Prop where
  parent : manager'.level path.length =
    Keyed.update Table.key (manager.level path.length) path
      (·.setEntry index (makeTableEntry phys))
  child : manager'.level (path.length + 1) =
    manager.level (path.length + 1) ++ [{ key := path ++ [index], page := .new phys }]
  others : ∀ n, n ≠ path.length → n ≠ path.length + 1 → manager'.level n = manager.level n

theorem key_setEntry (index : Index) (entry : Nat) (table : Table) :
    (table.setEntry index entry).key = table.key :=
  rfl

theorem find_setEntry :
    (Keyed.find Table.key (Keyed.update Table.key tables path (·.setEntry index entry)) place).map
        Table.page =
      if place = path then
        ((Keyed.find Table.key tables path).map Table.page).map (·.setEntry index entry)
      else (Keyed.find Table.key tables place).map Table.page := by
  rw [Keyed.find_update (key_setEntry index entry)]
  split
  · rw [Option.map_map, Option.map_map]
    rfl
  · rfl

theorem Sets.tree (sets : Sets path index entry manager manager') :
    manager'.tree = manager.tree.enter path index entry := by
  funext place
  simp only [VirtualMemoryManager.tree, enter]
  by_cases sameLevel : place.length = path.length
  · rw [sameLevel, sets.table, find_setEntry]
  · rw [sets.others _ sameLevel, if_neg (by rintro rfl; exact sameLevel rfl)]

theorem distinct_update (distinct : Keyed.Distinct Table.key tables) :
    Keyed.Distinct Table.key (Keyed.update Table.key tables path (·.setEntry index entry)) := by
  unfold Keyed.Distinct
  rw [Keyed.map_update (key_setEntry index entry)]
  exact distinct

theorem length_update (length : ∀ table ∈ tables, table.key.length = n) :
    ∀ table ∈ Keyed.update Table.key tables path (·.setEntry index entry), table.key.length = n := by
  intro table mem
  have key := List.mem_map_of_mem (f := Table.key) mem
  rw [Keyed.map_update (key_setEntry index entry), List.mem_map] at key
  obtain ⟨old, was, same⟩ := key
  rw [← same]
  exact length old was

theorem Sets.shelved (sets : Sets path index entry manager manager')
    (shelved : Shelved manager) : Shelved manager' := by
  constructor
  · intro n
    by_cases sameLevel : n = path.length
    · rw [sameLevel, sets.table]
      exact distinct_update (shelved.distinct _)
    · rw [sets.others n sameLevel]
      exact shelved.distinct n
  · intro n
    by_cases sameLevel : n = path.length
    · rw [sameLevel, sets.table]
      exact length_update (shelved.length _)
    · rw [sets.others n sameLevel]
      exact shelved.length n

theorem ne_of_vacant (vacant : manager.tree (path ++ [index]) = none) :
    ∀ table ∈ manager.level (path.length + 1), table.key ≠ path ++ [index] := by
  rw [VirtualMemoryManager.tree, List.length_append, Option.map_eq_none_iff] at vacant
  exact Keyed.find_eq_none.mp vacant

theorem Creates.tree (creates : Creates path index phys manager manager')
    (vacant : manager.tree (path ++ [index]) = none) :
    manager'.tree = manager.tree.link path index phys := by
  have fresh := ne_of_vacant vacant
  funext place
  simp only [VirtualMemoryManager.tree, link]
  by_cases sameLevel : place.length = path.length
  · have other : place ≠ path ++ [index] := by
      rintro rfl
      simp at sameLevel
    rw [sameLevel, creates.parent, find_setEntry, if_neg other]
  · have notParent : place ≠ path := by
      rintro rfl
      exact sameLevel rfl
    rw [if_neg notParent]
    by_cases below : place.length = path.length + 1
    · rw [below, creates.child, Keyed.find_concat fresh]
      split <;> rfl
    · rw [creates.others _ sameLevel below, if_neg]
      rintro rfl
      simp at below

theorem Creates.shelved (creates : Creates path index phys manager manager')
    (vacant : manager.tree (path ++ [index]) = none) (shelved : Shelved manager) :
    Shelved manager' := by
  have fresh := ne_of_vacant vacant
  constructor
  · intro n
    by_cases sameLevel : n = path.length
    · rw [sameLevel, creates.parent]
      exact distinct_update (shelved.distinct _)
    · by_cases below : n = path.length + 1
      · rw [below, creates.child]
        exact Keyed.distinct_concat (shelved.distinct _) fresh
      · rw [creates.others n sameLevel below]
        exact shelved.distinct n
  · intro n
    by_cases sameLevel : n = path.length
    · rw [sameLevel, creates.parent]
      exact length_update (shelved.length _)
    · by_cases below : n = path.length + 1
      · rw [below, creates.child]
        intro table mem
        rcases List.mem_append.mp mem with old | new
        · exact shelved.length _ table old
        · rw [List.mem_singleton.mp new]
          simp
      · rw [creates.others n sameLevel below]
        exact shelved.length n

/-- The place of a table in the list of its level. -/
def Located (manager : VirtualMemoryManager) (path : List Index) (place : Nat) : Prop :=
  ((manager.level path.length).findIdx? fun table => table.key = path) = some place

theorem located_root (manager : VirtualMemoryManager) : Located manager [] 0 := by
  simp [Located, level]

theorem Located.tree (located : Located manager path place) :
    manager.tree path = (manager.level path.length)[place]?.map Table.page := by
  rw [(Keyed.of_findIdx? located).1]
  rfl

theorem Located.isSome (located : Located manager path place) :
    (manager.tree path).isSome := by
  obtain ⟨bound, -⟩ := List.findIdx?_eq_some_iff_getElem.mp located
  rw [located.tree, List.getElem?_eq_getElem bound]
  rfl

end

end VirtualMemoryManager

section

variable {α : Type} [PageSource α] {supply : Supply α} {machine machine' machine'' : Machine α}

/-- The lists are a wired tree whose pages are all in use. -/
structure Coherent (supply : Supply α) (machine : Machine α) : Prop where
  valid : supply.Valid machine.pages
  shelved : Shelved machine.manager
  wired : Wired (supply.Used machine.pages) machine.manager.tree

/-- Every table stays, with the entries that were present, and new tables lie in pages that
    nobody used. Nothing is written to memory. -/
structure Extends (supply : Supply α) (machine machine' : Machine α) : Prop where
  coherent : Coherent supply machine'
  memory : machine'.memory = machine.memory
  cr3 : machine'.cr3 = machine.cr3
  initialized : machine'.manager.initialized = machine.manager.initialized
  active : machine'.manager.active = machine.manager.active
  used : ∀ page, supply.Used machine.pages page → supply.Used machine'.pages page
  kept : ∀ {path page}, machine.manager.tree path = some page →
    ∃ page', machine'.manager.tree path = some page' ∧ page'.physAddr = page.physAddr ∧
      ∀ index, isPresent (page.entries index) → page'.entries index = page.entries index
  fresh : ∀ {path page}, machine'.manager.tree path = some page →
    (machine.manager.tree path).isSome ∨ ¬supply.Used machine.pages page.physAddr

theorem Extends.refl (coherent : Coherent supply machine) : Extends supply machine machine where
  coherent := coherent
  memory := rfl
  cr3 := rfl
  initialized := rfl
  active := rfl
  used := fun _ isUsed => isUsed
  kept := fun found => ⟨_, found, rfl, fun _ _ => rfl⟩
  fresh := fun found => .inl (by rw [found]; rfl)

theorem Extends.trans (first : Extends supply machine machine')
    (second : Extends supply machine' machine'') : Extends supply machine machine'' where
  coherent := second.coherent
  memory := second.memory.trans first.memory
  cr3 := second.cr3.trans first.cr3
  initialized := second.initialized.trans first.initialized
  active := second.active.trans first.active
  used := fun page isUsed => second.used page (first.used page isUsed)
  kept := by
    intro path page found
    obtain ⟨page', found', same', entries'⟩ := first.kept found
    obtain ⟨page'', found'', same'', entries''⟩ := second.kept found'
    refine ⟨page'', found'', same''.trans same', fun index present => ?_⟩
    rw [← entries' index present]
    exact entries'' index (by rw [entries' index present]; exact present)
  fresh := by
    intro path page'' found''
    rcases second.fresh found'' with before | unused
    · obtain ⟨page', found'⟩ := Option.isSome_iff_exists.mp before
      rcases first.fresh found' with before | unused
      · exact .inl before
      · obtain ⟨page, found, same, -⟩ := second.kept found'
        rw [found, Option.some.injEq] at found''
        rw [← found'', same]
        exact .inr unused
    · exact .inr fun isUsed => unused (first.used _ isUsed)

section

variable {manager' : VirtualMemoryManager} {path : List Index} {index : Index} {phys : Nat}

def Machine.asked (machine : Machine α) : Machine α :=
  { machine with pages := (PageSource.allocatePage machine.pages).2 }

theorem takePage_some (answer : (PageSource.allocatePage machine.pages).1 = some phys) :
    takePage.run machine = .ok phys machine.asked := by
  change (orFail (PageSource.allocatePage machine.pages).1 VmError.outOfPhysicalPages).run
    machine.asked = _
  rw [answer]
  rfl

theorem takePage_none (answer : (PageSource.allocatePage machine.pages).1 = none) :
    takePage.run machine = .error .outOfPhysicalPages machine.asked := by
  change (orFail (PageSource.allocatePage machine.pages).1 VmError.outOfPhysicalPages).run
    machine.asked = _
  rw [answer]
  rfl

theorem of_takePage (run : takePage.run machine = .ok phys machine') :
    (PageSource.allocatePage machine.pages).1 = some phys ∧ machine' = machine.asked := by
  cases answer : (PageSource.allocatePage machine.pages).1 with
  | none =>
    rw [takePage_none answer] at run
    cases run
  | some page =>
    rw [takePage_some answer] at run
    cases run
    exact ⟨rfl, rfl⟩

theorem Coherent.asked (coherent : Coherent supply machine) :
    Extends supply machine machine.asked where
  coherent :=
    { valid := supply.valid coherent.valid
      shelved := coherent.shelved
      wired := coherent.wired.mono fun _ isUsed => supply.keeps coherent.valid isUsed }
  memory := rfl
  cr3 := rfl
  initialized := rfl
  active := rfl
  used := fun _ isUsed => supply.keeps coherent.valid isUsed
  kept := fun found => ⟨_, found, rfl, fun _ _ => rfl⟩
  fresh := fun found => .inl (by rw [show machine.manager.tree _ = _ from found]; rfl)

/-- A table made in a page that was just handed out. -/
theorem Coherent.create (coherent : Coherent supply machine)
    (answer : (PageSource.allocatePage machine.pages).1 = some phys)
    (above : (machine.manager.tree path).isSome) (inner : path.length < 3)
    (vacant : machine.manager.tree (path ++ [index]) = none)
    (creates : Creates path index phys machine.manager manager')
    (initialized : manager'.initialized = machine.manager.initialized)
    (active : manager'.active = machine.manager.active) :
    Extends supply machine { machine.asked with manager := manager' } := by
  obtain ⟨parent, isParent⟩ := Option.isSome_iff_exists.mp above
  obtain ⟨frame, unused, isUsed⟩ := supply.fresh coherent.valid answer
  have grown := creates.tree vacant
  have keeps : ∀ page, supply.Used machine.pages page →
      supply.Used machine.asked.pages page := fun _ isUsed => supply.keeps coherent.valid isUsed
  refine ⟨⟨supply.valid coherent.valid, creates.shelved vacant coherent.shelved, ?_⟩, rfl, rfl,
    initialized, active, keeps, ?_, ?_⟩
  · change Wired _ manager'.tree
    rw [grown]
    exact coherent.wired.link isParent inner vacant frame unused isUsed keeps
  · intro place page found
    have old : place ≠ path ++ [index] := by
      rintro rfl
      rw [vacant] at found
      cases found
    change ∃ page', manager'.tree place = some page' ∧ _
    rw [grown, Wired.link_old old, found]
    refine ⟨_, rfl, ?_, ?_⟩
    · split <;> rfl
    · intro i present
      split
      · rename_i isPath
        refine if_neg ?_
        rintro rfl
        -- The entry was empty: its table was not there.
        have empty := coherent.wired.inner found (isPath ▸ inner) i
        rw [isPath, vacant] at empty
        rw [empty] at present
        cases present
      · rfl
  · intro place page found
    change manager'.tree place = some page at found
    rw [grown] at found
    rcases Wired.link_cases found with ⟨-, rfl⟩ | ⟨-, old, was, -⟩
    · exact .inr unused
    · exact .inl (by rw [was]; rfl)

/-- A leaf entered where none was. -/
theorem Coherent.enter {page : PageTablePage} {writable executable : Bool}
    (coherent : Coherent supply machine) (found : machine.manager.tree path = some page)
    (last : path.length = 3) (absent : isPresent (page.entries index) = false)
    (sets : Sets path index (makeLeafEntry phys writable executable) machine.manager manager')
    (initialized : manager'.initialized = machine.manager.initialized)
    (active : manager'.active = machine.manager.active) :
    Extends supply machine { machine with manager := manager' } := by
  have grown := sets.tree
  refine ⟨⟨coherent.valid, sets.shelved coherent.shelved, ?_⟩, rfl, rfl, initialized, active,
    fun _ isUsed => isUsed, ?_, ?_⟩
  · change Wired _ manager'.tree
    rw [grown]
    exact coherent.wired.enter last
  · intro place old was
    change ∃ page', manager'.tree place = some page' ∧ _
    rw [grown]
    by_cases isPath : place = path
    · rw [isPath, found, Option.some.injEq] at was
      rw [isPath, TableTree.enter, if_pos rfl, found, ← was]
      refine ⟨_, rfl, rfl, fun i present => if_neg ?_⟩
      rintro rfl
      rw [absent] at present
      cases present
    · rw [Wired.enter_other isPath]
      exact ⟨old, was, rfl, fun _ _ => rfl⟩
  · intro place page found
    change manager'.tree place = some page at found
    rw [grown] at found
    obtain ⟨old, was, -⟩ := Wired.enter_cases found
    exact .inl (by rw [was]; rfl)

end

end

end CodexOS.Vm
