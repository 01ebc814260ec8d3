import CodexOS.Vm.Manager

/-! # Page tables as a tree

The tables of an address space by the indices that lead to them. In a wired tree
every entry of an inner table names the table below it, so that going from table to
table by physical address is the same as looking the tables up by their indices. The
leaves are a partial map from page numbers to page frames.
-/

namespace CodexOS.Vm

section

/-- Bits 12 to 47 of a virtual address. -/
abbrev PageNumber := Fin (2 ^ 36)

def pageNumber (virt : Nat) : PageNumber :=
  Fin.ofNat _ (virt / pageSize)

/-- What one page is bound to. -/
structure Binding where
  page : Nat
  writable : Bool
  executable : Bool
  deriving DecidableEq

/-- What an address space is for: pages bound to page frames, with rights. -/
abbrev PageMap := PageNumber → Option Binding

def PageMap.bind (map : PageMap) (number : PageNumber) (binding : Binding) : PageMap :=
  Function.update map number (some binding)

/-- What the processor should see of a map. -/
def PageMap.translate (map : PageMap) (virt : Nat) : Option Nat :=
  (map (pageNumber virt)).map fun binding => binding.page + virt % pageSize

def PageNumber.indices (number : PageNumber) : Indices :=
  splitIndices (number * pageSize)

theorem indices_pageNumber (virt : Nat) : (pageNumber virt).indices = splitIndices virt := by
  unfold PageNumber.indices splitIndices pageNumber pageSize
  simp only [Indices.mk.injEq, Fin.ext_iff, Fin.ofNat]
  omega

theorem PageNumber.indices_injective {a b : PageNumber} (same : a.indices = b.indices) : a = b := by
  unfold PageNumber.indices splitIndices pageSize at same
  simp only [Indices.mk.injEq, Fin.ext_iff, Fin.ofNat] at same ⊢
  omega

end

def bindingOf (entry : Nat) : Option Binding :=
  if isPresent entry then
    some
      { page := entryAddress entry
        writable := has entry entryWritable
        executable := !has entry entryNoExecute }
  else none

@[simp] theorem bindingOf_zero : bindingOf 0 = none := by
  decide

@[simp] theorem bindingOf_makeLeafEntry (phys : Nat) (writable executable : Bool) :
    bindingOf (makeLeafEntry phys writable executable) =
      some { page := entryAddress phys, writable, executable } := by
  simp [bindingOf]

/-- The tables of an address space; the path to a table is the indices that lead to it, and the
    root has the empty path. -/
abbrev TableTree := List Index → Option PageTablePage

namespace TableTree

/-- Hang an empty table below the one at `path`. -/
def link (tree : TableTree) (path : List Index) (index : Index) (phys : Nat) : TableTree :=
  fun place =>
    if place = path ++ [index] then some (.new phys)
    else if place = path then (tree path).map (·.setEntry index (makeTableEntry phys))
    else tree place

def enter (tree : TableTree) (path : List Index) (index : Index) (entry : Nat) : TableTree :=
  fun place =>
    if place = path then (tree path).map (·.setEntry index entry) else tree place

/-- The path of the table that holds the leaf of a page. -/
def leafPath (indices : Indices) : List Index :=
  [indices.l4, indices.l3, indices.l2]

def pageMap (tree : TableTree) : PageMap := fun number =>
  (tree (leafPath number.indices)).bind fun page => bindingOf (page.entries number.indices.l1)

end TableTree

/-- The entries of each table lead to the tables below it, and to no others. -/
structure Wired (used : Nat → Prop) (tree : TableTree) : Prop where
  root : (tree []).isSome
  short : ∀ {path page}, tree path = some page → path.length ≤ 3
  frame : ∀ {path page}, tree path = some page → IsFrame page.physAddr ∧ used page.physAddr
  apart : ∀ {path path' page page'}, tree path = some page → tree path' = some page' →
    page.physAddr = page'.physAddr → path = path'
  parent : ∀ {path index}, (tree (path ++ [index])).isSome → (tree path).isSome
  inner : ∀ {path page}, tree path = some page → path.length < 3 → ∀ index,
    page.entries index =
      ((tree (path ++ [index])).map fun child => makeTableEntry child.physAddr).getD 0
  leaf : ∀ {path page}, tree path = some page → path.length = 3 → ∀ index,
    page.entries index = 0 ∨
      ∃ phys writable executable, page.entries index = makeLeafEntry phys writable executable

namespace Wired

open TableTree

variable {used : Nat → Prop} {tree : TableTree} {path : List Index} {page : PageTablePage}
  {index : Index} {phys : Nat}

section

variable (wired : Wired used tree)

include wired

theorem inner_cases (found : tree path = some page) (inner : path.length < 3) (index : Index) :
    (tree (path ++ [index]) = none ∧ page.entries index = 0) ∨
      ∃ child, tree (path ++ [index]) = some child ∧
        page.entries index = makeTableEntry child.physAddr ∧
        entryAddress (makeTableEntry child.physAddr) = child.physAddr := by
  have entry := wired.inner found inner index
  cases below : tree (path ++ [index]) with
  | none => exact .inl ⟨rfl, by rw [entry, below]; rfl⟩
  | some child =>
    refine .inr ⟨child, rfl, by rw [entry, below]; rfl, ?_⟩
    exact (wired.frame below).1.entryAddress_makeTableEntry

theorem none_below (vacant : tree path = none) (index : Index) : tree (path ++ [index]) = none := by
  rw [← Option.not_isSome_iff_eq_none]
  intro isSome
  have above := wired.parent isSome
  rw [vacant] at above
  cases above

theorem entry_lt (found : tree path = some page) (index : Index) : page.entries index < 2 ^ 64 := by
  rcases Nat.lt_or_ge path.length 3 with inner | last
  · rcases wired.inner_cases found inner index with ⟨-, empty⟩ | ⟨child, -, entry, -⟩
    · rw [empty]
      decide
    · rw [entry]
      exact makeTableEntry_lt _
  · rcases wired.leaf found (Nat.le_antisymm (wired.short found) last) index with
      empty | ⟨phys, writable, executable, entry⟩
    · rw [empty]
      decide
    · rw [entry]
      exact makeLeafEntry_lt _ _ _

theorem mono (more : ∀ p, used p → used' p) : Wired used' tree :=
  { wired with frame := fun found => ⟨(wired.frame found).1, more _ (wired.frame found).2⟩ }

end

theorem new (frame : IsFrame phys) (isUsed : used phys) :
    Wired used fun path => if path = [] then some (.new phys) else none where
  root := rfl
  short := by
    intro path page found
    rw [Option.ite_none_right_eq_some] at found
    rw [found.1]
    decide
  frame := by
    intro path page found
    rw [Option.ite_none_right_eq_some, Option.some.injEq] at found
    rw [← found.2]
    exact ⟨frame, isUsed⟩
  apart := by
    intro path path' page page' found found' _
    rw [Option.ite_none_right_eq_some] at found found'
    rw [found.1, found'.1]
  parent := by
    intro path index isSome
    rw [if_neg (by simp)] at isSome
    cases isSome
  inner := by
    intro path page found _ index
    rw [Option.ite_none_right_eq_some, Option.some.injEq] at found
    rw [← found.2, if_neg (by simp)]
    rfl
  leaf := by
    intro path page found last
    rw [Option.ite_none_right_eq_some] at found
    rw [found.1] at last
    cases last

section

theorem link_new : tree.link path index phys (path ++ [index]) = some (.new phys) :=
  if_pos rfl

theorem link_old (old : place ≠ path ++ [index]) :
    tree.link path index phys place =
      (tree place).map fun page =>
        if place = path then page.setEntry index (makeTableEntry phys) else page := by
  rw [TableTree.link, if_neg old]
  by_cases isParent : place = path
  · rw [if_pos isParent, isParent]
    simp
  · simp [isParent]

/-- A table of the new tree is the new one or an old one with the same page. -/
theorem link_cases (found : tree.link path index phys place = some page) :
    (place = path ++ [index] ∧ page = .new phys) ∨
      place ≠ path ++ [index] ∧ ∃ old, tree place = some old ∧
        page = if place = path then old.setEntry index (makeTableEntry phys) else old := by
  by_cases isNew : place = path ++ [index]
  · rw [isNew, link_new, Option.some.injEq] at found
    exact .inl ⟨isNew, found.symm⟩
  · rw [link_old isNew, Option.map_eq_some_iff] at found
    obtain ⟨old, was, rfl⟩ := found
    exact .inr ⟨isNew, old, was, rfl⟩

theorem link {used' : Nat → Prop} {parent : PageTablePage} (wired : Wired used tree)
    (above : tree path = some parent) (inner : path.length < 3)
    (vacant : tree (path ++ [index]) = none) (frame : IsFrame phys) (fresh : ¬used phys)
    (isUsed : used' phys) (more : ∀ p, used p → used' p) :
    Wired used' (tree.link path index phys) := by
  have physAddr_ite : ∀ {place : List Index} {old : PageTablePage},
      (if place = path then old.setEntry index (makeTableEntry phys) else old).physAddr =
        old.physAddr := by
    intro place old
    split <;> rfl
  have notFresh : ∀ {place : List Index} {old : PageTablePage}, tree place = some old →
      old.physAddr ≠ phys := by
    intro place old was same
    exact fresh (same ▸ (wired.frame was).2)
  constructor
  case root =>
    rw [link_old (by simp), Option.isSome_map]
    exact wired.root
  case short =>
    intro place page found
    rcases link_cases found with ⟨rfl, -⟩ | ⟨-, old, was, -⟩
    · rw [List.length_append]
      exact inner
    · exact wired.short was
  case frame =>
    intro place page found
    rcases link_cases found with ⟨-, rfl⟩ | ⟨-, old, was, rfl⟩
    · exact ⟨frame, isUsed⟩
    · rw [physAddr_ite]
      exact ⟨(wired.frame was).1, more _ (wired.frame was).2⟩
  case apart =>
    intro place place' page page' found found' same
    rcases link_cases found with ⟨rfl, rfl⟩ | ⟨-, old, was, rfl⟩ <;>
      rcases link_cases found' with ⟨rfl, rfl⟩ | ⟨-, old', was', rfl⟩
    · rfl
    · rw [physAddr_ite] at same
      exact absurd same.symm (notFresh was')
    · rw [physAddr_ite] at same
      exact absurd same (notFresh was)
    · rw [physAddr_ite, physAddr_ite] at same
      exact wired.apart was was' same
  case parent =>
    intro place i isSome
    have isParent : (tree place).isSome := by
      by_cases isNew : place ++ [i] = path ++ [index]
      · rw [(List.append_inj' isNew rfl).1, above]
        rfl
      · rw [link_old isNew, Option.isSome_map] at isSome
        exact wired.parent isSome
    by_cases isNew : place = path ++ [index]
    · rw [isNew, link_new]
      rfl
    · rw [link_old isNew, Option.isSome_map]
      exact isParent
  case inner =>
    intro place page found isInner i
    rcases link_cases found with ⟨rfl, rfl⟩ | ⟨-, old, was, rfl⟩
    · -- What hangs below the new table would have had a parent before.
      rw [link_old (by simp), wired.none_below vacant]
      rfl
    · by_cases isNew : place ++ [i] = path ++ [index]
      · obtain ⟨rfl, sameIndex⟩ := List.append_inj' isNew rfl
        cases sameIndex
        rw [if_pos rfl, link_new]
        simp [PageTablePage.setEntry, PageTablePage.new]
      · have kept : (if place = path then old.setEntry index (makeTableEntry phys)
            else old).entries i = old.entries i := by
          split
          · rename_i same
            have other : i ≠ index := by
              rintro rfl
              exact isNew (by rw [same])
            exact if_neg other
          · rfl
        rw [kept, wired.inner was isInner]
        cases was' : tree (place ++ [i]) with
        | none => rw [link_old isNew, was']; rfl
        | some child =>
          rw [link_old isNew, was', Option.map_some, Option.map_some, Option.map_some,
            physAddr_ite]
  case leaf =>
    intro place page found last i
    rcases link_cases found with ⟨rfl, rfl⟩ | ⟨-, old, was, rfl⟩
    · exact .inl rfl
    · rw [if_neg (by rintro rfl; omega)]
      exact wired.leaf was last i

theorem pageMap_link (vacant : tree (path ++ [index]) = none) (inner : path.length < 3) : (tree.link path index phys).pageMap = tree.pageMap := by
  funext number
  unfold pageMap
  by_cases isNew : leafPath number.indices = path ++ [index]
  · rw [isNew, link_new, vacant]
    simp [PageTablePage.new]
  · have elsewhere : leafPath number.indices ≠ path := by
      rintro rfl
      exact Nat.lt_irrefl 3 inner
    rw [link_old isNew]
    simp [elsewhere]

end

section

variable {writable executable : Bool}

theorem enter_cases (found : tree.enter path index entry place = some page) :
    ∃ old, tree place = some old ∧ page = if place = path then old.setEntry index entry else old := by
  unfold TableTree.enter at found
  split at found
  · rename_i same
    rw [Option.map_eq_some_iff] at found
    obtain ⟨old, was, rfl⟩ := found
    exact ⟨old, by rw [same, was], by rw [if_pos same]⟩
  · rename_i other
    exact ⟨page, found, by rw [if_neg other]⟩

theorem enter_isSome :
    (tree.enter path index entry place).isSome = (tree place).isSome := by
  unfold TableTree.enter
  split
  · rename_i same
    rw [Option.isSome_map, same]
  · rfl

theorem enter_other (other : place ≠ path) :
    tree.enter path index entry place = tree place :=
  if_neg other

theorem enter (wired : Wired used tree) (last : path.length = 3) :
    Wired used (tree.enter path index (makeLeafEntry phys writable executable)) := by
  have physAddr_ite : ∀ {place : List Index} {old : PageTablePage} {entry : Nat},
      (if place = path then old.setEntry index entry else old).physAddr = old.physAddr := by
    intro place old entry
    split <;> rfl
  constructor
  case root =>
    rw [enter_isSome]
    exact wired.root
  case short =>
    intro place page found
    obtain ⟨old, was, -⟩ := enter_cases found
    exact wired.short was
  case frame =>
    intro place page found
    obtain ⟨old, was, rfl⟩ := enter_cases found
    rw [physAddr_ite]
    exact wired.frame was
  case apart =>
    intro place place' page page' found found' same
    obtain ⟨old, was, rfl⟩ := enter_cases found
    obtain ⟨old', was', rfl⟩ := enter_cases found'
    rw [physAddr_ite, physAddr_ite] at same
    exact wired.apart was was' same
  case parent =>
    intro place i isSome
    rw [enter_isSome] at isSome ⊢
    exact wired.parent isSome
  case inner =>
    intro place page found isInner i
    obtain ⟨old, was, rfl⟩ := enter_cases found
    rw [if_neg (by rintro rfl; omega), wired.inner was isInner]
    unfold TableTree.enter
    split
    · rename_i same
      rw [same, Option.map_map]
      rfl
    · rfl
  case leaf =>
    intro place page found isLast i
    obtain ⟨old, was, rfl⟩ := enter_cases found
    split
    · by_cases same : i = index
      · exact .inr ⟨phys, writable, executable, if_pos same⟩
      · rw [show (old.setEntry index _).entries i = old.entries i from if_neg same]
        exact wired.leaf was isLast i
    · exact wired.leaf was isLast i

theorem pageMap_enter {number : PageNumber} (found : tree (leafPath number.indices) = some page) :
    (tree.enter (leafPath number.indices) number.indices.l1
        (makeLeafEntry phys writable executable)).pageMap =
      tree.pageMap.bind number { page := entryAddress phys, writable, executable } := by
  funext other
  unfold PageMap.bind
  by_cases same : other = number
  · rw [same, Function.update_self, pageMap, TableTree.enter, if_pos rfl, found]
    simp [PageTablePage.setEntry]
  · rw [Function.update_of_ne same, pageMap, pageMap]
    by_cases samePath : leafPath other.indices = leafPath number.indices
    · have otherSlot : other.indices.l1 ≠ number.indices.l1 := by
        intro sameSlot
        simp only [leafPath, List.cons.injEq, and_true] at samePath
        apply same
        apply PageNumber.indices_injective
        cases h : other.indices
        cases h' : number.indices
        simp_all
      rw [TableTree.enter, if_pos samePath, samePath, found]
      simp [PageTablePage.setEntry, otherSlot]
    · rw [enter_other samePath]

end

section

/-- The tables lie in memory as they are in the tree. -/
def InMemory (memory : ByteMemory) (tree : TableTree) : Prop :=
  ∀ {path page}, tree path = some page → ∀ index,
    readEntry memory page.physAddr index = page.entries index

/-- What the processor makes of a binding of the manager, which never sets the user flag. -/
def accessTo (virt : Nat) (binding : Binding) : Access where
  phys := binding.page + virt % pageSize
  writable := binding.writable
  executable := binding.executable
  user := false

/-- Along a wired tree in memory the processor goes down to the table below, or stops. -/
theorem walkFrom_inner (wired : Wired used tree) (inMemory : InMemory memory tree)
    (found : tree path = some page) (inner : path.length < 3) (notLast : bits ≠ 12) :
    walkFrom memory virt above page.physAddr ((index, bits) :: below) =
      (tree (path ++ [index])).bind fun child =>
        walkFrom memory virt (above ++ [makeTableEntry child.physAddr]) child.physAddr below := by
  have read := inMemory found index
  rcases wired.inner_cases found inner index with ⟨vacant, entry⟩ | ⟨child, isChild, entry, address⟩
  · rw [vacant, walkFrom_absent (by rw [read, entry, isPresent_zero])]
    rfl
  · rw [entry] at read
    rw [isChild, walkFrom_table (by rw [read, isPresent_makeTableEntry])
      (by simp [read, mapsPage, notLast]), read, address]
    rfl

theorem walkFrom_leaf (wired : Wired used tree) (inMemory : InMemory memory tree)
    (found : tree path = some page) (last : path.length = 3) (virt l3 l2 l1 : Nat) :
    walkFrom memory virt [makeTableEntry l3, makeTableEntry l2, makeTableEntry l1] page.physAddr
        [(index, 12)] =
      (bindingOf (page.entries index)).map (accessTo virt) := by
  have read := inMemory found index
  rcases wired.leaf found last index with empty | ⟨phys, writable, executable, entry⟩
  · rw [walkFrom_absent (by rw [read, empty, isPresent_zero]), empty, bindingOf_zero]
    rfl
  · rw [entry] at read
    have whole : entryAddress phys / 2 ^ 12 * 2 ^ 12 = entryAddress phys :=
      Nat.div_mul_cancel (Nat.dvd_of_mod_eq_zero (isFrame_entryAddress phys).1)
    rw [walkFrom_page (by rw [read, isPresent_makeLeafEntry]) (by rfl), read, entry,
      bindingOf_makeLeafEntry, entryAddress_makeLeafEntry, whole]
    simp [accessOf, accessTo, pageSize]

/-- The processor goes from table to table by their addresses, and comes to the leaf that the
    tree has for the page. -/
theorem hardwareWalk_eq {memory : ByteMemory} {root : PageTablePage} (wired : Wired used tree)
    (inMemory : InMemory memory tree) (atRoot : tree [] = some root) (virt : Nat) :
    hardwareWalk memory root.physAddr virt =
      (tree.pageMap (pageNumber virt)).map (accessTo virt) := by
  have rootAddress : entryAddress root.physAddr = root.physAddr := (wired.frame atRoot).1.and_mask
  rw [hardwareWalk, walkLevels, rootAddress,
    wired.walkFrom_inner inMemory atRoot (by decide) (by decide), pageMap, indices_pageNumber,
    leafPath]
  cases atL3 : tree ([] ++ [(splitIndices virt).l4]) with
  | none =>
    have nothing := wired.none_below (wired.none_below atL3 (splitIndices virt).l3)
      (splitIndices virt).l2
    simp only [List.nil_append, List.cons_append] at nothing
    rw [nothing]
    rfl
  | some l3Table =>
    rw [Option.bind_some, wired.walkFrom_inner inMemory atL3 (by simp) (by decide)]
    cases atL2 : tree ([] ++ [(splitIndices virt).l4] ++ [(splitIndices virt).l3]) with
    | none =>
      have nothing := wired.none_below atL2 (splitIndices virt).l2
      simp only [List.nil_append, List.cons_append] at nothing
      rw [nothing]
      rfl
    | some l2Table =>
      rw [Option.bind_some, wired.walkFrom_inner inMemory atL2 (by simp) (by decide)]
      simp only [List.nil_append, List.cons_append]
      cases atL1 : tree [(splitIndices virt).l4, (splitIndices virt).l3, (splitIndices virt).l2]
        with
      | none => rfl
      | some l1Table =>
        rw [Option.bind_some, Option.bind_some]
        exact wired.walkFrom_leaf inMemory atL1 rfl virt _ _ _

end

end Wired

end CodexOS.Vm
