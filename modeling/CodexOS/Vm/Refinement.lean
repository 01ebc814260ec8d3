import CodexOS.Vm.Mapping

/-! # The manager as a map of pages

Over any sequence of operations, whatever their outcome, the tables of the manager
stand for a map to which every operation only adds bindings. The manager's own walk,
and after a write-back the walk of the processor, give what the map says.
-/

namespace CodexOS.Vm

open Effect VirtualMemoryManager TableTree Word64

section

variable {used : Nat → Prop} {manager : VirtualMemoryManager}

theorem findTable_eq (shelved : Shelved manager) (wired : Wired used manager.tree)
    (found : manager.tree path = some page) :
    findTable (manager.level path.length) page.physAddr = some page := by
  have mem := shelved.tree_iff.mp found
  cases result : (manager.level path.length).find? fun table =>
      table.page.physAddr = page.physAddr with
  | none =>
    rw [List.find?_eq_none] at result
    exact absurd (decide_eq_true rfl) (result _ mem)
  | some table =>
    have same : table.page.physAddr = page.physAddr := by simpa using List.find?_some result
    have inLevel := List.mem_of_find?_eq_some result
    have isLength := shelved.length _ table inLevel
    have found' : manager.tree table.key = some table.page :=
      shelved.tree_iff.mpr (by rw [isLength]; exact inLevel)
    rw [wired.apart found' found same, found, Option.some.injEq] at found'
    rw [findTable, result, found']
    rfl

/-- The manager's walk goes by addresses and comes to the leaf the tree has for the page. -/
theorem walk_l1Entry (shelved : Shelved manager) (wired : Wired used manager.tree) (virt : Nat) :
    (manager.walk virt).l1Entry.bind bindingOf = manager.tree.pageMap (pageNumber virt) := by
  have atRoot : manager.tree [] = some manager.root := rfl
  simp only [walk, pageMap, indices_pageNumber, leafPath]
  rcases wired.inner_cases atRoot (by decide) (splitIndices virt).l4 with
    ⟨none4, entry4⟩ | ⟨l3Table, some4, entry4, address4⟩
  · have none2 := wired.none_below (wired.none_below none4 (splitIndices virt).l3)
      (splitIndices virt).l2
    simp only [List.nil_append, List.cons_append] at none2
    simp [entry4, none2]
  simp only [List.nil_append] at some4
  have find4 : manager.findL3 l3Table.physAddr = some l3Table := findTable_eq shelved wired some4
  rcases wired.inner_cases some4 (by simp) (splitIndices virt).l3 with
    ⟨none3, entry3⟩ | ⟨l2Table, some3, entry3, address3⟩
  · have none2 := wired.none_below none3 (splitIndices virt).l2
    simp only [List.nil_append, List.cons_append] at none2
    simp [entry4, address4, find4, entry3, none2]
  simp only [List.nil_append, List.cons_append] at some3
  have find3 : manager.findL2 l2Table.physAddr = some l2Table := findTable_eq shelved wired some3
  rcases wired.inner_cases some3 (by simp) (splitIndices virt).l2 with
    ⟨none2, entry2⟩ | ⟨l1Table, some2, entry2, address2⟩
  · simp only [List.nil_append, List.cons_append] at none2
    simp [entry4, address4, find4, entry3, address3, find3, entry2, none2]
  simp only [List.nil_append, List.cons_append] at some2
  have find2 : manager.findL1 l1Table.physAddr = some l1Table := findTable_eq shelved wired some2
  simp only [entry4, isPresent_makeTableEntry, address4, find4, entry3, address3, find3, entry2,
    address2, find2, some2, Bool.not_true, Bool.false_eq_true, if_false, Option.bind_some]
  split
  · rfl
  · rename_i absent
    rw [bindingOf, if_neg absent]
    rfl

theorem walk_phys (manager : VirtualMemoryManager) (virt : Nat) :
    (manager.walk virt).phys =
      ((manager.walk virt).l1Entry.bind bindingOf).map (·.page + virt % pageSize) := by
  have noSaturation : ∀ entry, saturatingAdd (entryAddress entry) (virt % pageSize) =
      entryAddress entry + virt % pageSize := by
    intro entry
    have small := (isFrame_entryAddress entry).2
    apply saturatingAdd_of_lt
    simp only [pageSize, size]
    omega
  unfold walk
  dsimp only
  repeat' split
  all_goals simp_all [bindingOf]

theorem translate_eq (shelved : Shelved manager) (wired : Wired used manager.tree) (virt : Nat) :
    manager.translate virt = manager.tree.pageMap.translate virt := by
  rw [VirtualMemoryManager.translate, walk_phys, walk_l1Entry shelved wired]
  rfl

end

section

theorem readEntry_writePageTable (frame : IsFrame page.physAddr) (frame' : IsFrame table)
    (small : ∀ i, page.entries i < 2 ^ 64) (index : Index) :
    readEntry (writePageTable memory page) table index =
      if table = page.physAddr then page.entries index else readEntry memory table index := by
  unfold readEntry writePageTable
  split
  · rename_i same
    rw [same]
    exact ByteMemory.loadWord_storeWords (by rw [List.getElem?_ofFn, dif_pos index.isLt])
      (small index)
  · rename_i other
    refine ByteMemory.loadWord_congr fun a low high => ByteMemory.storeWords_of_outside ?_
    rw [List.length_ofFn]
    obtain ⟨aligned, -⟩ := frame
    obtain ⟨aligned', -⟩ := frame'
    simp only [pageSize] at aligned aligned'
    omega

/-- Writing tables one after the other leaves an entry in memory that was there or is written,
    if all copies of its table have it. -/
theorem readEntry_writeAll {memory : ByteMemory} {pages : List PageTablePage} {table : Nat}
    {index : Index} (frame : IsFrame table)
    (frames : ∀ page ∈ pages, IsFrame page.physAddr ∧ ∀ i, page.entries i < 2 ^ 64)
    (copies : ∀ page ∈ pages, page.physAddr = table → page.entries index = entry)
    (held : readEntry memory table index = entry ∨ ∃ page ∈ pages, page.physAddr = table) :
    readEntry (pages.foldl writePageTable memory) table index = entry := by
  induction pages generalizing memory with
  | nil => simpa using held
  | cons page pages ih =>
    rw [List.forall_mem_cons] at frames copies
    refine ih frames.2 copies.2 ?_
    rw [readEntry_writePageTable frames.1.1 frame frames.1.2]
    split
    · exact .inl (copies.1 ‹_ = _›.symm)
    · simpa [‹¬_›, eq_comm] using held

theorem mem_tablePages (shelved : Shelved manager) :
    page ∈ manager.tablePages ↔ ∃ path, manager.tree path = some page := by
  simp only [tablePages, List.mem_cons, List.mem_map, List.mem_append, or_assoc]
  constructor
  · rintro (rfl | ⟨table, mem, rfl⟩)
    · exact ⟨[], rfl⟩
    · refine ⟨table.key, shelved.tree_iff.mpr ?_⟩
      rcases mem with inL3 | inL2 | inL1
      · rw [shelved.length 1 table inL3]
        exact inL3
      · rw [shelved.length 2 table inL2]
        exact inL2
      · rw [shelved.length 3 table inL1]
        exact inL1
  · rintro ⟨path, found⟩
    have mem := shelved.tree_iff.mp found
    match level : path.length, mem with
    | 0, mem => exact .inl (congrArg Table.page (List.mem_singleton.mp mem))
    | 1, mem => exact .inr ⟨_, .inl mem, rfl⟩
    | 2, mem => exact .inr ⟨_, .inr (.inl mem), rfl⟩
    | 3, mem => exact .inr ⟨_, .inr (.inr mem), rfl⟩
    | n + 4, mem => cases mem

end

section

variable {α : Type} [PageSource α] {supply : Supply α} {machine : Machine α}

/-- The machine after a write-back of all tables. -/
def Machine.synced (machine : Machine α) : Machine α :=
  { machine with
    memory := machine.manager.tablePages.foldl writePageTable machine.memory
    manager := { machine.manager with committed := true } }

omit [PageSource α] in
theorem syncPages_ok (initialized : machine.manager.initialized = true) :
    syncPages.run machine = .ok machine.manager.root.physAddr machine.synced := by
  change EStateM.run (if !machine.manager.initialized then _ else _) machine = _
  rw [initialized]
  rfl

omit [PageSource α] in
theorem syncPages_error (initialized : machine.manager.initialized = false) :
    syncPages.run machine = .error .notInitialized machine := by
  change EStateM.run (if !machine.manager.initialized then _ else _) machine = _
  rw [initialized]
  rfl

section

variable (coherent : Coherent supply machine)

include coherent

theorem Coherent.synced : Coherent supply machine.synced :=
  ⟨coherent.valid, ⟨coherent.shelved.distinct, coherent.shelved.length⟩, coherent.wired⟩

theorem Coherent.tablePages : ∀ page ∈ machine.manager.tablePages,
    IsFrame page.physAddr ∧ ∀ i, page.entries i < 2 ^ 64 := by
  intro page mem
  obtain ⟨path, found⟩ := (mem_tablePages coherent.shelved).mp mem
  exact ⟨(coherent.wired.frame found).1, coherent.wired.entry_lt found⟩

theorem Coherent.inMemory : Wired.InMemory machine.synced.memory machine.manager.tree := by
  intro path page found index
  refine readEntry_writeAll (coherent.wired.frame found).1 coherent.tablePages ?_
    (.inr ⟨page, (mem_tablePages coherent.shelved).mpr ⟨path, found⟩, rfl⟩)
  intro other mem same
  obtain ⟨path', found'⟩ := (mem_tablePages coherent.shelved).mp mem
  rw [coherent.wired.apart found' found same, found, Option.some.injEq] at found'
  rw [found']

/-- The manager of a coherent machine has taken abstract steps, each of which binds a page. -/
structure Refined (supply : Supply α) (machine machine' : Machine α) : Prop where
  coherent : Coherent supply machine'
  adds : Relation.ReflTransGen PageMap.Adds machine.pageMap machine'.pageMap
  initialized : machine'.manager.initialized = machine.manager.initialized
  root : machine'.manager.root.physAddr = machine.manager.root.physAddr

def RefinesTo (supply : Supply α) (machine machine' : Machine α) : Prop :=
  Coherent supply machine → Refined supply machine machine'

theorem Refined.refl : Refined supply machine machine :=
  ⟨coherent, .refl, rfl, rfl⟩

end

instance : Std.Refl (RefinesTo supply) where
  refl _ := Refined.refl

instance : IsTrans (Machine α) (RefinesTo supply) where
  trans _ _ _ first second coherent := by
    have before := first coherent
    have behind := second before.coherent
    exact ⟨behind.coherent, before.adds.trans behind.adds,
      behind.initialized.trans before.initialized, behind.root.trans before.root⟩

theorem Adding.refining (adding : Adding supply x) :
    Moves (RefinesTo supply) x := by
  refine adding.mono fun machine machine' adds coherent => ?_
  obtain ⟨extended, added⟩ := adds coherent
  have atRoot : machine.manager.tree [] = some machine.manager.root := rfl
  obtain ⟨root, isRoot, same, -⟩ := extended.kept atRoot
  cases isRoot
  exact ⟨extended.coherent, added, extended.initialized, same⟩

theorem refining_syncPages : Moves (RefinesTo supply) (syncPages : VmM α Nat) := by
  intro machine coherent
  cases initialized : machine.manager.initialized with
  | true =>
    rw [after_ok (syncPages_ok initialized)]
    exact ⟨coherent.synced, .refl, rfl, rfl⟩
  | false =>
    rw [after_error (syncPages_error initialized)]
    exact .refl coherent

/-- The operations on the tables of a manager that is not in use yet. -/
inductive MapOperation where
  | mapRange (virtStart pageCount : Nat) (writable executable : Bool)
  | mapIdentityRange (start stop : Nat) (writable executable : Bool)
  | mapIdentityRangeExcluding (start stop : Nat) (holes : List (Nat × Nat))
      (writable executable : Bool)
  | mapWindowRange (virtStart physStart stop : Nat) (writable executable : Bool)
  | mapFixedRange (virtStart physStart pageCount : Nat) (writable executable : Bool)
  | syncPages
  deriving DecidableEq

def MapOperation.perform : MapOperation → VmM α Unit
  | mapRange virtStart pageCount writable executable =>
    discard (VirtualMemoryManager.mapRange virtStart pageCount writable executable)
  | mapIdentityRange start stop writable executable =>
    discard (VirtualMemoryManager.mapIdentityRange start stop writable executable)
  | mapIdentityRangeExcluding start stop holes writable executable =>
    discard (VirtualMemoryManager.mapIdentityRangeExcluding start stop holes writable executable)
  | mapWindowRange virtStart physStart stop writable executable =>
    discard (VirtualMemoryManager.mapWindowRange virtStart physStart stop writable executable)
  | mapFixedRange virtStart physStart pageCount writable executable =>
    discard (VirtualMemoryManager.mapFixedRange virtStart physStart pageCount writable executable)
  | syncPages => discard VirtualMemoryManager.syncPages

/-- The machine after a sequence of operations, of which any may have failed. -/
def performAll (machine : Machine α) (operations : List MapOperation) : Machine α :=
  operations.foldl (fun machine operation => after operation.perform machine) machine

section

variable {rel : Machine α → Machine α → Prop} [Std.Refl rel] [IsTrans _ rel]

omit [PageSource α] in
theorem moves_discard (moves : Moves rel x) : Moves rel (discard x) :=
  .bind moves fun _ => .pure _

/-- The operations add pages and write tables back. -/
theorem moves_perform (adding : ∀ {β : Type} {x : VmM α β}, Adding supply x → Moves rel x)
    (sync : Moves rel (syncPages : VmM α Nat)) (operation : MapOperation) :
    Moves rel (operation.perform : VmM α Unit) := by
  cases operation with
  | mapRange =>
    refine moves_discard (.get_bind fun machine => .ite (fun _ => .throw _) fun _ =>
      .ite (fun _ => .throw _) fun _ => .ite (fun _ => .throw _) fun _ => ?_)
    refine .bind (adding (.orFail _ _)) fun rangeBytes =>
      .bind (adding (.orFail _ _)) fun virtEnd => .ite (fun _ => .throw _) fun _ => ?_
    refine .bind (adding (.mapFreshPages _ _ _ _)) fun fresh => ?_
    exact .bind (adding (.recordMapping _)) fun _ =>
      .bind (.bind sync fun _ => .pure _) fun _ => .pure _
  | mapIdentityRange => exact moves_discard (adding (.mapIdentityRange _ _ _ _))
  | mapIdentityRangeExcluding =>
    exact moves_discard (moves_mapIdentityRangeExcluding
      (fun _ _ => adding (.mapIdentityRange _ _ _ _)) _ _ _)
  | mapWindowRange =>
    exact moves_discard (moves_mapWindowRange (fun _ _ _ => adding (.mapFixedRange _ _ _ _ _)) _ _ _)
  | mapFixedRange => exact moves_discard (adding (.mapFixedRange _ _ _ _ _))
  | syncPages => exact moves_discard sync

end

theorem performAll_refines (operations : List MapOperation) (machine : Machine α) :
    RefinesTo supply machine (performAll machine operations) := by
  induction operations generalizing machine with
  | nil => exact Std.Refl.refl machine
  | cons operation operations ih =>
    exact IsTrans.trans _ _ _
      (moves_perform Adding.refining refining_syncPages operation machine) (ih _)

/-- The machine before the manager has a root. -/
def Machine.cold (pages : α) (memory : ByteMemory) (cr3 : Nat) : Machine α where
  manager := .new
  pages := pages
  memory := memory
  cr3 := cr3

theorem init_cold {pages : α} {memory : ByteMemory} {cr3 : Nat} :
    init.run (Machine.cold pages memory cr3) =
      EStateM.run (match (PageSource.allocatePage pages).1 with
        | none => return none
        | some root => do
          modifyManager fun manager =>
            { manager with
              root := .new root
              initialized := true
              committed := false
              active := false }
          return some root) (Machine.cold pages memory cr3).asked :=
  rfl

theorem init_cold_none {pages : α} {memory : ByteMemory} {cr3 : Nat}
    (answer : (PageSource.allocatePage pages).1 = none) :
    init.run (Machine.cold pages memory cr3) = .ok none (Machine.cold pages memory cr3).asked := by
  rw [init_cold, answer]
  rfl

theorem init_cold_some {pages : α} {memory : ByteMemory} {cr3 root : Nat}
    (answer : (PageSource.allocatePage pages).1 = some root) :
    init.run (Machine.cold pages memory cr3) = .ok (some root)
      { (Machine.cold pages memory cr3).asked with
        manager := { VirtualMemoryManager.new with root := .new root, initialized := true } } := by
  rw [init_cold, answer]
  rfl

theorem init_coherent {pages : α} {memory : ByteMemory} {cr3 root : Nat}
    (valid : supply.Valid pages)
    (run : init.run (Machine.cold pages memory cr3) = .ok (some root) machine) :
    Coherent supply machine ∧ machine.pageMap = (fun _ => none) ∧
      machine.manager.initialized = true ∧ machine.manager.root.physAddr = root := by
  cases answer : (PageSource.allocatePage pages).1 with
  | none =>
    rw [init_cold_none answer] at run
    cases run
  | some page =>
    rw [init_cold_some answer] at run
    cases run
    obtain ⟨frame, -, isUsed⟩ := supply.fresh valid answer
    have bare : Bare { VirtualMemoryManager.new with root := .new root, initialized := true }
        root := ⟨rfl, rfl, rfl, rfl⟩
    refine ⟨⟨supply.valid valid, bare.shelved, ?_⟩, ?_, rfl, rfl⟩
    · rw [bare.tree]
      exact .new frame isUsed
    · change TableTree.pageMap (VirtualMemoryManager.tree _) = _
      rw [bare.tree]
      rfl

/-- In any state the operations lead to, the tables stand for a map that was built by binding
    pages: the manager translates by it, another leaf adds one binding or none, and once the
    tables are written back the processor sees the same pages with the same rights. -/
theorem manager_refines_page_map {answers : PageAnswers} {memory : ByteMemory} {cr3 root : Nat}
    {booted : Machine PageAnswers} (fresh : answers.Fresh)
    (started : init.run (Machine.cold answers memory cr3) = .ok (some root) booted)
    (operations : List MapOperation) :
    let machine := performAll booted operations
    Relation.ReflTransGen PageMap.Adds (fun _ => none) machine.pageMap ∧
      (∀ virt, machine.manager.translate virt = machine.pageMap.translate virt) ∧
      (∀ virt phys writable executable, IsFrame phys →
        match (ensureLeafMapping virt phys writable executable).run machine with
        | .ok true machine' =>
          machine.pageMap (pageNumber virt) = none ∧
            machine'.pageMap =
              machine.pageMap.bind (pageNumber virt) { page := phys, writable, executable }
        | .ok false machine' =>
          machine.pageMap (pageNumber virt) = some { page := phys, writable, executable } ∧
            machine'.pageMap = machine.pageMap
        | .error _ machine' => machine'.pageMap = machine.pageMap) ∧
      ∃ machine', syncPages.run machine = .ok root machine' ∧
        machine'.pageMap = machine.pageMap ∧
        ∀ virt, hardwareWalk machine'.memory root virt =
          (machine.pageMap (pageNumber virt)).map (Wired.accessTo virt) := by
  intro machine
  have valid : PageAnswers.supply.Valid answers := fresh
  obtain ⟨coherent, empty, initialized, isRoot⟩ := init_coherent valid started
  have refined : Refined PageAnswers.supply booted machine := performAll_refines operations _ coherent
  have sound := refined.coherent
  refine ⟨empty ▸ refined.adds, translate_eq sound.shelved sound.wired, ?_, ?_⟩
  · intro virt phys writable executable frame
    have spec := spec_ensureLeafMapping virt phys writable executable machine
      ⟨Extends.refl sound, rfl⟩
    rw [show entryAddress phys = phys from frame.and_mask] at spec
    cases run : (ensureLeafMapping virt phys writable executable).run machine with
    | ok isNew machine' =>
      rw [run] at spec
      cases isNew with
      | true => exact spec.2
      | false => exact spec.2
    | error e machine' =>
      rw [run] at spec
      exact spec.1.2
  · refine ⟨machine.synced, ?_, rfl, fun virt => ?_⟩
    · rw [syncPages_ok (refined.initialized.trans initialized), refined.root, isRoot]
    · rw [← isRoot, ← refined.root]
      exact sound.wired.hardwareWalk_eq sound.inMemory rfl virt

theorem manager_refines_page_map_fixed_range :
    ∃ booted : Machine PageAnswers,
      init.run (Machine.cold
        { allocations := [some 0x1000, some 0x2000, some 0x3000, some 0x4000], deallocations := [] }
        (fun _ => 0) 0) = .ok (some 0x1000) booted ∧
      (performAll booted [.mapFixedRange 0x400000 0x5000 1 true false]).manager.translate 0x400123 =
        some 0x5123 ∧
      (performAll booted [.mapFixedRange 0x400000 0x5000 1 true false]).pageMap.translate 0x400123 =
        some 0x5123 := by
  have fresh : PageAnswers.Fresh
      { allocations := [some 0x1000, some 0x2000, some 0x3000, some 0x4000],
        deallocations := [] } := by
    refine ⟨by decide, fun page mem => ?_⟩
    simp only [List.mem_cons, Option.some.injEq, List.not_mem_nil, or_false] at mem
    rcases mem with rfl | rfl | rfl | rfl <;> decide
  refine ⟨_, rfl, by decide +kernel, ?_⟩
  rw [← (manager_refines_page_map fresh rfl _).2.1]
  decide +kernel

end

end CodexOS.Vm
