import CodexOS.Memory.Tidy
import CodexOS.Vm.Windows

/-! # A range that is mapped in part

`map_range` takes a data page, makes the tables on the way to it and enters it, page by
page, and records the range at the end. When it stops in between, what it did so far
stays: the pages it took are not given back. It leaves nothing behind exactly when it
stops before the first page is taken.
-/

namespace CodexOS.Vm

open Effect VirtualMemoryManager Word64 Memory

section

variable {α : Type} [PageSource α]

def Asks (pages pages' : α) : Prop :=
  pages' = (PageSource.allocatePage pages).2

/-- Tables and leaves may be new, but no range was recorded, and pages were only taken. -/
structure Works (machine machine' : Machine α) : Prop where
  initialized : machine'.manager.initialized = machine.manager.initialized
  mappings : machine'.manager.mappings = machine.manager.mappings
  mappedPages : machine'.manager.mappedPages = machine.manager.mappedPages
  pages : Relation.ReflTransGen Asks machine.pages machine'.pages

instance : Std.Refl (Works : Machine α → Machine α → Prop) where
  refl _ := ⟨rfl, rfl, rfl, .refl⟩

instance : IsTrans (Machine α) Works where
  trans _ _ _ first second :=
    ⟨second.initialized.trans first.initialized, second.mappings.trans first.mappings,
      second.mappedPages.trans first.mappedPages, first.pages.trans second.pages⟩

theorem works_modifyManager
    (initialized : ∀ manager, (change manager).initialized = manager.initialized)
    (mappings : ∀ manager, (change manager).mappings = manager.mappings)
    (mappedPages : ∀ manager, (change manager).mappedPages = manager.mappedPages) :
    Moves Works (modifyManager change : VmM α Unit) :=
  fun machine => ⟨initialized machine.manager, mappings machine.manager,
    mappedPages machine.manager, .refl⟩

theorem works_takePage : Moves Works (takePage : VmM α Nat) := by
  intro machine
  have same : after takePage machine = machine.asked := by
    cases answer : (PageSource.allocatePage machine.pages).1 with
    | none => exact after_error (takePage_none answer)
    | some phys => exact after_ok (takePage_some answer)
  rw [same]
  exact ⟨rfl, rfl, rfl, .single rfl⟩

theorem works_getOrCreate
    (initialized : ∀ phys manager, (create phys manager).initialized = manager.initialized)
    (mappings : ∀ phys manager, (create phys manager).mappings = manager.mappings)
    (mappedPages : ∀ phys manager, (create phys manager).mappedPages = manager.mappedPages) :
    Moves Works (getOrCreate tables key create : VmM α Nat) := by
  refine .get_bind fun machine => ?_
  dsimp only
  split
  · exact .pure _
  · exact .bind works_takePage fun phys =>
      .bind (works_modifyManager (initialized phys) (mappings phys) (mappedPages phys))
        fun _ => .pure _

theorem works_enterLeaf (place : Nat) (slot : Index) (entry : Nat) :
    Moves Works (enterLeaf place slot entry : VmM α Bool) := by
  refine .get_bind fun machine => ?_
  dsimp only
  refine .ite (fun _ => .ite (fun _ => .pure _) fun _ => .throw _) fun _ => ?_
  exact .bind (works_modifyManager (fun _ => rfl) (fun _ => rfl) fun _ => rfl) fun _ => .pure _

theorem works_ensureLeafMapping (virt phys : Nat) (writable executable : Bool) :
    Moves Works (ensureLeafMapping virt phys writable executable : VmM α Bool) := by
  refine .bind (works_getOrCreate (fun _ _ => rfl) (fun _ _ => rfl) fun _ _ => rfl)
    fun l3Index => ?_
  refine .bind (works_getOrCreate (fun _ _ => rfl) (fun _ _ => rfl) fun _ _ => rfl)
    fun l2Index => ?_
  refine .bind (works_getOrCreate (fun _ _ => rfl) (fun _ _ => rfl) fun _ _ => rfl)
    fun l1Index => ?_
  exact works_enterLeaf _ _ _

theorem works_mapFreshPages (writable executable : Bool) (count : Nat) : ∀ virt : Nat,
    Moves Works (mapFreshPages writable executable virt count : VmM α (Option Nat × Nat)) := by
  induction count with
  | zero => exact fun _ => .pure _
  | succ count ih =>
    intro virt
    exact .bind works_takePage fun phys =>
      .bind (works_ensureLeafMapping virt phys writable executable) fun isNew =>
        .bind (ih _) fun rest => .pure _

end

section

/-- The data pages taken for a range, whether or not it is mapped to its end. -/
def dataPages {α : Type} [PageSource α] (writable executable : Bool) (virt : Nat) :
    Nat → Machine α → List Nat
  | 0, _ => []
  | count + 1, machine =>
    match takePage.run machine with
    | .error _ _ => []
    | .ok phys taken =>
      phys ::
        match (ensureLeafMapping virt phys writable executable).run taken with
        | .error _ _ => []
        | .ok _ entered =>
          dataPages writable executable (virt + pageSize) count entered

/-- The arguments are refused before anything is done. -/
def VirtualMemoryManager.Refuses (manager : VirtualMemoryManager) (virtStart pageCount : Nat) :
    Prop :=
  manager.initialized = false ∨ pageCount = 0 ∨ virtStart % pageSize ≠ 0 ∨
    size ≤ virtStart + pageCount * pageSize ∨
    ∃ existing ∈ manager.mappings,
      virtStart < mappingEnd existing ∧ existing.virtStart < virtStart + pageCount * pageSize

instance (manager : VirtualMemoryManager) (virtStart pageCount : Nat) :
    Decidable (manager.Refuses virtStart pageCount) :=
  inferInstanceAs (Decidable (_ ∨ _))

def mapRangePages {α : Type} [PageSource α] (virtStart pageCount : Nat)
    (writable executable : Bool) (machine : Machine α) : List Nat :=
  if machine.manager.Refuses virtStart pageCount then []
  else dataPages writable executable virtStart pageCount machine

/-- No byte of the page is handed out. -/
def Available (pages : PhysicalPageAllocator) (page : Nat) : Prop :=
  Disjoint (pageRange page 1).points pages.inUse

/-- A failed call has left nothing behind; `taken` are the data pages it took. -/
structure Undone (machine machine' : Machine PhysicalPageAllocator) (taken : List Nat) : Prop where
  translate : ∀ virt, machine'.manager.translate virt = machine.manager.translate virt
  mappedPages : machine'.manager.mappedPages = machine.manager.mappedPages
  mappings : machine'.manager.mappings = machine.manager.mappings
  available : ∀ page ∈ taken, Available machine'.pages page

variable {α : Type} [PageSource α] {machine machine' : Machine α} {virtStart pageCount : Nat}
  {writable executable : Bool}

/-- What `map_range` does once its arguments are accepted. -/
def mapAccepted (virtStart pageCount : Nat) (writable executable : Bool) : VmM α Mapping := do
  let (firstPhys, newlyMappedPages) ← mapFreshPages writable executable virtStart pageCount
  let mapping : Mapping :=
    { virtStart
      physStart := firstPhys.getD 0
      pageCount := newlyMappedPages
      writable
      executable }
  recordMapping mapping
  discard syncPages
  return mapping

theorem mapRange_cases (machine : Machine α) (virtStart pageCount : Nat)
    (writable executable : Bool) :
    (machine.manager.Refuses virtStart pageCount ∧
        ∃ e, (mapRange virtStart pageCount writable executable).run machine = .error e machine) ∨
      ¬machine.manager.Refuses virtStart pageCount ∧
        (mapRange virtStart pageCount writable executable).run machine =
          (mapAccepted virtStart pageCount writable executable).run machine := by
  change (_ ∧ ∃ e, EStateM.run (if !machine.manager.initialized then _ else _) machine = _) ∨ _ ∧
    EStateM.run (if !machine.manager.initialized then _ else _) machine = _
  unfold Refuses
  cases initialized : machine.manager.initialized with
  | false => exact .inl ⟨.inl rfl, _, rfl⟩
  | true =>
    by_cases empty : pageCount = 0
    · rw [if_neg (by decide), if_pos empty]
      exact .inl ⟨.inr (.inl empty), _, rfl⟩
    rw [if_neg (by decide), if_neg empty]
    by_cases aligned : virtStart % pageSize ≠ 0
    · rw [if_pos aligned]
      exact .inl ⟨.inr (.inr (.inl aligned)), _, rfl⟩
    rw [if_neg aligned]
    by_cases fits : virtStart + pageCount * pageSize < size
    · have bytes : checkedMul pageCount pageSize = some (pageCount * pageSize) :=
        checkedMul_eq_some.mpr ⟨by omega, rfl⟩
      have stop : checkedAdd virtStart (pageCount * pageSize) =
          some (virtStart + pageCount * pageSize) := checkedAdd_eq_some.mpr ⟨fits, rfl⟩
      rw [bind_ok (orFail_ok bytes), bind_ok (orFail_ok stop)]
      by_cases overlaps : ∃ existing ∈ machine.manager.mappings,
          virtStart < mappingEnd existing ∧ existing.virtStart < virtStart + pageCount * pageSize
      · refine .inl ⟨.inr (.inr (.inr (.inr overlaps))), .alreadyMapped, ?_⟩
        rw [if_pos (by simpa [rangesOverlap] using overlaps)]
        rfl
      · refine .inr ⟨?_, ?_⟩
        · rintro (impossible | zero | odd | large | overlap)
          · cases impossible
          · exact empty zero
          · exact aligned odd
          · omega
          · exact overlaps overlap
        · rw [if_neg (by simpa [rangesOverlap] using overlaps)]
          rfl
    · refine .inl ⟨.inr (.inr (.inr (.inl (Nat.le_of_not_lt fits)))), .addressOverflow, ?_⟩
      cases bytes : checkedMul pageCount pageSize with
      | none => rfl
      | some bytes' =>
        have stop : checkedAdd virtStart bytes' = none := by
          obtain ⟨-, rfl⟩ := checkedMul_eq_some.mp bytes
          exact if_neg fits
        rw [bind_ok (orFail_ok rfl), stop]
        rfl

omit [PageSource α] in
theorem recordMapping_ok (machine : Machine α) (mapping : Mapping) :
    ∃ machine', (recordMapping mapping).run machine = .ok () machine' ∧
      machine'.manager.initialized = machine.manager.initialized := by
  unfold recordMapping
  split
  · exact ⟨_, rfl, rfl⟩
  · exact ⟨_, rfl, rfl⟩

theorem of_mapAccepted_error (initialized : machine.manager.initialized = true)
    (run : (mapAccepted virtStart pageCount writable executable).run machine = .error e machine') :
    (mapFreshPages writable executable virtStart pageCount).run machine = .error e machine' := by
  rcases of_bind_error run with failed | ⟨⟨first, new⟩, entered, mapped, run⟩
  · exact failed
  exfalso
  have works := works_mapFreshPages writable executable pageCount virtStart machine
  rw [after_ok mapped] at works
  obtain ⟨recorded, isRecorded, same⟩ := recordMapping_ok entered
    { virtStart, physStart := first.getD 0, pageCount := new, writable, executable }
  have synced : (discard syncPages : VmM α Unit).run recorded = .ok () recorded.synced :=
    bind_ok (syncPages_ok (same.trans (works.initialized.trans initialized)))
  dsimp only at run
  rw [bind_ok isRecorded, bind_ok synced] at run
  cases run

end

section

variable {bootInfo : BootInfo} {machine machine' : Machine PhysicalPageAllocator}
  {live : List Intervals.Interval} {virtStart pageCount : Nat} {writable executable : Bool}
  {e : VmError}

theorem inUse_subset (tidy : Tidy pages) (asked : Relation.ReflTransGen Asks pages pages') :
    pages.inUse ⊆ pages'.inUse := by
  induction asked using Relation.ReflTransGen.head_induction_on with
  | refl => exact Finset.Subset.refl _
  | head asks _ ih =>
    rename_i first second _
    have next : first.allocatePage = (first.allocatePage.1, second) := Prod.ext rfl asks.symm
    cases answer : first.allocatePage.1 with
    | none =>
      obtain ⟨-, rfl⟩ | ⟨_, _, _, _, _, _, impossible, _⟩ |
        ⟨_, _, _, _, _, _, _, impossible, _⟩ := allocate_cases next
      · exact ih tidy
      · rw [answer] at impossible
        cases impossible
      · rw [answer] at impossible
        cases impossible
    | some page =>
      rw [answer] at next
      exact (tidy.allocatePage next).2.1.trans (ih (tidy.allocatePage next).1)

/-- A failed `map_range` has left nothing behind exactly when its arguments were refused or there
    was no page at all: a data page is taken first, and never given back. -/
theorem map_range_undone_iff (run : Reachable bootInfo machine.pages live)
    (failed : (mapRange virtStart pageCount writable executable).run machine = .error e machine') :
    Undone machine machine' (mapRangePages virtStart pageCount writable executable machine) ↔
      machine.manager.Refuses virtStart pageCount ∨ machine.pages.Exhausted := by
  obtain ⟨refuses, e', unchanged⟩ | ⟨accepts, goesOn⟩ :=
    mapRange_cases machine virtStart pageCount writable executable
  · rw [unchanged] at failed
    cases failed
    refine iff_of_true ?_ (.inl refuses)
    rw [mapRangePages, if_pos refuses]
    exact ⟨fun _ => rfl, rfl, rfl, nofun⟩
  rw [goesOn] at failed
  have initialized : machine.manager.initialized = true := by
    simpa using fun off => accepts (.inl off)
  have stopped := of_mapAccepted_error initialized failed
  rw [mapRangePages, if_neg accepts]
  cases pageCount with
  | zero => exact absurd (.inr (.inl rfl)) accepts
  | succ count =>
    cases answer : machine.pages.allocatePage.1 with
    | none =>
      have exhausted := allocatePage_none.mp answer
      refine iff_of_true ?_ (.inr exhausted)
      have asked := @takePage_none _ _ machine answer
      rw [mapFreshPages, bind_error asked] at stopped
      cases stopped
      rw [dataPages, asked]
      exact ⟨fun _ => rfl, rfl, rfl, nofun⟩
    | some phys =>
      have left : ¬machine.pages.Exhausted := by
        rw [← allocatePage_none, answer]
        nofun
      refine iff_of_false ?_ (not_or.mpr ⟨accepts, left⟩)
      have asked := @takePage_some _ _ machine phys answer
      have step : machine.pages.allocatePage = (some phys, machine.asked.pages) :=
        Prod.ext answer rfl
      obtain ⟨tidy, -, inUse⟩ := run.tidy.allocatePage step
      -- the first page was taken, and whatever follows only takes more
      have later : Relation.ReflTransGen Asks machine.asked.pages machine'.pages := by
        rw [mapFreshPages, bind_ok asked] at stopped
        have works : Moves Works (do
            let isNew ← ensureLeafMapping virtStart phys writable executable
            let rest ← mapFreshPages writable executable (virtStart + pageSize) count
            return (some phys, (if isNew then 1 else 0) + rest.2) :
              VmM PhysicalPageAllocator (Option Nat × Nat)) :=
          .bind (works_ensureLeafMapping _ _ _ _) fun isNew =>
            .bind (works_mapFreshPages _ _ _ _) fun rest => .pure _
        have moved := works machine.asked
        rw [after_error stopped] at moved
        exact moved.pages
      intro undone
      have available := undone.available phys (by
        rw [dataPages, asked]
        exact List.mem_cons_self)
      have first := @self_mem_pageRange phys
      exact Finset.disjoint_left.mp available first (inUse_subset tidy later (inUse first))

/-- Five pages of memory. -/
def smallBootInfo : BootInfo where
  firmwareMode := .postExitBootServices
  memoryRegions := [{ start := 0x100000, pageCount := 5, kind := .conventional }]
  reservedMemory := []
  regionsFit := by decide
  rangesFit := no_ranges_fit

/-- The machine once the manager has taken the first page for its root. -/
def smallMachine : Machine PhysicalPageAllocator :=
  after init (Machine.cold (.init smallBootInfo) (fun _ => 0) 0)

theorem smallMachine_reachable :
    Reachable smallBootInfo smallMachine.pages [pageRange 0x100000 1] := by
  have step : (PhysicalPageAllocator.init smallBootInfo).allocateContiguousPages 1 =
      (some 0x100000, smallMachine.pages) := by
    decide +kernel
  exact .allocated .init step

theorem smallMachine_fails :
    ∃ machine', (mapRange demoVirtBase 2 true false).run smallMachine =
        .error .outOfPhysicalPages machine' ∧
      machine'.manager.translate demoVirtBase = some 0x101000 := by
  have failed : (match (mapRange demoVirtBase 2 true false).run smallMachine with
      | .ok _ _ => none
      | .error e machine' => some (e, machine'.manager.translate demoVirtBase)) =
        some (.outOfPhysicalPages, some 0x101000) := by
    decide +kernel
  cases run : (mapRange demoVirtBase 2 true false).run smallMachine with
  | ok _ _ =>
    rw [run] at failed
    cases failed
  | error e machine' =>
    rw [run] at failed
    simp only [Option.some.injEq, Prod.mk.injEq] at failed
    obtain ⟨rfl, translated⟩ := failed
    exact ⟨machine', rfl, translated⟩

/-- The second page is not to be had, and the first stays mapped and taken. -/
theorem map_range_leaves_first_page :
    init.run (Machine.cold (.init smallBootInfo) (fun _ => 0) 0) =
        .ok (some 0x100000) smallMachine ∧
      ∃ machine', (mapRange demoVirtBase 2 true false).run smallMachine =
          .error .outOfPhysicalPages machine' ∧
        smallMachine.manager.translate demoVirtBase = none ∧
        machine'.manager.translate demoVirtBase = some 0x101000 ∧
        ¬Undone smallMachine machine' (mapRangePages demoVirtBase 2 true false smallMachine) := by
  obtain ⟨machine', failed, translated⟩ := smallMachine_fails
  have before : smallMachine.manager.translate demoVirtBase = none := by decide +kernel
  have answer : (PageSource.allocatePage (PhysicalPageAllocator.init smallBootInfo)).1 =
      some 0x100000 := by
    decide +kernel
  have started : init.run (Machine.cold (.init smallBootInfo) (fun _ => 0) 0) =
      .ok (some 0x100000) smallMachine := by
    rw [smallMachine, after_ok (init_cold_some answer)]
    exact init_cold_some answer
  refine ⟨started, machine', failed, before, translated, fun undone => ?_⟩
  have same := undone.translate demoVirtBase
  rw [before, translated] at same
  cases same

theorem map_range_undone_iff_small_machine :
    ∃ machine', Reachable smallBootInfo smallMachine.pages [pageRange 0x100000 1] ∧
      (mapRange demoVirtBase 2 true false).run smallMachine =
        .error .outOfPhysicalPages machine' ∧
      (Undone smallMachine machine' (mapRangePages demoVirtBase 2 true false smallMachine) ↔
        smallMachine.manager.Refuses demoVirtBase 2 ∨ smallMachine.pages.Exhausted) := by
  obtain ⟨machine', failed, -⟩ := smallMachine_fails
  exact ⟨machine', smallMachine_reachable, failed,
    map_range_undone_iff smallMachine_reachable failed⟩

end

end CodexOS.Vm
