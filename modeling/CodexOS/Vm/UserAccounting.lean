import CodexOS.Memory.Holding
import CodexOS.Vm.UserProgram

/-! # The pages of a user address space

The pages taken for an address space are exactly those it has recorded, at every
moment of its build and whatever step fails. So a build that fails gives back all it
has taken, and a space that is destroyed leaves the allocator as it was before.
-/

namespace CodexOS.Vm

open Effect Word64 Memory Bytes Intervals VirtualMemoryManager

/-- The allocator, with a note whether the table of free extents was full when a page came
    back. -/
structure WatchedAllocator where
  allocator : PhysicalPageAllocator
  filled : Bool

instance : PageSource WatchedAllocator where
  allocatePage watched :=
    let answer := watched.allocator.allocatePage
    (answer.1, { watched with allocator := answer.2 })
  deallocatePage page watched :=
    let answer := watched.allocator.deallocatePage page
    (answer.1,
      { allocator := answer.2
        filled := watched.filled || maxFreeExtents ≤ watched.allocator.freeExtents.length })

section

variable {bootInfo : BootInfo} {base : Finset Nat} {machine machine' : Machine WatchedAllocator}
  {loading loading' : Loading WatchedAllocator}

/-- The pages are those taken besides `base`, unless the table of free extents was full at some
    moment. -/
def Holding (bootInfo : BootInfo) (base : Finset Nat) (watched : WatchedAllocator)
    (pages : List Nat) : Prop :=
  watched.filled = false → Held bootInfo base watched.allocator pages

/-- What was taken is what is recorded, latest first. -/
def Balanced (bootInfo : BootInfo) (base : Finset Nat) (loading : Loading WatchedAllocator) : Prop :=
  Holding bootInfo base loading.machine.pages loading.ownership.pages.reverse

/-- The step keeps the balance. -/
def KeepsBalance (bootInfo : BootInfo) (base : Finset Nat)
    (loading loading' : Loading WatchedAllocator) : Prop :=
  Balanced bootInfo base loading → Balanced bootInfo base loading'

instance : Std.Refl (KeepsBalance bootInfo base) where
  refl _ := id

instance : IsTrans (Loading WatchedAllocator) (KeepsBalance bootInfo base) where
  trans _ _ _ first second balanced := second (first balanced)

/-- The step takes no page and gives none back. -/
def SamePages {α : Type} (machine machine' : Machine α) : Prop :=
  machine'.pages = machine.pages

instance {α : Type} : Std.Refl (SamePages : Machine α → Machine α → Prop) where
  refl _ := rfl

instance {α : Type} : IsTrans (Machine α) SamePages where
  trans _ _ _ first second := second.trans first

section

variable {α : Type}

theorem samePages_modifyMemory (change : ByteMemory → ByteMemory) :
    Moves SamePages (modifyMemory change : VmM α Unit) :=
  fun _ => rfl

theorem samePages_copyData (segment : UserSegment) (dataEnd virt phys : Nat) :
    Moves SamePages (copyData segment dataEnd virt phys : VmM α Unit) := by
  unfold copyData
  dsimp only
  split
  · exact .bind (moves_check _) fun _ => samePages_modifyMemory _
  · exact .pure ()

theorem samePages_copyKernelRoot (kernelRoot root : Nat) :
    Moves SamePages (copyKernelRoot kernelRoot root : VmM α Unit) :=
  .bind (moves_check _) fun _ => .bind (moves_check _) fun _ =>
    .bind (samePages_modifyMemory _) fun _ => .bind (moves_check _) fun _ => .get_bind fun _ =>
      .ite (fun _ => .throw _) fun _ => .pure ()

theorem samePages_rawLeafEntry (root virt : Nat) :
    Moves SamePages (rawLeafEntry root virt : VmM α Nat) :=
  (reads_rawLeafEntry root virt).mono fun _ _ same => by rw [same, SamePages]

end

section

variable {α β : Type} {x : VmM α β} {loading : Loading α} {machine : Machine α}

theorem onMachine_ok (run : x.run loading.machine = .ok b machine) :
    (onMachine x).run loading = .ok b { loading with machine } := by
  change onMachine x loading = _
  rw [onMachine, run]

theorem onMachine_error (run : x.run loading.machine = .error error machine) :
    (onMachine x).run loading = .error error { loading with machine } := by
  change onMachine x loading = _
  rw [onMachine, run]

theorem after_onMachine :
    after (onMachine x) loading = { loading with machine := after x loading.machine } := by
  cases run : x.run loading.machine with
  | ok b machine => rw [after_ok (onMachine_ok run), after_ok run]
  | error error machine => rw [after_error (onMachine_error run), after_error run]

/-- A step on the machine, as a step on the machine and the recorded pages. -/
theorem spec_onMachine (inner : ∀ ownership, Spec (fun machine => pre ⟨machine, ownership⟩) x
      (fun b machine => post b ⟨machine, ownership⟩)
      fun error machine => fail error ⟨machine, ownership⟩) :
    Spec pre (onMachine x) post fail := by
  intro loading holds
  have step := inner loading.ownership loading.machine holds
  cases run : x.run loading.machine with
  | ok b machine =>
    rw [run] at step
    rw [onMachine_ok run]
    exact step
  | error error machine =>
    rw [run] at step
    rw [onMachine_error run]
    exact step

end

theorem balance_onMachine (same : Moves SamePages x) :
    Moves (KeepsBalance bootInfo base) (onMachine x) := by
  intro loading balanced
  have pages : (after x loading.machine).pages = loading.machine.pages := same loading.machine
  rw [after_onMachine]
  unfold Balanced at balanced ⊢
  dsimp only
  rwa [pages]

/-- Usable memory can be reached through the direct map. -/
def DirectMapped (bootInfo : BootInfo) : Prop :=
  ∀ address, Usable bootInfo address → address < 2 ^ 47

section

variable {watched : WatchedAllocator} {pages : List Nat} {phys : Nat}

theorem Holding.exhausted (holding : Holding bootInfo base watched pages)
    (answer : (PageSource.allocatePage watched).1 = none) :
    Holding bootInfo base (PageSource.allocatePage watched).2 pages :=
  fun quiet => (holding quiet).exhausted (Prod.ext answer rfl)

theorem Holding.take (disjoint : DisjointRegions bootInfo)
    (holding : Holding bootInfo base watched pages)
    (answer : (PageSource.allocatePage watched).1 = some phys) :
    Holding bootInfo base (PageSource.allocatePage watched).2 (phys :: pages) :=
  fun quiet => (holding quiet).take disjoint (Prod.ext answer rfl)

theorem Holding.giveBack (disjoint : DisjointRegions bootInfo)
    (holding : Holding bootInfo base watched (phys :: pages)) :
    Holding bootInfo base (PageSource.deallocatePage phys watched).2 pages ∧
      ((PageSource.deallocatePage phys watched).2.filled = false →
        (PageSource.deallocatePage phys watched).1 = true ∧ watched.filled = false) := by
  have gaveBack (quiet : (PageSource.deallocatePage phys watched).2.filled = false) :
      watched.filled = false ∧ watched.allocator.freeExtents.length < maxFreeExtents := by
    obtain ⟨before, room⟩ := Bool.or_eq_false_iff.mp quiet
    exact ⟨before, Nat.lt_of_not_le (of_decide_eq_false room)⟩
  constructor
  · intro quiet
    obtain ⟨before, room⟩ := gaveBack quiet
    exact ((holding before).giveBack disjoint room).2
  · intro quiet
    obtain ⟨before, room⟩ := gaveBack quiet
    exact ⟨((holding before).giveBack disjoint room).1, before⟩

end

section

variable {pages : List Nat} {phys : Nat}

theorem Holding.low (disjoint : DisjointRegions bootInfo) (mapped : DirectMapped bootInfo)
    (holding : Holding bootInfo base watched (phys :: pages)) (quiet : watched.filled = false) :
    physicalPageMut phys = .ok phys :=
  physicalPageMut_of_lt (mapped phys ((holding quiet).usable disjoint List.mem_cons_self).1)

theorem spec_takePage (disjoint : DisjointRegions bootInfo) :
    Spec (fun machine => Holding bootInfo base machine.pages pages) takePage
      (fun phys machine => Holding bootInfo base machine.pages (phys :: pages))
      fun _ machine => Holding bootInfo base machine.pages pages := by
  intro machine holding
  cases answer : (PageSource.allocatePage machine.pages).1 with
  | none =>
    rw [takePage_none answer]
    exact holding.exhausted answer
  | some phys =>
    rw [takePage_some answer]
    exact holding.take disjoint answer

theorem spec_allocateZeroedPage (disjoint : DisjointRegions bootInfo)
    (mapped : DirectMapped bootInfo) :
    Spec (fun machine => Holding bootInfo base machine.pages pages) allocateZeroedPage
      (fun phys machine => Holding bootInfo base machine.pages (phys :: pages))
      fun _ machine => Holding bootInfo base machine.pages pages := by
  refine .bind (spec_takePage disjoint) fun phys machine holding => ?_
  cases checked : physicalPageMut phys with
  | ok page => exact holding
  | error error =>
    -- every page of the allocator is in the direct map
    intro quiet
    rw [holding.low disjoint mapped quiet] at checked
    cases checked

theorem spec_giveUpPage (disjoint : DisjointRegions bootInfo) :
    Spec (fun machine => Holding bootInfo base machine.pages (phys :: pages)) (giveUpPage phys)
      (fun _ _ => False) fun _ machine => Holding bootInfo base machine.pages pages := by
  intro machine holding
  have gaveBack := (holding.giveBack disjoint).1
  unfold giveUpPage
  cases freed : (PageSource.deallocatePage phys machine.pages).1 with
  | true =>
    have step : (deallocatePage phys).run machine =
        .ok true { machine with pages := (PageSource.deallocatePage phys machine.pages).2 } := by
      rw [← freed]
      rfl
    rw [bind_ok step]
    exact gaveBack
  | false =>
    have step : (deallocatePage phys).run machine =
        .ok false { machine with pages := (PageSource.deallocatePage phys machine.pages).2 } := by
      rw [← freed]
      rfl
    rw [bind_ok step]
    exact gaveBack

theorem spec_recordPage (disjoint : DisjointRegions bootInfo) :
    Spec
      (fun loading => Holding bootInfo base loading.machine.pages
        (phys :: loading.ownership.pages.reverse))
      (recordPage phys) (fun _ => Balanced bootInfo base)
      fun _ => Balanced bootInfo base := by
  refine .get_bind fun loading holding => ?_
  cases recorded : loading.ownership.record phys with
  | some ownership =>
    intro _ _
    change Holding bootInfo base loading.machine.pages ownership.pages.reverse
    rw [of_record recorded, List.reverse_concat]
    exact holding
  | none =>
    refine spec_onMachine fun ownership => ?_
    exact (@spec_giveUpPage _ base ownership.pages.reverse phys disjoint).weaken
      (fun _ => id) nofun fun _ _ => id

theorem balance_allocateOwnedZeroedPage (disjoint : DisjointRegions bootInfo)
    (mapped : DirectMapped bootInfo) :
    Moves (KeepsBalance bootInfo base) allocateOwnedZeroedPage := by
  intro loading balanced
  refine Spec.after (.bind (spec_onMachine fun ownership => ?_) fun phys => spec_recordPage disjoint)
    balanced
  exact @spec_allocateZeroedPage _ base ownership.pages.reverse disjoint mapped

end

section

variable {root : Nat} (disjoint : DisjointRegions bootInfo) (mapped : DirectMapped bootInfo)

include disjoint mapped

theorem balance_enterUserTable (table : Nat) (index : Index) :
    Moves (KeepsBalance bootInfo base) (enterUserTable table index) := by
  refine .bind (moves_check _) fun _ => .get_bind fun _ => .ite (fun _ => ?_) fun _ =>
    .ite (fun _ => .throw _) fun _ => .pure _
  refine .bind (balance_allocateOwnedZeroedPage disjoint mapped) fun _ => ?_
  exact .bind (balance_onMachine (samePages_modifyMemory _)) fun _ => .pure _

omit disjoint mapped in
theorem balance_enterUserLeaf (table : Nat) (index : Index) (entry : Nat) :
    Moves (KeepsBalance bootInfo base) (enterUserLeaf table index entry) :=
  .bind (moves_check _) fun _ => .get_bind fun _ => .ite (fun _ => .throw _) fun _ =>
    balance_onMachine (samePages_modifyMemory _)

theorem balance_rawMapUserPage (virt phys : Nat) (writable executable : Bool) :
    Moves (KeepsBalance bootInfo base) (rawMapUserPage root virt phys writable executable) :=
  .bind (balance_enterUserTable disjoint mapped _ _) fun _ =>
    .bind (balance_enterUserTable disjoint mapped _ _) fun _ =>
      .bind (balance_enterUserTable disjoint mapped _ _) fun _ => balance_enterUserLeaf _ _ _

theorem balance_loadPages (segment : UserSegment) (dataEnd virt code count : Nat) :
    Moves (KeepsBalance bootInfo base) (loadPages root segment dataEnd virt code count) := by
  induction count generalizing virt code with
  | zero => exact .pure code
  | succ count ih =>
    refine .bind (balance_allocateOwnedZeroedPage disjoint mapped) fun phys => ?_
    refine .bind (balance_onMachine (samePages_copyData _ _ _ _)) fun _ => ?_
    refine .bind (balance_rawMapUserPage disjoint mapped _ _ _ _) fun _ => ?_
    exact .bind (moves_check _) fun next => ih next _

theorem balance_loadSegments (code bytes : Nat) (segments : List UserSegment) :
    Moves (KeepsBalance bootInfo base) (loadSegments root code bytes segments) := by
  induction segments generalizing code bytes with
  | nil => exact .pure _
  | cons segment rest ih =>
    refine .bind (moves_check _) fun _ => .bind (moves_check _) fun _ =>
      .bind (moves_check _) fun _ => ?_
    refine .bind (balance_loadPages disjoint mapped _ _ _ _ _) fun code' => ?_
    exact .bind (moves_check _) fun bytes' => ih code' bytes'

omit disjoint mapped in
theorem balance_describeSpace (kernelRoot code stack entry bytes : Nat) :
    Moves (KeepsBalance bootInfo base) (describeSpace kernelRoot root code stack entry bytes) :=
  .bind (balance_onMachine (samePages_rawLeafEntry _ _)) fun _ =>
    .bind (balance_onMachine (samePages_rawLeafEntry _ _)) fun _ =>
      .bind (moves_check _) fun _ => .get_bind fun _ => .pure _

/-- At every step, what was taken for the space is what it has recorded. -/
theorem balance_buildUserSpace (kernelRoot entry : Nat) (segments : List UserSegment) :
    Moves (KeepsBalance bootInfo base) (buildUserSpace kernelRoot entry segments) := by
  refine .bind (balance_allocateOwnedZeroedPage disjoint mapped) fun root => ?_
  refine .bind (balance_onMachine (samePages_copyKernelRoot _ _)) fun _ => ?_
  refine .bind (balance_loadSegments disjoint mapped _ _ _) fun (code, bytes) => ?_
  refine .bind (balance_allocateOwnedZeroedPage disjoint mapped) fun stack => ?_
  exact .bind (balance_rawMapUserPage disjoint mapped _ _ _ _) fun _ => balance_describeSpace _ _ _ _ _

end

section

theorem IsZero.store_zeros (zero : IsZero memory page) (place count : Nat) :
    IsZero (memory.store place (zeros count)) page := by
  intro offset inside
  unfold ByteMemory.store
  split
  · cases found : (zeros count)[page + offset - place]? with
    | none => exact zero offset inside
    | some byte => exact List.eq_of_mem_replicate (List.mem_of_getElem? found)
  · exact zero offset inside

/-- All of the pages are given back and cleared, unless the table of free extents was full. -/
theorem reclaimPages_holding (disjoint : DisjointRegions bootInfo) (mapped : DirectMapped bootInfo)
    (holding : Holding bootInfo base machine.pages pages) (failed : Bool) :
    ∃ result machine', (reclaimPages failed pages).run machine = .ok result machine' ∧
      (machine'.pages.filled = false → machine.pages.filled = false ∧ result = failed ∧
        Held bootInfo base machine'.pages.allocator [] ∧
        ∀ page, page ∈ pages ∨ IsZero machine.memory page → IsZero machine'.memory page) := by
  induction pages generalizing machine failed with
  | nil =>
    refine ⟨failed, machine, rfl, fun quiet => ⟨quiet, rfl, holding quiet, fun page isZero => ?_⟩⟩
    exact isZero.resolve_left List.not_mem_nil
  | cons phys rest ih =>
    obtain ⟨holding', quietly⟩ := holding.giveBack disjoint
    obtain ⟨result, machine', run, done⟩ := @ih
      { machine with
        pages := (PageSource.deallocatePage phys machine.pages).2
        memory :=
          if (physicalPageMut phys).isOk then machine.memory.store phys (zeros pageSize)
          else machine.memory }
      holding'
      (failed || !(physicalPageMut phys).isOk || !(PageSource.deallocatePage phys machine.pages).1)
    refine ⟨result, machine', run, fun quiet => ?_⟩
    obtain ⟨quiet', flag, held, zero⟩ := done quiet
    obtain ⟨freed, before⟩ := quietly quiet'
    have low := holding.low disjoint mapped before
    have isOk : (physicalPageMut phys).isOk = true := by
      rw [low]
      rfl
    rw [isOk, freed, Bool.not_true, Bool.or_false, Bool.or_false] at flag
    refine ⟨before, flag, held, fun page isZero => zero page ?_⟩
    rw [if_pos isOk]
    rcases isZero with mem | isZero
    · rcases List.mem_cons.mp mem with rfl | mem
      · exact .inr (isZero_store _ _)
      · exact .inl mem
    · exact .inr (isZero.store_zeros _ _)

theorem reclaim_holding (disjoint : DisjointRegions bootInfo) (mapped : DirectMapped bootInfo)
    {ownership : UserPageOwnership}
    (holding : Holding bootInfo base machine.pages ownership.pages.reverse)
    (quiet : (after ownership.reclaim machine).pages.filled = false) :
    ∃ machine', ownership.reclaim.run machine = .ok () machine' ∧
      machine'.pages.allocator.inUse = base ∧
      ∀ page ∈ ownership.pages, IsZero machine'.memory page := by
  obtain ⟨result, machine', run, done⟩ := reclaimPages_holding disjoint mapped holding false
  have finished : ownership.reclaim.run machine =
      (if result then throw .pageReclamationFailed else return () :
        VmM WatchedAllocator Unit).run machine' :=
    bind_ok run
  have same : after ownership.reclaim machine = machine' := by
    rw [after, finished]
    cases result <;> rfl
  rw [same] at quiet
  obtain ⟨-, rfl, held, zero⟩ := done quiet
  refine ⟨machine', finished, ?_, fun page mem => zero page (.inl (List.mem_reverse.mpr mem))⟩
  rw [held.inUse_eq disjoint]
  exact Finset.union_empty base

end

section

variable {live : List Interval}

theorem pagesCover_reverse (pages : List Nat) : pagesCover pages.reverse = pagesCover pages := by
  ext address
  simp [pagesCover, mem_cover]

theorem balanced_new (run : Reachable bootInfo machine.pages.allocator live) :
    Balanced bootInfo (cover live) { machine, ownership := .new } :=
  fun _ => held_nil run

theorem buildOrReclaim_error (disjoint : DisjointRegions bootInfo) (mapped : DirectMapped bootInfo)
    (reachable : Reachable bootInfo machine.pages.allocator live) {kernelRoot entry : Nat}
    {segments : List UserSegment} {error : VmError}
    (run : (buildOrReclaim kernelRoot entry segments).run machine = .error error machine')
    (quiet : machine'.pages.filled = false) :
    machine'.pages.allocator.inUse = cover live := by
  have balanced := balance_buildUserSpace disjoint mapped kernelRoot entry segments _
    (balanced_new reachable)
  change buildOrReclaim kernelRoot entry segments machine = _ at run
  unfold buildOrReclaim at run
  split at run
  next => cases run
  next failure loading failed =>
    rw [after_error failed] at balanced
    have left : after loading.ownership.reclaim loading.machine = machine' := by
      split at run <;> cases run
      next reclaimed => exact after_ok reclaimed
      next reclaimed => exact after_error reclaimed
    rw [← left] at quiet
    obtain ⟨final, reclaimed, restored, -⟩ := reclaim_holding disjoint mapped balanced quiet
    rw [← left, after_ok reclaimed]
    exact restored

theorem buildOrReclaim_ok (disjoint : DisjointRegions bootInfo) (mapped : DirectMapped bootInfo)
    (reachable : Reachable bootInfo machine.pages.allocator live)
    (run : (buildOrReclaim kernelRoot entry segments).run machine = .ok space machine') :
    Holding bootInfo (cover live) machine'.pages space.owned.pages.reverse := by
  have balanced := balance_buildUserSpace disjoint mapped kernelRoot entry segments _
    (balanced_new reachable)
  obtain ⟨loading, built, rfl⟩ := of_buildOrReclaim run
  rw [after_ok built] at balanced
  obtain ⟨root, _, _, run₁⟩ := of_bind_ok built
  obtain ⟨_, _, _, run₂⟩ := of_bind_ok run₁
  obtain ⟨⟨code, bytes⟩, _, _, run₃⟩ := of_bind_ok run₂
  obtain ⟨stack, _, _, run₄⟩ := of_bind_ok run₃
  obtain ⟨_, _, _, described⟩ := of_bind_ok run₄
  obtain ⟨rfl, -, -, owned⟩ := of_describeSpace described
  rw [owned]
  exact balanced

omit base in
theorem of_check_error (run : (check result : EStateM VmError σ β).run s = .error error s') :
    s' = s := by
  cases result with
  | ok b => cases run
  | error e =>
    cases run
    rfl

theorem destroy_inactive (inactive : machine.cr3 ≠ space.rootPhys) :
    (destroyUserAddressSpace space).run machine = space.owned.reclaim.run machine := by
  change (if machine.cr3 = space.rootPhys then throw .activeAddressSpace
    else space.owned.reclaim : VmM WatchedAllocator Unit).run machine = _
  rw [if_neg inactive]

theorem after_destroy (inactive : machine.cr3 ≠ space.rootPhys) :
    after (destroyUserAddressSpace space) machine = after space.owned.reclaim machine := by
  rw [after, after, destroy_inactive inactive]

/-- A build that fails leaves in use what was in use before. A space that is returned owns, one by
    one, the pages that were taken for it, and destroying it while it is not active gives them all
    back, cleared. The table of free extents must not have been full on the way. -/
theorem user_space_accounting (disjoint : DisjointRegions bootInfo)
    (mapped : DirectMapped bootInfo) (machine : Machine WatchedAllocator)
    (reachable : Reachable bootInfo machine.pages.allocator live) (entry : Nat)
    (segments : List UserSegment) :
    match (createUserAddressSpaceFromSegments entry segments).run machine with
    | .error _ machine' =>
      machine'.pages.filled = false →
        machine'.pages.allocator.inUse = machine.pages.allocator.inUse
    | .ok space machine' =>
      machine'.pages.filled = false →
        space.owned.pages.Nodup ∧ (∀ page ∈ space.owned.pages, page % pageSize = 0) ∧
        Disjoint machine.pages.allocator.inUse (pagesCover space.owned.pages) ∧
        machine'.pages.allocator.inUse =
          machine.pages.allocator.inUse ∪ pagesCover space.owned.pages ∧
        ∀ later : Machine WatchedAllocator, later.pages = machine'.pages →
          later.cr3 ≠ space.rootPhys →
          (after (destroyUserAddressSpace space) later).pages.filled = false →
            ∃ final, (destroyUserAddressSpace space).run later = .ok () final ∧
              final.pages.allocator.inUse = machine.pages.allocator.inUse ∧
              ∀ page ∈ space.owned.pages, IsZero final.memory page := by
  have before : machine.pages.allocator.inUse = cover live :=
    (reachable.consistent disjoint).inUse.symm
  rw [before]
  split
  next error machine' run =>
    intro quiet
    rcases of_bind_error run with invalid | ⟨_, _, valid, building⟩
    · -- a program that is not valid is refused before anything is taken
      obtain rfl := of_check_error invalid
      exact before
    · obtain ⟨-, same⟩ := of_check valid
      rw [same] at building
      have building : (buildOrReclaim machine.cr3 entry segments).run machine = _ := building
      exact buildOrReclaim_error disjoint mapped reachable building quiet
  next space machine' run =>
    intro quiet
    obtain ⟨_, _, checked, building⟩ := of_bind_ok run
    obtain ⟨-, same⟩ := of_check checked
    rw [same] at building
    have building : (buildOrReclaim machine.cr3 entry segments).run machine = _ := building
    have holding := buildOrReclaim_ok disjoint mapped reachable building
    have held := holding quiet
    refine ⟨List.nodup_reverse.mp held.distinct, fun page mem => ?_, ?_, ?_, ?_⟩
    · exact (held.usable disjoint (List.mem_reverse.mpr mem)).2
    · rw [← pagesCover_reverse]
      exact held.apart
    · rw [← pagesCover_reverse]
      exact held.inUse_eq disjoint
    · intro later pages inactive quiet'
      rw [← pages] at holding
      rw [after_destroy inactive] at quiet'
      rw [destroy_inactive inactive]
      exact reclaim_holding disjoint mapped holding quiet'

/-- A machine whose allocator has not handed out anything. -/
def sampleMachine : Machine WatchedAllocator where
  manager := .new
  pages := { allocator := .init sampleBootInfo, filled := false }
  memory := fun _ => 0
  cr3 := 0

theorem user_space_accounting_tiny : ∃ space machine final,
    (createUserAddressSpaceFromSegments userCodeBase (tinyProgram userCodeBase)).run
      sampleMachine = .ok space machine ∧
    machine.pages.allocator.inUse =
      sampleMachine.pages.allocator.inUse ∪ pagesCover space.owned.pages ∧
    (destroyUserAddressSpace space).run machine = .ok () final ∧
    final.pages.allocator.inUse = sampleMachine.pages.allocator.inUse := by
  have runs : (match (createUserAddressSpaceFromSegments userCodeBase
      (tinyProgram userCodeBase)).run sampleMachine with
      | .ok space machine => !machine.pages.filled && machine.cr3 != space.rootPhys &&
          !(after (destroyUserAddressSpace space) machine).pages.filled
      | .error _ _ => false) = true := by
    decide +kernel
  have reachable : Reachable sampleBootInfo sampleMachine.pages.allocator [] := by
    simp only [sampleMachine]
    exact .init
  have disjoint : DisjointRegions sampleBootInfo := List.pairwise_singleton _ _
  have mapped : DirectMapped sampleBootInfo := by
    rintro address ⟨region, isRegion, -, -, inside⟩
    rw [List.mem_singleton.mp isRegion] at inside
    exact inside.trans (by decide)
  -- from here on the machine is not looked into
  generalize sampleMachine = start at runs reachable ⊢
  have accounting := user_space_accounting disjoint mapped start reachable userCodeBase
    (tinyProgram userCodeBase)
  split at runs
  next space machine run =>
    rw [Bool.and_eq_true, Bool.and_eq_true, Bool.not_eq_true', Bool.not_eq_true', bne_iff_ne] at runs
    obtain ⟨⟨quiet, inactive⟩, quiet'⟩ := runs
    rw [run] at accounting
    obtain ⟨-, -, -, taken, destroys⟩ := accounting quiet
    obtain ⟨final, destroyed, restored, -⟩ := destroys machine rfl inactive quiet'
    exact ⟨space, machine, final, run, taken, destroyed, restored⟩
  next => exact absurd runs Bool.false_ne_true

end

end

end CodexOS.Vm
