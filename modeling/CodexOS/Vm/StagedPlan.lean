import CodexOS.Release.Staging
import CodexOS.Vm.KernelPlan

/-! # The plan of a staged image

The loader counts the pages of the image and of its segments, and the kernel plans the
mappings from these counts. As long as no segment reaches into the last page, where
rounding up stops short, both speak of the pages that the segments touch.
-/

namespace CodexOS.Vm

open Effect Word64 Memory VirtualMemoryManager
open Release (KernelImageInfo KernelImageSegment Platform imageSpan imagePages HasSpan occupies
  segmentEnd placeSegment stageKernelSegments allocateKernelPages spans_imageSpan segmentEnd_cases
  imageSpan_aligned imagePages_mul of_stageKernelSegments)

section

variable {plan : List KernelPagePermissions} {runs : List (Nat × KernelPagePermissions)}
  {base loadBase index i : Nat} {page : KernelPagePermissions}

/-- A run of equal pages of the plan. -/
structure PlacedRun where
  start : Nat
  count : Nat
  permissions : KernelPagePermissions

def PlacedRun.has (run : PlacedRun) (i : Nat) : Prop :=
  run.start ≤ i ∧ i < run.start + run.count

/-- The runs with their places, the first one at `index`. -/
def placeRuns : Nat → List (Nat × KernelPagePermissions) → List PlacedRun
  | _, [] => []
  | index, (count, permissions) :: runs =>
    { start := index, count, permissions } :: placeRuns (index + count) runs

/-- No run is empty, and neighbours differ. -/
structure Maximal (runs : List (Nat × KernelPagePermissions)) : Prop where
  positive : ∀ run ∈ runs, 0 < run.1
  differ : runs.IsChain fun run next => run.2 ≠ next.2

theorem maximal_pageRuns (plan : List KernelPagePermissions) : Maximal (pageRuns plan) := by
  induction plan with
  | nil => exact ⟨nofun, .nil⟩
  | cons page plan ih =>
    obtain ⟨positive, differ⟩ := ih
    unfold pageRuns
    split
    · exact ⟨by simp, .singleton _⟩
    · rename_i count next rest isRuns
      rw [isRuns] at positive differ
      split
      · refine ⟨fun run mem => ?_, ?_⟩
        · rcases List.mem_cons.mp mem with rfl | mem
          · exact Nat.succ_pos _
          · exact positive run (List.mem_cons_of_mem _ mem)
        · cases differ with
          | singleton => exact .singleton _
          | cons_cons head tail => exact .cons_cons head tail
      · rename_i other
        refine ⟨fun run mem => ?_, .cons_cons (Ne.symm other) differ⟩
        rcases List.mem_cons.mp mem with rfl | mem
        · exact Nat.one_pos
        · exact positive run mem

theorem start_placeRuns : ∀ run ∈ placeRuns index runs, index ≤ run.start := by
  induction runs generalizing index with
  | nil => nofun
  | cons first runs ih =>
    intro run mem
    rcases List.mem_cons.mp mem with rfl | mem
    · exact Nat.le_refl _
    · exact (Nat.le_add_right _ _).trans (ih run mem)

theorem ascending_placeRuns :
    (placeRuns index runs).Pairwise fun run later => run.start + run.count ≤ later.start := by
  induction runs generalizing index with
  | nil => exact .nil
  | cons first runs ih => exact .cons start_placeRuns ih

theorem positive_placeRuns (positive : ∀ run ∈ runs, 0 < run.1) :
    ∀ run ∈ placeRuns index runs, 0 < run.count := by
  induction runs generalizing index with
  | nil => nofun
  | cons first runs ih =>
    intro run mem
    rcases List.mem_cons.mp mem with rfl | mem
    · exact positive first List.mem_cons_self
    · exact ih (fun other otherMem => positive other (List.mem_cons_of_mem _ otherMem)) run mem

/-- Runs that meet have different rights. -/
theorem differ_placeRuns (maximal : Maximal runs) :
    ∀ run ∈ placeRuns index runs, ∀ next ∈ placeRuns index runs,
      run.start + run.count = next.start → run.permissions ≠ next.permissions := by
  induction runs generalizing index with
  | nil => nofun
  | cons first runs ih =>
    obtain ⟨positive, differ⟩ := maximal
    have later : Maximal runs :=
      ⟨fun run mem => positive run (List.mem_cons_of_mem _ mem), differ.tail⟩
    have firstPositive := positive first List.mem_cons_self
    intro run mem next nextMem meets
    rcases List.mem_cons.mp mem with rfl | mem <;>
      rcases List.mem_cons.mp nextMem with rfl | nextMem
    · dsimp only at meets
      omega
    · -- what starts where the first run ends is the second one
      cases runs with
      | nil => cases nextMem
      | cons second runs =>
        cases differ with
        | cons_cons head tail =>
          rcases List.mem_cons.mp nextMem with rfl | nextMem
          · exact head
          · have after := start_placeRuns next nextMem
            have secondPositive := later.positive second List.mem_cons_self
            dsimp only at meets
            omega
    · have after := start_placeRuns run mem
      dsimp only at meets
      omega
    · exact ih later run mem next nextMem meets

/-- The pages of the placed runs are those of the plan. -/
theorem getElem?_expandRuns :
    (expandRuns runs)[i]? = some page ↔
      ∃ run ∈ placeRuns index runs, run.has (index + i) ∧ run.permissions = page := by
  induction runs generalizing index i with
  | nil => simp [expandRuns, placeRuns]
  | cons first runs ih =>
    obtain ⟨count, permissions⟩ := first
    rw [expandRuns, List.flatMap_cons, ← expandRuns, List.getElem?_append, List.length_replicate]
    split
    · rename_i inside
      rw [List.getElem?_replicate, if_pos inside, Option.some.injEq]
      constructor
      · intro same
        exact ⟨_, List.mem_cons_self, ⟨Nat.le_add_right _ _, by dsimp only; omega⟩, same⟩
      · rintro ⟨run, mem, has, same⟩
        rcases List.mem_cons.mp mem with rfl | mem
        · exact same
        · have after := start_placeRuns run mem
          have := has.1
          omega
    · rename_i behind
      rw [@ih (index + count) (i - count), show index + count + (i - count) = index + i by omega]
      constructor
      · rintro ⟨run, mem, rest⟩
        exact ⟨run, List.mem_cons_of_mem _ mem, rest⟩
      · rintro ⟨run, mem, has, same⟩
        rcases List.mem_cons.mp mem with rfl | mem
        · have := has.2
          dsimp only at this
          omega
        · exact ⟨run, mem, has, same⟩

/-- How a run is mapped. -/
def PlacedRun.mapping (base loadBase : Nat) (run : PlacedRun) : KernelPageMapping where
  virtStart := base + run.start * pageSize
  physStart := loadBase + run.start * pageSize
  pageCount := run.count
  writable := run.permissions.writable
  executable := run.permissions.executable

/-- No address is out of range, so every run that is present is mapped. -/
theorem mappingsOfRuns_eq
    (room : ∀ run ∈ placeRuns index runs, base + run.start * pageSize < size ∧
      loadBase + run.start * pageSize < size) :
    mappingsOfRuns base loadBase index runs =
      .ok (((placeRuns index runs).filter (·.permissions.present)).map
        (PlacedRun.mapping base loadBase)) := by
  induction runs generalizing index with
  | nil => rfl
  | cons first runs ih =>
    obtain ⟨count, permissions⟩ := first
    have rest := ih fun run mem => room run (List.mem_cons_of_mem _ mem)
    obtain ⟨virt, phys⟩ := room _ List.mem_cons_self
    dsimp only at virt phys
    rw [mappingsOfRuns, placeRuns]
    cases present : permissions.present with
    | false =>
      rw [Bool.not_false, if_pos rfl, rest, List.filter_cons_of_neg (by simp [present])]
    | true =>
      have isOffset := checkedMul_eq_some.mpr ⟨show index * pageSize < size by omega, rfl⟩
      have isVirt := checkedAdd_eq_some.mpr ⟨virt, rfl⟩
      have isPhys := checkedAdd_eq_some.mpr ⟨phys, rfl⟩
      rw [if_neg (by simp), isOffset, List.filter_cons_of_pos (by simp [present])]
      simp only [orError, except_ok_bind, isVirt, isPhys, rest]
      rfl

end

section

variable {segment : KernelImageSegment} {segments : List KernelImageSegment}
  {plan : List KernelPagePermissions} {base : Nat} {error : VmError}

theorem KernelPagePermissions.Safe.of_join {page : KernelPagePermissions}
    {more : List KernelImageSegment} (safe : (page.join more).Safe) : page.Safe := by
  intro both
  exact safe ⟨by simp [join, both.1], by simp [join, both.2]⟩

theorem of_grants_error {pages : List KernelPagePermissions}
    (failed : pages.mapM (grant segment) = .error error) :
    error = .kernelWritableExecutable ∧ ∃ page ∈ pages, ¬(page.join [segment]).Safe := by
  induction pages with
  | nil => cases failed
  | cons page pages ih =>
    rw [List.mapM_cons] at failed
    obtain failed | ⟨_, -, failed⟩ := of_except_bind_error failed
    · unfold grant at failed
      dsimp only at failed
      split at failed
      · rename_i both
        cases failed
        refine ⟨rfl, page, List.mem_cons_self, fun safe => safe ?_⟩
        simpa [KernelPagePermissions.join] using both
      · cases failed
    · obtain failed | ⟨_, -, failed⟩ := of_except_bind_error failed
      · obtain ⟨same, page, mem, violates⟩ := ih failed
        exact ⟨same, page, List.mem_cons_of_mem _ mem, violates⟩
      · cases failed

/-- Why the plan of the segments fails: one does not fit, or a page gets both rights. -/
inductive PlanRefused (base : Nat) (segments : List KernelImageSegment)
    (plan : List KernelPagePermissions) : VmError → Prop
  | conflict (segment : KernelImageSegment) (mem : segment ∈ segments)
      (staged : isStaged segment = true)
      (beyond : plan.length < firstPage base segment + segment.loadPageCount) :
      PlanRefused base segments plan .kernelImageConflict
  | both (i : Nat) (page : KernelPagePermissions) (isPage : plan[i]? = some page)
      (violates : ¬(page.join (segments.filter (touches base i))).Safe) :
      PlanRefused base segments plan .kernelWritableExecutable

theorem of_planSegment_error (staged : isStaged segment = true)
    (low : base ≤ alignDown segment.virtualAddress ∧
      firstPage base segment + segment.loadPageCount < size)
    (failed : planSegment base segment plan = .error error) :
    PlanRefused base [segment] plan error := by
  have isOffset := checkedSub_eq_some.mpr ⟨low.1, rfl⟩
  have isEnd := checkedAdd_eq_some.mpr ⟨low.2, rfl⟩
  rw [firstPage] at isEnd
  simp only [planSegment, isOffset, orError, except_ok_bind, isEnd] at failed
  rw [← firstPage] at failed
  split at failed
  · rename_i beyond
    cases failed
    exact .conflict segment List.mem_cons_self staged beyond
  · obtain failed | ⟨_, -, failed⟩ := of_except_bind_error failed
    · obtain ⟨rfl, page, mem, violates⟩ := of_grants_error failed
      obtain ⟨i, isPage⟩ := List.mem_iff_getElem?.mp mem
      rw [List.getElem?_take, Option.ite_none_right_eq_some, List.getElem?_drop] at isPage
      refine .both (firstPage base segment + i) page isPage.2 ?_
      have touched : touches base (firstPage base segment + i) segment = true := by
        simp [touches, staged, isPage.1]
      rwa [List.filter_cons_of_pos touched, List.filter_nil]
    · cases failed

theorem of_planSegments_error
    (low : ∀ segment ∈ segments, isStaged segment = true →
      base ≤ alignDown segment.virtualAddress ∧
        firstPage base segment + segment.loadPageCount < size)
    (failed : planSegments base segments plan = .error error) :
    PlanRefused base segments plan error := by
  induction segments generalizing plan with
  | nil => cases failed
  | cons segment segments ih =>
    rw [List.forall_mem_cons] at low
    unfold planSegments at failed
    split at failed
    · rename_i skipped
      rw [Bool.not_eq_true'] at skipped
      cases ih low.2 failed with
      | conflict other mem staged beyond =>
        exact .conflict other (List.mem_cons_of_mem _ mem) staged beyond
      | both i page isPage violates =>
        refine .both i page isPage ?_
        rwa [List.filter_cons_of_neg (by simp [touches, skipped])]
    · rename_i staged
      rw [Bool.not_eq_true', Bool.not_eq_false] at staged
      obtain failed | ⟨plan', first, failed⟩ := of_except_bind_error failed
      · cases of_planSegment_error staged (low.1 staged) failed with
        | conflict other mem staged beyond =>
          rw [List.mem_singleton.mp mem] at beyond
          exact .conflict segment List.mem_cons_self ‹_› beyond
        | both i page isPage violates =>
          refine .both i page isPage fun safe => violates ?_
          rw [← List.singleton_append, List.filter_append, ← join_append] at safe
          exact safe.of_join
      · have entered := of_planSegment staged first
        cases ih low.2 failed with
        | conflict other mem otherStaged beyond =>
          rw [entered.length] at beyond
          exact .conflict other (List.mem_cons_of_mem _ mem) otherStaged beyond
        | both i page isPage violates =>
          rw [entered.pages] at isPage
          obtain ⟨before, isBefore, rfl⟩ := Option.map_eq_some_iff.mp isPage
          refine .both i before isBefore fun safe => violates ?_
          rwa [join_append, ← List.filter_append, List.singleton_append]

end

section

variable {segment : KernelImageSegment} {segments : List KernelImageSegment} {base pages i : Nat}

def Touches (virt : Nat) (segment : KernelImageSegment) : Prop :=
  segment.memorySize ≠ 0 ∧ segment.virtualAddress < virt + pageSize ∧
    virt < segment.virtualAddress + segment.memorySize

/-- The segment has a byte in the last page of the address space. -/
def ReachesLastPage (segment : KernelImageSegment) : Prop :=
  segment.memorySize ≠ 0 ∧ size - pageSize < segment.virtualAddress + segment.memorySize

instance : Decidable (ReachesLastPage segment) :=
  inferInstanceAs (Decidable (_ ∧ _))

/-- Rounding up the size of the segment, from its first page on, does not saturate. -/
def Countable (segment : KernelImageSegment) : Prop :=
  segment.virtualAddress + segment.memorySize ≤
    alignDown segment.virtualAddress + (size - pageSize)

theorem alignDown_span (value : Nat) :
    alignDown value ≤ value ∧ value < alignDown value + pageSize := by
  simp only [Memory.alignDown, pageSize]
  omega

theorem pages_placed (countable : Countable segment) :
    segment.virtualAddress + segment.memorySize ≤ alignDown segment.virtualAddress +
        pageSize * (placeSegment base pages segment).loadPageCount ∧
      alignDown segment.virtualAddress +
          pageSize * (placeSegment base pages segment).loadPageCount <
        segment.virtualAddress + segment.memorySize + pageSize := by
  simp only [Countable, placeSegment, Release.alignUp, Release.alignDown, Memory.alignDown,
    saturatingAdd, maxValue, size, pageSize] at *
  omega

theorem isStaged_placed : isStaged (placeSegment base pages segment) = occupies segment := by
  by_cases empty : segment.memorySize = 0
  · simp [isStaged, occupies, placeSegment, empty]
  · have counted : (placeSegment base pages segment).loadPageCount ≠ 0 := by
      simp only [placeSegment, Release.alignUp, Release.alignDown, saturatingAdd, maxValue, size,
        pageSize]
      omega
    have kept : (placeSegment base pages segment).memorySize = segment.memorySize := rfl
    simp [isStaged, occupies, counted, kept]

/-- The kernel counts the pages that the segment touches. -/
theorem touches_placed (countable : occupies segment = true → Countable segment)
    (aligned : base % pageSize = 0)
    (low : occupies segment = true → base ≤ alignDown segment.virtualAddress) :
    touches base i (placeSegment base pages segment) = true ↔
      Touches (base + pageSize * i) segment := by
  have sameAddress : (placeSegment base pages segment).virtualAddress = segment.virtualAddress :=
    rfl
  rw [touches, isStaged_placed, Bool.and_eq_true, Bool.and_eq_true, decide_eq_true_eq,
    decide_eq_true_eq, Touches, firstPage, sameAddress]
  by_cases empty : segment.memorySize = 0
  · simp [occupies, empty]
  · have occupied : occupies segment = true := by simp [occupies, empty]
    have below := low occupied
    obtain ⟨enough, tight⟩ := @pages_placed segment base pages (countable occupied)
    have mod := alignDown_mod segment.virtualAddress
    have down := alignDown_span segment.virtualAddress
    rw [eq_true occupied, true_and]
    generalize (placeSegment base pages segment).loadPageCount = count at *
    generalize alignDown segment.virtualAddress = start at *
    simp only [pageSize] at *
    omega

theorem imageBase_placed (nonempty : HasSpan segments) :
    imageBase (segments.map (placeSegment (imageSpan segments).1 pages)) =
      some (imageSpan segments).1 := by
  have spans := spans_imageSpan segments
  refine List.min?_eq_some_iff.mpr ⟨?_, fun start mem => ?_⟩
  · obtain same | ⟨segment, mem, occupied, isBase⟩ := spans.base_of
    · exact absurd same nonempty.1
    · refine List.mem_map.mpr ⟨placeSegment (imageSpan segments).1 pages segment, ?_, isBase.symm⟩
      exact List.mem_filter.mpr ⟨List.mem_map_of_mem mem, isStaged_placed.trans occupied⟩
  · obtain ⟨placed, placedMem, rfl⟩ := List.mem_map.mp mem
    obtain ⟨placedMem, staged⟩ := List.mem_filter.mp placedMem
    obtain ⟨segment, segmentMem, rfl⟩ := List.mem_map.mp placedMem
    exact spans.base_le segment segmentMem (isStaged_placed.symm.trans staged)

end

section

variable {segment : KernelImageSegment} {segments : List KernelImageSegment} {pages i virt : Nat}

/-- The firmware grants memory: not at address zero, and where the processor has addresses. -/
structure GrantsMemory (platform : Platform) : Prop where
  nonnull : ∀ kind count pages, platform.allocatePages kind count = some pages → pages ≠ 0
  physical : ∀ kind count pages, platform.allocatePages kind count = some pages →
    pages + count * pageSize ≤ 2 ^ 52

/-- The segments are staged in these pages, and no one wraps around. -/
structure StagedIn (segments : List KernelImageSegment) (pages : Nat) : Prop where
  nonempty : HasSpan segments
  nonnull : pages ≠ 0
  physical : pages + imagePages segments * pageSize ≤ 2 ^ 52
  bounded : ∀ segment ∈ segments, occupies segment = true →
    segment.virtualAddress + segment.memorySize ≤ size

/-- Some page has bytes of a writable and of an executable segment. -/
def SharedPage (segments : List KernelImageSegment) : Prop :=
  ∃ virt, virt % pageSize = 0 ∧
    (∃ segment ∈ segments, Touches virt segment ∧ isWritable segment = true) ∧
    ∃ segment ∈ segments, Touches virt segment ∧ isExecutable segment = true

theorem imageSpan_end_le : (imageSpan segments).2 ≤ size - pageSize := by
  obtain same | ⟨other, -, -, isEnd⟩ := (spans_imageSpan segments).end_of
  · rw [same]
    exact Nat.zero_le _
  · rw [isEnd]
    exact (segmentEnd_cases other).2.2

theorem imageSpan_low (mem : segment ∈ segments) (occupied : occupies segment = true) :
    (imageSpan segments).1 ≤ alignDown segment.virtualAddress :=
  (spans_imageSpan segments).base_le segment mem occupied

namespace StagedIn

variable (staged : StagedIn segments pages)

include staged

theorem end_eq :
    (imageSpan segments).1 + imagePages segments * pageSize = (imageSpan segments).2 := by
  have := imagePages_mul staged.nonempty
  have := staged.nonempty.2
  omega

theorem positive : imagePages segments ≠ 0 := by
  intro none
  have stop := staged.end_eq
  rw [none, Nat.zero_mul] at stop
  exact absurd staged.nonempty.2 (by omega)

/-- A segment from the first page on is short, as all memory is. -/
theorem countable (mem : segment ∈ segments) (occupied : occupies segment = true) :
    Countable segment := by
  have base := imageSpan_low mem occupied
  have high := (spans_imageSpan segments).le_end segment mem occupied
  have ends := segmentEnd_cases segment
  have bounded := staged.bounded segment mem occupied
  have stop := staged.end_eq
  have physical := staged.physical
  have mod := alignDown_mod segment.virtualAddress
  unfold Countable
  generalize alignDown segment.virtualAddress = start at *
  simp only [size, pageSize] at *
  omega

theorem touches_iff (mem : segment ∈ segments) :
    touches (imageSpan segments).1 i (placeSegment (imageSpan segments).1 pages segment) = true ↔
      Touches ((imageSpan segments).1 + pageSize * i) segment :=
  touches_placed (staged.countable mem) (imageSpan_aligned staged.nonempty) (imageSpan_low mem)

/-- A segment fits into the plan unless it reaches into the last page. -/
theorem fits_iff (mem : segment ∈ segments) (occupied : occupies segment = true) :
    firstPage (imageSpan segments).1 (placeSegment (imageSpan segments).1 pages segment) +
        (placeSegment (imageSpan segments).1 pages segment).loadPageCount ≤ imagePages segments ↔
      ¬ReachesLastPage segment := by
  have base := imageSpan_low mem occupied
  have high := (spans_imageSpan segments).le_end segment mem occupied
  have ends := segmentEnd_cases segment
  have stop := staged.end_eq
  have last := @imageSpan_end_le segments
  have aligned := imageSpan_aligned staged.nonempty
  have mod := alignDown_mod segment.virtualAddress
  have endMod : segmentEnd segment % pageSize = 0 := Release.alignDown_mod_page _
  have positive : segment.memorySize ≠ 0 := by simpa [occupies] using occupied
  obtain ⟨enough, tight⟩ := @pages_placed segment (imageSpan segments).1 pages
    (staged.countable mem occupied)
  rw [ReachesLastPage, firstPage]
  change (alignDown segment.virtualAddress - _) / pageSize + _ ≤ _ ↔ _
  generalize (placeSegment (imageSpan segments).1 pages segment).loadPageCount = count at *
  generalize alignDown segment.virtualAddress = start at *
  generalize segmentEnd segment = stop' at *
  simp only [size, pageSize] at *
  omega

/-- The segments of the plan that have a page are those that touch it. -/
theorem any_touching (right : KernelImageSegment → Bool)
    (keeps : ∀ segment, right (placeSegment (imageSpan segments).1 pages segment) = right segment) :
    ((segments.map (placeSegment (imageSpan segments).1 pages)).filter
        (touches (imageSpan segments).1 i)).any right = true ↔
      ∃ segment ∈ segments, Touches ((imageSpan segments).1 + pageSize * i) segment ∧
        right segment = true := by
  rw [List.any_eq_true]
  constructor
  · rintro ⟨placed, touching, has⟩
    obtain ⟨placedMem, touched⟩ := List.mem_filter.mp touching
    obtain ⟨segment, mem, rfl⟩ := List.mem_map.mp placedMem
    exact ⟨segment, mem, (staged.touches_iff mem).mp touched, (keeps segment).symm.trans has⟩
  · rintro ⟨segment, mem, touched, has⟩
    exact ⟨_, List.mem_filter.mpr ⟨List.mem_map_of_mem mem, (staged.touches_iff mem).mpr touched⟩,
      (keeps segment).trans has⟩

structure PlansPage (segments : List KernelImageSegment) (virt : Nat)
    (page : KernelPagePermissions) : Prop where
  present : page.present = true ↔ ∃ segment ∈ segments, Touches virt segment
  writable : page.writable = true ↔
    ∃ segment ∈ segments, Touches virt segment ∧ isWritable segment = true
  executable : page.executable = true ↔
    ∃ segment ∈ segments, Touches virt segment ∧ isExecutable segment = true

theorem plansPage :
    PlansPage segments ((imageSpan segments).1 + pageSize * i)
      (KernelPagePermissions.default.join
        ((segments.map (placeSegment (imageSpan segments).1 pages)).filter
          (touches (imageSpan segments).1 i))) where
  present := by
    have touching := staged.any_touching (i := i) (fun _ => true) fun _ => rfl
    simp only [and_true] at touching
    rw [← touching]
    simp [KernelPagePermissions.join, KernelPagePermissions.default]
  writable := staged.any_touching isWritable fun _ => rfl
  executable := staged.any_touching isExecutable fun _ => rfl

/-- The plan of the placed segments. -/
def planOf (segments : List KernelImageSegment) (pages : Nat) :
    Except VmError (List KernelPagePermissions) :=
  planSegments (imageSpan segments).1 (segments.map (placeSegment (imageSpan segments).1 pages))
    (List.replicate (imagePages segments) .default)

/-- A page that is touched has its place in the span. -/
theorem page_of_touches (aligned : virt % pageSize = 0) (mem : segment ∈ segments)
    (touched : Touches virt segment) :
    ∃ i, virt = (imageSpan segments).1 + pageSize * i ∧
      (¬ReachesLastPage segment → i < imagePages segments) := by
  have occupied : occupies segment = true := by simp [occupies, touched.1]
  have base := imageSpan_low mem occupied
  have baseAligned := imageSpan_aligned staged.nonempty
  have mod := alignDown_mod segment.virtualAddress
  have down := alignDown_span segment.virtualAddress
  have place : virt =
      (imageSpan segments).1 + pageSize * ((virt - (imageSpan segments).1) / pageSize) := by
    have := touched.2.1
    generalize alignDown segment.virtualAddress = start at *
    simp only [pageSize] at *
    omega
  refine ⟨(virt - (imageSpan segments).1) / pageSize, place, fun inside => ?_⟩
  have fits := (staged.fits_iff mem occupied).mpr inside
  rw [place, ← staged.touches_iff mem, touches, Bool.and_eq_true, decide_eq_true_eq] at touched
  exact touched.2.trans_le fits

theorem placed_low :
    ∀ placed ∈ segments.map (placeSegment (imageSpan segments).1 pages), isStaged placed = true →
      (imageSpan segments).1 ≤ alignDown placed.virtualAddress ∧
        firstPage (imageSpan segments).1 placed + placed.loadPageCount < size := by
  intro placed placedMem isPlaced
  obtain ⟨segment, mem, rfl⟩ := List.mem_map.mp placedMem
  rw [isStaged_placed] at isPlaced
  refine ⟨show _ ≤ alignDown segment.virtualAddress from imageSpan_low mem isPlaced, ?_⟩
  obtain ⟨-, tight⟩ := @pages_placed segment (imageSpan segments).1 pages
    (staged.countable mem isPlaced)
  have bounded := staged.bounded segment mem isPlaced
  rw [firstPage]
  change (alignDown segment.virtualAddress - _) / pageSize + _ < _
  generalize (placeSegment (imageSpan segments).1 pages segment).loadPageCount = count at *
  generalize alignDown segment.virtualAddress = start at *
  simp only [size, pageSize] at *
  omega

theorem of_planOf_error (failed : planOf segments pages = .error error) :
    (error = .kernelImageConflict ∧ ∃ segment ∈ segments, ReachesLastPage segment) ∨
      (error = .kernelWritableExecutable ∧ SharedPage segments) := by
  cases of_planSegments_error staged.placed_low failed with
  | conflict placed placedMem isPlaced beyond =>
    obtain ⟨segment, mem, rfl⟩ := List.mem_map.mp placedMem
    rw [isStaged_placed] at isPlaced
    rw [List.length_replicate] at beyond
    refine .inl ⟨rfl, segment, mem, ?_⟩
    by_contra inside
    have := (staged.fits_iff mem isPlaced).mpr inside
    omega
  | both i page isPage violates =>
    rw [List.getElem?_replicate, Option.ite_none_right_eq_some, Option.some.injEq] at isPage
    rw [← isPage.2, KernelPagePermissions.Safe, not_not] at violates
    have page := staged.plansPage (i := i)
    refine .inr ⟨rfl, (imageSpan segments).1 + pageSize * i, ?_, page.writable.mp violates.1,
      page.executable.mp violates.2⟩
    have baseAligned := imageSpan_aligned staged.nonempty
    simp only [pageSize] at *
    omega

theorem of_planOf (ok : planOf segments pages = .ok plan) :
    (∀ segment ∈ segments, ¬ReachesLastPage segment) ∧ ¬SharedPage segments ∧
      plan.length = imagePages segments ∧ ∀ (i : Nat) page, plan[i]? = some page →
        PlansPage segments ((imageSpan segments).1 + pageSize * i) page := by
  have planned := of_planSegments ok
  have inside : ∀ segment ∈ segments, ¬ReachesLastPage segment := by
    intro segment mem last
    have occupied : occupies segment = true := by simp [occupies, last.1]
    refine (staged.fits_iff mem occupied).mp ?_ last
    have fits := planned.fits _ (List.mem_map_of_mem mem) (isStaged_placed.trans occupied)
    rwa [List.length_replicate] at fits
  have isPlan : ∀ (i : Nat) page, plan[i]? = some page →
      PlansPage segments ((imageSpan segments).1 + pageSize * i) page := by
    intro i page isPage
    rw [planned.pages, List.getElem?_replicate] at isPage
    obtain ⟨_, isDefault, rfl⟩ := Option.map_eq_some_iff.mp isPage
    rw [Option.ite_none_right_eq_some, Option.some.injEq] at isDefault
    rw [← isDefault.2]
    exact staged.plansPage
  have long : plan.length = imagePages segments := by
    rw [planned.length, List.length_replicate]
  refine ⟨inside, ?_, long, isPlan⟩
  rintro ⟨virt, aligned, ⟨segment, mem, touched, writable⟩, executable⟩
  obtain ⟨i, rfl, inPlan⟩ := staged.page_of_touches aligned mem touched
  have isPage := List.getElem?_eq_getElem (long ▸ inPlan (inside segment mem))
  have page := isPlan i _ isPage
  refine planned.safe (fun default isDefault => ?_) _ (List.mem_of_getElem? isPage)
    ⟨page.writable.mpr ⟨segment, mem, touched, writable⟩, page.executable.mpr executable⟩
  rw [List.eq_of_mem_replicate isDefault]
  exact fun both => Bool.false_ne_true both.1

end StagedIn

end

section

variable {segments : List KernelImageSegment} {plan : List KernelPagePermissions}
  {base loadBase pages i virt : Nat} {mapping : KernelPageMapping}

def KernelPageMapping.has (mapping : KernelPageMapping) (virt : Nat) : Prop :=
  mapping.virtStart ≤ virt ∧ virt < mapping.virtStart + pageSize * mapping.pageCount

/-- The mappings of an image: ranges in ascending order that have exactly the pages the segments
    touch, with the rights of these segments, as long as possible and where the image is loaded. -/
structure PlansImage (segments : List KernelImageSegment) (image : KernelImageInfo)
    (mappings : List KernelPageMapping) : Prop where
  ranges : ∀ mapping ∈ mappings, mapping.virtStart % pageSize = 0 ∧ 0 < mapping.pageCount
  ascending : mappings.Pairwise fun mapping later =>
    mapping.virtStart + pageSize * mapping.pageCount ≤ later.virtStart
  covered : ∀ virt, virt % pageSize = 0 →
    ((∃ mapping ∈ mappings, mapping.has virt) ↔ ∃ segment ∈ segments, Touches virt segment)
  rights : ∀ mapping ∈ mappings, ∀ virt, virt % pageSize = 0 → mapping.has virt →
    (mapping.writable = true ↔
      ∃ segment ∈ segments, Touches virt segment ∧ isWritable segment = true) ∧
    (mapping.executable = true ↔
      ∃ segment ∈ segments, Touches virt segment ∧ isExecutable segment = true)
  merged : ∀ mapping ∈ mappings, ∀ next ∈ mappings,
    mapping.virtStart + pageSize * mapping.pageCount = next.virtStart →
      mapping.writable ≠ next.writable ∨ mapping.executable ≠ next.executable
  placed : ∀ mapping ∈ mappings, (imageSpan segments).1 ≤ mapping.virtStart ∧
    mapping.physStart = image.loadBase + (mapping.virtStart - (imageSpan segments).1)
  loaded : ∀ segment ∈ image.segments, segment.memorySize ≠ 0 → ∃ mapping ∈ mappings,
    mapping.virtStart ≤ segment.virtualAddress ∧
      segment.virtualAddress < mapping.virtStart + pageSize * mapping.pageCount ∧
      mapping.physStart + (segment.virtualAddress - mapping.virtStart) = segment.loadAddress

def mappingsOf (base loadBase : Nat) (plan : List KernelPagePermissions) :
    List KernelPageMapping :=
  ((placeRuns 0 (pageRuns plan)).filter (·.permissions.present)).map
    (PlacedRun.mapping base loadBase)

theorem mem_mappingsOf :
    mapping ∈ mappingsOf base loadBase plan ↔ ∃ run ∈ placeRuns 0 (pageRuns plan),
      run.permissions.present = true ∧ run.mapping base loadBase = mapping := by
  simp only [mappingsOf, List.mem_map, List.mem_filter, and_assoc]

theorem PlacedRun.mapping_has (run : PlacedRun) :
    (run.mapping base loadBase).has (base + pageSize * i) ↔ run.has i := by
  simp only [KernelPageMapping.has, PlacedRun.has, PlacedRun.mapping, pageSize]
  omega

/-- Addresses of a mapping are those of pages of its run. -/
theorem PlacedRun.page_of_has (run : PlacedRun) (has : (run.mapping base loadBase).has virt)
    (baseAligned : base % pageSize = 0) (aligned : virt % pageSize = 0) :
    ∃ i, virt = base + pageSize * i ∧ run.has i := by
  obtain ⟨i, rfl⟩ : ∃ i, virt = base + pageSize * i := by
    refine ⟨(virt - base) / pageSize, ?_⟩
    have := has.1
    simp only [PlacedRun.mapping, pageSize] at *
    omega
  exact ⟨i, rfl, (run.mapping_has).mp has⟩

theorem getElem?_of_run (mem : run ∈ placeRuns 0 (pageRuns plan)) (has : run.has i) :
    plan[i]? = some run.permissions := by
  rw [← expand_pageRuns plan]
  exact (@getElem?_expandRuns _ 0 _ _).mpr ⟨run, mem, (Nat.zero_add i).symm ▸ has, rfl⟩

theorem run_of_getElem? (isPage : plan[i]? = some page) :
    ∃ run ∈ placeRuns 0 (pageRuns plan), run.has i ∧ run.permissions = page := by
  rw [← expand_pageRuns plan, @getElem?_expandRuns _ 0] at isPage
  rwa [Nat.zero_add] at isPage

theorem StagedIn.mapped {segment : KernelImageSegment} (staged : StagedIn segments pages)
    (ok : StagedIn.planOf segments pages = .ok plan) (aligned : virt % pageSize = 0)
    (mem : segment ∈ segments) (touched : Touches virt segment) :
    ∃ mapping ∈ mappingsOf (imageSpan segments).1 pages plan, mapping.has virt := by
  obtain ⟨inside, -, long, isPlan⟩ := staged.of_planOf ok
  obtain ⟨i, rfl, inPlan⟩ := staged.page_of_touches aligned mem touched
  have isPage := List.getElem?_eq_getElem (long ▸ inPlan (inside segment mem))
  obtain ⟨run, runMem, has, same⟩ := run_of_getElem? isPage
  have present := (isPlan i _ isPage).present.mpr ⟨segment, mem, touched⟩
  rw [← same] at present
  exact ⟨_, mem_mappingsOf.mpr ⟨run, runMem, present, rfl⟩, run.mapping_has.mpr has⟩

/-- The address of a segment lies in a mapped page, and not beyond the memory of the image. -/
theorem StagedIn.loaded {segment : KernelImageSegment} (staged : StagedIn segments pages)
    (ok : StagedIn.planOf segments pages = .ok plan) (mem : segment ∈ segments)
    (occupied : occupies segment = true) :
    ∃ mapping ∈ mappingsOf (imageSpan segments).1 pages plan,
      mapping.virtStart ≤ segment.virtualAddress ∧
        segment.virtualAddress < mapping.virtStart + pageSize * mapping.pageCount ∧
        mapping.physStart + (segment.virtualAddress - mapping.virtStart) =
          (placeSegment (imageSpan segments).1 pages segment).loadAddress := by
  have nonempty : segment.memorySize ≠ 0 := by simpa [occupies] using occupied
  have mod := alignDown_mod segment.virtualAddress
  have down := alignDown_span segment.virtualAddress
  obtain ⟨mapping, mappingMem, has⟩ := staged.mapped ok mod mem ⟨nonempty, down.2, by omega⟩
  obtain ⟨run, -, -, rfl⟩ := mem_mappingsOf.mp mappingMem
  have inside := (staged.of_planOf ok).1 segment mem
  have short : segment.virtualAddress + segment.memorySize ≤ size - pageSize := by
    by_contra long
    exact inside ⟨nonempty, Nat.lt_of_not_le long⟩
  have high := ((segmentEnd_cases segment).1 short).trans
    ((spans_imageSpan segments).le_end segment mem occupied)
  have stop := staged.end_eq
  have physical := staged.physical
  have baseAligned := imageSpan_aligned staged.nonempty
  have low := imageSpan_low mem occupied
  have address : (placeSegment (imageSpan segments).1 pages segment).loadAddress =
      pages + (segment.virtualAddress - (imageSpan segments).1) := by
    refine saturatingAdd_of_lt ?_
    simp only [size] at *
    omega
  refine ⟨_, mappingMem, ?_⟩
  rw [address]
  obtain ⟨i, isPage, first, last⟩ := run.page_of_has has baseAligned mod
  simp only [PlacedRun.mapping, KernelPageMapping.has] at *
  generalize alignDown segment.virtualAddress = start at *
  simp only [pageSize] at *
  omega

theorem StagedIn.plansImage (staged : StagedIn segments pages) (isBase : image.loadBase = pages)
    (isSegments : image.segments = segments.map (placeSegment (imageSpan segments).1 pages))
    (ok : StagedIn.planOf segments pages = .ok plan) :
    PlansImage segments image (mappingsOf (imageSpan segments).1 pages plan) := by
  obtain ⟨inside, -, long, isPlan⟩ := staged.of_planOf ok
  have baseAligned := imageSpan_aligned staged.nonempty
  have maximal := maximal_pageRuns plan
  have planned : ∀ mapping ∈ mappingsOf (imageSpan segments).1 pages plan, ∀ virt,
      virt % pageSize = 0 → mapping.has virt → ∃ page : KernelPagePermissions,
        PlansPage segments virt page ∧ page.present = true ∧ mapping.writable = page.writable ∧
          mapping.executable = page.executable := by
    intro mapping mem virt aligned has
    obtain ⟨run, runMem, present, rfl⟩ := mem_mappingsOf.mp mem
    obtain ⟨i, rfl, hasPage⟩ := run.page_of_has has baseAligned aligned
    exact ⟨run.permissions, isPlan i _ (getElem?_of_run runMem hasPage), present, rfl, rfl⟩
  constructor
  case ranges =>
    intro mapping mem
    obtain ⟨run, runMem, -, rfl⟩ := mem_mappingsOf.mp mem
    refine ⟨?_, positive_placeRuns maximal.positive run runMem⟩
    simp only [PlacedRun.mapping, pageSize] at *
    omega
  case ascending =>
    refine List.Pairwise.map _ (fun run later before => ?_) (ascending_placeRuns.filter _)
    simp only [PlacedRun.mapping, pageSize] at *
    omega
  case covered =>
    intro virt aligned
    constructor
    · rintro ⟨mapping, mem, has⟩
      obtain ⟨page, isPage, present, -⟩ := planned mapping mem virt aligned has
      exact isPage.present.mp present
    · rintro ⟨segment, mem, touched⟩
      exact staged.mapped ok aligned mem touched
  case rights =>
    intro mapping mem virt aligned has
    obtain ⟨page, isPage, -, sameWritable, sameExecutable⟩ := planned mapping mem virt aligned has
    rw [sameWritable, sameExecutable]
    exact ⟨isPage.writable, isPage.executable⟩
  case merged =>
    intro mapping mem next nextMem meets
    obtain ⟨run, runMem, present, rfl⟩ := mem_mappingsOf.mp mem
    obtain ⟨later, laterMem, laterPresent, rfl⟩ := mem_mappingsOf.mp nextMem
    have differ := differ_placeRuns maximal run runMem later laterMem (by
      simp only [PlacedRun.mapping, pageSize] at meets
      omega)
    by_contra same
    rw [not_or, not_not, not_not] at same
    obtain ⟨_, _, ⟨_, _, _⟩⟩ := run
    obtain ⟨_, _, ⟨_, _, _⟩⟩ := later
    simp only [PlacedRun.mapping] at *
    exact differ (by rw [present, laterPresent, same.1, same.2])
  case placed =>
    intro mapping mem
    obtain ⟨run, -, -, rfl⟩ := mem_mappingsOf.mp mem
    rw [isBase]
    simp only [PlacedRun.mapping]
    omega
  case loaded =>
    rw [isSegments]
    intro placed placedMem occupied
    obtain ⟨segment, mem, rfl⟩ := List.mem_map.mp placedMem
    have isOccupied : occupies segment = true := decide_eq_true occupied
    have served := staged.loaded ok mem isOccupied
    exact served

end

section

variable {platform : Platform} {info image : KernelImageInfo} {bytes : Bytes}

theorem kernelPageMappings_staged (staged : StagedIn info.segments pages)
    (isBase : image.loadBase = pages) (isCount : image.loadPageCount = imagePages info.segments)
    (isSegments : image.segments =
      info.segments.map (placeSegment (imageSpan info.segments).1 pages)) :
    kernelPageMappings image = do
      let plan ← StagedIn.planOf info.segments pages
      return mappingsOf (imageSpan info.segments).1 pages plan := by
  rw [kernelPageMappings, if_neg (by simp [isBase, isCount, staged.nonnull, staged.positive]),
    isSegments, imageBase_placed staged.nonempty, isCount, isBase]
  change (StagedIn.planOf info.segments pages >>= _) = _
  cases isPlan : StagedIn.planOf info.segments pages with
  | error error => rfl
  | ok plan =>
    rw [except_ok_bind, except_ok_bind]
    refine mappingsOfRuns_eq fun run mem => ?_
    have long := (staged.of_planOf isPlan).2.2.1
    have positive := positive_placeRuns (maximal_pageRuns plan).positive run mem
    have isPage : plan[run.start]? = some run.permissions :=
      getElem?_of_run mem ⟨Nat.le_refl _, by omega⟩
    have inPlan := (List.getElem?_eq_some_iff.mp isPage).1
    have stop := staged.end_eq
    have last := @imageSpan_end_le info.segments
    have physical := staged.physical
    simp only [size, pageSize] at *
    omega

theorem of_allocateKernelPages (granted : allocateKernelPages platform base count = some pages) :
    ∃ kind, platform.allocatePages kind count = some pages := by
  unfold allocateKernelPages at granted
  split at granted
  · split at granted
    · rename_i isGrant
      cases granted
      exact ⟨_, isGrant⟩
    · exact ⟨_, granted⟩
  · exact ⟨_, granted⟩

/-- The plan of a staged image. Unless a segment reaches into the last page, the image is refused
    exactly when a page is shared by a writable and an executable segment, and planned otherwise; an
    image that reaches into the last page is always refused. -/
theorem staged_page_plan (memory : GrantsMemory platform)
    (staged : stageKernelSegments platform info bytes = some image)
    (noWrap : ∀ segment ∈ info.segments, occupies segment = true →
      segment.virtualAddress + segment.memorySize ≤ size) :
    ((∀ segment ∈ info.segments, ¬ReachesLastPage segment) →
      (kernelPageMappings image = .error .kernelWritableExecutable ↔ SharedPage info.segments) ∧
      (¬SharedPage info.segments → ∃ mappings, kernelPageMappings image = .ok mappings ∧
        PlansImage info.segments image mappings)) ∧
    ((∃ segment ∈ info.segments, ReachesLastPage segment) →
      kernelPageMappings image = .error .kernelImageConflict ∨
        kernelPageMappings image = .error .kernelWritableExecutable ∧
          SharedPage info.segments) := by
  obtain ⟨nonempty, pages, granted, isBase, isCount, isSegments⟩ := of_stageKernelSegments staged
  obtain ⟨kind, isGrant⟩ := of_allocateKernelPages granted
  have placed : StagedIn info.segments pages :=
    ⟨nonempty, memory.nonnull _ _ _ isGrant, memory.physical _ _ _ isGrant, noWrap⟩
  rw [kernelPageMappings_staged placed isBase isCount isSegments]
  cases isPlan : StagedIn.planOf info.segments pages with
  | error error =>
    obtain ⟨rfl, segment, mem, last⟩ | ⟨rfl, shared⟩ := placed.of_planOf_error isPlan
    · exact ⟨fun inside => absurd last (inside segment mem), fun _ => .inl rfl⟩
    · exact ⟨fun _ => ⟨iff_of_true rfl shared, fun notShared => absurd shared notShared⟩,
        fun _ => .inr ⟨rfl, shared⟩⟩
  | ok plan =>
    obtain ⟨inside, notShared, -, -⟩ := placed.of_planOf isPlan
    refine ⟨fun _ => ⟨iff_of_false nofun notShared, fun _ => ⟨_, rfl, ?_⟩⟩, fun last => ?_⟩
    · exact placed.plansImage isBase isSegments isPlan
    · obtain ⟨segment, mem, last⟩ := last
      exact absurd last (inside segment mem)

end

/-- A segment without bytes in the file. -/
def clearedHeader (virtualAddr memSize : UInt64) (isWrite isExecute : Bool) :
    Release.ProgramHeader where
  isLoad := true
  virtualAddr := virtualAddr
  physicalAddr := virtualAddr
  offset := 0
  fileSize := 0
  memSize := memSize
  isRead := true
  isWrite := isWrite
  isExecute := isExecute

/-- A firmware with a little memory and an ELF reader that finds these headers. -/
def smallPlatform (programHeaders : List Release.ProgramHeader) : Platform where
  sha256 _ := Vector.replicate 32 0
  validKey _ := false
  verifyStrict _ _ _ := false
  trustedPublicKeyHex := none
  elfFile _ := some
    { entryPoint := 0, phCount := programHeaders.length, programHeaders, sections := [] }
  allocatePages _ count := if count ≤ 16 then some 0x200000 else none

theorem smallPlatform_grantsMemory (headers : List Release.ProgramHeader) :
    GrantsMemory (smallPlatform headers) where
  nonnull kind count pages granted := by
    obtain ⟨-, same⟩ := Option.ite_none_right_eq_some.mp granted
    cases same
    decide
  physical kind count pages granted := by
    obtain ⟨small, same⟩ := Option.ite_none_right_eq_some.mp granted
    cases same
    simp only [pageSize]
    omega

/-- Two segments in the last two pages, neither of them writable. -/
def edgeHeaders : List Release.ProgramHeader :=
  [clearedHeader 0xffffffffffffe000 1 false true, clearedHeader 0xfffffffffffff000 1 false true]

/-- No segment wraps around and no page is shared, but the last page is not in the span. -/
theorem last_page_refused :
    ∃ info image, Release.parseKernelImage (smallPlatform edgeHeaders) [] = some info ∧
      stageKernelSegments (smallPlatform edgeHeaders) info [] = some image ∧
      (∀ segment ∈ info.segments, segment.virtualAddress + segment.memorySize < size) ∧
      ¬SharedPage info.segments ∧ kernelPageMappings image = .error .kernelImageConflict := by
  obtain ⟨info, parsed⟩ : ∃ info,
      Release.parseKernelImage (smallPlatform edgeHeaders) [] = some info := ⟨_, rfl⟩
  have refused : (stageKernelSegments (smallPlatform edgeHeaders) info []).map kernelPageMappings =
      some (.error .kernelImageConflict) := by
    cases parsed
    decide +kernel
  have readOnly : ∀ segment ∈ info.segments, isWritable segment = false ∧
      segment.virtualAddress + segment.memorySize < size := by
    cases parsed
    decide +kernel
  obtain ⟨image, staged, conflict⟩ := Option.map_eq_some_iff.mp refused
  refine ⟨info, image, parsed, staged, fun segment mem => (readOnly segment mem).2, ?_, conflict⟩
  rintro ⟨virt, -, ⟨segment, mem, -, writable⟩, -⟩
  rw [(readOnly segment mem).1] at writable
  cases writable

/-- Code in one page and data in the next. -/
def codeAndData : List Release.ProgramHeader :=
  [clearedHeader 0x200000 0x1000 false true, clearedHeader 0x201000 8 true false]

theorem staged_page_plan_code_and_data :
    ∃ info image mappings,
      Release.parseKernelImage (smallPlatform codeAndData) [] = some info ∧
      stageKernelSegments (smallPlatform codeAndData) info [] = some image ∧
      kernelPageMappings image = .ok mappings ∧ PlansImage info.segments image mappings := by
  obtain ⟨info, parsed⟩ : ∃ info,
      Release.parseKernelImage (smallPlatform codeAndData) [] = some info := ⟨_, rfl⟩
  have isStaged : (stageKernelSegments (smallPlatform codeAndData) info []).isSome = true := by
    cases parsed
    decide +kernel
  have isSegments : info.segments =
      [Release.segmentOfHeader (clearedHeader 0x200000 0x1000 false true),
        Release.segmentOfHeader (clearedHeader 0x201000 8 true false)] := by
    cases parsed
    decide +kernel
  obtain ⟨image, staged⟩ := Option.isSome_iff_exists.mp isStaged
  have plan := staged_page_plan (smallPlatform_grantsMemory _) staged (by
    rw [isSegments]
    decide +kernel)
  obtain ⟨mappings, isMappings, plans⟩ := (plan.1 (by
    rw [isSegments]
    simp only [List.forall_mem_cons]
    exact ⟨by decide +kernel, by decide +kernel, nofun⟩)).2 (by
    rw [isSegments]
    rintro ⟨virt, aligned, ⟨data, dataMem, inData, writable⟩, code, codeMem, inCode, executable⟩
    simp only [List.mem_cons, List.not_mem_nil, or_false] at dataMem codeMem
    obtain rfl | rfl := dataMem
    · exact absurd writable (by decide +kernel)
    obtain rfl | rfl := codeMem
    · have behind := inCode.2.2
      have before := inData.2.1
      change virt < 0x200000 + 0x1000 at behind
      change 0x201000 < virt + 4096 at before
      simp only [pageSize] at aligned
      omega
    · exact absurd executable (by decide +kernel))
  exact ⟨info, image, mappings, parsed, staged, isMappings, plans⟩

end CodexOS.Vm
