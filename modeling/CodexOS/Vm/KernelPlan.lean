import CodexOS.Vm.BootMap
import CodexOS.Memory.Regions

/-! # The plan of the kernel image

Each page of the image has the rights of all segments it belongs to, and the runs of
equal pages that are mapped are the plan again.
-/

namespace CodexOS.Vm

open Effect Word64 Memory VirtualMemoryManager
open Release (KernelImageInfo KernelImageSegment)

variable {segment : KernelImageSegment} {segments : List KernelImageSegment}
  {plan plan' : List KernelPagePermissions} {base index : Nat}

/-- The place of a segment's first page in the image. -/
def firstPage (base : Nat) (segment : KernelImageSegment) : Nat :=
  (alignDown segment.virtualAddress - base) / pageSize

def touches (base index : Nat) (segment : KernelImageSegment) : Bool :=
  isStaged segment && firstPage base segment ≤ index &&
    index < firstPage base segment + segment.loadPageCount

/-- The page gets the rights of the segments too. -/
def KernelPagePermissions.join (page : KernelPagePermissions) (segments : List KernelImageSegment) :
    KernelPagePermissions where
  present := page.present || !segments.isEmpty
  writable := page.writable || segments.any isWritable
  executable := page.executable || segments.any isExecutable

def KernelPagePermissions.Safe (page : KernelPagePermissions) : Prop :=
  ¬(page.writable = true ∧ page.executable = true)

theorem of_grant (ok : grant segment page = .ok page') :
    page' = page.join [segment] ∧ page'.Safe := by
  unfold grant at ok
  dsimp only at ok
  split at ok
  · cases ok
  · rename_i safe
    cases ok
    exact ⟨by simp [KernelPagePermissions.join], fun both => safe (Bool.and_eq_true_iff.mpr both)⟩

theorem of_grants {pages pages' : List KernelPagePermissions}
    (ok : pages.mapM (grant segment) = .ok pages') :
    pages' = pages.map (·.join [segment]) ∧ ∀ page ∈ pages', page.Safe := by
  induction pages generalizing pages' with
  | nil =>
    cases ok
    exact ⟨rfl, fun _ mem => absurd mem List.not_mem_nil⟩
  | cons page pages ih =>
    rw [List.mapM_cons] at ok
    obtain ⟨page', granted, ok⟩ := of_except_bind ok
    obtain ⟨rest, grantedRest, ok⟩ := of_except_bind ok
    cases ok
    obtain ⟨isPage, safe⟩ := of_grant granted
    obtain ⟨isRest, safeRest⟩ := ih grantedRest
    refine ⟨by rw [isPage, isRest, List.map_cons], fun other mem => ?_⟩
    rcases List.mem_cons.mp mem with rfl | mem
    · exact safe
    · exact safeRest other mem

theorem join_append (page : KernelPagePermissions) (first second : List KernelImageSegment) :
    (page.join first).join second = page.join (first ++ second) := by
  cases first <;> simp [KernelPagePermissions.join, Bool.or_assoc]

/-- A plan in which the segments were entered: each page has the rights of those it belongs to. -/
structure Planned (base : Nat) (segments : List KernelImageSegment)
    (plan plan' : List KernelPagePermissions) : Prop where
  pages : ∀ i : Nat, plan'[i]? = plan[i]?.map (·.join (segments.filter (touches base i)))
  safe : (∀ page ∈ plan, page.Safe) → ∀ page ∈ plan', page.Safe
  fits : ∀ segment ∈ segments, isStaged segment = true →
    firstPage base segment + segment.loadPageCount ≤ plan.length

theorem Planned.length (planned : Planned base segments plan plan') :
    plan'.length = plan.length := by
  have same : ∀ i, plan'.length ≤ i ↔ plan.length ≤ i := by
    intro i
    rw [← List.getElem?_eq_none_iff, planned.pages, Option.map_eq_none_iff,
      List.getElem?_eq_none_iff]
  exact Nat.le_antisymm ((same _).mpr (Nat.le_refl _)) ((same _).mp (Nat.le_refl _))

theorem getElem?_change_slice {β : Type} {f : β → β} {l : List β} {first count : Nat}
    (fits : first + count ≤ l.length) (i : Nat) :
    (l.take first ++ ((l.drop first).take count).map f ++ l.drop (first + count))[i]? =
      l[i]?.map fun b => if first ≤ i ∧ i < first + count then f b else b := by
  have front : (l.take first).length = first := by
    rw [List.length_take]
    omega
  have middle : (((l.drop first).take count).map f).length = count := by
    rw [List.length_map, List.length_take, List.length_drop]
    omega
  rw [List.append_assoc, List.getElem?_append, front]
  split
  · rename_i before
    have outside : ¬(first ≤ i ∧ i < first + count) := by omega
    simp [before, outside]
  · rename_i notBefore
    rw [List.getElem?_append, middle]
    split
    · rename_i inside
      have within : first ≤ i ∧ i < first + count := by omega
      have place : first + (i - first) = i := by omega
      simp [inside, within, place]
    · rename_i behind
      have outside : ¬(first ≤ i ∧ i < first + count) := by omega
      have place : first + count + (i - first - count) = i := by omega
      simp [outside, place]

theorem of_planSegment (staged : isStaged segment = true)
    (ok : planSegment base segment plan = .ok plan') : Planned base [segment] plan plan' := by
  obtain ⟨offset, isOffset, ok⟩ := of_except_bind ok
  obtain ⟨endPage, isEnd, ok⟩ := of_except_bind ok
  replace isOffset := of_orError isOffset
  replace isEnd := of_orError isEnd
  rw [checkedSub_eq_some] at isOffset
  rw [← isOffset.2, checkedAdd_eq_some] at isEnd
  rw [← isEnd.2, ← isOffset.2, ← firstPage] at ok
  split at ok
  · cases ok
  rename_i fits
  rw [Nat.not_lt] at fits
  obtain ⟨granted, isGranted, ok⟩ := of_except_bind ok
  cases ok
  obtain ⟨isMap, safe⟩ := of_grants isGranted
  constructor
  case pages =>
    intro i
    rw [isMap, getElem?_change_slice fits]
    congr 1
    funext page
    by_cases inside : firstPage base segment ≤ i ∧ i < firstPage base segment + segment.loadPageCount
    · rw [if_pos inside]
      simp [touches, staged, inside]
    · rw [if_neg inside]
      simp [touches, staged, inside, KernelPagePermissions.join]
  case safe =>
    intro before page mem
    rw [List.mem_append, List.mem_append] at mem
    rcases mem with (front | middle) | rest
    · exact before page (List.mem_of_mem_take front)
    · exact safe page middle
    · exact before page (List.mem_of_mem_drop rest)
  case fits =>
    intro other mem _
    rw [List.mem_singleton.mp mem]
    exact fits

theorem of_planSegments (ok : planSegments base segments plan = .ok plan') :
    Planned base segments plan plan' := by
  induction segments generalizing plan with
  | nil =>
    cases ok
    refine ⟨fun i => ?_, fun safe => safe, fun _ mem => absurd mem List.not_mem_nil⟩
    simp [KernelPagePermissions.join]
  | cons segment segments ih =>
    unfold planSegments at ok
    split at ok
    · rename_i skipped
      rw [Bool.not_eq_true'] at skipped
      obtain ⟨pages, safe, fits⟩ := ih ok
      refine ⟨fun i => ?_, safe, fun other mem staged => ?_⟩
      · rw [pages i, List.filter_cons, if_neg (by simp [touches, skipped])]
      · rcases List.mem_cons.mp mem with rfl | mem
        · rw [skipped] at staged
          cases staged
        · exact fits other mem staged
    · rename_i staged
      rw [Bool.not_eq_true', Bool.not_eq_false] at staged
      obtain ⟨between, first, ok⟩ := of_except_bind ok
      have entered := of_planSegment staged first
      have behind := ih ok
      refine ⟨fun i => ?_, fun safe => behind.safe (entered.safe safe), fun other mem staged => ?_⟩
      · rw [behind.pages i, entered.pages i, Option.map_map]
        congr 1
        funext page
        rw [Function.comp_apply, join_append, ← List.filter_append, List.singleton_append]
      · rcases List.mem_cons.mp mem with rfl | mem
        · exact entered.fits other (List.mem_singleton.mpr rfl) staged
        · rw [← entered.length]
          exact behind.fits other mem staged

/-- The plan that a list of runs stands for. -/
def expandRuns (runs : List (Nat × KernelPagePermissions)) : List KernelPagePermissions :=
  runs.flatMap fun run => List.replicate run.1 run.2

theorem expand_pageRuns (plan : List KernelPagePermissions) : expandRuns (pageRuns plan) = plan := by
  induction plan with
  | nil => rfl
  | cons page pages ih =>
    unfold pageRuns
    cases runs : pageRuns pages with
    | nil =>
      rw [runs] at ih
      rw [← ih]
      rfl
    | cons run rest =>
      rw [runs] at ih
      dsimp only
      split
      · rename_i same
        rw [← ih, ← same]
        rfl
      · rw [← ih]
        rfl

/-- Some mapping takes page `index` of the image to where it is loaded, with these rights. -/
def Serves (base loadBase index : Nat) (page : KernelPagePermissions)
    (mapping : KernelPageMapping) : Prop :=
  ∃ i < mapping.pageCount,
    mapping.virtStart + pageSize * i = base + pageSize * index ∧
    mapping.physStart + pageSize * i = loadBase + pageSize * index ∧
    mapping.writable = page.writable ∧ mapping.executable = page.executable

theorem of_mappingsOfRuns {loadBase : Nat} {runs : List (Nat × KernelPagePermissions)}
    {mappings : List KernelPageMapping}
    (ok : mappingsOfRuns base loadBase index runs = .ok mappings) {i : Nat}
    {page : KernelPagePermissions} (isPage : (expandRuns runs)[i]? = some page)
    (present : page.present = true) :
    ∃ mapping ∈ mappings, Serves base loadBase (index + i) page mapping := by
  induction runs generalizing index mappings i with
  | nil => cases isPage
  | cons run runs ih =>
    obtain ⟨count, permissions⟩ := run
    rw [expandRuns, List.flatMap_cons, ← expandRuns, List.getElem?_append,
      List.length_replicate] at isPage
    have later : ∀ {rest}, mappingsOfRuns base loadBase (index + count) runs = .ok rest →
        ¬i < count → ∃ mapping ∈ rest, Serves base loadBase (index + i) page mapping := by
      intro rest ok behind
      rw [if_neg behind] at isPage
      have served := ih ok isPage
      rw [show index + count + (i - count) = index + i by omega] at served
      exact served
    unfold mappingsOfRuns at ok
    split at ok
    · rename_i absent
      refine later ok fun inside => ?_
      rw [if_pos inside, List.getElem?_replicate, if_pos inside] at isPage
      cases isPage
      rw [present] at absent
      cases absent
    · obtain ⟨offset, isOffset, ok⟩ := of_except_bind ok
      obtain ⟨virtStart, isVirt, ok⟩ := of_except_bind ok
      obtain ⟨physStart, isPhys, ok⟩ := of_except_bind ok
      obtain ⟨rest, isRest, ok⟩ := of_except_bind ok
      cases ok
      by_cases inside : i < count
      · rw [if_pos inside, List.getElem?_replicate, if_pos inside] at isPage
        cases isPage
        obtain ⟨-, rfl⟩ := checkedMul_eq_some.mp (of_orError isOffset)
        obtain ⟨-, rfl⟩ := checkedAdd_eq_some.mp (of_orError isVirt)
        obtain ⟨-, rfl⟩ := checkedAdd_eq_some.mp (of_orError isPhys)
        refine ⟨_, List.mem_cons_self, i, inside, ?_, ?_, rfl, rfl⟩
        · dsimp only
          rw [Nat.mul_add, Nat.mul_comm index, Nat.add_assoc]
        · dsimp only
          rw [Nat.mul_add, Nat.mul_comm index, Nat.add_assoc]
      · obtain ⟨mapping, mem, serves⟩ := later isRest inside
        exact ⟨mapping, List.mem_cons_of_mem _ mem, serves⟩

def covers (virt : Nat) (segment : KernelImageSegment) : Bool :=
  isStaged segment && alignDown segment.virtualAddress ≤ virt &&
    virt < alignDown segment.virtualAddress + pageSize * segment.loadPageCount

theorem touches_eq_covers (baseAligned : base % pageSize = 0)
    (low : isStaged segment = true → base ≤ alignDown segment.virtualAddress) :
    touches base index segment = covers (base + pageSize * index) segment := by
  cases staged : isStaged segment with
  | false => simp [touches, covers, staged]
  | true =>
    have aligned := alignDown_mod segment.virtualAddress
    have below := low staged
    rw [touches, covers, staged, Bool.true_and, Bool.true_and]
    congr 1
    · rw [decide_eq_decide, firstPage]
      simp only [pageSize] at *
      omega
    · rw [decide_eq_decide, firstPage]
      simp only [pageSize] at *
      omega

theorem of_imageBase (isBase : imageBase segments = some base) :
    base % pageSize = 0 ∧ ∀ segment ∈ segments, isStaged segment = true →
      base ≤ alignDown segment.virtualAddress := by
  obtain ⟨mem, least⟩ := List.min?_eq_some_iff.mp isBase
  obtain ⟨first, -, rfl⟩ := List.mem_map.mp mem
  refine ⟨alignDown_mod _, fun segment mem staged => least _ ?_⟩
  exact List.mem_map.mpr ⟨segment, List.mem_filter.mpr ⟨mem, staged⟩, rfl⟩

/-- The rights of a page of the image: those of all segments it belongs to. -/
def imageRights (segments : List KernelImageSegment) (virt : Nat) : KernelPagePermissions :=
  KernelPagePermissions.default.join (segments.filter (covers virt))

/-- Every page of a staged segment is served, and none is writable and executable. -/
theorem of_kernelPageMappings {info : KernelImageInfo} {mappings : List KernelPageMapping}
    (loaded : info.loadPageCount ≠ 0) (based : info.loadBase ≠ 0)
    (ok : kernelPageMappings info = .ok mappings) :
    ∃ base, imageBase info.segments = some base ∧
      ∀ virt segment, virt % pageSize = 0 → segment ∈ info.segments → covers virt segment = true →
        base ≤ virt ∧ virt < base + pageSize * info.loadPageCount ∧
        (imageRights info.segments virt).Safe ∧
        ∃ mapping ∈ mappings,
          Serves base info.loadBase ((virt - base) / pageSize) (imageRights info.segments virt)
            mapping := by
  rw [kernelPageMappings, if_neg (by simp [loaded, based])] at ok
  obtain ⟨base, isBase, ok⟩ := of_except_bind ok
  obtain ⟨plan, isPlan, ok⟩ := of_except_bind ok
  replace isBase := of_orError isBase
  obtain ⟨baseAligned, low⟩ := of_imageBase isBase
  have planned := of_planSegments isPlan
  refine ⟨base, isBase, fun virt segment aligned mem covered => ?_⟩
  have staged : isStaged segment = true := by
    rw [covers, Bool.and_eq_true, Bool.and_eq_true] at covered
    exact covered.1.1
  have above : base ≤ virt := by
    rw [covers, Bool.and_eq_true, Bool.and_eq_true] at covered
    exact (low segment mem staged).trans (of_decide_eq_true covered.1.2)
  have place : base + pageSize * ((virt - base) / pageSize) = virt := by
    simp only [pageSize] at *
    omega
  have touched : touches base ((virt - base) / pageSize) segment = true := by
    rw [touches_eq_covers baseAligned (low segment mem), place, covered]
  have inPlan : (virt - base) / pageSize < info.loadPageCount := by
    have fits := planned.fits segment mem staged
    rw [List.length_replicate] at fits
    rw [touches, Bool.and_eq_true] at touched
    exact (of_decide_eq_true touched.2).trans_le fits
  have sameTouching : info.segments.filter (touches base ((virt - base) / pageSize)) =
      info.segments.filter (covers virt) := by
    apply List.filter_congr
    intro other mem
    rw [touches_eq_covers baseAligned (low other mem), place]
  have isPage : plan[(virt - base) / pageSize]? = some (imageRights info.segments virt) := by
    rw [planned.pages, List.getElem?_replicate, if_pos inPlan, sameTouching]
    rfl
  refine ⟨above, ?_, ?_, ?_⟩
  · simp only [pageSize] at *
    omega
  · refine planned.safe ?_ _ (List.mem_of_getElem? isPage)
    intro page mem
    rw [List.eq_of_mem_replicate mem]
    exact fun both => Bool.false_ne_true both.1
  · have present : (imageRights info.segments virt).present = true := by
      have some := List.mem_filter.mpr ⟨mem, covered⟩
      cases touching : info.segments.filter (covers virt) with
      | nil =>
        rw [touching] at some
        cases some
      | cons first rest =>
        rw [imageRights, touching]
        rfl
    have served := of_mappingsOfRuns ok (by rw [expand_pageRuns]; exact isPage) present
    rw [Nat.zero_add] at served
    exact served

end CodexOS.Vm
