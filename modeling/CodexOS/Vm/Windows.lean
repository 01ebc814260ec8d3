import CodexOS.Lib.Entering
import CodexOS.Memory.Regions
import CodexOS.Vm.Refinement

/-! # Ranges that were entered

A range operation that returns has bound its pages one by one and touched no others,
and what is entered later leaves them as they are.
-/

namespace CodexOS.Vm

open Effect Word64 Memory VirtualMemoryManager Entering

variable {α : Type} [PageSource α] {supply : Supply α} {machine machine' : Machine α}

section

variable {virt phys count start stop new : Nat} {frames : List Nat} {writable executable : Bool}

/-- The pages from `virt` on are bound to those from `phys` on. -/
def PageMap.Binds (map : PageMap) (virt phys count : Nat) (writable executable : Bool) : Prop :=
  ∀ i < count, map (pageNumber (virt + pageSize * i)) =
    some { page := entryAddress (phys + pageSize * i), writable, executable }

theorem PageMap.kept (adds : Relation.ReflTransGen Adds map map')
    (bound : map number = some binding) :
    map' number = some binding := by
  induction adds with
  | refl => exact bound
  | tail _ add ih =>
    obtain ⟨other, added, unbound, rfl⟩ := add
    have elsewhere : number ≠ other := by
      rintro rfl
      rw [unbound] at ih
      cases ih
    rw [PageMap.bind, Function.update_of_ne elsewhere, ih]

theorem PageMap.Binds.kept (binds : map.Binds virt phys count writable executable)
    (adds : Relation.ReflTransGen Adds map map') :
    map'.Binds virt phys count writable executable :=
  fun i inside => PageMap.kept adds (binds i inside)

theorem Adding.added (adding : Adding supply x) (coherent : Coherent supply machine)
    (run : x.run machine = .ok b machine') :
    Added supply machine machine' :=
  after_ok run ▸ adding machine coherent

/-- What a range operation that returns has done. -/
structure Opened (supply : Supply α) (machine machine' : Machine α) (virt phys count : Nat)
    (writable executable : Bool) : Prop where
  added : Added supply machine machine'
  binds : machine'.pageMap.Binds virt phys count writable executable
  others : ∀ number, (∀ i < count, number ≠ pageNumber (virt + pageSize * i)) →
    machine'.pageMap number = machine.pageMap number

theorem Entered.bound (entered : Entered supply machine number binding isNew machine') :
    machine'.pageMap number = some binding ∧
      ∀ other ≠ number, machine'.pageMap other = machine.pageMap other := by
  obtain ⟨-, map⟩ := entered
  cases isNew with
  | true =>
    rw [map.2, PageMap.bind]
    exact ⟨Function.update_self .., fun _ other => Function.update_of_ne other ..⟩
  | false =>
    rw [map.2]
    exact ⟨map.1, fun _ _ => rfl⟩

theorem next_page (base i : Nat) :
    base + pageSize + pageSize * i = base + pageSize * (i + 1) := by
  rw [Nat.mul_succ]
  omega

/-- What a range enters: the pages from `virt` on, bound to these frames. -/
def rangeEntries (writable executable : Bool) (virt : Nat) : List Nat → List (PageNumber × Binding)
  | [] => []
  | frame :: frames =>
    (pageNumber virt, { page := entryAddress frame, writable, executable }) ::
      rangeEntries writable executable (virt + pageSize) frames

/-- The frames from `phys` on. -/
def consecutive (phys : Nat) : Nat → List Nat
  | 0 => []
  | count + 1 => phys :: consecutive (phys + pageSize) count

theorem length_consecutive (phys count : Nat) : (consecutive phys count).length = count := by
  induction count generalizing phys with
  | zero => rfl
  | succ count ih => rw [consecutive, List.length_cons, ih]

theorem getElem?_consecutive (inside : i < count) :
    (consecutive phys count)[i]? = some (phys + pageSize * i) := by
  induction count generalizing phys i with
  | zero => cases inside
  | succ count ih =>
    cases i with
    | zero => rfl
    | succ i =>
      rw [consecutive, List.getElem?_cons_succ, ih (Nat.lt_of_succ_lt_succ inside), next_page]

theorem getElem?_rangeEntries (i : Nat) :
    (rangeEntries writable executable virt frames)[i]? = frames[i]?.map fun frame =>
      (pageNumber (virt + pageSize * i), { page := entryAddress frame, writable, executable }) := by
  induction frames generalizing virt i with
  | nil => rfl
  | cons frame frames ih =>
    cases i with
    | zero => rfl
    | succ i => rw [rangeEntries, List.getElem?_cons_succ, ih, next_page, List.getElem?_cons_succ]

theorem keys_rangeEntries :
    (rangeEntries writable executable virt frames).map Prod.fst =
      (List.range frames.length).map fun i => pageNumber (virt + pageSize * i) := by
  refine List.ext_getElem? fun i => ?_
  rw [List.getElem?_map, List.getElem?_map, getElem?_rangeEntries]
  by_cases inside : i < frames.length
  · rw [List.getElem?_eq_getElem inside, List.getElem?_range inside]
    rfl
  · rw [List.getElem?_eq_none (Nat.le_of_not_lt inside),
      List.getElem?_eq_none (by rw [List.length_range]; exact Nat.le_of_not_lt inside)]
    rfl

theorem mem_rangeEntries (isFrame : frames[i]? = some frame) :
    (pageNumber (virt + pageSize * i), { page := entryAddress frame, writable, executable }) ∈
      rangeEntries writable executable virt frames := by
  refine List.mem_of_getElem? (i := i) ?_
  rw [getElem?_rangeEntries, isFrame]
  rfl

theorem Entered.enters (entered : Entered supply machine number binding isNew machine')
    (rest : Enters machine'.pageMap entries new map) :
    Enters machine.pageMap ((number, binding) :: entries) ((if isNew then 1 else 0) + new) map := by
  obtain ⟨-, step⟩ := entered
  cases isNew with
  | true =>
    rw [step.2] at rest
    rw [if_pos rfl, Nat.add_comm]
    exact .new step.1 rest
  | false =>
    rw [step.2] at rest
    rw [if_neg Bool.false_ne_true, Nat.zero_add]
    exact .old step.1 rest

theorem enters_of_mapPages (coherent : Coherent supply machine)
    (run : (mapPages writable executable virt phys count).run machine = .ok new machine') :
    Enters machine.pageMap (rangeEntries writable executable virt (consecutive phys count)) new
      machine'.pageMap := by
  induction count generalizing virt phys new machine with
  | zero =>
    cases run
    exact .nil
  | succ count ih =>
    obtain ⟨isNew, between, entered, run⟩ := of_bind_ok run
    obtain ⟨rest, behind, mapped, run⟩ := of_bind_ok run
    cases run
    have entry := spec_ensureLeafMapping virt phys writable executable machine
      ⟨Extends.refl coherent, rfl⟩
    rw [entered] at entry
    exact entry.enters (ih entry.1.coherent mapped)

/-- A run of `mapPages` that returns has bound its pages, and no others. -/
theorem of_mapPages (coherent : Coherent supply machine)
    (run : (mapPages writable executable virt phys count).run machine = .ok new machine') :
    Opened supply machine machine' virt phys count writable executable := by
  have enters := enters_of_mapPages coherent run
  refine ⟨(Adding.mapPages _ _ _ _ _).added coherent run, fun i inside => ?_,
    fun number outside => enters.others fun mem => ?_⟩
  · exact enters.bound (mem_rangeEntries (getElem?_consecutive inside))
  · rw [keys_rangeEntries, length_consecutive] at mem
    obtain ⟨i, isIn, rfl⟩ := List.mem_map.mp mem
    exact outside i (List.mem_range.mp isIn) rfl

omit [PageSource α] in
theorem of_orFail (run : (orFail value error).run machine = .ok b machine') :
    value = some b ∧ machine' = machine := by
  cases value with
  | none => cases run
  | some b =>
    cases run
    exact ⟨rfl, rfl⟩

omit [PageSource α] in
theorem orFail_ok (isSome : value = some b) : (orFail value error).run machine = .ok b machine := by
  rw [isSome]
  rfl

omit [PageSource α] in
theorem recordMapping_pageMap (run : (recordMapping mapping).run machine = .ok done machine') :
    machine'.pageMap = machine.pageMap := by
  unfold recordMapping at run
  split at run
  · cases run
    rfl
  · cases run
    rfl

theorem Opened.recorded
    (opened : Opened supply machine machine' virt phys count writable executable)
    (run : (recordMapping mapping).run machine' = .ok done machine'') :
    Opened supply machine machine'' virt phys count writable executable := by
  have same := recordMapping_pageMap run
  have recorded := (Adding.recordMapping mapping).added opened.added.1.coherent run
  refine ⟨opened.added.trans recorded, ?_, ?_⟩
  · rw [same]
    exact opened.binds
  · rw [same]
    exact opened.others

/-- How many pages an identity range has. -/
def pagesBetween (start stop : Nat) : Nat :=
  (alignUp stop - alignDown start) / pageSize

/-- What every range operation does once its checks have passed. -/
def enterRange (virtStart physStart pageCount : Nat) (writable executable : Bool) : VmM α Nat := do
  let newlyMappedPages ← mapPages writable executable virtStart physStart pageCount
  recordMapping { virtStart, physStart, pageCount := newlyMappedPages, writable, executable }
  return newlyMappedPages

/-- The checks of `map_fixed_range` on its arguments. -/
abbrev FixedRange (virt phys count : Nat) : Prop :=
  count = 0 ∨ virt % pageSize = 0 ∧ phys % pageSize = 0 ∧ virt + count * pageSize < size

theorem mapIdentityRange_ok_iff :
    (mapIdentityRange start stop writable executable).run machine = .ok new machine' ↔
      machine.manager.initialized = true ∧
        (enterRange (alignDown start) (alignDown start) (pagesBetween start stop) writable
          executable).run machine = .ok new machine' := by
  change EStateM.run (if !machine.manager.initialized then _ else _) machine = _ ↔ _
  cases machine.manager.initialized with
  | false => exact ⟨nofun, nofun⟩
  | true =>
    simp only [Bool.not_true, Bool.false_eq_true, if_false, true_and]
    split
    · rename_i empty
      rw [pagesBetween, Nat.sub_eq_zero_of_le empty]
      rfl
    · rfl

theorem mapFixedRange_ok_iff :
    (mapFixedRange virt phys count writable executable).run machine = .ok new machine' ↔
      machine.manager.initialized = true ∧ FixedRange virt phys count ∧
        (enterRange virt phys count writable executable).run machine = .ok new machine' := by
  change EStateM.run (if !machine.manager.initialized then _ else _) machine = _ ↔ _
  cases machine.manager.initialized with
  | false => exact ⟨nofun, nofun⟩
  | true =>
    simp only [Bool.not_true, Bool.false_eq_true, if_false, true_and]
    by_cases empty : count = 0
    · subst empty
      simp only [if_true, FixedRange, true_or, true_and]
      rfl
    rw [if_neg empty]
    constructor
    · intro run
      split at run
      · cases run
      split at run
      · cases run
      rename_i virtAligned physAligned
      obtain ⟨bytes, _, multiplied, run⟩ := of_bind_ok run
      obtain ⟨isProduct, same⟩ := of_orFail multiplied
      obtain ⟨-, rfl⟩ := checkedMul_eq_some.mp isProduct
      rw [same] at run
      obtain ⟨virtEnd, _, added, run⟩ := of_bind_ok run
      obtain ⟨isSum, same⟩ := of_orFail added
      rw [same] at run
      obtain ⟨fits, -⟩ := checkedAdd_eq_some.mp isSum
      exact ⟨.inr ⟨not_not.mp virtAligned, not_not.mp physAligned, fits⟩, run⟩
    · rintro ⟨isEmpty | ⟨virtAligned, physAligned, fits⟩, run⟩
      · exact absurd isEmpty empty
      rw [if_neg (not_not.mpr virtAligned), if_neg (not_not.mpr physAligned),
        checkedMul_eq_some.mpr ⟨by omega, rfl⟩]
      change EStateM.run (orFail (checkedAdd virt (count * pageSize)) _ >>= _) machine = _
      rw [checkedAdd_eq_some.mpr ⟨fits, rfl⟩]
      exact run

theorem mapWindowRange_ok_iff :
    (mapWindowRange virt start stop writable executable).run machine = .ok new machine' ↔
      (alignUp stop ≤ alignDown start ∨ machine.manager.initialized = true) ∧
        FixedRange (virt - (start - alignDown start)) (alignDown start) (pagesBetween start stop) ∧
        (enterRange (virt - (start - alignDown start)) (alignDown start) (pagesBetween start stop)
          writable executable).run machine = .ok new machine' := by
  unfold mapWindowRange
  dsimp only
  split
  · rename_i empty
    rw [pagesBetween, Nat.sub_eq_zero_of_le empty]
    simp only [empty, FixedRange, Nat.zero_div, true_or, true_and]
    rfl
  · rename_i some
    rw [mapFixedRange_ok_iff, or_iff_right some]
    rfl

theorem of_enterRange (coherent : Coherent supply machine)
    (run : (enterRange virt phys count writable executable).run machine = .ok new machine') :
    Opened supply machine machine' virt phys count writable executable := by
  obtain ⟨pages, between, mapped, run⟩ := of_bind_ok run
  obtain ⟨_, behind, recorded, run⟩ := of_bind_ok run
  cases run
  exact (of_mapPages coherent mapped).recorded recorded

/-- A page between the bounds of a range is one of those the range was entered by. -/
theorem PageMap.Binds.between {map : PageMap} {page : Nat}
    (binds : map.Binds virt phys (pagesBetween start stop) writable executable)
    (aligned : page % pageSize = 0) (low : alignDown start ≤ page) (high : page < alignUp stop) :
    map (pageNumber (virt + (page - alignDown start))) =
      some { page := entryAddress (phys + (page - alignDown start)), writable, executable } := by
  have startAligned := alignDown_mod start
  have stopAligned : alignUp stop % pageSize = 0 := alignDown_mod _
  have whole : pageSize * ((page - alignDown start) / pageSize) = page - alignDown start := by
    simp only [pageSize] at *
    omega
  have bound := binds ((page - alignDown start) / pageSize) (by
    simp only [pagesBetween, pageSize] at *
    omega)
  rw [whole] at bound
  exact bound

end

end CodexOS.Vm
