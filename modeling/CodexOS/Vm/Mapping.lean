import CodexOS.Vm.Coherence

/-! # Entering pages

What the operations that enter pages do to the map the tables stand for. Making
tables changes nothing in it; a leaf adds the binding of one page. An operation over a
range is a sequence of these, of which a failure may have done only a part.
-/

namespace CodexOS.Vm

open Effect VirtualMemoryManager TableTree

variable {α : Type} [PageSource α] {supply : Supply α} {start : Machine α}

/-- The map that the tables of a machine stand for. -/
def Machine.pageMap (machine : Machine α) : PageMap :=
  machine.manager.tree.pageMap

/-- Tables were made, but no page was bound. -/
def Grown (supply : Supply α) (start machine : Machine α) : Prop :=
  Extends supply start machine ∧ machine.pageMap = start.pageMap

/-- There was no page left for a table. -/
def Exhausted (supply : Supply α) (start : Machine α) (error : VmError) (machine : Machine α) :
    Prop :=
  Grown supply start machine ∧ error = .outOfPhysicalPages

section

theorem Grown.asked (grown : Grown supply start machine) :
    Grown supply start machine.asked :=
  ⟨grown.1.trans grown.1.coherent.asked, grown.2⟩

variable {tables : VirtualMemoryManager → List Table} {index : Index}
  {create : Nat → VirtualMemoryManager → VirtualMemoryManager} {parent : Nat}

theorem getOrCreate_some {machine : Machine α}
    (found : (tables machine.manager).findIdx? (fun table => table.key = path) = some place) :
    (getOrCreate tables path create).run machine = .ok place machine := by
  simp only [getOrCreate, run_get_bind, found]
  rfl

theorem getOrCreate_none {machine : Machine α}
    (absent : (tables machine.manager).findIdx? (fun table => table.key = path) = none) :
    (getOrCreate tables path create).run machine =
      (takePage >>= fun phys => do
        modifyManager (create phys)
        return (tables machine.manager).length).run machine := by
  simp only [getOrCreate, run_get_bind, absent]

/-- The table is there afterwards, at the place that is returned. -/
theorem spec_getOrCreate (path : List Index) (inner : path.length < 3)
    (isLevel : ∀ manager, tables manager = manager.level (path.length + 1))
    (creates : ∀ phys manager, Located manager path parent →
      Creates path index phys manager (create phys manager))
    (initialized : ∀ phys manager, (create phys manager).initialized = manager.initialized)
    (active : ∀ phys manager, (create phys manager).active = manager.active) :
    Spec (fun machine => Grown supply start machine ∧ Located machine.manager path parent)
      (getOrCreate tables (path ++ [index]) create)
      (fun place machine =>
        Grown supply start machine ∧ Located machine.manager (path ++ [index]) place)
      (Exhausted supply start) := by
  rintro machine ⟨grown, located⟩
  cases place : (tables machine.manager).findIdx? fun table => table.key = path ++ [index] with
  | some place' =>
    rw [getOrCreate_some place]
    refine ⟨grown, ?_⟩
    unfold Located
    rw [List.length_append, ← place, isLevel]
    rfl
  | none =>
    rw [getOrCreate_none place]
    have absent : ∀ table ∈ machine.manager.level (path.length + 1),
        table.key ≠ path ++ [index] := by
      rw [isLevel, List.findIdx?_eq_none_iff] at place
      intro table mem
      simpa using place table mem
    have vacant : machine.manager.tree (path ++ [index]) = none := by
      rw [VirtualMemoryManager.tree, List.length_append, Option.map_eq_none_iff]
      exact Keyed.find_eq_none.mpr absent
    cases answer : (PageSource.allocatePage machine.pages).1 with
    | none =>
      rw [bind_error (takePage_none answer)]
      exact ⟨grown.asked, rfl⟩
    | some phys =>
      rw [bind_ok (takePage_some answer)]
      have made := creates phys machine.manager located
      have extended := grown.1.coherent.create answer located.isSome inner vacant made
        (initialized phys _) (active phys _)
      refine ⟨⟨grown.1.trans extended, ?_⟩, ?_⟩
      · change (create phys machine.manager).tree.pageMap = _
        rw [made.tree vacant, Wired.pageMap_link vacant inner]
        exact grown.2
      · change Located (create phys machine.manager) _ _
        unfold Located
        rw [List.length_append, show [index].length = 1 from rfl, made.child,
          List.findIdx?_append, ← isLevel, place]
        simp

theorem spec_getOrCreateL3 (l4 : Index) :
    Spec (Grown supply start) (getOrCreateL3 l4)
      (fun place machine => Grown supply start machine ∧ Located machine.manager [l4] place)
      (Exhausted supply start) := by
  refine Spec.weaken (spec_getOrCreate [] (by decide) (fun _ => rfl) ?_
    (fun _ _ => rfl) fun _ _ => rfl) (fun machine grown => ⟨grown, located_root machine.manager⟩)
    (fun _ _ => id) fun _ _ => id
  intro phys manager _
  refine ⟨rfl, rfl, fun n other other' => ?_⟩
  match n with
  | 0 => exact absurd rfl other
  | 1 => exact absurd rfl other'
  | 2 => rfl
  | 3 => rfl
  | n + 4 => rfl

theorem spec_getOrCreateL2 (l4 l3 : Index) (parent : Nat) :
    Spec (fun machine => Grown supply start machine ∧ Located machine.manager [l4] parent)
      (getOrCreateL2 l4 l3 parent)
      (fun place machine => Grown supply start machine ∧ Located machine.manager [l4, l3] place)
      (Exhausted supply start) := by
  refine spec_getOrCreate [l4] (by simp) (fun _ => rfl) ?_ (fun _ _ => rfl)
    fun _ _ => rfl
  intro phys manager located
  refine ⟨(Keyed.of_findIdx? located).2 _, rfl, fun n other other' => ?_⟩
  match n with
  | 0 => rfl
  | 1 => exact absurd rfl other
  | 2 => exact absurd rfl other'
  | 3 => rfl
  | n + 4 => rfl

theorem spec_getOrCreateL1 (l4 l3 l2 : Index) (parent : Nat) :
    Spec (fun machine => Grown supply start machine ∧ Located machine.manager [l4, l3] parent)
      (getOrCreateL1 l4 l3 l2 parent)
      (fun place machine => Grown supply start machine ∧ Located machine.manager [l4, l3, l2] place)
      (Exhausted supply start) := by
  refine spec_getOrCreate [l4, l3] (by simp) (fun _ => rfl) ?_ (fun _ _ => rfl)
    fun _ _ => rfl
  intro phys manager located
  refine ⟨(Keyed.of_findIdx? located).2 _, rfl, fun n other other' => ?_⟩
  match n with
  | 0 => rfl
  | 1 => rfl
  | 2 => exact absurd rfl other
  | 3 => exact absurd rfl other'
  | n + 4 => rfl

end

section

variable {number : PageNumber} {phys : Nat} {writable executable : Bool}

/-- What entering a leaf for a page did. -/
def Entered (supply : Supply α) (start : Machine α) (number : PageNumber) (binding : Binding)
    (isNew : Bool) (machine : Machine α) : Prop :=
  Extends supply start machine ∧
    if isNew then
      start.pageMap number = none ∧ machine.pageMap = start.pageMap.bind number binding
    else start.pageMap number = some binding ∧ machine.pageMap = start.pageMap

/-- Why a page was not entered; the map is as it was. -/
def Refused (supply : Supply α) (start : Machine α) (number : PageNumber) (binding : Binding)
    (error : VmError) (machine : Machine α) : Prop :=
  Grown supply start machine ∧
    (error = .outOfPhysicalPages ∨
      error = .alreadyMapped ∧ ∃ other, start.pageMap number = some other ∧ other ≠ binding)

theorem spec_enterLeaf (place : Nat) :
    Spec (fun machine => Grown supply start machine ∧
        Located machine.manager (leafPath number.indices) place)
      (enterLeaf place number.indices.l1 (makeLeafEntry phys writable executable))
      (Entered supply start number { page := entryAddress phys, writable, executable })
      (Refused supply start number { page := entryAddress phys, writable, executable }) := by
  rintro machine ⟨grown, located⟩
  obtain ⟨page, found⟩ := Option.isSome_iff_exists.mp located.isSome
  have existing : (machine.manager.l1Tables[place]?.map (·.page.entries number.indices.l1)).getD 0 =
      page.entries number.indices.l1 := by
    have atPlace := located.tree
    rw [found] at atPlace
    change some page = (machine.manager.l1Tables[place]?).map Table.page at atPlace
    obtain ⟨table, atTable, rfl⟩ := Option.map_eq_some_iff.mp atPlace.symm
    rw [atTable]
    rfl
  have bound : start.pageMap number = bindingOf (page.entries number.indices.l1) := by
    rw [← grown.2, Machine.pageMap, TableTree.pageMap, found]
    rfl
  unfold enterLeaf
  rw [run_get_bind]
  dsimp only
  rw [existing]
  rcases grown.1.coherent.wired.leaf found rfl number.indices.l1 with
    empty | ⟨phys', writable', executable', entry⟩
  · rw [empty, isPresent_zero, if_neg Bool.false_ne_true]
    have sets : Sets (leafPath number.indices) number.indices.l1
        (makeLeafEntry phys writable executable) machine.manager
        { machine.manager with
          l1Tables := machine.manager.l1Tables.modify place
            (·.setEntry number.indices.l1 (makeLeafEntry phys writable executable))
          committed := false } := by
      refine ⟨(Keyed.of_findIdx? located).2 _, fun n other => ?_⟩
      rcases n with _ | _ | _ | _ | n
      iterate 3 rfl
      · exact absurd rfl other
      · rfl
    have extended := grown.1.coherent.enter found rfl (by rw [empty, isPresent_zero]) sets rfl rfl
    refine ⟨grown.1.trans extended, ?_⟩
    refine (if_pos rfl).mpr ⟨by rw [bound, empty, bindingOf_zero], ?_⟩
    rw [← grown.2]
    change TableTree.pageMap (VirtualMemoryManager.tree _) = _
    rw [sets.tree]
    exact Wired.pageMap_enter found
  · rw [entry, isPresent_makeLeafEntry, if_pos rfl]
    rw [entry, bindingOf_makeLeafEntry] at bound
    by_cases same : makeLeafEntry phys' writable' executable' = makeLeafEntry phys writable executable
    · rw [if_pos same]
      have sameBinding := congrArg bindingOf same
      rw [bindingOf_makeLeafEntry, bindingOf_makeLeafEntry] at sameBinding
      exact ⟨grown.1, bound.trans sameBinding, grown.2⟩
    · rw [if_neg same]
      refine ⟨grown, .inr ⟨rfl, _, bound, fun sameBinding => same ?_⟩⟩
      rw [Binding.mk.injEq] at sameBinding
      obtain ⟨sameAddress, rfl, rfl⟩ := sameBinding
      exact makeLeafEntry_congr _ _ _ sameAddress

/-- A page is entered, it was entered like this before, or the map stays as it was. -/
theorem spec_ensureLeafMapping (virt phys : Nat) (writable executable : Bool) :
    Spec (Grown supply start) (ensureLeafMapping virt phys writable executable)
      (Entered supply start (pageNumber virt) { page := entryAddress phys, writable, executable })
      (Refused supply start (pageNumber virt)
        { page := entryAddress phys, writable, executable }) := by
  have refused : ∀ {x : VmM α Nat} {pre : Machine α → Prop} {post : Nat → Machine α → Prop},
      Spec pre x post (Exhausted supply start) → Spec pre x post (Refused supply start
        (pageNumber virt) { page := entryAddress phys, writable, executable }) :=
    fun spec => spec.weaken_fail fun _ _ failed => ⟨failed.1, .inl failed.2⟩
  unfold ensureLeafMapping
  refine Spec.bind (refused (spec_getOrCreateL3 _)) fun l3Index => ?_
  refine Spec.bind (refused (spec_getOrCreateL2 _ _ _)) fun l2Index => ?_
  refine Spec.bind (refused (spec_getOrCreateL1 _ _ _ _)) fun l1Index => ?_
  rw [← indices_pageNumber]
  exact spec_enterLeaf l1Index

end

section

/-- One step of the abstract map: an unbound page is bound. -/
def PageMap.Adds (map map' : PageMap) : Prop :=
  ∃ number binding, map number = none ∧ map' = map.bind number binding

/-- Tables were made and pages were bound, one after the other. -/
def Added (supply : Supply α) (start machine : Machine α) : Prop :=
  Extends supply start machine ∧
    Relation.ReflTransGen PageMap.Adds start.pageMap machine.pageMap

/-- From a coherent machine, pages were only added. -/
def AddsTo (supply : Supply α) (machine machine' : Machine α) : Prop :=
  Coherent supply machine → Added supply machine machine'

theorem Added.refl (coherent : Coherent supply machine) :
    Added supply machine machine :=
  ⟨.refl coherent, .refl⟩

theorem Added.trans (first : Added supply start machine) (second : Added supply machine machine') :
    Added supply start machine' :=
  ⟨first.1.trans second.1, first.2.trans second.2⟩

theorem Grown.added (grown : Grown supply start machine) :
    Added supply start machine :=
  ⟨grown.1, by rw [grown.2]⟩

theorem Entered.added (entered : Entered supply start number binding isNew machine) :
    Added supply start machine := by
  obtain ⟨extended, map⟩ := entered
  cases isNew with
  | true => exact ⟨extended, .single ⟨number, binding, map⟩⟩
  | false => exact ⟨extended, by rw [map.2]⟩

instance : Std.Refl (AddsTo supply) where
  refl _ := Added.refl

instance : IsTrans (Machine α) (AddsTo supply) where
  trans _ _ _ first second coherent :=
    (first coherent).trans (second (first coherent).1.coherent)

variable {rel : Machine α → Machine α → Prop} [Std.Refl rel] {writable executable : Bool}

theorem moves_mapWindowRange (fixed : ∀ virtStart physStart pageCount,
      Moves rel (mapFixedRange virtStart physStart pageCount writable executable : VmM α Nat))
    (virtStart physStart stop : Nat) :
    Moves rel (mapWindowRange virtStart physStart stop writable executable : VmM α Nat) := by
  unfold mapWindowRange
  dsimp only
  split
  · exact .pure 0
  · exact fixed _ _ _

variable [IsTrans _ rel]

theorem moves_mapAroundHoles (identity : ∀ start stop,
      Moves rel (mapIdentityRange start stop writable executable : VmM α Nat))
    (alignedStart alignedEnd : Nat) (holes : List (Nat × Nat)) : ∀ current : Nat,
    Moves rel (mapAroundHoles alignedStart alignedEnd writable executable current holes :
      VmM α Nat) := by
  have beforeHole (current holeStart : Nat) :
      Moves rel (mapBeforeHole current holeStart writable executable : VmM α Nat) :=
    .ite (fun _ => identity _ _) fun _ => .pure 0
  induction holes with
  | nil => exact fun current => .ite (fun _ => identity _ _) fun _ => .pure 0
  | cons hole holes ih =>
    intro current
    unfold mapAroundHoles
    dsimp only
    split
    · exact ih current
    refine .bind (beforeHole _ _) fun pages => ?_
    split
    · exact .pure pages
    · exact .bind (ih _) fun rest => .pure _

theorem moves_mapIdentityRangeExcluding (identity : ∀ start stop,
      Moves rel (mapIdentityRange start stop writable executable : VmM α Nat))
    (start stop : Nat) (holes : List (Nat × Nat)) :
    Moves rel (mapIdentityRangeExcluding start stop holes writable executable : VmM α Nat) := by
  unfold mapIdentityRangeExcluding
  dsimp only
  split
  · exact .pure 0
  · exact moves_mapAroundHoles identity _ _ _ _

/-- Whether it returns or fails, `x` only adds pages. -/
abbrev Adding {β : Type} (supply : Supply α) (x : VmM α β) : Prop :=
  Moves (AddsTo supply) x

namespace Adding

open Moves

theorem orFail (value : Option β) (e : VmError) :
    Adding supply (VirtualMemoryManager.orFail value e : VmM α β) := by
  cases value with
  | none => exact throw e
  | some b => exact pure b

theorem takePage : Adding supply (VirtualMemoryManager.takePage : VmM α Nat) := by
  intro machine coherent
  cases answer : (PageSource.allocatePage machine.pages).1 with
  | none =>
    rw [after_error (takePage_none answer)]
    exact ⟨coherent.asked, .refl⟩
  | some phys =>
    rw [after_ok (takePage_some answer)]
    exact ⟨coherent.asked, .refl⟩

theorem ensureLeafMapping (virt phys : Nat) (writable executable : Bool) :
    Adding supply (VirtualMemoryManager.ensureLeafMapping virt phys writable executable :
      VmM α Bool) := by
  intro machine coherent
  have spec := @spec_ensureLeafMapping α _ supply machine virt phys writable executable
  exact Spec.after (spec.weaken (fun _ => id) (fun _ _ => Entered.added)
    fun _ _ refused => refused.1.added) ⟨.refl coherent, rfl⟩

theorem recordMapping (mapping : Mapping) :
    Adding supply (VirtualMemoryManager.recordMapping mapping : VmM α Unit) := by
  refine ite (fun _ machine coherent => ?_) fun _ => pure ()
  refine ⟨?_, .refl⟩
  exact
    { Extends.refl coherent with
      coherent := ⟨coherent.valid, ⟨coherent.shelved.distinct, coherent.shelved.length⟩,
        coherent.wired⟩ }

theorem mapPages (writable executable : Bool) (count : Nat) : ∀ virt phys : Nat,
    Adding supply (VirtualMemoryManager.mapPages writable executable virt phys count :
      VmM α Nat) := by
  induction count with
  | zero => exact fun _ _ => pure 0
  | succ count ih =>
    intro virt phys
    exact bind (ensureLeafMapping virt phys writable executable) fun isNew =>
      bind (ih _ _) fun rest => pure _

theorem mapFreshPages (writable executable : Bool) (count : Nat) : ∀ virt : Nat,
    Adding supply (VirtualMemoryManager.mapFreshPages writable executable virt count :
      VmM α (Option Nat × Nat)) := by
  induction count with
  | zero => exact fun _ => pure _
  | succ count ih =>
    intro virt
    exact bind takePage fun phys =>
      bind (ensureLeafMapping virt phys writable executable) fun isNew =>
        bind (ih _) fun rest => pure _

theorem mapIdentityRange (start stop : Nat) (writable executable : Bool) :
    Adding supply (VirtualMemoryManager.mapIdentityRange start stop writable executable :
      VmM α Nat) := by
  unfold VirtualMemoryManager.mapIdentityRange
  refine get_bind fun machine => ite (fun _ => throw _) fun _ => ?_
  dsimp only
  split
  · exact pure 0
  · exact bind (mapPages writable executable _ _ _) fun pages =>
      bind (recordMapping _) fun _ => pure pages

theorem mapFixedRange (virtStart physStart pageCount : Nat) (writable executable : Bool) :
    Adding supply (VirtualMemoryManager.mapFixedRange virtStart physStart pageCount writable
      executable : VmM α Nat) := by
  refine get_bind fun machine => ite (fun _ => throw _) fun _ => ?_
  refine ite (fun _ => pure 0) fun _ => ite (fun _ => throw _) fun _ => ite (fun _ => throw _)
    fun _ => ?_
  exact bind (orFail _ _) fun _ => bind (orFail _ _) fun _ =>
    bind (mapPages writable executable _ _ _) fun pages =>
      bind (recordMapping _) fun _ => pure pages

end Adding

end

end CodexOS.Vm
