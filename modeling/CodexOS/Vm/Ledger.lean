import CodexOS.Vm.FailedRange

/-! # What the list of mappings says

A range operation records where its range starts and how many of its pages are new. The
record describes these pages only if they are the first ones of the range, and if their
frames follow each other.
-/

namespace CodexOS.Vm

open Effect VirtualMemoryManager Word64 Memory Entering

section

variable {virt : Nat} {frames : List Nat} {writable executable : Bool}

theorem pageNumber_inj (small : i < 2 ^ 36) (small' : j < 2 ^ 36)
    (same : pageNumber (virt + pageSize * i) = pageNumber (virt + pageSize * j)) : i = j := by
  unfold pageNumber pageSize at same
  simp only [Fin.ext_iff, Fin.ofNat] at same
  omega

theorem nodup_keys (short : frames.length ≤ 2 ^ 36) :
    ((rangeEntries writable executable virt frames).map Prod.fst).Nodup := by
  rw [keys_rangeEntries]
  refine List.nodup_range.map_on fun i mem j mem' same => ?_
  rw [List.mem_range] at mem mem'
  exact pageNumber_inj (mem.trans_le short) (mem'.trans_le short) same

theorem new_eq {map map' : PageMap} {new : Nat} (short : frames.length ≤ 2 ^ 36)
    (enters : Enters map (rangeEntries writable executable virt frames) new map') :
    new = ((Finset.range frames.length).filter fun i =>
      map (pageNumber (virt + pageSize * i)) = none).card := by
  have keys : (rangeEntries writable executable virt frames).countP (fun entry =>
      (map entry.1).isNone) = ((rangeEntries writable executable virt frames).map Prod.fst).countP
        fun number => (map number).isNone := by
    rw [List.countP_map]
    rfl
  rw [enters.count_eq (nodup_keys short), keys, keys_rangeEntries, List.countP_map,
    List.countP_eq_length_filter]
  refine congrArg List.length (List.filter_congr fun i _ => ?_)
  exact Bool.eq_iff_iff.mpr (Option.isNone_iff_eq_none.trans decide_eq_true_iff.symm)

theorem new_le {map map' : PageMap} {new : Nat} (short : frames.length ≤ 2 ^ 36)
    (enters : Enters map (rangeEntries writable executable virt frames) new map') :
    new ≤ frames.length := by
  rw [new_eq short enters]
  exact (Finset.card_filter_le _ _).trans_eq (Finset.card_range _)

end

section

variable {map map' : PageMap} {mappings : List Mapping} {mappedPages virt phys new : Nat}
  {frames : List Nat} {writable executable : Bool}

/-- The records cover the bound pages and no others, tell their frames, and count them. -/
structure Describes (map : PageMap) (mappings : List Mapping) (mappedPages : Nat) : Prop where
  covered : ∀ mapping ∈ mappings, ∀ i < mapping.pageCount,
    map (pageNumber (mapping.virtStart + pageSize * i)) ≠ none
  recorded : ∀ number binding, map number = some binding →
    ∃ mapping ∈ mappings, ∃ i < mapping.pageCount,
      number = pageNumber (mapping.virtStart + pageSize * i) ∧
        binding.page = mapping.physStart + pageSize * i
  counted : mappedPages = (domain map).ncard

/-- The pages of a range that are new are its first ones, and their frames follow `phys`. -/
def Orderly (map : PageMap) (virt phys : Nat) (frames : List Nat) : Prop :=
  ∀ j frame, frames[j]? = some frame → map (pageNumber (virt + pageSize * j)) = none →
    entryAddress frame = phys + pageSize * j ∧
      ∀ i < j, map (pageNumber (virt + pageSize * i)) = none

/-- What a range operation adds to the records. -/
def records (virt phys new : Nat) (writable executable : Bool) : List Mapping :=
  if new = 0 then []
  else [{ virtStart := virt, physStart := phys, pageCount := new, writable, executable }]

theorem mem_records (mem : mapping ∈ records virt phys new writable executable) :
    mapping = { virtStart := virt, physStart := phys, pageCount := new, writable, executable } := by
  unfold records at mem
  split at mem
  · cases mem
  · exact List.mem_singleton.mp mem

theorem mem_records_of_pos (some : 0 < new) :
    { virtStart := virt, physStart := phys, pageCount := new, writable, executable } ∈
      records virt phys new writable executable := by
  rw [records, if_neg (by omega)]
  exact List.mem_singleton_self _

section

variable (before : Describes map mappings mappedPages) (short : frames.length ≤ 2 ^ 36)
  (enters : Enters map (rangeEntries writable executable virt frames) new map')

include before short enters

/-- A page that is new must be where the new record says. -/
theorem Describes.new_page
    (after : Describes map' (mappings ++ records virt phys new writable executable) mappedPages')
    (isFrame : frames[j]? = some frame) (isNew : map (pageNumber (virt + pageSize * j)) = none) :
    j < new ∧ entryAddress frame = phys + pageSize * j := by
  have inside := (List.getElem?_eq_some_iff.mp isFrame).1
  have bound := enters.bound (mem_rangeEntries isFrame)
  obtain ⟨mapping, mem, i, isIn, number, page⟩ := after.recorded _ _ bound
  rcases List.mem_append.mp mem with old | recorded
  · rw [number] at isNew
    exact absurd isNew (before.covered mapping old i isIn)
  · cases mem_records recorded
    have few := new_le short enters
    have same : j = i := pageNumber_inj (inside.trans_le short)
      ((isIn.trans_le few).trans_le short) number
    rw [← same] at isIn page
    exact ⟨isIn, page⟩

theorem Describes.orderly
    (after : Describes map' (mappings ++ records virt phys new writable executable) mappedPages') :
    Orderly map virt phys frames := by
  intro j frame isFrame isNew
  have inside := (List.getElem?_eq_some_iff.mp isFrame).1
  refine ⟨(before.new_page short enters after isFrame isNew).2, ?_⟩
  refine of_lt_card (fun k isIn free => ?_) inside isNew
  rw [← new_eq short enters]
  exact (before.new_page short enters after (List.getElem?_eq_getElem isIn) free).1

theorem Describes.entered (orderly : Orderly map virt phys frames) :
    Describes map' (mappings ++ records virt phys new writable executable) (mappedPages + new) := by
  have few := new_le short enters
  have initial {i : Nat} (inside : i < frames.length) :
      map (pageNumber (virt + pageSize * i)) = none ↔ i < new := by
    rw [new_eq short enters]
    exact lt_card_iff (fun j isIn free => (orderly j _ (List.getElem?_eq_getElem isIn) free).2) inside
  refine ⟨?_, ?_, ?_⟩
  · intro mapping mem i isIn
    rcases List.mem_append.mp mem with old | recorded
    · obtain ⟨binding, bound⟩ := Option.ne_none_iff_exists'.mp (before.covered mapping old i isIn)
      rw [enters.kept bound]
      exact Option.some_ne_none binding
    · cases mem_records recorded
      have inside : i < frames.length := isIn.trans_le few
      rw [enters.bound (mem_rangeEntries (List.getElem?_eq_getElem inside))]
      exact Option.some_ne_none _
  · intro number binding bound
    cases free : map number with
    | some old =>
      rw [enters.kept free, Option.some.injEq] at bound
      subst bound
      obtain ⟨mapping, mem, rest⟩ := before.recorded number old free
      exact ⟨mapping, List.mem_append_left _ mem, rest⟩
    | none =>
      have entered : number ∈ (rangeEntries writable executable virt frames).map Prod.fst := by
        by_contra other
        rw [enters.others other, free] at bound
        cases bound
      rw [keys_rangeEntries] at entered
      obtain ⟨i, mem, rfl⟩ := List.mem_map.mp entered
      have inside := List.mem_range.mp mem
      have isIn := (initial inside).mp free
      have isFrame := List.getElem?_eq_getElem inside
      rw [enters.bound (mem_rangeEntries isFrame), Option.some.injEq] at bound
      refine ⟨_, List.mem_append_right _ (mem_records_of_pos (Nat.zero_lt_of_lt isIn)), i, isIn,
        rfl, ?_⟩
      rw [← bound]
      exact (orderly i _ isFrame free).1
  · rw [enters.ncard_domain, before.counted]

end

end

section

variable {α : Type} [PageSource α] {supply : Supply α} {machine machine' : Machine α}
  {virt phys count new : Nat} {writable executable : Bool}

theorem works_mapPages (writable executable : Bool) (count : Nat) : ∀ virt phys : Nat,
    Moves Works (mapPages writable executable virt phys count : VmM α Nat) := by
  induction count with
  | zero => exact fun _ _ => .pure _
  | succ count ih =>
    intro virt phys
    exact .bind (works_ensureLeafMapping virt phys writable executable) fun isNew =>
      .bind (ih _ _) fun rest => .pure _

/-- Two entries an address space apart are for the same page. -/
theorem wraps (enters : Enters map (rangeEntries writable executable virt frames) new map')
    (isFar : far = 2 ^ 36) (isFirst : frames[0]? = some first) (isLater : frames[far]? = some later) :
    entryAddress later = entryAddress first := by
  have same : pageNumber (virt + pageSize * far) = pageNumber (virt + pageSize * 0) := by
    unfold pageNumber pageSize
    simp only [Fin.ext_iff, Fin.ofNat]
    omega
  have again := enters.bound (mem_rangeEntries isLater)
  rw [same, enters.bound (mem_rangeEntries isFirst), Option.some.injEq, Binding.mk.injEq] at again
  exact again.1.symm

/-- A range of frames in a row that was entered is not longer than an address space. -/
theorem length_le_of_consecutive
    (enters : Enters map (rangeEntries writable executable virt (consecutive phys count)) new map')
    : (consecutive phys count).length ≤ 2 ^ 36 := by
  rw [length_consecutive]
  by_contra long
  obtain ⟨far, isFar⟩ : ∃ far, far = 2 ^ 36 := ⟨_, rfl⟩
  have same := wraps enters isFar (getElem?_consecutive (by omega))
    (getElem?_consecutive (by omega))
  have distance : phys + pageSize * far = 2 ^ 48 + phys := by
    unfold pageSize
    omega
  have bit := congrArg (Nat.testBit · 48) same
  simp only [entryAddress, Nat.testBit_and, testBit_mask, Nat.mul_zero, Nat.add_zero, distance,
    Nat.testBit_two_pow_add_eq] at bit
  simp at bit

/-- What a call of `mapFreshPages` that returns has taken and entered. -/
structure FreshlyEntered (supply : Supply α) (machine machine' : Machine α) (virt new : Nat)
    (writable executable : Bool) (frames : List Nat) : Prop where
  areFrames : ∀ frame ∈ frames, IsFrame frame
  unused : ∀ frame ∈ frames, ¬supply.Used machine.pages frame
  distinct : frames.Nodup
  enters : Enters machine.pageMap (rangeEntries writable executable virt frames) new machine'.pageMap

theorem of_mapFreshPages (coherent : Coherent supply machine)
    (run : (mapFreshPages writable executable virt count).run machine = .ok (first, new) machine') :
    first = (dataPages writable executable virt count machine).head? ∧
      FreshlyEntered supply machine machine' virt new writable executable
        (dataPages writable executable virt count machine) := by
  induction count generalizing virt first new machine with
  | zero =>
    cases run
    exact ⟨rfl, nofun, nofun, .nil, .nil⟩
  | succ count ih =>
    obtain ⟨frame, asked, taken, run⟩ := of_bind_ok run
    obtain ⟨isNew, between, entered, run⟩ := of_bind_ok run
    obtain ⟨⟨first', rest⟩, behind, mapped, run⟩ := of_bind_ok run
    cases run
    have pages : dataPages writable executable virt (count + 1) machine =
        frame :: dataPages writable executable (virt + pageSize) count between := by
      rw [dataPages, taken]
      simp only [entered]
    obtain ⟨answer, rfl⟩ := of_takePage taken
    obtain ⟨isFrame, unused, used⟩ := supply.fresh coherent.valid answer
    have entry := spec_ensureLeafMapping virt frame writable executable machine.asked
      ⟨Extends.refl coherent.asked.coherent, rfl⟩
    rw [entered] at entry
    obtain ⟨-, fresh⟩ := ih entry.1.coherent mapped
    rw [pages]
    refine ⟨rfl, List.forall_mem_cons.mpr ⟨isFrame, fresh.areFrames⟩,
      List.forall_mem_cons.mpr ⟨unused, fun later mem isUsed => fresh.unused later mem ?_⟩,
      List.nodup_cons.mpr ⟨fun mem => fresh.unused frame mem ?_, fresh.distinct⟩,
      entry.enters fresh.enters⟩
    · exact entry.1.used later (coherent.asked.used later isUsed)
    · exact entry.1.used frame used

theorem FreshlyEntered.short
    (fresh : FreshlyEntered supply machine machine' virt new writable executable frames) :
    frames.length ≤ 2 ^ 36 := by
  by_contra long
  obtain ⟨far, isFar⟩ : ∃ far, far = 2 ^ 36 := ⟨_, rfl⟩
  have inside : far < frames.length := by omega
  have inside' : 0 < frames.length := by omega
  have same := wraps fresh.enters isFar (List.getElem?_eq_getElem inside')
    (List.getElem?_eq_getElem inside)
  have keep {i : Nat} (isIn : i < frames.length) : entryAddress frames[i] = frames[i] :=
    (fresh.areFrames _ (List.getElem_mem isIn)).and_mask
  rw [keep inside, keep inside'] at same
  have index := (List.Nodup.getElem_inj_iff fresh.distinct).mp same
  omega

end

section

def VirtualMemoryManager.HasLeaf (manager : VirtualMemoryManager) (virt : Nat) : Prop :=
  (manager.walk virt).l1Entry.isSome

/-- The list of mappings describes the tables. A page is what the tables tell apart: bits 12 to 47
    of an address. -/
structure VirtualMemoryManager.Described (manager : VirtualMemoryManager) : Prop where
  covered : ∀ mapping ∈ manager.mappings, ∀ i < mapping.pageCount,
    manager.HasLeaf (mapping.virtStart + pageSize * i)
  recorded : ∀ virt, manager.HasLeaf virt →
    ∃ mapping ∈ manager.mappings, ∃ i < mapping.pageCount,
      pageNumber virt = pageNumber (mapping.virtStart + pageSize * i) ∧
        manager.translate virt = some (mapping.physStart + pageSize * i + virt % pageSize)
  counted : manager.mappedPages =
    {number : PageNumber | manager.HasLeaf (number * pageSize)}.ncard

/-- The calls that map a range. -/
inductive RangeCall where
  | identity (start stop : Nat) (writable executable : Bool)
  | window (virtStart physStart stop : Nat) (writable executable : Bool)
  | fixed (virtStart physStart pageCount : Nat) (writable executable : Bool)
  | fresh (virtStart pageCount : Nat) (writable executable : Bool)
  deriving DecidableEq

variable {α : Type} [PageSource α]

namespace RangeCall

def perform : RangeCall → VmM α Unit
  | identity start stop writable executable =>
    discard (mapIdentityRange start stop writable executable)
  | window virtStart physStart stop writable executable =>
    discard (mapWindowRange virtStart physStart stop writable executable)
  | fixed virtStart physStart pageCount writable executable =>
    discard (mapFixedRange virtStart physStart pageCount writable executable)
  | fresh virtStart pageCount writable executable =>
    discard (mapRange virtStart pageCount writable executable)

/-- The first page of the range. -/
def virtStart : RangeCall → Nat
  | identity start _ _ _ => alignDown start
  | window virtStart physStart _ _ _ => virtStart - (physStart - alignDown physStart)
  | fixed virtStart _ _ _ _ => virtStart
  | fresh virtStart _ _ _ => virtStart

/-- The frames that the pages of the range get, one after the other. -/
def frames (machine : Machine α) : RangeCall → List Nat
  | identity start stop _ _ => consecutive (alignDown start) (pagesBetween start stop)
  | window _ physStart stop _ _ => consecutive (alignDown physStart) (pagesBetween physStart stop)
  | fixed _ physStart pageCount _ _ => consecutive physStart pageCount
  | fresh virtStart pageCount writable executable =>
    mapRangePages virtStart pageCount writable executable machine

/-- The pages of the range without a leaf come before those with one, and their frames follow the
    first. -/
def Orderly (machine : Machine α) (call : RangeCall) : Prop :=
  ∀ j frame, (call.frames machine)[j]? = some frame →
    ¬machine.manager.HasLeaf (call.virtStart + pageSize * j) →
      entryAddress frame = (call.frames machine).headD 0 + pageSize * j ∧
        ∀ i < j, ¬machine.manager.HasLeaf (call.virtStart + pageSize * i)

end RangeCall

variable {supply : Supply α} {machine machine' : Machine α}

theorem walk_present (manager : VirtualMemoryManager) (virt : Nat) :
    (manager.walk virt).l1Entry.isSome = ((manager.walk virt).l1Entry.bind bindingOf).isSome := by
  unfold walk
  dsimp only
  repeat' split
  all_goals simp_all [bindingOf]

theorem Coherent.hasLeaf_iff (coherent : Coherent supply machine) (virt : Nat) :
    machine.manager.HasLeaf virt ↔ machine.pageMap (pageNumber virt) ≠ none := by
  have same : _ = machine.pageMap (pageNumber virt) :=
    walk_l1Entry coherent.shelved coherent.wired virt
  rw [HasLeaf, walk_present, same, Option.isSome_iff_ne_none]

theorem pageNumber_mul (number : PageNumber) : pageNumber (number * pageSize) = number := by
  rw [pageNumber, Nat.mul_div_cancel _ (by decide), Fin.ofNat_val_eq_self]

/-- What the manager's walks show is what the map says. -/
theorem Coherent.described_iff (coherent : Coherent supply machine) :
    machine.manager.Described ↔
      Describes machine.pageMap machine.manager.mappings machine.manager.mappedPages := by
  have leaf := coherent.hasLeaf_iff
  have translated := translate_eq coherent.shelved coherent.wired
  have counts : {number : PageNumber | machine.manager.HasLeaf (number * pageSize)} =
      domain machine.pageMap := by
    ext number
    rw [Set.mem_ofPred_eq, leaf, pageNumber_mul, ← Option.isSome_iff_ne_none]
    rfl
  constructor
  · intro described
    refine ⟨fun mapping mem i inside => (leaf _).mp (described.covered mapping mem i inside), ?_,
      by rw [described.counted, counts]⟩
    intro number binding bound
    have isLeaf : machine.manager.HasLeaf (number * pageSize) := by
      rw [leaf, pageNumber_mul, bound]
      exact Option.some_ne_none binding
    obtain ⟨mapping, mem, i, inside, same, phys⟩ := described.recorded _ isLeaf
    rw [pageNumber_mul] at same
    refine ⟨mapping, mem, i, inside, same, ?_⟩
    have page : machine.manager.tree.pageMap number = some binding := bound
    rw [translated, PageMap.translate, pageNumber_mul, page, Option.map_some, Nat.mul_mod_left,
      Option.some.injEq] at phys
    exact phys
  · intro describes
    refine ⟨fun mapping mem i inside => (leaf _).mpr (describes.covered mapping mem i inside), ?_,
      by rw [describes.counted, counts]⟩
    intro virt isLeaf
    obtain ⟨binding, bound⟩ := Option.ne_none_iff_exists'.mp ((leaf virt).mp isLeaf)
    obtain ⟨mapping, mem, i, inside, same, page⟩ := describes.recorded _ binding bound
    refine ⟨mapping, mem, i, inside, same, ?_⟩
    have isPage : machine.manager.tree.pageMap (pageNumber virt) = some binding := bound
    rw [translated, PageMap.translate, isPage, Option.map_some, page]

theorem RangeCall.orderly_iff (coherent : Coherent supply machine) (call : RangeCall) :
    call.Orderly machine ↔
      Vm.Orderly machine.pageMap call.virtStart ((call.frames machine).headD 0)
        (call.frames machine) := by
  simp only [RangeCall.Orderly, Vm.Orderly, coherent.hasLeaf_iff, not_not]

/-- What a call that returns has entered and recorded. -/
structure Booked (supply : Supply α) (machine machine' : Machine α) (virt : Nat)
    (frames : List Nat) : Prop where
  coherent : Coherent supply machine'
  short : frames.length ≤ 2 ^ 36
  entered : ∃ new writable executable,
    Enters machine.pageMap (rangeEntries writable executable virt frames) new machine'.pageMap ∧
    machine'.manager.mappings = machine.manager.mappings ++
      records virt (frames.headD 0) new writable executable ∧
    machine'.manager.mappedPages =
      if new = 0 then machine.manager.mappedPages
      else saturatingAdd machine.manager.mappedPages new

namespace Booked

variable {virt phys count new : Nat} {frames : List Nat} {writable executable : Bool}

omit [PageSource α] in
theorem of_recordMapping (run : (recordMapping
      { virtStart := virt, physStart := phys, pageCount := new, writable, executable }).run
        machine = .ok done machine') :
    machine'.manager.mappings = machine.manager.mappings ++
        records virt phys new writable executable ∧
      machine'.manager.mappedPages =
        if new = 0 then machine.manager.mappedPages
        else saturatingAdd machine.manager.mappedPages new := by
  unfold recordMapping at run
  unfold records
  dsimp only at run
  by_cases zero : new = 0
  · rw [if_neg (not_not.mpr zero)] at run
    cases run
    rw [if_pos zero, if_pos zero, List.append_nil]
    exact ⟨rfl, rfl⟩
  · rw [if_pos zero] at run
    cases run
    rw [if_neg zero, if_neg zero]
    exact ⟨rfl, rfl⟩

theorem recorded {entered : Machine α} {done : Unit}
    (works : Works machine entered) (coherent : Coherent supply entered)
    (short : frames.length ≤ 2 ^ 36)
    (enters : Enters machine.pageMap (rangeEntries writable executable virt frames) new
      entered.pageMap)
    (first : new ≠ 0 → phys = frames.headD 0)
    (run : (recordMapping
      { virtStart := virt, physStart := phys, pageCount := new, writable, executable }).run
        entered = .ok done machine') :
    Booked supply machine machine' virt frames := by
  have coherent' := ((Adding.recordMapping _).added coherent run).1.coherent
  obtain ⟨mappings, mappedPages⟩ := of_recordMapping run
  refine ⟨coherent', short, new, writable, executable, ?_, ?_, ?_⟩
  · rw [recordMapping_pageMap run]
    exact enters
  · rw [mappings, works.mappings]
    unfold records
    split
    · rfl
    · rename_i some
      rw [first some]
  · rw [mappedPages, works.mappedPages]

theorem of_enterRange (coherent : Coherent supply machine)
    (run : (enterRange virt phys count writable executable).run machine = .ok new machine') :
    Booked supply machine machine' virt (consecutive phys count) := by
  obtain ⟨pages, entered, mapped, run⟩ := of_bind_ok run
  obtain ⟨_, behind, isRecorded, run⟩ := of_bind_ok run
  cases run
  have enters := enters_of_mapPages coherent mapped
  have short := length_le_of_consecutive enters
  have works := works_mapPages writable executable count virt phys machine
  rw [after_ok mapped] at works
  refine recorded works ((Adding.mapPages _ _ _ _ _).added coherent mapped).1.coherent short enters
    (fun some => ?_) isRecorded
  have few := new_le short enters
  rw [length_consecutive] at few
  cases count with
  | zero => omega
  | succ count => rfl

theorem synced (booked : Booked supply machine machine' virt frames)
    (run : (discard syncPages : VmM α Unit).run machine' = .ok done written) :
    Booked supply machine written virt frames := by
  obtain ⟨root, ran⟩ := of_discard_ok run
  cases initialized : machine'.manager.initialized with
  | false =>
    rw [syncPages_error initialized] at ran
    cases ran
  | true =>
    rw [syncPages_ok initialized] at ran
    cases ran
    exact ⟨booked.coherent.synced, booked.short, booked.entered⟩

theorem of_mapRange (coherent : Coherent supply machine)
    (run : (mapRange virt count writable executable).run machine = .ok mapping machine') :
    Booked supply machine machine' virt
      (mapRangePages virt count writable executable machine) := by
  obtain ⟨-, e, refused⟩ | ⟨accepts, goesOn⟩ :=
    mapRange_cases machine virt count writable executable
  · rw [refused] at run
    cases run
  rw [goesOn] at run
  obtain ⟨⟨first, pages⟩, entered, mapped, run⟩ := of_bind_ok run
  obtain ⟨_, recorded, isRecorded, run⟩ := of_bind_ok run
  obtain ⟨_, synced, isSynced, run⟩ := of_bind_ok run
  cases run
  obtain ⟨isFirst, fresh⟩ := of_mapFreshPages coherent mapped
  have works := works_mapFreshPages writable executable count virt machine
  rw [after_ok mapped] at works
  have coherent' := ((Adding.mapFreshPages _ _ _ _).added coherent mapped).1.coherent
  have booked : Booked supply machine recorded virt
      (dataPages writable executable virt count machine) := by
    refine Booked.recorded works coherent' fresh.short fresh.enters (fun _ => ?_) isRecorded
    rw [isFirst, List.headD_eq_head?_getD]
  rw [mapRangePages, if_neg accepts]
  exact booked.synced isSynced

end Booked

theorem RangeCall.booked {call : RangeCall} (coherent : Coherent supply machine)
    (run : call.perform.run machine = .ok () machine') :
    Booked supply machine machine' call.virtStart (call.frames machine) := by
  cases call with
  | identity start stop writable executable =>
    obtain ⟨pages, ran⟩ := of_discard_ok run
    exact .of_enterRange coherent (mapIdentityRange_ok_iff.mp ran).2
  | window virtStart physStart stop writable executable =>
    obtain ⟨pages, ran⟩ := of_discard_ok run
    exact .of_enterRange coherent (mapWindowRange_ok_iff.mp ran).2.2
  | fixed virtStart physStart pageCount writable executable =>
    obtain ⟨pages, ran⟩ := of_discard_ok run
    exact .of_enterRange coherent (mapFixedRange_ok_iff.mp ran).2.2
  | fresh virtStart pageCount writable executable =>
    obtain ⟨mapping, ran⟩ := of_discard_ok run
    exact .of_mapRange coherent ran

theorem ncard_domain_lt (map : PageMap) : (domain map).ncard < size := by
  have all := ncard_domain_le map
  rw [Nat.card_fin] at all
  exact all.trans_lt (by decide)

/-- A call keeps the list a description exactly when its new pages come in order. -/
theorem RangeCall.described_iff {call : RangeCall} (coherent : Coherent supply machine)
    (before : machine.manager.Described) (run : call.perform.run machine = .ok () machine') :
    machine'.manager.Described ↔ call.Orderly machine := by
  have booked := call.booked coherent run
  obtain ⟨new, writable, executable, enters, mappings, mappedPages⟩ := booked.entered
  have describes := coherent.described_iff.mp before
  have total : machine'.manager.mappedPages = machine.manager.mappedPages + new := by
    have few := ncard_domain_lt machine'.pageMap
    rw [enters.ncard_domain, ← describes.counted] at few
    rw [mappedPages]
    split
    · rename_i zero
      rw [zero, Nat.add_zero]
    · exact saturatingAdd_of_lt few
  rw [booked.coherent.described_iff, orderly_iff coherent, mappings, total]
  exact ⟨describes.orderly booked.short enters, describes.entered booked.short enters⟩

/-- Runs of calls that return, from `init` on, in which every call meets a condition. -/
inductive CallRun (supply : Supply α) (condition : Machine α → RangeCall → Prop) :
    Machine α → Prop
  | start {pages : α} {memory : ByteMemory} {cr3 root : Nat} {machine : Machine α} :
      supply.Valid pages → init.run (Machine.cold pages memory cr3) = .ok (some root) machine →
      CallRun supply condition machine
  | call {machine machine' : Machine α} (call : RangeCall) :
      CallRun supply condition machine → condition machine call →
      call.perform.run machine = .ok () machine' → CallRun supply condition machine'

theorem CallRun.coherent {condition : Machine α → RangeCall → Prop}
    (run : CallRun supply condition machine) : Coherent supply machine := by
  induction run with
  | start valid started => exact (init_coherent valid started).1
  | call call _ _ ran ih => exact (call.booked ih ran).coherent

theorem described_of_init {pages : α} {memory : ByteMemory} {cr3 root : Nat}
    (valid : supply.Valid pages)
    (started : init.run (Machine.cold pages memory cr3) = .ok (some root) machine) :
    machine.manager.Described := by
  obtain ⟨coherent, empty, -, -⟩ := init_coherent valid started
  have books : machine.manager.mappings = [] ∧ machine.manager.mappedPages = 0 := by
    cases answer : (PageSource.allocatePage pages).1 with
    | none =>
      rw [init_cold_none answer] at started
      cases started
    | some page =>
      rw [init_cold_some answer] at started
      cases started
      exact ⟨rfl, rfl⟩
  rw [coherent.described_iff, empty, books.1, books.2]
  refine ⟨nofun, nofun, ?_⟩
  simp [domain]

/-- As long as in every call the pages that are new come first and their frames follow each other,
    the list of mappings describes the tables; and the first call that does otherwise ends that. -/
theorem mappings_describe_tables
    (run : CallRun supply (fun machine call => call.Orderly machine) machine) :
    machine.manager.Described ∧
      ∀ (call : RangeCall) (machine' : Machine α), call.perform.run machine = .ok () machine' →
        (machine'.manager.Described ↔ call.Orderly machine) := by
  have described : machine.manager.Described := by
    induction run with
    | start valid started => exact described_of_init valid started
    | call call run orderly ran ih => exact (call.described_iff run.coherent ih ran).mpr orderly
  exact ⟨described, fun call machine' ran => call.described_iff run.coherent described ran⟩

end

section

def tableAnswers : PageAnswers where
  allocations := [some 0x100000, some 0x101000, some 0x102000, some 0x103000]
  deallocations := []

theorem tableAnswers_fresh : tableAnswers.Fresh := by
  refine ⟨by decide, fun page mem => ?_⟩
  simp only [tableAnswers, List.mem_cons, Option.some.injEq, List.not_mem_nil, or_false] at mem
  rcases mem with rfl | rfl | rfl | rfl <;> decide

/-- The manager with its root. -/
def rootedMachine : Machine PageAnswers :=
  after init (Machine.cold tableAnswers (fun _ => 0) 0)

theorem rootedMachine_run (condition : Machine PageAnswers → RangeCall → Prop) :
    CallRun PageAnswers.supply condition rootedMachine := by
  have answer : (PageSource.allocatePage tableAnswers).1 = some 0x100000 := rfl
  have started : init.run (Machine.cold tableAnswers (fun _ => 0) 0) =
      .ok (some 0x100000) rootedMachine := by
    rw [rootedMachine, after_ok (init_cold_some answer)]
    exact init_cold_some answer
  exact .start (show PageAnswers.supply.Valid tableAnswers from tableAnswers_fresh) started

/-- One page is mapped at its own address. -/
def onePage : RangeCall :=
  .identity 0 0x1000 true false

/-- The same page and the next one. -/
def twoPages : RangeCall :=
  .identity 0 0x2000 true false

theorem onePage_runs : onePage.perform.run rootedMachine = .ok () (after onePage.perform rootedMachine) :=
  run_of_outcome_ok (by decide +kernel)

theorem twoPages_runs : twoPages.perform.run (after onePage.perform rootedMachine) =
    .ok () (after twoPages.perform (after onePage.perform rootedMachine)) :=
  run_of_outcome_ok (by decide +kernel)

/-- The second page of a range is new and the first is not: the record is about the first. -/
theorem second_page_not_recorded :
    ∃ machine : Machine PageAnswers, CallRun PageAnswers.supply (fun _ _ => True) machine ∧
      machine.manager.HasLeaf 0x1000 ∧
      (∀ mapping ∈ machine.manager.mappings, mapping.virtStart = 0 ∧ mapping.pageCount = 1) ∧
      ¬machine.manager.Described := by
  have run : CallRun PageAnswers.supply (fun _ _ => True)
      (after twoPages.perform (after onePage.perform rootedMachine)) :=
    .call twoPages (.call onePage (rootedMachine_run _) trivial onePage_runs) trivial twoPages_runs
  have leaf : (after twoPages.perform (after onePage.perform rootedMachine)).manager.HasLeaf 0x1000 :=
    show Option.isSome _ = true by decide +kernel
  have list : ∀ mapping ∈
      (after twoPages.perform (after onePage.perform rootedMachine)).manager.mappings,
      mapping.virtStart = 0 ∧ mapping.pageCount = 1 := by
    decide +kernel
  refine ⟨_, run, leaf, list, fun described => ?_⟩
  obtain ⟨mapping, mem, i, inside, same, -⟩ := described.recorded 0x1000 leaf
  obtain ⟨start, one⟩ := list mapping mem
  rw [one, Nat.lt_one_iff] at inside
  rw [start, inside] at same
  exact absurd same (by decide)

theorem mappings_describe_tables_one_page :
    ∃ machine : Machine PageAnswers,
      CallRun PageAnswers.supply (fun machine call => call.Orderly machine) machine ∧
      machine.manager.HasLeaf 0 ∧ machine.manager.Described := by
  have orderly : onePage.Orderly rootedMachine := by
    intro j frame isFrame _
    have frames : onePage.frames rootedMachine = [0] := by decide +kernel
    rw [frames] at isFrame ⊢
    cases j with
    | zero =>
      cases isFrame
      exact ⟨by decide, nofun⟩
    | succ j => cases isFrame
  have run : CallRun PageAnswers.supply (fun machine call => call.Orderly machine)
      (after onePage.perform rootedMachine) :=
    .call onePage (rootedMachine_run _) orderly onePage_runs
  exact ⟨_, run, show Option.isSome _ = true by decide +kernel, (mappings_describe_tables run).1⟩

end

end CodexOS.Vm
