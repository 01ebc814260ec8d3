import CodexOS.Memory.Regions
import CodexOS.Vm.UserMapping

/-! # A user address space is its program

The pages that a finished address space maps are those of the segments, with the
bytes of the file in them, and one page for the stack. The page below the stack is
an ordinary page, which a segment may reach up to.
-/

namespace CodexOS.Vm

open Effect Word64 Memory Bytes VirtualMemoryManager

/-! ## Loading the segments -/

/-- The byte that a program finds at an address in a page of a segment. -/
def UserSegment.byteAt (segment : UserSegment) (virt : Nat) : UInt8 :=
  if segment.virtualAddress ≤ virt then
    (segment.data[virt - segment.virtualAddress]?).getD 0
  else 0

section

variable {α : Type} [PageSource α] {supply : Supply α} {kernel : Index → Nat} {layout : Layout}
  {machine machine' : Machine α} {loading loading' : Loading α} {segment : UserSegment}
  {root phys virt dataEnd : Nat}

theorem of_dataEnd (ok : segment.dataEnd = .ok dataEnd) :
    dataEnd = segment.virtualAddress + segment.data.length := by
  obtain ⟨-, same⟩ := checkedAdd_eq_some.mp (of_orError ok)
  exact same.symm

omit [PageSource α] in
/-- A cleared page gets the bytes of the segment, and nothing else changes. -/
theorem of_copyData (isEnd : segment.dataEnd = .ok dataEnd) (small : virt + pageSize < Word64.size)
    (frame : IsFrame phys) (zero : IsZero machine.memory phys)
    (run : (copyData segment dataEnd virt phys).run machine = .ok () machine') :
    ∃ memory, machine' = machine.withMemory memory ∧
      (∀ offset < pageSize, memory (phys + offset) = segment.byteAt (virt + offset)) ∧
      ∀ page, IsFrame page → phys ≠ page → SamePage machine.memory memory page := by
  have dataEnds := of_dataEnd isEnd
  unfold copyData at run
  dsimp only at run
  rw [saturatingAdd_of_lt small] at run
  split at run
  next copies =>
    obtain ⟨-, written⟩ := of_physicalPageMut_bind run
    cases written
    refine ⟨_, rfl, fun offset inside => ?_, fun page frame' different => ?_⟩
    · have before := zero offset inside
      unfold ByteMemory.store UserSegment.byteAt
      dsimp only
      rw [before, getElem?_slice]
      by_cases started : segment.virtualAddress ≤ virt + offset
      · rw [if_pos started, if_pos (by omega)]
        by_cases inData : virt + offset < dataEnd
        · rw [if_pos (by omega), show max virt segment.virtualAddress - segment.virtualAddress +
            (phys + offset - (phys + (max virt segment.virtualAddress - virt))) =
              virt + offset - segment.virtualAddress by omega]
        · rw [if_neg (by omega), List.getElem?_eq_none (by omega)]
      · rw [if_neg started, if_neg (by omega)]
    · refine samePage_store frame frame' different (Nat.le_add_right _ _) ?_
      rw [length_slice (by omega)]
      omega
  next nothing =>
    cases run
    refine ⟨machine.memory, rfl, fun offset inside => ?_, fun page _ _ => .refl _ page⟩
    rw [zero offset inside, UserSegment.byteAt]
    split
    · rw [List.getElem?_eq_none (by omega)]
      rfl
    · rfl

/-- The page at an index of the last table. -/
def userPageAt (index : Index) : Nat :=
  userCodeBase + index * pageSize

theorem userPageAt_l1 (low : userCodeBase ≤ virt) (high : virt < userStackTop)
    (aligned : virt % pageSize = 0) : userPageAt (splitIndices virt).l1 = virt := by
  unfold userStackTop at high
  unfold userPageAt
  unfold userCodeBase at low high ⊢
  unfold pageSize at aligned ⊢
  have index : ((splitIndices virt).l1 : Nat) = virt / 2 ^ 12 % 512 := rfl
  rw [index]
  omega

theorem userPageAt_inj (same : userPageAt index = userPageAt index') :
    index = index' := by
  unfold userPageAt pageSize at same
  exact Fin.ext (by omega)

/-- What a segment puts in a page. -/
def UserSegment.page (segment : UserSegment) (phys virt : Nat) : UserPage where
  phys := phys
  writable := segment.writable
  executable := segment.executable
  bytes := fun offset => segment.byteAt (virt + offset)

/-- The pages from `start` to `stop` were free and now are those of the segment. -/
structure LoadedRange (segment : UserSegment) (start stop : Nat) (layout layout' : Layout) : Prop where
  inside : ∀ index, start ≤ userPageAt index → userPageAt index < stop →
    layout.leaves index = none ∧
      ∃ phys, layout'.leaves index = some (segment.page phys (userPageAt index))
  outside : ∀ index, ¬(start ≤ userPageAt index ∧ userPageAt index < stop) →
    layout'.leaves index = layout.leaves index

/-- A page that was taken is mapped once its contents are there. -/
theorem Building.mapTaken (building : Building supply kernel layout loading) (page : UserPage)
    {middle : Loading α} (isRoot : layout.tables[0]? = some root) (low : userCodeBase ≤ virt)
    (high : virt < userStackTop) (took : TookPage loading page.phys middle)
    (laid : Laid kernel layout memory)
    (contents : ∀ offset < pageSize, memory (page.phys + offset) = page.bytes offset)
    (run : (rawMapUserPage root virt page.phys page.writable page.executable).run
      { middle with machine := middle.machine.withMemory memory } = .ok () loading') :
    ∃ layout', Building supply kernel layout' loading' ∧ layout'.tables[0]? = some root ∧
      layout.leaves (splitIndices virt).l1 = none ∧
      layout'.leaves = Function.update layout.leaves (splitIndices virt).l1 (some page) := by
  obtain ⟨⟨owning, owned, -⟩, mem, new, -⟩ := building.took took
  have notTable : page.phys ∉ layout.tables := fun isTable =>
    new (building.owned.tables page.phys isTable)
  have filled : Building supply kernel layout
      { middle with machine := middle.machine.withMemory memory } :=
    ⟨⟨owning.valid, owning.used, owning.frames, owning.distinct⟩, owned, laid⟩
  obtain ⟨layout', mapped, free, deeper, -⟩ := filled.mapPage isRoot low high mem notTable
    (fun found same => new (same ▸ (building.owned.leaves found).1)) contents run
  obtain ⟨more, isMore⟩ := deeper.chain
  refine ⟨_, mapped, ?_, free, congrArg (Function.update · _ _) deeper.leaves⟩
  change layout'.tables[0]? = some root
  rw [← isMore, List.getElem?_append_left, isRoot]
  exact (List.getElem?_eq_some_iff.mp isRoot).1

theorem Building.loadPage (building : Building supply kernel layout loading)
    (isRoot : layout.tables[0]? = some root) (isEnd : segment.dataEnd = .ok dataEnd)
    (low : userCodeBase ≤ virt) (high : virt < userStackTop) (took : TookPage loading phys middle)
    (copies : (onMachine (copyData segment dataEnd virt phys)).run middle = .ok () copied)
    (run : (rawMapUserPage root virt phys segment.writable segment.executable).run copied =
      .ok () loading') :
    ∃ layout', Building supply kernel layout' loading' ∧ layout'.tables[0]? = some root ∧
      layout.leaves (splitIndices virt).l1 = none ∧
      layout'.leaves = Function.update layout.leaves (splitIndices virt).l1
        (some (segment.page phys virt)) := by
  obtain ⟨grown, mem, new, zero, preserving⟩ := building.took took
  have frame := grown.owning.frames phys mem
  have small : virt + pageSize < Word64.size := by
    unfold userStackTop userCodeBase at high
    rw [pageSize, Word64.size]
    omega
  obtain ⟨machine, copying, rfl⟩ := of_onMachine copies
  obtain ⟨memory, rfl, contents, same⟩ := of_copyData isEnd small frame zero copying
  have laid : Laid kernel layout memory := by
    refine building.laid.congr building.owned fun page known => ?_
    have different : phys ≠ page := by
      rintro rfl
      exact new known
    have notNew := (grown.owning.frames page (preserving.pages page known))
    refine SamePage.trans ?_ (same page notNew different)
    rw [took.machine]
    refine samePage_store frame notNew different (Nat.le_refl _) ?_
    rw [length_zeros]
  exact building.mapTaken (segment.page phys virt) isRoot low high took laid contents run

theorem Building.loadPages (building : Building supply kernel layout loading)
    (isRoot : layout.tables[0]? = some root) (isEnd : segment.dataEnd = .ok dataEnd)
    (aligned : virt % pageSize = 0) (low : userCodeBase ≤ virt)
    (high : virt + count * pageSize ≤ userStackTop)
    (run : (loadPages root segment dataEnd virt codePhys count).run loading = .ok code loading') :
    ∃ layout', Building supply kernel layout' loading' ∧ layout'.tables[0]? = some root ∧
      LoadedRange segment virt (virt + count * pageSize) layout layout' := by
  induction count generalizing layout loading virt codePhys with
  | zero =>
    cases run
    refine ⟨layout, building, isRoot, ?_, fun _ _ => rfl⟩
    intro index start stop
    omega
  | succ count ih =>
    have pages : (count + 1) * pageSize = count * pageSize + pageSize := Nat.succ_mul _ _
    have positive : 0 < pageSize := by decide
    obtain ⟨phys, middle, allocated, run⟩ := of_bind_ok run
    obtain ⟨_, copied, copies, run⟩ := of_bind_ok run
    obtain ⟨_, entered, maps, run⟩ := of_bind_ok run
    obtain ⟨next, isNext, run⟩ := of_check_bind run
    obtain ⟨-, rfl⟩ := checkedAdd_eq_some.mp (of_orError isNext)
    obtain ⟨layout₁, building₁, isRoot₁, free, leaves⟩ := building.loadPage isRoot isEnd low
      (by omega) (of_allocateOwnedZeroedPage allocated) copies maps
    obtain ⟨layout₂, building₂, isRoot₂, loaded⟩ := ih building₁ isRoot₁
      (by rw [Nat.add_mod_right]; exact aligned) (by omega) (by omega) run
    have isPage : userPageAt (splitIndices virt).l1 = virt :=
      userPageAt_l1 low (by omega) aligned
    refine ⟨layout₂, building₂, isRoot₂, ?_, ?_⟩
    · intro index start stop
      by_cases first : index = (splitIndices virt).l1
      · subst first
        refine ⟨free, phys, ?_⟩
        rw [loaded.outside _ (by omega), leaves, Function.update_self, isPage]
      · have later : virt + pageSize ≤ userPageAt index := by
          have different : userPageAt index ≠ virt := fun same =>
            first (userPageAt_inj (same.trans isPage.symm))
          have aligned' : userPageAt index % pageSize = 0 := by
            unfold userPageAt
            rw [Nat.add_mul_mod_self_right]
            decide
          unfold pageSize at aligned aligned' ⊢
          omega
        obtain ⟨free', phys', found⟩ := loaded.inside index later (by omega)
        rw [leaves, Function.update_of_ne first] at free'
        exact ⟨free', phys', found⟩
    · intro index outside
      rw [loaded.outside index (by omega), leaves, Function.update_of_ne]
      rintro rfl
      omega

/-! ## Programs that pass the checks -/

namespace UserSegment

def pageStart (segment : UserSegment) : Nat :=
  alignDown segment.virtualAddress

def pageEnd (segment : UserSegment) : Nat :=
  alignDown (segment.virtualAddress + segment.memorySize + (pageSize - 1))

/-- The page belongs to the segment. -/
def Covers (segment : UserSegment) (virt : Nat) : Prop :=
  segment.pageStart ≤ virt ∧ virt < segment.pageEnd

/-- What is checked for every segment by itself. -/
structure Placed (segment : UserSegment) : Prop where
  nonempty : 0 < segment.memorySize
  rights : ¬(segment.writable = true ∧ segment.executable = true)
  data : segment.data.length ≤ segment.memorySize
  low : userCodeBase ≤ segment.virtualAddress
  high : segment.virtualAddress + segment.memorySize ≤ userProgramLimit
  pageLow : userCodeBase ≤ segment.pageStart
  pageHigh : segment.pageEnd ≤ userProgramLimit

end UserSegment

theorem of_memoryEnd (ok : segment.memoryEnd = .ok memoryEnd) :
    memoryEnd = segment.virtualAddress + segment.memorySize := by
  obtain ⟨-, same⟩ := checkedAdd_eq_some.mp (of_orError ok)
  exact same.symm

theorem of_alignUpChecked (ok : alignUpChecked value = .ok aligned) :
    aligned = alignDown (value + (pageSize - 1)) := by
  obtain ⟨sum, isSum, rfl⟩ := Option.map_eq_some_iff.mp (of_orError ok)
  obtain ⟨-, rfl⟩ := checkedAdd_eq_some.mp isSum
  rfl

theorem of_checkOverlaps (ok : checkOverlaps pageStart pageEnd previous = .ok ()) :
    ∀ segment ∈ previous, ∀ virt, segment.Covers virt → ¬(pageStart ≤ virt ∧ virt < pageEnd) := by
  induction previous with
  | nil => nofun
  | cons first rest ih =>
    obtain ⟨memoryEnd, isEnd, ok⟩ := of_except_bind ok
    obtain ⟨pageEnd', isPageEnd, ok⟩ := of_except_bind ok
    rw [of_memoryEnd isEnd] at isPageEnd
    split at ok
    · cases ok
    next apart =>
      intro segment mem virt covers inside
      rcases List.mem_cons.mp mem with rfl | later
      · unfold rangesOverlap at apart
        rw [of_alignUpChecked isPageEnd] at apart
        obtain ⟨start, stop⟩ := covers
        unfold UserSegment.pageStart at start
        unfold UserSegment.pageEnd at stop
        simp only [Bool.and_eq_true, decide_eq_true_eq, not_and, not_lt] at apart
        have := apart (by omega)
        omega
      · exact ih ok segment later virt covers inside

theorem of_validateSegment (ok : validateSegment previous segment = .ok ()) :
    segment.Placed ∧ ∀ other ∈ previous, ∀ virt, other.Covers virt → ¬segment.Covers virt := by
  unfold validateSegment at ok
  split at ok
  · cases ok
  next nonempty =>
  split at ok
  · cases ok
  next rights =>
  split at ok
  · cases ok
  next data =>
  obtain ⟨memoryEnd, isEnd, ok⟩ := of_except_bind ok
  obtain rfl := of_memoryEnd isEnd
  split at ok
  · cases ok
  next window =>
  obtain ⟨pageEnd, isPageEnd, ok⟩ := of_except_bind ok
  have isRounded : pageEnd = segment.pageEnd := by
    rw [of_alignUpChecked isPageEnd, UserSegment.pageEnd]
  rw [isRounded] at ok
  split at ok
  · cases ok
  next pages =>
  refine ⟨⟨by omega, ?_, by omega, by omega, by omega, ?_, by omega⟩, of_checkOverlaps ok⟩
  · simpa using rights
  · unfold UserSegment.pageStart
    omega

/-- The entry is in the file's part of an executable segment. -/
def UserSegment.StartsAt (segment : UserSegment) (entry : Nat) : Prop :=
  segment.executable = true ∧ segment.virtualAddress ≤ entry ∧
    entry < segment.virtualAddress + segment.data.length

theorem of_startsWithin (ok : startsWithin entry segment = .ok true) :
    segment.StartsAt entry := by
  unfold startsWithin at ok
  split at ok
  next inside =>
    obtain ⟨dataEnd, isEnd, within⟩ := of_except_bind ok
    simp only [Bool.and_eq_true, decide_eq_true_eq] at inside
    have below := of_decide_eq_true (Except.ok.inj within)
    rw [of_dataEnd isEnd] at below
    exact ⟨inside.1, inside.2, below⟩
  next => cases ok

/-- What the checks establish for a whole program. -/
structure Accepted (entry : Nat) (segments : List UserSegment) : Prop where
  placed : ∀ segment ∈ segments, segment.Placed
  apart : segments.Pairwise fun segment other => ∀ virt, segment.Covers virt → ¬other.Covers virt
  starts : ∃ segment ∈ segments, segment.StartsAt entry

theorem of_validateSegments (ok : validateSegments entry previous found segments = .ok true) :
    (∀ segment ∈ segments, segment.Placed) ∧
      (∀ other ∈ previous, ∀ segment ∈ segments, ∀ virt,
        other.Covers virt → ¬segment.Covers virt) ∧
      (segments.Pairwise fun segment other => ∀ virt, segment.Covers virt → ¬other.Covers virt) ∧
      (found = true ∨ ∃ segment ∈ segments, segment.StartsAt entry) := by
  induction segments generalizing previous found with
  | nil =>
    cases ok
    exact ⟨nofun, nofun, .nil, .inl rfl⟩
  | cons first rest ih =>
    obtain ⟨_, valid, ok⟩ := of_except_bind ok
    obtain ⟨here, isHere, ok⟩ := of_except_bind ok
    obtain ⟨placed, apart⟩ := of_validateSegment valid
    obtain ⟨placed', apart', pairwise, starts⟩ := ih ok
    refine ⟨?_, ?_, .cons ?_ pairwise, ?_⟩
    · exact List.forall_mem_cons.mpr ⟨placed, placed'⟩
    · intro other mem segment mem'
      rcases List.mem_cons.mp mem' with rfl | later
      · exact apart other mem
      · exact apart' other (List.mem_append_left _ mem) segment later
    · exact apart' first (List.mem_append_right _ (List.mem_singleton.mpr rfl))
    · rcases starts with either | ⟨segment, mem, inside⟩
      · rcases Bool.or_eq_true_iff.mp either with before | rfl
        · exact .inl before
        · exact .inr ⟨first, List.mem_cons_self, of_startsWithin isHere⟩
      · exact .inr ⟨segment, List.mem_cons_of_mem _ mem, inside⟩

theorem of_validateUserProgram (ok : validateUserProgram entry segments = .ok ()) :
    Accepted entry segments := by
  unfold validateUserProgram at ok
  split at ok
  · cases ok
  obtain ⟨found, valid, ok⟩ := of_except_bind ok
  cases found with
  | false => cases ok
  | true =>
    obtain ⟨placed, -, apart, starts⟩ := of_validateSegments valid
    exact ⟨placed, apart, starts.resolve_left Bool.false_ne_true⟩

/-! ## All segments -/

/-- Every page of the segments was free and now is its segment's, and nothing else changed. -/
structure LoadedSegments (segments : List UserSegment) (layout layout' : Layout) : Prop where
  inside : ∀ segment ∈ segments, ∀ index, segment.Covers (userPageAt index) →
    layout.leaves index = none ∧
      ∃ phys, layout'.leaves index = some (segment.page phys (userPageAt index))
  outside : ∀ index, (∀ segment ∈ segments, ¬segment.Covers (userPageAt index)) →
    layout'.leaves index = layout.leaves index

theorem LoadedRange.cons (head : LoadedRange first first.pageStart first.pageEnd layout layout₁)
    (tail : LoadedSegments rest layout₁ layout₂) :
    LoadedSegments (first :: rest) layout layout₂ where
  inside := by
    intro segment mem index covers
    rcases List.mem_cons.mp mem with rfl | later
    · obtain ⟨free, phys, found⟩ := head.inside index covers.1 covers.2
      refine ⟨free, phys, ?_⟩
      rw [tail.outside index fun other mem' covers' => ?_, found]
      rw [(tail.inside other mem' index covers').1] at found
      cases found
    · obtain ⟨free, phys, found⟩ := tail.inside segment later index covers
      refine ⟨?_, phys, found⟩
      rw [← free, head.outside index]
      intro covers'
      obtain ⟨-, phys', found'⟩ := head.inside index covers'.1 covers'.2
      rw [free] at found'
      cases found'
  outside := by
    intro index uncovered
    rw [tail.outside index fun segment mem => uncovered segment (List.mem_cons_of_mem _ mem),
      head.outside index (uncovered first List.mem_cons_self)]

theorem UserSegment.Placed.pages (placed : segment.Placed) :
    segment.pageStart + (segment.pageEnd - segment.pageStart) / pageSize * pageSize =
      segment.pageEnd := by
  have nonempty := placed.nonempty
  unfold UserSegment.pageStart UserSegment.pageEnd alignDown pageSize
  omega

theorem Building.loadSegments (building : Building supply kernel layout loading)
    (isRoot : layout.tables[0]? = some root) (placed : ∀ segment ∈ segments, segment.Placed)
    (run : (loadSegments root codePhys loadedBytes segments).run loading = .ok result loading') :
    ∃ layout', Building supply kernel layout' loading' ∧ layout'.tables[0]? = some root ∧
      LoadedSegments segments layout layout' := by
  induction segments generalizing layout loading codePhys loadedBytes with
  | nil =>
    cases run
    exact ⟨layout, building, isRoot, nofun, fun _ _ => rfl⟩
  | cons first rest ih =>
    obtain ⟨memoryEnd, isMemoryEnd, rounding⟩ := of_check_bind run
    rw [of_memoryEnd isMemoryEnd] at rounding
    obtain ⟨pageEnd, isPageEnd, copying⟩ := of_check_bind rounding
    have isRounded : pageEnd = first.pageEnd := by
      rw [of_alignUpChecked isPageEnd, UserSegment.pageEnd]
    obtain ⟨dataEnd, isDataEnd, loading⟩ := of_check_bind copying
    obtain ⟨code, loading₁, loads, adding⟩ := of_bind_ok loading
    rw [isRounded] at loads
    obtain ⟨bytes, -, remaining⟩ := of_check_bind adding
    obtain ⟨isPlaced, others⟩ := List.forall_mem_cons.mp placed
    have high := isPlaced.pageHigh
    have below : userProgramLimit ≤ userStackTop := by decide
    have aligned : first.pageStart % pageSize = 0 := alignDown_mod _
    obtain ⟨layout₁, building₁, isRoot₁, head⟩ := building.loadPages isRoot isDataEnd aligned
      isPlaced.pageLow (isPlaced.pages.trans_le (high.trans below)) loads
    rw [isPlaced.pages] at head
    obtain ⟨layout₂, building₂, isRoot₂, tail⟩ := ih building₁ isRoot₁ others remaining
    exact ⟨layout₂, building₂, isRoot₂, head.cons tail⟩

/-! ## The whole space -/

/-- The stack of a program: a page of zeros that cannot be executed. -/
def stackPage (phys : Nat) : UserPage where
  phys := phys
  writable := true
  executable := false
  bytes := fun _ => 0

/-- The root of a new space, before any table hangs below it. -/
def rootLayout (root : Nat) : Layout where
  tables := [root]
  leaves := fun _ => none

omit [PageSource α] in
theorem of_modifyMemory (run : (modifyMemory change).run machine = .ok () machine') :
    machine' = machine.withMemory (change machine.memory) := by
  cases run
  rfl

omit [PageSource α] in
theorem of_copyKernelRoot (run : (copyKernelRoot kernelRoot root).run machine = .ok () machine') :
    machine' = machine.withMemory
        (machine.memory.store root (machine.memory.load kernelRoot pageSize)) ∧
      isPresent (readEntry machine'.memory root userL4) = false := by
  obtain ⟨-, checking⟩ := of_physicalPageMut_bind run
  obtain ⟨-, copying⟩ := of_physicalPageMut_bind checking
  obtain ⟨_, copied, copies, reading⟩ := of_bind_ok copying
  have isCopied := of_modifyMemory copies
  obtain ⟨-, testing⟩ := of_physicalPageMut_bind reading
  rw [run_get_bind] at testing
  split at testing
  · cases testing
  next absent =>
    cases testing
    exact ⟨isCopied, Bool.eq_false_iff.mpr absent⟩

theorem Building.copiedRoot (owning : Owning supply { machine, ownership := .new })
    (took : TookPage { machine, ownership := .new } root middle)
    (run : (copyKernelRoot kernelRoot root).run middle.machine = .ok () machine') :
    Building supply (fun index => readEntry machine'.memory root index) (rootLayout root)
      { middle with machine := machine' } := by
  obtain ⟨owning', -, -, -, -⟩ := took.owning owning
  obtain ⟨rfl, absent⟩ := of_copyKernelRoot run
  refine ⟨⟨owning'.valid, owning'.used, owning'.frames, owning'.distinct⟩, ⟨?_, ?_, ?_, nofun, nofun⟩,
    ?_, nofun⟩
  · intro table mem
    rw [took.pages]
    exact List.mem_append_right _ mem
  · exact List.nodup_singleton _
  · exact (show 1 ≤ 4 by decide)
  · intro level table found index
    have isLevel : level = 0 ∧ root = table := by
      cases level with
      | zero => exact ⟨rfl, Option.some.inj found⟩
      | succ level => cases found
    obtain ⟨rfl, rfl⟩ := isLevel
    unfold Layout.EntryAt
    rw [if_neg (by decide)]
    split
    next isSlot =>
      rw [isSlot]
      exact absent
    next => rfl

theorem moves_check {σ β : Type} {rel : σ → σ → Prop} [Std.Refl rel] (result : Except VmError β) :
    Moves rel (check result : EStateM VmError σ β) := by
  cases result with
  | ok b => exact .pure b
  | error error => exact .throw error

omit [PageSource α] in
theorem reads_readUserTable (table : Nat) (index : Index) :
    Moves Eq (readUserTable table index : VmM α Nat) :=
  .bind (moves_check _) fun _ => .get_bind fun _ => .ite (fun _ => .pure _) fun _ => .throw _

omit [PageSource α] in
theorem reads_rawLeafEntry (root virt : Nat) : Moves Eq (rawLeafEntry root virt : VmM α Nat) :=
  .bind (reads_readUserTable _ _) fun _ => .bind (reads_readUserTable _ _) fun _ =>
    .bind (reads_readUserTable _ _) fun _ => .bind (moves_check _) fun _ => .get_bind fun _ =>
      .ite (fun _ => .pure _) fun _ => .throw _

omit [PageSource α] in
theorem of_rawLeafEntry (run : (rawLeafEntry root virt).run machine = .ok leaf machine') :
    machine' = machine := by
  rw [← after_ok run]
  exact (reads_rawLeafEntry root virt machine).symm

omit [PageSource α] in
theorem of_describeSpace
    (run : (describeSpace kernelRoot root code stack entry bytes).run loading = .ok space loading')
    : loading' = loading ∧ space.rootPhys = root ∧ space.entry = entry ∧
      space.owned = loading.ownership := by
  obtain ⟨_, _, readCode, run₁⟩ := of_bind_ok run
  obtain ⟨_, readsCode, rfl⟩ := of_onMachine readCode
  obtain rfl := of_rawLeafEntry readsCode
  obtain ⟨_, _, readStack, run₂⟩ := of_bind_ok run₁
  obtain ⟨_, readsStack, rfl⟩ := of_onMachine readStack
  obtain rfl := of_rawLeafEntry readsStack
  obtain ⟨_, -, run₃⟩ := of_check_bind run₂
  cases run₃
  exact ⟨rfl, rfl, rfl, rfl⟩

/-- The page of the stack is the last one that the last table maps. -/
def stackIndex : Index := 511

/-- The leaves of a finished space are the pages of its segments and the stack. -/
structure Complete (segments : List UserSegment) (layout : Layout) : Prop where
  inside : ∀ segment ∈ segments, ∀ index, segment.Covers (userPageAt index) →
    ∃ phys, layout.leaves index = some (segment.page phys (userPageAt index))
  stack : ∃ phys, layout.leaves stackIndex = some (stackPage phys)
  outside : ∀ index, index ≠ stackIndex →
    (∀ segment ∈ segments, ¬segment.Covers (userPageAt index)) → layout.leaves index = none

theorem UserSegment.Placed.not_covers_stack (placed : segment.Placed) :
    ¬segment.Covers (userPageAt stackIndex) := by
  have isStack : userPageAt stackIndex = userProgramLimit := by decide
  rintro ⟨-, below⟩
  have high := placed.pageHigh
  omega

theorem Building.mapStack (building : Building supply kernel layout loading)
    (isRoot : layout.tables[0]? = some root)
    (loaded : LoadedSegments segments (rootLayout root) layout)
    (placed : ∀ segment ∈ segments, segment.Placed) (took : TookPage loading phys middle)
    (run : (rawMapUserPage root (userStackTop - pageSize) phys true false).run middle =
      .ok () loading') :
    ∃ layout', Building supply kernel layout' loading' ∧ layout'.tables[0]? = some root ∧
      Complete segments layout' := by
  obtain ⟨grown, -, -, zero, -⟩ := building.took took
  have low : userCodeBase ≤ userStackTop - pageSize := by decide
  have high : userStackTop - pageSize < userStackTop := by decide
  have isStack : (splitIndices (userStackTop - pageSize)).l1 = stackIndex := by decide
  obtain ⟨layout', mapped, isRoot', -, leaves⟩ :=
    building.mapTaken (stackPage phys) isRoot low high took grown.laid zero run
  rw [isStack] at leaves
  refine ⟨layout', mapped, isRoot', ?_, ⟨phys, by rw [leaves, Function.update_self]⟩, ?_⟩
  · intro segment isSegment index covers
    obtain ⟨-, phys', found⟩ := loaded.inside segment isSegment index covers
    have different : index ≠ stackIndex := by
      rintro rfl
      exact (placed segment isSegment).not_covers_stack covers
    exact ⟨phys', by rw [leaves, Function.update_of_ne different, found]⟩
  · intro index different uncovered
    rw [leaves, Function.update_of_ne different, loaded.outside index uncovered]
    rfl

/-- The entries that the kernel's root had when it was copied into a new page. -/
def copiedEntry (machine : Machine α) (root : Nat) (index : Index) : Nat :=
  let cleared := machine.memory.store root (zeros pageSize)
  readEntry (cleared.store root (cleared.load machine.cr3 pageSize)) root index

theorem of_buildOrReclaim
    (run : (buildOrReclaim kernelRoot entry segments).run machine = .ok space machine') :
    ∃ loading, (buildUserSpace kernelRoot entry segments).run { machine, ownership := .new } =
      .ok space loading ∧ machine' = loading.machine := by
  change buildOrReclaim kernelRoot entry segments machine = _ at run
  unfold buildOrReclaim at run
  split at run
  next loading built =>
    cases run
    exact ⟨loading, built, rfl⟩
  next => split at run <;> cases run

/-- A space that was returned is built of its program. -/
theorem built_of_create (valid : supply.Valid machine.pages)
    (run : (createUserAddressSpaceFromSegments entry segments).run machine = .ok space machine') :
    Accepted entry segments ∧ space.entry = entry ∧ ∃ layout,
      Building supply (copiedEntry machine space.rootPhys) layout
        { machine := machine', ownership := space.owned } ∧
      layout.tables[0]? = some space.rootPhys ∧ Complete segments layout := by
  obtain ⟨_, isValid, creating⟩ := of_check_bind run
  have accepted := of_validateUserProgram isValid
  rw [run_get_bind] at creating
  obtain ⟨loading, builds, rfl⟩ := of_buildOrReclaim creating
  obtain ⟨root, middle, allocated, copying⟩ := of_bind_ok builds
  obtain ⟨_, copied, copies, loads⟩ := of_bind_ok copying
  obtain ⟨rooted, copiesRoot, rfl⟩ := of_onMachine copies
  obtain ⟨result, loading₁, loadsAll, stacking⟩ := of_bind_ok loads
  obtain ⟨stack, loading₂, allocatedStack, mapping⟩ := of_bind_ok stacking
  obtain ⟨_, loading₃, mapsStack, describing⟩ := of_bind_ok mapping
  obtain ⟨rfl, rfl, isEntry, isOwned⟩ := of_describeSpace describing
  have took := of_allocateOwnedZeroedPage allocated
  have start : Owning supply { machine := machine, ownership := .new } :=
    ⟨valid, nofun, nofun, .nil⟩
  have isRooted := (of_copyKernelRoot copiesRoot).1
  have rootBuilt := Building.copiedRoot start took copiesRoot
  have isKernel : (fun index => readEntry rooted.memory space.rootPhys index) =
      copiedEntry machine space.rootPhys := by
    rw [isRooted, took.machine]
    rfl
  rw [isKernel] at rootBuilt
  obtain ⟨layout₁, building₁, isRoot₁, loaded⟩ :=
    rootBuilt.loadSegments rfl accepted.placed loadsAll
  obtain ⟨layout₂, building₂, isRoot₂, complete⟩ := building₁.mapStack isRoot₁ loaded
    accepted.placed (of_allocateOwnedZeroedPage allocatedStack) mapsStack
  refine ⟨accepted, isEntry, layout₂, ?_, isRoot₂, complete⟩
  rw [isOwned]
  exact building₂

/-! ## What the processor sees -/

/-- The access to an address in a page of the program. -/
def UserPage.access (page : UserPage) (virt : Nat) : Access where
  phys := page.phys + virt % pageSize
  writable := page.writable
  executable := page.executable
  user := true

section

variable {ownership : UserPageOwnership}

theorem Laid.link {memory : ByteMemory} {level table child : Nat} {index : Index}
    (laid : Laid kernel layout memory) (inner : level < 3)
    (found : layout.tables[level]? = some table) (next : layout.tables[level + 1]? = some child)
    (isSlot : index = slot level) : readEntry memory table index = makeUserTableEntry child := by
  have entry := laid.entries found index
  unfold Layout.EntryAt at entry
  rw [if_neg (by omega), if_pos isSlot, next] at entry
  exact entry

theorem Laid.other {memory : ByteMemory} {level table : Nat} {index : Index}
    (laid : Laid kernel layout memory) (inner : level < 3) (positive : 0 < level)
    (found : layout.tables[level]? = some table) (different : index ≠ slot level) :
    readEntry memory table index = 0 := by
  have entry := laid.entries found index
  unfold Layout.EntryAt at entry
  rw [if_neg (by omega), if_neg different, if_neg (by omega)] at entry
  exact entry

/-- Below the user part's entry in the root, the processor sees the leaves and nothing else. -/
theorem Building.hardwareWalk_user
    (building : Building supply kernel layout { machine, ownership })
    (isRoot : layout.tables[0]? = some root) (full : layout.tables.length = 4)
    (isUser : (splitIndices virt).l4 = slot 0) :
    hardwareWalk machine.memory root virt =
      if (splitIndices virt).l3 = slot 1 ∧ (splitIndices virt).l2 = slot 2 then
        (layout.leaves (splitIndices virt).l1).map (·.access virt)
      else none := by
  obtain ⟨l3, isL3⟩ : ∃ l3, layout.tables[1]? = some l3 :=
    ⟨_, List.getElem?_eq_getElem (by omega)⟩
  obtain ⟨l2, isL2⟩ : ∃ l2, layout.tables[2]? = some l2 :=
    ⟨_, List.getElem?_eq_getElem (by omega)⟩
  obtain ⟨l1, isL1⟩ : ∃ l1, layout.tables[3]? = some l1 :=
    ⟨_, List.getElem?_eq_getElem (by omega)⟩
  have frame {level table : Nat} (found : layout.tables[level]? = some table) : IsFrame table :=
    building.owning.frames table (building.owned.tables table (List.mem_of_getElem? found))
  have laid := building.laid
  have atRoot : readEntry machine.memory root (splitIndices virt).l4 = makeUserTableEntry l3 :=
    laid.link (by decide) isRoot isL3 isUser
  have rootAddress : entryAddress root = root := (frame isRoot).and_mask
  unfold hardwareWalk walkLevels
  rw [rootAddress, walkFrom_table (by rw [atRoot, isPresent_makeUserTableEntry])
    (by rw [atRoot, mapsPage]; simp), atRoot, (frame isL3).entryAddress_makeUserTableEntry]
  by_cases inL3 : (splitIndices virt).l3 = slot 1
  case neg =>
    have absent := laid.other (by decide) (by decide) isL3 inL3
    rw [if_neg (fun both => inL3 both.1), walkFrom_absent (by rw [absent, isPresent_zero])]
  have atL3 : readEntry machine.memory l3 (splitIndices virt).l3 = makeUserTableEntry l2 :=
    laid.link (by decide) isL3 isL2 inL3
  rw [walkFrom_table (by rw [atL3, isPresent_makeUserTableEntry])
    (by rw [atL3, mapsPage]; simp), atL3, (frame isL2).entryAddress_makeUserTableEntry]
  by_cases inL2 : (splitIndices virt).l2 = slot 2
  case neg =>
    have absent := laid.other (by decide) (by decide) isL2 inL2
    rw [if_neg (fun both => inL2 both.2), walkFrom_absent (by rw [absent, isPresent_zero])]
  have atL2 : readEntry machine.memory l2 (splitIndices virt).l2 = makeUserTableEntry l1 :=
    laid.link (by decide) isL2 isL1 inL2
  rw [walkFrom_table (by rw [atL2, isPresent_makeUserTableEntry])
    (by rw [atL2, mapsPage]; simp), atL2, (frame isL1).entryAddress_makeUserTableEntry,
    if_pos ⟨inL3, inL2⟩]
  have leaf := laid.entries isL1 (splitIndices virt).l1
  unfold Layout.EntryAt at leaf
  rw [if_pos rfl] at leaf
  cases found : layout.leaves (splitIndices virt).l1 with
  | none =>
    rw [found, leafEntry] at leaf
    rw [walkFrom_absent (by rw [leaf, isPresent_zero])]
    rfl
  | some page =>
    rw [found, leafEntry] at leaf
    have pageFrame := building.owning.frames page.phys (building.owned.leaves found).1
    have whole : page.phys / 2 ^ 12 * 2 ^ 12 = page.phys := by
      obtain ⟨aligned, -⟩ := pageFrame
      unfold pageSize at aligned
      omega
    rw [walkFrom_page (by rw [leaf, isPresent_makeUserLeafEntry]) rfl, leaf,
      pageFrame.entryAddress_makeUserLeafEntry, whole]
    simp [accessOf, UserPage.access, pageSize]

end

/-! ## The page below the stack -/

/-- The page directly below the stack. -/
def guardPage : Nat := userStackTop - 2 * pageSize

/-- A segment reaches the page below the stack exactly if it ends above its start. -/
theorem UserSegment.Placed.covers_guard_iff (placed : segment.Placed) :
    segment.Covers guardPage ↔ guardPage < segment.virtualAddress + segment.memorySize := by
  have high := placed.high
  have nonempty := placed.nonempty
  have isGuard : guardPage = 0x2000001FE000 := by decide
  have isLimit : userProgramLimit = 0x2000001FF000 := by decide
  unfold UserSegment.Covers UserSegment.pageStart UserSegment.pageEnd alignDown pageSize
  omega

/-- In a space that was returned, the page below the stack is free exactly if no segment reaches
    into it. -/
theorem stack_guard_iff {entry : Nat} {segments : List UserSegment} {space : UserAddressSpace}
    (valid : supply.Valid machine.pages)
    (run : (createUserAddressSpaceFromSegments entry segments).run machine = .ok space machine') :
    (∀ offset < pageSize,
        hardwareWalk machine'.memory space.rootPhys (guardPage + offset) = none) ↔
      ∀ segment ∈ segments, segment.virtualAddress + segment.memorySize ≤ guardPage := by
  obtain ⟨accepted, -, layout, building, isRoot, complete⟩ := built_of_create valid run
  obtain ⟨stack, isStack⟩ := complete.stack
  have full := (building.owned.leaves isStack).2.2
  have isPage : userPageAt 510 = guardPage := by decide
  have isGuard : guardPage = 0x2000001FE000 := by decide
  have isTop : userStackTop = 0x200000200000 := by decide
  have isBase : userCodeBase = 0x200000000000 := by decide
  have walk (offset : Nat) (inside : offset < pageSize) :
      hardwareWalk machine'.memory space.rootPhys (guardPage + offset) =
        (layout.leaves 510).map (·.access (guardPage + offset)) := by
    unfold pageSize at inside
    obtain ⟨isL4, isL3, isL2⟩ := @splitIndices_user (guardPage + offset) (by omega) (by omega)
    have isL1 : (splitIndices (guardPage + offset)).l1 = 510 :=
      Fin.ext (show (guardPage + offset) / 2 ^ 12 % 512 = 510 by omega)
    rw [building.hardwareWalk_user isRoot full isL4, if_pos ⟨isL3, isL2⟩, isL1]
  constructor
  · intro unmapped segment mem
    by_contra reaches
    have covers : segment.Covers (userPageAt 510) := by
      rw [isPage, (accepted.placed segment mem).covers_guard_iff]
      omega
    obtain ⟨phys, found⟩ := complete.inside segment mem 510 covers
    have absent := unmapped 0 (by decide)
    rw [walk 0 (by decide), found, Option.map_some] at absent
    exact Option.some_ne_none _ absent
  · intro below offset inside
    rw [walk offset inside, complete.outside 510 (by decide)]
    · rfl
    · intro segment mem covers
      rw [isPage, (accepted.placed segment mem).covers_guard_iff] at covers
      have := below segment mem
      omega

end

section

/-- Six pages, and a kernel without mappings. -/
def guardMachine : Machine PageAnswers where
  manager := .new
  pages :=
    { allocations := [some 0x1000, some 0x2000, some 0x3000, some 0x4000, some 0x5000, some 0x6000]
      deallocations := [] }
  memory := fun _ => 0
  cr3 := 0

theorem guardMachine_fresh : PageAnswers.supply.Valid guardMachine.pages := by
  refine ⟨by decide, fun page mem => ?_⟩
  simp only [guardMachine, List.mem_cons, Option.some.injEq, List.not_mem_nil, or_false] at mem
  rcases mem with rfl | rfl | rfl | rfl | rfl | rfl <;> decide

/-- A program of one byte. -/
def tinyProgram (virtualAddress : Nat) : List UserSegment :=
  [{ virtualAddress, data := [0x90], memorySize := 1, writable := false, executable := true }]

/-- A segment in the page below the stack is accepted and mapped there. -/
theorem stack_guard_mapped :
    (match (createUserAddressSpaceFromSegments guardPage (tinyProgram guardPage)).run
        guardMachine with
      | .ok space machine => (hardwareWalk machine.memory space.rootPhys guardPage).isSome
      | .error _ _ => false) = true := by
  decide +kernel

theorem stack_guard_iff_tiny : ∃ space machine,
    (createUserAddressSpaceFromSegments userCodeBase (tinyProgram userCodeBase)).run guardMachine =
      .ok space machine ∧
    ∀ offset < pageSize, hardwareWalk machine.memory space.rootPhys (guardPage + offset) = none := by
  have returns : (match (createUserAddressSpaceFromSegments userCodeBase
      (tinyProgram userCodeBase)).run guardMachine with
      | .ok _ _ => true
      | .error _ _ => false) = true := by
    decide +kernel
  split at returns
  next space machine run =>
    refine ⟨space, machine, run, (stack_guard_iff guardMachine_fresh run).mpr ?_⟩
    intro segment mem
    rw [List.mem_singleton.mp mem]
    decide
  next => exact absurd returns Bool.false_ne_true

end

end CodexOS.Vm
