import CodexOS.Vm.Coherence
import CodexOS.Vm.UserSpace

/-! # What building a user address space leaves in memory

The tables of a space that is being built are a chain from the root down, of which
the last one holds the leaves. Every step of the build that returns either adds a
table to the chain, enters a leaf, or fills a page that is not in the chain.
-/

namespace CodexOS.Vm

open Effect Word64 Memory Bytes VirtualMemoryManager

section

variable {memory memory' : ByteMemory} {page page' entry : Nat} {index other : Index}

/-- The bytes of a page are the same in both memories. -/
def SamePage (memory memory' : ByteMemory) (page : Nat) : Prop :=
  ∀ offset < pageSize, memory' (page + offset) = memory (page + offset)

theorem SamePage.refl (memory : ByteMemory) (page : Nat) : SamePage memory memory page :=
  fun _ _ => rfl

theorem SamePage.trans (first : SamePage memory memory' page)
    (second : SamePage memory' memory'' page) : SamePage memory memory'' page :=
  fun offset inside => (second offset inside).trans (first offset inside)

theorem SamePage.readEntry (same : SamePage memory memory' page) (index : Index) :
    readEntry memory' page index = readEntry memory page index := by
  refine ByteMemory.loadWord_congr fun a low high => ?_
  have inside := same (a - page) (by rw [pageSize]; omega)
  rwa [show page + (a - page) = a by omega] at inside

theorem samePage_store (frame : IsFrame page) (frame' : IsFrame page') (different : page ≠ page')
    (low : page ≤ address) (high : address + bytes.length ≤ page + pageSize) :
    SamePage memory (memory.store address bytes) page' := by
  intro offset inside
  apply ByteMemory.store_of_outside
  obtain ⟨aligned, -⟩ := frame
  obtain ⟨aligned', -⟩ := frame'
  simp only [pageSize] at aligned aligned' inside high
  omega

theorem samePage_writeEntry (frame : IsFrame page) (frame' : IsFrame page')
    (different : page ≠ page') : SamePage memory (writeEntry memory page index entry) page' := by
  have bound := index.isLt
  refine samePage_store frame frame' different (by omega) ?_
  rw [ByteMemory.length_wordBytes]
  simp only [List.length_singleton, pageSize]
  omega

theorem readEntry_writeEntry (small : entry < 2 ^ 64) :
    readEntry (writeEntry memory page index entry) page other =
      if other = index then entry else readEntry memory page other := by
  unfold readEntry writeEntry
  by_cases same : other = index
  · rw [if_pos same, same]
    exact @ByteMemory.loadWord_storeWords memory (page + 8 * index) [entry] 0 entry rfl small
  · rw [if_neg same]
    refine ByteMemory.loadWord_congr fun a low high => ByteMemory.storeWords_of_outside ?_
    have differ : other.val ≠ index.val := fun equal => same (Fin.ext equal)
    simp only [List.length_singleton]
    omega

def IsZero (memory : ByteMemory) (page : Nat) : Prop :=
  ∀ offset < pageSize, memory (page + offset) = 0

theorem isZero_store (memory : ByteMemory) (page : Nat) :
    IsZero (memory.store page (zeros pageSize)) page := by
  intro offset inside
  have bound : offset < (zeros pageSize).length := by rwa [length_zeros]
  rw [ByteMemory.store, if_pos (Nat.le_add_right _ _), Nat.add_sub_cancel_left,
    List.getElem?_eq_getElem bound, Option.getD_some]
  exact List.getElem_replicate _

theorem IsZero.readEntry (zero : IsZero memory page) (index : Index) :
    readEntry memory page index = 0 := by
  have bound := index.isLt
  have loaded : ByteMemory.load memory (page + 8 * index) 8 = le 8 0 := by
    rw [le_zero]
    refine List.eq_replicate_iff.mpr ⟨by simp [ByteMemory.load], fun byte mem => ?_⟩
    obtain ⟨i, inside, rfl⟩ := List.mem_map.mp mem
    have small := List.mem_range.mp inside
    rw [Nat.add_assoc]
    exact zero _ (by rw [pageSize]; omega)
  unfold Vm.readEntry ByteMemory.loadWord
  rw [loaded, leNat_le_of_lt (by decide)]

end

section

variable (phys : Nat) (writable executable : Bool)

@[simp] theorem isPresent_makeUserTableEntry : isPresent (makeUserTableEntry phys) = true := by
  rw [makeUserTableEntry_eq, isPresent, has_compose (by decide)]
  decide

@[simp] theorem writable_makeUserTableEntry :
    has (makeUserTableEntry phys) entryWritable = true := by
  rw [makeUserTableEntry_eq, has_compose (by decide)]
  decide

@[simp] theorem user_makeUserTableEntry : has (makeUserTableEntry phys) entryUser = true := by
  rw [makeUserTableEntry_eq, has_compose (by decide)]
  decide

@[simp] theorem large_makeUserTableEntry : has (makeUserTableEntry phys) entryLarge = false := by
  rw [makeUserTableEntry_eq, has_compose (by decide)]
  decide

@[simp] theorem noExecute_makeUserTableEntry :
    has (makeUserTableEntry phys) entryNoExecute = false := by
  rw [makeUserTableEntry_eq, has_compose (by decide)]
  decide

theorem makeUserTableEntry_lt : makeUserTableEntry phys < 2 ^ 64 := by
  rw [makeUserTableEntry_eq]
  exact compose_lt (by decide)

theorem IsFrame.entryAddress_makeUserTableEntry (frame : IsFrame phys) :
    entryAddress (makeUserTableEntry phys) = phys := by
  rw [makeUserTableEntry_eq, entryAddress_compose (by decide)]
  exact frame.and_mask

theorem makeUserLeafEntry_eq : makeUserLeafEntry phys writable executable =
    compose phys (leafFlags writable executable ||| entryUser) := by
  have noExecute : entryNoExecute ||| entryUser ||| entryNoExecute =
      entryNoExecute ||| entryUser := by decide
  unfold makeUserLeafEntry
  rw [makeLeafEntry_eq]
  cases executable with
  | true => exact Nat.or_assoc _ _ _
  | false =>
    simp only [leafFlags, compose, Bool.false_eq_true, if_false]
    rw [Nat.or_assoc, Nat.or_assoc, Nat.or_assoc, ← Nat.or_assoc entryNoExecute, noExecute,
      Nat.or_assoc]

@[simp] theorem isPresent_makeUserLeafEntry :
    isPresent (makeUserLeafEntry phys writable executable) = true := by
  rw [makeUserLeafEntry_eq, isPresent, has_compose (by decide)]
  revert writable executable
  decide

@[simp] theorem user_makeUserLeafEntry :
    has (makeUserLeafEntry phys writable executable) entryUser = true := by
  rw [makeUserLeafEntry_eq, has_compose (by decide)]
  revert writable executable
  decide

@[simp] theorem writable_makeUserLeafEntry :
    has (makeUserLeafEntry phys writable executable) entryWritable = writable := by
  rw [makeUserLeafEntry_eq, has_compose (by decide)]
  revert writable executable
  decide

@[simp] theorem noExecute_makeUserLeafEntry :
    has (makeUserLeafEntry phys writable executable) entryNoExecute = !executable := by
  rw [makeUserLeafEntry_eq, has_compose (by decide)]
  revert writable executable
  decide

theorem IsFrame.entryAddress_makeUserLeafEntry (frame : IsFrame phys) :
    entryAddress (makeUserLeafEntry phys writable executable) = phys := by
  rw [makeUserLeafEntry_eq, entryAddress_compose]
  · exact frame.and_mask
  · revert writable executable
    decide

theorem makeUserLeafEntry_lt : makeUserLeafEntry phys writable executable < 2 ^ 64 := by
  rw [makeUserLeafEntry_eq]
  apply compose_lt
  revert writable executable
  decide

end

/-! ## Steps that return -/

section

variable {α : Type} [PageSource α] {machine machine' : Machine α} {loading loading' : Loading α}
  {phys table entry : Nat} {index : Index}

theorem of_physicalPageMut (ok : physicalPageMut phys = .ok page) :
    page = phys ∧ phys < 2 ^ 47 := by
  obtain ⟨high, isHigh, rfl⟩ := Option.map_eq_some_iff.mp (of_orError ok)
  obtain ⟨small, -⟩ := checkedAdd_eq_some.mp isHigh
  simp only [highHalfDirectMapBase, size] at small
  exact ⟨rfl, by omega⟩

theorem physicalPageMut_of_lt (low : phys < 2 ^ 47) : physicalPageMut phys = .ok phys := by
  unfold physicalPageMut higherHalfPhys checkedAdd
  rw [if_pos]
  · rfl
  · simp only [highHalfDirectMapBase, size]
    omega

omit [PageSource α] in
theorem of_physicalPageMut_bind {f : Nat → EStateM VmError σ γ}
    (run : (check (physicalPageMut phys) >>= f).run s = .ok c s') :
    phys < 2 ^ 47 ∧ (f phys).run s = .ok c s' := by
  obtain ⟨_, isMapped, reached⟩ := of_check_bind run
  obtain ⟨rfl, low⟩ := of_physicalPageMut isMapped
  exact ⟨low, reached⟩

omit [PageSource α] in
theorem of_onMachine (run : (onMachine x).run loading = .ok b loading') :
    ∃ machine, x.run loading.machine = .ok b machine ∧ loading' = { loading with machine } := by
  change onMachine x loading = _ at run
  unfold onMachine at run
  cases inner : x.run loading.machine with
  | ok value machine =>
    rw [inner] at run
    cases run
    exact ⟨machine, rfl, rfl⟩
  | error error machine =>
    rw [inner] at run
    cases run

/-- The machine with other contents of memory. -/
def Machine.withMemory (machine : Machine α) (memory : ByteMemory) : Machine α :=
  { machine with memory }

/-- A page was taken, cleared and recorded. -/
structure TookPage (loading : Loading α) (phys : Nat) (loading' : Loading α) : Prop where
  answer : (PageSource.allocatePage loading.machine.pages).1 = some phys
  low : phys < 2 ^ 47
  pages : loading'.ownership.pages = loading.ownership.pages ++ [phys]
  machine : loading'.machine =
    loading.machine.asked.withMemory (loading.machine.memory.store phys (zeros pageSize))

theorem of_record {ownership ownership' : UserPageOwnership}
    (recorded : ownership.record phys = some ownership') :
    ownership'.pages = ownership.pages ++ [phys] := by
  unfold UserPageOwnership.record at recorded
  split at recorded
  · cases recorded
    rfl
  · cases recorded

theorem of_allocateZeroedPage (run : allocateZeroedPage.run machine = .ok phys machine') :
    (PageSource.allocatePage machine.pages).1 = some phys ∧ phys < 2 ^ 47 ∧
      machine' = machine.asked.withMemory (machine.memory.store phys (zeros pageSize)) := by
  obtain ⟨page, asked, took, checking⟩ := of_bind_ok run
  obtain ⟨answer, rfl⟩ := of_takePage took
  obtain ⟨low, cleared⟩ := of_physicalPageMut_bind checking
  cases cleared
  exact ⟨answer, low, rfl⟩

theorem of_recordPage (run : (recordPage page).run loading = .ok phys loading') :
    phys = page ∧ loading'.ownership.pages = loading.ownership.pages ++ [page] ∧
      loading'.machine = loading.machine := by
  rw [recordPage, run_get_bind] at run
  split at run
  next ownership kept =>
    cases run
    exact ⟨rfl, of_record kept, rfl⟩
  next =>
    obtain ⟨machine, gaveUp, -⟩ := of_onMachine run
    obtain ⟨freed, _, _, refused⟩ := of_bind_ok gaveUp
    cases freed <;> cases refused

theorem of_allocateOwnedZeroedPage
    (run : allocateOwnedZeroedPage.run loading = .ok phys loading') :
    TookPage loading phys loading' := by
  obtain ⟨page, middle, allocated, recorded⟩ := of_bind_ok run
  obtain ⟨machine, zeroed, rfl⟩ := of_onMachine allocated
  obtain ⟨answer, low, rfl⟩ := of_allocateZeroedPage zeroed
  obtain ⟨rfl, pages, same⟩ := of_recordPage recorded
  exact ⟨answer, low, pages, same⟩

/-- A level of the chain was there, or it was made. -/
theorem of_enterUserTable (run : (enterUserTable table index).run loading = .ok child loading') :
    (isPresent (readEntry loading.machine.memory table index) = true ∧
        child = entryAddress (readEntry loading.machine.memory table index) ∧
        loading' = loading) ∨
      isPresent (readEntry loading.machine.memory table index) = false ∧
        ∃ phys middle, TookPage loading phys middle ∧
          child = entryAddress (makeUserTableEntry phys) ∧
          loading' = { middle with
            machine := middle.machine.withMemory
              (writeEntry middle.machine.memory table index (makeUserTableEntry phys)) } := by
  obtain ⟨-, entered⟩ := of_physicalPageMut_bind run
  rw [run_get_bind] at entered
  dsimp only at entered
  cases present : isPresent (readEntry loading.machine.memory table index) with
  | true =>
    rw [present] at entered
    cases user : has (readEntry loading.machine.memory table index) entryUser with
    | false =>
      rw [user] at entered
      cases entered
    | true =>
      rw [user] at entered
      cases entered
      exact .inl ⟨rfl, rfl, rfl⟩
  | false =>
    rw [present] at entered
    obtain ⟨phys, middle, took, written⟩ := of_bind_ok entered
    cases written
    exact .inr ⟨rfl, phys, middle, of_allocateOwnedZeroedPage took, rfl, rfl⟩

omit [PageSource α] in
theorem of_enterUserLeaf
    (run : (enterUserLeaf table index entry).run loading = .ok () loading') :
    isPresent (readEntry loading.machine.memory table index) = false ∧
      loading' = { loading with
        machine := loading.machine.withMemory
          (writeEntry loading.machine.memory table index entry) } := by
  obtain ⟨-, entered⟩ := of_physicalPageMut_bind run
  rw [run_get_bind] at entered
  cases present : isPresent (readEntry loading.machine.memory table index) with
  | true =>
    rw [present] at entered
    cases entered
  | false =>
    rw [present] at entered
    cases entered
    exact ⟨rfl, rfl⟩

end

/-! ## The chain of tables -/

def userL4 : Index := (splitIndices userCodeBase).l4

/-- The entry of a table that leads on to the next table. -/
def slot : Nat → Index
  | 0 => userL4
  | _ => 0

/-- A page of the program with its contents. -/
structure UserPage where
  phys : Nat
  writable : Bool
  executable : Bool
  bytes : Nat → UInt8

def leafEntry : Option UserPage → Nat
  | none => 0
  | some page => makeUserLeafEntry page.phys page.writable page.executable

/-- A chain of tables from the root down, and what the last one of four maps. -/
structure Layout where
  tables : List Nat
  leaves : Index → Option UserPage

namespace Layout

/-- What a table of the chain has at an index; the other entries of the root are the kernel's. -/
def EntryAt (layout : Layout) (kernel : Index → Nat) (level : Nat) (index : Index) (entry : Nat) :
    Prop :=
  if level = 3 then entry = leafEntry (layout.leaves index)
  else if index = slot level then
    match layout.tables[level + 1]? with
    | some child => entry = makeUserTableEntry child
    | none => isPresent entry = false
  else entry = if level = 0 then kernel index else 0

/-- The chain and the pages it maps are different pages of a list. -/
structure Owned (layout : Layout) (pages : List Nat) : Prop where
  tables : ∀ table ∈ layout.tables, table ∈ pages
  distinct : layout.tables.Nodup
  depth : layout.tables.length ≤ 4
  leaves : ∀ {index page}, layout.leaves index = some page →
    page.phys ∈ pages ∧ page.phys ∉ layout.tables ∧ layout.tables.length = 4
  single : ∀ {index index' page page'}, layout.leaves index = some page →
    layout.leaves index' = some page' → page.phys = page'.phys → index = index'

def enter (layout : Layout) (index : Index) (page : UserPage) : Layout :=
  { layout with leaves := Function.update layout.leaves index (some page) }

def extend (layout : Layout) (table : Nat) : Layout :=
  { layout with tables := layout.tables ++ [table] }

end Layout

structure Laid (kernel : Index → Nat) (layout : Layout) (memory : ByteMemory) : Prop where
  entries : ∀ {level table}, layout.tables[level]? = some table →
    ∀ index, layout.EntryAt kernel level index (readEntry memory table index)
  contents : ∀ {index page}, layout.leaves index = some page →
    ∀ offset < pageSize, memory (page.phys + offset) = page.bytes offset

section

variable {kernel : Index → Nat} {layout : Layout} {memory memory' : ByteMemory} {pages : List Nat}
  {table : Nat} {index : Index} {page : UserPage}

theorem Laid.congr (laid : Laid kernel layout memory) (owned : layout.Owned pages)
    (same : ∀ page ∈ pages, SamePage memory memory' page) : Laid kernel layout memory' where
  entries := by
    intro level table found index
    rw [(same table (owned.tables table (List.mem_of_getElem? found))).readEntry]
    exact laid.entries found index
  contents := by
    intro index page found offset inside
    rw [same page.phys (owned.leaves found).1 offset inside]
    exact laid.contents found offset inside

theorem Layout.Owned.mono (owned : layout.Owned pages) (more : ∀ page ∈ pages, page ∈ pages') :
    layout.Owned pages' where
  tables table mem := more table (owned.tables table mem)
  distinct := owned.distinct
  depth := owned.depth
  leaves found := ⟨more _ (owned.leaves found).1, (owned.leaves found).2⟩
  single := owned.single

theorem Layout.Owned.extend (owned : layout.Owned pages) (mem : table ∈ pages)
    (new : table ∉ layout.tables) (short : layout.tables.length < 4) :
    (layout.extend table).Owned pages where
  tables table' mem' := by
    rcases List.mem_append.mp mem' with before | isNew
    · exact owned.tables table' before
    · rw [List.mem_singleton.mp isNew]
      exact mem
  distinct := List.nodup_append.mpr ⟨owned.distinct, List.nodup_singleton _, by
    rintro table' mem' _ isNew rfl
    rw [List.mem_singleton.mp isNew] at mem'
    exact new mem'⟩
  depth := by
    rw [Layout.extend, List.length_append]
    exact short
  leaves found := absurd (owned.leaves found).2.2 (by omega)
  single := owned.single

/-- A table of zeros becomes the last one of the chain when the entry before it leads to it. -/
theorem Laid.extend (laid : Laid kernel layout memory) (owned : layout.Owned pages)
    (isLast : layout.tables.getLast? = some last) (short : layout.tables.length < 4)
    (frames : ∀ page ∈ pages, IsFrame page) (zero : IsZero memory table) (mem : table ∈ pages)
    (new : table ∉ layout.tables) :
    Laid kernel (layout.extend table)
      (writeEntry memory last (slot (layout.tables.length - 1)) (makeUserTableEntry table)) := by
  have lastMem : last ∈ layout.tables := List.mem_of_getLast? isLast
  have lastFrame := frames last (owned.tables last lastMem)
  have atLast : layout.tables[layout.tables.length - 1]? = some last := by
    rw [← List.getLast?_eq_getElem?, isLast]
  constructor
  · intro level table' found index
    unfold Layout.extend at found
    rcases Nat.lt_trichotomy level layout.tables.length with inside | rfl | outside
    · rw [List.getElem?_append_left inside] at found
      have before := laid.entries found index
      have notLeaves : level ≠ 3 := by omega
      unfold Layout.EntryAt at before ⊢
      rw [if_neg notLeaves] at before ⊢
      by_cases isEnd : level = layout.tables.length - 1
      · subst isEnd
        rw [atLast, Option.some.injEq] at found
        subst found
        rw [readEntry_writeEntry (makeUserTableEntry_lt _)]
        by_cases isSlot : index = slot (layout.tables.length - 1)
        · rw [if_pos isSlot, if_pos isSlot, Layout.extend, Nat.sub_add_cancel (by omega),
            List.getElem?_concat_length]
        · rw [if_neg isSlot] at before ⊢
          rw [if_neg isSlot]
          exact before
      · have different : last ≠ table' := by
          rintro rfl
          exact isEnd ((List.getElem?_inj inside owned.distinct).mp (found.trans atLast.symm))
        have frame' := frames table' (owned.tables table' (List.mem_of_getElem? found))
        rw [(samePage_writeEntry lastFrame frame' different).readEntry, Layout.extend,
          List.getElem?_append_left (by omega)]
        exact before
    · rw [List.getElem?_concat_length, Option.some.injEq] at found
      subst found
      have different : last ≠ table := by
        rintro rfl
        exact new lastMem
      rw [(samePage_writeEntry lastFrame (frames table mem) different).readEntry, zero.readEntry]
      have noLeaf : layout.leaves index = none := by
        cases found : layout.leaves index with
        | none => rfl
        | some page => exact absurd (owned.leaves found).2.2 (by omega)
      have nonempty : layout.tables.length ≠ 0 := by
        intro empty
        rw [List.length_eq_zero_iff.mp empty] at lastMem
        cases lastMem
      unfold Layout.EntryAt Layout.extend
      rw [noLeaf, if_neg nonempty, List.getElem?_eq_none (by simp)]
      simp [leafEntry]
    · rw [List.getElem?_eq_none (by simp; omega)] at found
      cases found
  · intro index page found
    exact absurd (owned.leaves found).2.2 (by omega)

theorem Layout.Owned.enter (owned : layout.Owned pages) (mem : page.phys ∈ pages)
    (notTable : page.phys ∉ layout.tables) (full : layout.tables.length = 4)
    (unmapped : ∀ {index other}, layout.leaves index = some other → other.phys ≠ page.phys) :
    (layout.enter index page).Owned pages where
  tables := owned.tables
  distinct := owned.distinct
  depth := owned.depth
  leaves := by
    intro index' page' found
    unfold Layout.enter at found
    simp only [Function.update_apply] at found
    split at found
    · cases found
      exact ⟨mem, notTable, full⟩
    · exact owned.leaves found
  single := by
    intro index₁ index₂ page₁ page₂ found₁ found₂ same
    unfold Layout.enter at found₁ found₂
    simp only [Function.update_apply] at found₁ found₂
    split at found₁ <;> split at found₂
    next isIndex isIndex' => rw [isIndex, isIndex']
    next isIndex other =>
      cases found₁
      exact absurd same.symm (unmapped found₂)
    next other isIndex =>
      cases found₂
      exact absurd same (unmapped found₁)
    next => exact owned.single found₁ found₂ same

theorem Laid.enter {last : Nat} (laid : Laid kernel layout memory) (owned : layout.Owned pages)
    (isLast : layout.tables[3]? = some last) (frames : ∀ page ∈ pages, IsFrame page)
    (mem : page.phys ∈ pages) (notTable : page.phys ∉ layout.tables)
    (contents : ∀ offset < pageSize, memory (page.phys + offset) = page.bytes offset) :
    Laid kernel (layout.enter index page)
      (writeEntry memory last index
        (makeUserLeafEntry page.phys page.writable page.executable)) := by
  have lastMem : last ∈ layout.tables := List.mem_of_getElem? isLast
  have lastFrame := frames last (owned.tables last lastMem)
  have elsewhere (page' : Nat) (mem' : page' ∈ pages) (different : last ≠ page') :
      SamePage memory (writeEntry memory last index
        (makeUserLeafEntry page.phys page.writable page.executable)) page' :=
    samePage_writeEntry lastFrame (frames page' mem') different
  constructor
  · intro level table found index'
    change layout.tables[level]? = some table at found
    have before := laid.entries found index'
    unfold Layout.EntryAt at before ⊢
    by_cases leaves : level = 3
    · subst leaves
      rw [isLast, Option.some.injEq] at found
      subst found
      rw [if_pos rfl] at before ⊢
      rw [readEntry_writeEntry (makeUserLeafEntry_lt _ _ _), Layout.enter]
      simp only [Function.update_apply]
      split
      · rfl
      · exact before
    · rw [if_neg leaves] at before ⊢
      have different : last ≠ table := by
        rintro rfl
        have inside : 3 < layout.tables.length := by
          rw [List.getElem?_eq_some_iff] at isLast
          exact isLast.1
        exact leaves ((List.getElem?_inj inside owned.distinct).mp (isLast.trans found.symm)).symm
      rw [(elsewhere table (owned.tables table (List.mem_of_getElem? found)) different).readEntry]
      exact before
  · intro index' page' found
    unfold Layout.enter at found
    simp only [Function.update_apply] at found
    split at found
    · cases found
      have different : last ≠ page.phys := by
        rintro rfl
        exact notTable lastMem
      intro offset inside
      rw [elsewhere page.phys mem different offset inside]
      exact contents offset inside
    · have different : last ≠ page'.phys := by
        rintro rfl
        exact (owned.leaves found).2.1 lastMem
      intro offset inside
      rw [elsewhere page'.phys (owned.leaves found).1 different offset inside]
      exact laid.contents found offset inside

end

/-! ## The state of a build -/

section

variable {α : Type} [PageSource α] {supply : Supply α} {kernel : Index → Nat} {layout : Layout}
  {loading loading' middle : Loading α} {phys virt : Nat}

/-- The recorded pages are different page frames that are in use. -/
structure Owning (supply : Supply α) (loading : Loading α) : Prop where
  valid : supply.Valid loading.machine.pages
  used : ∀ page ∈ loading.ownership.pages, supply.Used loading.machine.pages page
  frames : ∀ page ∈ loading.ownership.pages, IsFrame page
  distinct : loading.ownership.pages.Nodup

structure Building (supply : Supply α) (kernel : Index → Nat) (layout : Layout)
    (loading : Loading α) : Prop where
  owning : Owning supply loading
  owned : layout.Owned loading.ownership.pages
  laid : Laid kernel layout loading.machine.memory

/-- More pages are recorded, and those that were recorded before keep their contents, except the
    tables. -/
structure Preserving (tables : List Nat) (loading loading' : Loading α) : Prop where
  pages : ∀ page ∈ loading.ownership.pages, page ∈ loading'.ownership.pages
  same : ∀ page ∈ loading.ownership.pages, page ∉ tables →
    SamePage loading.machine.memory loading'.machine.memory page

omit [PageSource α] in
theorem Preserving.refl (tables : List Nat) (loading : Loading α) :
    Preserving tables loading loading :=
  ⟨fun _ => id, fun page _ _ => .refl _ page⟩

theorem TookPage.owning (took : TookPage loading phys loading') (owning : Owning supply loading) :
    Owning supply loading' ∧ phys ∉ loading.ownership.pages ∧ IsFrame phys ∧
      IsZero loading'.machine.memory phys ∧
      ∀ page ∈ loading.ownership.pages,
        SamePage loading.machine.memory loading'.machine.memory page := by
  obtain ⟨frame, unused, used⟩ := supply.fresh owning.valid took.answer
  have new : phys ∉ loading.ownership.pages := fun mem => unused (owning.used phys mem)
  refine ⟨⟨?_, ?_, ?_, ?_⟩, new, frame, ?_, ?_⟩
  · rw [took.machine]
    exact supply.valid owning.valid
  · intro page mem
    rw [took.machine]
    rw [took.pages] at mem
    rcases List.mem_append.mp mem with before | isNew
    · exact supply.keeps owning.valid (owning.used page before)
    · rw [List.mem_singleton.mp isNew]
      exact used
  · intro page mem
    rw [took.pages] at mem
    rcases List.mem_append.mp mem with before | isNew
    · exact owning.frames page before
    · rw [List.mem_singleton.mp isNew]
      exact frame
  · rw [took.pages]
    refine List.nodup_append.mpr ⟨owning.distinct, List.nodup_singleton _, ?_⟩
    rintro page mem _ isNew rfl
    rw [List.mem_singleton.mp isNew] at mem
    exact new mem
  · rw [took.machine]
    exact isZero_store _ _
  · intro page mem
    rw [took.machine]
    refine samePage_store frame (owning.frames page mem) ?_ (Nat.le_refl _) ?_
    · rintro rfl
      exact new mem
    · rw [length_zeros]

theorem Building.took (building : Building supply kernel layout loading)
    (took : TookPage loading phys loading') :
    Building supply kernel layout loading' ∧ phys ∈ loading'.ownership.pages ∧
      phys ∉ loading.ownership.pages ∧ IsZero loading'.machine.memory phys ∧
      Preserving layout.tables loading loading' := by
  obtain ⟨owning, new, frame, zero, same⟩ := took.owning building.owning
  have more : ∀ page ∈ loading.ownership.pages, page ∈ loading'.ownership.pages := by
    intro page mem
    rw [took.pages]
    exact List.mem_append_left _ mem
  refine ⟨⟨owning, building.owned.mono more, building.laid.congr building.owned same⟩, ?_, new, zero,
    more, fun page mem _ => same page mem⟩
  rw [took.pages]
  exact List.mem_append_right _ (List.mem_singleton.mpr rfl)

/-- The tables of a chain that may have grown by pages that were not recorded before. -/
structure Deeper (pages : List Nat) (layout layout' : Layout) : Prop where
  leaves : layout'.leaves = layout.leaves
  chain : layout.tables <+: layout'.tables
  new : ∀ table ∈ layout'.tables, table ∈ layout.tables ∨ table ∉ pages

theorem Deeper.notMem (deeper : Deeper pages layout layout') (mem : page ∈ pages)
    (notTable : page ∉ layout.tables) :
    page ∉ layout'.tables := by
  intro isTable
  rcases deeper.new page isTable with before | unknown
  · exact notTable before
  · exact unknown mem

theorem Deeper.trans (first : Deeper pages layout layout') (second : Deeper pages' layout' layout'')
    (more : ∀ page ∈ pages, page ∈ pages') : Deeper pages layout layout'' where
  leaves := second.leaves.trans first.leaves
  chain := first.chain.trans second.chain
  new table mem := by
    rcases second.new table mem with before | unknown
    · exact first.new table before
    · exact .inr fun known => unknown (more table known)

omit [PageSource α] in
theorem Preserving.trans (first : Preserving layout.tables loading loading')
    (second : Preserving layout'.tables loading' loading'')
    (deeper : Deeper loading.ownership.pages layout layout') :
    Preserving layout.tables loading loading'' where
  pages page mem := second.pages page (first.pages page mem)
  same page mem notTable := (first.same page mem notTable).trans
    (second.same page (first.pages page mem) (deeper.notMem mem notTable))

theorem Building.enterTable (building : Building supply kernel layout loading) {level table child : Nat}
    (inner : level < 3) (found : layout.tables[level]? = some table)
    (run : (enterUserTable table (slot level)).run loading = .ok child loading') :
    ∃ layout', Building supply kernel layout' loading' ∧ layout'.tables[level + 1]? = some child ∧
      Deeper loading.ownership.pages layout layout' ∧
      Preserving layout.tables loading loading' := by
  have entry := building.laid.entries found (slot level)
  unfold Layout.EntryAt at entry
  rw [if_neg (by omega), if_pos rfl] at entry
  have tableMem := building.owned.tables table (List.mem_of_getElem? found)
  cases next : layout.tables[level + 1]? with
  | some there =>
    rw [next] at entry
    obtain ⟨-, rfl, rfl⟩ | ⟨absent, -⟩ := of_enterUserTable run
    · have frame := building.owning.frames there
        (building.owned.tables there (List.mem_of_getElem? next))
      refine ⟨layout, building, ?_, ⟨rfl, List.prefix_rfl, fun _ => .inl⟩, .refl _ _⟩
      rw [entry, frame.entryAddress_makeUserTableEntry, next]
    · rw [entry, isPresent_makeUserTableEntry] at absent
      cases absent
  | none =>
    rw [next] at entry
    obtain ⟨present, -⟩ | ⟨-, phys, middle, took, rfl, rfl⟩ := of_enterUserTable run
    · exact absurd (present.symm.trans entry) (by decide)
    obtain ⟨grown, mem, new, zero, preserving⟩ := building.took took
    have bound : level < layout.tables.length := by
      rw [List.getElem?_eq_some_iff] at found
      exact found.1
    have length : layout.tables.length = level + 1 := by
      rw [List.getElem?_eq_none_iff] at next
      omega
    have isLast : layout.tables.getLast? = some table := by
      rw [List.getLast?_eq_getElem?, length]
      exact found
    have notTable : phys ∉ layout.tables := fun mem => new (building.owned.tables phys mem)
    have frame := grown.owning.frames phys mem
    have tableFrame := building.owning.frames table tableMem
    have laid := grown.laid.extend grown.owned isLast (by omega) grown.owning.frames zero mem notTable
    rw [length, Nat.add_sub_cancel] at laid
    refine ⟨layout.extend phys, ⟨⟨grown.owning.valid, grown.owning.used, grown.owning.frames,
      grown.owning.distinct⟩, grown.owned.extend mem notTable (by omega), laid⟩, ?_, ⟨rfl,
      List.prefix_append _ _, ?_⟩, ⟨preserving.pages, ?_⟩⟩
    · rw [frame.entryAddress_makeUserTableEntry, Layout.extend, ← length,
        List.getElem?_concat_length]
    · intro table' mem'
      rcases List.mem_append.mp mem' with before | isNew
      · exact .inl before
      · rw [List.mem_singleton.mp isNew]
        exact .inr new
    · intro page mem' notTable'
      refine (preserving.same page mem' notTable').trans ?_
      refine samePage_writeEntry tableFrame (building.owning.frames page mem') ?_
      rintro rfl
      exact notTable' (List.mem_of_getElem? found)

theorem splitIndices_user (low : userCodeBase ≤ virt) (high : virt < userStackTop) :
    (splitIndices virt).l4 = slot 0 ∧ (splitIndices virt).l3 = slot 1 ∧
      (splitIndices virt).l2 = slot 2 := by
  have isUserL4 : userL4.val = 64 := by decide
  unfold userStackTop at high
  unfold userCodeBase at low high
  refine ⟨Fin.ext ?_, Fin.ext ?_, Fin.ext ?_⟩
  · rw [slot, isUserL4]
    exact show virt / 2 ^ 39 % 512 = 64 by omega
  · exact show virt / 2 ^ 30 % 512 = 0 by omega
  · exact show virt / 2 ^ 21 % 512 = 0 by omega

theorem Building.mapPage (building : Building supply kernel layout loading) {root : Nat}
    {page : UserPage} (isRoot : layout.tables[0]? = some root)
    (low : userCodeBase ≤ virt) (high : virt < userStackTop)
    (mem : page.phys ∈ loading.ownership.pages) (notTable : page.phys ∉ layout.tables)
    (unmapped : ∀ {index other}, layout.leaves index = some other → other.phys ≠ page.phys)
    (contents : ∀ offset < pageSize,
      loading.machine.memory (page.phys + offset) = page.bytes offset)
    (run : (rawMapUserPage root virt page.phys page.writable page.executable).run loading =
      .ok () loading') :
    ∃ layout', Building supply kernel (layout'.enter (splitIndices virt).l1 page) loading' ∧
      layout.leaves (splitIndices virt).l1 = none ∧
      Deeper loading.ownership.pages layout layout' ∧
      ∀ page ∈ loading.ownership.pages, page ∈ loading'.ownership.pages := by
  obtain ⟨isL4, isL3, isL2⟩ := splitIndices_user low high
  obtain ⟨l3, loading₁, entered₃, run⟩ := of_bind_ok run
  obtain ⟨l2, loading₂, entered₂, run⟩ := of_bind_ok run
  obtain ⟨l1, loading₃, entered₁, run⟩ := of_bind_ok run
  rw [isL4] at entered₃
  rw [isL3] at entered₂
  rw [isL2] at entered₁
  obtain ⟨layout₁, building₁, found₁, deeper₁, preserving₁⟩ :=
    building.enterTable (by decide) isRoot entered₃
  obtain ⟨layout₂, building₂, found₂, deeper₂, preserving₂⟩ :=
    building₁.enterTable (by decide) found₁ entered₂
  obtain ⟨layout₃, building₃, found₃, deeper₃, preserving₃⟩ :=
    building₂.enterTable (by decide) found₂ entered₁
  have deeper := (deeper₁.trans deeper₂ preserving₁.pages).trans deeper₃
    fun page mem => preserving₂.pages page (preserving₁.pages page mem)
  have preserving := (preserving₁.trans preserving₂ deeper₁).trans preserving₃
    (deeper₁.trans deeper₂ preserving₁.pages)
  have full : layout₃.tables.length = 4 := by
    have inside := (List.getElem?_eq_some_iff.mp found₃).1
    have most := building₃.owned.depth
    omega
  obtain ⟨absent, rfl⟩ := of_enterUserLeaf run
  have mem₃ := preserving.pages page.phys mem
  have notTable₃ := deeper.notMem mem notTable
  have frames := building₃.owning.frames
  have laid := @Laid.enter _ _ _ _ (splitIndices virt).l1 page _ building₃.laid building₃.owned
    found₃ frames mem₃ notTable₃ fun offset inside => by
      rw [preserving.same page.phys mem notTable offset inside]
      exact contents offset inside
  refine ⟨layout₃, ⟨⟨building₃.owning.valid, building₃.owning.used, frames,
    building₃.owning.distinct⟩, ?_, laid⟩, ?_, deeper, preserving.pages⟩
  · refine building₃.owned.enter mem₃ notTable₃ full fun found => ?_
    rw [deeper.leaves] at found
    exact unmapped found
  · have leaf := building₃.laid.entries found₃ (splitIndices virt).l1
    unfold Layout.EntryAt at leaf
    rw [if_pos rfl] at leaf
    rw [leaf, deeper.leaves] at absent
    cases found : layout.leaves (splitIndices virt).l1 with
    | none => rfl
    | some other =>
      rw [found, leafEntry, isPresent_makeUserLeafEntry] at absent
      cases absent

end

end CodexOS.Vm
