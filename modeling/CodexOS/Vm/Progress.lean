import CodexOS.Vm.Windows

/-! # When pages can be entered

A range is entered if no page of it is bound to something else and the source has
pages enough for the tables. A table of the last level has 512 pages, and only the first
of them that is entered may need tables, at most three.
-/

namespace CodexOS.Vm

open Effect Word64 Memory VirtualMemoryManager

variable {α : Type} [PageSource α] {supply : Supply α} {machine machine' : Machine α}

variable {n virt phys count : Nat} {writable executable : Bool}

/-- The source has `n` more pages. -/
def Lasts : Nat → α → Prop
  | 0, _ => True
  | n + 1, pages =>
    (PageSource.allocatePage pages).1.isSome = true ∧ Lasts n (PageSource.allocatePage pages).2

theorem Lasts.mono {m : Nat} {pages : α} (lasts : Lasts n pages) (fewer : m ≤ n) :
    Lasts m pages := by
  induction n generalizing m pages with
  | zero =>
    rw [Nat.le_zero.mp fewer]
    exact lasts
  | succ n ih =>
    cases m with
    | zero => exact trivial
    | succ m => exact ⟨lasts.1, ih lasts.2 (Nat.le_of_succ_le_succ fewer)⟩

/-- Every failure but for want of pages. -/
def Supplied (error : VmError) (_ : Machine α) : Prop :=
  error ≠ .outOfPhysicalPages

theorem spec_getOrCreate_lasts (tables : VirtualMemoryManager → List Table) (key : List Index)
    (create : Nat → VirtualMemoryManager → VirtualMemoryManager) :
    Spec (fun machine => Lasts (n + 1) machine.pages)
      (getOrCreate tables key create : VmM α Nat) (fun _ machine => Lasts n machine.pages)
      Supplied := by
  refine Spec.get_bind fun machine lasts => ?_
  dsimp only
  split
  · exact .pure _ fun _ lasts => lasts.mono (Nat.le_succ n)
  · intro machine lasts
    obtain ⟨phys, answer⟩ := Option.isSome_iff_exists.mp lasts.1
    rw [bind_ok (takePage_some answer)]
    exact lasts.2

theorem spec_enterLeaf_lasts (place : Nat) (slot : Index) (entry : Nat) :
    Spec (fun machine => Lasts n machine.pages) (enterLeaf place slot entry : VmM α Bool)
      (fun _ machine => Lasts n machine.pages) Supplied := by
  refine Spec.get_bind fun machine lasts => .ite (fun _ => ?_) fun _ => ?_
  · exact .ite (fun _ => .pure _ fun _ => id) fun _ => .throw _ fun _ _ => by simp [Supplied]
  · exact fun _ lasts => lasts

theorem spec_ensureLeafMapping_lasts (virt phys : Nat) (writable executable : Bool) :
    Spec (fun machine => Lasts (n + 3) machine.pages)
      (ensureLeafMapping virt phys writable executable : VmM α Bool)
      (fun _ machine => Lasts n machine.pages) Supplied :=
  .bind (spec_getOrCreate_lasts _ _ _) fun _ =>
    .bind (spec_getOrCreate_lasts _ _ _) fun _ =>
      .bind (spec_getOrCreate_lasts _ _ _) fun _ => spec_enterLeaf_lasts _ _ _

/-- The manager has its root and `n` more pages to take. -/
structure Ready (supply : Supply α) (n : Nat) (machine : Machine α) : Prop where
  coherent : Coherent supply machine
  initialized : machine.manager.initialized = true
  lasts : Lasts n machine.pages

theorem Ready.mono {m : Nat} (ready : Ready supply n machine) (fewer : m ≤ n) :
    Ready supply m machine :=
  ⟨ready.coherent, ready.initialized, ready.lasts.mono fewer⟩

/-- No page is bound to anything but what the range binds it to. -/
def PageMap.Admits (map : PageMap) (virt phys count : Nat) (writable executable : Bool) : Prop :=
  ∀ i < count, ∀ other, map (pageNumber (virt + pageSize * i)) = some other →
    other = { page := entryAddress (phys + pageSize * i), writable, executable }

theorem pageNumber_ne (small : i + 1 < 2 ^ 36) :
    pageNumber (virt + pageSize * (i + 1)) ≠ pageNumber virt := by
  unfold pageNumber pageSize
  rw [Ne, Fin.ext_iff]
  simp only [Fin.ofNat]
  omega

section

variable {key : List Index} {tables : VirtualMemoryManager → List Table}
  {create : Nat → VirtualMemoryManager → VirtualMemoryManager}

/-- The table with the leaf of an address is there. -/
def Hung (machine : Machine α) (virt : Nat) : Prop :=
  (machine.manager.tree (TableTree.leafPath (splitIndices virt))).isSome = true

theorem getOrCreate_found (isLevel : tables machine.manager = machine.manager.level path.length)
    (isThere : (machine.manager.tree path).isSome = true) :
    ∃ place, (getOrCreate tables path create).run machine = .ok place machine := by
  cases found : (tables machine.manager).findIdx? fun table => table.key = path with
  | some place => exact ⟨place, getOrCreate_some found⟩
  | none =>
    rw [isLevel, List.findIdx?_eq_none_iff] at found
    rw [VirtualMemoryManager.tree, Option.isSome_map, Option.isSome_iff_ne_none] at isThere
    refine absurd (Keyed.find_eq_none.mpr fun table mem => ?_) isThere
    exact of_decide_eq_false (found table mem)

/-- A page whose table is there takes no page from the source. -/
theorem Hung.spec_lasts (hung : Hung machine virt) (coherent : Coherent supply machine)
    (lasts : Lasts n machine.pages) (phys : Nat) (writable executable : Bool) :
    Spec (· = machine) (ensureLeafMapping virt phys writable executable)
      (fun _ machine' => Lasts n machine'.pages) Supplied := by
  intro other same
  rw [same]
  have isL2 : (machine.manager.tree [(splitIndices virt).l4, (splitIndices virt).l3]).isSome :=
    coherent.wired.parent hung
  have isL3 : (machine.manager.tree [(splitIndices virt).l4]).isSome := coherent.wired.parent isL2
  obtain ⟨l3Index, foundL3⟩ : ∃ place, (getOrCreateL3 (splitIndices virt).l4).run machine =
      .ok place machine := getOrCreate_found rfl isL3
  obtain ⟨l2Index, foundL2⟩ : ∃ place, (getOrCreateL2 (splitIndices virt).l4
      (splitIndices virt).l3 l3Index).run machine = .ok place machine := getOrCreate_found rfl isL2
  obtain ⟨l1Index, foundL1⟩ : ∃ place, (getOrCreateL1 (splitIndices virt).l4
      (splitIndices virt).l3 (splitIndices virt).l2 l2Index).run machine = .ok place machine :=
    getOrCreate_found rfl hung
  rw [ensureLeafMapping, bind_ok foundL3, bind_ok foundL2, bind_ok foundL1]
  exact spec_enterLeaf_lasts _ _ _ machine lasts

omit [PageSource α] in
theorem hung_of_bound (bound : machine.pageMap (pageNumber virt) = some binding) :
    Hung machine virt := by
  change (TableTree.pageMap _ _) = _ at bound
  unfold TableTree.pageMap at bound
  rw [indices_pageNumber] at bound
  obtain ⟨page, found, -⟩ := Option.bind_eq_some_iff.mp bound
  rw [Hung, found]
  rfl

omit [PageSource α] in
/-- Neighbours have the same table, unless one is the last page of it. -/
theorem Hung.next (hung : Hung machine virt) (inner : virt / pageSize % 512 ≠ 511) :
    Hung machine (virt + pageSize) := by
  have same : TableTree.leafPath (splitIndices (virt + pageSize)) =
      TableTree.leafPath (splitIndices virt) := by
    unfold pageSize at *
    unfold TableTree.leafPath
    refine congrArg₂ _ (Fin.ext ?_) (congrArg₂ _ (Fin.ext ?_) (congrArg₂ _ (Fin.ext ?_) rfl))
    · exact show (virt + 4096) / 2 ^ 39 % 512 = virt / 2 ^ 39 % 512 by omega
    · exact show (virt + 4096) / 2 ^ 30 % 512 = virt / 2 ^ 30 % 512 by omega
    · exact show (virt + 4096) / 2 ^ 21 % 512 = virt / 2 ^ 21 % 512 by omega
  rw [Hung, same]
  exact hung

end

/-- How many tables of the last level a range may lie in. -/
def leafTables (virt count : Nat) : Nat :=
  (virt / pageSize % 512 + count + 511) / 512

/-- The source has the pages that the next `count` pages from `virt` on may need, and `n` more. -/
def Affords (n : Nat) (machine : Machine α) (virt count : Nat) : Prop :=
  Lasts (n + 3 * leafTables virt count) machine.pages ∨
    Hung machine virt ∧ Lasts (n + 3 * ((virt / pageSize % 512 + count - 1) / 512)) machine.pages

/-- One page is entered, and its table is there for the next ones. -/
theorem Affords.enter (affords : Affords n machine virt (count + 1))
    (coherent : Coherent supply machine)
    (admits : machine.pageMap.Admits virt phys (count + 1) writable executable) :
    ∃ isNew machine', (ensureLeafMapping virt phys writable executable).run machine =
        .ok isNew machine' ∧
      Entered supply machine (pageNumber virt) { page := entryAddress phys, writable, executable }
        isNew machine' ∧
      Affords n machine' (virt + pageSize) count := by
  have spec : Spec (· = machine) (ensureLeafMapping virt phys writable executable)
      (fun _ machine' => Lasts (n + 3 * ((virt / pageSize % 512 + count) / 512)) machine'.pages)
      Supplied := by
    rcases affords with lasts | ⟨hung, lasts⟩
    · intro other same
      rw [same]
      refine spec_ensureLeafMapping_lasts virt phys writable executable machine (lasts.mono ?_)
      unfold leafTables
      omega
    · exact hung.spec_lasts coherent lasts phys writable executable
  have lasting := spec machine rfl
  have entry := spec_ensureLeafMapping virt phys writable executable machine
    ⟨Extends.refl coherent, rfl⟩
  cases entered : (ensureLeafMapping virt phys writable executable).run machine with
  | error e behind =>
    rw [entered] at lasting entry
    rcases entry.2 with exhausted | ⟨-, other, isBound, conflict⟩
    · exact absurd exhausted lasting
    · exact absurd (admits 0 (Nat.succ_pos count) other isBound) conflict
  | ok isNew between =>
    rw [entered] at lasting entry
    refine ⟨isNew, between, rfl, entry, ?_⟩
    have hung : Hung between virt := hung_of_bound entry.bound.1
    by_cases last : virt / pageSize % 512 = 511
    · have first : (virt + pageSize) / pageSize % 512 = 0 := by
        unfold pageSize at *
        omega
      refine .inl (Lasts.mono lasting ?_)
      rw [leafTables, last, first]
      omega
    · have next : (virt + pageSize) / pageSize % 512 = virt / pageSize % 512 + 1 := by
        unfold pageSize at *
        omega
      refine .inr ⟨hung.next last, Lasts.mono lasting ?_⟩
      rw [next]
      omega

theorem Affords.mapPages (small : count ≤ 2 ^ 36) (affords : Affords n machine virt count)
    (coherent : Coherent supply machine)
    (admits : machine.pageMap.Admits virt phys count writable executable) :
    ∃ new machine', (mapPages writable executable virt phys count).run machine = .ok new machine' ∧
      Extends supply machine machine' ∧ Lasts n machine'.pages := by
  induction count generalizing virt phys machine with
  | zero =>
    refine ⟨0, machine, rfl, .refl coherent, ?_⟩
    rcases affords with lasts | ⟨-, lasts⟩ <;> exact lasts.mono (Nat.le_add_right _ _)
  | succ count ih =>
    obtain ⟨isNew, between, entered, entry, affords'⟩ := affords.enter coherent admits
    obtain ⟨rest, behind, mapped, extended, lasts⟩ := ih (by omega) affords' entry.1.coherent (by
      intro i inside other isBound
      rw [next_page, entry.bound.2 _ (pageNumber_ne (by omega))] at isBound
      rw [next_page]
      exact admits (i + 1) (Nat.succ_lt_succ inside) other isBound)
    refine ⟨(if isNew then 1 else 0) + rest, behind, ?_, entry.1.trans extended, lasts⟩
    rw [VirtualMemoryManager.mapPages, bind_ok entered, bind_ok mapped]
    rfl

theorem Ready.mapPages (small : count ≤ 2 ^ 36)
    (ready : Ready supply (n + 3 * leafTables virt count) machine)
    (admits : machine.pageMap.Admits virt phys count writable executable) :
    ∃ new machine', (mapPages writable executable virt phys count).run machine = .ok new machine' ∧
      Ready supply n machine' := by
  obtain ⟨new, machine', run, extended, lasts⟩ :=
    Affords.mapPages small (.inl ready.lasts) ready.coherent admits
  exact ⟨new, machine', run, extended.coherent, extended.initialized.trans ready.initialized, lasts⟩

theorem Ready.recordMapping (ready : Ready supply n machine) (mapping : Mapping) :
    ∃ machine', (recordMapping mapping).run machine = .ok () machine' ∧
      Ready supply n machine' := by
  have moved := Adding.recordMapping mapping machine ready.coherent
  unfold VirtualMemoryManager.recordMapping at moved ⊢
  split
  · rename_i some
    rw [if_pos some] at moved
    exact ⟨_, rfl, moved.1.coherent, ready.initialized, ready.lasts⟩
  · exact ⟨_, rfl, ready⟩

theorem pageNumber_add (fits : (pageNumber virt : Nat) + i < 2 ^ 36) :
    (pageNumber (virt + pageSize * i) : Nat) = pageNumber virt + i := by
  unfold pageNumber pageSize at *
  simp only [Fin.ofNat] at *
  omega

/-- A range of pages and what they are bound to. -/
structure Span where
  first : Nat
  count : Nat
  phys : Nat
  writable : Bool
  executable : Bool

def Span.Apart (span other : Span) : Prop :=
  span.first + span.count ≤ other.first ∨ other.first + other.count ≤ span.first

/-- The map that binds these ranges. -/
def PageMap.ofSpans (spans : List Span) : PageMap := fun number =>
  (spans.find? fun span => span.first ≤ number.val ∧ number.val < span.first + span.count).map
    fun span =>
    { page := entryAddress (span.phys + pageSize * (number - span.first))
      writable := span.writable
      executable := span.executable }

/-- A part of a range is bound as the whole. -/
theorem PageMap.ofSpans_binds {spans : List Span} (apart : spans.Pairwise Span.Apart)
    (mem : span ∈ spans) (k : Nat) (isFirst : (pageNumber virt : Nat) = span.first + k)
    (inside : k + count ≤ span.count) (fits : span.first + span.count ≤ 2 ^ 36) :
    (ofSpans spans).Binds virt (span.phys + pageSize * k) count span.writable
      span.executable := by
  intro i isIn
  have number := @pageNumber_add virt i (by omega)
  have found : spans.find? (fun span => span.first ≤ (pageNumber (virt + pageSize * i)).val ∧
      (pageNumber (virt + pageSize * i)).val < span.first + span.count) = some span := by
    rw [number]
    induction spans with
    | nil => cases mem
    | cons other spans ih =>
      rw [List.pairwise_cons] at apart
      rcases List.mem_cons.mp mem with rfl | mem
      · exact List.find?_cons_of_pos (by simp only [decide_eq_true_eq]; omega)
      · have elsewhere := apart.1 span mem
        unfold Span.Apart at elsewhere
        rw [List.find?_cons_of_neg (by simp only [decide_eq_true_eq]; omega)]
        exact ih apart.2 mem
  rw [ofSpans, found, number, isFirst, Option.map_some,
    show span.first + k + i - span.first = k + i by omega, Nat.mul_add, Nat.add_assoc]

/-- A manager that is ready, with nothing in the way of a map. -/
structure Heading (supply : Supply α) (target : PageMap) (n : Nat) (machine : Machine α) : Prop
    extends Ready supply n machine where
  below : ∀ number binding, machine.pageMap number = some binding → target number = some binding

namespace Heading

variable {target : PageMap} {m : Nat}

theorem mono (heading : Heading supply target n machine) (fewer : m ≤ n) :
    Heading supply target m machine :=
  ⟨heading.toReady.mono fewer, heading.below⟩

theorem enterRange (heading : Heading supply target m machine)
    (enough : n + 3 * leafTables virt count ≤ m) (small : count ≤ 2 ^ 36)
    (binds : target.Binds virt phys count writable executable) :
    ∃ new machine', (enterRange virt phys count writable executable).run machine =
        .ok new machine' ∧ Heading supply target n machine' := by
  obtain ⟨new, between, mapped, ready⟩ := (heading.mono enough).mapPages small fun i inside other isBound =>
    Option.some.inj ((heading.below _ _ isBound).symm.trans (binds i inside))
  obtain ⟨machine', recorded, ready'⟩ := ready.recordMapping
    { virtStart := virt, physStart := phys, pageCount := new, writable, executable }
  have run : (Vm.enterRange virt phys count writable executable).run machine = .ok new machine' := by
    rw [Vm.enterRange, bind_ok mapped, bind_ok recorded]
    rfl
  refine ⟨new, machine', run, ready', fun number binding bound => ?_⟩
  have opened := of_enterRange heading.coherent run
  by_cases inside : ∃ i < count, number = pageNumber (virt + pageSize * i)
  · obtain ⟨i, isIn, rfl⟩ := inside
    rw [binds i isIn, ← bound, opened.binds i isIn]
  · rw [opened.others number fun i isIn same => inside ⟨i, isIn, same⟩] at bound
    exact heading.below number binding bound

end Heading

/-- From a manager with `m` more pages the run returns, and leaves one with `n`. -/
def Leads (supply : Supply α) (target : PageMap) (m n : Nat) (x : VmM α β) : Prop :=
  Spec (Heading supply target m) x (fun _ => Heading supply target n) fun _ _ => False

namespace Leads

variable {target : PageMap} {m start stop : Nat}

theorem mapIdentityRange
    (enough : n + 3 * leafTables (alignDown start) (pagesBetween start stop) ≤ m)
    (small : pagesBetween start stop ≤ 2 ^ 36)
    (binds : target.Binds (alignDown start) (alignDown start) (pagesBetween start stop)
      writable executable) :
    Leads supply target m n (mapIdentityRange start stop writable executable) := by
  intro machine heading
  obtain ⟨new, machine', run, entered⟩ := heading.enterRange enough small binds
  rw [mapIdentityRange_ok_iff.mpr ⟨heading.initialized, run⟩]
  exact entered

theorem mapFixedRange (enough : n + 3 * leafTables virt count ≤ m) (small : count ≤ 2 ^ 36)
    (fixed : FixedRange virt phys count)
    (binds : target.Binds virt phys count writable executable) :
    Leads supply target m n (mapFixedRange virt phys count writable executable) := by
  intro machine heading
  obtain ⟨new, machine', run, entered⟩ := heading.enterRange enough small binds
  rw [mapFixedRange_ok_iff.mpr ⟨heading.initialized, fixed, run⟩]
  exact entered

theorem mapWindowRange (window start stop virt phys count : Nat) (isFirst : alignDown start = phys)
    (isCount : pagesBetween start stop = count) (isVirt : window - (start - phys) = virt)
    (enough : n + 3 * leafTables virt count ≤ m) (small : count ≤ 2 ^ 36)
    (fixed : FixedRange virt phys count)
    (binds : target.Binds virt phys count writable executable) :
    Leads supply target m n (mapWindowRange window start stop writable executable) := by
  subst isFirst isCount isVirt
  unfold VirtualMemoryManager.mapWindowRange
  dsimp only
  split
  · exact Spec.pure _ fun _ heading => heading.mono (by omega)
  · exact mapFixedRange enough small fixed binds

end Leads

end CodexOS.Vm
