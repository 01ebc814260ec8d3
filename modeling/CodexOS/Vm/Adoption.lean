import CodexOS.Vm.Refinement

/-! # Adopting tables that are in use

The resident kernel takes over the root table the processor is using, with an empty
copy of it. A write-back then replaces the live root by the copy. As long as the
manager only writes tables whose copies have the live entries, no translation is
lost.
-/

namespace CodexOS.Vm

open Effect VirtualMemoryManager TableTree Word64

section

variable {memory memory' : ByteMemory} {root virt table : Nat} {access : Access}
  {above : List Nat} {levels : List (Index × Nat)}

/-- The entries that are read on a walk from a table on. -/
def visitedFrom (memory : ByteMemory) : Nat → List (Index × Nat) → List (Nat × Index)
  | _, [] => []
  | table, (index, bits) :: below =>
    let entry := readEntry memory table index
    (table, index) ::
      if !isPresent entry || mapsPage bits entry then []
      else visitedFrom memory (entryAddress entry) below

/-- The entries the processor reads to translate an address. -/
def visited (memory : ByteMemory) (root virt : Nat) : List (Nat × Index) :=
  visitedFrom memory (entryAddress root) (walkLevels virt)

theorem walkFrom_congr
    (same : ∀ place ∈ visitedFrom memory table levels,
      readEntry memory' place.1 place.2 = readEntry memory place.1 place.2) :
    walkFrom memory' virt above table levels = walkFrom memory virt above table levels ∧
      visitedFrom memory' table levels = visitedFrom memory table levels := by
  induction levels generalizing above table with
  | nil => exact ⟨rfl, rfl⟩
  | cons level below ih =>
    obtain ⟨index, bits⟩ := level
    have first : readEntry memory' table index = readEntry memory table index :=
      same (table, index) (List.mem_cons_self)
    simp only [walkFrom, visitedFrom, first]
    cases present : isPresent (readEntry memory table index) with
    | false => simp
    | true =>
      cases page : mapsPage bits (readEntry memory table index) with
      | true => simp
      | false =>
        have further := @ih (entryAddress (readEntry memory table index))
          (above ++ [readEntry memory table index]) (by
            intro place mem
            apply same
            rw [visitedFrom]
            simp [present, page, mem])
        simp [further]

/-- A walk that comes to a page has read present entries of page frames. -/
theorem visitedFrom_present (walks : walkFrom memory virt above table levels = some access)
    (frame : IsFrame table) :
    ∀ place ∈ visitedFrom memory table levels,
      isPresent (readEntry memory place.1 place.2) = true ∧ IsFrame place.1 := by
  induction levels generalizing above table with
  | nil => cases walks
  | cons level below ih =>
    obtain ⟨index, bits⟩ := level
    intro place mem
    rw [visitedFrom] at mem
    cases present : isPresent (readEntry memory table index) with
    | false =>
      rw [walkFrom_absent present] at walks
      cases walks
    | true =>
      rcases List.mem_cons.mp mem with rfl | later
      · exact ⟨present, frame⟩
      · cases page : mapsPage bits (readEntry memory table index) with
        | true => simp [page] at later
        | false =>
          rw [walkFrom_table present page] at walks
          simp only [present, page, Bool.not_true, Bool.or_false, Bool.false_eq_true,
            if_false] at later
          exact ih walks (isFrame_entryAddress _) place later

end

section

variable {α : Type} [PageSource α] {supply : Supply α} {machine machine' : Machine α}

/-- The processor translates the address. -/
def Machine.Translates (machine : Machine α) (virt : Nat) (access : Access) : Prop :=
  hardwareWalk machine.memory machine.cr3 virt = some access

/-- Where the manager has a copy of a table that is used to translate the address, the copy has
    the entry that is used. -/
def MirroredAt (machine : Machine α) (virt : Nat) : Prop :=
  ∀ access, machine.Translates virt access →
    ∀ place ∈ visited machine.memory machine.cr3 virt,
      ∀ page ∈ machine.manager.tablePages, page.physAddr = place.1 →
        page.entries place.2 = readEntry machine.memory place.1 place.2

/-- The copies have every entry that is in use. -/
def Mirrored (machine : Machine α) : Prop :=
  ∀ virt, MirroredAt machine virt

/-- The address is translated through entries whose pages are never handed out. -/
structure Live (supply : Supply α) (machine : Machine α) (virt : Nat) (access : Access) : Prop where
  translates : machine.Translates virt access
  used : ∀ place ∈ visited machine.memory machine.cr3 virt, supply.Used machine.pages place.1

theorem Live.congr (live : Live supply machine virt access) (cr3 : machine'.cr3 = machine.cr3)
    (used : ∀ page, supply.Used machine.pages page → supply.Used machine'.pages page)
    (same : ∀ place ∈ visited machine.memory machine.cr3 virt,
      readEntry machine'.memory place.1 place.2 = readEntry machine.memory place.1 place.2) :
    Live supply machine' virt access := by
  have both := @walkFrom_congr _ _ virt _ [] _ same
  constructor
  · unfold Machine.Translates
    rw [cr3]
    exact both.1.trans live.translates
  · rw [cr3, visited, both.2]
    exact fun place mem => used _ (live.used place mem)

theorem Live.extends (live : Live supply machine virt access)
    (extended : Extends supply machine machine') : Live supply machine' virt access :=
  live.congr extended.cr3 extended.used fun _ _ => by rw [extended.memory]

theorem Live.readEntry_synced {virt : Nat} {access : Access}
    (live : Live supply machine virt access) (coherent : Coherent supply machine)
    (mirrored : MirroredAt machine virt) (place : Nat × Index)
    (mem : place ∈ visited machine.memory machine.cr3 virt) :
    readEntry machine.synced.memory place.1 place.2 = readEntry machine.memory place.1 place.2 := by
  have frame := (visitedFrom_present live.translates (isFrame_entryAddress _) place mem).2
  exact readEntry_writeAll frame coherent.tablePages (mirrored access live.translates place mem)
    (.inl rfl)

/-- A write-back of copies with the live entries changes nothing for the processor. -/
theorem Live.synced (live : Live supply machine virt access) (coherent : Coherent supply machine)
    (mirrored : MirroredAt machine virt) :
    Live supply machine.synced virt access :=
  live.congr rfl (fun _ => id) (live.readEntry_synced coherent mirrored)

/-- Adding pages keeps the copies of the tables in use: entries that are present stay, and new
    tables lie elsewhere. -/
theorem Live.mirroredAt (live : Live supply machine virt access)
    (coherent : Coherent supply machine) (extended : Extends supply machine machine')
    (mirrored : MirroredAt machine virt) : MirroredAt machine' virt := by
  intro access' translates place mem page isTable atPlace
  unfold Machine.Translates at translates
  rw [extended.memory, extended.cr3] at translates mem
  rw [extended.memory]
  have present := (visitedFrom_present translates (isFrame_entryAddress _) place mem).1
  obtain ⟨path, found⟩ := (mem_tablePages extended.coherent.shelved).mp isTable
  rcases extended.fresh found with before | unused
  · obtain ⟨old, was⟩ := Option.isSome_iff_exists.mp before
    obtain ⟨page', found', same, entries⟩ := extended.kept was
    rw [found, Option.some.injEq] at found'
    subst found'
    have copy := mirrored access' translates place mem old
      ((mem_tablePages coherent.shelved).mpr ⟨path, was⟩) (same.symm.trans atPlace)
    rw [← copy]
    exact entries place.2 (by rw [copy]; exact present)
  · rw [atPlace] at unused
    exact absurd (live.used place mem) unused

end

section

variable {α : Type} [PageSource α] {supply : Supply α} {machine : Machine α}

inductive VmOperation where
  | init
  | map (operation : MapOperation)
  | activate
  | adoptCurrentRoot
  deriving DecidableEq

def VmOperation.perform : VmOperation → VmM α Unit
  | init => discard VirtualMemoryManager.init
  | map operation => operation.perform
  | activate => discard VirtualMemoryManager.activate
  | adoptCurrentRoot => discard VirtualMemoryManager.adoptCurrentRoot

/-- If the operation writes tables back, their copies have the entries in use; if it loads a root,
    it is the one in use. -/
def VmOperation.Harmless (machine : Machine α) : VmOperation → Prop
  | map (.mapRange ..) | map .syncPages => machine.manager.initialized → Mirrored machine
  | activate =>
    machine.manager.initialized →
      machine.manager.root.physAddr = machine.cr3 ∧
        (machine.manager.committed = false → Mirrored machine)
  | _ => True

/-- A run of the manager from its first state, of which no step writes back a table without the
    entries in use. -/
inductive HarmlessRun (start : Machine α) : Machine α → Prop where
  | start : HarmlessRun start start
  | step {machine : Machine α} (operation : VmOperation) (run : HarmlessRun start machine)
      (harmless : operation.Harmless machine) :
      HarmlessRun start (after operation.perform machine)

/-! ### Before there is a root -/

/-- A manager without a root stays as it is. -/
def StaysCold (machine machine' : Machine α) : Prop :=
  machine.manager.initialized = false → machine' = machine

omit [PageSource α] in
instance : Std.Refl (StaysCold : Machine α → Machine α → Prop) where
  refl _ _ := rfl

omit [PageSource α] in
instance : IsTrans (Machine α) StaysCold where
  trans _ _ _ first second cold := by
    cases first cold
    exact second cold

omit [PageSource α] in
theorem staysCold_guard (rest : Machine α → VmM α β) :
    Moves StaysCold (do
      let machine ← get
      if !machine.manager.initialized then throw .notInitialized else rest machine : VmM α β) := by
  intro machine cold
  refine @after_error _ _ _ _ _ _ VmError.notInitialized ?_
  change EStateM.run (if !machine.manager.initialized then _ else _) machine = _
  rw [cold]
  rfl

theorem staysCold_perform (operation : MapOperation) :
    Moves StaysCold (operation.perform : VmM α Unit) := by
  cases operation with
  | mapIdentityRangeExcluding =>
    exact moves_discard (moves_mapIdentityRangeExcluding (fun _ _ => staysCold_guard _) _ _ _)
  | mapWindowRange =>
    exact moves_discard (moves_mapWindowRange (fun _ _ _ => staysCold_guard _) _ _ _)
  | mapRange | mapIdentityRange | mapFixedRange | syncPages =>
    exact moves_discard (staysCold_guard _)

/-! ### Steps that keep a translation -/

section

variable {virt : Nat} {access : Access} {start machine' : Machine α}

/-- A live translation through tables whose copies have its entries is kept so. -/
def Keeps (supply : Supply α) (virt : Nat) (access : Access) (machine machine' : Machine α) : Prop :=
  Coherent supply machine → Live supply machine virt access → MirroredAt machine virt →
    Coherent supply machine' ∧ Live supply machine' virt access ∧ MirroredAt machine' virt ∧
      machine'.cr3 = machine.cr3 ∧ machine'.manager.initialized = machine.manager.initialized

instance : Std.Refl (Keeps supply virt access) where
  refl _ coherent live mirrored := ⟨coherent, live, mirrored, rfl, rfl⟩

instance : IsTrans (Machine α) (Keeps supply virt access) where
  trans _ _ _ first second coherent live mirrored := by
    obtain ⟨coherent, live, mirrored, cr3, initialized⟩ := first coherent live mirrored
    obtain ⟨coherent, live, mirrored, cr3', initialized'⟩ := second coherent live mirrored
    exact ⟨coherent, live, mirrored, cr3'.trans cr3, initialized'.trans initialized⟩

theorem Adding.keeping (adding : Adding supply x) :
    Moves (Keeps supply virt access) x := by
  refine adding.mono fun machine machine' adds coherent live mirrored => ?_
  have extended := (adds coherent).1
  exact ⟨extended.coherent, live.extends extended, live.mirroredAt coherent extended mirrored,
    extended.cr3, extended.initialized⟩

theorem MirroredAt.synced (live : Live supply machine virt access)
    (coherent : Coherent supply machine) (mirrored : MirroredAt machine virt) :
    MirroredAt machine.synced virt := by
  have same (place : Nat × Index) (mem : place ∈ visited machine.memory machine.cr3 virt) :=
    live.readEntry_synced coherent mirrored place mem
  have both := @walkFrom_congr _ _ virt _ [] _ same
  intro access' translates place mem page isTable atPlace
  have mem' : place ∈ visited machine.memory machine.cr3 virt := by
    change place ∈ visitedFrom machine.synced.memory (entryAddress machine.cr3) _ at mem
    rw [both.2] at mem
    exact mem
  rw [same place mem']
  exact mirrored access live.translates place mem' page isTable atPlace

theorem keeping_syncPages : Moves (Keeps supply virt access) (syncPages : VmM α Nat) := by
  intro machine coherent live mirrored
  cases initialized : machine.manager.initialized with
  | true =>
    rw [after_ok (syncPages_ok initialized)]
    exact ⟨coherent.synced, live.synced coherent mirrored, mirrored.synced live coherent, rfl,
      initialized⟩
  | false =>
    rw [after_error (syncPages_error initialized)]
    exact ⟨coherent, live, mirrored, rfl, initialized⟩

/-- The translation is live, and the manager is as it was made or has a tree of tables. -/
structure Steady (supply : Supply α) (start : Machine α) (virt : Nat) (access : Access)
    (machine : Machine α) : Prop where
  cr3 : machine.cr3 = start.cr3
  live : Live supply machine virt access
  manager : machine.manager = .new ∧ supply.Valid machine.pages ∨
    machine.manager.initialized = true ∧ Coherent supply machine

theorem Steady.adding (adding : Adding supply x) (steady : Steady supply start virt access machine)
    (initialized : machine.manager.initialized = true) (coherent : Coherent supply machine) :
    Steady supply start virt access (after x machine) := by
  have extended := (adding machine coherent).1
  exact ⟨extended.cr3.trans steady.cr3, steady.live.extends extended,
    .inr ⟨extended.initialized.trans initialized, extended.coherent⟩⟩

theorem Steady.keeping (keeping : Moves (Keeps supply virt access) x)
    (steady : Steady supply start virt access machine)
    (initialized : machine.manager.initialized = true) (coherent : Coherent supply machine)
    (mirrored : MirroredAt machine virt) :
    Steady supply start virt access (after x machine) := by
  obtain ⟨coherent, live, -, cr3, same⟩ := keeping machine coherent steady.live mirrored
  exact ⟨cr3.trans steady.cr3, live, .inr ⟨same.trans initialized, coherent⟩⟩

theorem Steady.map (steady : Steady supply start virt access machine) (operation : MapOperation)
    (harmless : (VmOperation.map operation).Harmless machine) :
    Steady supply start virt access (after operation.perform machine) := by
  rcases steady.manager with ⟨isNew, valid⟩ | ⟨initialized, coherent⟩
  · have cold : machine.manager.initialized = false := by
      rw [isNew]
      rfl
    rw [staysCold_perform operation machine cold]
    exact steady
  · cases operation with
    | mapRange | syncPages =>
      exact steady.keeping (moves_perform Adding.keeping keeping_syncPages _) initialized coherent
        (harmless initialized virt)
    | mapIdentityRange =>
      exact steady.adding (moves_discard (Adding.mapIdentityRange _ _ _ _)) initialized coherent
    | mapIdentityRangeExcluding =>
      exact steady.adding (moves_discard (moves_mapIdentityRangeExcluding
        (fun _ _ => Adding.mapIdentityRange _ _ _ _) _ _ _)) initialized coherent
    | mapWindowRange =>
      exact steady.adding (moves_discard (moves_mapWindowRange
        (fun _ _ _ => Adding.mapFixedRange _ _ _ _ _) _ _ _)) initialized coherent
    | mapFixedRange =>
      exact steady.adding (moves_discard (Adding.mapFixedRange _ _ _ _ _)) initialized coherent

theorem Steady.init (steady : Steady supply start virt access machine) :
    Steady supply start virt access (after VirtualMemoryManager.init machine) := by
  rcases steady.manager with ⟨isNew, valid⟩ | ⟨initialized, coherent⟩
  · obtain ⟨pages, memory, cr3, rfl⟩ : ∃ pages memory cr3,
        machine = Machine.cold pages memory cr3 :=
      ⟨machine.pages, machine.memory, machine.cr3, by rw [Machine.cold, ← isNew]⟩
    have keeps (page : Nat) : supply.Used pages page →
        supply.Used (PageSource.allocatePage pages).2 page := supply.keeps valid
    cases answer : (PageSource.allocatePage pages).1 with
    | none =>
      rw [after_ok (init_cold_none answer)]
      exact ⟨steady.cr3, steady.live.congr rfl keeps fun _ _ => rfl, .inl ⟨rfl, supply.valid valid⟩⟩
    | some root =>
      have run := @init_cold_some _ _ _ memory cr3 _ answer
      obtain ⟨coherent, -⟩ := init_coherent valid run
      rw [after_ok run]
      exact ⟨steady.cr3, steady.live.congr rfl keeps fun _ _ => rfl, .inr ⟨rfl, coherent⟩⟩
  · have run : VirtualMemoryManager.init.run machine =
        .ok (some machine.manager.root.physAddr) machine := by
      change EStateM.run (if machine.manager.initialized then _ else _) machine = _
      rw [initialized]
      rfl
    rw [after_ok run]
    exact steady

theorem Coherent.flag (coherent : Coherent supply machine) (committed active : Bool) (cr3 : Nat) :
    Coherent supply { machine with
      cr3, manager := { machine.manager with committed, active } } :=
  ⟨coherent.valid, ⟨coherent.shelved.distinct, coherent.shelved.length⟩, coherent.wired⟩

theorem Steady.activate (steady : Steady supply start virt access machine)
    (harmless : VmOperation.activate.Harmless machine) :
    Steady supply start virt access (after VirtualMemoryManager.activate machine) := by
  rcases steady.manager with ⟨isNew, -⟩ | ⟨initialized, coherent⟩
  · have cold : machine.manager.initialized = false := by
      rw [isNew]
      rfl
    have stays : Moves StaysCold (VirtualMemoryManager.activate : VmM α Nat) := staysCold_guard _
    rw [stays machine cold]
    exact steady
  · obtain ⟨inUse, mirrored⟩ := harmless initialized
    -- The tables that the processor gets are the ones it has, written back if they changed.
    have loaded (base : Machine α) (synced : syncIfChanged.run machine = .ok () base)
        (same : base.cr3 = machine.cr3) (root : base.manager.root.physAddr = machine.cr3)
        (ready : base.manager.initialized = true) (coherent : Coherent supply base)
        (live : Live supply base virt access) :
        Steady supply start virt access (after VirtualMemoryManager.activate machine) := by
      have run : VirtualMemoryManager.activate.run machine = .ok machine.manager.root.physAddr
          { base with
            cr3 := base.manager.root.physAddr
            manager := { base.manager with active := true } } := by
        change EStateM.run (if !machine.manager.initialized then _ else _) machine = _
        rw [initialized]
        exact (bind_ok synced).trans rfl
      rw [after_ok run]
      refine ⟨root.trans steady.cr3, live.congr (root.trans same.symm) (fun _ => id) fun _ _ => rfl,
        .inr ⟨ready, coherent.flag _ _ _⟩⟩
    cases committed : machine.manager.committed with
    | true =>
      refine loaded machine ?_ rfl inUse initialized coherent steady.live
      change EStateM.run (if !machine.manager.committed then _ else _) machine = _
      rw [committed]
      rfl
    | false =>
      refine loaded machine.synced ?_ rfl inUse initialized coherent.synced
        (steady.live.synced coherent (mirrored committed virt))
      change EStateM.run (if !machine.manager.committed then _ else _) machine = _
      rw [committed]
      exact (bind_ok (syncPages_ok initialized)).trans rfl

theorem Steady.adoptCurrentRoot (frame : IsFrame start.cr3)
    (steady : Steady supply start virt access machine) :
    Steady supply start virt access (after VirtualMemoryManager.adoptCurrentRoot machine) := by
  have aligned : ¬machine.cr3 % pageSize ≠ 0 := by
    rw [steady.cr3, not_not]
    exact frame.1
  have run : VirtualMemoryManager.adoptCurrentRoot.run machine = .ok machine.cr3
      { machine with
        manager := { VirtualMemoryManager.new with
          root := .new machine.cr3, initialized := true, committed := true, active := true } } := by
    change EStateM.run (if machine.cr3 % pageSize ≠ 0 then _ else _) machine = _
    rw [if_neg aligned]
    rfl
  have valid : supply.Valid machine.pages := by
    rcases steady.manager with ⟨-, valid⟩ | ⟨-, coherent⟩
    · exact valid
    · exact coherent.valid
  have bare : Bare { VirtualMemoryManager.new with
      root := .new machine.cr3, initialized := true, committed := true, active := true }
      machine.cr3 := ⟨rfl, rfl, rfl, rfl⟩
  have frame' : IsFrame machine.cr3 := by
    rw [steady.cr3]
    exact frame
  have rootUsed : supply.Used machine.pages machine.cr3 := by
    have first := steady.live.used (entryAddress machine.cr3, (splitIndices virt).l4)
      (List.mem_cons_self)
    rw [show entryAddress machine.cr3 = machine.cr3 from frame'.and_mask] at first
    exact first
  rw [after_ok run]
  refine ⟨steady.cr3, steady.live.congr rfl (fun _ => id) fun _ _ => rfl, .inr ⟨rfl, valid, ?_, ?_⟩⟩
  · exact bare.shelved
  · rw [bare.tree]
    exact .new frame' rootUsed

theorem Steady.perform (frame : IsFrame start.cr3)
    (steady : Steady supply start virt access machine) (operation : VmOperation)
    (harmless : operation.Harmless machine) :
    Steady supply start virt access (after operation.perform machine) := by
  cases operation with
  | init =>
    unfold VmOperation.perform
    rw [after_discard]
    exact steady.init
  | map operation => exact steady.map operation harmless
  | activate =>
    unfold VmOperation.perform
    rw [after_discard]
    exact steady.activate harmless
  | adoptCurrentRoot =>
    unfold VmOperation.perform
    rw [after_discard]
    exact steady.adoptCurrentRoot frame

end

/-- A run that starts with the tables of someone else in use, in pages that are not handed out,
    and only writes back copies with the entries in use, keeps every translation. -/
theorem live_mapping_kept {start : Machine α} {virt : Nat} {access : Access}
    (new : start.manager = .new) (valid : supply.Valid start.pages) (frame : IsFrame start.cr3)
    (live : Live supply start virt access) (run : HarmlessRun start machine) :
    machine.Translates virt access := by
  have steady : Steady supply start virt access machine := by
    induction run with
    | start => exact ⟨rfl, live, .inl ⟨new, valid⟩⟩
    | step operation run harmless ih => exact ih.perform frame operation harmless
  exact steady.live.translates

end

section

/-- Four tables in the first pages that map the page at zero. -/
def liveTables : ByteMemory
  | 0x1000 => 0x03
  | 0x1001 => 0x20
  | 0x2000 => 0x03
  | 0x2001 => 0x30
  | 0x3000 => 0x03
  | 0x3001 => 0x40
  | 0x4000 => 0x03
  | 0x4001 => 0x50
  | _ => 0

def liveMachine : Machine PageAnswers :=
  .cold { allocations := [], deallocations := [] } liveTables 0x1000

/-- The first write-back after the root was adopted takes the mapping away. -/
theorem live_mapping_dropped :
    liveMachine.Translates 0x123
      { phys := 0x5123, writable := true, executable := true, user := false } ∧
    hardwareWalk (after (VmOperation.map .syncPages).perform
        (after VmOperation.adoptCurrentRoot.perform liveMachine)).memory
      (after (VmOperation.map .syncPages).perform
        (after VmOperation.adoptCurrentRoot.perform liveMachine)).cr3 0x123 = none := by
  refine ⟨?_, by decide +kernel⟩
  unfold Machine.Translates
  decide +kernel

/-- Loading the adopted root again leaves it. -/
theorem live_mapping_kept_activate :
    (after VmOperation.activate.perform
      (after VmOperation.adoptCurrentRoot.perform liveMachine)).Translates 0x123
        { phys := 0x5123, writable := true, executable := true, user := false } := by
  have fresh : PageAnswers.supply.Valid liveMachine.pages := ⟨List.nodup_nil, nofun⟩
  have live : Live PageAnswers.supply liveMachine 0x123
      { phys := 0x5123, writable := true, executable := true, user := false } := by
    refine ⟨?_, fun _ _ => List.not_mem_nil⟩
    unfold Machine.Translates
    decide +kernel
  have adopted : HarmlessRun liveMachine (after VmOperation.adoptCurrentRoot.perform liveMachine) :=
    .step _ .start trivial
  have same : VmOperation.activate.Harmless
      (after VmOperation.adoptCurrentRoot.perform liveMachine) :=
    fun _ => ⟨rfl, nofun⟩
  exact live_mapping_kept rfl fresh (by decide) live (.step _ adopted same)

end

end CodexOS.Vm
