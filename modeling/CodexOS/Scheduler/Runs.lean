import CodexOS.Scheduler.Lifecycle

/-! # The scheduler over whole runs

A run starts when the first process is entered and goes on with any sequence of
traps. The records of its traps, the latest first, say what every process is
owed: the context of its last trap that entered `schedule`, and no dispatch
before its sleep is over.
-/

namespace CodexOS.Scheduler

open Word64

/-- A program as it is loaded: its address space and its kernel stack. -/
structure Program where
  pid : UInt64
  root : UInt64
  entry : UInt64
  stackTop : UInt64
  kernelStack : UInt64
  deriving DecidableEq

def Program.load (program : Program) : Process :=
  .fromSpace program.pid program.root program.entry program.stackTop program.kernelStack

/-- A trap: the process that was running, the frame it left and the ticks read while the trap was
    handled. -/
structure TrapRecord where
  process : Option Nat
  trap : UserFrame
  readings : List Nat

/-- Any sequence of traps. -/
inductive Traps : World → List TrapRecord → World → Prop
  | none {world} : Traps world [] world
  | more {world world' world'' : World} {history : List TrapRecord} {trap trap' : UserFrame}
      {faultAddress : UInt64} {readings : List Nat} {handled : Bool} :
      Traps world history world' →
      world'.handleUserTrap trap faultAddress readings = some (handled, world'', trap', []) →
      Traps world ({ process := world'.scheduler.current, trap, readings } :: history) world''

def Run (machine : Machine) (programs : List Program) (history : List TrapRecord) (world : World) :
    Prop :=
  ∃ first, World.enter machine (programs.map Program.load) = some first ∧ Traps first history world

def contextOf (trap : UserFrame) : UserContext where
  frame := trap.frame
  stackPointer := trap.userRsp
  stackSelector := trap.userSs

/-- The context a process is owed: that of its last trap that entered `schedule`, with the result
    of a yield or a sleep, and the initial one before any such trap. -/
def expectedContext (programs : List Program) (history : List TrapRecord) (index : Nat) :
    Option UserContext :=
  match history.find? fun record =>
      record.process = some index ∧ (Request.ofTrap record.trap).schedules with
  | some record => some (contextOf (Request.enteredFrame record.trap))
  | none => (programs[index]?).map fun program => .initial program.entry program.stackTop

/-- All ticks read, in order. -/
def ticksRead (history : List TrapRecord) : List Nat :=
  history.reverse.flatMap (·.readings)

/-- The trap made the scheduler resume this process. -/
def Resumes (world : World) (trap : UserFrame) (world' : World) (index : Nat) : Prop :=
  world.scheduler.active = true ∧ (Request.ofTrap trap).schedules = true ∧
    world'.scheduler.active = true ∧ world'.scheduler.current = some index

structure Invariant (programs : List Program) (history : List TrapRecord) (world : World) :
    Prop where
  owned : ∀ (index : Nat) (process : Process), world.scheduler.processes[index]? = some process →
    ∃ program, programs[index]? = some program ∧ process.root = program.root ∧
      process.kernelStack = program.kernelStack
  contexts : world.scheduler.active = true → ∀ (index : Nat) (process : Process),
    world.scheduler.processes[index]? = some process → ¬process.state.finished →
      expectedContext programs history index = some process.context
  running : world.scheduler.active = true → ∃ current process,
    world.scheduler.current = some current ∧
      world.scheduler.processes[current]? = some process ∧ process.state = .runnable
  stopped : world.scheduler.active = false → world.scheduler.current = none
  /-- Whoever went to sleep still sleeps, unless the time has come. -/
  slept : ∀ record ∈ history, ∀ (index : Nat), record.process = some index →
    ∀ n, Request.ofTrap record.trap = .sleep n → ∀ ticks, record.readings.head? = some ticks →
      (∃ now ∈ ticksRead history, saturatingAdd ticks n.toNat ≤ now) ∨
        ∃ process, world.scheduler.processes[index]? = some process ∧
          process.state = .sleeping (saturatingAdd ticks n.toNat)

section

/-- What a step leaves of a process: the fields nothing changes, and the state it had or the end of
    a sleep. -/
theorem of_follow {used : List Nat} {processes processes' : List Process} {index : Nat}
    {process' : Process} (follow : Follow used processes processes')
    (at_ : processes'[index]? = some process') :
    ∃ process, processes[index]? = some process ∧ process'.root = process.root ∧
      process'.kernelStack = process.kernelStack ∧ process'.context = process.context ∧
      process'.state = (process.wakeAll used).state := by
  obtain ⟨length, each⟩ := follow
  have bound : index < processes.length := length ▸ (List.getElem?_eq_some_iff.mp at_).1
  obtain ⟨dispatches, found⟩ := each index _ (List.getElem?_eq_getElem bound)
  rw [at_] at found
  cases found
  refine ⟨_, List.getElem?_eq_getElem bound, Process.wakeAll_root, ?_, Process.wakeAll_context, rfl⟩
  rw [Process.wakeAll_eq]

variable {machine : Machine} {programs : List Program} {history : List TrapRecord}
  {world world' : World} {trap trap' : UserFrame} {faultAddress : UInt64} {readings : List Nat}
  {handled : Bool} {current index : Nat} {process : Process}

theorem capture_eq (captured : UserContext.capture trap = some context) :
    context = contextOf trap := by
  simp only [UserContext.capture, userStack] at captured
  split at captured
  · cases captured
  · cases captured
    rfl

theorem of_enter (entered : World.enter machine (programs.map Program.load) = some world) :
    world.scheduler.active = true ∧ world.scheduler.current = some 0 ∧ programs ≠ [] ∧
      ∀ index : Nat, ∃ dispatches : Process → Nat,
        world.scheduler.processes[index]? = (programs[index]?).map fun program : Program =>
          { program.load with dispatches := dispatches program.load } := by
  cases programs with
  | nil => cases entered
  | cons program programs =>
    obtain ⟨installed, isInstalled, rfl⟩ := Option.map_eq_some_iff.mp entered
    unfold World.setPrivilegeStack at isInstalled
    split at isInstalled
    · cases isInstalled
    · cases isInstalled
      refine ⟨rfl, rfl, List.cons_ne_nil _ _, fun index => ?_⟩
      cases index with
      | zero => exact ⟨fun _ => 1, rfl⟩
      | succ index => exact ⟨Process.dispatches, List.getElem?_map⟩

theorem invariant_enter (entered : World.enter machine (programs.map Program.load) = some world) :
    Invariant programs [] world := by
  obtain ⟨active, isCurrent, nonempty, loaded⟩ := of_enter entered
  have each (index : Nat) (process : Process)
      (at_ : world.scheduler.processes[index]? = some process) :
      ∃ program, programs[index]? = some program ∧ process.root = program.root ∧
        process.kernelStack = program.kernelStack ∧
        process.context = .initial program.entry program.stackTop := by
    obtain ⟨dispatches, same⟩ := loaded index
    rw [same] at at_
    obtain ⟨program, found, rfl⟩ := Option.map_eq_some_iff.mp at_
    exact ⟨program, found, rfl, rfl, rfl⟩
  refine ⟨?_, ?_, ?_, ?_, nofun⟩
  · intro index process at_
    obtain ⟨program, found, root, kernelStack, -⟩ := each index process at_
    exact ⟨program, found, root, kernelStack⟩
  · intro _ index process at_ _
    obtain ⟨program, found, -, -, context⟩ := each index process at_
    rw [expectedContext, List.find?_nil, found, context]
    rfl
  · intro _
    obtain ⟨program, programs, rfl⟩ := List.exists_cons_of_ne_nil nonempty
    obtain ⟨dispatches, same⟩ := loaded 0
    exact ⟨0, _, isCurrent, same, rfl⟩
  · intro inactive
    rw [active] at inactive
    cases inactive

/-- A sleeper is woken only by a tick that ends its sleep. -/
theorem sleeping_of_follow (follow : Follow used processes processes')
    (at_ : processes[index]? = some process) (sleeping : process.state = .sleeping wakeTick) :
    (∃ now ∈ used, wakeTick ≤ now) ∨
      ∃ process', processes'[index]? = some process' ∧ process'.state = .sleeping wakeTick := by
  obtain ⟨dispatches, found⟩ := follow.2 index process at_
  obtain same | ⟨_, sleeping', due, -⟩ := process.wakeAll_cases used
  · refine .inr ⟨_, found, ?_⟩
    rw [same]
    exact sleeping
  · rw [sleeping] at sleeping'
    cases sleeping'
    exact .inl due

theorem ticksRead_cons (record : TrapRecord) (history : List TrapRecord) :
    ticksRead (record :: history) = ticksRead history ++ record.readings := by
  simp [ticksRead]

/-- A trap that does not enter `schedule` owes no process another context. -/
theorem expectedContext_answered (answered : (Request.ofTrap record.trap).schedules = false) :
    expectedContext programs (record :: history) index = expectedContext programs history index := by
  simp [expectedContext, answered]

theorem expectedContext_other (other : record.process ≠ some index) :
    expectedContext programs (record :: history) index = expectedContext programs history index := by
  simp [expectedContext, other]

theorem expectedContext_own (own : record.process = some index)
    (schedules : (Request.ofTrap record.trap).schedules = true) :
    expectedContext programs (record :: history) index =
      some (contextOf (Request.enteredFrame record.trap)) := by
  simp [expectedContext, own, schedules]

theorem slept_mono (invariant : Invariant programs history world)
    (kept : ∀ (index : Nat) (process : Process) (wakeTick : Nat),
      world.scheduler.processes[index]? = some process → process.state = .sleeping wakeTick →
        (∃ now ∈ record.readings, wakeTick ≤ now) ∨
          ∃ process', world'.scheduler.processes[index]? = some process' ∧
            process'.state = .sleeping wakeTick) :
    ∀ old ∈ history, ∀ (index : Nat), old.process = some index →
      ∀ n, Request.ofTrap old.trap = .sleep n → ∀ ticks, old.readings.head? = some ticks →
        (∃ now ∈ ticksRead (record :: history), saturatingAdd ticks n.toNat ≤ now) ∨
          ∃ process, world'.scheduler.processes[index]? = some process ∧
            process.state = .sleeping (saturatingAdd ticks n.toNat) := by
  intro old mem index isProcess n isSleep ticks isFirst
  rw [ticksRead_cons]
  obtain ⟨now, mem, due⟩ | ⟨process, at_, sleeping⟩ :=
    invariant.slept old mem index isProcess n isSleep ticks isFirst
  · exact .inl ⟨now, List.mem_append_left _ mem, due⟩
  · obtain ⟨now, mem, due⟩ | still := kept index process _ at_ sleeping
    · exact .inl ⟨now, List.mem_append_right _ mem, due⟩
    · exact .inr still

theorem Invariant.answered (invariant : Invariant programs history world)
    (inPlace : (Request.ofTrap trap).schedules = false) (answered : Answered world current world') :
    Invariant programs ({ process := world.scheduler.current, trap, readings } :: history) world' := by
  obtain ⟨count, same⟩ := answered.scheduler
  have each {index : Nat} {process' : Process}
      (at_ : world'.scheduler.processes[index]? = some process') :
      ∃ process, world.scheduler.processes[index]? = some process ∧
        process' = { process with syscalls := process'.syscalls } := by
    rw [same, List.getElem?_modify] at at_
    obtain ⟨process, found, rfl⟩ := Option.map_eq_some_iff.mp at_
    refine ⟨process, found, ?_⟩
    by_cases own : current = index
    · simp [own]
    · simp [own]
  have kept {index : Nat} {process : Process}
      (at_ : world.scheduler.processes[index]? = some process) :
      ∃ process', world'.scheduler.processes[index]? = some process' ∧
        process'.state = process.state := by
    rw [same, List.getElem?_modify, at_]
    by_cases own : current = index
    · exact ⟨{ process with syscalls := count process }, by simp [own]⟩
    · exact ⟨process, by simp [own]⟩
  refine ⟨?_, ?_, ?_, ?_, ?_⟩
  · intro index process' at_
    obtain ⟨process, found, isProcess⟩ := each at_
    rw [isProcess]
    exact invariant.owned index process found
  · intro active index process' at_ unfinished
    obtain ⟨process, found, isProcess⟩ := each at_
    rw [isProcess] at unfinished ⊢
    rw [expectedContext_answered inPlace]
    rw [same] at active
    exact invariant.contexts active index process found unfinished
  · intro active
    rw [same] at active
    obtain ⟨running, process, isRunning, at_, runnable⟩ := invariant.running active
    obtain ⟨process', at_', state⟩ := kept at_
    refine ⟨running, process', ?_, at_', state.trans runnable⟩
    rw [same]
    exact isRunning
  · intro inactive
    rw [same] at inactive ⊢
    exact invariant.stopped inactive
  · intro record mem
    obtain rfl | mem := List.mem_cons.mp mem
    · intro _ _ n isSleep
      rw [isSleep] at inPlace
      cases inPlace
    · refine slept_mono invariant (fun index process wakeTick at_ sleeping => .inr ?_) record mem
      obtain ⟨process', at_', state⟩ := kept at_
      exact ⟨process', at_', state.trans sleeping⟩

theorem Rescheduled.before
    (rescheduled : Rescheduled world trap faultAddress readings current process world' trap' saved
      processes used) (other : index ≠ current) :
    processes[index]? = world.scheduler.processes[index]? :=
  rescheduled.isSaved.others index other

theorem Scheduled.running (scheduled : Scheduled world processes used world' trap')
    (active : world'.scheduler.active = true) :
    ∃ next process, Resumed world processes used world' trap' next process ∧
      ∃ process', world'.scheduler.processes[next]? = some process' ∧
        process'.state = .runnable := by
  obtain returned | ⟨next, process, resumed⟩ := scheduled.ending
  · rw [returned.inactive] at active
    cases active
  · obtain ⟨dispatches, found⟩ := scheduled.follow.2 next process resumed.isNext
    exact ⟨next, process, resumed, _, found, resumed.runnable⟩

theorem Invariant.rescheduled {saved : Process} {processes : List Process} {used : List Nat}
    (invariant : Invariant programs history world) (active : world.scheduler.active = true)
    (isCurrent : world.scheduler.current = some current)
    (at_ : world.scheduler.processes[current]? = some process) (runnable : process.state = .runnable)
    (schedules : (Request.ofTrap trap).schedules = true)
    (rescheduled : Rescheduled world trap faultAddress readings current process world' trap' saved
      processes used) :
    Invariant programs ({ process := world.scheduler.current, trap, readings } :: history) world' := by
  have follow := rescheduled.scheduled.follow
  have isSaved := rescheduled.isSaved
  refine ⟨?_, ?_, ?_, ?_, ?_⟩
  · intro index process' at_'
    obtain ⟨before, found, root, kernelStack, -⟩ := of_follow follow at_'
    rw [root, kernelStack]
    by_cases own : index = current
    · subst own
      rw [isSaved.isSaved] at found
      cases found
      rw [isSaved.root, isSaved.kernelStack]
      exact invariant.owned index process at_
    · rw [rescheduled.before own] at found
      exact invariant.owned index before found
  · intro active' index process' at_' unfinished
    obtain ⟨before, found, -, -, context, state⟩ := of_follow follow at_'
    rw [context]
    rw [state] at unfinished
    have stillGoing : ¬before.state.finished := fun finished => by
      rw [Process.wakeAll_of_finished finished] at unfinished
      exact unfinished finished
    by_cases own : index = current
    · subst own
      rw [isSaved.isSaved] at found
      cases found
      rw [expectedContext_own isCurrent schedules]
      obtain finished | returned | captured := rescheduled.context
      · exact absurd finished stillGoing
      · rw [returned.inactive] at active'
        cases active'
      · rw [capture_eq captured]
    · rw [rescheduled.before own] at found
      rw [expectedContext_other (by simpa [isCurrent] using Ne.symm own)]
      exact invariant.contexts active index before found stillGoing
  · intro active'
    obtain ⟨next, _, resumed, process', at_', runnable⟩ := rescheduled.scheduled.running active'
    exact ⟨next, process', resumed.current, at_', runnable⟩
  · intro inactive
    obtain returned | ⟨next, before, resumed⟩ := rescheduled.scheduled.ending
    · exact returned.stopped
    · rw [resumed.active, active] at inactive
      cases inactive
  · intro record mem
    obtain rfl | mem := List.mem_cons.mp mem
    · intro index isProcess n isSleep ticks isFirst
      rw [isCurrent] at isProcess
      cases isProcess
      have state := isSaved.state
      rw [Request.stateAfter, isSleep] at state
      obtain ⟨rest, rfl⟩ : ∃ rest, readings = ticks :: rest := by
        cases readings with
        | nil => cases isFirst
        | cons first rest =>
          cases isFirst
          exact ⟨rest, rfl⟩
      obtain ⟨now, mem, due⟩ | still := sleeping_of_follow follow isSaved.isSaved state
      · rw [ticksRead_cons]
        exact .inl ⟨now, List.mem_append_right _ (rescheduled.scanned mem), due⟩
      · exact .inr still
    · refine slept_mono invariant (fun index before wakeTick found sleeping => ?_) record mem
      by_cases own : index = current
      · subst own
        rw [at_] at found
        cases found
        rw [runnable] at sleeping
        cases sleeping
      · rw [← rescheduled.before own] at found
        obtain ⟨now, mem, due⟩ | still := sleeping_of_follow follow found sleeping
        · exact .inl ⟨now, rescheduled.scanned mem, due⟩
        · exact .inr still

theorem handleUserTrap_inactive (inactive : world.scheduler.active = false)
    (run : world.handleUserTrap trap faultAddress readings = some (handled, world', trap', rest)) :
    world' = world := by
  rw [World.handleUserTrap, inactive] at run
  cases run
  rfl

theorem Invariant.step (invariant : Invariant programs history world)
    (run : world.handleUserTrap trap faultAddress readings = some (handled, world', trap', [])) :
    Invariant programs ({ process := world.scheduler.current, trap, readings } :: history) world' := by
  cases active : world.scheduler.active with
  | false =>
    obtain rfl := handleUserTrap_inactive active run
    have none := invariant.stopped active
    refine ⟨invariant.owned, fun active' => ?_, invariant.running, invariant.stopped, ?_⟩
    · rw [active] at active'
      cases active'
    · intro record mem
      obtain rfl | mem := List.mem_cons.mp mem
      · intro index isProcess
        rw [none] at isProcess
        cases isProcess
      · exact slept_mono invariant (fun index process wakeTick at_ sleeping =>
          .inr ⟨process, at_, sleeping⟩) record mem
  | true =>
    obtain ⟨current, process, isCurrent, at_, runnable⟩ := invariant.running active
    obtain ⟨inPlace, answered⟩ | ⟨schedules, saved, processes, used, rescheduled⟩ :=
      handleUserTrap_cases active isCurrent at_ run
    · exact invariant.answered inPlace answered
    · exact invariant.rescheduled active isCurrent at_ runnable schedules rescheduled

theorem Run.invariant (run : Run machine programs history world) :
    Invariant programs history world := by
  obtain ⟨first, entered, traps⟩ := run
  induction traps with
  | none => exact invariant_enter entered
  | more _ step ih => exact ih.step step

theorem Run.more (run : Run machine programs history world)
    (step : world.handleUserTrap trap faultAddress readings = some (handled, world', trap', [])) :
    Run machine programs ({ process := world.scheduler.current, trap, readings } :: history) world' := by
  obtain ⟨first, entered, traps⟩ := run
  exact ⟨first, entered, traps.more step⟩

/-- A process that does not run may be woken up and dispatched. -/
theorem Invariant.bystander (invariant : Invariant programs history world)
    (step : world.handleUserTrap trap faultAddress readings = some (handled, world', trap', []))
    (other : world.scheduler.current ≠ some index)
    (at_ : world.scheduler.processes[index]? = some process) :
    ∃ used dispatches, world'.scheduler.processes[index]? =
      some { process.wakeAll used with dispatches } := by
  cases active : world.scheduler.active with
  | false =>
    obtain rfl := handleUserTrap_inactive active step
    exact ⟨[], process.dispatches, at_⟩
  | true =>
    obtain ⟨current, running, isCurrent, found, -⟩ := invariant.running active
    have ne : index ≠ current := fun same => other (same ▸ isCurrent)
    obtain ⟨-, answered⟩ | ⟨-, saved, processes, used, rescheduled⟩ :=
      handleUserTrap_cases active isCurrent found step
    · obtain ⟨count, same⟩ := answered.scheduler
      refine ⟨[], process.dispatches, ?_⟩
      rw [same, List.getElem?_modify_ne _ _ ne.symm, at_]
      rfl
    · rw [← rescheduled.before ne] at at_
      exact ⟨used, rescheduled.scheduled.follow.2 index process at_⟩

/-- Every trap goes through `schedule` with the process that was running. -/
theorem Invariant.resumed (invariant : Invariant programs history world)
    (step : world.handleUserTrap trap faultAddress readings = some (handled, world', trap', []))
    (resumes : Resumes world trap world' index) :
    ∃ current process saved processes used before,
      world.scheduler.current = some current ∧
      world.scheduler.processes[current]? = some process ∧ process.state = .runnable ∧
      Rescheduled world trap faultAddress readings current process world' trap' saved processes used ∧
      Resumed world processes used world' trap' index before := by
  obtain ⟨active, schedules, active', isCurrent'⟩ := resumes
  obtain ⟨current, process, isCurrent, at_, runnable⟩ := invariant.running active
  obtain ⟨inPlace, -⟩ | ⟨-, saved, processes, used, rescheduled⟩ :=
    handleUserTrap_cases active isCurrent at_ step
  · rw [schedules] at inPlace
    cases inPlace
  · obtain ⟨next, before, resumed, -⟩ := rescheduled.scheduled.running active'
    have same := resumed.current
    rw [isCurrent'] at same
    cases same
    exact ⟨current, process, saved, processes, used, before, isCurrent, at_, runnable, rescheduled,
      resumed⟩

/-- Whoever is resumed finds the context it is owed in the frame. -/
theorem Run.owed (run : Run machine programs history world)
    (step : world.handleUserTrap trap faultAddress readings = some (handled, world', trap', []))
    (resumes : Resumes world trap world' index) :
    expectedContext programs ({ process := world.scheduler.current, trap, readings } :: history)
      index = some (contextOf trap') := by
  obtain ⟨_, _, _, _, used, before, -, -, -, rescheduled, resumed⟩ :=
    run.invariant.resumed step resumes
  obtain ⟨_, found⟩ := rescheduled.scheduled.follow.2 index before resumed.isNext
  rw [(run.invariant.step step).contexts resumes.2.2.1 index _ found (by
    intro finished
    rw [resumed.runnable] at finished
    cases finished), resumed.frame]
  simp only [contextOf, Process.wakeAll_context]

/-- Whoever is resumed gets the context it is owed, in its own address space and on its own kernel
    stack. -/
theorem context_isolation (run : Run machine programs history world)
    (step : world.handleUserTrap trap faultAddress readings = some (handled, world', trap', [])) :
    (∀ (index : Nat) (process process' : Process), world.scheduler.current ≠ some index →
        world.scheduler.processes[index]? = some process →
        world'.scheduler.processes[index]? = some process' → process'.context = process.context) ∧
      ∀ index, Resumes world trap world' index →
        ∃ program, programs[index]? = some program ∧
          expectedContext programs
            ({ process := world.scheduler.current, trap, readings } :: history) index =
              some (contextOf trap') ∧
          world'.machine.cr3 = program.root ∧
          world'.machine.privilegeStack = program.load.kernelStackTop := by
  have invariant := run.invariant
  have invariant' := invariant.step step
  refine ⟨fun index process process' other at_ at_' => ?_, fun index resumes => ?_⟩
  · obtain ⟨used, dispatches, found⟩ := invariant.bystander step other at_
    cases found.symm.trans at_'
    exact Process.wakeAll_context
  obtain ⟨current, process, saved, processes, used, before, -, -, -, rescheduled, resumed⟩ :=
    invariant.resumed step resumes
  obtain ⟨dispatches, found⟩ := rescheduled.scheduled.follow.2 index before resumed.isNext
  obtain ⟨program, isProgram, root, kernelStack⟩ := invariant'.owned index _ found
  refine ⟨program, isProgram, run.owed step resumes, ?_, ?_⟩
  · rw [resumed.cr3, ← root]
    exact Process.wakeAll_root.symm
  · have top : (before.wakeAll used).kernelStackTop = program.load.kernelStackTop := by
      rw [Process.kernelStackTop, kernelStack]
      rfl
    rw [resumed.privilegeStack, ← top, Process.wakeAll_kernelStackTop]

theorem Invariant.finished_step (invariant : Invariant programs history world)
    (step : world.handleUserTrap trap faultAddress readings = some (handled, world', trap', []))
    (at_ : world.scheduler.processes[index]? = some process) (finished : process.state.finished) :
    ∃ process', world'.scheduler.processes[index]? = some process' ∧
      process'.state = process.state := by
  have other : world.scheduler.current ≠ some index := by
    intro isIndex
    cases active : world.scheduler.active with
    | false => cases (invariant.stopped active).symm.trans isIndex
    | true =>
      obtain ⟨current, running, isCurrent, found, runnable⟩ := invariant.running active
      cases isCurrent.symm.trans isIndex
      cases found.symm.trans at_
      rw [runnable] at finished
      cases finished
  obtain ⟨used, dispatches, found⟩ := invariant.bystander step other at_
  exact ⟨_, found, by rw [Process.wakeAll_of_finished finished]⟩

theorem Run.finished_stays (run : Run machine programs history world)
    (traps : Traps world later world'') (at_ : world.scheduler.processes[index]? = some process)
    (finished : process.state.finished) :
    ∃ process'', world''.scheduler.processes[index]? = some process'' ∧
      process''.state = process.state := by
  suffices kept : ∃ earlier, Run machine programs earlier world'' ∧
      ∃ process'', world''.scheduler.processes[index]? = some process'' ∧
        process''.state = process.state by
    obtain ⟨-, -, kept⟩ := kept
    exact kept
  induction traps with
  | none => exact ⟨history, run, process, at_, rfl⟩
  | more _ step ih =>
    obtain ⟨earlier, run', process', at_', state⟩ := ih
    obtain ⟨process'', at_'', state'⟩ :=
      run'.invariant.finished_step step at_' (state ▸ finished)
    exact ⟨_, run'.more step, process'', at_'', state'.trans state⟩

theorem Invariant.not_early (invariant : Invariant programs history world)
    (at_ : world.scheduler.processes[index]? = some process) (runnable : process.state = .runnable)
    (mem : record ∈ history) (isProcess : record.process = some index)
    (isSleep : Request.ofTrap record.trap = .sleep n) (isFirst : record.readings.head? = some ticks)
    (clock : (ticksRead history ++ [now]).Pairwise (· ≤ ·)) :
    saturatingAdd ticks n.toNat ≤ now := by
  obtain ⟨_, _, later⟩ := List.pairwise_append.mp clock
  obtain ⟨tick, read, due⟩ | ⟨process', at_', sleeping⟩ :=
    invariant.slept record mem index isProcess n isSleep ticks isFirst
  · exact Nat.le_trans due (later tick read now (by simp))
  · rw [at_] at at_'
    cases at_'
    rw [runnable] at sleeping
    cases sleeping

/-- Finished processes stay finished, only runnable ones are dispatched and none before its sleep
    is over, and the kernel goes on when all have finished. -/
theorem lifecycle_safety (run : Run machine programs history world)
    (step : world.handleUserTrap trap faultAddress readings = some (handled, world', trap', [])) :
    (∀ (index : Nat) (process : Process) (later : List TrapRecord) (world'' : World),
        Traps world later world'' → world.scheduler.processes[index]? = some process →
        process.state.finished →
        ∃ process'', world''.scheduler.processes[index]? = some process'' ∧
          process''.state = process.state) ∧
      (∀ index, Resumes world trap world' index →
        (∀ process, world.scheduler.processes[index]? = some process → ¬process.state.finished) ∧
        (∃ process', world'.scheduler.processes[index]? = some process' ∧
          process'.state = .runnable) ∧
        ∀ record ∈ { process := world.scheduler.current, trap, readings : TrapRecord } :: history,
          record.process = some index → ∀ n, Request.ofTrap record.trap = .sleep n →
          ∀ ticks, record.readings.head? = some ticks → ∀ now,
            (ticksRead ({ process := world.scheduler.current, trap, readings } :: history) ++
              [now]).Pairwise (· ≤ ·) →
            saturatingAdd ticks n.toNat ≤ now) ∧
      (world.scheduler.active = true → world'.scheduler.active = false →
        world'.scheduler.failure = none →
        ∀ process ∈ world'.scheduler.processes, process.state.finished) := by
  have invariant := run.invariant
  have invariant' := invariant.step step
  refine ⟨?_, ?_, ?_⟩
  · intro index process later world'' traps at_ finished
    exact run.finished_stays traps at_ finished
  · intro index resumes
    obtain ⟨next, process', isNext, at_', runnable⟩ := invariant'.running resumes.2.2.1
    rw [resumes.2.2.2] at isNext
    cases isNext
    refine ⟨?_, ⟨process', at_', runnable⟩, ?_⟩
    · intro process at_ finished
      obtain ⟨process'', at_'', state⟩ := invariant.finished_step step at_ finished
      rw [at_'] at at_''
      cases at_''
      rw [← state, runnable] at finished
      cases finished
    · intro record mem isProcess n isSleep ticks isFirst now clock
      exact invariant'.not_early at_' runnable mem isProcess isSleep isFirst clock
  · intro active inactive noFailure
    obtain ⟨current, process, isCurrent, at_, -⟩ := invariant.running active
    obtain ⟨-, answered⟩ | ⟨-, saved, processes, used, rescheduled⟩ :=
      handleUserTrap_cases active isCurrent at_ step
    · obtain ⟨count, same⟩ := answered.scheduler
      rw [same, active] at inactive
      cases inactive
    · obtain returned | ⟨next, before, resumed⟩ := rescheduled.scheduled.ending
      · exact returned.done noFailure
      · rw [resumed.active, active] at inactive
        cases inactive

/-- While user code runs, the processor is on the tables and on the kernel stack of the program whose
    turn it is. -/
theorem runs_in_own_space (run : Run machine programs history world)
    (active : world.scheduler.active = true) :
    ∃ index program, world.scheduler.current = some index ∧ programs[index]? = some program ∧
      world.machine.cr3 = program.root ∧
      world.machine.privilegeStack = program.load.kernelStackTop := by
  obtain ⟨first, entered, traps⟩ := run
  induction traps with
  | none =>
    cases programs with
    | nil => cases entered
    | cons program programs =>
      obtain ⟨installed, isInstalled, rfl⟩ := Option.map_eq_some_iff.mp entered
      obtain ⟨-, same⟩ := Option.ite_none_left_eq_some.mp isInstalled
      cases same
      exact ⟨0, program, rfl, rfl, rfl, rfl⟩
  | @more world world' _ _ _ _ _ _ traps step ih =>
    have invariant := Run.invariant ⟨first, entered, traps⟩
    cases before : world.scheduler.active with
    | false =>
      obtain rfl := handleUserTrap_inactive before step
      exact ih active
    | true =>
      obtain ⟨current, process, isCurrent, at_, -⟩ := invariant.running before
      obtain ⟨-, answered⟩ | ⟨-, saved, processes, used, rescheduled⟩ :=
        handleUserTrap_cases before isCurrent at_ step
      · -- nothing but a count of the process has changed
        obtain ⟨count, same⟩ := answered.scheduler
        rw [answered.machine, same]
        exact ih before
      · obtain ⟨next, process, resumed, -⟩ := rescheduled.scheduled.running active
        obtain ⟨dispatches, found⟩ := rescheduled.scheduled.follow.2 next process resumed.isNext
        obtain ⟨program, isProgram, root, kernelStack⟩ := (invariant.step step).owned next _ found
        refine ⟨next, program, resumed.current, isProgram, ?_, ?_⟩
        · rw [resumed.cr3, ← root]
          exact Process.wakeAll_root.symm
        · have top : (process.wakeAll used).kernelStackTop = program.load.kernelStackTop := by
            rw [Process.kernelStackTop, kernelStack]
            rfl
          rw [resumed.privilegeStack, ← top, Process.wakeAll_kernelStackTop]

end

def sampleMachine : Machine where
  cr3 := 0x1000
  privilegeStack := 0
  gdtLoaded := true
  kernelResume := 0x8000

def samplePrograms : List Program :=
  [{ pid := 1001, root := 0x10000, entry := 0x400000, stackTop := 0x600000, kernelStack := 0x90000 },
   { pid := 1002, root := 0x20000, entry := 0x500000, stackTop := 0x700000, kernelStack := 0xb0000 }]

/-- A trap from user code at some other place than its entry. -/
def sampleTrap (vector rax rdi : UInt64) : UserFrame where
  frame := { (UserContext.initial 0x400020 0).frame with vector, rax, rdi, rbx := 7 }
  userRsp := 0x5fff00
  userSs := userDataSelector

/-- What a test can see of the result of a trap. -/
def observe (result : Bool × World × UserFrame × List Nat) : Bool × Bool × Option Nat × List Nat :=
  (result.1, result.2.1.scheduler.active, result.2.1.scheduler.current, result.2.2.2)

theorem of_observe (seen : result.map observe = some (handled, active, current, [])) :
    ∃ world' trap', result = some (handled, world', trap', []) ∧ world'.scheduler.active = active ∧
      world'.scheduler.current = current := by
  obtain ⟨⟨_, world', trap', _⟩, isResult, same⟩ := Option.map_eq_some_iff.mp seen
  simp only [observe, Prod.mk.injEq] at same
  obtain ⟨rfl, isActive, isCurrent, rfl⟩ := same
  exact ⟨world', trap', isResult, isActive, isCurrent⟩

/-- The scheduler once the first of two processes runs. -/
def sampleWorld : World :=
  (World.enter sampleMachine (samplePrograms.map Program.load)).getD
    { scheduler :=
        { active := false, kernelRoot := 0, current := none, processes := [], timerPreemptions := 0,
          contextSwitches := 0, failure := none, idleHalts := 0 }
      machine := sampleMachine }

theorem sampleWorld_run : Run sampleMachine samplePrograms [] sampleWorld :=
  ⟨sampleWorld, by decide +kernel, .none⟩

theorem runs_in_own_space_first : ∃ index program,
    sampleWorld.scheduler.current = some index ∧ samplePrograms[index]? = some program ∧
      sampleWorld.machine.cr3 = program.root ∧
      sampleWorld.machine.privilegeStack = program.load.kernelStackTop :=
  runs_in_own_space sampleWorld_run (by decide +kernel)

/-- The timer takes the processor from the first process and enters the second one. -/
theorem context_isolation_preempted :
    ∃ world' trap', sampleWorld.handleUserTrap (sampleTrap 32 5 9) 0 [3] =
        some (true, world', trap', []) ∧
      Resumes sampleWorld (sampleTrap 32 5 9) world' 1 ∧
      contextOf trap' = .initial 0x500000 0x700000 := by
  obtain ⟨world', trap', step, active, isCurrent⟩ :=
    of_observe (show (sampleWorld.handleUserTrap (sampleTrap 32 5 9) 0 [3]).map observe =
      some (true, true, some 1, []) by decide +kernel)
  have resumes : Resumes sampleWorld (sampleTrap 32 5 9) world' 1 :=
    ⟨by decide +kernel, by decide +kernel, active, isCurrent⟩
  obtain ⟨program, -, owed, -⟩ := (context_isolation sampleWorld_run step).2 1 resumes
  have initial : expectedContext samplePrograms
      [{ process := sampleWorld.scheduler.current, trap := sampleTrap 32 5 9, readings := [3] }] 1 =
        some (.initial 0x500000 0x700000) := by
    decide +kernel
  rw [initial] at owed
  exact ⟨world', trap', step, resumes, (Option.some.inj owed).symm⟩

/-- After a sleep of four ticks from tick ten, the process runs again at tick fourteen. -/
theorem lifecycle_safety_sleeper :
    ∃ world world' trap trap', Run sampleMachine samplePrograms
        [{ process := some 0, trap, readings := [10, 10] }] world ∧
      world.handleUserTrap (sampleTrap 32 5 9) 0 [14] = some (true, world', trap', []) ∧
      Resumes world (sampleTrap 32 5 9) world' 0 ∧ saturatingAdd 10 4 ≤ 14 := by
  obtain ⟨world, trap₁, step, active, isCurrent⟩ :=
    of_observe (show (sampleWorld.handleUserTrap (sampleTrap 0x80 6 4) 0 [10, 10]).map observe =
      some (true, true, some 1, []) by decide +kernel)
  have run := sampleWorld_run.more step
  have again : ((sampleWorld.handleUserTrap (sampleTrap 0x80 6 4) 0 [10, 10]).bind fun result =>
      result.2.1.handleUserTrap (sampleTrap 32 5 9) 0 [14]).map observe =
        some (true, true, some 0, []) := by
    decide +kernel
  rw [step, Option.bind_some] at again
  obtain ⟨world', trap', step', active', isCurrent'⟩ := of_observe again
  have resumes : Resumes world (sampleTrap 32 5 9) world' 0 :=
    ⟨active, by decide +kernel, active', isCurrent'⟩
  obtain ⟨-, -, early⟩ := (lifecycle_safety run step').2.1 0 resumes
  refine ⟨world, world', _, trap', run, step', resumes, ?_⟩
  refine early { process := some 0, trap := sampleTrap 0x80 6 4, readings := [10, 10] } ?_ rfl 4
    (by decide +kernel) 10 rfl 14 (by simp [ticksRead])
  exact List.mem_cons_of_mem _ (List.mem_singleton.mpr rfl)

end CodexOS.Scheduler
