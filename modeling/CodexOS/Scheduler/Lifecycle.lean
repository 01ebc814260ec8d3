import CodexOS.Scheduler.Traps

/-! # What a trap does to the processes -/

namespace CodexOS.Scheduler

open Word64

namespace ProcessState

/-- The process will not run again. -/
def finished : ProcessState → Prop
  | .exited _ | .faulted _ _ _ => True
  | _ => False

end ProcessState

namespace Process

/-- The process after all wake-up scans of one trap. -/
def wakeAll (readings : List Nat) (process : Process) : Process :=
  readings.foldl (fun process ticks => process.wake ticks) process

variable {ticks : Nat} {readings : List Nat} {process : Process}

theorem wake_cases (ticks : Nat) (process : Process) :
    process.wake ticks = process ∨
      ∃ wakeTick, process.state = .sleeping wakeTick ∧ wakeTick ≤ ticks ∧
        process.wake ticks = { process with state := .runnable } := by
  unfold wake
  split
  · rename_i wakeTick sleeping
    split
    · rename_i due
      exact .inr ⟨wakeTick, sleeping, due, rfl⟩
    · exact .inl rfl
  · exact .inl rfl

theorem wakeAll_cases (readings : List Nat) (process : Process) :
    process.wakeAll readings = process ∨
      ∃ wakeTick, process.state = .sleeping wakeTick ∧ (∃ ticks ∈ readings, wakeTick ≤ ticks) ∧
        process.wakeAll readings = { process with state := .runnable } := by
  induction readings generalizing process with
  | nil => exact .inl rfl
  | cons ticks rest ih =>
    obtain same | ⟨wakeTick, sleeping, due, woken⟩ := process.wake_cases ticks
    · rw [wakeAll, List.foldl_cons, same]
      obtain same | ⟨wakeTick, sleeping, ⟨later, mem, due⟩, woken⟩ := ih process
      · exact .inl same
      · exact .inr ⟨wakeTick, sleeping, ⟨later, by simp [mem], due⟩, woken⟩
    · refine .inr ⟨wakeTick, sleeping, ⟨ticks, by simp, due⟩, ?_⟩
      rw [wakeAll, List.foldl_cons, woken]
      obtain same | ⟨_, sleeping, _⟩ := ih { process with state := .runnable }
      · exact same
      · cases sleeping

/-- Only the state of a process changes. -/
theorem wakeAll_eq :
    process.wakeAll readings = { process with state := (process.wakeAll readings).state } := by
  obtain same | ⟨_, _, _, woken⟩ := process.wakeAll_cases readings
  · rw [same]
  · rw [woken]

theorem wakeAll_context : (process.wakeAll readings).context = process.context := by
  rw [wakeAll_eq]

theorem wakeAll_root : (process.wakeAll readings).root = process.root := by
  rw [wakeAll_eq]

theorem wakeAll_kernelStackTop :
    (process.wakeAll readings).kernelStackTop = process.kernelStackTop := by
  rw [wakeAll_eq, kernelStackTop, kernelStackTop]

theorem wakeAll_of_finished (finished : process.state.finished) :
    process.wakeAll readings = process := by
  obtain same | ⟨_, sleeping, _⟩ := process.wakeAll_cases readings
  · exact same
  · rw [sleeping] at finished
    cases finished

end Process

namespace SchedulerState

variable {scheduler scheduler' : SchedulerState} {current next : Nat} {readings rest : List Nat}

theorem of_nextRunnable (found : scheduler.nextRunnable current = some next) :
    ∃ process, scheduler.processes[next]? = some process ∧ process.state = .runnable := by
  have runnable := List.find?_some found
  cases at_ : scheduler.processes[next]? with
  | none =>
    rw [at_] at runnable
    cases runnable
  | some process =>
    rw [at_, Option.any_some, decide_eq_true_eq] at runnable
    exact ⟨process, rfl, runnable⟩

theorem not_runnable_of_nextRunnable (inRange : current < scheduler.processes.length)
    (none : scheduler.nextRunnable current = none) {index : Nat} {process : Process}
    (at_ : scheduler.processes[index]? = some process) : process.state ≠ .runnable := by
  intro runnable
  have bound : index < scheduler.processes.length := (List.getElem?_eq_some_iff.mp at_).1
  rw [nextRunnable, List.find?_eq_none] at none
  have passed : ∃ offset < scheduler.processes.length,
      (current + (offset + 1)) % scheduler.processes.length = index := by
    by_cases ahead : current < index
    · refine ⟨index - current - 1, by omega, ?_⟩
      rw [show current + (index - current - 1 + 1) = index by omega, Nat.mod_eq_of_lt bound]
    · refine ⟨index + scheduler.processes.length - current - 1, by omega, ?_⟩
      rw [show current + (index + scheduler.processes.length - current - 1 + 1) =
        index + scheduler.processes.length by omega, Nat.add_mod_right, Nat.mod_eq_of_lt bound]
  obtain ⟨offset, less, hits⟩ := passed
  have missed := none index (List.mem_map.mpr ⟨offset, List.mem_range.mpr less, hits⟩)
  rw [at_, Option.any_some, decide_eq_true_eq] at missed
  exact missed runnable

theorem sleeping_of_hasSleepers (mem : process ∈ scheduler.processes)
    (sleeping : process.state = .sleeping wakeTick) :
    scheduler.hasSleepers = true := by
  refine List.any_eq_true.mpr ⟨process, mem, ?_⟩
  rw [sleeping]

/-- The wait ends with every process scanned at the readings it took. -/
theorem idle_spec (ended : scheduler.idle current readings = some (scheduler', rest)) :
    ∃ used, readings = used ++ rest ∧
      scheduler' =
        { scheduler with
          processes := scheduler.processes.map (·.wakeAll used)
          idleHalts := scheduler'.idleHalts } ∧
      ¬((scheduler'.nextRunnable current).isNone ∧ scheduler'.hasSleepers) := by
  induction readings generalizing scheduler with
  | nil =>
    rw [idle] at ended
    split at ended
    · cases ended
    · rename_i settled
      cases ended
      exact ⟨[], rfl, by simp [Process.wakeAll], settled⟩
  | cons ticks readings ih =>
    rw [idle] at ended
    split at ended
    · obtain ⟨used, split, result, settled⟩ := ih ended
      refine ⟨ticks :: used, by rw [split, List.cons_append], ?_, settled⟩
      rw [result]
      simp only [wakeSleepers, List.map_map, SchedulerState.mk.injEq, true_and, and_true]
      rfl
    · rename_i settled
      cases ended
      exact ⟨[], rfl, by simp [Process.wakeAll], settled⟩

end SchedulerState

/-- The processes after the scans of one trap. Only the counter of dispatches may differ. -/
def Follow (used : List Nat) (processes processes' : List Process) : Prop :=
  processes'.length = processes.length ∧
    ∀ (index : Nat) (process : Process), processes[index]? = some process →
      ∃ dispatches, processes'[index]? = some { process.wakeAll used with dispatches }

/-- The processor is back in the kernel: something failed, or every process has finished. -/
structure Returned (world' : World) : Prop where
  inactive : world'.scheduler.active = false
  stopped : world'.scheduler.current = none
  done : world'.scheduler.failure = none →
    ∀ process ∈ world'.scheduler.processes, process.state.finished

/-- The frame now holds the context of `next`, and the machine is set up for it. -/
structure Resumed (world : World) (processes : List Process) (used : List Nat) (world' : World)
    (trap' : UserFrame) (next : Nat) (process : Process) : Prop where
  active : world'.scheduler.active = world.scheduler.active
  current : world'.scheduler.current = some next
  isNext : processes[next]? = some process
  runnable : (process.wakeAll used).state = .runnable
  frame : trap' =
    { frame := process.context.frame
      userRsp := process.context.stackPointer
      userSs := process.context.stackSelector }
  cr3 : world'.machine.cr3 = process.root
  privilegeStack : world'.machine.privilegeStack = process.kernelStackTop
  failure : world'.scheduler.failure = world.scheduler.failure

/-- How `schedule` ends, from these processes and with these readings. -/
structure Scheduled (world : World) (processes : List Process) (used : List Nat) (world' : World)
    (trap' : UserFrame) : Prop where
  follow : Follow used processes world'.scheduler.processes
  kernelRoot : world'.scheduler.kernelRoot = world.scheduler.kernelRoot
  ending : Returned world' ∨
    ∃ next process, Resumed world processes used world' trap' next process

theorem Scheduled.congr (scheduled : Scheduled world₁ processes used world' trap')
    (active : world₁.scheduler.active = world.scheduler.active)
    (failure : world₁.scheduler.failure = world.scheduler.failure)
    (kernelRoot : world₁.scheduler.kernelRoot = world.scheduler.kernelRoot) :
    Scheduled world processes used world' trap' := by
  refine ⟨scheduled.follow, scheduled.kernelRoot.trans kernelRoot, ?_⟩
  obtain returned | ⟨next, process, resumed⟩ := scheduled.ending
  · exact .inl returned
  · exact .inr ⟨next, process, resumed.active.trans active, resumed.current, resumed.isNext,
      resumed.runnable, resumed.frame, resumed.cr3, resumed.privilegeStack,
      resumed.failure.trans failure⟩

namespace World

variable {world world' : World} {trap trap' : UserFrame} {current next : Nat}
  {readings rest used : List Nat} {processes : List Process} {process : Process} {timer : Bool}

theorem follow_map (used : List Nat) (processes : List Process) :
    Follow used processes (processes.map (·.wakeAll used)) := by
  refine ⟨List.length_map _, fun index process found => ⟨(process.wakeAll used).dispatches, ?_⟩⟩
  rw [List.getElem?_map, found]
  rfl

theorem follow_nil (processes : List Process) : Follow [] processes processes :=
  ⟨rfl, fun _ process found => ⟨process.dispatches, found⟩⟩

theorem returnToKernel_processes (world : World) (trap : UserFrame) :
    (world.returnToKernel trap).1.scheduler.processes = world.scheduler.processes ∧
      (world.returnToKernel trap).1.scheduler.kernelRoot = world.scheduler.kernelRoot := by
  simp only [returnToKernel, switchRoot]
  split <;> simp [recordFailure]

theorem returned_of_failure (trap : UserFrame) (failed : world.scheduler.failure ≠ none) :
    Returned (world.returnToKernel trap).1 := by
  refine ⟨rfl, rfl, fun none => absurd none ?_⟩
  simp only [returnToKernel, switchRoot]
  split
  · simp [recordFailure]
  · simpa using failed

theorem returned_of_finished
    (done : ∀ process ∈ world.scheduler.processes, process.state.finished) :
    Returned (world.returnToKernel trap).1 := by
  refine ⟨rfl, rfl, fun _ => ?_⟩
  rw [(returnToKernel_processes world trap).1]
  exact done

theorem scheduled_of_failure {failure : RuntimeFailure} (trap : UserFrame)
    (follow : Follow used processes world'.scheduler.processes)
    (kernelRoot : world'.scheduler.kernelRoot = world.scheduler.kernelRoot) :
    Scheduled world processes used ((world'.recordFailure failure).returnToKernel trap).1 trap' := by
  obtain ⟨same, sameRoot⟩ := returnToKernel_processes (world'.recordFailure failure) trap
  refine ⟨?_, sameRoot.trans kernelRoot, .inl (returned_of_failure trap (by simp [recordFailure]))⟩
  rw [same]
  exact follow

theorem follow_modify (follow : Follow used processes processes') (next : Nat) :
    Follow used processes (processes'.modify next fun process =>
      { process with dispatches := saturatingAdd process.dispatches 1 }) := by
  obtain ⟨length, each⟩ := follow
  refine ⟨by rw [List.length_modify, length], fun index process found => ?_⟩
  obtain ⟨dispatches, found'⟩ := each index process found
  rw [List.getElem?_modify, found']
  by_cases isNext : next = index
  · exact ⟨saturatingAdd dispatches 1, by simp [isNext]⟩
  · exact ⟨dispatches, by simp [isNext]⟩

theorem countDispatch_scheduler (world : World) (timer : Bool) (current next : Nat) :
    (world.countDispatch timer current next).scheduler =
      { world.scheduler with
        current := some next
        processes := world.scheduler.processes.modify next fun process =>
          { process with dispatches := saturatingAdd process.dispatches 1 }
        contextSwitches := (world.countDispatch timer current next).scheduler.contextSwitches
        timerPreemptions := (world.countDispatch timer current next).scheduler.timerPreemptions } := by
  simp only [countDispatch]
  split <;> rfl

/-- A root that is not page-aligned, a missing kernel stack or a context from the kernel end the
    run. Otherwise the process runs. -/
theorem install_scheduled (follow : Follow used processes world.scheduler.processes)
    (current : world.scheduler.current = some next) (isNext : processes[next]? = some process)
    (runnable : (process.wakeAll used).state = .runnable) :
    Scheduled world processes used (world.install trap (process.wakeAll used)).1
      (world.install trap (process.wakeAll used)).2 := by
  simp only [install, switchRoot, setPrivilegeStack, Process.wakeAll_root,
    Process.wakeAll_kernelStackTop, Process.wakeAll_context]
  split
  · exact scheduled_of_failure trap follow rfl
  rename_i switched isSwitched
  split at isSwitched
  · cases isSwitched
  cases isSwitched
  split
  · exact scheduled_of_failure trap follow rfl
  rename_i installed isInstalled
  split at isInstalled
  · cases isInstalled
  cases isInstalled
  simp only [UserContext.restore, setUserStack]
  split
  · exact scheduled_of_failure trap follow rfl
  · rename_i restored isRestored
    split at isRestored
    · cases isRestored
    · cases isRestored
      exact ⟨follow, rfl, .inr ⟨next, process, rfl, current, isNext, runnable, rfl, rfl, rfl, rfl⟩⟩

theorem settled_finished {scheduler : SchedulerState} (inRange : current < scheduler.processes.length)
    (none : scheduler.nextRunnable current = none)
    (settled : ¬((scheduler.nextRunnable current).isNone ∧ scheduler.hasSleepers)) :
    ∀ process ∈ scheduler.processes, process.state.finished := by
  intro process mem
  obtain ⟨index, bound, rfl⟩ := List.mem_iff_getElem.mp mem
  have at_ : scheduler.processes[index]? = some scheduler.processes[index] :=
    List.getElem?_eq_getElem bound
  cases state : scheduler.processes[index].state with
  | runnable =>
    exact absurd state (SchedulerState.not_runnable_of_nextRunnable inRange none at_)
  | sleeping wakeTick =>
    refine absurd ⟨?_, SchedulerState.sleeping_of_hasSleepers mem state⟩ settled
    rw [none]
    rfl
  | exited status => trivial
  | faulted vector address errorCode => trivial

theorem scheduleNext_scheduled (inRange : current < world.scheduler.processes.length)
    (run : world.scheduleNext trap timer current readings = some (world', trap', rest)) :
    ∃ used, readings = used ++ rest ∧
      Scheduled world world.scheduler.processes used world' trap' := by
  cases readings with
  | nil => cases run
  | cons ticks readings =>
    simp only [scheduleNext] at run
    split at run
    · cases run
      refine ⟨[ticks], rfl, scheduled_of_failure trap ?_ rfl⟩
      exact follow_map [ticks] _
    · rename_i switched isSwitched
      split at run
      · cases run
      · rename_i idled rest' ended
        obtain ⟨used, rfl, result, settled⟩ := SchedulerState.idle_spec ended
        have mapped : idled.processes =
            world.scheduler.processes.map (·.wakeAll (ticks :: used)) := by
          rw [result]
          simp only [SchedulerState.wakeSleepers, List.map_map]
          rfl
        have follow : Follow (ticks :: used) world.scheduler.processes idled.processes := by
          rw [mapped]
          exact follow_map (ticks :: used) _
        have root : idled.kernelRoot = world.scheduler.kernelRoot := by
          rw [result]
          rfl
        have others : idled.active = world.scheduler.active ∧
            idled.failure = world.scheduler.failure := by
          rw [result]
          exact ⟨rfl, rfl⟩
        have inRange' : current < idled.processes.length := by
          rw [follow.1]
          exact inRange
        split at run
        · rename_i none
          cases run
          obtain ⟨same, sameRoot⟩ := returnToKernel_processes { switched with scheduler := idled } trap
          refine ⟨ticks :: used, rfl, ?_, sameRoot.trans root, .inl (returned_of_finished ?_)⟩
          · rw [same]
            exact follow
          · refine settled_finished inRange' ?_ settled
            cases found : idled.nextRunnable current with
            | none => rfl
            | some next =>
              obtain ⟨process, at_, -⟩ := SchedulerState.of_nextRunnable found
              rw [found, Option.bind_some, at_] at none
              cases none
        · rename_i next process found
          cases run
          obtain ⟨next', isNext, at_⟩ := Option.bind_eq_some_iff.mp found
          obtain ⟨process', at_, same⟩ := Option.map_eq_some_iff.mp at_
          cases same
          obtain ⟨process', at_', runnable⟩ := SchedulerState.of_nextRunnable isNext
          rw [at_] at at_'
          cases at_'
          rw [mapped, List.getElem?_map] at at_
          obtain ⟨original, found', rfl⟩ := Option.map_eq_some_iff.mp at_
          have counted := countDispatch_scheduler { switched with scheduler := idled } timer
            current next
          refine ⟨ticks :: used, rfl, Scheduled.congr (install_scheduled ?_ ?_ found' runnable) ?_ ?_ ?_⟩
          · rw [counted]
            exact follow_modify follow next
          · rw [counted]
          · rw [counted]
            exact others.1
          · rw [counted]
            exact others.2
          · rw [counted]
            exact root

theorem modify_context_self (at_ : processes[current]? = some process) :
    processes.modify current ({ · with context := process.context }) = processes := by
  obtain ⟨inRange, rfl⟩ := List.getElem?_eq_some_iff.mp at_
  rw [List.modify_eq_set_get _ inRange]
  exact List.set_getElem_self inRange

theorem scheduleSaved_scheduled (at_ : world.scheduler.processes[current]? = some process)
    (run : world.scheduleSaved trap timer current readings = some (world', trap', rest)) :
    ∃ used context, readings = used ++ rest ∧
      Scheduled world (world.scheduler.processes.modify current ({ · with context })) used world'
        trap' ∧
      (Returned world' ∨ UserContext.capture trap = some context) := by
  have inRange : current < world.scheduler.processes.length := (List.getElem?_eq_some_iff.mp at_).1
  unfold scheduleSaved at run
  split at run
  · cases run
    refine ⟨[], process.context, rfl, ?_, .inl ?_⟩
    · rw [modify_context_self at_]
      exact scheduled_of_failure trap (follow_nil _) rfl
    · exact returned_of_failure trap (by simp [recordFailure])
  · rename_i context captured
    obtain ⟨used, split, scheduled⟩ := scheduleNext_scheduled (by simpa using inRange) run
    exact ⟨used, context, split, scheduled.congr rfl rfl rfl, .inr captured⟩

theorem schedule_scheduled (isCurrent : world.scheduler.current = some current)
    (at_ : world.scheduler.processes[current]? = some process)
    (run : world.schedule trap timer readings = some (world', trap', rest)) :
    ∃ used context, readings = used ++ rest ∧
      Scheduled world (world.scheduler.processes.modify current ({ · with context })) used world'
        trap' ∧
      (process.state.finished ∨ Returned world' ∨ UserContext.capture trap = some context) := by
  have inRange : current < world.scheduler.processes.length := (List.getElem?_eq_some_iff.mp at_).1
  simp only [schedule, isCurrent, at_] at run
  cases state : process.state <;> rw [state] at run
  case runnable | sleeping =>
    obtain ⟨used, context, split, scheduled, saved⟩ := scheduleSaved_scheduled at_ run
    exact ⟨used, context, split, scheduled, .inr saved⟩
  case exited | faulted =>
    obtain ⟨used, split, scheduled⟩ := scheduleNext_scheduled inRange run
    refine ⟨used, process.context, split, ?_, .inl trivial⟩
    rwa [modify_context_self at_]

end World

/-- What a trap from user mode asks for. -/
inductive Request where
  | timer
  | exit (status : UInt64)
  | yield
  | getpid
  | getticks
  | sleep (ticks : UInt64)
  | unknown
  | fault (vector : UInt8)
  | foreign
  deriving DecidableEq

namespace Request

def ofTrap (trap : UserFrame) : Request :=
  let vector := trap.frame.vector.toUInt8
  if vector = timerVector then .timer
  else if vector = userSyscallVector then
    if trap.frame.rax = Syscall.exit then .exit trap.frame.rdi
    else if trap.frame.rax = Syscall.yield then .yield
    else if trap.frame.rax = Syscall.getpid then .getpid
    else if trap.frame.rax = Syscall.getticks then .getticks
    else if trap.frame.rax = Syscall.sleep then .sleep trap.frame.rdi
    else .unknown
  else if vector ≤ 31 then .fault vector
  else .foreign

/-- The requests that enter `schedule`. -/
def schedules : Request → Bool
  | .timer | .exit _ | .yield | .sleep _ | .fault _ => true
  | _ => false

/-- The frame with which the request enters `schedule`. -/
def enteredFrame (trap : UserFrame) : UserFrame :=
  match ofTrap trap with
  | .yield | .sleep _ => World.setRax trap 0
  | _ => trap

/-- The state of the process that made the request, once it has entered `schedule`. -/
def stateAfter (trap : UserFrame) (faultAddress : UInt64) (ticks : Nat) (state : ProcessState) :
    ProcessState :=
  match ofTrap trap with
  | .exit status => .exited status
  | .sleep n => .sleeping (saturatingAdd ticks n.toNat)
  | .fault vector => .faulted vector faultAddress trap.frame.errorCode
  | _ => state

end Request

/-- A request answered in place. -/
structure Answered (world : World) (current : Nat) (world' : World) : Prop where
  scheduler : ∃ count : Process → Nat, world'.scheduler =
    { world.scheduler with
      processes := world.scheduler.processes.modify current fun process =>
        { process with syscalls := count process } }
  machine : world'.machine = world.machine

/-- The processes as `schedule` finds them, once it has saved the current one. -/
structure Saved (trap : UserFrame) (faultAddress : UInt64) (ticks : Nat) (current : Nat)
    (process saved : Process) (processes processes' : List Process) : Prop where
  length : processes'.length = processes.length
  others : ∀ index, index ≠ current → processes'[index]? = processes[index]?
  isSaved : processes'[current]? = some saved
  root : saved.root = process.root
  kernelStack : saved.kernelStack = process.kernelStack
  state : saved.state = Request.stateAfter trap faultAddress ticks process.state

/-- A request that went through `schedule`. -/
structure Rescheduled (world : World) (trap : UserFrame) (faultAddress : UInt64)
    (readings : List Nat) (current : Nat) (process : Process) (world' : World) (trap' : UserFrame)
    (saved : Process) (processes : List Process) (used : List Nat) : Prop where
  scanned : used ⊆ readings
  isSaved : Saved trap faultAddress (readings.headD 0) current process saved
    world.scheduler.processes processes
  scheduled : Scheduled world processes used world' trap'
  context : saved.state.finished ∨ Returned world' ∨
    UserContext.capture (Request.enteredFrame trap) = some saved.context

/-- The handler has made its own changes to the current process and enters `schedule`. -/
structure Entered (world : World) (trap : UserFrame) (faultAddress : UInt64) (readings : List Nat)
    (current : Nat) (entered : World) (change : Process → Process) (remaining : List Nat) :
    Prop where
  scheduler : entered.scheduler =
    { world.scheduler with processes := world.scheduler.processes.modify current change }
  kept : ∀ process, (change process).root = process.root ∧
    (change process).kernelStack = process.kernelStack ∧
    (change process).dispatches = process.dispatches
  state : ∀ process, (change process).state =
    Request.stateAfter trap faultAddress (readings.headD 0) process.state
  suffix : remaining ⊆ readings

/-- A trap of the running process is answered in place or goes through `schedule`. -/
inductive Handled (world : World) (trap : UserFrame) (faultAddress : UInt64) (readings : List Nat)
    (current : Nat) (world' : World) (trap' : UserFrame) : Prop
  | answered (inPlace : (Request.ofTrap trap).schedules = false)
      (answered : Answered world current world')
  | enters {entered : World} {change : Process → Process} {timer : Bool} {remaining rest : List Nat}
      (schedules : (Request.ofTrap trap).schedules = true)
      (isEntered : Entered world trap faultAddress readings current entered change remaining)
      (run : entered.schedule (Request.enteredFrame trap) timer remaining =
        some (world', trap', rest))

section

variable {world world' : World} {trap trap' : UserFrame} {faultAddress : UInt64} {current : Nat}
  {readings rest : List Nat} {process : Process} {handled : Bool}

theorem Entered.rescheduled {change : Process → Process} {timer : Bool}
    (isEntered : Entered world trap faultAddress readings current entered change remaining)
    (isCurrent : world.scheduler.current = some current)
    (at_ : world.scheduler.processes[current]? = some process)
    (run : entered.schedule (Request.enteredFrame trap) timer remaining =
      some (world', trap', rest)) :
    ∃ saved processes used, Rescheduled world trap faultAddress readings current process world' trap'
      saved processes used := by
  obtain ⟨scheduler, kept, state, suffix⟩ := isEntered
  have isCurrent' : entered.scheduler.current = some current := by
    rw [scheduler]
    exact isCurrent
  have at_' : entered.scheduler.processes[current]? = some (change process) := by
    simp [scheduler, at_]
  obtain ⟨used, context, split, scheduled, saves⟩ := World.schedule_scheduled isCurrent' at_' run
  refine ⟨{ change process with context },
    entered.scheduler.processes.modify current ({ · with context }), used, ?_, ?_, ?_, saves⟩
  · intro ticks mem
    apply suffix
    rw [split]
    exact List.mem_append_left _ mem
  · refine ⟨?_, ?_, ?_, (kept process).1, (kept process).2.1, state process⟩
    · simp [scheduler]
    · intro index other
      simp [scheduler, other.symm]
    · simp [at_']
  · refine scheduled.congr ?_ ?_ ?_
    all_goals rw [scheduler]

/-- The counter of system calls. -/
def countSyscall (process : Process) : Process :=
  { process with syscalls := saturatingAdd process.syscalls 1 }

theorem handled_of_handleSyscall {counted : World} (machine : counted.machine = world.machine)
    (isCounted : counted.scheduler =
      { world.scheduler with processes := world.scheduler.processes.modify current countSyscall })
    (notTimer : trap.frame.vector.toUInt8 ≠ timerVector)
    (isSyscall : trap.frame.vector.toUInt8 = userSyscallVector)
    (run : counted.handleSyscall trap current process readings = some (world', trap', rest)) :
    Handled world trap faultAddress readings current world' trap' := by
  have answered : Answered world current counted := ⟨⟨_, isCounted⟩, machine⟩
  have updated (state : ProcessState) : (counted.setState current state).scheduler =
      { world.scheduler with
        processes := world.scheduler.processes.modify current fun process =>
          { countSyscall process with state } } := by
    simp only [World.setState, SchedulerState.setState, isCounted, List.modify_modify_eq]
    rfl
  have request : Request.ofTrap trap = _ := (if_neg notTimer).trans (if_pos isSyscall)
  unfold World.handleSyscall at run
  split at run
  · rename_i isExit
    rw [if_pos isExit] at request
    refine .enters (by rw [request]; rfl) ⟨updated _, fun _ => ⟨rfl, rfl, rfl⟩, fun process => ?_,
      List.Subset.refl _⟩ (by rwa [Request.enteredFrame, request])
    rw [Request.stateAfter, request]
  rename_i notExit
  rw [if_neg notExit] at request
  split at run
  · rename_i isYield
    rw [if_pos isYield] at request
    refine .enters (by rw [request]; rfl) ⟨isCounted, fun _ => ⟨rfl, rfl, rfl⟩, fun process => ?_,
      List.Subset.refl _⟩ (by rwa [Request.enteredFrame, request])
    rw [Request.stateAfter, request]
    rfl
  rename_i notYield
  rw [if_neg notYield] at request
  split at run
  · rename_i isGetpid
    rw [if_pos isGetpid] at request
    cases run
    exact .answered (by rw [request]; rfl) answered
  rename_i notGetpid
  rw [if_neg notGetpid] at request
  split at run
  · rename_i isGetticks
    rw [if_pos isGetticks] at request
    cases readings with
    | nil => cases run
    | cons ticks readings =>
      cases run
      exact .answered (by rw [request]; rfl) answered
  rename_i notGetticks
  rw [if_neg notGetticks] at request
  split at run
  · rename_i isSleep
    rw [if_pos isSleep] at request
    cases readings with
    | nil => cases run
    | cons ticks readings =>
      refine .enters (by rw [request]; rfl) ⟨updated _, fun _ => ⟨rfl, rfl, rfl⟩, fun process => ?_,
        List.subset_cons_self _ _⟩ (by rwa [Request.enteredFrame, request])
      rw [Request.stateAfter, request]
      rfl
  · rename_i notSleep
    rw [if_neg notSleep] at request
    cases run
    exact .answered (by rw [request]; rfl) answered

theorem handled_of_handleUserTrap (active : world.scheduler.active = true)
    (isCurrent : world.scheduler.current = some current)
    (run : world.handleUserTrap trap faultAddress readings = some (handled, world', trap', rest)) :
    Handled world trap faultAddress readings current world' trap' := by
  simp only [World.handleUserTrap, active, isCurrent, Bool.not_true, Bool.false_eq_true,
    if_false] at run
  have kept : world.scheduler =
      { world.scheduler with
        processes := world.scheduler.processes.modify current fun process => process } :=
    congrArg (fun processes => { world.scheduler with processes }) (List.modify_id _ _).symm
  split at run
  · rename_i isTimer
    have request : Request.ofTrap trap = .timer := if_pos isTimer
    obtain ⟨result, ran, same⟩ := Option.map_eq_some_iff.mp run
    cases same
    refine .enters (by rw [request]; rfl) ⟨kept, fun _ => ⟨rfl, rfl, rfl⟩, fun process => ?_,
      List.Subset.refl _⟩ (by rwa [Request.enteredFrame, request])
    rw [Request.stateAfter, request]
  rename_i notTimer
  split at run
  · rename_i isSyscall
    split at run
    · cases run
    obtain ⟨result, ran, same⟩ := Option.map_eq_some_iff.mp run
    cases same
    refine handled_of_handleSyscall ?_ ?_ notTimer isSyscall ran
    · rfl
    · simp only [active, isCurrent]
      rfl
  rename_i notSyscall
  split at run
  · rename_i isFault
    have request : Request.ofTrap trap = .fault trap.frame.vector.toUInt8 := by
      rw [Request.ofTrap, if_neg notTimer, if_neg notSyscall, if_pos isFault]
    obtain ⟨result, ran, same⟩ := Option.map_eq_some_iff.mp run
    cases same
    have updated : (world.setState current (.faulted trap.frame.vector.toUInt8 faultAddress
        trap.frame.errorCode)).scheduler =
        { world.scheduler with
          processes := world.scheduler.processes.modify current fun process =>
            { process with
              state := .faulted trap.frame.vector.toUInt8 faultAddress trap.frame.errorCode } } := rfl
    refine .enters (by rw [request]; rfl) ⟨updated, fun _ => ⟨rfl, rfl, rfl⟩, fun process => ?_,
      List.Subset.refl _⟩ (by rwa [Request.enteredFrame, request])
    rw [Request.stateAfter, request]
  · rename_i isForeign
    have request : Request.ofTrap trap = .foreign := by
      rw [Request.ofTrap, if_neg notTimer, if_neg notSyscall, if_neg isForeign]
    cases run
    exact .answered (by rw [request]; rfl) ⟨⟨Process.syscalls, kept⟩, rfl⟩

theorem handleUserTrap_cases (active : world.scheduler.active = true)
    (isCurrent : world.scheduler.current = some current)
    (at_ : world.scheduler.processes[current]? = some process)
    (run : world.handleUserTrap trap faultAddress readings = some (handled, world', trap', rest)) :
    ((Request.ofTrap trap).schedules = false ∧ Answered world current world') ∨
      ((Request.ofTrap trap).schedules = true ∧
        ∃ saved processes used, Rescheduled world trap faultAddress readings current process world'
          trap' saved processes used) := by
  cases handled_of_handleUserTrap active isCurrent run with
  | answered inPlace answered => exact .inl ⟨inPlace, answered⟩
  | enters schedules isEntered run =>
    exact .inr ⟨schedules, isEntered.rescheduled isCurrent at_ run⟩

end

end CodexOS.Scheduler
