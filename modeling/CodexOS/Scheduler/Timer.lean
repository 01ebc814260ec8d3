import CodexOS.Scheduler.Fairness

/-! # Timer traps

The tick of a timer trap is recorded, and its end signalled, only after the trap was
handled. The handler must not wait for another tick.
-/

namespace CodexOS.Scheduler

theorem idle_of_runnable {scheduler : SchedulerState}
    (found : scheduler.nextRunnable current = some next) (readings : List Nat) :
    scheduler.idle current readings = some (scheduler, readings) := by
  cases readings <;> simp [SchedulerState.idle, found]

/-- A process that is runnable is found, if only after all others. -/
theorem exists_nextRunnable {scheduler : SchedulerState} {process : Process}
    (at_ : scheduler.processes[current]? = some process) (runnable : process.state = .runnable) :
    ∃ next, scheduler.nextRunnable current = some next := by
  have inRange := (List.getElem?_eq_some_iff.mp at_).1
  cases found : scheduler.nextRunnable current with
  | some next => exact ⟨next, rfl⟩
  | none =>
    exact absurd runnable (SchedulerState.not_runnable_of_nextRunnable inRange found at_)

section

variable {machine : Machine} {programs : List Program} {history : List TrapRecord} {world : World}
  {ticks next : Nat}

/-- With a process to run, `schedule` reads the clock once and does not halt. -/
theorem scheduleNext_of_runnable (world : World) (trap : UserFrame) (rest : List Nat)
    (found : (world.scheduler.wakeSleepers ticks).nextRunnable current = some next) (timer : Bool) :
    ∃ world' trap', world.scheduleNext trap timer current (ticks :: rest) =
        some (world', trap', rest) ∧
      world'.scheduler.idleHalts = world.scheduler.idleHalts := by
  obtain ⟨process, at_, -⟩ := SchedulerState.of_nextRunnable found
  have scheduled : world.scheduleNext trap timer current (ticks :: rest) =
      let installed := (World.countDispatch { world with
        scheduler := world.scheduler.wakeSleepers ticks } timer current next).install trap process
      some (installed.1, installed.2, rest) := by
    simp only [World.scheduleNext, found, Option.isNone_some, Bool.false_eq_true, false_and,
      if_false, idle_of_runnable found, Option.bind_some, at_, Option.map_some]
  obtain ⟨-, -, same⟩ := World.install_cases (World.countDispatch { world with
    scheduler := world.scheduler.wakeSleepers ticks } timer current next) trap process
  refine ⟨_, _, scheduled, same.trans ?_⟩
  rw [World.countDispatch_scheduler]
  rfl

/-- The scheduler as `schedule` has it after its first scan. -/
def SchedulerState.scanned (scheduler : SchedulerState) (current : Nat) (context : UserContext)
    (ticks : Nat) : SchedulerState :=
  { scheduler with
    processes := scheduler.processes.modify current ({ · with context }) }.wakeSleepers ticks

/-- While user code runs, its process is runnable. A timer trap then finds a process to run, and
    returns after one reading of the clock and no halt. -/
theorem timer_trap_never_idles (run : Run machine programs history world)
    (active : world.scheduler.active = true) :
    ∃ current process, world.scheduler.current = some current ∧
      world.scheduler.processes[current]? = some process ∧ process.state = .runnable ∧
      ∀ trap context faultAddress ticks rest, Request.ofTrap trap = .timer →
        UserContext.capture trap = some context →
        ((world.scheduler.scanned current context ticks).nextRunnable current).isSome ∧
        ∃ world' trap', world.handleUserTrap trap faultAddress (ticks :: rest) =
            some (true, world', trap', rest) ∧
          world'.scheduler.idleHalts = world.scheduler.idleHalts := by
  obtain ⟨current, process, isCurrent, at_, runnable⟩ := run.invariant.running active
  refine ⟨current, process, isCurrent, at_, runnable, ?_⟩
  intro trap context faultAddress ticks rest isTimer captured
  have isVector : trap.frame.vector.toUInt8 = timerVector := by
    by_contra other
    simp only [Request.ofTrap, if_neg other] at isTimer
    split_ifs at isTimer
  have still : (world.scheduler.scanned current context ticks).processes[current]? =
      some { process with context } := by
    simp [SchedulerState.scanned, SchedulerState.wakeSleepers, at_, Process.wake, runnable]
  obtain ⟨next, found⟩ := exists_nextRunnable still runnable
  refine ⟨by rw [found]; rfl, ?_⟩
  obtain ⟨chosen, isChosen, -⟩ := SchedulerState.of_nextRunnable found
  have run : world.handleUserTrap trap faultAddress (ticks :: rest) =
      (world.scheduleSaved trap true current (ticks :: rest)).map (true, ·) := by
    simp only [World.handleUserTrap, active, isCurrent, isVector, World.schedule, at_, runnable,
      Bool.not_true, Bool.false_eq_true, if_false, if_true]
  obtain ⟨world', trap', scheduled, halts⟩ := scheduleNext_of_runnable
    { world with scheduler := { world.scheduler with
      processes := world.scheduler.processes.modify current ({ · with context }) } } trap rest found
    true
  refine ⟨world', trap', ?_, halts⟩
  simp only [run, World.scheduleSaved, captured, scheduled, Option.map_some]

theorem timer_trap_never_idles_sample :
    ∃ world' trap', sampleWorld.handleUserTrap (sampleTrap 32 5 9) 0 [3] =
        some (true, world', trap', []) ∧ world'.scheduler.idleHalts = 0 := by
  obtain ⟨_, _, -, -, -, never⟩ := timer_trap_never_idles sampleWorld_run (by decide +kernel)
  obtain ⟨-, world', trap', handled, halts⟩ := never (sampleTrap 32 5 9)
    (contextOf (sampleTrap 32 5 9)) 0 3 [] (by decide +kernel) (by decide +kernel)
  exact ⟨world', trap', handled, halts.trans (by decide +kernel)⟩

end

end CodexOS.Scheduler
