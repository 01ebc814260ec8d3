import CodexOS.Scheduler.Runs

/-! # How long a process waits

The search for the next process starts behind the one that runs. As long as a process is
runnable, every dispatch of another one lies between the running process and it, so each
of them brings the running process closer.
-/

namespace CodexOS.Scheduler

open Word64

section

variable {current next index : Nat} {processes entered : List Process} {used : List Nat}

/-- Only the process at `current` differs, and not in how often it was dispatched. -/
structure Touched (current : Nat) (processes processes' : List Process) : Prop where
  length : processes'.length = processes.length
  others : ∀ index, index ≠ current → processes'[index]? = processes[index]?
  dispatches : processes'.map Process.dispatches = processes.map Process.dispatches

theorem Touched.refl (current : Nat) (processes : List Process) :
    Touched current processes processes :=
  ⟨rfl, fun _ _ => rfl, rfl⟩

theorem Touched.modify (touched : Touched current processes entered)
    (keeps : ∀ process, (change process).dispatches = process.dispatches) :
    Touched current processes (entered.modify current change) := by
  refine ⟨by rw [List.length_modify, touched.length], fun index other => ?_, ?_⟩
  · rw [← touched.others index other]
    simp [Ne.symm other]
  · rw [← touched.dispatches]
    refine List.ext_getElem? fun index => ?_
    simp only [List.getElem?_map, List.getElem?_modify]
    cases entered[index]? with
    | none => rfl
    | some process =>
      by_cases same : current = index
      · simp [same, keeps]
      · simp [same]

def countDispatched (process : Process) : Process :=
  { process with dispatches := saturatingAdd process.dispatches 1 }

/-- How `schedule` ends when it finds these processes: it goes back to the kernel, or it dispatches
    the next process that is runnable by then. -/
inductive Picks (current : Nat) (entered : List Process) (world' : World) : Prop
  | stops (used : List Nat)
      (processes : world'.scheduler.processes = entered.map (·.wakeAll used))
      (inactive : world'.scheduler.active = false)
  | dispatches (used : List Nat) (next : Nat) (scheduler : SchedulerState)
      (scanned : scheduler.processes = entered.map (·.wakeAll used))
      (found : scheduler.nextRunnable current = some next)
      (processes : world'.scheduler.processes = scheduler.processes.modify next countDispatched)
      (ending : world'.scheduler.current = some next ∨ world'.scheduler.active = false)

namespace World

variable {world world' : World} {trap trap' : UserFrame} {readings rest : List Nat} {timer : Bool}
  {process : Process}

theorem returnToKernel_idleHalts (world : World) (trap : UserFrame) :
    (world.returnToKernel trap).1.scheduler.idleHalts = world.scheduler.idleHalts := by
  simp only [returnToKernel, switchRoot]
  split <;> rfl

theorem install_cases (world : World) (trap : UserFrame) (process : Process) :
    (world.install trap process).1.scheduler.processes = world.scheduler.processes ∧
      ((world.install trap process).1.scheduler.current = world.scheduler.current ∨
        (world.install trap process).1.scheduler.active = false) ∧
      (world.install trap process).1.scheduler.idleHalts = world.scheduler.idleHalts := by
  unfold install switchRoot setPrivilegeStack
  split
  · exact ⟨(returnToKernel_processes _ trap).1, .inr rfl, returnToKernel_idleHalts _ trap⟩
  · rename_i switched isSwitched
    split at isSwitched
    · cases isSwitched
    cases isSwitched
    split
    · exact ⟨(returnToKernel_processes _ trap).1, .inr rfl, returnToKernel_idleHalts _ trap⟩
    · rename_i installed isInstalled
      split at isInstalled
      · cases isInstalled
      cases isInstalled
      split
      · rename_i trap' _
        exact ⟨(returnToKernel_processes _ trap').1, .inr rfl, returnToKernel_idleHalts _ trap'⟩
      · exact ⟨rfl, .inl rfl, rfl⟩

theorem scheduleNext_picks
    (run : world.scheduleNext trap timer current readings = some (world', trap', rest)) :
    Picks current world.scheduler.processes world' := by
  cases readings with
  | nil => cases run
  | cons ticks readings =>
    simp only [scheduleNext] at run
    split at run
    · cases run
      refine .stops [ticks] ?_ rfl
      rw [(returnToKernel_processes _ trap).1]
      rfl
    · rename_i switched isSwitched
      split at run
      · cases run
      · rename_i idled rest' ended
        obtain ⟨used, rfl, result, -⟩ := SchedulerState.idle_spec ended
        have mapped : idled.processes =
            world.scheduler.processes.map (·.wakeAll (ticks :: used)) := by
          rw [result]
          simp only [SchedulerState.wakeSleepers, List.map_map]
          rfl
        split at run
        · cases run
          refine .stops (ticks :: used) ?_ rfl
          rw [(returnToKernel_processes _ trap).1]
          exact mapped
        · rename_i next process found
          cases run
          obtain ⟨next', isNext, at_⟩ := Option.bind_eq_some_iff.mp found
          obtain ⟨process', -, same⟩ := Option.map_eq_some_iff.mp at_
          cases same
          have counted := countDispatch_scheduler { switched with scheduler := idled } timer
            current next
          obtain ⟨same, ending, -⟩ := install_cases
            ({ switched with scheduler := idled }.countDispatch timer current next) trap process
          refine .dispatches (ticks :: used) next idled mapped isNext ?_ ?_
          · rw [same, counted]
            rfl
          · rw [counted] at ending
            exact ending

/-- The trap entered `schedule`, which found these processes. -/
def Reenters (current : Nat) (processes : List Process) (world' : World) : Prop :=
  current < processes.length ∧
    ∃ entered, Touched current processes entered ∧ Picks current entered world'

theorem schedule_reenters
    (run : world.schedule trap timer readings = some (world', trap', rest))
    (isCurrent : world.scheduler.current = some current)
    (touched : Touched current processes world.scheduler.processes) :
    Reenters current processes world' := by
  have saved (run : world.scheduleSaved trap timer current readings = some (world', trap', rest)) :
      ∃ entered, Touched current processes entered ∧ Picks current entered world' := by
    unfold scheduleSaved at run
    split at run
    · cases run
      refine ⟨_, touched, .stops [] ?_ rfl⟩
      exact (returnToKernel_processes (world.recordFailure .missingUserStack) trap).1.trans
        (List.map_id _).symm
    · rename_i context _
      have saves : ∀ process : Process, { process with context }.dispatches = process.dispatches :=
        fun _ => rfl
      exact ⟨_, touched.modify saves, scheduleNext_picks run⟩
  simp only [schedule, isCurrent] at run
  split at run
  · cases run
  · rename_i process at_
    refine ⟨touched.length ▸ (List.getElem?_eq_some_iff.mp at_).1, ?_⟩
    split at run
    · exact saved run
    · exact saved run
    · exact ⟨_, touched, scheduleNext_picks run⟩

/-- A request answered in place leaves the choice of the running process alone. -/
structure Stays (world world' : World) (current : Nat) : Prop where
  touched : Touched current world.scheduler.processes world'.scheduler.processes
  active : world'.scheduler.active = world.scheduler.active
  current : world'.scheduler.current = world.scheduler.current

theorem handleUserTrap_reenters (active : world.scheduler.active = true)
    (isCurrent : world.scheduler.current = some current)
    (run : world.handleUserTrap trap faultAddress readings = some (handled, world', trap', rest)) :
    ((Request.ofTrap trap).schedules = false ∧ Stays world world' current) ∨
      ((Request.ofTrap trap).schedules = true ∧
        Reenters current world.scheduler.processes world') := by
  have untouched := Touched.refl current world.scheduler.processes
  cases handled_of_handleUserTrap active isCurrent run with
  | answered inPlace answered =>
    obtain ⟨⟨count, same⟩, -⟩ := answered
    refine .inl ⟨inPlace, ?_, ?_, ?_⟩
    · rw [same]
      exact untouched.modify fun _ => rfl
    · rw [same]
    · rw [same]
  | enters schedules isEntered run =>
    refine .inr ⟨schedules, schedule_reenters run ?_ ?_⟩
    · rw [isEntered.scheduler]
      exact isCurrent
    · rw [isEntered.scheduler]
      exact untouched.modify fun process => (isEntered.kept process).2.2

end World

end

section

/-- How far `index` lies behind `current`, going round. -/
def gap (n current index : Nat) : Nat :=
  if current < index then index - current else index + n - current

variable {n current next index offset : Nat}

theorem add_mod_round (inRange : current < n) (round : offset ≤ n) :
    (current + offset) % n = if current + offset < n then current + offset
      else current + offset - n := by
  split
  · rename_i short
    exact Nat.mod_eq_of_lt short
  · rename_i long
    rw [Nat.mod_eq_sub_mod (Nat.le_of_not_lt long), Nat.mod_eq_of_lt (by omega)]

theorem gap_bounds (inRange : current < n) (inRange' : index < n) (other : current ≠ index) :
    0 < gap n current index ∧ gap n current index < n ∧
      (current + gap n current index) % n = index := by
  have bounds : 0 < gap n current index ∧ gap n current index < n := by
    unfold gap
    split <;> omega
  refine ⟨bounds.1, bounds.2, ?_⟩
  rw [add_mod_round inRange (by omega)]
  unfold gap
  split <;> split <;> omega

theorem gap_add (inRange : current < n) (inRange' : index < n) (other : current ≠ index)
    (short : offset < gap n current index) :
    gap n ((current + offset) % n) index + offset = gap n current index := by
  have bounds := gap_bounds inRange inRange' other
  rw [add_mod_round inRange (by omega)]
  unfold gap at *
  split at short <;> split <;> split <;> omega

/-- The search does not pass a process that is runnable. -/
theorem nextRunnable_gap {scheduler : SchedulerState} {process : Process}
    (inRange : current < scheduler.processes.length)
    (at_ : scheduler.processes[index]? = some process) (runnable : process.state = .runnable)
    (other : current ≠ index) (found : scheduler.nextRunnable current = some next) :
    next < scheduler.processes.length ∧ (next ≠ index →
      gap scheduler.processes.length next index < gap scheduler.processes.length current index) := by
  have inRange' : index < scheduler.processes.length := (List.getElem?_eq_some_iff.mp at_).1
  obtain ⟨positive, below, reaches⟩ := gap_bounds inRange inRange' other
  obtain ⟨-, i, inside, isNext, passed⟩ := List.find?_eq_some_iff_getElem.mp found
  simp only [List.length_map, List.length_range] at inside
  simp only [List.getElem_map, List.getElem_range] at isNext passed
  -- the place of `index` in the search comes first, unless it is found before
  have early : i + 1 ≤ gap scheduler.processes.length current index := by
    by_contra late
    have skipped := passed (gap scheduler.processes.length current index - 1) (by omega)
    rw [Nat.sub_add_cancel positive, reaches, at_, Option.any_some] at skipped
    simp [runnable] at skipped
  refine ⟨?_, fun different => ?_⟩
  · rw [← isNext]
    exact Nat.mod_lt _ (Nat.zero_lt_of_lt inRange)
  · have short : i + 1 < gap scheduler.processes.length current index := by
      refine lt_of_le_of_ne early fun same => different ?_
      rw [← isNext, same, reaches]
    have closer := gap_add inRange inRange' other short
    rw [← isNext]
    omega

end

section

/-- The process at `index` may run. -/
def World.RunnableAt (world : World) (index : Nat) : Prop :=
  ∃ process, world.scheduler.processes[index]? = some process ∧ process.state = .runnable

/-- The trap comes from a running process and enters `schedule`. -/
def World.entersSchedule (world : World) (trap : UserFrame) : Bool :=
  world.scheduler.active && world.scheduler.current.isSome && (Request.ofTrap trap).schedules

/-- All dispatches so far. -/
def World.dispatchTotal (world : World) : Nat :=
  (world.scheduler.processes.map Process.dispatches).sum

/-- Any sequence of traps that does not make the scheduler resume `index`; `count` of them enter
    `schedule`, which makes at most one dispatch each time. -/
inductive Passed (index : Nat) : World → Nat → World → Prop
  | none {world : World} : Passed index world 0 world
  | more {world world' world'' : World} {count : Nat} {trap trap' : UserFrame}
      {faultAddress : UInt64} {readings rest : List Nat} {handled : Bool} :
      Passed index world count world' →
      world'.handleUserTrap trap faultAddress readings = some (handled, world'', trap', rest) →
      ¬Resumes world' trap world'' index →
      Passed index world (count + if world'.entersSchedule trap then 1 else 0) world''

variable {current index n count : Nat} {processes entered : List Process} {used : List Nat}
  {world world' : World} {trap trap' : UserFrame} {readings rest : List Nat}

theorem Process.wakeAll_of_runnable {process : Process} (runnable : process.state = .runnable) :
    process.wakeAll used = process := by
  obtain same | ⟨_, sleeping, _⟩ := process.wakeAll_cases used
  · exact same
  · rw [runnable] at sleeping
    cases sleeping

theorem map_wakeAll_dispatches :
    (processes.map (·.wakeAll used)).map Process.dispatches =
      processes.map Process.dispatches := by
  rw [List.map_map]
  refine List.map_congr_left fun process _ => ?_
  rw [Function.comp_apply, Process.wakeAll_eq]

theorem sum_modify_countDispatched (next : Nat) :
    ((processes.modify next countDispatched).map Process.dispatches).sum ≤
      (processes.map Process.dispatches).sum + 1 := by
  induction processes generalizing next with
  | nil => simp
  | cons process rest ih =>
    cases next with
    | zero =>
      have counted : (countDispatched process).dispatches ≤ process.dispatches + 1 :=
        Nat.min_le_left _ _
      simp only [List.modify_zero_cons, List.map_cons, List.sum_cons]
      omega
    | succ next =>
      have := ih next
      simp only [List.modify_succ_cons, List.map_cons, List.sum_cons]
      omega

theorem Touched.runnable {process : Process} (touched : Touched current processes entered)
    (other : current ≠ index) (at_ : processes[index]? = some process)
    (runnable : process.state = .runnable) :
    (entered.map (·.wakeAll used))[index]? = some process := by
  rw [List.getElem?_map, touched.others index other.symm, at_, Option.map_some,
    Process.wakeAll_of_runnable runnable]

/-- `schedule` keeps all processes and counts at most one dispatch. -/
theorem Picks.outcome (picks : Picks current entered world')
    (touched : Touched current processes entered) :
    world'.scheduler.processes.length = processes.length ∧
      (world'.scheduler.processes.map Process.dispatches).sum ≤
        (processes.map Process.dispatches).sum + 1 := by
  cases picks with
  | stops used same inactive =>
    rw [same, List.length_map, map_wakeAll_dispatches, touched.length, touched.dispatches]
    exact ⟨rfl, Nat.le_succ _⟩
  | dispatches used next scheduler scanned found same ending =>
    rw [same, scanned, List.length_modify, List.length_map, touched.length]
    refine ⟨rfl, Nat.le_trans (sum_modify_countDispatched next) ?_⟩
    rw [map_wakeAll_dispatches, touched.dispatches]

theorem Picks.runnableAt (picks : Picks current entered world')
    (touched : Touched current processes entered) (other : current ≠ index)
    (at_ : processes[index]? = some process) (runnable : process.state = .runnable) :
    world'.RunnableAt index := by
  cases picks with
  | stops used same inactive =>
    exact ⟨process, same ▸ touched.runnable other at_ runnable, runnable⟩
  | dispatches used next scheduler scanned found same ending =>
    have still : scheduler.processes[index]? = some process :=
      scanned ▸ touched.runnable other at_ runnable
    unfold World.RunnableAt
    rw [same, List.getElem?_modify, still]
    by_cases counted : next = index
    · exact ⟨countDispatched process, by simp [counted], runnable⟩
    · exact ⟨process, by simp [counted], runnable⟩

/-- What runs next lies closer before `index`, unless it is `index`. -/
theorem Picks.closer {process : Process} (picks : Picks current entered world')
    (touched : Touched current processes entered) (inRange : current < processes.length)
    (other : current ≠ index) (at_ : processes[index]? = some process)
    (runnable : process.state = .runnable) (active : world'.scheduler.active = true) :
    ∃ next, world'.scheduler.current = some next ∧ (next ≠ index →
      gap processes.length next index < gap processes.length current index) := by
  cases picks with
  | stops used same inactive =>
    rw [inactive] at active
    cases active
  | dispatches used next scheduler scanned found same ending =>
    obtain isNext | inactive := ending
    · have long : scheduler.processes.length = processes.length := by
        rw [scanned, List.length_map, touched.length]
      have still : scheduler.processes[index]? = some process :=
        scanned ▸ touched.runnable other at_ runnable
      have closer := (nextRunnable_gap (long ▸ inRange) still runnable other found).2
      rw [long] at closer
      exact ⟨next, isNext, closer⟩
    · rw [inactive] at active
      cases active

/-- What holds while the process at `index` waits: every dispatch so far has brought the running
    process closer to it. -/
structure Waits (index n count : Nat) (world : World) : Prop where
  runnable : world.RunnableAt index
  length : world.scheduler.processes.length = n
  count_le : count ≤ n - 1
  gap_le : world.scheduler.active = true → ∀ current, world.scheduler.current = some current →
    current ≠ index ∧ (current < n → count + gap n current index ≤ n - 1)

theorem Waits.initially (runnable : world.RunnableAt index)
    (waiting : world.scheduler.current ≠ some index) :
    Waits index world.scheduler.processes.length 0 world := by
  refine ⟨runnable, rfl, Nat.zero_le _, fun _ current isCurrent => ?_⟩
  have other : current ≠ index := fun same => waiting (same ▸ isCurrent)
  obtain ⟨process, at_, -⟩ := runnable
  refine ⟨other, fun inRange => ?_⟩
  have := gap_bounds inRange (List.getElem?_eq_some_iff.mp at_).1 other
  omega

theorem Waits.stays (waits : Waits index n count world) (stays : World.Stays world world' current)
    (other : current ≠ index) : Waits index n count world' where
  runnable := by
    obtain ⟨process, at_, runnable⟩ := waits.runnable
    exact ⟨process, (stays.touched.others index other.symm).trans at_, runnable⟩
  length := stays.touched.length.trans waits.length
  count_le := waits.count_le
  gap_le := by
    rw [stays.active, stays.current]
    exact waits.gap_le

theorem Waits.reenters (waits : Waits index n count world)
    (active : world.scheduler.active = true) (isCurrent : world.scheduler.current = some current)
    (reenters : World.Reenters current world.scheduler.processes world')
    (passes : world'.scheduler.active = true → world'.scheduler.current ≠ some index) :
    Waits index n (count + 1) world' := by
  obtain ⟨inRange, entered, touched, picks⟩ := reenters
  obtain ⟨other, near⟩ := waits.gap_le active current isCurrent
  have near := near (waits.length ▸ inRange)
  obtain ⟨process, at_, runnable⟩ := waits.runnable
  have positive := (gap_bounds inRange (List.getElem?_eq_some_iff.mp at_).1 other).1
  rw [waits.length] at positive
  refine ⟨picks.runnableAt touched other at_ runnable, (picks.outcome touched).1.trans waits.length,
    by omega, fun active' next isNext => ?_⟩
  obtain ⟨next', isNext', closer⟩ := picks.closer touched inRange other at_ runnable active'
  cases isNext.symm.trans isNext'
  have different : next ≠ index := fun same => passes active' (same ▸ isNext)
  have closer := closer different
  rw [waits.length] at closer
  exact ⟨different, fun _ => by omega⟩

theorem World.handleUserTrap_idle
    (run : world.handleUserTrap trap faultAddress readings = some (handled, world', trap', rest))
    (idle : world.scheduler.active = false ∨ world.scheduler.current = none) : world' = world := by
  unfold handleUserTrap at run
  obtain inactive | absent := idle
  · simp only [inactive, Bool.not_false, if_true] at run
    cases run
    rfl
  · simp only [absent] at run
    split at run <;> cases run <;> rfl

theorem Waits.step (waits : Waits index n count world)
    (run : world.handleUserTrap trap faultAddress readings = some (handled, world', trap', rest))
    (passes : ¬Resumes world trap world' index) :
    Waits index n (count + if world.entersSchedule trap then 1 else 0) world' ∧
      world'.dispatchTotal ≤ world.dispatchTotal + if world.entersSchedule trap then 1 else 0 := by
  cases active : world.scheduler.active with
  | false =>
    rw [World.handleUserTrap_idle run (.inl active)]
    simp only [World.entersSchedule, active, Bool.false_and, Bool.false_eq_true, if_false]
    exact ⟨waits, Nat.le_refl _⟩
  | true =>
    cases isCurrent : world.scheduler.current with
    | none =>
      rw [World.handleUserTrap_idle run (.inr isCurrent)]
      simp only [World.entersSchedule, isCurrent, Option.isSome_none, Bool.and_false,
        Bool.false_and, Bool.false_eq_true, if_false]
      exact ⟨waits, Nat.le_refl _⟩
    | some current =>
      have enters : world.entersSchedule trap = (Request.ofTrap trap).schedules := by
        simp only [World.entersSchedule, active, isCurrent, Option.isSome_some, Bool.true_and]
      rw [enters]
      obtain ⟨inPlace, stays⟩ | ⟨schedules, reenters⟩ :=
        World.handleUserTrap_reenters active isCurrent run
      · rw [inPlace]
        refine ⟨waits.stays stays (waits.gap_le active current isCurrent).1, ?_⟩
        unfold World.dispatchTotal
        rw [stays.touched.dispatches]
        exact Nat.le_refl _
      · rw [schedules]
        refine ⟨waits.reenters active isCurrent reenters fun active' isIndex =>
          passes ⟨active, schedules, active', isIndex⟩, ?_⟩
        obtain ⟨-, entered, touched, picks⟩ := reenters
        exact (picks.outcome touched).2

theorem Passed.waits (passed : Passed index world count world')
    (runnable : world.RunnableAt index) (waiting : world.scheduler.current ≠ some index) :
    Waits index world.scheduler.processes.length count world' ∧
      world'.dispatchTotal ≤ world.dispatchTotal + count := by
  induction passed with
  | none => exact ⟨.initially runnable waiting, Nat.le_refl _⟩
  | more _ run passes ih =>
    obtain ⟨waits, total⟩ := ih
    obtain ⟨waits', total'⟩ := waits.step run passes
    exact ⟨waits', by omega⟩

/-- A process that is runnable and does not run is resumed before `n` dispatches of others: as long
    as no trap resumes it, whatever the others do, `schedule` was entered at most `n - 1` times, it
    has counted at most `n - 1` dispatches, and the process is still runnable. -/
theorem bounded_bypass (passed : Passed index world count world')
    (runnable : world.RunnableAt index) (waiting : world.scheduler.current ≠ some index) :
    count ≤ world.scheduler.processes.length - 1 ∧
      world'.dispatchTotal ≤ world.dispatchTotal + (world.scheduler.processes.length - 1) ∧
      world'.RunnableAt index := by
  obtain ⟨waits, total⟩ := passed.waits runnable waiting
  have := waits.count_le
  exact ⟨this, by omega, waits.runnable⟩

end

/-- The first of three processes runs. -/
def crowdedWorld : World :=
  (World.enter sampleMachine ((samplePrograms ++ samplePrograms.take 1).map Program.load)).getD
    sampleWorld

/-- The timer gives the processor to the second process, and the third one waits. -/
theorem bounded_bypass_third :
    ∃ world', Passed 2 crowdedWorld 1 world' ∧ 1 ≤ crowdedWorld.scheduler.processes.length - 1 ∧
      world'.dispatchTotal ≤ crowdedWorld.dispatchTotal + 2 ∧ world'.RunnableAt 2 := by
  obtain ⟨world', trap', step, active, isCurrent⟩ :=
    of_observe (show (crowdedWorld.handleUserTrap (sampleTrap 32 5 9) 0 [3]).map observe =
      some (true, true, some 1, []) by decide +kernel)
  have passes : ¬Resumes crowdedWorld (sampleTrap 32 5 9) world' 2 := fun resumes => by
    cases isCurrent.symm.trans resumes.2.2.2
  have enters : crowdedWorld.entersSchedule (sampleTrap 32 5 9) = true := by decide +kernel
  have passed := (Passed.none : Passed 2 crowdedWorld 0 crowdedWorld).more step passes
  rw [enters, if_pos rfl] at passed
  have runnable : crowdedWorld.RunnableAt 2 := ⟨_, rfl, by decide +kernel⟩
  exact ⟨world', passed, bounded_bypass passed runnable (by decide +kernel)⟩

end CodexOS.Scheduler
