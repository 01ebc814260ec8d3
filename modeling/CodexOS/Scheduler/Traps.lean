import CodexOS.Lib.Word64
import Mathlib.Algebra.GroupWithZero.Nat
import Mathlib.Data.List.Basic

/-! # The process scheduler

Every trap from user mode arrives as a frame on the kernel stack. The handler
either answers it in place or overwrites the frame with the context of another
process. The tick counter is read several times in one trap: its readings are an
input, and a trap that needs more of them than there are has not returned yet.
-/

namespace CodexOS.Scheduler

open Word64

def timerVector : UInt8 := 32
def userSyscallVector : UInt8 := 0x80
def kernelCodeSelector : UInt64 := 0x08
def userDataSelector : UInt64 := 0x2b
def userCodeSelector : UInt64 := 0x33
def kernelStackBytes : UInt64 := 64 * 1024

namespace Syscall

def exit : UInt64 := 2
def yield : UInt64 := 3
def getpid : UInt64 := 4
def getticks : UInt64 := 5
def sleep : UInt64 := 6

end Syscall

/-- `(-38_i64) as u64`. -/
def errNotImplemented : UInt64 := 0 - 38

structure TrapFrame where
  r15 : UInt64
  r14 : UInt64
  r13 : UInt64
  r12 : UInt64
  r11 : UInt64
  r10 : UInt64
  r9 : UInt64
  r8 : UInt64
  rbp : UInt64
  rdi : UInt64
  rsi : UInt64
  rdx : UInt64
  rcx : UInt64
  rbx : UInt64
  rax : UInt64
  vector : UInt64
  errorCode : UInt64
  rip : UInt64
  cs : UInt64
  rflags : UInt64
  deriving DecidableEq

/-- A trap frame with the two words the processor pushed above it. -/
structure UserFrame where
  frame : TrapFrame
  userRsp : UInt64
  userSs : UInt64
  deriving DecidableEq

def userStack (trap : UserFrame) : Option (UInt64 × UInt64) :=
  if trap.frame.cs &&& 3 ≠ 3 then none else some (trap.userRsp, trap.userSs)

def setUserStack (trap : UserFrame) (userRsp userSs : UInt64) : Bool × UserFrame :=
  if trap.frame.cs &&& 3 ≠ 3 then (false, trap) else (true, { trap with userRsp, userSs })

inductive ProcessState where
  | runnable
  | sleeping (wakeTick : Nat)
  | exited (status : UInt64)
  | faulted (vector : UInt8) (address errorCode : UInt64)
  deriving DecidableEq

structure UserContext where
  frame : TrapFrame
  stackPointer : UInt64
  stackSelector : UInt64
  deriving DecidableEq

namespace UserContext

def initial (entry stackPointer : UInt64) : UserContext where
  frame :=
    { r15 := 0, r14 := 0, r13 := 0, r12 := 0, r11 := 0, r10 := 0, r9 := 0, r8 := 0, rbp := 0,
      rdi := 0, rsi := 0, rdx := 0, rcx := 0, rbx := 0, rax := 0, vector := 0, errorCode := 0,
      rip := entry, cs := userCodeSelector, rflags := 0x202 }
  stackPointer
  stackSelector := userDataSelector

def capture (trap : UserFrame) : Option UserContext :=
  (userStack trap).map fun (stackPointer, stackSelector) =>
    { frame := trap.frame, stackPointer, stackSelector }

def restore (context : UserContext) (trap : UserFrame) : Bool × UserFrame :=
  setUserStack { trap with frame := context.frame } context.stackPointer context.stackSelector

end UserContext

/-- A process: the root of its address space, the address of its kernel stack and its saved
    context. -/
structure Process where
  pid : UInt64
  root : UInt64
  kernelStack : UInt64
  context : UserContext
  state : ProcessState
  dispatches : Nat
  syscalls : Nat
  deriving DecidableEq

namespace Process

/-- `Process::from_space`, for an address space that passed its checks. -/
def fromSpace (pid root entry stackTop kernelStack : UInt64) : Process where
  pid
  root
  kernelStack
  context := .initial entry stackTop
  state := .runnable
  dispatches := 0
  syscalls := 0

def kernelStackTop (process : Process) : UInt64 :=
  (process.kernelStack + kernelStackBytes) &&& ~~~0x0f

/-- The step of `wake_sleepers` for one process. -/
def wake (ticks : Nat) (process : Process) : Process :=
  match process.state with
  | .sleeping wakeTick => if ticks ≥ wakeTick then { process with state := .runnable } else process
  | _ => process

end Process

inductive RuntimeFailure where
  | missingUserStack
  | rootSwitch
  | privilegeStack
  deriving DecidableEq

structure SchedulerState where
  active : Bool
  kernelRoot : UInt64
  current : Option Nat
  processes : List Process
  timerPreemptions : Nat
  contextSwitches : Nat
  failure : Option RuntimeFailure
  idleHalts : Nat
  deriving DecidableEq

/-- The processor's own registers: the active root and the stack it takes traps on. -/
structure Machine where
  cr3 : UInt64
  privilegeStack : UInt64
  gdtLoaded : Bool
  /-- Where the kernel goes on when the scheduler is done. -/
  kernelResume : UInt64
  deriving DecidableEq

structure World where
  scheduler : SchedulerState
  machine : Machine
  deriving DecidableEq

namespace SchedulerState

section

variable (scheduler : SchedulerState)

def wakeSleepers (ticks : Nat) : SchedulerState :=
  { scheduler with processes := scheduler.processes.map (·.wake ticks) }

def hasSleepers : Bool :=
  scheduler.processes.any fun process =>
    match process.state with
    | .sleeping _ => true
    | _ => false

def nextRunnable (current : Nat) : Option Nat :=
  ((List.range scheduler.processes.length).map fun offset =>
    (current + (offset + 1)) % scheduler.processes.length).find? fun index =>
      (scheduler.processes[index]?).any (·.state = .runnable)

def setState (index : Nat) (state : ProcessState) : SchedulerState :=
  { scheduler with processes := scheduler.processes.modify index ({ · with state }) }

end

/-- The loop of `schedule` that halts until a sleeper is due. -/
def idle (current : Nat) : SchedulerState → List Nat → Option (SchedulerState × List Nat)
  | scheduler, [] =>
    if (scheduler.nextRunnable current).isNone ∧ scheduler.hasSleepers then none
    else some (scheduler, [])
  | scheduler, ticks :: readings =>
    if (scheduler.nextRunnable current).isNone ∧ scheduler.hasSleepers then
      let halted := { scheduler with idleHalts := saturatingAdd scheduler.idleHalts 1 }
      idle current (halted.wakeSleepers ticks) readings
    else some (scheduler, ticks :: readings)

end SchedulerState

namespace World

section

variable (world : World)

def switchRoot (root : UInt64) : Option World :=
  if root % 4096 ≠ 0 then none
  else some { world with machine := { world.machine with cr3 := root } }

def setPrivilegeStack (stackTop : UInt64) : Option World :=
  if !world.machine.gdtLoaded ∨ stackTop = 0 then none
  else some { world with machine := { world.machine with privilegeStack := stackTop } }

def recordFailure (failure : RuntimeFailure) : World :=
  { world with scheduler := { world.scheduler with failure := some failure } }

section

variable (trap : UserFrame)

def returnToKernel : World × UserFrame :=
  let world := (world.switchRoot world.scheduler.kernelRoot).getD (world.recordFailure .rootSwitch)
  ({ world with scheduler := { world.scheduler with active := false, current := none } },
   { trap with
     frame :=
       { trap.frame with
         rip := world.machine.kernelResume
         cs := kernelCodeSelector
         rflags := (trap.frame.rflags ||| 0x02) &&& ~~~0x400 } })

/-- The counters of `schedule`, once the next process is chosen. -/
def countDispatch (timer : Bool) (current next : Nat) : World :=
  let scheduler := world.scheduler
  let scheduler :=
    if next ≠ current then
      { scheduler with
        contextSwitches := saturatingAdd scheduler.contextSwitches 1
        timerPreemptions :=
          if timer then saturatingAdd scheduler.timerPreemptions 1 else scheduler.timerPreemptions }
    else scheduler
  { world with
    scheduler :=
      { scheduler with
        current := some next
        processes := scheduler.processes.modify next fun process =>
          { process with dispatches := saturatingAdd process.dispatches 1 } } }

/-- The end of `schedule`: the root, the kernel stack and the context of the process. -/
def install (process : Process) : World × UserFrame :=
  match world.switchRoot process.root with
  | none => (world.recordFailure .rootSwitch).returnToKernel trap
  | some world =>
    match world.setPrivilegeStack process.kernelStackTop with
    | none => (world.recordFailure .privilegeStack).returnToKernel trap
    | some world =>
      match process.context.restore trap with
      | (false, trap) => (world.recordFailure .missingUserStack).returnToKernel trap
      | (true, trap) => (world, trap)

/-- The part of `schedule` that chooses the next process and waits until there is one. -/
def scheduleNext (timer : Bool) (current : Nat) :
    List Nat → Option (World × UserFrame × List Nat)
  | [] => none
  | ticks :: readings =>
    let scheduler := world.scheduler.wakeSleepers ticks
    let waits := (scheduler.nextRunnable current).isNone ∧ scheduler.hasSleepers
    match if waits then { world with scheduler }.switchRoot scheduler.kernelRoot
        else some { world with scheduler } with
    | none =>
      let (world, trap) :=
        ({ world with scheduler }.recordFailure .rootSwitch).returnToKernel trap
      some (world, trap, readings)
    | some world =>
      match scheduler.idle current readings with
      | none => none
      | some (scheduler, readings) =>
        match (scheduler.nextRunnable current).bind fun next =>
            (scheduler.processes[next]?).map (next, ·) with
        | none =>
          let (world, trap) := { world with scheduler }.returnToKernel trap
          some (world, trap, readings)
        | some (next, process) =>
          let (world, trap) :=
            ({ world with scheduler }.countDispatch timer current next).install trap process
          some (world, trap, readings)

/-- `schedule` for a process that may run again: its context is saved first. -/
def scheduleSaved (timer : Bool) (current : Nat) (readings : List Nat) :
    Option (World × UserFrame × List Nat) :=
  match UserContext.capture trap with
  | none =>
    let (world, trap) := (world.recordFailure .missingUserStack).returnToKernel trap
    some (world, trap, readings)
  | some context =>
    let processes := world.scheduler.processes.modify current ({ · with context })
    { world with scheduler := { world.scheduler with processes } }.scheduleNext trap timer current
      readings

def schedule (timer : Bool) (readings : List Nat) : Option (World × UserFrame × List Nat) :=
  match world.scheduler.current with
  | none => some (world, trap, readings)
  | some current =>
    match world.scheduler.processes[current]? with
    | none => none
    | some process =>
      match process.state with
      | .runnable | .sleeping _ => world.scheduleSaved trap timer current readings
      | _ => world.scheduleNext trap timer current readings

def setRax (rax : UInt64) : UserFrame :=
  { trap with frame := { trap.frame with rax } }

def setState (index : Nat) (state : ProcessState) : World :=
  { world with scheduler := world.scheduler.setState index state }

/-- The answer to `int 0x80`. -/
def handleSyscall (current : Nat) (process : Process) (readings : List Nat) :
    Option (World × UserFrame × List Nat) :=
  if trap.frame.rax = Syscall.exit then
    (world.setState current (.exited trap.frame.rdi)).schedule trap false readings
  else if trap.frame.rax = Syscall.yield then
    world.schedule (setRax trap 0) false readings
  else if trap.frame.rax = Syscall.getpid then
    some (world, setRax trap process.pid, readings)
  else if trap.frame.rax = Syscall.getticks then
    match readings with
    | [] => none
    | ticks :: readings => some (world, setRax trap (.ofNat ticks), readings)
  else if trap.frame.rax = Syscall.sleep then
    match readings with
    | [] => none
    | ticks :: readings =>
      let wakeTick := saturatingAdd ticks trap.frame.rdi.toNat
      (world.setState current (.sleeping wakeTick)).schedule (setRax trap 0) false readings
  else some (world, setRax trap errNotImplemented, readings)

/-- `handle_user_trap`: whether the trap was handled, and what it left. -/
def handleUserTrap (faultAddress : UInt64) (readings : List Nat) :
    Option (Bool × World × UserFrame × List Nat) :=
  if !world.scheduler.active then some (false, world, trap, readings)
  else
    match world.scheduler.current with
    | none => some (false, world, trap, readings)
    | some current =>
      let vector := trap.frame.vector.toUInt8
      if vector = timerVector then (world.schedule trap true readings).map (true, ·)
      else if vector = userSyscallVector then
        match world.scheduler.processes[current]? with
        | none => none
        | some process =>
          let processes := world.scheduler.processes.modify current fun process =>
            { process with syscalls := saturatingAdd process.syscalls 1 }
          ({ world with scheduler := { world.scheduler with processes } }.handleSyscall trap
            current process readings).map (true, ·)
      else if vector ≤ 31 then
        ((world.setState current (.faulted vector faultAddress trap.frame.errorCode)).schedule trap
          false readings).map (true, ·)
      else some (false, world, trap, readings)

end

end

/-- `run_loaded_processes` up to the point where the first process runs. -/
def enter (machine : Machine) : List Process → Option World
  | [] => none
  | first :: rest =>
    let world : World :=
      { scheduler :=
          { active := true, kernelRoot := machine.cr3, current := some 0,
            processes := { first with dispatches := 1 } :: rest, timerPreemptions := 0,
            contextSwitches := 0, failure := none, idleHalts := 0 }
        machine }
    (world.setPrivilegeStack first.kernelStackTop).map fun world =>
      { world with machine := { world.machine with cr3 := first.root } }

end World

end CodexOS.Scheduler
