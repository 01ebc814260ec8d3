import CodexOS.Scheduler.Runs
import Mathlib.Logic.Function.Basic

/-! # The first instruction of a process

The first process of a run is entered by the assembly of `scheduler_enter_user`, every other one by
the frame that `restore` has filled. What user code finds in the registers is compared with
`UserContext::initial`.
-/

namespace CodexOS.Scheduler

/-- The general-purpose registers other than the stack pointer. -/
inductive Register where
  | rax | rbx | rcx | rdx | rsi | rdi | rbp | r8 | r9 | r10 | r11 | r12 | r13 | r14 | r15
  deriving DecidableEq

def TrapFrame.register (frame : TrapFrame) : Register → UInt64
  | .rax => frame.rax
  | .rbx => frame.rbx
  | .rcx => frame.rcx
  | .rdx => frame.rdx
  | .rsi => frame.rsi
  | .rdi => frame.rdi
  | .rbp => frame.rbp
  | .r8 => frame.r8
  | .r9 => frame.r9
  | .r10 => frame.r10
  | .r11 => frame.r11
  | .r12 => frame.r12
  | .r13 => frame.r13
  | .r14 => frame.r14
  | .r15 => frame.r15

/-- The kernel as the assembly finds it: the stack from its top on, the word below it and the stack
    that `scheduler_resume_stack` points to. -/
structure Cpu where
  registers : Register → UInt64
  cr3 : UInt64
  stack : List UInt64
  below : UInt64
  resumeStack : List UInt64

inductive Instruction where
  | push (source : Register)
  | pushValue (value : UInt64)
  | reserve
  | saveStack
  | mov (target source : Register)
  | movCr3 (source : Register)

/-- What user code can see when it starts. -/
structure UserView where
  registers : Register → UInt64
  rip : UInt64
  cs : UInt64
  rflags : UInt64
  rsp : UInt64
  ss : UInt64

def UserContext.view (context : UserContext) : UserView where
  registers := context.frame.register
  rip := context.frame.rip
  cs := context.frame.cs
  rflags := context.frame.rflags
  rsp := context.stackPointer
  ss := context.stackSelector

namespace Cpu

def step (cpu : Cpu) : Instruction → Cpu
  | .push source => { cpu with stack := cpu.registers source :: cpu.stack }
  | .pushValue value => { cpu with stack := value :: cpu.stack }
  | .reserve => { cpu with stack := cpu.below :: cpu.stack }
  | .saveStack => { cpu with resumeStack := cpu.stack }
  | .mov target source =>
    { cpu with registers := Function.update cpu.registers target (cpu.registers source) }
  | .movCr3 source => { cpu with cr3 := cpu.registers source }

def iretq (cpu : Cpu) : Option UserView :=
  match cpu.stack with
  | rip :: cs :: rflags :: rsp :: ss :: _ =>
    some { registers := cpu.registers, rip, cs, rflags, rsp, ss }
  | _ => none

/-- The arguments of the call, in the registers of the C calling convention. -/
def call (cpu : Cpu) (root entry stackPointer : UInt64) : Cpu :=
  { cpu with registers := Function.update (Function.update (Function.update cpu.registers
      .rdi root) .rsi entry) .rdx stackPointer }

end Cpu

/-- The body of `scheduler_enter_user` before its `iretq`. -/
def enterUserBody : List Instruction :=
  [.push .rbp, .push .rbx, .push .r12, .push .r13, .push .r14, .push .r15, .reserve, .saveStack,
    .mov .r13 .rdi, .mov .r14 .rsi, .mov .r15 .rdx, .movCr3 .r13, .pushValue userDataSelector,
    .push .r15, .pushValue 0x202, .pushValue userCodeSelector, .push .r14]

def schedulerEnterUser (cpu : Cpu) (root entry stackPointer : UInt64) : Option UserView :=
  (enterUserBody.foldl Cpu.step (cpu.call root entry stackPointer)).iretq

/-- What a process finds at its first instruction, for a kernel whose registers are those of `cpu`
    when it enters the first process. -/
inductive Starts (machine : Machine) (programs : List Program) (cpu : Cpu) :
    Nat → UserView → Prop
  | entered {program : Program} {world : World} {view : UserView} :
      programs[0]? = some program →
      World.enter machine (programs.map Program.load) = some world →
      schedulerEnterUser cpu program.root program.entry program.stackTop = some view →
      Starts machine programs cpu 0 view
  | dispatched {history : List TrapRecord} {world world' : World} {trap trap' : UserFrame}
      {faultAddress : UInt64} {readings : List Nat} {handled : Bool} {index : Nat} :
      Run machine programs history world →
      world.handleUserTrap trap faultAddress readings = some (handled, world', trap', []) →
      Resumes world trap world' index → index ≠ 0 →
      -- it has not run yet
      (∀ record ∈ { process := world.scheduler.current, trap, readings : TrapRecord } :: history,
        record.process ≠ some index) →
      Starts machine programs cpu index (contextOf trap').view

/-- The registers that the stub leaves as the kernel had them. -/
def Register.leftOver (register : Register) : Bool :=
  register ∉ [.rdi, .rsi, .rdx, .r13, .r14, .r15]

variable {machine : Machine} {programs : List Program} {program : Program} {cpu : Cpu}
  {index : Nat} {view : UserView}

theorem schedulerEnterUser_eq (cpu : Cpu) (root entry stackPointer : UInt64) :
    schedulerEnterUser cpu root entry stackPointer =
      some { (UserContext.initial entry stackPointer).view with
        registers := Function.update (Function.update (Function.update
          (cpu.call root entry stackPointer).registers .r13 root) .r14 entry) .r15 stackPointer } :=
  rfl

theorem expectedContext_unseen {history : List TrapRecord}
    (unseen : ∀ record ∈ history, record.process ≠ some index)
    (at_ : programs[index]? = some program) :
    expectedContext programs history index = some (.initial program.entry program.stackTop) := by
  have none : history.find? (fun record =>
      record.process = some index ∧ (Request.ofTrap record.trap).schedules) = none := by
    simp only [List.find?_eq_none, decide_eq_true_eq]
    exact fun record mem same => unseen record mem same.1
  rw [expectedContext, none, at_]
  rfl

/-- A process starts with the registers of `UserContext::initial` if it is not the one entered by
    the assembly. That one also sees the root of its page tables, its entry, its stack and what the
    kernel had in the other registers, so all of these would have to be zero. -/
theorem starts_initial_iff (starts : Starts machine programs cpu index view)
    (at_ : programs[index]? = some program) :
    view.registers = (UserContext.initial program.entry program.stackTop).view.registers ↔
      index ≠ 0 ∨ program.root = 0 ∧ program.entry = 0 ∧ program.stackTop = 0 ∧
        ∀ register : Register, register.leftOver → cpu.registers register = 0 := by
  cases starts with
  | entered isFirst _ enters =>
    cases isFirst.symm.trans at_
    cases (schedulerEnterUser_eq _ _ _ _).symm.trans enters
    constructor
    · intro same
      refine .inr ⟨congrFun same .r13, congrFun same .r14, congrFun same .r15, ?_⟩
      intro register left
      have here := congrFun same register
      cases register <;> first | exact here | exact absurd left (by decide)
    · rintro (other | ⟨root, entry, stackTop, left⟩)
      · exact absurd rfl other
      funext register
      cases register <;> first | exact root | exact entry | exact stackTop | exact left _ (by decide)
  | dispatched run step resumes other unseen =>
    have owed := run.owed step resumes
    rw [expectedContext_unseen unseen at_] at owed
    rw [← Option.some.inj owed]
    simp [other]

def sampleCpu : Cpu where
  registers _ := 0xdead
  cr3 := 0x1000
  stack := []
  below := 0
  resumeStack := []

/-- Two kernels that differ only in where the page tables are. -/
theorem enterUser_reveals_root :
    ∃ program view view', Starts sampleMachine [program] sampleCpu 0 view ∧
      Starts sampleMachine [{ program with root := 0x30000 }] sampleCpu 0 view' ∧
      view.rip = view'.rip ∧ view.rsp = view'.rsp ∧
      view.registers .rdi = 0x10000 ∧ view'.registers .rdi = 0x30000 ∧
      view.registers .rax = 0xdead :=
  ⟨{ pid := 1001, root := 0x10000, entry := 0x400000, stackTop := 0x600000, kernelStack := 0x90000 },
    _, _, .entered rfl rfl rfl, .entered rfl rfl rfl, rfl, rfl, rfl, rfl, rfl⟩

theorem starts_initial_iff_first :
    ∃ view, Starts sampleMachine samplePrograms sampleCpu 0 view ∧
      view.registers ≠ (UserContext.initial 0x400000 0x600000).view.registers := by
  have starts : Starts sampleMachine samplePrograms sampleCpu 0 _ := .entered rfl rfl rfl
  refine ⟨_, starts, fun same => ?_⟩
  obtain other | ⟨root, -⟩ := (starts_initial_iff starts rfl).mp same
  · exact absurd rfl other
  · exact absurd root (by decide)

end CodexOS.Scheduler
