import Martos.Core.Machine
import Martos.Lib.Blocks

/-!
# Registers, stacks and the context switch

The core machine with the processor under it: the registers, the two stack pointers PSP
and MSP, and the memory. `PendSV_Handler` of `pendsv_handler.s` is modelled instruction
by instruction around the three steps of `PendSV_Handler_user`; `taskcontext_init` fills
in the first frame of a task; `Reset_Handler` starts the init task from its frame.

Memory is a function from addresses to words. Only multiples of four are used as
addresses: the hardware keeps the low bits of a stack pointer zero, and `taskcontext_init`
asserts that a stack begins and ends at a multiple of four. The kernel's own data is the
state of the core machine.

Assumed of the hardware: exception entry pushes the eight words r0-r3, r12, lr, pc, xpsr
at PSP and puts EXC_RETURN in lr, and exception return pops them. A task, and the
interrupt handlers that come while it runs, compute between two steps of the kernel
whatever they like (`CpuEvent.run`), and so do `PendSV_Handler_user` and the interrupt
handlers that come while it runs (`CpuEvent.handlerRun`).

The contract (`Cpu.Contract`), over a `Layout` that gives each task its stack area:

* a task is initialised with its own area, which has room for a frame;
* a task writes to no other task's stack;
* when PendSV is taken, the frame to be saved lies within the task's stack area;
* `PendSV_Handler_user` follows the calling convention: it writes to the main stack only
  below the stack pointer, returns with the stack pointer where it was, and may change
  every register but for its result in r0; it writes to no task's stack.
-/

namespace Martos

open Blocks Transition

/-- A machine word. -/
abbrev Word := BitVec 32

/-- The registers, other than the stack pointer. -/
inductive Reg where
  | r0 | r1 | r2 | r3 | r4 | r5 | r6 | r7 | r8 | r9 | r10 | r11 | r12 | lr | pc | xpsr
  deriving DecidableEq

namespace Reg

/-- The registers the handler saves, in the order of `StackFrame`. -/
def software : List Reg := [r4, r5, r6, r7, r8, r9, r10, r11]

/-- The registers the hardware saves, in the order of `StackFrame`. -/
def hardware : List Reg := [r0, r1, r2, r3, r12, lr, pc, xpsr]

end Reg

/-- `EXC_RETURN`, for a return to thread mode and the process stack. -/
def excReturn : Word := 0xFFFFFFFD

/-- `EPSR_T`. -/
def epsrT : Word := 1 <<< 24

/-- Whose stack an address is on. -/
inductive Owner where
  /-- A task's stack. -/
  | task (t : TaskRef)
  /-- The main stack, which the handlers use. -/
  | main
  /-- No stack. -/
  | none
  deriving DecidableEq

/-- The stack areas. No address is on two stacks. -/
structure Layout where
  /-- The bottom of a task's stack. -/
  bos : TaskRef → ℕ
  /-- The top of a task's stack. -/
  tos : TaskRef → ℕ
  /-- The bottom of the main stack. -/
  mainBos : ℕ
  /-- The top of the main stack. -/
  mainTos : ℕ
  /-- Whose stack an address is on. -/
  owner : Word → Owner
  /-- The tasks' areas. -/
  task_iff : ∀ a t, owner a = .task t ↔ bos t ≤ a.toNat ∧ a.toNat < tos t
  /-- The main stack. -/
  main_iff : ∀ a, owner a = .main ↔ mainBos ≤ a.toNat ∧ a.toNat < mainTos
  /-- The areas end within the address space. -/
  tos_lt : ∀ t, tos t < 2 ^ 32
  /-- So does the main stack. -/
  mainTos_lt : mainTos < 2 ^ 32
  /-- The main stack has room for a word. -/
  mainRoom : mainBos + 4 ≤ mainTos

/-- The addresses the linker gives to functions. -/
structure Image where
  /-- `init_task_f`. -/
  initTaskF : Word
  /-- `dead_end`. -/
  deadEnd : Word

/-- The core and the processor. -/
structure Cpu where
  /-- The kernel. -/
  sys : CoreSys
  /-- The registers. -/
  reg : Reg → Word
  /-- The process stack pointer. -/
  psp : Word
  /-- The main stack pointer. -/
  msp : Word
  /-- The memory. -/
  mem : Word → Word
  /-- The argument of `PendSV_Handler_user`, while it runs. -/
  oldFrame : Word

/-! ### The first frame of a task -/

/-- The loop of `taskcontext_init` that clears the frame, for at most `n` rounds. -/
def clearFrame (frame : Word) : ℕ → Word → (Word → Word) → Option (Word → Word)
  | 0, _, _ => none
  | n + 1, tos, mem =>
    let tos := tos - 4
    if tos = frame then some mem else clearFrame frame n tos (Function.update mem tos 0)

/-- The registers `taskcontext_init` sets in a frame: r0, lr, pc and xpsr. -/
def setFrame (initPc userData deadEnd frame : Word) (mem : Word → Word) : Word → Word :=
  store mem [(frame + 32, userData), (frame + 52, deadEnd), (frame + 56, initPc), (frame + 60, epsrT)]

/-- What `taskcontext_init` writes to the stack whose top is `tos`. -/
def fillFrame (initPc userData deadEnd tos : Word) (mem : Word → Word) : Option (Word → Word) := do
  let frame := tos - BitVec.ofNat 32 stackFrameSize
  let mem ← clearFrame frame (stackFrameSize / 4) tos mem
  return setFrame initPc userData deadEnd frame mem

namespace Cpu

variable (s : Cpu)

/-! ### Instructions -/

/-- Exception entry from thread mode on the process stack. -/
def exceptionEntry : Cpu :=
  let psp := s.psp - 32
  { s with
    psp := psp
    mem := store s.mem ((block 4 psp 8).zip (load s.reg Reg.hardware))
    reg := Function.update s.reg .lr excReturn }

/-- Exception return to thread mode on the process stack. -/
def exceptionReturn : Cpu :=
  { s with
    psp := s.psp + 32
    reg := store s.reg (Reg.hardware.zip (load s.mem (block 4 s.psp 8))) }

/-- `mrs r0, psp`. -/
def mrsR0Psp : Cpu := { s with reg := Function.update s.reg .r0 s.psp }

/-- `stmdb r0!, {r4-r11}`. -/
def stmdbR0 : Cpu :=
  let a := s.reg .r0 - 32
  { s with
    mem := store s.mem ((block 4 a 8).zip (load s.reg Reg.software))
    reg := Function.update s.reg .r0 a }

/-- `push {lr}`, in handler mode. -/
def pushLr : Cpu :=
  let msp := s.msp - 4
  { s with msp := msp, mem := Function.update s.mem msp (s.reg .lr) }

/-- `ldm r0!, {r4-r11}`. -/
def ldmR0 : Cpu :=
  let a := s.reg .r0
  { s with
    reg := Function.update (store s.reg (Reg.software.zip (load s.mem (block 4 a 8)))) .r0 (a + 32) }

/-- `msr psp, r0`. -/
def msrPspR0 : Cpu := { s with psp := s.reg .r0 }

/-- `pop {pc}`, in handler mode: an exception return if EXC_RETURN is popped, else a
branch. -/
def popPc : Cpu :=
  let target := s.mem s.msp
  let s := { s with msp := s.msp + 4, reg := Function.update s.reg .pc target }
  if target = excReturn then s.exceptionReturn else s

/-- `PendSV_Handler` up to the call of `PendSV_Handler_user`, whose argument is in r0. -/
def saveContext : Cpu :=
  let s := s.exceptionEntry.mrsR0Psp.stmdbR0.pushLr
  { s with oldFrame := s.reg .r0 }

/-- `PendSV_Handler` from the return of `PendSV_Handler_user` on. -/
def loadContext : Cpu := s.ldmR0.msrPspR0.popPc

end Cpu

/-! ### The machine -/

/-- What can happen. -/
inductive CpuEvent where
  /-- An event of the core which neither initialises a task nor is part of a switch. -/
  | core (e : Event)
  /-- The running task calls `task_init`. -/
  | taskInit (t : TaskRef) (params : TaskParams) (initPc userData : Word)
  /-- The running task computes, or an interrupt handler. -/
  | run (reg : Reg → Word) (psp : Word) (writes : List (Word × Word))
  /-- `PendSV_Handler_user` computes, or an interrupt handler. -/
  | handlerRun (writes : List (Word × Word))
  /-- PendSV is taken. -/
  | pendSV
  /-- The handler switches. -/
  | pendSVSwitch
  /-- `PendSV_Handler_user` returns, and leaves `reg` in the registers. -/
  | pendSVExit (reg : Reg → Word)

/-- The events of the core that `CpuEvent` has no event of its own for. -/
def Event.plain : Event → Bool
  | .call (.taskInit _ _) => false
  | .pendSV => false
  | .pendSVSwitch _ => false
  | .pendSVExit => false
  | _ => true

namespace Cpu

variable (img : Image) (s : Cpu)

/-- `PendSV_Handler_user` has left the kernel in `sys` and returned the running task's
frame in r0, and something in the other registers. -/
def handlerReturns (reg : Reg → Word) (sys : CoreSys) : Cpu :=
  { s with
    sys := sys
    reg := Function.update reg .r0 (BitVec.ofNat 32 (sys.core.task sys.core.running).context.frame) }

/-- What an event leads to, if it can happen and does not stop the kernel. -/
def next : CpuEvent → Option Cpu
  | .core e => if e.plain then do return { s with sys := ← s.sys.next e } else none
  | .taskInit t params initPc userData => do
    let sys ← s.sys.next (.call (.taskInit t params))
    let tos := BitVec.ofNat 32 (params.stack + params.stackSize)
    return { s with sys := sys, mem := ← fillFrame initPc userData img.deadEnd tos s.mem }
  | .run reg psp writes =>
    if s.sys.phase = .thread then some { s with reg := reg, psp := psp, mem := store s.mem writes } else none
  | .handlerRun writes => if s.sys.phase = .thread then none else some { s with mem := store s.mem writes }
  | .pendSV => do return { s.saveContext with sys := ← s.sys.next .pendSV }
  | .pendSVSwitch => do return { s with sys := ← s.sys.next (.pendSVSwitch s.oldFrame.toNat) }
  | .pendSVExit reg => do return (s.handlerReturns reg (← s.sys.next .pendSVExit)).loadContext

/-- A step of the machine. -/
def Step (s : Cpu) (e : CpuEvent) (s' : Cpu) : Prop := s.next img e = some s'

/-- What `Reset_Handler` does once `platform_pre` has returned with PSP at the init task's
frame. -/
def resetHandler : Cpu :=
  let frame := s.psp
  let reg := store s.reg (Reg.software.zip (load s.mem (block 4 frame 8)))
  let reg := store reg ([.r0, .r1, .r2, .r3, .r12, .lr].zip (load s.mem (block 4 (frame + 32) 6)))
  let sp := frame + 64
  let reg := Function.update reg .r0 (s.mem (sp - 4 * 8))
  let reg := Function.update reg .pc (s.mem (sp - 4 * 2))
  { s with reg := reg, psp := sp }

/-- The machine when the init task starts, from registers `reg` and memory `mem` after
reset: `platform_pre` has filled in the init task's frame. -/
def start (cfg : Config) (l : Layout) (reg : Reg → Word) (mem : Word → Word) : Option Cpu := do
  let core ← (martosPre cfg).toOption
  let mem ← fillFrame img.initTaskF 0 img.deadEnd (BitVec.ofNat 32 (cfg.initStack + cfg.initStackSize)) mem
  let psp := BitVec.ofNat 32 (core.task initTask).context.frame
  return resetHandler ⟨CoreSys.start core, reg, psp, BitVec.ofNat 32 l.mainTos, mem, 0⟩

end Cpu

/-- What a step can do: the state before it, the event, the state after it. -/
inductive CpuEffect (img : Image) (s : Cpu) : CpuEvent → Cpu → Prop where
  /-- The kernel alone moves. -/
  | core {e : Event} {sys : CoreSys} (hp : e.plain = true) (hc : s.sys.Step e sys) :
    CpuEffect img s (.core e) { s with sys := sys }
  /-- A task is initialised, and its first frame filled in. -/
  | taskInit {t : TaskRef} {params : TaskParams} {initPc userData : Word} {sys : CoreSys} {mem : Word → Word}
      (hc : s.sys.Step (.call (.taskInit t params)) sys)
      (hf : fillFrame initPc userData img.deadEnd (BitVec.ofNat 32 (params.stack + params.stackSize)) s.mem =
        some mem) :
    CpuEffect img s (.taskInit t params initPc userData) { s with sys := sys, mem := mem }
  /-- The running task computes. -/
  | run {reg : Reg → Word} {psp : Word} {writes : List (Word × Word)} (hp : s.sys.phase = .thread) :
    CpuEffect img s (.run reg psp writes) { s with reg := reg, psp := psp, mem := store s.mem writes }
  /-- A handler computes. -/
  | handlerRun {writes : List (Word × Word)} (hp : s.sys.phase ≠ .thread) :
    CpuEffect img s (.handlerRun writes) { s with mem := store s.mem writes }
  /-- PendSV is taken. -/
  | pendSV {sys : CoreSys} (hc : s.sys.Step .pendSV sys) :
    CpuEffect img s .pendSV { s.saveContext with sys := sys }
  /-- The switch. -/
  | pendSVSwitch {sys : CoreSys} (hc : s.sys.Step (.pendSVSwitch s.oldFrame.toNat) sys) :
    CpuEffect img s .pendSVSwitch { s with sys := sys }
  /-- The handler returns. -/
  | pendSVExit {reg : Reg → Word} {sys : CoreSys} (hc : s.sys.Step .pendSVExit sys) :
    CpuEffect img s (.pendSVExit reg) (s.handlerReturns reg sys).loadContext

/-- Every step has one of these effects. -/
theorem Cpu.Step.effect {img : Image} {s s' : Cpu} {e : CpuEvent} (h : s.Step img e s') : CpuEffect img s e s' := by
  cases e with
  | core e =>
    change (if e.plain then _ else none) = _ at h
    by_cases hp : e.plain = true
    · rw [if_pos hp] at h
      obtain ⟨sys, hsys, hs'⟩ := Option.bind_eq_some_iff.mp h
      cases hs'
      exact .core hp (CoreSys.step_of_next hsys)
    · rw [if_neg hp] at h
      cases h
  | taskInit t params initPc userData =>
    obtain ⟨sys, hsys, h⟩ := Option.bind_eq_some_iff.mp h
    obtain ⟨mem, hmem, hs'⟩ := Option.bind_eq_some_iff.mp h
    cases hs'
    exact .taskInit (CoreSys.step_of_next hsys) hmem
  | run reg psp writes =>
    change (if s.sys.phase = .thread then _ else none) = _ at h
    by_cases hp : s.sys.phase = .thread
    · rw [if_pos hp] at h
      cases h
      exact .run hp
    · rw [if_neg hp] at h
      cases h
  | handlerRun writes =>
    change (if s.sys.phase = .thread then none else _) = _ at h
    by_cases hp : s.sys.phase = .thread
    · rw [if_pos hp] at h
      cases h
    · rw [if_neg hp] at h
      cases h
      exact .handlerRun hp
  | pendSV =>
    obtain ⟨sys, hsys, hs'⟩ := Option.bind_eq_some_iff.mp h
    cases hs'
    exact .pendSV (CoreSys.step_of_next hsys)
  | pendSVSwitch =>
    obtain ⟨sys, hsys, hs'⟩ := Option.bind_eq_some_iff.mp h
    cases hs'
    exact .pendSVSwitch (CoreSys.step_of_next hsys)
  | pendSVExit reg =>
    obtain ⟨sys, hsys, hs'⟩ := Option.bind_eq_some_iff.mp h
    cases hs'
    exact .pendSVExit (CoreSys.step_of_next hsys)

/-! ### The contract -/

/-- The init task's stack is its own area, and has room for a frame. -/
def Config.Fits (cfg : Config) (l : Layout) : Prop :=
  cfg.initStack = l.bos initTask ∧ cfg.initStack + cfg.initStackSize = l.tos initTask ∧
    stackFrameSize ≤ cfg.initStackSize

instance (o : Owner) (p : TaskRef → Prop) [DecidablePred p] : Decidable (∀ t, o = .task t → p t) :=
  match o with
  | .task u => decidable_of_iff (p u) ⟨fun hu _ ht => Owner.task.inj ht ▸ hu, fun h => h u rfl⟩
  | .main => .isTrue nofun
  | .none => .isTrue nofun

/-- The running task may write to this address: it is not on another task's stack. -/
def Cpu.OwnWrite (l : Layout) (s : Cpu) (a : Word) : Prop :=
  ∀ t, l.owner a = .task t → t = s.sys.core.running ∨ s.sys.life t = .fresh

/-- A handler may write to this address: it is on no task's stack, and not in what the main
stack holds. -/
def Cpu.HandlerWrite (l : Layout) (s : Cpu) (a : Word) : Prop :=
  (∀ t, l.owner a = .task t → s.sys.life t = .fresh) ∧ (l.owner a = .main → a.toNat < s.msp.toNat)

instance (l : Layout) (s : Cpu) (a : Word) : Decidable (s.OwnWrite l a) :=
  inferInstanceAs (Decidable (∀ t, l.owner a = .task t → _ ∨ _))

instance (l : Layout) (s : Cpu) (a : Word) : Decidable (s.HandlerWrite l a) :=
  inferInstanceAs (Decidable ((∀ t, l.owner a = .task t → _) ∧ (_ → _)))

/-- What the tasks and the compiled code keep to. -/
def Cpu.Contract (l : Layout) (s : Cpu) : CpuEvent → Prop
  | .taskInit t params _ _ =>
    params.stack = l.bos t ∧ params.stack + params.stackSize = l.tos t ∧ stackFrameSize ≤ params.stackSize
  | .run _ _ writes => ∀ w ∈ writes, s.OwnWrite l w.1
  | .handlerRun writes => ∀ w ∈ writes, s.HandlerWrite l w.1
  | .pendSV => l.bos s.sys.core.running + stackFrameSize ≤ s.psp.toNat ∧
      s.psp.toNat ≤ l.tos s.sys.core.running
  | _ => True

instance (l : Layout) (s : Cpu) (e : CpuEvent) : Decidable (s.Contract l e) :=
  match e with
  | .core _ => .isTrue trivial
  | .taskInit _ _ _ _ => inferInstanceAs (Decidable (_ ∧ _ ∧ _))
  -- over the list of writes, not over all addresses
  | .run _ _ writes => List.decidableBAll (fun w : Word × Word => s.OwnWrite l w.1) writes
  | .handlerRun writes => List.decidableBAll (fun w : Word × Word => s.HandlerWrite l w.1) writes
  | .pendSV => inferInstanceAs (Decidable (_ ∧ _))
  | .pendSVSwitch => .isTrue trivial
  | .pendSVExit _ => .isTrue trivial

end Martos
