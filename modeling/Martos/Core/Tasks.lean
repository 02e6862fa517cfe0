import Martos.Lib.Checked
import Martos.Lists.Sequences
import Mathlib.Algebra.Group.Int.Defs
import Mathlib.Algebra.Group.Nat.Defs

/-!
# Tasks, signals and the context switch

The kernel data of `data.c` and the functions of `task.c` and `platform.c` that work
on it, in the order in which the C code computes. `Core` is the global state: the
task structures, the lists `ready` and `waiting`, `running`, the nesting count, the
time slice, and the two bits of the processor the kernel uses, PRIMASK and the
pending bit of PendSV.

A function that contains an `assert`, or that could follow a NULL pointer, returns in
`Except Fault`: a failed assertion halts the kernel. Using a list outside the contract
under which it is a sequence (`Lists.Refinement`) is a fault as well: inserting a node
that is on a list, unlinking one that is on none.

`signal_wait` gives up the processor in its middle. It is cut at the two points where
interrupts are enabled inside it: `signalWait` and `signalWaitResume` run from its
start, or from the `disable()` after its `reschedule()`, up to the next such point or
to its return.

The list functions work on sequences. Node priorities are integers, `NestCnt` (an
`int_fast16_t`) is an integer, and the local `int16_t nestcnt` of `signal_wait` is
narrowed explicitly. The stack memory a context points into is not part of this state.
-/

namespace Martos

open Checked

/-! ### Data -/

/-- `Signals`, a `uint16_t`. -/
abbrev Signals := BitVec 16

/-- `SIGF_SINGLE`. -/
def sigfSingle : Signals := 0x0001#16

/-- `SIGNALS_WIDTH`. -/
def signalsWidth : ℕ := 16

/-- `TASK_PRIO_EXCLUSIVE`, `INT16_MAX`. -/
def taskPrioExclusive : ℤ := 32767

/-- `TASK_PRIO_MIN`, `INT16_MIN`. -/
def taskPrioMin : ℤ := -32768

/-- A pointer to a `Task`, not NULL. -/
abbrev TaskRef := ℕ

/-- `init_task`. -/
def initTask : TaskRef := 0

/-- `Task_State`. -/
inductive TaskState where
  /-- `TASK_INVALID`. -/
  | invalid
  /-- `TASK_INITIALIZED`. -/
  | initialized
  /-- `TASK_RUNNING`. -/
  | running
  /-- `TASK_READY`. -/
  | ready
  /-- `TASK_WAITING`. -/
  | waiting
  deriving DecidableEq

/-- `TaskContext`: addresses of the saved frame and of the two ends of the stack. -/
structure TaskContext where
  /-- The saved stack frame. -/
  frame : ℕ
  /-- The bottom of the stack. -/
  bos : ℕ
  /-- The top of the stack. -/
  tos : ℕ
  deriving DecidableEq

/-- `Task`. The links of its node are in the lists. -/
structure Task where
  /-- `node.name`. -/
  name : Option String
  /-- `node.prio`. -/
  prio : ℤ
  /-- `context`. -/
  context : TaskContext
  /-- `sig_alloc`. -/
  sigAlloc : Signals
  /-- `sig_wait`, valid only while the task waits. -/
  sigWait : Signals
  /-- `sig_recvd`. -/
  sigRecvd : Signals
  /-- The `id_nestcnt` saved at the last switch. -/
  idNestcnt : ℤ
  /-- `state`. -/
  state : TaskState

/-- The two lists of tasks. -/
inductive TaskList where
  /-- `ready`. -/
  | ready
  /-- `waiting`. -/
  | waiting
  deriving DecidableEq

/-- What stops the kernel: an `assert` that fails, a NULL pointer followed, an endless
loop entered, or a list used outside its contract. -/
inductive Fault where
  /-- `assert(-1 <= id_nestcnt)` in `enable`. -/
  | enable
  /-- The assertions of `taskcontext_verify`. -/
  | taskcontextVerify
  /-- `assert(SIGF_SINGLE & task->sig_alloc)` in `task_verify`. -/
  | verifySigAlloc
  /-- `assert(-1 <= task->id_nestcnt)` in `task_verify`. -/
  | verifyIdNestcnt
  /-- The assertion on `task->state` in `task_verify`. -/
  | verifyState
  /-- The stack alignment assertions of `taskcontext_init`. -/
  | stackAlignment
  /-- The `default` branch of `PendSV_Handler_user`, an endless loop. -/
  | pendSVDefault
  /-- `running->state` with `running == NULL` in `PendSV_Handler_user`. -/
  | nullRunning
  /-- `assert(-1 <= signal && signal < SIGNALS_WIDTH)` in `signal_allocate`. -/
  | signalRange
  /-- `assert((signals & SIGF_SINGLE) == 0)` in `signal_free`. -/
  | freeSingle
  /-- `assert((signals & running->sig_alloc) == signals)` in `signal_free`. -/
  | freeUnallocated
  /-- A node inserted into a list while it is on one. The code goes on, with broken lists: no
  assertion of the code fails, and what follows is not modelled. -/
  | relink
  /-- A node unlinked while it is on no list. Here, too, the code goes on: the contracts of the
  machines exclude both. -/
  | stale
  /-- `assert(-1 != signum)` in `msgport_init` and `timer_allocate`. -/
  | noSignal
  /-- `assert(NULL != req)` in `sem_signal`. -/
  | semRequest
  /-- `assert(running != req->waiter)` in `sem_signal`. -/
  | semWaiter
  /-- `assert(0 != req->signal)` in `sem_signal`. -/
  | semSignal
  /-- Signed overflow of a semaphore's `count`. -/
  | semOverflow
  /-- The assertion on `port->action` in `msgport_send`. -/
  | portAction
  /-- `assert(NULL != port)` in `msgport_reply`. -/
  | replyPort
  /-- The assertion on `timer->op` in `timer_add`. -/
  | timerOp
  /-- The assertion on `timer->status` in `timer_add`. -/
  | timerStatus
  /-- `tnode->task == NULL` in `timer_poll`. -/
  | timerTask
  /-- `strcmp` on a NULL name. -/
  | nullName
  /-- `task->node.name` with `task == NULL` in `task_find`, where reading it stops the
  processor. -/
  | nullTask
  /-- `assert(NULL == task_find(name))` in `task_init`. -/
  | taskName
  deriving DecidableEq

/-- The kernel's global data, and the processor bits it uses. -/
structure Core where
  /-- The task structures. -/
  task : TaskRef → Task
  /-- The lists `ready` and `waiting`. -/
  lists : Seqs TaskList TaskRef
  /-- `running`. -/
  running : TaskRef
  /-- `id_nestcnt`. The counter of the source overflows after some 2^31 nested calls of `disable()`; this one has no
  bound, and the machines none on the depth, except where `signal_wait` saves it in 16 bits. -/
  idNestcnt : ℤ
  /-- `elapsed`, a `uint_fast8_t`, 32 bits wide on this processor. -/
  elapsed : BitVec 32
  /-- The compile-time constant `QUANTUM`. -/
  quantum : BitVec 32
  /-- PRIMASK: interrupts are masked. -/
  primask : Bool
  /-- PENDSVSET in ICSR: PendSV is pending. -/
  pendSV : Bool

namespace Core

variable (c : Core)

/-- Write to the structure of task `t`. -/
def modTask (t : TaskRef) (f : Task → Task) : Core := { c with task := Function.update c.task t (f (c.task t)) }

/-- The priority of task `t`. -/
def prio (t : TaskRef) : ℤ := (c.task t).prio

/-- The node of task `t` is on a list. -/
def OnList (t : TaskRef) : Prop := t ∈ c.lists .ready ∨ t ∈ c.lists .waiting

instance (t : TaskRef) : Decidable (c.OnList t) := inferInstanceAs (Decidable (_ ∨ _))

/-- `list_unlink((Node *) task)`. -/
def listUnlink (t : TaskRef) : Except Fault Core :=
  if c.OnList t then .ok { c with lists := c.lists.listUnlink t } else .error .stale

/-- `list_add_tail(list, (Node *) task)`. -/
def listAddTail (l : TaskList) (t : TaskRef) : Except Fault Core :=
  if c.OnList t then .error .relink else .ok { c with lists := c.lists.listAddTail l t }

/-- `list_enqueue(list, (Node *) task)`. -/
def listEnqueue (l : TaskList) (t : TaskRef) : Except Fault Core :=
  if c.OnList t then .error .relink
  else .ok { c with lists := c.lists.listEnqueue c.prio l t }

/-! ### Interrupts -/

/-- `disable`. -/
def disable : Core := { c with primask := true, idNestcnt := c.idNestcnt + 1 }

/-- `enable`. -/
def enable : Except Fault Core := do
  assertThat (-1 ≤ c.idNestcnt) .enable
  let c := { c with idNestcnt := c.idNestcnt - 1 }
  return if c.idNestcnt < 0 then { c with primask := false } else c

/-- `reschedule`. -/
def reschedule : Core := { c with pendSV := true }

end Core

/-! ### Task structures -/

/-- `sizeof (StackFrame)`: sixteen words. -/
def stackFrameSize : ℕ := 64

/-- `taskcontext_verify`, on 32-bit addresses. -/
def taskcontextVerify (context : TaskContext) : Except Fault Unit := do
  assertThat (context.bos ≤ context.frame) .taskcontextVerify
  assertThat ((context.frame + stackFrameSize) % 2 ^ 32 ≤ context.tos) .taskcontextVerify

/-- `taskcontext_init`, up to the stack memory it fills. -/
def taskcontextInit (stack stackSize : ℕ) : Except Fault TaskContext := do
  assertThat (stack % 4 = 0) .stackAlignment
  assertThat (stackSize % 4 = 0) .stackAlignment
  let tos := (stack + stackSize) % 2 ^ 32
  let context := ⟨(tos + (2 ^ 32 - stackFrameSize)) % 2 ^ 32, stack, tos⟩
  taskcontextVerify context
  return context

/-- The parameters of `task_init`, other than the entry point and its argument. -/
structure TaskParams where
  /-- `name`. -/
  name : Option String
  /-- `prio`. -/
  prio : ℤ
  /-- `stack`. -/
  stack : ℕ
  /-- `stack_size`. -/
  stackSize : ℕ

/-- `task_init`, after its check for a task of the same name has passed. -/
def taskInit (t : TaskRef) (params : TaskParams) (c : Core) : Except Fault Core := do
  let context ← taskcontextInit params.stack params.stackSize
  return c.modTask t fun _ =>
    { name := params.name, prio := params.prio, context := context, sigAlloc := sigfSingle,
      sigWait := 0, sigRecvd := 0, idNestcnt := -1, state := .initialized }

/-- `task_verify`. -/
def taskVerify (t : TaskRef) (c : Core) : Except Fault Core := do
  let c := c.disable
  taskcontextVerify (c.task t).context
  assertThat (sigfSingle &&& (c.task t).sigAlloc ≠ 0) .verifySigAlloc
  assertThat (-1 ≤ (c.task t).idNestcnt) .verifyIdNestcnt
  assertThat ((c.task t).state = .initialized ∨ (c.task t).state = .running ∨
    (c.task t).state = .ready ∨ (c.task t).state = .waiting) .verifyState
  c.enable

/-- `task_schedule` between its `task_verify` and its `reschedule`. -/
def taskScheduleInsert (t : TaskRef) (c : Core) : Except Fault Core := do
  let c := c.disable
  let c := c.modTask t fun k => { k with state := .ready }
  let c ← c.listEnqueue .ready t
  c.enable

/-- `task_set_prio`. -/
def taskSetPrio (t : TaskRef) (prio : ℤ) (c : Core) : Except Fault Core := do
  let c := c.disable
  let c := c.modTask t fun k => { k with prio := prio }
  let c := if t = c.running ∨
      ((c.task t).state = .ready ∧ c.prio c.running < c.prio t) then
    c.reschedule else c
  c.enable

/-! ### Signals -/

/-- The search of `signal_allocate`, from bit `signal` down: the bit found, or `-1`,
and the mask it leaves in `target`. -/
def searchSignal (alloc : Signals) : ℕ → ℤ × Signals
  | 0 => if (1#16 <<< 0) &&& alloc ≠ 0 then (-1, 1#16 <<< 0) else (0, 1#16 <<< 0)
  | n + 1 =>
    if (1#16 <<< (n + 1)) &&& alloc ≠ 0 then searchSignal alloc n
    else ((n + 1 : ℕ), 1#16 <<< (n + 1))

/-- The first half of `signal_allocate`: the signal it settles on, or `-1`, and the mask
left in `target`. -/
def chooseSignal (alloc : Signals) (signal : ℤ) : ℤ × Signals :=
  if signal ≠ -1 then
    let target := 1#16 <<< signal.toNat
    (if target &&& alloc ≠ 0 then -1 else signal, target)
  else searchSignal alloc (signalsWidth - 1)

/-- `signal_allocate`. -/
def signalAllocate (signal : ℤ) (c : Core) : Except Fault (ℤ × Core) := do
  assertThat (-1 ≤ signal ∧ signal < signalsWidth) .signalRange
  let (signal, target) := chooseSignal (c.task c.running).sigAlloc signal
  -- the guard tests `target`, which is not zero on any path, instead of the result
  if 0 < target then do
    let c := c.modTask c.running fun k =>
      { k with sigAlloc := k.sigAlloc ||| target, sigWait := k.sigWait &&& ~~~target }
    let c := c.disable
    let c := c.modTask c.running fun k => { k with sigRecvd := k.sigRecvd &&& ~~~target }
    let c ← c.enable
    return (signal, c)
  else return (signal, c)

/-- `signal_free`. -/
def signalFree (signals : Signals) (c : Core) : Except Fault Core := do
  assertThat (signals &&& sigfSingle = 0) .freeSingle
  assertThat (signals &&& (c.task c.running).sigAlloc = signals) .freeUnallocated
  return c.modTask c.running fun k => { k with sigAlloc := k.sigAlloc &&& ~~~signals }

/-- `signal_send`. -/
def signalSend (t : TaskRef) (signals : Signals) (c : Core) : Except Fault Core := do
  let c := c.disable
  let c := c.modTask t fun k => { k with sigRecvd := k.sigRecvd ||| signals }
  let c ←
    if (c.task t).state = .waiting ∧ signals &&& (c.task t).sigWait ≠ 0 then do
      let c ← c.listUnlink t
      let c := c.modTask t fun k => { k with state := .ready }
      let c ← c.listEnqueue .ready t
      pure (if c.prio c.running < c.prio t then c.reschedule else c)
    else pure c
  c.enable

/-- The value of an integer stored in an `int16_t`. -/
def toInt16 (n : ℤ) : ℤ := (n + 2 ^ 15) % 2 ^ 16 - 2 ^ 15

/-- How `signal_wait` leaves a segment. -/
inductive WaitResult where
  /-- It returns these signals. -/
  | returned (rcvd : Signals)
  /-- It has queued the task and enabled interrupts; the local `nestcnt` holds the
  depth to restore. -/
  | blocked (nestcnt : ℤ)

/-- `signal_wait` from the test of its loop on. -/
def signalWaitLoop (signals : Signals) (c : Core) : Except Fault (WaitResult × Core) := do
  if signals &&& (c.task c.running).sigRecvd = 0 then
    let c := c.modTask c.running fun k => { k with state := .waiting }
    let c ← c.listAddTail .waiting c.running
    let nestcnt := toInt16 c.idNestcnt
    let c := { c with idNestcnt := 0 }
    let c ← c.enable
    return (.blocked nestcnt, c)
  else
    let rcvd := signals &&& (c.task c.running).sigRecvd
    let c := c.modTask c.running fun k => { k with sigRecvd := k.sigRecvd &&& ~~~rcvd }
    let c ← c.enable
    return (.returned rcvd, c)

/-- `signal_wait` from its start. -/
def signalWait (signals : Signals) (c : Core) : Except Fault (WaitResult × Core) :=
  let c := c.disable
  let c := c.modTask c.running fun k => { k with sigWait := signals }
  signalWaitLoop signals c

/-- `signal_wait` from the `disable()` after the switch. -/
def signalWaitResume (signals : Signals) (nestcnt : ℤ) (c : Core) : Except Fault (WaitResult × Core) :=
  let c := c.disable
  signalWaitLoop signals { c with idNestcnt := nestcnt }

/-! ### Interrupt handlers -/

/-- `SysTick_Handler`. -/
def sysTickHandler (c : Core) : Core :=
  let c := { c with elapsed := c.elapsed - 1 }
  if c.elapsed = 0 then c.reschedule else c

/-- The cases of the `switch` in `PendSV_Handler_user`, down to where they join. -/
def switchState (c : Core) : Except Fault Core :=
  match (c.task c.running).state with
  | .running => (c.modTask c.running fun k => { k with state := .ready }).listEnqueue .ready c.running
  | .ready => .ok c
  | .waiting => .ok c
  | _ => .error .pendSVDefault

/-- `running = list_rem_head(&ready)` and the lines up to the `break`. -/
def switchRunning (c : Core) : Except Fault Core :=
  match c.lists.listRemHead .ready with
  | (none, _) => .error .nullRunning
  | (some t, lists) =>
    let c := { c with lists := lists, running := t }
    let c := c.modTask t fun k => { k with state := .running }
    .ok { c with idNestcnt := (c.task t).idNestcnt, elapsed := c.quantum }

/-- `PendSV_Handler_user` from its `__disable_irq()` up to its last `task_verify`. -/
def pendSVHandlerSwitch (oldFrame : ℕ) (c : Core) : Except Fault Core := do
  let c := { c with primask := true }
  let c := c.modTask c.running fun k => { k with context := { k.context with frame := oldFrame } }
  let c ← switchState c
  let c := c.modTask c.running fun k => { k with idNestcnt := c.idNestcnt }
  let c ← switchRunning c
  return if c.idNestcnt < 0 then { c with primask := false } else c

/-! ### Start -/

/-- What the build and the linker fix: `QUANTUM`, and the address and size of the init
task's stack. -/
structure Config where
  /-- `QUANTUM`. -/
  quantum : BitVec 32
  /-- `&init_task_stack`. -/
  initStack : ℕ
  /-- `INIT_TASK_STACK_SIZE`. -/
  initStackSize : ℕ

/-- Memory and processor after reset: zeroed data, interrupts enabled. -/
def resetCore (cfg : Config) : Core where
  task _ := ⟨none, 0, ⟨0, 0, 0⟩, 0, 0, 0, 0, .invalid⟩
  lists _ := []
  running := 0
  idNestcnt := 0
  elapsed := 0
  quantum := cfg.quantum
  primask := false
  pendSV := false

/-- `martos_pre`. -/
def martosPre (cfg : Config) : Except Fault Core := do
  let c := resetCore cfg
  let c := { c with lists := fun _ => [] }
  let c := { c with idNestcnt := -1, elapsed := c.quantum }
  let c ← taskInit initTask ⟨some "init", taskPrioExclusive, cfg.initStack, cfg.initStackSize⟩ c
  let c ← taskVerify initTask c
  let c := c.modTask initTask fun k => { k with state := .running }
  return { c with running := initTask }

end Martos
