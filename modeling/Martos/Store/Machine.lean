import Martos.Services.Machine
import Martos.Store.Kernel

/-!
# The whole machine over pointers

The machine of `Services.Machine` with the functions of `Store.Kernel`: the same tasks and
interrupt handlers, the same points at which they can be interrupted, and the kernel's lists in
memory. What the machine over sequences keeps besides, a record of what its callers have done, is
not part of this one.

The functions take fuel for their loops. A step is what they return with enough of it
(`StoreSys.Step`). `null` is what `task_find` reads through NULL.
-/

namespace Martos

open Agreement

/-- The machine. -/
structure StoreSys where
  /-- The kernel's data and lists. -/
  store : Store
  /-- Where each task is in the core's code. -/
  pc : TaskRef → Pc
  /-- Where the PendSV handler is. -/
  phase : Phase
  /-- Where each task is in the services' code. -/
  spc : TaskRef → ServicePc

namespace StoreSys

variable (null : Option String) (a : StoreSys)

/-- `running`. -/
def running : TaskRef := a.store.data.core.running

/-- The machine after a function. -/
def put (st : Store) : StoreSys := { a with store := st }

/-- The running task moves to `p` in the core's code. -/
def goto (p : Pc) : StoreSys := { a with pc := Function.update a.pc a.running p }

/-- The running task moves to `p` in the services' code. -/
def gotoService (p : ServicePc) : StoreSys := { a with spc := Function.update a.spc a.running p }

/-! ### The core -/

/-- The running task leaves a segment of `signal_wait(signals)`. -/
def afterWait (signals : Signals) : WaitResult × Store → StoreSys
  | (.returned _, st) => { a.goto .user with store := st }
  | (.blocked n, st) => { a.goto (.signalWaitReschedule signals n) with store := st }

/-- A call of a core function by the running task. -/
def execCore (fuel : ℕ) : Call → Option StoreSys
  | .disable => some (a.put a.store.disable)
  | .enable => do
    let st ← a.store.enable
    return a.put st
  | .taskInit t params => do
    let st ← a.store.taskInit null fuel t params
    return a.put st
  | .taskSchedule t => do
    let st ← a.store.liftCore (taskVerify t)
    return { a.goto (.taskSchedule t) with store := st }
  | .taskSetPrio t prio => do
    let st ← a.store.liftCore (taskSetPrio t prio)
    return a.put st
  | .signalAllocate signal => do
    let (_, st) ← a.store.signalAllocate signal
    return a.put st
  | .signalFree signals => do
    let st ← a.store.liftCore (signalFree signals)
    return a.put st
  | .signalSend t signals => do
    let st ← a.store.signalSend fuel t signals
    return a.put st
  | .signalWait signals => do
    let w ← a.store.signalWait signals
    return a.afterWait signals w

/-- The running task goes on in a core function. -/
def resumeCore (fuel : ℕ) : Option StoreSys :=
  match a.pc a.running with
  | .user => some a
  | .taskSchedule t => do
    let st ← a.store.taskScheduleInsert fuel t
    return { a.goto .taskScheduleReschedule with store := st }
  | .taskScheduleReschedule => some { a.goto .user with store := a.store.reschedule }
  | .signalWaitReschedule signals n => some { a.goto (.signalWaitDisable signals n) with store := a.store.reschedule }
  | .signalWaitDisable signals n => do
    let w ← a.store.signalWaitResume signals n
    return a.afterWait signals w

/-- What an event of the core does. -/
def execEvent (fuel : ℕ) : Event → Option StoreSys
  | .call c => a.execCore null fuel c
  | .resume => a.resumeCore fuel
  | .isrSignalSend t signals => do
    let st ← a.store.signalSend fuel t signals
    return a.put st
  | .sysTick => some (a.put (a.store.withCore (sysTickHandler a.store.data.core)))
  | .pendSV => do
    let st ← (a.store.withCore { a.store.data.core with pendSV := false }).liftCore (taskVerify a.running)
    return { a.put st with phase := .verified }
  | .pendSVSwitch oldFrame => do
    let st ← a.store.pendSVHandlerSwitch fuel oldFrame
    return { a.put st with phase := .switched }
  | .pendSVExit => do
    let st ← a.store.liftCore (taskVerify a.running)
    return { a.put st with phase := .thread }

/-! ### The services -/

/-- A call that does not block. -/
def execService (fuel : ℕ) : Service → Option StoreSys
  | .semInit sem count => some (a.put (a.store.semInit sem count))
  | .semAddRequest sem req => do
    let (_, st) ← a.store.semAddRequest sem req
    return a.put st
  | .semSignal sem => do
    let st ← a.store.semSignal fuel sem
    return a.put st
  | .msgportGet port => do
    let (_, st) ← a.store.msgportGet port
    return a.put st
  | .msgportSend port message => do
    let st ← a.store.msgportSend fuel port message
    return a.put st
  | .msgportReply message => do
    let st ← a.store.msgportReply fuel message
    return a.put st
  | .timerAbort tm => do
    let st ← a.store.timerAbort tm
    return a.put st

/-- `timer_add` begins. -/
def startAdd (tm : TimerRef) (delay : Bool) : Option StoreSys := do
  let st ← a.store.timerAddStart tm
  return { a.gotoService (.timerAddCheck tm delay) with store := st }

/-- `timer_add` returns. -/
def finishAdd (tm : TimerRef) (delay : Bool) : StoreSys :=
  a.gotoService (if delay then .timerDelayTest tm else .user)

/-- A program writes to its own structures. -/
def execWrite : Write → StoreSys
  | .request req value => a.put (a.store.withSvc { a.store.data.svc with
      request := Function.update a.store.data.svc.request req value })
  | .reply message port => a.put (a.store.withSvc { a.store.data.svc with
      replyPort := Function.update a.store.data.svc.replyPort message port })
  | .port port value => a.put (a.store.withSvc { a.store.data.svc with
      port := Function.update a.store.data.svc.port port value })
  | .timer tm op delay tick =>
    a.put (a.store.modTimer tm fun x => { x with op := op, delay := delay, tick := tick })

/-- A call by the running task. -/
def execCall (fuel : ℕ) : ServiceCall → Option StoreSys
  | .service c => a.execService fuel c
  | .semWait sem req => do
    let (queued, st) ← a.store.semWaitRequest sem req
    return if queued then (a.put st).gotoService .semWaitBlock else a.put st
  | .msgportInit port => do
    let st ← a.store.msgportInit port
    return a.put st
  | .msgportWait port => some { a.gotoService (.msgportWait port) with store := a.store.disable }
  | .timerAllocate tm => do
    let st ← a.store.lift (timerAllocate tm)
    return a.put st
  | .timerFree tm => do
    let st ← a.store.lift (timerFree tm)
    return a.put st
  | .timerAdd tm => a.startAdd tm false
  | .timerDelay tm ticks => do
    let st ← a.store.lift (timerAllocate tm)
    let st := st.modTimer tm fun x => { x with op := .delay, delay := ticks }
    (a.put st).startAdd tm true
  | .write w => some (a.execWrite w)

/-- The running task goes on in a service function. -/
def execResume (fuel : ℕ) : Option StoreSys :=
  match a.spc a.running with
  | .user => some a
  | .semWaitBlock => (a.gotoService .semWaitReturn).execCore null fuel (.signalWait sigfSingle)
  | .semWaitReturn => some (a.gotoService .user)
  | .msgportWait port =>
    if a.store.listIsEmpty (.messages port) then
      a.execCore null fuel (.signalWait (a.store.data.svc.port port).signal)
    else (a.gotoService .user).execCore null fuel .enable
  | .timerAddCheck tm delay =>
    if timerElapsed tm a.store.data.svc then
      some ((a.put (a.store.withSvc (timerAddElapsed tm a.store.data.svc))).finishAdd tm delay)
    else some (a.gotoService (.timerAddInsert tm delay))
  | .timerAddInsert tm delay => do
    let st ← a.store.timerAddInsert fuel tm
    return (a.put st).finishAdd tm delay
  | .timerDelayTest tm =>
    if (a.store.data.svc.timer tm).status = .added then
      (a.gotoService (.timerDelayFree tm)).execCore null fuel (.signalWait (a.store.data.svc.timer tm).signal)
    else some (a.gotoService (.timerDelayFree tm))
  | .timerDelayFree tm => do
    let st ← a.store.lift (timerFree tm)
    return (a.put st).gotoService .user

/-- What an event does. -/
def exec (fuel : ℕ) : SysEvent → Option StoreSys
  | .core e => a.execEvent null fuel e
  | .call c => a.execCall fuel c
  | .resume => a.execResume null fuel
  | .isr c => a.execService fuel c
  | .tim2 => do
    let st ← a.store.tim2IRQHandler fuel
    return a.put st

/-- The pointer which `msgport_wait` returns in a step, if it returns:
`port->message_list.head.next`. -/
def returnsMessage : SysEvent → Option KernelPtr
  | .resume =>
    match a.spc a.running with
    | .msgportWait port =>
      if a.store.listIsEmpty (.messages port) then none else a.store.links.next (.head (.messages port))
    | _ => none
  | _ => none

/-! ### Steps -/

/-- A task can execute an instruction. -/
def Thread : Prop := a.phase = .thread ∧ ¬ (a.store.data.core.pendSV = true ∧ a.store.data.core.primask = false)

/-- When the processor can come to an event. -/
def Possible : SysEvent → Prop
  | .core (.call _) => a.Thread ∧ a.pc a.running = .user ∧ a.spc a.running = .user
  | .core .resume => a.Thread ∧ a.pc a.running ≠ .user
  | .core (.isrSignalSend _ _) => a.store.data.core.primask = false
  | .core .sysTick => a.store.data.core.primask = false
  | .core .pendSV => a.phase = .thread ∧ a.store.data.core.pendSV = true ∧ a.store.data.core.primask = false
  | .core (.pendSVSwitch _) => a.phase = .verified
  | .core .pendSVExit => a.phase = .switched
  | .call _ => a.Thread ∧ a.pc a.running = .user ∧ a.spc a.running = .user
  | .resume => a.Thread ∧ a.pc a.running = .user ∧ a.spc a.running ≠ .user
  | .isr _ => a.store.data.core.primask = false
  | .tim2 => a.store.data.core.primask = false

/-- A step of the machine. -/
def Step (null : Option String) (a : StoreSys) (e : SysEvent) (a' : StoreSys) : Prop :=
  a.Possible e ∧ Returns (a.exec null · e) a'

/-- The machine when the init task has called `timer_init`. -/
def start (st : Store) : StoreSys where
  store := st.timerInit
  pc _ := .user
  phase := .thread
  spc _ := .user

end StoreSys

end Martos
