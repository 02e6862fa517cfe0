import Martos.Lib.Agreement
import Martos.Lists.Finding
import Martos.Services.Kernel

/-!
# The kernel over pointers

All functions of the kernel that use a list, as they work on the links: the nodes of tasks,
timers, requests and messages are in one heap, with the headers of `ready`, `waiting`, `timers`,
of every semaphore's `req_queue` and every port's `message_list`. A `Store` is these links and the
kernel's other data; the priority of a node is that of its task, which `task_set_prio` writes and
`list_enqueue` reads.

`null` is what `task_find` reads through NULL, as in `Core.Names`. The call of `task_init` in
`martos_pre` is made while both lists are empty and `running` is NULL: its assertion is taken as
passed.

A function that uses no list is the function of `Core.Tasks` or `Services.Kernel` at work on the
data (`Store.liftCore`, `Store.lift`). Where one of those functions stops with a fault, the function
over pointers is `none`, which also stands for a NULL pointer that is followed and for fuel that
runs out. `timer_poll` comes with the calls of `signal_send` that it makes.

`Store.Core` and `Store.Services` prove that these functions do what those over sequences do.
-/

namespace Martos

open DoublyLinked Agreement

/-- The headers of the kernel's lists. -/
inductive KernelList where
  /-- `ready` and `waiting`. -/
  | tasks (list : TaskList)
  /-- `timers`. -/
  | timers
  /-- `sem->req_queue`. -/
  | requests (sem : SemRef)
  /-- `port->message_list`. -/
  | messages (port : PortRef)
  deriving DecidableEq

/-- The nodes on the kernel's lists. -/
inductive KernelNode where
  /-- `task->node`. -/
  | task (t : TaskRef)
  /-- `timer->node`. -/
  | timer (tm : TimerRef)
  /-- `req->node`. -/
  | request (req : ReqRef)
  /-- `message->node`. -/
  | message (message : MsgRef)
  deriving DecidableEq

/-- A pointer to a node or to a sentinel. -/
abbrev KernelPtr := Ptr KernelList KernelNode

/-- The links, and all other data. The sequences in `data` are not used. -/
structure Store where
  /-- The links of nodes and sentinels. -/
  links : Links KernelPtr
  /-- The other data. -/
  data : Kernel

namespace Store

/-- `(Task *) node`. -/
def taskAt : KernelPtr → Option TaskRef
  | .node (.task t) => some t
  | _ => none

/-- `(Timer *) node`. -/
def timerAt : KernelPtr → Option TimerRef
  | .node (.timer tm) => some tm
  | _ => none

/-- `(SemaphoreRequest *) node`. -/
def requestAt : KernelPtr → Option ReqRef
  | .node (.request req) => some req
  | _ => none

section

variable (st : Store)

/-- What the list functions see. The other kinds of nodes have no priority that is read. -/
def heap : Heap KernelList KernelNode where
  toLinks := st.links
  name
    | .task t => (st.data.core.task t).name
    | _ => none
  prio
    | .task t => (st.data.core.task t).prio
    | _ => 0

/-- A list function has left the links like this. -/
def put (h : Heap KernelList KernelNode) : Store := { st with links := h.toLinks }

/-- `list_init(list)`. -/
def listInit (l : KernelList) : Store := st.put (st.heap.listInit l)

/-- `list_is_empty(list)`. -/
def listIsEmpty (l : KernelList) : Bool := st.heap.listIsEmpty l

/-- `list_unlink(node)`. -/
def listUnlink (n : KernelNode) : Option Store := do
  let h ← st.heap.listUnlink (.node n)
  return st.put h

/-- `list_add_tail(list, node)`. -/
def listAddTail (l : KernelList) (n : KernelNode) : Option Store := do
  let h ← st.heap.listAddTail l (.node n)
  return st.put h

/-- `list_enqueue(list, node)`. -/
def listEnqueue (fuel : ℕ) (l : KernelList) (n : KernelNode) : Option Store := do
  let h ← st.heap.listEnqueue fuel l (.node n)
  return st.put h

/-- `list_insert(list, node, prev)`. -/
def listInsert (l : KernelList) (n : KernelNode) (prev : Option KernelPtr) : Option Store := do
  let h ← st.heap.listInsert l (.node n) prev
  return st.put h

/-- `list_find(list, name)`. -/
def listFind (fuel : ℕ) (l : KernelList) (name : String) : Option (Option KernelPtr) :=
  st.heap.listFind fuel (.head l) name

/-- `list_rem_head(list)`. -/
def listRemHead (l : KernelList) : Option (Option KernelPtr × Store) := do
  let (node, h) ← st.heap.listRemHead l
  return (node, st.put h)

/-- The core's data, written. -/
def withCore (c : Core) : Store := { st with data := { st.data with core := c } }

/-- The services' data, written. -/
def withSvc (svc : Services) : Store := { st with data := { st.data with svc := svc } }

/-- A function of the core that uses no list. -/
def liftCore (f : Core → Except Fault Core) : Option Store := do
  let c ← (f st.data.core).toOption
  return st.withCore c

/-- A function that uses no list. -/
def lift (f : Kernel → Except Fault Kernel) : Option Store := do
  let k ← (f st.data).toOption
  return { st with data := k }

/-- `disable`. -/
def disable : Store := st.withCore st.data.core.disable

/-- `enable`. -/
def enable : Option Store := st.liftCore Core.enable

/-- `reschedule`. -/
def reschedule : Store := st.withCore st.data.core.reschedule

/-- Write to the structure of task `t`. -/
def modTask (t : TaskRef) (f : Task → Task) : Store := st.withCore (st.data.core.modTask t f)

/-- Write to the structure of a timer. -/
def modTimer (tm : TimerRef) (f : Timer → Timer) : Store := st.withSvc (st.data.svc.modTimer tm f)

end

/-! ### Finding tasks -/

/-- `task_find` between its `disable()` and its `enable()`. -/
def taskFindName (null : Option String) (fuel : ℕ) (name : String) (st : Store) : Option (Option KernelPtr) := do
  match ← st.listFind fuel (.tasks .ready) name with
  | some task => return some task
  | none =>
    match ← st.listFind fuel (.tasks .waiting) name with
    | some task => return some task
    | none =>
      -- `task` is NULL here, and `task->node.name` is read
      let other ← null
      return if name = other then some (.node (.task st.data.core.running)) else none

/-- `task_find`. -/
def taskFind (null : Option String) (fuel : ℕ) (name : Option String) (st : Store) :
    Option (Option KernelPtr × Store) :=
  match name with
  | none => some (some (.node (.task st.data.core.running)), st)
  | some name => do
    let st := st.disable
    let task ← st.taskFindName null fuel name
    let st ← st.enable
    return (task, st)

/-- `task_init` up to its assertion. -/
def taskInitAssert (null : Option String) (fuel : ℕ) (t : TaskRef) (name : Option String) (st : Store) :
    Option Store := do
  let st := st.modTask t fun k => { k with state := .invalid }
  let (task, st) ← st.taskFind null fuel name
  check (task = none)
  return st

/-- `task_init`. -/
def taskInit (null : Option String) (fuel : ℕ) (t : TaskRef) (params : TaskParams) (st : Store) : Option Store := do
  let st ← st.taskInitAssert null fuel t params.name
  st.liftCore (Martos.taskInit t params)

/-! ### Tasks and signals -/

/-- `task_schedule` between its `task_verify` and its `reschedule`. -/
def taskScheduleInsert (fuel : ℕ) (t : TaskRef) (st : Store) : Option Store := do
  let st := st.disable
  let st := st.modTask t fun k => { k with state := .ready }
  let st ← st.listEnqueue fuel (.tasks .ready) (.task t)
  st.enable

/-- `signal_allocate`. -/
def signalAllocate (signal : ℤ) (st : Store) : Option (ℤ × Store) := do
  let (signal, c) ← (Martos.signalAllocate signal st.data.core).toOption
  return (signal, st.withCore c)

/-- `signal_send`. -/
def signalSend (fuel : ℕ) (t : TaskRef) (signals : Signals) (st : Store) : Option Store := do
  let st := st.disable
  let st := st.modTask t fun k => { k with sigRecvd := k.sigRecvd ||| signals }
  let st ←
    if (st.data.core.task t).state = .waiting ∧ signals &&& (st.data.core.task t).sigWait ≠ 0 then do
      let st ← st.listUnlink (.task t)
      let st := st.modTask t fun k => { k with state := .ready }
      let st ← st.listEnqueue fuel (.tasks .ready) (.task t)
      pure (if st.data.core.prio st.data.core.running < st.data.core.prio t then st.reschedule else st)
    else pure st
  st.enable

/-- `signal_wait` from the test of its loop on. -/
def signalWaitLoop (signals : Signals) (st : Store) : Option (WaitResult × Store) := do
  if signals &&& (st.data.core.task st.data.core.running).sigRecvd = 0 then
    let st := st.modTask st.data.core.running fun k => { k with state := .waiting }
    let st ← st.listAddTail (.tasks .waiting) (.task st.data.core.running)
    let nestcnt := toInt16 st.data.core.idNestcnt
    let st := st.withCore { st.data.core with idNestcnt := 0 }
    let st ← st.enable
    return (.blocked nestcnt, st)
  else
    let rcvd := signals &&& (st.data.core.task st.data.core.running).sigRecvd
    let st := st.modTask st.data.core.running fun k => { k with sigRecvd := k.sigRecvd &&& ~~~rcvd }
    let st ← st.enable
    return (.returned rcvd, st)

/-- `signal_wait` from its start. -/
def signalWait (signals : Signals) (st : Store) : Option (WaitResult × Store) :=
  let st := st.disable
  let st := st.modTask st.data.core.running fun k => { k with sigWait := signals }
  st.signalWaitLoop signals

/-- `signal_wait` from the `disable()` after the switch. -/
def signalWaitResume (signals : Signals) (nestcnt : ℤ) (st : Store) : Option (WaitResult × Store) :=
  let st := st.disable
  let st := st.withCore { st.data.core with idNestcnt := nestcnt }
  st.signalWaitLoop signals

/-! ### The context switch -/

/-- The cases of the `switch` in `PendSV_Handler_user`, down to where they join. -/
def switchState (fuel : ℕ) (st : Store) : Option Store :=
  match (st.data.core.task st.data.core.running).state with
  | .running =>
    (st.modTask st.data.core.running fun k => { k with state := .ready }).listEnqueue fuel (.tasks .ready)
      (.task st.data.core.running)
  | .ready => some st
  | .waiting => some st
  | _ => none

/-- `running = list_rem_head(&ready)` and the lines up to the `break`. -/
def switchRunning (st : Store) : Option Store := do
  let (node, st) ← st.listRemHead (.tasks .ready)
  let t ← node.bind taskAt
  let st := st.withCore { st.data.core with running := t }
  let st := st.modTask t fun k => { k with state := .running }
  return st.withCore { st.data.core with
    idNestcnt := (st.data.core.task t).idNestcnt, elapsed := st.data.core.quantum }

/-- `PendSV_Handler_user` from its `__disable_irq()` up to its last `task_verify`. -/
def pendSVHandlerSwitch (fuel : ℕ) (oldFrame : ℕ) (st : Store) : Option Store := do
  let st := st.withCore { st.data.core with primask := true }
  let st := st.modTask st.data.core.running fun k => { k with context := { k.context with frame := oldFrame } }
  let st ← st.switchState fuel
  let st := st.modTask st.data.core.running fun k => { k with idNestcnt := st.data.core.idNestcnt }
  let st ← st.switchRunning
  return if st.data.core.idNestcnt < 0 then st.withCore { st.data.core with primask := false } else st

/-! ### Semaphores -/

/-- `sem_init`. -/
def semInit (sem : SemRef) (count : ℤ) (st : Store) : Store :=
  let st := st.withSvc { st.data.svc with count := Function.update st.data.svc.count sem count }
  st.listInit (.requests sem)

/-- `sem_add_request`. -/
def semAddRequest (sem : SemRef) (req : ReqRef) (st : Store) : Option (Bool × Store) := do
  let st := st.disable
  let st ← st.lift (semSetCount sem (st.data.svc.count sem - 1))
  if st.data.svc.count sem < 0 then
    let st ← st.listAddTail (.requests sem) (.request req)
    let st ← st.enable
    return (true, st)
  else
    let st ← st.enable
    return (false, st)

/-- The branch of `sem_signal` for a negative count. -/
def semWake (fuel : ℕ) (sem : SemRef) (st : Store) : Option Store := do
  let (node, st) ← st.listRemHead (.requests sem)
  let req ← node.bind requestAt
  check (st.data.core.running ≠ (st.data.svc.request req).waiter)
  check ((st.data.svc.request req).signal ≠ 0#16)
  st.signalSend fuel (st.data.svc.request req).waiter (st.data.svc.request req).signal

/-- The `if` of `sem_signal`. -/
def semRelease (fuel : ℕ) (sem : SemRef) (st : Store) : Option Store :=
  if st.data.svc.count sem < 0 then st.semWake fuel sem else some st

/-- `sem_signal`. -/
def semSignal (fuel : ℕ) (sem : SemRef) (st : Store) : Option Store := do
  let st := st.disable
  let st ← st.lift (semSetCount sem (st.data.svc.count sem + 1))
  let st ← st.semRelease fuel sem
  st.enable

/-- `sem_wait` up to its `if`. -/
def semWaitRequest (sem : SemRef) (req : ReqRef) (st : Store) : Option (Bool × Store) :=
  let st := st.withSvc { st.data.svc with
    request := Function.update st.data.svc.request req ⟨st.data.core.running, sigfSingle⟩ }
  st.semAddRequest sem req

/-! ### Message ports -/

/-- `msgport_init`. -/
def msgportInit (port : PortRef) (st : Store) : Option Store := do
  let (signum, st) ← st.signalAllocate (-1)
  check (signum ≠ -1)
  let st := st.withSvc { st.data.svc with
    port := Function.update st.data.svc.port port ⟨some st.data.core.running, 1#16 <<< signum.toNat, .signal⟩ }
  return st.listInit (.messages port)

/-- `msgport_get`. -/
def msgportGet (port : PortRef) (st : Store) : Option (Option KernelPtr × Store) := do
  let st := st.disable
  let (msg, st) ← st.listRemHead (.messages port)
  let st ← st.enable
  return (msg, st)

/-- The last part of `msgport_send`, before `enable()`: signal the owner. -/
def msgportNotify (fuel : ℕ) (port : PortRef) (st : Store) : Option Store :=
  match (st.data.svc.port port).task with
  | some t =>
    if (st.data.svc.port port).action = .signal then st.signalSend fuel t (st.data.svc.port port).signal
    else some st
  | none => some st

/-- `msgport_send`. -/
def msgportSend (fuel : ℕ) (port : PortRef) (message : MsgRef) (st : Store) : Option Store := do
  let st := st.disable
  check ((st.data.svc.port port).action = .signal ∨ (st.data.svc.port port).action = .ignore)
  let st ← st.listAddTail (.messages port) (.message message)
  let st ← st.msgportNotify fuel port
  st.enable

/-- `msgport_reply`. -/
def msgportReply (fuel : ℕ) (message : MsgRef) (st : Store) : Option Store := do
  let port ← st.data.svc.replyPort message
  st.msgportSend fuel port message

/-! ### Timers -/

/-- The clock shows `now`. -/
def clockAt (now : Ticks) (st : Store) : Store := st.withSvc { st.data.svc with timerNow := now }

/-- `timer_add` up to the second reading of the clock. -/
def timerAddStart (tm : TimerRef) (st : Store) : Option Store :=
  st.lift fun k => do
    let svc ← Martos.timerAddStart tm k.svc
    return { k with svc := svc }

/-- The loop of `timer_add`: the first node of a later timer, or none at the end of the queue. -/
def timerScan (tick : Ticks) (st : Store) : ℕ → KernelPtr → Option (Option KernelPtr)
  | 0, _ => none
  | fuel + 1, tnode =>
    match st.links.next tnode with
    | none => some none
    | some next => do
      let u ← timerAt tnode
      if tick < (st.data.svc.timer u).tick then return some tnode else timerScan tick st fuel next

/-- Insert the timer before the node found, or else at the end of the queue. -/
def timerLink (tm : TimerRef) (found : Option KernelPtr) (st : Store) : Option Store :=
  match found with
  | some tnode => st.listInsert .timers (.timer tm) (st.links.prev tnode)
  | none => st.listAddTail .timers (.timer tm)

/-- `timer_add` from its `disable()` on. -/
def timerAddInsert (fuel : ℕ) (tm : TimerRef) (st : Store) : Option Store := do
  let st := st.disable
  let st := st.modTimer tm fun x => { x with status := .added }
  let first ← st.links.next (.head .timers)
  let found ← st.timerScan (st.data.svc.timer tm).tick fuel first
  let st ← st.timerLink tm found
  st.enable

/-- `timer_add` from the second reading of the clock on. -/
def timerAddRest (fuel : ℕ) (tm : TimerRef) (st : Store) : Option Store :=
  if timerElapsed tm st.data.svc then some (st.withSvc (timerAddElapsed tm st.data.svc)) else st.timerAddInsert fuel tm

/-- `timer_add`, where the clock shows `clock₁` when it is read first, and `clock₂` after that. -/
def timerAdd (fuel : ℕ) (clock₁ clock₂ : Ticks) (tm : TimerRef) (st : Store) : Option Store := do
  let st ← (st.clockAt clock₁).timerAddStart tm
  (st.clockAt clock₂).timerAddRest fuel tm

/-- The `if` of `timer_abort`. -/
def timerAbortAdded (tm : TimerRef) (st : Store) : Option Store :=
  if (st.data.svc.timer tm).status = .added then st.listUnlink (.timer tm) else some st

/-- `timer_abort`. -/
def timerAbort (tm : TimerRef) (st : Store) : Option Store := do
  let st := st.disable
  let st ← st.timerAbortAdded tm
  st.enable

/-- The loop of `timer_poll` from `tnode` on: the calls of `signal_send` it makes, in order, and what
it leaves. `fuel` is for the loop in `signal_send`. -/
def timerPollLoop (fuel : ℕ) (now : Ticks) : ℕ → KernelPtr → Store → Option (List (TaskRef × Signals) × Store)
  | 0, _, _ => none
  | n + 1, tnode, st =>
    match st.links.next tnode with
    | none => some ([], st)
    | some _ => do
      let tm ← timerAt tnode
      if now < (st.data.svc.timer tm).tick then return ([], st)
      else
        let st ← st.listUnlink (.timer tm)
        let st := st.modTimer tm fun x => { x with status := .done }
        let t ← (st.data.svc.timer tm).task
        let signal := (st.data.svc.timer tm).signal
        let st ← st.signalSend fuel t signal
        -- `tnode` is on no list any more, and its `next` is read
        let next ← st.links.next tnode
        let (calls, st) ← timerPollLoop fuel now n next st
        return ((t, signal) :: calls, st)

/-- `timer_poll`, with the calls of `signal_send` it makes. -/
def timerPoll (fuel : ℕ) (st : Store) : Option (List (TaskRef × Signals) × Store) := do
  let now := st.data.svc.timerNow
  let st := st.disable
  let first ← st.links.next (.head .timers)
  let (calls, st) ← timerPollLoop fuel now fuel first st
  let st ← st.enable
  return (calls, st)

/-- `TIM2_IRQHandler`, with its interrupt flag set. -/
def tim2IRQHandler (fuel : ℕ) (st : Store) : Option Store := do
  let (_, st) ← (st.clockAt (st.data.svc.timerNow + 1)).timerPoll fuel
  return st

/-! ### Start -/

/-- Memory after reset: every pointer is NULL. -/
def reset (cfg : Config) : Store where
  links := ⟨fun _ => none, fun _ => none⟩
  data := ⟨resetCore cfg, resetServices⟩

/-- `martos_pre`. -/
def martosPre (cfg : Config) : Option Store := do
  let st := reset cfg
  let st := st.listInit (.tasks .ready)
  let st := st.listInit (.tasks .waiting)
  let st := st.withCore { st.data.core with idNestcnt := -1, elapsed := st.data.core.quantum }
  let st ← st.liftCore (Martos.taskInit initTask ⟨some "init", taskPrioExclusive, cfg.initStack, cfg.initStackSize⟩)
  let st ← st.liftCore (taskVerify initTask)
  let st := st.modTask initTask fun k => { k with state := .running }
  return st.withCore { st.data.core with running := initTask }

/-- `timer_init`. -/
def timerInit (st : Store) : Store :=
  let st := st.listInit .timers
  st.withSvc { st.data.svc with timerNow := 0 }

end Store

end Martos
