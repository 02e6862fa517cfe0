import Martos.Core.Tasks

/-!
# Semaphores, message ports and timers

The functions of `semaphore.c`, `msgport.c` and `timer.c`, over the core. `Kernel` is the
core's data together with the structures these functions are given: they live in the
callers' memory, so there is one for every address.

Inserting a request, a message or a timer that is on a queue is a fault (`Fault.relink`),
as for tasks; so is the overflow of a semaphore's count, which is an `int`, and a NULL
pointer followed. Functions that block are cut where interrupts can be enabled in them;
`Services.Machine` puts the parts together.
-/

namespace Martos

open Checked

/-! ### Data -/

/-- `Ticks`, a `uint32_t`. -/
abbrev Ticks := BitVec 32

/-- A pointer to a `Semaphore`. -/
abbrev SemRef := ℕ

/-- A pointer to a `SemaphoreRequest`. -/
abbrev ReqRef := ℕ

/-- A pointer to a `MsgPort`. -/
abbrev PortRef := ℕ

/-- A pointer to a `Message`. -/
abbrev MsgRef := ℕ

/-- A pointer to a `Timer`. -/
abbrev TimerRef := ℕ

/-- `SemaphoreRequest`. -/
structure SemaphoreRequest where
  /-- `waiter`. -/
  waiter : TaskRef
  /-- `signal`. -/
  signal : Signals

/-- `MsgPort_Action`. -/
inductive MsgPortAction where
  /-- `MSGPORT_INVALID`. -/
  | invalid
  /-- `MSGPORT_SIGNAL`. -/
  | signal
  /-- `MSGPORT_IGNORE`. -/
  | ignore
  deriving DecidableEq

/-- `MsgPort`, without its `message_list`. -/
structure MsgPort where
  /-- `task`, or NULL. -/
  task : Option TaskRef
  /-- `signal`. -/
  signal : Signals
  /-- `action`. -/
  action : MsgPortAction

/-- `Timer_Operation`. -/
inductive TimerOperation where
  /-- `TIMER_NONE`. -/
  | none
  /-- `TIMER_DELAY`. -/
  | delay
  /-- `TIMER_ALARM`. -/
  | alarm
  deriving DecidableEq

/-- `Timer_Status`. -/
inductive TimerStatus where
  /-- `TIMER_INVALID`. -/
  | invalid
  /-- `TIMER_INITIALIZED`. -/
  | initialized
  /-- `TIMER_ADDED`. -/
  | added
  /-- `TIMER_DONE`. -/
  | done
  /-- `TIMER_ABORTED`. -/
  | aborted
  deriving DecidableEq

/-- `Timer`. -/
structure Timer where
  /-- `task`, or NULL. -/
  task : Option TaskRef
  /-- `signal`. -/
  signal : Signals
  /-- `delay`. -/
  delay : Ticks
  /-- `tick`. -/
  tick : Ticks
  /-- `op`. -/
  op : TimerOperation
  /-- `status`. -/
  status : TimerStatus

/-- The data of the services. -/
structure Services where
  /-- `count` of each semaphore. -/
  count : SemRef → ℤ
  /-- `req_queue` of each semaphore. -/
  reqQueue : Seqs SemRef ReqRef
  /-- The requests. -/
  request : ReqRef → SemaphoreRequest
  /-- The message ports. -/
  port : PortRef → MsgPort
  /-- `message_list` of each port. -/
  messageList : Seqs PortRef MsgRef
  /-- `reply_port` of each message. -/
  replyPort : MsgRef → Option PortRef
  /-- The timers. -/
  timer : TimerRef → Timer
  /-- The list `timers`. -/
  timers : Seqs Unit TimerRef
  /-- `timer_now`. -/
  timerNow : Ticks

/-- The kernel's data and the services' data. -/
structure Kernel where
  /-- The core. -/
  core : Core
  /-- The services. -/
  svc : Services

namespace Kernel

variable (k : Kernel)

/-- `disable`. -/
def disable : Kernel := { k with core := k.core.disable }

/-- `enable`. -/
def enable : Except Fault Kernel := do
  let c ← k.core.enable
  return { k with core := c }

/-- `signal_send`. -/
def signalSend (t : TaskRef) (signals : Signals) : Except Fault Kernel := do
  let c ← Martos.signalSend t signals k.core
  return { k with core := c }

end Kernel

/-! ### Semaphores -/

/-- The largest value of a `SemaphoreCount`, which is an `int`. -/
def semaphoreCountMax : ℤ := 2 ^ 31 - 1

/-- `sem_init`. -/
def semInit (sem : SemRef) (count : ℤ) (k : Kernel) : Kernel :=
  { k with svc := { k.svc with
    count := Function.update k.svc.count sem count
    reqQueue := Function.update k.svc.reqQueue sem [] } }

/-- `sem->count = count`, stopping at overflow. -/
def semSetCount (sem : SemRef) (count : ℤ) (k : Kernel) : Except Fault Kernel := do
  assertThat (-semaphoreCountMax - 1 ≤ count ∧ count ≤ semaphoreCountMax) .semOverflow
  return { k with svc := { k.svc with count := Function.update k.svc.count sem count } }

/-- `list_add_tail(&sem->req_queue, (Node *) req)`. -/
def semEnqueue (sem : SemRef) (req : ReqRef) (k : Kernel) : Kernel :=
  { k with svc := { k.svc with reqQueue := k.svc.reqQueue.listAddTail sem req } }

/-- `sem_add_request`, for a request that is on no queue. -/
def semAddRequest (sem : SemRef) (req : ReqRef) (k : Kernel) : Except Fault (Bool × Kernel) := do
  let k := k.disable
  let k ← semSetCount sem (k.svc.count sem - 1) k
  if k.svc.count sem < 0 then
    let k := semEnqueue sem req k
    let k ← k.enable
    return (true, k)
  else
    let k ← k.enable
    return (false, k)

/-- The branch of `sem_signal` for a negative count. -/
def semWake (sem : SemRef) (k : Kernel) : Except Fault Kernel :=
  match k.svc.reqQueue.listRemHead sem with
  | (none, _) => .error .semRequest
  | (some req, reqQueue) => do
    let k := { k with svc := { k.svc with reqQueue := reqQueue } }
    assertThat (k.core.running ≠ (k.svc.request req).waiter) .semWaiter
    assertThat ((k.svc.request req).signal ≠ 0#16) .semSignal
    k.signalSend (k.svc.request req).waiter (k.svc.request req).signal

/-- The `if` of `sem_signal`. -/
def semRelease (sem : SemRef) (k : Kernel) : Except Fault Kernel :=
  if k.svc.count sem < 0 then semWake sem k else .ok k

/-- `sem_signal`. -/
def semSignal (sem : SemRef) (k : Kernel) : Except Fault Kernel := do
  let k := k.disable
  let k ← semSetCount sem (k.svc.count sem + 1) k
  let k ← semRelease sem k
  k.enable

/-- `sem_wait` up to its `if`: the request is the local `req`. -/
def semWaitRequest (sem : SemRef) (req : ReqRef) (k : Kernel) : Except Fault (Bool × Kernel) :=
  let k := { k with svc := { k.svc with
    request := Function.update k.svc.request req ⟨k.core.running, sigfSingle⟩ } }
  semAddRequest sem req k

/-! ### Message ports -/

/-- `msgport_init`. -/
def msgportInit (port : PortRef) (k : Kernel) : Except Fault Kernel := do
  let (signum, c) ← signalAllocate (-1) k.core
  assertThat (signum ≠ -1) .noSignal
  return { core := c, svc := { k.svc with
    port := Function.update k.svc.port port ⟨some c.running, 1#16 <<< signum.toNat, .signal⟩
    messageList := Function.update k.svc.messageList port [] } }

/-- `msgport_get`. -/
def msgportGet (port : PortRef) (k : Kernel) : Except Fault (Option MsgRef × Kernel) := do
  let k := k.disable
  let (msg, messageList) := k.svc.messageList.listRemHead port
  let k := { k with svc := { k.svc with messageList := messageList } }
  let k ← k.enable
  return (msg, k)

/-- The last part of `msgport_send`, before `enable()`: signal the owner. -/
def msgportNotify (port : PortRef) (k : Kernel) : Except Fault Kernel :=
  match (k.svc.port port).task with
  | some t =>
    if (k.svc.port port).action = .signal then k.signalSend t (k.svc.port port).signal else .ok k
  | none => .ok k

/-- `msgport_send`, for a message that is on no queue. -/
def msgportSend (port : PortRef) (message : MsgRef) (k : Kernel) : Except Fault Kernel := do
  let k := k.disable
  assertThat ((k.svc.port port).action = .signal ∨ (k.svc.port port).action = .ignore) .portAction
  let k := { k with svc := { k.svc with messageList := k.svc.messageList.listAddTail port message } }
  let k ← msgportNotify port k
  k.enable

/-- `msgport_reply`. -/
def msgportReply (message : MsgRef) (k : Kernel) : Except Fault Kernel :=
  match k.svc.replyPort message with
  | none => .error .replyPort
  | some port => msgportSend port message k

/-! ### Timers -/

/-- Write to the structure of a timer. -/
def Services.modTimer (svc : Services) (tm : TimerRef) (f : Timer → Timer) : Services :=
  { svc with timer := Function.update svc.timer tm (f (svc.timer tm)) }

/-- `timer_allocate`. -/
def timerAllocate (tm : TimerRef) (k : Kernel) : Except Fault Kernel := do
  let svc := k.svc.modTimer tm fun x => { x with task := some k.core.running }
  let (signum, c) ← signalAllocate (-1) k.core
  assertThat (signum ≠ -1) .noSignal
  return { core := c, svc := svc.modTimer tm fun x =>
    { x with signal := 1#16 <<< signum.toNat, op := .none, status := .initialized } }

/-- `timer_free`. -/
def timerFree (tm : TimerRef) (k : Kernel) : Except Fault Kernel := do
  let svc := k.svc.modTimer tm fun x => { x with task := none }
  let c ← signalFree (svc.timer tm).signal k.core
  return { core := c, svc := svc.modTimer tm fun x => { x with op := .none, status := .invalid } }

/-- `timer_add` up to the second reading of the clock. -/
def timerAddStart (tm : TimerRef) (svc : Services) : Except Fault Services := do
  assertThat ((svc.timer tm).op = .delay ∨ (svc.timer tm).op = .alarm) .timerOp
  assertThat ((svc.timer tm).status = .initialized ∨ (svc.timer tm).status = .done ∨
    (svc.timer tm).status = .aborted) .timerStatus
  return if (svc.timer tm).op = .delay then
    svc.modTimer tm fun x => { x with tick := svc.timerNow + x.delay }
  else svc

/-- `timer->tick <= timer_get_clock()`: the tick has already elapsed. -/
def timerElapsed (tm : TimerRef) (svc : Services) : Bool := decide ((svc.timer tm).tick ≤ svc.timerNow)

/-- `timer->status = TIMER_ABORTED`, where `timer_add` finds the tick elapsed. -/
def timerAddElapsed (tm : TimerRef) (svc : Services) : Services :=
  svc.modTimer tm fun x => { x with status := .aborted }

/-- The loop of `timer_add`: the node after which to insert, if it finds a later timer. -/
def timerScan (svc : Services) (tick : Ticks) (prev : Option TimerRef) :
    List TimerRef → Option (Option TimerRef)
  | [] => none
  | tnode :: rest =>
    if tick < (svc.timer tnode).tick then some prev else timerScan svc tick (some tnode) rest

/-- `timer_add` from its `disable()` on, for a timer that is not on the queue. -/
def timerAddInsert (tm : TimerRef) (k : Kernel) : Except Fault Kernel := do
  assertThat (tm ∉ k.svc.timers ()) .relink
  let k := k.disable
  let svc := k.svc.modTimer tm fun x => { x with status := .added }
  let timers :=
    match timerScan svc (svc.timer tm).tick none (svc.timers ()) with
    | some prev => svc.timers.listInsert () tm prev
    | none => svc.timers.listAddTail () tm
  let k := { k with svc := { svc with timers := timers } }
  k.enable

/-- `list_unlink((Node *) timer)`. The code does not check that the timer is queued: one that has
been aborted before is not, and its links are stale (`Fault.stale`). That is outside of the contract
of `timer_abort` (`Sys.ServiceContract`). -/
def timerUnlink (tm : TimerRef) (k : Kernel) : Except Fault Kernel := do
  assertThat (tm ∈ k.svc.timers ()) .stale
  return { k with svc := { k.svc with timers := k.svc.timers.listUnlink tm } }

/-- The `if` of `timer_abort`. -/
def timerAbortAdded (tm : TimerRef) (k : Kernel) : Except Fault Kernel :=
  if (k.svc.timer tm).status = .added then timerUnlink tm k else .ok k

/-- `timer_abort`. -/
def timerAbort (tm : TimerRef) (k : Kernel) : Except Fault Kernel := do
  let k := k.disable
  let k ← timerAbortAdded tm k
  k.enable

/-- One pass of the loop of `timer_poll`: the timer is due. -/
def timerFire (tnode : TimerRef) (k : Kernel) : Except Fault Kernel :=
  let svc := { k.svc with timers := k.svc.timers.listUnlink tnode }
  let svc := svc.modTimer tnode fun x => { x with status := .done }
  match (svc.timer tnode).task with
  | none => .error .timerTask
  | some t => Kernel.signalSend { k with svc := svc } t (svc.timer tnode).signal

/-- The loop of `timer_poll`. `list_unlink` leaves the `next` of the node it removes, so the
loop walks along the queue as it was. -/
def timerPollLoop (now : Ticks) : List TimerRef → Kernel → Except Fault Kernel
  | [], k => .ok k
  | tnode :: rest, k =>
    if now < (k.svc.timer tnode).tick then .ok k
    else do
      let k ← timerFire tnode k
      timerPollLoop now rest k

/-- `timer_poll`. -/
def timerPoll (k : Kernel) : Except Fault Kernel := do
  let now := k.svc.timerNow
  let k := k.disable
  let k ← timerPollLoop now (k.svc.timers ()) k
  k.enable

/-- `TIM2_IRQHandler`, with its interrupt flag set. -/
def tim2IRQHandler (k : Kernel) : Except Fault Kernel :=
  timerPoll { k with svc := { k.svc with timerNow := k.svc.timerNow + 1 } }

/-- The services' data after reset and `timer_init`: zeroed structures, empty queues. -/
def resetServices : Services where
  count _ := 0
  reqQueue _ := []
  request _ := ⟨0, 0⟩
  port _ := ⟨none, 0, .invalid⟩
  messageList _ := []
  replyPort _ := none
  timer _ := ⟨none, 0, 0, 0, .none, .invalid⟩
  timers _ := []
  timerNow := 0

end Martos
