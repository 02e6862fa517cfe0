import Martos.Core.Machine
import Martos.Services.Kernel

/-!
# The whole machine

The core machine with the services: tasks and interrupt handlers that call the functions
of `semaphore.c`, `msgport.c` and `timer.c` next to those of the core. A task in the
middle of a service function is at a point `ServicePc`; while that function is inside
`signal_wait`, the core machine's program point says where.

* Calls that do not block (`Service`) can come from a task or from an interrupt handler.
* `sem_wait`, `msgport_wait` and `timer_delay` contain a `signal_wait`; `timer_add` reads
  the clock twice and enters its critical section after that. Interrupts can come between
  the parts. Inside the loop of `msgport_wait` interrupts are masked, except while
  `signal_wait` blocks.
* `TIM2_IRQHandler` is a step of its own: no interrupt has a higher priority.
* A task writes its structures (`Write`) before it hands them to the kernel.

What the callers keep to (`Sys.Contract`): a request or message is put on a queue only
when it is on none; a port is initialised once, before any other use; a timer is added by one
task at a time, and set up, allocated or freed while it is not in use; functions that
block are called at a nesting depth which the `int16_t` of `signal_wait` can hold. The
first of these needs a record of where requests and messages are, which the machine
keeps in `reqAt` and `msgAt`.

And a timer is not aborted a second time: `timer_abort` leaves its status `TIMER_ADDED`, so
that another `timer_abort`, with no `timer_allocate` between, would unlink a node which is on
no list, and write through its stale links into those of other timers. No caller in the
repository does so.
-/

namespace Martos

open Transition

/-- Where a task is in the services' code. -/
inductive ServicePc where
  /-- In its own code, or in a call of the core. -/
  | user
  /-- In `sem_wait`, before `signal_wait`. -/
  | semWaitBlock
  /-- In `sem_wait`, in `signal_wait` or after it. -/
  | semWaitReturn
  /-- In `msgport_wait`, at the test of its loop, or in `signal_wait`. -/
  | msgportWait (port : PortRef)
  /-- In `timer_add`, before the second reading of the clock; called by `timer_delay`
  or not. -/
  | timerAddCheck (tm : TimerRef) (delay : Bool)
  /-- In `timer_add`, before `disable()`. -/
  | timerAddInsert (tm : TimerRef) (delay : Bool)
  /-- In `timer_delay`, before the test of the status. -/
  | timerDelayTest (tm : TimerRef)
  /-- In `timer_delay`, in `signal_wait` or before `timer_free`. -/
  | timerDelayFree (tm : TimerRef)
  deriving DecidableEq

/-- A call that does not block. -/
inductive Service where
  /-- `sem_init(sem, count)`. -/
  | semInit (sem : SemRef) (count : ℤ)
  /-- `sem_add_request(sem, req)`. -/
  | semAddRequest (sem : SemRef) (req : ReqRef)
  /-- `sem_signal(sem)`. -/
  | semSignal (sem : SemRef)
  /-- `msgport_get(port)`. -/
  | msgportGet (port : PortRef)
  /-- `msgport_send(port, message)`. -/
  | msgportSend (port : PortRef) (message : MsgRef)
  /-- `msgport_reply(message)`. -/
  | msgportReply (message : MsgRef)
  /-- `timer_abort(tm)`. -/
  | timerAbort (tm : TimerRef)

/-- What a program writes to its own structures. -/
inductive Write where
  /-- The fields of a request. -/
  | request (req : ReqRef) (value : SemaphoreRequest)
  /-- `message->reply_port`. -/
  | reply (message : MsgRef) (port : Option PortRef)
  /-- The fields of a port other than its list. -/
  | port (port : PortRef) (value : MsgPort)
  /-- `op`, `delay` and `tick` of a timer. -/
  | timer (tm : TimerRef) (op : TimerOperation) (delay tick : Ticks)

/-- A call from a task's own code. -/
inductive ServiceCall where
  /-- A call that does not block. -/
  | service (a : Service)
  /-- `sem_wait(sem)`, with its local request at `req`. -/
  | semWait (sem : SemRef) (req : ReqRef)
  /-- `msgport_init(port)`. -/
  | msgportInit (port : PortRef)
  /-- `msgport_wait(port)`. -/
  | msgportWait (port : PortRef)
  /-- `timer_allocate(tm)`. -/
  | timerAllocate (tm : TimerRef)
  /-- `timer_free(tm)`. -/
  | timerFree (tm : TimerRef)
  /-- `timer_add(tm)`. -/
  | timerAdd (tm : TimerRef)
  /-- `timer_delay(ticks)`, with its local timer at `tm`. -/
  | timerDelay (tm : TimerRef) (ticks : Ticks)
  /-- The program writes to its own structures. -/
  | write (w : Write)

/-- What can happen. -/
inductive SysEvent where
  /-- An event of the core machine. -/
  | core (e : Event)
  /-- The running task makes a call. -/
  | call (c : ServiceCall)
  /-- The running task goes on in a service function. -/
  | resume
  /-- An interrupt handler makes a call. -/
  | isr (a : Service)
  /-- `TIM2_IRQHandler`. -/
  | tim2

/-- The machine. -/
structure Sys where
  /-- The core machine. -/
  cs : CoreSys
  /-- The services' data. -/
  svc : Services
  /-- Where each task is. -/
  spc : TaskRef → ServicePc
  /-- The semaphore whose queue a request is on. -/
  reqAt : ReqRef → Option SemRef
  /-- The port whose list a message is on. -/
  msgAt : MsgRef → Option PortRef
  /-- Some task is in `timer_add` on this timer. -/
  adding : TimerRef → Bool

/-- The nodes that have left the list they were on are on none. -/
def Seqs.sync {L N : Type} [DecidableEq N] (f : Seqs L N) (loc : N → Option L) (n : N) : Option L :=
  match loc n with
  | some l => if n ∈ f l then some l else none
  | none => none

namespace Sys

variable (s : Sys)

/-- The data the functions work on. -/
def kernel : Kernel := ⟨s.cs.core, s.svc⟩

/-- The data after a function. -/
def put (k : Kernel) : Sys :=
  { s with cs := { s.cs with core := k.core }
           svc := k.svc
           reqAt := k.svc.reqQueue.sync s.reqAt
           msgAt := k.svc.messageList.sync s.msgAt }

/-- The running task moves to `p`. -/
def goto (p : ServicePc) : Sys := { s with spc := Function.update s.spc s.cs.core.running p }

/-- A call that does not block. -/
def execService : Service → Except Fault Sys
  | .semInit sem count => .ok (s.put (semInit sem count s.kernel))
  | .semAddRequest sem req => do
    let (_, k) ← semAddRequest sem req s.kernel
    return { s with reqAt := Function.update s.reqAt req (some sem) }.put k
  | .semSignal sem => do
    let k ← semSignal sem s.kernel
    return s.put k
  | .msgportGet port => do
    let (_, k) ← msgportGet port s.kernel
    return s.put k
  | .msgportSend port message => do
    let k ← msgportSend port message s.kernel
    return { s with msgAt := Function.update s.msgAt message (some port) }.put k
  | .msgportReply message => do
    let k ← msgportReply message s.kernel
    return { s with msgAt := Function.update s.msgAt message (s.svc.replyPort message) }.put k
  | .timerAbort tm => do
    let k ← timerAbort tm s.kernel
    return s.put k

/-- `timer_add` begins. -/
def startAdd (tm : TimerRef) (delay : Bool) : Except Fault Sys := do
  let svc ← timerAddStart tm s.svc
  return { s.goto (.timerAddCheck tm delay) with svc := svc, adding := Function.update s.adding tm true }

/-- `timer_add` returns. -/
def finishAdd (tm : TimerRef) (delay : Bool) : Sys :=
  { s.goto (if delay then .timerDelayTest tm else .user) with adding := Function.update s.adding tm false }

/-- A program writes to its own structures. -/
def execWrite : Write → Sys
  | .request req value => { s with svc := { s.svc with request := Function.update s.svc.request req value } }
  | .reply message port =>
    { s with svc := { s.svc with replyPort := Function.update s.svc.replyPort message port } }
  | .port port value => { s with svc := { s.svc with port := Function.update s.svc.port port value } }
  | .timer tm op delay tick =>
    { s with svc := s.svc.modTimer tm fun x => { x with op := op, delay := delay, tick := tick } }

/-- A call by the running task. -/
def execCall : ServiceCall → Except Fault Sys
  | .service a => s.execService a
  | .semWait sem req => do
    let (queued, k) ← semWaitRequest sem req s.kernel
    let s' := { s with reqAt := Function.update s.reqAt req (some sem) }.put k
    return if queued then s'.goto .semWaitBlock else s'
  | .msgportInit port => do
    let k ← msgportInit port s.kernel
    return s.put k
  | .msgportWait port => do
    let cs ← s.cs.execCall .disable
    return { s.goto (.msgportWait port) with cs := cs }
  | .timerAllocate tm => do
    let k ← timerAllocate tm s.kernel
    return s.put k
  | .timerFree tm => do
    let k ← timerFree tm s.kernel
    return s.put k
  | .timerAdd tm => s.startAdd tm false
  | .timerDelay tm ticks => do
    let k ← timerAllocate tm s.kernel
    let k := { k with svc := k.svc.modTimer tm fun x => { x with op := .delay, delay := ticks } }
    (s.put k).startAdd tm true
  | .write w => .ok (s.execWrite w)

/-- The running task goes on in a service function. -/
def execResume : Except Fault Sys :=
  match s.spc s.cs.core.running with
  | .user => .ok s
  | .semWaitBlock => do
    let cs ← s.cs.execCall (.signalWait sigfSingle)
    return { s.goto .semWaitReturn with cs := cs }
  | .semWaitReturn => .ok (s.goto .user)
  | .msgportWait port =>
    if s.svc.messageList port = [] then do
      let cs ← s.cs.execCall (.signalWait (s.svc.port port).signal)
      return { s with cs := cs }
    else do
      let cs ← s.cs.execCall .enable
      return { s.goto .user with cs := cs }
  | .timerAddCheck tm delay =>
    if timerElapsed tm s.svc then .ok ({ s with svc := timerAddElapsed tm s.svc }.finishAdd tm delay)
    else .ok (s.goto (.timerAddInsert tm delay))
  | .timerAddInsert tm delay => do
    let k ← timerAddInsert tm s.kernel
    return (s.put k).finishAdd tm delay
  | .timerDelayTest tm =>
    if (s.svc.timer tm).status = .added then do
      let cs ← s.cs.execCall (.signalWait (s.svc.timer tm).signal)
      return { s.goto (.timerDelayFree tm) with cs := cs }
    else .ok (s.goto (.timerDelayFree tm))
  | .timerDelayFree tm => do
    let k ← timerFree tm s.kernel
    return (s.put k).goto .user

/-- What an event does. -/
def exec : SysEvent → Except Fault Sys
  | .core e => do
    let cs ← s.cs.exec e
    return { s with cs := cs }
  | .call c => s.execCall c
  | .resume => s.execResume
  | .isr a => s.execService a
  | .tim2 => do
    let k ← tim2IRQHandler s.kernel
    return s.put k

/-- The message which `msgport_wait` returns in a step, if it returns. -/
def returnsMessage : SysEvent → Option MsgRef
  | .resume =>
    match s.spc s.cs.core.running with
    | .msgportWait port => (s.svc.messageList port).head?
    | _ => none
  | _ => none

/-- What the callers of a call that does not block keep to. -/
def ServiceContract : Service → Prop
  | .semAddRequest _ req => s.reqAt req = none
  | .msgportSend _ message => s.msgAt message = none
  | .msgportReply message => s.msgAt message = none
  | .msgportGet port => (s.svc.port port).action ≠ .invalid
  -- it has not been aborted since it was added
  | .timerAbort tm => (s.svc.timer tm).status = .added → tm ∈ s.svc.timers ()
  | _ => True

/-- The timer is not in use. -/
def TimerFree (tm : TimerRef) : Prop := s.adding tm = false ∧ tm ∉ s.svc.timers ()

/-- What a program keeps to when it writes to its structures. -/
def WriteContract : Write → Prop
  | .request req _ => s.reqAt req = none
  | .reply _ _ => True
  | .port port value => (s.svc.port port).action ≠ .invalid ∧ value.action ≠ .invalid
  | .timer tm _ _ _ => s.TimerFree tm

/-- What the callers keep to. -/
def Contract : ServiceCall → Prop
  | .service a => s.ServiceContract a
  | .semWait _ req => s.reqAt req = none ∧ s.cs.core.idNestcnt < 32767
  | .msgportInit port => (s.svc.port port).action = .invalid
  | .msgportWait port => (s.svc.port port).action ≠ .invalid ∧ s.cs.core.idNestcnt < 32766
  | .timerAllocate tm => s.TimerFree tm
  | .timerFree tm => s.TimerFree tm
  | .timerAdd tm => s.adding tm = false
  | .timerDelay tm _ => s.TimerFree tm ∧ s.cs.core.idNestcnt < 32767
  | .write w => s.WriteContract w

/-- The running task can execute an instruction, and is not in a call of the core. -/
def AtUser : Prop := s.cs.Thread ∧ s.cs.pc s.cs.core.running = .user

/-- When an event can happen. -/
def Enabled : SysEvent → Prop
  | .core (.call c) => s.cs.Enabled (.call c) ∧ s.spc s.cs.core.running = .user
  | .core e => s.cs.Enabled e
  | .call c => s.AtUser ∧ s.spc s.cs.core.running = .user ∧ s.Contract c
  | .resume => s.AtUser ∧ s.spc s.cs.core.running ≠ .user
  | .isr a => s.cs.core.primask = false ∧ s.ServiceContract a
  | .tim2 => s.cs.core.primask = false

/-- A step of the machine. -/
def Step (s : Sys) (e : SysEvent) (s' : Sys) : Prop := s.Enabled e ∧ s.exec e = .ok s'

/-- The machine when `martos_pre` has returned and the init task has called `timer_init`. -/
def start (c : Core) : Sys where
  cs := CoreSys.start c
  svc := resetServices
  spc _ := .user
  reqAt _ := none
  msgAt _ := none
  adding _ := false

instance (a : Service) : Decidable (s.ServiceContract a) := by
  cases a <;> unfold ServiceContract <;> infer_instance

instance (tm : TimerRef) : Decidable (s.TimerFree tm) := inferInstanceAs (Decidable (_ ∧ _))

instance (w : Write) : Decidable (s.WriteContract w) := by
  cases w <;> unfold WriteContract <;> infer_instance

instance (c : ServiceCall) : Decidable (s.Contract c) := by
  cases c <;> unfold Contract <;> infer_instance

instance : Decidable s.AtUser := inferInstanceAs (Decidable (_ ∧ _))

instance (e : SysEvent) : Decidable (s.Enabled e) := by
  unfold Enabled
  split <;> infer_instance

/-- The step an event makes, if it can happen and does not stop the kernel. -/
def next (e : SysEvent) : Option Sys := if s.Enabled e then (s.exec e).toOption else none

theorem step_of_next {s : Sys} {e : SysEvent} {s' : Sys} (h : s.next e = some s') : s.Step e s' := by
  unfold next at h
  by_cases he : s.Enabled e
  · rw [if_pos he] at h
    exact ⟨he, Checked.eq_ok_of_toOption h⟩
  · simp [he] at h

/-- The step an event makes, if the contract `ok` allows it. -/
def nextIf (ok : Sys → SysEvent → Prop) [∀ s e, Decidable (ok s e)] (s : Sys) (e : SysEvent) : Option Sys :=
  if ok s e then s.next e else none

/-- Events that can be replayed from the start, the event `e` among them, are the events of
a run. -/
theorem exists_run (cfg : Config) (ok : Sys → SysEvent → Prop) [∀ s e, Decidable (ok s e)] (es₁ : List SysEvent)
    (e : SysEvent) (es₂ : List SysEvent) {p : Sys → Sys → Sys → Bool}
    (h : (martosPre cfg).toOption.any (fun c => (replay (nextIf ok) (start c) es₁).any fun s₁ =>
      (nextIf ok s₁ e).any fun s₂ => (replay (nextIf ok) s₂ es₂).any (p s₁ s₂)) = true) :
    ∃ c tr₁ s₁ s₂ tr₂ s, martosPre cfg = .ok c ∧
      Run (Restrict ok Sys.Step) (start c) (tr₁ ++ ⟨s₁, e, s₂⟩ :: tr₂) s ∧
      tr₂.map Move.event = es₂ ∧ p s₁ s₂ s = true := by
  obtain ⟨c, hc, h⟩ := (Option.any_eq_true ..).mp h
  obtain ⟨tr₁, s₁, s₂, tr₂, s, hr, htr, hp⟩ :=
    Run.exists_of_replay (restrict_of_nextIf fun _ _ _ => step_of_next) h
  exact ⟨c, tr₁, s₁, s₂, tr₂, s, Checked.eq_ok_of_toOption hc, hr, htr, hp⟩

/-- Events that can be replayed from the start are the events of a run. -/
theorem exists_run_of_events (cfg : Config) (ok : Sys → SysEvent → Prop) [∀ s e, Decidable (ok s e)]
    (es : List SysEvent) {p : Sys → Bool}
    (h : (martosPre cfg).toOption.any (fun c => (replay (nextIf ok) (start c) es).any p) = true) :
    ∃ c tr s, martosPre cfg = .ok c ∧ Run (Restrict ok Sys.Step) (start c) tr s ∧ tr.map Move.event = es ∧
      p s = true := by
  obtain ⟨c, hc, h⟩ := (Option.any_eq_true ..).mp h
  obtain ⟨s, hs, hp⟩ := (Option.any_eq_true ..).mp h
  obtain ⟨tr, hr, htr⟩ := Run.of_replay (restrict_of_nextIf fun _ _ _ => step_of_next) hs
  exact ⟨c, tr, s, Checked.eq_ok_of_toOption hc, hr, htr, hp⟩

end Sys

end Martos
