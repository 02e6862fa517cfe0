import Martos.Services.Holdings
import Martos.Services.Messages

/-!
# The mailboxes of lwIP

`sys_arch.c` makes a mailbox of a message port. `sys_mbox_new` leaves the port without an
owner and without a signal; `sys_arch_mbox_fetch` fills these in, each time for the task
that calls it, and allocates the signal if there is none yet.

`MboxSys` is the whole machine with one such mailbox, the port `mbox`. A task in one of the
mailbox functions is at a point `MboxPc`; `MboxEvent.step` runs it on by one statement,
which is at most one event of the machine below. Everything else that happens, other
mailboxes included, is an event of that machine (`MboxEvent.sys`).

`mem_malloc` and `mem_free` belong to lwIP: the block a post gets is given by the event, and
`MboxSys.allocated` says which blocks are handed out.

What the callers keep to (`MboxSys.Contract`): a block is fresh; other code leaves the mailbox's
port alone, and a task that calls a mailbox function is in no other function.
-/

namespace Martos

open Checked Transition

/-! ### Data -/

/-- A `void *`, the payload of a message. -/
abbrev VoidPtr := ℕ

/-- `SYS_ARCH_TIMEOUT`. -/
def sysArchTimeout : Ticks := 0xFFFFFFFF

/-- `SYS_MBOX_EMPTY`, which is `SYS_ARCH_TIMEOUT`. -/
def sysMboxEmpty : Ticks := sysArchTimeout

/-- The argument and the locals of `sys_arch_mbox_fetch` that it has from its start. -/
structure Fetch where
  /-- `timeout`. -/
  timeout : Ticks
  /-- `&timer`. -/
  timer : TimerRef
  /-- `start_time`. -/
  start : Ticks
  deriving DecidableEq

/-- Where a task is in the mailbox functions, and the locals it keeps there. -/
inductive MboxPc where
  /-- In its own code. -/
  | user
  /-- In `sys_mbox_post`, before `msgport_send(mbox, m)`. -/
  | postSend (m : MsgRef)
  /-- In `sys_arch_mbox_fetch`, before `mbox->task = task_find(NULL)`. -/
  | fetchTask (f : Fetch)
  /-- Before the test of `mbox->signal`. -/
  | fetchTest (f : Fetch)
  /-- Before the result of the shift is stored in `mbox->signal`. -/
  | fetchStore (f : Fetch) (signal : Signals)
  /-- Before `mbox->action = MSGPORT_SIGNAL`. -/
  | fetchAction (f : Fetch)
  /-- Before the test of `timeout`. -/
  | fetchTimer (f : Fetch)
  /-- Before the fields of the timer are set. -/
  | fetchSetup (f : Fetch)
  /-- Before `timer_add`. -/
  | fetchAdd (f : Fetch)
  /-- Before `signal_wait`, or still in `timer_add`. -/
  | fetchWait (f : Fetch) (timerSignal : Signals)
  /-- In `signal_wait`. -/
  | fetchWaiting (f : Fetch) (timerSignal : Signals)
  /-- `signal_wait` has returned `gotSignals`. -/
  | fetchGot (f : Fetch) (timerSignal gotSignals : Signals)
  /-- `msgport_get` has returned `m`. -/
  | fetchRead (f : Fetch) (timerSignal : Signals) (m : Option MsgRef)
  /-- Before the last test of `timer_signal`. -/
  | fetchAbort (f : Fetch) (timerSignal : Signals) (endTime : Ticks)
  /-- Before `timer_free`. -/
  | fetchFree (f : Fetch) (endTime : Ticks)
  /-- In `sys_arch_mbox_tryfetch`, before `msgport_get`. -/
  | tryGet
  /-- In `sys_arch_mbox_tryfetch`, `msgport_get` has returned `m`. -/
  | tryRead (m : Option MsgRef)
  deriving DecidableEq

/-- What can happen. -/
inductive MboxEvent where
  /-- An event outside of the mailbox functions, or inside a kernel function they call. -/
  | sys (e : SysEvent)
  /-- The running task calls `sys_mbox_post(mbox, msg)` or `sys_mbox_trypost(mbox, msg)`, and
  `mem_malloc` returns the block `m`. -/
  | post (m : MsgRef) (msg : VoidPtr)
  /-- The running task calls `sys_arch_mbox_fetch(mbox, msg, timeout)`. -/
  | fetch (timeout : Ticks) (timer : TimerRef)
  /-- The running task calls `sys_arch_mbox_tryfetch(mbox, msg)`. -/
  | tryfetch
  /-- The running task calls `sys_mbox_free(mbox)`. -/
  | free
  /-- The running task goes on by a statement. -/
  | step

/-- The machine with a mailbox. -/
structure MboxSys where
  /-- The machine below. -/
  sys : Sys
  /-- Where each task is. -/
  mpc : TaskRef → MboxPc
  /-- `ptr` of each message. -/
  ptr : MsgRef → VoidPtr
  /-- The blocks that `mem_malloc` has handed out. -/
  allocated : MsgRef → Bool
  /-- `sys_mbox_free` has been called. -/
  freed : Bool

/-- `sys_mbox_new`. -/
def Sys.sysMboxNew (mbox : PortRef) (s : Sys) : Sys :=
  s.put ⟨s.cs.core, { s.svc with
    port := Function.update s.svc.port mbox ⟨none, 0, .ignore⟩
    messageList := Function.update s.svc.messageList mbox [] }⟩

instance (s : Sys) : Decidable s.Calling := inferInstanceAs (Decidable (_ ∧ _))

/-- The event takes place in the running task's own code. -/
def SysEvent.byTask : SysEvent → Bool
  | .core (.call _) => true
  | .call _ => true
  | _ => false

namespace MboxSys

variable (mbox : PortRef) (s : MboxSys)

/-- The running task. -/
def running : TaskRef := s.sys.cs.core.running

/-- The mailbox's port. -/
def port : MsgPort := s.sys.svc.port mbox

/-- `message_list`. -/
def messages : List MsgRef := s.sys.svc.messageList mbox

/-- The running task moves to `p`. -/
def goto (p : MboxPc) : MboxSys := { s with mpc := Function.update s.mpc s.running p }

/-- The running task makes an event of the machine below, and moves to `p`. -/
def act (e : SysEvent) (p : MboxPc) : Option MboxSys :=
  (s.sys.next e).map fun sys => { s.goto p with sys := sys }

/-- `mem_free(m)`. -/
def memFree (m : MsgRef) : MboxSys := { s with allocated := Function.update s.allocated m false }

/-- Where a task inside `signal_wait` is when the event has happened. -/
def waited (e : Event) (f : Fetch) (timerSignal : Signals) : MboxPc :=
  match s.sys.cs.returns e with
  | some rcvd => .fetchGot f timerSignal rcvd
  | none => .fetchWaiting f timerSignal

/-- One statement of `sys_mbox_post`, `sys_arch_mbox_fetch` or `sys_arch_mbox_tryfetch`. -/
def execStep : Option MboxSys :=
  match s.mpc s.running with
  | .user => none
  | .postSend m => s.act (.call (.service (.msgportSend mbox m))) .user
  | .fetchTask f => s.act (.call (.write (.port mbox { s.port mbox with task := some s.running }))) (.fetchTest f)
  | .fetchTest f =>
    if (s.port mbox).signal = 0 then
      match signalAllocate (-1) s.sys.cs.core with
      | .ok (signum, _) =>
        -- shifting by a negative number is undefined
        if 0 ≤ signum then s.act (.core (.call (.signalAllocate (-1)))) (.fetchStore f (1#16 <<< signum.toNat))
        else none
      | .error _ => none
    else some (s.goto (.fetchAction f))
  | .fetchStore f signal =>
    if signal = 0 then none
    else s.act (.call (.write (.port mbox { s.port mbox with signal := signal }))) (.fetchAction f)
  | .fetchAction f => s.act (.call (.write (.port mbox { s.port mbox with action := .signal }))) (.fetchTimer f)
  | .fetchTimer f =>
    if f.timeout = 0 then some (s.goto (.fetchWait f 0)) else s.act (.call (.timerAllocate f.timer)) (.fetchSetup f)
  | .fetchSetup f =>
    s.act (.call (.write (.timer f.timer .delay f.timeout (s.sys.svc.timer f.timer).tick))) (.fetchAdd f)
  | .fetchAdd f => s.act (.call (.timerAdd f.timer)) (.fetchWait f (s.sys.svc.timer f.timer).signal)
  | .fetchWait f timerSignal =>
    let e := .call (.signalWait (timerSignal ||| (s.port mbox).signal))
    s.act (.core e) (s.waited e f timerSignal)
  | .fetchWaiting _ _ => none
  | .fetchGot f timerSignal gotSignals =>
    if gotSignals &&& (s.port mbox).signal ≠ 0 then
      s.act (.call (.service (.msgportGet mbox))) (.fetchRead f timerSignal (s.messages mbox).head?)
    else if gotSignals &&& timerSignal ≠ 0 then some (s.goto (.fetchAbort f timerSignal sysArchTimeout))
    -- an endless loop
    else none
  | .fetchRead f timerSignal m =>
    match m with
    | some m => some ((s.goto (.fetchAbort f timerSignal (s.sys.svc.timerNow - f.start))).memFree m)
    -- `assert(NULL != m)`
    | none => none
  | .fetchAbort f timerSignal endTime =>
    if timerSignal ≠ 0 then s.act (.call (.service (.timerAbort f.timer))) (.fetchFree f endTime)
    else some (s.goto .user)
  | .fetchFree f _ => s.act (.call (.timerFree f.timer)) .user
  | .tryGet => s.act (.call (.service (.msgportGet mbox))) (.tryRead (s.messages mbox).head?)
  | .tryRead m =>
    match m with
    | some m => some ((s.goto .user).memFree m)
    | none => some (s.goto .user)

/-- Where the running task is after an event of the machine below. -/
def afterSys : SysEvent → MboxPc
  | .core e =>
    match s.mpc s.running with
    | .fetchWaiting f timerSignal => s.waited e f timerSignal
    | p => p
  | _ => s.mpc s.running

/-- What an event leads to, if it can happen and stops nothing. -/
def next : MboxEvent → Option MboxSys
  | .sys e => if e.byTask = true ∧ s.mpc s.running ≠ .user then none else s.act e (s.afterSys e)
  | .post m msg =>
    if s.sys.Calling ∧ s.mpc s.running = .user then
      some { s.goto (.postSend m) with
        ptr := Function.update s.ptr m msg, allocated := Function.update s.allocated m true }
    else none
  | .fetch timeout timer =>
    if s.sys.Calling ∧ s.mpc s.running = .user then some (s.goto (.fetchTask ⟨timeout, timer, s.sys.svc.timerNow⟩))
    else none
  | .tryfetch => if s.sys.Calling ∧ s.mpc s.running = .user then some (s.goto .tryGet) else none
  | .free =>
    if s.mpc s.running = .user then
      (s.act (.core (.call (.signalFree (s.port mbox).signal))) .user).map fun s => { s with freed := true }
    else none
  | .step => if s.sys.Calling then s.execStep mbox else none

/-- The value that `sys_arch_mbox_fetch` or `sys_arch_mbox_tryfetch` returns in an event, if
it returns. -/
def returns : MboxEvent → Option Ticks
  | .step =>
    match s.mpc s.running with
    | .fetchAbort _ timerSignal endTime => if timerSignal ≠ 0 then none else some endTime
    | .fetchFree _ endTime => some endTime
    | .tryRead m => some (if m.isSome then 0 else sysMboxEmpty)
    | _ => none
  | _ => none

/-- A step of the machine. -/
def Step (s : MboxSys) (e : MboxEvent) (s' : MboxSys) : Prop := s.next mbox e = some s'

/-- The machine when `sys_mbox_new` has returned. -/
def start (sys : Sys) (ptr : MsgRef → VoidPtr) (allocated : MsgRef → Bool) : MboxSys :=
  ⟨sys.sysMboxNew mbox, fun _ => .user, ptr, allocated, false⟩

end MboxSys

/-! ### What is posted and fetched -/

/-- The payload of the message that is put on the mailbox's list in a move. -/
def MboxSys.posts (m : Move MboxSys MboxEvent) : Option VoidPtr :=
  match m.event, m.pre.mpc m.pre.running with
  | .step, .postSend msg => some (m.pre.ptr msg)
  | _, _ => none

/-- The payload that is read from a message taken from the mailbox's list in a move. -/
def MboxSys.takes (m : Move MboxSys MboxEvent) : Option VoidPtr :=
  match m.event, m.pre.mpc m.pre.running with
  | .step, .fetchRead _ _ (some msg) => some (m.pre.ptr msg)
  | .step, .tryRead (some msg) => some (m.pre.ptr msg)
  | _, _ => none

/-! ### What the callers keep to -/

/-- A call that does not block uses the port. -/
def Service.Touches (svc : Services) (mbox : PortRef) : Service → Prop
  | .msgportGet p => p = mbox
  | .msgportSend p _ => p = mbox
  | .msgportReply m => svc.replyPort m = some mbox
  | _ => False

/-- An event uses the port. -/
def Sys.Touches (s : Sys) (mbox : PortRef) : SysEvent → Prop
  | .call (.service a) => a.Touches s.svc mbox
  | .isr a => a.Touches s.svc mbox
  | .call (.msgportInit p) => p = mbox
  | .call (.msgportWait p) => p = mbox
  | .call (.write (.port p _)) => p = mbox
  | .resume => s.spc s.cs.core.running = .msgportWait mbox
  | _ => False

/-- The timer that a fetch has allocated and not yet freed. -/
def MboxPc.timer : MboxPc → Option TimerRef
  | .fetchSetup f => some f.timer
  | .fetchAdd f => some f.timer
  | .fetchWait f timerSignal => if timerSignal = 0 then none else some f.timer
  | .fetchWaiting f timerSignal => if timerSignal = 0 then none else some f.timer
  | .fetchGot f timerSignal _ => if timerSignal = 0 then none else some f.timer
  | .fetchRead f timerSignal _ => if timerSignal = 0 then none else some f.timer
  | .fetchAbort f timerSignal _ => if timerSignal = 0 then none else some f.timer
  | .fetchFree f _ => some f.timer
  | _ => none

namespace MboxSys

variable (mbox : PortRef) (t : TaskRef) (s : MboxSys)

/-- The signal of the mailbox, from its allocation by task `t` on. -/
def bit : Signals :=
  match s.mpc t with
  | .fetchStore _ signal => signal
  | _ => (s.port mbox).signal

/-- The mailbox's signal is pending for task `t`. -/
def Pending : Prop := s.bit mbox t &&& (s.sys.cs.core.task t).sigRecvd ≠ 0

/-- Other code leaves alone the mailbox, its signal and the timer of a fetch. -/
structure Leaves (e : SysEvent) : Prop where
  /-- The port. -/
  port : ¬ s.sys.Touches mbox e
  /-- The timer is allocated by the fetch alone. -/
  timer : ∀ tm ∈ (s.mpc t).timer, ∀ p ∈ e.allocates, p.1 ≠ .timer tm
  /-- Nobody else sends the signal. The timer of the fetch sends its own. -/
  sends : ∀ p ∈ s.sys.sends e, p.1 = t → p.2 &&& s.bit mbox t = 0 ∨
    ∃ tm ∈ (s.mpc t).timer, p.2 = (s.sys.svc.timer tm).signal
  /-- The task does not wait for it elsewhere. -/
  waits : s.running = t → ∀ sg ∈ s.sys.waitsFor e, sg &&& s.bit mbox t = 0
  /-- Nor does it free it. -/
  frees : s.running = t → ∀ p ∈ s.sys.frees e, p.2 &&& s.bit mbox t = 0
  /-- Nor does it ask for it once more. -/
  asks : s.running = t → ∀ p ∈ e.allocates, p.2 = -1 ∨ (1#16 <<< p.2.toNat) &&& s.bit mbox t = 0

/-- What the callers keep to, where task `t` is the mailbox's single consumer. -/
def Contract : MboxEvent → Prop
  | .sys e => s.Leaves mbox t e
  | .post m _ => s.allocated m = false
  | .fetch _ _ => s.running = t
  | .tryfetch => s.running = t
  | .free => False
  | .step => True

instance (svc : Services) (a : Service) : Decidable (a.Touches svc mbox) :=
  match a with
  | .msgportGet p => inferInstanceAs (Decidable (p = mbox))
  | .msgportSend p _ => inferInstanceAs (Decidable (p = mbox))
  | .msgportReply m => inferInstanceAs (Decidable (svc.replyPort m = some mbox))
  | .semInit _ _ | .semAddRequest _ _ | .semSignal _ | .timerAbort _ => inferInstanceAs (Decidable False)

instance (s : Sys) (e : SysEvent) : Decidable (s.Touches mbox e) :=
  decidable_of_iff ((match e with
    | .call (.service a) => decide (a.Touches s.svc mbox)
    | .isr a => decide (a.Touches s.svc mbox)
    | .call (.msgportInit p) => decide (p = mbox)
    | .call (.msgportWait p) => decide (p = mbox)
    | .call (.write (.port p _)) => decide (p = mbox)
    | .resume => decide (s.spc s.cs.core.running = .msgportWait mbox)
    | _ => false) = true) (by
      unfold Sys.Touches
      split <;> simp)

instance (e : SysEvent) : Decidable (s.Leaves mbox t e) :=
  decidable_of_iff (¬ s.sys.Touches mbox e ∧
      (((s.mpc t).timer.all fun tm => e.allocates.all fun p => decide (p.1 ≠ .timer tm)) = true ∧
      ((s.sys.sends e).all fun p => decide (p.1 = t → p.2 &&& s.bit mbox t = 0 ∨
        ((s.mpc t).timer.any fun tm => decide (p.2 = (s.sys.svc.timer tm).signal)) = true)) = true ∧
      (s.running = t → ((s.sys.waitsFor e).all fun sg => decide (sg &&& s.bit mbox t = 0)) = true ∧
        ((s.sys.frees e).all fun p => decide (p.2 &&& s.bit mbox t = 0)) = true ∧
        (e.allocates.all fun p => decide (p.2 = -1 ∨ (1#16 <<< p.2.toNat) &&& s.bit mbox t = 0)) = true)))
    (by
      simp only [Option.all_eq_true, Option.any_eq_true, List.all_eq_true, decide_eq_true_eq]
      constructor
      · intro ⟨hport, htimer, hsends, hrun⟩
        exact ⟨hport, htimer, fun p hp ht => (hsends p hp ht).imp_right fun ⟨tm, htm⟩ => ⟨tm, htm.1, htm.2⟩,
          fun hr => (hrun hr).1, fun hr => (hrun hr).2.1, fun hr => (hrun hr).2.2⟩
      · intro h
        exact ⟨h.port, h.timer, fun p hp ht => (h.sends p hp ht).imp_right fun ⟨tm, htm⟩ => ⟨tm, htm.1, htm.2⟩,
          fun hr => ⟨h.waits hr, h.frees hr, h.asks hr⟩⟩)

instance (ev : MboxEvent) : Decidable (s.Contract mbox t ev) := by
  cases ev <;> unfold Contract <;> infer_instance

end MboxSys

end Martos
