import Martos.Lwip.Timed
import Martos.Services.Semaphores

/-!
# The semaphores of lwIP

`sys_arch.c` makes a semaphore of lwIP of a `Semaphore`: `sys_sem_new` is `sem_init` and
`sys_sem_signal` is `sem_signal`. Only `sys_arch_sem_wait` does more. It allocates a signal,
hands a request on its stack to `sem_add_request` and waits for the signal, with a timer on
its stack if there is a timeout.

`SemSys` is the whole machine with any number of tasks in `sys_arch_sem_wait`, each at a
point `SemPc`; `SemEvent.step` runs the running one on by one statement, which is at most one
event of the machine below. Everything else is an event of that machine (`SemEvent.sys`).

What the callers keep to (`SemSys.Contract`): the request and the timer are local variables, so
nothing else is at their addresses and no other code uses them.
-/

namespace Martos

open Checked Transition

/-! ### Data -/

/-- The arguments and the locals of `sys_arch_sem_wait` that it has from its start. -/
structure SemWait where
  /-- `sem`. -/
  sem : SemRef
  /-- `timeout`. -/
  timeout : Ticks
  /-- `&req`. -/
  req : ReqRef
  /-- `&timer`. -/
  timer : TimerRef
  /-- `start_time`. -/
  start : Ticks
  deriving DecidableEq

/-- Where a task is in `sys_arch_sem_wait`, and the locals it keeps there. -/
inductive SemPc where
  /-- In its own code. -/
  | user
  /-- Before `signal_allocate(-1)`. -/
  | waitAllocate (w : SemWait)
  /-- Before the result of the shift is stored in `req.signal`. -/
  | waitStore (w : SemWait) (signal : Signals)
  /-- Before `req.waiter = task_find(NULL)`. -/
  | waitWaiter (w : SemWait)
  /-- Before `sem_add_request`. -/
  | waitRequest (w : SemWait)
  /-- `sem_add_request` has returned false. -/
  | waitEarly (w : SemWait)
  /-- Before the test of `timeout`. -/
  | waitTimer (w : SemWait)
  /-- Before the fields of the timer are set. -/
  | waitSetup (w : SemWait)
  /-- Before `timer_add`. -/
  | waitAdd (w : SemWait)
  /-- Before `signal_wait`, or still in `timer_add`. -/
  | waitSignal (w : SemWait) (timerSignal : Signals)
  /-- In `signal_wait`. -/
  | waiting (w : SemWait) (timerSignal : Signals)
  /-- `signal_wait` has returned `gotSignals`. -/
  | waitGot (w : SemWait) (timerSignal gotSignals : Signals)
  /-- Before the last test of `timer_signal`. -/
  | waitAbort (w : SemWait) (timerSignal : Signals) (endTime : Ticks)
  /-- Before `timer_free`. -/
  | waitTimerFree (w : SemWait) (endTime : Ticks)
  /-- Before `signal_free(req.signal)`. -/
  | waitFree (w : SemWait) (endTime : Ticks)
  deriving DecidableEq

/-- The call of `sys_arch_sem_wait` that a task is in. -/
def SemPc.call : SemPc → Option SemWait
  | .user => none
  | .waitAllocate w => some w
  | .waitStore w _ => some w
  | .waitWaiter w => some w
  | .waitRequest w => some w
  | .waitEarly w => some w
  | .waitTimer w => some w
  | .waitSetup w => some w
  | .waitAdd w => some w
  | .waitSignal w _ => some w
  | .waiting w _ => some w
  | .waitGot w _ _ => some w
  | .waitAbort w _ _ => some w
  | .waitTimerFree w _ => some w
  | .waitFree w _ => some w

/-- What can happen. -/
inductive SemEvent where
  /-- An event outside of `sys_arch_sem_wait`, or inside a kernel function it calls. -/
  | sys (e : SysEvent)
  /-- The running task calls `sys_arch_sem_wait(sem, timeout)`. -/
  | wait (sem : SemRef) (timeout : Ticks) (req : ReqRef) (timer : TimerRef)
  /-- The running task goes on by a statement. -/
  | step

/-- The machine with tasks in `sys_arch_sem_wait`. -/
structure SemSys where
  /-- The machine below. -/
  sys : Sys
  /-- Where each task is. -/
  wpc : TaskRef → SemPc

namespace SemSys

variable (s : SemSys)

/-- The running task. -/
def running : TaskRef := s.sys.cs.core.running

/-- The request at `req`. -/
def request (req : ReqRef) : SemaphoreRequest := s.sys.svc.request req

/-- The running task moves to `p`. -/
def goto (p : SemPc) : SemSys := { s with wpc := Function.update s.wpc s.running p }

/-- The running task makes an event of the machine below, and moves to `p`. -/
def act (e : SysEvent) (p : SemPc) : Option SemSys :=
  (s.sys.next e).map fun sys => { s.goto p with sys := sys }

/-- Where a task inside `signal_wait` is when the event has happened. -/
def waited (e : Event) (w : SemWait) (timerSignal : Signals) : SemPc :=
  match s.sys.cs.returns e with
  | some rcvd => .waitGot w timerSignal rcvd
  | none => .waiting w timerSignal

/-- One statement of `sys_arch_sem_wait`. -/
def execStep : Option SemSys :=
  match s.wpc s.running with
  | .user => none
  | .waitAllocate w =>
    match signalAllocate (-1) s.sys.cs.core with
    | .ok (signum, _) =>
      -- shifting by a negative number is undefined
      if 0 ≤ signum then s.act (.core (.call (.signalAllocate (-1)))) (.waitStore w (1#16 <<< signum.toNat)) else none
    | .error _ => none
  | .waitStore w signal =>
    if signal = 0 then none
    else s.act (.call (.write (.request w.req { s.request w.req with signal := signal }))) (.waitWaiter w)
  | .waitWaiter w =>
    s.act (.call (.write (.request w.req { s.request w.req with waiter := s.running }))) (.waitRequest w)
  | .waitRequest w =>
    s.act (.call (.service (.semAddRequest w.sem w.req)))
      (if gotResource (semAddRequest w.sem w.req s.sys.kernel) then .waitEarly w else .waitTimer w)
  | .waitEarly w => some (s.goto (.waitFree w (s.sys.svc.timerNow - w.start)))
  | .waitTimer w =>
    if w.timeout = 0 then some (s.goto (.waitSignal w 0)) else s.act (.call (.timerAllocate w.timer)) (.waitSetup w)
  | .waitSetup w =>
    s.act (.call (.write (.timer w.timer .delay w.timeout (s.sys.svc.timer w.timer).tick))) (.waitAdd w)
  | .waitAdd w => s.act (.call (.timerAdd w.timer)) (.waitSignal w (s.sys.svc.timer w.timer).signal)
  | .waitSignal w timerSignal =>
    let e := .call (.signalWait (timerSignal ||| (s.request w.req).signal))
    s.act (.core e) (s.waited e w timerSignal)
  | .waiting _ _ => none
  | .waitGot w timerSignal gotSignals =>
    if gotSignals &&& (s.request w.req).signal ≠ 0 then
      some (s.goto (.waitAbort w timerSignal (s.sys.svc.timerNow - w.start)))
    else if gotSignals &&& timerSignal ≠ 0 then some (s.goto (.waitAbort w timerSignal sysArchTimeout))
    -- an endless loop
    else none
  | .waitAbort w timerSignal endTime =>
    if timerSignal ≠ 0 then s.act (.call (.service (.timerAbort w.timer))) (.waitTimerFree w endTime)
    else some (s.goto (.waitFree w endTime))
  | .waitTimerFree w endTime => s.act (.call (.timerFree w.timer)) (.waitFree w endTime)
  | .waitFree w _ => s.act (.core (.call (.signalFree (s.request w.req).signal))) .user

/-- Where the running task is after an event of the machine below. -/
def afterSys : SysEvent → SemPc
  | .core e =>
    match s.wpc s.running with
    | .waiting w timerSignal => s.waited e w timerSignal
    | p => p
  | _ => s.wpc s.running

/-- What an event leads to, if it can happen and stops nothing. -/
def next : SemEvent → Option SemSys
  | .sys e => if e.byTask = true ∧ s.wpc s.running ≠ .user then none else s.act e (s.afterSys e)
  | .wait sem timeout req timer =>
    if s.sys.Calling ∧ s.wpc s.running = .user then
      some (s.goto (.waitAllocate ⟨sem, timeout, req, timer, s.sys.svc.timerNow⟩))
    else none
  | .step => if s.sys.Calling then s.execStep else none

/-- The value that `sys_arch_sem_wait` returns in an event, if it returns. -/
def returns : SemEvent → Option Ticks
  | .step =>
    match s.wpc s.running with
    | .waitFree _ endTime => some endTime
    | _ => none
  | _ => none

/-- A step of the machine. -/
def Step (s : SemSys) (e : SemEvent) (s' : SemSys) : Prop := s.next e = some s'

/-- The machine before any call. -/
def start (sys : Sys) : SemSys := ⟨sys, fun _ => .user⟩

end SemSys

/-! ### What the callers keep to -/

/-- The event uses the request: it hands it to a semaphore, or writes to it. -/
def SysEvent.UsesRequest (req : ReqRef) (e : SysEvent) : Prop :=
  (∃ sem, e.requests = some (sem, req)) ∨ ∃ value, e = .call (.write (.request req value))

namespace SemSys

variable (s : SemSys)

/-- What the callers keep to. The request and the timer are local objects of the call: nobody else uses them while it is
in progress, and their addresses are not in use when it starts. So `reqAt req = none` is asked, too. It excludes a call
whose request gets the address of one that an earlier call has left on a queue when it timed out: a stack slot that is
used again while the queue still points to it. -/
def Contract : SemEvent → Prop
  | .sys e => ∀ t w, (s.wpc t).call = some w → ¬ e.Uses w.timer ∧ ¬ e.UsesRequest w.req
  | .wait _ _ req timer =>
    (∀ t w, (s.wpc t).call = some w → timer ≠ w.timer ∧ req ≠ w.req) ∧ s.sys.Unused timer ∧ s.sys.reqAt req = none
  | .step => True

end SemSys

/-! ### The steps of the machine -/

/-- What a step can do: the state before it, the event, the state after it. -/
inductive SemEffect (s : SemSys) : SemEvent → SemSys → Prop where
  /-- The machine below moves. -/
  | sys {e : SysEvent} {sys : Sys} (hp : e.byTask = true → s.wpc s.running = .user) (hst : s.sys.Step e sys) :
    SemEffect s (.sys e) { s.goto (s.afterSys e) with sys := sys }
  /-- `sys_arch_sem_wait` begins. -/
  | enters {sem : SemRef} {timeout : Ticks} {req : ReqRef} {timer : TimerRef} (hu : s.sys.Calling)
      (hp : s.wpc s.running = .user) :
    SemEffect s (.wait sem timeout req timer) (s.goto (.waitAllocate ⟨sem, timeout, req, timer, s.sys.svc.timerNow⟩))
  /-- A signal is allocated. -/
  | allocates {w : SemWait} {i : ℕ} {c : Core} {sys : Sys} (hu : s.sys.Calling) (hp : s.wpc s.running = .waitAllocate w)
      (hc : signalAllocate (-1) s.sys.cs.core = .ok ((i : ℤ), c))
      (hst : s.sys.Step (.core (.call (.signalAllocate (-1)))) sys) :
    SemEffect s .step { s.goto (.waitStore w (1#16 <<< i)) with sys := sys }
  /-- It is stored in the request. -/
  | stores {w : SemWait} {signal : Signals} {sys : Sys} (hu : s.sys.Calling)
      (hp : s.wpc s.running = .waitStore w signal)
      (hz : signal ≠ 0)
      (hst : s.sys.Step (.call (.write (.request w.req { s.request w.req with signal := signal }))) sys) :
    SemEffect s .step { s.goto (.waitWaiter w) with sys := sys }
  /-- The caller is going to wait. -/
  | setsWaiter {w : SemWait} {sys : Sys} (hu : s.sys.Calling) (hp : s.wpc s.running = .waitWaiter w)
      (hst : s.sys.Step (.call (.write (.request w.req { s.request w.req with waiter := s.running }))) sys) :
    SemEffect s .step { s.goto (.waitRequest w) with sys := sys }
  /-- The semaphore is got at once. -/
  | gets {w : SemWait} {sys : Sys} (hu : s.sys.Calling) (hp : s.wpc s.running = .waitRequest w)
      (hg : gotResource (semAddRequest w.sem w.req s.sys.kernel) = true)
      (hst : s.sys.Step (.call (.service (.semAddRequest w.sem w.req))) sys) :
    SemEffect s .step { s.goto (.waitEarly w) with sys := sys }
  /-- The request is queued. -/
  | queues {w : SemWait} {sys : Sys} (hu : s.sys.Calling) (hp : s.wpc s.running = .waitRequest w)
      (hg : gotResource (semAddRequest w.sem w.req s.sys.kernel) = false)
      (hst : s.sys.Step (.call (.service (.semAddRequest w.sem w.req))) sys) :
    SemEffect s .step { s.goto (.waitTimer w) with sys := sys }
  /-- The clock is read. -/
  | early {w : SemWait} (hu : s.sys.Calling) (hp : s.wpc s.running = .waitEarly w) :
    SemEffect s .step (s.goto (.waitFree w (s.sys.svc.timerNow - w.start)))
  /-- There is no timeout. -/
  | skipsTimer {w : SemWait} (hu : s.sys.Calling) (hp : s.wpc s.running = .waitTimer w) (hz : w.timeout = 0) :
    SemEffect s .step (s.goto (.waitSignal w 0))
  /-- `timer_allocate`. -/
  | allocatesTimer {w : SemWait} {sys : Sys} (hu : s.sys.Calling) (hp : s.wpc s.running = .waitTimer w)
      (hz : w.timeout ≠ 0) (hst : s.sys.Step (.call (.timerAllocate w.timer)) sys) :
    SemEffect s .step { s.goto (.waitSetup w) with sys := sys }
  /-- The timer is set up. -/
  | setsTimer {w : SemWait} {sys : Sys} (hu : s.sys.Calling) (hp : s.wpc s.running = .waitSetup w)
      (hst : s.sys.Step (.call (.write (.timer w.timer .delay w.timeout (s.sys.svc.timer w.timer).tick))) sys) :
    SemEffect s .step { s.goto (.waitAdd w) with sys := sys }
  /-- `timer_add` begins. -/
  | addsTimer {w : SemWait} {sys : Sys} (hu : s.sys.Calling) (hp : s.wpc s.running = .waitAdd w)
      (hst : s.sys.Step (.call (.timerAdd w.timer)) sys) :
    SemEffect s .step { s.goto (.waitSignal w (s.sys.svc.timer w.timer).signal) with sys := sys }
  /-- `signal_wait` is called. -/
  | waits {w : SemWait} {timerSignal : Signals} {sys : Sys} (hu : s.sys.Calling)
      (hp : s.wpc s.running = .waitSignal w timerSignal)
      (hst : s.sys.Step (.core (.call (.signalWait (timerSignal ||| (s.request w.req).signal)))) sys) :
    SemEffect s .step
      { s.goto (s.waited (.call (.signalWait (timerSignal ||| (s.request w.req).signal))) w timerSignal) with
        sys := sys }
  /-- The semaphore has been got. -/
  | granted {w : SemWait} {timerSignal gotSignals : Signals} (hu : s.sys.Calling)
      (hp : s.wpc s.running = .waitGot w timerSignal gotSignals) (hz : gotSignals &&& (s.request w.req).signal ≠ 0) :
    SemEffect s .step (s.goto (.waitAbort w timerSignal (s.sys.svc.timerNow - w.start)))
  /-- The wait has timed out. -/
  | timesOut {w : SemWait} {timerSignal gotSignals : Signals} (hu : s.sys.Calling)
      (hp : s.wpc s.running = .waitGot w timerSignal gotSignals) (hz : gotSignals &&& (s.request w.req).signal = 0)
      (ht : gotSignals &&& timerSignal ≠ 0) :
    SemEffect s .step (s.goto (.waitAbort w timerSignal sysArchTimeout))
  /-- `timer_abort`. -/
  | abortsTimer {w : SemWait} {timerSignal : Signals} {endTime : Ticks} {sys : Sys} (hu : s.sys.Calling)
      (hp : s.wpc s.running = .waitAbort w timerSignal endTime) (hz : timerSignal ≠ 0)
      (hst : s.sys.Step (.call (.service (.timerAbort w.timer))) sys) :
    SemEffect s .step { s.goto (.waitTimerFree w endTime) with sys := sys }
  /-- There is no timer. -/
  | skipsAbort {w : SemWait} {timerSignal : Signals} {endTime : Ticks} (hu : s.sys.Calling)
      (hp : s.wpc s.running = .waitAbort w timerSignal endTime) (hz : timerSignal = 0) :
    SemEffect s .step (s.goto (.waitFree w endTime))
  /-- `timer_free`. -/
  | freesTimer {w : SemWait} {endTime : Ticks} {sys : Sys} (hu : s.sys.Calling)
      (hp : s.wpc s.running = .waitTimerFree w endTime) (hst : s.sys.Step (.call (.timerFree w.timer)) sys) :
    SemEffect s .step { s.goto (.waitFree w endTime) with sys := sys }
  /-- `signal_free`, and the wait returns. -/
  | returns {w : SemWait} {endTime : Ticks} {sys : Sys} (hu : s.sys.Calling)
      (hp : s.wpc s.running = .waitFree w endTime)
      (hst : s.sys.Step (.core (.call (.signalFree (s.request w.req).signal))) sys) :
    SemEffect s .step { s.goto .user with sys := sys }

section

variable {s s' : SemSys} {ev : SemEvent}

theorem SemSys.act_eq_some {e : SysEvent} {p : SemPc} (h : s.act e p = some s') :
    ∃ sys, s.sys.Step e sys ∧ s' = { s.goto p with sys := sys } := by
  obtain ⟨sys, hsys, rfl⟩ := Option.map_eq_some_iff.mp h
  exact ⟨sys, Sys.step_of_next hsys, rfl⟩

theorem SemSys.execStep_effect (hu : s.sys.Calling) (h : s.execStep = some s') : SemEffect s .step s' := by
  unfold SemSys.execStep at h
  split at h
  · cases h
  · next w hp =>
    cases hc : signalAllocate (-1) s.sys.cs.core with
    | error e => simp [hc] at h
    | ok r =>
      obtain ⟨signum, c⟩ := r
      simp only [hc] at h
      by_cases hn : 0 ≤ signum
      · rw [if_pos hn] at h
        obtain ⟨i, rfl⟩ := Int.eq_ofNat_of_zero_le hn
        obtain ⟨sys, hst, rfl⟩ := SemSys.act_eq_some h
        exact .allocates hu hp hc hst
      · rw [if_neg hn] at h
        cases h
  · next w signal hp =>
    by_cases hz : signal = 0
    · rw [if_pos hz] at h
      cases h
    · rw [if_neg hz] at h
      obtain ⟨sys, hst, rfl⟩ := SemSys.act_eq_some h
      exact .stores hu hp hz hst
  · next w hp =>
    obtain ⟨sys, hst, rfl⟩ := SemSys.act_eq_some h
    exact .setsWaiter hu hp hst
  · next w hp =>
    obtain ⟨sys, hst, rfl⟩ := SemSys.act_eq_some h
    cases hg : gotResource (semAddRequest w.sem w.req s.sys.kernel) with
    | true => exact .gets hu hp hg hst
    | false => exact .queues hu hp hg hst
  · next w hp =>
    cases h
    exact .early hu hp
  · next w hp =>
    by_cases hz : w.timeout = 0
    · rw [if_pos hz] at h
      cases h
      exact .skipsTimer hu hp hz
    · rw [if_neg hz] at h
      obtain ⟨sys, hst, rfl⟩ := SemSys.act_eq_some h
      exact .allocatesTimer hu hp hz hst
  · next w hp =>
    obtain ⟨sys, hst, rfl⟩ := SemSys.act_eq_some h
    exact .setsTimer hu hp hst
  · next w hp =>
    obtain ⟨sys, hst, rfl⟩ := SemSys.act_eq_some h
    exact .addsTimer hu hp hst
  · next w timerSignal hp =>
    obtain ⟨sys, hst, rfl⟩ := SemSys.act_eq_some h
    exact .waits hu hp hst
  · cases h
  · next w timerSignal gotSignals hp =>
    by_cases hz : gotSignals &&& (s.request w.req).signal ≠ 0
    · rw [if_pos hz] at h
      cases h
      exact .granted hu hp hz
    · rw [if_neg hz] at h
      by_cases ht : gotSignals &&& timerSignal ≠ 0
      · rw [if_pos ht] at h
        cases h
        exact .timesOut hu hp (not_not.mp hz) ht
      · rw [if_neg ht] at h
        cases h
  · next w timerSignal endTime hp =>
    by_cases hz : timerSignal ≠ 0
    · rw [if_pos hz] at h
      obtain ⟨sys, hst, rfl⟩ := SemSys.act_eq_some h
      exact .abortsTimer hu hp hz hst
    · rw [if_neg hz] at h
      cases h
      exact .skipsAbort hu hp (not_not.mp hz)
  · next w endTime hp =>
    obtain ⟨sys, hst, rfl⟩ := SemSys.act_eq_some h
    exact .freesTimer hu hp hst
  · next w endTime hp =>
    obtain ⟨sys, hst, rfl⟩ := SemSys.act_eq_some h
    exact .returns hu hp hst

/-- **Every step has one of these effects.** -/
theorem SemSys.Step.effect (h : s.Step ev s') : SemEffect s ev s' := by
  unfold SemSys.Step at h
  cases ev with
  | sys e =>
    simp only [SemSys.next] at h
    by_cases hp : e.byTask = true ∧ s.wpc s.running ≠ .user
    · rw [if_pos hp] at h
      cases h
    · rw [if_neg hp] at h
      obtain ⟨sys, hst, rfl⟩ := SemSys.act_eq_some h
      exact .sys (fun hb => by_contra fun hne => hp ⟨hb, hne⟩) hst
  | wait sem timeout req timer =>
    simp only [SemSys.next] at h
    by_cases hu : s.sys.Calling ∧ s.wpc s.running = .user
    · rw [if_pos hu] at h
      cases h
      exact .enters hu.1 hu.2
    · rw [if_neg hu] at h
      cases h
  | step =>
    simp only [SemSys.next] at h
    by_cases hu : s.sys.Calling
    · rw [if_pos hu] at h
      exact SemSys.execStep_effect hu h
    · rw [if_neg hu] at h
      cases h

@[simp] theorem SemSys.goto_wpc_self {p : SemPc} : (s.goto p).wpc s.running = p := Function.update_self ..

/-- Only a task in `sys_arch_sem_wait` goes on there. -/
theorem SemSys.Step.in_call (hst : s.Step .step s') : s.wpc s.running ≠ .user := by
  intro hp
  unfold SemSys.Step SemSys.next at hst
  by_cases hu : s.sys.Calling
  · simp only [if_pos hu, SemSys.execStep, hp] at hst
    cases hst
  · simp only [if_neg hu] at hst
    cases hst

/-- Where the running task is after a step. -/
theorem SemEffect.wpc_eq (heff : SemEffect s ev s') : ∃ p, s'.wpc = Function.update s.wpc s.running p := by
  cases heff <;> exact ⟨_, rfl⟩

theorem SemEffect.wpc_of_ne {t : TaskRef} (heff : SemEffect s ev s') (ht : t ≠ s.running) : s'.wpc t = s.wpc t := by
  obtain ⟨p, hp⟩ := heff.wpc_eq
  rw [hp, Function.update_of_ne ht]

theorem SysEvent.not_uses_request {req : ReqRef} {value : SemaphoreRequest} {tm : TimerRef} :
    ¬ (SysEvent.call (.write (.request req value))).Uses tm := by
  rintro ((hu | ⟨x, hu⟩) | hu | hu | hu | ⟨x, y, z, hu⟩) <;> cases hu

theorem SysEvent.not_uses_semAddRequest {sem : SemRef} {req : ReqRef} {tm : TimerRef} :
    ¬ (SysEvent.call (.service (.semAddRequest sem req))).Uses tm := by
  rintro ((hu | ⟨x, hu⟩) | hu | hu | hu | ⟨x, y, z, hu⟩) <;> cases hu

theorem SysEvent.not_usesRequest {e : SysEvent} (hr : e.requests = none)
    (hw : ∀ req value, e ≠ .call (.write (.request req value))) (req : ReqRef) : ¬ e.UsesRequest req := by
  rintro (⟨sem, hu⟩ | ⟨value, hu⟩)
  · cases hr.symm.trans hu
  · exact hw req value hu

/-- The event is one of a call of `sys_arch_sem_wait`: it uses the call's own timer and request. -/
structure SemWait.Makes (w : SemWait) (e : SysEvent) : Prop where
  /-- It takes place in the task. -/
  byTask : e.byTask = true
  /-- The timer. -/
  timer : ∀ v, e.Uses v → v = w.timer
  /-- The request. -/
  request : ∀ req, e.UsesRequest req → req = w.req

theorem SemWait.makes_core (w : SemWait) (k : Call) : w.Makes (.core (.call k)) where
  byTask := rfl
  timer _ hu := absurd hu SysEvent.not_uses_core
  request req hu := absurd hu (SysEvent.not_usesRequest rfl (fun _ _ he => by cases he) req)

theorem SemWait.makes_write (w : SemWait) (value : SemaphoreRequest) :
    w.Makes (.call (.write (.request w.req value))) where
  byTask := rfl
  timer _ hu := absurd hu SysEvent.not_uses_request
  request req hu := by
    rcases hu with ⟨sem, hu⟩ | ⟨value', hu⟩ <;> cases hu
    rfl

theorem SemWait.makes_request (w : SemWait) : w.Makes (.call (.service (.semAddRequest w.sem w.req))) where
  byTask := rfl
  timer _ hu := absurd hu SysEvent.not_uses_semAddRequest
  request req hu := by
    rcases hu with ⟨sem, hu⟩ | ⟨value', hu⟩ <;> cases hu
    rfl

theorem SemWait.makes_timer (w : SemWait) {k : ServiceCall} (hk : k = .timerAllocate w.timer ∨ k = .timerFree w.timer ∨
    k = .timerAdd w.timer ∨ k = .service (.timerAbort w.timer) ∨
    ∃ op delay tick, k = .write (.timer w.timer op delay tick)) : w.Makes (.call k) where
  byTask := rfl
  timer _ hu := by
    refine (SysEvent.uses_eq ?_ hu).symm
    rcases hk with rfl | rfl | rfl | rfl | ⟨op, delay, tick, rfl⟩
    · exact .inl rfl
    · exact .inr (.inl rfl)
    · exact .inr (.inr (.inl rfl))
    · exact .inr (.inr (.inr (.inl rfl)))
    · exact .inr (.inr (.inr (.inr ⟨op, delay, tick, rfl⟩)))
  request req hu := by
    refine absurd hu (SysEvent.not_usesRequest ?_ (fun req' value he => ?_) req)
    · rcases hk with rfl | rfl | rfl | rfl | ⟨op, delay, tick, rfl⟩ <;> rfl
    · rcases hk with rfl | rfl | rfl | rfl | ⟨op, delay, tick, rfl⟩ <;> cases he

/-- What the machine below does in a step: nothing, the event of the step, or an event of the
running task's call. -/
theorem SemEffect.below (heff : SemEffect s ev s') : s'.sys = s.sys ∨
    ∃ e, s.sys.Step e s'.sys ∧ (ev = .sys e ∨ ∃ w, ev = .step ∧ (s.wpc s.running).call = some w ∧ w.Makes e) := by
  have hin {p : SemPc} {w : SemWait} (hp : s.wpc s.running = p) (hw : p.call = some w) :
      (s.wpc s.running).call = some w := by
    rwa [hp]
  cases heff with
  | sys hp hst => exact .inr ⟨_, hst, .inl rfl⟩
  | @allocates w i c sys hu hp hc hst => exact .inr ⟨_, hst, .inr ⟨w, rfl, hin hp rfl, w.makes_core _⟩⟩
  | @stores w signal sys hu hp hz hst => exact .inr ⟨_, hst, .inr ⟨w, rfl, hin hp rfl, w.makes_write _⟩⟩
  | @setsWaiter w sys hu hp hst => exact .inr ⟨_, hst, .inr ⟨w, rfl, hin hp rfl, w.makes_write _⟩⟩
  | @gets w sys hu hp hg hst => exact .inr ⟨_, hst, .inr ⟨w, rfl, hin hp rfl, w.makes_request⟩⟩
  | @queues w sys hu hp hg hst => exact .inr ⟨_, hst, .inr ⟨w, rfl, hin hp rfl, w.makes_request⟩⟩
  | @allocatesTimer w sys hu hp hz hst =>
    exact .inr ⟨_, hst, .inr ⟨w, rfl, hin hp rfl, w.makes_timer (.inl rfl)⟩⟩
  | @setsTimer w sys hu hp hst =>
    exact .inr ⟨_, hst, .inr ⟨w, rfl, hin hp rfl, w.makes_timer (.inr (.inr (.inr (.inr ⟨_, _, _, rfl⟩))))⟩⟩
  | @addsTimer w sys hu hp hst =>
    exact .inr ⟨_, hst, .inr ⟨w, rfl, hin hp rfl, w.makes_timer (.inr (.inr (.inl rfl)))⟩⟩
  | @waits w timerSignal sys hu hp hst => exact .inr ⟨_, hst, .inr ⟨w, rfl, hin hp rfl, w.makes_core _⟩⟩
  | @abortsTimer w timerSignal endTime sys hu hp hz hst =>
    exact .inr ⟨_, hst, .inr ⟨w, rfl, hin hp rfl, w.makes_timer (.inr (.inr (.inr (.inl rfl))))⟩⟩
  | @freesTimer w endTime sys hu hp hst =>
    exact .inr ⟨_, hst, .inr ⟨w, rfl, hin hp rfl, w.makes_timer (.inr (.inl rfl))⟩⟩
  | @returns w endTime sys hu hp hst => exact .inr ⟨_, hst, .inr ⟨w, rfl, hin hp rfl, w.makes_core _⟩⟩
  | _ => exact .inl rfl

end

end Martos
