import Martos.Core.Signals
import Martos.Services.Functions
import Martos.Services.Machine

/-!
# What a step of the whole machine does

`SysEffect` is for the whole machine what `Effect` is for the core: it lists what a step
can do. What a service function does to the core is given as steps of the core machine:
the functions reach the core only through its own functions. So every run of the whole
machine is, seen from the core, a run of the core machine (`SysEffect.core_run`), and what
has been proved about the core holds here.

`Sound` collects what all services rely on: the invariants of the core; a task inside a
function that is going to block stands at a depth which `signal_wait` can save; no timer
is queued twice; requests and messages are where the machine's records say.
-/

namespace Martos

open Checked Transition

/-! ### Calls of the core -/

namespace CoreSys

variable {s s' : CoreSys} {t : TaskRef} {sg : Signals} {c : Core}

/-- A step in which `signal_send(t, sg)` is called. -/
def Delivers (s : CoreSys) (t : TaskRef) (sg : Signals) (s' : CoreSys) : Prop :=
  ∃ e : Event, e.Sends t sg ∧ s.Step e s'

/-- The owner of the port is signalled, if it has one and wants to be. -/
def Notified (s : CoreSys) (p : MsgPort) (s' : CoreSys) : Prop :=
  (∃ t, p.task = some t ∧ p.action = .signal ∧ s.Delivers t p.signal s') ∨
    ((p.task = none ∨ p.action ≠ .signal) ∧ s' = s)

theorem delivers_of_signalSend (h : signalSend t sg s.core = .ok c)
    (hs : s.AtUser ∨ s.core.primask = false) : s.Delivers t sg { s with core := c } := by
  rcases hs with hu | hp
  · exact ⟨.call (.signalSend t sg), .inl rfl, ⟨hu.1, hu.2, trivial⟩, bind_of_eq_ok h _⟩
  · exact ⟨.isrSignalSend t sg, .inr rfl, hp, bind_of_eq_ok h _⟩

theorem notified_of_notifies {p : MsgPort} (h : Notifies p s.core c)
    (hs : s.AtUser ∨ s.core.primask = false) : s.Notified p { s with core := c } := by
  rcases h with ⟨t, ht, ha, hsend⟩ | ⟨hno, rfl⟩
  · exact .inl ⟨t, ht, ha, delivers_of_signalSend hsend hs⟩
  · exact .inr ⟨hno, rfl⟩

/-- The calls of `signal_send` of an interrupt handler, as steps. -/
theorem run_of_signalSends {calls : List (TaskRef × Signals)} (hb : s.core.Balanced)
    (hp : s.core.primask = false) (h : signalSends calls s.core = .ok c) :
    ∃ tr, Run CoreSys.Step s tr { s with core := c } ∧
      tr.map Move.event = calls.map fun call => .isrSignalSend call.1 call.2 := by
  induction calls generalizing s with
  | nil =>
    obtain rfl := Except.ok.inj h
    exact ⟨[], .nil, rfl⟩
  | cons call calls ih =>
    obtain ⟨d, hd, h⟩ := bind_eq_ok.mp h
    obtain ⟨-, hpd, -⟩ := signalSend_frame hb hd
    have hstep : s.Step (.isrSignalSend call.1 call.2) { s with core := d } := ⟨hp, bind_of_eq_ok hd _⟩
    obtain ⟨tr, hr, htr⟩ := ih (s := { s with core := d }) (signalSend_balanced hb hd) (hpd.trans hp) h
    exact ⟨⟨s, _, { s with core := d }⟩ :: tr, (Run.one hstep).append hr, by simp [htr]⟩

/-- Only `disable` and `enable` change the record of open calls. -/
theorem depth_of_step {e : Event} (hn : Nested s) (h : s.Step e s') (hd : e ≠ .call .disable)
    (he : e ≠ .call .enable) : s'.depth = s.depth := by
  cases hn.effect h with
  | disable hu => exact absurd rfl hd
  | enable hu hdep => exact absurd rfl he
  | _ => rfl

theorem depth_of_disable (hn : Nested s) (h : s.Step (.call .disable) s') :
    s'.depth = Function.update s.depth s.core.running (s.depth s.core.running + 1) := by
  cases hn.effect h with
  | disable hu => rfl
  | posted hw he => rcases he with ⟨he, -⟩ | ⟨he, -⟩ <;> cases he
  | woken hw hm he => rcases he with ⟨he, -⟩ | ⟨he, -⟩ <;> cases he

theorem depth_of_enable (hn : Nested s) (h : s.Step (.call .enable) s') :
    0 < s.depth s.core.running ∧
      s'.depth = Function.update s.depth s.core.running (s.depth s.core.running - 1) := by
  cases hn.effect h with
  | enable hu hd => exact ⟨hd, rfl⟩
  | posted hw he => rcases he with ⟨he, -⟩ | ⟨he, -⟩ <;> cases he
  | woken hw hm he => rcases he with ⟨he, -⟩ | ⟨he, -⟩ <;> cases he

end CoreSys

/-! ### The steps of the machine -/

/-- The running task's request in `sem_wait`. -/
def Services.asked (svc : Services) (req : ReqRef) (t : TaskRef) : Services :=
  { svc with request := Function.update svc.request req ⟨t, sigfSingle⟩ }

/-- The timer of task `t`, after `timer_allocate`. -/
def Services.timerAllocated (svc : Services) (tm : TimerRef) (t : TaskRef) (sg : Signals) : Services :=
  svc.modTimer tm fun x => { x with task := some t, signal := sg, op := .none, status := .initialized }

/-- The timer, after `timer_free`. -/
def Services.timerFreed (svc : Services) (tm : TimerRef) : Services :=
  svc.modTimer tm fun x => { x with task := none, op := .none, status := .invalid }

namespace Sys

variable (s : Sys)

/-- The machine with other data; where requests and messages are follows the queues. -/
def update (cs : CoreSys) (svc : Services) : Sys :=
  { s with cs := cs, svc := svc
           reqAt := svc.reqQueue.sync s.reqAt, msgAt := svc.messageList.sync s.msgAt }

/-- The running task can make a call. -/
def Calling : Prop := s.AtUser ∧ s.spc s.cs.core.running = .user

/-- The event is the call `a`, by the running task or an interrupt handler. -/
def Calls (e : SysEvent) (a : Service) : Prop :=
  ((e = .call (.service a) ∧ s.Calling) ∨ (e = .isr a ∧ s.cs.core.primask = false)) ∧ s.ServiceContract a

end Sys

/-- What a step can do: the state before it, the event, the state after it. -/
inductive SysEffect (s : Sys) : SysEvent → Sys → Prop where
  /-- A step of the core. -/
  | core {e : Event} {cs : CoreSys} (hst : s.cs.Step e cs)
      (hc : ∀ k, e = .call k → s.spc s.cs.core.running = .user) :
    SysEffect s (.core e) { s with cs := cs }
  /-- `sem_init`. -/
  | semInit {e : SysEvent} {sem : SemRef} {n : ℤ} (hc : s.Calls e (.semInit sem n)) :
    SysEffect s e (s.update s.cs { s.svc with
      count := Function.update s.svc.count sem n, reqQueue := Function.update s.svc.reqQueue sem [] })
  /-- `sem_add_request`. -/
  | requests {e : SysEvent} {sem : SemRef} {req : ReqRef} (hc : s.Calls e (.semAddRequest sem req)) :
    SysEffect s e ({ s with reqAt := Function.update s.reqAt req (some sem) }.update s.cs
      (s.svc.requested sem req))
  /-- `sem_wait` gets the semaphore. -/
  | semTaken {sem : SemRef} {req : ReqRef} (hu : s.Calling) (hr : s.reqAt req = none)
      (hn : ¬ s.svc.count sem - 1 < 0) :
    SysEffect s (.call (.semWait sem req))
      ({ s with reqAt := Function.update s.reqAt req (some sem) }.update s.cs
        ((s.svc.asked req s.cs.core.running).requested sem req))
  /-- `sem_wait` has to wait. -/
  | semQueued {sem : SemRef} {req : ReqRef} (hu : s.Calling) (hr : s.reqAt req = none)
      (hd : s.cs.core.idNestcnt < 32767) (hn : s.svc.count sem - 1 < 0) :
    SysEffect s (.call (.semWait sem req))
      ({ s.goto .semWaitBlock with reqAt := Function.update s.reqAt req (some sem) }.update s.cs
        ((s.svc.asked req s.cs.core.running).requested sem req))
  /-- `sem_wait` calls `signal_wait`. -/
  | semBlocks {cs : CoreSys} (hu : s.AtUser) (hp : s.spc s.cs.core.running = .semWaitBlock)
      (hst : s.cs.Step (.call (.signalWait sigfSingle)) cs) :
    SysEffect s .resume { s.goto .semWaitReturn with cs := cs }
  /-- `sem_wait` returns. -/
  | semReturns (hu : s.AtUser) (hp : s.spc s.cs.core.running = .semWaitReturn) :
    SysEffect s .resume (s.goto .user)
  /-- `sem_signal` finds a count that is not negative. -/
  | released {e : SysEvent} {sem : SemRef} (hc : s.Calls e (.semSignal sem)) (hn : 0 ≤ s.svc.count sem + 1) :
    SysEffect s e (s.update s.cs (s.svc.setCount sem (s.svc.count sem + 1)))
  /-- `sem_signal` grants the first request. -/
  | grants {e : SysEvent} {sem : SemRef} {req : ReqRef} {cs : CoreSys} (hc : s.Calls e (.semSignal sem))
      (hn : s.svc.count sem + 1 < 0) (hh : (s.svc.reqQueue sem).head? = some req)
      (hs : s.cs.Delivers (s.svc.request req).waiter (s.svc.request req).signal cs) :
    SysEffect s e (s.update cs { s.svc.setCount sem (s.svc.count sem + 1) with
      reqQueue := (s.svc.reqQueue.listRemHead sem).2 })
  /-- `msgport_init`. -/
  | portInit {p : PortRef} {sg : Signals} {cs : CoreSys} (hu : s.Calling) (ha : (s.svc.port p).action = .invalid)
      (hst : s.cs.Step (.call (.signalAllocate (-1))) cs) (hsg : sg ≠ 0#16) :
    SysEffect s (.call (.msgportInit p)) (s.update cs { s.svc with
      port := Function.update s.svc.port p ⟨some s.cs.core.running, sg, .signal⟩
      messageList := Function.update s.svc.messageList p [] })
  /-- `msgport_get`. -/
  | got {e : SysEvent} {p : PortRef} (hc : s.Calls e (.msgportGet p)) :
    SysEffect s e (s.update s.cs { s.svc with messageList := (s.svc.messageList.listRemHead p).2 })
  /-- `msgport_send`, or `msgport_reply`. -/
  | sent {e : SysEvent} {p : PortRef} {m : MsgRef} {cs : CoreSys}
      (hc : s.Calls e (.msgportSend p m) ∨ (s.Calls e (.msgportReply m) ∧ s.svc.replyPort m = some p))
      (hm : s.msgAt m = none) (ha : (s.svc.port p).action ≠ .invalid) (hs : s.cs.Notified (s.svc.port p) cs) :
    SysEffect s e ({ s with msgAt := Function.update s.msgAt m (some p) }.update cs
      { s.svc with messageList := s.svc.messageList.listAddTail p m })
  /-- `msgport_wait` disables interrupts. -/
  | portWaits {p : PortRef} {cs : CoreSys} (hu : s.Calling) (ha : (s.svc.port p).action ≠ .invalid)
      (hd : s.cs.core.idNestcnt < 32766) (hst : s.cs.Step (.call .disable) cs) :
    SysEffect s (.call (.msgportWait p)) { s.goto (.msgportWait p) with cs := cs }
  /-- `msgport_wait` finds no message and calls `signal_wait`. -/
  | portBlocks {p : PortRef} {cs : CoreSys} (hu : s.AtUser) (hp : s.spc s.cs.core.running = .msgportWait p)
      (hl : s.svc.messageList p = []) (hst : s.cs.Step (.call (.signalWait (s.svc.port p).signal)) cs) :
    SysEffect s .resume { s with cs := cs }
  /-- `msgport_wait` finds a message, enables interrupts and returns. -/
  | portReturns {p : PortRef} {cs : CoreSys} (hu : s.AtUser) (hp : s.spc s.cs.core.running = .msgportWait p)
      (hl : s.svc.messageList p ≠ []) (hst : s.cs.Step (.call .enable) cs) :
    SysEffect s .resume { s.goto .user with cs := cs }
  /-- `timer_allocate`. -/
  | timerAllocate {tm : TimerRef} {sg : Signals} {cs : CoreSys} (hu : s.Calling) (hf : s.TimerFree tm)
      (hst : s.cs.Step (.call (.signalAllocate (-1))) cs) :
    SysEffect s (.call (.timerAllocate tm)) (s.update cs (s.svc.timerAllocated tm s.cs.core.running sg))
  /-- `timer_free`. -/
  | timerFree {tm : TimerRef} {cs : CoreSys} (hu : s.Calling) (hf : s.TimerFree tm)
      (hst : s.cs.Step (.call (.signalFree (s.svc.timer tm).signal)) cs) :
    SysEffect s (.call (.timerFree tm)) (s.update cs (s.svc.timerFreed tm))
  /-- `timer_add` begins. -/
  | addStarts {tm : TimerRef} {tick : Ticks} (hu : s.Calling) (ha : s.adding tm = false)
      (hs : (s.svc.timer tm).status ≠ .added ∧ (s.svc.timer tm).status ≠ .invalid) :
    SysEffect s (.call (.timerAdd tm)) { s.goto (.timerAddCheck tm false) with
      svc := s.svc.modTimer tm fun x => { x with tick := tick }
      adding := Function.update s.adding tm true }
  /-- `timer_delay` begins. -/
  | delayStarts {tm : TimerRef} {ticks tick : Ticks} {sg : Signals} {cs : CoreSys} (hu : s.Calling)
      (hf : s.TimerFree tm) (hd : s.cs.core.idNestcnt < 32767)
      (hst : s.cs.Step (.call (.signalAllocate (-1))) cs) :
    SysEffect s (.call (.timerDelay tm ticks))
      ({ s.goto (.timerAddCheck tm true) with adding := Function.update s.adding tm true }.update cs
        (s.svc.modTimer tm fun _ => ⟨some s.cs.core.running, sg, ticks, tick, .delay, .initialized⟩))
  /-- `timer_add` finds the tick elapsed. -/
  | addElapsed {tm : TimerRef} {delay : Bool} (hu : s.AtUser)
      (hp : s.spc s.cs.core.running = .timerAddCheck tm delay) (he : (s.svc.timer tm).tick ≤ s.svc.timerNow) :
    SysEffect s .resume ({ s with svc := timerAddElapsed tm s.svc }.finishAdd tm delay)
  /-- `timer_add` finds the tick in the future. -/
  | addPasses {tm : TimerRef} {delay : Bool} (hu : s.AtUser)
      (hp : s.spc s.cs.core.running = .timerAddCheck tm delay)
      (he : ¬ (s.svc.timer tm).tick ≤ s.svc.timerNow) :
    SysEffect s .resume (s.goto (.timerAddInsert tm delay))
  /-- `timer_add` inserts the timer. -/
  | addInserts {tm : TimerRef} {delay : Bool} (hu : s.AtUser)
      (hp : s.spc s.cs.core.running = .timerAddInsert tm delay) (hm : tm ∉ s.svc.timers ()) :
    SysEffect s .resume ((s.update s.cs (s.svc.timerInserted tm)).finishAdd tm delay)
  /-- `timer_delay` calls `signal_wait`. -/
  | delayWaits {tm : TimerRef} {cs : CoreSys} (hu : s.AtUser)
      (hp : s.spc s.cs.core.running = .timerDelayTest tm) (ha : (s.svc.timer tm).status = .added)
      (hst : s.cs.Step (.call (.signalWait (s.svc.timer tm).signal)) cs) :
    SysEffect s .resume { s.goto (.timerDelayFree tm) with cs := cs }
  /-- `timer_delay` need not wait. -/
  | delaySkips {tm : TimerRef} (hu : s.AtUser) (hp : s.spc s.cs.core.running = .timerDelayTest tm)
      (ha : (s.svc.timer tm).status ≠ .added) :
    SysEffect s .resume (s.goto (.timerDelayFree tm))
  /-- `timer_delay` frees its timer and returns. -/
  | delayFrees {tm : TimerRef} {cs : CoreSys} (hu : s.AtUser)
      (hp : s.spc s.cs.core.running = .timerDelayFree tm)
      (hst : s.cs.Step (.call (.signalFree (s.svc.timer tm).signal)) cs) :
    SysEffect s .resume ((s.goto .user).update cs (s.svc.timerFreed tm))
  /-- `timer_abort` removes the timer. -/
  | aborts {e : SysEvent} {tm : TimerRef} (hc : s.Calls e (.timerAbort tm))
      (ha : (s.svc.timer tm).status = .added) (hm : tm ∈ s.svc.timers ()) :
    SysEffect s e (s.update s.cs { s.svc with timers := s.svc.timers.listUnlink tm })
  /-- `timer_abort` does nothing. -/
  | abortsNot {e : SysEvent} {tm : TimerRef} (hc : s.Calls e (.timerAbort tm))
      (ha : (s.svc.timer tm).status ≠ .added) :
    SysEffect s e (s.update s.cs s.svc)
  /-- `TIM2_IRQHandler`. -/
  | tim2 {calls : List (TaskRef × Signals)} {ctr : List (Move CoreSys Event)} {c : Core}
      (hm : s.cs.core.primask = false) (hc : List.Forall₂ s.svc.clocked.Call s.svc.clocked.due calls)
      (hr : Run CoreSys.Step s.cs ctr { s.cs with core := c })
      (htr : ctr.map Move.event = calls.map fun call => .isrSignalSend call.1 call.2) :
    SysEffect s .tim2 (s.update { s.cs with core := c } s.svc.clocked.polled)
  /-- A program writes to its structures. -/
  | write {w : Write} (hu : s.Calling) (hw : s.WriteContract w) : SysEffect s (.call (.write w)) (s.execWrite w)

/-- The critical sections which a service function has open around `signal_wait`. -/
def ServicePc.opened : ServicePc → ℕ
  | .msgportWait _ => 1
  | _ => 0

/-- The function is going to call `signal_wait`, or may do so. -/
def ServicePc.Blocks : ServicePc → Prop
  | .semWaitBlock => True
  | .msgportWait _ => True
  | .timerAddCheck _ delay => delay = true
  | .timerAddInsert _ delay => delay = true
  | .timerDelayTest _ => True
  | _ => False

/-- The function can be at this point with `d` calls of `disable` open. -/
structure ServicePc.Fits (p : ServicePc) (d : ℕ) : Prop where
  /-- Its own critical sections are among them. -/
  opened : p.opened ≤ d
  /-- `signal_wait` can save the depth. -/
  bound : p.Blocks → d ≤ 32767

/-- What all services rely on. -/
structure Sound (s : Sys) : Prop where
  /-- The nesting discipline. -/
  nested : Nested s.cs
  /-- Every task is where its state says. -/
  placed : Placed s.cs
  /-- No waiting task has missed a signal. -/
  attentive : Attentive s.cs
  /-- Every task is at a depth that fits the point it is at. -/
  fits : ∀ t, (s.spc t).Fits (s.cs.depth t)
  /-- No timer is queued twice. -/
  timers : (s.svc.timers ()).Nodup
  /-- Each request is on one queue at most, once. -/
  requests : s.svc.reqQueue.Located s.reqAt
  /-- Each message is on one port at most, once. -/
  messages : s.svc.messageList.Located s.msgAt

section

variable {s s' : Sys} {e : SysEvent}

theorem Sound.settled (h : Sound s) : s.cs.core.Settled := ⟨h.nested.balanced, h.placed.located⟩

/-- An event of the core is a step of the core. -/
theorem SysEffect.core_step {ev : Event} (heff : SysEffect s (.core ev) s') :
    ∃ cs, s.cs.Step ev cs ∧ s' = { s with cs := cs } := by
  have hno {a : Service} (hc : s.Calls (.core ev) a) : False := by
    rcases hc.1 with ⟨he, -⟩ | ⟨he, -⟩ <;> cases he
  cases heff with
  | core hst hc => exact ⟨_, hst, rfl⟩
  | semInit hc => exact (hno hc).elim
  | requests hc => exact (hno hc).elim
  | released hc => exact (hno hc).elim
  | grants hc => exact (hno hc).elim
  | got hc => exact (hno hc).elim
  | sent hc => exact (hc.elim hno fun hr => hno hr.1).elim
  | aborts hc => exact (hno hc).elim
  | abortsNot hc => exact (hno hc).elim

theorem Sys.Calls.sender {a : Service} (h : s.Calls e a) : s.cs.AtUser ∨ s.cs.core.primask = false :=
  h.1.imp (fun hc => hc.2.1) And.right

/-- In its own code a task can call the core. -/
theorem Sys.AtUser.step_call (hu : s.AtUser) {k : Call} (hk : s.cs.Contract k) {cs : CoreSys}
    (hx : s.cs.execCall k = .ok cs) : s.cs.Step (.call k) cs :=
  ⟨⟨hu.1, hu.2, hk⟩, hx⟩

/-- Where a service function calls `signal_wait`, the depth is in range. -/
theorem Sound.nestcnt_lt (h : Sound s) (hu : s.AtUser) (hb : (s.spc s.cs.core.running).Blocks) :
    s.cs.core.idNestcnt < 32767 := by
  have hd := (h.fits _).bound hb
  rw [h.nested.count_user hu.2]
  omega

theorem Sound.execService_effect (h : Sound s) {a : Service} (hc : s.Calls e a)
    (hx : s.execService a = .ok s') : SysEffect s e s' := by
  have hb : s.kernel.core.Balanced := h.nested.balanced
  cases a with
  | semInit sem n =>
    obtain rfl := Except.ok.inj hx
    exact .semInit hc
  | semAddRequest sem req =>
    simp only [Sys.execService, bind_eq_ok, pure_eq_ok] at hx
    obtain ⟨⟨b, k⟩, hk, rfl⟩ := hx
    obtain ⟨-, rfl⟩ := semAddRequest_eq_ok hb hk
    exact .requests hc
  | semSignal sem =>
    simp only [Sys.execService, bind_eq_ok, pure_eq_ok] at hx
    obtain ⟨k, hk, rfl⟩ := hx
    rcases semSignal_cases hb hk with ⟨hn, rfl⟩ | ⟨hn, req, c, hh, -, -, hs, rfl⟩
    · exact .released hc hn
    · exact .grants hc hn hh (CoreSys.delivers_of_signalSend hs hc.sender)
  | msgportGet p =>
    simp only [Sys.execService, msgportGet_eq hb, ok_bind, pure_eq_ok] at hx
    subst hx
    exact .got hc
  | msgportSend p m =>
    simp only [Sys.execService, bind_eq_ok, pure_eq_ok] at hx
    obtain ⟨k, hk, rfl⟩ := hx
    obtain ⟨ha, c, hs, rfl⟩ := msgportSend_cases hb hk
    exact .sent (.inl hc) hc.2 ha (CoreSys.notified_of_notifies hs hc.sender)
  | msgportReply m =>
    simp only [Sys.execService, bind_eq_ok, pure_eq_ok] at hx
    obtain ⟨k, hk, rfl⟩ := hx
    unfold msgportReply at hk
    cases hp : s.kernel.svc.replyPort m with
    | none => simp [hp] at hk
    | some p =>
      simp only [hp] at hk
      obtain ⟨ha, c, hs, rfl⟩ := msgportSend_cases hb hk
      rw [show s.svc.replyPort m = some p from hp]
      exact .sent (.inr ⟨hc, hp⟩) hc.2 ha (CoreSys.notified_of_notifies hs hc.sender)
  | timerAbort tm =>
    simp only [Sys.execService, bind_eq_ok, pure_eq_ok] at hx
    obtain ⟨k, hk, rfl⟩ := hx
    rcases timerAbort_cases hb hk with ⟨ha, hm, rfl⟩ | ⟨ha, rfl⟩
    · exact .aborts hc ha hm
    · exact .abortsNot hc ha

theorem Sound.execCall_effect (h : Sound s) {k : ServiceCall} (hu : s.Calling) (hk : s.Contract k)
    (hx : s.execCall k = .ok s') : SysEffect s (.call k) s' := by
  have hb : s.kernel.core.Balanced := h.nested.balanced
  have halloc {n : ℤ} {c : Core} (ha : signalAllocate (-1) s.cs.core = .ok (n, c)) :
      s.cs.Step (.call (.signalAllocate (-1))) { s.cs with core := c } :=
    ⟨⟨hu.1.1, hu.1.2, trivial⟩, bind_of_eq_ok ha _⟩
  cases k with
  | service a => exact h.execService_effect ⟨.inl ⟨rfl, hu⟩, hk⟩ hx
  | semWait sem req =>
    simp only [Sys.execCall, bind_eq_ok, pure_eq_ok] at hx
    obtain ⟨⟨b, k⟩, hq, rfl⟩ := hx
    obtain ⟨hqueued, rfl⟩ := semAddRequest_eq_ok
      (k := ⟨s.cs.core, s.svc.asked req s.cs.core.running⟩) hb hq
    by_cases hn : s.svc.count sem - 1 < 0
    · obtain rfl : b = true := hqueued.trans (decide_eq_true hn)
      exact .semQueued hu hk.1 hk.2 hn
    · obtain rfl : b = false := hqueued.trans (decide_eq_false hn)
      exact .semTaken hu hk.1 hn
  | msgportInit p =>
    simp only [Sys.execCall, bind_eq_ok, pure_eq_ok] at hx
    obtain ⟨k, hi, rfl⟩ := hx
    obtain ⟨n, c, sg, hc, hsg, rfl⟩ := msgportInit_eq_ok hb hi
    exact .portInit hu hk (halloc hc) hsg
  | msgportWait p =>
    simp only [Sys.execCall, bind_eq_ok, pure_eq_ok] at hx
    obtain ⟨cs, hcs, rfl⟩ := hx
    exact .portWaits hu hk.1 hk.2 (hu.1.step_call (k := .disable) trivial hcs)
  | timerAllocate tm =>
    simp only [Sys.execCall, bind_eq_ok, pure_eq_ok] at hx
    obtain ⟨k, ha, rfl⟩ := hx
    obtain ⟨n, c, sg, hc, rfl⟩ := timerAllocate_eq_ok ha
    exact .timerAllocate hu hk (halloc hc)
  | timerFree tm =>
    simp only [Sys.execCall, bind_eq_ok, pure_eq_ok] at hx
    obtain ⟨k, hf, rfl⟩ := hx
    obtain ⟨c, hc, rfl⟩ := timerFree_eq_ok hf
    exact .timerFree hu hk ⟨⟨hu.1.1, hu.1.2, trivial⟩, bind_of_eq_ok hc _⟩
  | timerAdd tm =>
    simp only [Sys.execCall, Sys.startAdd, bind_eq_ok, pure_eq_ok] at hx
    obtain ⟨svc, hs, rfl⟩ := hx
    obtain ⟨ha, hi, tick, rfl⟩ := timerAddStart_eq_ok hs
    exact .addStarts hu hk ⟨ha, hi⟩
  | timerDelay tm ticks =>
    simp only [Sys.execCall, Sys.startAdd, bind_eq_ok, pure_eq_ok] at hx
    obtain ⟨k, ha, svc, hs, rfl⟩ := hx
    obtain ⟨n, c, sg, hc, rfl⟩ := timerAllocate_eq_ok ha
    obtain ⟨-, -, tick, rfl⟩ := timerAddStart_eq_ok hs
    have heff := @SysEffect.delayStarts s tm ticks tick sg _ hu hk.1 hk.2 (halloc hc)
    have hrun : c.running = s.cs.core.running := signalAllocate_running hb hc
    simpa [Sys.update, Sys.put, Sys.goto, Sys.kernel, Services.timerAllocated, Services.modTimer, hrun] using heff
  | write w =>
    obtain rfl := Except.ok.inj hx
    exact .write hu hk

theorem Sound.execResume_effect (h : Sound s) (hu : s.AtUser) (hp : s.spc s.cs.core.running ≠ .user)
    (hx : s.execResume = .ok s') : SysEffect s .resume s' := by
  unfold Sys.execResume at hx
  cases hspc : s.spc s.cs.core.running with
  | user => exact absurd hspc hp
  | semWaitBlock =>
    simp only [hspc, bind_eq_ok, pure_eq_ok] at hx
    obtain ⟨cs, hcs, rfl⟩ := hx
    exact .semBlocks hu hspc (hu.step_call (k := .signalWait _) (h.nestcnt_lt hu (by rw [hspc]; trivial)) hcs)
  | semWaitReturn =>
    simp only [hspc, Except.ok.injEq] at hx
    subst hx
    exact .semReturns hu hspc
  | msgportWait p =>
    simp only [hspc] at hx
    by_cases hl : s.svc.messageList p = []
    · simp only [if_pos hl, bind_eq_ok, pure_eq_ok] at hx
      obtain ⟨cs, hcs, rfl⟩ := hx
      exact .portBlocks hu hspc hl
        (hu.step_call (k := .signalWait _) (h.nestcnt_lt hu (by rw [hspc]; trivial)) hcs)
    · simp only [if_neg hl, bind_eq_ok, pure_eq_ok] at hx
      obtain ⟨cs, hcs, rfl⟩ := hx
      have hopen := (h.fits s.cs.core.running).opened
      rw [hspc] at hopen
      exact .portReturns hu hspc hl (hu.step_call (k := .enable) hopen hcs)
  | timerAddCheck tm delay =>
    simp only [hspc] at hx
    by_cases he : (s.svc.timer tm).tick ≤ s.svc.timerNow
    · rw [if_pos (by simpa [timerElapsed] using he), Except.ok.injEq] at hx
      subst hx
      exact .addElapsed hu hspc he
    · rw [if_neg (by simpa [timerElapsed] using he), Except.ok.injEq] at hx
      subst hx
      exact .addPasses hu hspc he
  | timerAddInsert tm delay =>
    simp only [hspc, bind_eq_ok, pure_eq_ok] at hx
    obtain ⟨k, hk, rfl⟩ := hx
    rw [timerAddInsert_eq h.nested.balanced h.timers] at hk
    simp only [bind_eq_ok, assertThat_eq_ok, pure_eq_ok] at hk
    obtain ⟨-, hm, rfl⟩ := hk
    exact .addInserts hu hspc hm
  | timerDelayTest tm =>
    simp only [hspc] at hx
    by_cases ha : (s.svc.timer tm).status = .added
    · simp only [if_pos ha, bind_eq_ok, pure_eq_ok] at hx
      obtain ⟨cs, hcs, rfl⟩ := hx
      exact .delayWaits hu hspc ha
        (hu.step_call (k := .signalWait _) (h.nestcnt_lt hu (by rw [hspc]; trivial)) hcs)
    · rw [if_neg ha, Except.ok.injEq] at hx
      subst hx
      exact .delaySkips hu hspc ha
  | timerDelayFree tm =>
    simp only [hspc, bind_eq_ok, pure_eq_ok] at hx
    obtain ⟨k, hk, rfl⟩ := hx
    obtain ⟨c, hc, rfl⟩ := timerFree_eq_ok hk
    have hstep : s.cs.Step (.call (.signalFree (s.svc.timer tm).signal)) { s.cs with core := c } :=
      hu.step_call (k := .signalFree _) trivial (bind_of_eq_ok hc _)
    have hrun : c.running = s.cs.core.running := by
      rw [Core.signalFree_eq] at hc
      simp only [bind_eq_ok, pure_eq_ok] at hc
      obtain ⟨-, -, -, -, rfl⟩ := hc
      rfl
    simpa [Sys.goto, Sys.put, Sys.update, Services.timerFreed, hrun, Sys.kernel] using
      SysEffect.delayFrees hu hspc hstep

/-- **Every step has one of these effects.** -/
theorem Sound.effect (h : Sound s) (hst : s.Step e s') : SysEffect s e s' := by
  obtain ⟨hen, hx⟩ := hst
  cases e with
  | core e =>
    simp only [Sys.exec, bind_eq_ok, pure_eq_ok] at hx
    obtain ⟨cs, hcs, rfl⟩ := hx
    cases e with
    | call k => exact .core ⟨hen.1, hcs⟩ fun _ _ => hen.2
    | resume => exact .core ⟨hen, hcs⟩ (by simp)
    | isrSignalSend t sg => exact .core ⟨hen, hcs⟩ (by simp)
    | sysTick => exact .core ⟨hen, hcs⟩ (by simp)
    | pendSV => exact .core ⟨hen, hcs⟩ (by simp)
    | pendSVSwitch frame => exact .core ⟨hen, hcs⟩ (by simp)
    | pendSVExit => exact .core ⟨hen, hcs⟩ (by simp)
  | call k => exact h.execCall_effect ⟨hen.1, hen.2.1⟩ hen.2.2 hx
  | resume => exact h.execResume_effect hen.1 hen.2 hx
  | isr a => exact h.execService_effect ⟨.inr ⟨rfl, hen.1⟩, hen.2⟩ hx
  | tim2 =>
    simp only [Sys.exec, bind_eq_ok, pure_eq_ok] at hx
    obtain ⟨⟨c, svc⟩, hk, rfl⟩ := hx
    obtain ⟨hsvc, calls, hcalls, hsends⟩ := tim2IRQHandler_eq_ok (k := s.kernel) h.nested.balanced hk
    obtain ⟨ctr, hr, htr⟩ := CoreSys.run_of_signalSends h.nested.balanced hen hsends
    obtain rfl : svc = s.svc.clocked.polled := hsvc
    exact .tim2 hen hcalls hr htr

end

end Martos
