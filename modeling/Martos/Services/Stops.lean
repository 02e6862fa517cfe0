import Martos.Core.Stops
import Martos.Services.Names
import Martos.Services.Timers

/-!
# What stops the kernel

The table `CoreSys.stops`, continued for the services. What is missing from it are the
assertions which nobody can fail: `enable` finds a count of at least `-1`, `task_verify`
never complains about `sig_alloc`, `id_nestcnt` or the state, no list function is used on a
node that is on the wrong list, and a poll finds a task to signal in every timer of the queue.

The table is that of the machine in which `task_init` checks the name (`Sys.execChecked`), with
what the read through NULL in `task_find` yields as a parameter.
-/

namespace Martos

open Checked Transition

/-! ### The table -/

/-- What counting semaphore `sem` to `n` stops with: the count is an `int`. -/
def Services.stopsCount (n : ℤ) : Option Fault :=
  if -semaphoreCountMax - 1 ≤ n ∧ n ≤ semaphoreCountMax then none else some .semOverflow

/-- What the search for a free signal stops with, where one is needed. -/
def Core.stopsAllocate (c : Core) : Option Fault :=
  if Refused (c.task c.running).sigAlloc (-1) then some .noSignal else none

namespace Kernel

variable (k : Kernel)

/-- What the grant of a request stops with. -/
def stopsWake (sem : SemRef) : Option Fault :=
  match (k.svc.reqQueue sem).head? with
  | none => some .semRequest
  | some req =>
    if k.core.running = (k.svc.request req).waiter then some .semWaiter
    else if (k.svc.request req).signal = 0#16 then some .semSignal
    else none

/-- What `sem_signal(sem)` stops with. -/
def stopsSignal (sem : SemRef) : Option Fault :=
  (Services.stopsCount (k.svc.count sem + 1)).or
    (if k.svc.count sem + 1 < 0 then k.stopsWake sem else none)

/-- What `msgport_send(port, ...)` stops with: the port has not been initialised. -/
def stopsSend (port : PortRef) : Option Fault :=
  if (k.svc.port port).action = .invalid then some .portAction else none

/-- What `timer_add(tm)` stops with. -/
def stopsAdd (tm : TimerRef) : Option Fault :=
  if (k.svc.timer tm).op = .none then some .timerOp
  else if (k.svc.timer tm).status = .invalid ∨ (k.svc.timer tm).status = .added then some .timerStatus
  else none

end Kernel

namespace Sys

variable (s : Sys)

/-- What a call that does not block stops the kernel with. -/
def stopsService : Service → Option Fault
  | .semAddRequest sem _ => Services.stopsCount (s.svc.count sem - 1)
  | .semSignal sem => s.kernel.stopsSignal sem
  | .msgportSend port _ => s.kernel.stopsSend port
  | .msgportReply message =>
    match s.svc.replyPort message with
    | none => some .replyPort
    | some port => s.kernel.stopsSend port
  | _ => none

/-- What an event that can happen stops the kernel with, if it does. -/
def stops (null : Option String) : SysEvent → Option Fault
  | .core e => s.cs.stops null e
  | .call (.service a) => s.stopsService a
  | .call (.semWait sem _) => Services.stopsCount (s.svc.count sem - 1)
  | .call (.msgportInit _) => s.cs.core.stopsAllocate
  | .call (.timerAllocate _) => s.cs.core.stopsAllocate
  | .call (.timerFree tm) => s.cs.core.stopsFree (s.svc.timer tm).signal
  | .call (.timerAdd tm) => s.kernel.stopsAdd tm
  | .call (.timerDelay _ _) => s.cs.core.stopsAllocate
  | .isr a => s.stopsService a
  | .resume =>
    match s.spc s.cs.core.running with
    | .timerDelayFree tm => s.cs.core.stopsFree (s.svc.timer tm).signal
    | _ => none
  | _ => none

end Sys

/-! ### The functions -/

section

variable {k : Kernel} {sem : SemRef} {req : ReqRef} {port : PortRef} {message : MsgRef} {tm : TimerRef}

theorem fault_semSetCount (n : ℤ) : fault (semSetCount sem n k) = Services.stopsCount n := by
  unfold semSetCount Services.stopsCount
  simp only [fault_assertThat_bind, fault_pure]

/-- The end of a critical section. -/
theorem fault_enable (hb : k.core.Balanced) {d : Kernel} (hd : d.core = k.core.disable) : fault d.enable = none := by
  have he : d.core.enable = .ok d.core.opened := Core.enable_eq_opened (hd ▸ hb.disable)
  simp only [Kernel.enable, he, fault_bind_pure, fault_ok]

theorem fault_semAddRequest (hb : k.core.Balanced) :
    fault (semAddRequest sem req k) = Services.stopsCount (k.svc.count sem - 1) := by
  refine (fault_bind_left fun d hd => ?_).trans (fault_semSetCount _)
  obtain ⟨-, rfl⟩ := semSetCount_eq_ok.mp hd
  dsimp only
  rw [fault_ite, fault_bind_pure, fault_bind_pure, fault_enable hb rfl, fault_enable hb rfl, ite_self]

/-- Where `signal_send` comes to its end, a grant stops on the request only. -/
theorem fault_semWake (hsend : ∀ t sg, ∃ c, signalSend t sg k.core = .ok c) :
    fault (semWake sem k) = k.stopsWake sem := by
  unfold semWake Kernel.stopsWake Seqs.listRemHead
  cases hh : (k.svc.reqQueue sem).head? with
  | none => rfl
  | some req =>
    obtain ⟨c, hc⟩ := hsend (k.svc.request req).waiter (k.svc.request req).signal
    simp only [fault_assertThat_bind, Kernel.signalSend, hc, ok_bind, fault_pure, ne_eq, ite_not]

theorem fault_semSignal (hb : k.core.Balanced) (hsend : ∀ t sg, ∃ c, signalSend t sg k.core = .ok c) :
    fault (semSignal sem k) = k.stopsSignal sem := by
  rw [semSignal_eq hb, Kernel.stopsSignal]
  have hcount : (k.svc.setCount sem (k.svc.count sem + 1)).count sem = k.svc.count sem + 1 :=
    Function.update_self ..
  by_cases hn : -semaphoreCountMax - 1 ≤ k.svc.count sem + 1 ∧ k.svc.count sem + 1 ≤ semaphoreCountMax
  · rw [fault_bind_of_ok (semSetCount_eq_ok.mpr ⟨hn, rfl⟩), Services.stopsCount, if_pos hn, Option.none_or]
    unfold semRelease
    rw [fault_ite, hcount, fault_ok]
    by_cases hneg : k.svc.count sem + 1 < 0
    · rw [if_pos hneg, if_pos hneg]
      exact fault_semWake (k := { k with svc := k.svc.setCount sem (k.svc.count sem + 1) }) hsend
    · rw [if_neg hneg, if_neg hneg]
  · have hset : fault (semSetCount sem (k.svc.count sem + 1) k) = some .semOverflow := by
      rw [fault_semSetCount, Services.stopsCount, if_neg hn]
    rw [Services.stopsCount, if_neg hn, Option.some_or]
    exact fault_eq_some.mpr (bind_eq_error.mpr (.inl (fault_eq_some.mp hset)))

theorem fault_msgportSend (hb : k.core.Balanced) (hsend : ∀ t sg, ∃ c, signalSend t sg k.core = .ok c) :
    fault (msgportSend port message k) = k.stopsSend port := by
  have hnotify (d : Kernel) (hd : d.core = k.core.disable) (hp : d.svc.port = k.svc.port) :
      ∃ d', msgportNotify port d = .ok d' ∧ d'.core.Balanced := by
    unfold msgportNotify
    cases ht : (d.svc.port port).task with
    | none => exact ⟨d, rfl, hd ▸ hb.disable⟩
    | some t =>
      by_cases ha : (d.svc.port port).action = .signal
      · -- inside the critical section `signal_send` does what it does outside of it
        obtain ⟨c, hc⟩ := hsend t (d.svc.port port).signal
        have hc' : signalSend t (d.svc.port port).signal d.core = .ok c.disable := by
          rw [hd, signalSend_disable hb, hc]
          rfl
        refine ⟨{ d with core := c.disable }, ?_, (signalSend_balanced hb hc).disable⟩
        simp only [if_pos ha, Kernel.signalSend, hc', ok_bind]
        rfl
      · exact ⟨d, if_neg ha, hd ▸ hb.disable⟩
  unfold msgportSend Kernel.stopsSend
  dsimp only
  rw [fault_assertThat_bind]
  have hport : k.disable.svc.port = k.svc.port := rfl
  cases ha : (k.svc.port port).action with
  | invalid => simp [hport, ha]
  | signal =>
    obtain ⟨d, hd, hdb⟩ := hnotify { k.disable with svc := { k.disable.svc with
      messageList := k.disable.svc.messageList.listAddTail port message } } rfl rfl
    rw [fault_bind_of_ok hd]
    simp [hport, ha, Kernel.enable, Core.enable_eq_opened hdb]
  | ignore =>
    obtain ⟨d, hd, hdb⟩ := hnotify { k.disable with svc := { k.disable.svc with
      messageList := k.disable.svc.messageList.listAddTail port message } } rfl rfl
    rw [fault_bind_of_ok hd]
    simp [hport, ha, Kernel.enable, Core.enable_eq_opened hdb]

/-- Where a signal is needed, only the search for one can fail. -/
theorem fault_allocateAny {β : Type} (hb : k.core.Balanced) (f : ℤ → Core → β) :
    fault (do let (signum, c) ← signalAllocate (-1) k.core
              assertThat (signum ≠ -1) .noSignal
              return f signum c) = k.core.stopsAllocate := by
  unfold Core.stopsAllocate
  rcases hb.signalAllocate_cases (show (-1 : ℤ) ≤ -1 by decide) (by decide) with ⟨i, -, hi, -, -, hno⟩ | ⟨hi, href⟩
  · rw [hi, ok_bind, if_neg hno]
    dsimp only
    rw [fault_assertThat_bind, if_pos (by omega), fault_pure]
  · rw [hi, ok_bind, if_pos href]
    dsimp only
    rw [fault_assertThat_bind, if_neg (by simp)]

theorem fault_msgportInit (hb : k.core.Balanced) : fault (msgportInit port k) = k.core.stopsAllocate :=
  fault_allocateAny hb fun signum c => (⟨c, { k.svc with
    port := Function.update k.svc.port port ⟨some c.running, 1#16 <<< signum.toNat, .signal⟩
    messageList := Function.update k.svc.messageList port [] }⟩ : Kernel)

theorem fault_timerAllocate (hb : k.core.Balanced) : fault (timerAllocate tm k) = k.core.stopsAllocate :=
  fault_allocateAny hb fun signum c => (⟨c,
    (k.svc.modTimer tm fun x => { x with task := some k.core.running }).modTimer tm fun x =>
      { x with signal := 1#16 <<< signum.toNat, op := .none, status := .initialized }⟩ : Kernel)

theorem fault_timerFree : fault (timerFree tm k) = k.core.stopsFree (k.svc.timer tm).signal := by
  unfold timerFree
  dsimp only
  rw [fault_bind_pure, Core.fault_signalFree, Services.modTimer_self]

theorem fault_timerAddStart {svc : Services} {tm : TimerRef} (c : Core) :
    fault (timerAddStart tm svc) = Kernel.stopsAdd ⟨c, svc⟩ tm := by
  unfold timerAddStart Kernel.stopsAdd
  rw [fault_assertThat_bind, fault_assertThat_bind, fault_pure]
  cases (svc.timer tm).op with
  | none => rfl
  | delay => cases (svc.timer tm).status <;> rfl
  | alarm => cases (svc.timer tm).status <;> rfl

/-- A timer that says it is queued, and is. -/
theorem fault_timerAbort (hb : k.core.Balanced) (hin : (k.svc.timer tm).status = .added → tm ∈ k.svc.timers ()) :
    fault (timerAbort tm k) = none := by
  unfold timerAbort
  rw [fault_bind_left fun d hd => ?_]
  · unfold timerAbortAdded timerUnlink
    rw [fault_ite, fault_assertThat_bind, fault_pure, fault_ok]
    by_cases ha : (k.svc.timer tm).status = .added
    · simp [Kernel.disable, hin ha]
    · simp [Kernel.disable, ha]
  · refine fault_enable hb ?_
    unfold timerAbortAdded timerUnlink at hd
    by_cases ha : (k.disable.svc.timer tm).status = .added
    · rw [if_pos ha] at hd
      obtain ⟨-, -, hd⟩ := bind_eq_ok.mp hd
      rw [← pure_eq_ok.mp hd]
      rfl
    · rw [if_neg ha] at hd
      rw [← Except.ok.inj hd]
      rfl

end

/-! ### The events -/

section

variable {null : Option String} {s s' : Sys} {e : SysEvent}

theorem Sound.sends (hs : Sound s) (t : TaskRef) (sg : Signals) : ∃ c, signalSend t sg s.kernel.core = .ok c :=
  hs.placed.signalSend_ok hs.nested t sg

theorem Sound.fault_execService (hs : Sound s) {a : Service} (ha : s.ServiceContract a) :
    fault (s.execService a) = s.stopsService a := by
  have hb : s.kernel.core.Balanced := hs.nested.balanced
  cases a with
  | semInit sem count => rfl
  | semAddRequest sem req =>
    simp only [Sys.execService, fault_bind_pure, fault_semAddRequest hb]
    rfl
  | semSignal sem =>
    simp only [Sys.execService, fault_bind_pure, fault_semSignal hb hs.sends]
    rfl
  | msgportGet port =>
    simp only [Sys.execService, fault_bind_pure, msgportGet_eq hb]
    rfl
  | msgportSend port message =>
    simp only [Sys.execService, fault_bind_pure, fault_msgportSend hb hs.sends]
    rfl
  | msgportReply message =>
    simp only [Sys.execService, fault_bind_pure, Sys.stopsService, msgportReply]
    rw [show s.kernel.svc.replyPort message = s.svc.replyPort message from rfl]
    cases s.svc.replyPort message with
    | none => rfl
    | some port => exact fault_msgportSend hb hs.sends
  | timerAbort tm =>
    simp only [Sys.execService, fault_bind_pure, fault_timerAbort hb ha]
    rfl

/-- A service function's call of the core's function stops with what the core's table says. It calls none that
makes a check. -/
theorem Verified.fault_call (null : Option String) (hv : Verified s.cs) (hs : Sound s) (ha : AllNamed s.cs)
    (hu : s.AtUser) {k : Call} (hk : s.cs.Contract k)
    (hsame : s.cs.execCall k = s.cs.execCallChecked null k) (f : CoreSys → Sys) :
    fault (do let cs ← s.cs.execCall k; return f cs) = s.cs.stops null (.call k) := by
  rw [fault_bind_pure, hsame]
  exact hv.fault_execCallChecked hs.nested hs.placed ha hu hk

theorem Verified.fault_execCall_sys (hv : Verified s.cs) (hs : Sound s) (ha : AllNamed s.cs) {c : ServiceCall}
    (hu : s.AtUser) (hc : s.Contract c) : fault (s.execCall c) = s.stops null (.call c) := by
  have hb : s.kernel.core.Balanced := hs.nested.balanced
  cases c with
  | service a => exact hs.fault_execService hc
  | semWait sem req =>
    refine (fault_bind_left fun _ _ => ?_).trans
      (fault_semAddRequest (k := { s.kernel with svc := s.svc.asked req s.cs.core.running }) hb)
    exact fault_pure _
  | msgportInit port => exact (fault_bind_pure _ _).trans (fault_msgportInit hb)
  | msgportWait port => exact hv.fault_call null hs ha hu (k := .disable) trivial rfl _
  | timerAllocate tm => exact (fault_bind_pure _ _).trans (fault_timerAllocate hb)
  | timerFree tm => exact (fault_bind_pure _ _).trans fault_timerFree
  | timerAdd tm => exact (fault_bind_pure _ _).trans (fault_timerAddStart _)
  | timerDelay tm ticks =>
    -- a timer that has just been set up can be added
    refine (fault_bind_left fun k hk => ?_).trans (fault_timerAllocate hb)
    obtain ⟨n, c, sg, -, rfl⟩ := timerAllocate_eq_ok hk
    refine (fault_bind_pure _ _).trans ((fault_timerAddStart c).trans ?_)
    simp [Kernel.stopsAdd, Sys.put]
  | write w => rfl

theorem Verified.fault_execResume_sys (hv : Verified s.cs) (hs : Sound s) (ha : AllNamed s.cs) (ht : Timed s)
    (hu : s.AtUser) : fault s.execResume = s.stops null .resume := by
  unfold Sys.execResume Sys.stops
  cases hp : s.spc s.cs.core.running with
  | user => rfl
  | semWaitBlock =>
    exact hv.fault_call null hs ha hu (k := .signalWait _) (hs.nestcnt_lt hu (by rw [hp]; trivial)) rfl _
  | semWaitReturn => rfl
  | msgportWait port =>
    have hfits := hs.fits s.cs.core.running
    rw [hp] at hfits
    dsimp only
    rw [fault_ite, hv.fault_call null hs ha hu (k := .signalWait _) (hs.nestcnt_lt hu (by rw [hp]; trivial)) rfl,
      hv.fault_call null hs ha hu (k := .enable) hfits.opened rfl]
    exact ite_self none
  | timerAddCheck tm delay =>
    dsimp only
    rw [fault_ite, fault_ok, fault_ok, ite_self]
  | timerAddInsert tm delay =>
    -- the timer that is being added is not in the queue
    have hout : tm ∉ s.kernel.svc.timers () := fun hm => by
      have hadd := (ht.adders s.cs.core.running tm ⟨delay, .inr hp⟩).1
      rw [(ht.queued tm hm).2] at hadd
      cases hadd
    dsimp only
    rw [fault_bind_pure, timerAddInsert_eq hs.nested.balanced hs.timers, fault_assertThat_bind, if_pos hout, fault_pure]
  | timerDelayTest tm =>
    dsimp only
    rw [fault_ite, hv.fault_call null hs ha hu (k := .signalWait _) (hs.nestcnt_lt hu (by rw [hp]; trivial)) rfl,
      fault_ok]
    exact ite_self none
  | timerDelayFree tm =>
    dsimp only
    rw [fault_bind_pure, fault_timerFree]
    rfl

/-- An event that can happen stops the kernel with what the table says. -/
theorem Verified.fault_execChecked_sys (hv : Verified s.cs) (hs : Sound s) (ha : AllNamed s.cs) (ht : Timed s)
    (hen : s.Enabled e) : fault (s.execChecked null e) = s.stops null e := by
  cases e with
  | core e =>
    have hen' : s.cs.Enabled e := by
      cases e with
      | call k => exact hen.1
      | _ => exact hen
    exact (fault_bind_pure _ _).trans (hv.fault_execChecked hs.nested hs.placed ha hen')
  | call c => exact hv.fault_execCall_sys hs ha hen.1 hen.2.2
  | resume => exact hv.fault_execResume_sys hs ha ht hen.1
  | isr a => exact hs.fault_execService hen.2
  | tim2 =>
    obtain ⟨s', -, hs'⟩ := ht.tim2_ok hs hen
    exact fault_eq_none.mpr ⟨s', hs'⟩

theorem Verified.run {cfg : Config} {c : Core} {tr : List (Move Sys SysEvent)} (h : martosPre cfg = .ok c)
    (hr : Run Sys.Step (Sys.start c) tr s) : Verified s.cs := by
  obtain ⟨ctr, hcr⟩ := core_run_of_run h hr
  exact (hcr.invariant (P := fun a => Nested a ∧ Placed a ∧ Verified a) ⟨.start h, .start h, .start h⟩
    fun _ _ _ ⟨hn, hp, hv⟩ hst => ⟨hn.step hst, hp.step hn hst, hv.step hn hp hst⟩).2.2

/-! ### The kernel's own assertions -/

/-- An assertion that belongs to the kernel's own correctness, or a list function used on a node that is on a list and
should be on none, or the other way round. -/
def Fault.Internal (f : Fault) : Prop :=
  f = .enable ∨ f = .verifySigAlloc ∨ f = .verifyIdNestcnt ∨ f = .verifyState ∨ f = .pendSVDefault ∨ f = .timerTask ∨
    f.OfLists

instance (f : Fault) : Decidable f.OfLists := inferInstanceAs (Decidable (_ ∨ _))

instance (f : Fault) : Decidable f.Internal := inferInstanceAs (Decidable (_ ∨ _))

/-- No fault of the kernel's own is among them. -/
def External (o : Option Fault) : Prop := ∀ f ∈ o, ¬ f.Internal

section

variable {o o' : Option Fault}

theorem External.none : External none := by
  intro f hf
  cases hf

theorem External.some {f : Fault} (hf : ¬ f.Internal) : External (some f) := by
  intro g hg
  cases hg
  exact hf

theorem External.ite {p : Prop} [Decidable p] (ho : External o) (ho' : External o') :
    External (if p then o else o') := by
  by_cases hp : p
  · rw [if_pos hp]
    exact ho
  · rw [if_neg hp]
    exact ho'

theorem External.or (ho : External o) (ho' : External o') : External (o.or o') := by
  cases o with
  | none => exact ho'
  | some f => exact ho

theorem Core.stopsFree_external (c : Core) (sg : Signals) : External (c.stopsFree sg) :=
  .ite (.some (by decide)) (.ite (.some (by decide)) .none)

theorem Core.stopsAssert_external (null : Option String) (c : Core) (name : Option String) :
    External (c.stopsAssert null name) := by
  cases name with
  | none => exact .some (by decide)
  | some name =>
    refine .ite (.some (by decide)) ?_
    cases null with
    | none => exact .some (by decide)
    | some other => exact .ite (.some (by decide)) .none

theorem CoreSys.stops_external (null : Option String) (a : CoreSys) (e : Event) : External (a.stops null e) := by
  cases e with
  | call k =>
    cases k with
    | taskInit t params =>
      exact (a.core.stopsAssert_external null params.name).or
        (.ite (.some (by decide)) (.ite (.some (by decide)) .none))
    | signalAllocate signal => exact .ite .none (.some (f := .signalRange) (by decide))
    | signalFree sg => exact a.core.stopsFree_external sg
    | _ => exact .none
  | pendSVSwitch frame => exact .ite (.some (f := .nullRunning) (by decide)) .none
  | pendSVExit =>
    intro f hf
    exact taskcontextVerify_avoids (p := Fault.Internal) (by decide) _ f (fault_eq_some.mp hf)
  | _ => exact .none

theorem Services.stopsCount_external (n : ℤ) : External (Services.stopsCount n) := .ite .none (.some (by decide))

theorem Kernel.stopsWake_external (k : Kernel) (sem : SemRef) : External (k.stopsWake sem) := by
  unfold Kernel.stopsWake
  cases (k.svc.reqQueue sem).head? with
  | none => exact .some (by decide)
  | some req => exact .ite (.some (by decide)) (.ite (.some (by decide)) .none)

theorem Sys.stopsService_external (s : Sys) (a : Service) : External (s.stopsService a) := by
  cases a with
  | semAddRequest sem req => exact Services.stopsCount_external _
  | semSignal sem => exact (Services.stopsCount_external _).or (.ite (s.kernel.stopsWake_external sem) .none)
  | msgportSend port message => exact .ite (.some (by decide)) .none
  | msgportReply message =>
    simp only [Sys.stopsService]
    cases s.svc.replyPort message with
    | none => exact .some (f := .replyPort) (by decide)
    | some port => exact .ite (.some (f := .portAction) (by decide)) .none
  | _ => exact .none

theorem Sys.stops_external (null : Option String) (s : Sys) (e : SysEvent) : External (s.stops null e) := by
  cases e with
  | core e => exact s.cs.stops_external null e
  | call c =>
    cases c with
    | service a => exact s.stopsService_external a
    | semWait sem req => exact Services.stopsCount_external _
    | msgportInit port => exact .ite (.some (by decide)) .none
    | timerAllocate tm => exact .ite (.some (by decide)) .none
    | timerFree tm => exact s.cs.core.stopsFree_external _
    | timerAdd tm => exact .ite (.some (by decide)) (.ite (.some (by decide)) .none)
    | timerDelay tm ticks => exact .ite (.some (by decide)) .none
    | _ => exact .none
  | resume =>
    unfold Sys.stops
    cases s.spc s.cs.core.running with
    | timerDelayFree tm => exact s.cs.core.stopsFree_external _
    | _ => exact .none
  | isr a => exact s.stopsService_external a
  | tim2 => exact .none

end

/-! ### Every run -/

end

end Martos
