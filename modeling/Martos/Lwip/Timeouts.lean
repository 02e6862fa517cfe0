import Martos.Lwip.Semaphore

/-!
# Timeouts

`sys_arch_sem_wait` and `sys_arch_mbox_fetch` are two cases of the machine of
`Lwip.Timed`: seen through `SemPc.timed` and `MboxPc.timed` their steps are steps of it.

Both call `signal_wait` after `timer_add`, whether `timer_add` has queued the timer or has found
its tick elapsed. In the second case nothing is going to send the signal of the timer.
`timer_delay` tests the status of its timer before it waits.
-/

namespace Martos

open Checked Transition

/-! ### The steps of a call -/

section

variable {a : TimedSys} {e : SysEvent} {sys : Sys} {p : TimedPc}

theorem TimedSys.moved_eq (hp : a.tpc a.running = p) : a.moved sys p = ⟨sys, a.tpc⟩ := by
  subst hp
  unfold TimedSys.moved
  rw [Function.update_eq_self]

theorem SysEvent.still_of_not_byTask (hb : e.byTask = false) : e.Still := by
  refine ⟨fun c he => ?_, fun sg he => ?_⟩
  · rw [he] at hb
    cases hb
  · rw [he] at hb
    cases hb

theorem SysEvent.allocates_of_not_byTask (hb : e.byTask = false) : e.allocates = none := by
  unfold SysEvent.allocates
  split
  · cases hb
  · cases hb
  · cases hb
  · cases hb
  · rfl

/-- An event that is not part of the running task's call. -/
theorem TimedStep.outside (hst : a.sys.Step e sys) (hu : ∀ t tm, (a.tpc t).timer = some tm → ¬ e.Uses tm)
    (hb : e.byTask = true → a.tpc a.running = .out)
    (hw : ∀ tm sg, a.tpc a.running = .waiting tm sg → e = .core .resume → a.sys.cs.returns .resume = none) :
    TimedStep a (some e) ⟨sys, a.tpc⟩ := by
  have hnot (hp : a.tpc a.running ≠ .out) : e.byTask = false := by
    by_contra hne
    exact hp (hb (Bool.eq_true_of_not_eq_false hne))
  have hsome (ht : (a.tpc a.running).timer ≠ none) : a.tpc a.running ≠ .out := by
    intro hp
    rw [hp] at ht
    exact ht rfl
  refine .below hst hu (fun ht => ?_) (fun ht _ => ?_) (fun tm sg hp => ?_) hw
  · exact (SysEvent.still_of_not_byTask (hnot (hsome ht))).call
  · exact SysEvent.still_of_not_byTask (hnot (hsome ht))
  · refine SysEvent.allocates_of_not_byTask (hnot ?_)
    rw [hp]
    nofun

/-- A statement of a call before `timer_allocate` or after `timer_free`. -/
theorem TimedStep.plain {tm : TimerRef} (hst : a.sys.Step e sys) (hp : a.tpc a.running = p)
    (hu : ∀ tm, ¬ e.Uses tm) (hs : e.Still) (ht : p = .untimed tm ∨ p = .entered tm) :
    TimedStep a (some e) (a.moved sys p) := by
  rw [TimedSys.moved_eq hp]
  subst hp
  refine .below hst (fun _ tm _ => hu tm) (fun _ => hs.call) (fun _ _ => hs) (fun tm' sg hp => ?_) fun tm' sg hp => ?_
  · rw [hp] at ht
    rcases ht with ht | ht <;> cases ht
  · rw [hp] at ht
    rcases ht with ht | ht <;> cases ht

/-- `signal_wait` is called without a timer. -/
theorem TimedStep.waits {tm : TimerRef} {ev : Event} (hst : a.sys.Step (.core ev) sys)
    (hp : a.tpc a.running = .untimed tm) : TimedStep a (some (.core ev)) (a.moved sys (.untimed tm)) := by
  rw [TimedSys.moved_eq hp]
  refine .below hst (fun _ v _ hu => absurd hu SysEvent.not_uses_core) (fun _ c he => by cases he)
    (fun _ hne => absurd hp (hne tm)) (fun v sg hv => ?_) fun v sg hv => ?_
  · cases hp.symm.trans hv
  · cases hp.symm.trans hv

/-- No step at all. -/
theorem TimedStep.remains (hp : a.tpc a.running = p) : TimedStep a none (a.moved a.sys p) := by
  rw [TimedSys.moved_eq hp]
  exact .stays

/-- `signal_wait` is called with a timer. -/
theorem TimedStep.sleeps {tm : TimerRef} {sg m : Signals} (hp : a.tpc a.running = .armed tm sg)
    (hst : a.sys.Step (.core (.call (.signalWait (sg ||| m)))) sys)
    (hr : a.sys.cs.returns (.call (.signalWait (sg ||| m))) = none → p = .waiting tm sg)
    (hr' : a.sys.cs.returns (.call (.signalWait (sg ||| m))) ≠ none → p = .waited tm sg) :
    TimedStep a (some (.core (.call (.signalWait (sg ||| m))))) (a.moved sys p) := by
  by_cases hn : a.sys.cs.returns (.call (.signalWait (sg ||| m))) = none
  · rw [hr hn]
    exact .blocks hp hst hn
  · rw [hr' hn]
    exact .passes hp hst hn

end

/-! ### `sys_arch_sem_wait` -/

/-- Where a call is in the machine of the timers, if it has a timeout. -/
def SemWait.timed (w : SemWait) (p : TimedPc) : TimedPc := if w.timeout = 0 then .untimed w.timer else p

/-- Where a task in `sys_arch_sem_wait` is in the machine of the timers. -/
def SemPc.timed : SemPc → TimedPc
  | .user => .out
  | .waitAllocate w => w.timed (.entered w.timer)
  | .waitStore w _ => w.timed (.entered w.timer)
  | .waitWaiter w => w.timed (.entered w.timer)
  | .waitRequest w => w.timed (.entered w.timer)
  | .waitEarly w => w.timed (.entered w.timer)
  | .waitTimer w => w.timed (.entered w.timer)
  | .waitSetup w => w.timed (.prepared w.timer)
  | .waitAdd w => w.timed (.prepared w.timer)
  | .waitSignal w timerSignal => w.timed (.armed w.timer timerSignal)
  | .waiting w timerSignal => w.timed (.waiting w.timer timerSignal)
  | .waitGot w timerSignal _ => w.timed (.waited w.timer timerSignal)
  | .waitAbort w timerSignal _ => w.timed (.waited w.timer timerSignal)
  | .waitTimerFree w _ => w.timed (.aborted w.timer)
  | .waitFree w _ => w.timed (.entered w.timer)

/-- There is a timer signal exactly if there is a timeout. -/
def SemPc.Linked : SemPc → Prop
  | .waitSetup w => w.timeout ≠ 0
  | .waitAdd w => w.timeout ≠ 0
  | .waitSignal w timerSignal => timerSignal = 0 ↔ w.timeout = 0
  | .waiting w timerSignal => timerSignal = 0 ↔ w.timeout = 0
  | .waitGot w timerSignal _ => timerSignal = 0 ↔ w.timeout = 0
  | .waitAbort w timerSignal _ => timerSignal = 0 ↔ w.timeout = 0
  | .waitTimerFree w _ => w.timeout ≠ 0
  | _ => True

/-- The machine of the timers. -/
def SemSys.timed (s : SemSys) : TimedSys := ⟨s.sys, SemPc.timed ∘ s.wpc⟩

/-- The timers of the calls. -/
structure SemSys.Timing (s : SemSys) : Prop where
  /-- The machine of the timers. -/
  inv : TimedInv s.timed
  /-- The timer signals. -/
  linked : ∀ t, (s.wpc t).Linked

section

variable {s s' : SemSys} {ev : SemEvent} {t : TaskRef} {w : SemWait}

theorem SemWait.timed_timer {p : TimedPc} (hp : p.timer = some w.timer) : (w.timed p).timer = some w.timer := by
  unfold SemWait.timed
  by_cases hz : w.timeout = 0
  · rw [if_pos hz]
    rfl
  · rw [if_neg hz]
    exact hp

theorem SemWait.timed_of_timeout (w : SemWait) (hz : w.timeout ≠ 0) (p : TimedPc) : w.timed p = p := if_neg hz

theorem SemPc.timed_timer (p : SemPc) : p.timed.timer = p.call.map SemWait.timer := by
  cases p with
  | user => rfl
  | _ => exact SemWait.timed_timer rfl

/-- A call with a timeout is not one without. -/
theorem SemPc.not_untimed {p : SemPc} {tm : TimerRef} (hw : p.call = some w) (hz : w.timeout ≠ 0) :
    p.timed ≠ .untimed tm := by
  intro hp
  cases p with
  | user => cases hw
  | _ =>
    obtain rfl := Option.some.inj hw
    cases hp.symm.trans (SemWait.timed_of_timeout _ hz _)

theorem SemWait.timed_entered (w : SemWait) : w.timed (.entered w.timer) = .untimed w.timer ∨
    w.timed (.entered w.timer) = .entered w.timer := by
  unfold SemWait.timed
  by_cases hz : w.timeout = 0
  · exact .inl (if_pos hz)
  · exact .inr (if_neg hz)

theorem SemPc.eq_waiting {p : SemPc} {tm : TimerRef} {sg : Signals} (h : p.timed = .waiting tm sg) :
    ∃ w, p = .waiting w sg := by
  cases p with
  | user => cases h
  | waiting w timerSignal =>
    simp only [SemPc.timed, SemWait.timed] at h
    split_ifs at h
    cases h
    exact ⟨w, rfl⟩
  | _ =>
    simp only [SemPc.timed, SemWait.timed] at h
    split_ifs at h

theorem SemSys.timed_goto {sys : Sys} {p : SemPc} :
    ({ s.goto p with sys := sys } : SemSys).timed = s.timed.moved sys p.timed := by
  unfold SemSys.timed SemSys.goto TimedSys.moved
  rw [Function.comp_update]
  rfl

/-- The timer of a call is in use by the call only. -/
theorem SemSys.Contract.not_uses {e : SysEvent} (hc : s.Contract (.sys e)) {tm : TimerRef}
    (ht : (s.timed.tpc t).timer = some tm) : ¬ e.Uses tm := by
  rw [show (s.timed.tpc t).timer = (s.wpc t).call.map SemWait.timer from SemPc.timed_timer _] at ht
  obtain ⟨w, hw, rfl⟩ := Option.map_eq_some_iff.mp ht
  exact (hc t w hw).1

/-- Where the running task is after an event of the machine below. -/
theorem SemSys.afterSys_cases (s : SemSys) (e : SysEvent) : s.afterSys e = s.wpc s.running ∨
    ∃ w timerSignal c got, e = .core c ∧ s.wpc s.running = .waiting w timerSignal ∧ s.sys.cs.returns c = some got ∧
      s.afterSys e = .waitGot w timerSignal got := by
  cases e with
  | core c =>
    unfold SemSys.afterSys
    cases hp : s.wpc s.running with
    | waiting w timerSignal =>
      dsimp only [SemSys.waited]
      cases hr : s.sys.cs.returns c with
      | none => exact .inl rfl
      | some got => exact .inr ⟨w, timerSignal, c, got, rfl, rfl, hr, rfl⟩
    | _ => exact .inl rfl
  | _ => exact .inl rfl

/-- Only `signal_wait` returns signals. -/
theorem CoreSys.returns_of_not_byTask {cs : CoreSys} {c : Event} {got : Signals} (hr : cs.returns c = some got)
    (hb : (SysEvent.core c).byTask = false) : c = .resume := by
  cases c with
  | call k => cases hb
  | resume => rfl
  | _ => cases hr

/-- A step of `sys_arch_sem_wait` is a step of the machine of the timers. -/
theorem SemSys.Timing.timed_step (h : s.Timing) (hc : s.Contract ev) (hst : s.Step ev s') :
    ∃ e, TimedStep s.timed e s'.timed ∧ (e = some .resume → ev = .sys .resume) := by
  have hat {p : SemPc} (hp : s.wpc s.running = p) : s.timed.tpc s.timed.running = p.timed := congrArg SemPc.timed hp
  have hlink {p : SemPc} (hp : s.wpc s.running = p) : p.Linked := hp ▸ h.linked s.running
  have hplain {e : SysEvent} {sys : Sys} {p q : SemPc} {tm : TimerRef} (hst : s.sys.Step e sys)
      (hp : s.wpc s.running = p) (hq : p.timed = q.timed) (hu : ∀ tm, ¬ e.Uses tm) (hs : e.Still)
      (ht : q.timed = .untimed tm ∨ q.timed = .entered tm) :
      TimedStep s.timed (some e) ({ s.goto q with sys := sys } : SemSys).timed := by
    rw [SemSys.timed_goto]
    exact .plain hst ((hat hp).trans hq) hu hs ht
  have hremain {p q : SemPc} (hp : s.wpc s.running = p) (hq : p.timed = q.timed) :
      TimedStep s.timed none (s.goto q).timed := by
    rw [show (s.goto q).timed = s.timed.moved s.sys _ from SemSys.timed_goto]
    exact .remains ((hat hp).trans hq)
  have heff := hst.effect
  clear hst
  cases heff with
  | @sys e sys hb hst =>
    have hout (he : e.byTask = true) : s.timed.tpc s.timed.running = .out := hat (hb he)
    refine ⟨some e, ?_, fun he => by rw [Option.some.inj he]⟩
    rw [SemSys.timed_goto]
    rcases s.afterSys_cases e with hsame | ⟨w, timerSignal, c, got, rfl, hp, hr, hp'⟩
    · rw [hsame, TimedSys.moved_eq (show s.timed.tpc s.timed.running = (s.wpc s.running).timed from rfl)]
      refine .outside hst (fun t tm ht => hc.not_uses ht) hout fun tm sg hp he => ?_
      obtain ⟨w, hw⟩ : ∃ w, s.wpc s.running = .waiting w sg := SemPc.eq_waiting hp
      subst he
      cases hr : s.sys.cs.returns .resume with
      | none => exact hr
      | some got =>
        unfold SemSys.afterSys at hsame
        simp only [hw, SemSys.waited, hr] at hsame
        cases hsame
    · have hbt : (SysEvent.core c).byTask = false := by
        by_contra hne
        rw [hb (Bool.eq_true_of_not_eq_false hne)] at hp
        cases hp
      obtain rfl := CoreSys.returns_of_not_byTask hr hbt
      rw [hp']
      by_cases hz : w.timeout = 0
      · have hun (p : TimedPc) : w.timed p = .untimed w.timer := if_pos hz
        rw [show (SemPc.waitGot w timerSignal got).timed = .untimed w.timer from hun _]
        exact .waits hst ((hat hp).trans (hun _))
      · rw [show (SemPc.waitGot w timerSignal got).timed = .waited w.timer timerSignal from w.timed_of_timeout hz _]
        refine .wakes ((hat hp).trans (w.timed_of_timeout hz _)) hst ?_
        rw [show s.timed.sys.cs.returns .resume = some got from hr]
        exact Option.some_ne_none _
  | @enters sem timeout req timer hu hp =>
    obtain ⟨hne, hun, -⟩ := hc
    refine ⟨none, ?_, by simp⟩
    rw [show (s.goto _).timed = s.timed.moved s.sys _ from SemSys.timed_goto]
    refine .enters hu (fun t ht => ?_) hun (SemWait.timed_entered _)
    rw [show (s.timed.tpc t).timer = (s.wpc t).call.map SemWait.timer from SemPc.timed_timer _] at ht
    obtain ⟨w, hw, hv⟩ := Option.map_eq_some_iff.mp ht
    exact (hne t w hw).1 hv.symm
  | allocates hu hp hall hst =>
    exact ⟨_, hplain hst hp rfl (fun _ => SysEvent.not_uses_core) ⟨by simp, by simp⟩ (SemWait.timed_entered _), by simp⟩
  | stores hu hp hz hst =>
    exact ⟨_, hplain hst hp rfl (fun _ => SysEvent.not_uses_request) (SysEvent.still_call id) (SemWait.timed_entered _),
      by simp⟩
  | setsWaiter hu hp hst =>
    exact ⟨_, hplain hst hp rfl (fun _ => SysEvent.not_uses_request) (SysEvent.still_call id) (SemWait.timed_entered _),
      by simp⟩
  | gets hu hp hg hst =>
    exact ⟨_, hplain hst hp rfl (fun _ => SysEvent.not_uses_semAddRequest) (SysEvent.still_call id)
      (SemWait.timed_entered _), by simp⟩
  | queues hu hp hg hst =>
    exact ⟨_, hplain hst hp rfl (fun _ => SysEvent.not_uses_semAddRequest) (SysEvent.still_call id)
      (SemWait.timed_entered _), by simp⟩
  | early hu hp => exact ⟨none, hremain hp rfl, by simp⟩
  | @skipsTimer w hu hp hz =>
    have hun (p : TimedPc) : w.timed p = .untimed w.timer := if_pos hz
    exact ⟨none, hremain hp ((hun _).trans (hun _).symm), by simp⟩
  | @allocatesTimer w sys hu hp hz hst =>
    have htimed := w.timed_of_timeout hz
    refine ⟨some (.call (.timerAllocate w.timer)), ?_, by simp⟩
    rw [SemSys.timed_goto, show (SemPc.waitSetup w).timed = .prepared w.timer from htimed _]
    exact .allocates ((hat hp).trans (htimed _)) hst
  | @setsTimer w sys hu hp hst =>
    have htimed := w.timed_of_timeout (hlink hp)
    refine ⟨some (.call (.write (.timer w.timer .delay w.timeout (s.sys.svc.timer w.timer).tick))), ?_, by simp⟩
    rw [SemSys.timed_goto, show (SemPc.waitAdd w).timed = .prepared w.timer from htimed _]
    exact .writes ((hat hp).trans (htimed _)) hst
  | @addsTimer w sys hu hp hst =>
    have htimed := w.timed_of_timeout (hlink hp)
    refine ⟨some (.call (.timerAdd w.timer)), ?_, by simp⟩
    rw [SemSys.timed_goto, show (SemPc.waitSignal w _).timed = .armed w.timer _ from htimed _]
    exact .adds ((hat hp).trans (htimed _)) hst
  | @waits w timerSignal sys hu hp hst =>
    refine ⟨some (.core (.call (.signalWait (timerSignal ||| (s.request w.req).signal)))), ?_, by simp⟩
    rw [SemSys.timed_goto]
    unfold SemSys.waited
    by_cases hz : w.timeout = 0
    · have hun (p : TimedPc) : w.timed p = .untimed w.timer := if_pos hz
      have hp' := (hat hp).trans (hun _)
      cases s.sys.cs.returns (.call (.signalWait (timerSignal ||| (s.request w.req).signal))) with
      | none => exact (show (SemPc.waiting w timerSignal).timed = _ from hun _) ▸ TimedStep.waits hst hp'
      | some got => exact (show (SemPc.waitGot w timerSignal got).timed = _ from hun _) ▸ TimedStep.waits hst hp'
    · have htimed := w.timed_of_timeout hz
      refine .sleeps ((hat hp).trans (htimed _)) hst (fun hr => ?_) fun hr => ?_
      · rw [show s.sys.cs.returns (.call (.signalWait (timerSignal ||| (s.request w.req).signal))) = none from hr]
        exact htimed _
      · obtain ⟨got, hgot⟩ := Option.ne_none_iff_exists'.mp hr
        rw [show s.sys.cs.returns (.call (.signalWait (timerSignal ||| (s.request w.req).signal))) = some got from hgot]
        exact htimed _
  | granted hu hp hz => exact ⟨none, hremain hp rfl, by simp⟩
  | timesOut hu hp hz ht => exact ⟨none, hremain hp rfl, by simp⟩
  | @abortsTimer w timerSignal endTime sys hu hp hz hst =>
    have htimed := w.timed_of_timeout (mt (hlink hp).mpr hz)
    refine ⟨some (.call (.service (.timerAbort w.timer))), ?_, by simp⟩
    rw [SemSys.timed_goto, show (SemPc.waitTimerFree w endTime).timed = .aborted w.timer from htimed _]
    exact .aborts ((hat hp).trans (htimed _)) hst
  | @skipsAbort w timerSignal endTime hu hp hz =>
    have hun (p : TimedPc) : w.timed p = .untimed w.timer := if_pos ((hlink hp).mp hz)
    exact ⟨none, hremain hp ((hun _).trans (hun _).symm), by simp⟩
  | @freesTimer w endTime sys hu hp hst =>
    have htimed := w.timed_of_timeout (hlink hp)
    refine ⟨some (.call (.timerFree w.timer)), ?_, by simp⟩
    rw [SemSys.timed_goto]
    exact .frees ((hat hp).trans (htimed _)) hst (.inr (htimed _))
  | @returns w endTime sys hu hp hst =>
    refine ⟨some (.core (.call (.signalFree (s.request w.req).signal))), ?_, by simp⟩
    rw [SemSys.timed_goto]
    have hentered := w.timed_entered.imp (fun he => (hat hp).trans he) fun he => (hat hp).trans he
    exact .exits hentered hst fun _ => SysEvent.not_uses_core

theorem SemSys.Timing.linked_step (h : s.Timing) (hst : s.Step ev s') (t : TaskRef) : (s'.wpc t).Linked := by
  suffices hmove : ∃ p, s'.wpc = Function.update s.wpc s.running p ∧ p.Linked by
    obtain ⟨p, hp, hl⟩ := hmove
    rw [hp]
    by_cases ht : t = s.running
    · rwa [ht, Function.update_self]
    · rw [Function.update_of_ne ht]
      exact h.linked t
  have hrun := h.linked s.running
  cases hst.effect with
  | @sys e sys hb hst =>
    refine ⟨_, rfl, ?_⟩
    rcases s.afterSys_cases e with hsame | ⟨w, timerSignal, c, got, rfl, hp, hr, hp'⟩
    · rwa [hsame]
    · rw [hp']
      rwa [hp] at hrun
  | enters hu hp => exact ⟨_, rfl, trivial⟩
  | allocates hu hp hall hst => exact ⟨_, rfl, trivial⟩
  | stores hu hp hz hst => exact ⟨_, rfl, trivial⟩
  | setsWaiter hu hp hst => exact ⟨_, rfl, trivial⟩
  | gets hu hp hg hst => exact ⟨_, rfl, trivial⟩
  | queues hu hp hg hst => exact ⟨_, rfl, trivial⟩
  | early hu hp => exact ⟨_, rfl, trivial⟩
  | skipsTimer hu hp hz => exact ⟨_, rfl, iff_of_true rfl hz⟩
  | allocatesTimer hu hp hz hst => exact ⟨_, rfl, hz⟩
  | setsTimer hu hp hst =>
    rw [hp] at hrun
    exact ⟨_, rfl, hrun⟩
  | @addsTimer w sys hu hp hst =>
    rw [hp] at hrun
    -- the timer has got a signal
    have hat := h.inv.timers s.running
    rw [show s.timed.tpc s.running = w.timed (.prepared w.timer) from congrArg SemPc.timed hp,
      w.timed_of_timeout hrun] at hat
    exact ⟨_, rfl, iff_of_false hat.2.signal hrun⟩
  | waits hu hp hst =>
    rw [hp] at hrun
    refine ⟨_, rfl, ?_⟩
    unfold SemSys.waited
    split <;> exact hrun
  | granted hu hp hz =>
    rw [hp] at hrun
    exact ⟨_, rfl, hrun⟩
  | timesOut hu hp hz ht =>
    rw [hp] at hrun
    exact ⟨_, rfl, hrun⟩
  | abortsTimer hu hp hz hst =>
    rw [hp] at hrun
    exact ⟨_, rfl, mt hrun.mpr hz⟩
  | skipsAbort hu hp hz => exact ⟨_, rfl, trivial⟩
  | freesTimer hu hp hst => exact ⟨_, rfl, trivial⟩
  | returns hu hp hst => exact ⟨_, rfl, trivial⟩

theorem SemSys.Timing.step (h : s.Timing) (hc : s.Contract ev) (hst : s.Step ev s') : s'.Timing := by
  obtain ⟨e, htimed, -⟩ := h.timed_step hc hst
  exact ⟨h.inv.step htimed, h.linked_step hst⟩

end

/-! ### `sys_arch_mbox_fetch` -/

/-- The call of `sys_arch_mbox_fetch` that a task is in. -/
def MboxPc.fetching : MboxPc → Option Fetch
  | .fetchTask f => some f
  | .fetchTest f => some f
  | .fetchStore f _ => some f
  | .fetchAction f => some f
  | .fetchTimer f => some f
  | .fetchSetup f => some f
  | .fetchAdd f => some f
  | .fetchWait f _ => some f
  | .fetchWaiting f _ => some f
  | .fetchGot f _ _ => some f
  | .fetchRead f _ _ => some f
  | .fetchAbort f _ _ => some f
  | .fetchFree f _ => some f
  | _ => none

/-- Where a call is in the machine of the timers, if it has a timeout. -/
def Fetch.timed (f : Fetch) (p : TimedPc) : TimedPc := if f.timeout = 0 then .untimed f.timer else p

/-- Where a task in the mailbox functions is in the machine of the timers. -/
def MboxPc.timed : MboxPc → TimedPc
  | .fetchTask f => f.timed (.entered f.timer)
  | .fetchTest f => f.timed (.entered f.timer)
  | .fetchStore f _ => f.timed (.entered f.timer)
  | .fetchAction f => f.timed (.entered f.timer)
  | .fetchTimer f => f.timed (.entered f.timer)
  | .fetchSetup f => f.timed (.prepared f.timer)
  | .fetchAdd f => f.timed (.prepared f.timer)
  | .fetchWait f timerSignal => f.timed (.armed f.timer timerSignal)
  | .fetchWaiting f timerSignal => f.timed (.waiting f.timer timerSignal)
  | .fetchGot f timerSignal _ => f.timed (.waited f.timer timerSignal)
  | .fetchRead f timerSignal _ => f.timed (.waited f.timer timerSignal)
  | .fetchAbort f timerSignal _ => f.timed (.waited f.timer timerSignal)
  | .fetchFree f _ => f.timed (.aborted f.timer)
  | _ => .out

/-- There is a timer signal exactly if there is a timeout. -/
def MboxPc.Linked : MboxPc → Prop
  | .fetchSetup f => f.timeout ≠ 0
  | .fetchAdd f => f.timeout ≠ 0
  | .fetchWait f timerSignal => timerSignal = 0 ↔ f.timeout = 0
  | .fetchWaiting f timerSignal => timerSignal = 0 ↔ f.timeout = 0
  | .fetchGot f timerSignal _ => timerSignal = 0 ↔ f.timeout = 0
  | .fetchRead f timerSignal _ => timerSignal = 0 ↔ f.timeout = 0
  | .fetchAbort f timerSignal _ => timerSignal = 0 ↔ f.timeout = 0
  | .fetchFree f _ => f.timeout ≠ 0
  | _ => True

namespace MboxSys

variable (s : MboxSys)

/-- The machine of the timers. -/
def timed : TimedSys := ⟨s.sys, MboxPc.timed ∘ s.mpc⟩

/-- The timer of a fetch is a local variable: nothing else is at its address, and no other code
uses it. -/
def PrivateTimers : MboxEvent → Prop
  | .sys e => ∀ t f, (s.mpc t).fetching = some f → ¬ e.Uses f.timer
  | .fetch _ timer => (∀ t f, (s.mpc t).fetching = some f → timer ≠ f.timer) ∧ s.sys.Unused timer
  | _ => True

/-- The timers of the calls. -/
structure Timing : Prop where
  /-- The machine of the timers. -/
  inv : TimedInv s.timed
  /-- The timer signals. -/
  linked : ∀ t, (s.mpc t).Linked

end MboxSys

section

variable {mbox : PortRef} {s s' : MboxSys} {ev : MboxEvent} {t : TaskRef}

theorem Fetch.timed_timer {f : Fetch} {p : TimedPc} (hp : p.timer = some f.timer) :
    (f.timed p).timer = some f.timer := by
  unfold Fetch.timed
  by_cases hz : f.timeout = 0
  · rw [if_pos hz]
    rfl
  · rw [if_neg hz]
    exact hp

theorem Fetch.timed_of_timeout {f : Fetch} (hz : f.timeout ≠ 0) (p : TimedPc) : f.timed p = p := if_neg hz

theorem MboxPc.timed_timer (p : MboxPc) : p.timed.timer = p.fetching.map Fetch.timer := by
  cases p with
  | user => rfl
  | postSend m => rfl
  | tryGet => rfl
  | tryRead m => rfl
  | _ => exact Fetch.timed_timer rfl

/-- A fetch with a timeout is not one without. -/
theorem MboxPc.not_untimed {p : MboxPc} {f : Fetch} {tm : TimerRef} (hf : p.fetching = some f) (hz : f.timeout ≠ 0) :
    p.timed ≠ .untimed tm := by
  intro hp
  cases p with
  | user => cases hf
  | postSend m => cases hf
  | tryGet => cases hf
  | tryRead m => cases hf
  | _ =>
    obtain rfl := Option.some.inj hf
    cases hp.symm.trans (Fetch.timed_of_timeout hz _)

theorem Fetch.timed_entered (f : Fetch) : f.timed (.entered f.timer) = .untimed f.timer ∨
    f.timed (.entered f.timer) = .entered f.timer := by
  unfold Fetch.timed
  by_cases hz : f.timeout = 0
  · exact .inl (if_pos hz)
  · exact .inr (if_neg hz)

theorem MboxPc.eq_waiting {p : MboxPc} {tm : TimerRef} {sg : Signals} (h : p.timed = .waiting tm sg) :
    ∃ f, p = .fetchWaiting f sg := by
  cases p with
  | user => cases h
  | postSend m => cases h
  | tryGet => cases h
  | tryRead m => cases h
  | fetchWaiting f timerSignal =>
    simp only [MboxPc.timed, Fetch.timed] at h
    split_ifs at h
    cases h
    exact ⟨f, rfl⟩
  | _ =>
    simp only [MboxPc.timed, Fetch.timed] at h
    split_ifs at h

theorem MboxSys.timed_goto {sys : Sys} {p : MboxPc} :
    ({ s.goto p with sys := sys } : MboxSys).timed = s.timed.moved sys p.timed := by
  unfold MboxSys.timed MboxSys.goto TimedSys.moved
  rw [Function.comp_update]
  rfl

/-- The timer of a fetch is in use by the fetch only. -/
theorem MboxSys.PrivateTimers.not_uses {e : SysEvent} (hc : s.PrivateTimers (.sys e)) {tm : TimerRef}
    (ht : (s.timed.tpc t).timer = some tm) : ¬ e.Uses tm := by
  rw [show (s.timed.tpc t).timer = (s.mpc t).fetching.map Fetch.timer from MboxPc.timed_timer _] at ht
  obtain ⟨f, hf, rfl⟩ := Option.map_eq_some_iff.mp ht
  exact hc t f hf

theorem SysEvent.not_uses_port {value : MsgPort} {tm : TimerRef} :
    ¬ (SysEvent.call (.write (.port mbox value))).Uses tm := by
  rintro ((hu | ⟨x, hu⟩) | hu | hu | hu | ⟨x, y, z, hu⟩) <;> cases hu

theorem SysEvent.not_uses_msgportGet {tm : TimerRef} : ¬ (SysEvent.call (.service (.msgportGet mbox))).Uses tm := by
  rintro ((hu | ⟨x, hu⟩) | hu | hu | hu | ⟨x, y, z, hu⟩) <;> cases hu

theorem SysEvent.not_uses_msgportSend {m : MsgRef} {tm : TimerRef} :
    ¬ (SysEvent.call (.service (.msgportSend mbox m))).Uses tm := by
  rintro ((hu | ⟨x, hu⟩) | hu | hu | hu | ⟨x, y, z, hu⟩) <;> cases hu

/-- Where the running task is after an event of the machine below. -/
theorem MboxSys.afterSys_cases (s : MboxSys) (e : SysEvent) : s.afterSys e = s.mpc s.running ∨
    ∃ f timerSignal c got, e = .core c ∧ s.mpc s.running = .fetchWaiting f timerSignal ∧
      s.sys.cs.returns c = some got ∧ s.afterSys e = .fetchGot f timerSignal got := by
  cases e with
  | core c =>
    unfold MboxSys.afterSys
    cases hp : s.mpc s.running with
    | fetchWaiting f timerSignal =>
      dsimp only [MboxSys.waited]
      cases hr : s.sys.cs.returns c with
      | none => exact .inl rfl
      | some got => exact .inr ⟨f, timerSignal, c, got, rfl, rfl, hr, rfl⟩
    | _ => exact .inl rfl
  | _ => exact .inl rfl

/-- Where the running task is after a step. -/
theorem MboxEffect.mpc_eq (heff : MboxEffect mbox s ev s') : ∃ p, s'.mpc = Function.update s.mpc s.running p := by
  cases heff <;> exact ⟨_, rfl⟩

theorem MboxEffect.mpc_of_ne (heff : MboxEffect mbox s ev s') (ht : t ≠ s.running) : s'.mpc t = s.mpc t := by
  obtain ⟨p, hp⟩ := heff.mpc_eq
  rw [hp, Function.update_of_ne ht]

/-- What the machine below does in a step: nothing, the event of the step, or a call of a mailbox
function. Only a fetch makes calls that do not return at once. -/
theorem MboxEffect.below (heff : MboxEffect mbox s ev s') : s'.sys = s.sys ∨
    ∃ e, s.sys.Step e s'.sys ∧ (ev = .sys e ∨ (e.byTask = true ∧
      ((s.mpc s.running).fetching = none → ∀ k, e = .call k → ¬ k.Moves))) := by
  have hfetch {p : MboxPc} {e : SysEvent} (hp : s.mpc s.running = p) (hne : p.fetching ≠ none)
      (hn : (s.mpc s.running).fetching = none) : ∀ k, e = .call k → ¬ k.Moves := by
    rw [hp] at hn
    exact absurd hn hne
  have hstill {k : ServiceCall} (hk : ¬ k.Moves) : ∀ k', SysEvent.call k = .call k' → ¬ k'.Moves :=
    (SysEvent.still_call hk).call
  cases heff with
  | sys hp hst => exact .inr ⟨_, hst, .inl rfl⟩
  | free hp hst => exact .inr ⟨_, hst, .inr ⟨rfl, fun _ => nofun⟩⟩
  | sends hu hp hst => exact .inr ⟨_, hst, .inr ⟨rfl, fun _ => hstill id⟩⟩
  | setsTask hu hp hst => exact .inr ⟨_, hst, .inr ⟨rfl, fun _ => hstill id⟩⟩
  | allocates hu hp hz hc hst => exact .inr ⟨_, hst, .inr ⟨rfl, fun _ => nofun⟩⟩
  | stores hu hp hz hst => exact .inr ⟨_, hst, .inr ⟨rfl, fun _ => hstill id⟩⟩
  | setsAction hu hp hst => exact .inr ⟨_, hst, .inr ⟨rfl, fun _ => hstill id⟩⟩
  | allocatesTimer hu hp hst => exact .inr ⟨_, hst, .inr ⟨rfl, fun _ => hstill id⟩⟩
  | setsTimer hu hp hst => exact .inr ⟨_, hst, .inr ⟨rfl, fun _ => hstill id⟩⟩
  | addsTimer hu hp hst => exact .inr ⟨_, hst, .inr ⟨rfl, hfetch hp nofun⟩⟩
  | waits hu hp hst => exact .inr ⟨_, hst, .inr ⟨rfl, fun _ => nofun⟩⟩
  | gets hu hp hz hst => exact .inr ⟨_, hst, .inr ⟨rfl, fun _ => hstill id⟩⟩
  | abortsTimer hu hp hz hst => exact .inr ⟨_, hst, .inr ⟨rfl, fun _ => hstill id⟩⟩
  | freesTimer hu hp hst => exact .inr ⟨_, hst, .inr ⟨rfl, fun _ => hstill id⟩⟩
  | tryGets hu hp hst => exact .inr ⟨_, hst, .inr ⟨rfl, fun _ => hstill id⟩⟩
  | _ => exact .inl rfl

/-- A step of the mailbox functions is a step of the machine of the timers. -/
theorem MboxSys.Timing.timed_step (h : s.Timing) (hc : s.PrivateTimers ev) (hst : s.Step mbox ev s') :
    ∃ e, TimedStep s.timed e s'.timed ∧ (e = some .resume → ev = .sys .resume) := by
  have hat {p : MboxPc} (hp : s.mpc s.running = p) : s.timed.tpc s.timed.running = p.timed := congrArg MboxPc.timed hp
  have hlink {p : MboxPc} (hp : s.mpc s.running = p) : p.Linked := hp ▸ h.linked s.running
  have hplain {e : SysEvent} {sys : Sys} {p q : MboxPc} {tm : TimerRef} (hst : s.sys.Step e sys)
      (hp : s.mpc s.running = p) (hq : p.timed = q.timed) (hu : ∀ tm, ¬ e.Uses tm) (hs : e.Still)
      (ht : q.timed = .untimed tm ∨ q.timed = .entered tm) :
      TimedStep s.timed (some e) ({ s.goto q with sys := sys } : MboxSys).timed := by
    rw [MboxSys.timed_goto]
    exact .plain hst ((hat hp).trans hq) hu hs ht
  -- the call takes a message, or the task is in no fetch
  have hapart {e : SysEvent} {sys : Sys} {p q : MboxPc} (hst : s.sys.Step e sys) (hp : s.mpc s.running = p)
      (hq : p.timed = q.timed) (hu : ∀ tm, ¬ e.Uses tm) (hs : e.Still) (ha : e.allocates = none)
      (hr : e ≠ .core .resume) :
      TimedStep s.timed (some e) ({ s.goto q with sys := sys } : MboxSys).timed := by
    rw [MboxSys.timed_goto, TimedSys.moved_eq ((hat hp).trans hq)]
    exact .below hst (fun _ tm _ => hu tm) (fun _ => hs.call) (fun _ _ => hs) (fun _ _ _ => ha)
      fun _ _ _ he => absurd he hr
  have hremain {p q : MboxPc} (hp : s.mpc s.running = p) (hq : p.timed = q.timed) :
      TimedStep s.timed none (s.goto q).timed := by
    rw [show (s.goto q).timed = s.timed.moved s.sys _ from MboxSys.timed_goto]
    exact .remains ((hat hp).trans hq)
  have heff := hst.effect
  clear hst
  cases heff with
  | @sys e sys hb hst =>
    have hout (he : e.byTask = true) : s.timed.tpc s.timed.running = .out := hat (hb he)
    refine ⟨some e, ?_, fun he => by rw [Option.some.inj he]⟩
    rw [MboxSys.timed_goto]
    rcases s.afterSys_cases e with hsame | ⟨f, timerSignal, c, got, rfl, hp, hr, hp'⟩
    · rw [hsame, TimedSys.moved_eq (show s.timed.tpc s.timed.running = (s.mpc s.running).timed from rfl)]
      refine .outside hst (fun t tm ht => hc.not_uses ht) hout fun tm sg hp he => ?_
      obtain ⟨f, hf⟩ : ∃ f, s.mpc s.running = .fetchWaiting f sg := MboxPc.eq_waiting hp
      subst he
      cases hr : s.sys.cs.returns .resume with
      | none => exact hr
      | some got =>
        unfold MboxSys.afterSys at hsame
        simp only [hf, MboxSys.waited, hr] at hsame
        cases hsame
    · have hbt : (SysEvent.core c).byTask = false := by
        by_contra hne
        rw [hb (Bool.eq_true_of_not_eq_false hne)] at hp
        cases hp
      obtain rfl := CoreSys.returns_of_not_byTask hr hbt
      rw [hp']
      by_cases hz : f.timeout = 0
      · have hun (p : TimedPc) : f.timed p = .untimed f.timer := if_pos hz
        rw [show (MboxPc.fetchGot f timerSignal got).timed = .untimed f.timer from hun _]
        exact .waits hst ((hat hp).trans (hun _))
      · rw [show (MboxPc.fetchGot f timerSignal got).timed = .waited f.timer timerSignal from
          Fetch.timed_of_timeout hz _]
        refine .wakes ((hat hp).trans (Fetch.timed_of_timeout hz _)) hst ?_
        rw [show s.timed.sys.cs.returns .resume = some got from hr]
        exact Option.some_ne_none _
  | post hu hp => exact ⟨none, hremain hp rfl, by simp⟩
  | fetch hu hp =>
    obtain ⟨hne, hun⟩ := hc
    refine ⟨none, ?_, by simp⟩
    rw [show (s.goto _).timed = s.timed.moved s.sys _ from MboxSys.timed_goto]
    refine .enters hu (fun t ht => ?_) hun (Fetch.timed_entered _)
    rw [show (s.timed.tpc t).timer = (s.mpc t).fetching.map Fetch.timer from MboxPc.timed_timer _] at ht
    obtain ⟨f, hf, hv⟩ := Option.map_eq_some_iff.mp ht
    exact hne t f hf hv.symm
  | tryfetch hu hp => exact ⟨none, hremain hp rfl, by simp⟩
  | free hp hst =>
    exact ⟨_, hapart hst hp rfl (fun _ => SysEvent.not_uses_core) ⟨by simp, by simp⟩ rfl (by simp), by simp⟩
  | sends hu hp hst =>
    exact ⟨_, hapart hst hp rfl (fun _ => SysEvent.not_uses_msgportSend) (SysEvent.still_call id) rfl (by simp),
      by simp⟩
  | setsTask hu hp hst =>
    exact ⟨_, hplain hst hp rfl (fun _ => SysEvent.not_uses_port) (SysEvent.still_call id) (Fetch.timed_entered _),
      by simp⟩
  | allocates hu hp hz hall hst =>
    exact ⟨_, hplain hst hp rfl (fun _ => SysEvent.not_uses_core) ⟨by simp, by simp⟩ (Fetch.timed_entered _), by simp⟩
  | keepsSignal hu hp hz => exact ⟨none, hremain hp rfl, by simp⟩
  | stores hu hp hz hst =>
    exact ⟨_, hplain hst hp rfl (fun _ => SysEvent.not_uses_port) (SysEvent.still_call id) (Fetch.timed_entered _),
      by simp⟩
  | setsAction hu hp hst =>
    exact ⟨_, hplain hst hp rfl (fun _ => SysEvent.not_uses_port) (SysEvent.still_call id) (Fetch.timed_entered _),
      by simp⟩
  | @skipsTimer f hu hp hz =>
    have hun (p : TimedPc) : f.timed p = .untimed f.timer := if_pos hz
    exact ⟨none, hremain hp ((hun _).trans (hun _).symm), by simp⟩
  | @allocatesTimer f sys hu hp hst hz =>
    have htimed := Fetch.timed_of_timeout hz
    refine ⟨some (.call (.timerAllocate f.timer)), ?_, by simp⟩
    rw [MboxSys.timed_goto, show (MboxPc.fetchSetup f).timed = .prepared f.timer from htimed _]
    exact .allocates ((hat hp).trans (htimed _)) hst
  | @setsTimer f sys hu hp hst =>
    have htimed := Fetch.timed_of_timeout (hlink hp)
    refine ⟨some (.call (.write (.timer f.timer .delay f.timeout (s.sys.svc.timer f.timer).tick))), ?_, by simp⟩
    rw [MboxSys.timed_goto, show (MboxPc.fetchAdd f).timed = .prepared f.timer from htimed _]
    exact .writes ((hat hp).trans (htimed _)) hst
  | @addsTimer f sys hu hp hst =>
    have htimed := Fetch.timed_of_timeout (hlink hp)
    refine ⟨some (.call (.timerAdd f.timer)), ?_, by simp⟩
    rw [MboxSys.timed_goto, show (MboxPc.fetchWait f _).timed = .armed f.timer _ from htimed _]
    exact .adds ((hat hp).trans (htimed _)) hst
  | @waits f timerSignal sys hu hp hst =>
    refine ⟨some (.core (.call (.signalWait (timerSignal ||| (s.port mbox).signal)))), ?_, by simp⟩
    rw [MboxSys.timed_goto]
    unfold MboxSys.waited
    by_cases hz : f.timeout = 0
    · have hun (p : TimedPc) : f.timed p = .untimed f.timer := if_pos hz
      have hp' := (hat hp).trans (hun _)
      cases s.sys.cs.returns (.call (.signalWait (timerSignal ||| (s.port mbox).signal))) with
      | none => exact (show (MboxPc.fetchWaiting f timerSignal).timed = _ from hun _) ▸ TimedStep.waits hst hp'
      | some got => exact (show (MboxPc.fetchGot f timerSignal got).timed = _ from hun _) ▸ TimedStep.waits hst hp'
    · have htimed := Fetch.timed_of_timeout hz
      refine .sleeps ((hat hp).trans (htimed _)) hst (fun hr => ?_) fun hr => ?_
      · rw [show s.sys.cs.returns (.call (.signalWait (timerSignal ||| (s.port mbox).signal))) = none from hr]
        exact htimed _
      · obtain ⟨got, hgot⟩ := Option.ne_none_iff_exists'.mp hr
        rw [show s.sys.cs.returns (.call (.signalWait (timerSignal ||| (s.port mbox).signal))) = some got from hgot]
        exact htimed _
  | gets hu hp hz hst =>
    exact ⟨_, hapart hst hp rfl (fun _ => SysEvent.not_uses_msgportGet) (SysEvent.still_call id) rfl (by simp), by simp⟩
  | timesOut hu hp hz ht => exact ⟨none, hremain hp rfl, by simp⟩
  | reads hu hp => exact ⟨none, hremain hp rfl, by simp⟩
  | @abortsTimer f timerSignal endTime sys hu hp hz hst =>
    have htimed := Fetch.timed_of_timeout (mt (hlink hp).mpr hz)
    refine ⟨some (.call (.service (.timerAbort f.timer))), ?_, by simp⟩
    rw [MboxSys.timed_goto, show (MboxPc.fetchFree f endTime).timed = .aborted f.timer from htimed _]
    exact .aborts ((hat hp).trans (htimed _)) hst
  | @returns f timerSignal endTime hu hp hz =>
    have hun : f.timed (.waited f.timer timerSignal) = .untimed f.timer := if_pos ((hlink hp).mp hz)
    refine ⟨none, ?_, by simp⟩
    rw [show (s.goto .user).timed = s.timed.moved s.sys .out from MboxSys.timed_goto]
    exact .leaves (.inl ((hat hp).trans hun))
  | @freesTimer f endTime sys hu hp hst =>
    have htimed := Fetch.timed_of_timeout (hlink hp)
    refine ⟨some (.call (.timerFree f.timer)), ?_, by simp⟩
    rw [MboxSys.timed_goto]
    exact .frees ((hat hp).trans (htimed _)) hst (.inl rfl)
  | tryGets hu hp hst =>
    exact ⟨_, hapart hst hp rfl (fun _ => SysEvent.not_uses_msgportGet) (SysEvent.still_call id) rfl (by simp), by simp⟩
  | tryReads hu hp => exact ⟨none, hremain hp rfl, by simp⟩
  | tryEmpty hu hp => exact ⟨none, hremain hp rfl, by simp⟩

theorem MboxSys.Timing.linked_step (h : s.Timing) (hst : s.Step mbox ev s') (t : TaskRef) : (s'.mpc t).Linked := by
  suffices hmove : ∃ p, s'.mpc = Function.update s.mpc s.running p ∧ p.Linked by
    obtain ⟨p, hp, hl⟩ := hmove
    rw [hp]
    by_cases ht : t = s.running
    · rwa [ht, Function.update_self]
    · rw [Function.update_of_ne ht]
      exact h.linked t
  have hrun := h.linked s.running
  cases hst.effect with
  | @sys e sys hb hst =>
    refine ⟨_, rfl, ?_⟩
    rcases s.afterSys_cases e with hsame | ⟨f, timerSignal, c, got, rfl, hp, hr, hp'⟩
    · rwa [hsame]
    · rw [hp']
      rwa [hp] at hrun
  | skipsTimer hu hp hz => exact ⟨_, rfl, iff_of_true rfl hz⟩
  | allocatesTimer hu hp hst hz => exact ⟨_, rfl, hz⟩
  | setsTimer hu hp hst =>
    rw [hp] at hrun
    exact ⟨_, rfl, hrun⟩
  | @addsTimer f sys hu hp hst =>
    rw [hp] at hrun
    have hat := h.inv.timers s.running
    rw [show s.timed.tpc s.running = f.timed (.prepared f.timer) from congrArg MboxPc.timed hp,
      Fetch.timed_of_timeout hrun] at hat
    exact ⟨_, rfl, iff_of_false hat.2.signal hrun⟩
  | waits hu hp hst =>
    rw [hp] at hrun
    refine ⟨_, rfl, ?_⟩
    unfold MboxSys.waited
    split <;> exact hrun
  | gets hu hp hz hst =>
    rw [hp] at hrun
    exact ⟨_, rfl, hrun⟩
  | timesOut hu hp hz ht =>
    rw [hp] at hrun
    exact ⟨_, rfl, hrun⟩
  | reads hu hp =>
    rw [hp] at hrun
    exact ⟨_, rfl, hrun⟩
  | abortsTimer hu hp hz hst =>
    rw [hp] at hrun
    exact ⟨_, rfl, mt hrun.mpr hz⟩
  | _ => exact ⟨_, rfl, trivial⟩

theorem MboxSys.Timing.step (h : s.Timing) (hc : s.PrivateTimers ev) (hst : s.Step mbox ev s') : s'.Timing := by
  obtain ⟨e, htimed, -⟩ := h.timed_step hc hst
  exact ⟨h.inv.step htimed, h.linked_step hst⟩

end

end Martos
