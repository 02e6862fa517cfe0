import Martos.Lwip.Armed
import Martos.Lwip.Ledger

/-!
# A wait on a semaphore cleans up

`sys_arch_sem_wait` has two signals in hand while it waits, that of its request and that of its
timer, and gives both back before it returns. `SemSys.Holds` is the account of them: `sig_alloc`
is what it was at the call, and these signals on top. Its frame part says what the steps of the
others leave alone while a call is under way.
-/

namespace Martos

open Checked Transition

/-! ### `sys_arch_sem_wait` -/

/-- The signals that the call has allocated and not yet freed, the last one first. -/
def SemPc.inHand (svc : Services) : SemPc → List Signals
  | .user => []
  | .waitAllocate _ => []
  | .waitStore _ signal => [signal]
  | .waitWaiter w => [(svc.request w.req).signal]
  | .waitRequest w => [(svc.request w.req).signal]
  | .waitEarly w => [(svc.request w.req).signal]
  | .waitTimer w => [(svc.request w.req).signal]
  | .waitSetup w => [(svc.timer w.timer).signal, (svc.request w.req).signal]
  | .waitAdd w => [(svc.timer w.timer).signal, (svc.request w.req).signal]
  | .waitSignal w timerSignal => [timerSignal, (svc.request w.req).signal]
  | .waiting w timerSignal => [timerSignal, (svc.request w.req).signal]
  | .waitGot w timerSignal _ => [timerSignal, (svc.request w.req).signal]
  | .waitAbort w timerSignal _ => [timerSignal, (svc.request w.req).signal]
  | .waitTimerFree w _ => [(svc.timer w.timer).signal, (svc.request w.req).signal]
  | .waitFree w _ => [(svc.request w.req).signal]

/-- `signal_wait` waits for the two signals of the call, and returns some of them. -/
def SemPc.Listens (sys : Sys) (t : TaskRef) : SemPc → Prop
  | .waiting w timerSignal => sys.cs.Asleep t (timerSignal ||| (sys.svc.request w.req).signal)
  | .waitGot w timerSignal gotSignals =>
    gotSignals ≠ 0 ∧ ∃ r, gotSignals = (timerSignal ||| (sys.svc.request w.req).signal) &&& r
  | _ => True

namespace SemSys

variable (s : SemSys) (t : TaskRef)

/-- `sig_alloc` of task `t` is `A`, and the signals in hand on top. -/
def Holds (A : Signals) : Prop := Grown A ((s.wpc t).inHand s.sys.svc) (s.sys.cs.core.task t).sigAlloc

/-- Two calls have two requests. -/
def Apart : Prop := ∀ t u w w', (s.wpc t).call = some w → (s.wpc u).call = some w' → w.req = w'.req → t = u

/-- What holds of the calls in every reachable state. -/
structure Tidy : Prop where
  /-- The timers. -/
  timing : s.Timing
  /-- The requests. -/
  apart : s.Apart
  /-- The signals that are waited for. -/
  listens : ∀ t, (s.wpc t).Listens s.sys t

/-- The task is in the endless loop for a signal that was not asked for. -/
def Stuck : Prop := ∃ w timerSignal gotSignals, s.wpc t = .waitGot w timerSignal gotSignals ∧
  gotSignals &&& (s.request w.req).signal = 0 ∧ gotSignals &&& timerSignal = 0

/-- Task `t` calls `sys_arch_sem_wait(sem, timeout)` in `s₁`, and it returns `value` in `s`. -/
structure WaitCall (t : TaskRef) (sem : SemRef) (timeout : Ticks) (req : ReqRef) (timer : TimerRef) (s₁ s₂ : SemSys)
    (tr : List (Move SemSys SemEvent)) (s s' : SemSys) (value : Ticks) : Prop where
  /-- The call and what happens meanwhile. -/
  run : Activation (Restrict Contract Step) (fun s => (s.wpc t).call ≠ none) s₁ (.wait sem timeout req timer) s₂ tr s
    .step s'
  /-- The task calls. -/
  caller : s₁.running = t
  /-- The task returns. -/
  back : s.running = t
  /-- The value. -/
  returns : s.returns .step = some value

end SemSys

/-- What a task does itself, unlike interrupt handlers. -/
def SemEvent.Own : SemEvent → Prop
  | .sys e => e.Own
  | _ => True

section

variable {s s' : SemSys} {ev : SemEvent} {t : TaskRef} {w : SemWait} {A : Signals}

theorem SemSys.timed_timer (hw : (s.wpc t).call = some w) : (s.timed.tpc t).timer = some w.timer :=
  (SemPc.timed_timer _).trans (congrArg (Option.map SemWait.timer) hw)

/-- What the machine below does in a step that is not one of the task's call leaves the timer and
the request of the call alone. -/
theorem SemSys.Timing.spares (h : s.Timing) (hap : s.Apart) (hc : s.Contract ev) (heff : SemEffect s ev s')
    (hw : (s.wpc t).call = some w) (ht : t = s.running → ev ≠ .step) : s'.sys = s.sys ∨
    ∃ e, s.sys.Step e s'.sys ∧ ¬ e.Uses w.timer ∧ ¬ e.UsesRequest w.req ∧
      (t = s.running → ev = .sys e) := by
  refine heff.below.imp_right ?_
  rintro ⟨e, hst, rfl | ⟨w', rfl, hw', hm⟩⟩
  · exact ⟨e, hst, (hc t w hw).1, (hc t w hw).2, fun _ => rfl⟩
  · have hne : t ≠ s.running := fun hrun => ht hrun rfl
    refine ⟨e, hst, fun hu => hne ?_, fun hu => hne ?_, fun hrun => absurd hrun hne⟩
    · exact h.inv.apart t s.running w.timer (SemSys.timed_timer hw) (hm.timer _ hu ▸ SemSys.timed_timer hw')
    · exact hap t s.running w w' hw hw' (hm.request _ hu)

/-- Such a step changes nothing that the call has in hand. -/
theorem SemSys.Timing.frame (h : s.Timing) (hap : s.Apart) (hc : s.Contract ev) (hst : s.Step ev s')
    (hw : (s.wpc t).call = some w) (ht : t = s.running → ev ≠ .step) :
    (s'.sys.cs.core.task t).sigAlloc = (s.sys.cs.core.task t).sigAlloc ∧ s'.request w.req = s.request w.req ∧
      (s'.sys.svc.timer w.timer).signal = (s.sys.svc.timer w.timer).signal ∧
      ∀ sg, s.sys.cs.Asleep t sg →
        (t = s.running → ev = .sys (.core .resume) → s.sys.cs.returns .resume = none) → s'.sys.cs.Asleep t sg := by
  have hlife : s.sys.cs.life t ≠ .fresh := by
    refine h.inv.alive t ?_
    rw [SemSys.timed_timer hw]
    exact Option.some_ne_none _
  rcases h.spares hap hc hst.effect hw ht with hsame | ⟨e, hstep, hu, hreq, hev⟩
  · unfold SemSys.request
    rw [hsame]
    exact ⟨rfl, rfl, rfl, fun _ ha _ => ha⟩
  · have hquiet (hrun : t = s.running) : e.allocates = none ∧ s.sys.frees e = none := by
      have hb : e.byTask = false := by
        by_contra hne
        have heff := hst.effect
        rw [hev hrun] at heff
        cases heff with
        | sys hp hst' =>
          rw [hrun, hp (Bool.eq_true_of_not_eq_false hne)] at hw
          cases hw
      exact ⟨SysEvent.allocates_of_not_byTask hb, h.inv.frees_eq_none (SemSys.timed_timer (hrun ▸ hw)) hb⟩
    refine ⟨h.inv.sound.sigAlloc_step hstep hlife hquiet, h.inv.sound.request_kept hstep hreq,
      (h.inv.sound.effect hstep).signal_eq (SysEvent.not_allocates hu), fun sg ha hr => ?_⟩
    exact h.inv.sound.asleep_stays hstep ha fun hrun he => hr hrun (he ▸ hev hrun)

/-- The call a task is in is the same after a step, unless it begins or ends. -/
theorem SemEffect.call_step (heff : SemEffect s ev s') : (s'.wpc s.running).call = (s.wpc s.running).call ∨
    (s'.wpc s.running).call = none ∨
    ∃ sem timeout req timer, ev = .wait sem timeout req timer ∧ s.wpc s.running = .user ∧
      (s'.wpc s.running).call = some ⟨sem, timeout, req, timer, s.sys.svc.timerNow⟩ := by
  have hsame {p q : SemPc} (hs : s'.wpc = Function.update s.wpc s.running q) (hp : s.wpc s.running = p)
      (hq : q.call = p.call) : (s'.wpc s.running).call = (s.wpc s.running).call := by
    rw [hs, Function.update_self, hp, hq]
  cases heff with
  | @sys e sys hp hst =>
    refine .inl (hsame rfl rfl ?_)
    rcases s.afterSys_cases e with hp' | ⟨w, timerSignal, c, got, -, hp, -, hp'⟩
    · rw [hp']
    · rw [hp', hp]
      rfl
  | enters hu hp => exact .inr (.inr ⟨_, _, _, _, rfl, hp, by rw [SemSys.goto_wpc_self]; rfl⟩)
  | returns hu hp hst =>
    refine .inr (.inl ?_)
    rw [show ({ s.goto .user with sys := _ } : SemSys).wpc s.running = .user from Function.update_self ..]
    rfl
  | allocates hu hp hc hst => exact .inl (hsame rfl hp rfl)
  | stores hu hp hz hst => exact .inl (hsame rfl hp rfl)
  | setsWaiter hu hp hst => exact .inl (hsame rfl hp rfl)
  | gets hu hp hg hst => exact .inl (hsame rfl hp rfl)
  | queues hu hp hg hst => exact .inl (hsame rfl hp rfl)
  | early hu hp => exact .inl (hsame rfl hp rfl)
  | skipsTimer hu hp hz => exact .inl (hsame rfl hp rfl)
  | allocatesTimer hu hp hz hst => exact .inl (hsame rfl hp rfl)
  | setsTimer hu hp hst => exact .inl (hsame rfl hp rfl)
  | addsTimer hu hp hst => exact .inl (hsame rfl hp rfl)
  | waits hu hp hst =>
    refine .inl (hsame rfl hp ?_)
    unfold SemSys.waited
    split <;> rfl
  | granted hu hp hz => exact .inl (hsame rfl hp rfl)
  | timesOut hu hp hz ht => exact .inl (hsame rfl hp rfl)
  | abortsTimer hu hp hz hst => exact .inl (hsame rfl hp rfl)
  | skipsAbort hu hp hz => exact .inl (hsame rfl hp rfl)
  | freesTimer hu hp hst => exact .inl (hsame rfl hp rfl)

theorem SemSys.Apart.step (hap : s.Apart) (hc : s.Contract ev) (hst : s.Step ev s') : s'.Apart := by
  have heff := hst.effect
  -- a call after the step is one from before, or has a request of its own
  have hcall {u : TaskRef} {v : SemWait} (hv : (s'.wpc u).call = some v) : (s.wpc u).call = some v ∨
      (u = s.running ∧ ∀ r x, (s.wpc r).call = some x → v.req ≠ x.req) := by
    by_cases hur : u = s.running
    · subst hur
      rcases heff.call_step with hsame | hnone | ⟨sem, timeout, req, timer, rfl, -, hnew⟩
      · exact .inl (hsame.symm.trans hv)
      · cases hnone.symm.trans hv
      · obtain rfl := Option.some.inj (hnew.symm.trans hv)
        exact .inr ⟨rfl, fun r x hx => (hc.1 r x hx).2⟩
    · rw [heff.wpc_of_ne hur] at hv
      exact .inl hv
  intro t u w w' hw hw' hreq
  rcases hcall hw with hw | ⟨rfl, hnew⟩
  · rcases hcall hw' with hw' | ⟨rfl, hnew'⟩
    · exact hap t u w w' hw hw' hreq
    · exact absurd hreq.symm (hnew' t w hw)
  · rcases hcall hw' with hw' | ⟨rfl, hnew'⟩
    · exact absurd hreq (hnew u w' hw')
    · rfl

/-- What is in hand depends on the request and the timer of the call only. -/
theorem SemPc.inHand_congr {svc svc' : Services} {p : SemPc} (hw : p.call = some w)
    (hreq : svc'.request w.req = svc.request w.req)
    (hsig : (svc'.timer w.timer).signal = (svc.timer w.timer).signal) : p.inHand svc' = p.inHand svc := by
  cases p with
  | user => rfl
  | waitAllocate w => rfl
  | waitStore w signal => rfl
  | _ =>
    obtain rfl := Option.some.inj hw
    simp only [SemPc.inHand, hreq, hsig]

/-- A statement of the call keeps the account. -/
theorem SemSys.Holds.own (ha : s.Holds s.running A) (h : s.Timing) (heff : SemEffect s .step s') :
    s'.Holds s.running A := by
  have hsound : Sound s.sys := h.inv.sound
  have hgoto {sys : Sys} {p q : SemPc} (hs : s'.sys = sys) (hpc : s'.wpc = Function.update s.wpc s.running q)
      (hp : s.wpc s.running = p)
      (hq : Grown A (p.inHand s.sys.svc) (s.sys.cs.core.task s.running).sigAlloc →
        Grown A (q.inHand sys.svc) (sys.cs.core.task s.running).sigAlloc) : s'.Holds s.running A := by
    unfold SemSys.Holds at ha ⊢
    rw [hpc, Function.update_self, hs]
    exact hq (hp ▸ ha)
  have halloc {e : SysEvent} {sys : Sys} (hst : s.sys.Step e sys) (hal : e.allocates = none)
      (hf : s.sys.frees e = none) : (sys.cs.core.task s.running).sigAlloc = (s.sys.cs.core.task s.running).sigAlloc :=
    hsound.sigAlloc_step hst hsound.running_alive fun _ => ⟨hal, hf⟩
  -- a statement that neither allocates nor frees, and keeps the request
  have hkeep {e : SysEvent} {sys : Sys} {p q : SemPc} {w : SemWait} (hst : s.sys.Step e sys)
      (hs : s'.sys = sys) (hpc : s'.wpc = Function.update s.wpc s.running q) (hp : s.wpc s.running = p)
      (hal : e.allocates = none) (hf : s.sys.frees e = none)
      (hpq : sys.svc.request w.req = s.sys.svc.request w.req → q.inHand sys.svc = p.inHand s.sys.svc)
      (hw : ∀ value, e ≠ .call (.write (.request w.req value))) (hn : ∀ sem, e ≠ .call (.semWait sem w.req)) :
      s'.Holds s.running A := by
    refine hgoto hs hpc hp fun hg => ?_
    rw [halloc hst hal hf, hpq ((hsound.effect hst).request_kept hw hn)]
    exact hg
  cases heff with
  | @allocates w i c sys hu hp hc hst => exact hgoto rfl rfl hp fun hg => hsound.grown_allocate hc hst hg
  | @stores w signal sys hu hp hz hst =>
    refine hgoto rfl rfl hp fun hg => ?_
    rw [halloc hst rfl rfl, hst.write_eq]
    simpa [Sys.execWrite, SemPc.inHand] using hg
  | @setsWaiter w sys hu hp hst =>
    refine hgoto rfl rfl hp fun hg => ?_
    rw [halloc hst rfl rfl, hst.write_eq]
    simpa [Sys.execWrite, SemPc.inHand, SemSys.request] using hg
  | @gets w sys hu hp hg hst =>
    exact hkeep (w := w) hst rfl rfl hp rfl rfl (fun hreq => by simp only [SemPc.inHand, hreq]) (by simp) (by simp)
  | @queues w sys hu hp hg hst =>
    exact hkeep (w := w) hst rfl rfl hp rfl rfl (fun hreq => by simp only [SemPc.inHand, hreq]) (by simp) (by simp)
  | @early w hu hp => exact hgoto rfl rfl hp id
  | @skipsTimer w hu hp hz => exact hgoto rfl rfl hp fun hg => hg.zero
  | @allocatesTimer w sys hu hp hz hst =>
    refine hgoto rfl rfl hp fun hg => ?_
    obtain ⟨i, hi, -, hsig, -, -, hcs, hfree⟩ := hsound.timerAllocate_step hst
    dsimp only [SemPc.inHand]
    rw [(hsound.effect hst).request_kept (by simp) (by simp), hsig, hcs]
    change Grown A _ ((s.sys.cs.core.allocated _).task s.sys.cs.core.running).sigAlloc
    rw [Core.allocated_self]
    exact hg.add hi hfree
  | @setsTimer w sys hu hp hst =>
    have hsame : (sys.svc.timer w.timer).signal = (s.sys.svc.timer w.timer).signal :=
      (hsound.effect hst).signal_eq (by simp [SysEvent.allocates])
    exact hkeep (w := w) hst rfl rfl hp rfl rfl (fun hreq => by simp only [SemPc.inHand, hreq, hsame]) (by simp)
      (by simp)
  | @addsTimer w sys hu hp hst =>
    exact hkeep (w := w) hst rfl rfl hp rfl rfl (fun hreq => by simp only [SemPc.inHand, hreq]) (by simp) (by simp)
  | @waits w timerSignal sys hu hp hst =>
    refine hkeep (w := w) hst rfl rfl hp rfl rfl (fun hreq => ?_) (by simp) (by simp)
    unfold SemSys.waited
    split <;> simp only [SemPc.inHand, hreq]
  | @granted w timerSignal gotSignals hu hp hz => exact hgoto rfl rfl hp id
  | @timesOut w timerSignal gotSignals hu hp hz ht => exact hgoto rfl rfl hp id
  | @abortsTimer w timerSignal endTime sys hu hp hz hst =>
    have hlinked := h.linked s.running
    have hat := h.inv.timers s.running
    rw [hp] at hlinked
    rw [show s.timed.tpc s.running = w.timed (.waited w.timer timerSignal) from congrArg SemPc.timed hp,
      w.timed_of_timeout (mt hlinked.mpr hz)] at hat
    have hsame : (sys.svc.timer w.timer).signal = timerSignal :=
      ((hsound.effect hst).signal_eq (by simp [SysEvent.allocates])).trans hat.2.signal
    exact hkeep (w := w) hst rfl rfl hp rfl rfl (fun hreq => by simp only [SemPc.inHand, hreq, hsame]) (by simp)
      (by simp)
  | @skipsAbort w timerSignal endTime hu hp hz =>
    subst hz
    exact hgoto rfl rfl hp fun hg => hg.of_zero
  | @freesTimer w endTime sys hu hp hst =>
    refine hgoto rfl rfl hp fun hg => ?_
    dsimp only [SemPc.inHand]
    rw [(hsound.effect hst).request_kept (by simp) (by simp)]
    exact hst.grown_free (show s.sys.frees _ = some (.timer w.timer, _) from rfl) hg
  | @returns w endTime sys hu hp hst =>
    exact hgoto rfl rfl hp fun hg => hst.grown_free (show s.sys.frees _ = some (.direct, _) from rfl) hg

/-- **A step keeps the account** of the signals in hand. -/
theorem SemSys.Holds.step (ha : s.Holds t A) (h : s.Timing) (hap : s.Apart) (hc : s.Contract ev) (hst : s.Step ev s')
    (hw : (s.wpc t).call = some w) : s'.Holds t A := by
  have hframe := h.frame hap hc hst hw
  by_cases hne : t = s.running → ev ≠ .step
  · obtain ⟨halloc, hreq, hsig, -⟩ := hframe hne
    have hcongr {p : SemPc} (hp : p.call = some w) : p.inHand s'.sys.svc = p.inHand s.sys.svc :=
      SemPc.inHand_congr hp hreq hsig
    unfold SemSys.Holds at ha ⊢
    rw [halloc]
    suffices heq : (s'.wpc t).inHand s'.sys.svc = (s.wpc t).inHand s.sys.svc by rwa [heq]
    by_cases ht : t = s.running
    · subst ht
      have heff := hst.effect
      clear hst
      cases heff with
      | @sys e sys hp hst =>
        rw [show ({ s.goto (s.afterSys e) with sys := sys } : SemSys).wpc s.running = s.afterSys e from
          Function.update_self ..]
        rcases s.afterSys_cases e with hsame | ⟨w', timerSignal, c, got, -, hp, -, hp'⟩
        · rw [hsame]
          exact hcongr hw
        · rw [hp] at hw
          rw [hp', hp]
          exact hcongr (p := .waitGot w' timerSignal got) hw
      | enters hu hp =>
        rw [hp] at hw
        cases hw
      | _ => exact absurd rfl (hne rfl)
    · rw [hst.effect.wpc_of_ne ht]
      exact hcongr hw
  · obtain ⟨rfl, hev⟩ := Classical.not_imp.mp hne
    obtain rfl := not_not.mp hev
    exact ha.own h hst.effect

/-- A task that stays in `signal_wait` has not been given anything. -/
theorem SemSys.returns_of_afterSys {timerSignal : Signals} (hp : s.wpc s.running = .waiting w timerSignal)
    (hsame : s.afterSys (.core .resume) = s.wpc s.running) : s.sys.cs.returns .resume = none := by
  cases hr : s.sys.cs.returns .resume with
  | none => rfl
  | some got =>
    unfold SemSys.afterSys at hsame
    simp only [hp, SemSys.waited, hr] at hsame
    cases hsame

/-- A task listens to the signals of its call. -/
theorem SemSys.Timing.listens_step (h : s.Timing) (hap : s.Apart) (hc : s.Contract ev) (hst : s.Step ev s')
    (hl : (s.wpc t).Listens s.sys t) : (s'.wpc t).Listens s'.sys t := by
  have hsound : Sound s.sys := h.inv.sound
  have hframe {w : SemWait} (hw : (s.wpc t).call = some w) := h.frame hap hc hst hw
  -- the task stays where it is
  have hkeep {p : SemPc} (hp : s.wpc t = p) (hne : t = s.running → ev ≠ .step)
      (hr : ∀ w timerSignal, p = .waiting w timerSignal → t = s.running → ev = .sys (.core .resume) →
        s.sys.cs.returns .resume = none) : p.Listens s'.sys t := by
    rw [hp] at hl
    cases p with
    | waiting w timerSignal =>
      obtain ⟨-, hreq, -, hasl⟩ := hframe (congrArg SemPc.call hp) hne
      dsimp only [SemPc.Listens]
      rw [show s'.sys.svc.request w.req = _ from hreq]
      exact hasl _ hl (hr w timerSignal rfl)
    | waitGot w timerSignal gotSignals =>
      obtain ⟨-, hreq, -⟩ := hframe (congrArg SemPc.call hp) hne
      dsimp only [SemPc.Listens]
      rwa [show s'.sys.svc.request w.req = _ from hreq]
    | _ => trivial
  by_cases ht : t = s.running
  · subst ht
    have hto {p : SemPc} (hs : s'.wpc = Function.update s.wpc s.running p) (hp : p.Listens s'.sys s.running) :
        (s'.wpc s.running).Listens s'.sys s.running := by
      rwa [hs, Function.update_self]
    have heff := hst.effect
    clear hst
    cases heff with
    | @sys e sys hp hst =>
      refine hto rfl ?_
      rcases s.afterSys_cases e with hsame | ⟨w, timerSignal, c, got, rfl, hp', hr, hgot⟩
      · rw [hsame]
        refine hkeep rfl (fun _ => nofun) fun w timerSignal hw _ he => ?_
        cases he
        exact SemSys.returns_of_afterSys hw hsame
      · have hb : (SysEvent.core c).byTask = false := by
          by_contra hne
          cases hp'.symm.trans (hp (Bool.eq_true_of_not_eq_false hne))
        obtain rfl := CoreSys.returns_of_not_byTask hr hb
        obtain ⟨-, hreq, -⟩ := hframe (congrArg SemPc.call hp') (fun _ => nofun)
        rw [hp'] at hl
        obtain ⟨hne, hand⟩ := hsound.returns_asleep hl hr
        rw [hgot]
        dsimp only [SemPc.Listens]
        rw [show sys.svc.request w.req = _ from hreq]
        exact ⟨hne, _, hand⟩
    | @waits w timerSignal sys hu hp hst =>
      refine hto rfl ?_
      obtain ⟨-, hsvc, hcases⟩ := hsound.signalWait_step hst
      unfold SemSys.waited
      cases hr : s.sys.cs.returns (.call (.signalWait (timerSignal ||| (s.request w.req).signal))) with
      | none =>
        obtain ⟨-, hasl, -⟩ | ⟨hne, -⟩ := hcases
        · dsimp only [SemPc.Listens]
          rw [hsvc]
          exact hasl
        · exact absurd hr hne
      | some got =>
        obtain ⟨hne, hand⟩ := hsound.returns_called hr
        dsimp only [SemPc.Listens]
        rw [hsvc]
        exact ⟨hne, _, hand⟩
    | _ => exact hto rfl trivial
  · rw [hst.effect.wpc_of_ne ht]
    exact hkeep rfl (fun hr => absurd hr ht) fun _ _ _ hr => absurd hr ht

theorem SemSys.Tidy.step (h : s.Tidy) (hst : Restrict SemSys.Contract SemSys.Step s ev s') : s'.Tidy where
  timing := h.timing.step hst.1 hst.2
  apart := h.apart.step hst.1 hst.2
  listens t := h.timing.listens_step h.apart hst.1 hst.2 (h.listens t)

theorem SemSys.Tidy.start {cfg : Config} {c : Core} (h : martosPre cfg = .ok c) :
    (SemSys.start (Sys.start c)).Tidy where
  timing := .start h
  apart _ _ _ _ hw := by cases hw
  listens _ := trivial

theorem SemSys.tidy_run {cfg : Config} {c : Core} {tr : List (Move SemSys SemEvent)} (h : martosPre cfg = .ok c)
    (hr : Run (Restrict SemSys.Contract SemSys.Step) (SemSys.start (Sys.start c)) tr s) : s.Tidy :=
  hr.invariant (.start h) fun _ _ _ ht hst => ht.step hst

/-- The endless loop is not entered. -/
theorem SemSys.Tidy.not_stuck (h : s.Tidy) (t : TaskRef) : ¬ s.Stuck t := by
  rintro ⟨w, timerSignal, gotSignals, hp, hz, hz'⟩
  have hl := h.listens t
  rw [hp] at hl
  obtain ⟨hne, r, hgot⟩ := hl
  rcases got_meets hne hgot with hm | hm
  · exact hm hz
  · exact hm hz'

/-- What a task in a call does itself touches no timer but its own. -/
theorem SemSys.Timing.onlyTimer_step (h : s.Timing) (hst : s.Step ev s') (hw : (s.wpc s.running).call = some w)
    (ho : ev.Own) : s.sys.OnlyTimer w.timer s'.sys := by
  have htimer := SemSys.timed_timer hw
  have hsound : Sound s.sys := h.inv.sound
  rcases hst.effect.below with hsame | ⟨e, hstep, rfl | ⟨w', rfl, hw', hm⟩⟩
  · rw [hsame]
    exact .refl
  · have hb : e.byTask = false := by
      by_contra hne
      have heff := hst.effect
      clear hst
      cases heff with
      | sys hp hst =>
        rw [hp (Bool.eq_true_of_not_eq_false hne)] at hw
        cases hw
    have hquiet := SysEvent.Own.quiet ho hb
    exact hsound.onlyTimer (hsound.effect hstep) (fun v hv => absurd hv (hquiet.1 v))
      (fun v hv => h.inv.spc_timer htimer hv)
      hquiet.2
  · obtain rfl := Option.some.inj (hw.symm.trans hw')
    refine hsound.onlyTimer (hsound.effect hstep) hm.timer (fun v hv => h.inv.spc_timer htimer hv) ?_
    rintro rfl
    cases hm.byTask

/-- A task stays in the same call as long as it is in one. -/
theorem SemSys.call_step (hst : s.Step ev s') (hw : (s.wpc t).call = some w) (hin : (s'.wpc t).call ≠ none) :
    (s'.wpc t).call = some w := by
  by_cases ht : t = s.running
  · subst ht
    rcases hst.effect.call_step with hsame | hnone | ⟨sem, timeout, req, timer, -, hu, -⟩
    · exact hsame.trans hw
    · exact absurd hnone hin
    · rw [hu] at hw
      cases hw
  · rwa [hst.effect.wpc_of_ne ht]

variable {s₁ s₂ : SemSys} {tr : List (Move SemSys SemEvent)} {sem : SemRef} {timeout : Ticks} {req : ReqRef}
  {timer : TimerRef} {value : Ticks}

/-- How `sys_arch_sem_wait` returns. -/
theorem SemSys.returns_step (hst : s.Step .step s') (hr : s.returns .step = some value) :
    ∃ w sys, s.wpc s.running = .waitFree w value ∧
      s.sys.Step (.core (.call (.signalFree (s.request w.req).signal))) sys ∧
        s' = { s.goto .user with sys := sys } := by
  unfold SemSys.returns at hr
  dsimp only at hr
  split at hr
  · next w endTime hp =>
    obtain rfl := Option.some.inj hr
    unfold SemSys.Step SemSys.next at hst
    dsimp only at hst
    split at hst
    · simp only [SemSys.execStep, hp] at hst
      obtain ⟨sys, hstep, rfl⟩ := SemSys.act_eq_some hst
      exact ⟨w, sys, hp, hstep, rfl⟩
    · cases hst
  · cases hr

/-- What a call knows all the time. -/
theorem SemSys.WaitCall.inside (hc : SemSys.WaitCall t sem timeout req timer s₁ s₂ tr s s' value) (h : s₁.Tidy) :
    let P (s : SemSys) := (s.Tidy ∧ (s.wpc t).call = some ⟨sem, timeout, req, timer, s₁.sys.svc.timerNow⟩) ∧
      s.Holds t (s₁.sys.cs.core.task t).sigAlloc
    P s ∧ ∀ m ∈ tr, P m.pre := by
  intro P
  obtain ⟨hrun, hcaller, hback, hvalue⟩ := hc
  have hbegin : P s₂ := by
    have ht := h.step hrun.begins
    obtain ⟨hbeg, hst⟩ := hrun.begins
    have heff := hst.effect
    subst hcaller
    clear hst
    cases heff with
    | enters hu hp =>
      have hpc : (s₁.goto (.waitAllocate ⟨sem, timeout, req, timer, s₁.sys.svc.timerNow⟩)).wpc s₁.running = _ :=
        Function.update_self ..
      refine ⟨⟨ht, congrArg SemPc.call hpc⟩, ?_⟩
      unfold SemSys.Holds
      rw [hpc]
      rfl
  have hstep (s : SemSys) (ev : SemEvent) (s' : SemSys) (hin : (s'.wpc t).call ≠ none) (hp : P s)
      (hst : Restrict SemSys.Contract SemSys.Step s ev s') : P s' := by
    obtain ⟨⟨ht, hw⟩, ha⟩ := hp
    exact ⟨⟨ht.step hst, SemSys.call_step hst.2 hw hin⟩, ha.step ht.timing ht.apart hst.1 hst.2 hw⟩
  obtain ⟨hs, hall⟩ := hrun.during.inside (P := P) (fun _ => hbegin) (fun s ev s' _ => hstep s ev s') hrun.inside
  exact ⟨hs, fun m hm => (hall m hm).2.1⟩

/-- **A call of `sys_arch_sem_wait` cleans up.** -/
theorem SemSys.WaitCall.cleans (hc : SemSys.WaitCall t sem timeout req timer s₁ s₂ tr s s' value) (h : s₁.Tidy) :
    (s'.sys.cs.core.task t).sigAlloc = (s₁.sys.cs.core.task t).sigAlloc ∧ timer ∉ s'.sys.svc.timers () ∧
      ∀ m ∈ ⟨s₁, .wait sem timeout req timer, s₂⟩ :: (tr ++ [⟨s, .step, s'⟩]), m.pre.running = t → m.event.Own →
        m.pre.sys.OnlyTimer timer m.post.sys := by
  obtain ⟨⟨⟨ht, hw⟩, ha⟩, hall⟩ := hc.inside h
  obtain ⟨hrun, hcaller, rfl, hvalue⟩ := hc
  obtain ⟨-, hst⟩ := hrun.ends
  obtain ⟨w, sys, hpc, hfree, rfl⟩ := SemSys.returns_step hst hvalue
  have hweq := Option.some.inj ((congrArg SemPc.call hpc).symm.trans hw)
  refine ⟨?_, ?_, fun m hm hrunning ho => ?_⟩
  · have hown := ha.own ht.timing hst.effect
    unfold SemSys.Holds at hown
    rwa [show ({ s.goto .user with sys := sys } : SemSys).wpc s.running = .user from Function.update_self ..] at hown
  · have hunused : s.sys.Unused timer := by
      have hat := ht.timing.inv.timers s.running
      rw [show s.timed.tpc s.running = w.timed (.entered w.timer) from congrArg SemPc.timed hpc] at hat
      have htimer : w.timer = timer := congrArg SemWait.timer hweq
      rcases w.timed_entered with hp | hp
      · rw [hp, htimer] at hat
        exact hat.2
      · rw [hp, htimer] at hat
        exact hat.2
    exact (hunused.step ht.timing.inv.sound hfree SysEvent.not_uses_core).1.out
  · rcases List.mem_cons.mp hm with rfl | hm
    · obtain ⟨-, hst₁⟩ := hrun.begins
      have heff := hst₁.effect
      clear hst₁
      cases heff with
      | enters hu hp => exact .refl
    · rcases List.mem_append.mp hm with hm | hm
      · obtain ⟨⟨ht', hw'⟩, -⟩ := hall m hm
        have hstep := (hrun.during.step_of_mem hm).2.2
        rw [← hrunning] at hw'
        exact ht'.timing.onlyTimer_step hstep hw' ho
      · obtain rfl := List.mem_singleton.mp hm
        exact ht.timing.onlyTimer_step hst hw trivial

end

/-! ### Calls that can be replayed -/

/-- Events that can be replayed, with task `t` as the only caller, are a call that meets the
contract. -/
theorem SemSys.exists_call (t : TaskRef) (sem : SemRef) (timeout : Ticks) (req : ReqRef) (timer : TimerRef)
    (value : Ticks) (es₁ es₂ : List SemEvent) {p : SemSys → SemSys → Bool}
    (h : (martosPre CoreSys.exampleConfig).toOption.any (fun c =>
      (replay (nextIf (fun s ev => s.Lone t ev ∧ True) SemSys.next) (SemSys.start (Sys.start c)) es₁).any fun s₁ =>
        (nextIf (fun s ev => s.Lone t ev ∧ True) SemSys.next s₁ (.wait sem timeout req timer)).any fun s₂ =>
          (replay (nextIf (fun s _ => (s.wpc t).call ≠ none) (nextIf (fun s ev => s.Lone t ev ∧ True) SemSys.next)) s₂
            es₂).any fun s => decide ((s.wpc t).call ≠ none) &&
              (nextIf (fun s ev => s.Lone t ev ∧ True) SemSys.next s .step).any fun s' =>
                decide (s₁.running = t ∧ s.running = t ∧ s.returns .step = some value) && p s₁ s') = true) :
    ∃ c tr₀ s₁ s₂ tr s s', martosPre CoreSys.exampleConfig = .ok c ∧
      Run (Restrict SemSys.Contract SemSys.Step) (SemSys.start (Sys.start c)) tr₀ s₁ ∧
      SemSys.WaitCall t sem timeout req timer s₁ s₂ tr s s' value ∧ p s₁ s' = true ∧ tr.map Move.event = es₂ := by
  have hn (s : SemSys) (ev : SemEvent) (s' : SemSys)
      (hs : nextIf (fun s ev => s.Lone t ev ∧ True) SemSys.next s ev = some s') :
      Restrict (fun s ev => s.Lone t ev ∧ True) SemSys.Step s ev s' := restrict_of_nextIf (fun _ _ _ => id) s ev s' hs
  obtain ⟨c, hc, h⟩ := (Option.any_eq_true ..).mp h
  obtain ⟨s₁, hs₁, h⟩ := (Option.any_eq_true ..).mp h
  obtain ⟨tr₀, hr, -⟩ := Run.of_replay hn hs₁
  have hc := eq_ok_of_toOption hc
  obtain ⟨hr, hlone⟩ := SemSys.run_of_lone hc hr
  obtain ⟨s₂, tr, s, s', hact, hp, htr⟩ := Activation.exists_of_replay hn h
  obtain ⟨hcond, hp⟩ := Bool.and_eq_true_iff.mp hp
  obtain ⟨hcaller, hback, hreturns⟩ := of_decide_eq_true hcond
  have hact : Activation (Restrict (fun s ev => s.Contract ev ∧ True) SemSys.Step) _ s₁ _ s₂ tr s _ s' :=
    hact.refine (P := fun s => s.Timing ∧ s.OthersOut t) hlone fun _ _ _ => SemSys.lone_step
  have hcontract (s : SemSys) (ev : SemEvent) (s' : SemSys)
      (hst : Restrict (fun s ev => s.Contract ev ∧ True) SemSys.Step s ev s') :
      Restrict SemSys.Contract SemSys.Step s ev s' :=
    ⟨hst.1.1, hst.2⟩
  exact ⟨c, tr₀, s₁, s₂, tr, s, s', hc, hr.mono hcontract, ⟨hact.mono hcontract, hcaller, hback, hreturns⟩, hp, htr⟩

end Martos
