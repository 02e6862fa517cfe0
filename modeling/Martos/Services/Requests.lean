import Martos.Services.Admission

/-!
# The request of a call of `sem_wait`

The request with which `sem_wait` queues itself is a variable on the stack of the task that
calls it. It may stay on the queue of the semaphore only as long as the call has not returned,
and the call may return only when its request has been granted. Neither is tested: the call
returns when `SIGF_SINGLE` comes. Both hold where this signal belongs to the semaphores
(`sem_wait_returns_granted`): the call is first queued, and then granted by `sem_signal`, which
takes its request off the queue; or `sem_init` drops the request, and then the call never
returns (`WaitStage`).
-/

namespace Martos

open Checked Transition

namespace Sys

variable (t : TaskRef)

/-- The call of `sem_wait` with which task `t` queues a request in a move. -/
def waitsOn (m : Move Sys SysEvent) : Option (SemRef × ReqRef) :=
  match m.event with
  | .call (.semWait sem req) =>
    if m.pre.cs.core.running = t ∧ m.post.spc t = .semWaitBlock then some (sem, req) else none
  | _ => none

/-- A call of `sem_wait` by task `t` that has queued a request returns in a move. -/
def WaitReturns (m : Move Sys SysEvent) : Prop :=
  m.event = .resume ∧ m.pre.cs.core.running = t ∧ m.pre.spc t = .semWaitReturn

/-- `sem_signal(sem)` grants request `req` of task `t` in a move, and this request only. -/
structure GrantsWait (sem : SemRef) (req : ReqRef) (m : Move Sys SysEvent) : Prop where
  /-- The call. -/
  event : m.event.service = some (.semSignal sem)
  /-- What it grants. -/
  granted : Sys.granted sem m = [req]
  /-- The request is one of `sem_wait`. -/
  request : m.pre.svc.request req = ⟨t, sigfSingle⟩

end Sys

/-- Request `req` is handed to no semaphore in a list of moves. -/
def Unasked (req : ReqRef) (tr : List (Move Sys SysEvent)) : Prop :=
  ∀ m ∈ tr, ∀ sem, m.event.requests ≠ some (sem, req)

/-- Where a call of `sem_wait(sem)` by task `t` is that has queued `req`, after the moves `tr`. -/
inductive WaitStage (t : TaskRef) (sem : SemRef) (req : ReqRef) (tr : List (Move Sys SysEvent)) (s : Sys) : Prop where
  /-- The request is on the queue. -/
  | queued (hu : s.Unserved t) (hq : req ∈ s.svc.reqQueue sem) (hr : s.svc.request req = ⟨t, sigfSingle⟩)
      (hret : ∀ m ∈ tr, ¬ Sys.WaitReturns t m)
  /-- `sem_init` has dropped it. -/
  | dropped (hu : s.Unserved t) (hinit : ∃ m ∈ tr, ∃ n, m.event.service = some (.semInit sem n))
      (hnone : ∀ sem' req', req' ∈ s.svc.reqQueue sem' → (s.svc.request req').signal.getLsbD 0 = true →
        (s.svc.request req').waiter ≠ t)
      (hoff : Unasked req tr → ∀ sem', req ∉ s.svc.reqQueue sem') (hret : ∀ m ∈ tr, ¬ Sys.WaitReturns t m)
  /-- It has been granted. -/
  | granted (hg : ∃ m ∈ tr, Sys.GrantsWait t sem req m) (hoff : Unasked req tr → ∀ sem', req ∉ s.svc.reqQueue sem')

section

variable {s s' : Sys} {e : SysEvent} {t : TaskRef} {sem : SemRef} {req : ReqRef} {tr : List (Move Sys SysEvent)}
  {m : Move Sys SysEvent}

theorem Unasked.of_snoc (h : Unasked req (tr ++ [m])) : Unasked req tr := by
  intro x hx
  exact h x (List.mem_append_left _ hx)

theorem Unasked.last (h : Unasked req (tr ++ [m])) (sem : SemRef) : m.event.requests ≠ some (sem, req) :=
  h m (by simp) sem

theorem SysEvent.requests_of_service {sem' : SemRef} {req' : ReqRef} (h : e.service = some (.semAddRequest sem' req')) :
    e.requests = some (sem', req') := by
  cases e with
  | call k =>
    cases k with
    | service a =>
      obtain rfl := Option.some.inj h
      rfl
    | _ => cases h
  | isr a =>
    obtain rfl := Option.some.inj h
    rfl
  | _ => cases h

/-- A request that is not handed to a semaphore stays off the queues. -/
theorem Sound.off_step (h : Sound s) (hst : s.Step e s') (hask : ∀ sem', e.requests ≠ some (sem', req))
    (hoff : ∀ sem', req ∉ s.svc.reqQueue sem') : ∀ sem', req ∉ s'.svc.reqQueue sem' := by
  intro sem' hq
  rcases h.queued_cases (h.effect hst) hq with ⟨hold, -⟩ | ⟨he, -⟩ | hj
  · exact hoff sem' hold
  · exact hask sem' (SysEvent.requests_of_service he)
  · rw [hj.event] at hask
    exact hask sem' rfl

/-- A task that is not signalled does not return. -/
theorem Sys.Unserved.not_returns (hu : s.Unserved t) (hst : s.Step e s') : ¬ Sys.WaitReturns t ⟨s, e, s'⟩ := by
  rintro ⟨he, ht, hp⟩
  change e = .resume at he
  change s.cs.core.running = t at ht
  change s.spc t = .semWaitReturn at hp
  subst he ht
  exact Sys.not_inSemWait_of_return hst.1.1 hp hu.1

/-- A request for the signal queued after a step, of a task that was in `sem_wait` before it, was
queued before it. -/
theorem Sound.queued_of_unserved (h : Sound s) (hok : SingleBySemaphores s e) (hst : s.Step e s') {sem' : SemRef}
    {req' : ReqRef} (hu : s.Unserved t) (hq : req' ∈ s'.svc.reqQueue sem')
    (hbit : (s'.svc.request req').signal.getLsbD 0 = true) (hw : (s'.svc.request req').waiter = t) :
    req' ∈ s.svc.reqQueue sem' ∧ s'.svc.request req' = s.svc.request req' := by
  rcases h.queued_cases (h.effect hst) hq with hold | ⟨he, hsame⟩ | hj
  · exact hold
  · rw [hsame, hok.asks sem' req' he] at hbit
    cases hbit
  · rw [← hw] at hu
    exact absurd hu.1 hj.not_inSemWait

theorem sigfSingle_getLsbD_zero : sigfSingle.getLsbD 0 = true := by decide

/-- The queue of a semaphore loses a request only to `sem_init` or to `sem_signal`. -/
theorem Sound.leaves_queue (h : Sound s) (hst : s.Step e s') (hq : req ∈ s.svc.reqQueue sem)
    (hq' : req ∉ s'.svc.reqQueue sem) : (∃ n, e.service = some (.semInit sem n)) ∨
      e.service = some (.semSignal sem) ∧ Sys.granted sem ⟨s, e, s'⟩ = [req] := by
  by_cases hno : ∃ n, e.service = some (.semInit sem n)
  · exact .inl hno
  refine .inr ?_
  rw [not_exists] at hno
  cases h.semChange sem hst hno with
  | keeps hr hs ht hc hqueue => exact absurd (hqueue ▸ hq) hq'
  | takes r hr hs ht hn hc hqueue => exact absurd (hqueue ▸ hq) hq'
  | queues r hr hs ht hn hc hqueue => exact absurd (hqueue ▸ List.mem_append_left _ hq) hq'
  | releases hr hs ht hn hc hqueue => exact absurd (hqueue ▸ hq) hq'
  | grants r hr hs ht hn hc hqueue hd =>
    have hreq : req = r := by
      rw [hqueue, List.mem_cons] at hq
      exact hq.resolve_right hq'
    subst hreq
    refine ⟨?_, h.granted_first ht hqueue hd⟩
    unfold SysEvent.signalsSem at hs
    split at hs
    · next sem' he => rw [he, of_decide_eq_true hs]
    · cases hs

/-- A queued request is not written to. -/
theorem Sound.request_of_queued (h : Sound s) (hst : s.Step e s') (hq : req ∈ s.svc.reqQueue sem) :
    s'.svc.request req = s.svc.request req := by
  have hne {req' : ReqRef} (hr : s.reqAt req' = none) : req ≠ req' := by
    rintro rfl
    exact h.requests.off hr sem hq
  cases h.effect hst with
  | semTaken hu hr hn => exact Function.update_of_ne (hne hr) ..
  | semQueued hu hr hd hn => exact Function.update_of_ne (hne hr) ..
  | @write w hu hw =>
    cases w with
    | request r value => exact Function.update_of_ne (hne hw) ..
    | _ => rfl
  | _ => rfl

/-- Once off its queue, a request that is not handed to a semaphore is on no queue. -/
theorem Sound.off_of_left (h : Sound s) (hst : s.Step e s') (hq : req ∈ s.svc.reqQueue sem)
    (hq' : req ∉ s'.svc.reqQueue sem) (hask : ∀ sem', e.requests ≠ some (sem', req)) :
    ∀ sem', req ∉ s'.svc.reqQueue sem' := by
  intro sem' hm
  rcases h.queued_cases (h.effect hst) hm with ⟨hold, -⟩ | ⟨he, -⟩ | hj
  · rw [h.requests.separate.unique hold hq] at hm
    exact hq' hm
  · exact hask sem' (SysEvent.requests_of_service he)
  · rw [hj.event] at hask
    exact hask sem' rfl

/-- The queued request of a task is the only one that asks for the signal. -/
theorem Heralded.only_request (hh : Heralded s) (h : Sound s) (hq : req ∈ s.svc.reqQueue sem)
    (hr : s.svc.request req = ⟨t, sigfSingle⟩) {sem' : SemRef} {req' : ReqRef} (hq' : req' ∈ s.svc.reqQueue sem')
    (hbit : (s.svc.request req').signal.getLsbD 0 = true) (hw : (s.svc.request req').waiter = t) :
    req' = req ∧ sem' = sem := by
  have hreq : req' = req := by
    apply hh.unique sem' req' sem req hq' hq hbit
    · rw [hr]
      exact sigfSingle_getLsbD_zero
    · rw [hw, hr]
  subst hreq
  exact ⟨rfl, h.requests.separate.unique hq' hq⟩

/-- A call whose request is queued, and stays queued. -/
theorem WaitStage.stays (hh : Heralded s) (h : Sound s) (hok : SingleBySemaphores s e) (hst : s.Step e s')
    (hu : s.Unserved t) (hq : req ∈ s.svc.reqQueue sem) (hr : s.svc.request req = ⟨t, sigfSingle⟩)
    (hq' : req ∈ s'.svc.reqQueue sem) : s'.Unserved t := by
  refine h.unserved_step hst (fun hs => ?_) hu
  -- the signal is sent for the first request of a queue, which would be this one
  obtain ⟨sem₀, req₀, -, hq₀, hw₀, hsg₀, -⟩ := h.sendsSingle_cases hok hst hs
  have hm₀ : req₀ ∈ s.svc.reqQueue sem₀ := by
    rw [hq₀]
    exact List.mem_cons_self
  obtain ⟨rfl, rfl⟩ := hh.only_request h hq hr hm₀ hsg₀ hw₀
  have hnodup := h.requests.separate.nodup sem₀
  rw [hq₀, List.nodup_cons] at hnodup
  exact hnodup.1 hq'

/-- **A call that has queued its request moves on.** -/
theorem WaitStage.step (hw : WaitStage t sem req tr s) (hh : Heralded s) (h : Sound s)
    (hok : SingleBySemaphores s e) (hst : s.Step e s') : WaitStage t sem req (tr ++ [⟨s, e, s'⟩]) s' := by
  have hkept (hoff : Unasked req tr → ∀ sem', req ∉ s.svc.reqQueue sem') (ha : Unasked req (tr ++ [⟨s, e, s'⟩])) :
      ∀ sem', req ∉ s'.svc.reqQueue sem' := h.off_step hst ha.last (hoff ha.of_snoc)
  have hreturns (hu : s.Unserved t) (hret : ∀ m ∈ tr, ¬ Sys.WaitReturns t m) :
      ∀ m ∈ tr ++ [⟨s, e, s'⟩], ¬ Sys.WaitReturns t m := by
    intro m hm
    rcases List.mem_append.mp hm with hm | hm
    · exact hret m hm
    · rw [List.mem_singleton.mp hm]
      exact hu.not_returns hst
  have hlast : (⟨s, e, s'⟩ : Move Sys SysEvent) ∈ tr ++ [⟨s, e, s'⟩] := by simp
  cases hw with
  | queued hu hq hr hret =>
    by_cases hq' : req ∈ s'.svc.reqQueue sem
    · exact .queued (WaitStage.stays hh h hok hst hu hq hr hq') hq' ((h.request_of_queued hst hq).trans hr)
        (hreturns hu hret)
    · have hoff (ha : Unasked req (tr ++ [⟨s, e, s'⟩])) := h.off_of_left hst hq hq' ha.last
      rcases h.leaves_queue hst hq hq' with ⟨n, hinit⟩ | ⟨he, hg⟩
      · have hno : ¬ s.SendsSingle e t := by
          intro hs
          obtain ⟨sem₀, req₀, he₀, -⟩ := h.sendsSingle_cases hok hst hs
          cases he₀.symm.trans hinit
        refine .dropped (h.unserved_step hst hno hu) ⟨_, hlast, n, hinit⟩ ?_ hoff (hreturns hu hret)
        intro sem' req' hm hbit hw
        obtain ⟨hold, hsame⟩ := h.queued_of_unserved hok hst hu hm hbit hw
        rw [hsame] at hbit hw
        obtain ⟨rfl, rfl⟩ := hh.only_request h hq hr hold hbit hw
        exact hq' hm
      · exact .granted ⟨_, hlast, he, hg, hr⟩ hoff
  | dropped hu hinit hnone hoff hret =>
    have hno : ¬ s.SendsSingle e t := by
      intro hs
      obtain ⟨sem₀, req₀, -, hq₀, hw₀, hsg₀, -⟩ := h.sendsSingle_cases hok hst hs
      refine hnone sem₀ req₀ ?_ hsg₀ hw₀
      rw [hq₀]
      exact List.mem_cons_self
    obtain ⟨m, hm, n, hn⟩ := hinit
    refine .dropped (h.unserved_step hst hno hu) ⟨m, List.mem_append_left _ hm, n, hn⟩ ?_ (hkept hoff)
      (hreturns hu hret)
    intro sem' req' hm' hbit hw
    obtain ⟨hold, hsame⟩ := h.queued_of_unserved hok hst hu hm' hbit hw
    rw [hsame] at hbit hw
    exact hnone sem' req' hold hbit hw
  | granted hg hoff =>
    obtain ⟨m, hm, hg⟩ := hg
    exact .granted ⟨m, List.mem_append_left _ hm, hg⟩ (hkept hoff)

/-- The call has just queued its request. -/
theorem WaitStage.init (hh : Heralded s) (h : Sound s) (hst : s.Step e s')
    (hw : Sys.waitsOn t ⟨s, e, s'⟩ = some (sem, req)) : WaitStage t sem req [] s' := by
  unfold Sys.waitsOn at hw
  split at hw
  · next sem' req' he =>
    change e = .call (.semWait sem' req') at he
    subst he
    obtain ⟨⟨ht, hp⟩, heq⟩ := Option.ite_none_right_eq_some.mp hw
    obtain ⟨rfl, rfl⟩ := Prod.mk.inj (Option.some.inj heq)
    change s.cs.core.running = t at ht
    change s'.spc t = .semWaitBlock at hp
    subst ht
    obtain ⟨hu, hcs, hreq, hcases⟩ := h.semWait_cases hst
    have hneg : s.svc.count sem' ≤ 0 := by
      rcases hcases with ⟨-, hspc⟩ | ⟨hneg, -⟩
      · rw [hspc, hu.2] at hp
        cases hp
      · exact hneg
    refine .queued ⟨.inl hp, fun hs => ?_⟩ ?_ hreq fun m hm => by cases hm
    · unfold Sys.Single at hs
      rw [hcs] at hs
      exact Sys.not_inSemWait_of_user hu.2 (hh.single _ hs)
    · have hasks : Sys.requested sem' ⟨s, .call (.semWait sem' req'), s'⟩ = some req' :=
        (Sys.requested_eq rfl).trans (if_pos rfl)
      cases h.semChange sem' hst (fun n hn => by cases hn) with
      | queues r hr hs ht hn hc hqueue =>
        obtain rfl := Option.some.inj (hasks.symm.trans hr)
        rw [hqueue]
        exact List.mem_append_right _ List.mem_cons_self
      | takes r hr hs ht hn => omega
      | keeps hr => cases hasks.symm.trans hr
      | releases hr => cases hasks.symm.trans hr
      | grants r hr => cases hasks.symm.trans hr
  · cases hw

/-! ### Whole runs -/

theorem WaitStage.run (hw : WaitStage t sem req [] s) (h : SoundHeralded s)
    (hr : Run (Restrict SingleBySemaphores Sys.Step) s tr s') : WaitStage t sem req tr s' := by
  induction hr with
  | nil => exact hw
  | snoc hra hst ih =>
    have hsh := h.run hra
    exact ih.step hsh.heralded hsh.sound hst.1 hst.2

/-- A call that returns has been granted. -/
theorem WaitStage.granted_of_returns (hw : WaitStage t sem req tr s) (hst : s.Step e s')
    (hret : Sys.WaitReturns t ⟨s, e, s'⟩) : ∃ m ∈ tr, Sys.GrantsWait t sem req m := by
  cases hw with
  | queued hu hq hr hnot => exact absurd hret (hu.not_returns hst)
  | dropped hu hinit hnone hoff hnot => exact absurd hret (hu.not_returns hst)
  | granted hg hoff => exact hg

/-- **A call of `sem_wait` returns only when its own request has been granted, and leaves none
behind.** In every run in which `SIGF_SINGLE` is sent to tasks only by `sem_signal`, and no request that is
handed to `sem_add_request` directly asks for it (`SingleBySemaphores`), after a task has called `sem_wait(sem)`
with a request that has been queued:

* when a call of the task that had to wait returns, `sem_signal(sem)` has granted this request
  since;
* until this has happened the request stays on the queue and the task in `sem_wait`, not
  signalled, unless `sem_init(sem, ..)` is called;
* a request that is handed to no semaphore again is on the queue of `sem` or on none, and on
  none when the call has returned. -/
theorem sem_wait_returns_granted {cfg : Config} {c : Core} (h : martosPre cfg = .ok c)
    (hr : Run (Restrict SingleBySemaphores Sys.Step) (Sys.start c) tr s) {tr₁ tr₂ : List (Move Sys SysEvent)}
    (htr : tr = tr₁ ++ m :: tr₂) (hw : Sys.waitsOn t m = some (sem, req)) :
    (∀ tr₃ x tr₄, tr₂ = tr₃ ++ x :: tr₄ → Sys.WaitReturns t x → ∃ y ∈ tr₃, Sys.GrantsWait t sem req y) ∧
    ((∀ x ∈ tr₂, ¬ Sys.GrantsWait t sem req x) → (∀ x ∈ tr₂, ∀ n, x.event.service ≠ some (.semInit sem n)) →
      req ∈ s.svc.reqQueue sem ∧ s.svc.request req = ⟨t, sigfSingle⟩ ∧ s.Unserved t) ∧
    (Unasked req tr₂ → ∀ sem', req ∈ s.svc.reqQueue sem' →
      sem' = sem ∧ s.Unserved t ∧ ∀ x ∈ tr₂, ¬ Sys.WaitReturns t x) := by
  obtain ⟨hr₁, hst, hr₂⟩ := hr.split htr
  have hpre : SoundHeralded m.pre := SoundHeralded.run ⟨.start h, .start h⟩ hr₁
  have hpost := hpre.step hst
  have hinit : WaitStage t sem req [] m.post := WaitStage.init hpre.heralded hpre.sound hst.2 hw
  have hstage := hinit.run hpost hr₂
  refine ⟨?_, ?_, ?_⟩
  · intro tr₃ x tr₄ htr₂ hret
    obtain ⟨hr₃, hstx, -⟩ := hr₂.split htr₂
    exact (hinit.run hpost hr₃).granted_of_returns hstx.2 hret
  · intro hnot hno
    cases hstage with
    | queued hu hq hreq hret => exact ⟨hq, hreq, hu⟩
    | dropped hu hdrop hnone hoff hret =>
      obtain ⟨x, hx, n, hn⟩ := hdrop
      exact absurd hn (hno x hx n)
    | granted hg hoff =>
      obtain ⟨x, hx, hg⟩ := hg
      exact absurd hg (hnot x hx)
  · intro hask sem' hq'
    cases hstage with
    | queued hu hq hreq hret =>
      exact ⟨(hpost.run hr₂).sound.requests.separate.unique hq' hq, hu, hret⟩
    | dropped hu hdrop hnone hoff hret => exact absurd hq' (hoff hask sem')
    | granted hg hoff => exact absurd hq' (hoff hask sem')

/-- The theorem at a run in which the call of task 1 has been granted by the init task and has
returned. -/
theorem sem_wait_returns_granted_task_one : ∃ c tr₁ m tr₂ s, martosPre CoreSys.exampleConfig = .ok c ∧
    Run (Restrict SingleBySemaphores Sys.Step) (Sys.start c) (tr₁ ++ m :: tr₂) s ∧
    Sys.waitsOn 1 m = some (7, 3) ∧ s.cs.core.running = 1 ∧ s.spc 1 = .user ∧ ∀ sem, 3 ∉ s.svc.reqQueue sem := by
  obtain ⟨c, tr₁, s₁, s₂, tr₂, s, hc, hr, htr, hp⟩ := Sys.exists_run CoreSys.exampleConfig (Sys.keepsSingle 7)
    (.call (.service (.semInit 7 0)) :: CoreSys.oneTask.map .core) (.call (.semWait 7 3))
    [.resume, .core .resume, .core .pendSV, .core (.pendSVSwitch 0x20001200), .core .pendSVExit,
      .isr (.semAddRequest 7 9), .call (.service (.semSignal 7)), .core .pendSV, .core (.pendSVSwitch 0x20000200),
      .core .pendSVExit, .core .resume, .resume]
    (p := fun s₁ s₂ s => decide ((s₁.cs.core.running = 1 ∧ s₂.spc 1 = .semWaitBlock) ∧
      s.cs.core.running = 1 ∧ s.spc 1 = .user)) (by decide +kernel)
  have hr := hr.mono fun _ _ _ hst => (⟨hst.1.contract, hst.2⟩ : Restrict SingleBySemaphores Sys.Step _ _ _)
  obtain ⟨hwait, hrun, hspc⟩ := of_decide_eq_true hp
  have hw : Sys.waitsOn 1 ⟨s₁, .call (.semWait 7 3), s₂⟩ = some (7, 3) := if_pos hwait
  have hask : Unasked 3 tr₂ := by
    intro x hx sem hreq
    have hev := List.mem_map_of_mem (f := Move.event) hx
    rw [htr] at hev
    revert hreq hev
    generalize x.event = e
    intro hreq hev
    simp only [List.mem_cons, List.not_mem_nil, or_false] at hev
    rcases hev with rfl | rfl | rfl | rfl | rfl | rfl | rfl | rfl | rfl | rfl | rfl | rfl <;>
      simp [SysEvent.requests] at hreq
  refine ⟨c, tr₁, _, tr₂, s, hc, hr, hw, hrun, hspc, ?_⟩
  intro sem hq
  obtain ⟨-, hu, -⟩ := (sem_wait_returns_granted hc hr rfl hw).2.2 hask sem hq
  exact Sys.not_inSemWait_of_user hspc hu.1

end

end Martos
