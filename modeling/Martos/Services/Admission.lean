import Mathlib.Data.List.Perm.Subperm
import Martos.Core.Allocation
import Martos.Services.Semaphores

/-!
# Semaphores never admit too many

All semaphores use one signal, `SIGF_SINGLE`, to wake a task in `sem_wait`; a grant takes the
request off the queue and sends the signal, which can come before the task has called
`signal_wait`. If nobody else sends this signal, then it is pending for a task only while the
task is in `sem_wait` and has not taken it, and not while its request is queued
(`Heralded`). So every return of `sem_wait` has a grant of its own, and there are no more
grants than resources (`sem_never_over_admits`).
-/

namespace Martos

open Checked Transition

namespace Sys

variable (s : Sys)

/-- `SIGF_SINGLE` is pending for the task. -/
def Single (t : TaskRef) : Prop := (s.cs.core.task t).sigRecvd.getLsbD 0 = true

/-- The task is in `sem_wait`, and `signal_wait` has not returned there. -/
def InSemWait (t : TaskRef) : Prop :=
  s.spc t = .semWaitBlock ∨ (s.spc t = .semWaitReturn ∧ s.cs.Asleep t sigfSingle)

/-- The task is in `sem_wait` and has not been signalled. -/
def Unserved (t : TaskRef) : Prop := s.InSemWait t ∧ ¬ s.Single t

/-- The task has been signalled, and `sem_wait` has not returned. -/
def Served (t : TaskRef) : Prop := s.Single t ∨ (s.spc t = .semWaitReturn ∧ ¬ s.cs.Asleep t sigfSingle)

/-- `SIGF_SINGLE` is sent to the task in an event. -/
def SendsSingle (e : SysEvent) (t : TaskRef) : Prop := ∃ sg, (t, sg) ∈ s.sends e ∧ sg.getLsbD 0 = true

end Sys

/-- `SIGF_SINGLE` is sent to tasks only by `sem_signal`: nobody sends it, and no request other
than that of `sem_wait` asks for it. -/
structure SingleBySemaphores (s : Sys) (e : SysEvent) : Prop where
  /-- Only `sem_signal` sends it. -/
  sends : ∀ t, s.SendsSingle e t → ∃ sem, e.service = some (.semSignal sem)
  /-- A request made directly asks for another signal. -/
  asks : ∀ sem req, e.service = some (.semAddRequest sem req) → (s.svc.request req).signal.getLsbD 0 = false

/-- What a step does to a call of `sem_wait` by task `t`. -/
inductive SemWaitChange (s : Sys) (e : SysEvent) (s' : Sys) (t : TaskRef) : Prop where
  /-- Nothing. -/
  | keeps (hb : s'.spc t = .semWaitBlock ↔ s.spc t = .semWaitBlock)
      (hr : s'.spc t = .semWaitReturn ↔ s.spc t = .semWaitReturn)
  /-- The request has been queued. -/
  | queues (sem : SemRef) (req : ReqRef) (ht : t = s.cs.core.running) (he : e = .call (.semWait sem req))
      (hp : s.spc t = .user) (hp' : s'.spc t = .semWaitBlock) (hcs : s'.cs = s.cs)
  /-- `signal_wait` is called. -/
  | blocks (ht : t = s.cs.core.running) (he : e = .resume) (hp : s.spc t = .semWaitBlock)
      (hp' : s'.spc t = .semWaitReturn) (hst : s.cs.Step (.call (.signalWait sigfSingle)) s'.cs)
  /-- The call returns. -/
  | returns (ht : t = s.cs.core.running) (he : e = .resume) (hu : s.AtUser) (hp : s.spc t = .semWaitReturn)
      (hp' : s'.spc t = .user) (hcs : s'.cs = s.cs)

section

variable {s s' : Sys} {e : SysEvent} {t : TaskRef}

theorem SemWaitChange.of_eq (h : s'.spc t = s.spc t) : SemWaitChange s e s' t :=
  .keeps (by rw [h]) (by rw [h])

/-- The running task moves between two points outside of `sem_wait`. -/
theorem SemWaitChange.of_goto {p : ServicePc} (h : s'.spc = Function.update s.spc s.cs.core.running p)
    (hp : p ≠ .semWaitBlock ∧ p ≠ .semWaitReturn)
    (hold : s.spc s.cs.core.running ≠ .semWaitBlock ∧ s.spc s.cs.core.running ≠ .semWaitReturn) :
    SemWaitChange s e s' t := by
  by_cases ht : t = s.cs.core.running
  · subst ht
    rw [← Function.update_self s.cs.core.running p s.spc, ← h] at hp
    exact .keeps (iff_of_false hp.1 hold.1) (iff_of_false hp.2 hold.2)
  · exact .of_eq (by rw [h, Function.update_of_ne ht])

/-- **What a step does to a call of `sem_wait`.** -/
theorem SysEffect.semWaitChange (heff : SysEffect s e s') (t : TaskRef) : SemWaitChange s e s' t := by
  have hcalling (hu : s.Calling) :
      s.spc s.cs.core.running ≠ .semWaitBlock ∧ s.spc s.cs.core.running ≠ .semWaitReturn := by
    simp [hu.2]
  cases heff with
  | @semQueued sem req hu hr hd hn =>
    by_cases ht : t = s.cs.core.running
    · subst ht
      exact .queues sem req rfl rfl hu.2 (Function.update_self ..) rfl
    · exact .of_eq (Function.update_of_ne ht ..)
  | semBlocks hu hp hst =>
    by_cases ht : t = s.cs.core.running
    · subst ht
      exact .blocks rfl rfl hp (Function.update_self ..) hst
    · exact .of_eq (Function.update_of_ne ht ..)
  | semReturns hu hp =>
    by_cases ht : t = s.cs.core.running
    · subst ht
      exact .returns rfl rfl hu hp (Function.update_self ..) rfl
    · exact .of_eq (Function.update_of_ne ht ..)
  | portWaits hu ha hd hst => exact .of_goto rfl (by simp) (hcalling hu)
  | portReturns hu hp hl hst => exact .of_goto rfl (by simp) (by simp [hp])
  | addStarts hu ha hs => exact .of_goto rfl (by simp) (hcalling hu)
  | delayStarts hu hf hd hst => exact .of_goto rfl (by simp) (hcalling hu)
  | @addElapsed tm delay hu hp he => exact .of_goto rfl (by cases delay <;> simp) (by simp [hp])
  | addPasses hu hp he => exact .of_goto rfl (by simp) (by simp [hp])
  | @addInserts tm delay hu hp hm => exact .of_goto rfl (by cases delay <;> simp) (by simp [hp])
  | delayWaits hu hp ha hst => exact .of_goto rfl (by simp) (by simp [hp])
  | delaySkips hu hp ha => exact .of_goto rfl (by simp) (by simp [hp])
  | delayFrees hu hp hst => exact .of_goto rfl (by simp) (by simp [hp])
  | @write w hu hw => cases w <;> exact .of_eq rfl
  | _ => exact .of_eq rfl

/-! ### One task -/

theorem sigfSingle_and_ne_zero (x : Signals) : sigfSingle &&& x ≠ 0 ↔ x.getLsbD 0 = true :=
  mask_and_ne_zero (i := 0) (by decide) x

/-- What `signal_wait` has taken is not pending. -/
theorem getLsbD_and_not_single {x : Signals} : (x &&& ~~~(sigfSingle &&& x)).getLsbD 0 = false := by
  rw [BitVec.getLsbD_and, BitVec.getLsbD_not, BitVec.getLsbD_and]
  cases x.getLsbD 0 <;> simp [sigfSingle]

/-- A signal that is not sent does not come. -/
theorem SignalsChange.single (hch : SignalsChange s e s' t) (hno : ¬ s.SendsSingle e t) (h : s'.Single t) :
    s.Single t := by
  unfold Sys.Single at *
  cases hch with
  | keeps x hx hr hw =>
    rw [hr, BitVec.getLsbD_or, Bool.or_eq_true] at h
    exact h.resolve_right fun hxi => hno ((hx 0).mp hxi)
  | blocks sg ht he hz hr hw => rwa [hr] at h
  | takes sg ht he hz hr hw =>
    rw [hr, BitVec.getLsbD_and, Bool.and_eq_true] at h
    exact h.1
  | clears hc x hr hw =>
    rw [hr, BitVec.getLsbD_and, Bool.and_eq_true] at h
    exact h.1

/-- Outside of the steps of `sem_wait` itself, a task in it falls asleep or wakes up in
`signal_wait` only when it takes the signal. -/
theorem SignalsChange.asleep (hch : SignalsChange s e s' t) (hst : s.Step e s') (hw : s.cs.Asleep t sigfSingle) :
    s'.cs.Asleep t sigfSingle ∨ (s.Single t ∧ ¬ s'.Single t) := by
  have huser (htr : t = s.cs.core.running) {sg : Signals} (he : s.waitsFor e = some sg) : False := by
    subst htr
    exact CoreSys.not_asleep_of_user (hst.user_of_waitsFor he) _ hw
  cases hch with
  | keeps x hx hr hw' => exact .inl ((hw' _).mpr hw)
  | blocks sg ht he hz hr hw' => exact (huser ht he).elim
  | takes sg ht he hz hr hw' =>
    rcases he with he | ⟨-, hsg⟩
    · exact (huser ht he).elim
    · obtain rfl := hw.unique hsg
      refine .inr ⟨(sigfSingle_and_ne_zero _).mp hz, ?_⟩
      unfold Sys.Single
      rw [hr, getLsbD_and_not_single]
      exact Bool.false_ne_true
  | clears hc x hr hw' => exact .inl ((hw' _).mpr hw)

theorem Sys.not_inSemWait_of_user (h : s.spc t = .user) : ¬ s.InSemWait t := by
  rintro (hp | ⟨hp, -⟩) <;> cases h.symm.trans hp

theorem Sys.not_inSemWait_of_return (hu : s.AtUser) (h : s.spc s.cs.core.running = .semWaitReturn) :
    ¬ s.InSemWait s.cs.core.running := by
  rintro (hp | ⟨-, hw⟩)
  · cases h.symm.trans hp
  · exact CoreSys.not_asleep_of_user hu.2 _ hw

/-- A task that is not signalled goes on waiting. -/
theorem Sound.unserved_step (h : Sound s) (hst : s.Step e s') (hno : ¬ s.SendsSingle e t) (hu : s.Unserved t) :
    s'.Unserved t := by
  have heff := h.effect hst
  have hch := h.signalsChange heff t
  have hnot : ¬ s'.Single t := fun hs => hu.2 (hch.single hno hs)
  refine ⟨?_, hnot⟩
  cases heff.semWaitChange t with
  | keeps hb hr =>
    rcases hu.1 with hp | ⟨hp, hw⟩
    · exact .inl (hb.mpr hp)
    · rcases hch.asleep hst hw with hw' | ⟨hs, -⟩
      · exact .inr ⟨hr.mpr hp, hw'⟩
      · exact absurd hs hu.2
  | queues sem req ht he hp hp' hcs => exact absurd hu.1 (Sys.not_inSemWait_of_user hp)
  | blocks ht he hp hp' hcall =>
    subst ht
    rcases h.nested.signalWait_cases hcall with ⟨-, hw, -⟩ | ⟨hz, -, -⟩
    · exact .inr ⟨hp', hw⟩
    · exact absurd ((sigfSingle_and_ne_zero _).mp hz) hu.2
  | returns ht he hat hp hp' hcs =>
    subst ht
    exact absurd hu.1 (Sys.not_inSemWait_of_return hat hp)

/-- A signal that is pending, and not sent just now, finds the task in `sem_wait`. -/
theorem Sound.single_step (h : Sound s) (hst : s.Step e s') (hno : ¬ s.SendsSingle e t)
    (hin : s.Single t → s.InSemWait t) (hs' : s'.Single t) : s'.InSemWait t := by
  have heff := h.effect hst
  have hch := h.signalsChange heff t
  have hs := hch.single hno hs'
  cases heff.semWaitChange t with
  | keeps hb hr =>
    rcases hin hs with hp | ⟨hp, hw⟩
    · exact .inl (hb.mpr hp)
    · rcases hch.asleep hst hw with hw' | ⟨-, hns⟩
      · exact .inr ⟨hr.mpr hp, hw'⟩
      · exact absurd hs' hns
  | queues sem req ht he hp hp' hcs => exact absurd (hin hs) (Sys.not_inSemWait_of_user hp)
  | blocks ht he hp hp' hcall =>
    subst ht
    rcases h.nested.signalWait_cases hcall with ⟨hz, -, -⟩ | ⟨-, -, hr⟩
    · exact absurd hz ((sigfSingle_and_ne_zero _).mpr hs)
    · unfold Sys.Single at hs'
      rw [hr, getLsbD_and_not_single] at hs'
      cases hs'
  | returns ht he hat hp hp' hcs =>
    subst ht
    exact absurd (hin hs) (Sys.not_inSemWait_of_return hat hp)

/-- A task that is served, and not signalled just now, was served before. -/
theorem Sound.served_step (h : Sound s) (hst : s.Step e s') (hno : ¬ s.SendsSingle e t) (hs' : s'.Served t) :
    s.Served t := by
  have heff := h.effect hst
  have hch := h.signalsChange heff t
  rcases hs' with hs' | ⟨hp, hw'⟩
  · exact .inl (hch.single hno hs')
  · by_cases hs : s.Single t
    · exact .inl hs
    refine .inr ?_
    cases heff.semWaitChange t with
    | keeps hb hr =>
      refine ⟨hr.mp hp, fun hw => ?_⟩
      rcases hch.asleep hst hw with hw | ⟨hs₁, -⟩
      · exact hw' hw
      · exact hs hs₁
    | queues sem req ht he hp₀ hp' hcs => cases hp'.symm.trans hp
    | blocks ht he hp₀ hp' hcall =>
      subst ht
      rcases h.nested.signalWait_cases hcall with ⟨-, hw, -⟩ | ⟨hz, -, -⟩
      · exact absurd hw hw'
      · exact absurd ((sigfSingle_and_ne_zero _).mp hz) hs
    | returns ht he hat hp₀ hp' hcs => cases hp'.symm.trans hp

/-- A task in `sem_wait` to which `sem_signal` sends the signal has it pending then. -/
theorem Sound.served_signal {sem : SemRef} {sg : Signals} (h : Sound s) (hst : s.Step e s')
    (he : e.service = some (.semSignal sem)) (hin : s.InSemWait t) (hsend : (t, sg) ∈ s.sends e)
    (hsg : sg.getLsbD 0 = true) : s'.InSemWait t ∧ s'.Single t := by
  have heff := h.effect hst
  have hwaits {sg' : Signals} (hw : s.waitsFor e = some sg') : False := by
    unfold Sys.waitsFor at hw
    split at hw
    · cases he
    · cases he
    · cases hw
  cases h.signalsChange heff t with
  | keeps x hx hr hw =>
    refine ⟨?_, ?_⟩
    · cases heff.semWaitChange t with
      | keeps hb hret => exact hin.imp hb.mpr fun hp => ⟨hret.mpr hp.1, (hw _).mpr hp.2⟩
      | queues _ _ _ he' => subst he'; cases he
      | blocks _ he' => subst he'; cases he
      | returns _ he' => subst he'; cases he
    · unfold Sys.Single
      rw [hr, BitVec.getLsbD_or, (hx 0).mpr ⟨sg, hsend, hsg⟩, Bool.or_true]
  | blocks sg' ht hw => exact (hwaits hw).elim
  | takes sg' ht hw =>
    rcases hw with hw | ⟨hw, -⟩
    · exact (hwaits hw).elim
    · subst hw; cases he
  | clears hc =>
    rcases hc with ⟨rfl, hc, -⟩ | ⟨params, rfl⟩
    · exact absurd hin (Sys.not_inSemWait_of_user hc.2)
    · cases he

/-! ### The signal announces a grant -/

/-- `SIGF_SINGLE` is pending only for tasks in `sem_wait`, and not while their request is
queued. -/
structure Heralded (s : Sys) : Prop where
  /-- A task for which it is pending is in `sem_wait`. -/
  single : ∀ t, s.Single t → s.InSemWait t
  /-- The task of a queued request is in `sem_wait`, and it is not pending. -/
  queued : ∀ sem req, req ∈ s.svc.reqQueue sem → (s.svc.request req).signal.getLsbD 0 = true →
    s.Unserved (s.svc.request req).waiter
  /-- A task has one such request queued at most. -/
  unique : ∀ sem req sem' req', req ∈ s.svc.reqQueue sem → req' ∈ s.svc.reqQueue sem' →
    (s.svc.request req).signal.getLsbD 0 = true → (s.svc.request req').signal.getLsbD 0 = true →
    (s.svc.request req).waiter = (s.svc.request req').waiter → req = req'

/-- The request has just been queued by `sem_wait`. -/
structure Sys.JustQueued (s : Sys) (e : SysEvent) (s' : Sys) (sem : SemRef) (req : ReqRef) : Prop where
  /-- The call. -/
  event : e = .call (.semWait sem req)
  /-- A task makes it from its own code. -/
  calling : s.Calling
  /-- The request asks for `SIGF_SINGLE`, for the caller. -/
  request : s'.svc.request req = ⟨s.cs.core.running, sigfSingle⟩
  /-- The caller is about to block. -/
  spc : s'.spc s.cs.core.running = .semWaitBlock
  /-- The core has not moved. -/
  cs : s'.cs = s.cs

/-- Where a queued request comes from. -/
theorem Sound.queued_cases {sem : SemRef} {req : ReqRef} (h : Sound s) (heff : SysEffect s e s')
    (hq : req ∈ s'.svc.reqQueue sem) :
    (req ∈ s.svc.reqQueue sem ∧ s'.svc.request req = s.svc.request req) ∨
    (e.service = some (.semAddRequest sem req) ∧ s'.svc.request req = s.svc.request req) ∨
    s.JustQueued e s' sem req := by
  have hreq {svc : Services} {sem' : SemRef} {req' : ReqRef} (hm : req ∈ (svc.requested sem' req').reqQueue sem) :
      req ∈ svc.reqQueue sem ∨ (sem = sem' ∧ req = req' ∧ svc.count sem' - 1 < 0) := by
    by_cases hn : svc.count sem' - 1 < 0
    · simp only [Services.requested, if_pos hn, Seqs.mem_listAddTail] at hm
      exact hm.imp_right fun hm => ⟨hm.1, hm.2, hn⟩
    · simp only [Services.requested, if_neg hn] at hm
      exact .inl hm
  have hasked {req' : ReqRef} (hr : s.reqAt req' = none) (hm : req ∈ s.svc.reqQueue sem) :
      (s.svc.asked req' s.cs.core.running).request req = s.svc.request req := by
    refine Function.update_of_ne ?_ ..
    rintro rfl
    exact h.requests.off hr sem hm
  cases heff with
  | @semInit _ sem' n hc =>
    have hm : req ∈ Function.update s.svc.reqQueue sem' [] sem := hq
    by_cases hsem : sem = sem'
    · subst hsem
      rw [Function.update_self] at hm
      cases hm
    · rw [Function.update_of_ne hsem] at hm
      exact .inl ⟨hm, rfl⟩
  | @requests _ sem' req' hc =>
    rcases hreq hq with hm | ⟨rfl, rfl, -⟩
    · exact .inl ⟨hm, rfl⟩
    · exact .inr (.inl ⟨hc.service_eq, rfl⟩)
  | @semTaken sem' req' hu hr hn =>
    rcases hreq hq with hm | ⟨-, -, hneg⟩
    · exact .inl ⟨hm, hasked hr hm⟩
    · exact absurd hneg hn
  | @semQueued sem' req' hu hr hd hn =>
    rcases hreq hq with hm | ⟨rfl, rfl, -⟩
    · exact .inl ⟨hm, hasked hr hm⟩
    · exact .inr (.inr ⟨rfl, hu, Function.update_self .., Function.update_self .., rfl⟩)
  | @grants _ sem' req' cs hc hn hh hd =>
    have hm : req ∈ (s.svc.reqQueue.listRemHead sem').2 sem := hq
    by_cases hsem : sem = sem'
    · subst hsem
      rw [Seqs.listRemHead_self] at hm
      exact .inl ⟨List.mem_of_mem_tail hm, rfl⟩
    · rw [Seqs.listRemHead_of_ne hsem] at hm
      exact .inl ⟨hm, rfl⟩
  | @write w hu hw =>
    cases w with
    | request req' value =>
      refine .inl ⟨hq, Function.update_of_ne ?_ ..⟩
      rintro rfl
      exact h.requests.off hw sem hq
    | _ => exact .inl ⟨hq, rfl⟩
  | _ => exact .inl ⟨hq, rfl⟩

/-- `SIGF_SINGLE` is sent for the first request of a queue, which leaves the queue. -/
theorem Sound.sendsSingle_cases (h : Sound s) (hok : SingleBySemaphores s e) (hst : s.Step e s')
    (hs : s.SendsSingle e t) : ∃ sem req, e.service = some (.semSignal sem) ∧
      s.svc.reqQueue sem = req :: s'.svc.reqQueue sem ∧ (s.svc.request req).waiter = t ∧
      (s.svc.request req).signal.getLsbD 0 = true ∧ Sys.granted sem ⟨s, e, s'⟩ = [req] := by
  obtain ⟨sem, he⟩ := hok.sends t hs
  obtain ⟨sg, hm, hsg⟩ := hs
  have hsends : s.sends e = (Service.semSignal sem).sends s.svc := by
    cases e with
    | call c =>
      cases c with
      | service a =>
        obtain rfl := Option.some.inj he
        rfl
      | _ => cases he
    | isr a =>
      obtain rfl := Option.some.inj he
      rfl
    | _ => cases he
  rw [hsends] at hm
  simp only [Service.sends] at hm
  by_cases hn : s.svc.count sem + 1 < 0
  · rw [if_pos hn] at hm
    cases h.semChange sem hst (by simp [he]) with
    | grants req hr hsig ht hc₀ hc hq hd =>
      rw [hq, List.head?_cons, Option.map_some, Option.toList_some, List.mem_singleton] at hm
      obtain ⟨rfl, rfl⟩ := Prod.mk.inj hm
      exact ⟨sem, req, he, hq, rfl, hsg, h.granted_first ht hq hd⟩
    | releases hr hsig ht hc₀ => omega
    | keeps hr hsig => simp [SysEvent.signalsSem, he] at hsig
    | takes req hr hsig => simp [SysEvent.signalsSem, he] at hsig
    | queues req hr hsig => simp [SysEvent.signalsSem, he] at hsig
  · rw [if_neg hn] at hm
    cases hm

theorem Sys.JustQueued.not_inSemWait {sem : SemRef} {req : ReqRef} (hj : s.JustQueued e s' sem req) :
    ¬ s.InSemWait (s'.svc.request req).waiter := by
  rw [hj.request]
  exact Sys.not_inSemWait_of_user hj.calling.2

/-- A step keeps the signal's meaning. -/
theorem Heralded.step (hh : Heralded s) (h : Sound s) (hok : SingleBySemaphores s e) (hst : s.Step e s') :
    Heralded s' := by
  have heff := h.effect hst
  -- a request made directly does not ask for the signal
  have hdirect {sem : SemRef} {req : ReqRef} (he : e.service = some (.semAddRequest sem req))
      (hsame : s'.svc.request req = s.svc.request req) (hbit : (s'.svc.request req).signal.getLsbD 0 = true) :
      False := by
    rw [hsame, hok.asks sem req he] at hbit
    cases hbit
  refine ⟨fun t hs' => ?_, fun sem req hq hbit => ?_, fun sem req sem' req' hq hq' hbit hbit' hw => ?_⟩
  · by_cases hs : s.SendsSingle e t
    · obtain ⟨sem, req, he, hq, rfl, hsg, -⟩ := h.sendsSingle_cases hok hst hs
      obtain ⟨sg, hm, hsg'⟩ := hs
      have hun := hh.queued sem req (by rw [hq]; exact List.mem_cons_self) hsg
      exact (h.served_signal hst he hun.1 hm hsg').1
    · exact h.single_step hst hs (hh.single t) hs'
  · rcases h.queued_cases heff hq with ⟨hold, hsame⟩ | ⟨he, hsame⟩ | hj
    · rw [hsame] at hbit ⊢
      have hun := hh.queued sem req hold hbit
      refine h.unserved_step hst (fun hs => ?_) hun
      -- the signal is sent for another request of the same task, or this one is queued no more
      obtain ⟨sem₀, req₀, -, hq₀, hw₀, hsg₀, -⟩ := h.sendsSingle_cases hok hst hs
      have hm₀ : req₀ ∈ s.svc.reqQueue sem₀ := by
        rw [hq₀]
        exact List.mem_cons_self
      obtain rfl := hh.unique sem req sem₀ req₀ hold hm₀ hbit hsg₀ hw₀.symm
      obtain rfl := h.requests.separate.unique hold hm₀
      have hnodup := h.requests.nodup sem
      rw [hq₀, List.nodup_cons] at hnodup
      exact hnodup.1 hq
    · exact (hdirect he hsame hbit).elim
    · rw [hj.request]
      refine ⟨.inl hj.spc, fun hs => ?_⟩
      unfold Sys.Single at hs
      rw [hj.cs] at hs
      exact Sys.not_inSemWait_of_user hj.calling.2 (hh.single _ hs)
  · rcases h.queued_cases heff hq with ⟨hold, hsame⟩ | ⟨he, hsame⟩ | hj
    · rcases h.queued_cases heff hq' with ⟨hold', hsame'⟩ | ⟨he', hsame'⟩ | hj'
      · rw [hsame] at hbit hw
        rw [hsame'] at hbit' hw
        exact hh.unique sem req sem' req' hold hold' hbit hbit' hw
      · exact (hdirect he' hsame' hbit').elim
      · rw [hsame] at hbit
        have hun := hh.queued sem req hold hbit
        rw [← hsame, hw] at hun
        exact absurd hun.1 hj'.not_inSemWait
    · exact (hdirect he hsame hbit).elim
    · rcases h.queued_cases heff hq' with ⟨hold', hsame'⟩ | ⟨he', hsame'⟩ | hj'
      · rw [hsame'] at hbit'
        have hun := hh.queued sem' req' hold' hbit'
        rw [← hsame', ← hw] at hun
        exact absurd hun.1 hj.not_inSemWait
      · exact (hdirect he' hsame' hbit').elim
      · cases hj.event.symm.trans hj'.event
        rfl

theorem Heralded.start {cfg : Config} {c : Core} (h : martosPre cfg = .ok c) : Heralded (Sys.start c) := by
  obtain ⟨context, rfl⟩ := Core.exists_of_martosPre h
  refine ⟨fun t hs => ?_, fun sem req hq => ?_, fun sem req sem' req' hq => ?_⟩
  · unfold Sys.Single at hs
    by_cases ht : t = initTask
    · subst ht; simp [Sys.start, CoreSys.start, Core.booted] at hs
    · simp [Sys.start, CoreSys.start, Core.booted, resetCore, ht] at hs
  · cases hq
  · cases hq

end

/-! ### The calls of `sem_wait` -/

/-- What has become of the calls of `sem_wait` on a semaphore. -/
structure WaitLog where
  /-- The last call of the task was on the semaphore, and has not returned. -/
  on : TaskRef → Bool
  /-- The tasks whose calls have returned, the last one first. -/
  returned : List TaskRef
  /-- A call of the task has returned, and the task has not signalled the semaphore since. -/
  inside : TaskRef → Bool

/-- Before the first call. -/
def WaitLog.empty : WaitLog := ⟨fun _ => false, [], fun _ => false⟩

/-- A call of the task returns. -/
def WaitLog.returns (l : WaitLog) (t : TaskRef) : WaitLog :=
  ⟨Function.update l.on t false, t :: l.returned, Function.update l.inside t true⟩

/-- What a move adds. -/
def WaitLog.after (sem : SemRef) (l : WaitLog) (m : Move Sys SysEvent) : WaitLog :=
  match m.event with
  | .call (.semWait sem' _) =>
    if m.post.spc m.pre.cs.core.running = .user then
      if sem' = sem then l.returns m.pre.cs.core.running else l
    else { l with on := Function.update l.on m.pre.cs.core.running (decide (sem' = sem)) }
  | .resume =>
    if m.pre.spc m.pre.cs.core.running = .semWaitReturn ∧ l.on m.pre.cs.core.running = true then
      l.returns m.pre.cs.core.running
    else l
  | .call (.service (.semSignal sem')) =>
    if sem' = sem then { l with inside := Function.update l.inside m.pre.cs.core.running false } else l
  | _ => l

namespace Sys

variable (sem : SemRef)

/-- What has become of the calls made in a list of moves. -/
def waitLog (tr : List (Move Sys SysEvent)) : WaitLog := tr.foldl (WaitLog.after sem) .empty

/-- The tasks to which a resource has been granted. -/
def grantedTo (tr : List (Move Sys SysEvent)) : List TaskRef :=
  tr.flatMap fun m => (granted sem m).map fun req => (m.post.svc.request req).waiter

/-- Every call of `sem_signal(sem)` is made by a task whose own wait has returned. -/
def SignalsAfterWait (tr : List (Move Sys SysEvent)) : Prop :=
  ∀ tr₁ m tr₂, tr = tr₁ ++ m :: tr₂ → m.event.signalsSem sem = true →
    m.event = .call (.service (.semSignal sem)) ∧ (waitLog sem tr₁).inside m.pre.cs.core.running = true

end Sys

/-- Every return has its grant. -/
structure Admitted (sem : SemRef) (tr : List (Move Sys SysEvent)) (s : Sys) : Prop where
  /-- The queued request of a task is of its last call. -/
  queued : ∀ sem' req, req ∈ s.svc.reqQueue sem' → (s.svc.request req).signal.getLsbD 0 = true →
    ((Sys.waitLog sem tr).on (s.svc.request req).waiter = true ↔ sem' = sem)
  /-- A task has got a resource for every call that has returned. -/
  returned : ∀ t, (Sys.waitLog sem tr).returned.count t ≤ (Sys.grantedTo sem tr).count t
  /-- And one more when it has been signalled. -/
  served : ∀ t, (Sys.waitLog sem tr).on t = true → s.Served t →
    (Sys.waitLog sem tr).returned.count t < (Sys.grantedTo sem tr).count t

section

variable {s s' : Sys} {e : SysEvent} {t : TaskRef} {sem : SemRef} {tr : List (Move Sys SysEvent)}

theorem Sys.waitLog_snoc {m : Move Sys SysEvent} : Sys.waitLog sem (tr ++ [m]) = (Sys.waitLog sem tr).after sem m := by
  simp [Sys.waitLog]

theorem Sys.grantedTo_snoc {m : Move Sys SysEvent} : Sys.grantedTo sem (tr ++ [m]) =
    Sys.grantedTo sem tr ++ (Sys.granted sem m).map fun req => (m.post.svc.request req).waiter := by
  simp [Sys.grantedTo]

/-- What a call of `sem_wait` does. -/
theorem Sound.semWait_cases {sem' : SemRef} {req : ReqRef} (h : Sound s)
    (hst : s.Step (.call (.semWait sem' req)) s') : s.Calling ∧ s'.cs = s.cs ∧
      s'.svc.request req = ⟨s.cs.core.running, sigfSingle⟩ ∧
      ((1 ≤ s.svc.count sem' ∧ s'.spc = s.spc) ∨
        (s.svc.count sem' ≤ 0 ∧ s'.spc = Function.update s.spc s.cs.core.running .semWaitBlock)) := by
  cases h.effect hst with
  | semTaken hu hr hn => exact ⟨hu, rfl, Function.update_self .., .inl ⟨by omega, rfl⟩⟩
  | semQueued hu hr hd hn => exact ⟨hu, rfl, Function.update_self .., .inr ⟨by omega, rfl⟩⟩
  | semInit hc => cases hc.service_eq
  | requests hc => cases hc.service_eq
  | released hc => cases hc.service_eq
  | grants hc => cases hc.service_eq
  | got hc => cases hc.service_eq
  | sent hc => rcases hc with hc | ⟨hc, -⟩ <;> cases hc.service_eq
  | aborts hc => cases hc.service_eq
  | abortsNot hc => cases hc.service_eq

/-- What a step adds to the log. -/
inductive LogChange (sem : SemRef) (l : WaitLog) (s : Sys) (e : SysEvent) (s' : Sys) : Prop where
  /-- Nothing about waits. -/
  | keeps (ho : (l.after sem ⟨s, e, s'⟩).on = l.on) (hr : (l.after sem ⟨s, e, s'⟩).returned = l.returned)
      (hi : ∀ t, (l.after sem ⟨s, e, s'⟩).inside t = true → l.inside t = true)
  /-- A request of the running task has been queued. -/
  | queues (sem' : SemRef) (req : ReqRef) (he : e = .call (.semWait sem' req)) (hu : s.Calling)
      (hp : s'.spc s.cs.core.running = .semWaitBlock) (hcs : s'.cs = s.cs)
      (hl : l.after sem ⟨s, e, s'⟩ =
        { l with on := Function.update l.on s.cs.core.running (decide (sem' = sem)) })
  /-- The running task has got a resource at once. -/
  | takes (req : ReqRef) (he : e = .call (.semWait sem req)) (hu : s.Calling)
      (hg : Sys.granted sem ⟨s, e, s'⟩ = [req]) (hw : (s'.svc.request req).waiter = s.cs.core.running)
      (hl : l.after sem ⟨s, e, s'⟩ = l.returns s.cs.core.running)
  /-- A call of the running task that had to wait returns. -/
  | returns (he : e = .resume) (hu : s.AtUser) (hp : s.spc s.cs.core.running = .semWaitReturn)
      (ho : l.on s.cs.core.running = true) (hl : l.after sem ⟨s, e, s'⟩ = l.returns s.cs.core.running)

theorem Sound.logChange (h : Sound s) (hst : s.Step e s') (hno : ∀ n, e.service ≠ some (.semInit sem n))
    (l : WaitLog) : LogChange sem l s e s' := by
  have hsame (hl : l.after sem ⟨s, e, s'⟩ = l) : LogChange sem l s e s' :=
    .keeps (by rw [hl]) (by rw [hl]) fun t ht => by rwa [hl] at ht
  cases e with
  | core ev => exact hsame rfl
  | isr a => exact hsame rfl
  | tim2 => exact hsame rfl
  | resume =>
    by_cases hp : s.spc s.cs.core.running = .semWaitReturn ∧ l.on s.cs.core.running = true
    · exact .returns rfl hst.1.1 hp.1 hp.2 (if_pos hp)
    · exact hsame (if_neg hp)
  | call k =>
    cases k with
    | semWait sem' req =>
      obtain ⟨hu, hcs, hreq, hcases⟩ := h.semWait_cases hst
      rcases hcases with ⟨hpos, hspc⟩ | ⟨-, hspc⟩
      · have huser : s'.spc s.cs.core.running = .user := by rw [hspc, hu.2]
        by_cases hsem : sem' = sem
        · subst hsem
          have hasks : Sys.requested sem' ⟨s, .call (.semWait sem' req), s'⟩ = some req :=
            (Sys.requested_eq rfl).trans (if_pos rfl)
          refine .takes req rfl hu ?_ (by rw [hreq]) ((if_pos huser).trans (if_pos rfl))
          cases h.semChange sem' hst hno with
          | takes req' hr hs ht hn hc hq =>
            rw [Sys.granted_of_subset fun r hr => by rwa [hq], ht, ← hr, hasks, Option.toList_some]
          | queues req' hr hs ht hn => omega
          | keeps hr => cases hasks.symm.trans hr
          | releases hr hs => cases hs
          | grants req' hr hs => cases hs
        · exact hsame ((if_pos huser).trans (if_neg hsem))
      · have hblock : s'.spc s.cs.core.running = .semWaitBlock := by rw [hspc, Function.update_self]
        exact .queues sem' req rfl hu hblock hcs (if_neg (by simp [hblock]))
    | service a =>
      cases a with
      | semSignal sem' =>
        by_cases hsem : sem' = sem
        · have hl : l.after sem ⟨s, .call (.service (.semSignal sem')), s'⟩ =
              { l with inside := Function.update l.inside s.cs.core.running false } := if_pos hsem
          refine .keeps (by rw [hl]) (by rw [hl]) fun t ht => ?_
          rw [hl] at ht
          by_cases htr : t = s.cs.core.running
          · subst htr; simp at ht
          · simpa [htr] using ht
        · exact hsame (if_neg hsem)
      | _ => exact hsame rfl
    | _ => exact hsame rfl

/-- `sem_signal` does not write to requests. -/
theorem SysEffect.request_eq {sem' : SemRef} (heff : SysEffect s e s') (he : e.service = some (.semSignal sem')) :
    s'.svc.request = s.svc.request := by
  cases heff with
  | semTaken hu => cases he
  | semQueued hu => cases he
  | write hu => cases he
  | _ => rfl

/-- The task of a queued request is not the one whose call is made or returns. -/
theorem Heralded.log_on_eq (hh : Heralded s) {l : WaitLog} (hlog : LogChange sem l s e s') {sem' : SemRef}
    {req : ReqRef} (hq : req ∈ s.svc.reqQueue sem') (hbit : (s.svc.request req).signal.getLsbD 0 = true) :
    (l.after sem ⟨s, e, s'⟩).on (s.svc.request req).waiter = l.on (s.svc.request req).waiter := by
  have hun := hh.queued sem' req hq hbit
  have hne (hnot : ¬ s.InSemWait s.cs.core.running) : (s.svc.request req).waiter ≠ s.cs.core.running :=
    fun hw => hnot (hw ▸ hun.1)
  cases hlog with
  | keeps ho hr hi => rw [ho]
  | queues sem₁ req₁ he hu hp hcs hl =>
    rw [hl]
    exact Function.update_of_ne (hne (Sys.not_inSemWait_of_user hu.2)) ..
  | takes req₁ he hu hg hw hl =>
    rw [hl]
    exact Function.update_of_ne (hne (Sys.not_inSemWait_of_user hu.2)) ..
  | returns he hu hp ho hl =>
    rw [hl]
    exact Function.update_of_ne (hne (Sys.not_inSemWait_of_return hu hp)) ..

theorem Admitted.queued_step (ha : Admitted sem tr s) (hh : Heralded s) (h : Sound s) (hok : SingleBySemaphores s e)
    (hst : s.Step e s') (hlog : LogChange sem (Sys.waitLog sem tr) s e s') {sem' : SemRef} {req : ReqRef}
    (hq : req ∈ s'.svc.reqQueue sem') (hbit : (s'.svc.request req).signal.getLsbD 0 = true) :
    (Sys.waitLog sem (tr ++ [⟨s, e, s'⟩])).on (s'.svc.request req).waiter = true ↔ sem' = sem := by
  rw [Sys.waitLog_snoc]
  rcases h.queued_cases (h.effect hst) hq with ⟨hold, hsame⟩ | ⟨he, hsame⟩ | hj
  · rw [hsame] at hbit ⊢
    rw [hh.log_on_eq hlog hold hbit]
    exact ha.queued sem' req hold hbit
  · rw [hsame, hok.asks sem' req he] at hbit
    cases hbit
  · have hl : ((Sys.waitLog sem tr).after sem ⟨s, e, s'⟩).on =
        Function.update (Sys.waitLog sem tr).on s.cs.core.running (decide (sem' = sem)) := by
      unfold WaitLog.after
      simp only [hj.event]
      rw [if_neg (by simp [hj.spc])]
    rw [hl, hj.request, Function.update_self, decide_eq_true_eq]

theorem Sys.count_grantedTo_le (sem : SemRef) (tr : List (Move Sys SysEvent)) (t : TaskRef) (m : Move Sys SysEvent) :
    (Sys.grantedTo sem tr).count t ≤ (Sys.grantedTo sem (tr ++ [m])).count t := by
  rw [Sys.grantedTo_snoc, List.count_append]
  exact Nat.le_add_right ..

theorem Admitted.returned_step (ha : Admitted sem tr s) (hlog : LogChange sem (Sys.waitLog sem tr) s e s') :
    (Sys.waitLog sem (tr ++ [⟨s, e, s'⟩])).returned.count t ≤
      (Sys.grantedTo sem (tr ++ [⟨s, e, s'⟩])).count t := by
  have hle := ha.returned t
  have hmono := Sys.count_grantedTo_le sem tr t ⟨s, e, s'⟩
  rw [Sys.waitLog_snoc]
  cases hlog with
  | keeps ho hr hi =>
    rw [hr]
    exact hle.trans hmono
  | queues sem₁ req₁ he hu hp hcs hl =>
    rw [hl]
    exact hle.trans hmono
  | takes req₁ he hu hg hw hl =>
    rw [hl, Sys.grantedTo_snoc, hg, List.count_append, List.map_singleton, hw]
    change List.count t (s.cs.core.running :: _) ≤ _
    rw [List.count_cons, List.count_singleton]
    omega
  | returns he hu hp ho hl =>
    rw [hl]
    change List.count t (s.cs.core.running :: _) ≤ _
    by_cases ht : t = s.cs.core.running
    · subst ht
      have hlt := ha.served _ ho (.inr ⟨hp, CoreSys.not_asleep_of_user hu.2 _⟩)
      rw [List.count_cons_self]
      omega
    · rw [List.count_cons_of_ne (Ne.symm ht)]
      exact hle.trans hmono

/-- A task that has been signalled just now has got its resource. -/
theorem Admitted.served_signal (ha : Admitted sem tr s) (hh : Heralded s) (h : Sound s)
    (hok : SingleBySemaphores s e) (hst : s.Step e s') (hlog : LogChange sem (Sys.waitLog sem tr) s e s')
    (hon : (Sys.waitLog sem (tr ++ [⟨s, e, s'⟩])).on t = true) (hs : s.SendsSingle e t) :
    (Sys.waitLog sem (tr ++ [⟨s, e, s'⟩])).returned.count t <
      (Sys.grantedTo sem (tr ++ [⟨s, e, s'⟩])).count t := by
  rw [Sys.waitLog_snoc] at hon ⊢
  obtain ⟨sem₀, req, he, hq, rfl, hsg, hg⟩ := h.sendsSingle_cases hok hst hs
  have hmem : req ∈ s.svc.reqQueue sem₀ := by
    rw [hq]
    exact List.mem_cons_self
  rw [hh.log_on_eq hlog hmem hsg] at hon
  obtain rfl := (ha.queued sem₀ req hmem hsg).mp hon
  have hret : ((Sys.waitLog sem₀ tr).after sem₀ ⟨s, e, s'⟩).returned = (Sys.waitLog sem₀ tr).returned := by
    cases hlog with
    | keeps ho hr hi => exact hr
    | queues sem₁ req₁ he₁ => subst he₁; cases he
    | takes req₁ he₁ => subst he₁; cases he
    | returns he₁ => subst he₁; cases he
  rw [hret, Sys.grantedTo_snoc, hg, List.count_append, List.map_singleton, (h.effect hst).request_eq he,
    List.count_singleton_self]
  exact Nat.lt_succ_of_le (ha.returned _)

theorem Admitted.served_step (ha : Admitted sem tr s) (hh : Heralded s) (h : Sound s)
    (hok : SingleBySemaphores s e) (hst : s.Step e s') (hlog : LogChange sem (Sys.waitLog sem tr) s e s')
    (hon : (Sys.waitLog sem (tr ++ [⟨s, e, s'⟩])).on t = true) (hserved : s'.Served t) :
    (Sys.waitLog sem (tr ++ [⟨s, e, s'⟩])).returned.count t <
      (Sys.grantedTo sem (tr ++ [⟨s, e, s'⟩])).count t := by
  by_cases hs : s.SendsSingle e t
  · exact ha.served_signal hh h hok hst hlog hon hs
  have hserved₀ := h.served_step hst hs hserved
  have hmono := Sys.count_grantedTo_le sem tr t ⟨s, e, s'⟩
  rw [Sys.waitLog_snoc] at hon ⊢
  -- of a call that returns, the task is in none any more
  have hreturns (hl : (Sys.waitLog sem tr).after sem ⟨s, e, s'⟩ = (Sys.waitLog sem tr).returns s.cs.core.running) :
      ((Sys.waitLog sem tr).after sem ⟨s, e, s'⟩).returned.count t <
        (Sys.grantedTo sem (tr ++ [⟨s, e, s'⟩])).count t := by
    rw [hl] at hon ⊢
    have ht : t ≠ s.cs.core.running := by
      rintro rfl
      cases (Function.update_self ..).symm.trans hon
    change List.count t (s.cs.core.running :: _) < _
    rw [List.count_cons_of_ne (Ne.symm ht)]
    exact (ha.served t ((Function.update_of_ne ht ..).symm.trans hon) hserved₀).trans_le hmono
  cases hlog with
  | keeps ho hr hi =>
    rw [ho] at hon
    rw [hr]
    exact (ha.served t hon hserved₀).trans_le hmono
  | queues sem₁ req₁ he hu hp hcs hl =>
    rw [hl] at hon ⊢
    by_cases ht : t = s.cs.core.running
    · -- its signal is not pending
      subst ht
      have hsingle : s.Single s.cs.core.running := by
        rcases hserved with hs' | ⟨hp', -⟩
        · unfold Sys.Single at hs' ⊢
          rwa [hcs] at hs'
        · cases hp.symm.trans hp'
      exact absurd (hh.single _ hsingle) (Sys.not_inSemWait_of_user hu.2)
    · have hon' : (Sys.waitLog sem tr).on t = true := (Function.update_of_ne ht ..).symm.trans hon
      exact (ha.served t hon' hserved₀).trans_le hmono
  | takes req₁ he hu hg hw hl => exact hreturns hl
  | returns he hu hp ho hl => exact hreturns hl

/-- A step keeps returns and grants together. -/
theorem Admitted.step (ha : Admitted sem tr s) (hh : Heralded s) (h : Sound s) (hok : SingleBySemaphores s e)
    (hst : s.Step e s') (hno : ∀ n, e.service ≠ some (.semInit sem n)) :
    Admitted sem (tr ++ [⟨s, e, s'⟩]) s' := by
  have hlog := h.logChange hst hno (Sys.waitLog sem tr)
  exact ⟨fun _ _ hq hbit => ha.queued_step hh h hok hst hlog hq hbit, fun _ => ha.returned_step hlog,
    fun _ hon hserved => ha.served_step hh h hok hst hlog hon hserved⟩

/-- After `sem_init` there is nothing to account for. -/
theorem Admitted.init (hq : s.svc.reqQueue sem = []) : Admitted sem [] s := by
  refine ⟨fun sem' req hm hbit => ?_, fun t => le_rfl, fun t hon => ?_⟩
  · have hne : sem' ≠ sem := by
      rintro rfl
      rw [hq] at hm
      cases hm
    simp [Sys.waitLog, WaitLog.empty, hne]
  · cases hon

/-! ### Whole runs -/

/-- What holds in every state of a run in which the signal belongs to the semaphores. -/
structure SoundHeralded (s : Sys) : Prop where
  /-- What all services rely on. -/
  sound : Sound s
  /-- The signal announces a grant. -/
  heralded : Heralded s

theorem SoundHeralded.step (h : SoundHeralded s) (hst : Restrict SingleBySemaphores Sys.Step s e s') :
    SoundHeralded s' :=
  ⟨h.sound.step hst.2, h.heralded.step h.sound hst.1 hst.2⟩

theorem SoundHeralded.run (h : SoundHeralded s) (hr : Run (Restrict SingleBySemaphores Sys.Step) s tr s') :
    SoundHeralded s' :=
  hr.invariant h fun _ _ _ h hst => h.step hst

theorem Admitted.run (ha : Admitted sem [] s) (h : SoundHeralded s)
    (hr : Run (Restrict SingleBySemaphores Sys.Step) s tr s')
    (hno : ∀ x ∈ tr, ∀ n, x.event.service ≠ some (.semInit sem n)) : Admitted sem tr s' := by
  induction hr with
  | nil => exact ha
  | @snoc tr a b e hra hst ih =>
    have ha' := ih fun x hx => hno x (List.mem_append_left _ hx)
    have hsh := h.run hra
    exact ha'.step hsh.heralded hsh.sound hst.1 hst.2 (hno ⟨a, e, b⟩ (by simp))

/-- There are as many tasks with a resource as requests granted. -/
theorem Sys.length_grantedTo : (Sys.grantedTo sem tr).length = (Sys.grantsOf sem tr).length := by
  unfold Sys.grantedTo Sys.grantsOf
  rw [List.length_flatMap, List.length_flatMap]
  simp

/-- There are no more grants than resources. -/
theorem Books.grants_le {n : ℤ} (h : Books sem n tr s) :
    ((Sys.grantsOf sem tr).length : ℤ) ≤ n + Sys.signalsOf sem tr := by
  have hq := h.queue
  have hc := h.count
  have hr := h.requests
  omega

/-- There are no more returns than grants. -/
theorem Admitted.length_returned_le (h : Admitted sem tr s) :
    (Sys.waitLog sem tr).returned.length ≤ (Sys.grantsOf sem tr).length := by
  rw [← Sys.length_grantedTo]
  exact (List.subperm_iff_count.mpr h.returned).length_le

/-- The tasks that have called `sem_signal(sem)`. -/
def Sys.signallers (sem : SemRef) (tr : List (Move Sys SysEvent)) : List TaskRef :=
  (tr.filter fun m => m.event.signalsSem sem).map fun m => m.pre.cs.core.running

/-- Where tasks signal only after their own wait, a task has signalled at most as often as its
waits have returned, and less often while it is inside. -/
structure Alternating (sem : SemRef) (tr : List (Move Sys SysEvent)) : Prop where
  /-- Not more often than its waits have returned. -/
  signalled : ∀ t, (Sys.signallers sem tr).count t ≤ (Sys.waitLog sem tr).returned.count t
  /-- Less often while it is inside. -/
  inside : ∀ t, (Sys.waitLog sem tr).inside t = true →
    (Sys.signallers sem tr).count t < (Sys.waitLog sem tr).returned.count t

theorem Sys.signallers_snoc {m : Move Sys SysEvent} : Sys.signallers sem (tr ++ [m]) =
    Sys.signallers sem tr ++ if m.event.signalsSem sem then [m.pre.cs.core.running] else [] := by
  unfold Sys.signallers
  cases hm : m.event.signalsSem sem <;> simp [hm]

theorem Alternating.step (ha : Alternating sem tr) (hlog : LogChange sem (Sys.waitLog sem tr) s e s')
    (hsig : e.signalsSem sem = true → e = .call (.service (.semSignal sem)) ∧
      (Sys.waitLog sem tr).inside s.cs.core.running = true) : Alternating sem (tr ++ [⟨s, e, s'⟩]) := by
  have hreturns (hs : e.signalsSem sem = false)
      (hl : (Sys.waitLog sem tr).after sem ⟨s, e, s'⟩ = (Sys.waitLog sem tr).returns s.cs.core.running) :
      Alternating sem (tr ++ [⟨s, e, s'⟩]) := by
    refine ⟨fun t => ?_, fun t hin => ?_⟩
    · have hle := ha.signalled t
      rw [Sys.signallers_snoc, Sys.waitLog_snoc, hl]
      change _ ≤ List.count t (s.cs.core.running :: _)
      simp only [hs, Bool.false_eq_true, if_false, List.append_nil]
      exact hle.trans List.count_le_count_cons
    · have hle := ha.signalled t
      rw [Sys.waitLog_snoc, hl] at hin ⊢
      rw [Sys.signallers_snoc]
      change _ < List.count t (s.cs.core.running :: _)
      simp only [hs, Bool.false_eq_true, if_false, List.append_nil]
      by_cases ht : t = s.cs.core.running
      · subst ht
        rw [List.count_cons_self]
        omega
      · rw [List.count_cons_of_ne (Ne.symm ht)]
        exact ha.inside t ((Function.update_of_ne ht ..).symm.trans hin)
  cases hs : e.signalsSem sem with
  | true =>
    obtain ⟨rfl, hrun⟩ := hsig hs
    have hl : (Sys.waitLog sem tr).after sem ⟨s, .call (.service (.semSignal sem)), s'⟩ =
        { Sys.waitLog sem tr with inside := Function.update (Sys.waitLog sem tr).inside s.cs.core.running false } :=
      if_pos rfl
    refine ⟨fun t => ?_, fun t hin => ?_⟩
    · have hle := ha.signalled t
      rw [Sys.signallers_snoc, Sys.waitLog_snoc, hl, if_pos hs, List.count_append, List.count_singleton]
      by_cases ht : t = s.cs.core.running
      · subst ht
        have hlt := ha.inside _ hrun
        simp only [BEq.rfl, if_true]
        omega
      · simpa [Ne.symm ht] using hle
    · rw [Sys.waitLog_snoc, hl] at hin ⊢
      have ht : t ≠ s.cs.core.running := by
        rintro rfl
        cases (Function.update_self ..).symm.trans hin
      have hlt := ha.inside t ((Function.update_of_ne ht ..).symm.trans hin)
      rw [Sys.signallers_snoc, if_pos hs, List.count_append, List.count_singleton]
      simpa [Ne.symm ht] using hlt
  | false =>
    cases hlog with
    | keeps ho hr hi =>
      refine ⟨fun t => ?_, fun t hin => ?_⟩
      · rw [Sys.signallers_snoc, Sys.waitLog_snoc, hr]
        simpa [hs] using ha.signalled t
      · rw [Sys.waitLog_snoc] at hin
        rw [Sys.signallers_snoc, Sys.waitLog_snoc, hr]
        simpa [hs] using ha.inside t (hi t hin)
    | queues sem₁ req₁ he hu hp hcs hl =>
      refine ⟨fun t => ?_, fun t hin => ?_⟩
      · rw [Sys.signallers_snoc, Sys.waitLog_snoc, hl]
        simpa [hs] using ha.signalled t
      · rw [Sys.waitLog_snoc, hl] at hin
        rw [Sys.signallers_snoc, Sys.waitLog_snoc, hl]
        simpa [hs] using ha.inside t hin
    | takes req₁ he hu hg hw hl => exact hreturns hs hl
    | returns he hu hp ho hl => exact hreturns hs hl

theorem Alternating.run (h : SoundHeralded s) (hr : Run (Restrict SingleBySemaphores Sys.Step) s tr s')
    (hno : ∀ x ∈ tr, ∀ n, x.event.service ≠ some (.semInit sem n)) (hafter : Sys.SignalsAfterWait sem tr) :
    Alternating sem tr := by
  induction hr with
  | nil => exact ⟨fun t => le_rfl, fun t hin => by cases hin⟩
  | @snoc tr a b e hra hst ih =>
    have hsh := h.run hra
    have hlog := hsh.sound.logChange hst.2 (hno ⟨a, e, b⟩ (by simp)) (Sys.waitLog sem tr)
    refine Alternating.step (ih (fun x hx => hno x (List.mem_append_left _ hx)) fun tr₁ m tr₂ htr => ?_) hlog
      (hafter tr ⟨a, e, b⟩ [] rfl)
    exact hafter tr₁ m (tr₂ ++ [⟨a, e, b⟩]) (by rw [htr, List.append_assoc, List.cons_append])

/-- Two tasks inside would have got two resources more than have been given back. -/
theorem Alternating.eq_of_inside {t u : TaskRef} (h : Alternating sem tr)
    (hle : (Sys.waitLog sem tr).returned.length ≤ 1 + Sys.signalsOf sem tr)
    (ht : (Sys.waitLog sem tr).inside t = true) (hu : (Sys.waitLog sem tr).inside u = true) : t = u := by
  by_contra hne
  have hsub : List.Subperm (t :: u :: Sys.signallers sem tr) (Sys.waitLog sem tr).returned := by
    rw [List.subperm_iff_count]
    intro x
    have hx := h.signalled x
    rw [List.count_cons, List.count_cons]
    by_cases hxt : x = t
    · subst hxt
      have := h.inside x ht
      simp [Ne.symm hne]
      omega
    · by_cases hxu : x = u
      · subst hxu
        have := h.inside x hu
        simp [hne]
        omega
      · simpa [Ne.symm hxt, Ne.symm hxu] using hx
  have hlen := hsub.length_le
  have hsig : (Sys.signallers sem tr).length = Sys.signalsOf sem tr := by
    unfold Sys.signallers Sys.signalsOf
    rw [List.length_map, List.countP_eq_length_filter]
  rw [List.length_cons, List.length_cons, hsig] at hlen
  omega

/-- **Semaphores never admit too many.** In every run in which `SIGF_SINGLE` is sent to tasks only
by `sem_signal`, after `sem_init(sem, n)`:

* at most `n` plus the number of calls of `sem_signal(sem)` calls of `sem_wait(sem)` have
  returned;
* if `n` is 1 and every task signals only after its own wait has returned, at most one task is
  between its `sem_wait` and its `sem_signal`. -/
theorem sem_never_over_admits {cfg : Config} {c : Core} {n : ℤ} {m : Move Sys SysEvent} (h : martosPre cfg = .ok c)
    (hr : Run (Restrict SingleBySemaphores Sys.Step) (Sys.start c) tr s) {tr₁ tr₂ : List (Move Sys SysEvent)}
    (htr : tr = tr₁ ++ m :: tr₂) (hinit : m.event.service = some (.semInit sem n)) (hn : 0 ≤ n)
    (hno : ∀ x ∈ tr₂, ∀ k, x.event.service ≠ some (.semInit sem k)) :
    ((Sys.waitLog sem tr₂).returned.length : ℤ) ≤ n + Sys.signalsOf sem tr₂ ∧
    (n = 1 → Sys.SignalsAfterWait sem tr₂ → ∀ t u, (Sys.waitLog sem tr₂).inside t = true →
      (Sys.waitLog sem tr₂).inside u = true → t = u) := by
  obtain ⟨hr₁, hst, hr₂⟩ := hr.split htr
  have hpre : SoundHeralded m.pre := SoundHeralded.run ⟨.start h, .start h⟩ hr₁
  have hpost := hpre.step hst
  have hbk := Books.init hpre.sound hst.2 hinit hn
  have hempty : m.post.svc.reqQueue sem = [] := by
    have hq := hbk.queue
    have hc := hbk.count
    simp only [Sys.signalsOf, Sys.requestsOf, Sys.missed, List.countP_nil, List.filterMap_nil, List.length_nil] at hq hc
    rw [← List.length_eq_zero_iff]
    omega
  have hgrants := (hbk.run hpost.sound (hr₂.mono fun _ _ _ => And.right) hno).grants_le
  have hreturned := ((Admitted.init hempty).run hpost hr₂ hno).length_returned_le
  refine ⟨by omega, fun h1 hafter t u ht hu => ?_⟩
  exact (Alternating.run hpost hr₂ hno hafter).eq_of_inside (by omega) ht hu

/-- A test of the contract, for runs that use semaphore `sem` only. -/
def Sys.keepsSingle (sem : SemRef) (s : Sys) (e : SysEvent) : Prop :=
  (e.signalsSem sem = false → ∀ p ∈ s.sends e, p.2.getLsbD 0 = false) ∧
    ∀ p ∈ e.requests, (s.svc.request p.2).signal.getLsbD 0 = false

instance (s : Sys) (e : SysEvent) : Decidable (s.keepsSingle sem e) := inferInstanceAs (Decidable (_ ∧ _))

theorem Sys.keepsSingle.contract (h : s.keepsSingle sem e) : SingleBySemaphores s e := by
  refine ⟨fun t ⟨sg, hm, hsg⟩ => ?_, fun sem' req he => ?_⟩
  · cases hs : e.signalsSem sem with
    | false => cases (h.1 hs _ hm).symm.trans hsg
    | true =>
      unfold SysEvent.signalsSem at hs
      split at hs
      · next sem' he => exact ⟨sem', he⟩
      · cases hs
  · refine h.2 (sem', req) ?_
    cases e with
    | call k =>
      cases k with
      | service a =>
        obtain rfl := Option.some.inj he
        rfl
      | _ => cases he
    | isr a =>
      obtain rfl := Option.some.inj he
      rfl
    | _ => cases he

/-- The theorem at a run in which a call of `sem_wait` by task 1 has been granted by the init task
and has returned. -/
theorem sem_never_over_admits_granted : ∃ c tr₁ m tr₂ s, martosPre CoreSys.exampleConfig = .ok c ∧
    Run (Restrict SingleBySemaphores Sys.Step) (Sys.start c) (tr₁ ++ m :: tr₂) s ∧
    m.event.service = some (.semInit 7 0) ∧ s.cs.core.running = 1 ∧ s.spc 1 = .user ∧
    (Sys.waitLog 7 tr₂).returned.length ≤ 1 := by
  obtain ⟨c, tr₁, s₁, s₂, tr₂, s, hc, hr, htr, hp⟩ := Sys.exists_run CoreSys.exampleConfig (Sys.keepsSingle 7) []
    (.call (.service (.semInit 7 0)))
    (SysEvent.semWaitExample ++ [.isr (.semAddRequest 7 9), .call (.service (.semSignal 7)), .core .pendSV,
      .core (.pendSVSwitch 0x20000200), .core .pendSVExit, .core .resume, .resume])
    (p := fun _ _ s => decide (s.cs.core.running = 1 ∧ s.spc 1 = .user)) (by decide +kernel)
  have hr := hr.mono fun _ _ _ hst => (⟨hst.1.contract, hst.2⟩ : Restrict SingleBySemaphores Sys.Step _ _ _)
  obtain ⟨hrun, hspc⟩ := of_decide_eq_true hp
  have hno (x : Move Sys SysEvent) (hx : x ∈ tr₂) (k : ℤ) : x.event.service ≠ some (.semInit 7 k) := by
    have hev := List.mem_map_of_mem (f := Move.event) hx
    rw [htr] at hev
    rcases List.mem_append.mp hev with hev | hev
    · exact (SysEvent.semWaitExample_quiet _ hev).1 k
    · revert hev
      generalize x.event = e
      intro hev
      simp only [List.mem_cons, List.not_mem_nil, or_false] at hev
      rcases hev with rfl | rfl | rfl | rfl | rfl | rfl | rfl <;> simp [SysEvent.service]
  have hsig : Sys.signalsOf 7 tr₂ = 1 := by
    have hmap : Sys.signalsOf 7 tr₂ = (tr₂.map Move.event).countP fun e => e.signalsSem 7 := by
      rw [List.countP_map]
      rfl
    rw [hmap, htr]
    rfl
  refine ⟨c, tr₁, _, tr₂, s, hc, hr, rfl, hrun, hspc, ?_⟩
  have hle := (sem_never_over_admits hc hr rfl rfl le_rfl hno).1
  omega

end

end Martos
