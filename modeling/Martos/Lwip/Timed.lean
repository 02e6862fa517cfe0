import Martos.Lwip.Consumer
import Martos.Services.Delays

/-!
# Waiting with a timeout

`sys_arch_sem_wait` and `sys_arch_mbox_fetch` treat their local timer in the same way: they
allocate it, add it, call `signal_wait` for its signal among others, abort it and free it.
`TimedSys` is the machine with tasks that do only this (`TimedStep`): what the functions do
besides is an event of the machine below, or no step at all.

`TimedInv` is the invariant: a timer that is part of a call is used by the caller alone, it is
queued exactly if its status says so while `timer_add` has returned and `timer_abort` has not
been called, and not queued otherwise.
-/

namespace Martos

open Checked Transition

/-! ### One timer -/

/-- The timer that a service function is working on. -/
def ServicePc.timer : ServicePc → Option TimerRef
  | .timerAddCheck tm _ => some tm
  | .timerAddInsert tm _ => some tm
  | .timerDelayTest tm => some tm
  | .timerDelayFree tm => some tm
  | _ => none

/-- A call that does not return at once. -/
def ServiceCall.Moves : ServiceCall → Prop
  | .semWait _ _ => True
  | .msgportWait _ => True
  | .timerAdd _ => True
  | .timerDelay _ _ => True
  | _ => False

/-- What a step does to a timer that its event does not use. -/
inductive TimerChange (tm : TimerRef) (s : Sys) (e : SysEvent) (s' : Sys) : Prop where
  /-- Nothing. -/
  | keeps (hr : s'.svc.timer tm = s.svc.timer tm) (hq : tm ∈ s'.svc.timers () ↔ tm ∈ s.svc.timers ())
      (hp : ∀ t, (s.spc t).Adds tm → (s'.spc t).Adds tm)
  /-- A poll fires it. -/
  | fires (he : e = .tim2) (hd : tm ∈ s.svc.clocked.due)
      (hr : s'.svc.timer tm = { s.svc.timer tm with status := .done }) (hq : tm ∉ s'.svc.timers ())
      (hp : s'.spc = s.spc)
  /-- `timer_add` finds its tick elapsed. -/
  | elapsed {delay : Bool} (he : e = .resume) (hp : s.spc s.cs.core.running = .timerAddCheck tm delay)
      (hl : timerElapsed tm s.svc = true) (hr : s'.svc.timer tm = { s.svc.timer tm with status := .aborted })
      (hq : tm ∈ s'.svc.timers () ↔ tm ∈ s.svc.timers ())
      (hp' : s'.spc s.cs.core.running = if delay then .timerDelayTest tm else .user)
  /-- `timer_add` inserts it. -/
  | inserts {delay : Bool} (he : e = .resume) (hp : s.spc s.cs.core.running = .timerAddInsert tm delay)
      (hr : s'.svc.timer tm = { s.svc.timer tm with status := .added }) (hq : tm ∈ s'.svc.timers ())
      (hp' : s'.spc s.cs.core.running = if delay then .timerDelayTest tm else .user)

section

variable {s s' : Sys} {e : SysEvent} {t u : TaskRef} {tm : TimerRef}

/-- Only the running task moves, in a service function or a call of one. -/
theorem SysEffect.spc_step (heff : SysEffect s e s') (t : TaskRef) :
    s'.spc t = s.spc t ∨ (t = s.cs.core.running ∧ (e = .resume ∨ ∃ c, e = .call c ∧ c.Moves)) := by
  have hmove {p : ServicePc} (he : e = .resume ∨ ∃ c, e = .call c ∧ c.Moves) :
      Function.update s.spc s.cs.core.running p t = s.spc t ∨
        (t = s.cs.core.running ∧ (e = .resume ∨ ∃ c, e = .call c ∧ c.Moves)) := by
    by_cases ht : t = s.cs.core.running
    · exact .inr ⟨ht, he⟩
    · exact .inl (Function.update_of_ne ht ..)
  cases heff with
  | semQueued hu hr hd hn => exact hmove (.inr ⟨_, rfl, trivial⟩)
  | semBlocks hu hp hst => exact hmove (.inl rfl)
  | semReturns hu hp => exact hmove (.inl rfl)
  | portWaits hu ha hd hst => exact hmove (.inr ⟨_, rfl, trivial⟩)
  | portReturns hu hp hl hst => exact hmove (.inl rfl)
  | addStarts hu ha hs => exact hmove (.inr ⟨_, rfl, trivial⟩)
  | delayStarts hu hf hd hst => exact hmove (.inr ⟨_, rfl, trivial⟩)
  | addElapsed hu hp he => exact hmove (.inl rfl)
  | addPasses hu hp he => exact hmove (.inl rfl)
  | addInserts hu hp hm => exact hmove (.inl rfl)
  | delayWaits hu hp ha hst => exact hmove (.inl rfl)
  | delaySkips hu hp ha => exact hmove (.inl rfl)
  | delayFrees hu hp hst => exact hmove (.inl rfl)
  | @write w hu hw => cases w <;> exact .inl rfl
  | _ => exact .inl rfl

/-- A task begins to work on a timer in `timer_add` or `timer_delay`. -/
theorem SysEffect.timer_step (heff : SysEffect s e s') (ht : (s'.spc t).timer = some tm) :
    (s.spc t).timer = some tm ∨ (t = s.cs.core.running ∧ e.Adds tm) := by
  have hmove {p q : ServicePc} (hq : s.spc s.cs.core.running = q)
      (hpq : p.timer = some tm → q.timer = some tm ∨ e.Adds tm)
      (ht : (Function.update s.spc s.cs.core.running p t).timer = some tm) :
      (s.spc t).timer = some tm ∨ (t = s.cs.core.running ∧ e.Adds tm) := by
    by_cases hrun : t = s.cs.core.running
    · rw [hrun, Function.update_self] at ht
      rw [hrun, hq]
      exact (hpq ht).imp_right fun ha => ⟨rfl, ha⟩
    · rw [Function.update_of_ne hrun] at ht
      exact .inl ht
  have hfinish {v : TimerRef} {d : Bool}
      (hp : (if d = true then ServicePc.timerDelayTest v else .user).timer = some tm) :
      v = tm := by
    cases d with
    | false => cases hp
    | true => exact Option.some.inj hp
  cases heff with
  | semQueued hu hr hd hn => exact hmove hu.2 (fun hp => by cases hp) ht
  | semBlocks hu hp hst => exact hmove hp (fun hp => by cases hp) ht
  | semReturns hu hp => exact hmove hp (fun hp => by cases hp) ht
  | portWaits hu ha hd hst => exact hmove hu.2 (fun hp => by cases hp) ht
  | portReturns hu hp hl hst => exact hmove hp (fun hp => by cases hp) ht
  | addStarts hu ha hs => exact hmove hu.2 (fun hp => .inr (.inl (by rw [Option.some.inj hp]))) ht
  | delayStarts hu hf hd hst => exact hmove hu.2 (fun hp => .inr (.inr ⟨_, by rw [Option.some.inj hp]⟩)) ht
  | addElapsed hu hp he => exact hmove hp (fun hv => .inl (congrArg some (hfinish hv))) ht
  | @addPasses v d hu hp he => exact hmove (p := .timerAddInsert v d) hp (fun hv => .inl hv) ht
  | addInserts hu hp hm => exact hmove hp (fun hv => .inl (congrArg some (hfinish hv))) ht
  | @delayWaits v cs hu hp ha hst => exact hmove (p := .timerDelayFree v) hp (fun hv => .inl hv) ht
  | @delaySkips v hu hp ha => exact hmove (p := .timerDelayFree v) hp (fun hv => .inl hv) ht
  | delayFrees hu hp hst => exact hmove hp (fun hp => by cases hp) ht
  | @write w hu hw => cases w <;> exact .inl ht
  | _ => exact .inl ht

theorem ServicePc.Adds.timer_eq {p : ServicePc} (h : p.Adds tm) : p.timer = some tm := by
  obtain ⟨d, rfl | rfl⟩ := h <;> rfl

/-- **What a step does to a timer that its event does not use.** -/
theorem Sound.timerChange (h : Sound s) (heff : SysEffect s e s') (hu : ¬ e.Uses tm)
    (hfree : s.spc s.cs.core.running ≠ .timerDelayFree tm) : TimerChange tm s e s' := by
  -- the event works on another timer
  have hwrite {v : TimerRef} {x : Timer} (hne : tm ≠ v) : Function.update s.svc.timer v x tm = s.svc.timer tm :=
    Function.update_of_ne hne ..
  have hstay {p q : ServicePc} (hq : s.spc s.cs.core.running = q) (hqn : ¬ q.Adds tm) (t : TaskRef)
      (ha : (s.spc t).Adds tm) : (Function.update s.spc s.cs.core.running p t).Adds tm := by
    by_cases ht : t = s.cs.core.running
    · rw [ht, hq] at ha
      exact absurd ha hqn
    · rwa [Function.update_of_ne ht]
  have hnot {q : ServicePc} (hq : q.timer ≠ some tm) : ¬ q.Adds tm := fun ha => hq ha.timer_eq
  cases heff with
  | semQueued hc hr hd hn => exact .keeps rfl Iff.rfl (hstay hc.2 (hnot (by simp [ServicePc.timer])))
  | semBlocks hc hp hst => exact .keeps rfl Iff.rfl (hstay hp (hnot (by simp [ServicePc.timer])))
  | semReturns hc hp => exact .keeps rfl Iff.rfl (hstay hp (hnot (by simp [ServicePc.timer])))
  | portWaits hc ha hd hst => exact .keeps rfl Iff.rfl (hstay hc.2 (hnot (by simp [ServicePc.timer])))
  | portReturns hc hp hl hst => exact .keeps rfl Iff.rfl (hstay hp (hnot (by simp [ServicePc.timer])))
  | @timerAllocate v sg cs hc hf hst =>
    have hne : tm ≠ v := by rintro rfl; exact hu (.inr (.inl rfl))
    exact .keeps (hwrite hne) Iff.rfl fun _ ha => ha
  | @timerFree v cs hc hf hst =>
    have hne : tm ≠ v := by rintro rfl; exact hu (.inr (.inr (.inl rfl)))
    exact .keeps (hwrite hne) Iff.rfl fun _ ha => ha
  | @addStarts v tick hc ha hs =>
    have hne : tm ≠ v := by rintro rfl; exact hu (.inl (.inl rfl))
    exact .keeps (hwrite hne) Iff.rfl (hstay hc.2 (hnot (by simp [ServicePc.timer])))
  | @delayStarts v ticks tick sg cs hc hf hd hst =>
    have hne : tm ≠ v := by rintro rfl; exact hu (.inl (.inr ⟨ticks, rfl⟩))
    exact .keeps (hwrite hne) Iff.rfl (hstay hc.2 (hnot (by simp [ServicePc.timer])))
  | @addElapsed v d hc hp he =>
    by_cases htm : tm = v
    · subst htm
      exact .elapsed rfl hp (decide_eq_true he) (Function.update_self ..) Iff.rfl (Function.update_self ..)
    · exact .keeps (hwrite htm) Iff.rfl (hstay hp (hnot (by simpa [ServicePc.timer] using Ne.symm htm)))
  | @addPasses v d hc hp he =>
    refine .keeps rfl Iff.rfl fun t ha => ?_
    by_cases ht : t = s.cs.core.running
    · rw [ht, hp] at ha
      have hv := Option.some.inj ha.timer_eq
      subst hv
      rw [ht]
      exact ⟨d, .inr (Function.update_self ..)⟩
    · change (Function.update s.spc s.cs.core.running _ t).Adds tm
      rwa [Function.update_of_ne ht]
  | @addInserts v d hc hp hm =>
    by_cases htm : tm = v
    · subst htm
      refine .inserts rfl hp (Function.update_self ..) ?_ (Function.update_self ..)
      change tm ∈ (s.svc.timerInserted tm).timers ()
      rw [Services.timerInserted_timers, Seqs.mem_listEnqueue]
      exact .inr ⟨rfl, rfl⟩
    · refine .keeps (hwrite htm) ?_ (hstay hp (hnot (by simpa [ServicePc.timer] using Ne.symm htm)))
      change tm ∈ (s.svc.timerInserted v).timers () ↔ _
      rw [Services.timerInserted_timers, Seqs.mem_listEnqueue]
      exact or_iff_left fun hv => htm hv.2
  | delayWaits hc hp ha hst =>
    refine .keeps rfl Iff.rfl (hstay hp ?_)
    rintro ⟨d, hp | hp⟩ <;> cases hp
  | delaySkips hc hp ha =>
    refine .keeps rfl Iff.rfl (hstay hp ?_)
    rintro ⟨d, hp | hp⟩ <;> cases hp
  | @delayFrees v cs hc hp hst =>
    have hne : tm ≠ v := by rintro rfl; exact hfree hp
    refine .keeps (hwrite hne) Iff.rfl (hstay hp ?_)
    rintro ⟨d, hp | hp⟩ <;> cases hp
  | @aborts _ v hc ha hm =>
    have hne : tm ≠ v := by rintro rfl; exact hu (.inr (.inr (.inr (.inl hc.service_eq))))
    exact .keeps rfl (List.mem_erase_of_ne hne) fun _ ha => ha
  | tim2 hm hc hr htr =>
    have hd : (s.svc.clocked.timers ()).Nodup := h.timers
    have hiff : tm ∈ s.svc.clocked.polled.timers () ↔ tm ∈ s.svc.timers () ∧ tm ∉ s.svc.clocked.due :=
      Services.mem_polled_iff hd
    by_cases hdue : tm ∈ s.svc.clocked.due
    · exact .fires rfl hdue (Services.polled_timer_of_mem hdue) (fun hq => (hiff.mp hq).2 hdue) rfl
    · exact .keeps (Services.polled_timer_of_not_mem hdue) (hiff.trans (and_iff_left hdue)) fun _ ha => ha
  | @write w hc hw =>
    cases w with
    | timer v op delay tick =>
      have hne : tm ≠ v := by rintro rfl; exact hu (.inr (.inr (.inr (.inr ⟨op, delay, tick, rfl⟩))))
      exact .keeps (hwrite hne) Iff.rfl fun _ ha => ha
    | _ => exact .keeps rfl Iff.rfl fun _ ha => ha
  | _ => exact .keeps rfl Iff.rfl fun _ ha => ha

end

/-! ### The timer of a call -/

/-- The event is no call of the running task that takes it out of its own code. -/
structure SysEvent.Still (e : SysEvent) : Prop where
  /-- The services. -/
  call : ∀ c, e = .call c → ¬ c.Moves
  /-- The core. -/
  wait : ∀ sg, e ≠ .core (.call (.signalWait sg))

namespace Sys

variable (s : Sys) (t : TaskRef) (tm : TimerRef) (sg : Signals)

/-- The task is in none of the functions of the services, and not in `signal_wait`. -/
structure Idle : Prop where
  /-- The services. -/
  user : s.spc t = .user
  /-- The core. -/
  asleep : ∀ sg, ¬ s.cs.Asleep t sg

/-- The timer is not in use, and no function works on it. -/
structure Unused : Prop where
  /-- It is not queued. -/
  out : tm ∉ s.svc.timers ()
  /-- No task works on it. -/
  alone : ∀ u, (s.spc u).timer ≠ some tm

/-- The timer has been allocated by the task, and is not in use. -/
structure Prepared : Prop where
  /-- The task to signal. -/
  task : (s.svc.timer tm).task = some t
  /-- It has a signal. -/
  signal : (s.svc.timer tm).signal ≠ 0
  /-- Nobody uses it. -/
  unused : s.Unused tm

/-- The timer, with signal `sg`, has been handed to `timer_add` by the task. -/
structure Armed : Prop where
  /-- The task to signal. -/
  task : (s.svc.timer tm).task = some t
  /-- The signal. -/
  signal : (s.svc.timer tm).signal = sg
  /-- There is one. -/
  nonzero : sg ≠ 0
  /-- No other task works on it. -/
  alone : ∀ u, (s.spc u).timer = some tm → u = t
  /-- The task itself is in `timer_add` at most. -/
  adds : s.spc t = .user ∨ s.spc t = .timerAddCheck tm false ∨ s.spc t = .timerAddInsert tm false
  /-- When `timer_add` has returned the timer is queued exactly if its status says so. -/
  queued : s.spc t = .user → (tm ∈ s.svc.timers () ↔ (s.svc.timer tm).status = .added)
  /-- Before that it is not queued. -/
  out : s.spc t ≠ .user → tm ∉ s.svc.timers ()

/-- The timer is queued, or will be, or its signal has come. -/
def Watched : Prop := s.spc t = .user → tm ∉ s.svc.timers () → sg &&& (s.cs.core.task t).sigRecvd ≠ 0

end Sys

section

variable {s s' : Sys} {e : SysEvent} {t u : TaskRef} {tm : TimerRef} {sg : Signals}

theorem Sys.Step.not_resume (hst : s.Step e s') (hu : s.spc s.cs.core.running = .user) : e ≠ .resume := by
  rintro rfl
  exact hst.1.2 hu

theorem Sound.user_step (h : Sound s) (hst : s.Step e s') (hu : s.spc t = .user)
    (hm : t = s.cs.core.running → ∀ c, e = .call c → ¬ c.Moves) : s'.spc t = .user := by
  rcases (h.effect hst).spc_step t with hsame | ⟨rfl, he | ⟨c, he, hc⟩⟩
  · rw [hsame, hu]
  · exact absurd he (hst.not_resume hu)
  · exact absurd hc (hm rfl c he)

theorem SysEvent.Still.waitsFor_eq (hq : e.Still) (ha : (s.spc s.cs.core.running).Awake) : s.waitsFor e = none := by
  by_cases hr : e = .resume
  · rw [hr]
    exact ha.waitsFor_resume
  · unfold Sys.waitsFor
    split
    · next sg => exact absurd rfl (hq.wait sg)
    · exact absurd rfl hr
    · rfl

theorem Sound.not_asleep_step (h : Sound s) (hst : s.Step e s') (ha : (s.spc t).Awake) (hn : ∀ sg, ¬ s.cs.Asleep t sg)
    (hq : t = s.cs.core.running → e.Still) (sg : Signals) : ¬ s'.cs.Asleep t sg := by
  intro hs
  rcases h.asleep_step hst hs with hs | ⟨rfl, hw⟩
  · exact hn sg hs
  · rw [(hq rfl).waitsFor_eq ha] at hw
    cases hw

theorem Sys.Idle.awake (h : s.Idle t) : (s.spc t).Awake := by
  rw [h.user]
  trivial

theorem Sys.Idle.step (hi : s.Idle t) (h : Sound s) (hst : s.Step e s') (hq : t = s.cs.core.running → e.Still) :
    s'.Idle t :=
  ⟨h.user_step hst hi.user fun ht => (hq ht).call, h.not_asleep_step hst hi.awake hi.asleep hq⟩

theorem Sys.Calling.idle (h : s.Calling) : s.Idle s.cs.core.running := ⟨h.2, CoreSys.not_asleep_of_user h.1.2⟩

/-- No task comes to work on a timer that the event does not use. -/
theorem SysEffect.alone_step (heff : SysEffect s e s') (hu : ¬ e.Uses tm) (ht : (s'.spc t).timer = some tm) :
    (s.spc t).timer = some tm :=
  (heff.timer_step ht).resolve_right fun ha => hu (.inl ha.2)

/-- A timer that nobody uses stays so, with its fields, as long as no event uses it. -/
theorem Sys.Unused.step (hn : s.Unused tm) (h : Sound s) (hst : s.Step e s') (hu : ¬ e.Uses tm) :
    s'.Unused tm ∧ s'.svc.timer tm = s.svc.timer tm := by
  have heff := h.effect hst
  have hno {d : Bool} {p : ServicePc} (hd : p = .timerAddCheck tm d ∨ p = .timerAddInsert tm d)
      (hr : s.spc s.cs.core.running = p) : False := by
    refine hn.alone s.cs.core.running ?_
    rw [hr]
    exact ServicePc.Adds.timer_eq ⟨d, hd⟩
  have hfree : s.spc s.cs.core.running ≠ .timerDelayFree tm := by
    intro hd
    refine hn.alone s.cs.core.running ?_
    rw [hd]
    rfl
  cases h.timerChange heff hu hfree with
  | keeps hr hq hp' => exact ⟨⟨fun hm => hn.out (hq.mp hm), fun u hv => hn.alone u (heff.alone_step hu hv)⟩, hr⟩
  | fires he hd hr hq hp' => exact absurd (Services.mem_due_of_mem hd) hn.out
  | elapsed he hp' => exact (hno (.inl rfl) hp').elim
  | inserts he hp' => exact (hno (.inr rfl) hp').elim

theorem Sys.Prepared.step (hp : s.Prepared t tm) (h : Sound s) (hst : s.Step e s') (hu : ¬ e.Uses tm) :
    s'.Prepared t tm := by
  obtain ⟨hun, hr⟩ := hp.unused.step h hst hu
  exact ⟨hr ▸ hp.task, hr ▸ hp.signal, hun⟩

theorem Sys.Armed.awake (ha : s.Armed t tm sg) : (s.spc t).Awake := by
  rcases ha.adds with hp | hp | hp
  · rw [hp]
    trivial
  · rw [hp]
    exact rfl
  · rw [hp]
    exact rfl

/-- The task that is in `timer_add` on the timer. -/
theorem Sys.Armed.running_eq (ha : s.Armed t tm sg) {d : Bool}
    (hp : s.spc s.cs.core.running = .timerAddCheck tm d ∨ s.spc s.cs.core.running = .timerAddInsert tm d) :
    t = s.cs.core.running ∧ d = false := by
  have ht : s.cs.core.running = t := ha.alone _ (ServicePc.Adds.timer_eq ⟨d, hp⟩)
  refine ⟨ht.symm, ?_⟩
  rw [ht] at hp
  rcases ha.adds with hp' | hp' | hp' <;> rw [hp'] at hp <;> rcases hp with hp | hp <;> cases hp <;> rfl

theorem Sys.Armed.not_free (ha : s.Armed t tm sg) : s.spc s.cs.core.running ≠ .timerDelayFree tm := by
  intro hp
  obtain rfl : s.cs.core.running = t := by
    refine ha.alone _ ?_
    rw [hp]
    rfl
  rcases ha.adds with hp' | hp' | hp' <;> cases hp'.symm.trans hp

theorem Sys.Armed.step (ha : s.Armed t tm sg) (h : Sound s) (hst : s.Step e s') (hu : ¬ e.Uses tm)
    (hq : t = s.cs.core.running → e.Still) : s'.Armed t tm sg := by
  have heff := h.effect hst
  have halone (u : TaskRef) (hv : (s'.spc u).timer = some tm) : u = t := ha.alone u (heff.alone_step hu hv)
  cases h.timerChange heff hu ha.not_free with
  | keeps hr hm hadd =>
    by_cases hp : s.spc t = .user
    · have hp' := h.user_step hst hp fun ht => (hq ht).call
      exact ⟨hr ▸ ha.task, hr ▸ ha.signal, ha.nonzero, halone, .inl hp', fun _ => by rw [hm, hr]; exact ha.queued hp,
        fun hne => absurd hp' hne⟩
    · -- the task stays in `timer_add`
      have hadds : (s.spc t).Adds tm := ⟨false, ha.adds.resolve_left hp⟩
      have hawake : (s'.spc t).Awake := heff.awake_step ha.awake fun ht c hc => by
        have hnot := (hq ht).call c hc
        cases c with
        | semWait sem req => exact absurd trivial hnot
        | msgportWait p => exact absurd trivial hnot
        | timerDelay v ticks => exact absurd trivial hnot
        | _ => trivial
      have hadds' : s'.spc t = .timerAddCheck tm false ∨ s'.spc t = .timerAddInsert tm false := by
        obtain ⟨d, hd | hd⟩ := hadd t hadds
        · rw [hd] at hawake ⊢
          rw [show d = false from hawake]
          exact .inl rfl
        · rw [hd] at hawake ⊢
          rw [show d = false from hawake]
          exact .inr rfl
      have hne : s'.spc t ≠ .user := by rcases hadds' with hp' | hp' <;> rw [hp'] <;> simp
      exact ⟨hr ▸ ha.task, hr ▸ ha.signal, ha.nonzero, halone, .inr hadds', fun hp' => absurd hp' hne,
        fun _ hq' => ha.out hp (hm.mp hq')⟩
  | fires he hd hr hm hp =>
    have huser : s.spc t = .user := by
      by_contra hne
      have hqueued : tm ∈ s.svc.clocked.timers () := Services.mem_due_of_mem hd
      exact ha.out hne hqueued
    have huser' : s'.spc t = .user := by rw [hp, huser]
    exact ⟨hr ▸ ha.task, hr ▸ ha.signal, ha.nonzero, halone, .inl huser', fun _ => by simp [hm, hr],
      fun hne => absurd huser' hne⟩
  | elapsed he hp hl hr hm hp' =>
    obtain ⟨rfl, rfl⟩ := ha.running_eq (.inl hp)
    have huser' : s'.spc s.cs.core.running = .user := hp'
    refine ⟨hr ▸ ha.task, hr ▸ ha.signal, ha.nonzero, halone, .inl huser', fun _ => ?_, fun hne => absurd huser' hne⟩
    rw [hm, hr]
    exact iff_of_false (ha.out (by simp [hp])) (by simp)
  | inserts he hp hr hm hp' =>
    obtain ⟨rfl, rfl⟩ := ha.running_eq (.inr hp)
    have huser' : s'.spc s.cs.core.running = .user := hp'
    refine ⟨hr ▸ ha.task, hr ▸ ha.signal, ha.nonzero, halone, .inl huser', fun _ => ?_, fun hne => absurd huser' hne⟩
    exact iff_of_true hm (by rw [hr])

/-! ### The steps of a call -/

/-- What `timer_allocate` gives the running task: a bit of its own that was free. -/
theorem Sound.timerAllocate_step (h : Sound s) (hst : s.Step (.call (.timerAllocate tm)) s') : ∃ i < signalsWidth,
    (s'.svc.timer tm).task = some s.cs.core.running ∧ (s'.svc.timer tm).signal = 1#16 <<< i ∧
      s'.svc.timers = s.svc.timers ∧ s'.spc = s.spc ∧ s'.cs = { s.cs with core := s.cs.core.allocated (1#16 <<< i) } ∧
      (s.cs.core.task s.cs.core.running).sigAlloc.getLsbD i = false := by
  obtain ⟨signum, c, hall⟩ := hst.allocates (h := .timer tm) (n := -1) rfl
  obtain ⟨hne, hsig⟩ := hall.timer tm rfl
  have hrest : (s'.svc.timer tm).task = some s.cs.core.running ∧ s'.svc.timers = s.svc.timers ∧ s'.spc = s.spc := by
    have hx := hst.2
    simp only [Sys.exec, Sys.execCall, bind_eq_ok, pure_eq_ok] at hx
    obtain ⟨k, hk, rfl⟩ := hx
    obtain ⟨n, c, sg, -, rfl⟩ := timerAllocate_eq_ok hk
    exact ⟨by simp [Sys.put, Sys.kernel], rfl, rfl⟩
  rcases h.nested.balanced.signalAllocate_ok hall.call with ⟨i, hi, rfl, rfl, hfree⟩ | ⟨hneg, -⟩
  · exact ⟨i, hi, hrest.1, hsig, hrest.2.1, hrest.2.2, hall.cs, hfree⟩
  · exact absurd hneg hne

theorem mask_ne_zero {i : ℕ} (hi : i < signalsWidth) : 1#16 <<< i ≠ 0 := by
  intro hz
  have hbit := getLsbD_mask hi (j := i)
  rw [hz] at hbit
  simp at hbit

theorem Sys.Prepared.of_allocate (h : Sound s) (hst : s.Step (.call (.timerAllocate tm)) s') (hn : s.Unused tm) :
    s'.Prepared s.cs.core.running tm := by
  obtain ⟨i, hi, htask, hsig, htimers, hspc, -⟩ := h.timerAllocate_step hst
  refine ⟨htask, ?_, ?_, ?_⟩
  · rw [hsig]
    exact mask_ne_zero hi
  · rw [htimers]
    exact hn.out
  · rw [hspc]
    exact hn.alone

/-- The caller sets its timer up. -/
theorem Sys.Prepared.write (hp : s.Prepared t tm) {op : TimerOperation} {delay tick : Ticks}
    (hst : s.Step (.call (.write (.timer tm op delay tick))) s') : s'.Prepared t tm := by
  rw [hst.write_eq]
  have hself : (s.execWrite (.timer tm op delay tick)).svc.timer tm =
      { s.svc.timer tm with op := op, delay := delay, tick := tick } := Function.update_self ..
  refine ⟨?_, ?_, hp.unused.out, hp.unused.alone⟩
  · rw [hself]
    exact hp.task
  · rw [hself]
    exact hp.signal

/-- The caller calls `timer_add`. -/
theorem Sys.Prepared.add (hp : s.Prepared s.cs.core.running tm) (hst : s.Step (.call (.timerAdd tm)) s') :
    s'.Armed s.cs.core.running tm (s.svc.timer tm).signal := by
  have hx := hst.2
  simp only [Sys.exec, Sys.execCall, Sys.startAdd, bind_eq_ok, pure_eq_ok] at hx
  obtain ⟨svc, hsvc, rfl⟩ := hx
  obtain ⟨-, -, tick, rfl⟩ := timerAddStart_eq_ok hsvc
  have hself : (s.svc.modTimer tm fun x => { x with tick := tick }).timer tm = { s.svc.timer tm with tick := tick } :=
    Services.modTimer_self
  have hspc : Function.update s.spc s.cs.core.running (.timerAddCheck tm false) s.cs.core.running =
      .timerAddCheck tm false := Function.update_self ..
  refine ⟨?_, ?_, hp.signal, fun u hv => ?_, .inr (.inl hspc), fun hq => ?_, fun _ => hp.unused.out⟩
  · dsimp only
    rw [hself]
    exact hp.task
  · dsimp only
    rw [hself]
  · by_contra hne
    have hold : (Function.update s.spc s.cs.core.running (.timerAddCheck tm false) u).timer = some tm := hv
    rw [Function.update_of_ne hne] at hold
    exact hp.unused.alone u hold
  · cases hspc.symm.trans hq

/-- The caller calls `timer_abort`. -/
theorem Sys.Armed.abort (ha : s.Armed t tm sg) (h : Sound s) (hu : s.spc t = .user)
    (hst : s.Step (.call (.service (.timerAbort tm))) s') : s'.Prepared t tm := by
  have halone (u : TaskRef) : (s.spc u).timer ≠ some tm := by
    intro hv
    obtain rfl := ha.alone u hv
    rw [hu] at hv
    cases hv
  have hx := hst.2
  simp only [Sys.exec, Sys.execCall, Sys.execService, bind_eq_ok, pure_eq_ok] at hx
  obtain ⟨k, hk, rfl⟩ := hx
  have hsignal : (s.svc.timer tm).signal ≠ 0 := by
    rw [ha.signal]
    exact ha.nonzero
  rcases timerAbort_cases (k := s.kernel) h.nested.balanced hk with ⟨-, -, rfl⟩ | ⟨hadded, rfl⟩
  · exact ⟨ha.task, hsignal, h.timers.not_mem_erase, halone⟩
  · exact ⟨ha.task, hsignal, fun hm => hadded ((ha.queued hu).mp hm), halone⟩

/-- The caller calls `timer_free`. -/
theorem Sys.Prepared.free (hp : s.Prepared t tm) (hst : s.Step (.call (.timerFree tm)) s') : s'.Unused tm := by
  have hx := hst.2
  simp only [Sys.exec, Sys.execCall, bind_eq_ok, pure_eq_ok] at hx
  obtain ⟨k, hk, rfl⟩ := hx
  obtain ⟨c, -, rfl⟩ := timerFree_eq_ok hk
  exact ⟨hp.unused.out, hp.unused.alone⟩

/-! ### The signal of the timer -/

theorem or_ne_zero_of_left {x y : Signals} (h : x ≠ 0) : x ||| y ≠ 0 := by
  intro hor
  refine h (BitVec.eq_of_getLsbD_eq fun i _ => ?_)
  have hbit : (x ||| y).getLsbD i = false := by
    rw [hor]
    exact BitVec.getLsbD_zero
  rw [BitVec.getLsbD_or, Bool.or_eq_false_iff] at hbit
  exact hbit.1.trans BitVec.getLsbD_zero.symm

/-- What has been taken is not pending. -/
theorem and_and_not_self (x r : Signals) : x &&& (r &&& ~~~(x &&& r)) = 0 := by
  refine BitVec.eq_of_getLsbD_eq fun i hi => ?_
  rw [BitVec.getLsbD_and, BitVec.getLsbD_and, BitVec.getLsbD_not, BitVec.getLsbD_and]
  refine Eq.trans ?_ BitVec.getLsbD_zero.symm
  cases x.getLsbD i <;> cases r.getLsbD i <;> simp

/-- A task in `signal_wait` takes its signals when `signal_wait` returns. -/
theorem Sound.returns_of_takes (h : Sound s) (hst : s.Step (.core .resume) s')
    (hz : sg &&& (s.cs.core.task s.cs.core.running).sigRecvd ≠ 0)
    (hr : (s'.cs.core.task s.cs.core.running).sigRecvd = (s.cs.core.task s.cs.core.running).sigRecvd &&&
      ~~~(sg &&& (s.cs.core.task s.cs.core.running).sigRecvd)) : s.cs.returns .resume ≠ none := by
  obtain ⟨cs, hcs, rfl⟩ := hst.core
  rcases h.nested.resume_cases hcs with ⟨sg', -, hret, -⟩ | ⟨-, hsame⟩
  · rw [hret]
    exact Option.some_ne_none _
  · have hzero := and_and_not_self sg (s.cs.core.task s.cs.core.running).sigRecvd
    rw [← hr, hsame] at hzero
    exact absurd hzero hz

end

/-! ### The machine of the calls -/

/-- Where a task is in a function that waits with a timeout. -/
inductive TimedPc where
  /-- In none. -/
  | out
  /-- In one, without a timeout. -/
  | untimed (tm : TimerRef)
  /-- Before `timer_allocate`, or after `timer_free`. -/
  | entered (tm : TimerRef)
  /-- Before `timer_add`. -/
  | prepared (tm : TimerRef)
  /-- In `timer_add`, or before `signal_wait`. -/
  | armed (tm : TimerRef) (sg : Signals)
  /-- In `signal_wait`. -/
  | waiting (tm : TimerRef) (sg : Signals)
  /-- Before `timer_abort`. -/
  | waited (tm : TimerRef) (sg : Signals)
  /-- Before `timer_free`. -/
  | aborted (tm : TimerRef)

/-- The timer of the call. -/
def TimedPc.timer : TimedPc → Option TimerRef
  | .out => none
  | .untimed tm => some tm
  | .entered tm => some tm
  | .prepared tm => some tm
  | .armed tm _ => some tm
  | .waiting tm _ => some tm
  | .waited tm _ => some tm
  | .aborted tm => some tm

/-- The machine with functions that wait with a timeout. -/
structure TimedSys where
  /-- The machine below. -/
  sys : Sys
  /-- Where each task is. -/
  tpc : TaskRef → TimedPc

namespace TimedSys

variable (a : TimedSys)

/-- The running task. -/
def running : TaskRef := a.sys.cs.core.running

/-- The machine below makes a step, and the running task moves to `p`. -/
def moved (sys : Sys) (p : TimedPc) : TimedSys := ⟨sys, Function.update a.tpc a.running p⟩

end TimedSys

/-- A step of the machine, with the event below. -/
inductive TimedStep (a : TimedSys) : Option SysEvent → TimedSys → Prop where
  /-- Any other event; the timers of the calls are private to them. -/
  | below {e : SysEvent} {sys : Sys} (hst : a.sys.Step e sys)
      (hu : ∀ t tm, (a.tpc t).timer = some tm → ¬ e.Uses tm)
      (hm : (a.tpc a.running).timer ≠ none → ∀ c, e = .call c → ¬ c.Moves)
      (hq : (a.tpc a.running).timer ≠ none → (∀ tm, a.tpc a.running ≠ .untimed tm) → e.Still)
      (hn : ∀ tm sg, a.tpc a.running = .armed tm sg → e.allocates = none)
      (hw : ∀ tm sg, a.tpc a.running = .waiting tm sg → e = .core .resume → a.sys.cs.returns .resume = none) :
      TimedStep a (some e) ⟨sys, a.tpc⟩
  /-- A call begins. -/
  | enters {tm : TimerRef} {p : TimedPc} (hu : a.sys.Calling) (hn : ∀ t, (a.tpc t).timer ≠ some tm)
      (hf : a.sys.Unused tm) (hp : p = .untimed tm ∨ p = .entered tm) : TimedStep a none (a.moved a.sys p)
  /-- `timer_allocate`. -/
  | allocates {tm : TimerRef} {sys : Sys} (hp : a.tpc a.running = .entered tm)
      (hst : a.sys.Step (.call (.timerAllocate tm)) sys) :
      TimedStep a (some (.call (.timerAllocate tm))) (a.moved sys (.prepared tm))
  /-- The timer is set up. -/
  | writes {tm : TimerRef} {op : TimerOperation} {delay tick : Ticks} {sys : Sys}
      (hp : a.tpc a.running = .prepared tm) (hst : a.sys.Step (.call (.write (.timer tm op delay tick))) sys) :
      TimedStep a (some (.call (.write (.timer tm op delay tick)))) (a.moved sys (.prepared tm))
  /-- `timer_add` begins. -/
  | adds {tm : TimerRef} {sys : Sys} (hp : a.tpc a.running = .prepared tm)
      (hst : a.sys.Step (.call (.timerAdd tm)) sys) :
      TimedStep a (some (.call (.timerAdd tm))) (a.moved sys (.armed tm (a.sys.svc.timer tm).signal))
  /-- `signal_wait` blocks. -/
  | blocks {tm : TimerRef} {sg m : Signals} {sys : Sys} (hp : a.tpc a.running = .armed tm sg)
      (hst : a.sys.Step (.core (.call (.signalWait (sg ||| m)))) sys)
      (hr : a.sys.cs.returns (.call (.signalWait (sg ||| m))) = none) :
      TimedStep a (some (.core (.call (.signalWait (sg ||| m))))) (a.moved sys (.waiting tm sg))
  /-- `signal_wait` returns at once. -/
  | passes {tm : TimerRef} {sg m : Signals} {sys : Sys} (hp : a.tpc a.running = .armed tm sg)
      (hst : a.sys.Step (.core (.call (.signalWait (sg ||| m)))) sys)
      (hr : a.sys.cs.returns (.call (.signalWait (sg ||| m))) ≠ none) :
      TimedStep a (some (.core (.call (.signalWait (sg ||| m))))) (a.moved sys (.waited tm sg))
  /-- `signal_wait` returns. -/
  | wakes {tm : TimerRef} {sg : Signals} {sys : Sys} (hp : a.tpc a.running = .waiting tm sg)
      (hst : a.sys.Step (.core .resume) sys) (hr : a.sys.cs.returns .resume ≠ none) :
      TimedStep a (some (.core .resume)) (a.moved sys (.waited tm sg))
  /-- `timer_abort`. -/
  | aborts {tm : TimerRef} {sg : Signals} {sys : Sys} (hp : a.tpc a.running = .waited tm sg)
      (hst : a.sys.Step (.call (.service (.timerAbort tm))) sys) :
      TimedStep a (some (.call (.service (.timerAbort tm)))) (a.moved sys (.aborted tm))
  /-- `timer_free`. -/
  | frees {tm : TimerRef} {p : TimedPc} {sys : Sys} (hp : a.tpc a.running = .aborted tm)
      (hst : a.sys.Step (.call (.timerFree tm)) sys) (hp' : p = .out ∨ p = .entered tm) :
      TimedStep a (some (.call (.timerFree tm))) (a.moved sys p)
  /-- The call returns, with an event of its own. -/
  | exits {tm : TimerRef} {e : SysEvent} {sys : Sys}
      (hp : a.tpc a.running = .untimed tm ∨ a.tpc a.running = .entered tm)
      (hst : a.sys.Step e sys) (hu : ∀ tm, ¬ e.Uses tm) : TimedStep a (some e) (a.moved sys .out)
  /-- The call returns. -/
  | leaves {tm : TimerRef} (hp : a.tpc a.running = .untimed tm ∨ a.tpc a.running = .entered tm) :
      TimedStep a none (a.moved a.sys .out)
  /-- A step above the machine below. -/
  | stays : TimedStep a none a

/-- What holds of the timer of a call. -/
def Sys.At (s : Sys) (t : TaskRef) : TimedPc → Prop
  | .out => True
  | .untimed tm => s.spc t = .user ∧ s.Unused tm
  | .entered tm => s.Idle t ∧ s.Unused tm
  | .prepared tm => s.Idle t ∧ s.Prepared t tm
  | .armed tm sg => (∀ sg', ¬ s.cs.Asleep t sg') ∧ s.Armed t tm sg
  | .waiting tm sg => (s.spc t = .user ∧ ∃ m, s.cs.Asleep t (sg ||| m)) ∧ s.Armed t tm sg
  | .waited tm sg => s.Idle t ∧ s.Armed t tm sg
  | .aborted tm => s.Idle t ∧ s.Prepared t tm

/-- The invariant. -/
structure TimedInv (a : TimedSys) : Prop where
  /-- The machine below is sound. -/
  sound : Sound a.sys
  /-- Only tasks make calls. -/
  alive : ∀ t, (a.tpc t).timer ≠ none → a.sys.cs.life t ≠ .fresh
  /-- Two calls have two timers. -/
  apart : ∀ t u tm, (a.tpc t).timer = some tm → (a.tpc u).timer = some tm → t = u
  /-- The timers. -/
  timers : ∀ t, a.sys.At t (a.tpc t)

section

variable {s s' : Sys} {e : SysEvent} {t u : TaskRef} {tm tm' : TimerRef} {sg : Signals} {p : TimedPc}
  {a a' : TimedSys} {ev : Option SysEvent}

theorem Sys.At.step (ha : s.At t p) (h : Sound s) (hst : s.Step e s') (hu : ∀ tm, p.timer = some tm → ¬ e.Uses tm)
    (hm : t = s.cs.core.running → p.timer ≠ none → ∀ c, e = .call c → ¬ c.Moves)
    (hq : t = s.cs.core.running → p.timer ≠ none → (∀ tm, p ≠ .untimed tm) → e.Still)
    (hw : t = s.cs.core.running → ∀ tm sg, p = .waiting tm sg → e = .core .resume → s.cs.returns .resume = none) :
    s'.At t p := by
  cases p with
  | out => trivial
  | untimed tm =>
    exact ⟨h.user_step hst ha.1 fun ht => hm ht (Option.some_ne_none _), (ha.2.step h hst (hu tm rfl)).1⟩
  | entered tm =>
    have hstill (ht : t = s.cs.core.running) : e.Still := hq ht (Option.some_ne_none _) (by simp)
    exact ⟨ha.1.step h hst hstill, (ha.2.step h hst (hu tm rfl)).1⟩
  | prepared tm =>
    have hstill (ht : t = s.cs.core.running) : e.Still := hq ht (Option.some_ne_none _) (by simp)
    exact ⟨ha.1.step h hst hstill, ha.2.step h hst (hu tm rfl)⟩
  | armed tm sg =>
    have hstill (ht : t = s.cs.core.running) : e.Still := hq ht (Option.some_ne_none _) (by simp)
    exact ⟨h.not_asleep_step hst ha.2.awake ha.1 hstill, ha.2.step h hst (hu tm rfl) hstill⟩
  | waiting tm sg =>
    have hstill (ht : t = s.cs.core.running) : e.Still := hq ht (Option.some_ne_none _) (by simp)
    obtain ⟨⟨huser, m, hasl⟩, harmed⟩ := ha
    refine ⟨⟨h.user_step hst huser fun ht => (hstill ht).call, m, ?_⟩, harmed.step h hst (hu tm rfl) hstill⟩
    have hnone (ht : t = s.cs.core.running) : s.waitsFor e = none := (hstill ht).waitsFor_eq (ht ▸ harmed.awake)
    cases h.signalsChange (h.effect hst) t with
    | keeps x hx hr hw' => exact (hw' _).mpr hasl
    | blocks sg' ht he => cases (hnone ht).symm.trans he
    | takes sg' ht he hz hr hw' =>
      rcases he with he | ⟨rfl, -⟩
      · cases (hnone ht).symm.trans he
      · subst ht
        exact absurd (hw rfl tm sg rfl rfl) (h.returns_of_takes hst hz hr)
    | clears hc x hr hw' => exact (hw' _).mpr hasl
  | waited tm sg =>
    have hstill (ht : t = s.cs.core.running) : e.Still := hq ht (Option.some_ne_none _) (by simp)
    exact ⟨ha.1.step h hst hstill, ha.2.step h hst (hu tm rfl) hstill⟩
  | aborted tm =>
    have hstill (ht : t = s.cs.core.running) : e.Still := hq ht (Option.some_ne_none _) (by simp)
    exact ⟨ha.1.step h hst hstill, ha.2.step h hst (hu tm rfl)⟩

theorem TimedSys.moved_tpc_self (sys : Sys) : (a.moved sys p).tpc a.running = p := Function.update_self ..

theorem TimedSys.moved_tpc_of_ne (sys : Sys) (hu : u ≠ a.running) : (a.moved sys p).tpc u = a.tpc u :=
  Function.update_of_ne hu ..

/-- The running task goes on in its call, with an event that uses no other call's timer. -/
theorem TimedInv.moves {sys : Sys} (h : TimedInv a) (hst : a.sys.Step e sys)
    (ht : p.timer = none ∨ p.timer = (a.tpc a.running).timer)
    (hu : ∀ tm, e.Uses tm → (a.tpc a.running).timer = some tm) (hat : sys.At a.running p) :
    TimedInv (a.moved sys p) := by
  have hother {u : TaskRef} (hne : u ≠ a.running) {tm : TimerRef} (htm : (a.tpc u).timer = some tm) : ¬ e.Uses tm :=
    fun he => hne (h.apart u a.running tm htm (hu tm he))
  have hback {u : TaskRef} {tm : TimerRef} (htm : ((a.moved sys p).tpc u).timer = some tm) :
      (a.tpc u).timer = some tm := by
    by_cases hne : u = a.running
    · subst hne
      rw [TimedSys.moved_tpc_self] at htm
      rcases ht with ht | ht
      · cases ht.symm.trans htm
      · rw [← ht, htm]
    · rwa [TimedSys.moved_tpc_of_ne sys hne] at htm
  refine ⟨h.sound.step hst, fun u hne => ?_, fun t u tm htm hum => h.apart t u tm (hback htm) (hback hum), fun u => ?_⟩
  · obtain ⟨tm, htm⟩ := Option.ne_none_iff_exists'.mp hne
    refine h.sound.initialized_step hst (h.alive u ?_)
    rw [hback htm]
    exact Option.some_ne_none _
  by_cases hne : u = a.running
  · subst hne
    rw [TimedSys.moved_tpc_self]
    exact hat
  · rw [TimedSys.moved_tpc_of_ne sys hne]
    exact (h.timers u).step h.sound hst (fun tm htm => hother hne htm) (fun hr => absurd hr hne)
      (fun hr => absurd hr hne) fun hr => absurd hr hne

/-- The running task is in no call any more. -/
theorem TimedInv.drops (h : TimedInv a) : TimedInv (a.moved a.sys .out) := by
  have hback {u : TaskRef} {tm : TimerRef} (htm : ((a.moved a.sys .out).tpc u).timer = some tm) :
      (a.tpc u).timer = some tm := by
    by_cases hne : u = a.running
    · rw [hne, TimedSys.moved_tpc_self] at htm
      cases htm
    · rwa [TimedSys.moved_tpc_of_ne _ hne] at htm
  refine ⟨h.sound, fun u hne => ?_, fun t u tm ht hu => h.apart t u tm (hback ht) (hback hu), fun u => ?_⟩
  · obtain ⟨tm, htm⟩ := Option.ne_none_iff_exists'.mp hne
    refine h.alive u ?_
    rw [hback htm]
    exact Option.some_ne_none _
  · by_cases hne : u = a.running
    · rw [hne, TimedSys.moved_tpc_self]
      trivial
    · rw [TimedSys.moved_tpc_of_ne _ hne]
      exact h.timers u

/-- The events of a call use its own timer only. -/
theorem SysEvent.uses_eq (he : e = .call (.timerAllocate tm) ∨ e = .call (.timerFree tm) ∨ e = .call (.timerAdd tm) ∨
    e = .call (.service (.timerAbort tm)) ∨ ∃ op delay tick, e = .call (.write (.timer tm op delay tick)))
    (hu : e.Uses tm') : tm = tm' := by
  rcases he with rfl | rfl | rfl | rfl | ⟨op, delay, tick, rfl⟩
  · rcases hu with (hu | ⟨x, hu⟩) | hu | hu | hu | ⟨x, y, z, hu⟩ <;> cases hu
    rfl
  · rcases hu with (hu | ⟨x, hu⟩) | hu | hu | hu | ⟨x, y, z, hu⟩ <;> cases hu
    rfl
  · rcases hu with (hu | ⟨x, hu⟩) | hu | hu | hu | ⟨x, y, z, hu⟩ <;> cases hu
    rfl
  · rcases hu with (hu | ⟨x, hu⟩) | hu | hu | hu | ⟨x, y, z, hu⟩ <;> cases hu
    rfl
  · rcases hu with (hu | ⟨x, hu⟩) | hu | hu | hu | ⟨x, y, z, hu⟩ <;> cases hu
    rfl

theorem SysEvent.not_uses_core {ev : Event} : ¬ (SysEvent.core ev).Uses tm := by
  rintro ((hu | ⟨x, hu⟩) | hu | hu | hu | ⟨x, y, z, hu⟩) <;> cases hu

theorem SysEvent.still_call {c : ServiceCall} (hc : ¬ c.Moves) : (SysEvent.call c).Still := by
  refine ⟨fun c' he => ?_, fun sg he => by cases he⟩
  cases he
  exact hc

/-- A task that makes a call of the services is not in `signal_wait` after it. -/
theorem Sound.not_asleep_call (h : Sound s) {c : ServiceCall} (hst : s.Step (.call c) s') (sg : Signals) :
    ¬ s'.cs.Asleep s.cs.core.running sg := by
  intro hs
  rcases h.asleep_step hst hs with hs | ⟨-, hw⟩
  · exact CoreSys.not_asleep_of_user hst.1.1.2 sg hs
  · cases hw

/-- A call of `signal_wait` leaves the rest of the machine below as it is. -/
theorem Sound.signalWait_step (h : Sound s) (hst : s.Step (.core (.call (.signalWait sg))) s') :
    s'.spc = s.spc ∧ s'.svc = s.svc ∧
    ((s.cs.returns (.call (.signalWait sg)) = none ∧ s'.cs.Asleep s.cs.core.running sg ∧
        (s'.cs.core.task s.cs.core.running).sigRecvd = (s.cs.core.task s.cs.core.running).sigRecvd) ∨
      (s.cs.returns (.call (.signalWait sg)) ≠ none ∧ ∀ sg', ¬ s'.cs.Asleep s.cs.core.running sg')) := by
  obtain ⟨cs, hcs, rfl⟩ := hst.core
  refine ⟨rfl, rfl, ?_⟩
  have hret := h.nested.returns_call sg
  rcases h.nested.signalWait_cases hcs with ⟨hz, hasl, hrecvd⟩ | ⟨hz, hno, -⟩
  · rw [if_pos hz] at hret
    exact .inl ⟨hret, hasl, hrecvd⟩
  · rw [if_neg hz] at hret
    exact .inr ⟨by rw [hret]; exact Option.some_ne_none _, hno⟩

/-- The timer of a call does not depend on the core. -/
theorem Sys.Armed.congr (ha : s.Armed t tm sg) (hspc : s'.spc = s.spc) (hsvc : s'.svc = s.svc) : s'.Armed t tm sg := by
  refine ⟨hsvc ▸ ha.task, hsvc ▸ ha.signal, ha.nonzero, hspc ▸ ha.alone, hspc ▸ ha.adds, ?_, ?_⟩
  · rw [hspc, hsvc]
    exact ha.queued
  · rw [hspc, hsvc]
    exact ha.out

/-- The running task has been initialised. -/
theorem Sound.running_alive (h : Sound s) : s.cs.life s.cs.core.running ≠ .fresh := by
  rw [h.placed.running_scheduled]
  simp

/-- **A step keeps the invariant.** -/
theorem TimedInv.step (h : TimedInv a) (hst : TimedStep a ev a') : TimedInv a' := by
  have hat := h.timers a.running
  cases hst with
  | below hst hu hm hq hn hw =>
    refine ⟨h.sound.step hst, fun t ht => h.sound.initialized_step hst (h.alive t ht), h.apart, fun t => ?_⟩
    refine (h.timers t).step h.sound hst (hu t) (fun ht hp => ?_) (fun ht hp hne => ?_) fun ht tm sg hp => ?_
    · exact hm ((show t = a.running from ht) ▸ hp)
    · exact hq ((show t = a.running from ht) ▸ hp) ((show t = a.running from ht) ▸ hne)
    · exact hw tm sg ((show t = a.running from ht) ▸ hp)
  | @enters tm p hu hn hf hp =>
    have htimer : p.timer = some tm := by rcases hp with rfl | rfl <;> rfl
    have hold {w : TaskRef} (hne : w ≠ a.running) {v : TimerRef} (hw : ((a.moved a.sys p).tpc w).timer = some v) :
        (a.tpc w).timer = some v := by rwa [TimedSys.moved_tpc_of_ne _ hne] at hw
    have hself {v : TimerRef} (hw : ((a.moved a.sys p).tpc a.running).timer = some v) : tm = v := by
      rw [TimedSys.moved_tpc_self, htimer] at hw
      exact Option.some.inj hw
    refine ⟨h.sound, fun t ht => ?_, fun t u v ht hv => ?_, fun t => ?_⟩
    · by_cases htr : t = a.running
      · rw [htr]
        exact h.sound.running_alive
      · rw [TimedSys.moved_tpc_of_ne _ htr] at ht
        exact h.alive t ht
    · by_cases htr : t = a.running
      · by_cases hur : u = a.running
        · rw [htr, hur]
        · subst htr
          exact absurd (hself ht ▸ hold hur hv) (hn u)
      · by_cases hur : u = a.running
        · subst hur
          exact absurd (hself hv ▸ hold htr ht) (hn t)
        · exact h.apart t u v (hold htr ht) (hold hur hv)
    · by_cases htr : t = a.running
      · subst htr
        rw [TimedSys.moved_tpc_self]
        rcases hp with rfl | rfl
        · exact ⟨hu.2, hf⟩
        · exact ⟨hu.idle, hf⟩
      · rw [TimedSys.moved_tpc_of_ne _ htr]
        exact h.timers t
  | @allocates tm sys hp hst =>
    rw [hp] at hat
    refine h.moves hst (.inr (by rw [hp]; rfl)) (fun v hv => ?_) ⟨?_, .of_allocate h.sound hst hat.2⟩
    · rw [hp, SysEvent.uses_eq (.inl rfl) hv]
      rfl
    · exact hat.1.step h.sound hst fun _ => SysEvent.still_call id
  | @writes tm op delay tick sys hp hst =>
    rw [hp] at hat
    refine h.moves hst (.inr (by rw [hp])) (fun v hv => ?_) ⟨?_, hat.2.write hst⟩
    · rw [hp, SysEvent.uses_eq (.inr (.inr (.inr (.inr ⟨_, _, _, rfl⟩)))) hv]
      rfl
    · exact hat.1.step h.sound hst fun _ => SysEvent.still_call id
  | @adds tm sys hp hst =>
    rw [hp] at hat
    refine h.moves hst (.inr (by rw [hp]; rfl)) (fun v hv => ?_) ⟨h.sound.not_asleep_call hst, hat.2.add hst⟩
    rw [hp, SysEvent.uses_eq (.inr (.inr (.inl rfl))) hv]
    rfl
  | @blocks tm sg m sys hp hst hr =>
    rw [hp] at hat
    obtain ⟨hspc, hsvc, ⟨-, hasl, -⟩ | ⟨hne, -⟩⟩ := h.sound.signalWait_step hst
    · refine h.moves hst (.inr (by rw [hp]; rfl)) (fun v hv => absurd hv SysEvent.not_uses_core) ?_
      refine ⟨⟨?_, m, hasl⟩, hat.2.congr hspc hsvc⟩
      rw [hspc]
      exact hst.1.2
    · exact absurd hr hne
  | @passes tm sg m sys hp hst hr =>
    rw [hp] at hat
    obtain ⟨hspc, hsvc, ⟨hnone, -⟩ | ⟨-, hno⟩⟩ := h.sound.signalWait_step hst
    · exact absurd hnone hr
    · refine h.moves hst (.inr (by rw [hp]; rfl)) (fun v hv => absurd hv SysEvent.not_uses_core) ?_
      refine ⟨⟨?_, hno⟩, hat.2.congr hspc hsvc⟩
      rw [hspc]
      exact hst.1.2
  | @wakes tm sg sys hp hst hr =>
    rw [hp] at hat
    obtain ⟨cs, hcs, hsys⟩ := hst.core
    refine h.moves hst (.inr (by rw [hp]; rfl)) (fun v hv => absurd hv SysEvent.not_uses_core) ?_
    refine ⟨⟨?_, fun sg' => ?_⟩, hat.2.congr (by rw [hsys]) (by rw [hsys])⟩
    · rw [hsys]
      exact hat.1.1
    · rw [hsys]
      rcases h.sound.nested.resume_cases hcs with ⟨-, -, -, hno, -⟩ | ⟨hnone, -⟩
      · exact hno sg'
      · exact absurd hnone hr
  | @aborts tm sg sys hp hst =>
    rw [hp] at hat
    refine h.moves hst (.inr (by rw [hp]; rfl)) (fun v hv => ?_) ⟨?_, hat.2.abort h.sound hat.1.user hst⟩
    · rw [hp, SysEvent.uses_eq (.inr (.inr (.inr (.inl rfl)))) hv]
      rfl
    · exact hat.1.step h.sound hst fun _ => SysEvent.still_call id
  | @frees tm p sys hp hst hp' =>
    rw [hp] at hat
    have huses (v : TimerRef) (hv : (SysEvent.call (.timerFree tm)).Uses v) : (a.tpc a.running).timer = some v := by
      rw [hp, SysEvent.uses_eq (.inr (.inl rfl)) hv]
      rfl
    rcases hp' with rfl | rfl
    · exact h.moves hst (.inl rfl) huses trivial
    · refine h.moves hst (.inr (by rw [hp]; rfl)) huses ⟨?_, hat.2.free hst⟩
      exact hat.1.step h.sound hst fun _ => SysEvent.still_call id
  | exits hp hst hu => exact h.moves hst (.inl rfl) (fun v hv => absurd hv (hu v)) trivial
  | leaves hp => exact h.drops
  | stays => exact h

/-! ### The timer is queued as long as the task waits -/

/-- In the step `timer_add` does not find the tick of a call's timer elapsed. -/
def TimedSys.NotElapsed (a : TimedSys) (ev : Option SysEvent) : Prop :=
  ∀ tm sg, ev = some .resume → a.tpc a.running = .armed tm sg →
    a.sys.spc a.running = .timerAddCheck tm false → timerElapsed tm a.sys.svc = false

/-- Where `timer_add` has not found the tick elapsed, the timer is queued from then on until its
signal comes. -/
def TimedSys.Watching (a : TimedSys) : Prop :=
  ∀ t tm sg, a.tpc t = .armed tm sg ∨ a.tpc t = .waiting tm sg → a.sys.Watched t tm sg

theorem Sys.Step.not_clears (hst : s.Step e s') (hq : t = s.cs.core.running → s.Calling → e.allocates = none)
    (hl : s.cs.life t ≠ .fresh) : ¬ s.Clears t e := by
  rintro (⟨ht, hc, ha⟩ | ⟨params, rfl⟩)
  · exact ha (hq ht hc)
  · exact hl hst.1.1.2.2

/-- A poll that fires the timer sends its signal. -/
theorem Sys.Armed.fires (ha : s.Armed t tm sg) (h : Sound s) (hst : s.Step .tim2 s') (hd : tm ∈ s.svc.clocked.due) :
    sg &&& (s'.cs.core.task t).sigRecvd ≠ 0 := by
  have hsend : (t, sg) ∈ s.sends .tim2 := by
    refine List.mem_filterMap.mpr ⟨tm, hd, ?_⟩
    simp only [Services.sends, ha.task, ha.signal, Option.map_some]
  cases h.signalsChange (h.effect hst) t with
  | keeps x hx hr hw =>
    obtain ⟨i, hi⟩ : ∃ i, sg.getLsbD i = true := by
      by_contra hno
      push Not at hno
      refine ha.nonzero (BitVec.eq_of_getLsbD_eq fun i _ => ?_)
      rw [Bool.eq_false_of_not_eq_true (hno i)]
      exact BitVec.getLsbD_zero.symm
    refine and_ne_zero_of_getLsbD hi ?_
    rw [hr, BitVec.getLsbD_or, (hx i).mpr ⟨sg, hsend, hi⟩, Bool.or_true]
  | blocks sg' ht he => cases he
  | takes sg' ht he => rcases he with he | ⟨he, -⟩ <;> cases he
  | clears hc =>
    rcases hc with ⟨-, -, hne⟩ | ⟨params, he⟩
    · exact absurd rfl hne
    · cases he

theorem Sys.Watched.step (hw : s.Watched t tm sg) (ha : s.Armed t tm sg) (h : Sound s) (hst : s.Step e s')
    (hu : ¬ e.Uses tm) (hq : t = s.cs.core.running → e.Still)
    (hr : t = s.cs.core.running → ∀ sg', s.cs.Asleep t sg' → e = .core .resume → s.cs.returns .resume = none)
    (hn : t = s.cs.core.running → s.Calling → e.allocates = none) (hl : s.cs.life t ≠ .fresh)
    (hel : t = s.cs.core.running → e = .resume → s.spc t = .timerAddCheck tm false → timerElapsed tm s.svc = false) :
    s'.Watched t tm sg := by
  intro huser' hout'
  have hch := h.signalsChange (h.effect hst) t
  cases h.timerChange (h.effect hst) hu ha.not_free with
  | keeps hrec hm hadd =>
    by_cases huser : s.spc t = .user
    · have hz := hw huser fun hm' => hout' (hm.mpr hm')
      cases hch with
      | takes sg' ht he hz' hr' hasl =>
        -- the task has not taken its signals
        rcases he with he | ⟨rfl, hs⟩
        · rw [(hq ht).waitsFor_eq (ht ▸ ha.awake)] at he
          cases he
        · subst ht
          exact absurd (hr rfl sg' hs rfl) (h.returns_of_takes hst hz' hr')
      | keeps x hx hr' hasl =>
        rw [hr', BitVec.and_or_distrib_left]
        exact or_ne_zero_of_left hz
      | blocks sg' ht he hz' hr' hasl => rwa [hr']
      | clears hc => exact absurd hc (hst.not_clears hn hl)
    · obtain ⟨d, hd | hd⟩ := hadd t ⟨false, ha.adds.resolve_left huser⟩ <;> cases hd.symm.trans huser'
  | fires he hd hrec hm hp =>
    subst he
    exact ha.fires h hst hd
  | elapsed he hp hle hrec hm hp' =>
    obtain ⟨rfl, rfl⟩ := ha.running_eq (.inl hp)
    rw [hel rfl he hp] at hle
    cases hle
  | inserts he hp hrec hm hp' => exact absurd hm hout'

/-- The running task goes on in its call, with an event that uses no other call's timer. -/
theorem TimedSys.Watching.moves {sys : Sys} (hw : a.Watching) (h : TimedInv a) (hst : a.sys.Step e sys)
    (hu : ∀ tm, e.Uses tm → (a.tpc a.running).timer = some tm)
    (hp : ∀ tm sg, p = .armed tm sg ∨ p = .waiting tm sg → sys.Watched a.running tm sg) : (a.moved sys p).Watching := by
  intro t tm sg ht
  by_cases hne : t = a.running
  · subst hne
    rw [TimedSys.moved_tpc_self] at ht
    exact hp tm sg ht
  · rw [TimedSys.moved_tpc_of_ne _ hne] at ht
    have htimer : (a.tpc t).timer = some tm := by rcases ht with ht | ht <;> rw [ht] <;> rfl
    have harmed : a.sys.Armed t tm sg := by
      have hat := h.timers t
      rcases ht with ht | ht <;> rw [ht] at hat <;> exact hat.2
    refine (hw t tm sg ht).step harmed h.sound hst (fun he => hne (h.apart t a.running tm htimer (hu tm he)))
      (fun hr => absurd hr hne) (fun hr => absurd hr hne) (fun hr => absurd hr hne) (h.alive t ?_)
      fun hr => absurd hr hne
    rw [htimer]
    exact Option.some_ne_none _

/-- The running task moves where no timer is watched. -/
theorem TimedSys.Watching.still (hw : a.Watching) (hp : ∀ tm sg, ¬ (p = .armed tm sg ∨ p = .waiting tm sg)) :
    (a.moved a.sys p).Watching := by
  intro t tm sg ht
  by_cases hne : t = a.running
  · subst hne
    rw [TimedSys.moved_tpc_self] at ht
    exact absurd ht (hp tm sg)
  · rw [TimedSys.moved_tpc_of_ne _ hne] at ht
    exact hw t tm sg ht

/-- **A step keeps watching**, if `timer_add` does not find the tick elapsed. -/
theorem TimedSys.Watching.step (hw : a.Watching) (h : TimedInv a) (hst : TimedStep a ev a') (hel : a.NotElapsed ev) :
    a'.Watching := by
  have hnot {p : TimedPc} {sys : Sys} (hp : ∀ tm sg, p ≠ .armed tm sg ∧ p ≠ .waiting tm sg) (tm : TimerRef)
      (sg : Signals) (hp' : p = .armed tm sg ∨ p = .waiting tm sg) : sys.Watched a.running tm sg :=
    (hp'.elim (hp tm sg).1 (hp tm sg).2).elim
  cases hst with
  | @below e sys hst hu hm hq hn hwait =>
    intro t tm sg ht
    change a.tpc t = _ ∨ a.tpc t = _ at ht
    have htimer : (a.tpc t).timer = some tm := by rcases ht with ht | ht <;> rw [ht] <;> rfl
    have hsome : (a.tpc t).timer ≠ none := by
      rw [htimer]
      exact Option.some_ne_none _
    have hat := h.timers t
    have harmed : a.sys.Armed t tm sg := by rcases ht with ht | ht <;> rw [ht] at hat <;> exact hat.2
    refine (hw t tm sg ht).step harmed h.sound hst (hu t tm htimer) (fun hr => ?_) (fun hr sg' hs he => ?_)
      (fun hr hc => ?_) (h.alive t hsome) fun hr he hp => ?_
    · have hrun : a.running = t := hr.symm
      rw [hrun] at hq
      refine hq hsome fun v => ?_
      rcases ht with ht | ht <;> rw [ht] <;> simp
    · rcases ht with ht | ht
      · rw [ht] at hat
        exact absurd hs (hr ▸ hat.1 sg')
      · exact hwait tm sg ((show t = a.running from hr) ▸ ht) he
    · rcases ht with ht | ht
      · exact hn tm sg ((show t = a.running from hr) ▸ ht)
      · rw [ht] at hat
        obtain ⟨⟨-, m, hasl⟩, -⟩ := hat
        exact absurd hasl (hr ▸ CoreSys.not_asleep_of_user hc.1.2 _)
    · rcases ht with ht | ht
      · exact hel tm sg (congrArg some he) ((show t = a.running from hr) ▸ ht) ((show t = a.running from hr) ▸ hp)
      · rw [ht] at hat
        cases hat.1.1.symm.trans hp
  | @enters tm p hu hn hf hp =>
    refine hw.still fun tm' sg hp' => ?_
    rcases hp with rfl | rfl <;> rcases hp' with hp' | hp' <;> cases hp'
  | @allocates tm sys hp hst =>
    refine hw.moves h hst (fun v hv => ?_) (hnot fun _ _ => by simp)
    rw [hp, SysEvent.uses_eq (.inl rfl) hv]
    rfl
  | @writes tm op delay tick sys hp hst =>
    refine hw.moves h hst (fun v hv => ?_) (hnot fun _ _ => by simp)
    rw [hp, SysEvent.uses_eq (.inr (.inr (.inr (.inr ⟨_, _, _, rfl⟩)))) hv]
    rfl
  | @adds tm sys hp hst =>
    have hat := h.timers a.running
    rw [hp] at hat
    refine hw.moves h hst (fun v hv => ?_) fun tm' sg' _ huser => ?_
    · rw [hp, SysEvent.uses_eq (.inr (.inr (.inl rfl))) hv]
      rfl
    · -- the task is in `timer_add`
      have hx := hst.2
      simp only [Sys.exec, Sys.execCall, Sys.startAdd, bind_eq_ok, pure_eq_ok] at hx
      obtain ⟨svc, hsvc, rfl⟩ := hx
      have hspc : Function.update a.sys.spc a.running (.timerAddCheck tm false) a.running = .timerAddCheck tm false :=
        Function.update_self ..
      cases hspc.symm.trans huser
  | @blocks tm sg m sys hp hst hr =>
    refine hw.moves h hst (fun v hv => absurd hv SysEvent.not_uses_core) fun tm' sg' hp' => ?_
    obtain ⟨hspc, hsvc, ⟨-, -, hrecvd⟩ | ⟨hne, -⟩⟩ := h.sound.signalWait_step hst
    · rcases hp' with hp' | hp' <;> cases hp'
      have hold := hw a.running tm sg (.inl hp)
      unfold Sys.Watched at hold ⊢
      rw [hspc, hsvc, show (sys.cs.core.task a.running).sigRecvd = _ from hrecvd]
      exact hold
    · exact absurd hr hne
  | @passes tm sg m sys hp hst hr =>
    exact hw.moves h hst (fun v hv => absurd hv SysEvent.not_uses_core) (hnot fun _ _ => by simp)
  | @wakes tm sg sys hp hst hr =>
    exact hw.moves h hst (fun v hv => absurd hv SysEvent.not_uses_core) (hnot fun _ _ => by simp)
  | @aborts tm sg sys hp hst =>
    refine hw.moves h hst (fun v hv => ?_) (hnot fun _ _ => by simp)
    rw [hp, SysEvent.uses_eq (.inr (.inr (.inr (.inl rfl)))) hv]
    rfl
  | @frees tm p sys hp hst hp' =>
    refine hw.moves h hst (fun v hv => ?_) (hnot fun _ _ => ?_)
    · rw [hp, SysEvent.uses_eq (.inr (.inl rfl)) hv]
      rfl
    · rcases hp' with rfl | rfl <;> exact by simp
  | exits hp hst hu => exact hw.moves h hst (fun v hv => absurd hv (hu v)) (hnot fun _ _ => by simp)
  | leaves hp => exact hw.still fun _ _ hp' => by rcases hp' with hp' | hp' <;> cases hp'
  | stays => exact hw

/-- **The timer of a task that waits in a call is queued.** -/
theorem TimedInv.waiting_queued (h : TimedInv a) (hw : a.Watching) (ht : (a.tpc t).timer = some tm)
    (hn : a.tpc t ≠ .untimed tm) (hs : (a.sys.cs.core.task t).state = .waiting) : tm ∈ a.sys.svc.timers () := by
  obtain ⟨sg, n, hpc⟩ := h.sound.placed.blocked t hs
  have hasl : a.sys.cs.Asleep t sg := ⟨n, hpc⟩
  have hat := h.timers t
  cases hp : a.tpc t with
  | out =>
    rw [hp] at ht
    cases ht
  | waiting v sg' =>
    rw [hp] at hat ht
    obtain rfl := Option.some.inj ht
    obtain ⟨⟨huser, m, hasl'⟩, harmed⟩ := hat
    obtain rfl := hasl'.unique hasl
    by_contra hq
    have hz := hw t v sg' (.inr hp) huser hq
    have hsleeps := h.sound.attentive.sleeps t hs
    rw [h.sound.attentive.waits t _ n hpc, BitVec.and_comm, BitVec.and_or_distrib_left,
      BitVec.and_comm _ sg'] at hsleeps
    exact or_ne_zero_of_left hz hsleeps
  | armed v sg' =>
    rw [hp] at hat
    exact absurd hasl (hat.1 sg)
  | untimed v =>
    rw [hp] at ht hn
    exact absurd (congrArg TimedPc.untimed (Option.some.inj ht)) hn
  | entered v =>
    rw [hp] at hat
    exact absurd hasl (hat.1.asleep sg)
  | prepared v =>
    rw [hp] at hat
    exact absurd hasl (hat.1.asleep sg)
  | waited v sg' =>
    rw [hp] at hat
    exact absurd hasl (hat.1.asleep sg)
  | aborted v =>
    rw [hp] at hat
    exact absurd hasl (hat.1.asleep sg)

end

end Martos
