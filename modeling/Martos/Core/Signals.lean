import Martos.Core.Placement

/-!
# Signals are not lost

A sender and a waiter share `sig_recvd`, `sig_wait`, the state and the lists, and the
waiter gives up its critical section between deciding to sleep and being switched out.
`Attentive` is what makes this safe: a task in state `TASK_WAITING` has no signal
pending that it waits for, and in the blocking window `sig_wait` still holds what
`signal_wait` was called with.

So nothing is lost (`no_lost_wakeup`): a bit once sent stays set until a call of
`signal_wait` of that task returns it. Only `signal_allocate`, which clears the bit it
hands out, and `task_init` are outside of this.
-/

namespace Martos

open Transition

/-- Waiting tasks are waiting for something that has not come. -/
structure Attentive (s : CoreSys) : Prop where
  /-- In the window `sig_wait` holds the signals waited for. -/
  waits : ∀ t sg n, (s.pc t).Waits sg n → (s.core.task t).sigWait = sg
  /-- A waiting task has none of them pending. -/
  sleeps : ∀ t, (s.core.task t).state = .waiting → (s.core.task t).sigWait &&& (s.core.task t).sigRecvd = 0

section

variable {s s' : CoreSys} {e : Event}

/-- A step that leaves the points of the code, and of the waiting tasks all but signals they
do not wait for. -/
theorem Attentive.of_core (h : Attentive s) {c : Core} {phase : Phase} {depth : TaskRef → ℕ}
    {life : TaskRef → Life} (hw : ∀ t sg n, (s.pc t).Waits sg n → (c.task t).sigWait = (s.core.task t).sigWait)
    (hs : ∀ t, (c.task t).state = .waiting → (s.core.task t).state = .waiting ∧
      ((s.core.task t).sigWait &&& (s.core.task t).sigRecvd = 0 →
        (c.task t).sigWait &&& (c.task t).sigRecvd = 0)) :
    Attentive { s with core := c, phase := phase, depth := depth, life := life } where
  waits t sg n hp := (hw t sg n hp).trans (h.waits t sg n hp)
  sleeps t ht := (hs t ht).2 (h.sleeps t (hs t ht).1)

/-- The running task leaves the window, or moves outside of it. -/
theorem Attentive.goto (h : Attentive s) {p : Pc} (hp : ∀ sg n, ¬ p.Waits sg n) : Attentive (s.goto p) where
  waits t sg n hw := by
    by_cases ht : t = s.core.running
    · subst ht
      rw [CoreSys.goto_pc_self] at hw
      exact absurd hw (hp sg n)
    · rw [CoreSys.goto_pc_of_ne p ht] at hw
      exact h.waits t sg n hw
  sleeps := h.sleeps

/-- A write that leaves the signal fields and states. -/
theorem Attentive.of_same (h : Attentive s) {c : Core} {phase : Phase} {depth : TaskRef → ℕ}
    {life : TaskRef → Life} (hw : ∀ t, (c.task t).sigWait = (s.core.task t).sigWait)
    (hr : ∀ t, (c.task t).sigRecvd = (s.core.task t).sigRecvd)
    (hs : ∀ t, (c.task t).state = .waiting → (s.core.task t).state = .waiting) :
    Attentive { s with core := c, phase := phase, depth := depth, life := life } :=
  h.of_core (fun t _ _ _ => hw t) fun t ht => ⟨hs t ht, fun hz => by rw [hw, hr]; exact hz⟩

/-- The running task queues itself, having found none of the signals. -/
theorem Attentive.queued (h : Attentive s) {sg : Signals} (n : ℤ)
    (hw : (s.core.task s.core.running).sigWait = sg)
    (hz : sg &&& (s.core.task s.core.running).sigRecvd = 0) :
    Attentive { s.goto (.signalWaitReschedule sg n) with core := s.core.queued } where
  waits t sg' n' hp := by
    by_cases ht : t = s.core.running
    · subst ht
      have hself : (s.core.queued.task s.core.running).sigWait = sg := by simp [Core.queued, hw]
      rcases (CoreSys.goto_pc_self (s := s) _) ▸ hp with hp | hp
      · exact hself.trans (Pc.signalWaitReschedule.inj hp).1
      · cases hp
    · have hof : s.core.queued.task t = s.core.task t := by simp [Core.queued, ht]
      rw [show ({ s.goto _ with core := s.core.queued } : CoreSys).core.task t = _ from hof]
      exact h.waits t sg' n' ((CoreSys.goto_pc_of_ne (s := s) _ ht) ▸ hp)
  sleeps t hst := by
    by_cases ht : t = s.core.running
    · subst ht
      simpa [Core.queued, hw] using hz
    · have hof : s.core.queued.task t = s.core.task t := by simp [Core.queued, ht]
      rw [show ({ s.goto _ with core := s.core.queued } : CoreSys).core.task t = _ from hof] at hst ⊢
      exact h.sleeps t hst

/-- The running task, which is not in the window, notes what it will wait for. -/
theorem Attentive.awaits (h : Attentive s) (hpl : Placed s) (hpc : s.pc s.core.running = .user) (sg : Signals) :
    Attentive { s with core := s.core.awaits sg } := by
  refine h.of_core (fun t sg' n hw => ?_) fun t ht => ?_
  · have htr : t ≠ s.core.running := by
      rintro rfl
      rcases hpc ▸ hw with hw | hw <;> cases hw
    simp [Core.awaits, htr]
  · have htr : t ≠ s.core.running := by
      rintro rfl
      exact absurd ((hpl.state_user hpc).symm.trans (by simpa [Core.awaits] using ht)) (by decide)
    simp only [Core.awaits, Core.modTask_of_ne htr] at ht ⊢
    exact ⟨ht, id⟩

/-- The running task returns from `signal_wait`. -/
theorem Attentive.consumed (h : Attentive s) (rcvd : Signals) (n : ℤ) :
    Attentive { s.goto .user with core := s.core.consumed rcvd n } := by
  refine (h.goto (by rintro sg n (hw | hw) <;> cases hw)).of_core
    (fun t _ _ _ => Core.apply_update Task.sigWait (by rfl) t) fun t ht => ?_
  refine ⟨(Core.apply_update Task.state (by rfl) t).symm.trans ht, fun hz => ?_⟩
  rw [CoreSys.goto_core] at hz
  by_cases htr : t = s.core.running
  · subst htr
    simp only [Core.consumed, Core.modTask_self]
    rw [← BitVec.and_assoc, hz]
    exact BitVec.zero_and
  · simpa [Core.consumed, htr] using hz

/-- A task comes in: the one that went out is in a state it was in before, or ready. -/
theorem Attentive.switchedIn (h : Attentive s) {d : Core} (t : TaskRef)
    (hw : ∀ u, (d.task u).sigWait = (s.core.task u).sigWait)
    (hr : ∀ u, (d.task u).sigRecvd = (s.core.task u).sigRecvd)
    (hs : ∀ u, (d.task u).state = .waiting → (s.core.task u).state = .waiting) :
    Attentive { s with core := d.switchedIn t, phase := .switched } := by
  refine h.of_same (fun u => (Core.apply_update Task.sigWait (by rfl) u).trans (hw u))
    (fun u => (Core.apply_update Task.sigRecvd (by rfl) u).trans (hr u)) fun u hu => hs u ?_
  by_cases hut : u = t
  · subst hut
    simp [Core.switchedIn] at hu
  · simpa [Core.switchedIn, hut] using hu

/-- **A step keeps the waiting tasks attentive.** -/
theorem Attentive.step (h : Attentive s) (hn : Nested s) (hpl : Placed s) (hst : s.Step e s') : Attentive s' := by
  -- the running task, at a point outside the window, does not count
  have hrun (hpc : s.pc s.core.running = .user) (sg n) : ¬ (s.pc s.core.running).Waits sg n := by
    rw [hpc]
    rintro (hw | hw) <;> cases hw
  cases hn.effect hst with
  | disable hu => exact h.of_same (fun _ => rfl) (fun _ => rfl) fun _ => id
  | enable hu hd => exact h.of_same (fun _ => rfl) (fun _ => rfl) fun _ => id
  | @taskInit t params context hu hf =>
    have hpc : s.pc t = .user := hpl.sched.idle t (by rw [hf]; decide)
    refine h.of_core (fun u sg n hw => ?_) fun u hu => ?_
    · have hut : u ≠ t := by
        rintro rfl
        rcases hpc ▸ hw with hw | hw <;> cases hw
      simp [Core.prepared, hut]
    · have hut : u ≠ t := by
        rintro rfl
        simp [Core.prepared] at hu
      simp only [Core.prepared, Core.modTask_of_ne hut] at hu ⊢
      exact ⟨hu, id⟩
  | taskSchedule hu hi =>
    exact (h.goto (by rintro sg n (hw | hw) <;> cases hw)).of_same (fun _ => rfl) (fun _ => rfl) fun _ => id
  | taskSetPrio hu =>
    exact h.of_same (Core.apply_update Task.sigWait (by rfl)) (Core.apply_update Task.sigRecvd (by rfl))
      fun t ht => (Core.apply_update Task.state (by rfl) t).symm.trans ht
  | signalAllocate target hu =>
    refine h.of_core (fun t sg n hw => ?_) fun t ht => ?_
    · have htr : t ≠ s.core.running := fun he => hrun hu.2 sg n (he ▸ hw)
      simp [Core.allocated, htr]
    · have htr : t ≠ s.core.running := by
        rintro rfl
        exact absurd ((hpl.state_user hu.2).symm.trans (by simpa [Core.allocated] using ht)) (by decide)
      simp only [Core.allocated, Core.modTask_of_ne htr] at ht ⊢
      exact ⟨ht, id⟩
  | signalFree hu hs =>
    exact h.of_same (Core.apply_update Task.sigWait (by rfl)) (Core.apply_update Task.sigRecvd (by rfl))
      fun t ht => (Core.apply_update Task.state (by rfl) t).symm.trans ht
  | @posted _ t sg hw he =>
    refine h.of_core (fun u _ _ _ => Core.apply_update Task.sigWait (by rfl) u) fun u hu => ?_
    by_cases hut : u = t
    · subst hut
      simp only [Core.posted, Core.modTask_self] at hu ⊢
      -- the task waits for none of the signals, or it would have been woken
      have hz : sg &&& (s.core.task u).sigWait = 0 := by
        by_contra hne
        exact hw ⟨hu, hne⟩
      refine ⟨hu, fun hsl => ?_⟩
      rw [BitVec.and_or_distrib_left, hsl, BitVec.and_comm, hz]
      rfl
    · simp only [Core.posted, Core.modTask_of_ne hut] at hu ⊢
      exact ⟨hu, id⟩
  | @woken _ t sg hw hm he =>
    refine h.of_core (fun u _ _ _ => Core.apply_update Task.sigWait (by rfl) u) fun u hu => ?_
    have hut : u ≠ t := by
      rintro rfl
      simp [Core.woken] at hu
    simp only [Core.woken, Core.modTask_of_ne hut] at hu ⊢
    exact ⟨hu, id⟩
  | @waitBlocks sg hu _ hz hl =>
    refine (h.awaits hpl hu.2 sg).queued _ (by simp [Core.awaits]) ?_
    rw [show ({ s with core := s.core.awaits sg } : CoreSys).core.running = s.core.running from rfl,
      Core.awaits_sigRecvd]
    exact hz
  | @waitReturns sg hu _ hz => exact (h.awaits hpl hu.2 sg).consumed _ _
  | @inserts t ht hpc hl =>
    refine (h.goto (by rintro sg n (hw | hw) <;> cases hw)).of_same
      (Core.apply_update Task.sigWait (by rfl)) (Core.apply_update Task.sigRecvd (by rfl)) fun u hu => ?_
    by_cases hut : u = t
    · subst hut
      simp [Core.inserted] at hu
    · simpa [Core.inserted, hut] using hu
  | requests ht hpc =>
    exact (h.goto (by rintro sg n (hw | hw) <;> cases hw)).of_same (fun _ => rfl) (fun _ => rfl) fun _ => id
  | @yields sg n ht hpc =>
    refine ⟨fun t sg' n' hw => ?_, h.sleeps⟩
    by_cases htr : t = s.core.running
    · subst htr
      rcases (CoreSys.goto_pc_self (s := s) _) ▸ hw with hw | hw
      · cases hw
      · obtain ⟨rfl, rfl⟩ := Pc.signalWaitDisable.inj hw
        exact h.waits _ _ _ (.inl hpc)
    · exact h.waits t sg' n' ((CoreSys.goto_pc_of_ne (s := s) _ htr) ▸ hw)
  | blocksAgain ht hpc hz hl => exact h.queued _ (h.waits _ _ _ (.inr hpc)) hz
  | returns ht hpc hz => exact h.consumed _ _
  | sysTick hm => exact h.of_same (fun _ => rfl) (fun _ => rfl) fun _ => id
  | pendSV hp hm => exact h.of_same (fun _ => rfl) (fun _ => rfl) fun _ => id
  | @preempts frame t hp hs hl hh =>
    refine h.switchedIn (d := s.core.requeued frame) t (Core.apply_update Task.sigWait (by rfl))
      (Core.apply_update Task.sigRecvd (by rfl)) fun u hu => ?_
    by_cases hur : u = s.core.running
    · subst hur
      simp [Core.requeued, Core.switchedOut] at hu
    · simpa [Core.requeued, Core.switchedOut, hur] using hu
  | @leaves frame t st hp hs hor hh =>
    exact h.switchedIn (d := s.core.switchedOut frame st) t (Core.apply_update Task.sigWait (by rfl))
      (Core.apply_update Task.sigRecvd (by rfl)) fun u hu =>
        (Core.apply_update Task.state hs.symm u).symm.trans hu
  | pendSVExit hp => exact h.of_same (fun _ => rfl) (fun _ => rfl) fun _ => id

theorem Attentive.start {cfg : Config} {c : Core} (h : martosPre cfg = .ok c) :
    Attentive (CoreSys.start c) := by
  obtain ⟨context, rfl⟩ := Core.exists_of_martosPre h
  refine ⟨fun t sg n hw => ?_, fun t ht => ?_⟩
  · rcases hw with hw | hw <;> cases hw
  · by_cases hti : t = initTask
    · subst hti; simp [CoreSys.start, Core.booted] at ht
    · simp [CoreSys.start, Core.booted, resetCore, hti] at ht

/-! ### What `signal_wait` returns -/

/-- The signals which the call of `signal_wait` that runs in this step waits for. -/
def CoreSys.waitsFor (s : CoreSys) : Event → Option Signals
  | .call (.signalWait signals) => some signals
  | .resume =>
    match s.pc s.core.running with
    | .signalWaitDisable signals _ => some signals
    | _ => none
  | _ => none

theorem Nested.returns_call (h : Nested s) (sg : Signals) : s.returns (.call (.signalWait sg)) =
    if sg &&& (s.core.task s.core.running).sigRecvd = 0 then none
    else some (sg &&& (s.core.task s.core.running).sigRecvd) := by
  unfold CoreSys.returns
  dsimp only
  rw [Core.signalWait_eq h.balanced]
  by_cases hz : sg &&& (s.core.task s.core.running).sigRecvd = 0
  · rw [if_pos hz, if_pos hz]
    by_cases hl : s.core.OnList s.core.running
    · rw [if_pos hl]
    · rw [if_neg hl]
  · rw [if_neg hz, if_neg hz]

theorem Nested.returns_resume (h : Nested s) {sg : Signals} {n : ℤ}
    (hpc : s.pc s.core.running = .signalWaitDisable sg n) : s.returns .resume =
    if sg &&& (s.core.task s.core.running).sigRecvd = 0 then none
    else some (sg &&& (s.core.task s.core.running).sigRecvd) := by
  unfold CoreSys.returns
  simp only [hpc]
  rw [Core.signalWaitResume_eq (h.waits_nonneg sg n hpc)]
  by_cases hz : sg &&& (s.core.task s.core.running).sigRecvd = 0
  · rw [if_pos hz, if_pos hz]
    by_cases hl : s.core.OnList s.core.running
    · rw [if_pos hl]
    · rw [if_neg hl]
  · rw [if_neg hz, if_neg hz]

/-- What `signal_wait` returns is what it waited for and had come, and not empty. -/
theorem Nested.returns_eq (h : Nested s) {rcvd : Signals} (hr : s.returns e = some rcvd) :
    ∃ sg, s.waitsFor e = some sg ∧ rcvd ≠ 0 ∧ rcvd = sg &&& (s.core.task s.core.running).sigRecvd := by
  have hcase {sg : Signals} (hs : (if sg &&& (s.core.task s.core.running).sigRecvd = 0 then none
      else some (sg &&& (s.core.task s.core.running).sigRecvd)) = some rcvd) :
      rcvd ≠ 0 ∧ rcvd = sg &&& (s.core.task s.core.running).sigRecvd := by
    by_cases hz : sg &&& (s.core.task s.core.running).sigRecvd = 0
    · rw [if_pos hz] at hs; cases hs
    · rw [if_neg hz] at hs
      obtain rfl := Option.some.inj hs
      exact ⟨hz, rfl⟩
  cases e with
  | call k =>
    cases k with
    | signalWait sg =>
      rw [h.returns_call] at hr
      exact ⟨sg, rfl, hcase hr⟩
    | _ => cases hr
  | resume =>
    cases hpc : s.pc s.core.running with
    | signalWaitDisable sg n =>
      rw [h.returns_resume hpc] at hr
      exact ⟨sg, by simp [CoreSys.waitsFor, hpc], hcase hr⟩
    | _ => simp [CoreSys.returns, hpc] at hr
  | _ => cases hr

/-- The event is a call of `signal_send(t, sg)`. -/
def Event.Sends (t : TaskRef) (sg : Signals) (e : Event) : Prop :=
  e = .call (.signalSend t sg) ∨ e = .isrSignalSend t sg

/-- The event is a call of `signal_allocate` by `t`, or a `task_init` of it: these clear
pending signals. -/
def CoreSys.Clears (s : CoreSys) (t : TaskRef) (e : Event) : Prop :=
  (∃ n, e = .call (.signalAllocate n) ∧ t = s.core.running) ∨ ∃ params, e = .call (.taskInit t params)

/-- What a step does to the pending signals of a task. -/
theorem Nested.sigRecvd_cases (h : Nested s) (hst : s.Step e s') (t : TaskRef) : s.Clears t e ∨
    (∃ sg, e.Sends t sg ∧ (s'.core.task t).sigRecvd = (s.core.task t).sigRecvd ||| sg) ∨
    (∃ rcvd, t = s.core.running ∧ s.returns e = some rcvd ∧
      (s'.core.task t).sigRecvd = (s.core.task t).sigRecvd &&& ~~~rcvd) ∨
    ((t = s.core.running → s.returns e = none) ∧
      (s'.core.task t).sigRecvd = (s.core.task t).sigRecvd) := by
  -- the signals another task takes
  have hother {c : Core} {rcvd : Signals} {n : ℤ} (htr : t ≠ c.running) :
      ((c.consumed rcvd n).task t).sigRecvd = (c.task t).sigRecvd := by simp [Core.consumed, htr]
  have hawaits (sg : Signals) : ((s.core.awaits sg).task t).sigRecvd = (s.core.task t).sigRecvd :=
    Core.apply_update Task.sigRecvd (by rfl) t
  cases h.effect hst with
  | @taskInit u params context hu hf =>
    by_cases htu : t = u
    · subst htu; exact .inl (.inr ⟨params, rfl⟩)
    · exact .inr (.inr (.inr ⟨fun _ => rfl, by simp [Core.prepared, htu]⟩))
  | @signalAllocate n target hu =>
    by_cases htr : t = s.core.running
    · exact .inl (.inl ⟨n, rfl, htr⟩)
    · exact .inr (.inr (.inr ⟨fun _ => rfl, by simp [Core.allocated, htr]⟩))
  | @posted _ u sg hw he =>
    by_cases htu : t = u
    · subst htu
      exact .inr (.inl ⟨sg, he.imp And.left And.left, by simp [Core.posted]⟩)
    · refine .inr (.inr (.inr ⟨fun _ => ?_, by simp [Core.posted, htu]⟩))
      rcases he with ⟨rfl, -⟩ | ⟨rfl, -⟩ <;> rfl
  | @woken _ u sg hw hm he =>
    by_cases htu : t = u
    · subst htu
      exact .inr (.inl ⟨sg, he.imp And.left And.left, by simp [Core.woken]⟩)
    · refine .inr (.inr (.inr ⟨fun _ => ?_, by simp [Core.woken, htu]⟩))
      rcases he with ⟨rfl, -⟩ | ⟨rfl, -⟩ <;> rfl
  | @waitBlocks sg hu _ hz hl =>
    refine .inr (.inr (.inr ⟨fun _ => by rw [h.returns_call, if_pos hz], ?_⟩))
    exact (Core.apply_update Task.sigRecvd (by rfl) t).trans (hawaits sg)
  | @waitReturns sg hu _ hz =>
    by_cases htr : t = s.core.running
    · subst htr
      refine .inr (.inr (.inl ⟨_, rfl, by rw [h.returns_call, if_neg hz], ?_⟩))
      simp [Core.consumed, Core.awaits]
    · exact .inr (.inr (.inr ⟨fun he => absurd he htr, (hother (c := s.core.awaits sg) htr).trans (hawaits sg)⟩))
  | blocksAgain ht hpc hz hl =>
    refine .inr (.inr (.inr ⟨fun _ => by rw [h.returns_resume hpc, if_pos hz], ?_⟩))
    exact Core.apply_update Task.sigRecvd (by rfl) t
  | returns ht hpc hz =>
    by_cases htr : t = s.core.running
    · subst htr
      refine .inr (.inr (.inl ⟨_, rfl, by rw [h.returns_resume hpc, if_neg hz], ?_⟩))
      simp [Core.consumed]
    · exact .inr (.inr (.inr ⟨fun he => absurd he htr, hother htr⟩))
  | inserts ht hpc hl =>
    exact .inr (.inr (.inr ⟨fun _ => by simp [CoreSys.returns, hpc], Core.apply_update Task.sigRecvd (by rfl) t⟩))
  | requests ht hpc => exact .inr (.inr (.inr ⟨fun _ => by simp [CoreSys.returns, hpc], rfl⟩))
  | yields ht hpc => exact .inr (.inr (.inr ⟨fun _ => by simp [CoreSys.returns, hpc], rfl⟩))
  | taskSetPrio hu => exact .inr (.inr (.inr ⟨fun _ => rfl, Core.apply_update Task.sigRecvd (by rfl) t⟩))
  | signalFree hu hs => exact .inr (.inr (.inr ⟨fun _ => rfl, Core.apply_update Task.sigRecvd (by rfl) t⟩))
  | @preempts frame u hp hs hl hh =>
    have hout : ((s.core.requeued frame).task t).sigRecvd = (s.core.task t).sigRecvd :=
      Core.apply_update Task.sigRecvd (by rfl) t
    exact .inr (.inr (.inr ⟨fun _ => rfl, (Core.apply_update Task.sigRecvd (by rfl) t).trans hout⟩))
  | @leaves frame u st hp hs hor hh =>
    have hout : ((s.core.switchedOut frame st).task t).sigRecvd = (s.core.task t).sigRecvd :=
      Core.apply_update Task.sigRecvd (by rfl) t
    exact .inr (.inr (.inr ⟨fun _ => rfl, (Core.apply_update Task.sigRecvd (by rfl) t).trans hout⟩))
  | _ => exact .inr (.inr (.inr ⟨fun _ => rfl, rfl⟩))

/-- A pending signal stays pending until `signal_wait` returns it. -/
theorem Nested.pending_step (h : Nested s) (hst : s.Step e s') {t : TaskRef} (hc : ¬ s.Clears t e) {i : ℕ}
    (hi : (s.core.task t).sigRecvd.getLsbD i = true) : (s'.core.task t).sigRecvd.getLsbD i = true ∨
    ∃ rcvd, t = s.core.running ∧ s.returns e = some rcvd ∧ rcvd.getLsbD i = true := by
  rcases h.sigRecvd_cases hst t with hcl | ⟨sg, -, heq⟩ | ⟨rcvd, htr, hret, heq⟩ | ⟨-, heq⟩
  · exact absurd hcl hc
  · exact .inl (by rw [heq, BitVec.getLsbD_or, hi, Bool.true_or])
  · cases hb : rcvd.getLsbD i with
    | true => exact .inr ⟨rcvd, htr, hret, hb⟩
    | false =>
      refine .inl ?_
      rw [heq, BitVec.getLsbD_and, hi, BitVec.getLsbD_not, hb, decide_eq_true (BitVec.lt_of_getLsbD hi)]
      rfl
  · exact .inl (by rw [heq]; exact hi)

/-- After a call of `signal_send` its signals are pending. -/
theorem Nested.sends_pending (h : Nested s) (hst : s.Step e s') {t : TaskRef} {sg : Signals}
    (hs : e.Sends t sg) {i : ℕ} (hi : sg.getLsbD i = true) :
    (s'.core.task t).sigRecvd.getLsbD i = true := by
  have heff := h.effect hst
  have hev {t' sg'} (he : e.Sends t' sg') : t' = t ∧ sg' = sg := by
    rcases hs with rfl | rfl <;> rcases he with he | he <;> cases he <;> exact ⟨rfl, rfl⟩
  clear hst
  cases heff with
  | posted hw he =>
    obtain ⟨rfl, rfl⟩ := hev (he.imp And.left And.left)
    simp only [Core.posted, Core.modTask_self, BitVec.getLsbD_or, hi, Bool.or_true]
  | woken hw hm he =>
    obtain ⟨rfl, rfl⟩ := hev (he.imp And.left And.left)
    simp only [Core.woken, Core.modTask_self, BitVec.getLsbD_or, hi, Bool.or_true]
  | _ => rcases hs with hs | hs <;> cases hs

/-- Along a run a pending signal stays pending, or some call of `signal_wait` returns it. -/
theorem pending_or_returned {s₀ : CoreSys} {tr : List (Move CoreSys Event)} {t : TaskRef} {i : ℕ} (h : Nested s₀)
    (hcl : ∀ m ∈ tr, ¬ m.pre.Clears t m.event) (hi : (s₀.core.task t).sigRecvd.getLsbD i = true)
    (hr : Run CoreSys.Step s₀ tr s) : (s.core.task t).sigRecvd.getLsbD i = true ∨
    ∃ m ∈ tr, ∃ rcvd, t = m.pre.core.running ∧ m.pre.returns m.event = some rcvd ∧
      rcvd.getLsbD i = true := by
  induction hr with
  | nil => exact .inl hi
  | @snoc tr s s' e hr hst ih =>
    have hn : Nested s := hr.invariant h fun _ _ _ hn hst => hn.step hst
    rcases ih fun m hm => hcl m (List.mem_append_left _ hm) with hp | ⟨m, hm, hres⟩
    · refine (hn.pending_step hst (hcl ⟨s, e, s'⟩ (by simp)) hp).imp id ?_
      rintro ⟨rcvd, hres⟩
      exact ⟨⟨s, e, s'⟩, by simp, rcvd, hres⟩
    · exact .inr ⟨m, List.mem_append_left _ hm, hres⟩

/-- **No lost wake-up, and exact consumption.** In every run:

* a task in state `TASK_WAITING` has no signal pending that it waits for;
* when `signal_wait(sg)` returns, its result is not empty, is `sg & sig_recvd` at that
  moment, and exactly those bits are cleared;
* a bit sent to a task is, at the end of the run, still pending, or was contained in the
  result of a call of `signal_wait` by that task which returned after the send. Left out
  are a `signal_allocate` by the task itself, or its `task_init`, after the send. -/
theorem no_lost_wakeup {cfg : Config} {c : Core} {tr : List (Move CoreSys Event)}
    (h : martosPre cfg = .ok c) (hr : Run CoreSys.Step (CoreSys.start c) tr s) :
    (∀ t, (s.core.task t).state = .waiting →
      (s.core.task t).sigWait &&& (s.core.task t).sigRecvd = 0) ∧
    (∀ m ∈ tr, ∀ rcvd, m.pre.returns m.event = some rcvd → ∃ sg, m.pre.waitsFor m.event = some sg ∧
      rcvd ≠ 0 ∧ rcvd = sg &&& (m.pre.core.task m.pre.core.running).sigRecvd ∧
      (m.post.core.task m.pre.core.running).sigRecvd =
        (m.pre.core.task m.pre.core.running).sigRecvd &&& ~~~rcvd) ∧
    (∀ tr₁ m tr₂, tr = tr₁ ++ m :: tr₂ → ∀ t sg, m.event.Sends t sg →
      (∀ m' ∈ tr₂, ¬ m'.pre.Clears t m'.event) → ∀ i, sg.getLsbD i = true →
      (s.core.task t).sigRecvd.getLsbD i = true ∨
      ∃ m' ∈ tr₂, ∃ rcvd, t = m'.pre.core.running ∧ m'.pre.returns m'.event = some rcvd ∧
        rcvd.getLsbD i = true) := by
  refine ⟨?_, ?_, ?_⟩
  · have hinv : Nested s ∧ Placed s ∧ Attentive s := hr.invariant
      (P := fun s => Nested s ∧ Placed s ∧ Attentive s) ⟨.start h, .start h, .start h⟩
      fun s e s' ⟨hn, hp, ha⟩ hst => ⟨hn.step hst, hp.step hn hst, ha.step hn hp hst⟩
    exact hinv.2.2.sleeps
  · intro m hm rcvd hret
    obtain ⟨hn, hst⟩ := hr.forall_move (Nested.start h) (fun _ _ _ hn hst => hn.step hst) m hm
    obtain ⟨sg, hsg, hne, heq⟩ := hn.returns_eq hret
    refine ⟨sg, hsg, hne, heq, ?_⟩
    rcases hn.sigRecvd_cases hst m.pre.core.running with hcl | ⟨sg', hs, -⟩ | ⟨r, -, hret', heq'⟩ | ⟨hnone, -⟩
    · rcases hcl with ⟨n, he, -⟩ | ⟨params, he⟩ <;> rw [he] at hret <;> cases hret
    · rcases hs with he | he <;> rw [he] at hret <;> cases hret
    · rw [heq', Option.some.inj (hret.symm.trans hret')]
    · rw [hnone rfl] at hret
      cases hret
  · intro tr₁ m tr₂ htr t sg hs hcl i hi
    obtain ⟨hr₁, hm, hr₂⟩ := hr.split htr
    have hn := Nested.run h hr₁
    exact pending_or_returned (hn.step hm) hcl (hn.sends_pending hm hs hi) hr₂

/-- The theorem at a run in which a task blocks with another signal pending. -/
theorem no_lost_wakeup_waiting : ∃ c tr s, martosPre CoreSys.exampleConfig = .ok c ∧
    Run CoreSys.Step (CoreSys.start c) tr s ∧ (s.core.task 1).state = .waiting ∧
    (s.core.task 1).sigRecvd = 4#16 ∧ (s.core.task 1).sigWait &&& (s.core.task 1).sigRecvd = 0 := by
  obtain ⟨c, tr, s, hc, hr, hp⟩ := CoreSys.exists_run_of_replayed CoreSys.exampleConfig (fun _ _ => True)
    (CoreSys.oneTask ++ [.isrSignalSend 1 6, .call (.signalWait 3), .call (.signalWait 3), .resume, .pendSV,
      .pendSVSwitch 0x20001200, .pendSVExit])
    (p := fun s => decide ((s.core.task 1).state = .waiting ∧ (s.core.task 1).sigRecvd = 4#16))
    (by decide +kernel)
  obtain ⟨hst, hrecvd⟩ := of_decide_eq_true hp
  have hr := hr.mono fun _ _ _ => And.right
  exact ⟨c, tr, s, hc, hr, hst, hrecvd, (no_lost_wakeup hc hr).1 1 hst⟩

end

end Martos
