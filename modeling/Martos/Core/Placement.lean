import Martos.Core.Nesting

/-!
# Where every task is

`Placed` ties together what `list_unlink`, the switch and `signal_send` each rely on
without checking: the state of a task says which list it is on, only `running` is in
state `TASK_RUNNING`, and `running` is in another state only inside the blocking window
of `signal_wait`, where a switch is due.

The window is what makes this delicate. A task in it has queued itself, but runs on
until PendSV is taken: it can be signalled, and moved to `ready`, while it is still
`running`. It leaves the window only after having been switched out and in, since PendSV
is pending there and taken before its next instruction.
-/

namespace Martos

open Transition Checked

/-- The list a task in this state is on. -/
def TaskState.list : TaskState → Option TaskList
  | .ready => some .ready
  | .waiting => some .waiting
  | _ => none

namespace Core

variable {c : Core} {t : TaskRef}

/-- The list task `t` should be on. -/
def place (c : Core) (t : TaskRef) : Option TaskList := (c.task t).state.list

theorem place_ready : c.place t = some .ready ↔ (c.task t).state = .ready := by
  unfold place
  cases (c.task t).state <;> simp [TaskState.list]

theorem place_waiting : c.place t = some .waiting ↔ (c.task t).state = .waiting := by
  unfold place
  cases (c.task t).state <;> simp [TaskState.list]

/-- Writing a state moves the task. -/
theorem place_update {k : Task} {f : TaskRef → Task} (u : TaskRef) :
    (Function.update f t k u).state.list =
      Function.update (fun u => (f u).state.list) t k.state.list u := by
  by_cases hu : u = t
  · subst hu; simp
  · simp [hu]

/-- `signal_send` moves a waiting task to `ready`, in its state and on the lists. -/
theorem located_woken (hl : c.lists.Located c.place) (t : TaskRef) (sg : Signals) :
    (c.woken t sg).lists.Located (c.woken t sg).place := by
  have hloc : ((c.lists.listUnlink t).listEnqueue c.prio .ready t).Located
      (Function.update (Function.update c.place t none) t (some .ready)) :=
    (hl.listUnlink t).listEnqueue (Function.update_self t none c.place)
  rw [Function.update_idem] at hloc
  exact hloc.congr fun u => place_update u

/-- What `signal_send` does where the lists agree with the states. -/
theorem signalSend_cases (hb : c.Balanced) (hl : c.lists.Located c.place) (t : TaskRef) (sg : Signals) :
    (¬ c.Wakes t sg ∧ signalSend t sg c = .ok (c.posted t sg)) ∨
    (c.Wakes t sg ∧ t ∈ c.lists .waiting ∧ signalSend t sg c = .ok (c.woken t sg)) := by
  rw [signalSend_eq hb]
  by_cases hw : c.Wakes t sg
  · have hmem : t ∈ c.lists .waiting := (hl.mem .waiting t).mpr (place_waiting.mpr hw.1)
    have hoff := hl.separate.off_listUnlink t
    rw [if_pos hw, if_pos (show c.OnList t from .inr hmem), if_neg (not_or.mpr ⟨hoff _, hoff _⟩)]
    exact .inr ⟨hw, hmem, rfl⟩
  · rw [if_neg hw]
    exact .inl ⟨hw, rfl⟩

end Core

/-- Which tasks are being scheduled, and by whom. -/
structure Scheduling (pc : TaskRef → Pc) (life : TaskRef → Life) : Prop where
  /-- A task that is not scheduled has not run. -/
  idle : ∀ t, life t ≠ .scheduled → pc t = .user
  /-- `task_schedule` works on a task whose scheduling has begun. -/
  begun : ∀ t u, pc t = .taskSchedule u → life u = .scheduling
  /-- No two tasks schedule the same one. -/
  unique : ∀ t t' u, pc t = .taskSchedule u → pc t' = .taskSchedule u → t = t'

namespace Scheduling

variable {pc : TaskRef → Pc} {life : TaskRef → Life} {r t : TaskRef} {p : Pc}

/-- A scheduled task moves to a point which is not in `task_schedule`. -/
theorem update (h : Scheduling pc life) (hr : life r = .scheduled) (hp : ∀ u, p ≠ .taskSchedule u) :
    Scheduling (Function.update pc r p) life := by
  have hne {t u} (hpc : Function.update pc r p t = .taskSchedule u) : pc t = .taskSchedule u := by
    by_cases ht : t = r
    · subst ht
      rw [Function.update_self] at hpc
      exact absurd hpc (hp u)
    · rwa [Function.update_of_ne ht] at hpc
  exact {
    idle := fun t ht => by
      have htr : t ≠ r := fun he => ht (by rw [he, hr])
      rw [Function.update_of_ne htr]
      exact h.idle t ht
    begun := fun t u hu => h.begun t u (hne hu)
    unique := fun t t' u hu hu' => h.unique t t' u (hne hu) (hne hu') }

/-- A fresh task is initialised. -/
theorem init (h : Scheduling pc life) (hf : life t = .fresh) :
    Scheduling pc (Function.update life t .initialized) where
  idle u hu := by
    by_cases hut : u = t
    · subst hut; exact h.idle u (by rw [hf]; decide)
    · rw [Function.update_of_ne hut] at hu
      exact h.idle u hu
  begun u v hv := by
    have hsv := h.begun u v hv
    have hvt : v ≠ t := fun he => absurd (hsv.symm.trans (he ▸ hf)) (by decide)
    rw [Function.update_of_ne hvt, hsv]
  unique := h.unique

/-- A scheduled task calls `task_schedule` on an initialised one. -/
theorem start (h : Scheduling pc life) (hr : life r = .scheduled) (hi : life t = .initialized) :
    Scheduling (Function.update pc r (.taskSchedule t)) (Function.update life t .scheduling) := by
  have hrt : r ≠ t := fun he => absurd (hr.symm.trans (he ▸ hi)) (by decide)
  -- nobody was scheduling `t` before
  have hnot (v) : pc v ≠ .taskSchedule t := fun hv => absurd (hi.symm.trans (h.begun v t hv)) (by decide)
  have hcases {v u} (hv : Function.update pc r (.taskSchedule t) v = .taskSchedule u) :
      (v = r ∧ u = t) ∨ (pc v = .taskSchedule u ∧ u ≠ t) := by
    by_cases hvr : v = r
    · subst hvr
      rw [Function.update_self] at hv
      exact .inl ⟨rfl, (Pc.taskSchedule.inj hv).symm⟩
    · rw [Function.update_of_ne hvr] at hv
      exact .inr ⟨hv, fun he => hnot v (he ▸ hv)⟩
  exact {
    idle := fun u hu => by
      have hur : u ≠ r := by
        rintro rfl
        rw [Function.update_of_ne hrt] at hu
        exact hu hr
      rw [Function.update_of_ne hur]
      by_cases hut : u = t
      · subst hut; exact h.idle u (by rw [hi]; decide)
      · rw [Function.update_of_ne hut] at hu
        exact h.idle u hu
    begun := fun v u hv => by
      rcases hcases hv with ⟨-, rfl⟩ | ⟨hv, hut⟩
      · rw [Function.update_self]
      · rw [Function.update_of_ne hut]
        exact h.begun v u hv
    unique := fun v v' u hv hv' => by
      rcases hcases hv with ⟨hvr, hut⟩ | ⟨hv, hut⟩ <;> rcases hcases hv' with ⟨hvr', hut'⟩ | ⟨hv', hut'⟩
      · rw [hvr, hvr']
      · exact absurd hut hut'
      · exact absurd hut' hut
      · exact h.unique v v' u hv hv' }

/-- `task_schedule` has inserted its task. -/
theorem finish (h : Scheduling pc life) (hr : life r = .scheduled) (hpc : pc r = .taskSchedule t)
    (hp : ∀ u, p ≠ .taskSchedule u) :
    Scheduling (Function.update pc r p) (Function.update life t .scheduled) := by
  have hu := h.update hr hp
  -- it was the only one at work on this task
  have hnot (v) : Function.update pc r p v ≠ .taskSchedule t := by
    intro hv
    by_cases hvr : v = r
    · subst hvr
      rw [Function.update_self] at hv
      exact hp t hv
    · rw [Function.update_of_ne hvr] at hv
      exact hvr (h.unique v r t hv hpc)
  exact {
    idle := fun v hv => by
      have hvt : v ≠ t := by
        rintro rfl
        exact hv (Function.update_self ..)
      rw [Function.update_of_ne hvt] at hv
      exact hu.idle v hv
    begun := fun v u hv => by
      have hut : u ≠ t := fun he => hnot v (he ▸ hv)
      rw [Function.update_of_ne hut]
      exact hu.begun v u hv
    unique := hu.unique }

end Scheduling

/-- Every task is where its state says. -/
structure Placed (s : CoreSys) : Prop where
  /-- The lists agree with the states. -/
  located : s.core.lists.Located s.core.place
  /-- Only `running` is in state `TASK_RUNNING`. -/
  single : ∀ t, (s.core.task t).state = .running → t = s.core.running
  /-- `running` is in another state only in the blocking window, before a switch. -/
  window : (s.core.task s.core.running).state ≠ .running → s.phase ≠ .switched ∧
    (∃ sg n, (s.pc s.core.running).Waits sg n) ∧
    ∀ sg n, s.pc s.core.running = .signalWaitDisable sg n → s.phase = .thread → s.core.pendSV = true
  /-- A task in state `TASK_WAITING` is in the blocking window. -/
  blocked : ∀ t, (s.core.task t).state = .waiting → ∃ sg n, (s.pc t).Waits sg n
  /-- The states of the scheduled tasks. -/
  scheduled : ∀ t, s.life t = .scheduled ↔
    (s.core.task t).state = .running ∨ (s.core.task t).state = .ready ∨ (s.core.task t).state = .waiting
  /-- The state of a task that is initialised and not scheduled yet. -/
  begun : ∀ t, s.life t = .initialized ∨ s.life t = .scheduling → (s.core.task t).state = .initialized
  /-- The scheduling of the others. -/
  sched : Scheduling s.pc s.life

section

variable {s s' : CoreSys} {e : Event}

theorem Placed.onList_iff (h : Placed s) (t : TaskRef) :
    s.core.OnList t ↔ (s.core.task t).state = .ready ∨ (s.core.task t).state = .waiting := by
  rw [Core.OnList, h.located.mem, h.located.mem, Core.place_ready, Core.place_waiting]

/-- In its own code, and at any point outside the window, the running task is in state
`TASK_RUNNING`. -/
theorem Placed.state_running (h : Placed s) (hw : ∀ sg n, ¬ (s.pc s.core.running).Waits sg n) :
    (s.core.task s.core.running).state = .running := by
  by_contra hs
  obtain ⟨-, ⟨sg, n, hsn⟩, -⟩ := h.window hs
  exact hw sg n hsn

theorem Placed.state_user (h : Placed s) (hpc : s.pc s.core.running = .user) :
    (s.core.task s.core.running).state = .running := by
  refine h.state_running ?_
  rintro sg n (hw | hw) <;> exact absurd (hpc.symm.trans hw) (by simp)

/-- A task that leaves the window is in state `TASK_RUNNING`: as long as it is not, PendSV
is pending, and taken first. -/
theorem Placed.state_resumed (h : Placed s) (hn : Nested s) {sg : Signals} {n : ℤ} (ht : s.Thread)
    (hpc : s.pc s.core.running = .signalWaitDisable sg n) :
    (s.core.task s.core.running).state = .running := by
  by_contra hs
  obtain ⟨-, -, hp⟩ := h.window hs
  exact ht.2 ⟨hp sg n hpc ht.1, hn.unmasked (.inr hpc)⟩

theorem Placed.running_scheduled (h : Placed s) : s.life s.core.running = .scheduled := by
  by_cases hs : (s.core.task s.core.running).state = .running
  · exact (h.scheduled _).mpr (.inl hs)
  · by_contra hl
    obtain ⟨-, ⟨sg, n, hw⟩, -⟩ := h.window hs
    rcases hw with hw | hw <;> exact absurd ((h.sched.idle _ hl).symm.trans hw) (by simp)

/-! ### One step -/

/-- A step that writes neither states nor lists. -/
theorem Placed.of_core (h : Placed s) {c : Core} {depth : TaskRef → ℕ} (hr : c.running = s.core.running)
    (hl : c.lists = s.core.lists) (hs : ∀ t, (c.task t).state = (s.core.task t).state)
    (hp : s.core.pendSV = true → c.pendSV = true) : Placed { s with core := c, depth := depth } where
  located := by
    rw [show ({ s with core := c, depth := depth } : CoreSys).core.lists = s.core.lists from hl]
    exact h.located.congr fun t => by rw [Core.place, Core.place, hs]
  single t ht := by
    rw [hs] at ht
    exact (h.single t ht).trans hr.symm
  window hne := by
    rw [hr, hs] at hne
    obtain ⟨hph, hw, hdis⟩ := h.window hne
    rw [hr]
    exact ⟨hph, hw, fun sg n hpc hth => hp (hdis sg n hpc hth)⟩
  blocked t ht := h.blocked t ((hs t).symm.trans ht)
  scheduled t := by
    rw [hs]
    exact h.scheduled t
  begun t ht := (hs t).trans (h.begun t ht)
  sched := h.sched

/-- The running task, in state `TASK_RUNNING`, moves to a point of its code, which is not in
`task_schedule`. -/
theorem Placed.goto (h : Placed s) (hrun : (s.core.task s.core.running).state = .running) {p : Pc}
    (hp : ∀ u, p ≠ .taskSchedule u) : Placed (s.goto p) where
  located := h.located
  single := h.single
  window hne := absurd hrun hne
  blocked t ht := by
    have hne : t ≠ s.core.running := by
      rintro rfl
      exact absurd (hrun.symm.trans ht) (by decide)
    rw [CoreSys.goto_pc_of_ne p hne]
    exact h.blocked t ht
  scheduled := h.scheduled
  begun := h.begun
  sched := h.sched.update h.running_scheduled hp

/-- The running task queues itself in `signal_wait`. -/
theorem Placed.queued (h : Placed s) (hrun : (s.core.task s.core.running).state = .running)
    (hph : s.phase = .thread) (sg : Signals) (n : ℤ) :
    Placed { s.goto (.signalWaitReschedule sg n) with core := s.core.queued } := by
  have hg := h.goto hrun (p := .signalWaitReschedule sg n) (by simp)
  have hself : (s.core.queued.task s.core.running).state = .waiting := by simp [Core.queued]
  have hof (t) (ht : t ≠ s.core.running) : s.core.queued.task t = s.core.task t := by simp [Core.queued, ht]
  have hnone : s.core.place s.core.running = none := by simp [Core.place, hrun, TaskState.list]
  exact {
    located := (h.located.listAddTail hnone).congr fun t => Core.place_update t
    single := fun t ht => by
      by_cases htr : t = s.core.running
      · exact htr
      · rw [show ({ s.goto _ with core := s.core.queued } : CoreSys).core.task t = _ from hof t htr] at ht
        exact h.single t ht
    window := fun _ => by
      refine ⟨by simp [CoreSys.goto, hph], ⟨sg, n, .inl (CoreSys.goto_pc_self (s := s) _)⟩, fun sg' n' hpc => ?_⟩
      exact absurd ((CoreSys.goto_pc_self (s := s) _).symm.trans hpc) (by simp)
    blocked := fun t ht => by
      by_cases htr : t = s.core.running
      · subst htr; exact ⟨sg, n, .inl (CoreSys.goto_pc_self _)⟩
      · exact hg.blocked t (by rw [← ht]; exact congrArg Task.state (hof t htr).symm)
    scheduled := fun t => by
      by_cases htr : t = s.core.running
      · subst htr
        exact iff_of_true h.running_scheduled (.inr (.inr hself))
      · rw [show ({ s.goto _ with core := s.core.queued } : CoreSys).core.task t = _ from hof t htr]
        exact h.scheduled t
    begun := fun t ht => by
      have hne : t ≠ s.core.running := by
        rintro rfl
        rcases ht with ht | ht <;> exact absurd (h.running_scheduled.symm.trans ht) (by decide)
      rw [show ({ s.goto _ with core := s.core.queued } : CoreSys).core.task t = _ from hof t hne]
      exact h.begun t ht
    sched := hg.sched }

/-- The running task, in the blocking window, requests the switch. -/
theorem Placed.yields (h : Placed s) (sg : Signals) (n : ℤ) :
    Placed { s.goto (.signalWaitDisable sg n) with core := s.core.reschedule } where
  located := h.located
  single := h.single
  window hne := by
    obtain ⟨hph, -, -⟩ := h.window hne
    exact ⟨hph, ⟨sg, n, .inr (CoreSys.goto_pc_self (s := s) _)⟩, fun _ _ _ _ => rfl⟩
  blocked t ht := by
    by_cases htr : t = s.core.running
    · subst htr; exact ⟨sg, n, .inr (CoreSys.goto_pc_self _)⟩
    · obtain ⟨sg', n', hw⟩ := h.blocked t ht
      exact ⟨sg', n', by rw [← CoreSys.goto_pc_of_ne (.signalWaitDisable sg n) htr] at hw; exact hw⟩
  scheduled := h.scheduled
  begun := h.begun
  sched := h.sched.update h.running_scheduled (by simp)

/-- `signal_send` moves a waiting task to `ready`. -/
theorem Placed.woken (h : Placed s) {t : TaskRef} {sg : Signals} (hw : s.core.Wakes t sg) :
    Placed { s with core := s.core.woken t sg } := by
  have hself : ((s.core.woken t sg).task t).state = .ready := by simp [Core.woken]
  have hof (u) (hu : u ≠ t) : (s.core.woken t sg).task u = s.core.task u := by simp [Core.woken, hu]
  exact {
    located := Core.located_woken h.located t sg
    single := fun u hu => by
      by_cases hut : u = t
      · subst hut; exact absurd (hself.symm.trans hu) (by decide)
      · exact h.single u (by rw [← hof u hut]; exact hu)
    window := fun hne => by
      have hrun : (s.core.task s.core.running).state ≠ .running := by
        by_cases hrt : s.core.running = t
        · rw [hrt, hw.1]; decide
        · rw [← hof _ hrt]; exact hne
      obtain ⟨hph, hwin, hdis⟩ := h.window hrun
      exact ⟨hph, hwin, fun sg' n hpc hth => by simp [Core.woken, hdis sg' n hpc hth]⟩
    blocked := fun u hu => by
      by_cases hut : u = t
      · subst hut; exact h.blocked u hw.1
      · exact h.blocked u (by rw [← hof u hut]; exact hu)
    scheduled := fun u => by
      by_cases hut : u = t
      · subst hut
        exact iff_of_true ((h.scheduled u).mpr (.inr (.inr hw.1))) (.inr (.inl hself))
      · rw [show ({ s with core := s.core.woken t sg } : CoreSys).core.task u = _ from hof u hut]
        exact h.scheduled u
    begun := fun u hu => by
      have hut : u ≠ t := by
        rintro rfl
        exact absurd ((h.begun u hu).symm.trans hw.1) (by decide)
      rw [show ({ s with core := s.core.woken t sg } : CoreSys).core.task u = _ from hof u hut]
      exact h.begun u hu
    sched := h.sched }

/-- `task_init` fills in a fresh structure. -/
theorem Placed.prepared (h : Placed s) {t : TaskRef} (hf : s.life t = .fresh) (params : TaskParams)
    (context : TaskContext) :
    Placed { s with core := s.core.prepared t params context
                    life := Function.update s.life t .initialized } := by
  have hself : ((s.core.prepared t params context).task t).state = .initialized := by simp [Core.prepared]
  have hof (u) (hu : u ≠ t) : (s.core.prepared t params context).task u = s.core.task u := by
    simp [Core.prepared, hu]
  have hrt : s.core.running ≠ t := fun he => absurd (he ▸ h.running_scheduled) (by rw [hf]; decide)
  have hst : (s.core.task t).state ≠ .running ∧ (s.core.task t).state ≠ .ready ∧
      (s.core.task t).state ≠ .waiting := by
    have := mt (h.scheduled t).mpr (by rw [hf]; decide)
    push Not at this
    exact this
  exact {
    located := h.located.congr fun u => by
      by_cases hut : u = t
      · subst hut
        have hn : s.core.place u = none := by
          unfold Core.place TaskState.list
          cases hs : (s.core.task u).state <;> simp_all
        rw [hn, Core.place, hself]
        rfl
      · rw [Core.place, Core.place, hof u hut]
    single := fun u hu => by
      by_cases hut : u = t
      · subst hut; exact absurd (hself.symm.trans hu) (by decide)
      · exact h.single u (by rw [← hof u hut]; exact hu)
    window := fun hne => h.window (by rw [← hof _ hrt]; exact hne)
    blocked := fun u hu => by
      by_cases hut : u = t
      · subst hut; exact absurd (hself.symm.trans hu) (by decide)
      · exact h.blocked u (by rw [← hof u hut]; exact hu)
    scheduled := fun u => by
      by_cases hut : u = t
      · subst hut; simp [hself]
      · simp only [Function.update_of_ne hut, hof u hut]
        exact h.scheduled u
    begun := fun u hu => by
      by_cases hut : u = t
      · subst hut; exact hself
      · simp only [Function.update_of_ne hut, hof u hut] at hu ⊢
        exact h.begun u hu
    sched := h.sched.init hf }

/-- `task_schedule` inserts its task into `ready`. -/
theorem Placed.inserted (h : Placed s) {t : TaskRef} (hpc : s.pc s.core.running = .taskSchedule t) :
    Placed { s.goto .taskScheduleReschedule with
             core := s.core.inserted t, life := Function.update s.life t .scheduled } := by
  have hself : ((s.core.inserted t).task t).state = .ready := by simp [Core.inserted]
  have hof (u) (hu : u ≠ t) : (s.core.inserted t).task u = s.core.task u := by simp [Core.inserted, hu]
  have hst : (s.core.task t).state = .initialized := h.begun t (.inr (h.sched.begun _ t hpc))
  have hrun : (s.core.task s.core.running).state = .running := by
    refine h.state_running ?_
    rintro sg n (hw | hw) <;> exact absurd (hpc.symm.trans hw) (by simp)
  have hrt : s.core.running ≠ t := fun he => absurd (hrun.symm.trans (he ▸ hst)) (by decide)
  have hg := h.goto hrun (p := .taskScheduleReschedule) (by simp)
  exact {
    located := (h.located.listEnqueue (by simp [Core.place, hst, TaskState.list])).congr
      fun u => Core.place_update u
    single := fun u hu => by
      by_cases hut : u = t
      · subst hut; exact absurd (hself.symm.trans hu) (by decide)
      · exact h.single u (by rw [← hof u hut]; exact hu)
    window := fun hne => absurd ((congrArg Task.state (hof _ hrt)).trans hrun) hne
    blocked := fun u hu => by
      by_cases hut : u = t
      · subst hut; exact absurd (hself.symm.trans hu) (by decide)
      · exact hg.blocked u (by rw [← hu]; exact congrArg Task.state (hof u hut).symm)
    scheduled := fun u => by
      by_cases hut : u = t
      · subst hut; exact iff_of_true (Function.update_self ..) (.inr (.inl hself))
      · simp only [Function.update_of_ne hut, hof u hut]
        exact h.scheduled u
    begun := fun u hu => by
      by_cases hut : u = t
      · subst hut; simp at hu
      · simp only [Function.update_of_ne hut, hof u hut] at hu ⊢
        exact h.begun u hu
    sched := h.sched.finish h.running_scheduled hpc (by simp) }

/-- `task_schedule` begins with an initialised task. -/
theorem Placed.begins (h : Placed s) {t : TaskRef} (hpc : s.pc s.core.running = .user)
    (hi : s.life t = .initialized) :
    Placed { s.goto (.taskSchedule t) with life := Function.update s.life t .scheduling } where
  located := h.located
  single := h.single
  window hne := absurd (h.state_user hpc) hne
  blocked u hu := by
    have hur : u ≠ s.core.running := by
      rintro rfl
      exact absurd ((h.state_user hpc).symm.trans hu) (by decide)
    obtain ⟨sg, n, hw⟩ := h.blocked u hu
    exact ⟨sg, n, by rw [← CoreSys.goto_pc_of_ne (.taskSchedule t) hur] at hw; exact hw⟩
  scheduled u := by
    by_cases hut : u = t
    · subst hut
      have hst := h.begun u (.inl hi)
      simp [CoreSys.goto, hst]
    · simp only [Function.update_of_ne hut]
      exact h.scheduled u
  begun u hu := by
    by_cases hut : u = t
    · subst hut; exact h.begun u (.inl hi)
    · simp only [Function.update_of_ne hut] at hu
      exact h.begun u hu
  sched := h.sched.start h.running_scheduled hi

/-- A task comes in, after the running one has been put where its state says, in a state
other than `TASK_RUNNING`. -/
theorem Placed.switchedIn (h : Placed s) {d : Core} {t : TaskRef} (hl : d.lists.Located d.place)
    (hs : ∀ u ≠ s.core.running, (d.task u).state = (s.core.task u).state)
    (hr : (d.task s.core.running).state = .ready ∨
      ((d.task s.core.running).state = .waiting ∧ (s.core.task s.core.running).state = .waiting))
    (hh : (d.lists .ready).head? = some t) :
    Placed { s with core := d.switchedIn t, phase := .switched } := by
  have hself : ((d.switchedIn t).task t).state = .running := by simp [Core.switchedIn]
  have hof (u) (hu : u ≠ t) : (d.switchedIn t).task u = d.task u := by simp [Core.switchedIn, hu]
  have hready : (d.task t).state = .ready :=
    Core.place_ready.mp ((hl.mem _ _).mp (List.mem_of_head? hh))
  have hsched (u) : s.life u = .scheduled ↔
      (d.task u).state = .running ∨ (d.task u).state = .ready ∨ (d.task u).state = .waiting := by
    by_cases hu : u = s.core.running
    · subst hu
      exact iff_of_true h.running_scheduled (.inr (hr.imp id And.left))
    · rw [hs u hu]; exact h.scheduled u
  have hnone (u) : (d.task u).state ≠ .running := by
    intro hrun
    by_cases hu : u = s.core.running
    · subst hu
      rcases hr with hr | ⟨hr, -⟩ <;> exact absurd (hrun.symm.trans hr) (by decide)
    · exact hu (h.single u ((hs u hu).symm.trans hrun))
  exact {
    located := (hl.listRemHead hh).congr fun u => Core.place_update u
    single := fun u hu => by
      by_contra hut
      exact hnone u ((congrArg Task.state (hof u hut)).symm.trans hu)
    window := fun hne => absurd hself hne
    blocked := fun u hu => by
      have hut : u ≠ t := by
        rintro rfl
        exact absurd (hself.symm.trans hu) (by decide)
      have hw : (d.task u).state = .waiting := (congrArg Task.state (hof u hut)).symm.trans hu
      by_cases hur : u = s.core.running
      · subst hur
        rcases hr with hr | ⟨-, hr⟩
        · exact absurd (hr.symm.trans hw) (by decide)
        · exact h.blocked _ hr
      · exact h.blocked u ((hs u hur).symm.trans hw)
    scheduled := fun u => by
      by_cases hut : u = t
      · subst hut
        exact iff_of_true ((hsched u).mpr (.inr (.inl hready))) (.inl hself)
      · rw [show ({ s with core := d.switchedIn t, phase := .switched } : CoreSys).core.task u = _
          from hof u hut]
        exact hsched u
    begun := fun u hu => by
      have hns : s.life u ≠ .scheduled := by
        rcases hu with hu | hu <;> rw [show s.life u = _ from hu] <;> decide
      have hut : u ≠ t := fun he => hns ((hsched u).mpr (.inr (.inl (he ▸ hready))))
      have hur : u ≠ s.core.running := fun he => hns (he ▸ h.running_scheduled)
      rw [show ({ s with core := d.switchedIn t, phase := .switched } : CoreSys).core.task u = _
        from hof u hut, hs u hur]
      exact h.begun u hu
    sched := h.sched }

/-- **A step keeps every task in its place.** -/
theorem Placed.step (h : Placed s) (hn : Nested s) (hst : s.Step e s') : Placed s' := by
  cases hn.effect hst with
  | disable hu => exact h.of_core rfl rfl (fun _ => rfl) id
  | enable hu hd => exact h.of_core rfl rfl (fun _ => rfl) id
  | taskInit context hu hf => exact h.prepared hf _ context
  | taskSchedule hu hi => exact h.begins hu.2 hi
  | taskSetPrio hu =>
    exact h.of_core rfl rfl (Core.apply_update Task.state (by rfl)) fun hp => by simp [Core.repriced, hp]
  | signalAllocate target hu => exact h.of_core rfl rfl (Core.apply_update Task.state (by rfl)) id
  | signalFree hu hs => exact h.of_core rfl rfl (Core.apply_update Task.state (by rfl)) id
  | posted hw he => exact h.of_core rfl rfl (Core.apply_update Task.state (by rfl)) id
  | woken hw hm he => exact h.woken hw
  | @waitBlocks sg hu _ hz hl =>
    have ha : Placed { s with core := s.core.awaits sg } :=
      h.of_core rfl rfl (Core.apply_update Task.state (by rfl)) id
    exact ha.queued (ha.state_user hu.2) hu.1.1 sg _
  | @waitReturns sg hu _ hz =>
    have hg := h.goto (h.state_user hu.2) (p := .user) (by simp)
    have ha : Placed { s.goto .user with core := s.core.awaits sg } :=
      hg.of_core rfl rfl (Core.apply_update Task.state (by rfl)) id
    exact ha.of_core rfl rfl (Core.apply_update Task.state (by rfl)) id
  | inserts ht hpc hl => exact h.inserted hpc
  | requests ht hpc =>
    have hrun : (s.core.task s.core.running).state = .running := by
      refine h.state_running ?_
      rintro sg n (hw | hw) <;> exact absurd (hpc.symm.trans hw) (by simp)
    exact (h.goto hrun (p := .user) (by simp)).of_core rfl rfl (fun _ => rfl) fun _ => rfl
  | yields ht hpc => exact h.yields _ _
  | blocksAgain ht hpc hz hl => exact h.queued (h.state_resumed hn ht hpc) ht.1 _ _
  | returns ht hpc hz =>
    have hg := h.goto (h.state_resumed hn ht hpc) (p := .user) (by simp)
    exact hg.of_core rfl rfl (Core.apply_update Task.state (by rfl)) id
  | sysTick hm => exact h.of_core rfl rfl (fun _ => rfl) fun hp => by simp [Core.ticked, hp]
  | pendSV hp hm =>
    exact { h with
      window := fun hne => by
        obtain ⟨-, hw, -⟩ := h.window hne
        exact ⟨by simp, hw, fun _ _ _ hth => by simp at hth⟩ }
  | preempts hp hs hl hh =>
    have hnone : s.core.place s.core.running = none := by simp [Core.place, hs, TaskState.list]
    refine h.switchedIn ((h.located.listEnqueue hnone).congr fun u => Core.place_update u) ?_ ?_ hh
    · intro u hu
      simp [Core.requeued, Core.switchedOut, hu]
    · exact .inl (by simp [Core.requeued, Core.switchedOut])
  | @leaves frame t st hp hs hor hh =>
    have hsame (u) : ((s.core.switchedOut frame st).task u).state = (s.core.task u).state :=
      Core.apply_update Task.state hs.symm u
    refine h.switchedIn (h.located.congr fun u => congrArg TaskState.list (hsame u)) (fun u _ => hsame u) ?_ hh
    rw [hsame, hs]
    rcases hor with rfl | rfl
    · exact .inl rfl
    · exact .inr ⟨rfl, rfl⟩
  | pendSVExit hp =>
    exact { h with
      window := fun hne => absurd hp (h.window hne).1 }

/-- The machine starts with every task in its place. -/
theorem Placed.start {cfg : Config} {c : Core} (h : martosPre cfg = .ok c) : Placed (CoreSys.start c) := by
  obtain ⟨context, rfl⟩ := Core.exists_of_martosPre h
  have hself : ((Core.booted cfg context).task initTask).state = .running := by simp [Core.booted]
  have hof (t) (ht : t ≠ initTask) : ((Core.booted cfg context).task t).state = .invalid := by
    simp [Core.booted, resetCore, ht]
  have hlists (l) : (Core.booted cfg context).lists l = [] := rfl
  exact {
    located := {
      nodup := fun l => by simp [CoreSys.start, hlists]
      mem := fun l t => by
        by_cases ht : t = initTask
        · subst ht; simp [CoreSys.start, hlists, Core.place, hself, TaskState.list]
        · simp [CoreSys.start, hlists, Core.place, hof t ht, TaskState.list] }
    single := fun t ht => by
      by_contra hti
      exact absurd ((hof t hti).symm.trans ht) (by decide)
    window := fun hne => absurd hself hne
    blocked := fun t ht => by
      by_cases hti : t = initTask
      · subst hti; exact absurd (hself.symm.trans ht) (by decide)
      · exact absurd ((hof t hti).symm.trans ht) (by decide)
    scheduled := fun t => by
      by_cases hti : t = initTask
      · subst hti; simp [CoreSys.start, hself]
      · simp [CoreSys.start, hti, hof t hti]
    begun := fun t ht => by
      by_cases hti : t = initTask <;> simp [CoreSys.start, hti] at ht
    sched := {
      idle := fun _ _ => rfl
      begun := fun t u hu => by cases hu
      unique := fun t t' u hu => by cases hu } }

end

/-! ### No list is misused -/

/-- The list functions were used outside their contract. -/
def Fault.OfLists (f : Fault) : Prop := f = .relink ∨ f = .stale

instance (f : Fault) : Decidable f.OfLists := inferInstanceAs (Decidable (_ ∨ _))

section

theorem taskcontextVerify_avoids {p : Fault → Prop} (hp : ¬ p .taskcontextVerify) (k : TaskContext) :
    Avoids p (taskcontextVerify k) :=
  .bind (.assertThat fun _ => hp) fun _ _ => .assertThat fun _ => hp

theorem taskVerify_avoids {c : Core} (hb : c.Balanced) (t : TaskRef) : Avoids Fault.OfLists (taskVerify t c) := by
  rw [Core.taskVerify_eq hb]
  refine .bind (.bind (taskcontextVerify_avoids (by decide) _) fun _ _ => ?_) fun _ _ => .pure _
  refine .bind (.assertThat fun _ => by decide) fun _ _ => ?_
  exact .bind (.assertThat fun _ => by decide) fun _ _ => .assertThat fun _ => by decide

theorem taskInit_avoids (t : TaskRef) (params : TaskParams) (c : Core) :
    Avoids Fault.OfLists (taskInit t params c) := by
  refine .bind ?_ fun _ _ => .pure _
  refine .bind (.assertThat fun _ => by decide) fun _ _ => .bind (.assertThat fun _ => by decide) fun _ _ => ?_
  exact .bind (taskcontextVerify_avoids (by decide) _) fun _ _ => .pure _

theorem signalAllocate_avoids {c : Core} (hb : c.Balanced) (n : ℤ) :
    Avoids Fault.OfLists (signalAllocate n c) := by
  rw [Core.signalAllocate_eq hb]
  exact .bind (.assertThat fun _ => by decide) fun _ _ => .pure _

variable {s s' : CoreSys} {e : Event}

/-- `signal_send` never misuses a list. -/
theorem Placed.signalSend_ok (h : Placed s) (hn : Nested s) (t : TaskRef) (sg : Signals) :
    ∃ c, signalSend t sg s.core = .ok c := by
  rcases Core.signalSend_cases hn.balanced h.located t sg with ⟨-, he⟩ | ⟨-, -, he⟩
  · exact ⟨_, he⟩
  · exact ⟨_, he⟩

theorem Placed.running_off (h : Placed s) (hrun : (s.core.task s.core.running).state = .running) :
    ¬ s.core.OnList s.core.running := by
  rw [h.onList_iff, hrun]
  decide

theorem Placed.execCall_avoids (h : Placed s) (hn : Nested s) (hpc : s.pc s.core.running = .user) (k : Call) :
    Avoids Fault.OfLists (s.execCall k) := by
  have hb := hn.balanced
  cases k with
  | disable => exact .ok _
  | enable =>
    refine .bind ?_ fun _ _ => .pure _
    rw [Core.enable_eq_opened hb]
    exact .ok _
  | taskInit t params => exact .bind (taskInit_avoids t params _) fun _ _ => .pure _
  | taskSchedule t => exact .bind (taskVerify_avoids hb t) fun _ _ => .pure _
  | taskSetPrio t prio =>
    refine .bind ?_ fun _ _ => .pure _
    rw [Core.taskSetPrio_eq hb]
    exact .ok _
  | signalAllocate n => exact .bind (signalAllocate_avoids hb n) fun _ _ => .pure _
  | signalFree sg =>
    refine .bind ?_ fun _ _ => .pure _
    exact .bind (.assertThat fun _ => by decide) fun _ _ => .bind (.assertThat fun _ => by decide) fun _ _ => .pure _
  | signalSend t sg =>
    obtain ⟨c, hc⟩ := h.signalSend_ok hn t sg
    refine .bind ?_ fun _ _ => .pure _
    rw [hc]
    exact .ok _
  | signalWait sg =>
    refine .bind ?_ fun _ _ => .pure _
    rw [Core.signalWait_eq hb, if_neg (h.running_off (h.state_user hpc))]
    exact .ite (fun _ => .ok _) fun _ => .ok _

theorem Placed.execResume_avoids (h : Placed s) (hn : Nested s) (ht : s.Thread) :
    Avoids Fault.OfLists s.execResume := by
  have hb := hn.balanced
  unfold CoreSys.execResume
  cases hpc : s.pc s.core.running with
  | user => exact .ok _
  | taskSchedule t =>
    have hl : ¬ s.core.OnList t := by
      rw [h.onList_iff, h.begun t (.inr (h.sched.begun _ t hpc))]
      decide
    refine .bind ?_ fun _ _ => .pure _
    rw [Core.taskScheduleInsert_eq hb, if_neg hl]
    exact .ok _
  | taskScheduleReschedule => exact .ok _
  | signalWaitReschedule sg n => exact .ok _
  | signalWaitDisable sg n =>
    refine .bind ?_ fun _ _ => .pure _
    rw [Core.signalWaitResume_eq (hn.waits_nonneg sg n hpc), if_neg (h.running_off (h.state_resumed hn ht hpc))]
    exact .ite (fun _ => .ok _) fun _ => .ok _

/-- No event that can happen misuses a list. -/
theorem Placed.exec_avoids (h : Placed s) (hn : Nested s) (hen : s.Enabled e) :
    Avoids Fault.OfLists (s.exec e) := by
  have hb := hn.balanced
  cases e with
  | call k => exact h.execCall_avoids hn hen.2.1 k
  | resume => exact h.execResume_avoids hn hen.1
  | isrSignalSend t sg =>
    obtain ⟨c, hc⟩ := h.signalSend_ok hn t sg
    refine .bind ?_ fun _ _ => .pure _
    rw [hc]
    exact .ok _
  | sysTick => exact .ok _
  | pendSV =>
    have hb' : ({ s.core with pendSV := false } : Core).Balanced := ⟨hb.primask, hb.le⟩
    exact .bind (taskVerify_avoids hb' _) fun _ _ => .pure _
  | pendSVSwitch frame =>
    refine .bind ?_ fun _ _ => .pure _
    rw [Core.pendSVHandlerSwitch_eq]
    refine .bind ?_ fun d _ => ?_
    · unfold Core.switchOut
      cases hs : (s.core.task s.core.running).state with
      | running =>
        simp only [if_neg (h.running_off hs)]
        exact .ok _
      | ready => exact .ok _
      | waiting => exact .ok _
      | invalid => exact .error (by decide)
      | initialized => exact .error (by decide)
    · unfold Core.switchIn
      cases (d.lists .ready).head? with
      | none => exact .error (by decide)
      | some t => exact .ok _
  | pendSVExit => exact .bind (taskVerify_avoids hb _) fun _ _ => .pure _

/-! ### Every run -/

theorem Placed.run {cfg : Config} {c : Core} {tr : List (Move CoreSys Event)} (h : martosPre cfg = .ok c)
    (hr : Run CoreSys.Step (CoreSys.start c) tr s) : Placed s :=
  (hr.invariant (P := fun s => Nested s ∧ Placed s) ⟨.start h, .start h⟩ fun _ _ _ hs hst =>
    ⟨hs.1.step hst, hs.2.step hs.1 hst⟩).2

/-- A scheduled task stays scheduled. -/
theorem Nested.scheduled_step (h : Nested s) (hst : s.Step e s') {t : TaskRef}
    (ht : s.life t = .scheduled) : s'.life t = .scheduled := by
  cases h.effect hst with
  | @taskInit u params context hu hf =>
    have hne : t ≠ u := fun he => absurd (ht.symm.trans (he ▸ hf)) (by decide)
    exact (Function.update_of_ne hne ..).trans ht
  | @taskSchedule u hu hi =>
    have hne : t ≠ u := fun he => absurd (ht.symm.trans (he ▸ hi)) (by decide)
    exact (Function.update_of_ne hne ..).trans ht
  | @inserts u hth hpc hl =>
    by_cases hne : t = u
    · subst hne; exact Function.update_self ..
    · exact (Function.update_of_ne hne ..).trans ht
  | _ => exact ht

/-- Where a scheduled task can be. -/
inductive Place where
  /-- It runs. -/
  | running
  /-- On `ready`. -/
  | ready
  /-- On `waiting`. -/
  | waiting

/-- Task `t` is there, and its state and both lists agree. -/
def CoreSys.At (s : CoreSys) (t : TaskRef) : Place → Prop
  | .running => (s.core.task t).state = .running ∧ t = s.core.running ∧
      (s.core.lists .ready).count t = 0 ∧ (s.core.lists .waiting).count t = 0
  | .ready => (s.core.task t).state = .ready ∧
      (s.core.lists .ready).count t = 1 ∧ (s.core.lists .waiting).count t = 0
  | .waiting => (s.core.task t).state = .waiting ∧
      (s.core.lists .ready).count t = 0 ∧ (s.core.lists .waiting).count t = 1

theorem Placed.count (h : Placed s) (l : TaskList) (t : TaskRef) :
    (s.core.lists l).count t = if s.core.place t = some l then 1 else 0 := by
  rw [(h.located.nodup l).count]
  simp only [h.located.mem]

/-- In a placed state a scheduled task is in exactly one place. -/
theorem Placed.existsUnique_at (h : Placed s) {t : TaskRef} (ht : s.life t = .scheduled) :
    ∃! p, s.At t p := by
  rcases (h.scheduled t).mp ht with hst | hst | hst
  · refine ⟨.running, ⟨hst, h.single t hst, ?_, ?_⟩, ?_⟩
    · simp [h.count, Core.place, hst, TaskState.list]
    · simp [h.count, Core.place, hst, TaskState.list]
    · intro p hp
      cases p <;> simp [CoreSys.At, hst] at hp ⊢
  · refine ⟨.ready, ⟨hst, ?_, ?_⟩, ?_⟩
    · simp [h.count, Core.place, hst, TaskState.list]
    · simp [h.count, Core.place, hst, TaskState.list]
    · intro p hp
      cases p <;> simp [CoreSys.At, hst] at hp ⊢
  · refine ⟨.waiting, ⟨hst, ?_, ?_⟩, ?_⟩
    · simp [h.count, Core.place, hst, TaskState.list]
    · simp [h.count, Core.place, hst, TaskState.list]
    · intro p hp
      cases p <;> simp [CoreSys.At, hst] at hp ⊢

/-- **Every task is in exactly one place.** In every state a run reaches, a task that was
scheduled at any time before is in exactly one place; `running` is in a state other than
`TASK_RUNNING` only inside the blocking window of `signal_wait`; the lists hold only
scheduled tasks, each once; and no event that can happen would insert a task which is on a
list or unlink one which is on none. -/
theorem every_task_in_one_place {cfg : Config} {c : Core} {tr : List (Move CoreSys Event)}
    (h : martosPre cfg = .ok c) (hr : Run CoreSys.Step (CoreSys.start c) tr s) :
    (∀ t, s.life t = .scheduled → ∃! p, s.At t p) ∧
    (∀ m ∈ tr, ∀ t, m.pre.life t = .scheduled → s.life t = .scheduled) ∧
    ((s.core.task s.core.running).state ≠ .running → ∃ sg n, (s.pc s.core.running).Waits sg n) ∧
    (∀ l, (s.core.lists l).Nodup ∧ ∀ t ∈ s.core.lists l, s.life t = .scheduled) ∧
    (∀ e, s.Enabled e → Avoids Fault.OfLists (s.exec e)) := by
  have hn := Nested.run h hr
  have hp := Placed.run h hr
  refine ⟨fun t ht => hp.existsUnique_at ht, ?_, fun hne => (hp.window hne).2.1, fun l => ?_,
    fun e he => hp.exec_avoids hn he⟩
  · -- a scheduled task stays scheduled, move by move
    refine hr.history (P := fun tr s => (∀ m ∈ tr, ∀ t, m.pre.life t = .scheduled → s.life t = .scheduled))
      (by simp) fun tr s e s' hrun ih hst m hm t ht => ?_
    have hstay {t} := (Nested.run h hrun).scheduled_step hst (t := t)
    rcases List.mem_append.mp hm with hm | hm
    · exact hstay (ih m hm t ht)
    · obtain rfl := List.mem_singleton.mp hm
      exact hstay ht
  · refine ⟨hp.located.nodup l, fun t ht => ?_⟩
    have hpl := (hp.located.mem l t).mp ht
    rw [hp.scheduled]
    cases l with
    | ready => exact .inr (.inl (Core.place_ready.mp hpl))
    | waiting => exact .inr (.inr (Core.place_waiting.mp hpl))

/-- The theorem at a task which queued itself in `signal_wait` and was signalled in the
window, before being switched out. -/
theorem every_task_in_one_place_window : ∃ c tr s, martosPre CoreSys.exampleConfig = .ok c ∧
    Run CoreSys.Step (CoreSys.start c) tr s ∧ s.core.running = 1 ∧
    (s.core.task 1).state = .ready ∧ ∃! p, s.At 1 p := by
  obtain ⟨c, tr, s, hc, hr, hp⟩ := CoreSys.exists_run_of_replayed CoreSys.exampleConfig
    (fun _ _ => True) (CoreSys.oneTask ++ [.call (.signalWait 1), .isrSignalSend 1 1])
    (p := fun s => decide (s.core.running = 1 ∧ (s.core.task 1).state = .ready ∧ s.life 1 = .scheduled))
    (by decide +kernel)
  obtain ⟨hrun, hst, hlife⟩ := of_decide_eq_true hp
  have hr := hr.mono fun _ _ _ => And.right
  exact ⟨c, tr, s, hc, hr, hrun, hst, (every_task_in_one_place hc hr).1 1 hlife⟩

end

end Martos
