import Martos.Core.Allocation
import Martos.Core.Names

/-!
# What stops the core

A failed assertion halts the kernel, so the assertions which a caller can fail belong to
the interface, and those which nobody can fail to the kernel's own correctness.
`CoreSys.stops` is the table of the first kind: for each event the condition, on the state
before it, under which the event stops the kernel, and with what; one entry is no assertion,
the read through NULL in the check of `task_init`. `Verified` is what the
checks of `task_verify` rely on besides nesting and placement: nobody gives `SIGF_SINGLE`
back, and the context of a task which is not scheduled yet, or which runs, has been
checked before.

* `Verified.fault_execChecked` — in a reachable state an event that can happen stops the kernel
  with what the table says, and comes to its end where the table says nothing.
-/

namespace Martos

open Transition Checked

/-- What `task_init` stops with: a stack that is not aligned, or too small. -/
def TaskParams.stops (p : TaskParams) : Option Fault :=
  if p.stack % 4 ≠ 0 ∨ p.stackSize % 4 ≠ 0 then some .stackAlignment
  else if ((p.stack + p.stackSize) % 2 ^ 32 + (2 ^ 32 - stackFrameSize)) % 2 ^ 32 < p.stack then
    some .taskcontextVerify
  else none

/-- What the assertion of `task_init` stops with: the name is NULL, or `task_find` finds a task. For
a name on neither list it reads through NULL, which may stop the processor. -/
def Core.stopsAssert (null : Option String) (c : Core) : Option String → Option Fault
  | none => some .taskName
  | some name =>
    if c.Listed name then some .taskName
    else
      match null with
      | none => some .nullTask
      | some other => if name = other then some .taskName else none

/-- What `signal_free(sg)` stops with: signals that are not the running task's to give back. -/
def Core.stopsFree (c : Core) (sg : Signals) : Option Fault :=
  if sg &&& sigfSingle ≠ 0 then some .freeSingle
  else if sg &&& (c.task c.running).sigAlloc ≠ sg then some .freeUnallocated
  else none

namespace CoreSys

variable (null : Option String) (s : CoreSys)

/-- What an event that can happen stops the kernel with, if it does. -/
def stops : Event → Option Fault
  | .call (.taskInit _ params) => (s.core.stopsAssert null params.name).or params.stops
  | .call (.signalAllocate signal) => if -1 ≤ signal ∧ signal < signalsWidth then none else some .signalRange
  | .call (.signalFree sg) => s.core.stopsFree sg
  -- the switch finds no task
  | .pendSVSwitch _ =>
    if (s.core.task s.core.running).state ≠ .running ∧ (s.core.lists .ready).head? = none then some .nullRunning
    else none
  -- the task switched in has been switched out with a bad frame
  | .pendSVExit => fault (taskcontextVerify (s.core.task s.core.running).context)
  | _ => none

end CoreSys

/-- What `task_verify` relies on. -/
structure Verified (s : CoreSys) : Prop where
  /-- `SIGF_SINGLE` is allocated. -/
  single : ∀ t, s.life t ≠ .fresh → (s.core.task t).sigAlloc.getLsbD 0 = true
  /-- The context that `task_init` has set up. -/
  prepared : ∀ t, s.life t = .initialized → taskcontextVerify (s.core.task t).context = .ok ()
  /-- The context of the running task, once it has been checked. -/
  running : s.phase ≠ .switched → taskcontextVerify (s.core.task s.core.running).context = .ok ()

section

variable {null : Option String} {s s' : CoreSys} {e : Event} {t : TaskRef}

theorem single_and_ne_zero (x : Signals) : sigfSingle &&& x ≠ 0 ↔ x.getLsbD 0 = true :=
  mask_and_ne_zero (i := 0) (by decide) x

/-! ### The assertions of `task_init` -/

/-- The frame that `taskcontext_init` puts at the top ends there. -/
theorem stackFrame_top (tos : ℕ) :
    ((tos % 2 ^ 32 + (2 ^ 32 - stackFrameSize)) % 2 ^ 32 + stackFrameSize) % 2 ^ 32 = tos % 2 ^ 32 := by
  unfold stackFrameSize
  omega

theorem fault_taskcontextInit (p : TaskParams) : fault (taskcontextInit p.stack p.stackSize) = p.stops := by
  unfold taskcontextInit TaskParams.stops taskcontextVerify
  dsimp only
  rw [stackFrame_top]
  by_cases ha : p.stack % 4 = 0
  · by_cases hs : p.stackSize % 4 = 0
    · simp only [fault_assertThat_bind, fault_bind_pure, fault_assertThat, ha, hs, le_refl, if_true, ne_eq,
        not_true_eq_false, or_self, if_false]
      rcases lt_or_ge (((p.stack + p.stackSize) % 2 ^ 32 + (2 ^ 32 - stackFrameSize)) % 2 ^ 32) p.stack with hf | hf
      · rw [if_pos hf, if_neg (not_le.mpr hf)]
      · rw [if_neg (not_lt.mpr hf), if_pos hf]
    · simp [ha, hs]
  · simp [ha]

theorem fault_taskInit (t : TaskRef) (p : TaskParams) (c : Core) : fault (taskInit t p c) = p.stops := by
  unfold taskInit
  rw [fault_bind_pure, fault_taskcontextInit]

/-- The name is checked first. -/
theorem fault_taskInitAssert {null : Option String} {c : Core} (hb : c.Balanced)
    (hnamed : ∀ u ∈ c.lists .ready ++ c.lists .waiting, (c.task u).name ≠ none) (t : TaskRef) (name : Option String) :
    fault (taskInitAssert null t name c) = c.stopsAssert null name := by
  cases name with
  | none => rfl
  | some name =>
    dsimp only [Core.stopsAssert]
    by_cases hl : c.Listed name
    · rw [taskInitAssert_listed hb hnamed hl, if_pos hl]
      rfl
    · rw [taskInitAssert_not_listed hb hnamed null hl, if_neg hl]
      cases null with
      | none => rfl
      | some other =>
        dsimp only
        rw [fault_ite, fault_ok]
        rfl

theorem fault_taskInitChecked {null : Option String} {c : Core} (hb : c.Balanced)
    (hnamed : ∀ u ∈ c.lists .ready ++ c.lists .waiting, (c.task u).name ≠ none) (t : TaskRef) (p : TaskParams) :
    fault (taskInitChecked null t p c) = (c.stopsAssert null p.name).or p.stops := by
  rw [← fault_taskInitAssert hb hnamed t]
  cases ha : taskInitAssert null t p.name c with
  | error f => rw [taskInitChecked, ha]; rfl
  | ok d => rw [taskInitChecked_eq hb ha, fault_taskInit]; rfl

/-- A context that `task_init` sets up passes `taskcontext_verify`. -/
theorem context_of_taskInit {p : TaskParams} {c c' : Core} (h : taskInit t p c = .ok c') :
    ∃ context, c' = c.prepared t p context ∧ taskcontextVerify context = .ok () := by
  simp only [taskInit, taskcontextInit, bind_eq_ok, pure_eq_ok] at h
  obtain ⟨context, ⟨-, -, -, -, ⟨⟩, hv, rfl⟩, rfl⟩ := h
  exact ⟨_, rfl, hv⟩

/-! ### One step -/

/-- A step that writes neither `sig_alloc` nor a context. -/
theorem Verified.of_core (h : Verified s) (hr : s'.core.running = s.core.running)
    (ha : ∀ t, (s'.core.task t).sigAlloc = (s.core.task t).sigAlloc)
    (hc : ∀ t, (s'.core.task t).context = (s.core.task t).context)
    (hl : ∀ t, s'.life t ≠ .fresh → s.life t ≠ .fresh)
    (hi : ∀ t, s'.life t = .initialized → s.life t = .initialized)
    (hp : s'.phase ≠ .switched → s.phase ≠ .switched) : Verified s' where
  single t ht := by
    rw [ha]
    exact h.single t (hl t ht)
  prepared t ht := by
    rw [hc]
    exact h.prepared t (hi t ht)
  running hph := by
    rw [hr, hc]
    exact h.running (hp hph)

/-- A step that writes task structures only, and no `sig_alloc` or context. -/
theorem Verified.of_task (h : Verified s) {c : Core} {pc : TaskRef → Pc} {depth : TaskRef → ℕ}
    (hr : c.running = s.core.running) (ha : ∀ t, (c.task t).sigAlloc = (s.core.task t).sigAlloc)
    (hc : ∀ t, (c.task t).context = (s.core.task t).context) :
    Verified { s with core := c, pc := pc, depth := depth } :=
  h.of_core hr ha hc (fun _ => id) (fun _ => id) id

/-- The running task's `sig_alloc` is written, and keeps `SIGF_SINGLE`. -/
theorem Verified.of_alloc (h : Verified s) {c : Core} (hr : c.running = s.core.running)
    (ha : (s.core.task s.core.running).sigAlloc.getLsbD 0 = true →
      (c.task s.core.running).sigAlloc.getLsbD 0 = true)
    (hne : ∀ t ≠ s.core.running, c.task t = s.core.task t)
    (hc : (c.task s.core.running).context = (s.core.task s.core.running).context) :
    Verified { s with core := c } where
  single t ht := by
    by_cases htr : t = s.core.running
    · subst htr
      exact ha (h.single _ ht)
    · rw [show ({ s with core := c } : CoreSys).core.task t = s.core.task t from hne t htr]
      exact h.single t ht
  prepared t ht := by
    by_cases htr : t = s.core.running
    · subst htr
      exact (congrArg taskcontextVerify hc).trans (h.prepared _ ht)
    · rw [show ({ s with core := c } : CoreSys).core.task t = s.core.task t from hne t htr]
      exact h.prepared t ht
  running hph := by
    rw [show ({ s with core := c } : CoreSys).core.running = s.core.running from hr]
    exact (congrArg taskcontextVerify hc).trans (h.running hph)

/-- A task is switched out and one in: the contexts of the others stay, and the check of the
new one is still to come. -/
theorem Verified.of_switched (h : Verified s) (hr : s.life s.core.running = .scheduled) {d : Core}
    (ha : ∀ t, (d.task t).sigAlloc = (s.core.task t).sigAlloc)
    (hc : ∀ t ≠ s.core.running, (d.task t).context = (s.core.task t).context) (u : TaskRef) :
    Verified { s with core := d.switchedIn u, phase := .switched } where
  single t ht := by
    have hd : ((d.switchedIn u).task t).sigAlloc = (d.task t).sigAlloc := Core.apply_update Task.sigAlloc (by rfl) t
    rw [show ({ s with core := d.switchedIn u, phase := .switched } : CoreSys).core.task t =
        (d.switchedIn u).task t from rfl,
      hd, ha]
    exact h.single t ht
  prepared t ht := by
    have htr : t ≠ s.core.running := by
      rintro rfl
      exact absurd (hr.symm.trans ht) (by decide)
    have hd : ((d.switchedIn u).task t).context = (d.task t).context := Core.apply_update Task.context (by rfl) t
    rw [show ({ s with core := d.switchedIn u, phase := .switched } : CoreSys).core.task t =
        (d.switchedIn u).task t from rfl,
      hd, hc t htr]
    exact h.prepared t ht
  running hph := absurd rfl hph

/-- **Every step keeps what `task_verify` relies on.** -/
theorem Verified.step (h : Verified s) (hn : Nested s) (hp : Placed s) (hst : s.Step e s') : Verified s' := by
  cases hn.effect hst with
  | disable hu => exact h.of_task rfl (fun _ => rfl) fun _ => rfl
  | enable hu hd => exact h.of_task rfl (fun _ => rfl) fun _ => rfl
  | @taskInit t params context hu hf =>
    obtain ⟨c, hc, hs'⟩ := bind_eq_ok.mp hst.2
    obtain ⟨context', rfl, hv⟩ := context_of_taskInit hc
    have hself := Except.ok.inj hs'
    have htr : s.core.running ≠ t := fun he => absurd (hp.running_scheduled.symm.trans (he ▸ hf)) (by decide)
    rw [← hself]
    exact {
      single := fun u hu => by
        by_cases hut : u = t
        · subst hut
          simp [Core.prepared, sigfSingle]
        · simp only [Core.prepared, Core.modTask_of_ne hut]
          simp only [Function.update_of_ne hut] at hu
          exact h.single u hu
      prepared := fun u hu => by
        by_cases hut : u = t
        · subst hut
          simpa [Core.prepared] using hv
        · simp only [Core.prepared, Core.modTask_of_ne hut]
          simp only [Function.update_of_ne hut] at hu
          exact h.prepared u hu
      running := fun hph => by
        simp only [Core.prepared, Core.modTask_running, Core.modTask_of_ne htr]
        exact h.running hph }
  | @taskSchedule t hu hi =>
    refine h.of_core rfl (fun _ => rfl) (fun _ => rfl) (fun u hul => ?_) (fun u hul => ?_) id
    · exact (Life.update_fresh_iff (by rw [hi]; decide) (by decide) u).not.mp hul
    · by_cases hut : u = t
      · subst hut
        exact hi
      · exact (Function.update_of_ne hut ..).symm.trans hul
  | taskSetPrio hu =>
    exact h.of_task rfl (Core.apply_update Task.sigAlloc (by rfl)) (Core.apply_update Task.context (by rfl))
  | signalAllocate target hu =>
    refine h.of_alloc rfl (fun ha => ?_) (fun t ht => Core.modTask_of_ne ht) ?_
    · simp [Core.allocated, ha]
    · simp [Core.allocated]
  | @signalFree sg hu hs =>
    refine h.of_alloc rfl (fun ha => ?_) (fun t ht => Core.modTask_of_ne ht) ?_
    · -- what is given back does not contain `SIGF_SINGLE`
      have hsg : sg.getLsbD 0 = false := by
        rw [BitVec.and_comm] at hs
        simpa using mt (single_and_ne_zero sg).mpr (not_not_intro hs)
      rw [Core.freed, Core.modTask_self]
      simp [-BitVec.getLsbD_eq_getElem, ha, hsg]
    · simp [Core.freed]
  | posted hw he =>
    exact h.of_task rfl (Core.apply_update Task.sigAlloc (by rfl)) (Core.apply_update Task.context (by rfl))
  | woken hw hm he =>
    exact h.of_task rfl (Core.apply_update Task.sigAlloc (by rfl)) (Core.apply_update Task.context (by rfl))
  | waitBlocks hu hn hz hl =>
    refine h.of_task rfl (fun t => ?_) fun t => ?_
    · exact (Core.apply_update Task.sigAlloc (by rfl) t).trans (Core.apply_update Task.sigAlloc (by rfl) t)
    · exact (Core.apply_update Task.context (by rfl) t).trans (Core.apply_update Task.context (by rfl) t)
  | waitReturns hu hn hz =>
    refine h.of_task rfl (fun t => ?_) fun t => ?_
    · exact (Core.apply_update Task.sigAlloc (by rfl) t).trans (Core.apply_update Task.sigAlloc (by rfl) t)
    · exact (Core.apply_update Task.context (by rfl) t).trans (Core.apply_update Task.context (by rfl) t)
  | @inserts t ht hpc hl =>
    have hsch : s.life t = .scheduling := hp.sched.begun _ t hpc
    refine h.of_core rfl (Core.apply_update Task.sigAlloc (by rfl)) (Core.apply_update Task.context (by rfl))
      (fun u hul => ?_) (fun u hul => ?_) id
    · exact (Life.update_fresh_iff (by rw [hsch]; decide) (by decide) u).not.mp hul
    · by_cases hut : u = t
      · subst hut
        exact absurd ((Function.update_self ..).symm.trans hul) (by decide)
      · exact (Function.update_of_ne hut ..).symm.trans hul
  | requests ht hpc => exact h.of_task rfl (fun _ => rfl) fun _ => rfl
  | yields ht hpc => exact h.of_task rfl (fun _ => rfl) fun _ => rfl
  | blocksAgain ht hpc hz hl =>
    exact h.of_task rfl (Core.apply_update Task.sigAlloc (by rfl)) (Core.apply_update Task.context (by rfl))
  | returns ht hpc hz =>
    exact h.of_task rfl (Core.apply_update Task.sigAlloc (by rfl)) (Core.apply_update Task.context (by rfl))
  | sysTick hm => exact h.of_task rfl (fun _ => rfl) fun _ => rfl
  | pendSV hph hm =>
    exact h.of_core rfl (fun _ => rfl) (fun _ => rfl) (fun _ => id) (fun _ => id) fun _ => by rw [hph]; decide
  | preempts hv hs hl hh =>
    refine h.of_switched hp.running_scheduled (Core.apply_update Task.sigAlloc (by rfl)) (fun t ht => ?_) _
    exact congrArg Task.context (Function.update_of_ne ht ..)
  | leaves hv hs hor hh =>
    refine h.of_switched hp.running_scheduled (Core.apply_update Task.sigAlloc (by rfl)) (fun t ht => ?_) _
    exact congrArg Task.context (Function.update_of_ne ht ..)
  | pendSVExit hsw =>
    obtain ⟨c, hc, -⟩ := bind_eq_ok.mp hst.2
    rw [Core.taskVerify_eq hn.balanced] at hc
    obtain ⟨u, hv, -⟩ := bind_eq_ok.mp hc
    obtain ⟨_, hctx, -⟩ := bind_eq_ok.mp hv
    exact ⟨h.single, h.prepared, fun _ => hctx⟩

theorem Verified.start {cfg : Config} {c : Core} (h : martosPre cfg = .ok c) : Verified (CoreSys.start c) := by
  simp only [martosPre, bind_eq_ok, pure_eq_ok] at h
  obtain ⟨d, hd, d', hd', rfl⟩ := h
  obtain ⟨context, rfl, hv⟩ := context_of_taskInit hd
  rw [Core.taskVerify_eq ⟨rfl, le_refl (-1 : ℤ)⟩] at hd'
  simp only [bind_eq_ok, pure_eq_ok] at hd'
  obtain ⟨-, -, rfl⟩ := hd'
  refine ⟨fun t ht => ?_, fun t ht => ?_, fun _ => ?_⟩
  · by_cases hti : t = initTask
    · subst hti
      simp [CoreSys.start, Core.prepared, sigfSingle]
    · simp [CoreSys.start, hti] at ht
  · by_cases hti : t = initTask <;> simp [CoreSys.start, hti] at ht
  · simpa [CoreSys.start, Core.prepared] using hv

/-! ### What events stop with -/

theorem fault_verify {k : Task} (ha : k.sigAlloc.getLsbD 0 = true) (hn : -1 ≤ k.idNestcnt)
    (hs : k.state = .initialized ∨ k.state = .running ∨ k.state = .ready ∨ k.state = .waiting) :
    fault (Core.verify k) = fault (taskcontextVerify k.context) := by
  unfold Core.verify
  cases hc : taskcontextVerify k.context with
  | error f => rfl
  | ok u => simp only [ok_bind, fault_assertThat_bind, fault_assertThat, if_pos ((single_and_ne_zero _).mpr ha),
      if_pos hn, if_pos hs, fault_ok]

/-- Of an initialised task, `task_verify` can find the context only to be bad. -/
theorem Verified.fault_taskVerify (h : Verified s) (hn : Nested s) (hp : Placed s) {c : Core} (hb : c.Balanced)
    (hc : c.task = s.core.task) (ht : s.life t ≠ .fresh) :
    fault (taskVerify t c) = fault (taskcontextVerify (s.core.task t).context) := by
  have hstate : (s.core.task t).state = .initialized ∨ (s.core.task t).state = .running ∨
      (s.core.task t).state = .ready ∨ (s.core.task t).state = .waiting := by
    cases hl : s.life t with
    | fresh => exact absurd hl ht
    | initialized => exact .inl (hp.begun t (.inl hl))
    | scheduling => exact .inl (hp.begun t (.inr hl))
    | scheduled => exact .inr ((hp.scheduled t).mp hl)
  rw [Core.taskVerify_eq hb, fault_bind_pure, hc]
  exact fault_verify (h.single t ht) (hn.saved t ht).ge hstate

theorem Core.fault_signalFree (c : Core) (sg : Signals) : fault (signalFree sg c) = c.stopsFree sg := by
  rw [Core.signalFree_eq, Core.stopsFree]
  simp only [fault_assertThat_bind, fault_pure, ne_eq, ite_not]

theorem Core.Balanced.fault_signalAllocate {c : Core} (hb : c.Balanced) (signal : ℤ) : fault (signalAllocate signal c) =
    if -1 ≤ signal ∧ signal < signalsWidth then none else some .signalRange := by
  rw [Core.signalAllocate_eq hb]
  simp only [fault_assertThat_bind, fault_pure]

/-- A call from a task's own code. -/
theorem Verified.fault_execCallChecked (h : Verified s) (hn : Nested s) (hp : Placed s) (ha : AllNamed s) {k : Call}
    (hu : s.AtUser) (hk : s.Contract k) : fault (s.execCallChecked null k) = s.stops null (.call k) := by
  have hb := hn.balanced
  cases k with
  | disable => rfl
  | enable =>
    simp only [CoreSys.execCallChecked, CoreSys.execCall, fault_bind_pure, Core.enable_eq_opened hb]
    rfl
  | taskInit t params =>
    simp only [CoreSys.execCallChecked, fault_bind_pure, fault_taskInitChecked hb (ha.listed hp)]
    rfl
  | taskSchedule t =>
    have hi : s.life t = .initialized := hk
    simp only [CoreSys.execCallChecked, CoreSys.execCall, fault_bind_pure]
    rw [h.fault_taskVerify hn hp hb rfl (by rw [hi]; decide), h.prepared t hi]
    rfl
  | taskSetPrio t prio =>
    simp only [CoreSys.execCallChecked, CoreSys.execCall, fault_bind_pure, Core.taskSetPrio_eq hb]
    rfl
  | signalAllocate signal =>
    simp only [CoreSys.execCallChecked, CoreSys.execCall, fault_bind_pure, hb.fault_signalAllocate]
    rfl
  | signalFree sg =>
    simp only [CoreSys.execCallChecked, CoreSys.execCall, fault_bind_pure, Core.fault_signalFree]
    rfl
  | signalSend t sg =>
    obtain ⟨c, hc⟩ := hp.signalSend_ok hn t sg
    simp only [CoreSys.execCallChecked, CoreSys.execCall, fault_bind_pure, hc]
    rfl
  | signalWait sg =>
    -- the running task is on no list
    have hl := hp.running_off (hp.state_user hu.2)
    simp only [CoreSys.execCallChecked, CoreSys.execCall, fault_bind_pure, Core.signalWait_eq hb, if_neg hl, fault_ite,
      fault_ok, ite_self]
    rfl

/-- A call that goes on comes to its next point. -/
theorem Verified.fault_execResume (hn : Nested s) (hp : Placed s) (ht : s.Thread) : fault s.execResume = none := by
  have hb := hn.balanced
  unfold CoreSys.execResume
  cases hpc : s.pc s.core.running with
  | user => rfl
  | taskSchedule t =>
    have hl : ¬ s.core.OnList t := by
      rw [hp.onList_iff, hp.begun t (.inr (hp.sched.begun _ t hpc))]
      decide
    simp only [fault_bind_pure, Core.taskScheduleInsert_eq hb, if_neg hl, fault_ok]
  | taskScheduleReschedule => rfl
  | signalWaitReschedule sg n => rfl
  | signalWaitDisable sg n =>
    have hl := hp.running_off (hp.state_resumed hn ht hpc)
    simp only [fault_bind_pure, Core.signalWaitResume_eq (hn.waits_nonneg sg n hpc), if_neg hl, fault_ite, fault_ok,
      ite_self]

theorem Core.fault_switchIn (d : Core) :
    fault d.switchIn = if (d.lists .ready).head? = none then some .nullRunning else none := by
  unfold Core.switchIn
  cases (d.lists .ready).head? with
  | none => rfl
  | some t => rfl

/-- The switch stops only where the running task cannot run on and no other is ready. -/
theorem Placed.fault_switch (hp : Placed s) (frame : ℕ) : fault (pendSVHandlerSwitch frame s.core) =
    if (s.core.task s.core.running).state ≠ .running ∧ (s.core.lists .ready).head? = none then some .nullRunning
    else none := by
  rw [Core.pendSVHandlerSwitch_eq]
  unfold Core.switchOut
  rcases (hp.scheduled _).mp hp.running_scheduled with hs | hs | hs
  · -- the running task goes back to `ready`, so there is one
    have hmem : s.core.running ∈ s.core.lists.listEnqueue s.core.prio .ready s.core.running .ready :=
      Seqs.mem_listEnqueue.mpr (.inr ⟨rfl, rfl⟩)
    have hne : ((s.core.requeued frame).lists .ready).head? ≠ none := fun hnil =>
      List.ne_nil_of_mem hmem (List.head?_eq_none_iff.mp hnil)
    simp only [hs, if_neg (hp.running_off hs), ok_bind, Core.fault_switchIn, if_neg hne, ne_eq, not_true_eq_false,
      false_and, if_false]
  · simp only [hs, ok_bind, Core.fault_switchIn, Core.switchedOut, Core.modTask]
    simp
  · simp only [hs, ok_bind, Core.fault_switchIn, Core.switchedOut, Core.modTask]
    simp

/-- **What stops the core**: an event that can happen stops the kernel with what the table
says, and comes to its end where the table says nothing. -/
theorem Verified.fault_execChecked (h : Verified s) (hn : Nested s) (hp : Placed s) (ha : AllNamed s)
    (hen : s.Enabled e) : fault (s.execChecked null e) = s.stops null e := by
  cases e with
  | call k => exact h.fault_execCallChecked hn hp ha ⟨hen.1, hen.2.1⟩ hen.2.2
  | resume => exact Verified.fault_execResume hn hp hen.1
  | isrSignalSend t sg =>
    obtain ⟨c, hc⟩ := hp.signalSend_ok hn t sg
    simp only [CoreSys.execChecked, CoreSys.exec, fault_bind_pure, hc]
    rfl
  | sysTick => rfl
  | pendSV =>
    have hb : ({ s.core with pendSV := false } : Core).Balanced := ⟨hn.balanced.primask, hn.balanced.le⟩
    have hph : s.phase = .thread := hen.1
    simp only [CoreSys.execChecked, CoreSys.exec, fault_bind_pure]
    rw [h.fault_taskVerify hn hp hb rfl hn.runs, h.running (by rw [hph]; decide)]
    rfl
  | pendSVSwitch frame =>
    simp only [CoreSys.execChecked, CoreSys.exec, fault_bind_pure, hp.fault_switch]
    rfl
  | pendSVExit =>
    simp only [CoreSys.execChecked, CoreSys.exec, fault_bind_pure]
    rw [h.fault_taskVerify hn hp hn.balanced rfl hn.runs]
    rfl

end

end Martos
