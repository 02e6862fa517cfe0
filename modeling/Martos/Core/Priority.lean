import Martos.Core.Placement

/-!
# The running task has the highest priority

`ready` is kept sorted by `list_enqueue`, so the switch takes a task of the highest
priority. Between two switches the kernel only remembers that one may be needed:
`signal_send` and `task_set_prio` test whether to set PendSV, `task_schedule` sets it
in any case, one step after the insertion, and a task that blocks is switched out by
`signal_wait` itself. `CoreSys.Due` lists these cases, and `Ordered` says that in all
others the running task has the highest priority.

`task_set_prio` changes the priority of a task and leaves it where it is. So all this holds
as long as the task fits there with its new priority (`Core.FitsAt`): in particular when the
running task sets its own priority, which is not on `ready`.
-/

namespace Martos

open Transition

/-- A switch is on its way: PendSV is pending, or has been taken and has not switched yet,
or the running task cannot go on, or it is about to request the switch. -/
def CoreSys.Due (s : CoreSys) : Prop :=
  s.core.pendSV = true ∨ s.phase = .verified ∨ (s.core.task s.core.running).state ≠ .running ∨
    s.pc s.core.running = .taskScheduleReschedule

/-- `ready` is sorted, and unless a switch is due nothing on it is above the running task. -/
structure Ordered (s : CoreSys) : Prop where
  /-- `ready` is sorted. -/
  sorted : Seqs.Descending s.core.prio (s.core.lists .ready)
  /-- The running task is on top. -/
  top : ¬ s.Due → ∀ t ∈ s.core.lists .ready, s.core.prio t ≤ s.core.prio s.core.running

/-- The running task sets only its own priority. -/
def SetsOwnPrio (s : CoreSys) : Event → Prop
  | .call (.taskSetPrio t _) => t = s.core.running
  | _ => True

instance (s : CoreSys) (e : Event) : Decidable (SetsOwnPrio s e) := by
  unfold SetsOwnPrio
  split <;> infer_instance

/-- Nothing on `ready` is above the running task. -/
def Core.Top (c : Core) : Prop := ∀ t ∈ c.lists .ready, c.prio t ≤ c.prio c.running

/-- With priority `p` task `t` would fit where it is: it is not on `ready`, or between tasks of
no lower and no higher priority. -/
def Core.FitsAt (c : Core) (t : TaskRef) (p : ℤ) : Prop :=
  ∀ ys zs, c.lists .ready = ys ++ t :: zs → (∀ u ∈ ys, p ≤ c.prio u) ∧ ∀ u ∈ zs, c.prio u ≤ p

/-- A task gets a new priority only if it fits where it is. -/
def SetsFittingPrio (s : CoreSys) : Event → Prop
  | .call (.taskSetPrio t p) => s.core.FitsAt t p
  | _ => True

section

variable {s s' : CoreSys} {e : Event}

theorem CoreSys.Due.imp (h : s.Due) (hp : s.core.pendSV = true → s'.core.pendSV = true)
    (hph : s.phase = .verified → s'.phase = .verified)
    (hs : (s.core.task s.core.running).state ≠ .running → (s'.core.task s'.core.running).state ≠ .running)
    (hpc : s.pc s.core.running = .taskScheduleReschedule → s'.pc s'.core.running = .taskScheduleReschedule) :
    s'.Due :=
  Or.imp hp (Or.imp hph (Or.imp hs hpc)) h

/-- A step that keeps `running`, `ready`, priorities and states, and what makes a switch due. -/
theorem Ordered.of_same (h : Ordered s) (hr : s'.core.running = s.core.running)
    (hl : s'.core.lists .ready = s.core.lists .ready) (hp : ∀ t, s'.core.prio t = s.core.prio t)
    (hs : ∀ t, (s'.core.task t).state = (s.core.task t).state)
    (hpend : s.core.pendSV = true → s'.core.pendSV = true) (hph : s.phase = .verified → s'.phase = .verified)
    (hpc : s.pc s.core.running = .taskScheduleReschedule → s'.pc s.core.running = .taskScheduleReschedule) :
    Ordered s' where
  sorted := by rw [hl, funext hp]; exact h.sorted
  top hnd := by
    have hd : s.Due → s'.Due := fun hd => hd.imp hpend hph (by rw [hr, hs]; exact id) (by rw [hr]; exact hpc)
    rw [hl, funext hp, hr]
    exact h.top (mt hd hnd)

/-- A step that makes a switch due. -/
theorem Ordered.of_due (hs : Seqs.Descending s'.core.prio (s'.core.lists .ready)) (hd : s'.Due) :
    Ordered s' where
  sorted := hs
  top hnd := absurd hd hnd

theorem Core.switchedIn_prio (d : Core) (t : TaskRef) : (d.switchedIn t).prio = d.prio :=
  funext (Core.apply_update Task.prio (by rfl))

/-- The switch takes a task of the highest priority. -/
theorem Core.Top.switchedIn {d : Core} {t : TaskRef} (hs : Seqs.Descending d.prio (d.lists .ready))
    (hh : (d.lists .ready).head? = some t) : (d.switchedIn t).Top := by
  intro u hu
  rw [Core.switchedIn_prio]
  exact hs.head hh hu

theorem Ordered.switchedIn {d : Core} {t : TaskRef} (hs : Seqs.Descending d.prio (d.lists .ready))
    (hh : (d.lists .ready).head? = some t) : Ordered { s with core := d.switchedIn t, phase := .switched } where
  sorted := by
    rw [show ({ s with core := d.switchedIn t, phase := .switched } : CoreSys).core.prio = _ from
      Core.switchedIn_prio d t]
    exact hs.listRemHead
  top _ := Core.Top.switchedIn hs hh

/-- A task is woken: either it does not rank above the running one, or a switch is due. -/
theorem Ordered.woken (h : Ordered s) {t : TaskRef} {sg : Signals} (hw : s.core.Wakes t sg) :
    Ordered { s with core := s.core.woken t sg } := by
  have hp : (s.core.woken t sg).prio = s.core.prio := funext (Core.apply_update Task.prio (by rfl))
  have hs : Seqs.Descending s.core.prio (s.core.lists.listUnlink t .ready) :=
    List.Pairwise.sublist (List.erase_sublist ..) h.sorted
  refine ⟨?_, fun hnd u hu => ?_⟩
  · rw [show ({ s with core := s.core.woken t sg } : CoreSys).core.prio = _ from hp]
    exact hs.listEnqueue t
  · have hle : s.core.prio t ≤ s.core.prio s.core.running := by
      by_contra hlt
      exact hnd (.inl (by simp [Core.woken, not_le.mp hlt]))
    have hnd' : ¬ s.Due := by
      intro hd
      refine hnd (hd.imp (fun hp => by simp [Core.woken, hp]) id (fun hne => ?_) id)
      by_cases hrt : s.core.running = t
      · simp [Core.woken, hrt]
      · simpa [Core.woken, hrt] using hne
    rw [show ({ s with core := s.core.woken t sg } : CoreSys).core.prio = _ from hp]
    change u ∈ (s.core.lists.listUnlink t).listEnqueue s.core.prio .ready t .ready at hu
    rcases Seqs.mem_listEnqueue.mp hu with hu | ⟨-, rfl⟩
    · exact h.top hnd' u (List.mem_of_mem_erase hu)
    · exact hle

/-- The running task has queued itself. -/
theorem Ordered.queued (h : Ordered s) {p : Pc} : Ordered { s.goto p with core := s.core.queued } := by
  have hp : s.core.queued.prio = s.core.prio := funext (Core.apply_update Task.prio (by rfl))
  refine .of_due ?_ (.inr (.inr (.inl (by simp [Core.queued]))))
  rw [show ({ s.goto p with core := s.core.queued } : CoreSys).core.prio = _ from hp]
  exact h.sorted

/-- The running task is not on `ready`. -/
theorem SetsOwnPrio.fitting (h : SetsOwnPrio s e) (hpl : Placed s) (hst : s.Step e s') : SetsFittingPrio s e := by
  unfold SetsFittingPrio
  split
  · next t p =>
    obtain rfl : t = s.core.running := h
    intro ys zs heq
    have hoff := hpl.running_off (hpl.state_user hst.1.2.1)
    exact absurd (.inl (by simp [heq])) hoff
  · trivial

theorem Core.repriced_prio (c : Core) (t : TaskRef) (p : ℤ) : (c.repriced t p).prio = Function.update c.prio t p := by
  funext u
  by_cases hu : u = t
  · subst hu; simp [Core.prio, Core.repriced]
  · simp [Core.prio, Core.repriced, hu]

/-- `task_set_prio` leaves `ready` sorted exactly if the task fits where it is. -/
theorem Placed.descending_repriced_iff (hpl : Placed s) (hs : Seqs.Descending s.core.prio (s.core.lists .ready))
    (t : TaskRef) (p : ℤ) :
    Seqs.Descending (s.core.repriced t p).prio (s.core.lists .ready) ↔ s.core.FitsAt t p := by
  have hnd := hpl.located.nodup .ready
  rw [Core.repriced_prio]
  refine ⟨fun hd ys zs heq => ?_, fun hfit => ?_⟩
  · rw [heq] at hd hs hnd
    exact (hs.update_middle hnd).mp hd
  · by_cases ht : t ∈ s.core.lists .ready
    · obtain ⟨ys, zs, heq⟩ := List.append_of_mem ht
      rw [heq] at hs hnd ⊢
      exact (hs.update_middle hnd).mpr (hfit ys zs heq)
    · refine hs.congr fun u hu => ?_
      have hne : u ≠ t := fun he => ht (he ▸ hu)
      rw [Function.update_of_ne hne]

/-- If no switch is requested, the running task is on top as it was. -/
theorem Core.Top.repriced (hpl : Placed s) (h : s.core.Top) {t : TaskRef} {p : ℤ}
    (hp : (s.core.repriced t p).pendSV = false) : (s.core.repriced t p).Top := by
  have hnot : ¬ (t = s.core.running ∨ ((s.core.task t).state = .ready ∧
      (s.core.modTask t fun k => { k with prio := p }).prio s.core.running < p)) :=
    of_decide_eq_false (Bool.or_eq_false_iff.mp hp).2
  obtain ⟨hrun, hlow⟩ := not_or.mp hnot
  have hkeep : (s.core.repriced t p).prio s.core.running = s.core.prio s.core.running := by
    rw [repriced_prio, Function.update_of_ne (Ne.symm hrun)]
  intro u hu
  change (s.core.repriced t p).prio u ≤ (s.core.repriced t p).prio s.core.running
  by_cases hut : u = t
  · subst hut
    have hst : (s.core.task u).state = .ready := Core.place_ready.mp ((hpl.located.mem _ u).mp hu)
    have hle := not_lt.mp fun hlt => hlow ⟨hst, hlt⟩
    rw [repriced_prio, Function.update_self, ← repriced_prio]
    exact hle
  · rw [hkeep, repriced_prio, Function.update_of_ne hut]
    exact h u hu

/-- **A step keeps the order**, if no task gets a priority with which it does not fit where it
is. -/
theorem Ordered.step (h : Ordered s) (hn : Nested s) (hpl : Placed s) (hok : SetsFittingPrio s e)
    (hst : s.Step e s') : Ordered s' := by
  -- what holds of the writes that are about something else
  have hsame {c : Core} (hr : c.running = s.core.running) (hl : c.lists = s.core.lists)
      (hp : ∀ t, c.prio t = s.core.prio t) (hs : ∀ t, (c.task t).state = (s.core.task t).state)
      (hpend : c.pendSV = s.core.pendSV) : Ordered { s with core := c } :=
    h.of_same hr (by rw [← hl]) hp hs (by rw [← hpend]; exact id) id id
  cases hn.effect hst with
  | disable hu => exact h.of_same rfl rfl (fun _ => rfl) (fun _ => rfl) id id id
  | enable hu hd => exact h.of_same rfl rfl (fun _ => rfl) (fun _ => rfl) id id id
  | @taskInit t params context hu hf =>
    have hmem (u) (hu : u ∈ s.core.lists .ready ∨ u = s.core.running) : u ≠ t := by
      rintro rfl
      rcases hu with hu | hu
      · exact hn.listed _ u hu hf
      · exact hn.runs (hu ▸ hf)
    have hp (u) (hu : u ∈ s.core.lists .ready ∨ u = s.core.running) :
        (s.core.prepared t params context).prio u = s.core.prio u := by
      simp [Core.prio, Core.prepared, hmem u hu]
    refine ⟨h.sorted.congr fun u hu => hp u (.inl hu), fun hnd u hu => ?_⟩
    have hnd' : ¬ s.Due := by
      intro hd
      refine hnd (hd.imp id id (fun hne => ?_) id)
      simpa [Core.prepared, hmem _ (.inr rfl)] using hne
    have htop := h.top hnd' u hu
    rw [← hp u (.inl hu), ← hp _ (.inr rfl)] at htop
    exact htop
  | taskSchedule hu hi =>
    refine h.of_same rfl rfl (fun _ => rfl) (fun _ => rfl) id id fun hpc => ?_
    exact absurd (hu.2.symm.trans hpc) (by simp)
  | @taskSetPrio t prio hu =>
    refine ⟨(hpl.descending_repriced_iff h.sorted t prio).mpr hok, fun hnd => ?_⟩
    have hp : (s.core.repriced t prio).pendSV = false := by
      by_contra hp
      exact hnd (.inl (by simpa using hp))
    have hnd' : ¬ s.Due := by
      intro hd
      refine hnd (hd.imp (fun hp => by simp [Core.repriced, hp]) id (fun hne => ?_) id)
      exact fun hr => hne ((Core.apply_update Task.state (by rfl) _).symm.trans hr)
    exact Core.Top.repriced hpl (h.top hnd') hp
  | signalAllocate target hu =>
    exact hsame rfl rfl (Core.apply_update Task.prio (by rfl)) (Core.apply_update Task.state (by rfl)) rfl
  | signalFree hu hs =>
    exact hsame rfl rfl (Core.apply_update Task.prio (by rfl)) (Core.apply_update Task.state (by rfl)) rfl
  | posted hw he =>
    exact hsame rfl rfl (Core.apply_update Task.prio (by rfl)) (Core.apply_update Task.state (by rfl)) rfl
  | woken hw hm he => exact h.woken hw
  | @waitBlocks sg hu _ hz hl =>
    have ha : Ordered { s with core := s.core.awaits sg } :=
      hsame rfl rfl (Core.apply_update Task.prio (by rfl)) (Core.apply_update Task.state (by rfl)) rfl
    exact ha.queued
  | @waitReturns sg hu _ hz =>
    have ha : Ordered { s with core := s.core.awaits sg } :=
      hsame rfl rfl (Core.apply_update Task.prio (by rfl)) (Core.apply_update Task.state (by rfl)) rfl
    refine ha.of_same rfl rfl (Core.apply_update Task.prio (by rfl)) (Core.apply_update Task.state (by rfl))
      id id fun hpc => ?_
    exact absurd (hu.2.symm.trans hpc) (by simp)
  | @inserts t ht hpc hl =>
    have hp : (s.core.inserted t).prio = s.core.prio := funext (Core.apply_update Task.prio (by rfl))
    refine Ordered.of_due ?_ (.inr (.inr (.inr (CoreSys.goto_pc_self (s := s) _))))
    rw [show ({ s.goto _ with core := s.core.inserted t, life := _ } : CoreSys).core.prio = _ from hp]
    exact h.sorted.listEnqueue t
  | requests ht hpc => exact .of_due h.sorted (.inl rfl)
  | yields ht hpc => exact .of_due h.sorted (.inl rfl)
  | blocksAgain ht hpc hz hl => exact h.queued
  | returns ht hpc hz =>
    refine h.of_same rfl rfl (Core.apply_update Task.prio (by rfl)) (Core.apply_update Task.state (by rfl))
      id id fun hpc' => ?_
    exact absurd (hpc.symm.trans hpc') (by simp)
  | sysTick hm =>
    exact h.of_same rfl rfl (fun _ => rfl) (fun _ => rfl) (fun hp => by simp [Core.ticked, hp]) id id
  | pendSV hp hm => exact .of_due h.sorted (.inr (.inl rfl))
  | @preempts frame t hp hs hl hh =>
    have hprio : (s.core.requeued frame).prio = s.core.prio := funext (Core.apply_update Task.prio (by rfl))
    refine Ordered.switchedIn ?_ hh
    rw [hprio]
    exact h.sorted.listEnqueue _
  | @leaves frame t st hp hs hor hh =>
    have hprio : (s.core.switchedOut frame st).prio = s.core.prio :=
      funext (Core.apply_update Task.prio (by rfl))
    refine Ordered.switchedIn ?_ hh
    rw [hprio]
    exact h.sorted
  | pendSVExit hp =>
    exact h.of_same rfl rfl (fun _ => rfl) (fun _ => rfl) id
      (fun hv => absurd (hp.symm.trans hv) (by decide)) id

/-- After a switch the running task is on top. -/
theorem Ordered.top_switch (h : Ordered s) (hn : Nested s) {frame : ℕ} (hst : s.Step (.pendSVSwitch frame) s') :
    s'.core.Top := by
  cases hn.effect hst with
  | posted hw he => rcases he with ⟨he, -⟩ | ⟨he, -⟩ <;> cases he
  | woken hw hm he => rcases he with ⟨he, -⟩ | ⟨he, -⟩ <;> cases he
  | @preempts _ t hp hs hl hh =>
    refine Core.Top.switchedIn ?_ hh
    rw [show (s.core.requeued frame).prio = s.core.prio from funext (Core.apply_update Task.prio (by rfl))]
    exact h.sorted.listEnqueue _
  | @leaves _ t st hp hs hor hh =>
    refine Core.Top.switchedIn ?_ hh
    rw [show (s.core.switchedOut frame st).prio = s.core.prio from funext (Core.apply_update Task.prio (by rfl))]
    exact h.sorted

theorem Ordered.start {cfg : Config} {c : Core} (h : martosPre cfg = .ok c) : Ordered (CoreSys.start c) := by
  obtain ⟨context, rfl⟩ := Core.exists_of_martosPre h
  exact ⟨List.Pairwise.nil, fun _ t ht => nomatch ht⟩

/-- **The scheduler's priority invariant.** In every state a run reaches in which
`task_set_prio` is applied to the running task only, `ready` is sorted by non-increasing
priority, and while the running task is in its own code, in state `TASK_RUNNING`, and no
PendSV is pending or on its way to the switch, its priority is at least that of every task
on `ready`. -/
theorem running_has_highest_priority {cfg : Config} {c : Core} {tr : List (Move CoreSys Event)}
    (h : martosPre cfg = .ok c) (hr : Run (Restrict SetsOwnPrio CoreSys.Step) (CoreSys.start c) tr s) :
    (s.core.lists .ready).Pairwise (fun t u => s.core.prio u ≤ s.core.prio t) ∧
    ((s.core.task s.core.running).state = .running → s.pc s.core.running = .user →
      s.core.pendSV = false → s.phase ≠ .verified →
      ∀ t ∈ s.core.lists .ready, s.core.prio t ≤ s.core.prio s.core.running) := by
  have hinv : Nested s ∧ Placed s ∧ Ordered s := hr.invariant
    (P := fun s => Nested s ∧ Placed s ∧ Ordered s) ⟨.start h, .start h, .start h⟩
    fun s e s' ⟨hn, hp, ho⟩ ⟨hok, hst⟩ => ⟨hn.step hst, hp.step hn hst, ho.step hn hp (hok.fitting hp hst) hst⟩
  refine ⟨hinv.2.2.sorted, fun hst hpc hpend hph => hinv.2.2.top ?_⟩
  rintro (hd | hd | hd | hd)
  · exact absurd (hpend.symm.trans hd) (by decide)
  · exact hph hd
  · exact hd hst
  · exact absurd (hpc.symm.trans hd) (by simp)

/-- The theorem at a task which runs while the init task is on `ready`. -/
theorem running_has_highest_priority_two_tasks : ∃ c tr s, martosPre CoreSys.exampleConfig = .ok c ∧
    Run (Restrict SetsOwnPrio CoreSys.Step) (CoreSys.start c) tr s ∧ s.core.running = 1 ∧
    initTask ∈ s.core.lists .ready ∧ s.core.prio initTask ≤ s.core.prio 1 := by
  obtain ⟨c, tr, s, hc, hr, hp⟩ := CoreSys.exists_run_of_replayed CoreSys.exampleConfig SetsOwnPrio
    CoreSys.oneTask
    (p := fun s => decide (s.core.running = 1 ∧ (s.core.task s.core.running).state = .running ∧
      s.pc s.core.running = .user ∧ s.core.pendSV = false ∧ s.phase ≠ .verified ∧
      initTask ∈ s.core.lists .ready))
    (by decide +kernel)
  obtain ⟨hrun, hst, hpc, hpend, hph, hmem⟩ := of_decide_eq_true hp
  have hle := (running_has_highest_priority hc hr).2 hst hpc hpend hph initTask hmem
  exact ⟨c, tr, s, hc, hr, hrun, hmem, hrun ▸ hle⟩

/-! ### Setting the priority of any task -/

/-- Steps that set no priority. -/
def SetsNoPrio (_ : CoreSys) : Event → Prop
  | .call (.taskSetPrio _ _) => False
  | _ => True

/-- The scheduler goes on as it should from `s'`, after a call in `s`. -/
structure KeepsScheduling (s s' : CoreSys) : Prop where
  /-- `ready` is sorted with respect to the new priorities. -/
  sorted : (s'.core.lists .ready).Pairwise fun t u => s'.core.prio u ≤ s'.core.prio t
  /-- If no PendSV becomes pending, the running task is on top. -/
  top : s'.core.pendSV = false → s'.core.Top
  /-- After any later PendSV the running task is on top. -/
  switched : ∀ tr s₁ frame s₂, Run (Restrict SetsNoPrio CoreSys.Step) s' tr s₁ →
    s₁.Step (.pendSVSwitch frame) s₂ → s₂.core.Top
  /-- The lists are as they were. -/
  lists : s'.core.lists = s.core.lists
  /-- No task is lost or duplicated. -/
  placed : ∀ tr s₁, Run (Restrict SetsNoPrio CoreSys.Step) s' tr s₁ →
    ∀ t, s.life t = .scheduled → ∃! p, s₁.At t p

theorem CoreSys.core_of_taskSetPrio (hn : Nested s) {t : TaskRef} {p : ℤ}
    (hst : s.Step (.call (.taskSetPrio t p)) s') : s'.core = s.core.repriced t p := by
  cases hn.effect hst with
  | taskSetPrio hu => rfl
  | posted hw he => rcases he with ⟨he, -⟩ | ⟨he, -⟩ <;> cases he
  | woken hw hm he => rcases he with ⟨he, -⟩ | ⟨he, -⟩ <;> cases he

/-- **When `task_set_prio` keeps the scheduler correct.** In a reachable state in which `ready`
is sorted and the running task on top, for every task and every priority: the scheduler goes
on as it should if and only if the task fits where it is, that is, it is not on `ready` or
stands between tasks of no lower and no higher priority. -/
theorem task_set_prio_keeps_scheduling_iff {cfg : Config} {c : Core} {tr : List (Move CoreSys Event)}
    (h : martosPre cfg = .ok c) (hr : Run CoreSys.Step (CoreSys.start c) tr s)
    (hs : (s.core.lists .ready).Pairwise fun t u => s.core.prio u ≤ s.core.prio t) (htop : s.core.Top)
    {t : TaskRef} {p : ℤ} (hst : s.Step (.call (.taskSetPrio t p)) s') :
    KeepsScheduling s s' ↔ s.core.FitsAt t p := by
  have hn := Nested.run h hr
  have hpl := Placed.run h hr
  have hcore := CoreSys.core_of_taskSetPrio hn hst
  refine ⟨fun hk => ?_, fun hfit => ?_⟩
  · have hsorted := hk.sorted
    rw [hk.lists, hcore] at hsorted
    exact (hpl.descending_repriced_iff hs t p).mp hsorted
  · have ho : Ordered s' := Ordered.step ⟨hs, fun _ => htop⟩ hn hpl (e := .call (.taskSetPrio t p)) hfit hst
    have hinv {tr' : List (Move CoreSys Event)} {s₁ : CoreSys}
        (hr' : Run (Restrict SetsNoPrio CoreSys.Step) s' tr' s₁) :
        Nested s₁ ∧ Placed s₁ ∧ Ordered s₁ ∧ ∀ u, s.life u = .scheduled → s₁.life u = .scheduled :=
      hr'.invariant
        (P := fun s₁ => Nested s₁ ∧ Placed s₁ ∧ Ordered s₁ ∧ ∀ u, s.life u = .scheduled → s₁.life u = .scheduled)
        ⟨hn.step hst, hpl.step hn hst, ho, fun _ => hn.scheduled_step hst⟩
        fun s₁ e s₂ ⟨hn₁, hp₁, ho₁, hl₁⟩ ⟨hok, hst₁⟩ => by
          have hfit₁ : SetsFittingPrio s₁ e := by
            unfold SetsFittingPrio
            split
            · exact hok.elim
            · trivial
          exact ⟨hn₁.step hst₁, hp₁.step hn₁ hst₁, ho₁.step hn₁ hp₁ hfit₁ hst₁,
            fun u hu => hn₁.scheduled_step hst₁ (hl₁ u hu)⟩
    exact {
      sorted := ho.sorted
      top := fun hp => by
        rw [hcore] at hp ⊢
        exact htop.repriced hpl hp
      switched := fun _ s₁ frame s₂ hr' hsw => (hinv hr').2.2.1.top_switch (hinv hr').1 hsw
      lists := by rw [hcore]; rfl
      placed := fun _ s₁ hr' u hu => (hinv hr').2.1.existsUnique_at ((hinv hr').2.2.2 u hu) }

/-- The theorem at a task between two others on `ready`, which stays between them. -/
theorem task_set_prio_keeps_scheduling_between : ∃ c tr s s', martosPre CoreSys.exampleConfig = .ok c ∧
    Run CoreSys.Step (CoreSys.start c) tr s ∧ s.Step (.call (.taskSetPrio 2 6)) s' ∧ s.core.lists .ready = [1, 2, 3] ∧
    KeepsScheduling s s' := by
  obtain ⟨c, tr, s, hc, hr, hp⟩ := CoreSys.exists_run_of_replayed CoreSys.exampleConfig (fun _ _ => True)
    (CoreSys.startTask 1 "one" 7 0x20001000 ++ CoreSys.startTask 2 "two" 5 0x20002000 ++
      CoreSys.startTask 3 "three" 3 0x20003000)
    (p := fun s => decide (s.core.lists .ready = [1, 2, 3] ∧ s.core.prio 1 = 7 ∧ s.core.prio 2 = 5 ∧ s.core.prio 3 = 3 ∧
      7 ≤ s.core.prio s.core.running) && (s.next (.call (.taskSetPrio 2 6))).isSome)
    (by decide +kernel)
  obtain ⟨hp, hnext⟩ := Bool.and_eq_true_iff.mp hp
  obtain ⟨hready, h1, h2, h3, hle⟩ := of_decide_eq_true hp
  obtain ⟨s', hs'⟩ := Option.isSome_iff_exists.mp hnext
  have hr : Run CoreSys.Step (CoreSys.start c) tr s := hr.mono fun _ _ _ h => h.2
  have hst := CoreSys.step_of_next hs'
  refine ⟨c, tr, s, s', hc, hr, hst, hready, ?_⟩
  refine (task_set_prio_keeps_scheduling_iff hc hr ?_ (fun u hu => ?_) hst).mpr fun ys zs heq => ?_
  · simp [hready, h1, h2, h3]
  · rw [hready] at hu
    simp only [List.mem_cons, List.not_mem_nil, or_false] at hu
    rcases hu with rfl | rfl | rfl <;> omega
  · rw [hready] at heq
    obtain ⟨rfl, rfl⟩ : ys = [1] ∧ zs = [3] := by
      rcases ys with _ | ⟨y₁, _ | ⟨y₂, _ | ⟨y₃, ys⟩⟩⟩ <;> simp_all
    simp [h1, h3]

/-- Two tasks are on `ready`, and the second gets a priority above the first. -/
theorem task_set_prio_leaves_ready_unsorted : ¬ ∀ (cfg : Config) (c : Core) (tr : List (Move CoreSys Event))
    (s s' : CoreSys) (t : TaskRef) (p : ℤ), martosPre cfg = .ok c → Run CoreSys.Step (CoreSys.start c) tr s →
    (s.core.lists .ready).Pairwise (fun t u => s.core.prio u ≤ s.core.prio t) → s.core.Top →
    s.Step (.call (.taskSetPrio t p)) s' → KeepsScheduling s s' := by
  intro hall
  obtain ⟨c, tr, s, hc, hr, hp⟩ := CoreSys.exists_run_of_replayed CoreSys.exampleConfig (fun _ _ => True)
    (CoreSys.startTask 1 "one" 5 0x20001000 ++ CoreSys.startTask 2 "two" 3 0x20002000)
    (p := fun s => decide (s.core.lists .ready = [1, 2] ∧ s.core.prio 1 = 5 ∧ s.core.prio 2 = 3 ∧
        5 ≤ s.core.prio s.core.running) && (s.next (.call (.taskSetPrio 2 10))).any fun s' : CoreSys =>
          decide (s'.core.lists .ready = [1, 2] ∧ s'.core.prio 1 = 5 ∧ s'.core.prio 2 = 10))
    (by decide +kernel)
  obtain ⟨hp, hnext⟩ := Bool.and_eq_true_iff.mp hp
  obtain ⟨hready, h1, h2, hle⟩ := of_decide_eq_true hp
  obtain ⟨s', hs', hp'⟩ := (Option.any_eq_true ..).mp hnext
  obtain ⟨hready', h1', h2'⟩ := of_decide_eq_true hp'
  have hr : Run CoreSys.Step (CoreSys.start c) tr s := hr.mono fun _ _ _ h => h.2
  have hsorted := (hall _ c tr s s' 2 10 hc hr (by simp [hready, h1, h2]) (fun u hu => ?_)
    (CoreSys.step_of_next hs')).sorted
  · simp [hready', h1', h2'] at hsorted
  · rw [hready] at hu
    rcases List.mem_cons.mp hu with rfl | hu
    · rw [h1]; exact hle
    · rw [List.mem_singleton.mp hu, h2]; omega

end

end Martos
