import Martos.Core.Priority
import Martos.Lib.Levels

/-!
# The ready list as queues by priority

`ready` is one list, kept in order by `list_enqueue`. What it stands for is a queue for
each priority: a task that becomes ready goes to the end of the queue of its priority, and
the switch takes the first task of the highest priority. `CoreSys.ops` says what a move does
to these queues, and the machine does nothing else (`Ordered.moves`).

From this follows what a task on `ready` can count on. It is passed over once for every task
that stands before it, and once for every task of a higher priority that becomes ready
meanwhile, and not more often (`waits_for_those_before`).
-/

namespace Martos

open Transition Levels

namespace CoreSys

/-- What a move does to the ready tasks. -/
def ops (m : Move CoreSys Event) : List (Op TaskRef ℤ) :=
  match m.event with
  | .call (.signalSend t sg) => if m.pre.core.Wakes t sg then [.arrive t (m.pre.core.prio t)] else []
  | .isrSignalSend t sg => if m.pre.core.Wakes t sg then [.arrive t (m.pre.core.prio t)] else []
  | .resume =>
    match m.pre.pc m.pre.core.running with
    | .taskSchedule t => [.arrive t (m.pre.core.prio t)]
    | _ => []
  | .pendSVSwitch _ =>
    -- a task that can run on becomes ready first
    (if (m.pre.core.task m.pre.core.running).state = .running then
      [.arrive m.pre.core.running (m.pre.core.prio m.pre.core.running)] else []) ++ [.select m.post.core.running]
  | _ => []

/-- The tasks selected, and those that become ready, in the moves of a run. -/
def opsOf (tr : List (Move CoreSys Event)) : List (Op TaskRef ℤ) := tr.flatMap ops

/-- The move is the switch of `PendSV_Handler_user`. -/
def isSwitch (m : Move CoreSys Event) : Bool :=
  match m.event with
  | .pendSVSwitch _ => true
  | _ => false

/-- How often a task of a priority above `p` becomes ready. -/
def overtakes (p : ℤ) (tr : List (Move CoreSys Event)) : ℕ := (opsOf tr).countP (Op.isAbove p)

/-- The queues that `ready` stands for. -/
def queues (s : CoreSys) : ℤ → List TaskRef := level s.core.prio (s.core.lists .ready)

end CoreSys

section

variable {s s' : CoreSys} {e : Event} {t : TaskRef}

/-- What a step does to `ready`, and that it leaves the priorities there alone. -/
structure ReadyMoves (s : CoreSys) (ops : List (Op TaskRef ℤ)) (s' : CoreSys) : Prop where
  /-- What it does. -/
  moves : Moves s.core.prio (s.core.lists .ready) ops (s'.core.lists .ready)
  /-- The priorities. -/
  prio : ∀ u ∈ s'.core.lists .ready, s'.core.prio u = s.core.prio u

/-- A step that leaves `ready` and the priorities alone. -/
theorem ReadyMoves.of_same (hl : s'.core.lists .ready = s.core.lists .ready)
    (hp : ∀ u, s'.core.prio u = s.core.prio u) :
    ReadyMoves s [] s' where
  moves := by
    rw [hl]
    exact .nil
  prio u _ := hp u

/-- A task that queues itself as waiting leaves `ready` alone. -/
theorem Core.queued_ready (c : Core) : c.queued.lists .ready = c.lists .ready := by
  have hne : TaskList.ready ≠ .waiting := by decide
  change c.lists.listAddTail .waiting c.running .ready = c.lists .ready
  rw [Seqs.listAddTail_of_ne hne]

/-- A task that is on no list becomes ready. -/
theorem ReadyMoves.of_enqueued (ht : t ∉ s.core.lists .ready) {f : Seqs TaskList TaskRef}
    (hf : f .ready = s.core.lists .ready) (hl : s'.core.lists = f.listEnqueue s.core.prio .ready t)
    (hp : ∀ u, s'.core.prio u = s.core.prio u) : ReadyMoves s [.arrive t (s.core.prio t)] s' where
  moves := by
    rw [hl, Seqs.listEnqueue_self, hf]
    exact .arrive ht .nil
  prio u _ := hp u

/-- A task is switched in. -/
theorem ReadyMoves.of_switchedIn {ops : List (Op TaskRef ℤ)} {d : Core}
    (hm : ∀ ys, Moves s.core.prio (d.lists .ready) [.select t] ys → Moves s.core.prio (s.core.lists .ready) ops ys)
    (hp : d.prio = s.core.prio) (hh : (d.lists .ready).head? = some t) :
    ReadyMoves s ops { s with core := d.switchedIn t, phase := .switched } where
  moves := by
    obtain ⟨rest, hr⟩ : ∃ rest, d.lists .ready = t :: rest := ⟨_, List.eq_cons_of_mem_head? hh⟩
    refine hm _ ?_
    have htail : (d.switchedIn t).lists .ready = rest := by
      change (d.lists.listRemHead .ready).2 .ready = rest
      rw [Seqs.listRemHead_self, hr, List.tail_cons]
    rw [show ({ s with core := d.switchedIn t, phase := .switched } : CoreSys).core.lists .ready = rest from htail, hr]
    exact .select .nil
  prio u _ := by
    rw [← hp]
    exact congrFun (Core.switchedIn_prio d t) u

theorem CoreSys.ops_of_sends {e : Event} {t : TaskRef} {sg : Signals}
    (he : (e = .call (.signalSend t sg) ∧ s.AtUser) ∨ (e = .isrSignalSend t sg ∧ s.core.primask = false)) :
    CoreSys.ops ⟨s, e, s'⟩ = if s.core.Wakes t sg then [.arrive t (s.core.prio t)] else [] := by
  rcases he with ⟨rfl, -⟩ | ⟨rfl, -⟩ <;> rfl

/-- **What every step does to the ready tasks.** -/
theorem Placed.readyMoves (hpl : Placed s) (hn : Nested s) (hok : SetsOwnPrio s e) (hst : s.Step e s') :
    ReadyMoves s (CoreSys.ops ⟨s, e, s'⟩) s' := by
  have hmem {u : TaskRef} (hu : u ∈ s.core.lists .ready) : (s.core.task u).state = .ready :=
    Core.place_ready.mp ((hpl.located.mem _ u).mp hu)
  have hresume {p : Pc} (hpc : s.pc s.core.running = p) (hp : ∀ u, p ≠ .taskSchedule u) :
      CoreSys.ops ⟨s, .resume, s'⟩ = [] := by
    simp only [CoreSys.ops, hpc]
  cases hn.effect hst with
  | disable hu => exact .of_same rfl fun _ => rfl
  | enable hu hd => exact .of_same rfl fun _ => rfl
  | @taskInit t params context hu hf =>
    refine ⟨.nil, fun u hu => ?_⟩
    have hut : u ≠ t := by
      rintro rfl
      exact hn.listed _ u hu hf
    simp [Core.prio, Core.prepared, hut]
  | taskSchedule hu hi => exact .of_same rfl fun _ => rfl
  | @taskSetPrio t prio hu =>
    obtain rfl : t = s.core.running := hok
    refine ⟨.nil, fun u hul => ?_⟩
    -- the running task is not on `ready`
    have hut : u ≠ s.core.running := by
      rintro rfl
      exact absurd ((hmem hul).symm.trans (hpl.state_user hu.2)) (by decide)
    exact (congrFun (Core.repriced_prio ..) u).trans (Function.update_of_ne hut ..)
  | signalAllocate target hu => exact .of_same rfl (Core.apply_update Task.prio (by rfl))
  | signalFree hu hs => exact .of_same rfl (Core.apply_update Task.prio (by rfl))
  | posted hw he =>
    rw [CoreSys.ops_of_sends he, if_neg hw]
    exact .of_same rfl (Core.apply_update Task.prio (by rfl))
  | @woken e t sg hw hm he =>
    rw [CoreSys.ops_of_sends he, if_pos hw]
    have hout : t ∉ s.core.lists .ready := fun hr => absurd ((hmem hr).symm.trans hw.1) (by decide)
    refine .of_enqueued hout (f := s.core.lists.listUnlink t) ?_ rfl (Core.apply_update Task.prio (by rfl))
    rw [Seqs.listUnlink_apply, List.erase_of_not_mem hout]
  | @waitBlocks sg hu hlt hz hl =>
    refine .of_same (s.core.awaits sg).queued_ready fun u => ?_
    exact (Core.apply_update Task.prio (by rfl) u).trans (Core.apply_update Task.prio (by rfl) u)
  | waitReturns hu hlt hz =>
    refine .of_same rfl fun u => ?_
    exact (Core.apply_update Task.prio (by rfl) u).trans (Core.apply_update Task.prio (by rfl) u)
  | @inserts t ht hpc hl =>
    have hops : CoreSys.ops ⟨s, .resume, { s.goto .taskScheduleReschedule with
        core := s.core.inserted t, life := Function.update s.life t .scheduled }⟩ = [.arrive t (s.core.prio t)] := by
      simp only [CoreSys.ops, hpc]
    rw [hops]
    exact .of_enqueued (fun hr => hl (.inl hr)) rfl rfl (Core.apply_update Task.prio (by rfl))
  | requests ht hpc =>
    rw [hresume hpc (by simp)]
    exact .of_same rfl fun _ => rfl
  | yields ht hpc =>
    rw [hresume hpc (by simp)]
    exact .of_same rfl fun _ => rfl
  | blocksAgain ht hpc hz hl =>
    rw [hresume hpc (by simp)]
    exact .of_same s.core.queued_ready (Core.apply_update Task.prio (by rfl))
  | returns ht hpc hz =>
    rw [hresume hpc (by simp)]
    exact .of_same rfl (Core.apply_update Task.prio (by rfl))
  | sysTick hm => exact .of_same rfl fun _ => rfl
  | pendSV hp hm => exact .of_same rfl fun _ => rfl
  | @preempts frame t hp hs hl hh =>
    have hops : CoreSys.ops ⟨s, .pendSVSwitch frame,
        { s with core := (s.core.requeued frame).switchedIn t, phase := .switched }⟩ =
          [.arrive s.core.running (s.core.prio s.core.running), .select t] := by
      simp only [CoreSys.ops, hs]
      rfl
    rw [hops]
    refine .of_switchedIn (fun ys hys => ?_) (funext (Core.apply_update Task.prio (by rfl))) hh
    exact .arrive (fun hr => hl (.inl hr)) hys
  | @leaves frame t st hp hs hor hh =>
    have hne : (s.core.task s.core.running).state ≠ .running := by
      rw [hs]
      rcases hor with rfl | rfl <;> decide
    have hops : CoreSys.ops ⟨s, .pendSVSwitch frame,
        { s with core := (s.core.switchedOut frame st).switchedIn t, phase := .switched }⟩ = [.select t] := by
      simp only [CoreSys.ops, if_neg hne]
      rfl
    rw [hops]
    exact .of_switchedIn (fun ys hys => hys) (funext (Core.apply_update Task.prio (by rfl))) hh
  | pendSVExit hp => exact .of_same rfl fun _ => rfl

/-! ### Runs -/

/-- The order of the ready tasks, and what it rests on. -/
structure WellOrdered (s : CoreSys) : Prop where
  /-- The nesting discipline. -/
  nested : Nested s
  /-- Every task is where its state says. -/
  placed : Placed s
  /-- `ready` is sorted. -/
  ordered : Ordered s

theorem WellOrdered.start {cfg : Config} {c : Core} (h : martosPre cfg = .ok c) : WellOrdered (CoreSys.start c) where
  nested := .start h
  placed := .start h
  ordered := .start h

theorem WellOrdered.step (h : WellOrdered s) (hst : Restrict SetsOwnPrio CoreSys.Step s e s') : WellOrdered s' where
  nested := h.nested.step hst.2
  placed := h.placed.step h.nested hst.2
  ordered := h.ordered.step h.nested h.placed (hst.1.fitting h.placed hst.2) hst.2

theorem WellOrdered.run {tr : List (Move CoreSys Event)} (h : WellOrdered s)
    (hr : Run (Restrict SetsOwnPrio CoreSys.Step) s tr s') : WellOrdered s' :=
  hr.invariant h fun _ _ _ h hst => h.step hst

theorem ReadyMoves.queues {ops : List (Op TaskRef ℤ)} (h : ReadyMoves s ops s') :
    s'.queues = level s.core.prio (s'.core.lists .ready) := by
  funext p
  refine List.filter_congr fun u hu => ?_
  rw [h.prio u hu]

theorem CoreSys.opsOf_snoc (tr : List (Move CoreSys Event)) (m : Move CoreSys Event) :
    CoreSys.opsOf (tr ++ [m]) = CoreSys.opsOf tr ++ CoreSys.ops m := by
  simp [CoreSys.opsOf]

/-- Seen through the queues, a run is a run of the queues. -/
theorem WellOrdered.queues_run {tr : List (Move CoreSys Event)} (h : WellOrdered s)
    (hr : Run (Restrict SetsOwnPrio CoreSys.Step) s tr s') :
    ∃ qtr, Run Levels.Step s.queues qtr s'.queues ∧ qtr.map Move.event = CoreSys.opsOf tr := by
  induction hr with
  | nil => exact ⟨[], .nil, rfl⟩
  | @snoc tr a b e hr hst ih =>
    have ha := h.run hr
    obtain ⟨qtr₁, hq₁, htr₁⟩ := ih
    have hready := ha.placed.readyMoves ha.nested hst.1 hst.2
    obtain ⟨qtr₂, hq₂, htr₂⟩ := hready.moves.levels ha.ordered.sorted
    rw [← hready.queues] at hq₂
    exact ⟨qtr₁ ++ qtr₂, hq₁.append hq₂, by rw [List.map_append, htr₁, htr₂, CoreSys.opsOf_snoc]⟩

/-- The account of a task on `ready`, while it is not selected. -/
theorem WellOrdered.before_run {tr : List (Move CoreSys Event)} (h : WellOrdered s) (ht : t ∈ s.core.lists .ready)
    (hr : Run (Restrict SetsOwnPrio CoreSys.Step) s tr s') (hno : ∀ u, Op.select u ∈ CoreSys.opsOf tr → u ≠ t) :
    t ∈ s'.core.lists .ready ∧ s'.core.prio t = s.core.prio t ∧
    before t (s'.core.lists .ready) + (CoreSys.opsOf tr).countP Op.isSelect =
      before t (s.core.lists .ready) + (CoreSys.opsOf tr).countP (Op.isAbove (s.core.prio t)) := by
  induction hr with
  | nil => exact ⟨ht, rfl, rfl⟩
  | @snoc tr a b e hr hst ih =>
    rw [CoreSys.opsOf_snoc] at hno ⊢
    obtain ⟨hmem, hprio, heq⟩ := ih fun u hu => hno u (List.mem_append_left _ hu)
    have ha := h.run hr
    have hready := ha.placed.readyMoves ha.nested hst.1 hst.2
    obtain ⟨hmem', heq'⟩ := hready.moves.before ha.ordered.sorted hmem fun u hu => hno u (List.mem_append_right _ hu)
    refine ⟨hmem', (hready.prio t hmem').trans hprio, ?_⟩
    rw [hprio] at heq'
    rw [List.countP_append, List.countP_append]
    omega

/-- **The ready list is a queue for each priority.** In every run in which `task_set_prio` is
applied to the running task only: what happens to the queues that `ready` stands for is that
the tasks which become ready go to the end of the queue of their priority, and each switch
takes the first task of the highest priority that has any; and these queues determine
`ready`, it is the only list in order that stands for them. -/
theorem ready_is_queues {cfg : Config} {c : Core} {tr : List (Move CoreSys Event)} (h : martosPre cfg = .ok c)
    (hr : Run (Restrict SetsOwnPrio CoreSys.Step) (CoreSys.start c) tr s) :
    (∃ qtr, Run Levels.Step (fun _ => []) qtr s.queues ∧ qtr.map Move.event = CoreSys.opsOf tr) ∧
    ∀ xs, Falling s.core.prio xs → level s.core.prio xs = s.queues → xs = s.core.lists .ready := by
  have hs := (WellOrdered.start h).run hr
  obtain ⟨qtr, hq, htr⟩ := (WellOrdered.start h).queues_run hr
  have hnil : (CoreSys.start c).queues = fun _ => [] := by
    obtain ⟨context, rfl⟩ := Core.exists_of_martosPre h
    rfl
  rw [hnil] at hq
  exact ⟨⟨qtr, hq, htr⟩, fun xs hxs hlev => hxs.eq_of_levels hs.ordered.sorted hlev⟩

/-- The theorem where two tasks of one priority have become ready and the first of them runs. -/
theorem ready_is_queues_two : ∃ c tr s qtr, martosPre CoreSys.exampleConfig = .ok c ∧
    Run (Restrict SetsOwnPrio CoreSys.Step) (CoreSys.start c) tr s ∧ Run Levels.Step (fun _ => []) qtr s.queues ∧
    s.queues 5 = [2] ∧ s.queues taskPrioMin = [initTask] ∧ s.core.running = 1 := by
  obtain ⟨c, tr, s, hc, hr, hp⟩ := CoreSys.exists_run_of_replayed CoreSys.exampleConfig SetsOwnPrio
    CoreSys.twoTasks
    (p := fun s => decide (s.queues 5 = [2] ∧ s.queues taskPrioMin = [initTask] ∧ s.core.running = 1))
    (by decide +kernel)
  obtain ⟨h5, hmin, hrun⟩ := of_decide_eq_true hp
  obtain ⟨qtr, hq, -⟩ := (ready_is_queues hc hr).1
  exact ⟨c, tr, s, qtr, hc, hr, hq, h5, hmin, hrun⟩

/-! ### How long a task on `ready` waits -/

/-- A switch selects the task that runs after it, and nothing else selects one. -/
theorem CoreSys.mem_ops_select {m : Move CoreSys Event} {u : TaskRef} :
    Op.select u ∈ CoreSys.ops m ↔ CoreSys.isSwitch m = true ∧ m.post.core.running = u := by
  obtain ⟨a, e, b⟩ := m
  cases e with
  | call k =>
    cases k with
    | signalSend t sg => by_cases hw : a.core.Wakes t sg <;> simp [CoreSys.ops, CoreSys.isSwitch, hw]
    | _ => simp [CoreSys.ops, CoreSys.isSwitch]
  | isrSignalSend t sg => by_cases hw : a.core.Wakes t sg <;> simp [CoreSys.ops, CoreSys.isSwitch, hw]
  | resume =>
    cases hpc : a.pc a.core.running <;> simp [CoreSys.ops, CoreSys.isSwitch, hpc]
  | pendSVSwitch frame =>
    by_cases hs : (a.core.task a.core.running).state = .running
    · simp [CoreSys.ops, CoreSys.isSwitch, hs, eq_comm]
    · simp [CoreSys.ops, CoreSys.isSwitch, hs, eq_comm]
  | _ => simp [CoreSys.ops, CoreSys.isSwitch]

theorem CoreSys.countP_ops_isSelect (m : Move CoreSys Event) :
    (CoreSys.ops m).countP Op.isSelect = if CoreSys.isSwitch m = true then 1 else 0 := by
  obtain ⟨a, e, b⟩ := m
  cases e with
  | call k =>
    cases k with
    | signalSend t sg => by_cases hw : a.core.Wakes t sg <;> simp [CoreSys.ops, CoreSys.isSwitch, hw, Op.isSelect]
    | _ => simp [CoreSys.ops, CoreSys.isSwitch]
  | isrSignalSend t sg => by_cases hw : a.core.Wakes t sg <;> simp [CoreSys.ops, CoreSys.isSwitch, hw, Op.isSelect]
  | resume =>
    cases hpc : a.pc a.core.running <;> simp [CoreSys.ops, CoreSys.isSwitch, hpc, Op.isSelect]
  | pendSVSwitch frame =>
    by_cases hs : (a.core.task a.core.running).state = .running
    · simp [CoreSys.ops, CoreSys.isSwitch, hs, Op.isSelect]
    · simp [CoreSys.ops, CoreSys.isSwitch, hs, Op.isSelect]
  | _ => simp [CoreSys.ops, CoreSys.isSwitch]

theorem CoreSys.countP_isSwitch (tr : List (Move CoreSys Event)) :
    (CoreSys.opsOf tr).countP Op.isSelect = tr.countP CoreSys.isSwitch := by
  induction tr with
  | nil => rfl
  | cons m tr ih =>
    rw [CoreSys.opsOf, List.flatMap_cons, List.countP_append, CoreSys.countP_ops_isSelect, List.countP_cons]
    rw [CoreSys.opsOf] at ih
    rw [ih, Nat.add_comm]

/-- **How long a task on `ready` waits.** In every run in which `task_set_prio` is applied to the
running task only, from any moment at which task `t` is on `ready`, as long as no switch
selects it: it stays on `ready`, and the switches made are as many as the tasks that have
gone from before it, those that were there at first and those of a higher priority that have
become ready since. So with more switches than these, `t` has been selected. -/
theorem waits_for_those_before {cfg : Config} {c : Core} {tr₀ tr : List (Move CoreSys Event)} {s₀ : CoreSys}
    (h : martosPre cfg = .ok c) (hr₀ : Run (Restrict SetsOwnPrio CoreSys.Step) (CoreSys.start c) tr₀ s₀)
    (ht : t ∈ s₀.core.lists .ready) (hr : Run (Restrict SetsOwnPrio CoreSys.Step) s₀ tr s) :
    ((∀ m ∈ tr, CoreSys.isSwitch m = true → m.post.core.running ≠ t) → t ∈ s.core.lists .ready ∧
      before t (s.core.lists .ready) + tr.countP CoreSys.isSwitch =
        before t (s₀.core.lists .ready) + CoreSys.overtakes (s₀.core.prio t) tr) ∧
    (before t (s₀.core.lists .ready) + CoreSys.overtakes (s₀.core.prio t) tr < tr.countP CoreSys.isSwitch →
      ∃ m ∈ tr, CoreSys.isSwitch m = true ∧ m.post.core.running = t) := by
  have hs₀ := (WellOrdered.start h).run hr₀
  have haccount (hno : ∀ m ∈ tr, CoreSys.isSwitch m = true → m.post.core.running ≠ t) : t ∈ s.core.lists .ready ∧
      before t (s.core.lists .ready) + tr.countP CoreSys.isSwitch =
        before t (s₀.core.lists .ready) + CoreSys.overtakes (s₀.core.prio t) tr := by
    obtain ⟨hmem, -, heq⟩ := hs₀.before_run ht hr fun u hu => by
      obtain ⟨m, hm, hu⟩ := List.mem_flatMap.mp hu
      obtain ⟨hsw, rfl⟩ := CoreSys.mem_ops_select.mp hu
      exact hno m hm hsw
    rw [CoreSys.countP_isSwitch] at heq
    exact ⟨hmem, heq⟩
  refine ⟨haccount, fun hlt => ?_⟩
  by_contra hno
  obtain ⟨-, heq⟩ := haccount fun m hm hsw hrun => hno ⟨m, hm, hsw, hrun⟩
  omega

/-- The theorem at the second of two tasks of one priority: the first one blocks, and the next
switch selects it. -/
theorem waits_for_those_before_next : ∃ c tr₀ s₀ tr s, martosPre CoreSys.exampleConfig = .ok c ∧
    Run (Restrict SetsOwnPrio CoreSys.Step) (CoreSys.start c) tr₀ s₀ ∧ 2 ∈ s₀.core.lists .ready ∧
    Run (Restrict SetsOwnPrio CoreSys.Step) s₀ tr s ∧ tr.countP CoreSys.isSwitch = 1 ∧
    ∃ m ∈ tr, CoreSys.isSwitch m = true ∧ m.post.core.running = 2 := by
  obtain ⟨c, tr₀, s₀, tr, s, hc, hr₀, hr, hp⟩ := CoreSys.exists_runs_of_replayed CoreSys.exampleConfig SetsOwnPrio
    CoreSys.twoTasks
    [.call (.signalWait 1), .resume, .pendSV, .pendSVSwitch 0x20001200, .pendSVExit]
    (p := fun s₀ tr _ => decide (2 ∈ s₀.core.lists .ready ∧ tr.countP CoreSys.isSwitch = 1 ∧
      before 2 (s₀.core.lists .ready) + CoreSys.overtakes (s₀.core.prio 2) tr < tr.countP CoreSys.isSwitch))
    (by decide +kernel)
  obtain ⟨hmem, hcount, hlt⟩ := of_decide_eq_true hp
  exact ⟨c, tr₀, s₀, tr, s, hc, hr₀, hmem, hr, hcount, (waits_for_those_before hc hr₀ hmem hr).2 hlt⟩

end

end Martos
