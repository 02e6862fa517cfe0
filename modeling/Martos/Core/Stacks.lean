import Martos.Core.Placement

/-!
# The stack check of the context switch

`PendSV_Handler_user` begins with `task_verify(running)`, "check task which is switched
out". What it checks is `running->context.frame`, and that is still the frame of the
switch before: the frame it is given, `old_frame`, is stored after the check and before the
next task is selected. So a task that has run out of its stack is switched out unchecked;
its frame is looked at only when the task is selected again, by the second `task_verify`
of the handler.

`overflow_caught_iff` says when the handler keeps to what that comment promises: where the
frame lies in the stack area, or the running task is the one selected next.
-/

namespace Martos

open Checked Transition

/-- The frame lies in the stack area. -/
def TaskContext.Holds (k : TaskContext) (frame : ℕ) : Prop := k.bos ≤ frame ∧ frame + stackFrameSize ≤ k.tos

/-- If there is a first task on `ready`, it is the running task itself, or the running task
can run on and ranks above it. -/
def Core.Reselects (c : Core) : Prop := ∀ t, (c.lists .ready).head? = some t →
  t = c.running ∨ ((c.task c.running).state = .running ∧ c.prio t < c.prio c.running)

/-- A frame outside of the running task's stack area is caught before another task is made
running, and a task that is switched out leaves a context which passes
`taskcontext_verify`. -/
structure OverflowCaught (s : CoreSys) (oldFrame : ℕ) : Prop where
  /-- A bad frame stops the handler, or no other task is selected. -/
  caught : ¬ (s.core.task s.core.running).context.Holds oldFrame →
    ∀ s', s.Step (.pendSVSwitch oldFrame) s' → s'.core.running = s.core.running
  /-- The saved context is good. -/
  saved : ∀ s', s.Step (.pendSVSwitch oldFrame) s' → s'.core.running ≠ s.core.running →
    taskcontextVerify (s'.core.task s.core.running).context = .ok ()

section

variable {s s' : CoreSys} {frame : ℕ}

theorem taskcontextVerify_of_holds {k : TaskContext} (h : k.Holds frame) :
    taskcontextVerify { k with frame := frame } = .ok () := by
  have hle : (frame + stackFrameSize) % 2 ^ 32 ≤ k.tos := (Nat.mod_le _ _).trans h.2
  rw [taskcontextVerify, assertThat_of _ h.1, ok_bind, assertThat_of _ hle]

theorem Core.switchedIn_of_ne (d : Core) {t u : TaskRef} (hu : u ≠ t) : (d.switchedIn t).task u = d.task u := by
  simp [Core.switchedIn, hu]

theorem Core.switchedOut_context (c : Core) (st : TaskState) :
    ((c.switchedOut frame st).task c.running).context = { (c.task c.running).context with frame := frame } := by
  simp [Core.switchedOut]

/-- The task switched out keeps the frame it is given, whatever it is. -/
theorem Nested.saved_context (h : Nested s) (hst : s.Step (.pendSVSwitch frame) s')
    (hne : s'.core.running ≠ s.core.running) : (s'.core.task s.core.running).context =
      { (s.core.task s.core.running).context with frame := frame } := by
  cases h.effect hst with
  | posted hw he => rcases he with ⟨he, -⟩ | ⟨he, -⟩ <;> cases he
  | woken hw hm he => rcases he with ⟨he, -⟩ | ⟨he, -⟩ <;> cases he
  | preempts hp hs hl hh =>
    calc _ = ((s.core.requeued frame).task s.core.running).context :=
          congrArg Task.context (Core.switchedIn_of_ne _ (Ne.symm hne))
      _ = _ := s.core.switchedOut_context .ready
  | leaves hp hs hst' hh =>
    calc _ = ((s.core.switchedOut frame _).task s.core.running).context :=
          congrArg Task.context (Core.switchedIn_of_ne _ (Ne.symm hne))
      _ = _ := s.core.switchedOut_context _

/-- The first task on `ready` once the running one is back: it is behind those of its own
priority. -/
theorem Core.requeued_head (c : Core) : ((c.requeued frame).lists .ready).head? =
    match (c.lists .ready).head? with
    | none => some c.running
    | some t => if c.prio t < c.prio c.running then some c.running else some t := by
  change (c.lists.listEnqueue c.prio .ready c.running .ready).head? = _
  rw [Seqs.listEnqueue_self]
  cases hl : c.lists .ready with
  | nil => rfl
  | cons t ts =>
    by_cases hlt : c.prio t < c.prio c.running
    · simp [List.orderedInsert, hlt]
    · simp [List.orderedInsert, hlt]

theorem Nested.reselected (h : Nested s) (hr : s.core.Reselects) (hst : s.Step (.pendSVSwitch frame) s') :
    s'.core.running = s.core.running := by
  cases h.effect hst with
  | posted hw he => rcases he with ⟨he, -⟩ | ⟨he, -⟩ <;> cases he
  | woken hw hm he => rcases he with ⟨he, -⟩ | ⟨he, -⟩ <;> cases he
  | @preempts _ t hp hs hl hh =>
    rw [Core.requeued_head] at hh
    cases hhd : (s.core.lists .ready).head? with
    | none =>
      rw [hhd] at hh
      exact (Option.some.inj hh).symm
    | some u =>
      simp only [hhd] at hh
      by_cases hlt : s.core.prio u < s.core.prio s.core.running
      · rw [if_pos hlt] at hh
        exact (Option.some.inj hh).symm
      · rw [if_neg hlt] at hh
        obtain rfl := Option.some.inj hh
        exact (hr u hhd).resolve_right fun hlt' => hlt hlt'.2
  | @leaves _ t st hp hs hst' hh =>
    refine (hr t hh).resolve_right fun hrun => ?_
    rw [hs] at hrun
    rcases hst' with rfl | rfl <;> exact absurd hrun.1 (by decide)

/-- Otherwise the first task on `ready` is selected, and the switch comes to its end. -/
theorem Placed.selects (h : Placed s) (hv : s.phase = .verified) (frame : ℕ) {t : TaskRef}
    (hh : (s.core.lists .ready).head? = some t)
    (hno : ¬ ((s.core.task s.core.running).state = .running ∧ s.core.prio t < s.core.prio s.core.running)) :
    ∃ s', s.Step (.pendSVSwitch frame) s' ∧ s'.core.running = t := by
  -- the first half succeeds, and leaves `t` at the head
  obtain ⟨d, hd, hhd⟩ : ∃ d, s.core.switchOut frame = .ok d ∧ (d.lists .ready).head? = some t := by
    rcases (h.scheduled _).mp h.running_scheduled with hs | hs | hs
    · refine ⟨s.core.requeued frame, by simp only [Core.switchOut, hs, if_neg (h.running_off hs)], ?_⟩
      rw [Core.requeued_head, hh]
      exact if_neg fun hlt => hno ⟨hs, hlt⟩
    · exact ⟨s.core.switchedOut frame .ready, by simp only [Core.switchOut, hs], hh⟩
    · exact ⟨s.core.switchedOut frame .waiting, by simp only [Core.switchOut, hs], hh⟩
  have hsw : pendSVHandlerSwitch frame s.core = .ok (d.switchedIn t) := by
    rw [Core.pendSVHandlerSwitch_eq, hd, ok_bind, Core.switchIn, hhd]
  exact ⟨{ s with core := d.switchedIn t, phase := .switched }, ⟨hv, bind_of_eq_ok hsw _⟩, rfl⟩

/-- **A stack overflow is caught when the task is switched out exactly where it has not
happened, or the task is not switched out**: in every state in which the handler has done
its first `task_verify`, for every frame it has been given. -/
theorem overflow_caught_iff {cfg : Config} {c : Core} {tr : List (Move CoreSys Event)}
    (h : martosPre cfg = .ok c) (hr : Run CoreSys.Step (CoreSys.start c) tr s) (hv : s.phase = .verified)
    (oldFrame : ℕ) :
    OverflowCaught s oldFrame ↔ (s.core.task s.core.running).context.Holds oldFrame ∨ s.core.Reselects := by
  have hn := Nested.run h hr
  have hp := Placed.run h hr
  constructor
  · intro hc
    by_contra hno
    obtain ⟨hbad, hres⟩ := not_or.mp hno
    simp only [Core.Reselects, not_forall, not_or] at hres
    obtain ⟨t, hh, hne, hlow⟩ := hres
    obtain ⟨s', hst, hrun⟩ := hp.selects hv oldFrame hh hlow
    exact hne (hrun.symm.trans (hc.caught hbad s' hst))
  · intro hc
    constructor
    · intro hbad s' hst
      exact hn.reselected (hc.resolve_left hbad) hst
    · intro s' hst hne
      rw [hn.saved_context hst hne]
      rcases hc with hc | hc
      · exact taskcontextVerify_of_holds hc
      · exact absurd (hn.reselected hc hst) hne

/-- The theorem at the init task, which is switched out with a frame in its stack. -/
theorem overflow_caught_iff_two_tasks : ∃ c tr s, martosPre CoreSys.exampleConfig = .ok c ∧
    Run CoreSys.Step (CoreSys.start c) tr s ∧ s.phase = .verified ∧ s.core.lists .ready = [1] ∧
    OverflowCaught s 0x20000200 := by
  obtain ⟨c, tr, s, hc, hr, hp⟩ := CoreSys.exists_run_of_replayed CoreSys.exampleConfig (fun _ _ => True)
    (CoreSys.startTask 1 "one" 5 0x20001000 ++ [.call (.taskSetPrio initTask taskPrioMin), .pendSV])
    (p := fun s => decide (s.phase = .verified ∧ s.core.lists .ready = [1] ∧
      (s.core.task s.core.running).context.bos ≤ 0x20000200 ∧
      0x20000200 + stackFrameSize ≤ (s.core.task s.core.running).context.tos))
    (by decide +kernel)
  obtain ⟨hv, hready, hbos, htos⟩ := of_decide_eq_true hp
  have hr : Run CoreSys.Step (CoreSys.start c) tr s := hr.mono fun _ _ _ h => h.2
  exact ⟨c, tr, s, hc, hr, hv, hready, (overflow_caught_iff hc hr hv _).mpr (.inl ⟨hbos, htos⟩)⟩

/-- The init task has run below its stack, and a task of a higher priority is selected. -/
theorem overflow_passes_switch : ¬ ∀ (cfg : Config) (c : Core) (tr : List (Move CoreSys Event)) (s : CoreSys)
    (oldFrame : ℕ), martosPre cfg = .ok c → Run CoreSys.Step (CoreSys.start c) tr s → s.phase = .verified →
    OverflowCaught s oldFrame := by
  intro hall
  obtain ⟨c, tr, s, hc, hr, hp⟩ := CoreSys.exists_run_of_replayed CoreSys.exampleConfig (fun _ _ => True)
    (CoreSys.startTask 1 "one" 5 0x20001000 ++ [.call (.taskSetPrio initTask taskPrioMin), .pendSV])
    (p := fun s => decide (s.phase = .verified ∧ s.core.running = initTask ∧
        (s.core.task s.core.running).context.bos = 0x20000000) &&
      (s.next (.pendSVSwitch 0x1FFFFFC0)).any fun s' : CoreSys => decide (s'.core.running = 1))
    (by decide +kernel)
  obtain ⟨hp, hnext⟩ := Bool.and_eq_true_iff.mp hp
  obtain ⟨hv, hrun, hbos⟩ := of_decide_eq_true hp
  obtain ⟨s', hs', hp'⟩ := (Option.any_eq_true ..).mp hnext
  have hr : Run CoreSys.Step (CoreSys.start c) tr s := hr.mono fun _ _ _ h => h.2
  have hout : ¬ (s.core.task s.core.running).context.Holds 0x1FFFFFC0 := by
    intro hh
    have hle := hh.1
    rw [hbos] at hle
    omega
  have heq := (hall _ c tr s _ hc hr hv).caught hout s' (CoreSys.step_of_next hs')
  rw [of_decide_eq_true hp', hrun] at heq
  cases heq

end

end Martos
