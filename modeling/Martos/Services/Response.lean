import Martos.Core.Levels
import Martos.Services.Slices

/-!
# How long a ready task waits for the processor

`Core.Levels` counts the switches that pass a ready task over, `Services.Slices` the ticks
between two switches. Together they bound the time that a ready task waits: a tick which
finds no switch pending is taken from the time slice of the running task (`CoreSys.left`),
only a switch gives a new one, and each switch that does not select the task takes one of
those before it.

A tick that finds a switch pending is not counted: it comes while the processor is about to
take PendSV, or while the handler runs. So the bound counts the ticks in which tasks run.
-/

namespace Martos

open Transition Levels

namespace CoreSys

/-- What is left of the time slice of the running task, as long as no switch is under way. -/
def left (s : CoreSys) : ℕ :=
  if s.phase ≠ .verified ∧ s.core.pendSV = false then s.core.elapsed.toNat else 0

/-- The move is a tick which finds no switch under way. -/
def isTick (m : Move CoreSys Event) : Bool :=
  match m.event with
  | .sysTick => decide (m.pre.phase ≠ .verified ∧ m.pre.core.pendSV = false)
  | _ => false

/-- The ticks among the moves in which a task runs. -/
def ticks (tr : List (Move CoreSys Event)) : ℕ := tr.countP isTick

end CoreSys

section

variable {q : BitVec 32} {s s' : CoreSys} {e : Event} {t : TaskRef}

theorem CoreSys.left_of_running (hv : s.phase ≠ .verified) (hp : s.core.pendSV = false) :
    s.left = s.core.elapsed.toNat :=
  if_pos ⟨hv, hp⟩

theorem CoreSys.left_of_switching (h : ¬ (s.phase ≠ .verified ∧ s.core.pendSV = false)) : s.left = 0 := if_neg h

theorem Sliced.left_le (h : Sliced q s) : s.left ≤ q.toNat := by
  by_cases hs : s.phase ≠ .verified ∧ s.core.pendSV = false
  · rw [CoreSys.left_of_running hs.1 hs.2]
    exact (h.elapsed hs.1 hs.2).2
  · rw [CoreSys.left_of_switching hs]
    exact Nat.zero_le _

/-- A step that leaves the count, and no switch undone, leaves no more of the time slice. -/
theorem CoreSys.left_le_of_same (he : s'.core.elapsed = s.core.elapsed)
    (hp : s'.core.pendSV = false → s.core.pendSV = false) (hv : s'.phase ≠ .verified → s.phase ≠ .verified) :
    s'.left ≤ s.left := by
  by_cases hs : s'.phase ≠ .verified ∧ s'.core.pendSV = false
  · rw [CoreSys.left_of_running hs.1 hs.2, CoreSys.left_of_running (hv hs.1) (hp hs.2), he]
  · rw [CoreSys.left_of_switching hs]
    exact Nat.zero_le _

/-- A tick takes one from the time slice, if no switch is under way. -/
theorem Sliced.left_ticked (h : Sliced q s) (he : s'.core = s.core.ticked) (hph : s'.phase = s.phase) :
    s'.left + (if s.phase ≠ .verified ∧ s.core.pendSV = false then 1 else 0) ≤ s.left := by
  by_cases hs : s.phase ≠ .verified ∧ s.core.pendSV = false
  · obtain ⟨hpos, -⟩ := h.elapsed hs.1 hs.2
    obtain ⟨hdown, -⟩ := Core.ticked_of_pos hpos
    rw [if_pos hs, CoreSys.left_of_running hs.1 hs.2]
    by_cases hs' : s'.phase ≠ .verified ∧ s'.core.pendSV = false
    · rw [CoreSys.left_of_running hs'.1 hs'.2, he]
      omega
    · rw [CoreSys.left_of_switching hs']
      omega
  · -- the switch stays under way
    rw [if_neg hs]
    refine le_of_eq_of_le (CoreSys.left_of_switching ?_) (Nat.zero_le _)
    rintro ⟨hv, hp⟩
    rw [he] at hp
    exact hs ⟨hph ▸ hv, (Bool.or_eq_false_iff.mp hp).1⟩

/-- **What a step does to the time slice**: a tick takes one, a switch gives a new one. -/
theorem Sliced.left_step (h : Sliced q s) (hn : Nested s) (hq : q ≠ 0#32) (hst : s.Step e s') :
    s'.left + (if CoreSys.isTick ⟨s, e, s'⟩ then 1 else 0) ≤
      s.left + if CoreSys.isSwitch ⟨s, e, s'⟩ then q.toNat else 0 := by
  have hsame (ht : CoreSys.isTick ⟨s, e, s'⟩ = false) (hle : s'.left ≤ s.left) :
      s'.left + (if CoreSys.isTick ⟨s, e, s'⟩ then 1 else 0) ≤
        s.left + if CoreSys.isSwitch ⟨s, e, s'⟩ then q.toNat else 0 := by
    rw [ht]
    simp only [Bool.false_eq_true, if_false]
    omega
  have hswitch (frame : ℕ) (he : e = .pendSVSwitch frame) :
      s'.left + (if CoreSys.isTick ⟨s, e, s'⟩ then 1 else 0) ≤
        s.left + if CoreSys.isSwitch ⟨s, e, s'⟩ then q.toNat else 0 := by
    subst he
    have hle := (h.step hn hq hst).left_le
    simp only [CoreSys.isTick, CoreSys.isSwitch, Bool.false_eq_true, if_false, if_true]
    omega
  have hsend {u : TaskRef} {sg : Signals} (he : (e = .call (.signalSend u sg) ∧ s.AtUser) ∨
      (e = .isrSignalSend u sg ∧ s.core.primask = false)) : CoreSys.isTick ⟨s, e, s'⟩ = false := by
    rcases he with ⟨rfl, -⟩ | ⟨rfl, -⟩ <;> rfl
  cases hn.effect hst with
  | sysTick hm =>
    have hle : CoreSys.left { s with core := s.core.ticked } +
        (if s.phase ≠ .verified ∧ s.core.pendSV = false then 1 else 0) ≤ s.left := h.left_ticked rfl rfl
    simp only [CoreSys.isTick, CoreSys.isSwitch, decide_eq_true_eq, Bool.false_eq_true, if_false]
    omega
  | @preempts frame t hp hs hl hh => exact hswitch frame rfl
  | @leaves frame t st hp hs hst hh => exact hswitch frame rfl
  | pendSV hp hm =>
    refine hsame rfl (le_of_eq_of_le (CoreSys.left_of_switching ?_) (Nat.zero_le _))
    rintro ⟨hv, -⟩
    exact hv rfl
  | pendSVExit hp => exact hsame rfl (CoreSys.left_le_of_same rfl id fun _ => by rw [hp]; decide)
  | taskSetPrio hu => exact hsame rfl (CoreSys.left_le_of_same rfl (fun hp => (Bool.or_eq_false_iff.mp hp).1) id)
  | posted hw he => exact hsame (hsend he) (CoreSys.left_le_of_same rfl id id)
  | woken hw hm he =>
    exact hsame (hsend he) (CoreSys.left_le_of_same rfl (fun hp => (Bool.or_eq_false_iff.mp hp).1) id)
  | requests ht hpc => exact hsame rfl (CoreSys.left_le_of_same rfl (fun hp => by cases hp) id)
  | yields ht hpc => exact hsame rfl (CoreSys.left_le_of_same rfl (fun hp => by cases hp) id)
  | _ => exact hsame rfl (CoreSys.left_le_of_same rfl id id)

/-! ### Runs -/

/-- What the bound rests on. -/
structure Timely (q : BitVec 32) (s : CoreSys) : Prop where
  /-- The order of the ready tasks. -/
  ordered : WellOrdered s
  /-- The time slice of the running task. -/
  sliced : Sliced q s

theorem Timely.step (h : Timely q s) (hq : q ≠ 0#32) (hst : Restrict SetsOwnPrio CoreSys.Step s e s') :
    Timely q s' where
  ordered := h.ordered.step hst
  sliced := h.sliced.step h.ordered.nested hq hst.2

theorem Timely.run {tr : List (Move CoreSys Event)} (h : Timely q s) (hq : q ≠ 0#32)
    (hr : Run (Restrict SetsOwnPrio CoreSys.Step) s tr s') : Timely q s' :=
  hr.invariant h fun _ _ _ h hst => h.step hq hst

/-- The ticks of a run come out of the time slice at hand and those which the switches give. -/
theorem Timely.ticks_le {tr : List (Move CoreSys Event)} (h : Timely q s) (hq : q ≠ 0#32)
    (hr : Run (Restrict SetsOwnPrio CoreSys.Step) s tr s') :
    s'.left + CoreSys.ticks tr ≤ s.left + q.toNat * tr.countP CoreSys.isSwitch := by
  unfold CoreSys.ticks
  induction hr with
  | nil => simp
  | @snoc tr a b e hr hst ih =>
    have ha := h.run hq hr
    have hle := ha.sliced.left_step ha.ordered.nested hq hst.2
    rw [List.countP_append, List.countP_append, List.countP_singleton, List.countP_singleton, Nat.mul_add]
    cases hsw : CoreSys.isSwitch ⟨a, e, b⟩ with
    | true =>
      simp only [hsw, if_true] at hle ⊢
      omega
    | false =>
      simp only [hsw, Bool.false_eq_true, if_false] at hle ⊢
      omega

/-- **How long a ready task waits.** For every time slice of at least one tick, in every run in
which `task_set_prio` is applied to the running task only, from any moment at which task `t`
is on `ready`: as long as no switch selects it, there come no more ticks than are left of the
time slice of the running task and one time slice for every task that has gone from before
`t`, those that stood before it and those of a higher priority that have become ready since.
So with more ticks than one time slice, and one for each of these, `t` has been selected. -/
theorem response_time_bounded {cfg : Config} {c : Core} {tr₀ tr : List (Move CoreSys Event)} {s₀ : CoreSys}
    (hq : cfg.quantum ≠ 0#32) (h : martosPre cfg = .ok c)
    (hr₀ : Run (Restrict SetsOwnPrio CoreSys.Step) (CoreSys.start c) tr₀ s₀) (ht : t ∈ s₀.core.lists .ready)
    (hr : Run (Restrict SetsOwnPrio CoreSys.Step) s₀ tr s) :
    ((∀ m ∈ tr, CoreSys.isSwitch m = true → m.post.core.running ≠ t) →
      CoreSys.ticks tr + cfg.quantum.toNat * before t (s.core.lists .ready) ≤
        s₀.left + cfg.quantum.toNat * (before t (s₀.core.lists .ready) + CoreSys.overtakes (s₀.core.prio t) tr)) ∧
    (cfg.quantum.toNat * (1 + before t (s₀.core.lists .ready) + CoreSys.overtakes (s₀.core.prio t) tr) <
      CoreSys.ticks tr → ∃ m ∈ tr, CoreSys.isSwitch m = true ∧ m.post.core.running = t) := by
  have hs₀ : Timely cfg.quantum s₀ := Timely.run ⟨.start h, .start h hq⟩ hq hr₀
  have hbound (hno : ∀ m ∈ tr, CoreSys.isSwitch m = true → m.post.core.running ≠ t) :
      CoreSys.ticks tr + cfg.quantum.toNat * before t (s.core.lists .ready) ≤ s₀.left +
        cfg.quantum.toNat * (before t (s₀.core.lists .ready) + CoreSys.overtakes (s₀.core.prio t) tr) := by
    obtain ⟨-, -, heq⟩ := hs₀.ordered.before_run ht hr fun u hu => by
      obtain ⟨m, hm, hu⟩ := List.mem_flatMap.mp hu
      obtain ⟨hsw, rfl⟩ := CoreSys.mem_ops_select.mp hu
      exact hno m hm hsw
    rw [CoreSys.countP_isSwitch] at heq
    have hticks := hs₀.ticks_le hq hr
    calc CoreSys.ticks tr + cfg.quantum.toNat * before t (s.core.lists .ready)
        ≤ s₀.left + cfg.quantum.toNat * tr.countP CoreSys.isSwitch +
          cfg.quantum.toNat * before t (s.core.lists .ready) := by omega
      _ = s₀.left + cfg.quantum.toNat * (before t (s.core.lists .ready) + tr.countP CoreSys.isSwitch) := by
        rw [Nat.mul_add]
        omega
      _ = s₀.left + cfg.quantum.toNat *
          (before t (s₀.core.lists .ready) + CoreSys.overtakes (s₀.core.prio t) tr) := by
        rw [CoreSys.overtakes, ← heq]
  refine ⟨hbound, fun hlt => ?_⟩
  by_contra hno
  have hle := hbound fun m hm hsw hrun => hno ⟨m, hm, hsw, hrun⟩
  have hleft := hs₀.sliced.left_le
  rw [Nat.add_assoc, Nat.mul_add, Nat.mul_one] at hlt
  omega

/-- The theorem at the second of two tasks of one priority, for which two time slices of ten ticks
and one more tick have come: it has been selected. -/
theorem response_time_bounded_second : ∃ c tr₀ s₀ tr s, martosPre CoreSys.exampleConfig = .ok c ∧
    Run (Restrict SetsOwnPrio CoreSys.Step) (CoreSys.start c) tr₀ s₀ ∧ 2 ∈ s₀.core.lists .ready ∧
    Run (Restrict SetsOwnPrio CoreSys.Step) s₀ tr s ∧ CoreSys.ticks tr = 11 ∧
    ∃ m ∈ tr, CoreSys.isSwitch m = true ∧ m.post.core.running = 2 := by
  obtain ⟨c, tr₀, s₀, tr, s, hc, hr₀, hr, hp⟩ := CoreSys.exists_runs_of_replayed CoreSys.exampleConfig SetsOwnPrio
    CoreSys.twoTasks
    (List.replicate 10 .sysTick ++ [.pendSV, .pendSVSwitch 0x20001200, .pendSVExit, .sysTick])
    (p := fun s₀ tr _ => decide (2 ∈ s₀.core.lists .ready ∧ CoreSys.ticks tr = 11 ∧
      10 * (1 + before 2 (s₀.core.lists .ready) + CoreSys.overtakes (s₀.core.prio 2) tr) < CoreSys.ticks tr))
    (by decide +kernel)
  obtain ⟨hmem, hcount, hlt⟩ := of_decide_eq_true hp
  exact ⟨c, tr₀, s₀, tr, s, hc, hr₀, hmem, hr, hcount, (response_time_bounded (by decide) hc hr₀ hmem hr).2 hlt⟩

end

end Martos
