import Martos.Core.Tasks
import Martos.Lib.Transition

/-!
# The core machine

Tasks and interrupt handlers sharing the functions of `Core.Tasks`. Wherever
interrupts are masked the code runs as one step; the machine's states are the points
where an interrupt or the context switch can come between.

* A task is at a program point `Pc`: in its own code, or at one of the points inside
  `task_schedule` and `signal_wait` where interrupts can be enabled. Its own code
  makes a `Call`; `resume` runs a call on from where it is.
* An interrupt handler calls `signal_send` or is `SysTick_Handler`. It can run whenever
  PRIMASK is clear, also while `PendSV_Handler_user` runs with interrupts enabled.
* `PendSV_Handler_user` runs in three steps, cut where it has interrupts enabled: the
  first `task_verify`, the switch, the second `task_verify`.

Assumed of the hardware: PendSV has the lowest priority, and when it is pending and
interrupts are not masked it is taken before the next instruction of a task
(`CoreSys.Thread`).

The contract of the callers (`Call.Contract`): `enable` matches an earlier `disable`, a
task is initialised once and then scheduled once, and `signal_wait` is called at a
nesting depth that its `int16_t nestcnt` can hold.

`Effect` lists, once for all invariants, what a step can do.
-/

namespace Martos

open Transition

/-- Where a task is in the core's code, and the locals it keeps there. -/
inductive Pc where
  /-- In its own code. -/
  | user
  /-- In `task_schedule(t)`, after `task_verify`. -/
  | taskSchedule (t : TaskRef)
  /-- In `task_schedule`, before `reschedule`. -/
  | taskScheduleReschedule
  /-- In `signal_wait`, after the `enable()` in its loop, before `reschedule`. -/
  | signalWaitReschedule (signals : Signals) (nestcnt : ℤ)
  /-- In `signal_wait`, after `reschedule`, before the `disable()`. -/
  | signalWaitDisable (signals : Signals) (nestcnt : ℤ)
  deriving DecidableEq

/-- How far `PendSV_Handler_user` has come. -/
inductive Phase where
  /-- It is not running. -/
  | thread
  /-- After the first `task_verify`. -/
  | verified
  /-- After the switch. -/
  | switched
  deriving DecidableEq

/-- What has been done with a task structure. -/
inductive Life where
  /-- Nothing yet. -/
  | fresh
  /-- `task_init`. -/
  | initialized
  /-- `task_schedule` has been called. -/
  | scheduling
  /-- `task_schedule` has inserted it. -/
  | scheduled
  deriving DecidableEq

/-- The core at work: the kernel data, where each task is, and two records of the
callers' past: how many of its calls of `disable` a task has still to match, and what
has been done with each task structure. -/
structure CoreSys where
  /-- The kernel data. -/
  core : Core
  /-- Where each task is. -/
  pc : TaskRef → Pc
  /-- Where the PendSV handler is. -/
  phase : Phase
  /-- The open `disable()` calls of each task. -/
  depth : TaskRef → ℕ
  /-- What has been done with each task structure. -/
  life : TaskRef → Life

/-- A call of a core function from a task's own code. -/
inductive Call where
  /-- `disable()`. -/
  | disable
  /-- `enable()`. -/
  | enable
  /-- `task_init(t, ...)`. -/
  | taskInit (t : TaskRef) (params : TaskParams)
  /-- `task_schedule(t)`. -/
  | taskSchedule (t : TaskRef)
  /-- `task_set_prio(t, prio)`. -/
  | taskSetPrio (t : TaskRef) (prio : ℤ)
  /-- `signal_allocate(signal)`. -/
  | signalAllocate (signal : ℤ)
  /-- `signal_free(signals)`. -/
  | signalFree (signals : Signals)
  /-- `signal_send(t, signals)`. -/
  | signalSend (t : TaskRef) (signals : Signals)
  /-- `signal_wait(signals)`. -/
  | signalWait (signals : Signals)

/-- What can happen. -/
inductive Event where
  /-- The running task makes a call. -/
  | call (c : Call)
  /-- The running task goes on with its call. -/
  | resume
  /-- An interrupt handler calls `signal_send(t, signals)`. -/
  | isrSignalSend (t : TaskRef) (signals : Signals)
  /-- `SysTick_Handler`. -/
  | sysTick
  /-- PendSV is taken. -/
  | pendSV
  /-- The handler switches; `oldFrame` is the frame the processor stored. -/
  | pendSVSwitch (oldFrame : ℕ)
  /-- The handler returns. -/
  | pendSVExit

namespace CoreSys

variable (s : CoreSys)

/-- The running task moves to `p`. -/
def goto (p : Pc) : CoreSys := { s with pc := Function.update s.pc s.core.running p }

/-- The running task leaves a segment of `signal_wait(signals)`. -/
def afterWait (signals : Signals) : WaitResult × Core → CoreSys
  | (.returned _, c) => { s.goto .user with core := c }
  | (.blocked n, c) => { s.goto (.signalWaitReschedule signals n) with core := c }

/-- A call by the running task. -/
def execCall : Call → Except Fault CoreSys
  | .disable =>
    let r := s.core.running
    .ok { s with core := s.core.disable, depth := Function.update s.depth r (s.depth r + 1) }
  | .enable => do
    let r := s.core.running
    let c ← s.core.enable
    return { s with core := c, depth := Function.update s.depth r (s.depth r - 1) }
  | .taskInit t params => do
    let c ← taskInit t params s.core
    return { s with core := c, life := Function.update s.life t .initialized }
  | .taskSchedule t => do
    let c ← taskVerify t s.core
    return { s.goto (.taskSchedule t) with core := c, life := Function.update s.life t .scheduling }
  | .taskSetPrio t prio => do
    let c ← taskSetPrio t prio s.core
    return { s with core := c }
  | .signalAllocate signal => do
    let (_, c) ← signalAllocate signal s.core
    return { s with core := c }
  | .signalFree signals => do
    let c ← signalFree signals s.core
    return { s with core := c }
  | .signalSend t signals => do
    let c ← signalSend t signals s.core
    return { s with core := c }
  | .signalWait signals => do
    let w ← signalWait signals s.core
    return s.afterWait signals w

/-- The running task goes on with its call. -/
def execResume : Except Fault CoreSys :=
  match s.pc s.core.running with
  | .user => .ok s
  | .taskSchedule t => do
    let c ← taskScheduleInsert t s.core
    return { s.goto .taskScheduleReschedule with core := c, life := Function.update s.life t .scheduled }
  | .taskScheduleReschedule => .ok { s.goto .user with core := s.core.reschedule }
  | .signalWaitReschedule signals n =>
    .ok { s.goto (.signalWaitDisable signals n) with core := s.core.reschedule }
  | .signalWaitDisable signals n => do
    let w ← signalWaitResume signals n s.core
    return s.afterWait signals w

/-- What an event does. -/
def exec : Event → Except Fault CoreSys
  | .call c => s.execCall c
  | .resume => s.execResume
  | .isrSignalSend t signals => do
    let c ← signalSend t signals s.core
    return { s with core := c }
  | .sysTick => .ok { s with core := sysTickHandler s.core }
  | .pendSV => do
    let c ← taskVerify s.core.running { s.core with pendSV := false }
    return { s with core := c, phase := .verified }
  | .pendSVSwitch oldFrame => do
    let c ← pendSVHandlerSwitch oldFrame s.core
    return { s with core := c, phase := .switched }
  | .pendSVExit => do
    let c ← taskVerify s.core.running s.core
    return { s with core := c, phase := .thread }

/-- A task can execute an instruction: no handler is running, and PendSV is not about
to be taken. -/
def Thread : Prop := s.phase = .thread ∧ ¬ (s.core.pendSV = true ∧ s.core.primask = false)

/-- What the callers of the kernel keep to. -/
def Contract : Call → Prop
  | .enable => 0 < s.depth s.core.running
  | .taskInit t _ => s.life t = .fresh
  | .taskSchedule t => s.life t = .initialized
  | .signalWait _ => s.core.idNestcnt < 32767
  | _ => True

/-- When an event can happen. -/
def Enabled : Event → Prop
  | .call c => s.Thread ∧ s.pc s.core.running = .user ∧ s.Contract c
  | .resume => s.Thread ∧ s.pc s.core.running ≠ .user
  | .isrSignalSend _ _ => s.core.primask = false
  | .sysTick => s.core.primask = false
  | .pendSV => s.phase = .thread ∧ s.core.pendSV = true ∧ s.core.primask = false
  | .pendSVSwitch _ => s.phase = .verified
  | .pendSVExit => s.phase = .switched

instance : Decidable s.Thread := inferInstanceAs (Decidable (_ ∧ _))

instance (c : Call) : Decidable (s.Contract c) := by
  cases c <;> unfold Contract <;> infer_instance

instance (e : Event) : Decidable (s.Enabled e) := by
  cases e <;> unfold Enabled <;> infer_instance

/-- A step of the machine. -/
def Step (s : CoreSys) (e : Event) (s' : CoreSys) : Prop := s.Enabled e ∧ s.exec e = .ok s'

/-- The step an event makes, if it can happen and does not stop the kernel. -/
def next (e : Event) : Option CoreSys := if s.Enabled e then (s.exec e).toOption else none

theorem step_of_next {s : CoreSys} {e : Event} {s' : CoreSys} (h : s.next e = some s') : s.Step e s' := by
  unfold next at h
  by_cases he : s.Enabled e
  · rw [if_pos he] at h
    exact ⟨he, Checked.eq_ok_of_toOption h⟩
  · simp [he] at h

/-- A configuration: a time slice of ten ticks, a stack of a kilobyte. -/
def exampleConfig : Config := ⟨10, 0x20000000, 1024⟩

/-- The init task initialises a task and schedules it, and is selected again. -/
def startTask (t : TaskRef) (name : String) (prio : ℤ) (stack : ℕ) : List Event :=
  [.call (.taskInit t ⟨some name, prio, stack, 1024⟩), .call (.taskSchedule t), .resume, .resume,
    .pendSV, .pendSVSwitch 0x20000200, .pendSVExit]

/-- The init task gives up its priority, and is switched out. -/
def lowerInit : List Event :=
  [.call (.taskSetPrio initTask taskPrioMin), .pendSV, .pendSVSwitch 0x20000200, .pendSVExit]

/-- A task of priority 5 is started, and runs. -/
def oneTask : List Event := startTask 1 "one" 5 0x20001000 ++ lowerInit

/-- Two tasks of priority 5 are started, and the first of them runs. -/
def twoTasks : List Event := startTask 1 "one" 5 0x20001000 ++ startTask 2 "two" 5 0x20002000 ++ lowerInit

/-- The machine when `martos_pre` has returned: the init task runs, at the start of its
code. -/
def start (c : Core) : CoreSys where
  core := c
  pc _ := .user
  phase := .thread
  depth _ := 0
  life t := if t = initTask then .scheduled else .fresh

/-- The state that a list of events leads to from the start, if the contract `ok` allows
each of them. -/
def replayed (cfg : Config) (ok : CoreSys → Event → Prop) [∀ s e, Decidable (ok s e)] (es : List Event) :
    Option CoreSys :=
  (martosPre cfg).toOption.bind fun c =>
    replay (fun s e => if ok s e then s.next e else none) (start c) es

/-- Events that can be replayed are the events of a run. -/
theorem exists_run_of_replayed (cfg : Config) (ok : CoreSys → Event → Prop) [∀ s e, Decidable (ok s e)]
    (es : List Event) {p : CoreSys → Bool} (h : (replayed cfg ok es).any p = true) :
    ∃ c tr s, martosPre cfg = .ok c ∧ Run (Restrict ok CoreSys.Step) (start c) tr s ∧ p s = true := by
  obtain ⟨s, hs, hp⟩ := (Option.any_eq_true ..).mp h
  obtain ⟨c, hc, hrep⟩ := Option.bind_eq_some_iff.mp hs
  obtain ⟨tr, hr, -⟩ := Run.of_replay (restrict_of_nextIf fun _ _ _ => step_of_next) hrep
  exact ⟨c, tr, s, Checked.eq_ok_of_toOption hc, hr, hp⟩

/-- Events that can be replayed, some of them to begin with, make a run and a run from its end. -/
theorem exists_runs_of_replayed (cfg : Config) (ok : CoreSys → Event → Prop) [∀ s e, Decidable (ok s e)]
    (es₀ es : List Event) {p : CoreSys → List (Move CoreSys Event) → CoreSys → Bool}
    (h : (replayed cfg ok es₀).any (fun s₀ => (replay (nextIf ok next) s₀ es).any
      (p s₀ (retrace (nextIf ok next) s₀ es))) = true) :
    ∃ c tr₀ s₀ tr s, martosPre cfg = .ok c ∧ Run (Restrict ok CoreSys.Step) (start c) tr₀ s₀ ∧
      Run (Restrict ok CoreSys.Step) s₀ tr s ∧ p s₀ tr s = true := by
  obtain ⟨s₀, hs₀, h⟩ := (Option.any_eq_true ..).mp h
  obtain ⟨s, hs, hp⟩ := (Option.any_eq_true ..).mp h
  obtain ⟨c, hc, hrep⟩ := Option.bind_eq_some_iff.mp hs₀
  have hn : ∀ s e s', nextIf ok next s e = some s' → Restrict ok CoreSys.Step s e s' :=
    restrict_of_nextIf fun _ _ _ => step_of_next
  obtain ⟨tr₀, hr₀, -⟩ := Run.of_replay hn hrep
  exact ⟨c, tr₀, s₀, _, s, Checked.eq_ok_of_toOption hc, hr₀, Run.of_retrace hn hs, hp⟩

/-- What `signal_wait` returns to the running task in a step, if it returns. -/
def returns : Event → Option Signals
  | .call (.signalWait signals) =>
    match signalWait signals s.core with
    | .ok (.returned rcvd, _) => some rcvd
    | _ => none
  | .resume =>
    match s.pc s.core.running with
    | .signalWaitDisable signals n =>
      match signalWaitResume signals n s.core with
      | .ok (.returned rcvd, _) => some rcvd
      | _ => none
    | _ => none
  | _ => none

end CoreSys

/-- A task structure that has been initialised moves on. -/
theorem Life.update_fresh_iff {life : TaskRef → Life} {u : TaskRef} {l : Life} (hu : life u ≠ .fresh) (hl : l ≠ .fresh)
    (t : TaskRef) : Function.update life u l t = .fresh ↔ life t = .fresh := by
  by_cases ht : t = u
  · subst ht
    rw [Function.update_self]
    exact iff_of_false hl hu
  · rw [Function.update_of_ne ht]

end Martos
