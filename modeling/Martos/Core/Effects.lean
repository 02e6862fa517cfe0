import Martos.Core.Machine

/-!
# What a step of the core machine does

A critical section `disable(); ...; enable();` leaves the nesting count and PRIMASK as
it found them, provided the two agree before it (`Core.Balanced`). So each function has
a short description in which they do not occur: `Core.posted` and `Core.woken` for
`signal_send`, `Core.queued` and `Core.consumed` for the two ends of a segment of
`signal_wait`, `Core.outgoing` and `Core.incoming` for the switch.

`Effect` puts these together: it lists what a step of the machine can do, with what is
known about the state before it. Every invariant is proved from it.
-/

namespace Martos

open Checked

namespace Core

/-! ### Critical sections -/

/-- PRIMASK is set exactly when the nesting count is not negative. -/
structure Balanced (c : Core) : Prop where
  /-- PRIMASK agrees with the count. -/
  primask : c.primask = decide (0 ≤ c.idNestcnt)
  /-- The count is `-1` when nothing is disabled. -/
  le : -1 ≤ c.idNestcnt

theorem Balanced.eq_neg_one {c : Core} (hb : c.Balanced) (h : c.primask = false) : c.idNestcnt = -1 := by
  have hp := hb.primask
  have hle := hb.le
  rw [h] at hp
  simp at hp
  omega

/-- `enable` with interrupts masked. -/
theorem enable_of_masked {d : Core} (hp : d.primask = true) (hn : -1 ≤ d.idNestcnt) : d.enable =
    .ok { d with idNestcnt := d.idNestcnt - 1, primask := decide (0 ≤ d.idNestcnt - 1) } := by
  rw [Core.enable, assertThat_of _ hn, ok_bind]
  dsimp only
  by_cases hlt : d.idNestcnt - 1 < 0
  · rw [if_pos hlt, decide_eq_false (not_le.mpr hlt)]
    rfl
  · rw [if_neg hlt, decide_eq_true (not_lt.mp hlt), ← hp]
    rfl

/-- `enable` at the end of a critical section that began in `c`. -/
theorem Balanced.enable {c d : Core} (hb : c.Balanced) (hn : d.idNestcnt = c.idNestcnt + 1)
    (hp : d.primask = true) :
    d.enable = .ok { d with idNestcnt := c.idNestcnt, primask := c.primask } := by
  have hle := hb.le
  have hsub : d.idNestcnt - 1 = c.idNestcnt := by omega
  rw [enable_of_masked hp (by omega), hsub, hb.primask]

variable {c c' : Core} {t : TaskRef} {sg : Signals}

@[simp] theorem modTask_running {f : Task → Task} : (c.modTask t f).running = c.running := rfl

@[simp] theorem modTask_self {f : Task → Task} : (c.modTask t f).task t = f (c.task t) := by
  simp [modTask]

@[simp] theorem modTask_of_ne {f : Task → Task} {u : TaskRef} (h : u ≠ t) :
    (c.modTask t f).task u = c.task u := by
  simp [modTask, h]

/-- A write to a task structure leaves the fields it does not write. -/
theorem apply_update {α : Type} (g : Task → α) {f : TaskRef → Task} {k : Task} (hk : g k = g (f t))
    (u : TaskRef) : g (Function.update f t k u) = g (f u) := by
  by_cases hu : u = t
  · subst hu; rw [Function.update_self, hk]
  · rw [Function.update_of_ne hu]

theorem prio_modTask {f : Task → Task} (hf : ∀ k, (f k).prio = k.prio) : (c.modTask t f).prio = c.prio :=
  funext fun u => apply_update Task.prio (hf _) u

/-! ### `task_verify` -/

/-- The checks of `task_verify`. -/
def verify (k : Task) : Except Fault Unit := do
  taskcontextVerify k.context
  assertThat (sigfSingle &&& k.sigAlloc ≠ 0) .verifySigAlloc
  assertThat (-1 ≤ k.idNestcnt) .verifyIdNestcnt
  assertThat (k.state = .initialized ∨ k.state = .running ∨ k.state = .ready ∨ k.state = .waiting)
    .verifyState

/-- `task_verify` checks, and changes nothing. -/
theorem taskVerify_eq (hb : c.Balanced) : taskVerify t c = (do verify (c.task t); return c) := by
  have he : c.disable.enable = .ok c := hb.enable rfl rfl
  simp only [taskVerify, verify, he]
  simp [Core.disable]
  rfl

/-! ### `signal_send` -/

/-- The task waits for one of the signals. -/
def Wakes (c : Core) (t : TaskRef) (sg : Signals) : Prop :=
  (c.task t).state = .waiting ∧ sg &&& (c.task t).sigWait ≠ 0

instance : Decidable (c.Wakes t sg) := inferInstanceAs (Decidable (_ ∧ _))

/-- The signals are noted in the task's structure. -/
def posted (c : Core) (t : TaskRef) (sg : Signals) : Core :=
  c.modTask t fun k => { k with sigRecvd := k.sigRecvd ||| sg }

/-- The signals are noted, and the task is moved from its list to `ready`. -/
def woken (c : Core) (t : TaskRef) (sg : Signals) : Core :=
  { c.modTask t (fun k => { k with sigRecvd := k.sigRecvd ||| sg, state := .ready }) with
    lists := (c.lists.listUnlink t).listEnqueue c.prio .ready t
    pendSV := c.pendSV || decide (c.prio c.running < c.prio t) }

/-- What `signal_send` does. -/
theorem signalSend_eq (hb : c.Balanced) : signalSend t sg c =
    if c.Wakes t sg then
      if c.OnList t then
        if t ∈ c.lists.listUnlink t .ready ∨ t ∈ c.lists.listUnlink t .waiting then .error .relink
        else .ok (c.woken t sg)
      else .error .stale
    else .ok (c.posted t sg) := by
  have hsend : signalSend t sg c = (do
      let d ← if (c.disable.posted t sg).Wakes t sg then do
          let d ← (c.disable.posted t sg).listUnlink t
          let d ← (d.modTask t fun k => { k with state := .ready }).listEnqueue .ready t
          pure (if d.prio d.running < d.prio t then d.reschedule else d)
        else pure (c.disable.posted t sg)
      d.enable) := rfl
  have hwake : (c.disable.posted t sg).Wakes t sg ↔ c.Wakes t sg := by
    simp [Wakes, posted, modTask, disable]
  rw [hsend]
  by_cases hw : c.Wakes t sg
  · rw [if_pos (hwake.mpr hw), if_pos hw]
    by_cases hl : c.OnList t
    · -- the state after the unlinking, and after the write to `state`
      let d : Core := { c.disable.posted t sg with lists := c.lists.listUnlink t }
      have hd : (c.disable.posted t sg).listUnlink t = .ok d := if_pos hl
      let d' : Core := d.modTask t fun k => { k with state := .ready }
      have hprio : d'.prio = c.prio := by
        calc d'.prio = (c.disable.posted t sg).prio := prio_modTask fun _ => rfl
          _ = c.prio := prio_modTask fun _ => rfl
      rw [if_pos hl, hd, ok_bind]
      change (do
        let d ← d'.listEnqueue .ready t
        let d ← pure (if d.prio d.running < d.prio t then d.reschedule else d)
        d.enable : Except Fault Core) = _
      by_cases hr : t ∈ c.lists.listUnlink t .ready ∨ t ∈ c.lists.listUnlink t .waiting
      · rw [if_pos hr, show d'.listEnqueue .ready t = .error .relink from if_pos hr]
        rfl
      · let d'' : Core := { d' with lists := (c.lists.listUnlink t).listEnqueue c.prio .ready t }
        have hd'' : d'.listEnqueue .ready t = .ok d'' := by
          rw [listEnqueue, if_neg (show ¬ d'.OnList t from hr), hprio]
          rfl
        have hprio'' : d''.prio = c.prio := hprio
        rw [if_neg hr, hd'', ok_bind, hprio'', show d''.running = c.running from rfl]
        by_cases hlt : c.prio c.running < c.prio t
        · rw [if_pos hlt]
          refine (hb.enable rfl rfl).trans ?_
          simp [reschedule, woken, modTask, d'', d', d, posted, disable, hlt]
        · rw [if_neg hlt]
          refine (hb.enable rfl rfl).trans ?_
          simp [woken, modTask, d'', d', d, posted, disable, hlt]
    · rw [if_neg hl, show (c.disable.posted t sg).listUnlink t = .error .stale from if_neg hl]
      rfl
  · rw [if_neg (mt hwake.mp hw), if_neg hw]
    exact hb.enable rfl rfl

/-! ### The other calls -/

/-- A scheduled task, inserted into `ready`. -/
def inserted (c : Core) (t : TaskRef) : Core :=
  { c.modTask t (fun k => { k with state := .ready }) with
    lists := c.lists.listEnqueue c.prio .ready t }

theorem taskScheduleInsert_eq (hb : c.Balanced) :
    taskScheduleInsert t c = if c.OnList t then .error .relink else .ok (c.inserted t) := by
  let d : Core := c.disable.modTask t fun k => { k with state := .ready }
  have hprio : d.prio = c.prio := prio_modTask fun _ => rfl
  change (do let d ← d.listEnqueue .ready t; d.enable) = _
  by_cases hl : c.OnList t
  · rw [if_pos hl, show d.listEnqueue .ready t = .error .relink from if_pos hl]
    rfl
  · rw [if_neg hl, listEnqueue, if_neg (show ¬ d.OnList t from hl), ok_bind, hprio]
    exact hb.enable rfl rfl

/-- A task with a new priority, and a switch requested if it may be due. -/
def repriced (c : Core) (t : TaskRef) (p : ℤ) : Core :=
  { c.modTask t (fun k => { k with prio := p }) with
    pendSV := c.pendSV || decide (t = c.running ∨
      ((c.task t).state = .ready ∧ (c.modTask t fun k => { k with prio := p }).prio c.running < p)) }

theorem taskSetPrio_eq (hb : c.Balanced) (p : ℤ) : taskSetPrio t p c = .ok (c.repriced t p) := by
  let d : Core := c.disable.modTask t fun k => { k with prio := p }
  have hcond : (t = d.running ∨ ((d.task t).state = .ready ∧ d.prio d.running < d.prio t)) ↔
      (t = c.running ∨ ((c.task t).state = .ready ∧
        (c.modTask t fun k => { k with prio := p }).prio c.running < p)) := by
    simp [d, modTask, disable, prio]
  change (if t = d.running ∨ ((d.task t).state = .ready ∧ d.prio d.running < d.prio t) then
    d.reschedule else d).enable = _
  by_cases h : t = d.running ∨ ((d.task t).state = .ready ∧ d.prio d.running < d.prio t)
  · rw [if_pos h]
    refine (hb.enable rfl rfl).trans ?_
    simp only [repriced, reschedule, decide_eq_true (hcond.mp h), Bool.or_true]
    rfl
  · rw [if_neg h]
    refine (hb.enable rfl rfl).trans ?_
    simp only [repriced, decide_eq_false (mt hcond.mpr h), Bool.or_false]
    rfl

/-- The running task's signal fields, after an allocation that left `target`. -/
def allocated (c : Core) (target : Signals) : Core :=
  c.modTask c.running fun k =>
    { k with sigAlloc := k.sigAlloc ||| target, sigWait := k.sigWait &&& ~~~target,
             sigRecvd := k.sigRecvd &&& ~~~target }

theorem signalAllocate_eq (hb : c.Balanced) (n : ℤ) : signalAllocate n c = (do
    assertThat (-1 ≤ n ∧ n < signalsWidth) .signalRange
    return ((chooseSignal (c.task c.running).sigAlloc n).1,
      c.allocated (chooseSignal (c.task c.running).sigAlloc n).2)) := by
  unfold signalAllocate
  generalize chooseSignal (c.task c.running).sigAlloc n = st
  obtain ⟨m, target⟩ := st
  refine congrArg (assertThat _ _ >>= ·) (funext fun _ => ?_)
  dsimp only
  by_cases hpos : 0 < target
  · rw [if_pos hpos, hb.enable rfl rfl, ok_bind]
    simp [allocated, modTask, disable]
  · rw [if_neg hpos]
    -- no branch leaves `target` zero, but it would do no harm
    have hz : target = 0#16 := by simpa [BitVec.pos_iff_ne_zero] using hpos
    have hnot (x : Signals) : x &&& ~~~ 0#16 = x := BitVec.and_allOnes
    simp only [allocated, modTask, hz, hnot, BitVec.or_zero, Function.update_eq_self]

/-- The running task's `sig_alloc`, after `signal_free`. -/
def freed (c : Core) (sg : Signals) : Core :=
  c.modTask c.running fun k => { k with sigAlloc := k.sigAlloc &&& ~~~sg }

theorem signalFree_eq : signalFree sg c = (do
    assertThat (sg &&& sigfSingle = 0) .freeSingle
    assertThat (sg &&& (c.task c.running).sigAlloc = sg) .freeUnallocated
    return c.freed sg) := rfl

/-! ### `signal_wait` -/

/-- The running task has queued itself as waiting and enabled interrupts. -/
def queued (c : Core) : Core :=
  { c.modTask c.running (fun k => { k with state := .waiting }) with
    lists := c.lists.listAddTail .waiting c.running
    idNestcnt := -1
    primask := false }

/-- The running task has taken the signals it got, and leaves its critical section at
depth `n`. -/
def consumed (c : Core) (rcvd : Signals) (n : ℤ) : Core :=
  { c.modTask c.running (fun k => { k with sigRecvd := k.sigRecvd &&& ~~~rcvd }) with
    idNestcnt := n
    primask := decide (0 ≤ n) }

/-- What a segment of `signal_wait` does, from the test of the loop on. -/
theorem signalWaitLoop_eq (hp : c.primask = true) (hn : -1 ≤ c.idNestcnt) : signalWaitLoop sg c =
    if sg &&& (c.task c.running).sigRecvd = 0 then
      if c.OnList c.running then .error .relink
      else .ok (.blocked (toInt16 c.idNestcnt), c.queued)
    else .ok (.returned (sg &&& (c.task c.running).sigRecvd),
      c.consumed (sg &&& (c.task c.running).sigRecvd) (c.idNestcnt - 1)) := by
  unfold signalWaitLoop
  by_cases hz : sg &&& (c.task c.running).sigRecvd = 0
  · rw [if_pos hz, if_pos hz]
    let d : Core := c.modTask c.running fun k => { k with state := .waiting }
    change (d.listAddTail .waiting d.running >>= fun d => Core.enable { d with idNestcnt := 0 } >>= fun e =>
      pure (WaitResult.blocked (toInt16 d.idNestcnt), e)) = _
    by_cases hl : c.OnList c.running
    · rw [if_pos hl, show d.listAddTail .waiting d.running = .error .relink from if_pos hl]
      rfl
    · rw [if_neg hl, show d.listAddTail .waiting d.running = .ok _ from if_neg hl, ok_bind]
      -- the depth is forced to 0, so that this `enable` does unmask
      have henable := enable_of_masked (d := { d with
        lists := d.lists.listAddTail .waiting d.running, idNestcnt := 0 }) hp (show (-1 : ℤ) ≤ 0 by decide)
      exact bind_of_eq_ok henable _
  · rw [if_neg hz, if_neg hz]
    have henable := enable_of_masked (d := c.modTask c.running fun k =>
      { k with sigRecvd := k.sigRecvd &&& ~~~(sg &&& (c.task c.running).sigRecvd) }) hp hn
    exact bind_of_eq_ok henable _

/-- The running task has noted what it waits for. -/
def awaits (c : Core) (sg : Signals) : Core := c.modTask c.running fun k => { k with sigWait := sg }

@[simp] theorem awaits_sigRecvd : ((c.awaits sg).task c.running).sigRecvd = (c.task c.running).sigRecvd := by
  simp [awaits, modTask]

/-- What `signal_wait` does up to its first leaving. -/
theorem signalWait_eq (hb : c.Balanced) : signalWait sg c =
    if sg &&& (c.task c.running).sigRecvd = 0 then
      if c.OnList c.running then .error .relink
      else .ok (.blocked (toInt16 (c.idNestcnt + 1)), (c.awaits sg).queued)
    else .ok (.returned (sg &&& (c.task c.running).sigRecvd),
      (c.awaits sg).consumed (sg &&& (c.task c.running).sigRecvd) c.idNestcnt) := by
  have hle := hb.le
  have hloop : signalWaitLoop sg (c.disable.awaits sg) = _ :=
    signalWaitLoop_eq rfl (show -1 ≤ c.idNestcnt + 1 by omega)
  have hrecvd : ((c.disable.awaits sg).task c.running).sigRecvd = (c.task c.running).sigRecvd :=
    awaits_sigRecvd (c := c.disable)
  have hn : (c.disable.awaits sg).idNestcnt - 1 = c.idNestcnt := Int.add_sub_cancel ..
  rw [show (c.disable.awaits sg).running = c.running from rfl, hrecvd, hn] at hloop
  exact hloop

/-- What `signal_wait` does from the `disable()` after the switch. -/
theorem signalWaitResume_eq {n : ℤ} (hn : -1 ≤ n) : signalWaitResume sg n c =
    if sg &&& (c.task c.running).sigRecvd = 0 then
      if c.OnList c.running then .error .relink
      else .ok (.blocked (toInt16 n), c.queued)
    else .ok (.returned (sg &&& (c.task c.running).sigRecvd),
      c.consumed (sg &&& (c.task c.running).sigRecvd) (n - 1)) :=
  signalWaitLoop_eq (c := { c.disable with idNestcnt := n }) rfl hn

/-! ### The switch -/

/-- The running task's structure, when it is switched out in state `st`. -/
def switchedOut (c : Core) (frame : ℕ) (st : TaskState) : Core :=
  c.modTask c.running fun k =>
    { k with context := { k.context with frame := frame }, state := st, idNestcnt := c.idNestcnt }

/-- The running task, switched out while it could run on: it goes back to `ready`. -/
def requeued (c : Core) (frame : ℕ) : Core :=
  { c.switchedOut frame .ready with lists := c.lists.listEnqueue c.prio .ready c.running }

/-- Task `t` is taken from the head of `ready` and runs. -/
def switchedIn (c : Core) (t : TaskRef) : Core :=
  { c.modTask t (fun k => { k with state := .running }) with
    lists := (c.lists.listRemHead .ready).2
    running := t
    idNestcnt := (c.task t).idNestcnt
    elapsed := c.quantum
    primask := decide (0 ≤ (c.task t).idNestcnt) }

/-- The first half of the switch: what becomes of the task switched out. -/
def switchOut (c : Core) (frame : ℕ) : Except Fault Core :=
  match (c.task c.running).state with
  | .running => if c.OnList c.running then .error .relink else .ok (c.requeued frame)
  | .ready => .ok (c.switchedOut frame .ready)
  | .waiting => .ok (c.switchedOut frame .waiting)
  | _ => .error .pendSVDefault

/-- The second half of the switch. -/
def switchIn (c : Core) : Except Fault Core :=
  match (c.lists .ready).head? with
  | none => .error .nullRunning
  | some t => .ok (c.switchedIn t)

theorem switchRunning_eq (hp : c.primask = true) :
    (do let d ← switchRunning c; return if d.idNestcnt < 0 then { d with primask := false } else d) =
      (c.switchIn : Except Fault Core) := by
  unfold switchRunning switchIn Seqs.listRemHead
  cases hh : (c.lists .ready).head? with
  | none => rfl
  | some t =>
    by_cases hlt : (c.task t).idNestcnt < 0
    · simp [switchedIn, modTask, hlt, pure, Except.pure, Seqs.listRemHead]
    · simp [switchedIn, modTask, hlt, hp, not_lt.mp hlt, pure, Except.pure, Seqs.listRemHead]

/-- What the switch does: one task goes out, one comes in. -/
theorem pendSVHandlerSwitch_eq (frame : ℕ) :
    pendSVHandlerSwitch frame c = (do (← c.switchOut frame).switchIn) := by
  -- the state at the `switch`
  let d : Core := ({ c with primask := true } : Core).modTask c.running fun k =>
    { k with context := { k.context with frame := frame } }
  have hst : (d.task d.running).state = (c.task c.running).state := by simp [d, modTask]
  change (switchState d >>= fun e => switchRunning (e.modTask e.running fun k =>
    { k with idNestcnt := e.idNestcnt }) >>= fun e => pure _) = _
  unfold switchState switchOut
  rw [hst]
  cases hs : (c.task c.running).state with
  | invalid => rfl
  | initialized => rfl
  | running =>
    let e : Core := d.modTask c.running fun k => { k with state := .ready }
    have hprio : e.prio = c.prio := by
      calc e.prio = d.prio := prio_modTask fun _ => rfl
        _ = c.prio := prio_modTask fun _ => rfl
    change (e.listEnqueue .ready c.running >>= _) = _
    by_cases hl : c.OnList c.running
    · rw [show e.listEnqueue .ready c.running = .error .relink from if_pos hl]
      simp only [if_pos hl]
      rfl
    · rw [Core.listEnqueue, if_neg (show ¬ e.OnList c.running from hl), hprio, ok_bind]
      refine (switchRunning_eq rfl).trans ?_
      simp [if_neg hl, switchIn, switchedIn, requeued, switchedOut, modTask, e, d]
  | ready =>
    refine (switchRunning_eq rfl).trans ?_
    simp [switchIn, switchedIn, switchedOut, modTask, d, hs]
  | waiting =>
    refine (switchRunning_eq rfl).trans ?_
    simp [switchIn, switchedIn, switchedOut, modTask, d, hs]

/-! ### The remaining calls -/

/-- `enable` of an outer critical section. -/
def opened (c : Core) : Core :=
  { c with idNestcnt := c.idNestcnt - 1, primask := decide (0 ≤ c.idNestcnt - 1) }

theorem enable_eq_opened (hb : c.Balanced) : c.enable = .ok c.opened := by
  by_cases hp : c.primask = true
  · exact enable_of_masked hp hb.le
  · have hp : c.primask = false := by simpa using hp
    have hn : c.idNestcnt = -1 := hb.eq_neg_one hp
    simp [Core.enable, opened, hn, assertThat, pure, Except.pure]

/-- A task structure that `task_init` has filled in. -/
def prepared (c : Core) (t : TaskRef) (params : TaskParams) (context : TaskContext) : Core :=
  c.modTask t fun _ =>
    { name := params.name, prio := params.prio, context := context, sigAlloc := sigfSingle,
      sigWait := 0, sigRecvd := 0, idNestcnt := -1, state := .initialized }

theorem exists_of_taskInit {params : TaskParams} (h : taskInit t params c = .ok c') :
    ∃ context, c' = c.prepared t params context := by
  unfold taskInit at h
  simp only [bind_eq_ok, pure_eq_ok] at h
  obtain ⟨context, -, rfl⟩ := h
  exact ⟨context, rfl⟩

/-- The time slice has been counted down. -/
def ticked (c : Core) : Core :=
  { c with elapsed := c.elapsed - 1, pendSV := c.pendSV || decide (c.elapsed - 1 = 0) }

theorem sysTickHandler_eq : sysTickHandler c = c.ticked := by
  unfold sysTickHandler ticked
  dsimp only
  by_cases h : c.elapsed - 1 = 0
  · rw [if_pos h, decide_eq_true h, Bool.or_true]
    rfl
  · rw [if_neg h, decide_eq_false h, Bool.or_false]

/-- What `martos_pre` sets up: empty lists, interrupts enabled, the init task running. -/
def booted (cfg : Config) (context : TaskContext) : Core :=
  { resetCore cfg with
    task := Function.update (resetCore cfg).task initTask
      { name := some "init", prio := taskPrioExclusive, context := context, sigAlloc := sigfSingle,
        sigWait := 0, sigRecvd := 0, idNestcnt := -1, state := .running }
    running := initTask
    idNestcnt := -1
    elapsed := cfg.quantum }

theorem exists_of_martosPre {cfg : Config} (h : martosPre cfg = .ok c) : ∃ context, c = booted cfg context := by
  unfold martosPre at h
  simp only [bind_eq_ok, pure_eq_ok] at h
  obtain ⟨d, hd, d', hd', rfl⟩ := h
  obtain ⟨context, rfl⟩ := exists_of_taskInit hd
  rw [taskVerify_eq ⟨rfl, le_refl (-1 : ℤ)⟩] at hd'
  simp only [bind_eq_ok, pure_eq_ok] at hd'
  obtain ⟨-, -, rfl⟩ := hd'
  refine ⟨context, ?_⟩
  simp [booted, prepared, modTask, resetCore]

end Core

/-! ### The steps of the machine -/

/-- The running task is in its own code and can execute an instruction. -/
def CoreSys.AtUser (s : CoreSys) : Prop := s.Thread ∧ s.pc s.core.running = .user

/-- Where the list operations of `signal_send` succeed. -/
def Core.Movable (c : Core) (t : TaskRef) : Prop :=
  c.OnList t ∧ t ∉ c.lists.listUnlink t .ready ∧ t ∉ c.lists.listUnlink t .waiting

/-- What a step can do: the state before it, the event, the state after it. -/
inductive Effect (s : CoreSys) : Event → CoreSys → Prop where
  /-- `disable()`. -/
  | disable (hu : s.AtUser) :
    Effect s (.call .disable)
      { s with core := s.core.disable
               depth := Function.update s.depth s.core.running (s.depth s.core.running + 1) }
  /-- `enable()`. -/
  | enable (hu : s.AtUser) (hd : 0 < s.depth s.core.running) :
    Effect s (.call .enable)
      { s with core := s.core.opened
               depth := Function.update s.depth s.core.running (s.depth s.core.running - 1) }
  /-- `task_init`. -/
  | taskInit {t : TaskRef} {params : TaskParams} (context : TaskContext) (hu : s.AtUser)
      (hf : s.life t = .fresh) :
    Effect s (.call (.taskInit t params))
      { s with core := s.core.prepared t params context
               life := Function.update s.life t .initialized }
  /-- `task_schedule` checks the task. -/
  | taskSchedule {t : TaskRef} (hu : s.AtUser) (hi : s.life t = .initialized) :
    Effect s (.call (.taskSchedule t))
      { s.goto (.taskSchedule t) with life := Function.update s.life t .scheduling }
  /-- `task_set_prio`. -/
  | taskSetPrio {t : TaskRef} {prio : ℤ} (hu : s.AtUser) :
    Effect s (.call (.taskSetPrio t prio)) { s with core := s.core.repriced t prio }
  /-- `signal_allocate`. -/
  | signalAllocate {n : ℤ} (target : Signals) (hu : s.AtUser) :
    Effect s (.call (.signalAllocate n)) { s with core := s.core.allocated target }
  /-- `signal_free`. -/
  | signalFree {sg : Signals} (hu : s.AtUser) (hs : sg &&& sigfSingle = 0) :
    Effect s (.call (.signalFree sg)) { s with core := s.core.freed sg }
  /-- `signal_send`, from a task or a handler, to a task that does not wait for it. -/
  | posted {e : Event} {t : TaskRef} {sg : Signals} (hw : ¬ s.core.Wakes t sg)
      (he : (e = .call (.signalSend t sg) ∧ s.AtUser) ∨
        (e = .isrSignalSend t sg ∧ s.core.primask = false)) :
    Effect s e { s with core := s.core.posted t sg }
  /-- `signal_send` to a task that waits for it. -/
  | woken {e : Event} {t : TaskRef} {sg : Signals} (hw : s.core.Wakes t sg) (hm : s.core.Movable t)
      (he : (e = .call (.signalSend t sg) ∧ s.AtUser) ∨
        (e = .isrSignalSend t sg ∧ s.core.primask = false)) :
    Effect s e { s with core := s.core.woken t sg }
  /-- `signal_wait` finds nothing and queues the task. -/
  | waitBlocks {sg : Signals} (hu : s.AtUser) (hn : s.core.idNestcnt < 32767)
      (hz : sg &&& (s.core.task s.core.running).sigRecvd = 0) (hl : ¬ s.core.OnList s.core.running) :
    Effect s (.call (.signalWait sg))
      { s.goto (.signalWaitReschedule sg (toInt16 (s.core.idNestcnt + 1))) with
        core := (s.core.awaits sg).queued }
  /-- `signal_wait` returns at once. -/
  | waitReturns {sg : Signals} (hu : s.AtUser) (hn : s.core.idNestcnt < 32767)
      (hz : sg &&& (s.core.task s.core.running).sigRecvd ≠ 0) :
    Effect s (.call (.signalWait sg))
      { s.goto .user with
        core := (s.core.awaits sg).consumed (sg &&& (s.core.task s.core.running).sigRecvd) s.core.idNestcnt }
  /-- `task_schedule` inserts the task. -/
  | inserts {t : TaskRef} (ht : s.Thread) (hpc : s.pc s.core.running = .taskSchedule t)
      (hl : ¬ s.core.OnList t) :
    Effect s .resume
      { s.goto .taskScheduleReschedule with
        core := s.core.inserted t, life := Function.update s.life t .scheduled }
  /-- `task_schedule` requests a switch and returns. -/
  | requests (ht : s.Thread) (hpc : s.pc s.core.running = .taskScheduleReschedule) :
    Effect s .resume { s.goto .user with core := s.core.reschedule }
  /-- `signal_wait` requests the switch. -/
  | yields {sg : Signals} {n : ℤ} (ht : s.Thread)
      (hpc : s.pc s.core.running = .signalWaitReschedule sg n) :
    Effect s .resume { s.goto (.signalWaitDisable sg n) with core := s.core.reschedule }
  /-- `signal_wait`, switched in again, finds nothing and queues the task. -/
  | blocksAgain {sg : Signals} {n : ℤ} (ht : s.Thread)
      (hpc : s.pc s.core.running = .signalWaitDisable sg n)
      (hz : sg &&& (s.core.task s.core.running).sigRecvd = 0) (hl : ¬ s.core.OnList s.core.running) :
    Effect s .resume
      { s.goto (.signalWaitReschedule sg (toInt16 n)) with core := s.core.queued }
  /-- `signal_wait`, switched in again, returns. -/
  | returns {sg : Signals} {n : ℤ} (ht : s.Thread)
      (hpc : s.pc s.core.running = .signalWaitDisable sg n)
      (hz : sg &&& (s.core.task s.core.running).sigRecvd ≠ 0) :
    Effect s .resume
      { s.goto .user with
        core := s.core.consumed (sg &&& (s.core.task s.core.running).sigRecvd) (n - 1) }
  /-- `SysTick_Handler`. -/
  | sysTick (hm : s.core.primask = false) : Effect s .sysTick { s with core := s.core.ticked }
  /-- PendSV is taken. -/
  | pendSV (hp : s.phase = .thread) (hm : s.core.primask = false) :
    Effect s .pendSV { s with core := { s.core with pendSV := false }, phase := .verified }
  /-- The switch, out of a task that could run on. -/
  | preempts {frame : ℕ} {t : TaskRef} (hp : s.phase = .verified)
      (hs : (s.core.task s.core.running).state = .running) (hl : ¬ s.core.OnList s.core.running)
      (hh : ((s.core.requeued frame).lists .ready).head? = some t) :
    Effect s (.pendSVSwitch frame)
      { s with core := (s.core.requeued frame).switchedIn t, phase := .switched }
  /-- The switch, out of a task that has queued itself, or has been woken since. -/
  | leaves {frame : ℕ} {t : TaskRef} {st : TaskState} (hp : s.phase = .verified)
      (hs : (s.core.task s.core.running).state = st) (hst : st = .ready ∨ st = .waiting)
      (hh : (s.core.lists .ready).head? = some t) :
    Effect s (.pendSVSwitch frame)
      { s with core := (s.core.switchedOut frame st).switchedIn t, phase := .switched }
  /-- The handler returns. -/
  | pendSVExit (hp : s.phase = .switched) : Effect s .pendSVExit { s with phase := .thread }

section

variable {s s' : CoreSys} {e : Event}

theorem signalSend_effect {t : TaskRef} {sg : Signals} {c : Core} (hb : s.core.Balanced)
    (h : signalSend t sg s.core = .ok c)
    (he : (e = .call (.signalSend t sg) ∧ s.AtUser) ∨
      (e = .isrSignalSend t sg ∧ s.core.primask = false)) : Effect s e { s with core := c } := by
  rw [Core.signalSend_eq hb] at h
  by_cases hw : s.core.Wakes t sg
  · rw [if_pos hw, ite_ok_else_error_eq_ok, ite_error_eq_ok, Except.ok.injEq, not_or] at h
    obtain ⟨hl, hr, rfl⟩ := h
    exact .woken hw ⟨hl, hr⟩ he
  · rw [if_neg hw, Except.ok.injEq] at h
    subst h
    exact .posted hw he

theorem execCall_effect {k : Call} (hb : s.core.Balanced) (hu : s.AtUser) (hk : s.Contract k)
    (h : s.execCall k = .ok s') : Effect s (.call k) s' := by
  cases k with
  | disable =>
    obtain rfl := Except.ok.inj h
    exact .disable hu
  | enable =>
    simp only [CoreSys.execCall, Core.enable_eq_opened hb, ok_bind, pure_eq_ok] at h
    subst h
    exact .enable hu hk
  | taskInit t params =>
    simp only [CoreSys.execCall, bind_eq_ok, pure_eq_ok] at h
    obtain ⟨c, hc, rfl⟩ := h
    obtain ⟨context, rfl⟩ := Core.exists_of_taskInit hc
    exact .taskInit context hu hk
  | taskSchedule t =>
    simp only [CoreSys.execCall, Core.taskVerify_eq hb, bind_eq_ok, pure_eq_ok] at h
    obtain ⟨c, ⟨-, -, rfl⟩, rfl⟩ := h
    exact .taskSchedule hu hk
  | taskSetPrio t prio =>
    simp only [CoreSys.execCall, Core.taskSetPrio_eq hb, ok_bind, pure_eq_ok] at h
    subst h
    exact .taskSetPrio hu
  | signalAllocate n =>
    simp only [CoreSys.execCall, Core.signalAllocate_eq hb, bind_eq_ok, pure_eq_ok] at h
    obtain ⟨⟨m, c⟩, ⟨-, -, hc⟩, rfl⟩ := h
    obtain ⟨-, rfl⟩ := Prod.mk.inj hc
    exact .signalAllocate _ hu
  | signalFree sg =>
    simp only [CoreSys.execCall, Core.signalFree_eq, bind_eq_ok, pure_eq_ok, assertThat_eq_ok] at h
    obtain ⟨c, ⟨-, hs, -, -, rfl⟩, rfl⟩ := h
    exact .signalFree hu hs
  | signalSend t sg =>
    simp only [CoreSys.execCall, bind_eq_ok, pure_eq_ok] at h
    obtain ⟨c, hc, rfl⟩ := h
    exact signalSend_effect hb hc (.inl ⟨rfl, hu⟩)
  | signalWait sg =>
    simp only [CoreSys.execCall, Core.signalWait_eq hb] at h
    by_cases hz : sg &&& (s.core.task s.core.running).sigRecvd = 0
    · simp only [if_pos hz, bind_eq_ok, ite_error_eq_ok, pure_eq_ok] at h
      obtain ⟨w, ⟨hl, hw⟩, rfl⟩ := h
      obtain rfl := Except.ok.inj hw
      exact .waitBlocks hu hk hz hl
    · simp only [if_neg hz, ok_bind, pure_eq_ok] at h
      subst h
      exact .waitReturns hu hk hz

theorem execResume_effect (hb : s.core.Balanced)
    (hn : ∀ sg n, s.pc s.core.running = .signalWaitDisable sg n → -1 ≤ n)
    (ht : s.Thread) (hpc : s.pc s.core.running ≠ .user) (h : s.execResume = .ok s') :
    Effect s .resume s' := by
  unfold CoreSys.execResume at h
  cases hp : s.pc s.core.running with
  | user => exact absurd hp hpc
  | taskSchedule t =>
    simp only [hp, Core.taskScheduleInsert_eq hb, bind_eq_ok, ite_error_eq_ok, pure_eq_ok] at h
    obtain ⟨c, ⟨hl, hc⟩, rfl⟩ := h
    obtain rfl := Except.ok.inj hc
    exact .inserts ht hp hl
  | taskScheduleReschedule =>
    simp only [hp, Except.ok.injEq] at h
    subst h
    exact .requests ht hp
  | signalWaitReschedule sg n =>
    simp only [hp, Except.ok.injEq] at h
    subst h
    exact .yields ht hp
  | signalWaitDisable sg n =>
    simp only [hp, Core.signalWaitResume_eq (hn sg n hp)] at h
    by_cases hz : sg &&& (s.core.task s.core.running).sigRecvd = 0
    · simp only [if_pos hz, bind_eq_ok, ite_error_eq_ok, pure_eq_ok] at h
      obtain ⟨w, ⟨hl, hw⟩, rfl⟩ := h
      obtain rfl := Except.ok.inj hw
      exact .blocksAgain ht hp hz hl
    · simp only [if_neg hz, ok_bind, pure_eq_ok] at h
      subst h
      exact .returns ht hp hz

theorem pendSVSwitch_effect {frame : ℕ} (hp : s.phase = .verified)
    (h : s.exec (.pendSVSwitch frame) = .ok s') : Effect s (.pendSVSwitch frame) s' := by
  simp only [CoreSys.exec, Core.pendSVHandlerSwitch_eq, bind_eq_ok, pure_eq_ok] at h
  obtain ⟨c, ⟨d, hd, hc⟩, rfl⟩ := h
  -- the task switched in is the head of the list the first half leaves
  obtain ⟨t, ht, rfl⟩ : ∃ t, (d.lists .ready).head? = some t ∧ c = d.switchedIn t := by
    unfold Core.switchIn at hc
    cases hh : (d.lists .ready).head? with
    | none => simp [hh] at hc
    | some t =>
      simp only [hh, Except.ok.injEq] at hc
      exact ⟨t, rfl, hc.symm⟩
  unfold Core.switchOut at hd
  cases hs : (s.core.task s.core.running).state with
  | invalid => simp [hs] at hd
  | initialized => simp [hs] at hd
  | running =>
    simp only [hs, ite_error_eq_ok, Except.ok.injEq] at hd
    obtain ⟨hl, rfl⟩ := hd
    exact .preempts hp hs hl ht
  | ready =>
    simp only [hs, Except.ok.injEq] at hd
    subst hd
    exact .leaves hp hs (.inl rfl) ht
  | waiting =>
    simp only [hs, Except.ok.injEq] at hd
    subst hd
    exact .leaves hp hs (.inr rfl) ht

/-- **Every step has one of these effects**, from a state in which PRIMASK and the nesting
count agree. -/
theorem CoreSys.Step.effect (hb : s.core.Balanced)
    (hn : ∀ sg n, s.pc s.core.running = .signalWaitDisable sg n → -1 ≤ n) (h : s.Step e s') :
    Effect s e s' := by
  obtain ⟨hen, hex⟩ := h
  cases e with
  | call k => exact execCall_effect hb ⟨hen.1, hen.2.1⟩ hen.2.2 hex
  | resume => exact execResume_effect hb hn hen.1 hen.2 hex
  | isrSignalSend t sg =>
    simp only [CoreSys.exec, bind_eq_ok, pure_eq_ok] at hex
    obtain ⟨c, hc, rfl⟩ := hex
    exact signalSend_effect hb hc (.inr ⟨rfl, hen⟩)
  | sysTick =>
    simp only [CoreSys.exec, Core.sysTickHandler_eq, Except.ok.injEq] at hex
    subst hex
    exact .sysTick hen
  | pendSV =>
    have hb' : ({ s.core with pendSV := false } : Core).Balanced := ⟨hb.primask, hb.le⟩
    simp only [CoreSys.exec, Core.taskVerify_eq hb', bind_eq_ok, pure_eq_ok] at hex
    obtain ⟨c, ⟨-, -, rfl⟩, rfl⟩ := hex
    exact .pendSV hen.1 hen.2.2
  | pendSVSwitch frame => exact pendSVSwitch_effect hen hex
  | pendSVExit =>
    simp only [CoreSys.exec, Core.taskVerify_eq hb, bind_eq_ok, pure_eq_ok] at hex
    obtain ⟨c, ⟨-, -, rfl⟩, rfl⟩ := hex
    exact .pendSVExit hen

end

end Martos
