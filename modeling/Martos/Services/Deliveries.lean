import Martos.Services.Waiting

/-!
# What happens to the signals of one task

For one task a step can do one of a few things: some signals are sent to it, it goes to
sleep in `signal_wait`, `signal_wait` gives it the signals it waited for, or it loses some
in `signal_allocate` and `task_init`. `SignalChange` says so for a step of the core,
`SignalsChange` for a step of the whole machine, where `Sys.sends` lists the calls of
`signal_send` in an event and `Sys.waitsFor` tells the signals with which a service function
or a task calls `signal_wait`.
-/

namespace Martos

open Checked Transition

/-! ### The core -/

/-- The task is in the blocking window of `signal_wait(sg)`. -/
def CoreSys.Asleep (s : CoreSys) (t : TaskRef) (sg : Signals) : Prop := ∃ n, (s.pc t).Waits sg n

/-- What a step of the core does to the signals of task `t`. -/
inductive SignalChange (s : CoreSys) (e : Event) (s' : CoreSys) (t : TaskRef) : Prop where
  /-- Nothing. -/
  | keeps (hno : ∀ sg, ¬ e.Sends t sg) (hr : (s'.core.task t).sigRecvd = (s.core.task t).sigRecvd)
      (hw : ∀ sg, s'.Asleep t sg ↔ s.Asleep t sg)
  /-- Signals are sent to it. -/
  | sent (sg : Signals) (hs : e.Sends t sg) (hr : (s'.core.task t).sigRecvd = (s.core.task t).sigRecvd ||| sg)
      (hw : ∀ sg, s'.Asleep t sg ↔ s.Asleep t sg)
  /-- It goes to sleep. -/
  | blocks (sg : Signals) (ht : t = s.core.running) (he : e = .call (.signalWait sg))
      (hz : sg &&& (s.core.task t).sigRecvd = 0) (hr : (s'.core.task t).sigRecvd = (s.core.task t).sigRecvd)
      (hw : ∀ sg', s'.Asleep t sg' ↔ sg' = sg)
  /-- `signal_wait` returns what has come. -/
  | takes (sg : Signals) (ht : t = s.core.running)
      (he : e = .call (.signalWait sg) ∨ (e = .resume ∧ s.Asleep t sg))
      (hz : sg &&& (s.core.task t).sigRecvd ≠ 0) (hret : s.returns e = some (sg &&& (s.core.task t).sigRecvd))
      (hr : (s'.core.task t).sigRecvd = (s.core.task t).sigRecvd &&& ~~~(sg &&& (s.core.task t).sigRecvd))
      (hw : ∀ sg', ¬ s'.Asleep t sg')
  /-- It loses signals without getting them. -/
  | clears (hc : s.Clears t e) (x : Signals) (hr : (s'.core.task t).sigRecvd = (s.core.task t).sigRecvd &&& x)
      (hw : ∀ sg, s'.Asleep t sg ↔ s.Asleep t sg)

section

variable {s s' : CoreSys} {e : Event} {t : TaskRef}

/-- A task is asleep with one set of signals only. -/
theorem CoreSys.Asleep.unique {sg sg' : Signals} (h : s.Asleep t sg) (h' : s.Asleep t sg') : sg' = sg := by
  obtain ⟨n, hw⟩ := h
  obtain ⟨n', hw'⟩ := h'
  rcases hw with hp | hp <;> rcases hw' with hp' | hp' <;> cases hp.symm.trans hp' <;> rfl

theorem CoreSys.not_asleep_of_user (h : s.pc t = .user) (sg : Signals) : ¬ s.Asleep t sg := by
  rintro ⟨n, hw | hw⟩ <;> cases h.symm.trans hw

/-- **What a step of the core does to the signals of a task.** -/
theorem Nested.signalChange (h : Nested s) (hst : s.Step e s') (t : TaskRef) : SignalChange s e s' t := by
  -- the running task moves between two points outside of the window
  have hgoto {p : Pc} {c : Core} {life : TaskRef → Life} (hp : ∀ sg n, ¬ p.Waits sg n)
      (hold : ∀ sg n, ¬ (s.pc s.core.running).Waits sg n) (sg : Signals) :
      CoreSys.Asleep { s.goto p with core := c, life := life } t sg ↔ s.Asleep t sg := by
    by_cases ht : t = s.core.running
    · subst ht
      refine iff_of_false ?_ fun ⟨n, hw⟩ => hold sg n hw
      rintro ⟨n, hw⟩
      exact hp sg n ((CoreSys.goto_pc_self (s := s) p) ▸ hw)
    · unfold CoreSys.Asleep
      rw [show ({ s.goto p with core := c, life := life } : CoreSys).pc t = s.pc t from CoreSys.goto_pc_of_ne p ht]
  have hkeep {c : Core} {ph : Phase} {d : TaskRef → ℕ} {life : TaskRef → Life} (hno : ∀ sg, ¬ e.Sends t sg)
      (hr : (c.task t).sigRecvd = (s.core.task t).sigRecvd) :
      SignalChange s e { s with core := c, phase := ph, depth := d, life := life } t :=
    .keeps hno hr fun _ => Iff.rfl
  -- an event by which another task goes to sleep or wakes up
  have hother {p : Pc} {c : Core} (hno : ∀ sg, ¬ e.Sends t sg) (ht : t ≠ s.core.running)
      (hr : (c.task t).sigRecvd = (s.core.task t).sigRecvd) : SignalChange s e { s.goto p with core := c } t := by
    refine .keeps hno hr fun sg => ?_
    unfold CoreSys.Asleep
    rw [show ({ s.goto p with core := c } : CoreSys).pc t = s.pc t from CoreSys.goto_pc_of_ne p ht]
  have hself {p : Pc} {c : Core} {sg : Signals} (ht : t = s.core.running) :
      CoreSys.Asleep { s.goto p with core := c } t sg ↔ ∃ n, p.Waits sg n := by
    subst ht
    unfold CoreSys.Asleep
    rw [show ({ s.goto p with core := c } : CoreSys).pc s.core.running = p from CoreSys.goto_pc_self p]
  have hwaits {sg sg' : Signals} {n : ℤ} : (∃ n', (Pc.signalWaitReschedule sg n).Waits sg' n') ↔ sg' = sg := by
    constructor
    · rintro ⟨n', hw | hw⟩ <;> cases hw
      rfl
    · rintro rfl
      exact ⟨n, .inl rfl⟩
  have huser (sg : Signals) : ¬ ∃ n, Pc.user.Waits sg n := by rintro ⟨n, hw | hw⟩ <;> cases hw
  have hawaits (sg : Signals) : ((s.core.awaits sg).task t).sigRecvd = (s.core.task t).sigRecvd :=
    Core.apply_update Task.sigRecvd (by rfl) t
  cases h.effect hst with
  | disable hu => exact hkeep (by rintro sg (he | he) <;> cases he) rfl
  | enable hu hd => exact hkeep (by rintro sg (he | he) <;> cases he) rfl
  | @taskInit u params context hu hf =>
    by_cases htu : t = u
    · subst htu
      exact .clears (.inr ⟨params, rfl⟩) 0#16 (by simp [Core.prepared]) fun _ => Iff.rfl
    · exact hkeep (by rintro sg (he | he) <;> cases he) (by simp [Core.prepared, htu])
  | taskSchedule hu hi =>
    exact .keeps (by rintro sg (he | he) <;> cases he) rfl (hgoto (by rintro sg n (hw | hw) <;> cases hw)
      (by rw [hu.2]; rintro sg n (hw | hw) <;> cases hw))
  | taskSetPrio hu =>
    exact hkeep (by rintro sg (he | he) <;> cases he) (Core.apply_update Task.sigRecvd (by rfl) t)
  | @signalAllocate n target hu =>
    by_cases ht : t = s.core.running
    · exact .clears (.inl ⟨n, rfl, ht⟩) (~~~target) (by subst ht; simp [Core.allocated]) fun _ => Iff.rfl
    · exact hkeep (by rintro sg (he | he) <;> cases he) (by simp [Core.allocated, ht])
  | signalFree hu hs =>
    exact hkeep (by rintro sg (he | he) <;> cases he) (Core.apply_update Task.sigRecvd (by rfl) t)
  | @posted _ u sg hw he =>
    have hs : e.Sends u sg := he.imp And.left And.left
    by_cases htu : t = u
    · subst htu
      exact .sent sg hs (by simp [Core.posted]) fun _ => Iff.rfl
    · refine hkeep (fun sg' hs' => htu ?_) (by simp [Core.posted, htu])
      rcases hs with rfl | rfl <;> rcases hs' with he' | he' <;> cases he' <;> rfl
  | @woken _ u sg hw hm he =>
    have hs : e.Sends u sg := he.imp And.left And.left
    by_cases htu : t = u
    · subst htu
      exact .sent sg hs (by simp [Core.woken]) fun _ => Iff.rfl
    · refine hkeep (fun sg' hs' => htu ?_) (by simp [Core.woken, htu])
      rcases hs with rfl | rfl <;> rcases hs' with he' | he' <;> cases he' <;> rfl
  | @waitBlocks sg hu _ hz hl =>
    have hrecvd : ((s.core.awaits sg).queued.task t).sigRecvd = (s.core.task t).sigRecvd :=
      (Core.apply_update Task.sigRecvd (by rfl) t).trans (hawaits sg)
    by_cases ht : t = s.core.running
    · exact .blocks sg ht rfl (ht ▸ hz) hrecvd fun sg' => (hself ht).trans hwaits
    · exact hother (by rintro sg (he | he) <;> cases he) ht hrecvd
  | @waitReturns sg hu _ hz =>
    by_cases ht : t = s.core.running
    · subst ht
      refine .takes sg rfl (.inl rfl) hz (by rw [h.returns_call, if_neg hz]) ?_ fun sg' hw =>
        huser sg' ((hself rfl).mp hw)
      simp [Core.consumed, Core.awaits]
    · refine hother (by rintro sg (he | he) <;> cases he) ht ?_
      have hne : t ≠ (s.core.awaits sg).running := ht
      simp [Core.consumed, hne, hawaits]
  | inserts hth hpc hl =>
    refine .keeps (by rintro sg (he | he) <;> cases he) (Core.apply_update Task.sigRecvd (by rfl) t)
      (hgoto (by rintro sg n (hw | hw) <;> cases hw) ?_)
    rw [hpc]
    rintro sg n (hw | hw) <;> cases hw
  | requests hth hpc =>
    refine .keeps (by rintro sg (he | he) <;> cases he) rfl (hgoto (by rintro sg n (hw | hw) <;> cases hw) ?_)
    rw [hpc]
    rintro sg n (hw | hw) <;> cases hw
  | @yields sg n hth hpc =>
    by_cases ht : t = s.core.running
    · refine .keeps (by rintro sg (he | he) <;> cases he) rfl fun sg' => (hself ht).trans ?_
      unfold CoreSys.Asleep
      rw [ht, hpc]
      constructor
      · rintro ⟨n', hw | hw⟩ <;> cases hw
        exact ⟨n, .inl rfl⟩
      · rintro ⟨n', hw | hw⟩ <;> cases hw
        exact ⟨n, .inr rfl⟩
    · exact hother (by rintro sg (he | he) <;> cases he) ht rfl
  | @blocksAgain sg n hth hpc hz hl =>
    by_cases ht : t = s.core.running
    · refine .keeps (by rintro sg (he | he) <;> cases he) (Core.apply_update Task.sigRecvd (by rfl) t)
        fun sg' => (hself ht).trans (hwaits.trans ?_)
      unfold CoreSys.Asleep
      rw [ht, hpc]
      constructor
      · rintro rfl
        exact ⟨n, .inr rfl⟩
      · rintro ⟨n', hw | hw⟩ <;> cases hw
        rfl
    · exact hother (by rintro sg (he | he) <;> cases he) ht (Core.apply_update Task.sigRecvd (by rfl) t)
  | @returns sg n hth hpc hz =>
    by_cases ht : t = s.core.running
    · subst ht
      refine .takes sg rfl (.inr ⟨rfl, n, by rw [hpc]; exact .inr rfl⟩) hz (by rw [h.returns_resume hpc, if_neg hz]) ?_
        fun sg' hw => huser sg' ((hself rfl).mp hw)
      simp [Core.consumed]
    · exact hother (by rintro sg (he | he) <;> cases he) ht (by simp [Core.consumed, ht])
  | sysTick hm => exact hkeep (by rintro sg (he | he) <;> cases he) rfl
  | pendSV hp hm => exact hkeep (by rintro sg (he | he) <;> cases he) rfl
  | @preempts frame u hp hs hl hh =>
    have hout : ((s.core.requeued frame).task t).sigRecvd = (s.core.task t).sigRecvd :=
      Core.apply_update Task.sigRecvd (by rfl) t
    exact hkeep (by rintro sg (he | he) <;> cases he) ((Core.apply_update Task.sigRecvd (by rfl) t).trans hout)
  | @leaves frame u st hp hs hor hh =>
    have hout : ((s.core.switchedOut frame st).task t).sigRecvd = (s.core.task t).sigRecvd :=
      Core.apply_update Task.sigRecvd (by rfl) t
    exact hkeep (by rintro sg (he | he) <;> cases he) ((Core.apply_update Task.sigRecvd (by rfl) t).trans hout)
  | pendSVExit hp => exact hkeep (by rintro sg (he | he) <;> cases he) rfl

/-- A call of `signal_wait` puts the task to sleep, or gives it what has come. -/
theorem Nested.signalWait_cases (h : Nested s) {sg : Signals} (hst : s.Step (.call (.signalWait sg)) s') :
    (sg &&& (s.core.task s.core.running).sigRecvd = 0 ∧ s'.Asleep s.core.running sg ∧
      (s'.core.task s.core.running).sigRecvd = (s.core.task s.core.running).sigRecvd) ∨
    (sg &&& (s.core.task s.core.running).sigRecvd ≠ 0 ∧ (∀ sg', ¬ s'.Asleep s.core.running sg') ∧
      (s'.core.task s.core.running).sigRecvd = (s.core.task s.core.running).sigRecvd &&&
        ~~~(sg &&& (s.core.task s.core.running).sigRecvd)) := by
  cases h.effect hst with
  | waitBlocks hu hn hz hl =>
    refine .inl ⟨hz, ⟨toInt16 (s.core.idNestcnt + 1), .inl (CoreSys.goto_pc_self (s := s) _)⟩, ?_⟩
    have hawaits : ((s.core.awaits sg).task s.core.running).sigRecvd = (s.core.task s.core.running).sigRecvd :=
      Core.apply_update Task.sigRecvd (by rfl) _
    exact (Core.apply_update Task.sigRecvd (by rfl) _).trans hawaits
  | waitReturns hu hn hz =>
    refine .inr ⟨hz, CoreSys.not_asleep_of_user (CoreSys.goto_pc_self (s := s) _), ?_⟩
    simp [Core.consumed, Core.awaits]
  | posted hw he => rcases he with ⟨he, -⟩ | ⟨he, -⟩ <;> cases he
  | woken hw hm he => rcases he with ⟨he, -⟩ | ⟨he, -⟩ <;> cases he

/-- The running task goes on with a call: `signal_wait` returns what it waited for, or no signals
are taken. -/
theorem Nested.resume_cases (h : Nested s) (hst : s.Step .resume s') :
    (∃ sg, s.Asleep s.core.running sg ∧ s.returns .resume = some (sg &&& (s.core.task s.core.running).sigRecvd) ∧
      (∀ sg', ¬ s'.Asleep s.core.running sg') ∧
      (s'.core.task s.core.running).sigRecvd = (s.core.task s.core.running).sigRecvd &&&
        ~~~(sg &&& (s.core.task s.core.running).sigRecvd)) ∨
    (s.returns .resume = none ∧ (s'.core.task s.core.running).sigRecvd = (s.core.task s.core.running).sigRecvd) := by
  cases h.effect hst with
  | posted hw he => rcases he with ⟨he, -⟩ | ⟨he, -⟩ <;> cases he
  | woken hw hm he => rcases he with ⟨he, -⟩ | ⟨he, -⟩ <;> cases he
  | inserts hth hpc hl => exact .inr ⟨by simp [CoreSys.returns, hpc], Core.apply_update Task.sigRecvd (by rfl) _⟩
  | requests hth hpc => exact .inr ⟨by simp [CoreSys.returns, hpc], rfl⟩
  | yields hth hpc => exact .inr ⟨by simp [CoreSys.returns, hpc], rfl⟩
  | blocksAgain hth hpc hz hl =>
    exact .inr ⟨by rw [h.returns_resume hpc, if_pos hz], Core.apply_update Task.sigRecvd (by rfl) _⟩
  | @returns sg n hth hpc hz =>
    refine .inl ⟨sg, ⟨n, .inr hpc⟩, by rw [h.returns_resume hpc, if_neg hz], ?_, by simp [Core.consumed]⟩
    exact CoreSys.not_asleep_of_user (CoreSys.goto_pc_self (s := s) _)

end

/-! ### The whole machine -/

/-- Who holds a bit of a task. -/
inductive Holder where
  /-- The task's own code. -/
  | direct
  /-- A timer. -/
  | timer (tm : TimerRef)
  /-- A port. -/
  | port (p : PortRef)
  /-- A timer that was allocated again before it was freed: its structure has another bit. -/
  | abandoned (tm : TimerRef)
  deriving DecidableEq

/-- For whom an event calls `signal_allocate`, and with which preference. -/
def SysEvent.allocates : SysEvent → Option (Holder × ℤ)
  | .core (.call (.signalAllocate n)) => some (.direct, n)
  | .call (.timerAllocate tm) => some (.timer tm, -1)
  | .call (.timerDelay tm _) => some (.timer tm, -1)
  | .call (.msgportInit p) => some (.port p, -1)
  | _ => none

/-- The calls of `signal_send` which `msgport_send` makes. -/
def MsgPort.sends (p : MsgPort) : List (TaskRef × Signals) :=
  match p.task with
  | some t => if p.action = .signal then [(t, p.signal)] else []
  | none => []

/-- The calls of `signal_send` which a call that does not block makes. -/
def Service.sends (svc : Services) : Service → List (TaskRef × Signals)
  | .semSignal sem =>
    if svc.count sem + 1 < 0 then
      ((svc.reqQueue sem).head?.map fun req => ((svc.request req).waiter, (svc.request req).signal)).toList
    else []
  | .msgportSend p _ => (svc.port p).sends
  | .msgportReply m =>
    match svc.replyPort m with
    | some p => (svc.port p).sends
    | none => []
  | _ => []

/-- The call of `signal_send` for a timer that fires. -/
def Services.sends (svc : Services) (tm : TimerRef) : Option (TaskRef × Signals) :=
  (svc.timer tm).task.map fun t => (t, (svc.timer tm).signal)

namespace Sys

variable (s : Sys)

/-- The calls of `signal_send` in an event. -/
def sends : SysEvent → List (TaskRef × Signals)
  | .core (.call (.signalSend t sg)) => [(t, sg)]
  | .core (.isrSignalSend t sg) => [(t, sg)]
  | .call (.service a) => a.sends s.svc
  | .isr a => a.sends s.svc
  | .tim2 => s.svc.clocked.due.filterMap s.svc.sends
  | _ => []

/-- The signals with which the running task calls `signal_wait` in an event. -/
def waitsFor : SysEvent → Option Signals
  | .core (.call (.signalWait sg)) => some sg
  | .resume =>
    match s.spc s.cs.core.running with
    | .semWaitBlock => some sigfSingle
    | .msgportWait p => if s.svc.messageList p = [] then some (s.svc.port p).signal else none
    | .timerDelayTest tm => if (s.svc.timer tm).status = .added then some (s.svc.timer tm).signal else none
    | _ => none
  | _ => none

/-- The task loses signals: it calls `signal_allocate`, or is initialised. -/
def Clears (t : TaskRef) (e : SysEvent) : Prop :=
  (t = s.cs.core.running ∧ s.Calling ∧ e.allocates ≠ none) ∨ ∃ params, e = .core (.call (.taskInit t params))

end Sys

/-- What a step does to the signals of task `t`. -/
inductive SignalsChange (s : Sys) (e : SysEvent) (s' : Sys) (t : TaskRef) : Prop where
  /-- It gets the signals that are sent to it. -/
  | keeps (x : Signals)
      (hx : ∀ i, x.getLsbD i = true ↔ ∃ sg, (t, sg) ∈ s.sends e ∧ sg.getLsbD i = true)
      (hr : (s'.cs.core.task t).sigRecvd = (s.cs.core.task t).sigRecvd ||| x)
      (hw : ∀ sg, s'.cs.Asleep t sg ↔ s.cs.Asleep t sg)
  /-- It goes to sleep. -/
  | blocks (sg : Signals) (ht : t = s.cs.core.running) (he : s.waitsFor e = some sg)
      (hz : sg &&& (s.cs.core.task t).sigRecvd = 0)
      (hr : (s'.cs.core.task t).sigRecvd = (s.cs.core.task t).sigRecvd)
      (hw : ∀ sg', s'.cs.Asleep t sg' ↔ sg' = sg)
  /-- `signal_wait` returns what has come. -/
  | takes (sg : Signals) (ht : t = s.cs.core.running)
      (he : s.waitsFor e = some sg ∨ (e = .core .resume ∧ s.cs.Asleep t sg))
      (hz : sg &&& (s.cs.core.task t).sigRecvd ≠ 0)
      (hr : (s'.cs.core.task t).sigRecvd =
        (s.cs.core.task t).sigRecvd &&& ~~~(sg &&& (s.cs.core.task t).sigRecvd))
      (hw : ∀ sg', ¬ s'.cs.Asleep t sg')
  /-- It loses signals without getting them. -/
  | clears (hc : s.Clears t e) (x : Signals)
      (hr : (s'.cs.core.task t).sigRecvd = (s.cs.core.task t).sigRecvd &&& x)
      (hw : ∀ sg, s'.cs.Asleep t sg ↔ s.cs.Asleep t sg)

section

variable {s s' : Sys} {e : SysEvent}

theorem and_or_eq_zero {x y z : Signals} (hy : x &&& y = 0) (hz : ∀ i, z.getLsbD i = true → x.getLsbD i = false) :
    x &&& (y ||| z) = 0 := by
  rw [BitVec.and_or_distrib_left, hy]
  refine BitVec.eq_of_getLsbD_eq fun i hi => ?_
  rw [BitVec.getLsbD_or, BitVec.getLsbD_and]
  cases hzi : z.getLsbD i with
  | false => simp
  | true => simp [hz i hzi]

/-- Two sets with a common bit meet. -/
theorem and_ne_zero_of_getLsbD {x y : Signals} {i : ℕ} (hx : x.getLsbD i = true) (hy : y.getLsbD i = true) :
    x &&& y ≠ 0 := by
  intro hz
  have hbit : (x &&& y).getLsbD i = true := by rw [BitVec.getLsbD_and, hx, hy]; rfl
  simp [hz] at hbit

/-- A task that calls `signal_wait` is not in it. -/
theorem Sys.Step.user_of_waitsFor (hst : s.Step e s') {sg : Signals} (he : s.waitsFor e = some sg) :
    s.cs.pc s.cs.core.running = .user := by
  unfold Sys.waitsFor at he
  split at he
  · exact hst.1.1.2.1
  · exact hst.1.1.2
  · cases he

theorem MsgPort.sends_of_signal {p : MsgPort} {t : TaskRef} (ht : p.task = some t) (ha : p.action = .signal) :
    p.sends = [(t, p.signal)] := by
  simp [MsgPort.sends, ht, ha]

theorem MsgPort.sends_of_none {p : MsgPort} (h : p.task = none ∨ p.action ≠ .signal) : p.sends = [] := by
  unfold MsgPort.sends
  cases ht : p.task with
  | none => rfl
  | some t => exact if_neg (h.resolve_left (by simp [ht]))

/-- Calls of `signal_send`, one after the other: the task gets all signals sent to it. -/
theorem signals_of_sends {a b : CoreSys} {ctr : List (Move CoreSys Event)} {calls : List (TaskRef × Signals)}
    (h : Nested a) (hr : Run CoreSys.Step a ctr b)
    (htr : ctr.map Move.event = calls.map fun call => .isrSignalSend call.1 call.2) (t : TaskRef) :
    (∃ x : Signals, (∀ i, x.getLsbD i = true ↔ ∃ sg, (t, sg) ∈ calls ∧ sg.getLsbD i = true) ∧
      (b.core.task t).sigRecvd = (a.core.task t).sigRecvd ||| x) ∧ ∀ sg, b.Asleep t sg ↔ a.Asleep t sg := by
  induction hr generalizing calls with
  | nil =>
    obtain rfl : calls = [] := List.map_eq_nil_iff.mp htr.symm
    exact ⟨⟨0#16, by simp, BitVec.or_zero.symm⟩, fun _ => Iff.rfl⟩
  | @snoc ctr c d e hrun hst ih =>
    rcases List.eq_nil_or_concat calls with rfl | ⟨calls', call, rfl⟩
    · simp at htr
    · rw [List.concat_eq_append, List.map_append, List.map_append] at htr
      obtain ⟨htr', hlast⟩ := List.append_inj' htr rfl
      obtain ⟨⟨x, hx, hrecvd⟩, hw⟩ := ih htr'
      have he : e = .isrSignalSend call.1 call.2 := List.head_eq_of_cons_eq hlast
      have hn : Nested c := hrun.invariant h fun _ _ _ hn hst => hn.step hst
      rw [List.concat_eq_append]
      cases hn.signalChange hst t with
      | keeps hno hr' hw' =>
        refine ⟨⟨x, fun i => ?_, hr'.trans hrecvd⟩, fun sg => (hw' sg).trans (hw sg)⟩
        have hne : call.1 ≠ t := fun hct => hno call.2 (.inr (by rw [he, hct]))
        rw [hx]
        simp only [List.mem_append, List.mem_singleton]
        constructor
        · rintro ⟨sg, hm, hi⟩
          exact ⟨sg, .inl hm, hi⟩
        · rintro ⟨sg, hm | hm, hi⟩
          · exact ⟨sg, hm, hi⟩
          · exact absurd (congrArg Prod.fst hm).symm hne
      | sent sg hs hr' hw' =>
        obtain rfl : call = (t, sg) := by
          rcases hs with hs | hs
          · cases he.symm.trans hs
          · obtain ⟨h₁, h₂⟩ := Event.isrSignalSend.inj (he.symm.trans hs)
            exact Prod.ext h₁ h₂
        refine ⟨⟨x ||| sg, fun i => ?_, by rw [hr', hrecvd, BitVec.or_assoc]⟩, fun sg => (hw' sg).trans (hw sg)⟩
        rw [BitVec.getLsbD_or, Bool.or_eq_true, hx]
        constructor
        · rintro (⟨sg', hm, hi⟩ | hi)
          · exact ⟨sg', List.mem_append_left _ hm, hi⟩
          · exact ⟨sg, by simp, hi⟩
        · rintro ⟨sg', hm, hi⟩
          rcases List.mem_append.mp hm with hm | hm
          · exact .inl ⟨sg', hm, hi⟩
          · obtain rfl := (Prod.mk.inj (List.mem_singleton.mp hm)).2
            exact .inr hi
      | blocks sg ht' he' => cases he.symm.trans he'
      | takes sg ht' he' => rcases he' with he' | ⟨he', -⟩ <;> cases he.symm.trans he'
      | clears hc => rcases hc with ⟨n, he', -⟩ | ⟨params, he'⟩ <;> cases he.symm.trans he'

/-- The timers that fire are those of which `signal_send` is called. -/
theorem Services.filterMap_sends {svc : Services} {tms : List TimerRef} {calls : List (TaskRef × Signals)}
    (h : List.Forall₂ svc.Call tms calls) : tms.filterMap svc.sends = calls := by
  induction h with
  | nil => rfl
  | @cons tm call tms calls hc _ ih =>
    have hsend : svc.sends tm = some call := by
      simp only [Services.sends, hc.1, hc.2, Option.map_some]
    rw [List.filterMap_cons_some hsend, ih]

/-- A step in which no signal is sent and the core does not move. -/
theorem SignalsChange.of_core_eq {t : TaskRef} (hcs : s'.cs = s.cs) (hs : s.sends e = []) :
    SignalsChange s e s' t :=
  .keeps 0#16 (fun i => by simp [hs]) (by rw [hcs, BitVec.or_zero]) fun sg => by rw [hcs]

/-- A step of the core in which one call of `signal_send` is made. -/
theorem SignalsChange.of_delivers {t u : TaskRef} {sg : Signals} (h : Nested s.cs) (hd : s.cs.Delivers u sg s'.cs)
    (hs : s.sends e = [(u, sg)]) : SignalsChange s e s' t := by
  obtain ⟨ev, hse, hst⟩ := hd
  have hev {t' : TaskRef} {sg' : Signals} (hs' : ev.Sends t' sg') : t' = u ∧ sg' = sg := by
    rcases hse with rfl | rfl <;> rcases hs' with he | he <;> cases he <;> exact ⟨rfl, rfl⟩
  cases h.signalChange hst t with
  | keeps hno hr hw =>
    refine .keeps 0#16 (fun i => ?_) (by rw [hr, BitVec.or_zero]) hw
    have hne : t ≠ u := by rintro rfl; exact hno sg hse
    simp [hs, hne]
  | sent sg' hs' hr hw =>
    obtain ⟨rfl, rfl⟩ := hev hs'
    exact .keeps sg' (fun i => by simp [hs]) hr hw
  | blocks _ _ he => rcases hse with rfl | rfl <;> cases he
  | takes _ _ he => rcases hse with rfl | rfl <;> rcases he with he | ⟨he, -⟩ <;> cases he
  | clears hc => rcases hse with rfl | rfl <;> rcases hc with ⟨n, he, -⟩ | ⟨params, he⟩ <;> cases he

/-- A call of the core by the running task, inside a service function, that sends nothing. -/
theorem SignalsChange.of_call {t : TaskRef} {k : Call} (h : Nested s.cs) (hst : s.cs.Step (.call k) s'.cs)
    (hs : s.sends e = []) (hk : ∀ u sg, k ≠ .signalSend u sg)
    (hw : ∀ sg, k = .signalWait sg → s.waitsFor e = some sg)
    (hc : (∃ n, k = .signalAllocate n) → s.Calling ∧ e.allocates ≠ none) (hi : ∀ u params, k ≠ .taskInit u params) :
    SignalsChange s e s' t := by
  cases h.signalChange hst t with
  | keeps hno hr hw' => exact .keeps 0#16 (fun i => by simp [hs]) (by rw [hr, BitVec.or_zero]) hw'
  | sent sg' hs' =>
    rcases hs' with he | he
    · exact absurd (Event.call.inj he) (hk t sg')
    · cases he
  | blocks sg ht he hz hr hw' => exact .blocks sg ht (hw sg (Event.call.inj he)) hz hr hw'
  | takes sg ht he hz hret hr hw' =>
    rcases he with he | ⟨he, -⟩
    · exact .takes sg ht (.inl (hw sg (Event.call.inj he))) hz hr hw'
    · cases he
  | clears hcl x hr hw' =>
    rcases hcl with ⟨n, he, ht⟩ | ⟨params, he⟩
    · exact .clears (.inl ⟨ht, hc ⟨n, Event.call.inj he⟩⟩) x hr hw'
    · exact absurd (Event.call.inj he) (hi t params)

/-- A call that does not block, of which the calls of `signal_send` are known. -/
theorem Sys.Calls.sends_eq {a : Service} (hc : s.Calls e a) : s.sends e = a.sends s.svc := by
  rcases hc.1 with ⟨rfl, -⟩ | ⟨rfl, -⟩ <;> rfl

/-- A step of the core machine. -/
theorem SignalsChange.of_core {ev : Event} {cs : CoreSys} (h : Nested s.cs) (hst : s.cs.Step ev cs)
    (hc : ∀ k, ev = .call k → s.spc s.cs.core.running = .user) (t : TaskRef) :
    SignalsChange s (.core ev) { s with cs := cs } t := by
  have hnone (hno : ∀ u sg, ¬ ev.Sends u sg) : s.sends (.core ev) = [] := by
    unfold Sys.sends
    split
    · next u sg he => exact absurd (.inl (SysEvent.core.inj he)) (hno u sg)
    · next u sg he => exact absurd (.inr (SysEvent.core.inj he)) (hno u sg)
    · next he => cases he
    · next he => cases he
    · next he => cases he
    · rfl
  by_cases hs : ∃ u sg, ev.Sends u sg
  · obtain ⟨u, sg, hs⟩ := hs
    exact SignalsChange.of_delivers h ⟨ev, hs, hst⟩ (by rcases hs with rfl | rfl <;> rfl)
  · have hno : ∀ u sg, ¬ ev.Sends u sg := fun u sg hse => hs ⟨u, sg, hse⟩
    cases h.signalChange hst t with
    | keeps _ hr hw => exact .keeps 0#16 (fun i => by simp [hnone hno]) (by rw [hr, BitVec.or_zero]) hw
    | sent sg hse => exact absurd hse (hno t sg)
    | blocks sg ht he hz hr hw => exact .blocks sg ht (by rw [he]; rfl) hz hr hw
    | takes sg ht he hz hret hr hw =>
      refine .takes sg ht (he.imp (fun he => ?_) fun he => ⟨congrArg _ he.1, he.2⟩) hz hr hw
      rw [he]
      rfl
    | clears hcl x hr hw =>
      refine .clears (hcl.imp ?_ ?_) x hr hw
      · rintro ⟨n, rfl, ht⟩
        exact ⟨ht, ⟨⟨hst.1.1, hst.1.2.1⟩, hc _ rfl⟩, nofun⟩
      · rintro ⟨params, rfl⟩
        exact ⟨params, rfl⟩

/-- **What a step does to the signals of a task.** -/
theorem Sound.signalsChange (h : Sound s) (heff : SysEffect s e s') (t : TaskRef) : SignalsChange s e s' t := by
  have hn := h.nested
  cases heff with
  | core hst hc => exact .of_core hn hst hc t
  | semInit hc => exact .of_core_eq rfl hc.sends_eq
  | requests hc => exact .of_core_eq rfl hc.sends_eq
  | semTaken hu hr hn => exact .of_core_eq rfl rfl
  | semQueued hu hr hd hn => exact .of_core_eq rfl rfl
  | semBlocks hu hp hst =>
    refine .of_call hn hst rfl (by simp) (fun sg hk => ?_) (by simp) (by simp)
    cases hk
    simp [Sys.waitsFor, hp]
  | semReturns hu hp => exact .of_core_eq rfl rfl
  | released hc hz =>
    refine .of_core_eq rfl (hc.sends_eq.trans ?_)
    exact if_neg (not_lt.mpr hz)
  | grants hc hz hh hs =>
    refine .of_delivers hn hs (hc.sends_eq.trans ?_)
    simp only [Service.sends, if_pos hz, hh, Option.map_some, Option.toList_some]
  | portInit hu ha hst hsg =>
    exact .of_call hn hst rfl (by simp) (by simp) (fun _ => ⟨hu, by simp [SysEvent.allocates]⟩) (by simp)
  | got hc => exact .of_core_eq rfl hc.sends_eq
  | @sent _ p m cs hc hm ha hs =>
    have hsends : s.sends e = (s.svc.port p).sends := by
      rcases hc with hc | ⟨hc, hr⟩
      · exact hc.sends_eq
      · exact hc.sends_eq.trans (by simp only [Service.sends, hr])
    rcases hs with ⟨u, hu, hact, hd⟩ | ⟨hno, rfl⟩
    · exact .of_delivers hn hd (hsends.trans (MsgPort.sends_of_signal hu hact))
    · exact .of_core_eq rfl (hsends.trans (MsgPort.sends_of_none hno))
  | portWaits hu ha hd hst =>
    exact .of_call hn hst rfl (by simp) (by simp) (by simp) (by simp)
  | portBlocks hu hp hl hst =>
    refine .of_call hn hst rfl (by simp) (fun sg hk => ?_) (by simp) (by simp)
    cases hk
    simp [Sys.waitsFor, hp, hl]
  | portReturns hu hp hl hst =>
    exact .of_call hn hst rfl (by simp) (by simp) (by simp) (by simp)
  | timerAllocate hu hf hst =>
    exact .of_call hn hst rfl (by simp) (by simp) (fun _ => ⟨hu, by simp [SysEvent.allocates]⟩) (by simp)
  | timerFree hu hf hst => exact .of_call hn hst rfl (by simp) (by simp) (by simp) (by simp)
  | addStarts hu ha hs => exact .of_core_eq rfl rfl
  | delayStarts hu hf hd hst =>
    exact .of_call hn hst rfl (by simp) (by simp) (fun _ => ⟨hu, by simp [SysEvent.allocates]⟩) (by simp)
  | addElapsed hu hp he => exact .of_core_eq rfl rfl
  | addPasses hu hp he => exact .of_core_eq rfl rfl
  | addInserts hu hp hm => exact .of_core_eq rfl rfl
  | delayWaits hu hp ha hst =>
    refine .of_call hn hst rfl (by simp) (fun sg hk => ?_) (by simp) (by simp)
    cases hk
    simp [Sys.waitsFor, hp, ha]
  | delaySkips hu hp => exact .of_core_eq rfl rfl
  | delayFrees hu hp hst =>
    exact .of_call hn hst rfl (by simp) (by simp) (by simp) (by simp)
  | aborts hc ha hm => exact .of_core_eq rfl hc.sends_eq
  | abortsNot hc ha => exact .of_core_eq rfl hc.sends_eq
  | @tim2 calls ctr c hm hc hr htr =>
    obtain ⟨⟨x, hx, hrecvd⟩, hw⟩ := signals_of_sends hn hr htr t
    refine .keeps x (fun i => ?_) hrecvd hw
    have hcalls : s.sends .tim2 = calls := Services.filterMap_sends hc
    rw [hcalls]
    exact hx i
  | @write w hu hw => cases w <;> exact .of_core_eq rfl rfl

end

end Martos
