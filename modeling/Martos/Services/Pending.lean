import Martos.Services.Semaphores

/-!
# The signals that are pending are those sent and not taken

`Core.Signals` says that no signal is lost. Here it is said that none comes from nowhere:
what `sig_recvd` of a task holds is computed from what happens. In an event some signals are
sent to the task, by `signal_send` itself or by the services that call it (`Sys.signalsTo`), and
some are taken (`Sys.signalsFrom`): those which `signal_wait` returns, those which `signal_allocate`
clears, and all in `task_init`. So a bit is pending exactly if the last that happened to it is
that it was sent (`signals_received_exactly`), and `signal_wait` returns no other bits.
-/

namespace Martos

open Transition

/-! ### The core -/

/-- The signals sent to task `t` in an event. -/
def Event.signalsTo (t : TaskRef) : Event → Signals
  | .call (.signalSend u sg) => if u = t then sg else 0#16
  | .isrSignalSend u sg => if u = t then sg else 0#16
  | _ => 0#16

/-- The signals that task `t` has no more after an event. -/
def CoreSys.signalsFrom (s : CoreSys) (t : TaskRef) : Event → Signals
  | .call (.taskInit u _) => if u = t then BitVec.allOnes 16 else 0#16
  | .call (.signalAllocate n) => if t = s.core.running then (chooseSignal (s.core.task t).sigAlloc n).2 else 0#16
  | e => if t = s.core.running then (s.returns e).getD 0#16 else 0#16

section

variable {s s' : CoreSys} {e : Event} {t : TaskRef}

theorem and_not_zero (x : Signals) : x &&& ~~~0#16 = x := BitVec.and_allOnes

/-- **What a step of the core makes of the pending signals.** -/
theorem Nested.sigRecvd_eq (h : Nested s) (hst : s.Step e s') (t : TaskRef) :
    (s'.core.task t).sigRecvd = (s.core.task t).sigRecvd &&& ~~~(s.signalsFrom t e) ||| e.signalsTo t := by
  have hsame (hs : e.signalsTo t = 0#16) (hk : s.signalsFrom t e = 0#16)
      (hr : (s'.core.task t).sigRecvd = (s.core.task t).sigRecvd) :
      (s'.core.task t).sigRecvd = (s.core.task t).sigRecvd &&& ~~~(s.signalsFrom t e) ||| e.signalsTo t := by
    rw [hs, hk, hr, and_not_zero, BitVec.or_zero]
  have hnone {e : Event} (hr : s.returns e = none) :
      (if t = s.core.running then (s.returns e).getD 0#16 else 0#16) = 0#16 := by
    rw [hr]
    exact ite_self _
  -- a call of `signal_send`
  have hsend {u : TaskRef} {sg : Signals} (he : (e = .call (.signalSend u sg) ∧ s.AtUser) ∨
      (e = .isrSignalSend u sg ∧ s.core.primask = false))
      (hself : (s'.core.task u).sigRecvd = (s.core.task u).sigRecvd ||| sg)
      (hof : t ≠ u → (s'.core.task t).sigRecvd = (s.core.task t).sigRecvd) :
      (s'.core.task t).sigRecvd = (s.core.task t).sigRecvd &&& ~~~(s.signalsFrom t e) ||| e.signalsTo t := by
    have hk : s.signalsFrom t e = 0#16 := by
      rcases he with ⟨rfl, -⟩ | ⟨rfl, -⟩
      · exact hnone rfl
      · exact hnone rfl
    have hs : e.signalsTo t = if u = t then sg else 0#16 := by rcases he with ⟨rfl, -⟩ | ⟨rfl, -⟩ <;> rfl
    rw [hk, hs, and_not_zero]
    by_cases htu : t = u
    · subst htu
      rw [if_pos rfl, hself]
    · rw [if_neg (Ne.symm htu), hof htu, BitVec.or_zero]
  -- `signal_wait` returns
  have hcollect {c : Core} {rcvd : Signals} {n : ℤ} (he : e.signalsTo t = 0#16) (hr : s.returns e = some rcvd)
      (hk : s.signalsFrom t e = if t = s.core.running then (s.returns e).getD 0#16 else 0#16)
      (hrun : c.running = s.core.running) (hc : (c.task t).sigRecvd = (s.core.task t).sigRecvd) :
      ((c.consumed rcvd n).task t).sigRecvd =
        (s.core.task t).sigRecvd &&& ~~~(s.signalsFrom t e) ||| e.signalsTo t := by
    rw [he, hk, hr, BitVec.or_zero]
    by_cases ht : t = s.core.running
    · rw [if_pos ht]
      rw [ht, ← hrun] at hc ⊢
      simp [Core.consumed, hc]
    · have htc : t ≠ c.running := fun htc => ht (htc.trans hrun)
      rw [if_neg ht, and_not_zero, ← hc]
      simp [Core.consumed, htc]
  have hawaits (sg : Signals) : ((s.core.awaits sg).task t).sigRecvd = (s.core.task t).sigRecvd :=
    Core.apply_update Task.sigRecvd (by rfl) t
  have hexec := hst.2
  cases h.effect hst with
  | @taskInit u params context hu hf =>
    by_cases htu : t = u
    · subst htu
      have hk : s.signalsFrom t (.call (.taskInit t params)) = BitVec.allOnes 16 := if_pos rfl
      rw [hk]
      simp [Core.prepared, Event.signalsTo]
    · exact hsame rfl (if_neg (Ne.symm htu)) (by simp [Core.prepared, htu])
  | @signalAllocate n target hu =>
    -- `target` is what the first half of the call leaves
    simp only [CoreSys.exec, CoreSys.execCall, Core.signalAllocate_eq h.balanced, Checked.bind_eq_ok,
      Checked.pure_eq_ok] at hexec
    obtain ⟨⟨m, c⟩, ⟨-, -, hc⟩, heq⟩ := hexec
    obtain ⟨-, rfl⟩ := Prod.mk.inj hc
    have hcore := congrArg (fun x : CoreSys => (x.core.task t).sigRecvd) heq
    dsimp only at hcore ⊢
    rw [← hcore]
    by_cases ht : t = s.core.running
    · subst ht
      have hk : s.signalsFrom s.core.running (.call (.signalAllocate n)) =
          (chooseSignal (s.core.task s.core.running).sigAlloc n).2 := if_pos rfl
      rw [hk]
      simp [Core.allocated, Event.signalsTo]
    · have hk : s.signalsFrom t (.call (.signalAllocate n)) = 0#16 := if_neg ht
      rw [hk, and_not_zero]
      simp [Core.allocated, ht, Event.signalsTo]
  | @posted _ u sg hw he => exact hsend he (by simp [Core.posted]) fun htu => by simp [Core.posted, htu]
  | @woken _ u sg hw hm he => exact hsend he (by simp [Core.woken]) fun htu => by simp [Core.woken, htu]
  | @waitBlocks sg hu hlt hz hl =>
    refine hsame rfl (hnone ?_) ((Core.apply_update Task.sigRecvd (by rfl) t).trans (hawaits sg))
    rw [h.returns_call, if_pos hz]
  | @waitReturns sg hu hlt hz =>
    refine hcollect (c := s.core.awaits sg) rfl ?_ rfl rfl (hawaits sg)
    rw [h.returns_call, if_neg hz]
  | blocksAgain ht hpc hz hl =>
    refine hsame rfl (hnone ?_) (Core.apply_update Task.sigRecvd (by rfl) t)
    rw [h.returns_resume hpc, if_pos hz]
  | returns ht hpc hz =>
    refine hcollect (c := s.core) rfl ?_ rfl rfl rfl
    rw [h.returns_resume hpc, if_neg hz]
  | inserts ht hpc hl =>
    exact hsame rfl (hnone (by simp [CoreSys.returns, hpc])) (Core.apply_update Task.sigRecvd (by rfl) t)
  | requests ht hpc => exact hsame rfl (hnone (by simp [CoreSys.returns, hpc])) rfl
  | yields ht hpc => exact hsame rfl (hnone (by simp [CoreSys.returns, hpc])) rfl
  | taskSetPrio hu => exact hsame rfl (hnone rfl) (Core.apply_update Task.sigRecvd (by rfl) t)
  | signalFree hu hs => exact hsame rfl (hnone rfl) (Core.apply_update Task.sigRecvd (by rfl) t)
  | @preempts frame u hp hs hl hh =>
    have hout : ((s.core.requeued frame).task t).sigRecvd = (s.core.task t).sigRecvd :=
      Core.apply_update Task.sigRecvd (by rfl) t
    exact hsame rfl (hnone rfl) ((Core.apply_update Task.sigRecvd (by rfl) t).trans hout)
  | @leaves frame u st hp hs hor hh =>
    have hout : ((s.core.switchedOut frame st).task t).sigRecvd = (s.core.task t).sigRecvd :=
      Core.apply_update Task.sigRecvd (by rfl) t
    exact hsame rfl (hnone rfl) ((Core.apply_update Task.sigRecvd (by rfl) t).trans hout)
  | _ => exact hsame rfl (hnone rfl) rfl

end

/-! ### The whole machine -/

/-- The event is `task_init` of task `t`. -/
def SysEvent.initialisesTask (t : TaskRef) : SysEvent → Bool
  | .core (.call (.taskInit u _)) => decide (u = t)
  | _ => false

namespace Sys

variable (s : Sys)

/-- The signals sent to task `t` in an event. -/
def signalsTo (t : TaskRef) (e : SysEvent) : Signals :=
  (s.sends e).foldr (fun call x => if call.1 = t then call.2 ||| x else x) 0#16

/-- The signals for which the running task is in `signal_wait` in an event, at its start or after the
switch. -/
def awaited : SysEvent → Option Signals
  | .core e => s.cs.waitsFor e
  | e => s.waitsFor e

/-- What `signal_wait` returns in an event, if it is called there, or goes on, and returns. -/
def collects : SysEvent → Option Signals
  | .core e => s.cs.returns e
  | e => (s.waitsFor e).bind fun sg => s.cs.returns (.call (.signalWait sg))

/-- What `signal_allocate` clears in an event, if it is called there. -/
def cleared (e : SysEvent) : Signals :=
  match e.allocates with
  | some p => (chooseSignal (s.cs.core.task s.cs.core.running).sigAlloc p.2).2
  | none => 0#16

/-- The signals that task `t` has no more after an event. -/
def signalsFrom (t : TaskRef) (e : SysEvent) : Signals :=
  if e.initialisesTask t then BitVec.allOnes 16
  else if t = s.cs.core.running then (s.collects e).getD 0#16 ||| s.cleared e else 0#16

/-- What a move makes of bit `i` of task `t`: it is sent, or taken. -/
def bitMark (t : TaskRef) (i : ℕ) (m : Move Sys SysEvent) : Option Bool :=
  if (m.pre.signalsTo t m.event).getLsbD i then some true
  else if (m.pre.signalsFrom t m.event).getLsbD i then some false else none

end Sys

section

variable {s s' : Sys} {e : SysEvent} {t : TaskRef}

/-- The pending signals of task `t` after a step are those before it that are not taken, and those sent. -/
def SignalsAfter (s : Sys) (e : SysEvent) (s' : Sys) (t : TaskRef) : Prop :=
  (s'.cs.core.task t).sigRecvd = (s.cs.core.task t).sigRecvd &&& ~~~(s.signalsFrom t e) ||| s.signalsTo t e

theorem Sys.signalsTo_of_nil (h : s.sends e = []) : s.signalsTo t e = 0#16 := by
  rw [Sys.signalsTo, h]
  rfl

/-- The bits sent to a task. -/
theorem Sys.getLsbD_signalsTo (i : ℕ) :
    (s.signalsTo t e).getLsbD i = true ↔ ∃ sg, (t, sg) ∈ s.sends e ∧ sg.getLsbD i = true := by
  unfold Sys.signalsTo
  induction s.sends e with
  | nil => simp
  | cons call calls ih =>
    obtain ⟨u, sg⟩ := call
    by_cases hu : u = t
    · subst hu
      simp only [List.foldr_cons, if_true, BitVec.getLsbD_or, Bool.or_eq_true, ih, List.mem_cons, Prod.mk.injEq,
        true_and]
      constructor
      · rintro (hi | ⟨sg', hm, hi⟩)
        · exact ⟨sg, .inl rfl, hi⟩
        · exact ⟨sg', .inr hm, hi⟩
      · rintro ⟨sg', rfl | hm, hi⟩
        · exact .inl hi
        · exact .inr ⟨sg', hm, hi⟩
    · simp only [List.foldr_cons, if_neg hu, ih, List.mem_cons, Prod.mk.injEq, Ne.symm hu, false_and, false_or]

/-- A step in which the core does not move, nothing is sent and nothing is taken. -/
theorem SignalsAfter.of_core_eq (hcs : s'.cs = s.cs) (hs : s.sends e = []) (hk : s.signalsFrom t e = 0#16) :
    SignalsAfter s e s' t := by
  rw [SignalsAfter, hcs, hk, Sys.signalsTo_of_nil hs, and_not_zero, BitVec.or_zero]

/-- A step of the core, by one event. -/
theorem SignalsAfter.of_step {ev : Event} (h : Nested s.cs) (hst : s.cs.Step ev s'.cs)
    (hs : s.signalsTo t e = ev.signalsTo t) (hk : s.signalsFrom t e = s.cs.signalsFrom t ev) :
    SignalsAfter s e s' t := by
  rw [SignalsAfter, hs, hk]
  exact h.sigRecvd_eq hst t

/-- An event other than `task_init` takes signals of the running task only. -/
theorem Sys.signalsFrom_eq {rcvd x : Signals} (hi : e.initialisesTask t = false) (hr : (s.collects e).getD 0#16 = rcvd)
    (hx : s.cleared e = x) : s.signalsFrom t e = if t = s.cs.core.running then rcvd ||| x else 0#16 := by
  rw [Sys.signalsFrom, hi, hr, hx]
  rfl

theorem Sys.cleared_of_none (ha : e.allocates = none) : s.cleared e = 0#16 := by simp only [Sys.cleared, ha]

/-- An event in which no signals are taken. -/
theorem Sys.signalsFrom_of_none (hi : e.initialisesTask t = false) (hr : s.collects e = none)
    (ha : e.allocates = none) : s.signalsFrom t e = 0#16 := by
  rw [Sys.signalsFrom_eq hi (congrArg (Option.getD · 0#16) hr) (Sys.cleared_of_none ha)]
  exact ite_self _

/-- A call that does not block takes nothing. -/
theorem Sys.Calls.signalsFrom_eq {a : Service} (hc : s.Calls e a) : s.signalsFrom t e = 0#16 := by
  rcases hc.1 with ⟨rfl, -⟩ | ⟨rfl, -⟩
  · exact Sys.signalsFrom_of_none rfl rfl rfl
  · exact Sys.signalsFrom_of_none rfl rfl rfl

/-- The running task goes on outside of `signal_wait`. -/
theorem Sys.signalsFrom_resume (hw : s.waitsFor .resume = none) : s.signalsFrom t .resume = 0#16 :=
  Sys.signalsFrom_of_none rfl (by simp only [Sys.collects, hw, Option.bind_none]) rfl

/-- The running task goes on and calls `signal_wait`. -/
theorem Sys.signalsFrom_resume_of_some {sg : Signals} (hw : s.waitsFor .resume = some sg) :
    s.signalsFrom t .resume = s.cs.signalsFrom t (.call (.signalWait sg)) := by
  have hcol : s.collects .resume = s.cs.returns (.call (.signalWait sg)) := by
    simp only [Sys.collects, hw, Option.bind_some]
  rw [Sys.signalsFrom_eq rfl (congrArg (Option.getD · 0#16) hcol) (Sys.cleared_of_none rfl), BitVec.or_zero]
  rfl

/-- The running task calls `signal_allocate`. -/
theorem Sys.signalsFrom_allocates {h : Holder} {n : ℤ} (hi : e.initialisesTask t = false) (hr : s.collects e = none)
    (ha : e.allocates = some (h, n)) : s.signalsFrom t e = s.cs.signalsFrom t (.call (.signalAllocate n)) := by
  have hcl : s.cleared e = (chooseSignal (s.cs.core.task s.cs.core.running).sigAlloc n).2 := by
    simp only [Sys.cleared, ha]
  rw [Sys.signalsFrom_eq hi (congrArg (Option.getD · 0#16) hr) hcl]
  by_cases ht : t = s.cs.core.running
  · rw [if_pos ht, ht]
    exact (BitVec.zero_or ..).trans (if_pos rfl).symm
  · rw [if_neg ht]
    exact (if_neg ht).symm

/-- An event of the core. -/
theorem Sys.signalsFrom_core (ev : Event) : s.signalsFrom t (.core ev) = s.cs.signalsFrom t ev := by
  have hplain (hi : (SysEvent.core ev).initialisesTask t = false) (ha : (SysEvent.core ev).allocates = none)
      (hk : s.cs.signalsFrom t ev = if t = s.cs.core.running then (s.cs.returns ev).getD 0#16 else 0#16) :
      s.signalsFrom t (.core ev) = s.cs.signalsFrom t ev := by
    rw [hk, Sys.signalsFrom_eq hi rfl (Sys.cleared_of_none ha), BitVec.or_zero]
    rfl
  cases ev with
  | call k =>
    cases k with
    | taskInit u params =>
      by_cases hu : u = t
      · exact (if_pos (decide_eq_true hu)).trans (if_pos hu).symm
      · have hi : (SysEvent.core (.call (.taskInit u params))).initialisesTask t = false := decide_eq_false hu
        rw [Sys.signalsFrom_of_none hi rfl rfl]
        exact (if_neg hu).symm
    | signalAllocate n => exact Sys.signalsFrom_allocates rfl rfl rfl
    | _ => exact hplain rfl rfl rfl
  | _ => exact hplain rfl rfl rfl

theorem Sys.signalsTo_core (ev : Event) : s.signalsTo t (.core ev) = ev.signalsTo t := by
  have hone (u : TaskRef) (sg : Signals) (hs : s.sends (.core ev) = [(u, sg)]) :
      s.signalsTo t (.core ev) = if u = t then sg else 0#16 := by
    rw [Sys.signalsTo, hs]
    by_cases hu : u = t
    · simp [hu]
    · simp [hu]
  cases ev with
  | call k =>
    cases k with
    | signalSend u sg => exact hone u sg rfl
    | _ => rfl
  | isrSignalSend u sg => exact hone u sg rfl
  | _ => rfl

/-- A step in which one call of `signal_send` is made, and nothing is taken. -/
theorem SignalsAfter.of_delivers {u : TaskRef} {sg : Signals} (h : Nested s.cs) (hd : s.cs.Delivers u sg s'.cs)
    (hs : s.sends e = [(u, sg)]) (hk : s.signalsFrom t e = 0#16) : SignalsAfter s e s' t := by
  obtain ⟨ev, hev, hst⟩ := hd
  refine .of_step h hst ?_ ?_
  · have hone : s.signalsTo t e = if u = t then sg else 0#16 := by
      rw [Sys.signalsTo, hs]
      by_cases hu : u = t
      · simp [hu]
      · simp [hu]
    rw [hone]
    rcases hev with rfl | rfl <;> rfl
  · rw [hk]
    rcases hev with rfl | rfl
    · exact (ite_self _).symm
    · exact (ite_self _).symm

/-- A call of the core by a service function, that sends nothing. -/
theorem SignalsAfter.of_call {k : Call} (h : Nested s.cs) (hst : s.cs.Step (.call k) s'.cs) (hs : s.sends e = [])
    (hno : ∀ u sg, k ≠ .signalSend u sg) (hk : s.signalsFrom t e = s.cs.signalsFrom t (.call k)) :
    SignalsAfter s e s' t := by
  refine .of_step h hst ((Sys.signalsTo_of_nil hs).trans ?_) hk
  cases k with
  | signalSend u sg => exact absurd rfl (hno u sg)
  | _ => rfl

/-- **What a step of the machine makes of the pending signals.** -/
theorem Sound.signalsAfter (h : Sound s) (heff : SysEffect s e s') (t : TaskRef) : SignalsAfter s e s' t := by
  have hn := h.nested
  cases heff with
  | core hst hc => exact .of_step hn hst (Sys.signalsTo_core _) (Sys.signalsFrom_core _)
  | semInit hc => exact .of_core_eq rfl hc.sends_eq hc.signalsFrom_eq
  | requests hc => exact .of_core_eq rfl hc.sends_eq hc.signalsFrom_eq
  | semTaken hu hr hne => exact .of_core_eq rfl rfl (Sys.signalsFrom_of_none rfl rfl rfl)
  | semQueued hu hr hd hne => exact .of_core_eq rfl rfl (Sys.signalsFrom_of_none rfl rfl rfl)
  | semBlocks hu hp hst =>
    exact .of_call hn hst rfl (by simp) (Sys.signalsFrom_resume_of_some (by simp [Sys.waitsFor, hp]))
  | semReturns hu hp => exact .of_core_eq rfl rfl (Sys.signalsFrom_resume (by simp [Sys.waitsFor, hp]))
  | released hc hz => exact .of_core_eq rfl (hc.sends_eq.trans (if_neg (not_lt.mpr hz))) hc.signalsFrom_eq
  | grants hc hz hh hs =>
    refine .of_delivers hn hs (hc.sends_eq.trans ?_) hc.signalsFrom_eq
    simp only [Service.sends, if_pos hz, hh, Option.map_some, Option.toList_some]
  | portInit hu ha hst hsg => exact .of_call hn hst rfl (by simp) (Sys.signalsFrom_allocates rfl rfl rfl)
  | got hc => exact .of_core_eq rfl hc.sends_eq hc.signalsFrom_eq
  | @sent _ p m cs hc hm ha hs =>
    have hsends : s.sends e = (s.svc.port p).sends := by
      rcases hc with hc | ⟨hc, hr⟩
      · exact hc.sends_eq
      · exact hc.sends_eq.trans (by simp only [Service.sends, hr])
    have htaken : s.signalsFrom t e = 0#16 := by
      rcases hc with hc | ⟨hc, -⟩
      · exact hc.signalsFrom_eq
      · exact hc.signalsFrom_eq
    rcases hs with ⟨u, hu, hact, hd⟩ | ⟨hno, rfl⟩
    · exact .of_delivers hn hd (hsends.trans (MsgPort.sends_of_signal hu hact)) htaken
    · exact .of_core_eq rfl (hsends.trans (MsgPort.sends_of_none hno)) htaken
  | portWaits hu ha hd hst =>
    exact .of_call hn hst rfl (by simp) ((Sys.signalsFrom_of_none rfl rfl rfl).trans (ite_self _).symm)
  | portBlocks hu hp hl hst =>
    exact .of_call hn hst rfl (by simp) (Sys.signalsFrom_resume_of_some (by simp [Sys.waitsFor, hp, hl]))
  | portReturns hu hp hl hst =>
    have hk := Sys.signalsFrom_resume (t := t) (s := s) (by simp [Sys.waitsFor, hp, hl])
    exact .of_call hn hst rfl (by simp) (hk.trans (ite_self _).symm)
  | timerAllocate hu hf hst => exact .of_call hn hst rfl (by simp) (Sys.signalsFrom_allocates rfl rfl rfl)
  | timerFree hu hf hst =>
    exact .of_call hn hst rfl (by simp) ((Sys.signalsFrom_of_none rfl rfl rfl).trans (ite_self _).symm)
  | addStarts hu ha hs => exact .of_core_eq rfl rfl (Sys.signalsFrom_of_none rfl rfl rfl)
  | delayStarts hu hf hd hst => exact .of_call hn hst rfl (by simp) (Sys.signalsFrom_allocates rfl rfl rfl)
  | addElapsed hu hp he => exact .of_core_eq rfl rfl (Sys.signalsFrom_resume (by simp [Sys.waitsFor, hp]))
  | addPasses hu hp he => exact .of_core_eq rfl rfl (Sys.signalsFrom_resume (by simp [Sys.waitsFor, hp]))
  | addInserts hu hp hm => exact .of_core_eq rfl rfl (Sys.signalsFrom_resume (by simp [Sys.waitsFor, hp]))
  | delayWaits hu hp ha hst =>
    exact .of_call hn hst rfl (by simp) (Sys.signalsFrom_resume_of_some (by simp [Sys.waitsFor, hp, ha]))
  | delaySkips hu hp ha => exact .of_core_eq rfl rfl (Sys.signalsFrom_resume (by simp [Sys.waitsFor, hp, ha]))
  | delayFrees hu hp hst =>
    have hk := Sys.signalsFrom_resume (t := t) (s := s) (by simp [Sys.waitsFor, hp])
    exact .of_call hn hst rfl (by simp) (hk.trans (ite_self _).symm)
  | aborts hc ha hm => exact .of_core_eq rfl hc.sends_eq hc.signalsFrom_eq
  | abortsNot hc ha => exact .of_core_eq rfl hc.sends_eq hc.signalsFrom_eq
  | @tim2 calls ctr c hm hc hr htr =>
    obtain ⟨⟨x, hx, hrecvd⟩, -⟩ := signals_of_sends hn hr htr t
    have hk : s.signalsFrom t .tim2 = 0#16 := Sys.signalsFrom_of_none rfl rfl rfl
    have hsent : s.signalsTo t .tim2 = x := by
      refine BitVec.eq_of_getLsbD_eq fun i _ => Bool.eq_iff_iff.mpr ?_
      have hcalls : s.sends .tim2 = calls := Services.filterMap_sends hc
      rw [Sys.getLsbD_signalsTo, hcalls, hx]
    rw [SignalsAfter, hk, hsent, and_not_zero]
    exact hrecvd
  | @write w hu hw => cases w <;> exact .of_core_eq rfl rfl (Sys.signalsFrom_of_none rfl rfl rfl)

/-! ### Runs -/

/-- A bit after a step is what the step has made of it. -/
theorem SignalsAfter.getLsbD {i : ℕ} (h : SignalsAfter s e s' t) (hi : i < signalsWidth) :
    (s'.cs.core.task t).sigRecvd.getLsbD i =
      (Sys.bitMark t i ⟨s, e, s'⟩).getD ((s.cs.core.task t).sigRecvd.getLsbD i) := by
  have hi : i < 16 := hi
  rw [SignalsAfter] at h
  rw [h, BitVec.getLsbD_or, BitVec.getLsbD_and, BitVec.getLsbD_not, decide_eq_true hi, Bool.true_and]
  unfold Sys.bitMark
  cases (s.signalsTo t e).getLsbD i with
  | true => simp
  | false => cases (s.signalsFrom t e).getLsbD i <;> simp

/-- What is pending at the end of a run is read off its moves. -/
theorem Sound.pending_run {tr : List (Move Sys SysEvent)} {i : ℕ} (h : Sound s) (hr : Run Sys.Step s tr s')
    (hi : i < signalsWidth) : (s'.cs.core.task t).sigRecvd.getLsbD i =
      (latest (Sys.bitMark t i) tr).getD ((s.cs.core.task t).sigRecvd.getLsbD i) := by
  induction hr with
  | nil => rfl
  | @snoc tr a b e hr hst ih =>
    have ha : Sound a := hr.invariant h fun _ _ _ h hst => h.step hst
    rw [(ha.signalsAfter (ha.effect hst) t).getLsbD hi, ih, latest_snoc]
    cases Sys.bitMark t i ⟨a, e, b⟩ <;> simp

/-- What `signal_wait` returns is what it waits for and has come, and not empty. -/
theorem Sound.collects_eq {rcvd : Signals} (h : Sound s) (hc : s.collects e = some rcvd) :
    ∃ sg, s.awaited e = some sg ∧ rcvd ≠ 0 ∧ rcvd = sg &&& (s.cs.core.task s.cs.core.running).sigRecvd := by
  have hcall (hc : ((s.waitsFor e).bind fun sg => s.cs.returns (.call (.signalWait sg))) = some rcvd) :
      ∃ sg, s.waitsFor e = some sg ∧ rcvd ≠ 0 ∧ rcvd = sg &&& (s.cs.core.task s.cs.core.running).sigRecvd := by
    obtain ⟨sg, hsg, hret⟩ := Option.bind_eq_some_iff.mp hc
    obtain ⟨sg', heq, hne, hrcvd⟩ := h.nested.returns_eq hret
    obtain rfl := Option.some.inj heq
    exact ⟨sg, hsg, hne, hrcvd⟩
  cases e with
  | core ev => exact h.nested.returns_eq hc
  | _ => exact hcall hc

/-- **Signals are received exactly as they are sent.** In every run of the machine, for every task:

* a bit is pending if and only if the last that happened to it is that it was sent, by
  `signal_send` itself, by `sem_signal`, `msgport_send`, `msgport_reply` or by a timer that
  fired; since then it was neither returned by `signal_wait`, nor cleared by
  `signal_allocate`, nor was the task initialised;
* what `signal_wait` returns is not empty, and a bit is in it if and only if it was waited
  for and the last that happened to it is that it was sent;
* while a task is waiting, this is so for none of the bits it waits for. -/
theorem signals_received_exactly {cfg : Config} {c : Core} {tr : List (Move Sys SysEvent)} (h : martosPre cfg = .ok c)
    (hr : Run Sys.Step (Sys.start c) tr s) :
    (∀ t, ∀ i < signalsWidth,
      (s.cs.core.task t).sigRecvd.getLsbD i = true ↔ latest (Sys.bitMark t i) tr = some true) ∧
    (∀ tr₁ m tr₂, tr = tr₁ ++ m :: tr₂ → ∀ rcvd, m.pre.collects m.event = some rcvd →
      ∃ sg, m.pre.awaited m.event = some sg ∧ rcvd ≠ 0 ∧ ∀ i < signalsWidth, rcvd.getLsbD i = true ↔
        sg.getLsbD i = true ∧ latest (Sys.bitMark m.pre.cs.core.running i) tr₁ = some true) ∧
    ∀ t, (s.cs.core.task t).state = .waiting → ∀ i < signalsWidth, (s.cs.core.task t).sigWait.getLsbD i = true →
      latest (Sys.bitMark t i) tr ≠ some true := by
  have hpending {tr : List (Move Sys SysEvent)} {s : Sys} (hr : Run Sys.Step (Sys.start c) tr s) (t : TaskRef) (i : ℕ)
      (hi : i < signalsWidth) :
      (s.cs.core.task t).sigRecvd.getLsbD i = true ↔ latest (Sys.bitMark t i) tr = some true := by
    -- at the start nothing is pending
    have hzero : ((Sys.start c).cs.core.task t).sigRecvd.getLsbD i = false := by
      obtain ⟨context, rfl⟩ := Core.exists_of_martosPre h
      by_cases ht : t = initTask
      · simp [Sys.start, CoreSys.start, Core.booted, ht]
      · simp [Sys.start, CoreSys.start, Core.booted, resetCore, ht]
    rw [(Sound.start h).pending_run hr hi, hzero]
    cases latest (Sys.bitMark t i) tr <;> simp
  refine ⟨hpending hr, ?_, ?_⟩
  · intro tr₁ m tr₂ htr rcvd hc
    obtain ⟨hr₁, -, -⟩ := hr.split htr
    obtain ⟨sg, hsg, hne, heq⟩ := (Sound.run h hr₁).collects_eq hc
    refine ⟨sg, hsg, hne, fun i hi => ?_⟩
    rw [heq, BitVec.getLsbD_and, Bool.and_eq_true, hpending hr₁ _ i hi]
  · intro t ht i hi hw hlast
    have hbit := (hpending hr t i hi).mpr hlast
    exact and_ne_zero_of_getLsbD hw hbit ((Sound.run h hr).attentive.sleeps t ht)

/-- The theorem where `sem_wait` of task 1 returns after the init task has called `sem_signal`. -/
theorem signals_received_exactly_grant : ∃ c tr₁ m s, martosPre CoreSys.exampleConfig = .ok c ∧
    Run Sys.Step (Sys.start c) (tr₁ ++ [m]) s ∧ m.pre.cs.core.running = 1 ∧ m.pre.collects m.event = some sigfSingle ∧
    latest (Sys.bitMark 1 0) tr₁ = some true := by
  obtain ⟨c, tr₁, s₁, s₂, tr₂, s, hc, hr, htr, hp⟩ := Sys.exists_run CoreSys.exampleConfig (fun _ _ => True)
    (.call (.service (.semInit 7 0)) :: SysEvent.semWaitExample ++ [.isr (.semAddRequest 7 9),
      .call (.service (.semSignal 7)), .core .pendSV, .core (.pendSVSwitch 0x20000200), .core .pendSVExit])
    (.core .resume) [] (p := fun s₁ _ _ => decide (s₁.cs.core.running = 1 ∧
      s₁.collects (.core .resume) = some sigfSingle)) (by decide +kernel)
  obtain ⟨hrun, hcol⟩ := of_decide_eq_true hp
  obtain rfl := List.map_eq_nil_iff.mp htr
  have hr := hr.mono fun _ _ _ => And.right
  obtain ⟨sg, -, -, hbits⟩ := (signals_received_exactly hc hr).2.1 tr₁ _ [] rfl sigfSingle hcol
  have hlast := ((hbits 0 (by decide)).mp (by decide)).2
  rw [hrun] at hlast
  exact ⟨c, tr₁, _, s, hc, hr, hrun, hcol, hlast⟩

end

end Martos
