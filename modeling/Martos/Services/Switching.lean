import Martos.Services.Soundness

/-!
# The context switch always finds a task

`PendSV_Handler_user` takes the head of `ready` without looking whether there is one. There
is one as long as the init task never calls `signal_wait`, which is what `user_init` is
asked to keep to: the init task is then always running or on `ready`, whatever the others
do (`InitReady`).
-/

namespace Martos

open Checked Transition

/-- The step calls `signal_wait`, from a task's own code or from a service function. -/
def Sys.CallsSignalWait (s : Sys) : SysEvent → Prop
  | .core (.call (.signalWait _)) => True
  | .resume =>
    match s.spc s.cs.core.running with
    | .semWaitBlock => True
    | .msgportWait p => s.svc.messageList p = []
    | .timerDelayTest tm => (s.svc.timer tm).status = .added
    | _ => False
  | _ => False

/-- The init task does not call `signal_wait`. -/
def InitNeverWaits (s : Sys) (e : SysEvent) : Prop := s.cs.core.running = initTask → ¬ s.CallsSignalWait e

instance (s : Sys) (e : SysEvent) : Decidable (s.CallsSignalWait e) := by
  unfold Sys.CallsSignalWait
  split
  · infer_instance
  · split <;> infer_instance
  · infer_instance

instance (s : Sys) (e : SysEvent) : Decidable (InitNeverWaits s e) := inferInstanceAs (Decidable (_ → _))

/-- The init task has been scheduled, and is not in the blocking window. -/
structure InitReady (s : CoreSys) : Prop where
  /-- It is scheduled. -/
  life : s.life initTask = .scheduled
  /-- It is not in `signal_wait`. -/
  waits : ∀ sg n, ¬ (s.pc initTask).Waits sg n

section

variable {s s' : CoreSys} {e : Event}

/-- Only a call of `signal_wait` takes a task into the blocking window. -/
theorem Nested.not_waits_step (h : Nested s) (hst : s.Step e s') {t : TaskRef}
    (hw : ∀ sg n, ¬ (s.pc t).Waits sg n) (hc : t = s.core.running → ∀ sg, e ≠ .call (.signalWait sg)) :
    ∀ sg n, ¬ (s'.pc t).Waits sg n := by
  -- the running task moves to a point outside of the window
  have hgoto {p : Pc} (hp : t = s.core.running → ∀ sg n, ¬ p.Waits sg n) : ∀ sg n, ¬ ((s.goto p).pc t).Waits sg n := by
    intro sg n
    by_cases ht : t = s.core.running
    · have := hp ht sg n
      subst ht
      rwa [CoreSys.goto_pc_self]
    · rw [CoreSys.goto_pc_of_ne p ht]; exact hw sg n
  have huser (sg : Signals) (n : ℤ) : ¬ Pc.user.Waits sg n := by rintro (hp | hp) <;> cases hp
  cases h.effect hst with
  | taskSchedule hu hi => exact hgoto fun _ sg n => by rintro (hp | hp) <;> cases hp
  | waitBlocks hu hn hz hl => exact hgoto fun ht => absurd rfl (hc ht _)
  | waitReturns hu hn hz => exact hgoto fun _ => huser
  | inserts ht hpc hl => exact hgoto fun _ sg n => by rintro (hp | hp) <;> cases hp
  | requests ht hpc => exact hgoto fun _ => huser
  | yields ht hpc => exact hgoto fun he => absurd (.inl (he ▸ hpc)) (hw _ _)
  | blocksAgain ht hpc hz hl => exact hgoto fun he => absurd (.inr (he ▸ hpc)) (hw _ _)
  | returns ht hpc hz => exact hgoto fun _ => huser
  | _ => exact hw

theorem InitReady.step (h : InitReady s) (hn : Nested s) (hst : s.Step e s')
    (hc : s.core.running = initTask → ∀ sg, e ≠ .call (.signalWait sg)) : InitReady s' where
  life := hn.scheduled_step hst h.life
  waits := hn.not_waits_step hst h.waits fun ht => hc ht.symm

/-- A task that could be switched to is on `ready`, or the running task can run on. -/
theorem InitReady.ready_ne_nil (h : InitReady s) (hp : Placed s) (hs : (s.core.task s.core.running).state ≠ .running) :
    s.core.lists .ready ≠ [] := by
  obtain ⟨t, ht⟩ : ∃ t, (s.core.task t).state = .ready := by
    rcases (hp.scheduled initTask).mp h.life with hi | hi | hi
    · exact absurd (hp.single initTask hi ▸ hi) hs
    · exact ⟨initTask, hi⟩
    · obtain ⟨sg, n, hw⟩ := hp.blocked initTask hi
      exact absurd hw (h.waits sg n)
  have hm : t ∈ s.core.lists .ready := (hp.located.mem _ _).mpr (Core.place_ready.mpr ht)
  exact List.ne_nil_of_mem hm

/-- The switch comes to its end. -/
theorem InitReady.pendSVHandlerSwitch_ok (h : InitReady s) (hp : Placed s) (frame : ℕ) :
    ∃ c, pendSVHandlerSwitch frame s.core = .ok c := by
  have hin {d : Core} (hd : d.lists .ready ≠ []) : ∃ c, d.switchIn = .ok c := by
    obtain ⟨t, ts, ht⟩ := List.exists_cons_of_ne_nil hd
    exact ⟨d.switchedIn t, by simp [Core.switchIn, ht]⟩
  rw [Core.pendSVHandlerSwitch_eq]
  rcases (hp.scheduled _).mp hp.running_scheduled with hs | hs | hs
  · -- the running task goes back to `ready`, which is not empty then
    have hout : s.core.switchOut frame = .ok (s.core.requeued frame) := by
      simp only [Core.switchOut, hs, if_neg (hp.running_off hs)]
    rw [hout, ok_bind]
    have hm : s.core.running ∈ s.core.lists.listEnqueue s.core.prio .ready s.core.running .ready :=
      Seqs.mem_listEnqueue.mpr (.inr ⟨rfl, rfl⟩)
    exact hin (List.ne_nil_of_mem hm)
  · have hout : s.core.switchOut frame = .ok (s.core.switchedOut frame .ready) := by
      simp only [Core.switchOut, hs]
    rw [hout, ok_bind]
    exact hin (h.ready_ne_nil hp (by rw [hs]; decide))
  · have hout : s.core.switchOut frame = .ok (s.core.switchedOut frame .waiting) := by
      simp only [Core.switchOut, hs]
    rw [hout, ok_bind]
    exact hin (h.ready_ne_nil hp (by rw [hs]; decide))

/-- The assertions of `task_verify` about the state and `id_nestcnt` hold of the running
task. -/
theorem Placed.running_verified (hp : Placed s) (hn : Nested s) :
    -1 ≤ (s.core.task s.core.running).idNestcnt ∧
    ((s.core.task s.core.running).state = .initialized ∨ (s.core.task s.core.running).state = .running ∨
      (s.core.task s.core.running).state = .ready ∨ (s.core.task s.core.running).state = .waiting) :=
  ⟨(hn.saved _ hn.runs).ge, .inr ((hp.scheduled _).mp hp.running_scheduled)⟩

end

section

variable {s s' : Sys} {e : SysEvent}

/-- The init task stays ready, unless it calls `signal_wait`. -/
theorem InitReady.sys_step (h : InitReady s.cs) (hs : Sound s) (hok : InitNeverWaits s e) (heff : SysEffect s e s') :
    InitReady s'.cs := by
  have hcall {k : Call} {cs : CoreSys} (hst : s.cs.Step (.call k) cs) (hk : ∀ sg, k ≠ .signalWait sg) : InitReady cs :=
    h.step hs.nested hst fun _ sg he => hk sg (Event.call.inj he)
  have hwait {k : Call} {cs : CoreSys} (hst : s.cs.Step (.call k) cs) (hw : s.CallsSignalWait e) : InitReady cs :=
    h.step hs.nested hst fun hr => absurd hw (hok hr)
  have hsent {t : TaskRef} {sg : Signals} {cs : CoreSys} (hd : s.cs.Delivers t sg cs) : InitReady cs := by
    obtain ⟨e', hse, hst⟩ := hd
    refine h.step hs.nested hst fun _ sg' he => ?_
    rcases hse with rfl | rfl <;> cases he
  cases heff with
  | @core e cs hst hc =>
    refine h.step hs.nested hst fun hr sg he => ?_
    subst he
    exact hok hr trivial
  | semBlocks hu hp hst => exact hwait hst (by simp only [Sys.CallsSignalWait, hp])
  | grants hc hn hh hd => exact hsent hd
  | portInit hu ha hst hsg => exact hcall hst (by simp)
  | sent hc hm ha hn =>
    rcases hn with ⟨t, -, -, hd⟩ | ⟨-, rfl⟩
    · exact hsent hd
    · exact h
  | portWaits hu ha hd hst => exact hcall hst (by simp)
  | portBlocks hu hp hl hst => exact hwait hst (by simp only [Sys.CallsSignalWait, hp, hl])
  | portReturns hu hp hl hst => exact hcall hst (by simp)
  | timerAllocate hu hf hst => exact hcall hst (by simp)
  | timerFree hu hf hst => exact hcall hst (by simp)
  | delayStarts hu hf hd hst => exact hcall hst (by simp)
  | delayWaits hu hp ha hst => exact hwait hst (by simp only [Sys.CallsSignalWait, hp, ha])
  | delayFrees hu hp hst => exact hcall hst (by simp)
  | tim2 hm hc hr htr =>
    refine ⟨?_, h.waits⟩
    exact h.life
  | @write w hu hw => cases w <;> exact h
  | _ => exact h

theorem InitReady.run {cfg : Config} {c : Core} {tr : List (Move Sys SysEvent)} (h : martosPre cfg = .ok c)
    (hr : Run (Restrict InitNeverWaits Sys.Step) (Sys.start c) tr s) : Sound s ∧ InitReady s.cs := by
  refine hr.invariant (P := fun s => Sound s ∧ InitReady s.cs) ⟨.start h, ?_⟩
    fun s e s' ⟨hs, hi⟩ ⟨hok, hst⟩ => ⟨hs.step hst, hi.sys_step hs hok (hs.effect hst)⟩
  exact ⟨by simp [Sys.start, CoreSys.start], fun sg n => by rintro (hp | hp) <;> cases hp⟩

/-- `task_verify(running)` does not fail on the state or on `id_nestcnt`. -/
theorem Placed.taskVerify_running {a : CoreSys} (hp : Placed a) (hn : Nested a) {d : Core} (hb : d.Balanced)
    (hd : d.task a.core.running = a.core.task a.core.running) :
    Avoids (fun f => f = .verifyState ∨ f = .verifyIdNestcnt) (taskVerify a.core.running d) := by
  obtain ⟨hid, hst⟩ := hp.running_verified hn
  rw [Core.taskVerify_eq hb, hd]
  refine .bind (.bind (taskcontextVerify_avoids (by decide) _) fun _ _ => ?_) fun _ _ => .pure _
  refine .bind (.assertThat fun _ => by decide) fun _ _ => ?_
  exact .bind (.assertThat fun hno => absurd hid hno) fun _ _ => .assertThat fun hno => absurd hst hno

/-- **The context switch never finds an empty ready list.** In every run in which the init
task does not call `signal_wait`, whatever the other tasks and the interrupt handlers do:
`PendSV_Handler_user` comes to the end of its switch, that is, `list_rem_head(&ready)`
returns a task and the `default` branch is not taken; and neither of its calls of
`task_verify` fails on the state or on `id_nestcnt`. -/
theorem switch_finds_task {cfg : Config} {c : Core} {tr : List (Move Sys SysEvent)} (h : martosPre cfg = .ok c)
    (hr : Run (Restrict InitNeverWaits Sys.Step) (Sys.start c) tr s) :
    (∀ frame, s.Enabled (.core (.pendSVSwitch frame)) → ∃ c', pendSVHandlerSwitch frame s.cs.core = .ok c') ∧
    (∀ e, e = .pendSV ∨ e = .pendSVExit → s.Enabled (.core e) →
      Avoids (fun f => f = .verifyState ∨ f = .verifyIdNestcnt) (s.exec (.core e))) := by
  obtain ⟨hs, hi⟩ := InitReady.run h hr
  have hb := hs.nested.balanced
  refine ⟨fun frame _ => hi.pendSVHandlerSwitch_ok hs.placed frame, ?_⟩
  rintro e (rfl | rfl) hen
  · refine .bind (.bind ?_ fun _ _ => .pure _) fun _ _ => .pure _
    exact hs.placed.taskVerify_running hs.nested ⟨hb.primask, hb.le⟩ rfl
  · refine .bind (.bind ?_ fun _ _ => .pure _) fun _ _ => .pure _
    exact hs.placed.taskVerify_running hs.nested hb rfl

/-- The theorem where the other task is about to block on a port: the switch finds the init
task. -/
theorem switch_finds_task_blocked : ∃ c tr s c', martosPre CoreSys.exampleConfig = .ok c ∧
    Run (Restrict InitNeverWaits Sys.Step) (Sys.start c) tr s ∧
    (s.cs.core.task s.cs.core.running).state = .waiting ∧
    pendSVHandlerSwitch 0x20001200 s.cs.core = .ok c' := by
  obtain ⟨c, tr₁, s₁, s₂, tr₂, s, hc, hr, -, hp⟩ := Sys.exists_run CoreSys.exampleConfig InitNeverWaits
    (CoreSys.oneTask.map .core ++ [.call (.msgportInit 0)])
    (.call (.msgportWait 0)) [.resume, .core .resume, .core .pendSV]
    (p := fun _ _ s => decide ((s.cs.core.task s.cs.core.running).state = .waiting ∧
      s.Enabled (.core (.pendSVSwitch 0x20001200))))
    (by decide +kernel)
  obtain ⟨hst, hen⟩ := of_decide_eq_true hp
  obtain ⟨c', hc'⟩ := (switch_finds_task hc hr).1 _ hen
  exact ⟨c, _, s, c', hc, hr, hst, hc'⟩

end

end Martos
