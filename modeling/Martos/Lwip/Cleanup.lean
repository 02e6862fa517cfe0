import Martos.Lwip.MboxCleanup

/-!
# Waits clean up

`sys_arch_sem_wait`, `sys_arch_mbox_fetch` and `timer_delay` leave nothing behind when they
return: the signals they have allocated are free again, but for the one that a fetch has put
into the mailbox, and their timer is not on the queue. On their way they touch no other timer.
The endless loop for a signal that was not asked for is never entered, since `signal_wait`
returns only what it was asked for (`timed_waits_clean_up`).
-/

namespace Martos

open Checked Transition

/-! ### `timer_delay` -/

/-- Task `t` calls `timer_delay(ticks)` in `s₁`, with its local timer at `tm`, and it returns in `s`. -/
structure Sys.DelayCall (t : TaskRef) (tm : TimerRef) (ticks : Ticks) (s₁ s₂ : Sys) (tr : List (Move Sys SysEvent))
    (s s' : Sys) : Prop where
  /-- The call and what happens meanwhile. -/
  run : Activation (Restrict PrivateDelays Sys.Step) (fun s => (s.spc t).Delays tm) s₁ (.call (.timerDelay tm ticks)) s₂
    tr s .resume s'
  /-- The task calls. -/
  caller : s₁.cs.core.running = t
  /-- The task returns. -/
  back : s.cs.core.running = t
  /-- It has freed the timer. -/
  returns : s.spc t = .timerDelayFree tm

section

variable {s s' : Sys} {e : SysEvent} {t : TaskRef} {tm : TimerRef} {A : Signals} {ticks : Ticks}

/-- A task inside a service function makes no calls. -/
theorem Sys.Step.not_byTask (hst : s.Step e s') (hu : s.spc s.cs.core.running ≠ .user) : e.byTask = false := by
  cases e with
  | core k =>
    cases k with
    | call c => exact absurd hst.1.2 hu
    | _ => rfl
  | call c => exact absurd hst.1.2.1 hu
  | _ => rfl

theorem ServicePc.Delays.ne_user {p : ServicePc} (h : p.Delays tm) : p ≠ .user := by
  rintro rfl
  rcases h with h | h | h | h <;> cases h

theorem ServicePc.Delays.timer_eq {p : ServicePc} (h : p.Delays tm) : p.timer = some tm := by
  rcases h with rfl | rfl | rfl | rfl <;> rfl

/-- `timer_delay` frees its timer, and returns. -/
theorem Sys.Step.delayFree (hst : s.Step .resume s') (hp : s.spc s.cs.core.running = .timerDelayFree tm) :
    s'.spc s.cs.core.running = .user ∧ s'.svc.timers = s.svc.timers := by
  have hx := hst.2
  simp only [Sys.exec, Sys.execResume, hp, bind_eq_ok, pure_eq_ok] at hx
  obtain ⟨k, hk, rfl⟩ := hx
  obtain ⟨c, hc, rfl⟩ := timerFree_eq_ok hk
  have hrun : c.running = s.cs.core.running := by
    rw [Core.signalFree_eq] at hc
    simp only [bind_eq_ok, pure_eq_ok] at hc
    obtain ⟨-, -, -, -, rfl⟩ := hc
    rfl
  exact ⟨by simp [Sys.goto, Sys.put, hrun], rfl⟩

/-- What `timer_delay` has in hand when it has allocated its timer. -/
theorem Sound.grown_delay (h : Sound s) (hst : s.Step (.call (.timerDelay tm ticks)) s') :
    Grown (s.cs.core.task s.cs.core.running).sigAlloc [(s'.svc.timer tm).signal]
      (s'.cs.core.task s.cs.core.running).sigAlloc := by
  obtain ⟨signum, c, hall⟩ := hst.allocates (h := .timer tm) (n := -1) rfl
  obtain ⟨hne, hsig⟩ := hall.timer tm rfl
  rcases h.nested.balanced.signalAllocate_ok hall.call with ⟨i, hi, rfl, rfl, hfree⟩ | ⟨hneg, -⟩
  · rw [hsig, hall.cs, Core.allocated_self]
    exact (show Grown _ [] _ from rfl).add hi hfree
  · exact absurd hneg hne

/-- A delay has the signal of its timer in hand. -/
theorem DelaysWell.grown_step (h : DelaysWell s) (hst : Restrict PrivateDelays Sys.Step s e s')
    (hlife : s.cs.life t ≠ .fresh) (hd : (s.spc t).Delays tm) (hd' : (s'.spc t).Delays tm)
    (hg : Grown A [(s.svc.timer tm).signal] (s.cs.core.task t).sigAlloc) :
    Grown A [(s'.svc.timer tm).signal] (s'.cs.core.task t).sigAlloc := by
  obtain ⟨hok, hst⟩ := hst
  rcases hok.delays_step (h.sound.effect hst) hd' with ⟨rfl, ticks, rfl⟩ | ⟨-, hsig⟩
  · exact absurd hst.1.2.1 hd.ne_user
  · have hquiet (ht : t = s.cs.core.running) : e.allocates = none ∧ s.frees e = none := by
      subst ht
      have hb := hst.not_byTask hd.ne_user
      refine ⟨SysEvent.allocates_of_not_byTask hb, ?_⟩
      unfold Sys.frees
      split
      · cases hb
      · cases hb
      · split
        · next v hp =>
          exact absurd (hst.delayFree hp).1 hd'.ne_user
        · rfl
      · rfl
    rw [hsig, h.sound.sigAlloc_step hst hlife hquiet]
    exact hg

variable {s₁ s₂ : Sys} {tr : List (Move Sys SysEvent)}

/-- What a delay knows all the time. -/
theorem Sys.DelayCall.inside (hc : Sys.DelayCall t tm ticks s₁ s₂ tr s s') (h : DelaysWell s₁) :
    let P (s : Sys) := DelaysWell s ∧ s.cs.life t ≠ .fresh ∧
      Grown (s₁.cs.core.task t).sigAlloc [(s.svc.timer tm).signal] (s.cs.core.task t).sigAlloc
    P s ∧ ∀ m ∈ tr, P m.pre ∧ (m.pre.spc t).Delays tm := by
  intro P
  obtain ⟨hrun, hcaller, hback, hp⟩ := hc
  have hbegin : P s₂ := by
    subst hcaller
    refine ⟨h.step hrun.begins, ?_, h.sound.grown_delay hrun.begins.2⟩
    exact h.sound.initialized_step hrun.begins.2 h.sound.running_alive
  have hstep (s : Sys) (e : SysEvent) (s' : Sys) (hd : (s.spc t).Delays tm) (hd' : (s'.spc t).Delays tm) (hp : P s)
      (hst : Restrict PrivateDelays Sys.Step s e s') : P s' := by
    obtain ⟨hw, hlife, hg⟩ := hp
    exact ⟨hw.step hst, hw.sound.initialized_step hst.2 hlife, hw.grown_step hst hlife hd hd' hg⟩
  obtain ⟨hs, hall⟩ := hrun.during.inside (P := P) (fun _ => hbegin) hstep hrun.inside
  exact ⟨hs, fun m hm => ⟨(hall m hm).2.1, (hall m hm).1⟩⟩

/-- **A delay cleans up.** -/
theorem Sys.DelayCall.cleans (hc : Sys.DelayCall t tm ticks s₁ s₂ tr s s') (h : DelaysWell s₁) :
    (s'.cs.core.task t).sigAlloc = (s₁.cs.core.task t).sigAlloc ∧ tm ∉ s'.svc.timers () ∧
      ∀ m ∈ ⟨s₁, .call (.timerDelay tm ticks), s₂⟩ :: (tr ++ [⟨s, .resume, s'⟩]), m.pre.cs.core.running = t →
        m.event.Own → m.pre.OnlyTimer tm m.post := by
  obtain ⟨⟨hw, -, hg⟩, hall⟩ := hc.inside h
  obtain ⟨hrun, hcaller, rfl, hp⟩ := hc
  obtain ⟨-, hst⟩ := hrun.ends
  have hown {s s' : Sys} {e : SysEvent} (hs : Sound s) (hst : s.Step e s') (hd : (s.spc s.cs.core.running).Delays tm)
      (ho : e.Own) : s.OnlyTimer tm s' := by
    obtain ⟨hu, ht⟩ := ho.quiet (hst.not_byTask hd.ne_user)
    exact hs.onlyTimer (hs.effect hst) (fun v hv => absurd hv (hu v))
      (fun v hv => Option.some.inj (hv.symm.trans hd.timer_eq)) ht
  refine ⟨?_, ?_, fun m hm hrunning ho => ?_⟩
  · have hfrees : s.frees .resume = some (.timer tm, (s.svc.timer tm).signal) := by simp [Sys.frees, hp]
    exact hst.grown_free hfrees hg
  · have hfree := hw.delaying.freesUnused hst
    unfold FreesUnused at hfree
    simp only [hp] at hfree
    rw [(hst.delayFree hp).2]
    exact hfree.2
  · rcases List.mem_cons.mp hm with rfl | hm
    · obtain ⟨-, hst₁⟩ := hrun.begins
      refine h.sound.onlyTimer (h.sound.effect hst₁) (fun v hv => ?_) (fun v hv => ?_) (by simp)
      · rcases hv with (hv | ⟨x, hv⟩) | hv | hv | hv | ⟨x, y, z, hv⟩ <;> cases hv
        rfl
      · rw [hst₁.1.2.1] at hv
        cases hv
    · rcases List.mem_append.mp hm with hm | hm
      · obtain ⟨⟨hw', -⟩, hd⟩ := hall m hm
        have hstep := (hrun.during.step_of_mem hm).2.2
        rw [← hrunning] at hd
        exact hown hw'.sound hstep hd ho
      · obtain rfl := List.mem_singleton.mp hm
        exact hown hw.sound hst hrun.inside ho

/-- **Waits with a timeout clean up.** When `sys_arch_sem_wait`, `sys_arch_mbox_fetch` or
`timer_delay` returns, `sig_alloc` of its caller is what it was when it was called, but for the
mailbox's signal, and the timer of the call is not on the queue `timers`. What the caller does in
between changes no other timer and no other part of the queue. In no reachable state is a task in
the endless loop for a signal that was not asked for.

A call's local request and timer are its own, and not in use when it starts (`SemSys.Contract`). -/
theorem timed_waits_clean_up {cfg : Config} {c : Core} (h : martosPre cfg = .ok c) :
    (∀ tr₀ s₁ t sem timeout req timer s₂ tr s s' value,
      Run (Restrict SemSys.Contract SemSys.Step) (SemSys.start (Sys.start c)) tr₀ s₁ →
      SemSys.WaitCall t sem timeout req timer s₁ s₂ tr s s' value →
      (s'.sys.cs.core.task t).sigAlloc = (s₁.sys.cs.core.task t).sigAlloc ∧ timer ∉ s'.sys.svc.timers () ∧
      ∀ m ∈ ⟨s₁, .wait sem timeout req timer, s₂⟩ :: (tr ++ [⟨s, .step, s'⟩]), m.pre.running = t → m.event.Own →
        m.pre.sys.OnlyTimer timer m.post.sys) ∧
    (∀ mbox tr₀ s₀ ptr allocated tr₁ s₁ t timeout timer s₂ tr s s' value, Run Sys.Step (Sys.start c) tr₀ s₀ →
      Run (Restrict (fun s ev => s.PrivateTimers ev ∧ s.OneFetch mbox ev) (MboxSys.Step mbox))
        (MboxSys.start mbox s₀ ptr allocated) tr₁ s₁ →
      MboxSys.FetchCall mbox t timeout timer s₁ s₂ tr s s' value →
      ((s'.sys.cs.core.task t).sigAlloc = (s₁.sys.cs.core.task t).sigAlloc ∨
        (s'.sys.cs.core.task t).sigAlloc = (s₁.sys.cs.core.task t).sigAlloc ||| (s'.port mbox).signal) ∧
      timer ∉ s'.sys.svc.timers () ∧
      ∀ m ∈ ⟨s₁, .fetch timeout timer, s₂⟩ :: (tr ++ [⟨s, .step, s'⟩]), m.pre.running = t → m.event.Own →
        m.pre.sys.OnlyTimer timer m.post.sys) ∧
    (∀ tr₀ s₁ t tm ticks s₂ tr s s', Run (Restrict PrivateDelays Sys.Step) (Sys.start c) tr₀ s₁ →
      Sys.DelayCall t tm ticks s₁ s₂ tr s s' →
      (s'.cs.core.task t).sigAlloc = (s₁.cs.core.task t).sigAlloc ∧ tm ∉ s'.svc.timers () ∧
      ∀ m ∈ ⟨s₁, .call (.timerDelay tm ticks), s₂⟩ :: (tr ++ [⟨s, .resume, s'⟩]), m.pre.cs.core.running = t →
        m.event.Own → m.pre.OnlyTimer tm m.post) ∧
    (∀ tr s t, Run (Restrict SemSys.Contract SemSys.Step) (SemSys.start (Sys.start c)) tr s → ¬ s.Stuck t) ∧
    ∀ mbox tr₀ s₀ ptr allocated tr s t, Run Sys.Step (Sys.start c) tr₀ s₀ →
      Run (Restrict (fun s ev => s.PrivateTimers ev ∧ s.OneFetch mbox ev) (MboxSys.Step mbox))
        (MboxSys.start mbox s₀ ptr allocated) tr s → ¬ s.Stuck mbox t := by
  refine ⟨?_, ?_, ?_, ?_, ?_⟩
  · intro tr₀ s₁ t sem timeout req timer s₂ tr s s' value hr hc
    exact hc.cleans (SemSys.tidy_run h hr)
  · intro mbox tr₀ s₀ ptr allocated tr₁ s₁ t timeout timer s₂ tr s s' value hr₀ hr hc
    exact hc.cleans (MboxSys.tidy_run h hr₀ hr)
  · intro tr₀ s₁ t tm ticks s₂ tr s s' hr hc
    exact hc.cleans ((DelaysWell.start h).run hr)
  · intro tr s t hr
    exact (SemSys.tidy_run h hr).not_stuck t
  · intro mbox tr₀ s₀ ptr allocated tr s t hr₀ hr
    exact (MboxSys.tidy_run h hr₀ hr).not_stuck t

/-- Another task, which has its frame at `frame`, runs while task 1 sleeps, and the second tick wakes task 1. -/
def exampleTicks (frame : ℕ) : List SysEvent :=
  [.core .resume, .core .pendSV, .core (.pendSVSwitch 0x20001200), .core .pendSVExit, .tim2, .tim2, .core .pendSV,
    .core (.pendSVSwitch frame), .core .pendSVExit, .core .resume]

/-- What task 1 does from its call of `sys_arch_sem_wait` with a timeout of two ticks to the return. -/
def exampleSemTimeout : List SemEvent :=
  [.step, .step, .step, .step, .step, .step, .step] ++ exampleSleep ++ (exampleTicks 0x20000200).map .sys ++
    [.step, .step, .step]

/-- What task 1 does from its call of `sys_arch_mbox_fetch` with a timeout of two ticks to the return. -/
def exampleFetchTimeout (frame : ℕ) : List MboxEvent :=
  [.step, .step, .step, .step, .step, .step, .step, .sys .resume, .sys .resume, .step] ++
    (exampleTicks frame).map .sys ++ [.step, .step]

/-- Task 1 calls `timer_delay(5)`; the timer is queued, and fires with the fifth tick. -/
theorem Sys.exists_delayCall : ∃ c tr₀ s₁ s₂ tr s s', martosPre CoreSys.exampleConfig = .ok c ∧
    Run (Restrict PrivateDelays Sys.Step) (Sys.start c) tr₀ s₁ ∧ Sys.DelayCall 1 7 5 s₁ s₂ tr s s' ∧
    (s.svc.timer 7).status = .done := by
  have hrun : (martosPre CoreSys.exampleConfig).toOption.any (fun c =>
      (replay (Sys.nextIf (Sys.LoneDelay 1)) (Sys.start c) (CoreSys.oneTask.map .core)).any fun s₁ =>
        (Sys.nextIf (Sys.LoneDelay 1) s₁ (.call (.timerDelay 7 5))).any fun s₂ =>
          (replay (Transition.nextIf (fun s _ => (s.spc 1).Delays 7) (Sys.nextIf (Sys.LoneDelay 1))) s₂
            (exampleDelay 5)).any fun s => decide ((s.spc 1).Delays 7) &&
              (Sys.nextIf (Sys.LoneDelay 1) s .resume).any fun _ => decide (s₁.cs.core.running = 1 ∧
                s.cs.core.running = 1 ∧ s.spc 1 = .timerDelayFree 7 ∧ (s.svc.timer 7).status = .done)) = true := by
    decide +kernel
  have hn (s : Sys) (e : SysEvent) (s' : Sys) (hs : Sys.nextIf (Sys.LoneDelay 1) s e = some s') :
      Restrict (Sys.LoneDelay 1) Sys.Step s e s' :=
    restrict_of_nextIf (fun _ _ _ => Sys.step_of_next) s e s' hs
  obtain ⟨c, hc, hrun⟩ := (Option.any_eq_true ..).mp hrun
  obtain ⟨s₁, hs₁, hrun⟩ := (Option.any_eq_true ..).mp hrun
  obtain ⟨tr₀, hr, -⟩ := Run.of_replay hn hs₁
  have hc := eq_ok_of_toOption hc
  obtain ⟨hr, hlone⟩ := Sys.run_of_loneDelay hc hr
  obtain ⟨s₂, tr, s, s', hact, hp, -⟩ := Activation.exists_of_replay hn hrun
  obtain ⟨hcaller, hback, hfree, hstatus⟩ := of_decide_eq_true hp
  have hact := hact.refine (P := fun s => Sound s ∧ ∀ u tm, (s.spc u).Delays tm → u = 1) hlone
    fun _ _ _ => Sys.lone_delay_step
  exact ⟨c, tr₀, s₁, s₂, tr, s, s', hc, hr, ⟨hact, hcaller, hback, hfree⟩, hstatus⟩

/-- The theorem at calls that time out after two ticks, and at a delay of five, whose timer fires. -/
theorem timed_waits_clean_up_timeout :
    (∃ s₁ s₂ tr s s', SemSys.WaitCall 1 7 2 3 0 s₁ s₂ tr s s' sysArchTimeout ∧
      (s'.sys.cs.core.task 1).sigAlloc = (s₁.sys.cs.core.task 1).sigAlloc ∧ 0 ∉ s'.sys.svc.timers ()) ∧
    (∃ s₁ s₂ tr s s', MboxSys.FetchCall 0 1 2 0 s₁ s₂ tr s s' sysArchTimeout ∧
      ((s'.sys.cs.core.task 1).sigAlloc = (s₁.sys.cs.core.task 1).sigAlloc ∨
        (s'.sys.cs.core.task 1).sigAlloc = (s₁.sys.cs.core.task 1).sigAlloc ||| (s'.port 0).signal) ∧
      0 ∉ s'.sys.svc.timers ()) ∧
    ∃ s₁ s₂ tr s s', Sys.DelayCall 1 7 5 s₁ s₂ tr s s' ∧ (s.svc.timer 7).status = .done ∧
      (s'.cs.core.task 1).sigAlloc = (s₁.cs.core.task 1).sigAlloc ∧ 7 ∉ s'.svc.timers () := by
  refine ⟨?_, ?_, ?_⟩
  · obtain ⟨c, tr₀, s₁, s₂, tr, s, s', hc, hr, hcall, -⟩ := SemSys.exists_call 1 7 2 3 0 sysArchTimeout
      ((exampleSemWait 2).take 12) exampleSemTimeout (p := fun _ _ => true) (by decide +kernel)
    obtain ⟨halloc, hout, -⟩ := (timed_waits_clean_up hc).1 tr₀ s₁ 1 7 2 3 0 s₂ tr s s' _ hr hcall
    exact ⟨s₁, s₂, tr, s, s', hcall, halloc, hout⟩
  · obtain ⟨c, tr₀, s₁, s₂, tr, s, s', hc, hr, hcall, -⟩ := MboxSys.exists_call 0 1 2 0 sysArchTimeout
      exampleConsumer (exampleFetchTimeout 0x20000200) (p := fun _ _ => true) (by decide +kernel)
    obtain ⟨halloc, hout, -⟩ :=
      (timed_waits_clean_up hc).2.1 0 [] (Sys.start c) _ _ tr₀ s₁ 1 2 0 s₂ tr s s' _ .nil hr hcall
    exact ⟨s₁, s₂, tr, s, s', hcall, halloc, hout⟩
  · obtain ⟨c, tr₀, s₁, s₂, tr, s, s', hc, hr, hcall, hstatus⟩ := Sys.exists_delayCall
    obtain ⟨halloc, hout, -⟩ := (timed_waits_clean_up hc).2.2.1 tr₀ s₁ 1 7 5 s₂ tr s s' hr hcall
    exact ⟨s₁, s₂, tr, s, s', hcall, hstatus, halloc, hout⟩

end

end Martos
