import Martos.Core.Interrupts
import Martos.Services.Nesting
import Martos.Services.Deliveries

/-!
# Critical sections exclude

A task that has called `disable` keeps the processor until it has called `enable` as often, in
whatever functions of the kernel it calls between: they make tasks ready and ask for switches,
but a switch waits for the interrupts. Only a call that sleeps in `signal_wait` opens the
section, and then another task can enter one. So at every moment at most one task is inside a
section and not asleep (`critical_sections_exclude`).
-/

namespace Martos

open Transition IrqCall

/-- The event is of the running task, and not of an interrupt handler. -/
def SysEvent.ofTask : SysEvent → Bool
  | .core (.call _) => true
  | .core .resume => true
  | .call _ => true
  | .resume => true
  | _ => false

/-- The call of `disable` or `enable` that a task's own code makes in an event. -/
def SysEvent.irqCall : SysEvent → Option IrqCall
  | .core (.call .disable) => some .disable
  | .core (.call .enable) => some .enable
  | _ => none

namespace Sys

/-- The calls of `disable` and `enable` made in a list of moves. -/
def irqCalls (tr : List (Move Sys SysEvent)) : List IrqCall := tr.filterMap fun m => m.event.irqCall

/-- The own code of task `t` has called `disable` and not yet matched it with `enable`, and the
task is not asleep in `signal_wait`. -/
structure InSection (s : Sys) (t : TaskRef) : Prop where
  /-- Among the open calls of `disable` is one that is not of the service function it is in. -/
  opened : (s.spc t).opened < s.cs.depth t
  /-- The task is not in `signal_wait` with its section set aside. -/
  awake : ∀ sg, ¬ s.cs.Asleep t sg

/-- After the call of `disable` in move `m`, the moves `tr` keep the section open. -/
structure KeptOpen (m : Move Sys SysEvent) (tr : List (Move Sys SysEvent)) : Prop where
  /-- The move is a call of `disable` by a task's own code. -/
  event : m.event = .core (.call .disable)
  /-- `enable` has not been called as often. -/
  matched : Matched (irqCalls tr)
  /-- The task has not slept. -/
  awake : ∀ x ∈ tr, ∀ sg, ¬ x.post.cs.Asleep m.pre.cs.core.running sg

end Sys

section

variable {s s' : Sys} {e : SysEvent} {t : TaskRef} {tr : List (Move Sys SysEvent)} {m : Move Sys SysEvent}

theorem Sys.irqCalls_snoc : Sys.irqCalls (tr ++ [m]) = Sys.irqCalls tr ++ m.event.irqCall.toList := by
  unfold Sys.irqCalls
  rw [List.filterMap_append]
  cases hm : m.event.irqCall <;> simp [hm]

/-- Outside of the blocking window the nesting count is one less than the depth. -/
theorem CoreSys.nesting_of_awake {cs : CoreSys} (h : ∀ sg, ¬ cs.Asleep t sg) : cs.nesting t = cs.depth t - 1 := by
  unfold CoreSys.nesting
  cases hp : cs.pc t with
  | signalWaitReschedule sg n => exact absurd ⟨n, .inl hp⟩ (h sg)
  | signalWaitDisable sg n => exact absurd ⟨n, .inr hp⟩ (h sg)
  | _ => rfl

/-- **A task in a critical section runs, with interrupts masked.** -/
theorem Sys.InSection.masked (hin : s.InSection t) (h : Sound s) :
    s.cs.core.running = t ∧ s.cs.core.primask = true ∧ s.cs.phase = .thread := by
  have hopened := hin.opened
  have hnest := CoreSys.nesting_of_awake hin.awake
  have hrun : s.cs.core.running = t := by
    by_contra hne
    have hout := h.nested.others t (Ne.symm hne)
    omega
  have hcount := h.nested.count
  rw [hrun, hnest] at hcount
  refine ⟨hrun, ?_, ?_⟩
  · rw [h.nested.primask, decide_eq_true_iff]
    omega
  · by_contra hph
    have hout := h.nested.handler hph
    omega

/-- With interrupts masked only the running task makes events. -/
theorem Sys.Step.ofTask (hst : s.Step e s') (hm : s.cs.core.primask = true) (hp : s.cs.phase = .thread) :
    e.ofTask = true := by
  have hmasked (hf : s.cs.core.primask = false) : False := Bool.false_ne_true (hf.symm.trans hm)
  obtain ⟨hen, -⟩ := hst
  cases e with
  | core ev =>
    cases ev with
    | call k => rfl
    | resume => rfl
    | isrSignalSend u sg => exact (hmasked hen).elim
    | sysTick => exact (hmasked hen).elim
    | pendSV => exact (hmasked hen.2.2).elim
    | pendSVSwitch frame => cases hp.symm.trans hen
    | pendSVExit => cases hp.symm.trans hen
  | call k => rfl
  | resume => rfl
  | isr a => exact (hmasked hen.1).elim
  | tim2 => exact (hmasked hen).elim

/-- Another task is made running only by a switch. -/
theorem Nested.running_step {cs cs' : CoreSys} {ev : Event} (hn : Nested cs) (hst : cs.Step ev cs')
    (he : ∀ frame, ev ≠ .pendSVSwitch frame) : cs'.core.running = cs.core.running := by
  cases hn.effect hst with
  | preempts => exact absurd rfl (he _)
  | leaves => exact absurd rfl (he _)
  | _ => rfl

theorem Sound.running_step (h : Sound s) (heff : SysEffect s e s') (he : e.ofTask = true) :
    s'.cs.core.running = s.cs.core.running := by
  have hcall {k : Call} {cs : CoreSys} (hst : s.cs.Step (.call k) cs) : cs.core.running = s.cs.core.running :=
    h.nested.running_step hst (by simp)
  have hsent {u : TaskRef} {sg : Signals} {cs : CoreSys} (hs : s.cs.Delivers u sg cs) :
      cs.core.running = s.cs.core.running := by
    obtain ⟨ev, hev, hst⟩ := hs
    apply h.nested.running_step hst
    rcases hev with rfl | rfl <;> simp
  cases heff with
  | core hst hc =>
    apply h.nested.running_step hst
    rintro frame rfl
    cases he
  | semBlocks hu hp hst => exact hcall hst
  | grants hc hn hh hs => exact hsent hs
  | portInit hu ha hst hsg => exact hcall hst
  | sent hc hm ha hs =>
    rcases hs with ⟨u, -, -, hs⟩ | ⟨-, rfl⟩
    · exact hsent hs
    · rfl
  | portWaits hu ha hd hst => exact hcall hst
  | portBlocks hu hp hl hst => exact hcall hst
  | portReturns hu hp hl hst => exact hcall hst
  | timerAllocate hu hf hst => exact hcall hst
  | timerFree hu hf hst => exact hcall hst
  | delayStarts hu hf hd hst => exact hcall hst
  | delayWaits hu hp ha hst => exact hcall hst
  | delayFrees hu hp hst => exact hcall hst
  | tim2 => cases he
  | @write w hu hw => cases w <;> rfl
  | _ => rfl

/-- A task is in a section of its own, opened `n` times. -/
structure OpenedBy (t : TaskRef) (n : ℤ) (s : Sys) : Prop where
  /-- The open calls of `disable` are its own and those of the service function it is in. -/
  depth : (s.cs.depth t : ℤ) = n + (s.spc t).opened
  /-- The task runs. -/
  running : s.cs.core.running = t

theorem OpenedBy.inSection {n : ℤ} (ho : OpenedBy t n s) (hn : 0 < n) (hw : ∀ sg, ¬ s.cs.Asleep t sg) :
    s.InSection t := by
  have hd := ho.depth
  exact ⟨by omega, hw⟩

/-- What a step does to the depth of the running task. -/
theorem Sound.depth_step (h : Sound s) (heff : SysEffect s e s') :
    (s'.cs.depth s.cs.core.running : ℤ) + (s.spc s.cs.core.running).opened =
      s.cs.depth s.cs.core.running + surplus e.irqCall.toList + (s'.spc s.cs.core.running).opened := by
  by_cases hnests : e.Nests
  · rcases hnests with rfl | rfl
    · obtain ⟨cs, hst, rfl⟩ := heff.core_step
      have hd := CoreSys.depth_of_disable h.nested hst
      have hs : surplus [.disable] = 1 := rfl
      simp only [hd, Function.update_self, SysEvent.irqCall, Option.toList_some, hs]
      omega
    · obtain ⟨cs, hst, rfl⟩ := heff.core_step
      obtain ⟨hpos, hd⟩ := CoreSys.depth_of_enable h.nested hst
      have hs : surplus [.enable] = -1 := rfl
      simp only [hd, Function.update_self, SysEvent.irqCall, Option.toList_some, hs]
      omega
  · have hnone : e.irqCall = none := by
      unfold SysEvent.irqCall
      split
      · exact absurd (.inl rfl) hnests
      · exact absurd (.inr rfl) hnests
      · rfl
    rcases h.steady heff s.cs.core.running with hd | ⟨-, hn, -⟩
    · have hdepth := hd.depth
      rw [hnone, Option.toList_none, surplus_nil]
      omega
    · exact absurd hn hnests

/-- **A step inside a section is of the task**, and opens or closes the section by the call it makes. -/
theorem OpenedBy.step {n : ℤ} (ho : OpenedBy t n s) (hn : 0 < n) (hw : ∀ sg, ¬ s.cs.Asleep t sg) (h : Sound s)
    (hst : s.Step e s') : e.ofTask = true ∧ OpenedBy t (n + surplus e.irqCall.toList) s' := by
  obtain ⟨rfl, hm, hp⟩ := (ho.inSection hn hw).masked h
  have htask := hst.ofTask hm hp
  have heff := h.effect hst
  have hdepth := h.depth_step heff
  have hd := ho.depth
  exact ⟨htask, by omega, h.running_step heff htask⟩

theorem Sys.surplus_irqCalls_snoc :
    surplus (Sys.irqCalls (tr ++ [m])) = surplus (Sys.irqCalls tr) + surplus m.event.irqCall.toList := by
  rw [Sys.irqCalls_snoc]
  unfold surplus
  rw [List.count_append, List.count_append]
  push_cast
  omega

theorem Sys.matched_of_snoc (h : Matched (Sys.irqCalls (tr ++ [m]))) : Matched (Sys.irqCalls tr) := by
  rw [Sys.irqCalls_snoc] at h
  exact h.of_prefix (List.prefix_append ..)

/-- The first call that is not matched is `enable`, made when no section is open. -/
theorem Sound.closes (h : Sound s) (hst : s.Step e s') {ks : List IrqCall} (hmatch : Matched ks)
    (hopen : ¬ Matched (ks ++ e.irqCall.toList)) :
    surplus ks + surplus e.irqCall.toList = -1 ∧ s'.spc s.cs.core.running = .user := by
  have hnonneg := hmatch.surplus_nonneg
  have hsingle : surplus [.enable] = -1 := rfl
  unfold SysEvent.irqCall at *
  split at hopen
  · rw [Option.toList_some, matched_snoc_iff, surplus_snoc_disable, not_and] at hopen
    exact absurd (by omega) (hopen hmatch)
  · rw [Option.toList_some, matched_snoc_iff, surplus_snoc_enable, not_and] at hopen
    have hneg := hopen hmatch
    obtain ⟨cs, -, rfl⟩ := (h.effect hst).core_step
    refine ⟨?_, hst.1.2⟩
    simp only [Option.toList_some, hsingle]
    omega
  · exact absurd (by simpa using hmatch) hopen

/-- A run inside a section: every step is of the task. -/
theorem OpenedBy.run {n : ℤ} (ho : OpenedBy t n s) (hn : 0 < n) (hw : ∀ sg, ¬ s.cs.Asleep t sg) (h : Sound s)
    (hr : Run Sys.Step s tr s') (hmatch : Matched (Sys.irqCalls tr))
    (hwake : ∀ x ∈ tr, ∀ sg, ¬ x.post.cs.Asleep t sg) :
    OpenedBy t (n + surplus (Sys.irqCalls tr)) s' ∧ (∀ sg, ¬ s'.cs.Asleep t sg) ∧
      ∀ x ∈ tr, x.event.ofTask = true ∧ x.pre.cs.core.running = t := by
  induction hr with
  | nil =>
    refine ⟨?_, hw, fun x hx => by cases hx⟩
    simpa [Sys.irqCalls] using ho
  | @snoc tr a b e hra hst ih =>
    obtain ⟨hoa, hwa, htr⟩ := ih (Sys.matched_of_snoc hmatch) fun x hx => hwake x (List.mem_append_left _ hx)
    have hnonneg := (Sys.matched_of_snoc hmatch).surplus_nonneg
    have ha : Sound a := hra.invariant h fun _ _ _ hs hst => hs.step hst
    obtain ⟨htask, hob⟩ := hoa.step (by omega) hwa ha hst
    refine ⟨?_, hwake ⟨a, e, b⟩ (by simp), ?_⟩
    · rw [Sys.surplus_irqCalls_snoc, ← add_assoc]
      exact hob
    · intro x hx
      rcases List.mem_append.mp hx with hx | hx
      · exact htr x hx
      · rw [List.mem_singleton.mp hx]
        exact ⟨htask, hoa.running⟩

/-- A call of `disable` opens a section. -/
theorem OpenedBy.init (h : Sound s) (hst : s.Step (.core (.call .disable)) s') :
    OpenedBy s.cs.core.running (s.cs.depth s.cs.core.running + 1) s' ∧
      ∀ sg, ¬ s'.cs.Asleep s.cs.core.running sg := by
  have heff := h.effect hst
  have hdepth := h.depth_step heff
  have huser : s.spc s.cs.core.running = .user := hst.1.2
  have hpc : s.cs.pc s.cs.core.running = .user := hst.1.1.2.1
  have hrun := h.running_step heff rfl
  obtain ⟨cs, hcs, rfl⟩ := heff.core_step
  have hs : surplus (SysEvent.irqCall (.core (.call .disable))).toList = 1 := rfl
  rw [hs, huser] at hdepth
  refine ⟨⟨?_, hrun⟩, CoreSys.not_asleep_of_user ?_⟩
  · rw [huser]
    exact_mod_cast hdepth
  · cases h.nested.effect hcs with
    | disable hu => exact hpc
    | posted hw he => rcases he with ⟨he, -⟩ | ⟨he, -⟩ <;> cases he
    | woken hw hm he => rcases he with ⟨he, -⟩ | ⟨he, -⟩ <;> cases he

theorem Sound.masked_iff (h : Sound s) (hrun : s.cs.core.running = t) :
    s.cs.core.primask = true ↔ 0 ≤ s.cs.nesting t := by
  rw [h.nested.primask, decide_eq_true_iff, h.nested.count, hrun]

/-- Where the outermost section ends, or the task falls asleep, interrupts are unmasked. -/
theorem OpenedBy.unmasked {n : ℤ} (ho : OpenedBy t n s) (h : Sound s)
    (hend : (n = 0 ∧ s.spc t = .user) ∨ ∃ sg, s.cs.Asleep t sg) : s.cs.core.primask = false := by
  have hnest : s.cs.nesting t = -1 := by
    rcases hend with ⟨rfl, hp⟩ | ⟨sg, k, hw⟩
    · have hd := ho.depth
      rw [hp] at hd
      have hzero : s.cs.depth t = 0 := by simpa [ServicePc.opened] using hd
      unfold CoreSys.nesting
      rw [hzero]
      cases s.cs.pc t <;> rfl
    · exact hw.nesting _
  rw [← Bool.not_eq_true, h.masked_iff ho.running, hnest]
  decide

theorem Sys.KeptOpen.snoc {x : Move Sys SysEvent} (h : Sys.KeptOpen m tr)
    (hmatch : Matched (Sys.irqCalls (tr ++ [x]))) (hw : ∀ sg, ¬ x.post.cs.Asleep m.pre.cs.core.running sg) :
    Sys.KeptOpen m (tr ++ [x]) := by
  refine ⟨h.event, hmatch, ?_⟩
  intro y hy
  rcases List.mem_append.mp hy with hy | hy
  · exact h.awake y hy
  · rw [List.mem_singleton.mp hy]
    exact hw

/-- The section, after some moves that keep it open. -/
theorem Sys.KeptOpen.run (h : Sys.KeptOpen m tr) (hpre : Sound m.pre) (hst : m.pre.Step m.event m.post)
    (hr : Run Sys.Step m.post tr s) :
    OpenedBy m.pre.cs.core.running (m.pre.cs.core.idNestcnt + 2 + surplus (Sys.irqCalls tr)) s ∧
      (∀ sg, ¬ s.cs.Asleep m.pre.cs.core.running sg) ∧
      ∀ x ∈ tr, x.event.ofTask = true ∧ x.pre.cs.core.running = m.pre.cs.core.running := by
  have hpost := hpre.step hst
  rw [h.event] at hst
  obtain ⟨ho, hw⟩ := OpenedBy.init hpre hst
  have hcount : m.pre.cs.core.idNestcnt = m.pre.cs.depth m.pre.cs.core.running - 1 :=
    hpre.nested.count_user hst.1.1.2.1
  have hrun := ho.run (by omega) hw hpost hr h.matched h.awake
  have hn : m.pre.cs.core.idNestcnt + 2 = m.pre.cs.depth m.pre.cs.core.running + 1 := by omega
  rwa [hn]

/-- **Critical sections exclude.** In every run of the whole machine:

* at every moment a task that is inside a critical section and not asleep runs, and interrupts
  are masked, so that there is one such task at most;
* from a call of `disable` on, as long as `enable` has not been called as often and the task has
  not slept in `signal_wait`, every event is of this task: no handler runs, and no switch;
* with the event that ends this, interrupts are unmasked, if they were before the call. -/
theorem critical_sections_exclude {cfg : Config} {c : Core} (h : martosPre cfg = .ok c)
    (hr : Run Sys.Step (Sys.start c) tr s) :
    (∀ t, s.InSection t → s.cs.core.running = t ∧ s.cs.core.primask = true) ∧
    (∀ tr₁ m tr₂, tr = tr₁ ++ m :: tr₂ → Sys.KeptOpen m tr₂ → s.InSection m.pre.cs.core.running ∧
      ∀ x ∈ tr₂, x.event.ofTask = true ∧ x.pre.cs.core.running = m.pre.cs.core.running) ∧
    (∀ tr₁ m tr₂ x, tr = tr₁ ++ m :: (tr₂ ++ [x]) → Sys.KeptOpen m tr₂ → ¬ Sys.KeptOpen m (tr₂ ++ [x]) →
      m.pre.cs.core.primask = false → s.cs.core.primask = false) := by
  have hs := Sound.run h hr
  refine ⟨?_, ?_, ?_⟩
  · intro t hin
    obtain ⟨hrun, hm, -⟩ := hin.masked hs
    exact ⟨hrun, hm⟩
  · intro tr₁ m tr₂ htr hopen
    obtain ⟨hr₁, hst, hr₂⟩ := hr.split htr
    have hpre := Sound.run h hr₁
    obtain ⟨ho, hw, hall⟩ := hopen.run hpre hst hr₂
    have hnonneg := hopen.matched.surplus_nonneg
    have hle := hpre.nested.le
    exact ⟨ho.inSection (by omega) hw, hall⟩
  · intro tr₁ m tr₂ x htr hopen hclosed hout
    obtain ⟨hr₁, hst, hr₂⟩ := hr.split htr
    obtain ⟨hrx, hstx, hnil⟩ := hr₂.split rfl
    obtain rfl := hnil.eq_of_nil
    have hpre := Sound.run h hr₁
    have hsx : Sound x.pre := hrx.invariant (hpre.step hst) fun _ _ _ hs hst => hs.step hst
    obtain ⟨ho, hw, -⟩ := hopen.run hpre hst hrx
    have hnonneg := hopen.matched.surplus_nonneg
    have hcount := hpre.nested.balanced.eq_neg_one hout
    obtain ⟨-, hox⟩ := ho.step (by omega) hw hsx hstx
    apply hox.unmasked hs
    by_cases hw' : ∃ sg, x.post.cs.Asleep m.pre.cs.core.running sg
    · exact .inr hw'
    · -- the event is the `enable` that matches the first `disable`
      refine .inl ?_
      have hmatch : ¬ Matched (Sys.irqCalls (tr₂ ++ [x])) := fun hmatch =>
        hclosed (hopen.snoc hmatch (not_exists.mp hw'))
      rw [Sys.irqCalls_snoc] at hmatch
      obtain ⟨hsum, huser⟩ := hsx.closes hstx hopen.matched hmatch
      rw [ho.running] at huser
      exact ⟨by omega, huser⟩

theorem CoreSys.awake_of_nesting {cs : CoreSys} (h : 0 ≤ cs.nesting t) (sg : Signals) : ¬ cs.Asleep t sg := by
  rintro ⟨n, hp | hp⟩
  · simp [CoreSys.nesting, hp, Pc.nesting] at h
  · simp [CoreSys.nesting, hp, Pc.nesting] at h

/-- The theorem where the init task calls `task_schedule` in a section: it makes a task ready and asks for a
switch, which waits for the call of `enable`. -/
theorem critical_sections_exclude_switch : ∃ c tr₁ m tr₂ x s', martosPre CoreSys.exampleConfig = .ok c ∧
    Run Sys.Step (Sys.start c) (tr₁ ++ m :: (tr₂ ++ [x])) s' ∧ m.event = .core (.call .disable) ∧
    tr₂.map Move.event = [.core (.call (.taskSchedule 1)), .core .resume, .core .resume] ∧
    (∀ y ∈ tr₂, y.pre.cs.core.running = initTask) ∧ x.pre.InSection initTask ∧ x.pre.cs.core.pendSV = true ∧
    x.event = .core (.call .enable) ∧ s'.cs.core.primask = false := by
  have hx : (martosPre CoreSys.exampleConfig).toOption.any (fun c =>
      (replay Sys.next (Sys.start c) [.core (.call (.taskInit 1 ⟨some "one", 5, 0x20001000, 1024⟩))]).any fun s₁ =>
        (s₁.next (.core (.call .disable))).any fun s₂ =>
          (replay (fun s e => (s.next e).filter fun s' => decide (0 ≤ s'.cs.nesting initTask)) s₂
            [.core (.call (.taskSchedule 1)), .core .resume, .core .resume]).any fun s =>
              (s.next (.core (.call .enable))).any fun _ => decide (s₁.cs.core.running = initTask ∧
                s₁.cs.core.primask = false ∧ s.cs.core.pendSV = true)) = true := by decide +kernel
  obtain ⟨c, hc, hx⟩ := (Option.any_eq_true ..).mp hx
  have hc := Checked.eq_ok_of_toOption hc
  obtain ⟨s₁, hs₁, hx⟩ := (Option.any_eq_true ..).mp hx
  obtain ⟨s₂, hs₂, hx⟩ := (Option.any_eq_true ..).mp hx
  obtain ⟨s, hs, hx⟩ := (Option.any_eq_true ..).mp hx
  obtain ⟨s', hs', hx⟩ := (Option.any_eq_true ..).mp hx
  obtain ⟨hcaller, hout, hpend⟩ := of_decide_eq_true hx
  obtain ⟨tr₁, hr₁, -⟩ := Run.of_replay (fun _ _ _ => Sys.step_of_next) hs₁
  -- in each of the states that follow the section is still open
  have hn (s : Sys) (e : SysEvent) (s' : Sys)
      (hs : (s.next e).filter (fun s' => decide (0 ≤ s'.cs.nesting initTask)) = some s') :
      s.Step e s' ∧ 0 ≤ s'.cs.nesting initTask := by
    obtain ⟨hs, hle⟩ := Option.filter_eq_some_iff.mp hs
    exact ⟨Sys.step_of_next hs, of_decide_eq_true hle⟩
  obtain ⟨tr₂, hr₂, hev⟩ := Run.of_replay hn hs
  have hcalls : Sys.irqCalls tr₂ = [] := by
    calc Sys.irqCalls tr₂ = (tr₂.map Move.event).filterMap SysEvent.irqCall := by rw [List.filterMap_map]; rfl
      _ = [] := by rw [hev]; rfl
  have hopen : Sys.KeptOpen ⟨s₁, .core (.call .disable), s₂⟩ tr₂ := by
    constructor
    · rfl
    · rw [hcalls]
      intro pre hpre
      rw [List.prefix_nil.mp hpre]
      exact le_rfl
    · intro x hx
      change ∀ sg, ¬ x.post.cs.Asleep s₁.cs.core.running sg
      rw [hcaller]
      exact CoreSys.awake_of_nesting (hr₂.step_of_mem hx).2
  have hr := hr₁.append ((Run.one (Sys.step_of_next hs₂)).append (hr₂.mono fun _ _ _ => And.left))
  have hr' : Run Sys.Step (Sys.start c) (tr₁ ++ ⟨s₁, .core (.call .disable), s₂⟩ :: (tr₂ ++
      [⟨s, .core (.call .enable), s'⟩])) s' := by
    simpa using hr.snoc (Sys.step_of_next hs')
  have hclosed : ¬ Sys.KeptOpen ⟨s₁, .core (.call .disable), s₂⟩ (tr₂ ++ [⟨s, .core (.call .enable), s'⟩]) := by
    intro hall
    have hle := hall.matched _ List.prefix_rfl
    rw [Sys.irqCalls_snoc, hcalls] at hle
    have hneg : surplus [.enable] = -1 := rfl
    exact absurd (hneg ▸ hle : (0 : ℤ) ≤ -1) (by decide)
  obtain ⟨hin, hall⟩ := (critical_sections_exclude hc hr).2.1 tr₁ _ tr₂ rfl hopen
  have hend := (critical_sections_exclude hc hr').2.2 tr₁ _ tr₂ _ rfl hopen hclosed hout
  refine ⟨c, tr₁, _, tr₂, _, s', hc, hr', rfl, hev, fun y hy => ?_, hcaller ▸ hin, hpend, rfl, hend⟩
  exact (hall y hy).2.trans hcaller

end

end Martos
