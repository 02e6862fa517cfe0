import Martos.Services.Soundness

/-!
# Calls keep the nesting depth

Every function of the kernel that disables interrupts enables them again on each of its
paths, and `signal_wait` restores the depth it was called at. In a run many tasks are
inside many calls; what the calls of one task do to its depth does not show at the others
(`Sound.depth_run`), so that when a call returns the count is what it was
(`calls_keep_nesting`).
-/

namespace Martos

open Transition

/-- The event is a call from a task's own code. -/
def SysEvent.IsCall : SysEvent → Prop
  | .core (.call _) => True
  | .call _ => True
  | _ => False

/-- The task runs, in its own code. -/
def Sys.InOwnCode (s : Sys) (t : TaskRef) : Prop :=
  s.cs.core.running = t ∧ s.cs.pc t = .user ∧ s.spc t = .user

instance (s : Sys) (t : TaskRef) : Decidable (s.InOwnCode t) := inferInstanceAs (Decidable (_ ∧ _ ∧ _))

section

variable {s s' : Sys} {e : SysEvent} {t : TaskRef}

theorem Sys.Step.inOwnCode (h : s.Step e s') (hc : e.IsCall) : s.InOwnCode s.cs.core.running := by
  obtain ⟨hen, -⟩ := h
  cases e with
  | core e =>
    cases e with
    | call k => exact ⟨rfl, hen.1.2.1, hen.2⟩
    | _ => exact False.elim hc
  | call k => exact ⟨rfl, hen.1.2, hen.2.1⟩
  | _ => exact False.elim hc

/-- In its own code the count is the task's. -/
theorem Sound.count_inOwnCode (h : Sound s) (ht : s.InOwnCode t) : s.cs.core.idNestcnt = s.cs.depth t - 1 := by
  obtain ⟨rfl, hpc, -⟩ := ht
  exact h.nested.count_user hpc

/-- As long as a task does not call `disable` or `enable` itself, its depth changes only by
the critical sections inside the call it is in. -/
theorem Sound.depth_run {s₀ : Sys} {tr : List (Move Sys SysEvent)} (h : Sound s₀)
    (hno : ∀ m ∈ tr, m.event.Nests → m.pre.cs.core.running ≠ t) (hr : Run Sys.Step s₀ tr s) :
    s.cs.depth t + (s₀.spc t).opened = s₀.cs.depth t + (s.spc t).opened := by
  induction hr with
  | nil => rfl
  | @snoc tr s s' e hr hst ih =>
    have hs : Sound s := hr.invariant h fun _ _ _ hs hst => hs.step hst
    have hih := ih fun m hm => hno m (List.mem_append_left _ hm)
    rcases hs.steady (hs.effect hst) t with hd | ⟨ht, hn, -⟩
    · have := hd.depth
      omega
    · exact absurd ht.symm (hno ⟨s, e, s'⟩ (by simp) hn)

/-- **The nesting discipline.** In every run of the kernel, with `disable` and `enable` in
matched pairs: interrupts are masked iff `id_nestcnt` is not negative; every task that is
not running has `-1` saved; and if a task makes a call at some depth, then whenever it is
back in its own code, and has not called `disable` or `enable` since, it is at that depth. -/
theorem calls_keep_nesting {cfg : Config} {c : Core} {tr : List (Move Sys SysEvent)} (h : martosPre cfg = .ok c)
    (hr : Run Sys.Step (Sys.start c) tr s) :
    (s.cs.core.primask = true ↔ 0 ≤ s.cs.core.idNestcnt) ∧
    (∀ t, t ≠ s.cs.core.running → s.cs.life t ≠ .fresh → (s.cs.core.task t).idNestcnt = -1) ∧
    (∀ tr₁ m tr₂, tr = tr₁ ++ m :: tr₂ → m.event.IsCall → ¬ m.event.Nests →
      (∀ m' ∈ tr₂, m'.event.Nests → m'.pre.cs.core.running ≠ m.pre.cs.core.running) →
      s.InOwnCode m.pre.cs.core.running → s.cs.core.idNestcnt = m.pre.cs.core.idNestcnt) := by
  have hs := Sound.run h hr
  refine ⟨by rw [hs.nested.primask, decide_eq_true_iff], fun t _ hl => hs.nested.saved t hl, ?_⟩
  intro tr₁ m tr₂ htr hcall hno htail hback
  obtain ⟨hr₁, hm, hr₂⟩ := hr.split htr
  have hpre := Sound.run h hr₁
  have hown := hm.inOwnCode hcall
  have hrun : Run Sys.Step m.pre (m :: tr₂) s := (Run.one hm).append hr₂
  have hdepth := hpre.depth_run (t := m.pre.cs.core.running) (fun m' hm' hn => by
    rcases List.mem_cons.mp hm' with rfl | hm'
    · exact absurd hn hno
    · exact htail m' hm' hn) hrun
  rw [hs.count_inOwnCode hback, hpre.count_inOwnCode hown]
  rw [hown.2.2, hback.2.2] at hdepth
  have : s.cs.depth m.pre.cs.core.running = m.pre.cs.depth m.pre.cs.core.running := by simpa using hdepth
  rw [this]

/-- The theorem at a call of `msgport_wait` in a critical section, which blocks and returns
when the init task sends a message. -/
theorem calls_keep_nesting_msgport_wait : ∃ c tr₁ s₁ s₂ tr₂ s, martosPre CoreSys.exampleConfig = .ok c ∧
    Run Sys.Step (Sys.start c) (tr₁ ++ ⟨s₁, .call (.msgportWait 0), s₂⟩ :: tr₂) s ∧
    s₁.cs.core.idNestcnt = 0 ∧ tr₂.length = 11 ∧ s.InOwnCode 1 ∧ s.cs.core.idNestcnt = 0 := by
  obtain ⟨c, tr₁, s₁, s₂, tr₂, s, hc, hr, htr, hp⟩ := Sys.exists_run CoreSys.exampleConfig (fun _ _ => True)
    (CoreSys.oneTask.map .core ++ [.call (.msgportInit 0), .core (.call .disable)])
    (.call (.msgportWait 0))
    [.resume, .core .resume, .core .pendSV, .core (.pendSVSwitch 0x20001200), .core .pendSVExit,
      .call (.service (.msgportSend 0 7)), .core .pendSV, .core (.pendSVSwitch 0x20000200), .core .pendSVExit,
      .core .resume, .resume]
    (p := fun s₁ _ s => decide (s₁.cs.core.running = 1 ∧ s₁.cs.core.idNestcnt = 0 ∧ s.InOwnCode 1))
    (by decide +kernel)
  obtain ⟨hrun, hcnt, hown⟩ := of_decide_eq_true hp
  have hr := hr.mono fun _ _ _ => And.right
  have hno (m : Move Sys SysEvent) (hm : m ∈ tr₂) : ¬ m.event.Nests := by
    have hev := List.mem_map_of_mem (f := Move.event) hm
    rw [htr] at hev
    intro hn
    rcases hn with hn | hn <;> rw [hn] at hev <;> simp at hev
  have hkeep := (calls_keep_nesting hc hr).2.2 tr₁ _ tr₂ rfl trivial (by simp [SysEvent.Nests])
    (fun m hm hn => absurd hn (hno m hm)) (by rw [hrun]; exact hown)
  exact ⟨c, tr₁, s₁, s₂, tr₂, s, hc, hr, hcnt, by simpa using congrArg List.length htr, hown, hkeep.trans hcnt⟩

end

end Martos
