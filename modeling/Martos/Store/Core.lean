import Martos.Core.Names
import Martos.Services.Functions
import Martos.Store.Depicts

/-!
# The core over pointers

The functions of `task.c` and the context switch over pointers do what those of `Core.Tasks` do
over sequences (`Depicts.signalSend`, `Depicts.signalWait`, `Depicts.pendSVHandlerSwitch`, ..). The
loop of `list_enqueue` needs fuel for the tasks on the lists, `Core.nodes`, and no more.
-/

namespace Martos

open Checked Agreement

/-! ### What does not depend on the lists -/

section

variable {lists : Seqs TaskList TaskRef}

theorem Core.commutes_enable : Commutes (Core.carrying lists) (Core.carrying lists) Core.enable := by
  refine .test (fun _ => rfl) (.write fun c => ?_)
  rw [apply_ite (Core.carrying lists)]
  rfl

theorem commutes_taskVerify (t : TaskRef) : Commutes (Core.carrying lists) (Core.carrying lists) (taskVerify t) :=
  .test (fun _ => rfl) (.test (fun _ => rfl) (.test (fun _ => rfl) (.test (fun _ => rfl)
    (Core.commutes_enable.comp (g := Core.disable) fun _ => rfl))))

theorem commutes_taskInit (t : TaskRef) (params : TaskParams) :
    Commutes (Core.carrying lists) (Core.carrying lists) (taskInit t params) := by
  intro c
  unfold taskInit
  rw [bind_assoc]
  rfl

theorem commutes_taskSetPrio (t : TaskRef) (prio : ℤ) :
    Commutes (Core.carrying lists) (Core.carrying lists) (taskSetPrio t prio) := by
  intro c
  have henable (d : Core) : (d.carrying lists).enable = do return Core.carrying lists (← d.enable) :=
    Core.commutes_enable d
  unfold taskSetPrio
  dsimp only
  rw [← henable, apply_ite (Core.carrying lists)]
  rfl

theorem sysTickHandler_carrying (c : Core) : sysTickHandler (c.carrying lists) = (sysTickHandler c).carrying lists := by
  unfold sysTickHandler
  rw [apply_ite (Core.carrying lists)]
  rfl

theorem commutes_signalFree (signals : Signals) :
    Commutes (Core.carrying lists) (Core.carrying lists) (signalFree signals) :=
  .test (fun _ => rfl) (.test (fun _ => rfl) (.write fun _ => rfl))

theorem commutes_signalAllocate (signal : ℤ) :
    Commutes (Core.carrying lists) (Prod.map id (Core.carrying lists)) (signalAllocate signal) := by
  refine .test (fun _ => rfl) fun c => ?_
  dsimp only [Core.carrying]
  cases chooseSignal (c.task c.running).sigAlloc signal with
  | mk signum target =>
    have hend : Commutes (Core.carrying lists) (Prod.map id (Core.carrying lists))
        fun c : Core => c.enable >>= fun d => .ok (signum, d) :=
      Core.commutes_enable.bind (.write fun _ => rfl)
    by_cases ht : 0 < target
    · simp only [if_pos ht]
      -- the bits are written before and after `disable()`
      let bits (d : Core) : Core :=
        (d.modTask d.running fun k => { k with sigAlloc := k.sigAlloc ||| target, sigWait := k.sigWait &&& ~~~target }
          ).disable.modTask d.running fun k => { k with sigRecvd := k.sigRecvd &&& ~~~target }
      exact (hend.comp (r := Core.carrying lists) (g := bits) fun _ => rfl) c
    · simp only [if_neg ht]
      rfl

end

/-! ### The lists of tasks -/

/-- The number of tasks on the lists. -/
def Core.nodes (c : Core) : ℕ := (c.lists .ready).length + (c.lists .waiting).length

section

variable {c d : Core} {t : TaskRef}

theorem Core.nodes_listUnlink (hs : c.lists.Separate) (h : c.listUnlink t = .ok d) : d.nodes + 1 = c.nodes := by
  rw [Core.listUnlink, ite_ok_else_error_eq_ok, Except.ok.injEq] at h
  obtain ⟨hon, rfl⟩ := h
  change ((c.lists .ready).erase t).length + ((c.lists .waiting).erase t).length + 1 = _
  unfold Core.nodes
  rcases hon with hr | hw
  · have hw : t ∉ c.lists .waiting := by
      intro hw
      cases hs.unique hr hw
    have hlen := List.length_erase_add_one hr
    rw [List.erase_of_not_mem hw]
    omega
  · have hr : t ∉ c.lists .ready := by
      intro hr
      cases hs.unique hr hw
    have hlen := List.length_erase_add_one hw
    rw [List.erase_of_not_mem hr]
    omega

theorem Core.nodes_listEnqueue (h : c.listEnqueue .ready t = .ok d) : d.nodes = c.nodes + 1 := by
  rw [Core.listEnqueue, ite_error_eq_ok, Except.ok.injEq] at h
  obtain ⟨-, rfl⟩ := h
  change (c.lists.listEnqueue c.prio .ready t .ready).length + (c.lists.listEnqueue c.prio .ready t .waiting).length = _
  unfold Core.nodes
  rw [Seqs.listEnqueue_self, Seqs.listEnqueue_of_ne (by simp), List.orderedInsert_length]
  omega

end

section

variable {S : Set KernelList} {st : Store} {k : Kernel} {t : TaskRef} {N : ℕ}

theorem Depicts.separate_tasks (h : Depicts S st k) : k.core.lists.Separate :=
  k.tasks_within.separate KernelNode.task_injective KernelList.tasks_injective h.lists.separate

/-- The priority that `list_enqueue` reads. -/
theorem Depicts.prio (h : Depicts S st k) (t : TaskRef) : st.heap.prio (.task t) = k.core.prio t := by
  obtain ⟨links, rfl⟩ := h.eta
  rfl

theorem Kernel.off_task' (h : ¬ k.core.OnList t) : k.seqs.Off (.task t) := by
  refine k.tasks_within.off KernelNode.task_injective fun l hl => ?_
  cases l with
  | ready => exact h (.inl hl)
  | waiting => exact h (.inr hl)

/-- A function of the core that uses no list. -/
theorem Depicts.liftCore (h : Depicts S st k) {f : Core → Except Fault Core}
    (hf : ∀ lists, Commutes (Core.carrying lists) (Core.carrying lists) f) :
    Agrees N Fault.OfLists
      (fun st' c => Depicts S st' { k with core := c } ∧ st'.links = st.links ∧ c.lists = k.core.lists)
      (fun _ => st.liftCore f) (f k.core) := by
  obtain ⟨links, rfl⟩ := h.eta
  rcases (hf fun _ => []).cases k.core with ⟨c, hc, hblank⟩ | ⟨e, hc, hblank⟩
  · have hself : f k.core = do return Core.carrying k.core.lists (← f k.core) := hf k.core.lists k.core
    have hlists : c.lists = k.core.lists := by
      rw [hc] at hself
      rw [show c = Core.carrying k.core.lists c from Except.ok.inj hself]
      rfl
    rw [hc]
    refine .ok ⟨h.withCore rfl hlists, rfl, hlists⟩ fun _ _ => ?_
    rw [Store.liftCore, show f k.blank.core = .ok (c.carrying fun _ => []) from hblank]
    rfl
  · rw [hc]
    refine .stops fun _ => ?_
    rw [Store.liftCore, show f k.blank.core = .error e from hblank]
    rfl

theorem Depicts.unlinkTask (h : Depicts S st k) (t : TaskRef) :
    Agrees N Fault.OfLists
      (fun st' c => Depicts S st' { k with core := c } ∧ st.SameTimers st' ∧ c.nodes + 1 = k.core.nodes)
      (fun _ => st.listUnlink (.task t)) (k.core.listUnlink t) := by
  cases hc : k.core.listUnlink t with
  | error e =>
    refine .outside ?_
    by_cases hon : k.core.OnList t
    · rw [Core.listUnlink, if_pos hon] at hc
      cases hc
    · rw [Core.listUnlink, if_neg hon] at hc
      exact .inr (Except.error.inj hc).symm
  | ok c =>
    have hnodes := Core.nodes_listUnlink h.separate_tasks hc
    rw [Core.listUnlink, ite_ok_else_error_eq_ok, Except.ok.injEq] at hc
    obtain ⟨hon, rfl⟩ := hc
    obtain ⟨l, hl⟩ : ∃ l, t ∈ k.core.lists l := hon.elim (⟨_, ·⟩) (⟨_, ·⟩)
    have hmem : KernelNode.task t ∈ k.seqs (.tasks l) := List.mem_map_of_mem hl
    obtain ⟨st', he, h', hoff⟩ :=
      h.listUnlink hmem ((k.replaces_tasks _).listUnlink KernelNode.task_injective) rfl
    refine .ok ⟨h', fun tm => hoff _ ?_, hnodes⟩ fun _ _ => he
    simp [Kernel.seqs]

theorem Depicts.enqueueTask (h : Depicts S st k) (hl : .tasks .ready ∈ S) (hN : (k.core.lists .ready).length ≤ N)
    (t : TaskRef) :
    Agrees N Fault.OfLists
      (fun st' c => Depicts S st' { k with core := c } ∧ st.SameTimers st' ∧ c.nodes = k.core.nodes + 1)
      (fun fuel => st.listEnqueue fuel (.tasks .ready) (.task t)) (k.core.listEnqueue .ready t) := by
  cases hc : k.core.listEnqueue .ready t with
  | error e =>
    refine .outside ?_
    by_cases hon : k.core.OnList t
    · rw [Core.listEnqueue, if_pos hon] at hc
      exact .inl (Except.error.inj hc).symm
    · rw [Core.listEnqueue, if_neg hon] at hc
      cases hc
  | ok c =>
    have hnodes := Core.nodes_listEnqueue hc
    rw [Core.listEnqueue, ite_error_eq_ok, Except.ok.injEq] at hc
    obtain ⟨hon, rfl⟩ := hc
    obtain ⟨st', he, h', hoff⟩ := h.listEnqueue hl (Kernel.off_task' hon)
      ((k.replaces_tasks _).listEnqueue KernelList.tasks_injective h.prio) rfl
    refine .ok ⟨h', fun tm => hoff _ ?_, hnodes⟩ fun fuel hfuel => he fuel ?_
    · simp [Kernel.seqs]
    · simpa [Kernel.seqs] using hN.trans_lt hfuel

theorem Depicts.addTailTask (h : Depicts S st k) (hl : .tasks .waiting ∈ S) (t : TaskRef) :
    Agrees N Fault.OfLists (fun st' c => Depicts S st' { k with core := c })
      (fun _ => st.listAddTail (.tasks .waiting) (.task t)) (k.core.listAddTail .waiting t) := by
  by_cases hon : k.core.OnList t
  · rw [Core.listAddTail, if_pos hon]
    exact .outside (.inl rfl)
  · rw [Core.listAddTail, if_neg hon]
    obtain ⟨st', he, h'⟩ := h.listAddTail hl (Kernel.off_task' hon)
      ((k.replaces_tasks _).listAddTail KernelList.tasks_injective) rfl
    exact .ok h' fun _ _ => he

/-- The core after `enable`. -/
theorem Depicts.enable (h : Depicts S st k) : Agrees N Fault.OfLists
    (fun st' c => Depicts S st' { k with core := c } ∧ st'.links = st.links ∧ c.lists = k.core.lists)
    (fun _ => st.enable) k.core.enable := h.liftCore fun _ => Core.commutes_enable

/-! ### Finding tasks -/

/-- `(Node *) task`, for the task that is found. -/
def KernelPtr.ofTask (t : Option TaskRef) : Option KernelPtr := t.map fun u => .node (.task u)

/-- `list_find`, on a list of tasks that have names. -/
theorem Depicts.listFind (h : Depicts S st k) {l : TaskList} (hl : .tasks l ∈ S) (hN : (k.core.lists l).length ≤ N)
    (hnamed : ∀ u ∈ k.core.lists l, (k.core.task u).name ≠ none) (name : String) :
    Agrees N Fault.OfLists (fun p r => p = KernelPtr.ofTask r) (fun fuel => st.listFind fuel (.tasks l) name)
      (listFind k.core name (k.core.lists l)) := by
  obtain ⟨links, rfl⟩ := h.eta
  have hnamed' : ∀ n ∈ k.seqs (.tasks l), (Store.heap ⟨links, k.blank⟩).name n ≠ none := by
    intro n hn
    obtain ⟨u, hu, rfl⟩ := List.mem_map.mp hn
    exact hnamed u hu
  rw [listFind_eq name hnamed]
  refine .ok rfl fun fuel hfuel => ?_
  rw [Store.listFind, listFind_spec h.lists hl name hnamed' (by simpa [Kernel.seqs] using hN.trans_lt hfuel)]
  simp only [Kernel.seqs, List.find?_map, Option.map_map]
  rfl

section

variable (null : Option String) (h : Depicts S st k) (hready : .tasks .ready ∈ S) (hwaiting : .tasks .waiting ∈ S)
  (hN : k.core.nodes ≤ N) (hnamed : ∀ u ∈ k.core.lists .ready ++ k.core.lists .waiting, (k.core.task u).name ≠ none)
include h hready hwaiting hN hnamed

theorem Depicts.taskFindName (name : String) :
    Agrees N Fault.OfLists (fun p r => p = KernelPtr.ofTask r) (fun fuel => st.taskFindName null fuel name)
      (taskFindName null name k.core) := by
  have hNr : (k.core.lists .ready).length ≤ N := (Nat.le_add_right ..).trans hN
  have hNw : (k.core.lists .waiting).length ≤ N := (Nat.le_add_left ..).trans hN
  have hrunning : st.data.core.running = k.core.running := by
    rw [h.data]
    rfl
  unfold Store.taskFindName Martos.taskFindName
  refine .bind (h.listFind hready hNr (fun u hu => hnamed u (List.mem_append_left _ hu)) name) ?_
  rintro p r - rfl
  cases r with
  | some task => exact .pure rfl
  | none =>
    refine .bind (h.listFind hwaiting hNw (fun u hu => hnamed u (List.mem_append_right _ hu)) name) ?_
    rintro p r - rfl
    cases r with
    | some task => exact .pure rfl
    | none =>
      cases null with
      | none => exact .stops fun _ => rfl
      | some other =>
        refine .pure ?_
        rw [hrunning]
        by_cases ho : name = other
        · rw [if_pos ho, if_pos ho]
          rfl
        · rw [if_neg ho, if_neg ho]
          rfl

/-- `task_find`. -/
theorem Depicts.taskFind (name : Option String) :
    Agrees N Fault.OfLists (fun p q => p.1 = KernelPtr.ofTask q.1 ∧ Depicts S p.2 { k with core := q.2 })
      (fun fuel => st.taskFind null fuel name) (taskFind null name k.core) := by
  cases name with
  | none =>
    obtain ⟨links, rfl⟩ := h.eta
    exact .pure ⟨rfl, h⟩
  | some name =>
    refine .bind (h.disable.taskFindName null hready hwaiting hN hnamed name) ?_
    rintro p r - rfl
    refine .bind h.disable.enable ?_
    rintro st' c - ⟨h', -, -⟩
    exact .pure ⟨rfl, h'⟩

/-- `task_init`, with its assertion. -/
theorem Depicts.taskInit (t : TaskRef) (params : TaskParams) :
    Agrees N Fault.OfLists (fun st' c => Depicts S st' { k with core := c })
      (fun fuel => st.taskInit null fuel t params) (taskInitChecked null t params k.core) := by
  let d : Core := k.core.modTask t fun x => { x with state := .invalid }
  have hsame (u) : (d.task u).name = (k.core.task u).name := Core.apply_update Task.name (by rfl) u
  have hfind := (h.modTask t fun x => { x with state := .invalid }).taskFind null hready hwaiting hN
    (fun u hu => (hsame u).symm ▸ hnamed u hu) params.name
  refine .bind (.bind hfind ?_) ?_ (R := fun st' c => Depicts S st' { k with core := c })
  · rintro ⟨p, st'⟩ ⟨r, c⟩ - ⟨hp, h'⟩
    obtain rfl : p = KernelPtr.ofTask r := hp
    refine .check_bind ?_ fun _ => .pure h'
    exact Option.map_eq_none_iff
  · intro st' c _ h'
    refine (h'.liftCore fun _ => commutes_taskInit t params).imp ?_
    exact fun _ _ _ hc => hc.1

end

/-! ### Signals -/

theorem Store.links_rescheduleIf (st : Store) (p : Prop) [Decidable p] :
    (if p then st.reschedule else st).links = st.links := by
  by_cases hp : p
  · rw [if_pos hp]
    rfl
  · rw [if_neg hp]

theorem Core.nodes_rescheduleIf (c : Core) (p : Prop) [Decidable p] :
    (if p then c.reschedule else c).nodes = c.nodes := by
  by_cases hp : p
  · rw [if_pos hp]
    rfl
  · rw [if_neg hp]

/-- The end of the branch of `signal_send` that wakes a task. -/
theorem Depicts.rescheduleIf (h : Depicts S st k) (t : TaskRef) :
    Depicts S (if st.data.core.prio st.data.core.running < st.data.core.prio t then st.reschedule else st)
      { k with core := if k.core.prio k.core.running < k.core.prio t then k.core.reschedule else k.core } := by
  obtain ⟨links, rfl⟩ := h.eta
  by_cases hp : k.core.prio k.core.running < k.core.prio t
  · have hp' : k.blank.core.prio k.blank.core.running < k.blank.core.prio t := hp
    rw [if_pos hp, if_pos hp']
    exact h.reschedule
  · have hp' : ¬ k.blank.core.prio k.blank.core.running < k.blank.core.prio t := hp
    rw [if_neg hp, if_neg hp']
    exact h

/-- `signal_send`. The links of the timers' nodes stay as they are. -/
theorem Depicts.signalSend (h : Depicts S st k) (hl : .tasks .ready ∈ S) (hN : k.core.nodes ≤ N) (t : TaskRef)
    (sg : Signals) :
    Agrees N Fault.OfLists
      (fun st' c => Depicts S st' { k with core := c } ∧ st.SameTimers st' ∧ c.nodes = k.core.nodes)
      (fun fuel => st.signalSend fuel t sg) (signalSend t sg k.core) := by
  -- the signals are noted first, and `enable()` comes last
  have h₁ := h.disable.modTask t fun x => { x with sigRecvd := x.sigRecvd ||| sg }
  have hleave {st₁ : Store} {c₁ : Core} (h₁ : Depicts S st₁ { k with core := c₁ }) (hs₁ : st.SameTimers st₁)
      (hn₁ : c₁.nodes = k.core.nodes) : Agrees N Fault.OfLists
        (fun st' c => Depicts S st' { k with core := c } ∧ st.SameTimers st' ∧ c.nodes = k.core.nodes)
        (fun _ => st₁.enable) c₁.enable := by
    refine h₁.enable.imp ?_
    rintro st₂ c₂ - ⟨h₂, hlinks, hlists⟩
    refine ⟨h₂, fun tm => ?_, ?_⟩
    · rw [hlinks]
      exact hs₁ tm
    · rw [Core.nodes, hlists]
      exact hn₁
  unfold Store.signalSend Martos.signalSend
  refine Agrees.ite ?_ (fun _ => ?_) fun _ => ?_
  · rw [h₁.data]
    exact Iff.rfl
  · -- the task is moved from `waiting` to `ready`
    refine .bind (h₁.unlinkTask t) ?_
    rintro st₂ c₂ - ⟨h₂, hs₂, hn₂⟩
    have hn₂ : c₂.nodes + 1 = k.core.nodes := hn₂
    have hready : (c₂.lists .ready).length ≤ N := by
      unfold Core.nodes at hn₂ hN
      omega
    refine .bind ((h₂.modTask t fun x => { x with state := .ready }).enqueueTask hl hready t) ?_
    rintro st₃ c₃ - ⟨h₃, hs₃, hn₃⟩
    refine hleave (h₃.rescheduleIf t) (fun tm => ?_) ?_
    · rw [Store.links_rescheduleIf]
      exact (hs₃ tm).trans (hs₂ tm)
    · have hn₃ : c₃.nodes = c₂.nodes + 1 := hn₃
      rw [Core.nodes_rescheduleIf]
      omega
  · exact hleave h₁ (fun _ => rfl) rfl

/-- `task_schedule`, its critical section. -/
theorem Depicts.taskScheduleInsert (h : Depicts S st k) (hl : .tasks .ready ∈ S) (hN : k.core.nodes ≤ N) (t : TaskRef) :
    Agrees N Fault.OfLists (fun st' c => Depicts S st' { k with core := c })
      (fun fuel => st.taskScheduleInsert fuel t) (taskScheduleInsert t k.core) := by
  have h₁ := h.disable.modTask t fun x => { x with state := .ready }
  have hready : (k.core.lists .ready).length ≤ N := (Nat.le_add_right ..).trans hN
  refine .bind (h₁.enqueueTask hl hready t) ?_
  rintro st₂ c₂ - ⟨h₂, -, -⟩
  exact h₂.enable.imp fun _ _ _ hc => hc.1

/-- What a segment of `signal_wait` leaves. -/
def Depicts.Waits (S : Set KernelList) (k : Kernel) (p : WaitResult × Store) (q : WaitResult × Core) : Prop :=
  p.1 = q.1 ∧ Depicts S p.2 { k with core := q.2 }

/-- `signal_wait` from the test of its loop on. -/
theorem Depicts.signalWaitLoop (h : Depicts S st k) (hl : .tasks .waiting ∈ S) (sg : Signals) :
    Agrees N Fault.OfLists (Depicts.Waits S k) (fun _ => st.signalWaitLoop sg) (signalWaitLoop sg k.core) := by
  obtain ⟨links, rfl⟩ := h.eta
  unfold Store.signalWaitLoop Martos.signalWaitLoop
  refine Agrees.ite Iff.rfl (fun _ => ?_) fun _ => ?_
  · -- the task is queued, and interrupts are enabled
    refine .bind ((h.modTask k.core.running fun x => { x with state := .waiting }).addTailTask hl k.core.running) ?_
    intro st₁ c₁ _ h₁
    obtain ⟨links₁, rfl⟩ := h₁.eta
    have h₂ := h₁.withCore (d := { c₁ with idNestcnt := 0 }) rfl rfl
    refine .bind h₂.enable ?_
    rintro st₃ c₃ - ⟨h₃, -, -⟩
    exact .pure ⟨rfl, h₃⟩
  · refine .bind (h.modTask k.core.running fun x =>
      { x with sigRecvd := x.sigRecvd &&& ~~~(sg &&& (k.core.task k.core.running).sigRecvd) }).enable ?_
    rintro st₁ c₁ - ⟨h₁, -, -⟩
    exact .pure ⟨rfl, h₁⟩

/-- `signal_wait` from its start. -/
theorem Depicts.signalWait (h : Depicts S st k) (hl : .tasks .waiting ∈ S) (sg : Signals) :
    Agrees N Fault.OfLists (Depicts.Waits S k) (fun _ => st.signalWait sg) (signalWait sg k.core) := by
  obtain ⟨links, rfl⟩ := h.eta
  exact (h.disable.modTask k.core.running fun x => { x with sigWait := sg }).signalWaitLoop hl sg

/-- `signal_wait` from the `disable()` after the switch. -/
theorem Depicts.signalWaitResume (h : Depicts S st k) (hl : .tasks .waiting ∈ S) (sg : Signals) (n : ℤ) :
    Agrees N Fault.OfLists (Depicts.Waits S k) (fun _ => st.signalWaitResume sg n) (signalWaitResume sg n k.core) := by
  obtain ⟨links, rfl⟩ := h.eta
  exact (h.disable.withCore (d := { k.core.disable with idNestcnt := n }) rfl rfl).signalWaitLoop hl sg

/-! ### The context switch -/

theorem Depicts.switchState (h : Depicts S st k) (hl : .tasks .ready ∈ S) (hN : k.core.nodes ≤ N) :
    Agrees N Fault.OfLists (fun st' c => Depicts S st' { k with core := c }) (fun fuel => st.switchState fuel)
      (switchState k.core) := by
  obtain ⟨links, rfl⟩ := h.eta
  have hready : (k.core.lists .ready).length ≤ N := (Nat.le_add_right ..).trans hN
  have hstate : (k.blank.core.task k.blank.core.running).state = (k.core.task k.core.running).state := rfl
  unfold Store.switchState Martos.switchState
  simp only [hstate]
  cases (k.core.task k.core.running).state with
  | running =>
    refine ((h.modTask k.core.running fun x => { x with state := .ready }).enqueueTask hl hready k.core.running).imp ?_
    intro _ _ _ hc
    exact hc.1
  | ready => exact .pure h
  | waiting => exact .pure h
  | invalid => exact .stops fun _ => rfl
  | initialized => exact .stops fun _ => rfl

/-- The highest-priority task is taken from `ready`; a NULL pointer is followed where there is none. -/
theorem Depicts.switchRunning (h : Depicts S st k) (hl : .tasks .ready ∈ S) :
    Agrees N Fault.OfLists (fun st' c => Depicts S st' { k with core := c }) (fun _ => st.switchRunning)
      (switchRunning k.core) := by
  obtain ⟨st₁, he, h₁⟩ := h.listRemHead hl ((k.replaces_tasks _).listRemHead KernelList.tasks_injective) rfl
  unfold Store.switchRunning Martos.switchRunning Seqs.listRemHead
  rw [he]
  cases hh : (k.core.lists .ready).head? with
  | none => exact .stops fun _ => rfl
  | some t =>
    obtain ⟨links₁, rfl⟩ := h₁.eta
    let c₂ : Core := { k.core with lists := (k.core.lists.listRemHead .ready).2, running := t }
    have h₂ := (h₁.withCore (d := c₂) rfl rfl).modTask t fun x => { x with state := .running }
    let c₃ : Core := c₂.modTask t fun x => { x with state := .running }
    exact .pure (h₂.withCore (d := { c₃ with idNestcnt := (c₃.task t).idNestcnt, elapsed := c₃.quantum }) rfl rfl)

/-- The task that is switched in may want interrupts. -/
theorem Depicts.unmaskIf (h : Depicts S st k) :
    Depicts S (if st.data.core.idNestcnt < 0 then st.withCore { st.data.core with primask := false } else st)
      { k with core := if k.core.idNestcnt < 0 then { k.core with primask := false } else k.core } := by
  obtain ⟨links, rfl⟩ := h.eta
  by_cases hn : k.core.idNestcnt < 0
  · have hn' : k.blank.core.idNestcnt < 0 := hn
    rw [if_pos hn, if_pos hn']
    exact h.withCore (d := { k.core with primask := false }) rfl rfl
  · have hn' : ¬ k.blank.core.idNestcnt < 0 := hn
    rw [if_neg hn, if_neg hn']
    exact h

/-- The switch of `PendSV_Handler_user`. -/
theorem Depicts.pendSVHandlerSwitch (h : Depicts S st k) (hl : .tasks .ready ∈ S) (hN : k.core.nodes ≤ N) (frame : ℕ) :
    Agrees N Fault.OfLists (fun st' c => Depicts S st' { k with core := c })
      (fun fuel => st.pendSVHandlerSwitch fuel frame) (pendSVHandlerSwitch frame k.core) := by
  obtain ⟨links, rfl⟩ := h.eta
  have h₁ := (h.withCore (d := { k.core with primask := true }) rfl rfl).modTask k.core.running fun x =>
    { x with context := { x.context with frame := frame } }
  refine .bind (h₁.switchState hl hN) ?_
  intro st₂ c₂ _ h₂
  obtain ⟨links₂, rfl⟩ := h₂.eta
  refine .bind ((h₂.modTask c₂.running fun x => { x with idNestcnt := c₂.idNestcnt }).switchRunning hl) ?_
  intro st₃ c₃ _ h₃
  exact .pure h₃.unmaskIf

end

end Martos
