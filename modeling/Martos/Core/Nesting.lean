import Martos.Core.Effects

/-!
# The nesting count

`Nested` says where the interrupt nesting stands in every reachable state: PRIMASK
is set exactly when `id_nestcnt` is not negative; the count belongs to the running
task and is one less than its open calls of `disable`, except inside the blocking
window of `signal_wait`, where it is `-1` and the depth to go back to is in the local
`nestcnt`; and every other task stands at `-1`, in its structure as well.
-/

namespace Martos

open Transition

/-- Inside the blocking window of `signal_wait`: between its `enable()` and its second
`disable()`, waiting for `signals`, with `nestcnt` to restore. -/
def Pc.Waits (signals : Signals) (nestcnt : ℤ) (p : Pc) : Prop :=
  p = .signalWaitReschedule signals nestcnt ∨ p = .signalWaitDisable signals nestcnt

/-- The nesting count of a task with `d` open calls of `disable`. -/
def Pc.nesting (d : ℕ) : Pc → ℤ
  | .signalWaitReschedule _ _ => -1
  | .signalWaitDisable _ _ => -1
  | _ => d - 1

/-- The nesting count that belongs to task `t`. -/
def CoreSys.nesting (s : CoreSys) (t : TaskRef) : ℤ := (s.pc t).nesting (s.depth t)

theorem Pc.Waits.nesting {sg : Signals} {n : ℤ} {p : Pc} (h : p.Waits sg n) (d : ℕ) : p.nesting d = -1 := by
  rcases h with rfl | rfl <;> rfl

/-- The interrupt nesting discipline. -/
structure Nested (s : CoreSys) : Prop where
  /-- Interrupts are masked iff the count is not negative. -/
  primask : s.core.primask = decide (0 ≤ s.core.idNestcnt)
  /-- The count is the running task's. -/
  count : s.core.idNestcnt = s.nesting s.core.running
  /-- No other task is inside a critical section. -/
  others : ∀ t ≠ s.core.running, s.nesting t = -1
  /-- The PendSV handler runs at depth `-1`. -/
  handler : s.phase ≠ .thread → s.core.idNestcnt = -1
  /-- The local `nestcnt` holds the depth. -/
  waits : ∀ t sg n, (s.pc t).Waits sg n → n = s.depth t ∧ n ≤ 32767
  /-- `task_schedule` works on an initialised task. -/
  scheduling : ∀ t u, s.pc t = .taskSchedule u → s.life u ≠ .fresh
  /-- The saved counts. -/
  saved : ∀ t, s.life t ≠ .fresh → (s.core.task t).idNestcnt = -1
  /-- Only initialised tasks are on the lists. -/
  listed : ∀ l t, t ∈ s.core.lists l → s.life t ≠ .fresh
  /-- The running task is initialised. -/
  runs : s.life s.core.running ≠ .fresh

section

variable {s s' : CoreSys} {e : Event}

theorem Nested.le (h : Nested s) : -1 ≤ s.core.idNestcnt := by
  rw [h.count, CoreSys.nesting]
  cases s.pc s.core.running <;> simp only [Pc.nesting] <;> omega

theorem Nested.balanced (h : Nested s) : s.core.Balanced := ⟨h.primask, h.le⟩

theorem Nested.waits_nonneg (h : Nested s) (sg : Signals) (n : ℤ)
    (hpc : s.pc s.core.running = .signalWaitDisable sg n) : -1 ≤ n := by
  have hn := (h.waits _ _ _ (.inr hpc)).1
  omega

/-- Every step from a nested state has an effect. -/
theorem Nested.effect (h : Nested s) (hst : s.Step e s') : Effect s e s' :=
  hst.effect h.balanced h.waits_nonneg

/-- In its own code the running task's count is one less than its open calls. -/
theorem Nested.count_user (h : Nested s) (hpc : s.pc s.core.running = .user) :
    s.core.idNestcnt = s.depth s.core.running - 1 := by
  rw [h.count, CoreSys.nesting, hpc]
  rfl

/-- In the blocking window interrupts are enabled. -/
theorem Nested.unmasked (h : Nested s) {sg : Signals} {n : ℤ} (hw : (s.pc s.core.running).Waits sg n) :
    s.core.primask = false := by
  rw [h.primask, h.count, CoreSys.nesting, hw.nesting]
  decide

theorem toInt16_eq {n : ℤ} (h₀ : 0 ≤ n) (h : n ≤ 32767) : toInt16 n = n := by
  unfold toInt16
  omega

/-- A step of the running task keeps the discipline if it leaves the other tasks alone
and the running task's count, PRIMASK and locals agree after it. -/
theorem Nested.of_running (h : Nested s) (hr : s'.core.running = s.core.running)
    (hpc : ∀ t ≠ s.core.running, s'.pc t = s.pc t) (hd : ∀ t ≠ s.core.running, s'.depth t = s.depth t)
    (hp : s'.core.primask = decide (0 ≤ s'.core.idNestcnt))
    (hn : s'.core.idNestcnt = s'.nesting s.core.running)
    (hph : s'.phase ≠ .thread → s'.core.idNestcnt = -1)
    (hw : ∀ sg n, (s'.pc s.core.running).Waits sg n → n = s'.depth s.core.running ∧ n ≤ 32767)
    (hsc : ∀ u, s'.pc s.core.running = .taskSchedule u → s'.life u ≠ .fresh)
    (hs : ∀ t, s'.life t ≠ .fresh → (s'.core.task t).idNestcnt = -1)
    (hl : ∀ t, s.life t ≠ .fresh → s'.life t ≠ .fresh)
    (hm : ∀ l t, t ∈ s'.core.lists l → (∃ k, t ∈ s.core.lists k) ∨ s'.life t ≠ .fresh) :
    Nested s' where
  primask := hp
  count := by rw [hr, hn]
  others t ht := by
    rw [hr] at ht
    rw [CoreSys.nesting, hpc t ht, hd t ht]
    exact h.others t ht
  handler := hph
  waits t sg n hwt := by
    by_cases ht : t = s.core.running
    · subst ht; exact hw sg n hwt
    · rw [hpc t ht] at hwt
      rw [hd t ht]
      exact h.waits t sg n hwt
  scheduling t u hpct := by
    by_cases ht : t = s.core.running
    · subst ht; exact hsc u hpct
    · rw [hpc t ht] at hpct
      exact hl u (h.scheduling t u hpct)
  saved := hs
  listed l t ht := (hm l t ht).elim (fun ⟨k, hk⟩ => hl t (h.listed k t hk)) id
  runs := by rw [hr]; exact hl _ h.runs

/-- A step that writes other fields than these keeps the discipline. -/
theorem Nested.of_core (h : Nested s) {c : Core} (hr : c.running = s.core.running)
    (hn : c.idNestcnt = s.core.idNestcnt) (hp : c.primask = s.core.primask)
    (hs : ∀ t, (c.task t).idNestcnt = (s.core.task t).idNestcnt)
    (hm : ∀ l t, t ∈ c.lists l → ∃ k, t ∈ s.core.lists k) : Nested { s with core := c } := by
  refine h.of_running hr (fun _ _ => rfl) (fun _ _ => rfl) (by rw [hp, h.primask, hn]) (by rw [hn, h.count]; rfl)
    (fun hph => by rw [hn]; exact h.handler hph) (fun sg n hw => h.waits _ sg n hw) (h.scheduling _)
    (fun t ht => by rw [hs]; exact h.saved t ht) (fun _ => id) (fun l t ht => .inl (hm l t ht))

@[simp] theorem CoreSys.goto_core (p : Pc) : (s.goto p).core = s.core := rfl

@[simp] theorem CoreSys.goto_pc_self (p : Pc) : (s.goto p).pc s.core.running = p := by simp [CoreSys.goto]

theorem CoreSys.goto_pc_of_ne (p : Pc) {t : TaskRef} (ht : t ≠ s.core.running) : (s.goto p).pc t = s.pc t := by
  simp [CoreSys.goto, ht]

/-- The running task moves from one point of its code to another, at the same depth, and
the kernel data it writes is not about nesting. -/
theorem Nested.of_goto (h : Nested s) {p : Pc} {c : Core} {life : TaskRef → Life}
    (hr : c.running = s.core.running) (hn : c.idNestcnt = s.core.idNestcnt)
    (hp : c.primask = s.core.primask) (hs : ∀ t, (c.task t).idNestcnt = (s.core.task t).idNestcnt)
    (hnest : p.nesting (s.depth s.core.running) = s.nesting s.core.running)
    (hw : ∀ sg n, p.Waits sg n → (s.pc s.core.running).Waits sg n)
    (hsc : ∀ u, p = .taskSchedule u → life u ≠ .fresh) (hl : ∀ t, s.life t ≠ .fresh ↔ life t ≠ .fresh)
    (hm : ∀ l t, t ∈ c.lists l → (∃ k, t ∈ s.core.lists k) ∨ life t ≠ .fresh) :
    Nested { s.goto p with core := c, life := life } := by
  refine h.of_running hr (fun t ht => CoreSys.goto_pc_of_ne p ht) (fun _ _ => rfl) ?_ ?_ ?_ ?_ ?_ ?_ ?_ hm
  · rw [hp, h.primask, hn]
  · rw [hn, h.count, ← hnest]
    simp [CoreSys.nesting, CoreSys.goto]
  · intro hph
    rw [hn]
    exact h.handler hph
  · intro sg n hwp
    rw [CoreSys.goto_pc_self] at hwp
    exact h.waits _ sg n (hw sg n hwp)
  · intro u hu
    rw [CoreSys.goto_pc_self] at hu
    exact hsc u hu
  · intro t ht
    rw [hs]
    exact h.saved t ((hl t).mpr ht)
  · exact fun t ht => (hl t).mp ht

/-- The running task queues itself in `signal_wait`. -/
theorem Nested.of_queued (h : Nested s) {sg : Signals} {n : ℤ} {c : Core} (hr : c.running = s.core.running)
    (hs : ∀ t, (c.task t).idNestcnt = (s.core.task t).idNestcnt) (hl : c.lists = s.core.lists)
    (hph : s.phase = .thread) (hn : n = s.depth s.core.running) (hle : n ≤ 32767) :
    Nested { s.goto (.signalWaitReschedule sg (toInt16 n)) with core := c.queued } := by
  refine h.of_running hr (fun t ht => CoreSys.goto_pc_of_ne _ ht) (fun _ _ => rfl) rfl ?_
    (fun hp => absurd hph hp) ?_ (by simp) ?_ (fun _ => id) ?_
  · rw [CoreSys.nesting, CoreSys.goto_pc_self]
    rfl
  · intro sg' n' hw
    rw [CoreSys.goto_pc_self] at hw
    rcases hw with hw | hw
    · obtain ⟨-, rfl⟩ := Pc.signalWaitReschedule.inj hw
      rw [toInt16_eq (by omega) hle]
      exact ⟨hn, hle⟩
    · cases hw
  · intro t ht
    have hq : (c.queued.task t).idNestcnt = (c.task t).idNestcnt := Core.apply_update Task.idNestcnt (by rfl) t
    exact hq.trans ((hs t).trans (h.saved t ht))
  · intro l t ht
    rcases Seqs.mem_listAddTail.mp ht with ht | ⟨-, rfl⟩
    · exact .inl ⟨l, hl ▸ ht⟩
    · rw [hr]
      exact .inr h.runs

/-- The running task returns from `signal_wait`. -/
theorem Nested.of_consumed (h : Nested s) {rcvd : Signals} {n : ℤ} {c : Core} (hr : c.running = s.core.running)
    (hs : ∀ t, (c.task t).idNestcnt = (s.core.task t).idNestcnt) (hl : c.lists = s.core.lists)
    (hph : s.phase = .thread) (hn : n = s.depth s.core.running - 1) :
    Nested { s.goto .user with core := c.consumed rcvd n } := by
  refine h.of_running hr (fun t ht => CoreSys.goto_pc_of_ne _ ht) (fun _ _ => rfl) rfl ?_
    (fun hp => absurd hph hp) ?_ (by simp) ?_ (fun _ => id) (fun l t ht => .inl ⟨l, ?_⟩)
  · rw [CoreSys.nesting, CoreSys.goto_pc_self]
    exact hn
  · intro sg' n' hw
    rw [CoreSys.goto_pc_self] at hw
    rcases hw with hw | hw <;> cases hw
  · intro t ht
    have hc : ((c.consumed rcvd n).task t).idNestcnt = (c.task t).idNestcnt :=
      Core.apply_update Task.idNestcnt (by rfl) t
    exact hc.trans ((hs t).trans (h.saved t ht))
  · rw [← hl]
    exact ht

/-- A task comes in, after the running task's structure has been written. -/
theorem Nested.of_switchedIn (h : Nested s) {d : Core} {t : TaskRef} (hph : s.phase = .verified)
    (hh : (d.lists .ready).head? = some t) (hs : ∀ u, (d.task u).idNestcnt = (s.core.task u).idNestcnt ∨
      (u = s.core.running ∧ (d.task u).idNestcnt = s.core.idNestcnt))
    (hm : ∀ l u, u ∈ d.lists l → u ∈ s.core.lists l ∨ u = s.core.running) :
    Nested { s with core := d.switchedIn t, phase := .switched } := by
  have hid : s.core.idNestcnt = -1 := h.handler (by rw [hph]; decide)
  have hlisted (l u) (hu : u ∈ d.lists l) : s.life u ≠ .fresh := by
    rcases hm l u hu with hu | rfl
    · exact h.listed l u hu
    · exact h.runs
  have hsaved (u) (hu : s.life u ≠ .fresh) : (d.task u).idNestcnt = -1 := by
    rcases hs u with hu' | ⟨-, hu'⟩
    · rw [hu']; exact h.saved u hu
    · rw [hu', hid]
  have htl : s.life t ≠ .fresh := hlisted .ready t (List.mem_of_head? hh)
  have hnest (u) : s.nesting u = -1 := by
    by_cases hu : u = s.core.running
    · rw [hu, ← h.count, hid]
    · exact h.others u hu
  exact {
    primask := rfl
    count := by
      rw [show (d.switchedIn t).idNestcnt = _ from hsaved t htl]
      exact (hnest t).symm
    others := fun u _ => hnest u
    handler := fun _ => hsaved t htl
    waits := h.waits
    scheduling := h.scheduling
    saved := fun u hu => by
      have hd : ((d.switchedIn t).task u).idNestcnt = (d.task u).idNestcnt :=
        Core.apply_update Task.idNestcnt (by rfl) u
      exact hd.trans (hsaved u hu)
    listed := fun l u hu => by
      refine hlisted l u ?_
      change u ∈ (d.lists.listRemHead .ready).2 l at hu
      by_cases hl : l = .ready
      · subst hl
        rw [Seqs.listRemHead_self] at hu
        exact List.mem_of_mem_tail hu
      · rwa [Seqs.listRemHead_of_ne hl] at hu
    runs := htl }

/-- **A step keeps the nesting discipline.** -/
theorem Nested.step (h : Nested s) (hst : s.Step e s') : Nested s' := by
  cases h.effect hst with
  | disable hu =>
    have hn := h.count_user hu.2
    refine h.of_running rfl (fun _ _ => rfl) (fun t ht => Function.update_of_ne ht _ _) ?_ ?_
      (fun hp => absurd hu.1.1 hp) ?_ (h.scheduling _) h.saved (fun _ => id) (fun l t ht => .inl ⟨l, ht⟩)
    · have hle := h.le
      exact (decide_eq_true (show 0 ≤ s.core.idNestcnt + 1 by omega)).symm
    · simp only [CoreSys.nesting, hu.2, Pc.nesting, Function.update_self, Core.disable, hn]
      omega
    · intro sg n hw
      rcases hw with hw | hw <;> exact absurd (hu.2.symm.trans hw) (by simp)
  | enable hu hd =>
    have hn := h.count_user hu.2
    refine h.of_running rfl (fun _ _ => rfl) (fun t ht => Function.update_of_ne ht _ _) rfl ?_
      (fun hp => absurd hu.1.1 hp) ?_ (h.scheduling _) h.saved (fun _ => id) (fun l t ht => .inl ⟨l, ht⟩)
    · simp only [CoreSys.nesting, hu.2, Pc.nesting, Function.update_self, Core.opened, hn]
      omega
    · intro sg n hw
      rcases hw with hw | hw <;> exact absurd (hu.2.symm.trans hw) (by simp)
  | @taskInit t params context hu hf =>
    have hne : s.core.running ≠ t := fun he => h.runs (he ▸ hf)
    refine h.of_running rfl (fun _ _ => rfl) (fun _ _ => rfl) h.primask h.count
      (fun hp => absurd hu.1.1 hp) (fun sg n hw => h.waits _ sg n hw) ?_ ?_ ?_ (fun l t ht => .inl ⟨l, ht⟩)
    · intro u hpu
      by_cases hut : u = t
      · subst hut; simp
      · simpa [hut] using h.scheduling _ u hpu
    · intro u hlu
      by_cases hut : u = t
      · subst hut; simp [Core.prepared]
      · simp only [Core.prepared, Core.modTask_of_ne hut]
        simp only [Function.update_of_ne hut] at hlu
        exact h.saved u hlu
    · intro u hlu
      by_cases hut : u = t
      · subst hut; simp
      · simpa [hut] using hlu
  | @taskSchedule t hu hi =>
    refine h.of_goto rfl rfl rfl (fun _ => rfl) ?_ ?_ ?_ ?_ (fun l t ht => .inl ⟨l, ht⟩)
    · rw [CoreSys.nesting, hu.2]
      rfl
    · rintro sg n (hw | hw) <;> cases hw
    · intro u hpu
      obtain rfl := Pc.taskSchedule.inj hpu
      simp
    · intro u
      by_cases hut : u = t
      · subst hut; simp [hi]
      · simp [hut]
  | taskSetPrio hu =>
    exact h.of_core rfl rfl rfl (Core.apply_update Task.idNestcnt rfl) fun l t ht => ⟨l, ht⟩
  | signalAllocate target hu =>
    exact h.of_core rfl rfl rfl (Core.apply_update Task.idNestcnt rfl) fun l t ht => ⟨l, ht⟩
  | signalFree hu hs =>
    exact h.of_core rfl rfl rfl (Core.apply_update Task.idNestcnt rfl) fun l t ht => ⟨l, ht⟩
  | posted hw he =>
    exact h.of_core rfl rfl rfl (Core.apply_update Task.idNestcnt rfl) fun l t ht => ⟨l, ht⟩
  | woken hw hm he =>
    refine h.of_core rfl rfl rfl (Core.apply_update Task.idNestcnt rfl) fun l t ht => ?_
    rcases Seqs.mem_listEnqueue.mp ht with ht | ⟨-, rfl⟩
    · exact ⟨l, List.mem_of_mem_erase ht⟩
    · exact hm.1.elim (fun hk => ⟨_, hk⟩) fun hk => ⟨_, hk⟩
  | waitBlocks hu hn hz hl =>
    have hc := h.count_user hu.2
    exact h.of_queued (c := s.core.awaits _) rfl (Core.apply_update Task.idNestcnt rfl) rfl hu.1.1
      (by omega) (by omega)
  | waitReturns hu hn hz =>
    exact h.of_consumed (c := s.core.awaits _) rfl (Core.apply_update Task.idNestcnt rfl) rfl hu.1.1
      (h.count_user hu.2)
  | @inserts t ht hpc hl =>
    refine h.of_goto rfl rfl rfl (Core.apply_update Task.idNestcnt rfl) ?_ ?_ (by simp) ?_ ?_
    · rw [CoreSys.nesting, hpc]
      rfl
    · rintro sg n (hw | hw) <;> cases hw
    · intro u
      by_cases hut : u = t
      · subst hut; simp [h.scheduling _ _ hpc]
      · simp [hut]
    · intro l u hu
      rcases Seqs.mem_listEnqueue.mp hu with hu | ⟨-, rfl⟩
      · exact .inl ⟨l, hu⟩
      · exact .inr (by simp)
  | requests ht hpc =>
    refine h.of_goto rfl rfl rfl (fun _ => rfl) ?_ ?_ (by simp) (fun _ => Iff.rfl) (fun l t ht => .inl ⟨l, ht⟩)
    · rw [CoreSys.nesting, hpc]
      rfl
    · rintro sg n (hw | hw) <;> cases hw
  | yields ht hpc =>
    refine h.of_goto rfl rfl rfl (fun _ => rfl) ?_ ?_ (by simp) (fun _ => Iff.rfl) (fun l t ht => .inl ⟨l, ht⟩)
    · rw [CoreSys.nesting, hpc]
      rfl
    · rintro sg n (hw | hw)
      · cases hw
      · obtain ⟨rfl, rfl⟩ := Pc.signalWaitDisable.inj hw
        exact .inl hpc
  | blocksAgain ht hpc hz hl =>
    obtain ⟨hn, hle⟩ := h.waits _ _ _ (.inr hpc)
    exact h.of_queued rfl (fun _ => rfl) rfl ht.1 hn hle
  | returns ht hpc hz =>
    obtain ⟨hn, -⟩ := h.waits _ _ _ (.inr hpc)
    exact h.of_consumed rfl (fun _ => rfl) rfl ht.1 (by omega)
  | sysTick hm => exact h.of_core rfl rfl rfl (fun _ => rfl) fun l t ht => ⟨l, ht⟩
  | pendSV hp hm =>
    refine h.of_running rfl (fun _ _ => rfl) (fun _ _ => rfl) h.primask h.count ?_
      (fun sg n hw => h.waits _ sg n hw) (h.scheduling _) h.saved (fun _ => id) (fun l t ht => .inl ⟨l, ht⟩)
    exact fun _ => h.balanced.eq_neg_one hm
  | preempts hp hs hl hh =>
    refine h.of_switchedIn hp hh (fun u => ?_) (fun l u hu => ?_)
    · by_cases hu : u = s.core.running
      · subst hu
        exact .inr ⟨rfl, by simp [Core.requeued, Core.switchedOut]⟩
      · exact .inl (by simp [Core.requeued, Core.switchedOut, hu])
    · exact (Seqs.mem_listEnqueue.mp hu).imp id And.right
  | leaves hp hs hst hh =>
    refine h.of_switchedIn hp hh (fun u => ?_) (fun l u hu => .inl hu)
    by_cases hu : u = s.core.running
    · subst hu
      exact .inr ⟨rfl, by simp [Core.switchedOut]⟩
    · exact .inl (by simp [Core.switchedOut, hu])
  | pendSVExit hp =>
    exact h.of_running rfl (fun _ _ => rfl) (fun _ _ => rfl) h.primask h.count (fun hne => absurd rfl hne)
      (fun sg n hw => h.waits _ sg n hw) (h.scheduling _) h.saved (fun _ => id) (fun l t ht => .inl ⟨l, ht⟩)

/-- The machine starts nested. -/
theorem Nested.start {cfg : Config} {c : Core} (h : martosPre cfg = .ok c) : Nested (CoreSys.start c) := by
  obtain ⟨context, rfl⟩ := Core.exists_of_martosPre h
  exact {
    primask := rfl
    count := rfl
    others := fun _ _ => rfl
    handler := fun hp => absurd rfl hp
    waits := by rintro t sg n (hw | hw) <;> cases hw
    scheduling := fun t u hu => by cases hu
    saved := fun t ht => by
      by_cases hi : t = initTask
      · subst hi; simp [CoreSys.start, Core.booted]
      · simp [CoreSys.start, hi] at ht
    listed := fun l t ht => by simp [CoreSys.start, Core.booted, resetCore] at ht
    runs := by simp [CoreSys.start, Core.booted] }

/-- Every reachable state is nested. -/
theorem Nested.run {cfg : Config} {c : Core} {tr : List (Move CoreSys Event)} (h : martosPre cfg = .ok c)
    (hr : Run CoreSys.Step (CoreSys.start c) tr s) : Nested s :=
  hr.invariant (Nested.start h) fun _ _ _ hn hst => hn.step hst

end

end Martos
