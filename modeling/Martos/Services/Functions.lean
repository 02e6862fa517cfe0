import Martos.Core.Effects
import Martos.Core.Placement
import Martos.Services.Kernel

/-!
# What the service functions do

The service functions work between `disable()` and `enable()` and call `signal_send`,
which opens and closes a critical section of its own. `Transparent` functions do the same
inside a critical section as outside of it, so the brackets can be left out
(`Transparent.critical`), and each function has a description in which they do not occur.

On the core, these functions do nothing but send signals: `Sent c c'` says that `c'` is
`c` after some calls of `signal_send`.
-/

namespace Martos

open Checked

/-! ### Critical sections -/

section

variable {c d : Core} {t : TaskRef} {sg : Signals}

theorem Core.Balanced.disable (hb : c.Balanced) : c.disable.Balanced where
  primask := (decide_eq_true (show 0 ≤ c.idNestcnt + 1 by have := hb.le; omega)).symm
  le := by have := hb.le; change -1 ≤ c.idNestcnt + 1; omega

/-- What `signal_send` leaves alone. -/
theorem signalSend_frame (hb : c.Balanced) (h : signalSend t sg c = .ok d) :
    d.idNestcnt = c.idNestcnt ∧ d.primask = c.primask ∧ d.running = c.running := by
  rw [Core.signalSend_eq hb] at h
  by_cases hw : c.Wakes t sg
  · rw [if_pos hw, ite_ok_else_error_eq_ok, ite_error_eq_ok, Except.ok.injEq] at h
    obtain ⟨-, -, rfl⟩ := h
    exact ⟨rfl, rfl, rfl⟩
  · rw [if_neg hw, Except.ok.injEq] at h
    subst h
    exact ⟨rfl, rfl, rfl⟩

theorem signalSend_balanced (hb : c.Balanced) (h : signalSend t sg c = .ok d) : d.Balanced := by
  obtain ⟨hn, hp, -⟩ := signalSend_frame hb h
  exact ⟨by rw [hp, hn]; exact hb.primask, by rw [hn]; exact hb.le⟩

/-- What `signal_send` needs to come to its end, and keeps: the nesting count agrees with PRIMASK, and
the lists with the states of the tasks. -/
structure Core.Settled (c : Core) : Prop where
  /-- Count and PRIMASK agree. -/
  balanced : c.Balanced
  /-- The lists agree with the states. -/
  located : c.lists.Located c.place

theorem Core.Settled.signalSend (h : c.Settled) (t : TaskRef) (sg : Signals) :
    ∃ d, signalSend t sg c = .ok d ∧ d.Settled := by
  rcases signalSend_cases h.balanced h.located t sg with ⟨-, he⟩ | ⟨-, -, he⟩
  · have hplace (u : TaskRef) : (c.posted t sg).place u = c.place u :=
      congrArg TaskState.list (apply_update Task.state (by rfl) u)
    exact ⟨_, he, signalSend_balanced h.balanced he, h.located.congr hplace⟩
  · exact ⟨_, he, signalSend_balanced h.balanced he, located_woken h.located t sg⟩

/-- `signal_send` does the same in a critical section. -/
theorem signalSend_disable (hb : c.Balanced) :
    signalSend t sg c.disable = (do return (← signalSend t sg c).disable) := by
  rw [Core.signalSend_eq hb, Core.signalSend_eq hb.disable]
  by_cases hw : c.Wakes t sg
  · rw [if_pos hw, if_pos (show c.disable.Wakes t sg from hw)]
    by_cases hl : c.OnList t
    · rw [if_pos hl, if_pos (show c.disable.OnList t from hl)]
      by_cases hr : t ∈ c.lists.listUnlink t .ready ∨ t ∈ c.lists.listUnlink t .waiting
      · rw [show c.disable.lists = c.lists from rfl, if_pos hr, if_pos hr]
        rfl
      · rw [show c.disable.lists = c.lists from rfl, if_neg hr, if_neg hr]
        rfl
    · rw [if_neg hl, if_neg (show ¬ c.disable.OnList t from hl)]
      rfl
  · rw [if_neg hw, if_neg (show ¬ c.disable.Wakes t sg from hw)]
    rfl

end

/-- A function that does the same in a critical section as outside, and leaves the nesting
as it finds it. -/
structure Transparent (f : Kernel → Except Fault Kernel) : Prop where
  /-- It commutes with `disable`. -/
  disable : ∀ k, k.core.Balanced → f k.disable = (do return (← f k).disable)
  /-- It keeps count and PRIMASK in agreement. -/
  balanced : ∀ k k', k.core.Balanced → f k = .ok k' → k'.core.Balanced

namespace Transparent

variable {f g : Kernel → Except Fault Kernel}

/-- A critical section around a transparent function can be left out. -/
theorem critical (hf : Transparent f) {k : Kernel} (hb : k.core.Balanced) :
    (do (← f k.disable).enable) = f k := by
  rw [hf.disable k hb]
  cases h : f k with
  | error e => rfl
  | ok k' =>
    have he : k'.core.disable.enable = .ok k'.core := (hf.balanced k k' hb h).enable rfl rfl
    exact bind_of_eq_ok he _

/-- A write to the services' data. -/
theorem svc (g : Kernel → Services) (hg : ∀ k, g k.disable = g k) :
    Transparent fun k => pure { k with svc := g k } where
  disable k _ := by rw [hg k]; rfl
  balanced k k' hb h := by
    obtain rfl := pure_eq_ok.mp h
    exact hb

theorem pure : Transparent pure := svc Kernel.svc fun _ => rfl

theorem bind (hf : Transparent f) (hg : Transparent g) : Transparent fun k => do g (← f k) where
  disable k hb := by
    rw [hf.disable k hb]
    cases h : f k with
    | error e => rfl
    | ok k' => exact hg.disable k' (hf.balanced k k' hb h)
  balanced k k' hb h := by
    obtain ⟨k₁, h₁, h₂⟩ := bind_eq_ok.mp h
    exact hg.balanced k₁ k' (hf.balanced k k₁ hb h₁) h₂

/-- An assertion that is not about the nesting. -/
theorem guard {p : Kernel → Prop} [∀ k, Decidable (p k)] {e : Fault} (hp : ∀ k, p k.disable ↔ p k)
    (hf : Transparent f) : Transparent fun k => do assertThat (p k) e; f k where
  disable k hb := by
    by_cases h : p k
    · rw [assertThat_of e h, assertThat_of e ((hp k).mpr h)]
      exact hf.disable k hb
    · rw [assertThat, assertThat, if_neg h, if_neg (mt (hp k).mp h)]
      rfl
  balanced k k' hb h := by
    obtain ⟨-, -, h⟩ := bind_eq_ok.mp h
    exact hf.balanced k k' hb h

/-- A test that is not about the nesting. -/
theorem ite {p : Kernel → Prop} [∀ k, Decidable (p k)] (hp : ∀ k, p k.disable ↔ p k)
    (hf : Transparent f) (hg : Transparent g) : Transparent fun k => if p k then f k else g k where
  disable k hb := by
    by_cases h : p k
    · rw [if_pos h, if_pos ((hp k).mpr h)]
      exact hf.disable k hb
    · rw [if_neg h, if_neg (mt (hp k).mp h)]
      exact hg.disable k hb
  balanced k k' hb h := by
    by_cases hk : p k
    · rw [if_pos hk] at h; exact hf.balanced k k' hb h
    · rw [if_neg hk] at h; exact hg.balanced k k' hb h

theorem signalSend (t : TaskRef) (sg : Signals) : Transparent fun k => k.signalSend t sg where
  disable k hb := by
    change (do return { k.disable with core := ← Martos.signalSend t sg k.core.disable }) = _
    rw [signalSend_disable hb]
    cases h : Martos.signalSend t sg k.core with
    | error e => simp [Kernel.signalSend, h]
    | ok c => simp [Kernel.signalSend, h]; rfl
  balanced k k' hb h := by
    simp only [Kernel.signalSend, bind_eq_ok, pure_eq_ok] at h
    obtain ⟨c, hc, rfl⟩ := h
    exact signalSend_balanced hb hc

end Transparent

/-! ### Semaphores -/

section

variable {k k' : Kernel} {sem : SemRef} {req : ReqRef}

theorem semSetCount_transparent (sem : SemRef) {f : Kernel → ℤ} (hf : ∀ k, f k.disable = f k) :
    Transparent fun k => semSetCount sem (f k) k :=
  .guard (fun k => by rw [hf]) (.svc (fun k => { k.svc with count := Function.update k.svc.count sem (f k) })
    fun k => by rw [hf]; rfl)

theorem semWake_transparent (sem : SemRef) : Transparent (semWake sem) := by
  -- once the request is known, the branch is two assertions and `signal_send`
  have hsome (queue : Seqs SemRef ReqRef) (r : TaskRef) (sg : Signals) : Transparent (fun k => do
      assertThat (k.core.running ≠ r) .semWaiter
      assertThat (sg ≠ 0#16) .semSignal
      Kernel.signalSend { k with svc := { k.svc with reqQueue := queue } } r sg) :=
    .guard (fun _ => Iff.rfl) (.guard (fun _ => Iff.rfl)
      (.bind (.svc (fun k => { k.svc with reqQueue := queue }) fun _ => rfl) (.signalSend r sg)))
  constructor
  · intro k hb
    unfold semWake Seqs.listRemHead
    cases hh : (k.svc.reqQueue sem).head? with
    | none => simp only [Kernel.disable, hh]; rfl
    | some req =>
      simp only [Kernel.disable, hh]
      exact (hsome _ _ _).disable k hb
  · intro k k' hb h
    unfold semWake Seqs.listRemHead at h
    cases hh : (k.svc.reqQueue sem).head? with
    | none => simp [hh] at h
    | some req =>
      simp only [hh] at h
      exact (hsome _ _ _).balanced k k' hb h

theorem semRelease_transparent (sem : SemRef) : Transparent (semRelease sem) :=
  .ite (fun _ => Iff.rfl) (semWake_transparent sem) .pure

/-- The semaphore's count, written. -/
def Services.setCount (svc : Services) (sem : SemRef) (n : ℤ) : Services :=
  { svc with count := Function.update svc.count sem n }

theorem semSetCount_eq_ok {n : ℤ} : semSetCount sem n k = .ok k' ↔
    (-semaphoreCountMax - 1 ≤ n ∧ n ≤ semaphoreCountMax) ∧ k' = { k with svc := k.svc.setCount sem n } := by
  simp only [semSetCount, bind_eq_ok, assertThat_eq_ok, pure_eq_ok]
  constructor
  · rintro ⟨-, h, rfl⟩
    exact ⟨h, rfl⟩
  · rintro ⟨h, rfl⟩
    exact ⟨(), h, rfl⟩

/-- What `sem_add_request` does to the services' data. -/
def Services.requested (svc : Services) (sem : SemRef) (req : ReqRef) : Services :=
  { svc.setCount sem (svc.count sem - 1) with
    reqQueue := if svc.count sem - 1 < 0 then svc.reqQueue.listAddTail sem req else svc.reqQueue }

/-- `sem_add_request` queues the request exactly when it says so, and does nothing else. -/
theorem semAddRequest_eq_ok (hb : k.core.Balanced) {b : Bool} (h : semAddRequest sem req k = .ok (b, k')) :
    b = decide (k.svc.count sem - 1 < 0) ∧ k' = { k with svc := k.svc.requested sem req } := by
  unfold semAddRequest at h
  obtain ⟨k₁, h₁, h⟩ := bind_eq_ok.mp h
  obtain ⟨-, rfl⟩ := semSetCount_eq_ok.mp h₁
  have hcount : (k.disable.svc.setCount sem (k.disable.svc.count sem - 1)).count sem = k.svc.count sem - 1 :=
    Function.update_self ..
  have henable : k.core.disable.enable = .ok k.core := hb.enable rfl rfl
  dsimp only at h
  rw [hcount] at h
  by_cases hn : k.svc.count sem - 1 < 0
  · rw [if_pos hn] at h
    simp only [Kernel.enable, semEnqueue, Kernel.disable, henable, ok_bind] at h
    obtain ⟨rfl, rfl⟩ := Prod.mk.inj (pure_eq_ok.mp h)
    exact ⟨(decide_eq_true hn).symm, by simp only [Services.requested, if_pos hn, Services.setCount]⟩
  · rw [if_neg hn] at h
    simp only [Kernel.enable, Kernel.disable, henable, ok_bind] at h
    obtain ⟨rfl, rfl⟩ := Prod.mk.inj (pure_eq_ok.mp h)
    exact ⟨(decide_eq_false hn).symm, by simp only [Services.requested, if_neg hn, Services.setCount]⟩

/-- `sem_signal` without its critical section. -/
theorem semSignal_eq (hb : k.core.Balanced) : semSignal sem k =
    (do semRelease sem (← semSetCount sem (k.svc.count sem + 1) k)) := by
  have ht := (semSetCount_transparent sem (f := fun k => k.svc.count sem + 1) fun _ => rfl).bind
    (semRelease_transparent sem)
  rw [← ht.critical hb, bind_assoc]
  rfl

/-- What `sem_signal` does: count up, and if the count is still negative take the first
request from the queue and signal its waiter. -/
theorem semSignal_cases (hb : k.core.Balanced) (h : semSignal sem k = .ok k') :
    (0 ≤ k.svc.count sem + 1 ∧ k' = { k with svc := k.svc.setCount sem (k.svc.count sem + 1) }) ∨
    (k.svc.count sem + 1 < 0 ∧ ∃ req c, (k.svc.reqQueue sem).head? = some req ∧
      k.core.running ≠ (k.svc.request req).waiter ∧ (k.svc.request req).signal ≠ 0#16 ∧
      signalSend (k.svc.request req).waiter (k.svc.request req).signal k.core = .ok c ∧
      k' = ⟨c, { k.svc.setCount sem (k.svc.count sem + 1) with
        reqQueue := (k.svc.reqQueue.listRemHead sem).2 }⟩) := by
  rw [semSignal_eq hb] at h
  obtain ⟨k₁, h₁, h⟩ := bind_eq_ok.mp h
  obtain ⟨-, rfl⟩ := semSetCount_eq_ok.mp h₁
  have hcount : (k.svc.setCount sem (k.svc.count sem + 1)).count sem = k.svc.count sem + 1 :=
    Function.update_self ..
  unfold semRelease at h
  dsimp only at h
  rw [hcount] at h
  by_cases hn : k.svc.count sem + 1 < 0
  · rw [if_pos hn] at h
    unfold semWake Seqs.listRemHead at h
    cases hh : (k.svc.reqQueue sem).head? with
    | none => simp [Services.setCount, hh] at h
    | some req =>
      simp only [Services.setCount, hh] at h
      obtain ⟨_, hr, h⟩ := bind_eq_ok.mp h
      obtain ⟨_, hs, h⟩ := bind_eq_ok.mp h
      obtain ⟨c, hc, h⟩ := bind_eq_ok.mp h
      obtain rfl := pure_eq_ok.mp h
      exact .inr ⟨hn, req, c, rfl, assertThat_eq_ok.mp hr, assertThat_eq_ok.mp hs, hc, rfl⟩
  · rw [if_neg hn, Except.ok.injEq] at h
    exact .inl ⟨not_lt.mp hn, h.symm⟩

end

/-! ### Message ports -/

section

variable {k k' : Kernel} {port : PortRef} {message : MsgRef}

/-- `msgport_get` removes the first message and returns it. -/
theorem msgportGet_eq (hb : k.core.Balanced) : msgportGet port k =
    .ok ((k.svc.messageList port).head?,
      { k with svc := { k.svc with messageList := (k.svc.messageList.listRemHead port).2 } }) := by
  have henable : k.core.disable.enable = .ok k.core := hb.enable rfl rfl
  simp only [msgportGet, Kernel.enable, Kernel.disable, Seqs.listRemHead, henable, ok_bind]
  rfl

theorem msgportNotify_transparent (port : PortRef) : Transparent (msgportNotify port) := by
  have hsome (t : TaskRef) (sg : Signals) (a : MsgPortAction) :
      Transparent fun k => if a = .signal then k.signalSend t sg else .ok k :=
    .ite (fun _ => Iff.rfl) (.signalSend t sg) .pure
  constructor
  · intro k hb
    unfold msgportNotify
    cases ht : (k.svc.port port).task with
    | none => simp only [Kernel.disable, ht]; rfl
    | some t =>
      simp only [Kernel.disable, ht]
      exact (hsome t _ _).disable k hb
  · intro k k' hb h
    unfold msgportNotify at h
    cases ht : (k.svc.port port).task with
    | none => simp only [ht, Except.ok.injEq] at h; exact h ▸ hb
    | some t =>
      simp only [ht] at h
      exact (hsome t _ _).balanced k k' hb h

/-- The owner of the port is signalled, if it has one and wants to be. -/
def Notifies (p : MsgPort) (c c' : Core) : Prop :=
  (∃ t, p.task = some t ∧ p.action = .signal ∧ signalSend t p.signal c = .ok c') ∨
    ((p.task = none ∨ p.action ≠ .signal) ∧ c' = c)

/-- What `msgport_send` does: append the message, and signal the owner. -/
theorem msgportSend_cases (hb : k.core.Balanced) (h : msgportSend port message k = .ok k') :
    (k.svc.port port).action ≠ .invalid ∧ ∃ c, Notifies (k.svc.port port) k.core c ∧
    k' = ⟨c, { k.svc with messageList := k.svc.messageList.listAddTail port message }⟩ := by
  have ht : Transparent fun k => (do
      assertThat ((k.svc.port port).action = .signal ∨ (k.svc.port port).action = .ignore) .portAction
      msgportNotify port { k with svc := { k.svc with
        messageList := k.svc.messageList.listAddTail port message } }) :=
    .guard (fun _ => Iff.rfl) (.bind (.svc (fun k => { k.svc with
      messageList := k.svc.messageList.listAddTail port message }) fun _ => rfl) (msgportNotify_transparent port))
  have heq := ht.critical hb
  rw [bind_assoc] at heq
  rw [show msgportSend port message k = _ from heq] at h
  simp only [bind_eq_ok, assertThat_eq_ok] at h
  obtain ⟨-, ha, h⟩ := h
  refine ⟨by rcases ha with ha | ha <;> rw [ha] <;> decide, ?_⟩
  unfold msgportNotify at h
  cases htask : (k.svc.port port).task with
  | none =>
    simp only [htask, Except.ok.injEq] at h
    exact ⟨k.core, .inr ⟨.inl htask, rfl⟩, h.symm⟩
  | some t =>
    simp only [htask] at h
    by_cases hs : (k.svc.port port).action = .signal
    · simp only [if_pos hs, Kernel.signalSend, bind_eq_ok, pure_eq_ok] at h
      obtain ⟨c, hc, rfl⟩ := h
      exact ⟨c, .inl ⟨t, htask, hs, hc⟩, rfl⟩
    · simp only [if_neg hs, Except.ok.injEq] at h
      exact ⟨k.core, .inr ⟨.inr hs, rfl⟩, h.symm⟩

end

/-! ### Timers -/

/-- The timer is at the place in the queue that `timer_add` finds for it, with status
`TIMER_ADDED`. -/
def Services.timerInserted (svc : Services) (tm : TimerRef) : Services :=
  { svc.modTimer tm fun x => { x with status := .added } with
    timers := Function.update svc.timers ()
      ((svc.timers ()).orderedInsert (fun a b => (svc.timer a).tick < (svc.timer b).tick) tm) }

/-- The timers that a poll finds due: the queue up to the first later tick. -/
def Services.due (svc : Services) : List TimerRef :=
  (svc.timers ()).takeWhile fun tm => decide ((svc.timer tm).tick ≤ svc.timerNow)

/-- The timers after a poll. -/
def Services.polled (svc : Services) : Services :=
  { svc with
    timer := fun tm => if tm ∈ svc.due then { svc.timer tm with status := .done } else svc.timer tm
    timers := Function.update svc.timers ()
      ((svc.timers ()).dropWhile fun tm => decide ((svc.timer tm).tick ≤ svc.timerNow)) }

section

variable {k k' : Kernel} {tm : TimerRef}

@[simp] theorem Services.modTimer_self {svc : Services} {f : Timer → Timer} :
    (svc.modTimer tm f).timer tm = f (svc.timer tm) := Function.update_self ..

theorem Services.modTimer_of_ne {svc : Services} {f : Timer → Timer} {u : TimerRef} (h : u ≠ tm) :
    (svc.modTimer tm f).timer u = svc.timer u := Function.update_of_ne h ..

/-- A write to other fields of a timer. -/
theorem Services.apply_modTimer {α : Type} (g : Timer → α) {svc : Services} {f : Timer → Timer}
    (hf : ∀ x, g (f x) = g x) (u : TimerRef) : g ((svc.modTimer tm f).timer u) = g (svc.timer u) := by
  by_cases h : u = tm
  · subst h; rw [modTimer_self, hf]
  · rw [modTimer_of_ne h]

/-- Inserting after the node that the loop of `timer_add` stops at is inserting in order.
`pre` is the part of the queue already passed. -/
theorem timerScan_insert (tm : TimerRef) (svc : Services) (pre xs : List TimerRef) (hd : (pre ++ xs).Nodup) :
    (match timerScan svc (svc.timer tm).tick pre.getLast? xs with
      | some prev => (match prev with
        | none => tm :: (pre ++ xs)
        | some p => insertAfter p tm (pre ++ xs))
      | none => (pre ++ xs) ++ [tm]) =
      pre ++ xs.orderedInsert (fun a b => (svc.timer a).tick < (svc.timer b).tick) tm := by
  induction xs generalizing pre with
  | nil => simp [timerScan]
  | cons x xs ih =>
    by_cases hlt : (svc.timer tm).tick < (svc.timer x).tick
    · simp only [timerScan, List.orderedInsert, if_pos hlt]
      rcases List.eq_nil_or_concat pre with rfl | ⟨as, q, rfl⟩
      · rfl
      · rw [List.concat_eq_append, List.append_assoc] at hd
        have hq : q ∉ as := fun hq => (List.nodup_append.mp hd).2.2 q hq q (by simp) rfl
        simp [insertAfter_append hq]
    · simp only [timerScan, List.orderedInsert, if_neg hlt]
      have := ih (pre ++ [x]) (by simpa using hd)
      simpa using this

/-- `timer_add` from its `disable()` on. -/
theorem timerAddInsert_eq (hb : k.core.Balanced) (hd : (k.svc.timers ()).Nodup) : timerAddInsert tm k =
    (do assertThat (tm ∉ k.svc.timers ()) .relink
        return { k with svc := k.svc.timerInserted tm }) := by
  unfold timerAddInsert
  refine congrArg (assertThat _ _ >>= ·) (funext fun _ => ?_)
  have henable : k.core.disable.enable = .ok k.core := hb.enable rfl rfl
  have hticks (u : TimerRef) :
      ((k.svc.modTimer tm fun x => { x with status := .added }).timer u).tick = (k.svc.timer u).tick :=
    Services.apply_modTimer Timer.tick (by exact fun _ => rfl) u
  simp only [Kernel.enable, Kernel.disable, henable, ok_bind]
  refine congrArg Except.ok ?_
  have hins := timerScan_insert tm (k.svc.modTimer tm fun x => { x with status := .added }) [] _ hd
  simp only [hticks, List.nil_append, List.getLast?_nil] at hins
  unfold Services.timerInserted
  rw [← hins]
  simp only [hticks, show (k.svc.modTimer tm fun x => { x with status := .added }).timers = k.svc.timers from rfl]
  congr 2
  cases timerScan (k.svc.modTimer tm fun x => { x with status := .added }) (k.svc.timer tm).tick none
    (k.svc.timers ()) with
  | none => rfl
  | some prev => cases prev <;> rfl

theorem timerAbortAdded_transparent (tm : TimerRef) : Transparent (timerAbortAdded tm) :=
  .ite (fun _ => Iff.rfl)
    (.guard (fun _ => Iff.rfl) (.svc (fun k => { k.svc with timers := k.svc.timers.listUnlink tm }) fun _ => rfl))
    .pure

/-- What `timer_abort` does: remove the timer, if its status says that it is queued. -/
theorem timerAbort_cases (hb : k.core.Balanced) (h : timerAbort tm k = .ok k') :
    ((k.svc.timer tm).status = .added ∧ tm ∈ k.svc.timers () ∧
      k' = { k with svc := { k.svc with timers := k.svc.timers.listUnlink tm } }) ∨
    ((k.svc.timer tm).status ≠ .added ∧ k' = k) := by
  rw [show timerAbort tm k = _ from (timerAbortAdded_transparent tm).critical hb] at h
  unfold timerAbortAdded at h
  by_cases ha : (k.svc.timer tm).status = .added
  · simp only [if_pos ha, timerUnlink, bind_eq_ok, assertThat_eq_ok, pure_eq_ok] at h
    obtain ⟨-, hm, rfl⟩ := h
    exact .inl ⟨ha, hm, rfl⟩
  · rw [if_neg ha, Except.ok.injEq] at h
    exact .inr ⟨ha, h.symm⟩

/-- The data after one pass of the loop of `timer_poll`. -/
def Services.timerFired (svc : Services) (tm : TimerRef) : Services :=
  { svc with timers := svc.timers.listUnlink tm }.modTimer tm fun x => { x with status := .done }

theorem timerFire_eq (k : Kernel) : timerFire tm k =
    match (k.svc.timer tm).task with
    | none => .error .timerTask
    | some t => Kernel.signalSend { k with svc := k.svc.timerFired tm } t (k.svc.timer tm).signal := by
  have hself : (k.svc.timerFired tm).timer tm = { k.svc.timer tm with status := .done } := Services.modTimer_self
  change (match ((k.svc.timerFired tm).timer tm).task with
    | none => Except.error Fault.timerTask
    | some t => Kernel.signalSend { k with svc := k.svc.timerFired tm } t ((k.svc.timerFired tm).timer tm).signal) = _
  rw [hself]

theorem timerFire_transparent (tm : TimerRef) : Transparent (timerFire tm) := by
  have hsome (t : TaskRef) (sg : Signals) :
      Transparent fun k => Kernel.signalSend { k with svc := k.svc.timerFired tm } t sg :=
    .bind (.svc (fun k => k.svc.timerFired tm) fun _ => rfl) (.signalSend t sg)
  constructor
  · intro k hb
    rw [timerFire_eq, timerFire_eq]
    cases ht : (k.svc.timer tm).task with
    | none => simp only [Kernel.disable, ht]; rfl
    | some t =>
      simp only [Kernel.disable, ht]
      exact (hsome t _).disable k hb
  · intro k k' hb h
    rw [timerFire_eq] at h
    cases ht : (k.svc.timer tm).task with
    | none => simp [ht] at h
    | some t =>
      simp only [ht] at h
      exact (hsome t _).balanced k k' hb h

theorem timerPollLoop_transparent (now : Ticks) (xs : List TimerRef) : Transparent (timerPollLoop now xs) := by
  induction xs with
  | nil => exact .pure
  | cons x xs ih =>
    have hstep : timerPollLoop now (x :: xs) = fun k =>
        if now < (k.svc.timer x).tick then pure k else (do timerPollLoop now xs (← timerFire x k)) := rfl
    rw [hstep]
    exact .ite (fun _ => Iff.rfl) .pure ((timerFire_transparent x).bind ih)

/-- The call of `signal_send` for a timer that is due. -/
def Services.Call (svc : Services) (tm : TimerRef) (call : TaskRef × Signals) : Prop :=
  (svc.timer tm).task = some call.1 ∧ (svc.timer tm).signal = call.2

/-- Calls of `signal_send`, one after the other. -/
def signalSends (calls : List (TaskRef × Signals)) (c : Core) : Except Fault Core :=
  calls.foldlM (fun c call => signalSend call.1 call.2 c) c

@[simp] theorem Services.tick_timerFired {svc : Services} (u : TimerRef) :
    ((svc.timerFired tm).timer u).tick = (svc.timer u).tick :=
  Services.apply_modTimer Timer.tick (by exact fun _ => rfl) u

@[simp] theorem Services.task_timerFired {svc : Services} (u : TimerRef) :
    ((svc.timerFired tm).timer u).task = (svc.timer u).task :=
  Services.apply_modTimer Timer.task (by exact fun _ => rfl) u

theorem Services.Call.of_timerFired {svc : Services} {u : TimerRef} {call : TaskRef × Signals}
    (h : (svc.timerFired tm).Call u call) : svc.Call u call := by
  have hsignal : ((svc.timerFired tm).timer u).signal = (svc.timer u).signal :=
    Services.apply_modTimer Timer.signal (by exact fun _ => rfl) u
  exact ⟨(Services.task_timerFired u).symm.trans h.1, hsignal.symm.trans h.2⟩

/-- A poll that finds nothing due changes nothing. -/
theorem Services.polled_of_due_eq_nil {svc : Services} (h : svc.due = []) : svc.polled = svc := by
  have hdrop := List.takeWhile_append_dropWhile
    (p := fun tm => decide ((svc.timer tm).tick ≤ svc.timerNow)) (l := svc.timers ())
  rw [show List.takeWhile _ _ = svc.due from rfl, h, List.nil_append] at hdrop
  unfold polled
  rw [hdrop, h]
  simp

/-- The head of the queue is due: the poll fires it, and goes on with the rest. -/
theorem Services.polled_cons {svc : Services} {xs : List TimerRef} (hq : svc.timers () = tm :: xs)
    (hd : (svc.timer tm).tick ≤ svc.timerNow) :
    svc.due = tm :: (svc.timerFired tm).due ∧ svc.polled = (svc.timerFired tm).polled := by
  have htail : (svc.timerFired tm).timers () = xs := by
    change (svc.timers ()).erase tm = xs
    rw [hq, List.erase_cons_head]
  have hdue : svc.due = tm :: (svc.timerFired tm).due := by
    unfold due
    rw [htail, hq, List.takeWhile_cons_of_pos (by simpa using hd)]
    simp only [tick_timerFired]
    rfl
  refine ⟨hdue, ?_⟩
  unfold polled
  rw [htail, hq, List.dropWhile_cons_of_pos (by simpa using hd), hdue]
  simp only [tick_timerFired]
  congr 1
  funext u
  by_cases hu : u = tm
  · subst hu; simp [timerFired]
  · simp [timerFired, hu, modTimer_of_ne]

/-- The loop of `timer_poll` takes the due timers from the queue and makes one call of
`signal_send` for each of them, in the order of the queue. -/
theorem timerPollLoop_eq_ok {xs : List TimerRef} (hq : k.svc.timers () = xs)
    (h : timerPollLoop k.svc.timerNow xs k = .ok k') :
    k'.svc = k.svc.polled ∧ ∃ calls, List.Forall₂ k.svc.Call k.svc.due calls ∧
      signalSends calls k.core = .ok k'.core := by
  induction xs generalizing k with
  | nil =>
    obtain rfl := Except.ok.inj h
    have hdue : k.svc.due = [] := by simp [Services.due, hq]
    exact ⟨(Services.polled_of_due_eq_nil hdue).symm, [], by rw [hdue]; exact .nil, rfl⟩
  | cons x xs ih =>
    unfold timerPollLoop at h
    by_cases hlt : k.svc.timerNow < (k.svc.timer x).tick
    · rw [if_pos hlt, Except.ok.injEq] at h
      subst h
      have hdue : k.svc.due = [] := by simp [Services.due, hq, BitVec.not_le.mpr hlt]
      exact ⟨(Services.polled_of_due_eq_nil hdue).symm, [], by rw [hdue]; exact .nil, rfl⟩
    · rw [if_neg hlt] at h
      obtain ⟨k₁, h₁, h⟩ := bind_eq_ok.mp h
      rw [timerFire_eq] at h₁
      cases ht : (k.svc.timer x).task with
      | none => simp [ht] at h₁
      | some t =>
        simp only [ht, Kernel.signalSend, bind_eq_ok, pure_eq_ok] at h₁
        obtain ⟨c, hc, rfl⟩ := h₁
        obtain ⟨hdue, hpolled⟩ := Services.polled_cons hq (BitVec.not_lt.mp hlt)
        have hrest : (k.svc.timerFired x).timers () = xs := by
          change (k.svc.timers ()).erase x = xs
          rw [hq, List.erase_cons_head]
        obtain ⟨hsvc, calls, hcalls, hsends⟩ := ih (k := ⟨c, k.svc.timerFired x⟩) hrest h
        refine ⟨hsvc.trans hpolled.symm, (t, (k.svc.timer x).signal) :: calls, ?_, ?_⟩
        · rw [hdue]
          exact .cons ⟨ht, rfl⟩ (hcalls.imp fun _ _ => Services.Call.of_timerFired)
        · exact (bind_of_eq_ok hc _).trans hsends

/-- The loop of `timer_poll` comes to its end if every timer has a task to signal. -/
theorem timerPollLoop_ok (now : Ticks) {xs : List TimerRef} (h : k.core.Settled)
    (ht : ∀ tm ∈ xs, ∃ t, (k.svc.timer tm).task = some t) :
    ∃ k', timerPollLoop now xs k = .ok k' ∧ k'.core.Settled := by
  induction xs generalizing k with
  | nil => exact ⟨k, rfl, h⟩
  | cons x xs ih =>
    unfold timerPollLoop
    by_cases hlt : now < (k.svc.timer x).tick
    · exact ⟨k, if_pos hlt, h⟩
    · obtain ⟨t, htask⟩ := ht x List.mem_cons_self
      obtain ⟨c, hc, hset⟩ := h.signalSend t (k.svc.timer x).signal
      have hfire : timerFire x k = .ok ⟨c, k.svc.timerFired x⟩ := by
        rw [timerFire_eq]
        simp only [htask, Kernel.signalSend, hc, ok_bind]
        rfl
      rw [if_neg hlt, bind_of_eq_ok hfire]
      refine ih hset fun u hu => ?_
      rw [Services.task_timerFired]
      exact ht u (List.mem_cons_of_mem _ hu)

/-- So does `timer_poll`. -/
theorem timerPoll_ok (h : k.core.Settled) (ht : ∀ tm ∈ k.svc.timers (), ∃ t, (k.svc.timer tm).task = some t) :
    ∃ k', timerPoll k = .ok k' ∧ k'.core.Settled := by
  rw [show timerPoll k = _ from (timerPollLoop_transparent k.svc.timerNow (k.svc.timers ())).critical h.balanced]
  exact timerPollLoop_ok k.svc.timerNow h ht

/-- The clock has moved on. -/
def Services.clocked (svc : Services) : Services := { svc with timerNow := svc.timerNow + 1 }

/-- What `timer_poll` does: take the timers that are due from the queue, with one call of
`signal_send` for each. -/
theorem timerPoll_eq_ok (hb : k.core.Balanced) (h : timerPoll k = .ok k') :
    k'.svc = k.svc.polled ∧ ∃ calls, List.Forall₂ k.svc.Call k.svc.due calls ∧
      signalSends calls k.core = .ok k'.core := by
  rw [show timerPoll k = _ from (timerPollLoop_transparent k.svc.timerNow (k.svc.timers ())).critical hb] at h
  exact timerPollLoop_eq_ok rfl h

/-- What `TIM2_IRQHandler` does: advance the clock, and take the timers that are due then
from the queue, with one call of `signal_send` for each. -/
theorem tim2IRQHandler_eq_ok (hb : k.core.Balanced) (h : tim2IRQHandler k = .ok k') :
    k'.svc = k.svc.clocked.polled ∧ ∃ calls, List.Forall₂ k.svc.clocked.Call k.svc.clocked.due calls ∧
      signalSends calls k.core = .ok k'.core := timerPoll_eq_ok (k := ⟨k.core, k.svc.clocked⟩) hb h

/-- The signal that `timer_allocate` and `msgport_init` take is one bit. -/
theorem searchSignal_ne_zero {alloc : Signals} {n : ℕ} (hn : n ≤ 15) (h : (searchSignal alloc n).1 ≠ -1) :
    1#16 <<< (searchSignal alloc n).1.toNat ≠ 0#16 := by
  have hbit : ∀ i ≤ 15, 1#16 <<< i ≠ 0#16 := by decide
  induction n with
  | zero =>
    unfold searchSignal at h ⊢
    by_cases hz : (1#16 <<< 0) &&& alloc ≠ 0
    · rw [if_pos hz] at h; exact absurd rfl h
    · rw [if_neg hz]; exact hbit 0 (by omega)
  | succ n ih =>
    unfold searchSignal at h ⊢
    by_cases hz : (1#16 <<< (n + 1)) &&& alloc ≠ 0
    · rw [if_pos hz] at h ⊢; exact ih (by omega) h
    · rw [if_neg hz]; exact hbit (n + 1) hn

theorem signalAllocate_running (hb : k.core.Balanced) {m n : ℤ} {c : Core}
    (h : signalAllocate m k.core = .ok (n, c)) : c.running = k.core.running := by
  simp only [Core.signalAllocate_eq hb, bind_eq_ok, pure_eq_ok] at h
  obtain ⟨-, -, heq⟩ := h
  obtain ⟨-, rfl⟩ := Prod.mk.inj heq
  rfl

/-- `signal_allocate(-1)` finds a signal, or returns `-1`. -/
theorem signalAllocate_any (hb : k.core.Balanced) {n : ℤ} {c : Core}
    (h : signalAllocate (-1) k.core = .ok (n, c)) (hn : n ≠ -1) : 1#16 <<< n.toNat ≠ 0#16 := by
  simp only [Core.signalAllocate_eq hb, bind_eq_ok, pure_eq_ok] at h
  obtain ⟨-, -, heq⟩ := h
  obtain ⟨rfl, -⟩ := Prod.mk.inj heq
  exact searchSignal_ne_zero (le_refl 15) hn

/-- What `timer_allocate` does: the timer is the running task's, with a signal of it. -/
theorem timerAllocate_eq_ok (h : timerAllocate tm k = .ok k') :
    ∃ n c sg, signalAllocate (-1) k.core = .ok (n, c) ∧ k' = ⟨c, k.svc.modTimer tm fun x =>
      { x with task := some k.core.running, signal := sg, op := .none, status := .initialized }⟩ := by
  simp only [timerAllocate, bind_eq_ok, pure_eq_ok] at h
  obtain ⟨⟨n, c⟩, hc, -, -, rfl⟩ := h
  refine ⟨n, c, 1#16 <<< n.toNat, hc, ?_⟩
  simp [Services.modTimer]

/-- What `timer_free` does. -/
theorem timerFree_eq_ok (h : timerFree tm k = .ok k') :
    ∃ c, signalFree (k.svc.timer tm).signal k.core = .ok c ∧ k' = ⟨c, k.svc.modTimer tm fun x =>
      { x with task := none, op := .none, status := .invalid }⟩ := by
  simp only [timerFree, bind_eq_ok, pure_eq_ok, Services.modTimer_self] at h
  obtain ⟨c, hc, rfl⟩ := h
  exact ⟨c, hc, by simp [Services.modTimer]⟩

/-- What `timer_add` does first: fix the tick of a delay. -/
theorem timerAddStart_eq_ok {svc svc' : Services} (h : timerAddStart tm svc = .ok svc') :
    (svc.timer tm).status ≠ .added ∧ (svc.timer tm).status ≠ .invalid ∧
      ∃ tick, svc' = svc.modTimer tm fun x => { x with tick := tick } := by
  simp only [timerAddStart, bind_eq_ok, assertThat_eq_ok, pure_eq_ok] at h
  obtain ⟨-, -, -, hs, rfl⟩ := h
  refine ⟨by rintro ha; rw [ha] at hs; simp at hs, by rintro ha; rw [ha] at hs; simp at hs, ?_⟩
  by_cases hd : (svc.timer tm).op = .delay
  · exact ⟨svc.timerNow + (svc.timer tm).delay, by rw [if_pos hd]; rfl⟩
  · refine ⟨(svc.timer tm).tick, ?_⟩
    rw [if_neg hd]
    simp [Services.modTimer]

end

/-- What `msgport_init` does: the port is the running task's, with a signal of it. -/
theorem msgportInit_eq_ok {k k' : Kernel} {port : PortRef} (hb : k.core.Balanced) (h : msgportInit port k = .ok k') :
    ∃ n c sg, signalAllocate (-1) k.core = .ok (n, c) ∧ sg ≠ 0#16 ∧ k' = ⟨c, { k.svc with
      port := Function.update k.svc.port port ⟨some k.core.running, sg, .signal⟩
      messageList := Function.update k.svc.messageList port [] }⟩ := by
  simp only [msgportInit, bind_eq_ok, pure_eq_ok] at h
  obtain ⟨⟨n, c⟩, hc, u, hn, rfl⟩ := h
  exact ⟨n, c, 1#16 <<< n.toNat, hc, signalAllocate_any hb hc (assertThat_eq_ok.mp hn), by
    rw [signalAllocate_running hb hc]⟩

end Martos
