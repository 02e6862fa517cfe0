import Martos.Services.Messages

/-!
# Timers fire once, at the first poll after their tick

`timer_add` keeps the queue sorted by tick and `timer_poll` takes timers from its front up
to the first later tick, so one misplaced timer would hold up all those behind it; and an
interrupt between the test of `timer_add` and its critical section puts a timer that is
already due into the queue. `Timed` is the invariant: the queue is in order, and every
timer on it is in use, with status `TIMER_ADDED` and a task to signal.

The timers' ticks are compared as the code compares them.
-/

namespace Martos

open Checked Transition

/-! ### The queue as a priority queue -/

/-- The timer with the earliest tick comes first. -/
def Services.urgency (svc : Services) (tm : TimerRef) : ℤ := -(svc.timer tm).tick.toNat

section

variable {svc svc' : Services} {tm u : TimerRef}

theorem Services.urgency_lt : svc.urgency u < svc.urgency tm ↔ (svc.timer tm).tick < (svc.timer u).tick := by
  unfold urgency
  rw [BitVec.lt_def]
  omega

theorem Services.urgency_le : svc.urgency u ≤ svc.urgency tm ↔ (svc.timer tm).tick ≤ (svc.timer u).tick := by
  unfold urgency
  rw [BitVec.le_def]
  omega

/-- `timer_add` inserts by urgency. -/
theorem Services.timerInserted_timers :
    (svc.timerInserted tm).timers = svc.timers.listEnqueue svc.urgency () tm := by
  simp only [timerInserted, Seqs.listEnqueue, urgency_lt]

theorem Services.timerInserted_timer :
    (svc.timerInserted tm).timer = (svc.modTimer tm fun x => { x with status := .added }).timer := rfl

theorem Services.mem_due_of_mem (h : tm ∈ svc.due) : tm ∈ svc.timers () :=
  (List.takeWhile_sublist _).subset h

theorem Services.polled_timer_of_mem (h : tm ∈ svc.due) :
    svc.polled.timer tm = { svc.timer tm with status := .done } := if_pos h

theorem Services.polled_timer_of_not_mem (h : tm ∉ svc.due) : svc.polled.timer tm = svc.timer tm := if_neg h

/-- In a sorted queue the poll finds exactly the timers whose tick has come: behind a timer that
is not due no timer is due. -/
theorem Services.polled_sorted (hs : Seqs.Descending svc.urgency (svc.timers ())) :
    svc.due = (svc.timers ()).filter (fun tm => decide ((svc.timer tm).tick ≤ svc.timerNow)) ∧
    svc.polled.timers () = (svc.timers ()).filter fun tm => !decide ((svc.timer tm).tick ≤ svc.timerNow) := by
  have hdown : (svc.timers ()).Pairwise fun a b =>
      decide ((svc.timer b).tick ≤ svc.timerNow) → decide ((svc.timer a).tick ≤ svc.timerNow) := by
    refine hs.imp fun {a b} hab hb => ?_
    rw [decide_eq_true_eq] at hb ⊢
    exact BitVec.le_trans (urgency_le.mp hab) hb
  exact takeWhile_eq_filter hdown

theorem Services.mem_due_iff (hs : Seqs.Descending svc.urgency (svc.timers ())) :
    tm ∈ svc.due ↔ tm ∈ svc.timers () ∧ (svc.timer tm).tick ≤ svc.timerNow := by
  rw [(polled_sorted hs).1, List.mem_filter, decide_eq_true_eq]

/-- What stays in the queue after a poll. -/
theorem Services.mem_polled_iff (hd : (svc.timers ()).Nodup) :
    tm ∈ svc.polled.timers () ↔ tm ∈ svc.timers () ∧ tm ∉ svc.due := by
  have hsplit : svc.due ++ svc.polled.timers () = svc.timers () := List.takeWhile_append_dropWhile
  rw [← hsplit] at hd ⊢
  constructor
  · intro hm
    exact ⟨List.mem_append_right _ hm, fun hdue => (List.nodup_append.mp hd).2.2 tm hdue tm hm rfl⟩
  · rintro ⟨hm, hno⟩
    exact (List.mem_append.mp hm).resolve_left hno

end

/-! ### The invariant -/

/-- The function is inside `timer_add(tm)`. -/
def ServicePc.Adds (tm : TimerRef) (p : ServicePc) : Prop :=
  ∃ delay, p = .timerAddCheck tm delay ∨ p = .timerAddInsert tm delay

/-- `timer_free` is called on timers that are not in use. The last act of `timer_delay` is
such a call too: its `signal_wait` has returned because of the timer, not because somebody
else has sent the timer's signal. -/
def FreesUnused (s : Sys) (e : SysEvent) : Prop :=
  match e, s.spc s.cs.core.running with
  | .resume, .timerDelayFree tm => s.TimerFree tm
  | _, _ => True

instance (s : Sys) (e : SysEvent) : Decidable (FreesUnused s e) :=
  decidable_of_iff ((match e, s.spc s.cs.core.running with
    | .resume, .timerDelayFree tm => decide (s.TimerFree tm)
    | _, _ => true) = true) (by
      unfold FreesUnused
      split <;> simp)

/-- The timers. -/
structure Timed (s : Sys) : Prop where
  /-- The queue is sorted by tick. -/
  sorted : Seqs.Descending s.svc.urgency (s.svc.timers ())
  /-- The timers in the queue have been added. -/
  queued : ∀ tm ∈ s.svc.timers (), (s.svc.timer tm).status = .added ∧ s.adding tm = false
  /-- A timer that has been allocated has a task to signal. -/
  allocated : ∀ tm, (s.svc.timer tm).status ≠ .invalid → ∃ t, (s.svc.timer tm).task = some t
  /-- The timers being added. -/
  adders : ∀ t tm, (s.spc t).Adds tm → s.adding tm = true ∧ (s.svc.timer tm).status ≠ .invalid
  /-- One task adds a timer. -/
  unique : ∀ t u tm, (s.spc t).Adds tm → (s.spc u).Adds tm → t = u

section

variable {s s' : Sys} {e : SysEvent} {tm : TimerRef}

theorem FreesUnused.timerFree (h : FreesUnused s .resume) (hp : s.spc s.cs.core.running = .timerDelayFree tm) :
    s.TimerFree tm := by
  simpa only [FreesUnused, hp] using h

/-- Timers leave the queue, or `timer_add` inserts one. -/
theorem SysEffect.timers_cases (heff : SysEffect s e s') : (s'.svc.timers ()).Sublist (s.svc.timers ()) ∨
    ∃ tm delay, e = .resume ∧ s.spc s.cs.core.running = .timerAddInsert tm delay ∧ tm ∉ s.svc.timers () ∧
      s' = (s.update s.cs (s.svc.timerInserted tm)).finishAdd tm delay := by
  cases heff with
  | @addInserts tm delay hu hp hm => exact .inr ⟨tm, delay, rfl, hp, hm, rfl⟩
  | aborts hc ha hm => exact .inl (List.erase_sublist ..)
  | tim2 hm hc hr htr => exact .inl (List.dropWhile_sublist _)
  | @write w hu hw => cases w <;> exact .inl (List.Sublist.refl _)
  | _ => exact .inl (List.Sublist.refl _)

/-- A timer that stays in the queue is not written to. -/
theorem Timed.kept (h : Timed s) (hs : Sound s) (hok : FreesUnused s e) (heff : SysEffect s e s')
    (hm : tm ∈ s.svc.timers ()) (hm' : tm ∈ s'.svc.timers ()) :
    s'.svc.timer tm = s.svc.timer tm ∧ s'.adding tm = s.adding tm := by
  obtain ⟨hst, hadd⟩ := h.queued tm hm
  have hfree {u : TimerRef} (hf : s.TimerFree u) : tm ≠ u := fun he => hf.2 (he ▸ hm)
  have hadder {u : TimerRef} (ha : (s.spc s.cs.core.running).Adds u) : tm ≠ u := by
    rintro rfl
    rw [(h.adders _ _ ha).1] at hadd
    cases hadd
  cases heff with
  | timerAllocate hu hf hst => exact ⟨Function.update_of_ne (hfree hf) .., rfl⟩
  | timerFree hu hf hst => exact ⟨Function.update_of_ne (hfree hf) .., rfl⟩
  | @addStarts u tick hu ha hst' =>
    have hne : tm ≠ u := by rintro rfl; exact hst'.1 hst
    exact ⟨Function.update_of_ne hne .., Function.update_of_ne hne ..⟩
  | delayStarts hu hf hd hst =>
    exact ⟨Function.update_of_ne (hfree hf) .., Function.update_of_ne (hfree hf) ..⟩
  | addElapsed hu hp he =>
    have hne := hadder ⟨_, .inl hp⟩
    exact ⟨Function.update_of_ne hne .., Function.update_of_ne hne ..⟩
  | @addInserts u delay hu hp hno =>
    have hne : tm ≠ u := fun he => hno (he ▸ hm)
    exact ⟨Function.update_of_ne hne .., Function.update_of_ne hne ..⟩
  | delayFrees hu hp hst => exact ⟨Function.update_of_ne (hfree (hok.timerFree hp)) .., rfl⟩
  | tim2 hp hc hr htr =>
    have hd : (s.svc.clocked.timers ()).Nodup := hs.timers
    exact ⟨Services.polled_timer_of_not_mem ((Services.mem_polled_iff hd).mp hm').2, rfl⟩
  | @write w hu hw =>
    cases w with
    | timer u op delay tick => exact ⟨Function.update_of_ne (hfree hw) .., rfl⟩
    | _ => exact ⟨rfl, rfl⟩
  | _ => exact ⟨rfl, rfl⟩

theorem Timed.sorted_step (h : Timed s) (hs : Sound s) (hok : FreesUnused s e) (heff : SysEffect s e s') :
    Seqs.Descending s'.svc.urgency (s'.svc.timers ()) := by
  rcases heff.timers_cases with hsub | ⟨tm, delay, -, -, -, rfl⟩
  · have hurg (u : TimerRef) (hu : u ∈ s'.svc.timers ()) : s'.svc.urgency u = s.svc.urgency u := by
      rw [Services.urgency, (h.kept hs hok heff (hsub.subset hu) hu).1]
      rfl
    exact Seqs.Descending.congr (List.Pairwise.sublist hsub h.sorted) hurg
  · have hurg (u : TimerRef) : (s.svc.timerInserted tm).urgency u = s.svc.urgency u := by
      have htick : ((s.svc.timerInserted tm).timer u).tick = (s.svc.timer u).tick := by
        rw [Services.timerInserted_timer]
        exact Services.apply_modTimer Timer.tick (by exact fun _ => rfl) u
      rw [Services.urgency, htick]
      rfl
    change Seqs.Descending (s.svc.timerInserted tm).urgency ((s.svc.timerInserted tm).timers ())
    rw [Services.timerInserted_timers]
    exact Seqs.Descending.congr (h.sorted.listEnqueue tm) fun u _ => hurg u

theorem Timed.queued_step (h : Timed s) (hs : Sound s) (hok : FreesUnused s e) (heff : SysEffect s e s')
    (hm' : tm ∈ s'.svc.timers ()) : (s'.svc.timer tm).status = .added ∧ s'.adding tm = false := by
  by_cases hm : tm ∈ s.svc.timers ()
  · obtain ⟨ht, ha⟩ := h.kept hs hok heff hm hm'
    rw [ht, ha]
    exact h.queued tm hm
  · rcases heff.timers_cases with hsub | ⟨u, delay, -, -, -, rfl⟩
    · exact absurd (hsub.subset hm') hm
    · obtain rfl : tm = u := by
        change tm ∈ (s.svc.timerInserted u).timers () at hm'
        rw [Services.timerInserted_timers, Seqs.mem_listEnqueue] at hm'
        exact (hm'.resolve_left hm).2
      refine ⟨?_, Function.update_self ..⟩
      change ((s.svc.timerInserted tm).timer tm).status = .added
      rw [Services.timerInserted_timer, Services.modTimer_self]

theorem Timed.allocated_step (h : Timed s) (heff : SysEffect s e s') (tm : TimerRef)
    (hst : (s'.svc.timer tm).status ≠ .invalid) : ∃ t, (s'.svc.timer tm).task = some t := by
  -- a write to the timer `u`
  have hmod {u : TimerRef} {x : Timer} (hst : (Function.update s.svc.timer u x tm).status ≠ .invalid)
      (hu : x.status ≠ .invalid → ∃ t, x.task = some t) : ∃ t, (Function.update s.svc.timer u x tm).task = some t := by
    by_cases htu : tm = u
    · subst htu
      rw [Function.update_self] at hst ⊢
      exact hu hst
    · rw [Function.update_of_ne htu] at hst ⊢
      exact h.allocated tm hst
  have hadder {u : TimerRef} (ha : (s.spc s.cs.core.running).Adds u) : ∃ t, (s.svc.timer u).task = some t :=
    h.allocated u (h.adders _ _ ha).2
  cases heff with
  | timerAllocate hu hf hc => exact hmod hst fun _ => ⟨_, rfl⟩
  | timerFree hu hf hc => exact hmod hst fun hne => absurd rfl hne
  | addStarts hu ha hs => exact hmod hst fun _ => h.allocated _ hs.2
  | delayStarts hu hf hd hc => exact hmod hst fun _ => ⟨_, rfl⟩
  | addElapsed hu hp he => exact hmod hst fun _ => hadder ⟨_, .inl hp⟩
  | addInserts hu hp hm => exact hmod hst fun _ => hadder ⟨_, .inr hp⟩
  | delayFrees hu hp hc => exact hmod hst fun hne => absurd rfl hne
  | tim2 hp hc hr htr =>
    change (s.svc.clocked.polled.timer tm).status ≠ _ at hst
    change ∃ t, (s.svc.clocked.polled.timer tm).task = some t
    by_cases hdue : tm ∈ s.svc.clocked.due
    · have hmem : tm ∈ s.svc.clocked.timers () := Services.mem_due_of_mem hdue
      rw [Services.polled_timer_of_mem hdue]
      exact h.allocated tm (by rw [(h.queued tm hmem).1]; decide)
    · rw [Services.polled_timer_of_not_mem hdue] at hst ⊢
      exact h.allocated tm hst
  | @write w hu hw =>
    cases w with
    | timer u op delay tick => exact hmod hst fun hne => h.allocated u hne
    | _ => exact h.allocated tm hst
  | _ => exact h.allocated tm hst

/-- Who is inside `timer_add` after a step: the task that has just begun, or one that was
before. -/
theorem Timed.adds_step (h : Timed s) (hok : FreesUnused s e) (heff : SysEffect s e s') {t : TaskRef}
    (ha : (s'.spc t).Adds tm) : (s'.adding tm = true ∧ (s'.svc.timer tm).status ≠ .invalid) ∧
    ((t = s.cs.core.running ∧ s.adding tm = false) ∨ (s.spc t).Adds tm) := by
  -- the running task moves to a point outside of `timer_add`
  have hgoto {p : ServicePc} (ha : (Function.update s.spc s.cs.core.running p t).Adds tm) (hp : ¬ p.Adds tm) :
      t ≠ s.cs.core.running ∧ (s.spc t).Adds tm := by
    by_cases ht : t = s.cs.core.running
    · rw [ht, Function.update_self] at ha; exact absurd ha hp
    · rw [Function.update_of_ne ht] at ha; exact ⟨ht, ha⟩
  have hquiet {p : ServicePc} (ha : (Function.update s.spc s.cs.core.running p t).Adds tm) (hp : ¬ p.Adds tm) :
      (s.adding tm = true ∧ (s.svc.timer tm).status ≠ .invalid) ∧
      ((t = s.cs.core.running ∧ s.adding tm = false) ∨ (s.spc t).Adds tm) :=
    ⟨h.adders t tm (hgoto ha hp).2, .inr (hgoto ha hp).2⟩
  -- a write to another timer
  have hwrite {u : TimerRef} {x : Timer} (ha : (s.spc t).Adds tm) (hne : tm ≠ u) :
      (Function.update s.svc.timer u x tm).status ≠ .invalid := by
    rw [Function.update_of_ne hne]
    exact (h.adders t tm ha).2
  have hfree {u : TimerRef} (ha : (s.spc t).Adds tm) (hf : s.TimerFree u) : tm ≠ u := by
    rintro rfl
    have := (h.adders t tm ha).1
    rw [hf.1] at this
    cases this
  -- the running task comes out of `timer_add(u)`
  have hout {u : TimerRef} (hrun : (s.spc s.cs.core.running).Adds u) (ht : t ≠ s.cs.core.running)
      (ha : (s.spc t).Adds tm) : tm ≠ u := by
    rintro rfl
    exact ht (h.unique _ _ tm ha hrun)
  have huser : ¬ ServicePc.user.Adds tm := by rintro ⟨d, hp | hp⟩ <;> cases hp
  have hfinish {u : TimerRef} {d : Bool} : ¬ (if d = true then ServicePc.timerDelayTest u else .user).Adds tm := by
    rintro ⟨d', hp | hp⟩ <;> cases d <;> cases hp
  cases heff with
  | semQueued hu hr hd hn => exact hquiet ha (by rintro ⟨d, hp | hp⟩ <;> cases hp)
  | semBlocks hu hp hst => exact hquiet ha (by rintro ⟨d, hp | hp⟩ <;> cases hp)
  | semReturns hu hp => exact hquiet ha huser
  | portWaits hu hp hd hst => exact hquiet ha (by rintro ⟨d, hp | hp⟩ <;> cases hp)
  | portReturns hu hp hl hst => exact hquiet ha huser
  | delayWaits hu hp hst' hst => exact hquiet ha (by rintro ⟨d, hp | hp⟩ <;> cases hp)
  | delaySkips hu hp => exact hquiet ha (by rintro ⟨d, hp | hp⟩ <;> cases hp)
  | timerAllocate hu hf hst => exact ⟨⟨(h.adders t tm ha).1, hwrite ha (hfree ha hf)⟩, .inr ha⟩
  | timerFree hu hf hst => exact ⟨⟨(h.adders t tm ha).1, hwrite ha (hfree ha hf)⟩, .inr ha⟩
  | delayFrees hu hp hst =>
    have hold := (hgoto ha huser).2
    exact ⟨⟨(h.adders t tm hold).1, hwrite hold (hfree hold (hok.timerFree hp))⟩, .inr hold⟩
  | @addStarts u tick hu hno hs =>
    have hstatus : ((s.svc.modTimer u fun x => { x with tick := tick }).timer tm).status = (s.svc.timer tm).status :=
      Services.apply_modTimer Timer.status (by exact fun _ => rfl) tm
    change (Function.update s.adding u true tm = true ∧
      ((s.svc.modTimer u fun x => { x with tick := tick }).timer tm).status ≠ .invalid) ∧ _
    rw [hstatus]
    by_cases hnew : (ServicePc.timerAddCheck u false).Adds tm
    · obtain ⟨d, hp | hp⟩ := hnew <;> cases hp
      refine ⟨⟨Function.update_self .., hs.2⟩, ?_⟩
      by_cases ht : t = s.cs.core.running
      · exact .inl ⟨ht, hno⟩
      · exact .inr (by simpa [Sys.goto, ht] using ha)
    · obtain ⟨-, hold⟩ := hgoto ha hnew
      have hne : tm ≠ u := fun he => hnew ⟨false, .inl (by rw [he])⟩
      exact ⟨⟨(Function.update_of_ne hne ..).trans (h.adders t tm hold).1, (h.adders t tm hold).2⟩, .inr hold⟩
  | @delayStarts u ticks tick sg cs hu hf hd hst =>
    by_cases hnew : (ServicePc.timerAddCheck u true).Adds tm
    · obtain ⟨d, hp | hp⟩ := hnew <;> cases hp
      refine ⟨⟨Function.update_self .., ?_⟩, ?_⟩
      · change (Function.update s.svc.timer tm _ tm).status ≠ .invalid
        rw [Function.update_self]
        simp
      · by_cases ht : t = s.cs.core.running
        · exact .inl ⟨ht, hf.1⟩
        · exact .inr (by simpa [Sys.goto, Sys.update, ht] using ha)
    · obtain ⟨-, hold⟩ := hgoto ha hnew
      have hne := hfree hold hf
      exact ⟨⟨(Function.update_of_ne hne ..).trans (h.adders t tm hold).1, hwrite hold hne⟩, .inr hold⟩
  | addElapsed hu hp he =>
    obtain ⟨ht, hold⟩ := hgoto ha hfinish
    have hne := hout ⟨_, .inl hp⟩ ht hold
    exact ⟨⟨(Function.update_of_ne hne ..).trans (h.adders t tm hold).1, hwrite hold hne⟩, .inr hold⟩
  | @addPasses u d hu hp he =>
    have hold : (s.spc t).Adds tm := by
      by_cases ht : t = s.cs.core.running
      · subst ht
        have hnow : (ServicePc.timerAddInsert u d).Adds tm := by simpa [Sys.goto] using ha
        obtain ⟨d', hq | hq⟩ := hnow <;> cases hq
        exact ⟨d, .inl hp⟩
      · simpa [Sys.goto, ht] using ha
    exact ⟨h.adders t tm hold, .inr hold⟩
  | addInserts hu hp hm =>
    obtain ⟨ht, hold⟩ := hgoto ha hfinish
    have hne := hout ⟨_, .inr hp⟩ ht hold
    exact ⟨⟨(Function.update_of_ne hne ..).trans (h.adders t tm hold).1, hwrite hold hne⟩, .inr hold⟩
  | tim2 hm hc hr htr =>
    refine ⟨⟨(h.adders t tm ha).1, ?_⟩, .inr ha⟩
    change (s.svc.clocked.polled.timer tm).status ≠ .invalid
    by_cases hdue : tm ∈ s.svc.clocked.due
    · rw [Services.polled_timer_of_mem hdue]; simp
    · rw [Services.polled_timer_of_not_mem hdue]; exact (h.adders t tm ha).2
  | @write w hu hw =>
    cases w with
    | timer u op delay tick => exact ⟨⟨(h.adders t tm ha).1, hwrite ha (hfree ha hw)⟩, .inr ha⟩
    | _ => exact ⟨h.adders t tm ha, .inr ha⟩
  | _ => exact ⟨h.adders t tm ha, .inr ha⟩

theorem Timed.unique_step (h : Timed s) (hok : FreesUnused s e) (heff : SysEffect s e s') {t u : TaskRef}
    (ht : (s'.spc t).Adds tm) (hu : (s'.spc u).Adds tm) : t = u := by
  have hnot {v : TaskRef} (hv : (s.spc v).Adds tm) (hno : s.adding tm = false) : False := by
    have := (h.adders v tm hv).1
    rw [hno] at this
    cases this
  rcases (h.adds_step hok heff ht).2 with ⟨rfl, hno⟩ | ht <;> rcases (h.adds_step hok heff hu).2 with ⟨rfl, hno'⟩ | hu
  · rfl
  · exact (hnot hu hno).elim
  · exact (hnot ht hno').elim
  · exact h.unique t u tm ht hu

/-- Every step keeps the timers in order. -/
theorem Timed.step (h : Timed s) (hs : Sound s) (hok : FreesUnused s e) (heff : SysEffect s e s') : Timed s' where
  sorted := h.sorted_step hs hok heff
  queued _ hm := h.queued_step hs hok heff hm
  allocated := h.allocated_step heff
  adders _ _ ha := (h.adds_step hok heff ha).1
  unique _ _ _ ht hu := h.unique_step hok heff ht hu

theorem Timed.run {cfg : Config} {c : Core} {tr : List (Move Sys SysEvent)} (h : martosPre cfg = .ok c)
    (hr : Run (Restrict FreesUnused Sys.Step) (Sys.start c) tr s) : Sound s ∧ Timed s := by
  refine hr.invariant (P := fun s => Sound s ∧ Timed s) ⟨.start h, ?_⟩
    fun s e s' ⟨hs, ht⟩ ⟨hok, hst⟩ => ⟨hs.step hst, ht.step hs hok (hs.effect hst)⟩
  have hnot {t : TaskRef} {tm : TimerRef} : ¬ ((Sys.start c).spc t).Adds tm := by rintro ⟨d, hp | hp⟩ <;> cases hp
  exact {
    sorted := List.Pairwise.nil
    queued := fun _ hm => nomatch hm
    allocated := fun _ hne => absurd rfl hne
    adders := fun _ _ ha => absurd ha hnot
    unique := fun _ _ _ ha => absurd ha hnot }

/-! ### Polls -/

/-- The timers which the poll in a move takes from the queue, if it has one. -/
def Sys.fired (m : Move Sys SysEvent) : List TimerRef :=
  match m.event with
  | .tim2 => m.pre.svc.clocked.due
  | _ => []

/-- The move is a poll, and the clock has come to `tick`. -/
def Sys.Polls (tick : Ticks) (m : Move Sys SysEvent) : Prop := m.event = .tim2 ∧ tick ≤ m.post.svc.timerNow

/-- In the move `timer_add` inserts the timer. -/
def Sys.Inserts (tm : TimerRef) (m : Move Sys SysEvent) : Prop :=
  m.event = .resume ∧ ∃ delay, m.pre.spc m.pre.cs.core.running = .timerAddInsert tm delay

/-- In the move `timer_add` finds the timer's tick elapsed. -/
def Sys.FindsElapsed (tm : TimerRef) (m : Move Sys SysEvent) : Prop :=
  m.event = .resume ∧ (∃ delay, m.pre.spc m.pre.cs.core.running = .timerAddCheck tm delay) ∧
    timerElapsed tm m.pre.svc = true

theorem Sys.mem_timers_of_mem_fired {m : Move Sys SysEvent} (h : tm ∈ Sys.fired m) : tm ∈ m.pre.svc.timers () := by
  unfold Sys.fired at h
  split at h
  · have hm : tm ∈ m.pre.svc.clocked.timers () := Services.mem_due_of_mem h
    exact hm
  · exact nomatch h

/-- What a poll does: one call of `signal_send` for each timer it takes from the queue. -/
theorem Sound.tim2_step (h : Sound s) (hst : s.Step .tim2 s') : s'.svc = s.svc.clocked.polled ∧
    ∃ calls ctr, List.Forall₂ s.svc.clocked.Call s.svc.clocked.due calls ∧ Run CoreSys.Step s.cs ctr s'.cs ∧
      ctr.map Move.event = calls.map fun call => .isrSignalSend call.1 call.2 := by
  cases h.effect hst with
  | @tim2 calls ctr c hm hc hr htr => exact ⟨rfl, calls, ctr, hc, hr, htr⟩
  | semInit hc => cases hc.service_eq
  | requests hc => cases hc.service_eq
  | released hc hn => cases hc.service_eq
  | grants hc hn hh hs => cases hc.service_eq
  | got hc => cases hc.service_eq
  | sent hc hm ha hs => rcases hc with hc | ⟨hc, -⟩ <;> cases hc.service_eq
  | aborts hc ha hm => cases hc.service_eq
  | abortsNot hc ha => cases hc.service_eq

/-- A timer in the queue is fired by a poll exactly when its tick has come. -/
theorem Timed.fired_iff (h : Timed s) (hs : Sound s) (hst : s.Step e s') (hm : tm ∈ s.svc.timers ()) :
    tm ∈ Sys.fired ⟨s, e, s'⟩ ↔ Sys.Polls (s.svc.timer tm).tick ⟨s, e, s'⟩ := by
  have hsorted : Seqs.Descending s.svc.clocked.urgency (s.svc.clocked.timers ()) := h.sorted
  cases e with
  | tim2 =>
    have hnow : s'.svc.timerNow = s.svc.clocked.timerNow := by rw [(hs.tim2_step hst).1]; rfl
    change tm ∈ s.svc.clocked.due ↔ _
    rw [Services.mem_due_iff hsorted]
    unfold Sys.Polls
    rw [hnow]
    exact ⟨fun hd => ⟨rfl, hd.2⟩, fun hp => ⟨hm, hp.2⟩⟩
  | _ => exact ⟨nofun, fun hp => nomatch hp.1⟩

/-- A timer in the queue stays there, unless it is fired or aborted. -/
theorem Timed.stays (hs : Sound s) (hst : s.Step e s') (hm : tm ∈ s.svc.timers ())
    (hna : e.service ≠ some (.timerAbort tm)) (hf : tm ∉ Sys.fired ⟨s, e, s'⟩) : tm ∈ s'.svc.timers () := by
  have heff := hs.effect hst
  clear hst
  cases heff with
  | @addInserts u delay hu hp hno =>
    change tm ∈ (s.svc.timerInserted u).timers ()
    rw [Services.timerInserted_timers, Seqs.mem_listEnqueue]
    exact .inl hm
  | @aborts e u hc ha hu =>
    have hne : tm ≠ u := by
      rintro rfl
      exact hna hc.service_eq
    exact (List.mem_erase_of_ne hne).mpr hm
  | tim2 hp hc hr htr =>
    have hd : (s.svc.clocked.timers ()).Nodup := hs.timers
    exact (Services.mem_polled_iff hd).mpr ⟨hm, hf⟩
  | @write w hu hw => cases w <;> exact hm
  | _ => exact hm

/-- A timer comes into the queue by an insertion only. -/
theorem SysEffect.not_queued (heff : SysEffect s e s') (hm : tm ∉ s.svc.timers ())
    (hno : ¬ Sys.Inserts tm ⟨s, e, s'⟩) : tm ∉ s'.svc.timers () := by
  rcases heff.timers_cases with hsub | ⟨u, delay, he, hp, -, rfl⟩
  · exact fun hmem => hm (hsub.subset hmem)
  · intro hmem
    change tm ∈ (s.svc.timerInserted u).timers () at hmem
    rw [Services.timerInserted_timers, Seqs.mem_listEnqueue] at hmem
    obtain rfl : tm = u := (hmem.resolve_left hm).2
    exact hno ⟨he, delay, hp⟩

end

section

variable {s₀ s : Sys} {tr : List (Move Sys SysEvent)} {tm : TimerRef}

theorem Timed.invariant (h : Sound s₀ ∧ Timed s₀) (hr : Run (Restrict FreesUnused Sys.Step) s₀ tr s) :
    Sound s ∧ Timed s :=
  hr.invariant (P := fun s => Sound s ∧ Timed s) h
    fun _ _ _ ⟨hs, ht⟩ ⟨hok, hst⟩ => ⟨hs.step hst, ht.step hs hok (hs.effect hst)⟩

/-- Out of the queue, a timer stays out until it is inserted. -/
theorem Timed.not_queued_run (h : Sound s₀ ∧ Timed s₀) (hr : Run (Restrict FreesUnused Sys.Step) s₀ tr s)
    (hm : tm ∉ s₀.svc.timers ()) (hno : ∀ m ∈ tr, ¬ Sys.Inserts tm m) : tm ∉ s.svc.timers () := by
  induction hr with
  | nil => exact hm
  | @snoc tr s s' e hr hst ih =>
    obtain ⟨hs, -⟩ := Timed.invariant h hr
    exact (hs.effect hst.2).not_queued (ih fun m hm => hno m (List.mem_append_left _ hm))
      (hno ⟨s, e, s'⟩ (by simp))

/-- In the queue, a timer stays there and keeps its tick until a poll finds it due. -/
theorem Timed.queued_run (h : Sound s₀ ∧ Timed s₀) (hr : Run (Restrict FreesUnused Sys.Step) s₀ tr s)
    (hm : tm ∈ s₀.svc.timers ()) (hna : ∀ m ∈ tr, m.event.service ≠ some (.timerAbort tm))
    (hno : ∀ m ∈ tr, ¬ Sys.Polls (s₀.svc.timer tm).tick m) :
    tm ∈ s.svc.timers () ∧ s.svc.timer tm = s₀.svc.timer tm := by
  induction hr with
  | nil => exact ⟨hm, rfl⟩
  | @snoc tr s s' e hr hst ih =>
    obtain ⟨hs, ht⟩ := Timed.invariant h hr
    obtain ⟨hmem, htm⟩ := ih (fun m hm => hna m (List.mem_append_left _ hm))
      fun m hm => hno m (List.mem_append_left _ hm)
    have hfired : tm ∉ Sys.fired ⟨s, e, s'⟩ := by
      rw [ht.fired_iff hs hst.2 hmem, htm]
      exact hno ⟨s, e, s'⟩ (by simp)
    have hmem' := Timed.stays hs hst.2 hmem (hna ⟨s, e, s'⟩ (by simp)) hfired
    exact ⟨hmem', ((ht.kept hs hst.1 (hs.effect hst.2) hmem hmem').1).trans htm⟩

/-- A poll never stops the kernel. -/
theorem Timed.tim2_ok (h : Timed s) (hs : Sound s) (hm : s.cs.core.primask = false) : ∃ s', s.Step .tim2 s' := by
  have htask (tm : TimerRef) (hmem : tm ∈ s.svc.timers ()) : ∃ t, (s.svc.clocked.timer tm).task = some t :=
    h.allocated tm (by rw [(h.queued tm hmem).1]; decide)
  obtain ⟨k, hk, -⟩ := timerPoll_ok (k := ⟨s.cs.core, s.svc.clocked⟩) hs.settled htask
  exact ⟨s.put k, hm, bind_of_eq_ok (show tim2IRQHandler s.kernel = .ok k from hk) _⟩

/-- After an insertion the timer is in the queue. -/
theorem Sys.Inserts.queued {m : Move Sys SysEvent} (hs : Sound m.pre) (hst : m.pre.Step m.event m.post)
    (hi : Sys.Inserts tm m) : tm ∈ m.post.svc.timers () := by
  obtain ⟨he, delay, hp⟩ := hi
  rcases m with ⟨a, e, b⟩
  dsimp only at he hp hst hs ⊢
  subst he
  have hx := hst.2
  simp only [Sys.exec, Sys.execResume, hp, timerAddInsert_eq (k := a.kernel) hs.nested.balanced hs.timers, bind_eq_ok,
    assertThat_eq_ok, pure_eq_ok] at hx
  obtain ⟨k, ⟨-, -, rfl⟩, rfl⟩ := hx
  change tm ∈ (a.svc.timerInserted tm).timers ()
  rw [Services.timerInserted_timers, Seqs.mem_listEnqueue]
  exact .inr ⟨rfl, rfl⟩

/-- Where a timer is out of the queue, no poll fires it before it is inserted. -/
theorem Timed.never_fired (h : Sound s₀ ∧ Timed s₀) (hr : Run (Restrict FreesUnused Sys.Step) s₀ tr s)
    (hm : tm ∉ s₀.svc.timers ()) {as bs : List (Move Sys SysEvent)} {x : Move Sys SysEvent}
    (htr : tr = as ++ x :: bs) (hno : ∀ y ∈ as, ¬ Sys.Inserts tm y) : tm ∉ Sys.fired x := fun hf =>
  Timed.not_queued_run h (hr.split htr).1 hm hno (Sys.mem_timers_of_mem_fired hf)

/-- After `timer_abort`, and where `timer_add` finds the tick elapsed, the timer is out of
the queue. -/
theorem Timed.not_queued_after (h : Timed s₀) (hs : Sound s₀) {e : SysEvent} (hst : s₀.Step e s)
    (hout : Sys.FindsElapsed tm ⟨s₀, e, s⟩ ∨ e.service = some (.timerAbort tm)) : tm ∉ s.svc.timers () := by
  rcases hout with ⟨rfl, ⟨delay, hp⟩, he⟩ | ha
  · dsimp only at hp he
    have hadd := (h.adders s₀.cs.core.running tm ⟨delay, .inl hp⟩).1
    have hx := hst.2
    simp only [Sys.exec, Sys.execResume, hp, he, if_true, Except.ok.injEq] at hx
    subst hx
    intro hm
    rw [(h.queued tm hm).2] at hadd
    cases hadd
  · have hx := hst.execService_eq ha
    simp only [Sys.execService, bind_eq_ok, pure_eq_ok] at hx
    obtain ⟨k, hk, rfl⟩ := hx
    rcases timerAbort_cases (k := s₀.kernel) hs.nested.balanced hk with ⟨-, -, rfl⟩ | ⟨hno, rfl⟩
    · exact hs.timers.not_mem_erase
    · exact fun hm => hno (h.queued tm hm).1

/-- What a poll does, as a whole. -/
theorem Sound.poll {m : Move Sys SysEvent} (hs : Sound m.pre) (hst : m.pre.Step m.event m.post) (he : m.event = .tim2) :
    (Sys.fired m).Nodup ∧
    (∀ tm ∈ Sys.fired m, tm ∈ m.pre.svc.timers () ∧ tm ∉ m.post.svc.timers () ∧
      (m.post.svc.timer tm).status = .done) ∧
    ∃ calls ctr, List.Forall₂ m.pre.svc.Call (Sys.fired m) calls ∧ Run CoreSys.Step m.pre.cs ctr m.post.cs ∧
      ctr.map Move.event = calls.map fun call => .isrSignalSend call.1 call.2 := by
  have hfired : Sys.fired m = m.pre.svc.clocked.due := by rw [Sys.fired, he]
  rw [he] at hst
  obtain ⟨hsvc, calls, ctr, hcalls, hr, htr⟩ := hs.tim2_step hst
  have hd : (m.pre.svc.clocked.timers ()).Nodup := hs.timers
  rw [hfired, hsvc]
  refine ⟨hd.sublist (List.takeWhile_sublist _), fun tm htm => ⟨(List.takeWhile_sublist _).subset htm, ?_, ?_⟩,
    calls, ctr, hcalls, hr, htr⟩
  · rw [Services.mem_polled_iff hd]
    exact fun hm => hm.2 htm
  · rw [Services.polled_timer_of_mem htm]

/-- **Timers fire exactly once, at the first poll after their tick.** In every run:

* a poll, where an interrupt can come, does not stop the kernel;
* a poll makes exactly one call of `signal_send`, to its task with its signal, for each
  timer it fires, and these leave the queue with status `TIMER_DONE`;
* a timer that `timer_add` inserts, and that is not aborted after that, stays in the queue
  with status `TIMER_ADDED` and is not fired up to the first poll at which the clock has
  come to its tick; that poll fires it, once, and no later one does before it is inserted
  again;
* a timer that `timer_add` finds elapsed, or that `timer_abort` is called on, is not fired
  by a later poll before it is inserted again.

The run may contain anything the kernel offers; `timer_free`, also inside `timer_delay`, is
used on timers that are not in use. The clock may even wrap around: what "first poll" means
then is what the code compares. -/
theorem timers_fire_once {cfg : Config} {c : Core} (h : martosPre cfg = .ok c)
    (hr : Run (Restrict FreesUnused Sys.Step) (Sys.start c) tr s) :
    (s.cs.core.primask = false → ∃ s', s.Step .tim2 s') ∧
    (∀ m ∈ tr, m.event = .tim2 → (Sys.fired m).Nodup ∧
      (∀ tm ∈ Sys.fired m, tm ∈ m.pre.svc.timers () ∧ tm ∉ m.post.svc.timers () ∧
        (m.post.svc.timer tm).status = .done) ∧
      ∃ calls ctr, List.Forall₂ m.pre.svc.Call (Sys.fired m) calls ∧ Run CoreSys.Step m.pre.cs ctr m.post.cs ∧
        ctr.map Move.event = calls.map fun call => .isrSignalSend call.1 call.2) ∧
    (∀ tr₁ m tr₂ tm, tr = tr₁ ++ m :: tr₂ → Sys.Inserts tm m →
      (∀ m' ∈ tr₂, m'.event.service ≠ some (.timerAbort tm)) →
      ∀ as m' bs, tr₂ = as ++ m' :: bs → (∀ x ∈ as, ¬ Sys.Polls (m.post.svc.timer tm).tick x) →
        ((m'.pre.svc.timer tm).status = .added ∧ tm ∈ m'.pre.svc.timers ()) ∧
        (¬ Sys.Polls (m.post.svc.timer tm).tick m' → tm ∉ Sys.fired m') ∧
        (Sys.Polls (m.post.svc.timer tm).tick m' → (Sys.fired m').count tm = 1 ∧
          ∀ cs x ds, bs = cs ++ x :: ds → (∀ y ∈ cs, ¬ Sys.Inserts tm y) → tm ∉ Sys.fired x)) ∧
    (∀ tr₁ m tr₂ tm, tr = tr₁ ++ m :: tr₂ →
      Sys.FindsElapsed tm m ∨ m.event.service = some (.timerAbort tm) →
      ∀ as x bs, tr₂ = as ++ x :: bs → (∀ y ∈ as, ¬ Sys.Inserts tm y) → tm ∉ Sys.fired x) := by
  obtain ⟨hs, ht⟩ := Timed.run h hr
  have hstart : Sound (Sys.start c) ∧ Timed (Sys.start c) := Timed.run h .nil
  refine ⟨ht.tim2_ok hs, fun m hm he => ?_, ?_, ?_⟩
  · obtain ⟨tr₁, tr₂, rfl⟩ := List.append_of_mem hm
    obtain ⟨hr₁, hst, -⟩ := hr.split rfl
    exact Sound.poll (Timed.invariant hstart hr₁).1 hst.2 he
  · intro tr₁ m tr₂ tm htr hi hna as m' bs htr₂ hno
    obtain ⟨hr₁, hst, hr₂⟩ := hr.split htr
    obtain ⟨hpre, hpret⟩ := Timed.invariant hstart hr₁
    have hpost : Sound m.post ∧ Timed m.post := ⟨hpre.step hst.2, hpret.step hpre hst.1 (hpre.effect hst.2)⟩
    obtain ⟨hr₃, hst', hr₄⟩ := hr₂.split htr₂
    have hin (x : Move Sys SysEvent) (hx : x ∈ as) : x ∈ tr₂ := by rw [htr₂]; exact List.mem_append_left _ hx
    obtain ⟨hmem, htm⟩ := Timed.queued_run hpost hr₃ (hi.queued hpre hst.2) (fun x hx => hna x (hin x hx)) hno
    obtain ⟨hs', ht'⟩ := Timed.invariant hpost hr₃
    have hiff : tm ∈ Sys.fired m' ↔ Sys.Polls (m.post.svc.timer tm).tick m' := by
      rw [← htm]
      exact ht'.fired_iff hs' hst'.2 hmem
    refine ⟨⟨(ht'.queued tm hmem).1, hmem⟩, fun hp hf => hp (hiff.mp hf), fun hp => ?_⟩
    have hfired := hiff.mpr hp
    obtain ⟨hnodup, hout, -⟩ := Sound.poll hs' hst'.2 hp.1
    refine ⟨List.count_eq_one_of_mem hnodup hfired, fun cs x ds hbs hins => ?_⟩
    have hpost' : Sound m'.post ∧ Timed m'.post := ⟨hs'.step hst'.2, ht'.step hs' hst'.1 (hs'.effect hst'.2)⟩
    exact Timed.never_fired hpost' hr₄ (hout tm hfired).2.1 hbs hins
  · intro tr₁ m tr₂ tm htr hout as x bs htr₂ hno
    obtain ⟨hr₁, hst, hr₂⟩ := hr.split htr
    obtain ⟨hpre, hpret⟩ := Timed.invariant hstart hr₁
    have hpost : Sound m.post ∧ Timed m.post := ⟨hpre.step hst.2, hpret.step hpre hst.1 (hpre.effect hst.2)⟩
    exact Timed.never_fired hpost hr₂ (hpret.not_queued_after hpre hst.2 hout) htr₂ hno

/-- The theorem at a timer with a delay of one tick: the first poll after the insertion fires
it. -/
theorem timers_fire_once_delay : ∃ c tr₁ s₁ s₂ x s, martosPre CoreSys.exampleConfig = .ok c ∧
    Run (Restrict FreesUnused Sys.Step) (Sys.start c) (tr₁ ++ ⟨s₁, .resume, s₂⟩ :: [x]) s ∧
    Sys.Inserts 7 ⟨s₁, .resume, s₂⟩ ∧ (Sys.fired x).count 7 = 1 := by
  obtain ⟨c, tr₁, s₁, s₂, tr₂, s, hc, hr, htr, hp⟩ := Sys.exists_run CoreSys.exampleConfig FreesUnused
    [.call (.timerAllocate 7), .call (.write (.timer 7 .delay 1 0)), .call (.timerAdd 7), .resume]
    .resume [.tim2]
    (p := fun s₁ s₂ s => decide (s₁.spc s₁.cs.core.running = .timerAddInsert 7 false ∧
      (s₂.svc.timer 7).tick ≤ s.svc.timerNow))
    (by decide +kernel)
  obtain ⟨hspc, htick⟩ := of_decide_eq_true hp
  have hi : Sys.Inserts 7 ⟨s₁, .resume, s₂⟩ := ⟨rfl, false, hspc⟩
  obtain ⟨x, rfl, he⟩ := List.map_eq_singleton_iff.mp htr
  have hpost : x.post = s := by
    obtain ⟨-, -, hr₂⟩ := hr.split (List.append_cons tr₁ ⟨s₁, .resume, s₂⟩ [x])
    exact hr₂.eq_of_nil.symm
  have hna (m : Move Sys SysEvent) (hm : m ∈ [x]) : m.event.service ≠ some (.timerAbort 7) := by
    rw [List.mem_singleton.mp hm, he]
    exact nofun
  obtain ⟨-, -, hadd, -⟩ := timers_fire_once hc hr
  obtain ⟨-, -, hfire⟩ := hadd tr₁ _ [x] 7 rfl hi hna [] x [] rfl (fun _ hx => nomatch hx)
  exact ⟨c, tr₁, s₁, s₂, x, s, hc, hr, hi, (hfire ⟨he, by rw [hpost]; exact htick⟩).1⟩

end

end Martos
