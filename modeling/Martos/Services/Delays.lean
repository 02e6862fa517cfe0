import Martos.Core.Allocation
import Martos.Services.Deliveries
import Martos.Services.Timers

/-!
# A delay lasts as long as requested

`timer_add` reads the clock, adds the delay, and compares the sum with the clock as it is
then: both are 32 bits wide. If the sum wraps around and the clock has not, the timer seems
to have elapsed long ago. If the clock wraps around in between, all is well again. So the
exact condition is about the moment of the second reading (`ClockAhead`).

`timer_delay` returns when the signal of its timer comes. Its timer is a local variable: no
other task uses it (`PrivateDelays`), and nothing else sends its signal. Then the task sleeps
as long as the timer is queued (`Delaying`).
-/

namespace Martos

open Checked Transition

/-! ### The clock -/

/-- The event is an interrupt of the clock. -/
def SysEvent.isTick : SysEvent → Bool
  | .tim2 => true
  | _ => false

/-- The clock ticks in a list of moves. -/
def Sys.ticks (tr : List (Move Sys SysEvent)) : ℕ := tr.countP fun m => m.event.isTick

@[simp] theorem Sys.ticks_nil : Sys.ticks [] = 0 := rfl

@[simp] theorem Sys.ticks_append (tr tr' : List (Move Sys SysEvent)) :
    Sys.ticks (tr ++ tr') = Sys.ticks tr + Sys.ticks tr' := List.countP_append

/-- `timer_add(tm)` begins, called by a task or by `timer_delay`. -/
def SysEvent.Adds (tm : TimerRef) (e : SysEvent) : Prop :=
  e = .call (.timerAdd tm) ∨ ∃ ticks, e = .call (.timerDelay tm ticks)

section

variable {s s' : Sys} {e : SysEvent} {tm : TimerRef}

theorem SysEffect.timerNow_eq (heff : SysEffect s e s') :
    s'.svc.timerNow = s.svc.timerNow + if e.isTick then 1 else 0 := by
  have hcall {a : Service} (hc : s.Calls e a) : e.isTick = false := by
    rcases hc.1 with ⟨rfl, -⟩ | ⟨rfl, -⟩ <;> rfl
  cases heff with
  | tim2 hm hc hr htr => rfl
  | semInit hc => simp [hcall hc, Sys.update]
  | requests hc => simp [hcall hc, Sys.update, Services.requested, Services.setCount]
  | released hc hn => simp [hcall hc, Sys.update, Services.setCount]
  | grants hc hn hh hs => simp [hcall hc, Sys.update, Services.setCount]
  | got hc => simp [hcall hc, Sys.update]
  | sent hc hm ha hs =>
    have hno : e.isTick = false := by rcases hc with hc | ⟨hc, -⟩ <;> exact hcall hc
    simp [hno, Sys.update]
  | aborts hc ha hm => simp [hcall hc, Sys.update]
  | abortsNot hc ha => simp [hcall hc, Sys.update]
  | @write w hu hw => cases w <;> exact (BitVec.add_zero _).symm
  | _ => exact (BitVec.add_zero _).symm

/-- The clock counts its interrupts. -/
theorem Sound.timerNow_run {tr : List (Move Sys SysEvent)} {s₀ : Sys} (h : Sound s₀) (hr : Run Sys.Step s₀ tr s) :
    s.svc.timerNow = s₀.svc.timerNow + BitVec.ofNat 32 (Sys.ticks tr) := by
  induction hr with
  | nil => simp
  | @snoc tr s s' e hr hst ih =>
    have hs : Sound s := hr.invariant h fun _ _ _ hs hst => hs.step hst
    rw [(hs.effect hst).timerNow_eq, ih, Sys.ticks_append, BitVec.ofNat_add, BitVec.add_assoc]
    cases he : e.isTick with
    | false => simp [Sys.ticks, he]
    | true => simp [Sys.ticks, he]

theorem Services.polled_tick (svc : Services) (tm : TimerRef) : (svc.polled.timer tm).tick = (svc.timer tm).tick := by
  by_cases hdue : tm ∈ svc.due
  · rw [Services.polled_timer_of_mem hdue]
  · rw [Services.polled_timer_of_not_mem hdue]

/-- While `timer_add` does not begin anew, a timer in `timer_add` or on the queue has come from
there, and keeps its tick. -/
theorem Timed.tick_step (h : Timed s) (heff : SysEffect s e s') (hno : ¬ e.Adds tm)
    (hin : s'.adding tm = true ∨ tm ∈ s'.svc.timers ()) :
    (s.adding tm = true ∨ tm ∈ s.svc.timers ()) ∧ (s'.svc.timer tm).tick = (s.svc.timer tm).tick := by
  -- `timer_add(u)` returns
  have hfinish {u : TimerRef} (hin : Function.update s.adding u false tm = true ∨ tm ∈ s.svc.timers ()) :
      s.adding tm = true ∨ tm ∈ s.svc.timers () := by
    refine hin.imp_left fun ha => ?_
    by_cases htu : tm = u
    · rw [htu, Function.update_self] at ha
      cases ha
    · rwa [Function.update_of_ne htu] at ha
  -- a write to the other fields of a timer
  have htick {u : TimerRef} {x : Timer} (hx : x.tick = (s.svc.timer u).tick) :
      (Function.update s.svc.timer u x tm).tick = (s.svc.timer tm).tick := by
    by_cases htu : tm = u
    · rw [htu, Function.update_self, hx]
    · rw [Function.update_of_ne htu]
  cases heff with
  | timerAllocate hu hf hst => exact ⟨hin, htick (by rfl)⟩
  | timerFree hu hf hst => exact ⟨hin, htick (by rfl)⟩
  | @addStarts u tick hu ha hs =>
    have hne : tm ≠ u := by rintro rfl; exact hno (.inl rfl)
    refine ⟨hin.imp_left fun ha' => ?_, congrArg Timer.tick (Function.update_of_ne hne ..)⟩
    exact (Function.update_of_ne hne ..).symm.trans ha'
  | @delayStarts u ticks tick sg cs hu hf hd hst =>
    have hne : tm ≠ u := by rintro rfl; exact hno (.inr ⟨ticks, rfl⟩)
    refine ⟨hin.imp_left fun ha' => ?_, congrArg Timer.tick (Function.update_of_ne hne ..)⟩
    exact (Function.update_of_ne hne ..).symm.trans ha'
  | addElapsed hu hp he =>
    exact ⟨hfinish hin, htick (by rfl)⟩
  | @addInserts u delay hu hp hm =>
    refine ⟨?_, htick (by rfl)⟩
    rcases hin with ha | hq
    · exact hfinish (.inl ha)
    · change tm ∈ (s.svc.timerInserted u).timers () at hq
      rw [Services.timerInserted_timers, Seqs.mem_listEnqueue] at hq
      rcases hq with hq | ⟨-, rfl⟩
      · exact .inr hq
      · exact .inl (h.adders _ _ ⟨delay, .inr hp⟩).1
  | delayFrees hu hp hst => exact ⟨hin, htick (by rfl)⟩
  | aborts hc ha hm => exact ⟨hin.imp_right List.mem_of_mem_erase, rfl⟩
  | tim2 hm hc hr htr =>
    exact ⟨hin.imp_right fun hq => (List.dropWhile_sublist _).subset hq, Services.polled_tick ..⟩
  | @write w hu hw =>
    cases w with
    | timer u op delay tick =>
      have hne : tm ≠ u := by
        rintro rfl
        rcases hin with ha | hq
        · exact absurd (hw.1.symm.trans ha) (by decide)
        · exact hw.2 hq
      exact ⟨hin, congrArg Timer.tick (Function.update_of_ne hne ..)⟩
    | _ => exact ⟨hin, rfl⟩
  | _ => exact ⟨hin, rfl⟩

end

/-! ### Delays on a timer of one's own -/

/-- The function is inside `timer_delay`, with its local timer at `tm`. -/
def ServicePc.Delays (tm : TimerRef) (p : ServicePc) : Prop :=
  p = .timerAddCheck tm true ∨ p = .timerAddInsert tm true ∨ p = .timerDelayTest tm ∨ p = .timerDelayFree tm

/-- The event uses the timer. -/
def SysEvent.Uses (tm : TimerRef) (e : SysEvent) : Prop :=
  e.Adds tm ∨ e = .call (.timerAllocate tm) ∨ e = .call (.timerFree tm) ∨ e.service = some (.timerAbort tm) ∨
    ∃ op delay tick, e = .call (.write (.timer tm op delay tick))

/-- The timer of a task inside `timer_delay` is its own: no other call uses it, and nothing but
a poll that fires it sends its signal to the task. -/
structure PrivateDelays (s : Sys) (e : SysEvent) : Prop where
  /-- Nothing else uses the timer. -/
  timer : ∀ t tm, (s.spc t).Delays tm → ¬ e.Uses tm
  /-- Nothing else sends its signal. -/
  signal : ∀ t tm, (s.spc t).Delays tm → ∀ sg, (t, sg) ∈ s.sends e → sg &&& (s.svc.timer tm).signal ≠ 0 →
    e = .tim2 ∧ tm ∈ s.svc.clocked.due

/-- Tasks inside `timer_delay`. -/
structure Delaying (s : Sys) : Prop where
  /-- As long as the timer has not fired its signal is not pending. -/
  quiet : ∀ t tm, (s.spc t).Delays tm → (s.spc t).Adds tm ∨ tm ∈ s.svc.timers () →
    (s.svc.timer tm).signal &&& (s.cs.core.task t).sigRecvd = 0
  /-- As long as it is queued the task sleeps. -/
  asleep : ∀ t tm, s.spc t = .timerDelayFree tm → tm ∈ s.svc.timers () → s.cs.Asleep t (s.svc.timer tm).signal
  /-- Nobody else is adding the timer. -/
  added : ∀ t tm, (s.spc t).Delays tm → ¬ (s.spc t).Adds tm → s.adding tm = false

section

variable {s s' : Sys} {e : SysEvent} {t : TaskRef} {tm : TimerRef}

/-- A timer is freed by `timer_delay` when it is not in use. -/
theorem Delaying.freesUnused (h : Delaying s) (hst : s.Step e s') : FreesUnused s e := by
  unfold FreesUnused
  split
  · next u tm hp =>
    refine ⟨h.added _ tm (.inr (.inr (.inr hp))) ?_, fun hq => ?_⟩
    · rintro ⟨d, hd | hd⟩ <;> cases hp.symm.trans hd
    · exact CoreSys.not_asleep_of_user hst.1.1.2 _ (h.asleep _ tm hp hq)
  · trivial

/-- Who is inside `timer_delay(tm)` after a step: the task that has just called it, or one that
was before; then the timer's signal is the same. -/
theorem PrivateDelays.delays_step (h : PrivateDelays s e) (heff : SysEffect s e s') (hd : (s'.spc t).Delays tm) :
    (t = s.cs.core.running ∧ ∃ ticks, e = .call (.timerDelay tm ticks)) ∨
    ((s.spc t).Delays tm ∧ (s'.svc.timer tm).signal = (s.svc.timer tm).signal) := by
  -- the running task moves on
  have hmove {p q : ServicePc} (hq : s.spc s.cs.core.running = q) (hpq : p.Delays tm → q.Delays tm)
      (hd : (Function.update s.spc s.cs.core.running p t).Delays tm) : (s.spc t).Delays tm := by
    by_cases ht : t = s.cs.core.running
    · rw [ht, Function.update_self] at hd
      rw [ht, hq]
      exact hpq hd
    · rwa [Function.update_of_ne ht] at hd
  have hnot {p q : ServicePc} (hp : ¬ p.Delays tm) : p.Delays tm → q.Delays tm := fun hd => absurd hd hp
  have huser : ¬ ServicePc.user.Delays tm := by rintro (hp | hp | hp | hp) <;> cases hp
  have hfinish {u : TimerRef} {d : Bool} {p : ServicePc} (hp : p = .timerAddCheck u d ∨ p = .timerAddInsert u d) :
      (if d = true then ServicePc.timerDelayTest u else .user).Delays tm → p.Delays tm := by
    cases d with
    | false => exact hnot huser
    | true =>
      rintro (hd | hd | hd | hd) <;> cases hd
      rcases hp with rfl | rfl
      · exact .inl rfl
      · exact .inr (.inl rfl)
  -- a write that keeps the signal
  have hsignal {u : TimerRef} {x : Timer} (hx : x.signal = (s.svc.timer u).signal) :
      (Function.update s.svc.timer u x tm).signal = (s.svc.timer tm).signal := by
    by_cases htu : tm = u
    · rw [htu, Function.update_self, hx]
    · rw [Function.update_of_ne htu]
  cases heff with
  | semQueued hu hr hn hz =>
    exact .inr ⟨hmove hu.2 (hnot (by rintro (hp | hp | hp | hp) <;> cases hp)) hd, rfl⟩
  | semBlocks hu hp hst => exact .inr ⟨hmove hp (hnot (by rintro (hp | hp | hp | hp) <;> cases hp)) hd, rfl⟩
  | semReturns hu hp => exact .inr ⟨hmove hp (hnot huser) hd, rfl⟩
  | portWaits hu ha hn hst =>
    exact .inr ⟨hmove hu.2 (hnot (by rintro (hp | hp | hp | hp) <;> cases hp)) hd, rfl⟩
  | portReturns hu hp hl hst => exact .inr ⟨hmove hp (hnot huser) hd, rfl⟩
  | @timerAllocate u sg cs hu hf hst =>
    have hne : tm ≠ u := by rintro rfl; exact h.timer t tm hd (.inr (.inl rfl))
    exact .inr ⟨hd, congrArg Timer.signal (Function.update_of_ne hne ..)⟩
  | timerFree hu hf hst => exact .inr ⟨hd, hsignal (by rfl)⟩
  | @addStarts u tick hu ha hs =>
    exact .inr ⟨hmove hu.2 (hnot (by rintro (hp | hp | hp | hp) <;> cases hp)) hd, hsignal (by rfl)⟩
  | @delayStarts u ticks tick sg cs hu hf hn hst =>
    by_cases htm : tm = u
    · subst htm
      by_cases ht : t = s.cs.core.running
      · exact .inl ⟨ht, ticks, rfl⟩
      · have hold : (s.spc t).Delays tm := (Function.update_of_ne ht _ s.spc) ▸ hd
        exact absurd (.inl (.inr ⟨ticks, rfl⟩)) (h.timer t tm hold)
    · refine .inr ⟨hmove hu.2 (hnot ?_) hd, congrArg Timer.signal (Function.update_of_ne htm ..)⟩
      rintro (hp | hp | hp | hp) <;> cases hp
      exact htm rfl
  | addElapsed hu hp he => exact .inr ⟨hmove hp (hfinish (.inl rfl)) hd, hsignal (by rfl)⟩
  | @addPasses u d hu hp he =>
    refine .inr ⟨hmove hp (fun hd => ?_) hd, rfl⟩
    rcases hd with hd | hd | hd | hd <;> cases hd
    exact .inl rfl
  | addInserts hu hp hm => exact .inr ⟨hmove hp (hfinish (.inr rfl)) hd, hsignal (by rfl)⟩
  | @delayWaits u cs hu hp ha hst =>
    refine .inr ⟨hmove hp (fun hd => ?_) hd, rfl⟩
    rcases hd with hd | hd | hd | hd <;> cases hd
    exact .inr (.inr (.inl rfl))
  | @delaySkips u hu hp ha =>
    refine .inr ⟨hmove hp (fun hd => ?_) hd, rfl⟩
    rcases hd with hd | hd | hd | hd <;> cases hd
    exact .inr (.inr (.inl rfl))
  | delayFrees hu hp hst => exact .inr ⟨hmove hp (hnot huser) hd, hsignal (by rfl)⟩
  | tim2 hm hc hr htr =>
    refine .inr ⟨hd, ?_⟩
    change (s.svc.clocked.polled.timer tm).signal = (s.svc.timer tm).signal
    by_cases hdue : tm ∈ s.svc.clocked.due
    · rw [Services.polled_timer_of_mem hdue]
      rfl
    · rw [Services.polled_timer_of_not_mem hdue]
      rfl
  | @write w hu hw =>
    cases w with
    | timer u op delay tick => exact .inr ⟨hd, hsignal (by rfl)⟩
    | _ => exact .inr ⟨hd, rfl⟩
  | _ => exact .inr ⟨hd, rfl⟩

/-- Only `timer_add` makes a timer one that is being added. -/
theorem SysEffect.adding_step (heff : SysEffect s e s') (hno : ¬ e.Adds tm) (ha : s'.adding tm = true) :
    s.adding tm = true := by
  have hfinish {u : TimerRef} (ha : Function.update s.adding u false tm = true) : s.adding tm = true := by
    by_cases htu : tm = u
    · rw [htu, Function.update_self] at ha
      cases ha
    · rwa [Function.update_of_ne htu] at ha
  cases heff with
  | @addStarts u tick hu hf hs =>
    have hne : tm ≠ u := by rintro rfl; exact hno (.inl rfl)
    exact (Function.update_of_ne hne ..).symm.trans ha
  | @delayStarts u ticks tick sg cs hu hf hd hst =>
    have hne : tm ≠ u := by rintro rfl; exact hno (.inr ⟨ticks, rfl⟩)
    exact (Function.update_of_ne hne ..).symm.trans ha
  | addElapsed hu hp he => exact hfinish ha
  | addInserts hu hp hm => exact hfinish ha
  | @write w hu hw => cases w <;> exact ha
  | _ => exact ha

/-- A task that comes out of `timer_add(tm)` has added the timer. -/
theorem SysEffect.leaves_add (heff : SysEffect s e s') (ha : (s.spc t).Adds tm) (hna : ¬ (s'.spc t).Adds tm) :
    s'.adding tm = false := by
  -- the running task, at another point, is not the one
  have hmove {p q : ServicePc} (hq : s.spc s.cs.core.running = q) (hqn : ¬ q.Adds tm)
      (hna : ¬ (Function.update s.spc s.cs.core.running p t).Adds tm) : False := by
    by_cases ht : t = s.cs.core.running
    · rw [ht, hq] at ha
      exact hqn ha
    · rw [Function.update_of_ne ht] at hna
      exact hna ha
  have huser : ¬ ServicePc.user.Adds tm := by rintro ⟨d, hp | hp⟩ <;> cases hp
  have hfinish {p q : ServicePc} {u : TimerRef} {d : Bool} (hq : s.spc s.cs.core.running = q)
      (hqu : q = .timerAddCheck u d ∨ q = .timerAddInsert u d)
      (hna : ¬ (Function.update s.spc s.cs.core.running p t).Adds tm) :
      Function.update s.adding u false tm = false := by
    have htm : tm = u := by
      by_contra hne
      refine hmove hq ?_ hna
      rintro ⟨d', hp | hp⟩ <;> rcases hqu with rfl | rfl <;> cases hp <;> exact hne rfl
    rw [htm, Function.update_self]
  cases heff with
  | semQueued hu hr hn hz => exact (hmove hu.2 huser hna).elim
  | semBlocks hu hp hst => exact (hmove hp (by rintro ⟨d, hp | hp⟩ <;> cases hp) hna).elim
  | semReturns hu hp => exact (hmove hp (by rintro ⟨d, hp | hp⟩ <;> cases hp) hna).elim
  | portWaits hu hf hn hst => exact (hmove hu.2 huser hna).elim
  | portReturns hu hp hl hst => exact (hmove hp (by rintro ⟨d, hp | hp⟩ <;> cases hp) hna).elim
  | addStarts hu hf hs => exact (hmove hu.2 huser hna).elim
  | delayStarts hu hf hd hst => exact (hmove hu.2 huser hna).elim
  | addElapsed hu hp he => exact hfinish hp (.inl rfl) hna
  | @addPasses u d hu hp he =>
    refine (hna ?_).elim
    by_cases ht : t = s.cs.core.running
    · have hnow : (ServicePc.timerAddInsert u d).Adds tm := by
        rw [ht, hp] at ha
        obtain ⟨d', hq | hq⟩ := ha <;> cases hq
        exact ⟨d, .inr rfl⟩
      rw [ht]
      simpa [Sys.goto] using hnow
    · simpa [Sys.goto, ht] using ha
  | addInserts hu hp hm => exact hfinish hp (.inr rfl) hna
  | delayWaits hu hp hs hst => exact (hmove hp (by rintro ⟨d, hp | hp⟩ <;> cases hp) hna).elim
  | delaySkips hu hp hs => exact (hmove hp (by rintro ⟨d, hp | hp⟩ <;> cases hp) hna).elim
  | delayFrees hu hp hst => exact (hmove hp (by rintro ⟨d, hp | hp⟩ <;> cases hp) hna).elim
  | @write w hu hw => cases w <;> exact absurd ha hna
  | _ => exact absurd ha hna

/-- A task at the end of `timer_delay` was there before, or comes from the test of the status. -/
theorem SysEffect.delayFree_step (heff : SysEffect s e s') (hp' : s'.spc t = .timerDelayFree tm) :
    s.spc t = .timerDelayFree tm ∨ (t = s.cs.core.running ∧ s'.svc = s.svc ∧
      ((s.svc.timer tm).status ≠ .added ∨ s.cs.Step (.call (.signalWait (s.svc.timer tm).signal)) s'.cs)) := by
  have hmove {p : ServicePc} (hp : p ≠ .timerDelayFree tm)
      (h : Function.update s.spc s.cs.core.running p t = .timerDelayFree tm) : s.spc t = .timerDelayFree tm := by
    by_cases ht : t = s.cs.core.running
    · rw [ht, Function.update_self] at h
      exact absurd h hp
    · rwa [Function.update_of_ne ht] at h
  have hfinish {u : TimerRef} {d : Bool} :
      (if d = true then ServicePc.timerDelayTest u else .user) ≠ .timerDelayFree tm := by
    cases d <;> simp
  cases heff with
  | semQueued hu hr hn hz => exact .inl (hmove (by simp) hp')
  | semBlocks hu hp hst => exact .inl (hmove (by simp) hp')
  | semReturns hu hp => exact .inl (hmove (by simp) hp')
  | portWaits hu hf hn hst => exact .inl (hmove (by simp) hp')
  | portReturns hu hp hl hst => exact .inl (hmove (by simp) hp')
  | addStarts hu hf hs => exact .inl (hmove (by simp) hp')
  | delayStarts hu hf hd hst => exact .inl (hmove (by simp) hp')
  | addElapsed hu hp he => exact .inl (hmove hfinish hp')
  | addPasses hu hp he => exact .inl (hmove (by simp) hp')
  | addInserts hu hp hm => exact .inl (hmove hfinish hp')
  | @delayWaits u cs hu hp hs hst =>
    by_cases ht : t = s.cs.core.running
    · have hu : u = tm := by simpa [Sys.goto, ht] using hp'
      subst hu
      exact .inr ⟨ht, rfl, .inr hst⟩
    · exact .inl (by simpa [Sys.goto, ht] using hp')
  | @delaySkips u hu hp hs =>
    by_cases ht : t = s.cs.core.running
    · have hu : u = tm := by simpa [Sys.goto, ht] using hp'
      subst hu
      exact .inr ⟨ht, rfl, .inl hs⟩
    · exact .inl (by simpa [Sys.goto, ht] using hp')
  | delayFrees hu hp hst => exact .inl (hmove (by simp) hp')
  | @write w hu hw => cases w <;> exact .inl hp'
  | _ => exact .inl hp'

/-- What `timer_delay` has done when it has read the clock. -/
theorem Sound.timerDelay_step (h : Sound s) {ticks : Ticks} (hst : s.Step (.call (.timerDelay tm ticks)) s') :
    ∃ i : ℕ, i < signalsWidth ∧
      s'.svc.timer tm = ⟨some s.cs.core.running, 1#16 <<< i, ticks, s.svc.timerNow + ticks, .delay, .initialized⟩ ∧
      s'.cs.core = s.cs.core.allocated (1#16 <<< i) ∧
      s'.spc = Function.update s.spc s.cs.core.running (.timerAddCheck tm true) ∧
      s'.adding = Function.update s.adding tm true ∧ s'.svc.timers = s.svc.timers := by
  have hx := hst.2
  simp only [Sys.exec, Sys.execCall, timerAllocate, Sys.startAdd, timerAddStart, Sys.kernel, bind_eq_ok, pure_eq_ok,
    assertThat_eq_ok] at hx
  obtain ⟨k, ⟨⟨n, c⟩, hn, -, hne, rfl⟩, svc, ⟨-, -, -, -, rfl⟩, rfl⟩ := hx
  rcases h.nested.balanced.signalAllocate_cases (show (-1 : ℤ) ≤ -1 by decide) (by decide) with
    ⟨i, hi, hcall, -⟩ | ⟨hcall, -⟩
  · obtain ⟨rfl, rfl⟩ := Prod.mk.inj (Except.ok.inj (hcall.symm.trans hn))
    exact ⟨i, hi, by simp [Sys.put, Services.modTimer], rfl, rfl, rfl, by simp [Sys.put, Services.modTimer]⟩
  · obtain ⟨rfl, -⟩ := Prod.mk.inj (Except.ok.inj (hcall.symm.trans hn))
    exact absurd rfl hne

theorem Sys.Step.tim2_frame (hst : s.Step .tim2 s') : s'.spc = s.spc ∧ s'.adding = s.adding := by
  have hx := hst.2
  simp only [Sys.exec, bind_eq_ok, pure_eq_ok] at hx
  obtain ⟨k, -, rfl⟩ := hx
  exact ⟨rfl, rfl⟩

/-- A timer in the hands of `timer_delay` that has not fired yet had not fired before. -/
theorem Delaying.in_step (h : Delaying s) (ht : Timed s) (ht' : Timed s') (hok : PrivateDelays s e)
    (heff : SysEffect s e s') (hd : (s.spc t).Delays tm)
    (hin : (s'.spc t).Adds tm ∨ tm ∈ s'.svc.timers ()) : (s.spc t).Adds tm ∨ tm ∈ s.svc.timers () := by
  have hno : ¬ e.Adds tm := fun ha => hok.timer t tm hd (.inl ha)
  have hin' := hin.imp_left fun ha => (ht'.adders t tm ha).1
  refine (ht.tick_step heff hno hin').1.imp_left fun ha => ?_
  by_contra hna
  rw [h.added t tm hd hna] at ha
  cases ha

theorem Delaying.quiet_step (h : Delaying s) (hs : Sound s) (ht : Timed s) (ht' : Timed s') (hok : PrivateDelays s e)
    (hst : s.Step e s') (hd' : (s'.spc t).Delays tm) (hin' : (s'.spc t).Adds tm ∨ tm ∈ s'.svc.timers ()) :
    (s'.svc.timer tm).signal &&& (s'.cs.core.task t).sigRecvd = 0 := by
  have heff := hs.effect hst
  rcases hok.delays_step heff hd' with ⟨htr, ticks, rfl⟩ | ⟨hd, hsig⟩
  · -- `timer_delay` begins: the bit handed out is not pending
    obtain ⟨i, hi, htm, hcore, -⟩ := hs.timerDelay_step hst
    rw [htm, hcore, htr, Core.allocated_self]
    refine BitVec.eq_of_getLsbD_eq fun j _ => ?_
    rw [BitVec.getLsbD_and, getLsbD_mask hi, getLsbD_and_not_mask hi]
    by_cases hj : j = i <;> simp [hj]
  · have hin := h.in_step ht ht' hok heff hd hin'
    have hz := h.quiet t tm hd hin
    rw [hsig]
    cases hs.signalsChange heff t with
    | keeps x hx hr hw =>
      rw [hr]
      refine and_or_eq_zero hz fun i hi => ?_
      by_contra hbit
      rw [Bool.not_eq_false] at hbit
      obtain ⟨sg, hsend, hsgi⟩ := (hx i).mp hi
      -- only a poll that fires the timer sends this signal, and then it is out of the queue
      obtain ⟨rfl, hdue⟩ := hok.signal t tm hd sg hsend (and_ne_zero_of_getLsbD hsgi hbit)
      have hmem : tm ∈ s.svc.clocked.timers () := Services.mem_due_of_mem hdue
      obtain ⟨-, hadd⟩ := hst.tim2_frame
      rcases hin' with ha | hq
      · have hadding := (ht'.adders t tm ha).1
        rw [hadd, (ht.queued tm hmem).2] at hadding
        cases hadding
      · have hnodup : (s.svc.clocked.timers ()).Nodup := hs.timers
        rw [(hs.tim2_step hst).1, Services.mem_polled_iff hnodup] at hq
        exact hq.2 hdue
    | blocks sg htr he hz' hr hw => rw [hr]; exact hz
    | takes sg htr he hz' hr hw =>
      rw [hr, ← BitVec.and_assoc, hz]
      exact BitVec.zero_and
    | clears hc x hr hw =>
      rw [hr, ← BitVec.and_assoc, hz]
      exact BitVec.zero_and

theorem Delaying.asleep_step (h : Delaying s) (hs : Sound s) (ht : Timed s) (ht' : Timed s') (hok : PrivateDelays s e)
    (hst : s.Step e s') (hp' : s'.spc t = .timerDelayFree tm) (hq' : tm ∈ s'.svc.timers ()) :
    s'.cs.Asleep t (s'.svc.timer tm).signal := by
  have heff := hs.effect hst
  have hd' : (s'.spc t).Delays tm := .inr (.inr (.inr hp'))
  rcases hok.delays_step heff hd' with ⟨htr, ticks, rfl⟩ | ⟨hd, hsig⟩
  · obtain ⟨i, hi, -, -, hspc, -⟩ := hs.timerDelay_step hst
    rw [hspc, htr, Function.update_self] at hp'
    cases hp'
  rw [hsig]
  have hin := h.in_step ht ht' hok heff hd (.inr hq')
  have hz := h.quiet t tm hd hin
  rcases heff.delayFree_step hp' with hp | ⟨rfl, hsvc, hwait⟩
  · -- the task was asleep, and nothing has come for it
    have hq : tm ∈ s.svc.timers () := by
      refine hin.resolve_left ?_
      rw [hp]
      rintro ⟨d, hp | hp⟩ <;> cases hp
    have hsleep := h.asleep t tm hp hq
    have huser (hut : t = s.cs.core.running) : s.cs.pc s.cs.core.running ≠ .user := fun hu =>
      CoreSys.not_asleep_of_user (hut ▸ hu) _ hsleep
    cases hs.signalsChange heff t with
    | keeps x hx hr hw => exact (hw _).mpr hsleep
    | blocks sg htr he hz' hr hw => exact absurd (hst.user_of_waitsFor he) (huser htr)
    | takes sg htr he hz' hr hw =>
      rcases he with he | ⟨-, hsg⟩
      · exact absurd (hst.user_of_waitsFor he) (huser htr)
      · rw [hsleep.unique hsg] at hz'
        exact absurd hz hz'
    | clears hc x hr hw => exact (hw _).mpr hsleep
  · -- the task calls `signal_wait`
    rw [hsvc] at hq'
    rcases hwait with hne | hcall
    · exact absurd (ht.queued tm hq').1 hne
    · exact ((hs.nested.signalWait_cases hcall).resolve_right fun hr => hr.1 hz).2.1

theorem Delaying.added_step (h : Delaying s) (hs : Sound s) (hok : PrivateDelays s e)
    (hst : s.Step e s') (hd' : (s'.spc t).Delays tm) (hna' : ¬ (s'.spc t).Adds tm) : s'.adding tm = false := by
  have heff := hs.effect hst
  rcases hok.delays_step heff hd' with ⟨htr, ticks, rfl⟩ | ⟨hd, -⟩
  · obtain ⟨i, hi, -, -, hspc, -⟩ := hs.timerDelay_step hst
    rw [hspc, htr, Function.update_self] at hna'
    exact absurd ⟨true, .inl rfl⟩ hna'
  · by_cases ha : (s.spc t).Adds tm
    · exact heff.leaves_add ha hna'
    · by_contra hadd
      rw [Bool.not_eq_false] at hadd
      have hold := heff.adding_step (fun he => hok.timer t tm hd (.inl he)) hadd
      rw [h.added t tm hd ha] at hold
      cases hold

/-- **A step keeps the tasks inside `timer_delay` asleep** as long as their timers are queued. -/
theorem Delaying.step (h : Delaying s) (hs : Sound s) (ht : Timed s) (hok : PrivateDelays s e) (hst : s.Step e s') :
    Delaying s' := by
  have ht' : Timed s' := ht.step hs (h.freesUnused hst) (hs.effect hst)
  exact {
    quiet := fun _ _ hd hin => h.quiet_step hs ht ht' hok hst hd hin
    asleep := fun _ _ hp hq => h.asleep_step hs ht ht' hok hst hp hq
    added := fun _ _ hd hna => h.added_step hs hok hst hd hna }

/-- What holds in every run in which the timers of `timer_delay` are private. -/
structure DelaysWell (s : Sys) : Prop where
  /-- What all services rely on. -/
  sound : Sound s
  /-- The timers. -/
  timed : Timed s
  /-- The tasks inside `timer_delay`. -/
  delaying : Delaying s

theorem DelaysWell.step (h : DelaysWell s) (hst : Restrict PrivateDelays Sys.Step s e s') : DelaysWell s' where
  sound := h.sound.step hst.2
  timed := h.timed.step h.sound (h.delaying.freesUnused hst.2) (h.sound.effect hst.2)
  delaying := h.delaying.step h.sound h.timed hst.1 hst.2

theorem DelaysWell.start {cfg : Config} {c : Core} (h : martosPre cfg = .ok c) : DelaysWell (Sys.start c) where
  sound := .start h
  timed := (Timed.run h .nil).2
  delaying := by
    have hnot {t : TaskRef} {tm : TimerRef} : ¬ ((Sys.start c).spc t).Delays tm := by
      rintro (hp | hp | hp | hp) <;> cases hp
    exact {
      quiet := fun _ _ hd => absurd hd hnot
      asleep := fun _ _ hp => nomatch hp
      added := fun _ _ hd => absurd hd hnot }

theorem DelaysWell.run {s₀ : Sys} {tr : List (Move Sys SysEvent)} (h : DelaysWell s₀)
    (hr : Run (Restrict PrivateDelays Sys.Step) s₀ tr s) : DelaysWell s :=
  hr.invariant h fun _ _ _ h hst => h.step hst

/-- A task stays inside `timer_delay` until it frees the timer. -/
theorem SysEffect.delays_kept (heff : SysEffect s e s') (hd : (s.spc t).Delays tm) :
    (s'.spc t).Delays tm ∨ (e = .resume ∧ t = s.cs.core.running ∧ s.spc t = .timerDelayFree tm) := by
  have hmove {p q : ServicePc} (hq : s.spc s.cs.core.running = q) (hpq : q.Delays tm → p.Delays tm) :
      (Function.update s.spc s.cs.core.running p t).Delays tm := by
    by_cases ht : t = s.cs.core.running
    · rw [ht, Function.update_self]
      rw [ht, hq] at hd
      exact hpq hd
    · rwa [Function.update_of_ne ht]
  have hnot {p q : ServicePc} (hq : ¬ q.Delays tm) : q.Delays tm → p.Delays tm := fun hd => absurd hd hq
  have huser : ¬ ServicePc.user.Delays tm := by rintro (hp | hp | hp | hp) <;> cases hp
  have hfinish {u : TimerRef} {d : Bool} {q : ServicePc} (hq : q = .timerAddCheck u d ∨ q = .timerAddInsert u d) :
      q.Delays tm → (if d = true then ServicePc.timerDelayTest u else .user).Delays tm := by
    rintro (hp | hp | hp | hp) <;> rcases hq with rfl | rfl <;> cases hp <;> exact .inr (.inr (.inl rfl))
  cases heff with
  | semQueued hu hr hn hz => exact .inl (hmove hu.2 (hnot huser))
  | semBlocks hu hp hst => exact .inl (hmove hp (hnot (by rintro (hp | hp | hp | hp) <;> cases hp)))
  | semReturns hu hp => exact .inl (hmove hp (hnot (by rintro (hp | hp | hp | hp) <;> cases hp)))
  | portWaits hu hf hn hst => exact .inl (hmove hu.2 (hnot huser))
  | portReturns hu hp hl hst => exact .inl (hmove hp (hnot (by rintro (hp | hp | hp | hp) <;> cases hp)))
  | addStarts hu hf hs => exact .inl (hmove hu.2 (hnot huser))
  | delayStarts hu hf hn hst => exact .inl (hmove hu.2 (hnot huser))
  | addElapsed hu hp he => exact .inl (hmove hp (hfinish (.inl rfl)))
  | addPasses hu hp he =>
    refine .inl (hmove hp ?_)
    rintro (hp | hp | hp | hp) <;> cases hp
    exact .inr (.inl rfl)
  | addInserts hu hp hm => exact .inl (hmove hp (hfinish (.inr rfl)))
  | delayWaits hu hp hs hst =>
    refine .inl (hmove hp ?_)
    rintro (hp | hp | hp | hp) <;> cases hp
    exact .inr (.inr (.inr rfl))
  | delaySkips hu hp hs =>
    refine .inl (hmove hp ?_)
    rintro (hp | hp | hp | hp) <;> cases hp
    exact .inr (.inr (.inr rfl))
  | @delayFrees u cs hu hp hst =>
    by_cases ht : t = s.cs.core.running
    · subst ht
      refine .inr ⟨rfl, rfl, ?_⟩
      rw [hp] at hd ⊢
      rcases hd with hd | hd | hd | hd <;> cases hd
      rfl
    · exact .inl (by simpa [Sys.goto, Sys.update, ht] using hd)
  | @write w hu hw => cases w <;> exact .inl hd
  | _ => exact .inl hd

/-- In the move `timer_add` compares the timer's tick with the clock. -/
def Sys.Compares (tm : TimerRef) (m : Move Sys SysEvent) : Prop :=
  m.event = .resume ∧ ∃ delay, m.pre.spc m.pre.cs.core.running = .timerAddCheck tm delay

/-- In the move the timer is marked: `timer_add` finds it elapsed and sets `TIMER_ABORTED`, or
a poll fires it and sets `TIMER_DONE`. -/
def Sys.Marks (tm : TimerRef) (m : Move Sys SysEvent) : Prop := Sys.FindsElapsed tm m ∨ tm ∈ Sys.fired m

/-- A task leaves `timer_add(tm)` by finding the timer elapsed, or by inserting it; and before
that it compares. -/
theorem SysEffect.adds_kept (heff : SysEffect s e s') (ha : (s.spc t).Adds tm) :
    (s'.spc t).Adds tm ∨ Sys.FindsElapsed tm ⟨s, e, s'⟩ ∨ Sys.Inserts tm ⟨s, e, s'⟩ := by
  have hmove {p q : ServicePc} (hq : s.spc s.cs.core.running = q) (hqn : ¬ q.Adds tm) :
      (Function.update s.spc s.cs.core.running p t).Adds tm := by
    by_cases ht : t = s.cs.core.running
    · rw [ht, hq] at ha
      exact absurd ha hqn
    · rwa [Function.update_of_ne ht]
  have huser : ¬ ServicePc.user.Adds tm := by rintro ⟨d, hp | hp⟩ <;> cases hp
  cases heff with
  | semQueued hu hr hn hz => exact .inl (hmove hu.2 huser)
  | semBlocks hu hp hst => exact .inl (hmove hp (by rintro ⟨d, hp | hp⟩ <;> cases hp))
  | semReturns hu hp => exact .inl (hmove hp (by rintro ⟨d, hp | hp⟩ <;> cases hp))
  | portWaits hu hf hn hst => exact .inl (hmove hu.2 huser)
  | portReturns hu hp hl hst => exact .inl (hmove hp (by rintro ⟨d, hp | hp⟩ <;> cases hp))
  | addStarts hu hf hs => exact .inl (hmove hu.2 huser)
  | delayStarts hu hf hn hst => exact .inl (hmove hu.2 huser)
  | @addElapsed u d hu hp he =>
    by_cases htm : tm = u
    · subst htm
      exact .inr (.inl ⟨rfl, ⟨d, hp⟩, decide_eq_true he⟩)
    · refine .inl (hmove hp ?_)
      rintro ⟨d', hp | hp⟩ <;> cases hp
      exact htm rfl
  | @addPasses u d hu hp he =>
    by_cases ht : t = s.cs.core.running
    · have hnow : (ServicePc.timerAddInsert u d).Adds tm := by
        rw [ht, hp] at ha
        obtain ⟨d', hq | hq⟩ := ha <;> cases hq
        exact ⟨d, .inr rfl⟩
      exact .inl (by rw [ht]; simpa [Sys.goto] using hnow)
    · exact .inl (by simpa [Sys.goto, ht] using ha)
  | @addInserts u d hu hp hm =>
    by_cases htm : tm = u
    · subst htm
      exact .inr (.inr ⟨rfl, d, hp⟩)
    · refine .inl (hmove hp ?_)
      rintro ⟨d', hp | hp⟩ <;> cases hp
      exact htm rfl
  | delayWaits hu hp hs hst => exact .inl (hmove hp (by rintro ⟨d, hp | hp⟩ <;> cases hp))
  | delaySkips hu hp hs => exact .inl (hmove hp (by rintro ⟨d, hp | hp⟩ <;> cases hp))
  | delayFrees hu hp hst => exact .inl (hmove hp (by rintro ⟨d, hp | hp⟩ <;> cases hp))
  | @write w hu hw => cases w <;> exact .inl ha
  | _ => exact .inl ha

/-- A task about to insert the timer was so before, or has just compared. -/
theorem SysEffect.insert_step (heff : SysEffect s e s') {delay : Bool} (hp' : s'.spc t = .timerAddInsert tm delay) :
    s.spc t = .timerAddInsert tm delay ∨ Sys.Compares tm ⟨s, e, s'⟩ := by
  have hmove {p : ServicePc} (hp : p ≠ .timerAddInsert tm delay)
      (h : Function.update s.spc s.cs.core.running p t = .timerAddInsert tm delay) :
      s.spc t = .timerAddInsert tm delay := by
    by_cases ht : t = s.cs.core.running
    · rw [ht, Function.update_self] at h
      exact absurd h hp
    · rwa [Function.update_of_ne ht] at h
  have hfinish {u : TimerRef} {d : Bool} :
      (if d = true then ServicePc.timerDelayTest u else .user) ≠ .timerAddInsert tm delay := by cases d <;> simp
  cases heff with
  | semQueued hu hr hn hz => exact .inl (hmove (by simp) hp')
  | semBlocks hu hp hst => exact .inl (hmove (by simp) hp')
  | semReturns hu hp => exact .inl (hmove (by simp) hp')
  | portWaits hu hf hn hst => exact .inl (hmove (by simp) hp')
  | portReturns hu hp hl hst => exact .inl (hmove (by simp) hp')
  | addStarts hu hf hs => exact .inl (hmove (by simp) hp')
  | delayStarts hu hf hd hst => exact .inl (hmove (by simp) hp')
  | addElapsed hu hp he => exact .inl (hmove hfinish hp')
  | @addPasses u d hu hp he =>
    by_cases ht : t = s.cs.core.running
    · have hud : u = tm ∧ d = delay := by simpa [Sys.goto, ht] using hp'
      exact .inr ⟨rfl, d, by rw [← hud.1]; exact hp⟩
    · exact .inl (by simpa [Sys.goto, ht] using hp')
  | addInserts hu hp hm => exact .inl (hmove hfinish hp')
  | delayWaits hu hp hs hst => exact .inl (hmove (by simp) hp')
  | delaySkips hu hp hs => exact .inl (hmove (by simp) hp')
  | delayFrees hu hp hst => exact .inl (hmove (by simp) hp')
  | @write w hu hw => cases w <;> exact .inl hp'
  | _ => exact .inl hp'

/-- A task inside `timer_delay` stays there as long as its timer is not marked. -/
theorem DelaysWell.delays_or_marks (h : DelaysWell s) (hok : PrivateDelays s e) (hst : s.Step e s')
    (hd : (s.spc t).Delays tm) (hin : (s.spc t).Adds tm ∨ tm ∈ s.svc.timers ()) :
    Sys.Marks tm ⟨s, e, s'⟩ ∨ ((s'.spc t).Delays tm ∧ ((s'.spc t).Adds tm ∨ tm ∈ s'.svc.timers ())) := by
  have heff := h.sound.effect hst
  have hd' : (s'.spc t).Delays tm := by
    rcases heff.delays_kept hd with hd' | ⟨rfl, rfl, hp⟩
    · exact hd'
    · -- at its end `timer_delay` finds the timer out of the queue
      rcases hin with ha | hq
      · rw [hp] at ha
        obtain ⟨d, ha | ha⟩ := ha <;> cases ha
      · exact absurd (h.delaying.asleep _ tm hp hq) (CoreSys.not_asleep_of_user hst.1.1.2 _)
  rcases hin with ha | hq
  · rcases heff.adds_kept ha with ha' | he | hi
    · exact .inr ⟨hd', .inl ha'⟩
    · exact .inl (.inl he)
    · exact .inr ⟨hd', .inr (hi.queued h.sound hst)⟩
  · by_cases hf : tm ∈ Sys.fired ⟨s, e, s'⟩
    · exact .inl (.inr hf)
    · have hna : e.service ≠ some (.timerAbort tm) := fun ha => hok.timer t tm hd (.inr (.inr (.inr (.inl ha))))
      exact .inr ⟨hd', .inr (Timed.stays h.sound hst hq hna hf)⟩

end

/-! ### Every run -/

/-- The deadline is `d` ticks after `t`, and `j` ticks have passed. If the sum does not wrap
around, or the clock has done so too, it is not found elapsed too early. -/
theorem le_of_elapsed {t d : Ticks} {j : ℕ} (hw : t.toNat + d.toNat < 2 ^ 32 ∨ 2 ^ 32 ≤ t.toNat + j)
    (hle : t + d ≤ t + BitVec.ofNat 32 j) : d.toNat ≤ j := by
  have ht := t.isLt
  have hd := d.isLt
  rw [BitVec.le_def, BitVec.toNat_add, BitVec.toNat_add, BitVec.toNat_ofNat] at hle
  omega

/-- If the sum wraps around and the clock has not, it is found elapsed. -/
theorem elapsed_of_wraps {t d : Ticks} {j : ℕ} (hd : 2 ^ 32 ≤ t.toNat + d.toNat) (hj : t.toNat + j < 2 ^ 32) :
    t + d ≤ t + BitVec.ofNat 32 j := by
  have hlt := d.isLt
  rw [BitVec.le_def, BitVec.toNat_add, BitVec.toNat_add, BitVec.toNat_ofNat]
  omega

/-- In the move `timer_add(tm)` reads the clock, for a delay of `d` ticks. -/
def Sys.StartsDelay (tm : TimerRef) (d : Ticks) (m : Move Sys SysEvent) : Prop :=
  (m.event = .call (.timerAdd tm) ∧ (m.pre.svc.timer tm).op = .delay ∧ (m.pre.svc.timer tm).delay = d) ∨
    m.event = .call (.timerDelay tm d)

/-- In the moves after that, up to the next `timer_add(tm)`, the timer is marked only after `d`
ticks. -/
def Sys.MarksLate (tm : TimerRef) (d : Ticks) (tr : List (Move Sys SysEvent)) : Prop :=
  ∀ as x bs, tr = as ++ x :: bs → (∀ y ∈ as, ¬ y.event.Adds tm) → Sys.Marks tm x →
    d.toNat ≤ Sys.ticks (as ++ [x])

/-- In the moves after that, up to the next `timer_add(tm)`, task `t` is at the end of
`timer_delay` and goes on to return only after `d` ticks. -/
def Sys.ReturnsLate (tm : TimerRef) (d : Ticks) (t : TaskRef) (tr : List (Move Sys SysEvent)) : Prop :=
  ∀ as x bs, tr = as ++ x :: bs → (∀ y ∈ as, ¬ y.event.Adds tm) → x.event = .resume →
    x.pre.cs.core.running = t → x.pre.spc t = .timerDelayFree tm → d.toNat ≤ Sys.ticks as

/-- The clock, which stood at `now`, and the delay do not wrap around, or the clock has wrapped
around itself when `timer_add` compares. -/
def Sys.ClockAhead (tm : TimerRef) (d now : Ticks) (tr : List (Move Sys SysEvent)) : Prop :=
  now.toNat + d.toNat < 2 ^ 32 ∨
    ∀ as x bs, tr = as ++ x :: bs → (∀ y ∈ as, ¬ y.event.Adds tm) → Sys.Compares tm x →
      2 ^ 32 ≤ now.toNat + Sys.ticks as

section

variable {s₀ s : Sys} {tr : List (Move Sys SysEvent)} {tm : TimerRef} {m : Move Sys SysEvent} {d : Ticks}

/-- While `timer_add` does not begin anew, a timer that is being added or queued keeps its
tick. -/
theorem DelaysWell.tick_run (h : DelaysWell s₀) (hr : Run (Restrict PrivateDelays Sys.Step) s₀ tr s)
    (hno : ∀ y ∈ tr, ¬ y.event.Adds tm) (hin : s.adding tm = true ∨ tm ∈ s.svc.timers ()) :
    (s.svc.timer tm).tick = (s₀.svc.timer tm).tick := by
  induction hr with
  | nil => rfl
  | @snoc tr s s' e hr hst ih =>
    have hs := h.run hr
    obtain ⟨hin', htick⟩ := hs.timed.tick_step (hs.sound.effect hst.2) (hno ⟨s, e, s'⟩ (by simp)) hin
    exact htick.trans (ih (fun y hy => hno y (List.mem_append_left _ hy)) hin')

/-- A timer is queued only after `timer_add` has compared. -/
theorem DelaysWell.compared_run (h : DelaysWell s₀) (hr : Run (Restrict PrivateDelays Sys.Step) s₀ tr s)
    (hq₀ : tm ∉ s₀.svc.timers ()) (hi₀ : ∀ t delay, s₀.spc t ≠ .timerAddInsert tm delay)
    (hin : tm ∈ s.svc.timers () ∨ ∃ t delay, s.spc t = .timerAddInsert tm delay) :
    ∃ as x bs, tr = as ++ x :: bs ∧ Sys.Compares tm x := by
  induction hr with
  | nil =>
    rcases hin with hq | ⟨t, delay, hp⟩
    · exact absurd hq hq₀
    · exact absurd hp (hi₀ t delay)
  | @snoc tr s s' e hr hst ih =>
    have heff := (h.run hr).sound.effect hst.2
    have hold (hin : tm ∈ s.svc.timers () ∨ ∃ t delay, s.spc t = .timerAddInsert tm delay) :
        ∃ as x bs, tr ++ [⟨s, e, s'⟩] = as ++ x :: bs ∧ Sys.Compares tm x := by
      obtain ⟨as, x, bs, rfl, hx⟩ := ih hin
      exact ⟨as, x, bs ++ [⟨s, e, s'⟩], by simp, hx⟩
    rcases hin with hq | ⟨t, delay, hp⟩
    · by_cases hqs : tm ∈ s.svc.timers ()
      · exact hold (.inl hqs)
      · by_cases hi : Sys.Inserts tm ⟨s, e, s'⟩
        · obtain ⟨-, delay, hp⟩ := hi
          exact hold (.inr ⟨_, delay, hp⟩)
        · exact absurd hq (heff.not_queued hqs hi)
    · rcases heff.insert_step hp with hp | hc
      · exact hold (.inr ⟨t, delay, hp⟩)
      · exact ⟨tr, ⟨s, e, s'⟩, [], rfl, hc⟩

/-- A task that has called `timer_delay` is still in it, or its timer has been marked. -/
theorem DelaysWell.marked_run (h : DelaysWell s₀) (hr : Run (Restrict PrivateDelays Sys.Step) s₀ tr s) {t : TaskRef}
    (hd₀ : (s₀.spc t).Delays tm) (ha₀ : (s₀.spc t).Adds tm) :
    (∃ as x bs, tr = as ++ x :: bs ∧ Sys.Marks tm x) ∨
      ((s.spc t).Delays tm ∧ ((s.spc t).Adds tm ∨ tm ∈ s.svc.timers ())) := by
  induction hr with
  | nil => exact .inr ⟨hd₀, .inl ha₀⟩
  | @snoc tr s s' e hr hst ih =>
    rcases ih with ⟨as, x, bs, rfl, hx⟩ | ⟨hd, hin⟩
    · exact .inl ⟨as, x, bs ++ [⟨s, e, s'⟩], by simp, hx⟩
    · rcases (h.run hr).delays_or_marks hst.1 hst.2 hd hin with hm | hd'
      · exact .inl ⟨tr, ⟨s, e, s'⟩, [], rfl, hm⟩
      · exact .inr hd'

/-- What holds when `timer_add` has read the clock for a delay. -/
structure Sys.Started (tm : TimerRef) (d : Ticks) (m : Move Sys SysEvent) : Prop where
  /-- The deadline. -/
  tick : (m.post.svc.timer tm).tick = m.pre.svc.timerNow + d
  /-- The clock has not moved. -/
  now : m.post.svc.timerNow = m.pre.svc.timerNow
  /-- The timer is not queued. -/
  out : tm ∉ m.post.svc.timers ()
  /-- The running task is before the comparison. -/
  running : ∃ delay, m.post.spc m.pre.cs.core.running = .timerAddCheck tm delay ∧
    (m.event = .call (.timerDelay tm d) → delay = true)

theorem DelaysWell.started (h : DelaysWell m.pre) (hst : m.pre.Step m.event m.post) (hm : Sys.StartsDelay tm d m) :
    Sys.Started tm d m := by
  rcases m with ⟨s, e, s'⟩
  have hnow := (h.sound.effect hst).timerNow_eq
  dsimp only at hnow hst h
  rcases hm with ⟨he, hop, hdelay⟩ | he
  · dsimp only at he hop hdelay
    subst he
    have hx := hst.2
    simp only [Sys.exec, Sys.execCall, Sys.startAdd, timerAddStart, hop, if_true, bind_eq_ok, pure_eq_ok,
      assertThat_eq_ok] at hx
    obtain ⟨svc, ⟨-, -, -, hstatus, rfl⟩, rfl⟩ := hx
    refine ⟨by simp [hdelay], by simpa [SysEvent.isTick] using hnow, fun hq => ?_, false, ?_, by simp⟩
    · rw [(h.timed.queued tm hq).1] at hstatus
      simp at hstatus
    · simp [Sys.goto]
  · dsimp only at he
    subst he
    obtain ⟨i, hi, htm, -, hspc, -, htimers⟩ := h.sound.timerDelay_step hst
    refine ⟨by dsimp only; rw [htm], by simpa [SysEvent.isTick] using hnow, ?_, true, ?_, fun _ => rfl⟩
    · dsimp only
      rw [htimers]
      exact hst.1.2.2.1.2
    · dsimp only
      rw [hspc, Function.update_self]

/-- The clock at a later move. -/
theorem DelaysWell.timerNow_run (h : DelaysWell s₀) (hr : Run (Restrict PrivateDelays Sys.Step) s₀ tr s) :
    s.svc.timerNow = s₀.svc.timerNow + BitVec.ofNat 32 (Sys.ticks tr) :=
  h.sound.timerNow_run (hr.mono fun _ _ _ hst => hst.2)

theorem Sys.Started.marksLate (h : Sys.Started tm d m) (hw : DelaysWell m.post)
    (hr : Run (Restrict PrivateDelays Sys.Step) m.post tr s) (hc : Sys.ClockAhead tm d m.pre.svc.timerNow tr) :
    Sys.MarksLate tm d tr := by
  intro as x bs htr hno hmark
  obtain ⟨hr₁, hst, -⟩ := hr.split htr
  have hpre := hw.run hr₁
  have hnow : x.pre.svc.timerNow = m.pre.svc.timerNow + BitVec.ofNat 32 (Sys.ticks as) := by
    rw [hw.timerNow_run hr₁, h.now]
  have htick (hin : x.pre.adding tm = true ∨ tm ∈ x.pre.svc.timers ()) :
      (x.pre.svc.timer tm).tick = m.pre.svc.timerNow + d := (hw.tick_run hr₁ hno hin).trans h.tick
  rcases hmark with ⟨hev, ⟨delay, hp⟩, hle⟩ | hfired
  · -- `timer_add` has compared
    have hadd := (hpre.timed.adders _ tm ⟨delay, .inl hp⟩).1
    have hle : (x.pre.svc.timer tm).tick ≤ x.pre.svc.timerNow := of_decide_eq_true hle
    rw [htick (.inl hadd), hnow] at hle
    have hcmp : m.pre.svc.timerNow.toNat + d.toNat < 2 ^ 32 ∨ 2 ^ 32 ≤ m.pre.svc.timerNow.toNat + Sys.ticks as :=
      hc.imp_right fun hc => hc as x bs htr hno ⟨hev, delay, hp⟩
    rw [Sys.ticks_append]
    exact Nat.le_add_right_of_le (le_of_elapsed hcmp hle)
  · -- a poll has found the timer due; it was queued, so `timer_add` has compared before
    have hq := Sys.mem_timers_of_mem_fired hfired
    have hsorted : Seqs.Descending x.pre.svc.clocked.urgency (x.pre.svc.clocked.timers ()) := hpre.timed.sorted
    have hev : x.event = .tim2 := by
      unfold Sys.fired at hfired
      split at hfired
      · assumption
      · exact nomatch hfired
    have hdue : tm ∈ x.pre.svc.clocked.due := by rwa [Sys.fired, hev] at hfired
    have hle : (x.pre.svc.timer tm).tick ≤ x.pre.svc.timerNow + BitVec.ofNat 32 1 :=
      ((Services.mem_due_iff hsorted).mp hdue).2
    have hticks : Sys.ticks (as ++ [x]) = Sys.ticks as + 1 := by
      rw [Sys.ticks_append]
      simp [Sys.ticks, hev, SysEvent.isTick]
    rw [htick (.inr hq), hnow, BitVec.add_assoc, ← BitVec.ofNat_add] at hle
    rw [hticks]
    refine le_of_elapsed (hc.imp_right fun hc => ?_) hle
    have hinsert (t : TaskRef) (delay : Bool) : m.post.spc t ≠ .timerAddInsert tm delay := by
      intro hp
      obtain ⟨delay', hrun, -⟩ := h.running
      obtain rfl := hw.timed.unique t _ tm ⟨delay, .inr hp⟩ ⟨delay', .inl hrun⟩
      cases hp.symm.trans hrun
    obtain ⟨as₁, y, as₂, rfl, hy⟩ := hw.compared_run hr₁ h.out hinsert (.inl hq)
    have hcmp := hc as₁ y (as₂ ++ x :: bs) (by simp [htr]) (fun z hz => hno z (List.mem_append_left _ hz)) hy
    rw [Sys.ticks_append]
    omega

/-- **When a delay lasts as long as requested.** In a run in which the timers of `timer_delay`
are private, and no other timer is aborted a second time (`Sys.ServiceContract`), after
`timer_add` has read the clock for a delay of `d` ticks: the timer is marked `TIMER_ABORTED`
or `TIMER_DONE` only after `d` ticks, and `timer_delay`, if it was the caller, returns only
after `d` ticks, if and only if the clock and the delay did not wrap around, or the clock had
wrapped around itself when `timer_add` compared. -/
theorem delay_lasts_iff {cfg : Config} {c : Core} (h : martosPre cfg = .ok c)
    (hr : Run (Restrict PrivateDelays Sys.Step) (Sys.start c) tr s) {tr₁ tr₂ : List (Move Sys SysEvent)}
    (htr : tr = tr₁ ++ m :: tr₂) (hm : Sys.StartsDelay tm d m) :
    Sys.MarksLate tm d tr₂ ∧
      (m.event = .call (.timerDelay tm d) → Sys.ReturnsLate tm d m.pre.cs.core.running tr₂) ↔
    Sys.ClockAhead tm d m.pre.svc.timerNow tr₂ := by
  obtain ⟨hr₁, hst, hr₂⟩ := hr.split htr
  have hpre := (DelaysWell.start h).run hr₁
  have hpost := hpre.step hst
  have hstarted := hpre.started hst.2 hm
  refine ⟨fun hlate => ?_, fun hc => ⟨hstarted.marksLate hpost hr₂ hc, fun he => ?_⟩⟩
  · -- a comparison before the clock wraps around would mark the timer at once
    by_cases hwrap : m.pre.svc.timerNow.toNat + d.toNat < 2 ^ 32
    · exact .inl hwrap
    refine .inr fun as x bs htr₂ hno ⟨hev, delay, hp⟩ => ?_
    by_contra hlt
    obtain ⟨hr₃, hst', -⟩ := hr₂.split htr₂
    have hx := hpost.run hr₃
    have hadd := (hx.timed.adders _ tm ⟨delay, .inl hp⟩).1
    have helapsed : (x.pre.svc.timer tm).tick ≤ x.pre.svc.timerNow := by
      rw [hpost.tick_run hr₃ hno (.inl hadd), hpost.timerNow_run hr₃, hstarted.tick, hstarted.now]
      exact elapsed_of_wraps (not_lt.mp hwrap) (not_le.mp hlt)
    have hle := hlate.1 as x bs htr₂ hno (.inl ⟨hev, ⟨delay, hp⟩, decide_eq_true helapsed⟩)
    have hticks : Sys.ticks (as ++ [x]) = Sys.ticks as := by
      rw [Sys.ticks_append]
      simp [Sys.ticks, hev, SysEvent.isTick]
    omega
  · intro as x bs htr₂ hno hev hrun hp
    obtain ⟨hr₃, hst', -⟩ := hr₂.split htr₂
    have hx := hpost.run hr₃
    obtain ⟨delay, hcheck, htrue⟩ := hstarted.running
    obtain rfl := htrue he
    rcases hpost.marked_run (t := m.pre.cs.core.running) hr₃ (.inl hcheck) ⟨true, .inl hcheck⟩ with
      ⟨as₁, y, as₂, rfl, hy⟩ | ⟨-, hin⟩
    · have hle := hstarted.marksLate hpost hr₂ hc as₁ y (as₂ ++ x :: bs) (by simp [htr₂])
        (fun z hz => hno z (List.mem_append_left _ hz)) hy
      have hticks : Sys.ticks (as₁ ++ y :: as₂) = Sys.ticks (as₁ ++ [y]) + Sys.ticks as₂ := by
        rw [← Sys.ticks_append, List.append_assoc, List.singleton_append]
      omega
    · -- the task is at user code: its timer is not queued any more
      have huser : x.pre.cs.pc m.pre.cs.core.running = .user := by
        have hen := hst'.2.1
        rw [hev] at hen
        rw [← hrun]
        exact hen.1.2
      rcases hin with ha | hq
      · rw [hp] at ha
        obtain ⟨d', ha | ha⟩ := ha <;> cases ha
      · exact absurd (hx.delaying.asleep _ tm hp hq) (CoreSys.not_asleep_of_user huser _)

/-! ### Delays that can be replayed -/

instance (tm : TimerRef) (p : ServicePc) : Decidable (p.Delays tm) := inferInstanceAs (Decidable (_ ∨ _ ∨ _ ∨ _))

theorem ServicePc.Delays.unique {p : ServicePc} {tm tm' : TimerRef} (h : p.Delays tm) (h' : p.Delays tm') :
    tm = tm' := by
  rcases h with h | h | h | h <;> rcases h' with h' | h' | h' | h' <;> cases h.symm.trans h' <;> rfl

/-- Task `t` alone makes calls of the services; while it is inside `timer_delay` there are no other
calls of `signal_send`, and no other timer is due. -/
def Sys.LoneDelay (t : TaskRef) (s : Sys) : SysEvent → Prop
  | .core e => s.spc t = .user ∨ s.sends (.core e) = []
  | .call _ => s.spc t = .user ∧ s.cs.core.running = t
  | .resume => True
  | .isr _ => s.spc t = .user
  | .tim2 => ∀ tm ∈ s.svc.clocked.due, (s.spc t).Delays tm

instance (t : TaskRef) (s : Sys) (e : SysEvent) : Decidable (s.LoneDelay t e) :=
  match e with
  | .core e => inferInstanceAs (Decidable (s.spc t = .user ∨ s.sends (.core e) = []))
  | .call _ => inferInstanceAs (Decidable (s.spc t = .user ∧ s.cs.core.running = t))
  | .resume => inferInstanceAs (Decidable True)
  | .isr _ => inferInstanceAs (Decidable (s.spc t = .user))
  | .tim2 => inferInstanceAs (Decidable (∀ tm ∈ s.svc.clocked.due, (s.spc t).Delays tm))

theorem Sys.LoneDelay.privateDelays (h : s.LoneDelay t e) (honly : ∀ u tm, (s.spc u).Delays tm → u = t) :
    PrivateDelays s e := by
  have hidle (hu : s.spc t = .user) : PrivateDelays s e := by
    have hnot (u : TaskRef) (tm : TimerRef) (hd : (s.spc u).Delays tm) : False := by
      rw [honly u tm hd, hu] at hd
      rcases hd with hd | hd | hd | hd <;> cases hd
    exact ⟨fun u tm hd => (hnot u tm hd).elim, fun u tm hd => (hnot u tm hd).elim⟩
  cases e with
  | core e =>
    refine h.elim hidle fun hsend => ⟨fun u tm hd hu => ?_, fun u tm hd sg hmem => ?_⟩
    · rcases hu with (hu | ⟨ticks, hu⟩) | hu | hu | hu | ⟨op, delay, tick, hu⟩ <;> cases hu
    · rw [hsend] at hmem
      cases hmem
  | call k => exact hidle h.1
  | resume =>
    refine ⟨fun u tm hd hu => ?_, fun u tm hd sg hmem => nomatch hmem⟩
    rcases hu with (hu | ⟨ticks, hu⟩) | hu | hu | hu | ⟨op, delay, tick, hu⟩ <;> cases hu
  | isr a => exact hidle h
  | tim2 =>
    refine ⟨fun u tm hd hu => ?_, fun u tm hd sg hmem _ => ⟨rfl, ?_⟩⟩
    · rcases hu with (hu | ⟨ticks, hu⟩) | hu | hu | hu | ⟨op, delay, tick, hu⟩ <;> cases hu
    · obtain ⟨tm', hdue, -⟩ := List.mem_filterMap.mp hmem
      obtain rfl := honly u tm hd
      exact hd.unique (h tm' hdue) ▸ hdue

theorem Sys.lone_delay_step (h : Sound s ∧ ∀ u tm, (s.spc u).Delays tm → u = t)
    (hst : Restrict (Sys.LoneDelay t) Sys.Step s e s') :
    Restrict PrivateDelays Sys.Step s e s' ∧ Sound s' ∧ ∀ u tm, (s'.spc u).Delays tm → u = t := by
  obtain ⟨hs, honly⟩ := h
  have hok := hst.1.privateDelays honly
  refine ⟨⟨hok, hst.2⟩, hs.step hst.2, fun u tm hd => ?_⟩
  rcases hok.delays_step (hs.effect hst.2) hd with ⟨rfl, ticks, rfl⟩ | ⟨hd, -⟩
  · exact hst.1.2
  · exact honly u tm hd

/-- A run in which task `t` alone calls `timer_delay`. -/
theorem Sys.run_of_loneDelay {cfg : Config} {c : Core} (h : martosPre cfg = .ok c)
    (hr : Run (Restrict (Sys.LoneDelay t) Sys.Step) (Sys.start c) tr s) :
    Run (Restrict PrivateDelays Sys.Step) (Sys.start c) tr s ∧
      Sound s ∧ ∀ u tm, (s.spc u).Delays tm → u = t := by
  refine hr.refine (P := fun s => Sound s ∧ ∀ u tm, (s.spc u).Delays tm → u = t) ⟨.start h, ?_⟩
    fun _ _ _ => Sys.lone_delay_step
  rintro u tm (hd | hd | hd | hd) <;> cases hd

/-- What happens between a call of `timer_delay` by task 1 and its return when the timer has been
queued: it sleeps, the init task runs, and the timer fires with the last of these ticks. -/
def exampleDelay (ticks : ℕ) : List SysEvent :=
  [.resume, .resume, .resume, .core .resume, .core .pendSV, .core (.pendSVSwitch 0x20001200), .core .pendSVExit] ++
    List.replicate ticks .tim2 ++ [.core .pendSV, .core (.pendSVSwitch 0x20000200), .core .pendSVExit, .core .resume]

/-- The theorem at a delay of five ticks, called at clock 1: the timer is queued, fires with the
fifth tick, and the delay returns. -/
theorem delay_lasts_iff_five : ∃ c tr s tr₁ m tr₂, martosPre CoreSys.exampleConfig = .ok c ∧
    Run (Restrict PrivateDelays Sys.Step) (Sys.start c) tr s ∧ tr = tr₁ ++ m :: tr₂ ∧
    m.event = .call (.timerDelay 7 5) ∧ m.pre.svc.timerNow = 1 ∧ Sys.ticks tr₂ = 5 ∧
    (s.svc.timer 7).status = .invalid ∧ s.spc 1 = .user ∧ Sys.MarksLate 7 5 tr₂ ∧ Sys.ReturnsLate 7 5 1 tr₂ := by
  obtain ⟨c, tr₁, s₁, s₂, tr₂, s, hc, hr, htr, hp⟩ := Sys.exists_run CoreSys.exampleConfig (Sys.LoneDelay 1)
    (CoreSys.oneTask.map .core ++ [.tim2]) (.call (.timerDelay 7 5)) (exampleDelay 5 ++ [.resume])
    (p := fun s₁ _ s => decide (s₁.svc.timerNow = 1 ∧ s₁.cs.core.running = 1 ∧ (s.svc.timer 7).status = .invalid ∧
      s.spc 1 = .user)) (by decide +kernel)
  obtain ⟨hnow, hcaller, hstatus, huser⟩ := of_decide_eq_true hp
  have hr := (Sys.run_of_loneDelay hc hr).1
  have hticks : Sys.ticks tr₂ = 5 := by
    calc Sys.ticks tr₂ = (tr₂.map Move.event).countP SysEvent.isTick := by rw [List.countP_map]; rfl
      _ = 5 := by rw [htr]; rfl
  have hahead : Sys.ClockAhead 7 5 s₁.svc.timerNow tr₂ := .inl (by rw [hnow]; decide)
  obtain ⟨hmarks, hreturns⟩ := (delay_lasts_iff hc hr rfl (.inr rfl)).mpr hahead
  exact ⟨c, _, s, tr₁, _, tr₂, hc, hr, rfl, rfl, hnow, hticks, hstatus, huser, hmarks, hcaller ▸ hreturns rfl⟩

/-- At clock 1 a delay of `2 ^ 32 - 1` ticks is found elapsed at once. -/
theorem delay_wraps_around : ¬ ∀ (cfg : Config) (c : Core) (tr : List (Move Sys SysEvent)) (s : Sys)
    (tr₁ tr₂ : List (Move Sys SysEvent)) (m : Move Sys SysEvent) (tm : TimerRef) (d : Ticks),
    martosPre cfg = .ok c → Run (Restrict PrivateDelays Sys.Step) (Sys.start c) tr s → tr = tr₁ ++ m :: tr₂ →
    Sys.StartsDelay tm d m → 1 ≤ d.toNat → Sys.MarksLate tm d tr₂ := by
  intro hall
  obtain ⟨c, tr₁, s₁, s₂, tr₂, s, hc, hr, htr, hp⟩ := Sys.exists_run CoreSys.exampleConfig (Sys.LoneDelay initTask)
    [.tim2] (.call (.timerDelay 7 0xFFFFFFFF#32)) []
    (p := fun _ s₂ _ => decide (s₂.spc s₂.cs.core.running = .timerAddCheck 7 true ∧ timerElapsed 7 s₂.svc = true) &&
      (s₂.next .resume).isSome) (by decide +kernel)
  obtain ⟨hp, hnext⟩ := Bool.and_eq_true_iff.mp hp
  obtain ⟨hspc, helapsed⟩ := of_decide_eq_true hp
  obtain ⟨s₃, h₃⟩ := Option.isSome_iff_exists.mp hnext
  obtain rfl := List.map_eq_nil_iff.mp htr
  obtain rfl := (hr.split rfl).2.2.eq_of_nil
  have hresume : Restrict (Sys.LoneDelay initTask) Sys.Step s .resume s₃ := ⟨trivial, Sys.step_of_next h₃⟩
  have hr := (Sys.run_of_loneDelay hc (hr.snoc hresume)).1
  have hlate := hall _ c _ s₃ _ _ _ 7 _ hc hr (List.append_assoc ..) (.inr rfl) (by decide)
  have hle := hlate [] ⟨s, .resume, s₃⟩ [] rfl (fun _ hy => nomatch hy) (.inl ⟨rfl, ⟨true, hspc⟩, helapsed⟩)
  have hticks : Sys.ticks [⟨s, .resume, s₃⟩] = 0 := rfl
  simp [hticks] at hle

end

end Martos
