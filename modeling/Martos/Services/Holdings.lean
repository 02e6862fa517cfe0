import Martos.Core.Allocation
import Martos.Services.Deliveries

/-!
# Signal bits are never shared

A task hands out its signals to its own code (`signal_allocate`), to its timers
(`timer_allocate`, `timer_delay`) and to its ports (`msgport_init`). Who holds which bit is
read off the moves of a run (`Sys.holdings`). As long as a bit is freed only by its holder,
the holders of a task have different bits, `sig_alloc` is `SIGF_SINGLE` and these bits, and a bit
is not pending when it is handed out (`signal_bits_never_shared`).
-/

namespace Martos

open Checked Transition

/-- The bit of the holder `h` is another one from now on. -/
def Holder.replaced (h : Holder) (old : Holder) : Holder :=
  match h with
  | .timer tm => if old = .timer tm then .abandoned tm else old
  | _ => old

namespace Sys

variable (s : Sys)

/-- For whom an event calls `signal_free`, and with which bits. -/
def frees : SysEvent → Option (Holder × Signals)
  | .core (.call (.signalFree sg)) => some (.direct, sg)
  | .call (.timerFree tm) => some (.timer tm, (s.svc.timer tm).signal)
  | .resume =>
    match s.spc s.cs.core.running with
    | .timerDelayFree tm => some (.timer tm, (s.svc.timer tm).signal)
    | _ => none
  | _ => none

/-- The bit that is handed out in an event, and to whom. -/
def handsOut (e : SysEvent) : Option (Holder × ℕ) :=
  e.allocates.bind fun p =>
    match signalAllocate p.2 s.cs.core with
    | .ok (signum, _) => if signum = -1 then none else some (p.1, signum.toNat)
    | .error _ => none

end Sys

/-- The holders of the bits of each task. -/
def Holdings := TaskRef → List (Holder × ℕ)

/-- Nothing has been handed out. -/
def Holdings.empty : Holdings := fun _ => []

/-- Bit `i` of task `t` is handed out to `h`. -/
def Holdings.add (H : Holdings) (t : TaskRef) (h : Holder) (i : ℕ) : Holdings := fun u =>
  if u = t then (h, i) :: (H u).map (Prod.map h.replaced id) else (H u).map (Prod.map h.replaced id)

/-- `h` gives back the bits `sg` of task `t`. -/
def Holdings.remove (H : Holdings) (t : TaskRef) (h : Holder) (sg : Signals) : Holdings := fun u =>
  if u = t then (H u).filter fun p => ¬ (p.1 = h ∧ sg.getLsbD p.2 = true) else H u

/-- The holders after a move. -/
def Holdings.after (H : Holdings) (m : Move Sys SysEvent) : Holdings :=
  match m.pre.handsOut m.event with
  | some p => H.add m.pre.cs.core.running p.1 p.2
  | none =>
    match m.pre.frees m.event with
    | some p => H.remove m.pre.cs.core.running p.1 p.2
    | none => H

/-- The holders after a list of moves. -/
def Sys.holdings (tr : List (Move Sys SysEvent)) : Holdings := tr.foldl Holdings.after .empty

/-- In the moves `tr`, a bit is freed only by its holder. -/
def Sys.FreesOwn (tr : List (Move Sys SysEvent)) : Prop :=
  ∀ tr₁ m tr₂, tr = tr₁ ++ m :: tr₂ → ∀ h sg, m.pre.frees m.event = some (h, sg) →
    ∀ i, sg.getLsbD i = true → (h, i) ∈ Sys.holdings tr₁ m.pre.cs.core.running

/-! ### Steps that leave `sig_alloc` alone -/

/-- The event is none of those that write `sig_alloc`. -/
structure Event.KeepsAlloc (e : Event) : Prop where
  /-- `signal_allocate`. -/
  allocate : ∀ n, e ≠ .call (.signalAllocate n)
  /-- `signal_free`. -/
  free : ∀ sg, e ≠ .call (.signalFree sg)
  /-- `task_init`. -/
  init : ∀ t params, e ≠ .call (.taskInit t params)

/-- The tasks have the same bits allocated, and the same of them are initialised. -/
structure SameAlloc (a b : CoreSys) : Prop where
  /-- `sig_alloc`. -/
  alloc : ∀ t, (b.core.task t).sigAlloc = (a.core.task t).sigAlloc
  /-- Whether a task is initialised. -/
  fresh : ∀ t, b.life t = .fresh ↔ a.life t = .fresh

theorem SameAlloc.refl (a : CoreSys) : SameAlloc a a := ⟨fun _ => rfl, fun _ => Iff.rfl⟩

theorem SameAlloc.trans {a b c : CoreSys} (h : SameAlloc a b) (h' : SameAlloc b c) : SameAlloc a c :=
  ⟨fun t => (h'.alloc t).trans (h.alloc t), fun t => (h'.fresh t).trans (h.fresh t)⟩

section

variable {a b : CoreSys} {ev : Event}

theorem SameAlloc.of_step (hn : Nested a) (hp : Placed a) (hst : a.Step ev b) (he : ev.KeepsAlloc) : SameAlloc a b := by
  have hsame {c : Core} {p : TaskRef → Pc} {ph : Phase} {d : TaskRef → ℕ}
      (hc : ∀ t, (c.task t).sigAlloc = (a.core.task t).sigAlloc) :
      SameAlloc a ⟨c, p, ph, d, a.life⟩ := ⟨hc, fun _ => Iff.rfl⟩
  cases hn.effect hst with
  | disable hu => exact hsame fun _ => rfl
  | enable hu hd => exact hsame fun _ => rfl
  | taskInit context hu hf => exact absurd rfl (he.init _ _)
  | taskSchedule hu hi => exact ⟨fun _ => rfl, Life.update_fresh_iff (by simp [hi]) (by simp)⟩
  | taskSetPrio hu => exact hsame (Core.apply_update Task.sigAlloc (by rfl))
  | signalAllocate target hu => exact absurd rfl (he.allocate _)
  | signalFree hu hs => exact absurd rfl (he.free _)
  | posted hw hev => exact hsame (Core.apply_update Task.sigAlloc (by rfl))
  | woken hw hm hev => exact hsame (Core.apply_update Task.sigAlloc (by rfl))
  | waitBlocks hu hnc hz hl =>
    exact hsame fun t => (Core.apply_update Task.sigAlloc (by rfl) t).trans (Core.apply_update Task.sigAlloc (by rfl) t)
  | waitReturns hu hnc hz =>
    exact hsame fun t => (Core.apply_update Task.sigAlloc (by rfl) t).trans (Core.apply_update Task.sigAlloc (by rfl) t)
  | inserts hth hpc hl =>
    refine ⟨Core.apply_update Task.sigAlloc (by rfl), Life.update_fresh_iff ?_ (by simp)⟩
    rw [hp.sched.begun _ _ hpc]
    simp
  | requests hth hpc => exact hsame fun _ => rfl
  | yields hth hpc => exact hsame fun _ => rfl
  | blocksAgain hth hpc hz hl => exact hsame (Core.apply_update Task.sigAlloc (by rfl))
  | returns hth hpc hz => exact hsame (Core.apply_update Task.sigAlloc (by rfl))
  | sysTick hm => exact hsame fun _ => rfl
  | pendSV hph hm => exact hsame fun _ => rfl
  | preempts hph hs hl hh =>
    exact hsame fun t => (Core.apply_update Task.sigAlloc (by rfl) t).trans (Core.apply_update Task.sigAlloc (by rfl) t)
  | leaves hph hs hor hh =>
    exact hsame fun t => (Core.apply_update Task.sigAlloc (by rfl) t).trans (Core.apply_update Task.sigAlloc (by rfl) t)
  | pendSVExit hph => exact hsame fun _ => rfl

end

section

variable {s s' : Sys} {e : SysEvent}

/-- The signals sent in a run leave `sig_alloc` alone. -/
theorem SameAlloc.of_sends {a b : CoreSys} {ctr : List (Move CoreSys Event)} {calls : List (TaskRef × Signals)}
    (hn : Nested a) (hp : Placed a) (hr : Run CoreSys.Step a ctr b)
    (htr : ctr.map Move.event = calls.map fun call => .isrSignalSend call.1 call.2) : SameAlloc a b := by
  have hkeeps : ∀ x ∈ ctr, x.event.KeepsAlloc := by
    intro x hx
    have hev := List.mem_map_of_mem (f := Move.event) hx
    rw [htr, List.mem_map] at hev
    obtain ⟨call, -, hcall⟩ := hev
    rw [← hcall]
    exact ⟨fun _ => by simp, fun _ => by simp, fun _ _ => by simp⟩
  clear htr
  induction hr with
  | nil => exact .refl a
  | @snoc ctr c d ev hrc hst ih =>
    obtain ⟨hn', hp'⟩ := hrc.invariant (P := fun s => Nested s ∧ Placed s) ⟨hn, hp⟩
      fun _ _ _ ⟨hn, hp⟩ hst => ⟨hn.step hst, hp.step hn hst⟩
    exact (ih fun x hx => hkeeps x (List.mem_append_left _ hx)).trans
      (.of_step hn' hp' hst (hkeeps ⟨c, ev, d⟩ (by simp)))

/-- **Only allocations, frees and `task_init` change `sig_alloc`.** -/
theorem Sound.sameAlloc (h : Sound s) (hst : s.Step e s') (ha : e.allocates = none) (hf : s.frees e = none)
    (hi : ∀ t params, e ≠ .core (.call (.taskInit t params))) : SameAlloc s.cs s'.cs := by
  have hone {ev : Event} {b : CoreSys} (hcall : s.cs.Step ev b) (hk : ev.KeepsAlloc) : SameAlloc s.cs b :=
    .of_step h.nested h.placed hcall hk
  have hdelivers {t : TaskRef} {sg : Signals} {b : CoreSys} (hd : s.cs.Delivers t sg b) : SameAlloc s.cs b := by
    obtain ⟨ev, hs, hcall⟩ := hd
    refine hone hcall ?_
    rcases hs with rfl | rfl <;> exact ⟨fun _ => by simp, fun _ => by simp, fun _ _ => by simp⟩
  cases h.effect hst with
  | @core ev cs hcall hc =>
    refine hone hcall ⟨?_, ?_, ?_⟩
    · rintro n rfl
      cases ha
    · rintro sg rfl
      cases hf
    · rintro t params rfl
      exact hi t params rfl
  | semBlocks hu hp hcall => exact hone hcall ⟨fun _ => by simp, fun _ => by simp, fun _ _ => by simp⟩
  | grants hc hn hh hd => exact hdelivers hd
  | portInit hu hact hcall => cases ha
  | sent hc hm hact hs =>
    rcases hs with ⟨t, -, -, hd⟩ | ⟨-, rfl⟩
    · exact hdelivers hd
    · exact .refl _
  | portWaits hu hact hd hcall => exact hone hcall ⟨fun _ => by simp, fun _ => by simp, fun _ _ => by simp⟩
  | portBlocks hu hp hl hcall => exact hone hcall ⟨fun _ => by simp, fun _ => by simp, fun _ _ => by simp⟩
  | portReturns hu hp hl hcall => exact hone hcall ⟨fun _ => by simp, fun _ => by simp, fun _ _ => by simp⟩
  | timerAllocate hu hfr hcall => cases ha
  | timerFree hu hfr hcall => cases hf
  | delayStarts hu hfr hd hcall => cases ha
  | delayWaits hu hp hadd hcall => exact hone hcall ⟨fun _ => by simp, fun _ => by simp, fun _ _ => by simp⟩
  | delayFrees hu hp hcall => simp [Sys.frees, hp] at hf
  | tim2 hm hc hr htr => exact .of_sends h.nested h.placed hr htr
  | @write w hu hw => cases w <;> exact .refl _
  | _ => exact .refl _

/-- Only an allocation changes the signal of a timer. -/
theorem SysEffect.signal_eq (heff : SysEffect s e s') {tm : TimerRef} (ha : ∀ n, e.allocates ≠ some (.timer tm, n)) :
    (s'.svc.timer tm).signal = (s.svc.timer tm).signal := by
  have hmod {u : TimerRef} {x : Timer} (hx : x.signal = (s.svc.timer u).signal) :
      (Function.update s.svc.timer u x tm).signal = (s.svc.timer tm).signal := by
    by_cases htm : tm = u
    · subst htm
      rw [Function.update_self, hx]
    · rw [Function.update_of_ne htm]
  have hother {u : TimerRef} {x : Timer} (hne : u ≠ tm) :
      (Function.update s.svc.timer u x tm).signal = (s.svc.timer tm).signal := by
    rw [Function.update_of_ne (Ne.symm hne)]
  cases heff with
  | @timerAllocate u sg cs hu hf hst =>
    refine hother ?_
    rintro rfl
    exact ha (-1) rfl
  | @delayStarts u ticks tick sg cs hu hf hd hst =>
    refine hother ?_
    rintro rfl
    exact ha (-1) rfl
  | timerFree hu hf hst => exact hmod (by rfl)
  | addStarts hu hadd hs => exact hmod (by rfl)
  | addElapsed hu hp he => exact hmod (by rfl)
  | addInserts hu hp hm => exact hmod (by rfl)
  | delayFrees hu hp hst => exact hmod (by rfl)
  | tim2 hm hc hr htr =>
    change (s.svc.clocked.polled.timer tm).signal = (s.svc.timer tm).signal
    unfold Services.polled
    dsimp only
    split <;> rfl
  | @write w hu hw =>
    cases w with
    | timer u op delay tick => exact hmod (by rfl)
    | _ => rfl
  | _ => rfl

/-- What an allocation does. -/
structure Sys.Allocates (s : Sys) (s' : Sys) (h : Holder) (n signum : ℤ) (c : Core) : Prop where
  /-- `signal_allocate` has been called. -/
  call : signalAllocate n s.cs.core = .ok (signum, c)
  /-- It has done nothing else to the core. -/
  cs : s'.cs = { s.cs with core := c }
  /-- A timer has got the bit. -/
  timer : ∀ tm, h = .timer tm → signum ≠ -1 ∧ (s'.svc.timer tm).signal = 1#16 <<< signum.toNat
  /-- A port has got the bit. -/
  port : ∀ p, h = .port p → signum ≠ -1 ∧ (s'.svc.port p).signal = 1#16 <<< signum.toNat

theorem Sys.Step.allocates {h : Holder} {n : ℤ} (hst : s.Step e s') (ha : e.allocates = some (h, n)) :
    ∃ signum c, s.Allocates s' h n signum c := by
  have hx := hst.2
  unfold SysEvent.allocates at ha
  split at ha
  · obtain ⟨rfl, rfl⟩ := Prod.mk.inj (Option.some.inj ha)
    simp only [Sys.exec, CoreSys.exec, CoreSys.execCall, bind_eq_ok, pure_eq_ok] at hx
    obtain ⟨cs, ⟨⟨signum, c⟩, hc, rfl⟩, rfl⟩ := hx
    exact ⟨signum, c, hc, rfl, by simp, by simp⟩
  · obtain ⟨rfl, rfl⟩ := Prod.mk.inj (Option.some.inj ha)
    simp only [Sys.exec, Sys.execCall, timerAllocate, bind_eq_ok, pure_eq_ok, assertThat_eq_ok] at hx
    obtain ⟨k, ⟨⟨signum, c⟩, hc, -, hne, rfl⟩, rfl⟩ := hx
    refine ⟨signum, c, hc, rfl, fun tm hh => ?_, by simp⟩
    obtain rfl := Holder.timer.inj hh
    exact ⟨hne, by simp [Sys.put]⟩
  · obtain ⟨rfl, rfl⟩ := Prod.mk.inj (Option.some.inj ha)
    simp only [Sys.exec, Sys.execCall, timerAllocate, Sys.startAdd, bind_eq_ok, pure_eq_ok, assertThat_eq_ok] at hx
    obtain ⟨k, ⟨⟨signum, c⟩, hc, -, hne, rfl⟩, svc, hs, rfl⟩ := hx
    obtain ⟨-, -, tick, rfl⟩ := timerAddStart_eq_ok hs
    refine ⟨signum, c, hc, rfl, fun tm hh => ?_, by simp⟩
    obtain rfl := Holder.timer.inj hh
    exact ⟨hne, by simp [Sys.put]⟩
  · obtain ⟨rfl, rfl⟩ := Prod.mk.inj (Option.some.inj ha)
    simp only [Sys.exec, Sys.execCall, msgportInit, bind_eq_ok, pure_eq_ok, assertThat_eq_ok] at hx
    obtain ⟨k, ⟨⟨signum, c⟩, hc, -, hne, rfl⟩, rfl⟩ := hx
    refine ⟨signum, c, hc, rfl, by simp, fun p hh => ?_⟩
    obtain rfl := Holder.port.inj hh
    exact ⟨hne, by simp [Sys.put]⟩
  · cases ha

/-- What a call of `signal_free` does. -/
theorem Sys.Step.frees {h : Holder} {sg : Signals} (hst : s.Step e s') (hf : s.frees e = some (h, sg)) :
    sg &&& sigfSingle = 0 ∧ s'.cs = { s.cs with core := s.cs.core.freed sg } := by
  have hfree {c : Core} (hc : signalFree sg s.cs.core = .ok c) : sg &&& sigfSingle = 0 ∧ c = s.cs.core.freed sg := by
    simp only [Core.signalFree_eq, bind_eq_ok, pure_eq_ok, assertThat_eq_ok] at hc
    obtain ⟨-, hs, -, -, rfl⟩ := hc
    exact ⟨hs, rfl⟩
  have hx := hst.2
  unfold Sys.frees at hf
  split at hf
  · obtain ⟨rfl, rfl⟩ := Prod.mk.inj (Option.some.inj hf)
    simp only [Sys.exec, CoreSys.exec, CoreSys.execCall, bind_eq_ok, pure_eq_ok] at hx
    obtain ⟨cs, ⟨c, hc, rfl⟩, rfl⟩ := hx
    obtain ⟨hs, rfl⟩ := hfree hc
    exact ⟨hs, rfl⟩
  · obtain ⟨rfl, rfl⟩ := Prod.mk.inj (Option.some.inj hf)
    simp only [Sys.exec, Sys.execCall, bind_eq_ok, pure_eq_ok] at hx
    obtain ⟨k, hk, rfl⟩ := hx
    obtain ⟨c, hc, rfl⟩ := timerFree_eq_ok hk
    obtain ⟨hs, rfl⟩ := hfree hc
    exact ⟨hs, rfl⟩
  · split at hf
    · next tm hp =>
      obtain ⟨rfl, rfl⟩ := Prod.mk.inj (Option.some.inj hf)
      simp only [Sys.exec, Sys.execResume, hp, bind_eq_ok, pure_eq_ok] at hx
      obtain ⟨k, hk, rfl⟩ := hx
      obtain ⟨c, hc, rfl⟩ := timerFree_eq_ok hk
      obtain ⟨hs, rfl⟩ := hfree hc
      exact ⟨hs, rfl⟩
    · cases hf
  · cases hf

/-! ### The holders and `sig_alloc` -/

/-- `signal_allocate` has handed out a free bit, or none was to be had. -/
theorem Core.Balanced.signalAllocate_ok {c c' : Core} (hb : c.Balanced) {n signum : ℤ}
    (hc : signalAllocate n c = .ok (signum, c')) :
    (∃ i : ℕ, i < signalsWidth ∧ signum = i ∧ c' = c.allocated (1#16 <<< i) ∧
      (c.task c.running).sigAlloc.getLsbD i = false) ∨
    (signum = -1 ∧ n.toNat < signalsWidth ∧ c' = c.allocated (1#16 <<< n.toNat) ∧
      Refused (c.task c.running).sigAlloc n) := by
  have hrange : -1 ≤ n ∧ n < signalsWidth := by
    simp only [Core.signalAllocate_eq hb, bind_eq_ok, assertThat_eq_ok] at hc
    exact hc.choose_spec.1
  rcases hb.signalAllocate_cases hrange.1 hrange.2 with ⟨i, hi, hcall, hfree, -, -⟩ | ⟨hcall, hr⟩
  · obtain ⟨rfl, rfl⟩ := Prod.mk.inj (Except.ok.inj (hc.symm.trans hcall))
    exact .inl ⟨i, hi, rfl, rfl, hfree⟩
  · obtain ⟨rfl, rfl⟩ := Prod.mk.inj (Except.ok.inj (hc.symm.trans hcall))
    refine .inr ⟨rfl, ?_, rfl, hr⟩
    have hw : (0 : ℤ) < signalsWidth := by decide
    omega

/-- The holders agree with the tasks' bits. -/
structure Held (H : Holdings) (s : Sys) : Prop where
  /-- No bit has two holders. -/
  nodup : ∀ t, ((H t).map Prod.snd).Nodup
  /-- The bits are those that can be handed out. -/
  range : ∀ t p, p ∈ H t → 1 ≤ p.2 ∧ p.2 < signalsWidth
  /-- `sig_alloc` is `SIGF_SINGLE` and these bits. -/
  alloc : ∀ t, s.cs.life t ≠ .fresh → ∀ i,
    (s.cs.core.task t).sigAlloc.getLsbD i = true ↔ i = 0 ∨ ∃ h, (h, i) ∈ H t
  /-- A task that is not initialised has handed out nothing. -/
  fresh : ∀ t, s.cs.life t = .fresh → H t = []
  /-- A timer has the bit which it holds. -/
  timer : ∀ t tm i, (Holder.timer tm, i) ∈ H t → (s.svc.timer tm).signal = 1#16 <<< i

variable {H : Holdings}

theorem Holdings.map_snd_add {t u : TaskRef} {h : Holder} {i : ℕ} : (H.add t h i u).map Prod.snd =
    if u = t then i :: (H u).map Prod.snd else (H u).map Prod.snd := by
  unfold Holdings.add
  by_cases hu : u = t <;> simp [hu]

theorem Holdings.mem_add {t u : TaskRef} {h h' : Holder} {i j : ℕ} : (h', j) ∈ H.add t h i u ↔
    (u = t ∧ h' = h ∧ j = i) ∨ ∃ h₀, (h₀, j) ∈ H u ∧ h.replaced h₀ = h' := by
  unfold Holdings.add
  by_cases hu : u = t <;> simp [hu]

theorem Holder.replaced_eq_timer {h h₀ : Holder} {tm : TimerRef} (hr : h.replaced h₀ = .timer tm) :
    h₀ = .timer tm ∧ h ≠ .timer tm := by
  unfold Holder.replaced at hr
  cases h with
  | timer u =>
    by_cases ho : h₀ = .timer u
    · simp [ho] at hr
    · simp only [if_neg ho] at hr
      subst hr
      exact ⟨rfl, fun he => ho he.symm⟩
  | direct => exact ⟨hr, by simp⟩
  | port p => exact ⟨hr, by simp⟩
  | abandoned u => exact ⟨hr, by simp⟩

theorem Holdings.mem_remove {t u : TaskRef} {h h' : Holder} {sg : Signals} {j : ℕ} : (h', j) ∈ H.remove t h sg u ↔
    (h', j) ∈ H u ∧ ¬ (u = t ∧ h' = h ∧ sg.getLsbD j = true) := by
  unfold Holdings.remove
  by_cases hu : u = t <;> simp [hu, imp_iff_not_or]

/-- Nothing has been handed out or given back. -/
theorem Held.same (hh : Held H s) (hcs : SameAlloc s.cs s'.cs)
    (htm : ∀ tm, (s'.svc.timer tm).signal = (s.svc.timer tm).signal) : Held H s' where
  nodup := hh.nodup
  range := hh.range
  alloc t ht i := by
    rw [hcs.alloc]
    exact hh.alloc t (fun hf => ht ((hcs.fresh t).mpr hf)) i
  fresh t ht := hh.fresh t ((hcs.fresh t).mp ht)
  timer t tm i hm := (htm tm).trans (hh.timer t tm i hm)

/-- The running task hands out bit `i`. -/
theorem Held.allocated (hh : Held H s) (h : Sound s) {i : ℕ} {holder : Holder} (hi : i < signalsWidth)
    (hfree : (s.cs.core.task s.cs.core.running).sigAlloc.getLsbD i = false)
    (hcs : s'.cs = { s.cs with core := s.cs.core.allocated (1#16 <<< i) })
    (htm : ∀ tm, holder ≠ .timer tm → (s'.svc.timer tm).signal = (s.svc.timer tm).signal)
    (hnew : ∀ tm, holder = .timer tm → (s'.svc.timer tm).signal = 1#16 <<< i) :
    Held (H.add s.cs.core.running holder i) s' := by
  have hlife : s.cs.life s.cs.core.running ≠ .fresh := by simp [h.placed.running_scheduled]
  have halloc := hh.alloc _ hlife
  have hnot : i ≠ 0 ∧ ∀ h₀, (h₀, i) ∉ H s.cs.core.running := by
    have hor : ¬ (i = 0 ∨ ∃ h₀, (h₀, i) ∈ H s.cs.core.running) := fun hor => by
      simp [(halloc i).mpr hor] at hfree
    exact ⟨fun hz => hor (.inl hz), fun h₀ hm => hor (.inr ⟨h₀, hm⟩)⟩
  refine ⟨fun t => ?_, fun t p hm => ?_, fun t ht j => ?_, fun t ht => ?_, fun t tm j hm => ?_⟩
  · rw [Holdings.map_snd_add]
    by_cases htr : t = s.cs.core.running
    · rw [if_pos htr, List.nodup_cons]
      refine ⟨fun hm => ?_, hh.nodup t⟩
      obtain ⟨⟨h₀, j⟩, hmem, rfl⟩ := List.mem_map.mp hm
      exact hnot.2 h₀ (htr ▸ hmem)
    · rw [if_neg htr]
      exact hh.nodup t
  · obtain ⟨h', j⟩ := p
    rcases Holdings.mem_add.mp hm with ⟨-, -, rfl⟩ | ⟨h₀, hm, -⟩
    · exact ⟨Nat.one_le_iff_ne_zero.mpr hnot.1, hi⟩
    · exact hh.range t (h₀, j) hm
  · rw [hcs] at ht ⊢
    by_cases htr : t = s.cs.core.running
    · subst htr
      rw [Core.allocated_self, BitVec.getLsbD_or, getLsbD_mask hi, Bool.or_eq_true, halloc, decide_eq_true_eq]
      simp only [Holdings.mem_add, true_and]
      constructor
      · rintro ((hz | ⟨h₀, hm⟩) | rfl)
        · exact .inl hz
        · exact .inr ⟨_, .inr ⟨h₀, hm, rfl⟩⟩
        · exact .inr ⟨holder, .inl ⟨rfl, rfl⟩⟩
      · rintro (hz | ⟨h', ⟨-, rfl⟩ | ⟨h₀, hm, -⟩⟩)
        · exact .inl (.inl hz)
        · exact .inr rfl
        · exact .inl (.inr ⟨h₀, hm⟩)
    · have hsame : ((s.cs.core.allocated (1#16 <<< i)).task t) = s.cs.core.task t := Core.modTask_of_ne htr
      rw [hsame, hh.alloc t ht]
      simp only [Holdings.mem_add, htr, false_and, false_or]
      refine or_congr_right ⟨fun ⟨h₀, hm⟩ => ⟨_, h₀, hm, rfl⟩, fun ⟨h', h₀, hm, _⟩ => ⟨h₀, hm⟩⟩
  · rw [hcs] at ht
    have htr : t ≠ s.cs.core.running := by
      rintro rfl
      exact hlife ht
    unfold Holdings.add
    rw [if_neg htr, hh.fresh t ht, List.map_nil]
  · rcases Holdings.mem_add.mp hm with ⟨-, hh', rfl⟩ | ⟨h₀, hm, hr⟩
    · exact hnew tm hh'.symm
    · obtain ⟨rfl, hne⟩ := Holder.replaced_eq_timer hr
      exact (htm tm hne).trans (hh.timer t tm j hm)

/-- The holder gives back bits of the running task. -/
theorem Held.freed (hh : Held H s) (h : Sound s) {sg : Signals} {holder : Holder} (hs : sg &&& sigfSingle = 0)
    (hown : ∀ i, sg.getLsbD i = true → (holder, i) ∈ H s.cs.core.running)
    (hcs : s'.cs = { s.cs with core := s.cs.core.freed sg })
    (htm : ∀ tm, (s'.svc.timer tm).signal = (s.svc.timer tm).signal) :
    Held (H.remove s.cs.core.running holder sg) s' := by
  have hlife : s.cs.life s.cs.core.running ≠ .fresh := by simp [h.placed.running_scheduled]
  have hsub (t : TaskRef) : (H.remove s.cs.core.running holder sg t).Sublist (H t) := by
    unfold Holdings.remove
    by_cases htr : t = s.cs.core.running
    · rw [if_pos htr]
      exact List.filter_sublist
    · rw [if_neg htr]
  have hzero : sg.getLsbD 0 = false := by
    by_contra hb
    refine and_ne_zero_of_getLsbD (Bool.not_eq_false _ ▸ hb) ?_ hs
    decide
  refine ⟨fun t => (hh.nodup t).sublist ((hsub t).map _), fun t p hm => hh.range t p ((hsub t).subset hm),
    fun t ht j => ?_, fun t ht => ?_, fun t tm j hm => (htm tm).trans (hh.timer t tm j ((hsub t).subset hm))⟩
  · rw [hcs] at ht ⊢
    simp only [Holdings.mem_remove]
    by_cases htr : t = s.cs.core.running
    · subst htr
      have hnot (hj : j < signalsWidth) : (~~~sg).getLsbD j = true ↔ sg.getLsbD j = false := by
        rw [BitVec.getLsbD_not, decide_eq_true (show j < 16 from hj), Bool.true_and, Bool.not_eq_true']
      rw [Core.freed_self, BitVec.getLsbD_and, Bool.and_eq_true, hh.alloc _ hlife]
      constructor
      · rintro ⟨hz | ⟨h', hm⟩, hsg⟩
        · exact .inl hz
        · refine .inr ⟨h', hm, fun hand => ?_⟩
          rw [(hnot (hh.range _ _ hm).2).mp hsg] at hand
          cases hand.2.2
      · rintro (rfl | ⟨h', hm, hand⟩)
        · exact ⟨.inl rfl, (hnot (by decide)).mpr hzero⟩
        · refine ⟨.inr ⟨h', hm⟩, (hnot (hh.range _ _ hm).2).mpr ?_⟩
          by_contra hb
          -- the bit has one holder
          have hheld := hown j (Bool.not_eq_false _ ▸ hb)
          have heq := List.inj_on_of_nodup_map (hh.nodup _) hm hheld rfl
          exact hand ⟨rfl, congrArg Prod.fst heq, Bool.not_eq_false _ ▸ hb⟩
    · have hsame : (s.cs.core.freed sg).task t = s.cs.core.task t := Core.modTask_of_ne htr
      rw [hsame, hh.alloc t ht]
      simp [htr]
  · rw [hcs] at ht
    have hnil := hh.fresh t ht
    exact List.sublist_nil.mp (hnil ▸ hsub t)

/-- `task_init` of a task that has handed out nothing. -/
theorem Held.initialized (hh : Held H s) (h : Sound s) {u : TaskRef} {params : TaskParams}
    (hst : s.Step (.core (.call (.taskInit u params))) s') : Held H s' := by
  have hcs : s.cs.Step (.call (.taskInit u params)) s'.cs ∧ s'.svc = s.svc := by
    obtain ⟨cs, hcall, rfl⟩ := (h.effect hst).core_step
    exact ⟨hcall, rfl⟩
  have hinit : ∃ context, s.cs.life u = .fresh ∧ s'.cs.core = s.cs.core.prepared u params context ∧
      s'.cs.life = Function.update s.cs.life u .initialized := by
    generalize hb : s'.cs = b at hcs
    cases h.nested.effect hcs.1 with
    | taskInit context hu hf => exact ⟨context, hf, rfl, rfl⟩
    | posted hw he => rcases he with ⟨he, -⟩ | ⟨he, -⟩ <;> cases he
    | woken hw hm he => rcases he with ⟨he, -⟩ | ⟨he, -⟩ <;> cases he
  obtain ⟨context, hf, hcore, hlife⟩ := hinit
  refine ⟨hh.nodup, hh.range, fun t ht i => ?_, fun t ht => ?_, fun t tm i hm => ?_⟩
  · rw [hcore]
    by_cases htu : t = u
    · subst htu
      simp only [Core.prepared, Core.modTask_self, hh.fresh t hf, List.not_mem_nil, exists_false, or_false]
      rw [show sigfSingle = 1#16 <<< 0 from rfl, getLsbD_mask (by decide), decide_eq_true_eq]
    · rw [hlife, Function.update_of_ne htu] at ht
      simp only [Core.prepared, Core.modTask_of_ne htu]
      exact hh.alloc t ht i
  · by_cases htu : t = u
    · subst htu
      exact hh.fresh t hf
    · rw [hlife, Function.update_of_ne htu] at ht
      exact hh.fresh t ht
  · rw [hcs.2]
    exact hh.timer t tm i hm

/-- A step that hands out a bit. -/
theorem Sys.handsOut_eq {holder : Holder} {n signum : ℤ} {c : Core} (ha : e.allocates = some (holder, n))
    (hc : signalAllocate n s.cs.core = .ok (signum, c)) :
    s.handsOut e = if signum = -1 then none else some (holder, signum.toNat) := by
  simp [Sys.handsOut, ha, hc]

theorem Sys.handsOut_eq_none (ha : e.allocates = none) : s.handsOut e = none := by
  simp [Sys.handsOut, ha]

theorem Sys.frees_eq_none {p : Holder × ℤ} (ha : e.allocates = some p) : s.frees e = none := by
  unfold SysEvent.allocates at ha
  split at ha <;> first | rfl | cases ha

/-- **A step keeps the holders and `sig_alloc` together.** -/
theorem Held.step (hh : Held H s) (h : Sound s) (hst : s.Step e s')
    (hown : ∀ holder sg, s.frees e = some (holder, sg) → ∀ i, sg.getLsbD i = true →
      (holder, i) ∈ H s.cs.core.running) : Held (H.after ⟨s, e, s'⟩) s' := by
  have heff := h.effect hst
  unfold Holdings.after
  cases ha : e.allocates with
  | some p =>
    obtain ⟨holder, n⟩ := p
    obtain ⟨signum, c, hall⟩ := hst.allocates ha
    rw [Sys.handsOut_eq ha hall.call]
    have htm (tm : TimerRef) (hne : holder ≠ .timer tm) : (s'.svc.timer tm).signal = (s.svc.timer tm).signal :=
      heff.signal_eq fun k hk => hne (congrArg Prod.fst (Option.some.inj (ha.symm.trans hk)))
    rcases h.nested.balanced.signalAllocate_ok hall.call with ⟨i, hi, rfl, rfl, hfree⟩ | ⟨rfl, hn, rfl, hr⟩
    · rw [if_neg (by omega)]
      exact hh.allocated h hi hfree hall.cs htm fun tm hht => (hall.timer tm hht).2
    · -- the bit in question is allocated already
      rw [if_pos rfl, Sys.frees_eq_none ha]
      refine hh.same ⟨fun t => ?_, fun t => ?_⟩ fun tm => htm tm fun hht => (hall.timer tm hht).1 rfl
      · rw [hall.cs]
        refine Core.apply_update Task.sigAlloc ?_ t
        exact or_mask_eq_self hn hr.getLsbD
      · rw [hall.cs]
  | none =>
    have htm (tm : TimerRef) : (s'.svc.timer tm).signal = (s.svc.timer tm).signal :=
      heff.signal_eq fun k hk => by cases ha.symm.trans hk
    rw [Sys.handsOut_eq_none ha]
    cases hf : s.frees e with
    | some p =>
      obtain ⟨hs, hcs⟩ := hst.frees hf
      exact hh.freed h hs (hown p.1 p.2 hf) hcs htm
    | none =>
      by_cases hi : ∃ t params, e = .core (.call (.taskInit t params))
      · obtain ⟨t, params, rfl⟩ := hi
        exact hh.initialized h hst
      · exact hh.same (h.sameAlloc hst ha hf fun t params he => hi ⟨t, params, he⟩) htm

theorem Held.start {cfg : Config} {c : Core} (h : martosPre cfg = .ok c) : Held .empty (Sys.start c) := by
  obtain ⟨context, rfl⟩ := Core.exists_of_martosPre h
  refine ⟨fun t => List.nodup_nil, fun t p hm => (nomatch hm), fun t ht i => ?_, fun t _ => rfl,
    fun t tm i hm => (nomatch hm)⟩
  have hti : t = initTask := by
    by_contra hne
    exact ht (if_neg hne)
  subst hti
  have halloc : ((Sys.start (Core.booted cfg context)).cs.core.task initTask).sigAlloc = 1#16 <<< 0 := by
    simp [Sys.start, CoreSys.start, Core.booted, sigfSingle]
  rw [halloc, getLsbD_mask (by decide), decide_eq_true_eq]
  simp [Holdings.empty]

/-- The holders agree with the tasks' bits in every run. -/
theorem Held.run {cfg : Config} {c : Core} {tr : List (Move Sys SysEvent)} (h : martosPre cfg = .ok c)
    (hr : Run Sys.Step (Sys.start c) tr s) (hown : Sys.FreesOwn tr) : Held (Sys.holdings tr) s := by
  induction hr with
  | nil => exact .start h
  | @snoc tr a b e hra hst ih =>
    have hh := ih fun tr₁ m tr₂ htr => hown tr₁ m (tr₂ ++ [⟨a, e, b⟩])
      (by rw [htr, List.append_assoc, List.cons_append])
    have hlog : Sys.holdings (tr ++ [⟨a, e, b⟩]) = (Sys.holdings tr).after ⟨a, e, b⟩ := List.foldl_append
    rw [hlog]
    exact hh.step (Sound.run h hra) hst (hown tr ⟨a, e, b⟩ [] rfl)

/-- A bit that is handed out was free, and is not pending. -/
structure Sys.HandedOut (s s' : Sys) (h : Holder) (i : ℕ) : Prop where
  /-- It was not allocated. -/
  free : (s.cs.core.task s.cs.core.running).sigAlloc.getLsbD i = false
  /-- It is now. -/
  allocated : (s'.cs.core.task s.cs.core.running).sigAlloc.getLsbD i = true
  /-- It is not pending. -/
  quiet : (s'.cs.core.task s.cs.core.running).sigRecvd.getLsbD i = false
  /-- A timer has it in its structure. -/
  timer : ∀ tm, h = .timer tm → (s'.svc.timer tm).signal = 1#16 <<< i
  /-- A port has it in its structure. -/
  port : ∀ p, h = .port p → (s'.svc.port p).signal = 1#16 <<< i

theorem Sound.handedOut {holder : Holder} {i : ℕ} (h : Sound s) (hst : s.Step e s')
    (hout : s.handsOut e = some (holder, i)) : s.HandedOut s' holder i := by
  cases ha : e.allocates with
  | none => cases (Sys.handsOut_eq_none ha).symm.trans hout
  | some p =>
    obtain ⟨signum, c, hall⟩ := hst.allocates ha
    rw [Sys.handsOut_eq ha hall.call] at hout
    rcases h.nested.balanced.signalAllocate_ok hall.call with ⟨j, hj, rfl, rfl, hfree⟩ | ⟨rfl, -⟩
    · rw [if_neg (by omega)] at hout
      obtain ⟨rfl, rfl⟩ := Prod.mk.inj (Option.some.inj hout)
      refine ⟨hfree, ?_, ?_, fun tm hht => (hall.timer tm hht).2, fun q hhp => (hall.port q hhp).2⟩
      · rw [hall.cs, Core.allocated_self, BitVec.getLsbD_or, Int.toNat_natCast, getLsbD_mask hj]
        simp
      · rw [hall.cs, Core.allocated_self, Int.toNat_natCast, getLsbD_and_not_mask hj]
        simp
    · rw [if_pos rfl] at hout
      cases hout

/-- **Signal bits are never shared.** In every run in which a bit is freed only by its holder, for
every task that has been initialised:

* its holders have pairwise different bits, each of them in 1..15;
* `sig_alloc` is `SIGF_SINGLE` joined with exactly the holders' bits; and a timer that holds a bit
  has it in its structure;
* a bit that is handed out was not allocated, and is not pending afterwards; a timer or a port
  has it in its structure then;
* `signal_allocate(-1)` returns -1 only when all 16 bits are allocated. -/
theorem signal_bits_never_shared {cfg : Config} {c : Core} {tr : List (Move Sys SysEvent)} (h : martosPre cfg = .ok c)
    (hr : Run Sys.Step (Sys.start c) tr s) (hown : Sys.FreesOwn tr) :
    (∀ t, s.cs.life t ≠ .fresh →
      ((Sys.holdings tr t).map Prod.snd).Nodup ∧ (∀ p ∈ Sys.holdings tr t, 1 ≤ p.2 ∧ p.2 ≤ 15) ∧
      ∀ i, (s.cs.core.task t).sigAlloc.getLsbD i = true ↔ i = 0 ∨ ∃ holder, (holder, i) ∈ Sys.holdings tr t) ∧
    (∀ t tm i, (Holder.timer tm, i) ∈ Sys.holdings tr t → (s.svc.timer tm).signal = 1#16 <<< i) ∧
    (∀ m ∈ tr, ∀ holder i, m.pre.handsOut m.event = some (holder, i) → m.pre.HandedOut m.post holder i) ∧
    (∀ c', signalAllocate (-1) s.cs.core = .ok (-1, c') →
      ∀ i < signalsWidth, (s.cs.core.task s.cs.core.running).sigAlloc.getLsbD i = true) := by
  have hh := Held.run h hr hown
  have hs := Sound.run h hr
  refine ⟨fun t ht => ⟨hh.nodup t, fun p hp => ?_, hh.alloc t ht⟩, hh.timer, fun m hm holder i hout => ?_,
    fun c' hc => ?_⟩
  · have hlt : p.2 < 16 := (hh.range t p hp).2
    exact ⟨(hh.range t p hp).1, by omega⟩
  · obtain ⟨tr₁, tr₂, rfl⟩ := List.append_of_mem hm
    obtain ⟨hr₁, hst, -⟩ := hr.split rfl
    exact (Sound.run h hr₁).handedOut hst hout
  · rcases hs.nested.balanced.signalAllocate_ok hc with ⟨i, -, hi, -⟩ | ⟨-, -, -, hr⟩
    · omega
    · exact hr

theorem Sys.FreesOwn.nil : Sys.FreesOwn [] := fun tr₁ m tr₂ htr => by simp at htr

/-- One more move. -/
theorem Sys.FreesOwn.snoc {tr : List (Move Sys SysEvent)} {m : Move Sys SysEvent} (h : Sys.FreesOwn tr)
    (hm : ∀ holder sg, m.pre.frees m.event = some (holder, sg) → ∀ i, sg.getLsbD i = true →
      (holder, i) ∈ Sys.holdings tr m.pre.cs.core.running) : Sys.FreesOwn (tr ++ [m]) :=
  forall_split_snoc h hm

/-- The theorem at a run in which a timer takes over the bit of another one, which an interrupt handler
had sent. -/
theorem signal_bits_never_shared_reused : ∃ c tr s, martosPre CoreSys.exampleConfig = .ok c ∧
    Run Sys.Step (Sys.start c) tr s ∧ (s.svc.timer 2).signal = 0x8000#16 ∧
    ((Sys.holdings tr initTask).map Prod.snd).Nodup := by
  have hrun : (martosPre CoreSys.exampleConfig).toOption.any (fun c =>
      ((Sys.start c).next (.call (.timerAllocate 1))).any fun s₁ =>
      (s₁.next (.core (.isrSignalSend initTask 0x8000#16))).any fun s₂ =>
      (s₂.next (.call (.timerFree 1))).any fun s₃ => (s₃.next (.call (.timerAllocate 2))).any fun s₄ =>
        decide ((Sys.start c).handsOut (.call (.timerAllocate 1)) = some (.timer 1, 15) ∧
          s₂.frees (.call (.timerFree 1)) = some (.timer 1, 0x8000#16) ∧
          (Sys.start c).cs.core.running = s₂.cs.core.running ∧ s₄.cs.life initTask ≠ .fresh ∧
          (s₄.svc.timer 2).signal = 0x8000#16)) = true := by decide +kernel
  obtain ⟨c, hc, hrun⟩ := (Option.any_eq_true ..).mp hrun
  obtain ⟨s₁, h₁, hrun⟩ := (Option.any_eq_true ..).mp hrun
  obtain ⟨s₂, h₂, hrun⟩ := (Option.any_eq_true ..).mp hrun
  obtain ⟨s₃, h₃, hrun⟩ := (Option.any_eq_true ..).mp hrun
  obtain ⟨s₄, h₄, hp⟩ := (Option.any_eq_true ..).mp hrun
  obtain ⟨hout, hfrees, hrunning, hlife, hsignal⟩ := of_decide_eq_true hp
  have hc := eq_ok_of_toOption hc
  have hr : Run Sys.Step (Sys.start c) _ s₄ := (((Run.one (Sys.step_of_next h₁)).snoc (Sys.step_of_next h₂)).snoc
    (Sys.step_of_next h₃)).snoc (Sys.step_of_next h₄)
  have hheld : (Holder.timer 1, 15) ∈ Sys.holdings [⟨Sys.start c, .call (.timerAllocate 1), s₁⟩,
      ⟨s₁, .core (.isrSignalSend initTask 0x8000#16), s₂⟩] s₂.cs.core.running := by
    have hlog : Sys.holdings [⟨Sys.start c, .call (.timerAllocate 1), s₁⟩,
        ⟨s₁, .core (.isrSignalSend initTask 0x8000#16), s₂⟩] =
        Holdings.empty.add (Sys.start c).cs.core.running (.timer 1) 15 := by
      change Holdings.empty.after ⟨Sys.start c, .call (.timerAllocate 1), s₁⟩ = _
      simp only [Holdings.after, hout]
    rw [hlog, Holdings.mem_add]
    exact .inl ⟨hrunning.symm, rfl, rfl⟩
  have hown : Sys.FreesOwn ((([⟨Sys.start c, .call (.timerAllocate 1), s₁⟩] ++
      [⟨s₁, .core (.isrSignalSend initTask 0x8000#16), s₂⟩]) ++ [⟨s₂, .call (.timerFree 1), s₃⟩]) ++
      [⟨s₃, .call (.timerAllocate 2), s₄⟩]) := by
    refine (((Sys.FreesOwn.nil.snoc ?_).snoc ?_).snoc ?_).snoc ?_
    · intro holder sg hf
      cases hf
    · intro holder sg hf
      cases hf
    · intro holder sg hf i hi
      obtain ⟨rfl, rfl⟩ := Prod.mk.inj (Option.some.inj (hfrees.symm.trans hf))
      have hi' : (1#16 <<< 15).getLsbD i = true := hi
      rw [getLsbD_mask (by decide), decide_eq_true_eq] at hi'
      rw [hi']
      exact hheld
    · intro holder sg hf
      cases hf
  exact ⟨c, _, s₄, hc, hr, hsignal, ((signal_bits_never_shared hc hr hown).1 initTask hlife).1⟩

end

end Martos
