import Martos.Lwip.Armed

/-!
# What a call has in hand

A call that waits with a timeout allocates signals, uses them and gives them back in reverse
order. `Grown` says that `sig_alloc` is what it was, and certain signals on top of that, one
after the other.

The rest of this file says what a step leaves alone: requests and ports nobody writes to, a task
that is asleep, and all timers but one (`Sound.onlyTimer`).
-/

namespace Martos

open Checked Transition

/-! ### Signals on top of each other -/

/-- `alloc` is `A` with the signals of the list on top, the last one first. -/
def Grown (A : Signals) : List Signals → Signals → Prop
  | [], alloc => alloc = A
  | sg :: rest, alloc => ∃ b, Grown A rest b ∧ b &&& sg = 0 ∧ alloc = b ||| sg

section

variable {A alloc sg : Signals} {rest : List Signals}

/-- A free bit is allocated. -/
theorem Grown.add (h : Grown A rest alloc) {i : ℕ} (hi : i < signalsWidth) (hfree : alloc.getLsbD i = false) :
    Grown A (1#16 <<< i :: rest) (alloc ||| 1#16 <<< i) := by
  refine ⟨alloc, h, ?_, rfl⟩
  by_contra hne
  have hbit := (mask_and_ne_zero hi alloc).mp fun hz => hne (and_comm_eq_zero hz)
  rw [hfree] at hbit
  cases hbit

/-- The last signals are freed. -/
theorem Grown.remove (h : Grown A (sg :: rest) alloc) : Grown A rest (alloc &&& ~~~sg) := by
  obtain ⟨b, hb, hz, rfl⟩ := h
  suffices heq : (b ||| sg) &&& ~~~sg = b by rwa [heq]
  refine BitVec.eq_of_getLsbD_eq fun i hi => ?_
  have hbit : (b &&& sg).getLsbD i = false := by
    rw [hz]
    exact BitVec.getLsbD_zero
  rw [BitVec.getLsbD_and] at hbit
  rw [BitVec.getLsbD_and, BitVec.getLsbD_or, BitVec.getLsbD_not]
  revert hbit
  cases b.getLsbD i <;> cases sg.getLsbD i <;> simp [hi]

/-- No signals on top. -/
theorem Grown.zero (h : Grown A rest alloc) : Grown A (0 :: rest) alloc :=
  ⟨alloc, h, BitVec.and_zero, BitVec.or_zero.symm⟩

theorem Grown.of_zero (h : Grown A (0 :: rest) alloc) : Grown A rest alloc := by
  obtain ⟨b, hb, -, rfl⟩ := h
  rwa [show b ||| 0 = b from BitVec.or_zero]

end

/-! ### What a step leaves alone -/

/-- What the running task does, unlike interrupt handlers. -/
def SysEvent.Own : SysEvent → Prop
  | .isr _ => False
  | .tim2 => False
  | _ => True

/-- A step changes no timer but `tm`, and no other part of the queue. -/
structure Sys.OnlyTimer (s : Sys) (tm : TimerRef) (s' : Sys) : Prop where
  /-- The queue. -/
  queue : (s'.svc.timers ()).erase tm = (s.svc.timers ()).erase tm
  /-- The other timers. -/
  rest : ∀ v, v ≠ tm → s'.svc.timer v = s.svc.timer v

section

variable {s s' : Sys} {e : SysEvent} {t : TaskRef} {tm : TimerRef}

/-- What a task does itself uses no timer, unless it is a call. -/
theorem SysEvent.Own.quiet (h : e.Own) (hb : e.byTask = false) : (∀ v, ¬ e.Uses v) ∧ e ≠ .tim2 := by
  cases e with
  | core k => exact ⟨fun _ => SysEvent.not_uses_core, nofun⟩
  | resume => exact ⟨fun _ => SysEvent.isPlain.not_uses rfl _, nofun⟩
  | call c => cases hb
  | isr a => exact h.elim
  | tim2 => exact h.elim

theorem Sys.OnlyTimer.refl : s.OnlyTimer tm s := ⟨rfl, fun _ _ => rfl⟩

/-- The caller allocates a signal directly. -/
theorem Sound.grown_allocate (h : Sound s) {A : Signals} {rest : List Signals} {i : ℕ} {c : Core}
    (hc : signalAllocate (-1) s.cs.core = .ok ((i : ℤ), c)) (hst : s.Step (.core (.call (.signalAllocate (-1)))) s')
    (hg : Grown A rest (s.cs.core.task s.cs.core.running).sigAlloc) :
    Grown A (1#16 <<< i :: rest) (s'.cs.core.task s.cs.core.running).sigAlloc := by
  obtain ⟨signum, c', hall⟩ := hst.allocates (h := .direct) (n := -1) rfl
  obtain ⟨rfl, rfl⟩ := Prod.mk.inj (Except.ok.inj (hc.symm.trans hall.call))
  rcases h.nested.balanced.signalAllocate_ok hc with ⟨j, hj, hij, rfl, hfree⟩ | ⟨hneg, -⟩
  · obtain rfl := Int.ofNat.inj hij
    rw [hall.cs, Core.allocated_self]
    exact hg.add hj hfree
  · omega

/-- The caller frees the signals it has allocated last. -/
theorem Sys.Step.grown_free (hst : s.Step e s') {A sg : Signals} {holder : Holder} {rest : List Signals}
    (hf : s.frees e = some (holder, sg)) (hg : Grown A (sg :: rest) (s.cs.core.task s.cs.core.running).sigAlloc) :
    Grown A rest (s'.cs.core.task s.cs.core.running).sigAlloc := by
  rw [(hst.frees hf).2, Core.freed_self]
  exact hg.remove

/-- A request that is neither written nor handed to `sem_wait` stays as it is. -/
theorem SysEffect.request_kept (heff : SysEffect s e s') {req : ReqRef}
    (hw : ∀ value, e ≠ .call (.write (.request req value)))
    (hs : ∀ sem, e ≠ .call (.semWait sem req)) : s'.svc.request req = s.svc.request req := by
  cases heff with
  | @semTaken sem r hu hr hn => exact Function.update_of_ne (fun heq => hs sem (by rw [heq])) ..
  | @semQueued sem r hu hr hd hn => exact Function.update_of_ne (fun heq => hs sem (by rw [heq])) ..
  | @write w hu hc =>
    cases w with
    | request r value => exact Function.update_of_ne (fun heq => hw value (by rw [heq])) ..
    | _ => rfl
  | _ => rfl

theorem Sound.request_kept (h : Sound s) (hst : s.Step e s') {req : ReqRef} (hu : ¬ e.UsesRequest req) :
    s'.svc.request req = s.svc.request req := by
  refine (h.effect hst).request_kept (fun value he => hu (.inr ⟨value, he⟩)) fun sem he => hu (.inl ⟨sem, ?_⟩)
  rw [he]
  rfl

/-- The fields of a port that is neither written nor initialised stay as they are. -/
theorem SysEffect.port_kept (heff : SysEffect s e s') {p : PortRef} (hw : ∀ value, e ≠ .call (.write (.port p value)))
    (hi : e ≠ .call (.msgportInit p)) : s'.svc.port p = s.svc.port p := by
  cases heff with
  | @portInit q sg cs hu ha hst hsg => exact Function.update_of_ne (fun heq => hi (by rw [heq])) ..
  | @write w hu hc =>
    cases w with
    | port q value => exact Function.update_of_ne (fun heq => hw value (by rw [heq])) ..
    | _ => rfl
  | _ => rfl

/-- A task in `signal_wait` stays there until `signal_wait` returns. -/
theorem Sound.asleep_stays (h : Sound s) (hst : s.Step e s') {sg : Signals} (hasl : s.cs.Asleep t sg)
    (hr : t = s.cs.core.running → e = .core .resume → s.cs.returns .resume = none) : s'.cs.Asleep t sg := by
  have huser (ht : t = s.cs.core.running) : s.cs.pc s.cs.core.running ≠ .user := fun hu =>
    CoreSys.not_asleep_of_user (ht ▸ hu) _ hasl
  cases h.signalsChange (h.effect hst) t with
  | keeps x hx hr' hw => exact (hw _).mpr hasl
  | blocks sg' ht he hz hr' hw => exact absurd (hst.user_of_waitsFor he) (huser ht)
  | takes sg' ht he hz hr' hw =>
    rcases he with he | ⟨rfl, -⟩
    · exact absurd (hst.user_of_waitsFor he) (huser ht)
    · subst ht
      exact absurd (hr rfl rfl) (h.returns_of_takes hst hz hr')
  | clears hc x hr' hw => exact (hw _).mpr hasl

/-- **A step changes the timer it works on, and no other**, unless it is an interrupt of the clock. -/
theorem Sound.onlyTimer (h : Sound s) (heff : SysEffect s e s') (hu : ∀ v, e.Uses v → v = tm)
    (hp : ∀ v, (s.spc s.cs.core.running).timer = some v → v = tm) (ht : e ≠ .tim2) : s.OnlyTimer tm s' := by
  have hmod {v w : TimerRef} {x : Timer} (hv : v = tm) (hw : w ≠ tm) :
      Function.update s.svc.timer v x w = s.svc.timer w :=
    Function.update_of_ne (fun heq => hw (heq.trans hv)) ..
  have hat {v : TimerRef} {p : ServicePc} (hpc : s.spc s.cs.core.running = p) (hv : p.timer = some v) : v = tm :=
    hp v (hpc ▸ hv)
  cases heff with
  | timerAllocate hc hf hst => exact ⟨rfl, fun w hw => hmod (hu _ (.inr (.inl rfl))) hw⟩
  | timerFree hc hf hst => exact ⟨rfl, fun w hw => hmod (hu _ (.inr (.inr (.inl rfl)))) hw⟩
  | addStarts hc ha hs => exact ⟨rfl, fun w hw => hmod (hu _ (.inl (.inl rfl))) hw⟩
  | delayStarts hc hf hd hst => exact ⟨rfl, fun w hw => hmod (hu _ (.inl (.inr ⟨_, rfl⟩))) hw⟩
  | addElapsed hc hpc he => exact ⟨rfl, fun w hw => hmod (hat hpc rfl) hw⟩
  | @addInserts v d hc hpc hm =>
    obtain rfl := hat hpc rfl
    refine ⟨?_, fun w hw => hmod rfl hw⟩
    change ((s.svc.timerInserted v).timers ()).erase v = _
    rw [Services.timerInserted_timers, Seqs.listEnqueue_self, List.erase_orderedInsert_of_notMem hm,
      List.erase_of_not_mem hm]
  | delayFrees hc hpc hst => exact ⟨rfl, fun w hw => hmod (hat hpc rfl) hw⟩
  | @aborts _ v hc ha hm =>
    obtain rfl := hu v (.inr (.inr (.inr (.inl hc.service_eq))))
    refine ⟨?_, fun w hw => rfl⟩
    change ((s.svc.timers ()).erase v).erase v = _
    rw [List.erase_of_not_mem h.timers.not_mem_erase]
  | tim2 hm hc hr htr => exact absurd rfl ht
  | @write w hc hw =>
    cases w with
    | timer v op delay tick =>
      exact ⟨rfl, fun w hw => hmod (hu _ (.inr (.inr (.inr (.inr ⟨op, delay, tick, rfl⟩))))) hw⟩
    | _ => exact ⟨rfl, fun _ _ => rfl⟩
  | _ => exact ⟨rfl, fun _ _ => rfl⟩

/-- Where a task in a call is in the services: in none of them, or in `timer_add`. -/
theorem TimedInv.spc_cases {a : TimedSys} (h : TimedInv a) (ht : (a.tpc t).timer = some tm) :
    a.sys.spc t = .user ∨ a.sys.spc t = .timerAddCheck tm false ∨ a.sys.spc t = .timerAddInsert tm false := by
  have hat := h.timers t
  cases hp : a.tpc t with
  | out =>
    rw [hp] at ht
    cases ht
  | untimed u =>
    rw [hp] at hat
    exact .inl hat.1
  | entered u =>
    rw [hp] at hat
    exact .inl hat.1.user
  | prepared u =>
    rw [hp] at hat
    exact .inl hat.1.user
  | armed u sg =>
    rw [hp] at hat ht
    obtain rfl := Option.some.inj ht
    exact hat.2.adds
  | waiting u sg =>
    rw [hp] at hat
    exact .inl hat.1.1
  | waited u sg =>
    rw [hp] at hat
    exact .inl hat.1.user
  | aborted u =>
    rw [hp] at hat
    exact .inl hat.1.user

theorem TimedInv.spc_timer {a : TimedSys} (h : TimedInv a) {v : TimerRef} (ht : (a.tpc t).timer = some tm)
    (hv : (a.sys.spc t).timer = some v) : v = tm := by
  rcases h.spc_cases ht with hp | hp | hp
  · rw [hp] at hv
    cases hv
  · rw [hp] at hv
    exact (Option.some.inj hv).symm
  · rw [hp] at hv
    exact (Option.some.inj hv).symm

/-- An event that is not part of the running task's call neither allocates nor frees. -/
theorem TimedInv.frees_eq_none {a : TimedSys} (h : TimedInv a) (ht : (a.tpc a.running).timer = some tm)
    (hb : e.byTask = false) : a.sys.frees e = none := by
  unfold Sys.frees
  split
  · cases hb
  · cases hb
  · split
    · next v hp =>
      rcases h.spc_cases ht with hu | hu | hu <;> cases hp.symm.trans hu
    · rfl
  · rfl

/-- An event that uses no timer gives it no signal. -/
theorem SysEvent.not_allocates (hu : ¬ e.Uses tm) (n : ℤ) : e.allocates ≠ some (.timer tm, n) := by
  intro ha
  unfold SysEvent.allocates at ha
  split at ha
  · cases ha
  · cases ha
    exact hu (.inr (.inl rfl))
  · cases ha
    exact hu (.inl (.inr ⟨_, rfl⟩))
  · cases ha
  · cases ha

theorem CoreSys.asleep_of_waitsFor {cs : CoreSys} {sg : Signals} (hw : cs.waitsFor .resume = some sg) :
    cs.Asleep cs.core.running sg := by
  unfold CoreSys.waitsFor at hw
  dsimp only at hw
  split at hw
  · next sg' n hpc =>
    obtain rfl := Option.some.inj hw
    exact ⟨n, .inr hpc⟩
  · cases hw

/-- What `signal_wait` returns to a task that is asleep. -/
theorem Sound.returns_asleep (h : Sound s) {sg got : Signals} (hasl : s.cs.Asleep s.cs.core.running sg)
    (hr : s.cs.returns .resume = some got) : got ≠ 0 ∧ got = sg &&& (s.cs.core.task s.cs.core.running).sigRecvd := by
  obtain ⟨sg', hw, hne, hgot⟩ := h.nested.returns_eq hr
  obtain rfl := hasl.unique (CoreSys.asleep_of_waitsFor hw)
  exact ⟨hne, hgot⟩

/-- What `signal_wait` returns at once. -/
theorem Sound.returns_called (h : Sound s) {sg got : Signals}
    (hr : s.cs.returns (.call (.signalWait sg)) = some got) :
    got ≠ 0 ∧ got = sg &&& (s.cs.core.task s.cs.core.running).sigRecvd := by
  obtain ⟨sg', hw, hne, hgot⟩ := h.nested.returns_eq hr
  obtain rfl := Option.some.inj hw
  exact ⟨hne, hgot⟩

/-- A signal that has come is one of those that were waited for. -/
theorem got_meets {x y r got : Signals} (hne : got ≠ 0) (hgot : got = (x ||| y) &&& r) :
    got &&& y ≠ 0 ∨ got &&& x ≠ 0 := by
  by_contra hno
  rw [not_or, not_not, not_not] at hno
  refine hne (BitVec.eq_of_getLsbD_eq fun i _ => ?_)
  refine Eq.trans ?_ BitVec.getLsbD_zero.symm
  have hy : (got &&& y).getLsbD i = false := by
    rw [hno.1]
    exact BitVec.getLsbD_zero
  have hx : (got &&& x).getLsbD i = false := by
    rw [hno.2]
    exact BitVec.getLsbD_zero
  rw [BitVec.getLsbD_and] at hx hy
  rw [hgot, BitVec.getLsbD_and, BitVec.getLsbD_or] at hx hy ⊢
  revert hx hy
  cases x.getLsbD i <;> cases y.getLsbD i <;> cases r.getLsbD i <;> simp

end

end Martos
