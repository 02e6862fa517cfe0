import Martos.Services.Messages

/-!
# `msgport_wait` does not sleep while there are messages

`msgport_wait` tests its list and calls `signal_wait` in one critical section, which
`signal_wait` gives up in the middle. One signal stands for any number of messages, and it
may have been consumed before. That the owner is not asleep while a message is queued rests
on what holds inside the blocking window only (`Alert`): the list was empty when the owner
went in, and every message since has left the signal pending.
-/

namespace Martos

open Checked Transition

section

variable {s s' : CoreSys} {e : Event} {t : TaskRef} {sg : Signals} {n : ℤ}

/-- A task inside the blocking window has come there by its call of `signal_wait`, or was
there before; then no call of it has returned. -/
theorem Nested.waits_step (h : Nested s) (hst : s.Step e s') (hw : (s'.pc t).Waits sg n) :
    (t = s.core.running ∧ e = .call (.signalWait sg)) ∨
    ((∃ n', (s.pc t).Waits sg n') ∧ (t = s.core.running → s.returns e = none)) := by
  have hgoto {p : Pc} (hw : ((s.goto p).pc t).Waits sg n) :
      (t = s.core.running ∧ p.Waits sg n) ∨ (t ≠ s.core.running ∧ (s.pc t).Waits sg n) := by
    by_cases ht : t = s.core.running
    · subst ht; exact .inl ⟨rfl, by rwa [CoreSys.goto_pc_self] at hw⟩
    · exact .inr ⟨ht, by rwa [CoreSys.goto_pc_of_ne p ht] at hw⟩
  -- the running task is outside of the window now
  have hout {p : Pc} (hp : ¬ p.Waits sg n) (hw : ((s.goto p).pc t).Waits sg n) :
      (t = s.core.running ∧ e = .call (.signalWait sg)) ∨
      ((∃ n', (s.pc t).Waits sg n') ∧ (t = s.core.running → s.returns e = none)) := by
    rcases hgoto hw with ⟨-, hpw⟩ | ⟨ht, hw⟩
    · exact absurd hpw hp
    · exact .inr ⟨⟨n, hw⟩, fun he => absurd he ht⟩
  have huser : ¬ Pc.user.Waits sg n := by rintro (hp | hp) <;> cases hp
  cases h.effect hst with
  | taskSchedule hu hi => exact hout (by rintro (hp | hp) <;> cases hp) hw
  | waitBlocks hu hn hz hl =>
    rcases hgoto hw with ⟨ht, hp⟩ | ⟨ht, hw⟩
    · refine .inl ⟨ht, ?_⟩
      rcases hp with hp | hp <;> cases hp
      rfl
    · exact .inr ⟨⟨n, hw⟩, fun he => absurd he ht⟩
  | waitReturns hu hn hz => exact hout huser hw
  | inserts ht hpc hl => exact hout (by rintro (hp | hp) <;> cases hp) hw
  | requests ht hpc => exact hout huser hw
  | yields hth hpc =>
    rcases hgoto hw with ⟨ht, hp⟩ | ⟨ht, hw⟩
    · refine .inr ⟨⟨n, .inl ?_⟩, fun _ => by simp [CoreSys.returns, hpc]⟩
      rcases hp with hp | hp <;> cases hp
      rw [ht, hpc]
    · exact .inr ⟨⟨n, hw⟩, fun he => absurd he ht⟩
  | @blocksAgain sg' m hth hpc hz hl =>
    rcases hgoto hw with ⟨ht, hp⟩ | ⟨ht, hw⟩
    · refine .inr ⟨⟨m, .inr ?_⟩, fun _ => by rw [h.returns_resume hpc, if_pos hz]⟩
      rcases hp with hp | hp <;> cases hp
      rw [ht, hpc]
    · exact .inr ⟨⟨n, hw⟩, fun he => absurd he ht⟩
  | returns hth hpc hz => exact hout huser hw
  | posted hno he => exact .inr ⟨⟨n, hw⟩, fun _ => by rcases he with ⟨rfl, -⟩ | ⟨rfl, -⟩ <;> rfl⟩
  | woken hwk hm he => exact .inr ⟨⟨n, hw⟩, fun _ => by rcases he with ⟨rfl, -⟩ | ⟨rfl, -⟩ <;> rfl⟩
  | _ => exact .inr ⟨⟨n, hw⟩, fun _ => rfl⟩

/-- While a task stays inside the window, its pending signals only grow. -/
theorem Nested.waits_cases (h : Nested s) (hpl : Placed s) (hst : s.Step e s') (hw : (s'.pc t).Waits sg n) :
    (t = s.core.running ∧ e = .call (.signalWait sg)) ∨
    ((∃ n', (s.pc t).Waits sg n') ∧
      ∃ x, (s'.core.task t).sigRecvd = (s.core.task t).sigRecvd ||| x) := by
  rcases h.waits_step hst hw with hcall | ⟨⟨n', hw'⟩, hret⟩
  · exact .inl hcall
  refine .inr ⟨⟨n', hw'⟩, ?_⟩
  have hnot : s.pc t ≠ .user := by rcases hw' with hp | hp <;> rw [hp] <;> simp
  rcases h.sigRecvd_cases hst t with hcl | ⟨x, -, heq⟩ | ⟨rcvd, ht, hr, -⟩ | ⟨-, heq⟩
  · rcases hcl with ⟨m, rfl, rfl⟩ | ⟨params, rfl⟩
    · exact absurd hst.1.2.1 hnot
    · -- only a fresh task is initialised
      have hfresh : s.life t = .fresh := hst.1.2.2
      exact absurd (hpl.sched.idle t (by rw [hfresh]; decide)) hnot
  · exact ⟨x, heq⟩
  · rw [hret ht] at hr; cases hr
  · exact ⟨0#16, by rw [heq, BitVec.or_zero]⟩

/-- Signals delivered are pending. -/
theorem Nested.delivered (h : Nested s) (hd : s.Delivers t sg s') : sg &&& (s'.core.task t).sigRecvd = sg := by
  obtain ⟨e, hse, hst⟩ := hd
  refine BitVec.eq_of_getLsbD_eq fun i _ => ?_
  cases hi : sg.getLsbD i with
  | false => rw [BitVec.getLsbD_and, hi, Bool.false_and]
  | true => rw [BitVec.getLsbD_and, hi, h.sends_pending hst hse hi, Bool.true_and]

/-- While a task stays inside the window over a run in which `signal_wait` is not called, its
pending signals only grow. -/
theorem waits_run {tr : List (Move CoreSys Event)} (h : Nested s) (hpl : Placed s)
    (hno : ∀ m ∈ tr, ∀ sg, m.event ≠ .call (.signalWait sg)) (hr : Run CoreSys.Step s tr s')
    (hw : (s'.pc t).Waits sg n) : (∃ n', (s.pc t).Waits sg n') ∧
    ∃ x, (s'.core.task t).sigRecvd = (s.core.task t).sigRecvd ||| x := by
  induction hr generalizing n with
  | nil => exact ⟨⟨n, hw⟩, 0#16, BitVec.or_zero.symm⟩
  | @snoc tr a b e hr hst ih =>
    obtain ⟨hn, hp⟩ : Nested a ∧ Placed a := hr.invariant (P := fun s => Nested s ∧ Placed s) ⟨h, hpl⟩
      fun _ _ _ hs hst => ⟨hs.1.step hst, hs.2.step hs.1 hst⟩
    rcases hn.waits_cases hp hst hw with ⟨-, he⟩ | ⟨⟨n', hw'⟩, x, hx⟩
    · exact absurd he (hno ⟨a, e, b⟩ (by simp) sg)
    · obtain ⟨hw₀, y, hy⟩ := ih (fun m hm => hno m (List.mem_append_left _ hm)) hw'
      exact ⟨hw₀, y ||| x, by rw [hx, hy, BitVec.or_assoc]⟩

end

/-- The task is inside `signal_wait`, called by `msgport_wait(p)`, in the blocking window. -/
def Sys.Sleeps (s : Sys) (t : TaskRef) (p : PortRef) (sg : Signals) : Prop :=
  s.spc t = .msgportWait p ∧ ∃ n, (s.cs.pc t).Waits sg n

/-- What makes `msgport_wait` safe: the port belongs to task `t`, and while `t` is in the
blocking window of `msgport_wait`, it waits for the port's signal, which is pending if
there is a message. -/
structure Alert (s : Sys) (p : PortRef) (t : TaskRef) : Prop where
  /-- The port is the task's. -/
  port : ∃ sg, s.svc.port p = ⟨some t, sg, .signal⟩ ∧ sg ≠ 0#16
  /-- The signal waited for. -/
  waits : ∀ sg, s.Sleeps t p sg → sg = (s.svc.port p).signal
  /-- A message leaves it pending. -/
  pending : ∀ sg, s.Sleeps t p sg → s.svc.messageList p ≠ [] → sg &&& (s.cs.core.task t).sigRecvd ≠ 0#16

section

variable {s s' : Sys} {e : SysEvent} {t : TaskRef} {p : PortRef} {sg : Signals}

/-- A task asleep in `msgport_wait` has just found the list empty, or slept before and has
lost no signal since. -/
theorem Sound.sleeps_cases (h : Sound s) (heff : SysEffect s e s') (hsl : s'.Sleeps t p sg) :
    (sg = (s.svc.port p).signal ∧ s'.svc = s.svc ∧ s.svc.messageList p = []) ∨
    (s.Sleeps t p sg ∧ ∃ x, (s'.cs.core.task t).sigRecvd = (s.cs.core.task t).sigRecvd ||| x) := by
  obtain ⟨hp, n, hw⟩ := hsl
  -- a step of the core in which `t` does not call `signal_wait`
  have hcore {ev : Event} {cs : CoreSys} (hst : s.cs.Step ev cs) (hw : (cs.pc t).Waits sg n)
      (hno : t = s.cs.core.running → ∀ sg, ev ≠ .call (.signalWait sg)) : (∃ n', (s.cs.pc t).Waits sg n') ∧
      ∃ x, (cs.core.task t).sigRecvd = (s.cs.core.task t).sigRecvd ||| x := by
    rcases h.nested.waits_cases h.placed hst hw with ⟨ht, he⟩ | hres
    · exact absurd he (hno ht sg)
    · exact hres
  -- a task at user code is not the one asleep
  have hother (hu : s.AtUser) {n : ℤ} (hw : (s.cs.pc t).Waits sg n) : t ≠ s.cs.core.running := by
    rintro rfl
    rcases hw with hw | hw <;> exact absurd (hu.2.symm.trans hw) (by simp)
  have hself (hw : (s.cs.pc t).Waits sg n) : (∃ n', (s.cs.pc t).Waits sg n') ∧
      ∃ x, (s.cs.core.task t).sigRecvd = (s.cs.core.task t).sigRecvd ||| x := ⟨⟨n, hw⟩, 0#16, BitVec.or_zero.symm⟩
  -- the running task goes on to `q`
  have hmove {q : ServicePc} {c : Core} (hu : s.AtUser)
      (hp : Function.update s.spc s.cs.core.running q t = .msgportWait p)
      (hres : (∃ n', (s.cs.pc t).Waits sg n') ∧ ∃ x, (c.task t).sigRecvd = (s.cs.core.task t).sigRecvd ||| x) :
      s.Sleeps t p sg ∧ ∃ x, (c.task t).sigRecvd = (s.cs.core.task t).sigRecvd ||| x := by
    obtain ⟨⟨n', hw'⟩, hx⟩ := hres
    rw [Function.update_of_ne (hother hu hw')] at hp
    exact ⟨⟨hp, n', hw'⟩, hx⟩
  -- the running task calls `signal_wait` from another function than `msgport_wait`
  have hblock {q : ServicePc} {sg' : Signals} {cs : CoreSys} (hu : s.AtUser) (hq : q ≠ .msgportWait p)
      (hp : Function.update s.spc s.cs.core.running q t = .msgportWait p)
      (hst : s.cs.Step (.call (.signalWait sg')) cs) (hw : (cs.pc t).Waits sg n) :
      s.Sleeps t p sg ∧ ∃ x, (cs.core.task t).sigRecvd = (s.cs.core.task t).sigRecvd ||| x := by
    refine hmove hu hp (hcore hst hw fun ht => ?_)
    rw [ht, Function.update_self] at hp
    exact absurd hp hq
  have hsent {u : TaskRef} {sg' : Signals} {cs : CoreSys} (hd : s.cs.Delivers u sg' cs) (hw : (cs.pc t).Waits sg n) :
      (∃ n', (s.cs.pc t).Waits sg n') ∧ ∃ x, (cs.core.task t).sigRecvd = (s.cs.core.task t).sigRecvd ||| x := by
    obtain ⟨ev, hse, hst⟩ := hd
    refine hcore hst hw fun _ sg he => ?_
    rcases hse with rfl | rfl <;> cases he
  cases heff with
  | @core ev cs hst hc =>
    obtain ⟨hw', hx⟩ := hcore hst hw fun ht sg he => by
      have huser := hc _ he
      rw [← ht, show s.spc t = _ from hp] at huser
      cases huser
    exact .inr ⟨⟨hp, hw'⟩, hx⟩
  | semQueued hu hr hd hn => exact .inr (hmove hu.1 hp (hself hw))
  | semBlocks hu hq hst => exact .inr (hblock hu (by simp) hp hst hw)
  | semReturns hu hq => exact .inr (hmove hu hp (hself hw))
  | grants hc hn hh hs => exact .inr ⟨⟨hp, (hsent hs hw).1⟩, (hsent hs hw).2⟩
  | portInit hu ha hst hsg =>
    obtain ⟨hw', hx⟩ := hcore hst hw fun _ _ => by simp
    exact .inr ⟨⟨hp, hw'⟩, hx⟩
  | sent hc hm ha hs =>
    rcases hs with ⟨u, -, -, hd⟩ | ⟨-, rfl⟩
    · exact .inr ⟨⟨hp, (hsent hd hw).1⟩, (hsent hd hw).2⟩
    · exact .inr ⟨⟨hp, n, hw⟩, (hself hw).2⟩
  | portWaits hu ha hd hst => exact .inr (hmove hu.1 hp (hcore hst hw fun _ _ => by simp))
  | @portBlocks q cs hu hq hl hst =>
    by_cases ht : t = s.cs.core.running
    · subst ht
      obtain rfl : q = p := by
        have heq := hq.symm.trans (show s.spc s.cs.core.running = _ from hp)
        exact ServicePc.msgportWait.inj heq
      rcases h.nested.waits_cases h.placed hst hw with ⟨-, he⟩ | ⟨⟨n', hw'⟩, -⟩
      · simp only [Event.call.injEq, Call.signalWait.injEq] at he
        exact .inl ⟨he.symm, rfl, hl⟩
      · exact absurd rfl (hother hu hw')
    · obtain ⟨hw', hx⟩ := hcore hst hw fun he => absurd he ht
      exact .inr ⟨⟨hp, hw'⟩, hx⟩
  | portReturns hu hq hl hst => exact .inr (hmove hu hp (hcore hst hw fun _ _ => by simp))
  | timerAllocate hu hf hst =>
    obtain ⟨hw', hx⟩ := hcore hst hw fun _ _ => by simp
    exact .inr ⟨⟨hp, hw'⟩, hx⟩
  | timerFree hu hf hst =>
    obtain ⟨hw', hx⟩ := hcore hst hw fun _ _ => by simp
    exact .inr ⟨⟨hp, hw'⟩, hx⟩
  | addStarts hu ha hs => exact .inr (hmove hu.1 hp (hself hw))
  | delayStarts hu hf hd hst => exact .inr (hmove hu.1 hp (hcore hst hw fun _ _ => by simp))
  | addElapsed hu hq he => exact .inr (hmove hu hp (hself hw))
  | addPasses hu hq he => exact .inr (hmove hu hp (hself hw))
  | addInserts hu hq hm => exact .inr (hmove hu hp (hself hw))
  | delayWaits hu hq ha hst => exact .inr (hblock hu (by simp) hp hst hw)
  | delaySkips hu hq => exact .inr (hmove hu hp (hself hw))
  | delayFrees hu hq hst => exact .inr (hmove hu hp (hcore hst hw fun _ _ => by simp))
  | @tim2 calls ctr c hm hc hr htr =>
    obtain ⟨hw', hx⟩ := waits_run h.nested h.placed (fun m hmem sg he => by
      have hev := List.mem_map_of_mem (f := Move.event) hmem
      rw [htr, he] at hev
      simp at hev) hr hw
    exact .inr ⟨⟨hp, hw'⟩, hx⟩
  | @write w hu hc => cases w <;> exact .inr ⟨⟨hp, n, hw⟩, (hself hw).2⟩
  | _ => exact .inr ⟨⟨hp, n, hw⟩, (hself hw).2⟩

/-- A message on an empty list has come with a signal to the owner. -/
theorem SysEffect.notified (heff : SysEffect s e s') (hl : s.svc.messageList p = [])
    (hl' : s'.svc.messageList p ≠ []) : s.cs.Notified (s.svc.port p) s'.cs := by
  cases heff with
  | @portInit q sg cs hu ha hst hsg =>
    by_cases hqp : p = q
    · subst hqp; exact absurd (Function.update_self ..) hl'
    · exact absurd ((Function.update_of_ne hqp ..).trans hl) hl'
  | @got e q hc =>
    by_cases hqp : p = q
    · subst hqp; exact absurd ((Function.update_self ..).trans (by rw [hl]; rfl)) hl'
    · exact absurd ((Function.update_of_ne hqp ..).trans hl) hl'
  | @sent e q m cs hc hm ha hs =>
    by_cases hqp : p = q
    · subst hqp; exact hs
    · exact absurd ((Function.update_of_ne hqp ..).trans hl) hl'
  | @write w hu hw => cases w <;> exact absurd hl hl'
  | _ => exact absurd hl hl'

/-- The port's fields stay as they are while no program writes to them. -/
theorem SysEffect.port_eq (heff : SysEffect s e s') (ha : (s.svc.port p).action ≠ .invalid)
    (hno : ∀ value, e ≠ .call (.write (.port p value))) : s'.svc.port p = s.svc.port p := by
  cases heff with
  | @portInit q sg cs hu hq hst hsg =>
    have hqp : p ≠ q := fun he => ha (he ▸ hq)
    exact Function.update_of_ne hqp ..
  | @write w hu hw =>
    cases w with
    | port q value =>
      have hqp : p ≠ q := fun he => hno value (he ▸ rfl)
      exact Function.update_of_ne hqp ..
    | _ => rfl
  | _ => rfl

theorem Alert.step (h : Alert s p t) (hs : Sound s) (hno : ∀ value, e ≠ .call (.write (.port p value)))
    (heff : SysEffect s e s') : Alert s' p t := by
  obtain ⟨sg₀, hport, hne⟩ := h.port
  have hport' : s'.svc.port p = s.svc.port p := heff.port_eq (by simp [hport]) hno
  refine ⟨⟨sg₀, hport'.trans hport, hne⟩, fun sg hsl => ?_, fun sg hsl hl => ?_⟩
  · rcases hs.sleeps_cases heff hsl with ⟨hsg, -, -⟩ | ⟨hsl', -⟩
    · rw [hport', hsg]
    · rw [hport', h.waits sg hsl']
  · rcases hs.sleeps_cases heff hsl with ⟨-, hsvc, hempty⟩ | ⟨hsl', x, hx⟩
    · rw [hsvc] at hl; exact absurd hempty hl
    · by_cases hempty : s.svc.messageList p = []
      · -- the first message: its sender has just signalled the owner
        obtain rfl : sg = sg₀ := by rw [h.waits sg hsl', hport]
        have hnot := heff.notified hempty hl
        rw [hport] at hnot
        rcases hnot with ⟨u, hu, -, hd⟩ | ⟨hno, -⟩
        · obtain rfl := Option.some.inj hu
          rw [hs.nested.delivered hd]
          exact hne
        · simp at hno
      · have hpend := h.pending sg hsl' hempty
        rw [hx, BitVec.and_or_distrib_left, ne_eq, BitVec.or_eq_zero_iff]
        exact fun hz => hpend hz.1

/-- `msgport_init` makes the port safe. -/
theorem Alert.init (hs : Sound s) (hst : s.Step (.call (.msgportInit p)) s') : Alert s' p s.cs.core.running := by
  have huser : s.spc s.cs.core.running = .user := hst.1.2.1
  cases hs.effect hst with
  | @portInit _ sg cs hu ha hst hsg =>
    -- the owner is in its own code
    have hnot (hp : s.spc s.cs.core.running = .msgportWait p) : False := absurd (huser.symm.trans hp) (by simp)
    exact ⟨⟨sg, Function.update_self .., hsg⟩, fun sg hsl => (hnot hsl.1).elim, fun sg hsl => (hnot hsl.1).elim⟩
  | semInit hc => cases hc.service_eq
  | requests hc => cases hc.service_eq
  | released hc hn => cases hc.service_eq
  | grants hc hn hh hs => cases hc.service_eq
  | got hc => cases hc.service_eq
  | sent hc hm ha hs => rcases hc with hc | ⟨hc, -⟩ <;> cases hc.service_eq
  | aborts hc ha hm => cases hc.service_eq
  | abortsNot hc ha => cases hc.service_eq

theorem Alert.run {s₀ : Sys} {tr : List (Move Sys SysEvent)} (hs : Sound s₀) (ha : Alert s₀ p t)
    (hno : ∀ m ∈ tr, ∀ value, m.event ≠ .call (.write (.port p value))) (hr : Run Sys.Step s₀ tr s) :
    Alert s p t := by
  induction hr with
  | nil => exact ha
  | @snoc tr s s' e hr hst ih =>
    have hsound : Sound s := hr.invariant hs fun _ _ _ hs hst => hs.step hst
    exact (ih fun m hm => hno m (List.mem_append_left _ hm)).step hsound (hno ⟨s, e, s'⟩ (by simp))
      (hsound.effect hst)

/-- When the running task comes out of `msgport_wait`, it returns the first message of the
list and leaves the list alone. -/
theorem SysEffect.returnsMessage (heff : SysEffect s e s') (hp : s.spc s.cs.core.running = .msgportWait p)
    (hback : s'.spc s.cs.core.running ≠ .msgportWait p) :
    ∃ msg, s.returnsMessage e = some msg ∧ (s.svc.messageList p).head? = some msg ∧ s'.svc = s.svc := by
  have hcalling (hu : s.Calling) : False := absurd (hu.2.symm.trans hp) (by simp)
  have hat {q : ServicePc} (hq : s.spc s.cs.core.running = q) (hne : q ≠ .msgportWait p) : False :=
    hne (hq.symm.trans hp)
  cases heff with
  | @portReturns q cs hu hq hl hst =>
    obtain rfl : q = p := ServicePc.msgportWait.inj (hq.symm.trans hp)
    obtain ⟨msg, rest, hmsg⟩ := List.exists_cons_of_ne_nil hl
    exact ⟨msg, by simp [Sys.returnsMessage, hp, hmsg], by simp [hmsg], rfl⟩
  | semQueued hu hr hd hn => exact (hcalling hu).elim
  | portWaits hu ha hd hst => exact (hcalling hu).elim
  | addStarts hu ha hs => exact (hcalling hu).elim
  | delayStarts hu hf hd hst => exact (hcalling hu).elim
  | semBlocks hu hq hst => exact (hat hq (by simp)).elim
  | semReturns hu hq => exact (hat hq (by simp)).elim
  | addElapsed hu hq he => exact (hat hq (by simp)).elim
  | addPasses hu hq he => exact (hat hq (by simp)).elim
  | addInserts hu hq hm => exact (hat hq (by simp)).elim
  | delayWaits hu hq ha hst => exact (hat hq (by simp)).elim
  | delaySkips hu hq => exact (hat hq (by simp)).elim
  | delayFrees hu hq hst => exact (hat hq (by simp)).elim
  | @write w hu hw => exact (hcalling hu).elim
  | _ => exact absurd hp hback

/-- As long as nobody gets from the port, its first message stays where it is. -/
theorem Sound.head_run {s₀ : Sys} {tr : List (Move Sys SysEvent)} {msg : MsgRef} (h : Sound s₀) (hun : Unused s₀)
    (hno : ∀ m ∈ tr, m.event.service ≠ some (.msgportGet p)) (hh : (s₀.svc.messageList p).head? = some msg)
    (hr : Run Sys.Step s₀ tr s) : (s.svc.messageList p).head? = some msg := by
  induction hr with
  | nil => exact hh
  | @snoc tr s s' e hr hst ih =>
    obtain ⟨hs, hus⟩ : Sound s ∧ Unused s := hr.invariant (P := fun s => Sound s ∧ Unused s) ⟨h, hun⟩
      fun _ _ _ hs hst => ⟨hs.1.step hst, hs.2.step (hs.1.effect hst)⟩
    have hmsg := ih fun m hm => hno m (List.mem_append_left _ hm)
    have hlist := hs.delivers_step (p := p) hus (hs.effect hst)
    rw [Sys.gotFrom_eq_none (hno ⟨s, e, s'⟩ (by simp)), Option.toList_none, List.nil_append] at hlist
    rw [hlist, List.head?_append, hmsg, Option.some_or]

/-- **`msgport_wait` never sleeps on a port with messages.** Let a task initialise port `p`
with `msgport_init`, in any run, and no program write to the port's fields after that. Then,
whatever the owner, the other tasks and the interrupt handlers do:

* whenever the owner is in state `TASK_WAITING` inside `msgport_wait(p)`, the list is empty;
* whenever the owner's `msgport_wait(p)` returns, it returns the first message of the list,
  which of the messages sent and not yet got is the oldest, and leaves the list as it is;
  and as long as nobody gets from the port, that message is the one which the next
  `msgport_get` returns. -/
theorem msgport_wait_sleeps_only_on_empty {cfg : Config} {c : Core} {tr tr₁ tr₂ : List (Move Sys SysEvent)}
    {m : Move Sys SysEvent} (h : martosPre cfg = .ok c) (hr : Run Sys.Step (Sys.start c) tr s)
    (htr : tr = tr₁ ++ m :: tr₂) (hm : m.event = .call (.msgportInit p))
    (hno : ∀ m' ∈ tr₂, ∀ value, m'.event ≠ .call (.write (.port p value))) :
    ((s.cs.core.task m.pre.cs.core.running).state = .waiting →
      s.spc m.pre.cs.core.running = .msgportWait p → s.svc.messageList p = []) ∧
    (∀ as m' bs, tr₂ = as ++ m' :: bs → m'.pre.cs.core.running = m.pre.cs.core.running →
      m'.pre.spc m.pre.cs.core.running = .msgportWait p → m'.post.spc m.pre.cs.core.running ≠ .msgportWait p →
      ∃ msg, m'.pre.returnsMessage m'.event = some msg ∧ m'.post.svc.messageList p = m'.pre.svc.messageList p ∧
        (∃ rest, (tr₁ ++ m :: as).filterMap (Sys.sentTo p) =
          (tr₁ ++ m :: as).filterMap (Sys.gotFrom p) ++ msg :: rest) ∧
        ((∀ m'' ∈ bs, m''.event.service ≠ some (.msgportGet p)) →
          ∃ k, msgportGet p s.kernel = .ok (some msg, k))) := by
  subst htr
  obtain ⟨hr₁, hstep, hr₂⟩ := hr.split rfl
  rw [hm] at hstep
  have hpre := Sound.run h hr₁
  refine ⟨fun hst hp => ?_, ?_⟩
  · -- asleep: none of the signals waited for is pending, so no message has come
    have hs := Sound.run h hr
    have halert := Alert.run (hpre.step hstep) (Alert.init hpre hstep) hno hr₂
    obtain ⟨sg, n, hw⟩ := hs.placed.blocked _ hst
    by_contra hne
    refine halert.pending sg ⟨hp, n, hw⟩ hne ?_
    rw [← hs.attentive.waits _ sg n hw]
    exact hs.attentive.sleeps _ hst
  · intro as m' bs htr₂ hrun hp hback
    obtain ⟨hr₃, hst, hr₄⟩ := hr.split (show tr₁ ++ m :: tr₂ = (tr₁ ++ m :: as) ++ m' :: bs by simp [htr₂])
    have hs := Sound.run h hr₃
    obtain ⟨hun, hdel⟩ := delivers h hr₃
    have heff := hs.effect hst
    rw [← hrun] at hp hback
    obtain ⟨msg, hret, hhead, hsvc⟩ := heff.returnsMessage hp hback
    obtain ⟨rest, hlist⟩ : ∃ rest, m'.pre.svc.messageList p = msg :: rest := List.head?_eq_some_iff.mp hhead
    refine ⟨msg, hret, by rw [hsvc], ⟨rest, by rw [← hdel p, hlist]⟩, fun hnoget => ?_⟩
    have hfirst := (hs.step hst).head_run (hun.step heff) hnoget (by rw [hsvc]; exact hhead) hr₄
    have hget : msgportGet p s.kernel = _ := msgportGet_eq (Sound.run h hr).nested.balanced
    rw [show (s.kernel.svc.messageList p).head? = some msg from hfirst] at hget
    exact ⟨_, hget⟩

/-- The theorem where the owner is asleep in `msgport_wait`. -/
theorem msgport_wait_sleeps_only_on_empty_asleep : ∃ c tr s, martosPre CoreSys.exampleConfig = .ok c ∧
    Run Sys.Step (Sys.start c) tr s ∧ (s.cs.core.task 1).state = .waiting ∧ s.spc 1 = .msgportWait 0 ∧
    s.svc.messageList 0 = [] := by
  obtain ⟨c, tr₁, s₁, s₂, tr₂, s, hc, hr, htr, hp⟩ := Sys.exists_run CoreSys.exampleConfig (fun _ _ => True)
    (CoreSys.oneTask.map .core)
    (.call (.msgportInit 0))
    [.isr (.msgportSend 0 7), .call (.service (.msgportGet 0)), .call (.msgportWait 0), .resume, .resume,
      .core .resume, .core .pendSV, .core (.pendSVSwitch 0x20001200), .core .pendSVExit]
    (p := fun s₁ _ s => decide (s₁.cs.core.running = 1 ∧ (s.cs.core.task 1).state = .waiting ∧
      s.spc 1 = .msgportWait 0))
    (by decide +kernel)
  obtain ⟨hrun, hst, hspc⟩ := of_decide_eq_true hp
  have hr := hr.mono fun _ _ _ => And.right
  have hno (m : Move Sys SysEvent) (hm : m ∈ tr₂) (value : MsgPort) : m.event ≠ .call (.write (.port 0 value)) := by
    have hev := List.mem_map_of_mem (f := Move.event) hm
    rw [htr] at hev
    intro he
    rw [he] at hev
    simp at hev
  have hempty := (msgport_wait_sleeps_only_on_empty hc hr rfl rfl hno).1
  rw [hrun] at hempty
  exact ⟨c, _, s, hc, hr, hst, hspc, hempty hst hspc⟩

end

end Martos
