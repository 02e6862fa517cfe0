import Martos.Lwip.Effects

/-!
# The single consumer of a mailbox

`Consumer` is what holds in every state of a machine whose mailbox has the single consumer
`t`: where the port belongs to, where the mailbox's signal is allocated, and which signals the
consumer can be asleep with. It is kept by every step that the contract allows
(`Consumer.step`).
-/

namespace Martos

open Checked Transition

/-! ### The machine below -/

section

variable {s s' : CoreSys} {e : Event} {t : TaskRef}

/-- A task structure that has been initialised stays so. -/
theorem Nested.initialized_step (h : Nested s) (hst : s.Step e s') (ht : s.life t ≠ .fresh) : s'.life t ≠ .fresh := by
  have hupdate {u : TaskRef} {l : Life} (hl : l ≠ .fresh) : Function.update s.life u l t ≠ .fresh := by
    by_cases htu : t = u
    · subst htu
      rwa [Function.update_self]
    · rwa [Function.update_of_ne htu]
  cases h.effect hst with
  | taskInit context hu hf => exact hupdate (by simp)
  | taskSchedule hu hi => exact hupdate (by simp)
  | inserts hth hpc hl => exact hupdate (by simp)
  | _ => exact ht

end

/-- A function that does not call `signal_wait`. -/
def ServiceCall.Short : ServiceCall → Prop
  | .semWait _ _ => False
  | .msgportWait _ => False
  | .timerDelay _ _ => False
  | _ => True

/-- The task is in its own code or in `timer_add`. -/
def ServicePc.Awake : ServicePc → Prop
  | .user => True
  | .timerAddCheck _ delay => delay = false
  | .timerAddInsert _ delay => delay = false
  | _ => False

section

variable {s s' : Sys} {e : SysEvent} {t : TaskRef} {sg : Signals}

theorem Sound.initialized_step (h : Sound s) (hst : s.Step e s') (ht : s.cs.life t ≠ .fresh) :
    s'.cs.life t ≠ .fresh := by
  obtain ⟨ctr, hr⟩ := (h.effect hst).core_run
  exact (hr.invariant (P := fun a => Nested a ∧ a.life t ≠ .fresh) ⟨h.nested, ht⟩
    fun _ _ _ ha hst => ⟨ha.1.step hst, ha.1.initialized_step hst ha.2⟩).2

/-- A task that is asleep was so before, or has just called `signal_wait`. -/
theorem Sound.asleep_step (h : Sound s) (hst : s.Step e s') (ha : s'.cs.Asleep t sg) :
    s.cs.Asleep t sg ∨ (t = s.cs.core.running ∧ s.waitsFor e = some sg) := by
  cases h.signalsChange (h.effect hst) t with
  | keeps x hx hr hw => exact .inl ((hw sg).mp ha)
  | blocks sg' ht he hz hr hw =>
    obtain rfl := (hw sg).mp ha
    exact .inr ⟨ht, he⟩
  | takes sg' ht he hz hr hw => exact absurd ha (hw sg)
  | clears hc x hr hw => exact .inl ((hw sg).mp ha)

/-- A task that is awake goes to sleep only through a function that calls `signal_wait`. -/
theorem SysEffect.awake_step (h : SysEffect s e s') (ha : (s.spc t).Awake)
    (hc : t = s.cs.core.running → ∀ c, e = .call c → c.Short) : (s'.spc t).Awake := by
  -- the running task moves to `p`
  have hmove {p : ServicePc} (hp : t = s.cs.core.running → p.Awake) :
      (Function.update s.spc s.cs.core.running p t).Awake := by
    by_cases ht : t = s.cs.core.running
    · rw [ht, Function.update_self]
      exact hp ht
    · rwa [Function.update_of_ne ht]
  have hat {q : ServicePc} (hq : s.spc s.cs.core.running = q) (ht : t = s.cs.core.running) : q.Awake := by
    rwa [ht, hq] at ha
  cases h with
  | semQueued hu hr hd hn => exact hmove fun ht => (hc ht _ rfl).elim
  | semBlocks hu hp hst => exact hmove fun ht => (hat hp ht).elim
  | semReturns hu hp => exact hmove fun ht => trivial
  | portWaits hu hact hd hst => exact hmove fun ht => (hc ht _ rfl).elim
  | portReturns hu hp hl hst => exact hmove fun ht => trivial
  | addStarts hu hadd hs => exact hmove fun ht => rfl
  | delayStarts hu hf hd hst => exact hmove fun ht => (hc ht _ rfl).elim
  | addElapsed hu hp he =>
    refine hmove fun ht => ?_
    rw [show _ = false from hat hp ht]
    trivial
  | addPasses hu hp he =>
    refine hmove fun ht => ?_
    have hold := hat hp ht
    exact hold
  | addInserts hu hp hm =>
    refine hmove fun ht => ?_
    rw [show _ = false from hat hp ht]
    trivial
  | delayWaits hu hp hadd hst => exact hmove fun ht => (hat hp ht).elim
  | delaySkips hu hp hadd => exact hmove fun ht => (hat hp ht).elim
  | delayFrees hu hp hst => exact hmove fun ht => trivial
  | @write w hu hw => cases w <;> exact ha
  | _ => exact ha

/-- A task that is awake calls no `signal_wait` while it goes on in a service function. -/
theorem ServicePc.Awake.waitsFor_resume (ha : (s.spc s.cs.core.running).Awake) : s.waitsFor .resume = none := by
  unfold Sys.waitsFor
  cases hp : s.spc s.cs.core.running with
  | semWaitBlock => exact (show False by rwa [hp] at ha).elim
  | msgportWait p => exact (show False by rwa [hp] at ha).elim
  | timerDelayTest tm => exact (show False by rwa [hp] at ha).elim
  | _ => rfl

/-- Only `signal_wait` itself and the service functions call `signal_wait`. -/
theorem SysEvent.eq_resume_of_waitsFor (hb : e.byTask = false) (hw : s.waitsFor e = some sg) : e = .resume := by
  cases e with
  | core e =>
    cases e with
    | call k => cases hb
    | _ => cases hw
  | resume => rfl
  | _ => cases hw

/-- An event of the core machine. -/
theorem Sys.Step.core {ev : Event} (hst : s.Step (.core ev) s') : ∃ cs, s.cs.Step ev cs ∧ s' = { s with cs := cs } := by
  have hx := hst.2
  simp only [Sys.exec, bind_eq_ok, pure_eq_ok] at hx
  obtain ⟨cs, hcs, rfl⟩ := hx
  refine ⟨cs, ⟨?_, hcs⟩, rfl⟩
  cases ev with
  | call k => exact hst.1.1
  | _ => exact hst.1

/-- What `msgport_get` does. -/
theorem Sound.msgportGet_step (h : Sound s) {p : PortRef} (hst : s.Step (.call (.service (.msgportGet p))) s') :
    s'.cs = s.cs ∧ s'.spc = s.spc ∧ s'.svc = { s.svc with messageList := (s.svc.messageList.listRemHead p).2 } := by
  have hx := hst.2
  simp only [Sys.exec, Sys.execCall, Sys.execService, bind_eq_ok, pure_eq_ok] at hx
  obtain ⟨⟨msg, k⟩, hk, rfl⟩ := hx
  rw [msgportGet_eq (k := s.kernel) h.nested.balanced] at hk
  obtain ⟨rfl, rfl⟩ := Prod.mk.inj (Except.ok.inj hk)
  exact ⟨rfl, rfl, rfl⟩

/-- What `msgport_send` does. -/
theorem Sound.msgportSend_step (h : Sound s) {p : PortRef} {m : MsgRef}
    (hst : s.Step (.call (.service (.msgportSend p m))) s') :
    s.cs.Notified (s.svc.port p) s'.cs ∧ s'.spc = s.spc ∧
      s'.svc = { s.svc with messageList := s.svc.messageList.listAddTail p m } := by
  have hx := hst.2
  simp only [Sys.exec, Sys.execCall, Sys.execService, bind_eq_ok, pure_eq_ok] at hx
  obtain ⟨k, hk, rfl⟩ := hx
  obtain ⟨-, c, hc, rfl⟩ := msgportSend_cases (k := s.kernel) h.nested.balanced hk
  exact ⟨CoreSys.notified_of_notifies hc (.inl hst.1.1), rfl, rfl⟩

end

/-! ### The invariant -/

/-- What a fetch relies on: the fields of the port. -/
def MboxPc.PortAt (t : TaskRef) (p : MsgPort) : MboxPc → Prop
  | .fetchTest _ => p.task = some t
  | .fetchStore _ _ => p.task = some t ∧ p.signal = 0
  | .fetchAction _ => p.task = some t ∧ p.signal ≠ 0
  | _ => True

/-- The signals that the consumer can be asleep with. -/
def MboxPc.SleepsWith (p : MsgPort) (sg : Signals) : MboxPc → Prop
  | .user => sg &&& p.signal = 0
  | .fetchWaiting _ timerSignal => sg = timerSignal ||| p.signal
  | _ => False

/-- The invariant of a mailbox with the single consumer `t`. -/
structure Consumer (mbox : PortRef) (t : TaskRef) (s : MboxSys) : Prop where
  /-- The machine below is sound. -/
  sound : Sound s.sys
  /-- The consumer has been initialised before it has the signal. -/
  alive : s.bit mbox t ≠ 0 → s.sys.cs.life t ≠ .fresh
  /-- It has the signal allocated. -/
  has : (s.sys.cs.core.task t).Has (s.bit mbox t)
  /-- Bit 0 is `SIGF_SINGLE`. -/
  single : s.sys.cs.life t ≠ .fresh → (s.sys.cs.core.task t).sigAlloc.getLsbD 0 = true
  /-- Other tasks only post. -/
  others : ∀ u, u ≠ t → s.mpc u = .user ∨ ∃ m, s.mpc u = .postSend m
  /-- A post that signals signals the consumer. -/
  rings : (s.port mbox).action = .signal → (s.port mbox).task = some t ∧ (s.port mbox).signal ≠ 0
  /-- The fields of the port. -/
  port : (s.mpc t).PortAt t (s.port mbox)
  /-- What the consumer is asleep with. -/
  asleep : ∀ sg, s.sys.cs.Asleep t sg → (s.mpc t).SleepsWith (s.port mbox) sg
  /-- In a mailbox function it is in no other function that waits. -/
  awake : s.mpc t ≠ .user → (s.sys.spc t).Awake
  /-- The timer of a fetch has another signal. -/
  timer : ∀ tm, (s.mpc t).timer = some tm → (s.sys.svc.timer tm).signal &&& s.bit mbox t = 0

/-- Task `t` is initialised, has the signal `b` allocated, and is not about to sleep. -/
structure Sys.AtWork (s : Sys) (t : TaskRef) (b : Signals) : Prop where
  /-- The machine is sound. -/
  sound : Sound s
  /-- The task is initialised. -/
  alive : s.cs.life t ≠ .fresh
  /-- The signal is allocated. -/
  has : (s.cs.core.task t).Has b
  /-- Bit 0 is `SIGF_SINGLE`. -/
  single : (s.cs.core.task t).sigAlloc.getLsbD 0 = true
  /-- The task is not in `signal_wait`. -/
  asleep : ∀ sg, ¬ s.cs.Asleep t sg
  /-- Nor in a function that calls it. -/
  awake : (s.spc t).Awake

section

variable {mbox : PortRef} {t : TaskRef} {s s' : MboxSys} {sys : Sys} {e : SysEvent}

theorem Consumer.running_alive (h : Consumer mbox t s) (hrun : s.running = t) : s.sys.cs.life t ≠ .fresh := by
  have hl := h.sound.placed.running_scheduled
  rw [show s.sys.cs.core.running = t from hrun] at hl
  rw [hl]
  simp

theorem Consumer.atWork (h : Consumer mbox t s) (hrun : s.running = t) (hu : s.sys.Calling) :
    s.sys.AtWork t (s.bit mbox t) := by
  subst hrun
  have halive := h.running_alive rfl
  refine ⟨h.sound, halive, h.has, h.single halive, CoreSys.not_asleep_of_user hu.1.2, ?_⟩
  rw [show s.sys.spc s.running = _ from hu.2]
  trivial

/-- The consumer calls a function that does not wait and does not free its signal. -/
theorem Consumer.calls (h : Consumer mbox t s) (hrun : s.running = t) (hu : s.sys.Calling) {c : ServiceCall}
    (hst : s.sys.Step (.call c) sys) (hc : c.Short)
    (hfrees : ∀ holder sg, s.sys.frees (.call c) = some (holder, sg) → sg &&& s.bit mbox t = 0) :
    sys.AtWork t (s.bit mbox t) := by
  have hw := h.atWork hrun hu
  have halive := h.sound.initialized_step hst hw.alive
  refine ⟨h.sound.step hst, halive, h.sound.has_step hst h.has h.alive fun _ => hfrees,
    h.sound.sigfSingle_step hst h.single halive, ?_, ?_⟩
  · intro sg ha
    rcases h.sound.asleep_step hst ha with ha | ⟨-, hsg⟩
    · exact hw.asleep sg ha
    · cases hsg
  · refine (h.sound.effect hst).awake_step hw.awake fun _ c' hc' => ?_
    cases hc'
    exact hc

/-- A call that does not block, of which the callee sends no signals, leaves the consumer's signal pending or not. -/
theorem Consumer.calls_recvd (h : Consumer mbox t s) {c : ServiceCall} (hst : s.sys.Step (.call c) sys)
    (hsends : s.sys.sends (.call c) = [])
    (hfrees : ∀ holder sg, s.sys.frees (.call c) = some (holder, sg) → sg &&& s.bit mbox t = 0)
    (hasks : ∀ holder n, SysEvent.allocates (.call c) = some (holder, n) → n = -1) :
    s.bit mbox t &&& (sys.cs.core.task t).sigRecvd = s.bit mbox t &&& (s.sys.cs.core.task t).sigRecvd := by
  refine h.sound.spares hst h.has h.alive ⟨fun sg hsg => ?_, fun _ sg hsg => (by cases hsg), fun _ he => (by cases he),
    fun _ => hfrees, fun _ holder n hn => .inl (hasks holder n hn)⟩
  rw [hsends] at hsg
  cases hsg

/-- The consumer, at work, moves to the point `p`. -/
theorem Consumer.moves (h : Consumer mbox t s) (hrun : s.running = t) {p : MboxPc}
    (hmpc : s'.mpc = Function.update s.mpc s.running p) (hw : s'.sys.AtWork t (s'.bit mbox t))
    (hrings : (s'.port mbox).action = .signal → (s'.port mbox).task = some t ∧ (s'.port mbox).signal ≠ 0)
    (hport : p.PortAt t (s'.port mbox))
    (htimer : ∀ tm, p.timer = some tm → (s'.sys.svc.timer tm).signal &&& s'.bit mbox t = 0) : Consumer mbox t s' := by
  have hp : s'.mpc t = p := by rw [hmpc, hrun, Function.update_self]
  exact {
    sound := hw.sound
    alive := fun _ => hw.alive
    has := hw.has
    single := fun _ => hw.single
    others := fun u hu => by
      rw [hmpc, hrun, Function.update_of_ne hu]
      exact h.others u hu
    rings := hrings
    port := by rw [hp]; exact hport
    asleep := fun sg ha => absurd ha (hw.asleep sg)
    awake := fun _ => hw.awake
    timer := fun tm htm => htimer tm (hp ▸ htm) }

/-! ### Events below -/

/-- Other code leaves the consumer's signal alone; only `signal_wait`, called by a fetch, takes it. -/
theorem Consumer.spares (h : Consumer mbox t s) (hl : s.Leaves mbox t e)
    (hno : s.running = t → e = .core .resume → ∀ f timerSignal, s.mpc t ≠ .fetchWaiting f timerSignal) :
    s.sys.Spares t (s.bit mbox t) e where
  sends sg hsg := by
    rcases hl.sends (t, sg) hsg rfl with hz | ⟨tm, htm, hsig⟩
    · exact hz
    · rw [show sg = _ from hsig]
      exact h.timer tm htm
  waits := hl.waits
  asleep hrun he sg ha := by
    have hsl := h.asleep sg ha
    cases hp : s.mpc t with
    | user =>
      rw [hp] at hsl
      simp only [MboxSys.bit, hp]
      exact hsl
    | fetchWaiting f timerSignal => exact absurd hp (hno hrun he f timerSignal)
    | _ => exact (show False by rwa [hp] at hsl).elim
  frees hrun holder sg hf := hl.frees hrun (holder, sg) hf
  asks hrun holder n ha := hl.asks hrun (holder, n) ha

/-- A task goes on in a mailbox function, unless `signal_wait` returns to the consumer. -/
theorem Consumer.afterSys_cases (h : Consumer mbox t s) (hp : e.byTask = true → s.mpc s.running = .user) :
    ((s.goto (s.afterSys e)).mpc = s.mpc ∧ (e = .core .resume →
      (∃ f timerSignal, s.mpc s.running = .fetchWaiting f timerSignal) → s.sys.cs.returns .resume = none)) ∨
    (s.running = t ∧ e = .core .resume ∧ ∃ f timerSignal rcvd, s.mpc t = .fetchWaiting f timerSignal ∧
      s.sys.cs.returns .resume = some rcvd ∧
      (s.goto (s.afterSys e)).mpc = Function.update s.mpc s.running (.fetchGot f timerSignal rcvd)) := by
  have hsame (ha : s.afterSys e = s.mpc s.running) : (s.goto (s.afterSys e)).mpc = s.mpc := by
    rw [ha]
    exact Function.update_eq_self ..
  cases e with
  | core e =>
    by_cases hw : ∃ f timerSignal, s.mpc s.running = .fetchWaiting f timerSignal
    · obtain ⟨f, timerSignal, hw⟩ := hw
      have hrun : s.running = t := by
        by_contra hne
        rcases h.others _ hne with hu | ⟨m, hm⟩
        · cases hw.symm.trans hu
        · cases hw.symm.trans hm
      cases hret : s.sys.cs.returns e with
      | none =>
        refine .inl ⟨hsame (by simp only [MboxSys.afterSys, hw, MboxSys.waited, hret]), fun he _ => ?_⟩
        rwa [← SysEvent.core.inj he]
      | some rcvd =>
        have he : e = .resume := by
          cases e with
          | call k => cases hw.symm.trans (hp rfl)
          | resume => rfl
          | _ => cases hret
        subst he
        refine .inr ⟨hrun, rfl, f, timerSignal, rcvd, hrun ▸ hw, hret, ?_⟩
        simp only [MboxSys.afterSys, hw, MboxSys.waited, hret, MboxSys.goto]
    · refine .inl ⟨hsame ?_, fun _ hw' => absurd hw' hw⟩
      unfold MboxSys.afterSys
      dsimp only
      split
      · next f timerSignal hw' => exact absurd ⟨f, timerSignal, hw'⟩ hw
      · rfl
  | _ => exact .inl ⟨hsame rfl, nofun⟩

/-- Outside the store of a new signal it is in the port. -/
theorem MboxSys.bit_eq (h : ∀ f signal, s.mpc t ≠ .fetchStore f signal) : s.bit mbox t = (s.port mbox).signal := by
  unfold MboxSys.bit
  split
  · next f signal hp => exact absurd hp (h f signal)
  · rfl

theorem MboxSys.bit_congr (hmpc : s'.mpc t = s.mpc t) (hport : s'.port mbox = s.port mbox) :
    s'.bit mbox t = s.bit mbox t := by
  simp only [MboxSys.bit, hmpc, hport]

/-- **An event below keeps the invariant.** -/
theorem Consumer.sys_step (h : Consumer mbox t s) (hl : s.Leaves mbox t e)
    (hp : e.byTask = true → s.mpc s.running = .user) (hst : s.sys.Step e s'.sys)
    (hs' : s'.mpc = (s.goto (s.afterSys e)).mpc) : Consumer mbox t s' := by
  have heff := h.sound.effect hst
  have hport : s'.port mbox = s.port mbox := (heff.untouched hl.port).1
  have hhas := h.sound.has_step hst h.has h.alive fun hrun holder sg hf => hl.frees hrun (holder, sg) hf
  have hsingle := h.sound.sigfSingle_step hst h.single
  have hsignal {tm : TimerRef} (htm : (s.mpc t).timer = some tm) :
      (s'.sys.svc.timer tm).signal &&& s.bit mbox t = 0 := by
    rw [heff.signal_eq fun n hn => hl.timer tm htm (.timer tm, n) hn rfl]
    exact h.timer tm htm
  have hawake (hne : s.mpc t ≠ .user) : (s'.sys.spc t).Awake := by
    refine heff.awake_step (h.awake hne) fun ht c he => ?_
    rw [he] at hp
    exact absurd (hp rfl) (by rwa [show s.running = t from ht.symm])
  rcases h.afterSys_cases hp with ⟨hmpc, -⟩ | ⟨hrun, rfl, f, timerSignal, rcvd, hw, hret, hmpc⟩
  · have hmpc := hs'.trans hmpc
    have hbit : s'.bit mbox t = s.bit mbox t := MboxSys.bit_congr (congrFun hmpc t) hport
    exact {
      sound := h.sound.step hst
      alive := fun hne => h.sound.initialized_step hst (h.alive (hbit ▸ hne))
      has := by rw [hbit]; exact hhas
      single := hsingle
      others := fun u hu => by rw [hmpc]; exact h.others u hu
      rings := by rw [hport]; exact h.rings
      port := by rw [hmpc, hport]; exact h.port
      asleep := fun sg ha => by
        rw [hmpc, hport]
        rcases h.sound.asleep_step hst ha with ha | ⟨ht, hsg⟩
        · exact h.asleep sg ha
        · -- it has just called `signal_wait`, so it is in its own code
          have huser : s.mpc t = .user := by
            by_contra hne
            have hb : e.byTask = false := by
              by_contra hb
              exact hne (ht ▸ hp (by simpa using hb))
            obtain rfl := SysEvent.eq_resume_of_waitsFor hb hsg
            rw [(show (s.sys.spc s.sys.cs.core.running).Awake from ht ▸ h.awake hne).waitsFor_resume] at hsg
            cases hsg
          have hz := hl.waits ht.symm sg hsg
          simp only [MboxSys.bit, huser] at hz
          rw [huser]
          exact hz
      awake := fun hne => hawake (hmpc ▸ hne)
      timer := fun tm htm => by
        rw [hbit]
        exact hsignal (hmpc ▸ htm) }
  · have hmpc := hs'.trans hmpc
    have hat : s'.mpc t = .fetchGot f timerSignal rcvd := by rw [hmpc, hrun, Function.update_self]
    have hbit : s'.bit mbox t = s.bit mbox t := by simp only [MboxSys.bit, hat, hw, hport]
    have hne : s.mpc t ≠ .user := by simp [hw]
    have hwork : s'.sys.AtWork t (s.bit mbox t) := by
      have halive := h.sound.initialized_step hst (h.running_alive hrun)
      refine ⟨h.sound.step hst, halive, hhas, hsingle halive, fun sg => ?_, hawake hne⟩
      obtain ⟨cs, hcs, hsys⟩ := hst.core
      rcases h.sound.nested.resume_cases hcs with ⟨-, -, -, hno, -⟩ | ⟨hnone, -⟩
      · rw [hsys]
        exact hrun ▸ hno sg
      · cases hnone.symm.trans hret
    refine h.moves hrun hmpc (hbit ▸ hwork) ?_ trivial fun tm htm => ?_
    · rw [hport]
      exact h.rings
    · rw [hbit]
      refine hsignal ?_
      rw [hw]
      exact htm

/-! ### Statements of the mailbox functions -/

/-- A task in `sys_arch_mbox_fetch` or `sys_arch_mbox_tryfetch` is the consumer. -/
theorem Consumer.running_eq (h : Consumer mbox t s) {p : MboxPc} (hp : s.mpc s.running = p) (hu : p ≠ .user)
    (hm : ∀ m, p ≠ .postSend m) : s.running = t := by
  by_contra hne
  rcases h.others _ hne with ho | ⟨m, ho⟩
  · exact hu (hp.symm.trans ho)
  · exact hm m (hp.symm.trans ho)

/-- The consumer goes on, and nothing happens below. -/
theorem Consumer.goes (h : Consumer mbox t s) (hrun : s.running = t) (hu : s.sys.Calling) {p : MboxPc}
    (hmpc : s'.mpc = Function.update s.mpc s.running p) (hsys : s'.sys = s.sys)
    (hbit : s'.bit mbox t = s.bit mbox t) (hport : p.PortAt t (s.port mbox))
    (htimer : ∀ tm, p.timer = some tm → (s.mpc t).timer = some tm) : Consumer mbox t s' := by
  have hsame : s'.port mbox = s.port mbox := by rw [MboxSys.port, hsys, MboxSys.port]
  refine h.moves hrun hmpc ?_ ?_ (hsame ▸ hport) fun tm htm => ?_
  · rw [hsys, hbit]
    exact h.atWork hrun hu
  · rw [hsame]
    exact h.rings
  · rw [hsys, hbit]
    exact h.timer tm (htimer tm htm)

/-- `sys_mbox_post` begins. -/
theorem Consumer.post_step (h : Consumer mbox t s) (hu : s.sys.Calling) (hp : s.mpc s.running = .user) {m : MsgRef}
    (hmpc : s'.mpc = Function.update s.mpc s.running (.postSend m)) (hsys : s'.sys = s.sys) : Consumer mbox t s' := by
  have hport : s'.port mbox = s.port mbox := by rw [MboxSys.port, hsys, MboxSys.port]
  by_cases hrun : s.running = t
  · have hat : s'.mpc t = .postSend m := by rw [hmpc, hrun, Function.update_self]
    refine h.goes hrun hu hmpc hsys ?_ trivial fun tm htm => (by cases htm)
    rw [hrun] at hp
    simp only [MboxSys.bit, hat, hp, hport]
  · have hat : s'.mpc t = s.mpc t := by rw [hmpc, Function.update_of_ne (Ne.symm hrun)]
    have hbit : s'.bit mbox t = s.bit mbox t := MboxSys.bit_congr hat hport
    refine ⟨?_, ?_, ?_, ?_, fun v hv => ?_, ?_, ?_, ?_, ?_, ?_⟩
    · rw [hsys]; exact h.sound
    · rw [hbit, hsys]; exact h.alive
    · rw [hbit, hsys]; exact h.has
    · rw [hsys]; exact h.single
    · rw [hmpc]
      by_cases hvr : v = s.running
      · subst hvr
        exact .inr ⟨m, Function.update_self ..⟩
      · rw [Function.update_of_ne hvr]
        exact h.others v hv
    · rw [hport]; exact h.rings
    · rw [hat, hport]; exact h.port
    · rw [hat, hport, hsys]; exact h.asleep
    · rw [hat, hsys]; exact h.awake
    · rw [hat, hbit, hsys]; exact h.timer

/-- `sys_mbox_post` sends the message. -/
theorem Consumer.sends_step (h : Consumer mbox t s) (hu : s.sys.Calling) {m : MsgRef}
    (hp : s.mpc s.running = .postSend m) (hst : s.sys.Step (.call (.service (.msgportSend mbox m))) s'.sys)
    (hmpc : s'.mpc = Function.update s.mpc s.running .user) : Consumer mbox t s' := by
  obtain ⟨-, hspc, hsvc⟩ := h.sound.msgportSend_step hst
  have hport : s'.port mbox = s.port mbox := by simp only [MboxSys.port, hsvc]
  by_cases hrun : s.running = t
  · have hat : s'.mpc t = .user := by rw [hmpc, hrun, Function.update_self]
    have hbit : s'.bit mbox t = s.bit mbox t := by
      rw [hrun] at hp
      simp only [MboxSys.bit, hat, hp, hport]
    refine h.moves hrun hmpc ?_ (hport ▸ h.rings) trivial fun tm htm => (by cases htm)
    rw [hbit]
    exact h.calls hrun hu hst trivial fun _ _ hf => (by cases hf)
  · have hat : s'.mpc t = s.mpc t := by rw [hmpc, Function.update_of_ne (Ne.symm hrun)]
    have hbit : s'.bit mbox t = s.bit mbox t := MboxSys.bit_congr hat hport
    refine ⟨h.sound.step hst, ?_, ?_, h.sound.sigfSingle_step hst h.single, fun v hv => ?_, hport ▸ h.rings, ?_,
      fun sg ha => ?_, ?_, ?_⟩
    · rw [hbit]
      exact fun hne => h.sound.initialized_step hst (h.alive hne)
    · rw [hbit]
      exact h.sound.has_step hst h.has h.alive fun _ _ _ hf => by cases hf
    · rw [hmpc]
      by_cases hvr : v = s.running
      · subst hvr
        exact .inl (Function.update_self ..)
      · rw [Function.update_of_ne hvr]
        exact h.others v hv
    · rw [hat, hport]; exact h.port
    · rw [hat, hport]
      rcases h.sound.asleep_step hst ha with ha | ⟨-, hsg⟩
      · exact h.asleep sg ha
      · cases hsg
    · rw [hat, hspc]; exact h.awake
    · rw [hat, hbit, hsvc]; exact h.timer

/-- A program writes to its structures. -/
theorem Sys.Step.write_eq {a b : Sys} {w : Write} (hst : a.Step (.call (.write w)) b) : b = a.execWrite w :=
  (Except.ok.inj hst.2).symm

/-- The consumer writes to the fields of the port. -/
theorem Consumer.writes_port (h : Consumer mbox t s) (hrun : s.running = t) (hu : s.sys.Calling) {v : MsgPort}
    {p : MboxPc} (hst : s.sys.Step (.call (.write (.port mbox v))) s'.sys)
    (hmpc : s'.mpc = Function.update s.mpc s.running p) (hbit : s'.bit mbox t = s.bit mbox t)
    (hrings : v.action = .signal → v.task = some t ∧ v.signal ≠ 0) (hport : p.PortAt t v) (htimer : p.timer = none) :
    Consumer mbox t s' := by
  have hv : s'.port mbox = v := by
    rw [MboxSys.port, hst.write_eq]
    exact Function.update_self ..
  refine h.moves hrun hmpc ?_ (hv ▸ hrings) (hv ▸ hport) fun tm htm => (by cases htimer.symm.trans htm)
  rw [hbit]
  exact h.calls hrun hu hst trivial fun _ _ hf => (by cases hf)

/-- The consumer calls a function that does not wait and leaves the port's fields. -/
theorem Consumer.calls_step (h : Consumer mbox t s) (hrun : s.running = t) (hu : s.sys.Calling) {c : ServiceCall}
    {p : MboxPc} (hst : s.sys.Step (.call c) s'.sys) (hc : c.Short)
    (hfrees : ∀ holder sg, s.sys.frees (.call c) = some (holder, sg) → sg &&& s.bit mbox t = 0)
    (hmpc : s'.mpc = Function.update s.mpc s.running p) (hsame : s'.port mbox = s.port mbox)
    (hbit : s'.bit mbox t = s.bit mbox t) (hport : p.PortAt t (s.port mbox))
    (htimer : ∀ tm, p.timer = some tm → (s'.sys.svc.timer tm).signal &&& s.bit mbox t = 0) : Consumer mbox t s' := by
  refine h.moves hrun hmpc ?_ ?_ (hsame ▸ hport) ?_
  · rw [hbit]
    exact h.calls hrun hu hst hc hfrees
  · rw [hsame]
    exact h.rings
  · rw [hbit]
    exact htimer

/-- A fetch calls `signal_wait`. -/
theorem Consumer.waits_step (h : Consumer mbox t s) (hrun : s.running = t) (hu : s.sys.Calling) {f : Fetch}
    {timerSignal : Signals} (hp : s.mpc s.running = .fetchWait f timerSignal)
    (hst : s.sys.Step (.core (.call (.signalWait (timerSignal ||| (s.port mbox).signal)))) s'.sys)
    (hmpc : s'.mpc = Function.update s.mpc s.running
      (s.waited (.call (.signalWait (timerSignal ||| (s.port mbox).signal))) f timerSignal)) : Consumer mbox t s' := by
  subst hrun
  have hw := h.atWork rfl hu
  have hhas := h.sound.has_step hst h.has h.alive fun _ _ _ hf => by cases hf
  have halive := h.sound.initialized_step hst hw.alive
  have hsingle := h.sound.sigfSingle_step hst h.single
  obtain ⟨cs, hcs, hsys⟩ := hst.core
  have hport : s'.port mbox = s.port mbox := by rw [MboxSys.port, hsys, MboxSys.port]
  have hat : s'.mpc s.running = _ := (congrFun hmpc s.running).trans (Function.update_self ..)
  have hret := h.sound.nested.returns_call (timerSignal ||| (s.port mbox).signal)
  have htimer {q : MboxPc} (hq : q.timer = (s.mpc s.running).timer) (tm : TimerRef) (htm : q.timer = some tm) :
      (s'.sys.svc.timer tm).signal &&& s.bit mbox s.running = 0 := by
    rw [hsys]
    exact h.timer tm (hq ▸ htm)
  rcases h.sound.nested.signalWait_cases hcs with ⟨hz, hasl, -⟩ | ⟨hz, hno, -⟩
  · rw [if_pos hz] at hret
    simp only [MboxSys.waited, hret] at hat
    have hbit : s'.bit mbox s.running = s.bit mbox s.running := by simp only [MboxSys.bit, hat, hp, hport]
    refine ⟨h.sound.step hst, fun _ => halive, hbit ▸ hhas, hsingle, fun v hv => ?_, hport ▸ h.rings, ?_,
      fun sg ha => ?_, fun _ => ?_, ?_⟩
    · rw [hmpc, Function.update_of_ne hv]
      exact h.others v hv
    · rw [hat]
      trivial
    · rw [hat, hport]
      rw [hsys] at ha
      exact hasl.unique ha
    · rw [hsys]
      exact hw.awake
    · rw [hat, hbit]
      exact htimer (by rw [hp]; rfl)
  · rw [if_neg hz] at hret
    have hwaited : s.waited (.call (.signalWait (timerSignal ||| (s.port mbox).signal))) f timerSignal =
        .fetchGot f timerSignal ((timerSignal ||| (s.port mbox).signal) &&&
          (s.sys.cs.core.task s.sys.cs.core.running).sigRecvd) := by
      simp only [MboxSys.waited, hret]
    rw [hwaited] at hmpc hat
    have hbit : s'.bit mbox s.running = s.bit mbox s.running := by simp only [MboxSys.bit, hat, hp, hport]
    refine h.moves rfl hmpc ?_ (hport ▸ h.rings) trivial ?_
    · rw [hbit]
      refine ⟨h.sound.step hst, halive, hhas, hsingle halive, fun sg => ?_, ?_⟩
      · rw [hsys]
        exact hno sg
      · rw [hsys]
        exact hw.awake
    · rw [hbit]
      exact htimer (by rw [hp]; rfl)

/-- `sys_arch_mbox_fetch` allocates a signal. -/
theorem Consumer.allocates_step (h : Consumer mbox t s) (hrun : s.running = t) (hu : s.sys.Calling) {f : Fetch} {i : ℕ}
    {c : Core} (hp : s.mpc s.running = .fetchTest f) (hz : (s.port mbox).signal = 0)
    (hc : signalAllocate (-1) s.sys.cs.core = .ok ((i : ℤ), c))
    (hst : s.sys.Step (.core (.call (.signalAllocate (-1)))) s'.sys)
    (hmpc : s'.mpc = Function.update s.mpc s.running (.fetchStore f (1#16 <<< i))) : Consumer mbox t s' ∧
    1#16 <<< i &&& (s'.sys.cs.core.task t).sigRecvd = 0 := by
  subst hrun
  have hw := h.atWork rfl hu
  have hat : s'.mpc s.running = _ := (congrFun hmpc s.running).trans (Function.update_self ..)
  have hport : s'.port mbox = s.port mbox := ((h.sound.effect hst).untouched fun ht => ht.elim).1
  have hbit : s'.bit mbox s.running = 1#16 <<< i := by simp only [MboxSys.bit, hat]
  have hown : (s.port mbox).task = some s.running := by
    have hpt := h.port
    rwa [hp] at hpt
  obtain ⟨signum, c', hall⟩ := hst.allocates (h := .direct) (n := -1) rfl
  obtain ⟨hsig, rfl⟩ := Prod.mk.inj (Except.ok.inj (hc.symm.trans hall.call))
  have hhand : s.sys.HandedOut s'.sys .direct i := by
    refine h.sound.handedOut hst ?_
    rw [Sys.handsOut_eq (n := -1) (by rfl) hc, if_neg (by omega), Int.toNat_natCast]
  have hlt : i < signalsWidth := by
    by_contra hge
    have hfalse := BitVec.getLsbD_of_ge (s'.sys.cs.core.task s.sys.cs.core.running).sigAlloc i
      (by simpa [signalsWidth] using hge)
    cases hfalse.symm.trans hhand.allocated
  have hpos : 1 ≤ i := by
    by_contra hzero
    obtain rfl : i = 0 := by omega
    cases hhand.free.symm.trans hw.single
  have halive := h.sound.initialized_step hst hw.alive
  refine ⟨h.moves rfl hmpc ?_ (hport ▸ h.rings) ⟨hport ▸ hown, hport ▸ hz⟩ fun tm htm => (by cases htm), ?_⟩
  · rw [hbit]
    refine ⟨h.sound.step hst, halive, .inr ⟨i, hpos, hlt, rfl, hhand.allocated⟩,
      h.sound.sigfSingle_step hst h.single halive, fun sg ha => ?_, ?_⟩
    · rcases h.sound.asleep_step hst ha with ha | ⟨-, hsg⟩
      · exact hw.asleep sg ha
      · cases hsg
    · exact (h.sound.effect hst).awake_step hw.awake fun _ c' hc' => (by cases hc')
  · by_contra hne
    have hq := (mask_and_ne_zero hlt _).mp hne
    cases hq.symm.trans hhand.quiet

/-- **Every step keeps the invariant.** -/
theorem Consumer.step {ev : MboxEvent} (h : Consumer mbox t s) (hc : s.Contract mbox t ev) (hstep : s.Step mbox ev s') :
    Consumer mbox t s' := by
  have hpt := h.port
  -- a function that does not use the port leaves its fields
  have hkeeps {c : ServiceCall} {sys : Sys} (hst : s.sys.Step (.call c) sys) (hno : ¬ s.sys.Touches mbox (.call c)) :
      sys.svc.port mbox = s.port mbox := ((h.sound.effect hst).untouched hno).1
  -- nor does it change the signal of a timer that it does not allocate
  have hsame {c : ServiceCall} {sys : Sys} {tm : TimerRef} (hst : s.sys.Step (.call c) sys)
      (ha : SysEvent.allocates (.call c) = none) (htm : (s.mpc t).timer = some tm) :
      (sys.svc.timer tm).signal &&& s.bit mbox t = 0 := by
    rw [(h.sound.effect hst).signal_eq fun n hn => by cases ha.symm.trans hn]
    exact h.timer tm htm
  cases hstep.effect with
  | sys hp hst => exact h.sys_step hc hp hst rfl
  | post hu hp => exact h.post_step hu hp rfl rfl
  | fetch hu hp =>
    obtain rfl : s.running = t := hc
    refine h.goes rfl hu rfl rfl ?_ trivial fun tm htm => (by cases htm)
    simp [MboxSys.bit, MboxSys.goto, hp, MboxSys.port]
  | tryfetch hu hp =>
    obtain rfl : s.running = t := hc
    refine h.goes rfl hu rfl rfl ?_ trivial fun tm htm => (by cases htm)
    simp [MboxSys.bit, MboxSys.goto, hp, MboxSys.port]
  | free hp hst => exact hc.elim
  | sends hu hp hst => exact h.sends_step hu hp hst rfl
  | setsTask hu hp hst =>
    obtain rfl := h.running_eq hp (by simp) (by simp)
    refine h.writes_port rfl hu hst rfl ?_ (fun ha => ⟨rfl, (h.rings ha).2⟩) rfl rfl
    simp [MboxSys.bit, MboxSys.goto, hp, MboxSys.port, hst.write_eq, Sys.execWrite]
  | allocates hu hp hz hcall hst =>
    obtain rfl := h.running_eq hp (by simp) (by simp)
    exact (h.allocates_step rfl hu hp hz hcall hst rfl).1
  | keepsSignal hu hp hz =>
    obtain rfl := h.running_eq hp (by simp) (by simp)
    rw [hp] at hpt
    refine h.goes rfl hu rfl rfl ?_ ⟨hpt, hz⟩ fun tm htm => (by cases htm)
    simp [MboxSys.bit, MboxSys.goto, hp, MboxSys.port]
  | stores hu hp hz hst =>
    obtain rfl := h.running_eq hp (by simp) (by simp)
    rw [hp] at hpt
    refine h.writes_port rfl hu hst rfl ?_ (fun ha => absurd hpt.2 (h.rings ha).2) ⟨hpt.1, hz⟩ rfl
    simp [MboxSys.bit, MboxSys.goto, hp, MboxSys.port, hst.write_eq, Sys.execWrite]
  | setsAction hu hp hst =>
    obtain rfl := h.running_eq hp (by simp) (by simp)
    rw [hp] at hpt
    refine h.writes_port rfl hu hst rfl ?_ (fun _ => hpt) trivial rfl
    simp [MboxSys.bit, MboxSys.goto, hp, MboxSys.port, hst.write_eq, Sys.execWrite]
  | skipsTimer hu hp =>
    obtain rfl := h.running_eq hp (by simp) (by simp)
    refine h.goes rfl hu rfl rfl ?_ trivial fun tm htm => (by simp [MboxPc.timer] at htm)
    simp [MboxSys.bit, MboxSys.goto, hp, MboxSys.port]
  | allocatesTimer hu hp hst =>
    obtain rfl := h.running_eq hp (by simp) (by simp)
    have hport := hkeeps hst fun ht => ht.elim
    refine h.calls_step rfl hu hst trivial (fun _ _ hf => (by cases hf)) rfl hport ?_ trivial fun tm htm => ?_
    · simp only [MboxSys.bit, MboxSys.goto, hp, Function.update_self]
      exact congrArg MsgPort.signal hport
    · -- the timer has got a bit that was free
      obtain rfl := Option.some.inj htm
      obtain ⟨signum, c, hall⟩ := hst.allocates (n := -1) rfl
      obtain ⟨hne, hsig⟩ := hall.timer _ rfl
      rcases h.sound.nested.balanced.signalAllocate_ok hall.call with ⟨i, hi, rfl, -, hfree⟩ | ⟨hneg, -⟩
      · rw [Int.toNat_natCast] at hsig
        rw [hsig]
        exact and_comm_eq_zero (h.has.disjoint_of_free hi hfree)
      · exact absurd hneg hne
  | setsTimer hu hp hst =>
    obtain rfl := h.running_eq hp (by simp) (by simp)
    have hport := hkeeps hst fun ht => ht.elim
    refine h.calls_step rfl hu hst trivial (fun _ _ hf => (by cases hf)) rfl hport ?_ trivial fun tm htm => ?_
    · simp only [MboxSys.bit, MboxSys.goto, hp, Function.update_self]
      exact congrArg MsgPort.signal hport
    · exact hsame hst rfl (by rw [hp]; exact htm)
  | addsTimer hu hp hst =>
    obtain rfl := h.running_eq hp (by simp) (by simp)
    have hport := hkeeps hst fun ht => ht.elim
    refine h.calls_step rfl hu hst trivial (fun _ _ hf => (by cases hf)) rfl hport ?_ trivial fun tm htm => ?_
    · simp only [MboxSys.bit, MboxSys.goto, hp, Function.update_self]
      exact congrArg MsgPort.signal hport
    · refine hsame hst rfl ?_
      rw [hp]
      simp only [MboxPc.timer] at htm ⊢
      split at htm
      · cases htm
      · exact htm
  | waits hu hp hst =>
    have hrun := h.running_eq hp (by simp) (by simp)
    exact h.waits_step hrun hu hp hst rfl
  | gets hu hp hz hst =>
    obtain rfl := h.running_eq hp (by simp) (by simp)
    have hport : _ = s.port mbox := congrArg (fun svc => svc.port mbox) (h.sound.msgportGet_step hst).2.2
    refine h.calls_step rfl hu hst trivial (fun _ _ hf => (by cases hf)) rfl hport ?_ trivial fun tm htm => ?_
    · simp only [MboxSys.bit, MboxSys.goto, hp, Function.update_self]
      exact congrArg MsgPort.signal hport
    · exact hsame hst rfl (by rw [hp]; exact htm)
  | timesOut hu hp hz =>
    obtain rfl := h.running_eq hp (by simp) (by simp)
    refine h.goes rfl hu rfl rfl ?_ trivial fun tm htm => (by rw [hp]; exact htm)
    simp [MboxSys.bit, MboxSys.goto, hp, MboxSys.port]
  | reads hu hp =>
    obtain rfl := h.running_eq hp (by simp) (by simp)
    refine h.goes rfl hu rfl rfl ?_ trivial fun tm htm => (by rw [hp]; exact htm)
    simp [MboxSys.bit, MboxSys.goto, MboxSys.memFree, hp, MboxSys.port]
  | abortsTimer hu hp hz hst =>
    obtain rfl := h.running_eq hp (by simp) (by simp)
    have hport := hkeeps hst fun ht => ht.elim
    refine h.calls_step rfl hu hst trivial (fun _ _ hf => (by cases hf)) rfl hport ?_ trivial fun tm htm => ?_
    · simp only [MboxSys.bit, MboxSys.goto, hp, Function.update_self]
      exact congrArg MsgPort.signal hport
    · refine hsame hst rfl ?_
      rw [hp]
      simp only [MboxPc.timer, if_neg hz]
      exact htm
  | returns hu hp hz =>
    obtain rfl := h.running_eq hp (by simp) (by simp)
    refine h.goes rfl hu rfl rfl ?_ trivial fun tm htm => (by cases htm)
    simp [MboxSys.bit, MboxSys.goto, hp, MboxSys.port]
  | @freesTimer f endTime _ hu hp hst =>
    obtain rfl := h.running_eq hp (by simp) (by simp)
    have hport := hkeeps hst fun ht => ht.elim
    refine h.calls_step rfl hu hst trivial (fun holder sg hf => ?_) rfl hport ?_ trivial fun tm htm => (by cases htm)
    · obtain ⟨-, rfl⟩ := Prod.mk.inj (Option.some.inj hf)
      exact h.timer f.timer (by rw [hp]; rfl)
    · simp only [MboxSys.bit, MboxSys.goto, hp, Function.update_self]
      exact congrArg MsgPort.signal hport
  | tryGets hu hp hst =>
    obtain rfl := h.running_eq hp (by simp) (by simp)
    have hport : _ = s.port mbox := congrArg (fun svc => svc.port mbox) (h.sound.msgportGet_step hst).2.2
    refine h.calls_step rfl hu hst trivial (fun _ _ hf => (by cases hf)) rfl hport ?_ trivial fun tm htm =>
      (by cases htm)
    simp only [MboxSys.bit, MboxSys.goto, hp, Function.update_self]
    exact congrArg MsgPort.signal hport
  | tryReads hu hp =>
    obtain rfl := h.running_eq hp (by simp) (by simp)
    refine h.goes rfl hu rfl rfl ?_ trivial fun tm htm => (by cases htm)
    simp [MboxSys.bit, MboxSys.goto, MboxSys.memFree, hp, MboxSys.port]
  | tryEmpty hu hp =>
    obtain rfl := h.running_eq hp (by simp) (by simp)
    refine h.goes rfl hu rfl rfl ?_ trivial fun tm htm => (by cases htm)
    simp [MboxSys.bit, MboxSys.goto, hp, MboxSys.port]

end

end Martos
