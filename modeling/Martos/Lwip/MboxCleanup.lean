import Martos.Lwip.SemCleanup

/-!
# Fetches clean up

A fetch has the signal of its timer in hand, and the signal that it has allocated for the
mailbox, if it was the one to do so. Only the second stays allocated when it returns: it is the
mailbox's signal from then on.

One task at a time fetches from a mailbox (`MboxSys.OneFetch`).
-/

namespace Martos

open Checked Transition

/-- The signals of the timer that the fetch has in hand. -/
def MboxPc.inHand (svc : Services) : MboxPc → List Signals
  | .fetchSetup f => [(svc.timer f.timer).signal]
  | .fetchAdd f => [(svc.timer f.timer).signal]
  | .fetchWait _ timerSignal => [timerSignal]
  | .fetchWaiting _ timerSignal => [timerSignal]
  | .fetchGot _ timerSignal _ => [timerSignal]
  | .fetchRead _ timerSignal _ => [timerSignal]
  | .fetchAbort _ timerSignal _ => [timerSignal]
  | .fetchFree f _ => [(svc.timer f.timer).signal]
  | _ => []

/-- The mailbox's signal, from its allocation on. -/
def MboxPc.bit (p : MsgPort) : MboxPc → Signals
  | .fetchStore _ signal => signal
  | _ => p.signal

/-- `alloc` is `A`, perhaps with the mailbox's signal, and the signals in hand on top. -/
def MboxPc.Owns (mbox : PortRef) (svc : Services) (A alloc : Signals) (p : MboxPc) : Prop :=
  ∃ B, (B = A ∨ B = A ||| p.bit (svc.port mbox)) ∧ Grown B (p.inHand svc) alloc

/-- `signal_wait` waits for the signals of the mailbox and the timer, and returns some of them. -/
def MboxPc.Listens (mbox : PortRef) (sys : Sys) (t : TaskRef) : MboxPc → Prop
  | .fetchWaiting _ timerSignal => sys.cs.Asleep t (timerSignal ||| (sys.svc.port mbox).signal)
  | .fetchGot _ timerSignal gotSignals =>
    gotSignals ≠ 0 ∧ ∃ r, gotSignals = (timerSignal ||| (sys.svc.port mbox).signal) &&& r
  | _ => True

/-- The event initialises the port or writes to it. -/
def SysEvent.WritesPort (mbox : PortRef) (e : SysEvent) : Prop :=
  (∃ value, e = .call (.write (.port mbox value))) ∨ e = .call (.msgportInit mbox)

namespace MboxSys

variable (mbox : PortRef) (t : TaskRef) (s : MboxSys)

/-- One task at a time fetches, and other code leaves the fields of the mailbox's port alone. -/
def OneFetch : MboxEvent → Prop
  | .sys e => ¬ e.WritesPort mbox
  | .fetch _ _ => ∀ u, (s.mpc u).fetching = none
  | _ => True

/-- Nobody but `t` is in a fetch. -/
def Alone : Prop := ∀ u, u ≠ t → (s.mpc u).fetching = none

/-- `sig_alloc` of task `t` is `A`, perhaps with the mailbox's signal, and the signals in hand on
top. -/
def Holds (A : Signals) : Prop := (s.mpc t).Owns mbox s.sys.svc A (s.sys.cs.core.task t).sigAlloc

/-- What holds of the fetches in every reachable state. -/
structure Tidy : Prop where
  /-- The timers. -/
  timing : s.Timing
  /-- One fetch at a time. -/
  alone : ∀ t, (s.mpc t).fetching ≠ none → s.Alone t
  /-- The signals that are waited for. -/
  listens : ∀ t, (s.mpc t).Listens mbox s.sys t

/-- The task is in the endless loop for a signal that was not asked for. -/
def Stuck : Prop := ∃ f timerSignal gotSignals, s.mpc t = .fetchGot f timerSignal gotSignals ∧
  gotSignals &&& (s.port mbox).signal = 0 ∧ gotSignals &&& timerSignal = 0

/-- Task `t` calls `sys_arch_mbox_fetch(mbox, msg, timeout)` in `s₁`, and it returns `value` in `s`. -/
structure FetchCall (t : TaskRef) (timeout : Ticks) (timer : TimerRef) (s₁ s₂ : MboxSys)
    (tr : List (Move MboxSys MboxEvent)) (s s' : MboxSys) (value : Ticks) : Prop where
  /-- The call and what happens meanwhile. -/
  run : Activation (Restrict (fun s ev => s.PrivateTimers ev ∧ s.OneFetch mbox ev) (Step mbox))
    (fun s => (s.mpc t).fetching ≠ none) s₁ (.fetch timeout timer) s₂ tr s .step s'
  /-- The task calls. -/
  caller : s₁.running = t
  /-- The task returns. -/
  back : s.running = t
  /-- The value. -/
  returns : s.returns .step = some value

end MboxSys

/-- What a task does itself, unlike interrupt handlers. -/
def MboxEvent.Own : MboxEvent → Prop
  | .sys e => e.Own
  | _ => True

section

variable {mbox : PortRef} {s s' : MboxSys} {ev : MboxEvent} {t : TaskRef} {f : Fetch} {A : Signals}

theorem MboxSys.timed_timer (hf : (s.mpc t).fetching = some f) : (s.timed.tpc t).timer = some f.timer :=
  (MboxPc.timed_timer _).trans (congrArg (Option.map Fetch.timer) hf)

/-- What the machine below does in a step of a task that is in no fetch. -/
theorem MboxEffect.outside (heff : MboxEffect mbox s ev s') (ho : (s.mpc s.running).fetching = none) :
    s'.sys = s.sys ∨ ∃ e, s.sys.Step e s'.sys ∧ (ev = .sys e ∨
      ((∀ tm, ¬ e.Uses tm) ∧ ¬ e.WritesPort mbox)) := by
  have hnone {e : SysEvent} (hw : ∀ value, e ≠ .call (.write (.port mbox value))) (hi : e ≠ .call (.msgportInit mbox)) :
      ¬ e.WritesPort mbox := by
    rintro (⟨value, he⟩ | he)
    · exact hw value he
    · exact hi he
  have hnot {p : MboxPc} {P : Prop} (hp : s.mpc s.running = p) (hf : p.fetching ≠ none) : P := by
    rw [hp] at ho
    exact absurd ho hf
  cases heff with
  | sys hp hst => exact .inr ⟨_, hst, .inl rfl⟩
  | free hp hst => exact .inr ⟨_, hst, .inr ⟨fun _ => SysEvent.not_uses_core, hnone nofun nofun⟩⟩
  | sends hu hp hst => exact .inr ⟨_, hst, .inr ⟨fun _ => SysEvent.not_uses_msgportSend, hnone nofun nofun⟩⟩
  | tryGets hu hp hst => exact .inr ⟨_, hst, .inr ⟨fun _ => SysEvent.not_uses_msgportGet, hnone nofun nofun⟩⟩
  | setsTask hu hp hst => exact hnot hp nofun
  | allocates hu hp hz hc hst => exact hnot hp nofun
  | stores hu hp hz hst => exact hnot hp nofun
  | setsAction hu hp hst => exact hnot hp nofun
  | allocatesTimer hu hp hst hz => exact hnot hp nofun
  | setsTimer hu hp hst => exact hnot hp nofun
  | addsTimer hu hp hst => exact hnot hp nofun
  | waits hu hp hst => exact hnot hp nofun
  | gets hu hp hz hst => exact hnot hp nofun
  | abortsTimer hu hp hz hst => exact hnot hp nofun
  | freesTimer hu hp hst => exact hnot hp nofun
  | _ => exact .inl rfl

/-- What the machine below does in a statement of a fetch. -/
theorem MboxEffect.within (heff : MboxEffect mbox s .step s') (hf : (s.mpc s.running).fetching = some f) :
    s'.sys = s.sys ∨ ∃ e, s.sys.Step e s'.sys ∧ e.byTask = true ∧ ∀ tm, e.Uses tm → tm = f.timer := by
  have hcore {k : Call} (tm : TimerRef) (hu : (SysEvent.core (.call k)).Uses tm) : tm = f.timer :=
    absurd hu SysEvent.not_uses_core
  have hport {value : MsgPort} (tm : TimerRef) (hu : (SysEvent.call (.write (.port mbox value))).Uses tm) :
      tm = f.timer := absurd hu SysEvent.not_uses_port
  have hfetch {g : Fetch} {p : MboxPc} (hp : s.mpc s.running = p) (hg : p.fetching = some g) : g = f := by
    rw [hp] at hf
    exact Option.some.inj (hg.symm.trans hf)
  have hout {p : MboxPc} {P : Prop} (hp : s.mpc s.running = p) (hg : p.fetching = none) : P := by
    rw [hp, hg] at hf
    cases hf
  have huses {e : SysEvent} {g : Fetch} (hg : g = f) (he : e = .call (.timerAdd g.timer) ∨
      e = .call (.timerAllocate g.timer) ∨ e = .call (.timerFree g.timer) ∨
      e = .call (.service (.timerAbort g.timer)) ∨ ∃ op delay tick, e = .call (.write (.timer g.timer op delay tick)))
      (tm : TimerRef) (hu : e.Uses tm) : tm = f.timer := by
    subst hg
    rcases he with rfl | rfl | rfl | rfl | ⟨op, delay, tick, rfl⟩ <;>
      rcases hu with (hu | ⟨x, hu⟩) | hu | hu | hu | ⟨x, y, z, hu⟩ <;> cases hu <;> rfl
  cases heff with
  | sends hu hp hst => exact hout hp rfl
  | tryGets hu hp hst => exact hout hp rfl
  | setsTask hu hp hst => exact .inr ⟨_, hst, rfl, hport⟩
  | allocates hu hp hz hc hst => exact .inr ⟨_, hst, rfl, hcore⟩
  | stores hu hp hz hst => exact .inr ⟨_, hst, rfl, hport⟩
  | setsAction hu hp hst => exact .inr ⟨_, hst, rfl, hport⟩
  | allocatesTimer hu hp hst hz => exact .inr ⟨_, hst, rfl, huses (hfetch hp rfl) (.inr (.inl rfl))⟩
  | setsTimer hu hp hst => exact .inr ⟨_, hst, rfl, huses (hfetch hp rfl) (.inr (.inr (.inr (.inr ⟨_, _, _, rfl⟩))))⟩
  | addsTimer hu hp hst => exact .inr ⟨_, hst, rfl, huses (hfetch hp rfl) (.inl rfl)⟩
  | waits hu hp hst => exact .inr ⟨_, hst, rfl, hcore⟩
  | gets hu hp hz hst => exact .inr ⟨_, hst, rfl, fun tm hu => absurd hu SysEvent.not_uses_msgportGet⟩
  | abortsTimer hu hp hz hst => exact .inr ⟨_, hst, rfl, huses (hfetch hp rfl) (.inr (.inr (.inr (.inl rfl))))⟩
  | freesTimer hu hp hst => exact .inr ⟨_, hst, rfl, huses (hfetch hp rfl) (.inr (.inr (.inl rfl)))⟩
  | _ => exact .inl rfl

/-- A task that is in a fetch is in its statements, or waits for the machine below. -/
theorem MboxEffect.fetching_cases (heff : MboxEffect mbox s ev s') (hf : (s.mpc s.running).fetching ≠ none) :
    ev = .step ∨ ∃ e, ev = .sys e ∧ e.byTask = false := by
  have huser {P : Prop} (hp : s.mpc s.running = .user) : P := by
    rw [hp] at hf
    exact absurd rfl hf
  cases heff with
  | @sys e sys hp hst =>
    refine .inr ⟨e, rfl, ?_⟩
    by_contra hne
    exact huser (hp (Bool.eq_true_of_not_eq_false hne))
  | post hu hp => exact huser hp
  | fetch hu hp => exact huser hp
  | tryfetch hu hp => exact huser hp
  | free hp hst => exact huser hp
  | _ => exact .inl rfl

/-- A step that is not one of the fetch changes nothing that the fetch has in hand. -/
theorem MboxSys.Timing.frame (h : s.Timing) (hal : s.Alone t) (hc : s.PrivateTimers ev) (ho : s.OneFetch mbox ev)
    (hst : s.Step mbox ev s') (hf : (s.mpc t).fetching = some f) (ht : t = s.running → ev ≠ .step) :
    (s'.sys.cs.core.task t).sigAlloc = (s.sys.cs.core.task t).sigAlloc ∧
      s'.sys.svc.port mbox = s.sys.svc.port mbox ∧
      (s'.sys.svc.timer f.timer).signal = (s.sys.svc.timer f.timer).signal ∧
      ∀ sg, s.sys.cs.Asleep t sg →
        (t = s.running → ev = .sys (.core .resume) → s.sys.cs.returns .resume = none) → s'.sys.cs.Asleep t sg := by
  have hsound : Sound s.sys := h.inv.sound
  have hport {e : SysEvent} (hst : s.sys.Step e s'.sys) (hw : ¬ e.WritesPort mbox) :
      s'.sys.svc.port mbox = s.sys.svc.port mbox :=
    (hsound.effect hst).port_kept (fun value he => hw (.inl ⟨value, he⟩)) fun he => hw (.inr he)
  have htimer := MboxSys.timed_timer hf
  have hlife : s.sys.cs.life t ≠ .fresh := by
    refine h.inv.alive t ?_
    rw [htimer]
    exact Option.some_ne_none _
  have hstep : s'.sys = s.sys ∨ ∃ e, s.sys.Step e s'.sys ∧ ¬ e.Uses f.timer ∧
      s'.sys.svc.port mbox = s.sys.svc.port mbox ∧ (t = s.running → ev = .sys e ∧ e.byTask = false) := by
    by_cases hrun : t = s.running
    · subst hrun
      rcases hst.effect.fetching_cases (by rw [hf]; nofun) with hev | ⟨e, rfl, hb⟩
      · exact absurd hev (ht rfl)
      · have heff := hst.effect
        clear hst
        cases heff with
        | sys hp hst =>
          exact .inr ⟨e, hst, hc _ f hf, hport hst ho, fun _ => ⟨rfl, hb⟩⟩
    · rcases hst.effect.outside (hal s.running (Ne.symm hrun)) with hsame | ⟨e, hst', hev⟩
      · exact .inl hsame
      · refine .inr ⟨e, hst', ?_, ?_, fun hr => absurd hr hrun⟩
        · rcases hev with rfl | ⟨hu, -⟩
          · exact hc _ f hf
          · exact hu _
        · rcases hev with rfl | ⟨-, hw⟩
          · exact hport hst' ho
          · exact hport hst' hw
  rcases hstep with hsame | ⟨e, hst', hu, hport, hev⟩
  · rw [hsame]
    exact ⟨rfl, rfl, rfl, fun _ ha _ => ha⟩
  · have hquiet (hrun : t = s.running) : e.allocates = none ∧ s.sys.frees e = none := by
      obtain ⟨-, hb⟩ := hev hrun
      exact ⟨SysEvent.allocates_of_not_byTask hb, h.inv.frees_eq_none (hrun ▸ htimer) hb⟩
    refine ⟨hsound.sigAlloc_step hst' hlife hquiet, hport, (hsound.effect hst').signal_eq (SysEvent.not_allocates hu),
      fun sg ha hr => ?_⟩
    exact hsound.asleep_stays hst' ha fun hrun he => hr hrun (he ▸ (hev hrun).1)

/-- Only a task that is in a fetch fetches. -/
theorem MboxSys.Tidy.alone_step (h : s.Tidy mbox) (ho : s.OneFetch mbox ev) (hst : s.Step mbox ev s')
    (hf : (s'.mpc t).fetching ≠ none) : s'.Alone t := by
  intro u hut
  by_cases hev : ∃ timeout timer, ev = .fetch timeout timer
  · -- nobody was in a fetch before
    obtain ⟨timeout, timer, rfl⟩ := hev
    have hrun : t = s.running := by
      by_contra hne
      rw [hst.effect.mpc_of_ne hne] at hf
      exact hf (ho t)
    rw [hst.effect.mpc_of_ne (hrun ▸ hut)]
    exact ho u
  · have hno {u : TaskRef} (hu : (s.mpc u).fetching = none) : (s'.mpc u).fetching = none :=
      MboxSys.fetching_step hst hu fun timeout timer he => absurd ⟨timeout, timer, he⟩ hev
    exact hno (h.alone t (fun hn => hf (hno hn)) u hut)

/-- What is in hand depends on the timer of the fetch and the mailbox's port only. -/
theorem MboxPc.owns_congr {svc svc' : Services} {alloc : Signals} {p : MboxPc} (hf : p.fetching = some f)
    (hport : svc'.port mbox = svc.port mbox) (hsig : (svc'.timer f.timer).signal = (svc.timer f.timer).signal) :
    p.Owns mbox svc' A alloc ↔ p.Owns mbox svc A alloc := by
  have hhand : p.inHand svc' = p.inHand svc := by
    cases p with
    | fetchSetup g =>
      obtain rfl := Option.some.inj hf
      simp only [MboxPc.inHand, hsig]
    | fetchAdd g =>
      obtain rfl := Option.some.inj hf
      simp only [MboxPc.inHand, hsig]
    | fetchFree g endTime =>
      obtain rfl := Option.some.inj hf
      simp only [MboxPc.inHand, hsig]
    | _ => rfl
  unfold MboxPc.Owns
  rw [hhand, hport]

/-- A statement of the fetch keeps the account. -/
theorem MboxSys.Holds.own (ha : s.Holds mbox s.running A) (h : s.Timing) (heff : MboxEffect mbox s .step s')
    (hf : (s.mpc s.running).fetching = some f) : s'.Holds mbox s.running A := by
  have hsound : Sound s.sys := h.inv.sound
  have hgoto {sys : Sys} {p q : MboxPc} (hs : s'.sys = sys) (hpc : s'.mpc = Function.update s.mpc s.running q)
      (hp : s.mpc s.running = p)
      (hq : p.Owns mbox s.sys.svc A (s.sys.cs.core.task s.running).sigAlloc →
        q.Owns mbox sys.svc A (sys.cs.core.task s.running).sigAlloc) : s'.Holds mbox s.running A := by
    unfold MboxSys.Holds at ha ⊢
    rw [hpc, Function.update_self, hs]
    exact hq (hp ▸ ha)
  have hout {p : MboxPc} {P : Prop} (hp : s.mpc s.running = p) (hg : p.fetching = none) : P := by
    rw [hp, hg] at hf
    cases hf
  have halloc {e : SysEvent} {sys : Sys} (hst : s.sys.Step e sys) (hal : e.allocates = none)
      (hf : s.sys.frees e = none) : (sys.cs.core.task s.running).sigAlloc = (s.sys.cs.core.task s.running).sigAlloc :=
    hsound.sigAlloc_step hst hsound.running_alive fun _ => ⟨hal, hf⟩
  have hport {e : SysEvent} {sys : Sys} (hst : s.sys.Step e sys) (hw : ∀ value, e ≠ .call (.write (.port mbox value)))
      (hi : e ≠ .call (.msgportInit mbox)) : sys.svc.port mbox = s.sys.svc.port mbox :=
    (hsound.effect hst).port_kept hw hi
  have hsignal {e : SysEvent} {sys : Sys} {tm : TimerRef} (hst : s.sys.Step e sys)
      (hne : ∀ n, e.allocates ≠ some (.timer tm, n)) : (sys.svc.timer tm).signal = (s.sys.svc.timer tm).signal :=
    (hsound.effect hst).signal_eq hne
  -- the fields of the port but the signal
  have hwrite {sys : Sys} {p q : MboxPc} {value : MsgPort} (hs : s'.sys = sys)
      (hpc : s'.mpc = Function.update s.mpc s.running q) (hp : s.mpc s.running = p)
      (hst : s.sys.Step (.call (.write (.port mbox value))) sys)
      (hq : q.inHand s.sys.svc = p.inHand s.sys.svc ∧ q.bit value = p.bit (s.port mbox)) :
      s'.Holds mbox s.running A := by
    refine hgoto hs hpc hp fun hg => ?_
    rw [halloc hst rfl rfl, hst.write_eq]
    unfold MboxPc.Owns at hg ⊢
    rw [show (s.sys.execWrite (.port mbox value)).svc.port mbox = value from Function.update_self ..,
      show q.inHand (s.sys.execWrite (.port mbox value)).svc = q.inHand s.sys.svc from by cases q <;> rfl, hq.1, hq.2]
    exact hg
  cases heff with
  | sends hu hp hst => exact hout hp rfl
  | tryGets hu hp hst => exact hout hp rfl
  | tryReads hu hp => exact hout hp rfl
  | tryEmpty hu hp => exact hout hp rfl
  | setsTask hu hp hst => exact hwrite rfl rfl hp hst ⟨rfl, rfl⟩
  | @allocates g i c sys hu hp hz hc hst =>
    refine hgoto rfl rfl hp fun ⟨B, hB, hg⟩ => ⟨A ||| 1#16 <<< i, .inr rfl, ?_⟩
    have hBA : B = A := by
      rcases hB with rfl | rfl
      · rfl
      · rw [show (MboxPc.fetchTest g).bit (s.sys.svc.port mbox) = 0 from hz]
        exact BitVec.or_zero
    subst hBA
    obtain ⟨b, rfl, -, heq⟩ := hsound.grown_allocate hc hst hg
    exact heq
  | keepsSignal hu hp hz => exact hgoto rfl rfl hp id
  | stores hu hp hz hst => exact hwrite rfl rfl hp hst ⟨rfl, rfl⟩
  | setsAction hu hp hst => exact hwrite rfl rfl hp hst ⟨rfl, rfl⟩
  | skipsTimer hu hp hz => exact hgoto rfl rfl hp fun ⟨B, hB, hg⟩ => ⟨B, hB, hg.zero⟩
  | @allocatesTimer g sys hu hp hst hz =>
    refine hgoto rfl rfl hp fun ⟨B, hB, hg⟩ => ⟨B, ?_, ?_⟩
    · rw [hport hst nofun nofun]
      exact hB
    · obtain ⟨i, hi, -, hsig, -, -, hcs, hfree⟩ := hsound.timerAllocate_step hst
      dsimp only [MboxPc.inHand]
      rw [hsig, hcs]
      change Grown B _ ((s.sys.cs.core.allocated _).task s.sys.cs.core.running).sigAlloc
      rw [Core.allocated_self]
      exact hg.add hi hfree
  | @setsTimer g sys hu hp hst =>
    refine hgoto rfl rfl hp fun hg => ?_
    rw [halloc hst rfl rfl]
    exact (MboxPc.owns_congr (f := g) rfl (hport hst nofun nofun) (hsignal hst nofun)).mpr hg
  | @addsTimer g sys hu hp hst =>
    refine hgoto rfl rfl hp fun ⟨B, hB, hg⟩ => ⟨B, ?_, ?_⟩
    · rw [hport hst nofun nofun]
      exact hB
    · rw [halloc hst rfl rfl]
      exact hg
  | @waits g timerSignal sys hu hp hst =>
    refine hgoto rfl rfl hp fun hg => ?_
    rw [halloc hst rfl rfl]
    unfold MboxSys.waited
    have hg' := (MboxPc.owns_congr (f := g) (p := .fetchWait g timerSignal) rfl (hport hst nofun nofun)
      (hsignal hst nofun)).mpr hg
    split <;> exact hg'
  | @gets g timerSignal gotSignals sys hu hp hz hst =>
    refine hgoto rfl rfl hp fun hg => ?_
    rw [halloc hst rfl rfl]
    exact (MboxPc.owns_congr (f := g) (p := .fetchRead g timerSignal (s.messages mbox).head?) rfl
      (hport hst nofun nofun) (hsignal hst nofun)).mpr hg
  | timesOut hu hp hz htm => exact hgoto rfl rfl hp id
  | reads hu hp => exact hgoto rfl rfl hp id
  | @abortsTimer g timerSignal endTime sys hu hp hz hst =>
    have hlinked := h.linked s.running
    have hat := h.inv.timers s.running
    rw [hp] at hlinked
    rw [show s.timed.tpc s.running = g.timed (.waited g.timer timerSignal) from congrArg MboxPc.timed hp,
      Fetch.timed_of_timeout (mt hlinked.mpr hz)] at hat
    refine hgoto rfl rfl hp fun ⟨B, hB, hg⟩ => ⟨B, ?_, ?_⟩
    · rw [hport hst nofun nofun]
      exact hB
    · rw [halloc hst rfl rfl]
      dsimp only [MboxPc.inHand]
      rw [hsignal hst nofun, show (s.sys.svc.timer g.timer).signal = timerSignal from hat.2.signal]
      exact hg
  | @returns g timerSignal endTime hu hp hz =>
    subst hz
    exact hgoto rfl rfl hp fun ⟨B, hB, hg⟩ => ⟨B, hB, hg.of_zero⟩
  | @freesTimer g endTime sys hu hp hst =>
    refine hgoto rfl rfl hp fun ⟨B, hB, hg⟩ => ⟨B, ?_, ?_⟩
    · rw [hport hst nofun nofun]
      exact hB
    · exact hst.grown_free (show s.sys.frees _ = some (.timer g.timer, _) from rfl) hg

/-- **A step keeps the account** of the signals of a fetch. -/
theorem MboxSys.Holds.step (ha : s.Holds mbox t A) (h : s.Timing) (hal : s.Alone t) (hc : s.PrivateTimers ev)
    (ho : s.OneFetch mbox ev) (hst : s.Step mbox ev s') (hf : (s.mpc t).fetching = some f) : s'.Holds mbox t A := by
  by_cases hne : t = s.running → ev ≠ .step
  · obtain ⟨halloc, hport, hsig, -⟩ := h.frame hal hc ho hst hf hne
    have hcongr {p : MboxPc} (hp : p.fetching = some f) (hpc : s'.mpc t = p)
        (hown : p.Owns mbox s.sys.svc A (s.sys.cs.core.task t).sigAlloc) : s'.Holds mbox t A := by
      unfold MboxSys.Holds
      rw [halloc, hpc]
      exact (MboxPc.owns_congr hp hport hsig).mpr hown
    unfold MboxSys.Holds at ha
    by_cases ht : t = s.running
    · subst ht
      rcases hst.effect.fetching_cases (by rw [hf]; nofun) with hev | ⟨e, rfl, -⟩
      · exact absurd hev (hne rfl)
      · have heff := hst.effect
        clear hst
        cases heff with
        | sys hp hst =>
          rcases s.afterSys_cases e with hsame | ⟨g, timerSignal, c, got, -, hp, -, hp'⟩
          · exact hcongr hf ((Function.update_self ..).trans hsame) ha
          · rw [hp] at ha hf
            exact hcongr (p := .fetchGot g timerSignal got) hf ((Function.update_self ..).trans hp') ha
    · exact hcongr hf (hst.effect.mpc_of_ne ht) ha
  · obtain ⟨rfl, hev⟩ := Classical.not_imp.mp hne
    obtain rfl := not_not.mp hev
    exact ha.own h hst.effect hf

/-- A task that stays in `signal_wait` has not been given anything. -/
theorem MboxSys.returns_of_afterSys {timerSignal : Signals} (hp : s.mpc s.running = .fetchWaiting f timerSignal)
    (hsame : s.afterSys (.core .resume) = s.mpc s.running) : s.sys.cs.returns .resume = none := by
  cases hr : s.sys.cs.returns .resume with
  | none => rfl
  | some got =>
    unfold MboxSys.afterSys at hsame
    simp only [hp, MboxSys.waited, hr] at hsame
    cases hsame

/-- A task listens to the signals of its fetch. -/
theorem MboxSys.Tidy.listens_step (h : s.Tidy mbox) (hc : s.PrivateTimers ev) (ho : s.OneFetch mbox ev)
    (hst : s.Step mbox ev s') (t : TaskRef) : (s'.mpc t).Listens mbox s'.sys t := by
  have hl := h.listens t
  have hsound : Sound s.sys := h.timing.inv.sound
  have hframe {f : Fetch} (hf : (s.mpc t).fetching = some f) :=
    h.timing.frame (h.alone t (by rw [hf]; nofun)) hc ho hst hf
  -- the task stays where it is
  have hkeep {p : MboxPc} (hp : s.mpc t = p) (hne : t = s.running → ev ≠ .step)
      (hr : ∀ f timerSignal, p = .fetchWaiting f timerSignal → t = s.running → ev = .sys (.core .resume) →
        s.sys.cs.returns .resume = none) : p.Listens mbox s'.sys t := by
    rw [hp] at hl
    cases p with
    | fetchWaiting f timerSignal =>
      obtain ⟨-, hport, -, hasl⟩ := hframe (congrArg MboxPc.fetching hp) hne
      dsimp only [MboxPc.Listens]
      rw [hport]
      exact hasl _ hl (hr f timerSignal rfl)
    | fetchGot f timerSignal gotSignals =>
      obtain ⟨-, hport, -⟩ := hframe (congrArg MboxPc.fetching hp) hne
      dsimp only [MboxPc.Listens]
      rwa [hport]
    | _ => trivial
  by_cases ht : t = s.running
  · subst ht
    have hto {p : MboxPc} (hs : s'.mpc = Function.update s.mpc s.running p) (hp : p.Listens mbox s'.sys s.running) :
        (s'.mpc s.running).Listens mbox s'.sys s.running := by
      rwa [hs, Function.update_self]
    have heff := hst.effect
    clear hst
    cases heff with
    | @sys e sys hp hst =>
      refine hto rfl ?_
      rcases s.afterSys_cases e with hsame | ⟨f, timerSignal, c, got, rfl, hp', hr, hgot⟩
      · rw [hsame]
        refine hkeep rfl (fun _ => nofun) fun f timerSignal hf _ he => ?_
        cases he
        exact MboxSys.returns_of_afterSys hf hsame
      · have hb : (SysEvent.core c).byTask = false := by
          by_contra hne
          cases hp'.symm.trans (hp (Bool.eq_true_of_not_eq_false hne))
        obtain rfl := CoreSys.returns_of_not_byTask hr hb
        obtain ⟨-, hport, -⟩ := hframe (congrArg MboxPc.fetching hp') (fun _ => nofun)
        rw [hp'] at hl
        obtain ⟨hne, hand⟩ := hsound.returns_asleep hl hr
        rw [hgot]
        dsimp only [MboxPc.Listens]
        rw [show sys.svc.port mbox = _ from hport]
        exact ⟨hne, _, hand⟩
    | @waits f timerSignal sys hu hp hst =>
      refine hto rfl ?_
      obtain ⟨-, hsvc, hcases⟩ := hsound.signalWait_step hst
      unfold MboxSys.waited
      cases hr : s.sys.cs.returns (.call (.signalWait (timerSignal ||| (s.port mbox).signal))) with
      | none =>
        obtain ⟨-, hasl, -⟩ | ⟨hne, -⟩ := hcases
        · dsimp only [MboxPc.Listens]
          rw [hsvc]
          exact hasl
        · exact absurd hr hne
      | some got =>
        obtain ⟨hne, hand⟩ := hsound.returns_called hr
        dsimp only [MboxPc.Listens]
        rw [hsvc]
        exact ⟨hne, _, hand⟩
    | _ => exact hto rfl trivial
  · rw [hst.effect.mpc_of_ne ht]
    exact hkeep rfl (fun hr => absurd hr ht) fun _ _ _ hr => absurd hr ht

theorem MboxSys.Tidy.step (h : s.Tidy mbox)
    (hst : Restrict (fun s ev => s.PrivateTimers ev ∧ s.OneFetch mbox ev) (MboxSys.Step mbox) s ev s') :
    s'.Tidy mbox where
  timing := h.timing.step hst.1.1 hst.2
  alone _ hf := h.alone_step hst.1.2 hst.2 hf
  listens := h.listens_step hst.1.1 hst.1.2 hst.2

theorem MboxSys.Tidy.start {cfg : Config} {c : Core} {tr₀ : List (Move Sys SysEvent)} {s₀ : Sys}
    {ptr : MsgRef → VoidPtr} {allocated : MsgRef → Bool} (h : martosPre cfg = .ok c)
    (hr₀ : Run Sys.Step (Sys.start c) tr₀ s₀) : (MboxSys.start mbox s₀ ptr allocated).Tidy mbox where
  timing := .start h hr₀
  alone _ _ _ _ := rfl
  listens _ := trivial

theorem MboxSys.tidy_run {cfg : Config} {c : Core} {tr₀ : List (Move Sys SysEvent)} {s₀ : Sys}
    {ptr : MsgRef → VoidPtr} {allocated : MsgRef → Bool} {tr : List (Move MboxSys MboxEvent)}
    (h : martosPre cfg = .ok c) (hr₀ : Run Sys.Step (Sys.start c) tr₀ s₀)
    (hr : Run (Restrict (fun s ev => s.PrivateTimers ev ∧ s.OneFetch mbox ev) (MboxSys.Step mbox))
      (MboxSys.start mbox s₀ ptr allocated) tr s) : s.Tidy mbox :=
  hr.invariant (.start h hr₀) fun _ _ _ ht hst => ht.step hst

/-- The endless loop is not entered. -/
theorem MboxSys.Tidy.not_stuck (h : s.Tidy mbox) (t : TaskRef) : ¬ s.Stuck mbox t := by
  rintro ⟨f, timerSignal, gotSignals, hp, hz, hz'⟩
  have hl := h.listens t
  rw [hp] at hl
  obtain ⟨hne, r, hgot⟩ := hl
  rcases got_meets hne hgot with hm | hm
  · exact hm hz
  · exact hm hz'

/-- What a task in a fetch does itself touches no timer but its own. -/
theorem MboxSys.Timing.onlyTimer_step (h : s.Timing) (hst : s.Step mbox ev s')
    (hf : (s.mpc s.running).fetching = some f) (ho : ev.Own) : s.sys.OnlyTimer f.timer s'.sys := by
  have htimer := MboxSys.timed_timer hf
  have hsound : Sound s.sys := h.inv.sound
  rcases hst.effect.fetching_cases (by rw [hf]; nofun) with rfl | ⟨e, rfl, hb⟩
  · rcases hst.effect.within hf with hsame | ⟨e, hst', hb, hu⟩
    · rw [hsame]
      exact .refl
    · refine hsound.onlyTimer (hsound.effect hst') hu (fun v hv => h.inv.spc_timer htimer hv) ?_
      rintro rfl
      cases hb
  · have hquiet := SysEvent.Own.quiet ho hb
    have heff := hst.effect
    clear hst
    cases heff with
    | sys hp hst =>
      exact hsound.onlyTimer (hsound.effect hst) (fun v hv => absurd hv (hquiet.1 v))
        (fun v hv => h.inv.spc_timer htimer hv) hquiet.2

/-- A task stays in the same fetch as long as it is in one. -/
theorem MboxSys.fetch_step (hst : s.Step mbox ev s') (hf : (s.mpc t).fetching = some f)
    (hin : (s'.mpc t).fetching ≠ none) : (s'.mpc t).fetching = some f := by
  by_cases ht : t = s.running
  · subst ht
    have hto {p q : MboxPc} (hs : s'.mpc = Function.update s.mpc s.running q) (hp : s.mpc s.running = p)
        (hq : q.fetching = p.fetching ∨ q.fetching = none) : (s'.mpc s.running).fetching = some f := by
      rw [hs, Function.update_self] at hin ⊢
      rw [hp] at hf
      rcases hq with hq | hq
      · rw [hq, hf]
      · exact absurd hq hin
    have heff := hst.effect
    clear hst
    cases heff with
    | @sys e sys hp hst =>
      refine hto rfl rfl (.inl ?_)
      rcases s.afterSys_cases e with hsame | ⟨g, timerSignal, c, got, -, hp, -, hp'⟩
      · rw [hsame]
      · rw [hp', hp]
        rfl
    | post hu hp => exact hto rfl hp (.inr rfl)
    | fetch hu hp =>
      rw [hp] at hf
      cases hf
    | tryfetch hu hp => exact hto rfl hp (.inr rfl)
    | free hp hst => exact hto rfl hp (.inr rfl)
    | sends hu hp hst => exact hto rfl hp (.inr rfl)
    | setsTask hu hp hst => exact hto rfl hp (.inl rfl)
    | allocates hu hp hz hc hst => exact hto rfl hp (.inl rfl)
    | keepsSignal hu hp hz => exact hto rfl hp (.inl rfl)
    | stores hu hp hz hst => exact hto rfl hp (.inl rfl)
    | setsAction hu hp hst => exact hto rfl hp (.inl rfl)
    | skipsTimer hu hp hz => exact hto rfl hp (.inl rfl)
    | allocatesTimer hu hp hst hz => exact hto rfl hp (.inl rfl)
    | setsTimer hu hp hst => exact hto rfl hp (.inl rfl)
    | addsTimer hu hp hst => exact hto rfl hp (.inl rfl)
    | waits hu hp hst =>
      refine hto rfl hp (.inl ?_)
      unfold MboxSys.waited
      split <;> rfl
    | gets hu hp hz hst => exact hto rfl hp (.inl rfl)
    | timesOut hu hp hz htm => exact hto rfl hp (.inl rfl)
    | reads hu hp => exact hto rfl hp (.inl rfl)
    | abortsTimer hu hp hz hst => exact hto rfl hp (.inl rfl)
    | returns hu hp hz => exact hto rfl hp (.inr rfl)
    | freesTimer hu hp hst => exact hto rfl hp (.inr rfl)
    | tryGets hu hp hst => exact hto rfl hp (.inr rfl)
    | tryReads hu hp => exact hto rfl hp (.inr rfl)
    | tryEmpty hu hp => exact hto rfl hp (.inr rfl)
  · rwa [hst.effect.mpc_of_ne ht]

variable {s₁ s₂ : MboxSys} {tr : List (Move MboxSys MboxEvent)} {timeout : Ticks} {timer : TimerRef} {value : Ticks}

/-- How a fetch returns: without a timer, or by freeing it. -/
theorem MboxSys.returns_step (hst : s.Step mbox .step s') (hr : s.returns .step = some value)
    (hf : (s.mpc s.running).fetching = some f) :
    (s'.mpc s.running = .user ∧ s'.sys = s.sys ∧ s.mpc s.running = .fetchAbort f 0 value) ∨
    (s'.mpc s.running = .user ∧ s.sys.Step (.call (.timerFree f.timer)) s'.sys ∧
      s.mpc s.running = .fetchFree f value) := by
  unfold MboxSys.Step MboxSys.next at hst
  dsimp only at hst
  split at hst
  · unfold MboxSys.returns at hr
    dsimp only at hr
    split at hr
    · next g timerSignal endTime hp =>
      by_cases hz : timerSignal = 0
      · subst hz
        obtain rfl := Option.some.inj hr
        rw [hp] at hf
        obtain rfl := Option.some.inj hf
        simp only [MboxSys.execStep, hp] at hst
        obtain rfl := Option.some.inj hst
        exact .inl ⟨Function.update_self .., rfl, hp⟩
      · rw [if_pos hz] at hr
        cases hr
    · next g endTime hp =>
      obtain rfl := Option.some.inj hr
      rw [hp] at hf
      obtain rfl := Option.some.inj hf
      simp only [MboxSys.execStep, hp] at hst
      obtain ⟨sys, hstep, rfl⟩ := MboxSys.act_eq_some hst
      exact .inr ⟨Function.update_self .., hstep, hp⟩
    · next m hp =>
      rw [hp] at hf
      cases hf
    · cases hr
  · cases hst

/-- What a fetch knows all the time. -/
theorem MboxSys.FetchCall.inside (hc : MboxSys.FetchCall mbox t timeout timer s₁ s₂ tr s s' value) (h : s₁.Tidy mbox) :
    let P (s : MboxSys) := (s.Tidy mbox ∧ (s.mpc t).fetching = some ⟨timeout, timer, s₁.sys.svc.timerNow⟩) ∧
      s.Holds mbox t (s₁.sys.cs.core.task t).sigAlloc
    P s ∧ ∀ m ∈ tr, P m.pre := by
  intro P
  obtain ⟨hrun, hcaller, hback, hvalue⟩ := hc
  have hbegin : P s₂ := by
    have ht := h.step hrun.begins
    obtain ⟨hbeg, hst⟩ := hrun.begins
    have heff := hst.effect
    subst hcaller
    clear hst
    cases heff with
    | fetch hu hp =>
      have hpc : (s₁.goto (.fetchTask ⟨timeout, timer, s₁.sys.svc.timerNow⟩)).mpc s₁.running = _ :=
        Function.update_self ..
      refine ⟨⟨ht, congrArg MboxPc.fetching hpc⟩, ?_⟩
      unfold MboxSys.Holds
      rw [hpc]
      exact ⟨_, .inl rfl, rfl⟩
  have hstep (s : MboxSys) (ev : MboxEvent) (s' : MboxSys) (hin : (s'.mpc t).fetching ≠ none) (hp : P s)
      (hst : Restrict (fun s ev => s.PrivateTimers ev ∧ s.OneFetch mbox ev) (MboxSys.Step mbox) s ev s') : P s' := by
    obtain ⟨⟨ht, hf⟩, ha⟩ := hp
    have hal := ht.alone t (by rw [hf]; nofun)
    exact ⟨⟨ht.step hst, MboxSys.fetch_step hst.2 hf hin⟩, ha.step ht.timing hal hst.1.1 hst.1.2 hst.2 hf⟩
  obtain ⟨hs, hall⟩ := hrun.during.inside (P := P) (fun _ => hbegin) (fun s ev s' _ => hstep s ev s') hrun.inside
  exact ⟨hs, fun m hm => (hall m hm).2.1⟩

/-- **A fetch cleans up.** -/
theorem MboxSys.FetchCall.cleans (hc : MboxSys.FetchCall mbox t timeout timer s₁ s₂ tr s s' value) (h : s₁.Tidy mbox) :
    ((s'.sys.cs.core.task t).sigAlloc = (s₁.sys.cs.core.task t).sigAlloc ∨
      (s'.sys.cs.core.task t).sigAlloc = (s₁.sys.cs.core.task t).sigAlloc ||| (s'.port mbox).signal) ∧
    timer ∉ s'.sys.svc.timers () ∧
    ∀ m ∈ ⟨s₁, .fetch timeout timer, s₂⟩ :: (tr ++ [⟨s, .step, s'⟩]), m.pre.running = t → m.event.Own →
      m.pre.sys.OnlyTimer timer m.post.sys := by
  obtain ⟨⟨⟨ht, hf⟩, ha⟩, hall⟩ := hc.inside h
  obtain ⟨hrun, hcaller, rfl, hvalue⟩ := hc
  obtain ⟨-, hst⟩ := hrun.ends
  have hback := MboxSys.returns_step hst hvalue hf
  refine ⟨?_, ?_, fun m hm hrunning ho => ?_⟩
  · have hown := ha.own ht.timing hst.effect hf
    have huser : s'.mpc s.running = .user := hback.elim And.left And.left
    unfold MboxSys.Holds at hown
    rw [huser] at hown
    obtain ⟨B, hB, hg⟩ := hown
    rw [show (s'.sys.cs.core.task s.running).sigAlloc = B from hg]
    exact hB
  · have hat := ht.timing.inv.timers s.running
    have hlinked := ht.timing.linked s.running
    rcases hback with ⟨-, hsame, hp⟩ | ⟨-, hst', hp⟩
    · rw [hp] at hlinked
      rw [show s.timed.tpc s.running = _ from congrArg MboxPc.timed hp,
        show (MboxPc.fetchAbort ⟨timeout, timer, s₁.sys.svc.timerNow⟩ 0 value).timed = .untimed timer from
          if_pos (hlinked.mp rfl)] at hat
      rw [hsame]
      exact hat.2.out
    · rw [hp] at hlinked
      rw [show s.timed.tpc s.running = _ from congrArg MboxPc.timed hp,
        show (MboxPc.fetchFree ⟨timeout, timer, s₁.sys.svc.timerNow⟩ value).timed = .aborted timer from
          Fetch.timed_of_timeout hlinked _] at hat
      exact (hat.2.free hst').out
  · rcases List.mem_cons.mp hm with rfl | hm
    · obtain ⟨-, hst₁⟩ := hrun.begins
      have heff := hst₁.effect
      clear hst₁
      cases heff with
      | fetch hu hp => exact .refl
    · rcases List.mem_append.mp hm with hm | hm
      · obtain ⟨⟨ht', hf'⟩, -⟩ := hall m hm
        have hstep := (hrun.during.step_of_mem hm).2.2
        rw [← hrunning] at hf'
        exact ht'.timing.onlyTimer_step hstep hf' ho
      · obtain rfl := List.mem_singleton.mp hm
        exact ht.timing.onlyTimer_step hst hf trivial

end

/-! ### Calls that can be replayed -/

section

variable {mbox : PortRef} {s s' : MboxSys} {ev : MboxEvent} {t : TaskRef}

theorem SysEvent.isPlain.not_writesPort {e : SysEvent} (h : e.isPlain = true) : ¬ e.WritesPort mbox := by
  rintro (⟨value, rfl⟩ | rfl) <;> cases h

/-- A step with one fetching task is one of a single fetch. -/
theorem MboxSys.lone_step_oneFetch (h : s.Timing ∧ s.OthersOut t)
    (hst : Restrict (fun s ev => s.Lone t ev ∧ True) (MboxSys.Step mbox) s ev s') :
    Restrict (fun s ev => s.PrivateTimers ev ∧ s.OneFetch mbox ev) (MboxSys.Step mbox) s ev s' ∧
      s'.Timing ∧ s'.OthersOut t := by
  obtain ⟨hstep, h'⟩ := MboxSys.lone_step h hst
  refine ⟨⟨⟨hstep.1.1, ?_⟩, hst.2⟩, h'⟩
  cases ev with
  | sys e => exact SysEvent.isPlain.not_writesPort hst.1.1
  | fetch timeout timer =>
    intro u
    by_cases hut : u = t
    · obtain ⟨hrun, -⟩ := hst.1.1
      have heff := hst.2.effect
      cases heff with
      | fetch hu hp =>
        rw [hut, ← hrun, hp]
        rfl
    · exact (h.2 u hut).1
  | _ => trivial

/-- Events that can be replayed, with task `t` as the only one to fetch, are a fetch. -/
theorem MboxSys.exists_call (mbox : PortRef) (t : TaskRef) (timeout : Ticks) (timer : TimerRef) (value : Ticks)
    (es₁ es₂ : List MboxEvent) {p : MboxSys → MboxSys → Bool}
    (h : (martosPre CoreSys.exampleConfig).toOption.any (fun c =>
      (replay (nextIf (fun s ev => s.Lone t ev ∧ True) (MboxSys.next mbox))
        (MboxSys.start mbox (Sys.start c) (fun _ => 0) fun _ => false) es₁).any fun s₁ =>
        (nextIf (fun s ev => s.Lone t ev ∧ True) (MboxSys.next mbox) s₁ (.fetch timeout timer)).any fun s₂ =>
          (replay (nextIf (fun s _ => (s.mpc t).fetching ≠ none)
            (nextIf (fun s ev => s.Lone t ev ∧ True) (MboxSys.next mbox))) s₂ es₂).any fun s =>
              decide ((s.mpc t).fetching ≠ none) &&
              (nextIf (fun s ev => s.Lone t ev ∧ True) (MboxSys.next mbox) s .step).any fun s' =>
                decide (s₁.running = t ∧ s.running = t ∧ s.returns .step = some value) && p s₁ s') = true) :
    ∃ c tr₀ s₁ s₂ tr s s', martosPre CoreSys.exampleConfig = .ok c ∧
      Run (Restrict (fun s ev => s.PrivateTimers ev ∧ s.OneFetch mbox ev) (MboxSys.Step mbox))
        (MboxSys.start mbox (Sys.start c) (fun _ => 0) fun _ => false) tr₀ s₁ ∧
      MboxSys.FetchCall mbox t timeout timer s₁ s₂ tr s s' value ∧ p s₁ s' = true := by
  have hn (s : MboxSys) (ev : MboxEvent) (s' : MboxSys)
      (hs : nextIf (fun s ev => s.Lone t ev ∧ True) (MboxSys.next mbox) s ev = some s') :
      Restrict (fun s ev => s.Lone t ev ∧ True) (MboxSys.Step mbox) s ev s' :=
    restrict_of_nextIf (fun _ _ _ => id) s ev s' hs
  obtain ⟨c, hc, h⟩ := (Option.any_eq_true ..).mp h
  obtain ⟨s₁, hs₁, h⟩ := (Option.any_eq_true ..).mp h
  obtain ⟨tr₀, hr, -⟩ := Run.of_replay hn hs₁
  have hc := eq_ok_of_toOption hc
  obtain ⟨hr, hlone⟩ := hr.refine (P := fun s => s.Timing ∧ s.OthersOut t) ⟨.start hc .nil, fun _ _ => ⟨rfl, rfl⟩⟩
    fun _ _ _ => MboxSys.lone_step_oneFetch
  obtain ⟨s₂, tr, s, s', hact, hp, -⟩ := Activation.exists_of_replay hn h
  obtain ⟨hcond, hp⟩ := Bool.and_eq_true_iff.mp hp
  obtain ⟨hcaller, hback, hreturns⟩ := of_decide_eq_true hcond
  have hact := hact.refine (P := fun s => s.Timing ∧ s.OthersOut t) hlone fun _ _ _ => MboxSys.lone_step_oneFetch
  exact ⟨c, tr₀, s₁, s₂, tr, s, s', hc, hr, ⟨hact, hcaller, hback, hreturns⟩, hp⟩

end

end Martos
