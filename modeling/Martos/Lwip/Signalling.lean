import Martos.Lib.Doorbell
import Martos.Lwip.Consumer

/-!
# The mailbox and its signal

A mailbox is a queue with a doorbell: a post puts a message on the list and sends the signal,
a fetch waits for the signal and takes one message, and `sys_arch_mbox_tryfetch` takes one
without looking at the signal. Every step of the mailbox machine is a step of `Doorbell`
(`Consumer.rings_step`), and so the two conditions of `Doorbell` are those under which the
mailbox works:

* a fetch sleeps only on an empty list if, whenever a fetch turns the signal on, the list is
  empty or the signal is pending;
* a fetch that is signalled finds a message if `sys_arch_mbox_tryfetch` never takes the last
  message while the signal is pending.

The code checks neither. The posts before the first fetch send no signal, one signal stands for
all posts since the last one was taken, and `sys_arch_mbox_tryfetch` leaves the signal pending.
-/

namespace Martos

open Checked Transition

/-- Where a task in the mailbox functions stands to the bell. -/
def MboxPc.stage (signal : Signals) : MboxPc → Doorbell.Stage
  | .fetchTimer _ => .waiting
  | .fetchSetup _ => .waiting
  | .fetchAdd _ => .waiting
  | .fetchWait _ _ => .waiting
  | .fetchWaiting _ _ => .waiting
  | .fetchGot _ _ gotSignals => if gotSignals &&& signal ≠ 0 then .called else .away
  | _ => .away

instance (mbox : PortRef) (t : TaskRef) (s : MboxSys) : Decidable (s.Pending mbox t) :=
  inferInstanceAs (Decidable (_ ≠ _))

/-- The mailbox of task `t` as a queue with a doorbell. -/
def MboxSys.doorbell (mbox : PortRef) (t : TaskRef) (s : MboxSys) : Doorbell.State MsgRef where
  queue := s.messages mbox
  rings := decide (s.Pending mbox t)
  on := decide ((s.port mbox).action = .signal)
  stage := (s.mpc t).stage (s.port mbox).signal

/-- A step of the machine is a step of the queue and the bell. -/
def MboxSys.Rings (mbox : PortRef) (t : TaskRef) (s : MboxSys) (ev : MboxEvent) (s' : MboxSys) : Prop :=
  ∃ a, Doorbell.Step (s.doorbell mbox t) a (s'.doorbell mbox t) ∧
    (a = .wait → ev = .step ∧ s.running = t ∧ ∃ f, s.mpc t = .fetchAction f) ∧
    (a = .poll → ev = .step ∧ s.running = t ∧ s.mpc t = .tryGet)

section

variable {mbox : PortRef} {t : TaskRef} {s s' : MboxSys} {ev : MboxEvent} {e : SysEvent}

/-- Nothing that concerns the bell has happened. -/
theorem MboxSys.rings_of_same (hm : s'.messages mbox = s.messages mbox)
    (hr : s'.bit mbox t &&& (s'.sys.cs.core.task t).sigRecvd = s.bit mbox t &&& (s.sys.cs.core.task t).sigRecvd)
    (ha : (s'.port mbox).action = (s.port mbox).action)
    (hs : (s'.mpc t).stage (s'.port mbox).signal = (s.mpc t).stage (s.port mbox).signal) : s.Rings mbox t ev s' := by
  have hpend : decide (s'.Pending mbox t) = decide (s.Pending mbox t) :=
    decide_eq_decide.mpr (by rw [MboxSys.Pending, MboxSys.Pending, hr])
  have hon : decide ((s'.port mbox).action = .signal) = decide ((s.port mbox).action = .signal) :=
    decide_eq_decide.mpr (by rw [ha])
  have hsame : s'.doorbell mbox t = s.doorbell mbox t := by
    unfold MboxSys.doorbell
    rw [hm, hpend, hon, hs]
  refine ⟨.skip, ?_, nofun, nofun⟩
  rw [hsame]
  exact .skip

/-- A task goes on, and nothing happens below. -/
theorem MboxSys.rings_of_goes (hsys : s'.sys = s.sys) (hbit : s'.bit mbox t = s.bit mbox t)
    (hs : (s'.mpc t).stage (s.port mbox).signal = (s.mpc t).stage (s.port mbox).signal) : s.Rings mbox t ev s' := by
  have hport : s'.port mbox = s.port mbox := by rw [MboxSys.port, hsys, MboxSys.port]
  refine MboxSys.rings_of_same ?_ ?_ ?_ ?_
  · rw [MboxSys.messages, hsys, MboxSys.messages]
  · rw [hbit, hsys]
  · rw [hport]
  · rw [hport, hs]

/-- What is taken from a set leaves no part of it. -/
theorem and_and_not_and {b w r : Signals} (hb : b &&& w = b) : b &&& (r &&& ~~~(w &&& r)) = 0 := by
  refine BitVec.eq_of_getLsbD_eq fun i hi => ?_
  have hw : b.getLsbD i = true → w.getLsbD i = true := by
    intro hbi
    have hbit : (b &&& w).getLsbD i = b.getLsbD i := by rw [hb]
    rw [BitVec.getLsbD_and, hbi, Bool.true_and] at hbit
    exact hbit
  rw [BitVec.getLsbD_and, BitVec.getLsbD_and, BitVec.getLsbD_not, BitVec.getLsbD_and]
  cases hbi : b.getLsbD i with
  | false => simp
  | true =>
    rw [hw hbi]
    cases r.getLsbD i <;> simp

/-- `signal_wait` returns to the consumer: the bell has called it, or it gives up. -/
theorem MboxSys.rings_of_returns (hm : s'.messages mbox = s.messages mbox) (hport : s'.port mbox = s.port mbox)
    {f : Fetch} {timerSignal : Signals} (hw : (s.mpc t).stage (s.port mbox).signal = .waiting)
    (hst : ∀ f signal, s.mpc t ≠ .fetchStore f signal)
    (hat : s'.mpc t =
      .fetchGot f timerSignal ((timerSignal ||| (s.port mbox).signal) &&& (s.sys.cs.core.task t).sigRecvd))
    (hr : (s'.sys.cs.core.task t).sigRecvd = (s.sys.cs.core.task t).sigRecvd &&&
      ~~~((timerSignal ||| (s.port mbox).signal) &&& (s.sys.cs.core.task t).sigRecvd)) : s.Rings mbox t ev s' := by
  have hbit : s.bit mbox t = (s.port mbox).signal := MboxSys.bit_eq hst
  have hbit' : s'.bit mbox t = (s.port mbox).signal := by simp only [MboxSys.bit, hat, hport]
  have hsub : (s.port mbox).signal &&& (timerSignal ||| (s.port mbox).signal) = (s.port mbox).signal := by
    refine BitVec.eq_of_getLsbD_eq fun i _ => ?_
    rw [BitVec.getLsbD_and, BitVec.getLsbD_or]
    cases (s.port mbox).signal.getLsbD i <;> simp
  have hquiet : ¬ s'.Pending mbox t := by
    simp only [MboxSys.Pending, hbit', hr, ne_eq, not_not]
    exact and_and_not_and hsub
  have hgot : ((timerSignal ||| (s.port mbox).signal) &&& (s.sys.cs.core.task t).sigRecvd) &&& (s.port mbox).signal =
      s.bit mbox t &&& (s.sys.cs.core.task t).sigRecvd := by
    rw [hbit, BitVec.and_comm, ← BitVec.and_assoc, hsub]
  have hstage : (s'.mpc t).stage (s'.port mbox).signal = if s.Pending mbox t then .called else .away := by
    rw [hat, hport]
    simp only [MboxPc.stage, hgot]
    exact if_congr Iff.rfl rfl rfl
  by_cases hp : s.Pending mbox t
  · rw [if_pos hp] at hstage
    have hbell : s'.doorbell mbox t = { s.doorbell mbox t with rings := false, stage := .called } := by
      simp only [MboxSys.doorbell, hm, hport, decide_eq_false hquiet]
      rw [← hstage, hport]
    refine ⟨.wake, ?_, by simp, by simp⟩
    rw [hbell]
    exact .wake hw (decide_eq_true hp)
  · rw [if_neg hp] at hstage
    have hbell : s'.doorbell mbox t = { s.doorbell mbox t with stage := .away } := by
      simp only [MboxSys.doorbell, hm, hport, decide_eq_false hquiet, decide_eq_false hp]
      rw [← hstage, hport]
    refine ⟨.leave, ?_, by simp, by simp⟩
    rw [hbell]
    exact .leave hw (decide_eq_false hp)

/-- An event below. -/
theorem Consumer.rings_of_sys (h : Consumer mbox t s) (hl : s.Leaves mbox t e)
    (hp : e.byTask = true → s.mpc s.running = .user) (hst : s.sys.Step e s'.sys)
    (hs' : s'.mpc = (s.goto (s.afterSys e)).mpc) : s.Rings mbox t ev s' := by
  obtain ⟨hport, hm⟩ := (h.sound.effect hst).untouched hl.port
  replace hport : s'.port mbox = s.port mbox := hport
  rcases h.afterSys_cases hp with ⟨hmpc, hnone⟩ | ⟨hrun, rfl, f, timerSignal, rcvd, hw, hret, hmpc⟩
  · have hmpc := hs'.trans hmpc
    have hbit : s'.bit mbox t = s.bit mbox t := MboxSys.bit_congr (congrFun hmpc t) hport
    refine MboxSys.rings_of_same hm ?_ (by rw [hport]) (by rw [hmpc, hport])
    rw [hbit]
    by_cases hin : s.running = t ∧ e = .core .resume ∧ ∃ f timerSignal, s.mpc t = .fetchWaiting f timerSignal
    · -- the consumer goes on in `signal_wait`, which does not return
      obtain ⟨rfl, rfl, hw⟩ := hin
      obtain ⟨cs, hcs, hsys⟩ := hst.core
      rcases h.sound.nested.resume_cases hcs with ⟨sg, -, hret, -⟩ | ⟨-, hr⟩
      · cases (hnone rfl hw).symm.trans hret
      · rw [hsys]
        exact congrArg _ hr
    · exact h.sound.spares hst h.has h.alive (h.spares hl fun hrun he f timerSignal hw =>
        hin ⟨hrun, he, f, timerSignal, hw⟩)
  · subst hrun
    obtain ⟨cs, hcs, hsys⟩ := hst.core
    rcases h.sound.nested.resume_cases hcs with ⟨sg, ha, hret', -, hr⟩ | ⟨hnone, -⟩
    · have hsl := h.asleep sg ha
      rw [hw] at hsl
      obtain rfl : sg = timerSignal ||| (s.port mbox).signal := hsl
      obtain rfl := Option.some.inj (hret.symm.trans hret')
      have hat : s'.mpc s.running = .fetchGot f timerSignal ((timerSignal ||| (s.port mbox).signal) &&&
          (s.sys.cs.core.task s.running).sigRecvd) := by
        rw [hs', hmpc, Function.update_self]
        rfl
      refine MboxSys.rings_of_returns hm hport (by rw [hw]; rfl) (by simp [hw]) hat ?_
      rw [hsys]
      exact hr
    · cases hnone.symm.trans hret

/-- `sys_mbox_post` puts its message on the list. -/
theorem Consumer.rings_of_sends (h : Consumer mbox t s) {m : MsgRef} (hp : s.mpc s.running = .postSend m)
    (hst : s.sys.Step (.call (.service (.msgportSend mbox m))) s'.sys)
    (hmpc : s'.mpc = Function.update s.mpc s.running .user) : s.Rings mbox t ev s' := by
  obtain ⟨hnot, -, hsvc⟩ := h.sound.msgportSend_step hst
  have hport : s'.port mbox = s.port mbox := by simp only [MboxSys.port, hsvc]
  have hm : s'.messages mbox = s.messages mbox ++ [m] := by
    simp [MboxSys.messages, hsvc]
  have hstage (signal : Signals) : (s'.mpc t).stage signal = (s.mpc t).stage signal := by
    rw [hmpc]
    by_cases ht : t = s.running
    · rw [ht, Function.update_self, hp]
      rfl
    · rw [Function.update_of_ne ht]
  have hbit : s'.bit mbox t = s.bit mbox t := by
    by_cases ht : t = s.running
    · have hat : s'.mpc t = .user := by rw [hmpc, ht, Function.update_self]
      rw [← ht] at hp
      simp only [MboxSys.bit, hat, hp, hport]
    · exact MboxSys.bit_congr (by rw [hmpc, Function.update_of_ne ht]) hport
  have hrings : s'.Pending mbox t ↔ s.Pending mbox t ∨ (s.port mbox).action = .signal := by
    rw [MboxSys.Pending, MboxSys.Pending, hbit]
    rcases hnot with ⟨u, hu, ha, hd⟩ | ⟨hno, hcs⟩
    · have hown := h.rings ha
      obtain rfl : u = t := Option.some.inj (hu.symm.trans hown.1)
      -- the signal is stored, for the port signals
      have hb : s.bit mbox u = (s.port mbox).signal := by
        refine MboxSys.bit_eq fun f signal hq => ?_
        have hpt := h.port
        rw [hq] at hpt
        exact hown.2 hpt.2
      have hpend := h.sound.nested.delivered hd
      rw [hb, show (s.port mbox).signal &&& _ = (s.port mbox).signal from hpend]
      exact iff_of_true hown.2 (.inr ha)
    · have ha : (s.port mbox).action ≠ .signal := by
        rcases hno with hno | ha
        · intro ha
          cases hno.symm.trans (h.rings ha).1
        · exact ha
      rw [hcs]
      exact (or_iff_left ha).symm
  have hbell : s'.doorbell mbox t = { s.doorbell mbox t with
      queue := (s.doorbell mbox t).queue ++ [m]
      rings := (s.doorbell mbox t).rings || (s.doorbell mbox t).on } := by
    unfold MboxSys.doorbell
    dsimp only
    rw [hm, hport, hstage, decide_eq_decide.mpr hrings, Bool.decide_or]
  refine ⟨.push m, ?_, by simp, by simp⟩
  rw [hbell]
  exact .push m

/-- The consumer calls a function that sends nothing and leaves the mailbox alone. -/
theorem Consumer.rings_of_calls (h : Consumer mbox t s) {c : ServiceCall} (hst : s.sys.Step (.call c) s'.sys)
    (hsends : s.sys.sends (.call c) = [])
    (hfrees : ∀ holder sg, s.sys.frees (.call c) = some (holder, sg) → sg &&& s.bit mbox t = 0)
    (hasks : ∀ holder n, SysEvent.allocates (.call c) = some (holder, n) → n = -1)
    (hm : s'.messages mbox = s.messages mbox) (hbit : s'.bit mbox t = s.bit mbox t)
    (ha : (s'.port mbox).action = (s.port mbox).action)
    (hs : (s'.mpc t).stage (s'.port mbox).signal = (s.mpc t).stage (s.port mbox).signal) : s.Rings mbox t ev s' := by
  refine MboxSys.rings_of_same hm ?_ ha hs
  rw [hbit]
  exact h.calls_recvd hst hsends hfrees hasks

/-- A message is taken, the signal stays. -/
theorem Consumer.bell_of_gets (h : Consumer mbox t s) {p : MboxPc}
    (hst : s.sys.Step (.call (.service (.msgportGet mbox))) s'.sys) (hat : s'.mpc t = p)
    (hp : ∀ f signal, s.mpc t ≠ .fetchStore f signal) (hp' : ∀ f signal, p ≠ .fetchStore f signal)
    (hs : p.stage (s.port mbox).signal = .away) : s'.doorbell mbox t =
      { s.doorbell mbox t with queue := (s.doorbell mbox t).queue.tail, stage := .away } := by
  obtain ⟨hcs, -, hsvc⟩ := h.sound.msgportGet_step hst
  have hport : s'.port mbox = s.port mbox := by simp only [MboxSys.port, hsvc]
  have hm : s'.messages mbox = (s.messages mbox).tail := by simp [MboxSys.messages, hsvc]
  have hbit : s'.bit mbox t = s.bit mbox t := by
    rw [MboxSys.bit_eq hp, MboxSys.bit_eq (by rw [hat]; exact hp'), hport]
  have hpend : decide (s'.Pending mbox t) = decide (s.Pending mbox t) :=
    decide_eq_decide.mpr (by rw [MboxSys.Pending, MboxSys.Pending, hbit, hcs])
  unfold MboxSys.doorbell
  dsimp only
  rw [hm, hport, hpend, hat, hs]

/-- **Every step of the machine is a step of the queue and the bell.** -/
theorem Consumer.rings_step (h : Consumer mbox t s) (hc : s.Contract mbox t ev) (hstep : s.Step mbox ev s') :
    s.Rings mbox t ev s' := by
  -- a function that does not use the port leaves the mailbox
  have hkeeps {c : ServiceCall} {sys : Sys} (hst : s.sys.Step (.call c) sys) (hno : ¬ s.sys.Touches mbox (.call c)) :
      sys.svc.port mbox = s.port mbox ∧ sys.svc.messageList mbox = s.messages mbox :=
    (h.sound.effect hst).untouched hno
  have hbit {p : MboxPc} {sys : Sys} {s₁ : MboxSys} (hs₁ : s₁ = { s.goto p with sys := sys }) (hrun : s.running = t)
      (hp : ∀ f signal, s.mpc t ≠ .fetchStore f signal) (hp' : ∀ f signal, p ≠ .fetchStore f signal)
      (hport : (sys.svc.port mbox).signal = (s.port mbox).signal) : s₁.bit mbox t = s.bit mbox t := by
    have hat : s₁.mpc t = p := by rw [hs₁, ← hrun]; exact Function.update_self ..
    rw [MboxSys.bit_eq hp, MboxSys.bit_eq (by rw [hat]; exact hp'), hs₁]
    exact hport
  cases hstep.effect with
  | sys hp hst => exact h.rings_of_sys hc hp hst rfl
  | post hu hp =>
    by_cases ht : t = s.running
    · subst ht
      refine MboxSys.rings_of_goes rfl ?_ ?_
      · simp [MboxSys.bit, MboxSys.goto, hp, MboxSys.port]
      · simp [MboxSys.goto, hp, MboxPc.stage]
    · refine MboxSys.rings_of_goes rfl ?_ ?_
      · simp [MboxSys.bit, MboxSys.goto, ht, MboxSys.port]
      · simp [MboxSys.goto, ht]
  | fetch hu hp =>
    obtain rfl : s.running = t := hc
    refine MboxSys.rings_of_goes rfl ?_ ?_
    · simp [MboxSys.bit, MboxSys.goto, hp, MboxSys.port]
    · simp [MboxSys.goto, hp, MboxPc.stage]
  | tryfetch hu hp =>
    obtain rfl : s.running = t := hc
    refine MboxSys.rings_of_goes rfl ?_ ?_
    · simp [MboxSys.bit, MboxSys.goto, hp, MboxSys.port]
    · simp [MboxSys.goto, hp, MboxPc.stage]
  | free hp hst => exact hc.elim
  | sends hu hp hst => exact h.rings_of_sends hp hst rfl
  | setsTask hu hp hst =>
    obtain rfl := h.running_eq hp (by simp) (by simp)
    refine h.rings_of_calls hst rfl (fun _ _ hf => (by cases hf)) (fun _ _ ha => (by cases ha)) ?_ ?_ ?_ ?_
    · simp [MboxSys.messages, hst.write_eq, Sys.execWrite]
    · refine hbit rfl rfl (by simp [hp]) (by simp) ?_
      simp [MboxSys.port, hst.write_eq, Sys.execWrite]
    · simp [MboxSys.port, hst.write_eq, Sys.execWrite]
    · simp [MboxSys.goto, hp, MboxPc.stage]
  | @allocates f i c sys hu hp hz hcall hst =>
    obtain rfl := h.running_eq hp (by simp) (by simp)
    obtain ⟨hport, hm⟩ := (h.sound.effect hst).untouched (show ¬ s.sys.Touches mbox _ from fun ht => ht.elim)
    let s₁ : MboxSys := { s.goto (.fetchStore f (1#16 <<< i)) with sys := sys }
    have hquiet : 1#16 <<< i &&& (s₁.sys.cs.core.task s.running).sigRecvd = 0 :=
      (h.allocates_step rfl hu hp hz hcall hst rfl).2
    refine MboxSys.rings_of_same hm ?_ (congrArg MsgPort.action hport) ?_
    · -- there was no signal, and the new one is not pending
      simp only [MboxSys.bit, MboxSys.goto, hp, Function.update_self]
      rw [hz]
      exact hquiet.trans BitVec.zero_and.symm
    · simp [MboxSys.goto, hp, MboxPc.stage]
  | keepsSignal hu hp hz =>
    obtain rfl := h.running_eq hp (by simp) (by simp)
    refine MboxSys.rings_of_goes rfl ?_ ?_
    · simp [MboxSys.bit, MboxSys.goto, hp, MboxSys.port]
    · simp [MboxSys.goto, hp, MboxPc.stage]
  | stores hu hp hz hst =>
    obtain rfl := h.running_eq hp (by simp) (by simp)
    refine h.rings_of_calls hst rfl (fun _ _ hf => (by cases hf)) (fun _ _ ha => (by cases ha)) ?_ ?_ ?_ ?_
    · simp [MboxSys.messages, hst.write_eq, Sys.execWrite]
    · simp [MboxSys.bit, MboxSys.goto, hp, MboxSys.port, hst.write_eq, Sys.execWrite]
    · simp [MboxSys.port, hst.write_eq, Sys.execWrite]
    · simp [MboxSys.goto, hp, MboxPc.stage]
  | @setsAction f sys hu hp hst =>
    obtain rfl := h.running_eq hp (by simp) (by simp)
    have hrecvd := h.calls_recvd hst rfl (fun _ _ hf => (by cases hf)) fun _ _ ha => (by cases ha)
    have hsame : MboxSys.bit mbox s.running { s.goto (.fetchTimer f) with sys := sys } = s.bit mbox s.running := by
      refine hbit rfl rfl (by simp [hp]) (by simp) ?_
      simp [MboxSys.port, hst.write_eq, Sys.execWrite]
    have hpend : decide (MboxSys.Pending mbox s.running { s.goto (.fetchTimer f) with sys := sys }) =
        decide (s.Pending mbox s.running) :=
      decide_eq_decide.mpr (by rw [MboxSys.Pending, MboxSys.Pending, hsame, ← hrecvd])
    have hbell : MboxSys.doorbell mbox s.running { s.goto (.fetchTimer f) with sys := sys } =
        { s.doorbell mbox s.running with on := true, stage := .waiting } := by
      unfold MboxSys.doorbell
      rw [hpend]
      simp [MboxSys.messages, MboxSys.port, MboxSys.goto, MboxPc.stage, hst.write_eq, Sys.execWrite]
    refine ⟨.wait, ?_, fun _ => ⟨rfl, rfl, f, hp⟩, by simp⟩
    rw [hbell]
    exact .wait (by simp [MboxSys.doorbell, hp, MboxPc.stage])
  | skipsTimer hu hp =>
    obtain rfl := h.running_eq hp (by simp) (by simp)
    refine MboxSys.rings_of_goes rfl ?_ ?_
    · simp [MboxSys.bit, MboxSys.goto, hp, MboxSys.port]
    · simp [MboxSys.goto, hp, MboxPc.stage]
  | allocatesTimer hu hp hst =>
    obtain rfl := h.running_eq hp (by simp) (by simp)
    obtain ⟨hport, hm⟩ := hkeeps hst fun ht => ht.elim
    refine h.rings_of_calls hst rfl (fun _ _ hf => (by cases hf)) (fun _ _ ha => ?_) hm
      (hbit rfl rfl (by simp [hp]) (by simp) (congrArg MsgPort.signal hport)) (congrArg MsgPort.action hport) ?_
    · exact (Prod.mk.inj (Option.some.inj ha)).2.symm
    · simp [MboxSys.goto, hp, MboxPc.stage]
  | setsTimer hu hp hst =>
    obtain rfl := h.running_eq hp (by simp) (by simp)
    obtain ⟨hport, hm⟩ := hkeeps hst fun ht => ht.elim
    refine h.rings_of_calls hst rfl (fun _ _ hf => (by cases hf)) (fun _ _ ha => (by cases ha)) hm
      (hbit rfl rfl (by simp [hp]) (by simp) (congrArg MsgPort.signal hport)) (congrArg MsgPort.action hport) ?_
    simp [MboxSys.goto, hp, MboxPc.stage]
  | addsTimer hu hp hst =>
    obtain rfl := h.running_eq hp (by simp) (by simp)
    obtain ⟨hport, hm⟩ := hkeeps hst fun ht => ht.elim
    refine h.rings_of_calls hst rfl (fun _ _ hf => (by cases hf)) (fun _ _ ha => (by cases ha)) hm
      (hbit rfl rfl (by simp [hp]) (by simp) (congrArg MsgPort.signal hport)) (congrArg MsgPort.action hport) ?_
    simp [MboxSys.goto, hp, MboxPc.stage]
  | @waits f timerSignal sys hu hp hst =>
    obtain rfl := h.running_eq hp (by simp) (by simp)
    have hret := h.sound.nested.returns_call (timerSignal ||| (s.port mbox).signal)
    obtain ⟨cs, hcs, rfl⟩ := hst.core
    rcases h.sound.nested.signalWait_cases hcs with ⟨hz, -, hr⟩ | ⟨hz, -, hr⟩
    · rw [if_pos hz] at hret
      refine MboxSys.rings_of_same rfl ?_ rfl ?_
      · simp only [MboxSys.bit, MboxSys.goto, MboxSys.waited, hret, hp, Function.update_self]
        exact congrArg _ hr
      · simp [MboxSys.goto, MboxSys.waited, hret, hp, MboxPc.stage]
    · rw [if_neg hz] at hret
      refine MboxSys.rings_of_returns (f := f) rfl rfl (by rw [hp]; rfl) (by simp [hp]) ?_ hr
      simp only [MboxSys.goto, MboxSys.waited, hret, Function.update_self]
      rfl
  | @gets f timerSignal gotSignals sys hu hp hz hst =>
    obtain rfl := h.running_eq hp (by simp) (by simp)
    have hbell : ({ s.goto (.fetchRead f timerSignal (s.messages mbox).head?) with sys := sys } : MboxSys).doorbell mbox
        s.running = _ := h.bell_of_gets hst (Function.update_self ..) (by simp [hp]) (by simp) rfl
    refine ⟨.pop, ?_, by simp, by simp⟩
    rw [hbell]
    refine .pop ?_
    simp only [MboxSys.doorbell, hp, MboxPc.stage]
    exact if_pos hz
  | timesOut hu hp hz =>
    obtain rfl := h.running_eq hp (by simp) (by simp)
    refine MboxSys.rings_of_goes rfl ?_ ?_
    · simp [MboxSys.bit, MboxSys.goto, hp, MboxSys.port]
    · simp [MboxSys.goto, hp, MboxPc.stage, hz]
  | reads hu hp =>
    obtain rfl := h.running_eq hp (by simp) (by simp)
    refine MboxSys.rings_of_goes rfl ?_ ?_
    · simp [MboxSys.bit, MboxSys.goto, MboxSys.memFree, hp, MboxSys.port]
    · simp [MboxSys.goto, MboxSys.memFree, hp, MboxPc.stage]
  | abortsTimer hu hp hz hst =>
    obtain rfl := h.running_eq hp (by simp) (by simp)
    obtain ⟨hport, hm⟩ := hkeeps hst fun ht => ht.elim
    refine h.rings_of_calls hst rfl (fun _ _ hf => (by cases hf)) (fun _ _ ha => (by cases ha)) hm
      (hbit rfl rfl (by simp [hp]) (by simp) (congrArg MsgPort.signal hport)) (congrArg MsgPort.action hport) ?_
    simp [MboxSys.goto, hp, MboxPc.stage]
  | returns hu hp hz =>
    obtain rfl := h.running_eq hp (by simp) (by simp)
    refine MboxSys.rings_of_goes rfl ?_ ?_
    · simp [MboxSys.bit, MboxSys.goto, hp, MboxSys.port]
    · simp [MboxSys.goto, hp, MboxPc.stage]
  | @freesTimer f endTime _ hu hp hst =>
    obtain rfl := h.running_eq hp (by simp) (by simp)
    obtain ⟨hport, hm⟩ := hkeeps hst fun ht => ht.elim
    refine h.rings_of_calls hst rfl (fun holder sg hf => ?_) (fun _ _ ha => (by cases ha)) hm
      (hbit rfl rfl (by simp [hp]) (by simp) (congrArg MsgPort.signal hport)) (congrArg MsgPort.action hport) ?_
    · obtain ⟨-, rfl⟩ := Prod.mk.inj (Option.some.inj hf)
      exact h.timer f.timer (by rw [hp]; rfl)
    · simp [MboxSys.goto, hp, MboxPc.stage]
  | @tryGets sys hu hp hst =>
    obtain rfl := h.running_eq hp (by simp) (by simp)
    have hbell :
        ({ s.goto (.tryRead (s.messages mbox).head?) with sys := sys } : MboxSys).doorbell mbox s.running = _ :=
      h.bell_of_gets hst (Function.update_self ..) (by simp [hp]) (by simp) rfl
    have haway : (s.doorbell mbox s.running).stage = .away := by simp [MboxSys.doorbell, hp, MboxPc.stage]
    refine ⟨.poll, ?_, by simp, fun _ => ⟨rfl, rfl, hp⟩⟩
    rw [hbell, ← haway]
    exact .poll haway
  | tryReads hu hp =>
    obtain rfl := h.running_eq hp (by simp) (by simp)
    refine MboxSys.rings_of_goes rfl ?_ ?_
    · simp [MboxSys.bit, MboxSys.goto, MboxSys.memFree, hp, MboxSys.port]
    · simp [MboxSys.goto, MboxSys.memFree, hp, MboxPc.stage]
  | tryEmpty hu hp =>
    obtain rfl := h.running_eq hp (by simp) (by simp)
    refine MboxSys.rings_of_goes rfl ?_ ?_
    · simp [MboxSys.bit, MboxSys.goto, hp, MboxSys.port]
    · simp [MboxSys.goto, hp, MboxPc.stage]

end

end Martos
