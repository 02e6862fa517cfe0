import Martos.Lwip.Signalling
import Martos.Lwip.Unread

/-!
# Fetches of a single consumer

What the two conditions of `Lwip.Signalling` give in every run from `sys_mbox_new`: a fetch
sleeps and times out only on an empty list (`fetch_waits_only_on_empty`), and a fetch that is
signalled finds a message (`signalled_fetch_finds_message`). A run of the machine that meets the
contract alone can break either.
-/

namespace Martos

open Checked Transition

/-- The task is in `sys_arch_mbox_fetch`. -/
def MboxPc.InFetch : MboxPc → Prop
  | .user => False
  | .postSend _ => False
  | .tryGet => False
  | .tryRead _ => False
  | _ => True

namespace MboxSys

variable (mbox : PortRef) (t : TaskRef) (s : MboxSys)

/-- A fetch turns the signal on where the list is empty or the signal is pending. -/
def SignalsOn (ev : MboxEvent) : Prop :=
  match ev, s.mpc t with
  | .step, .fetchAction _ => s.running = t → s.messages mbox ≠ [] → s.Pending mbox t
  | _, _ => True

/-- `sys_arch_mbox_tryfetch` does not take the last message while the signal is pending. -/
def SparesLast (ev : MboxEvent) : Prop :=
  match ev, s.mpc t with
  | .step, .tryGet => s.running = t → s.Pending mbox t → (s.messages mbox).length ≠ 1
  | _, _ => True

instance (ev : MboxEvent) : Decidable (s.SignalsOn mbox t ev) := by
  unfold SignalsOn
  split <;> infer_instance

instance (ev : MboxEvent) : Decidable (s.SparesLast mbox t ev) := by
  unfold SparesLast
  split <;> infer_instance

end MboxSys

section

variable {mbox : PortRef} {t : TaskRef} {s s' : MboxSys} {ev : MboxEvent}

/-- `sys_mbox_new` keeps the machine sound. -/
theorem Sound.sysMboxNew {s : Sys} (h : Sound s) (mbox : PortRef) : Sound (s.sysMboxNew mbox) where
  nested := h.nested
  placed := h.placed
  attentive := h.attentive
  fits := h.fits
  timers := h.timers
  requests := h.requests.sync_self
  messages := h.messages.sync_update (List.nil_sublist _)

/-- The invariant holds when `sys_mbox_new` has returned, for whichever task is going to be the
consumer. -/
theorem Consumer.start {cfg : Config} {c : Core} {tr₀ : List (Move Sys SysEvent)} {s₀ : Sys} {ptr : MsgRef → VoidPtr}
    {allocated : MsgRef → Bool} (h : martosPre cfg = .ok c) (hr₀ : Run Sys.Step (Sys.start c) tr₀ s₀) :
    Consumer mbox t (MboxSys.start mbox s₀ ptr allocated) := by
  have hport : (MboxSys.start mbox s₀ ptr allocated).port mbox = ⟨none, 0, .ignore⟩ := Function.update_self ..
  have hbit : (MboxSys.start mbox s₀ ptr allocated).bit mbox t = 0 := congrArg MsgPort.signal hport
  exact {
    sound := (Sound.run h hr₀).sysMboxNew mbox
    alive := fun hne => absurd hbit hne
    has := .inl hbit
    single := sigfSingle_run h hr₀ t
    others := fun _ _ => .inl rfl
    rings := fun ha => by
      rw [hport] at ha
      cases ha
    port := trivial
    asleep := fun sg _ => by
      change sg &&& ((MboxSys.start mbox s₀ ptr allocated).port mbox).signal = 0
      rw [hport]
      exact BitVec.and_zero
    awake := fun hne => absurd rfl hne
    timer := fun _ htm => by cases htm }

theorem Blocks.start {s₀ : Sys} {ptr : MsgRef → VoidPtr} {allocated : MsgRef → Bool} :
    Blocks mbox t (MboxSys.start mbox s₀ ptr allocated) ∧
      (MboxSys.start mbox s₀ ptr allocated).unread mbox t = [] := by
  have hnil : (MboxSys.start mbox s₀ ptr allocated).unread mbox t = [] := Function.update_self ..
  refine ⟨⟨fun u m hu => (by cases hu), fun m hm => ?_, ?_⟩, hnil⟩
  · rw [hnil] at hm
    cases hm
  · rw [hnil]
    exact List.nodup_nil

/-- When `sys_mbox_new` has returned nobody waits, and nothing is queued. -/
theorem MboxSys.doorbell_start {s₀ : Sys} {ptr : MsgRef → VoidPtr} {allocated : MsgRef → Bool} :
    Doorbell.Heard ((MboxSys.start mbox s₀ ptr allocated).doorbell mbox t) ∧
      Doorbell.Backed ((MboxSys.start mbox s₀ ptr allocated).doorbell mbox t) := by
  have hport : (MboxSys.start mbox s₀ ptr allocated).port mbox = ⟨none, 0, .ignore⟩ := Function.update_self ..
  have hquiet : ¬ (MboxSys.start mbox s₀ ptr allocated).Pending mbox t := by
    have hbit : (MboxSys.start mbox s₀ ptr allocated).bit mbox t = 0 := congrArg MsgPort.signal hport
    rw [MboxSys.Pending, hbit]
    simp
  have hstage : ((MboxSys.start mbox s₀ ptr allocated).doorbell mbox t).stage = .away := rfl
  exact ⟨⟨by simp [hstage], by simp [hstage]⟩,
    ⟨fun hr => absurd (of_decide_eq_true hr) hquiet, by simp [hstage], by simp [hstage]⟩⟩

/-- What holds in every run of a single consumer: the invariant, and what is posted is fetched in
order. -/
theorem consumer_run {ok : MboxSys → MboxEvent → Prop} {cfg : Config} {c : Core} {tr₀ : List (Move Sys SysEvent)}
    {s₀ : Sys} {ptr : MsgRef → VoidPtr} {allocated : MsgRef → Bool} {tr : List (Move MboxSys MboxEvent)}
    (h : martosPre cfg = .ok c) (hr₀ : Run Sys.Step (Sys.start c) tr₀ s₀)
    (hok : ∀ s ev, ok s ev → s.Contract mbox t ev)
    (hr : Run (Restrict ok (MboxSys.Step mbox)) (MboxSys.start mbox s₀ ptr allocated) tr s) :
    Consumer mbox t s ∧ Blocks mbox t s ∧
      tr.filterMap MboxSys.posts = tr.filterMap MboxSys.takes ++ (s.unread mbox t).map s.ptr := by
  induction hr with
  | nil =>
    refine ⟨.start h hr₀, Blocks.start.1, ?_⟩
    rw [Blocks.start.2]
    rfl
  | @snoc tr s s' ev hra hst ih =>
    obtain ⟨hcon, hb, hlog⟩ := ih
    obtain ⟨hc, hst⟩ := hst
    have hch := hcon.unread_step (hok s ev hc) hst
    refine ⟨hcon.step (hok s ev hc) hst, hb.step hch, ?_⟩
    have hone (f : Move MboxSys MboxEvent → Option VoidPtr) :
        [(⟨s, ev, s'⟩ : Move MboxSys MboxEvent)].filterMap f = (f ⟨s, ev, s'⟩).toList := by
      cases hf : f ⟨s, ev, s'⟩ <;> simp [hf]
    calc List.filterMap MboxSys.posts (tr ++ [⟨s, ev, s'⟩])
        = tr.filterMap MboxSys.takes ++
            ((s.unread mbox t).map s.ptr ++ (MboxSys.posts ⟨s, ev, s'⟩).toList) := by
          rw [List.filterMap_append, hone, hlog, List.append_assoc]
      _ = List.filterMap MboxSys.takes (tr ++ [⟨s, ev, s'⟩]) ++ (s'.unread mbox t).map s'.ptr := by
          rw [hb.payloads_step hch, List.filterMap_append, hone, List.append_assoc]

/-- Where every fetch turns the signal on as it should, all messages on the list are heard. -/
theorem heard_run {ok : MboxSys → MboxEvent → Prop} {cfg : Config} {c : Core} {tr₀ : List (Move Sys SysEvent)}
    {s₀ : Sys} {ptr : MsgRef → VoidPtr} {allocated : MsgRef → Bool} {tr : List (Move MboxSys MboxEvent)}
    (h : martosPre cfg = .ok c) (hr₀ : Run Sys.Step (Sys.start c) tr₀ s₀)
    (hok : ∀ s ev, ok s ev → s.Contract mbox t ev ∧ s.SignalsOn mbox t ev)
    (hr : Run (Restrict ok (MboxSys.Step mbox)) (MboxSys.start mbox s₀ ptr allocated) tr s) :
    Consumer mbox t s ∧ Doorbell.Heard (s.doorbell mbox t) := by
  refine hr.invariant (P := fun s => Consumer mbox t s ∧ Doorbell.Heard (s.doorbell mbox t))
    ⟨.start h hr₀, MboxSys.doorbell_start.1⟩ ?_
  rintro s ev s' ⟨hcon, hh⟩ ⟨hc, hst⟩
  obtain ⟨hc, hcond⟩ := hok s ev hc
  obtain ⟨a, ha, hwait, -⟩ := hcon.rings_step hc hst
  refine ⟨hcon.step hc hst, hh.step ha fun hw hne => ?_⟩
  obtain ⟨rfl, hrun, f, hat⟩ := hwait hw
  simp only [MboxSys.SignalsOn, hat] at hcond
  exact decide_eq_true (hcond hrun hne)

/-- Where the last message is spared, a pending signal is backed by a message. -/
theorem backed_run {ok : MboxSys → MboxEvent → Prop} {cfg : Config} {c : Core} {tr₀ : List (Move Sys SysEvent)}
    {s₀ : Sys} {ptr : MsgRef → VoidPtr} {allocated : MsgRef → Bool} {tr : List (Move MboxSys MboxEvent)}
    (h : martosPre cfg = .ok c) (hr₀ : Run Sys.Step (Sys.start c) tr₀ s₀)
    (hok : ∀ s ev, ok s ev → s.Contract mbox t ev ∧ s.SparesLast mbox t ev)
    (hr : Run (Restrict ok (MboxSys.Step mbox)) (MboxSys.start mbox s₀ ptr allocated) tr s) :
    Consumer mbox t s ∧ Doorbell.Backed (s.doorbell mbox t) := by
  refine hr.invariant (P := fun s => Consumer mbox t s ∧ Doorbell.Backed (s.doorbell mbox t))
    ⟨.start h hr₀, MboxSys.doorbell_start.2⟩ ?_
  rintro s ev s' ⟨hcon, hb⟩ ⟨hc, hst⟩
  obtain ⟨hc, hcond⟩ := hok s ev hc
  obtain ⟨a, ha, -, hpoll⟩ := hcon.rings_step hc hst
  refine ⟨hcon.step hc hst, hb.step ha fun hp hr => ?_⟩
  obtain ⟨rfl, hrun, hat⟩ := hpoll hp
  simp only [MboxSys.SparesLast, hat] at hcond
  exact hcond hrun (of_decide_eq_true hr)

/-- A consumer in state `TASK_WAITING` inside a fetch is in its `signal_wait`, and no signal that it
waits for is pending. -/
theorem Consumer.waiting (h : Consumer mbox t s) (hw : (s.sys.cs.core.task t).state = .waiting)
    (hf : (s.mpc t).InFetch) : ∃ f timerSignal, s.mpc t = .fetchWaiting f timerSignal ∧
    (timerSignal ||| (s.port mbox).signal) &&& (s.sys.cs.core.task t).sigRecvd = 0 := by
  obtain ⟨sg, n, hn⟩ := h.sound.placed.blocked t hw
  have hsl := h.asleep sg ⟨n, hn⟩
  have hz := h.sound.attentive.sleeps t hw
  rw [h.sound.attentive.waits t sg n hn] at hz
  cases hp : s.mpc t with
  | fetchWaiting f timerSignal =>
    rw [hp] at hsl
    obtain rfl : sg = timerSignal ||| (s.port mbox).signal := hsl
    exact ⟨f, timerSignal, rfl, hz⟩
  | user =>
    rw [hp] at hf
    exact hf.elim
  | _ =>
    rw [hp] at hsl
    exact hsl.elim

/-- A fetch comes to have been signalled from its `signal_wait`. -/
theorem MboxEffect.fetchGot_step (heff : MboxEffect mbox s ev s') {f : Fetch} {timerSignal gotSignals : Signals}
    (hp' : s'.mpc t = .fetchGot f timerSignal gotSignals) : s.mpc t = .fetchGot f timerSignal gotSignals ∨
    s.mpc t = .fetchWait f timerSignal ∨ s.mpc t = .fetchWaiting f timerSignal := by
  -- the running task moves to a point that is another one
  have hmove {p : MboxPc} (hs : s'.mpc = Function.update s.mpc s.running p)
      (hp : p ≠ .fetchGot f timerSignal gotSignals) : s.mpc t = .fetchGot f timerSignal gotSignals := by
    by_cases ht : t = s.running
    · rw [hs, ht, Function.update_self] at hp'
      exact absurd hp' hp
    · rwa [hs, Function.update_of_ne ht] at hp'
  have hself {p : MboxPc} (hs : s'.mpc = Function.update s.mpc s.running p) (ht : t = s.running) :
      p = .fetchGot f timerSignal gotSignals := by
    rwa [hs, ht, Function.update_self] at hp'
  have hother {p : MboxPc} (hs : s'.mpc = Function.update s.mpc s.running p) (ht : t ≠ s.running) :
      s.mpc t = .fetchGot f timerSignal gotSignals := by
    rwa [hs, Function.update_of_ne ht] at hp'
  -- or from a point in `signal_wait`
  have hwait {e : Event} {g : Fetch} {sg : Signals} (hw : s.waited e g sg = .fetchGot f timerSignal gotSignals) :
      g = f ∧ sg = timerSignal := by
    unfold MboxSys.waited at hw
    split at hw
    · exact ⟨(MboxPc.fetchGot.inj hw).1, (MboxPc.fetchGot.inj hw).2.1⟩
    · cases hw
  cases heff with
  | @sys e sys hp hst =>
    by_cases ht : t = s.running
    · have hat : s.afterSys e = .fetchGot f timerSignal gotSignals := hself rfl ht
      unfold MboxSys.afterSys at hat
      split at hat
      · split at hat
        · next g sg hq =>
          obtain ⟨rfl, rfl⟩ := hwait hat
          exact .inr (.inr (ht ▸ hq))
        · exact .inl (ht ▸ hat)
      · exact .inl (ht ▸ hat)
    · exact .inl (hother rfl ht)
  | @waits g sg sys hu hp hst =>
    by_cases ht : t = s.running
    · obtain ⟨rfl, rfl⟩ := hwait (hself rfl ht)
      exact .inr (.inl (ht ▸ hp))
    · exact .inl (hother rfl ht)
  | _ => exact .inl (hmove rfl (by simp))

/-- A fetch comes to have taken a message when it has been signalled. -/
theorem MboxEffect.fetchRead_step (heff : MboxEffect mbox s ev s') {f : Fetch} {timerSignal : Signals}
    {m : Option MsgRef} (hp' : s'.mpc t = .fetchRead f timerSignal m) : s.mpc t = .fetchRead f timerSignal m ∨
    ((∃ gotSignals, s.mpc t = .fetchGot f timerSignal gotSignals ∧ gotSignals &&& (s.port mbox).signal ≠ 0) ∧
      m = (s.messages mbox).head?) := by
  have hmove {p : MboxPc} (hs : s'.mpc = Function.update s.mpc s.running p) (hp : p ≠ .fetchRead f timerSignal m) :
      s.mpc t = .fetchRead f timerSignal m := by
    by_cases ht : t = s.running
    · rw [hs, ht, Function.update_self] at hp'
      exact absurd hp' hp
    · rwa [hs, Function.update_of_ne ht] at hp'
  have hself {p : MboxPc} (hs : s'.mpc = Function.update s.mpc s.running p) (ht : t = s.running) :
      p = .fetchRead f timerSignal m := by
    rwa [hs, ht, Function.update_self] at hp'
  have hother {p : MboxPc} (hs : s'.mpc = Function.update s.mpc s.running p) (ht : t ≠ s.running) :
      s.mpc t = .fetchRead f timerSignal m := by
    rwa [hs, Function.update_of_ne ht] at hp'
  have hwait {e : Event} {g : Fetch} {sg : Signals} : s.waited e g sg ≠ .fetchRead f timerSignal m := by
    unfold MboxSys.waited
    split <;> simp
  cases heff with
  | @sys e sys hp hst =>
    by_cases ht : t = s.running
    · have hat : s.afterSys e = .fetchRead f timerSignal m := hself rfl ht
      unfold MboxSys.afterSys at hat
      split at hat
      · split at hat
        · exact absurd hat hwait
        · exact .inl (ht ▸ hat)
      · exact .inl (ht ▸ hat)
    · exact .inl (hother rfl ht)
  | waits hu hp hst => exact .inl (hmove rfl hwait)
  | @gets g sg gotSignals sys hu hp hz hst =>
    by_cases ht : t = s.running
    · obtain ⟨rfl, rfl, rfl⟩ := MboxPc.fetchRead.inj (hself rfl ht)
      exact .inr ⟨⟨gotSignals, ht ▸ hp, hz⟩, rfl⟩
    · exact .inl (hother rfl ht)
  | _ => exact .inl (hmove rfl (by simp))

/-- A set that meets no part of a union meets neither. -/
theorem and_eq_zero_of_or {a b r : Signals} (h : (a ||| b) &&& r = 0) : b &&& r = 0 := by
  refine BitVec.eq_of_getLsbD_eq fun i _ => ?_
  have hbit : ((a ||| b) &&& r).getLsbD i = false := by
    rw [h]
    exact BitVec.getLsbD_zero
  rw [BitVec.getLsbD_and, BitVec.getLsbD_or] at hbit
  rw [BitVec.getLsbD_and]
  revert hbit
  cases a.getLsbD i <;> cases b.getLsbD i <;> cases r.getLsbD i <;> simp

/-! ### Runs that can be replayed -/

/-- Events that can be replayed from `sys_mbox_new` on are the events of a run. -/
theorem MboxSys.exists_run (mbox : PortRef) (ok : MboxSys → MboxEvent → Prop) [∀ s ev, Decidable (ok s ev)]
    (es : List MboxEvent) {p : MboxSys → Bool}
    (h : (martosPre CoreSys.exampleConfig).toOption.any (fun c => (replay (nextIf ok (MboxSys.next mbox))
      (MboxSys.start mbox (Sys.start c) (fun _ => 0) fun _ => false) es).any p) = true) :
    ∃ c tr s, martosPre CoreSys.exampleConfig = .ok c ∧ Run (Restrict ok (MboxSys.Step mbox))
      (MboxSys.start mbox (Sys.start c) (fun _ => 0) fun _ => false) tr s ∧ p s = true := by
  obtain ⟨c, hc, h⟩ := (Option.any_eq_true ..).mp h
  obtain ⟨s, hs, hp⟩ := (Option.any_eq_true ..).mp h
  obtain ⟨tr, hr, -⟩ := Run.of_replay (restrict_of_nextIf fun _ _ _ => id) hs
  exact ⟨c, tr, s, eq_ok_of_toOption hc, hr, hp⟩

/-- The init task starts task 1, which preempts it. -/
def exampleConsumer : List MboxEvent := CoreSys.oneTask.map fun e => .sys (.core e)

/-- Task 1 fetches for the first time, and sleeps. -/
def exampleFetch : List MboxEvent := [.fetch 0 0, .step, .step, .step, .step, .step, .step]

/-- The init task runs again and posts; task 1 is switched in, gets the message and returns. -/
def examplePost : List MboxEvent :=
  [.sys (.core .resume), .sys (.core .pendSV), .sys (.core (.pendSVSwitch 0x20001200)), .sys (.core .pendSVExit),
    .post 7 42, .step, .sys (.core .pendSV), .sys (.core (.pendSVSwitch 0x20000200)), .sys (.core .pendSVExit),
    .sys (.core .resume), .step, .step, .step]

/-! ### Sleeping -/

/-- **A fetch sleeps only on an empty mailbox**, in every run from `sys_mbox_new` with the single
consumer `t` in which every fetch turns the signal on while the list is empty or the signal
pending:

* while the consumer is in state `TASK_WAITING` inside `sys_arch_mbox_fetch`, the list is empty;
* when `signal_wait` returns to a fetch without the mailbox's signal, so that it is going to time
  out, the list is empty;
* the payloads fetched, followed by those not read yet, are the payloads posted, in order. -/
theorem fetch_waits_only_on_empty {cfg : Config} {c : Core} {tr₀ : List (Move Sys SysEvent)} {s₀ : Sys}
    {ptr : MsgRef → VoidPtr} {allocated : MsgRef → Bool} {tr : List (Move MboxSys MboxEvent)}
    (h : martosPre cfg = .ok c) (hr₀ : Run Sys.Step (Sys.start c) tr₀ s₀)
    (hr : Run (Restrict (fun s ev => s.Contract mbox t ev ∧ s.SignalsOn mbox t ev) (MboxSys.Step mbox))
      (MboxSys.start mbox s₀ ptr allocated) tr s) :
    ((s.sys.cs.core.task t).state = .waiting → (s.mpc t).InFetch → s.messages mbox = []) ∧
    (∀ m ∈ tr, ∀ f timerSignal gotSignals, (∀ g, m.pre.mpc t ≠ .fetchGot f timerSignal g) →
      m.post.mpc t = .fetchGot f timerSignal gotSignals → gotSignals &&& (m.post.port mbox).signal = 0 →
      m.post.messages mbox = []) ∧
    tr.filterMap MboxSys.posts = tr.filterMap MboxSys.takes ++ (s.unread mbox t).map s.ptr := by
  have hheard := heard_run h hr₀ (fun _ _ => id) hr
  refine ⟨fun hw hf => ?_, fun m hm f timerSignal gotSignals hpre hpost hgot => ?_,
    (consumer_run h hr₀ (fun _ _ => And.left) hr).2.2⟩
  · obtain ⟨hcon, hbell⟩ := hheard
    obtain ⟨f, timerSignal, hp, hz⟩ := hcon.waiting hw hf
    by_contra hne
    have hstage : (s.doorbell mbox t).stage = .waiting := by simp [MboxSys.doorbell, hp, MboxPc.stage]
    have hpend : s.Pending mbox t := of_decide_eq_true (hbell.rings hstage hne)
    rw [MboxSys.Pending, MboxSys.bit_eq (by simp [hp])] at hpend
    exact hpend (and_eq_zero_of_or hz)
  · obtain ⟨tr₁, tr₂, rfl⟩ := List.append_of_mem hm
    obtain ⟨hr₁, ⟨⟨hc, hcond⟩, hst⟩, -⟩ := hr.split rfl
    obtain ⟨hcon, hbell⟩ := heard_run h hr₀ (fun _ _ => id) hr₁
    obtain ⟨a, ha, -, -⟩ := hcon.rings_step hc hst
    have haway : (m.post.doorbell mbox t).stage = .away := by
      simp only [MboxSys.doorbell, hpost, MboxPc.stage]
      exact if_neg (not_not.mpr hgot)
    have hwait : (m.pre.doorbell mbox t).stage = .waiting := by
      rcases hst.effect.fetchGot_step hpost with hp | hp | hp
      · exact absurd hp (hpre gotSignals)
      · simp [MboxSys.doorbell, hp, MboxPc.stage]
      · simp [MboxSys.doorbell, hp, MboxPc.stage]
    rcases hbell.stops ha hwait (by rw [haway]; simp) with hcalled | ⟨-, hnil⟩
    · cases haway.symm.trans hcalled
    · exact hnil

/-- The theorem at a run in which task 1 fetches, gets a message and sleeps in its second fetch. -/
theorem fetch_waits_only_on_empty_asleep : ∃ c tr s, martosPre CoreSys.exampleConfig = .ok c ∧
    Run (Restrict (fun s ev => s.Contract 0 1 ev ∧ s.SignalsOn 0 1 ev) (MboxSys.Step 0))
      (MboxSys.start 0 (Sys.start c) (fun _ => 0) fun _ => false) tr s ∧
    (s.sys.cs.core.task 1).state = .waiting ∧ s.allocated 7 = false ∧ s.messages 0 = [] := by
  obtain ⟨c, tr, s, hc, hr, hp⟩ := MboxSys.exists_run 0 (fun s ev => s.Contract 0 1 ev ∧ s.SignalsOn 0 1 ev)
    (exampleConsumer ++ exampleFetch ++ examplePost ++ [.fetch 0 0, .step, .step, .step, .step, .step])
    (p := fun s => decide ((s.sys.cs.core.task 1).state = .waiting ∧ s.allocated 7 = false ∧
      s.mpc 1 = .fetchWaiting ⟨0, 0, 0⟩ 0))
    (by decide +kernel)
  obtain ⟨hw, ha, hq⟩ := of_decide_eq_true hp
  refine ⟨c, tr, s, hc, hr, hw, ha, (fetch_waits_only_on_empty hc .nil hr).1 hw ?_⟩
  rw [hq]
  trivial

/-- A message is posted before the first fetch: that fetch sleeps while the message is on the list. -/
theorem fetch_sleeps_beside_message : ∃ c tr s, martosPre CoreSys.exampleConfig = .ok c ∧
    Run (Restrict (fun s ev => s.Contract 0 1 ev) (MboxSys.Step 0))
      (MboxSys.start 0 (Sys.start c) (fun _ => 0) fun _ => false) tr s ∧
    (s.sys.cs.core.task 1).state = .waiting ∧ (s.mpc 1).InFetch ∧ s.messages 0 = [7] := by
  obtain ⟨c, tr, s, hc, hr, hp⟩ := MboxSys.exists_run 0 (fun s ev => s.Contract 0 1 ev)
    ([.post 7 42, .step] ++ exampleConsumer ++ exampleFetch)
    (p := fun s => decide ((s.sys.cs.core.task 1).state = .waiting ∧ s.messages 0 = [7] ∧
      s.mpc 1 = .fetchWaiting ⟨0, 0, 0⟩ 0))
    (by decide +kernel)
  obtain ⟨hw, hm, hq⟩ := of_decide_eq_true hp
  refine ⟨c, tr, s, hc, hr, hw, ?_, hm⟩
  rw [hq]
  trivial

/-! ### Taking messages -/

/-- A fetch that has been signalled is called by the bell. -/
theorem MboxSys.doorbell_called {f : Fetch} {timerSignal gotSignals : Signals}
    (hp : s.mpc t = .fetchGot f timerSignal gotSignals) (hz : gotSignals &&& (s.port mbox).signal ≠ 0) :
    (s.doorbell mbox t).stage = .called := by
  simp only [MboxSys.doorbell, hp, MboxPc.stage]
  exact if_pos hz

/-- **A signalled fetch finds a message**, in every run from `sys_mbox_new` with the single consumer
`t` in which `sys_arch_mbox_tryfetch` never takes the last message while the signal is pending:

* when `signal_wait` has returned the mailbox's signal to a fetch, the list is not empty;
* so what `msgport_get` returns to it is not NULL, but a block that is allocated. -/
theorem signalled_fetch_finds_message {cfg : Config} {c : Core} {tr₀ : List (Move Sys SysEvent)} {s₀ : Sys}
    {ptr : MsgRef → VoidPtr} {allocated : MsgRef → Bool} {tr : List (Move MboxSys MboxEvent)}
    (h : martosPre cfg = .ok c) (hr₀ : Run Sys.Step (Sys.start c) tr₀ s₀)
    (hr : Run (Restrict (fun s ev => s.Contract mbox t ev ∧ s.SparesLast mbox t ev) (MboxSys.Step mbox))
      (MboxSys.start mbox s₀ ptr allocated) tr s) :
    (∀ f timerSignal gotSignals, s.mpc t = .fetchGot f timerSignal gotSignals →
      gotSignals &&& (s.port mbox).signal ≠ 0 → s.messages mbox ≠ []) ∧
    (∀ f timerSignal m, s.mpc t = .fetchRead f timerSignal m → ∃ msg, m = some msg ∧ s.allocated msg = true) := by
  refine ⟨fun f timerSignal gotSignals hp hz => ?_, fun f timerSignal m hp => ?_⟩
  · exact (backed_run h hr₀ (fun _ _ => id) hr).2.called (MboxSys.doorbell_called hp hz)
  have hsome : ∃ msg, m = some msg := by
    induction hr with
    | nil => cases hp
    | snoc hra hst ih =>
      rcases hst.2.effect.fetchRead_step hp with hp | ⟨⟨gotSignals, hgot, hz⟩, hm⟩
      · exact ih hp
      · have hne := (backed_run h hr₀ (fun _ _ => id) hra).2.called (MboxSys.doorbell_called hgot hz)
        exact ⟨_, hm.trans (List.head?_eq_some_head hne)⟩
  obtain ⟨msg, rfl⟩ := hsome
  refine ⟨msg, rfl, (consumer_run h hr₀ (fun _ _ => And.left) hr).2.1.unread msg ?_⟩
  rw [MboxSys.unread, hp]
  exact List.mem_append_left _ (List.mem_singleton.mpr rfl)

/-- The theorem at a run in which task 1 is signalled and takes a message. -/
theorem signalled_fetch_finds_message_posted : ∃ c tr s, martosPre CoreSys.exampleConfig = .ok c ∧
    Run (Restrict (fun s ev => s.Contract 0 1 ev ∧ s.SparesLast 0 1 ev) (MboxSys.Step 0))
      (MboxSys.start 0 (Sys.start c) (fun _ => 0) fun _ => false) tr s ∧
    ∃ f timerSignal m, s.mpc 1 = .fetchRead f timerSignal m ∧ ∃ msg, m = some msg ∧ s.allocated msg = true := by
  obtain ⟨c, tr, s, hc, hr, hp⟩ := MboxSys.exists_run 0 (fun s ev => s.Contract 0 1 ev ∧ s.SparesLast 0 1 ev)
    (exampleConsumer ++ exampleFetch ++ examplePost.take 11)
    (p := fun s =>
      match s.mpc 1 with
      | .fetchRead _ _ _ => true
      | _ => false)
    (by decide +kernel)
  split at hp
  · next f timerSignal m hq =>
    exact ⟨c, tr, s, hc, hr, f, timerSignal, m, hq,
      (signalled_fetch_finds_message hc .nil hr).2 f timerSignal m hq⟩
  · cases hp

/-- `sys_arch_mbox_tryfetch` takes the message whose signal is pending: the next fetch is signalled, and
gets NULL from the empty list. -/
theorem signalled_fetch_finds_nothing : ∃ c tr s s', martosPre CoreSys.exampleConfig = .ok c ∧
    Run (Restrict (fun s ev => s.Contract 0 1 ev) (MboxSys.Step 0))
      (MboxSys.start 0 (Sys.start c) (fun _ => 0) fun _ => false) tr s ∧
    (∃ f timerSignal gotSignals, s.mpc 1 = .fetchGot f timerSignal gotSignals ∧
      gotSignals &&& (s.port 0).signal ≠ 0) ∧ s.messages 0 = [] ∧
    s.Step 0 .step s' ∧ ∃ f timerSignal, s'.mpc 1 = .fetchRead f timerSignal none := by
  obtain ⟨c, tr, s, hc, hr, hp⟩ := MboxSys.exists_run 0 (fun s ev => s.Contract 0 1 ev)
    (exampleConsumer ++ exampleFetch ++ examplePost ++ [.post 8 43, .step, .tryfetch, .step, .step] ++
      [.fetch 0 0, .step, .step, .step, .step, .step])
    (p := fun s => (match s.mpc 1 with
      | .fetchGot _ _ gotSignals => decide (gotSignals &&& (s.port 0).signal ≠ 0 ∧ s.messages 0 = [])
      | _ => false) && ((s.next 0 .step).any fun s' =>
        match s'.mpc 1 with
        | .fetchRead _ _ none => true
        | _ => false))
    (by decide +kernel)
  rw [Bool.and_eq_true, Option.any_eq_true] at hp
  obtain ⟨hgot, s', hs', hread⟩ := hp
  split at hgot
  · next f timerSignal gotSignals hq =>
    obtain ⟨hz, hm⟩ := of_decide_eq_true hgot
    refine ⟨c, tr, s, s', hc, hr, ⟨f, timerSignal, gotSignals, hq, hz⟩, hm, hs', ?_⟩
    split at hread
    · next f' timerSignal' hq' => exact ⟨f', timerSignal', hq'⟩
    · cases hread
  · cases hgot

end

end Martos
