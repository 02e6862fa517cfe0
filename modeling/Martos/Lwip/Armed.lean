import Martos.Lwip.Fetching
import Martos.Lwip.Timeouts

/-!
# Waits with a timeout have their timers armed

In every run in which no call of `timer_add` from `sys_arch_sem_wait` or `sys_arch_mbox_fetch`
finds its tick elapsed, a task that is waiting inside one of these with a timeout has its timer
on the queue (`waits_have_timers`). A tick between the two readings of the clock is enough to
break it: the task then waits without a timer.
-/

namespace Martos

open Checked Transition

/-! ### Runs of the calls -/

section

variable {a : TimedSys}

/-- Nobody is in a call. -/
theorem TimedInv.of_out (h : Sound a.sys) (hp : ∀ t, a.tpc t = .out) : TimedInv a := by
  have hno {t : TaskRef} {tm : TimerRef} (ht : (a.tpc t).timer = some tm) : False := by
    rw [hp t] at ht
    cases ht
  refine ⟨h, fun t ht => ?_, fun t u tm ht hu => (hno ht).elim, fun t => ?_⟩
  · obtain ⟨tm, htm⟩ := Option.ne_none_iff_exists'.mp ht
    exact (hno htm).elim
  · rw [hp t]
    trivial

theorem TimedSys.Watching.of_out (hp : ∀ t, a.tpc t = .out) : a.Watching := by
  intro t tm sg ht
  rw [hp t] at ht
  rcases ht with ht | ht <;> cases ht

end

/-- The running task is in `timer_add`, called by a task, and is going to find the tick elapsed. -/
def Sys.AddsElapsed (s : Sys) : Prop :=
  ∃ tm, s.spc s.cs.core.running = .timerAddCheck tm false ∧ timerElapsed tm s.svc = true

/-- No call of `timer_add` from `sys_arch_sem_wait` finds its tick elapsed. -/
def SemSys.OnTime (s : SemSys) : SemEvent → Prop
  | .sys .resume => s.wpc s.running ≠ .user → ¬ s.sys.AddsElapsed
  | _ => True

/-- No call of `timer_add` from `sys_arch_mbox_fetch` finds its tick elapsed. -/
def MboxSys.OnTime (s : MboxSys) : MboxEvent → Prop
  | .sys .resume => s.mpc s.running ≠ .user → ¬ s.sys.AddsElapsed
  | _ => True

section

variable {cfg : Config} {c : Core} {mbox : PortRef}

theorem SemSys.Timing.start (h : martosPre cfg = .ok c) : (SemSys.start (Sys.start c)).Timing :=
  ⟨.of_out (Sound.start h) fun _ => rfl, fun _ => trivial⟩

theorem SemSys.timing_run {ok : SemSys → SemEvent → Prop} {tr : List (Move SemSys SemEvent)} {s : SemSys}
    (h : martosPre cfg = .ok c) (hok : ∀ s ev, ok s ev → s.Contract ev)
    (hr : Run (Restrict ok SemSys.Step) (SemSys.start (Sys.start c)) tr s) : s.Timing :=
  hr.invariant (P := SemSys.Timing) (.start h) fun s ev _ ht hst => ht.step (hok s ev hst.1) hst.2

theorem MboxSys.Timing.start {tr₀ : List (Move Sys SysEvent)} {s₀ : Sys} {ptr : MsgRef → VoidPtr}
    {allocated : MsgRef → Bool} (h : martosPre cfg = .ok c) (hr₀ : Run Sys.Step (Sys.start c) tr₀ s₀) :
    (MboxSys.start mbox s₀ ptr allocated).Timing :=
  ⟨.of_out ((Sound.run h hr₀).sysMboxNew mbox) fun _ => rfl, fun _ => trivial⟩

theorem MboxSys.timing_run {ok : MboxSys → MboxEvent → Prop} {tr₀ : List (Move Sys SysEvent)} {s₀ : Sys}
    {ptr : MsgRef → VoidPtr} {allocated : MsgRef → Bool} {tr : List (Move MboxSys MboxEvent)} {s : MboxSys}
    (h : martosPre cfg = .ok c) (hr₀ : Run Sys.Step (Sys.start c) tr₀ s₀) (hok : ∀ s ev, ok s ev → s.PrivateTimers ev)
    (hr : Run (Restrict ok (MboxSys.Step mbox)) (MboxSys.start mbox s₀ ptr allocated) tr s) : s.Timing :=
  hr.invariant (P := MboxSys.Timing) (.start h hr₀) fun s ev _ ht hst => ht.step (hok s ev hst.1) hst.2

/-- Where no tick has elapsed, the timers are watched. -/
theorem SemSys.watching_run {tr : List (Move SemSys SemEvent)} {s : SemSys} (h : martosPre cfg = .ok c)
    (hr : Run (Restrict (fun s ev => s.Contract ev ∧ s.OnTime ev) SemSys.Step) (SemSys.start (Sys.start c)) tr s) :
    s.timed.Watching := by
  induction hr with
  | nil => exact .of_out fun _ => rfl
  | @snoc tr s s' ev hra hst ih =>
    obtain ⟨⟨hc, hontime⟩, hst⟩ := hst
    have ht := SemSys.timing_run h (fun _ _ => And.left) hra
    obtain ⟨e, htimed, hresume⟩ := ht.timed_step hc hst
    refine ih.step ht.inv htimed fun tm sg he hp hspc => ?_
    obtain rfl := hresume he
    by_contra hne
    refine hontime (fun hu => ?_) ⟨tm, hspc, Bool.eq_true_of_not_eq_false hne⟩
    cases (congrArg SemPc.timed hu).symm.trans hp

theorem MboxSys.watching_run {tr₀ : List (Move Sys SysEvent)} {s₀ : Sys} {ptr : MsgRef → VoidPtr}
    {allocated : MsgRef → Bool} {tr : List (Move MboxSys MboxEvent)} {s : MboxSys} (h : martosPre cfg = .ok c)
    (hr₀ : Run Sys.Step (Sys.start c) tr₀ s₀)
    (hr : Run (Restrict (fun s ev => s.PrivateTimers ev ∧ s.OnTime ev) (MboxSys.Step mbox))
      (MboxSys.start mbox s₀ ptr allocated) tr s) : s.timed.Watching := by
  induction hr with
  | nil => exact .of_out fun _ => rfl
  | @snoc tr s s' ev hra hst ih =>
    obtain ⟨⟨hc, hontime⟩, hst⟩ := hst
    have ht := MboxSys.timing_run h hr₀ (fun _ _ => And.left) hra
    obtain ⟨e, htimed, hresume⟩ := ht.timed_step hc hst
    refine ih.step ht.inv htimed fun tm sg he hp hspc => ?_
    obtain rfl := hresume he
    by_contra hne
    refine hontime (fun hu => ?_) ⟨tm, hspc, Bool.eq_true_of_not_eq_false hne⟩
    cases (congrArg MboxPc.timed hu).symm.trans hp

/-- **A wait with a timeout has its timer armed**, in every run in which no call of `timer_add`
from these functions finds its tick elapsed: a task that is in state `TASK_WAITING` inside

* `sys_arch_sem_wait(sem, timeout)`, called by any number of tasks for any semaphores,
* `sys_arch_mbox_fetch(mbox, msg, timeout)`, called by any number of tasks,

with `timeout != 0` has the timer of its call on the queue `timers`. No other timer is aborted a second time
(`Sys.ServiceContract`): that could take this one off the queue. -/
theorem waits_have_timers (h : martosPre cfg = .ok c) :
    (∀ (tr : List (Move SemSys SemEvent)) (s : SemSys),
      Run (Restrict (fun s ev => s.Contract ev ∧ s.OnTime ev) SemSys.Step) (SemSys.start (Sys.start c)) tr s →
      ∀ t w, (s.wpc t).call = some w → w.timeout ≠ 0 → (s.sys.cs.core.task t).state = .waiting →
        w.timer ∈ s.sys.svc.timers ()) ∧
    (∀ (mbox : PortRef) (tr₀ : List (Move Sys SysEvent)) (s₀ : Sys) (ptr : MsgRef → VoidPtr)
        (allocated : MsgRef → Bool) (tr : List (Move MboxSys MboxEvent)) (s : MboxSys),
      Run Sys.Step (Sys.start c) tr₀ s₀ →
      Run (Restrict (fun s ev => s.PrivateTimers ev ∧ s.OnTime ev) (MboxSys.Step mbox))
        (MboxSys.start mbox s₀ ptr allocated) tr s →
      ∀ t f, (s.mpc t).fetching = some f → f.timeout ≠ 0 → (s.sys.cs.core.task t).state = .waiting →
        f.timer ∈ s.sys.svc.timers ()) := by
  constructor
  · intro tr s hr t w hw hz hs
    have ht := SemSys.timing_run h (fun _ _ => And.left) hr
    refine ht.inv.waiting_queued (SemSys.watching_run h hr) (t := t) ?_ (fun hp => ?_) hs
    · exact (SemPc.timed_timer _).trans (congrArg (Option.map SemWait.timer) hw)
    · exact SemPc.not_untimed hw hz hp
  · intro mbox tr₀ s₀ ptr allocated tr s hr₀ hr t f hf hz hs
    have ht := MboxSys.timing_run h hr₀ (fun _ _ => And.left) hr
    refine ht.inv.waiting_queued (MboxSys.watching_run h hr₀ hr) (t := t) ?_ (fun hp => ?_) hs
    · exact (MboxPc.timed_timer _).trans (congrArg (Option.map Fetch.timer) hf)
    · exact MboxPc.not_untimed hf hz hp

end

/-! ### Runs that can be replayed, with one caller -/

/-- The event uses no timer and no request, and takes the running task into no function. -/
def SysEvent.isPlain : SysEvent → Bool
  | .core _ => true
  | .call (.service (.semInit _ _)) => true
  | .call (.service (.semSignal _)) => true
  | .isr (.semSignal _) => true
  | .resume => true
  | .tim2 => true
  | _ => false

section

variable {e : SysEvent} {t u : TaskRef}

theorem SysEvent.isPlain.service (h : e.isPlain = true) {a : Service} (he : e.service = some a) :
    (∃ sem n, a = .semInit sem n) ∨ ∃ sem, a = .semSignal sem := by
  unfold SysEvent.isPlain at h
  split at h
  · cases he
  · cases he
    exact .inl ⟨_, _, rfl⟩
  · cases he
    exact .inr ⟨_, rfl⟩
  · cases he
    exact .inr ⟨_, rfl⟩
  · cases he
  · cases he
  · cases h

theorem SysEvent.isPlain.not_uses (h : e.isPlain = true) (tm : TimerRef) : ¬ e.Uses tm := by
  rintro ((rfl | ⟨x, rfl⟩) | rfl | rfl | hu | ⟨x, y, z, rfl⟩)
  · cases h
  · cases h
  · cases h
  · cases h
  · rcases SysEvent.isPlain.service h hu with ⟨sem, n, ha⟩ | ⟨sem, ha⟩ <;> cases ha
  · cases h

theorem SysEvent.isPlain.not_usesRequest (h : e.isPlain = true) (req : ReqRef) : ¬ e.UsesRequest req := by
  rintro (⟨sem, hu⟩ | ⟨value, rfl⟩)
  · unfold SysEvent.requests at hu
    split at hu
    · cases h
    · cases h
    · cases h
    · cases hu
  · cases h

theorem SysEvent.isPlain.not_moves (h : e.isPlain = true) (k : ServiceCall) (he : e = .call k) : ¬ k.Moves := by
  subst he
  cases k with
  | service a => exact id
  | _ => cases h

end

namespace SemSys

variable (t : TaskRef) (s : SemSys)

/-- Only task `t` calls `sys_arch_sem_wait`, and all other events are plain. -/
def Lone : SemEvent → Prop
  | .sys e => e.isPlain = true
  | .wait _ _ req timer => s.running = t ∧ timer ∉ s.sys.svc.timers () ∧ s.sys.reqAt req = none
  | .step => True

instance (ev : SemEvent) : Decidable (s.Lone t ev) := by
  cases ev <;> unfold Lone <;> infer_instance

/-- The other tasks are in their own code. -/
def OthersOut : Prop := ∀ u, u ≠ t → s.wpc u = .user ∧ s.sys.spc u = .user

variable {t s} {s' : SemSys} {ev : SemEvent}

theorem Lone.contract (hl : s.Lone t ev) (ho : s.OthersOut t) (hst : s.Step ev s') : s.Contract ev := by
  cases ev with
  | sys e => exact fun u w _ => ⟨SysEvent.isPlain.not_uses hl _, SysEvent.isPlain.not_usesRequest hl _⟩
  | wait sem timeout req timer =>
    obtain ⟨hrun, hout, hreq⟩ := hl
    cases hst.effect with
    | enters hu hp =>
      have huser (u : TaskRef) : s.wpc u = .user ∧ s.sys.spc u = .user := by
        by_cases hut : u = t
        · subst hut
          subst hrun
          exact ⟨hp, hu.2⟩
        · exact ho u hut
      refine ⟨fun u w hw => ?_, ⟨hout, fun u htm => ?_⟩, hreq⟩
      · rw [(huser u).1] at hw
        cases hw
      · rw [(huser u).2] at htm
        cases htm
  | step => trivial

theorem OthersOut.step (ho : s.OthersOut t) (h : Sound s.sys) (hl : s.Lone t ev) (hst : s.Step ev s') :
    s'.OthersOut t := by
  intro u hut
  have heff := hst.effect
  constructor
  · by_cases hur : u = s.running
    · subst hur
      have huser := (ho s.running hut).1
      cases heff with
      | @sys e sys hp hst =>
        refine Eq.trans (Function.update_self ..) ?_
        rcases s.afterSys_cases e with hsame | ⟨w, timerSignal, k, got, -, hp, -⟩
        · rw [hsame, huser]
        · cases huser.symm.trans hp
      | enters hu hp => exact absurd hl.1 hut
      | _ => exact absurd huser hst.in_call
    · rw [heff.wpc_of_ne hur]
      exact (ho u hut).1
  · rcases heff.below with hsame | ⟨e, hstep, he⟩
    · rw [hsame]
      exact (ho u hut).2
    · refine h.user_step hstep (ho u hut).2 fun hur k hk => ?_
      rcases he with rfl | ⟨w, -, hw, -⟩
      · exact SysEvent.isPlain.not_moves hl k hk
      · rw [(show s.wpc s.running = .user from (show u = s.running from hur) ▸ (ho u hut).1)] at hw
        cases hw

/-- A step with one caller meets the contract. -/
theorem lone_step {ok : SemSys → SemEvent → Prop} (h : s.Timing ∧ s.OthersOut t)
    (hst : Restrict (fun s ev => s.Lone t ev ∧ ok s ev) SemSys.Step s ev s') :
    Restrict (fun s ev => s.Contract ev ∧ ok s ev) SemSys.Step s ev s' ∧ s'.Timing ∧ s'.OthersOut t := by
  obtain ⟨ht, ho⟩ := h
  obtain ⟨⟨hl, hok⟩, hst⟩ := hst
  have hc := hl.contract ho hst
  exact ⟨⟨⟨hc, hok⟩, hst⟩, ht.step hc hst, ho.step ht.inv.sound hl hst⟩

/-- A run with one caller meets the contract. -/
theorem run_of_lone {cfg : Config} {c : Core} {ok : SemSys → SemEvent → Prop} {tr : List (Move SemSys SemEvent)}
    (h : martosPre cfg = .ok c)
    (hr : Run (Restrict (fun s ev => s.Lone t ev ∧ ok s ev) SemSys.Step) (SemSys.start (Sys.start c)) tr s) :
    Run (Restrict (fun s ev => s.Contract ev ∧ ok s ev) SemSys.Step) (SemSys.start (Sys.start c)) tr s ∧
      s.Timing ∧ s.OthersOut t :=
  hr.refine (P := fun s => s.Timing ∧ s.OthersOut t) ⟨.start h, fun _ _ => ⟨rfl, rfl⟩⟩ fun _ _ _ => lone_step

/-- Events that can be replayed are the events of a run that meets the contract. -/
theorem exists_run (t : TaskRef) (ok : SemSys → SemEvent → Prop) [∀ s ev, Decidable (ok s ev)] (es : List SemEvent)
    {p : SemSys → Bool} (h : (martosPre CoreSys.exampleConfig).toOption.any (fun c =>
      (replay (nextIf (fun s ev => s.Lone t ev ∧ ok s ev) SemSys.next) (SemSys.start (Sys.start c)) es).any p) = true) :
    ∃ c tr s, martosPre CoreSys.exampleConfig = .ok c ∧
      Run (Restrict (fun s ev => s.Contract ev ∧ ok s ev) SemSys.Step) (SemSys.start (Sys.start c)) tr s ∧
      p s = true := by
  obtain ⟨c, hc, h⟩ := (Option.any_eq_true ..).mp h
  obtain ⟨s, hs, hp⟩ := (Option.any_eq_true ..).mp h
  obtain ⟨tr, hr, -⟩ := Run.of_replay (restrict_of_nextIf fun _ _ _ => id) hs
  have hc := eq_ok_of_toOption hc
  exact ⟨c, tr, s, hc, (run_of_lone hc hr).1, hp⟩

end SemSys

namespace MboxSys

variable (t : TaskRef) (s : MboxSys)

/-- Only task `t` fetches, and all other events of the machine below are plain. -/
def Lone : MboxEvent → Prop
  | .sys e => e.isPlain = true
  | .fetch _ timer => s.running = t ∧ timer ∉ s.sys.svc.timers ()
  | _ => True

instance (ev : MboxEvent) : Decidable (s.Lone t ev) :=
  match ev with
  | .sys e => inferInstanceAs (Decidable (e.isPlain = true))
  | .fetch _ timer => inferInstanceAs (Decidable (s.running = t ∧ timer ∉ s.sys.svc.timers ()))
  | .post _ _ | .tryfetch | .free | .step => inferInstanceAs (Decidable True)

/-- The other tasks are in no fetch. -/
def OthersOut : Prop := ∀ u, u ≠ t → (s.mpc u).fetching = none ∧ s.sys.spc u = .user

variable {t s} {s' : MboxSys} {ev : MboxEvent} {mbox : PortRef}

theorem Lone.private (hl : s.Lone t ev) (ho : s.OthersOut t) (hst : s.Step mbox ev s') : s.PrivateTimers ev := by
  cases ev with
  | sys e => exact fun u f _ => SysEvent.isPlain.not_uses hl _
  | fetch timeout timer =>
    obtain ⟨hrun, hout⟩ := hl
    cases hst.effect with
    | fetch hu hp =>
      have huser (u : TaskRef) : (s.mpc u).fetching = none ∧ s.sys.spc u = .user := by
        by_cases hut : u = t
        · subst hut
          subst hrun
          rw [hp]
          exact ⟨rfl, hu.2⟩
        · exact ho u hut
      refine ⟨fun u f hf => ?_, ⟨hout, fun u htm => ?_⟩⟩
      · rw [(huser u).1] at hf
        cases hf
      · rw [(huser u).2] at htm
        cases htm
  | _ => trivial

/-- A task that is in no fetch comes into one by its call only. -/
theorem fetching_step (hst : s.Step mbox ev s') {u : TaskRef} (hu : (s.mpc u).fetching = none)
    (hev : ∀ timeout timer, ev = .fetch timeout timer → u ≠ s.running) : (s'.mpc u).fetching = none := by
  by_cases hur : u = s.running
  · subst hur
    have hself {p : MboxPc} (hs : s'.mpc = Function.update s.mpc s.running p) (hp : p.fetching = none) :
        (s'.mpc s.running).fetching = none := by
      rwa [hs, Function.update_self]
    have hnot {p : MboxPc} (hp : s.mpc s.running = p) (hf : p.fetching ≠ none) :
        (s'.mpc s.running).fetching = none := by
      rw [hp] at hu
      exact absurd hu hf
    cases hst.effect with
    | @sys e sys hp hst =>
      refine hself rfl ?_
      rcases s.afterSys_cases e with hsame | ⟨f, timerSignal, k, got, -, hp, -⟩
      · rw [hsame, hu]
      · exact absurd hu (by rw [hp]; nofun)
    | fetch hu hp => exact absurd rfl (hev _ _ rfl)
    | post hu hp => exact hself rfl rfl
    | tryfetch hu hp => exact hself rfl rfl
    | free hp hst => exact hself rfl rfl
    | sends hu hp hst => exact hself rfl rfl
    | setsTask hu hp hst => exact hnot hp nofun
    | allocates hu hp hz hc hst => exact hnot hp nofun
    | keepsSignal hu hp hz => exact hnot hp nofun
    | stores hu hp hz hst => exact hnot hp nofun
    | setsAction hu hp hst => exact hnot hp nofun
    | skipsTimer hu hp hz => exact hnot hp nofun
    | allocatesTimer hu hp hst hz => exact hnot hp nofun
    | setsTimer hu hp hst => exact hnot hp nofun
    | addsTimer hu hp hst => exact hnot hp nofun
    | waits hu hp hst => exact hnot hp nofun
    | gets hu hp hz hst => exact hnot hp nofun
    | timesOut hu hp hz ht => exact hnot hp nofun
    | reads hu hp => exact hnot hp nofun
    | abortsTimer hu hp hz hst => exact hnot hp nofun
    | returns hu hp hz => exact hself rfl rfl
    | freesTimer hu hp hst => exact hself rfl rfl
    | tryGets hu hp hst => exact hself rfl rfl
    | tryReads hu hp => exact hself rfl rfl
    | tryEmpty hu hp => exact hself rfl rfl
  · rwa [hst.effect.mpc_of_ne hur]

theorem OthersOut.step (ho : s.OthersOut t) (h : Sound s.sys) (hl : s.Lone t ev) (hst : s.Step mbox ev s') :
    s'.OthersOut t := by
  intro u hut
  refine ⟨fetching_step hst (ho u hut).1 fun timeout timer hev hur => ?_, ?_⟩
  · subst hev
    exact hut (hur.trans hl.1)
  · rcases hst.effect.below with hsame | ⟨e, hstep, he⟩
    · rw [hsame]
      exact (ho u hut).2
    · refine h.user_step hstep (ho u hut).2 fun hur k hk => ?_
      rcases he with rfl | ⟨-, hne⟩
      · exact SysEvent.isPlain.not_moves hl k hk
      · exact hne ((show u = s.running from hur) ▸ (ho u hut).1) k hk

/-- A step with one fetching task keeps its timers private. -/
theorem lone_step {ok : MboxSys → MboxEvent → Prop} (h : s.Timing ∧ s.OthersOut t)
    (hst : Restrict (fun s ev => s.Lone t ev ∧ ok s ev) (MboxSys.Step mbox) s ev s') :
    Restrict (fun s ev => s.PrivateTimers ev ∧ ok s ev) (MboxSys.Step mbox) s ev s' ∧ s'.Timing ∧ s'.OthersOut t := by
  obtain ⟨ht, ho⟩ := h
  obtain ⟨⟨hl, hok⟩, hst⟩ := hst
  have hc := hl.private ho hst
  exact ⟨⟨⟨hc, hok⟩, hst⟩, ht.step hc hst, ho.step ht.inv.sound hl hst⟩

/-- A run with one fetching task keeps its timers private. -/
theorem run_of_lone {cfg : Config} {c : Core} {ok : MboxSys → MboxEvent → Prop} {ptr : MsgRef → VoidPtr}
    {allocated : MsgRef → Bool} {tr : List (Move MboxSys MboxEvent)} (h : martosPre cfg = .ok c)
    (hr : Run (Restrict (fun s ev => s.Lone t ev ∧ ok s ev) (MboxSys.Step mbox))
      (MboxSys.start mbox (Sys.start c) ptr allocated) tr s) :
    Run (Restrict (fun s ev => s.PrivateTimers ev ∧ ok s ev) (MboxSys.Step mbox))
      (MboxSys.start mbox (Sys.start c) ptr allocated) tr s ∧ s.Timing ∧ s.OthersOut t :=
  hr.refine (P := fun s => s.Timing ∧ s.OthersOut t) ⟨.start h .nil, fun _ _ => ⟨rfl, rfl⟩⟩ fun _ _ _ => lone_step

end MboxSys

/-! ### The exact window -/

instance (s : Sys) : Decidable s.AddsElapsed :=
  decidable_of_iff ((match s.spc s.cs.core.running with
    | .timerAddCheck tm false => timerElapsed tm s.svc
    | _ => false) = true) (by
      unfold Sys.AddsElapsed
      split
      · next tm hp => exact ⟨fun hl => ⟨tm, hp, hl⟩, fun ⟨v, hv, hl⟩ => by cases hp.symm.trans hv; exact hl⟩
      · next hno => exact ⟨nofun, fun ⟨v, hv, hl⟩ => absurd hv (hno v)⟩)

instance (s : SemSys) (ev : SemEvent) : Decidable (s.OnTime ev) := by
  unfold SemSys.OnTime
  split <;> infer_instance

instance (s : MboxSys) (ev : MboxEvent) : Decidable (s.OnTime ev) := by
  unfold MboxSys.OnTime
  split <;> infer_instance

/-- The semaphore at address 7 is initialised with 0, and task 1 waits for it: it has called
`timer_add`. -/
def exampleSemWait (timeout : Ticks) : List SemEvent :=
  .sys (.call (.service (.semInit 7 0))) :: (SysEvent.semWaitExample.take 11).map .sys ++
    [.wait 7 timeout 3 0, .step, .step, .step, .step, .step, .step, .step]

/-- `timer_add` goes on, and then the task calls `signal_wait`. -/
def exampleSleep : List SemEvent := [.sys .resume, .sys .resume, .step]

/-- The theorem at a run in which task 1 waits for a semaphore with a timeout of five ticks, and at
one in which it fetches with that timeout. -/
theorem waits_have_timers_asleep :
    (∃ c tr s, martosPre CoreSys.exampleConfig = .ok c ∧
      Run (Restrict (fun s ev => s.Contract ev ∧ s.OnTime ev) SemSys.Step) (SemSys.start (Sys.start c)) tr s ∧
      (s.sys.cs.core.task 1).state = .waiting ∧ 0 ∈ s.sys.svc.timers ()) ∧
    ∃ c tr s, martosPre CoreSys.exampleConfig = .ok c ∧
      Run (Restrict (fun s ev => s.PrivateTimers ev ∧ s.OnTime ev) (MboxSys.Step 0))
        (MboxSys.start 0 (Sys.start c) (fun _ => 0) fun _ => false) tr s ∧
      (s.sys.cs.core.task 1).state = .waiting ∧ 0 ∈ s.sys.svc.timers () := by
  constructor
  · obtain ⟨c, tr, s, hc, hr, hp⟩ := SemSys.exists_run 1 SemSys.OnTime (exampleSemWait 5 ++ exampleSleep)
      (p := fun s => decide ((s.sys.cs.core.task 1).state = .waiting ∧ (s.wpc 1).call = some ⟨7, 5, 3, 0, 0⟩))
      (by decide +kernel)
    obtain ⟨hw, hcall⟩ := of_decide_eq_true hp
    exact ⟨c, tr, s, hc, hr, hw, (waits_have_timers hc).1 tr s hr 1 _ hcall (by decide) hw⟩
  · obtain ⟨c, tr, s, hc, hr, hp⟩ := MboxSys.exists_run 0 (fun s ev => s.Lone 1 ev ∧ s.OnTime ev)
      (exampleConsumer ++ [.fetch 5 0, .step, .step, .step, .step, .step, .step, .step, .sys .resume, .sys .resume,
        .step])
      (p := fun s => decide ((s.sys.cs.core.task 1).state = .waiting ∧ (s.mpc 1).fetching = some ⟨5, 0, 0⟩))
      (by decide +kernel)
    obtain ⟨hw, hfetch⟩ := of_decide_eq_true hp
    have hr := (MboxSys.run_of_lone hc hr).1
    exact ⟨c, tr, s, hc, hr, hw, (waits_have_timers hc).2 0 [] _ _ _ tr s .nil hr 1 _ hfetch (by decide) hw⟩

/-- The clock ticks between its two readings in `timer_add`, and task 1 then waits without a timer. -/
theorem wait_sleeps_without_timer : ¬ ∀ (cfg : Config) (c : Core) (tr : List (Move SemSys SemEvent)) (s : SemSys),
    martosPre cfg = .ok c → Run (Restrict SemSys.Contract SemSys.Step) (SemSys.start (Sys.start c)) tr s →
    ∀ t w, (s.wpc t).call = some w → w.timeout ≠ 0 → (s.sys.cs.core.task t).state = .waiting →
      w.timer ∈ s.sys.svc.timers () := by
  intro hall
  obtain ⟨c, tr, s, hc, hr, hp⟩ := SemSys.exists_run 1 (fun _ _ => True)
    (exampleSemWait 1 ++ [.sys .tim2, .sys .resume, .step])
    (p := fun s => decide ((s.sys.cs.core.task 1).state = .waiting ∧ (s.wpc 1).call = some ⟨7, 1, 3, 0, 0⟩ ∧
      0 ∉ s.sys.svc.timers ())) (by decide +kernel)
  obtain ⟨hw, hcall, hout⟩ := of_decide_eq_true hp
  exact hout (hall _ c tr s hc (hr.mono fun _ _ _ hs => ⟨hs.1.1, hs.2⟩) 1 _ hcall (by decide) hw)

end Martos
