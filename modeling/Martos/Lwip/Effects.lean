import Martos.Lwip.Mailbox

/-!
# What a step of the mailbox machine does

`MboxEffect` lists what a step can do: which statement of which mailbox function is run, and
which step of the machine below it is.

About the machine below: an event that does not use a port leaves its fields and its list
(`SysEffect.untouched`); an event that neither sends a task a certain signal, nor waits for
it, frees it or asks for it, leaves it pending or not as it was (`Sound.spares`), and
allocated (`Sound.has_step`).
-/

namespace Martos

open Checked Transition

section

variable {s s' : Sys} {e : SysEvent} {mbox : PortRef} {t : TaskRef} {b : Signals}

/-- What `task_init` does. -/
theorem Sys.Step.taskInit {u : TaskRef} {params : TaskParams} (hst : s.Step (.core (.call (.taskInit u params))) s') :
    ∃ context, s'.cs = { s.cs with core := s.cs.core.prepared u params context
                                   life := Function.update s.cs.life u .initialized } := by
  have hx := hst.2
  simp only [Sys.exec, CoreSys.exec, CoreSys.execCall, bind_eq_ok, pure_eq_ok] at hx
  obtain ⟨cs, ⟨c, hc, rfl⟩, rfl⟩ := hx
  obtain ⟨context, rfl⟩ := Core.exists_of_taskInit hc
  exact ⟨context, rfl⟩

theorem Sys.Calls.touches {a : Service} (hc : s.Calls e a) (h : a.Touches s.svc mbox) : s.Touches mbox e := by
  rcases hc.1 with ⟨rfl, -⟩ | ⟨rfl, -⟩ <;> exact h

/-- An event that does not use the port leaves its fields and its list. -/
theorem SysEffect.untouched (heff : SysEffect s e s') (hno : ¬ s.Touches mbox e) :
    s'.svc.port mbox = s.svc.port mbox ∧ s'.svc.messageList mbox = s.svc.messageList mbox := by
  cases heff with
  | @portInit p sg cs hu ha hst hsg =>
    have hne : mbox ≠ p := fun heq => hno heq.symm
    exact ⟨Function.update_of_ne hne .., Function.update_of_ne hne ..⟩
  | @got _ p hc =>
    have hne : mbox ≠ p := fun heq => hno (hc.touches heq.symm)
    exact ⟨rfl, Function.update_of_ne hne ..⟩
  | @sent _ p m cs hc hm ha hs =>
    have hne : mbox ≠ p := by
      rintro rfl
      rcases hc with hc | ⟨hc, hr⟩
      · exact hno (hc.touches (show mbox = mbox from rfl))
      · exact hno (hc.touches hr)
    exact ⟨rfl, Function.update_of_ne hne ..⟩
  | @write w hu hw =>
    cases w with
    | port p value =>
      have hne : mbox ≠ p := fun heq => hno heq.symm
      exact ⟨Function.update_of_ne hne .., rfl⟩
    | _ => exact ⟨rfl, rfl⟩
  | _ => exact ⟨rfl, rfl⟩

/-- `b` is no signal, or one that the task has allocated. -/
def Task.Has (k : Task) (b : Signals) : Prop :=
  b = 0 ∨ ∃ i, 1 ≤ i ∧ i < signalsWidth ∧ b = 1#16 <<< i ∧ k.sigAlloc.getLsbD i = true

/-- The event does nothing to the signal `b` of task `t`. -/
structure Sys.Spares (s : Sys) (t : TaskRef) (b : Signals) (e : SysEvent) : Prop where
  /-- It is not sent. -/
  sends : ∀ sg, (t, sg) ∈ s.sends e → sg &&& b = 0
  /-- The task does not begin to wait for it. -/
  waits : s.cs.core.running = t → ∀ sg, s.waitsFor e = some sg → sg &&& b = 0
  /-- It does not go on waiting for it. -/
  asleep : s.cs.core.running = t → e = .core .resume → ∀ sg, s.cs.Asleep t sg → sg &&& b = 0
  /-- It does not free it. -/
  frees : s.cs.core.running = t → ∀ holder sg, s.frees e = some (holder, sg) → sg &&& b = 0
  /-- It does not ask for it. -/
  asks : s.cs.core.running = t → ∀ holder n, e.allocates = some (holder, n) →
    n = -1 ∨ (1#16 <<< n.toNat) &&& b = 0

theorem and_comm_eq_zero {x y : Signals} (h : x &&& y = 0) : y &&& x = 0 := (BitVec.and_comm y x).trans h

/-- Signals other than `b` that come leave `b` alone. -/
theorem and_or_of_disjoint {b r x : Signals} (h : b &&& x = 0) : b &&& (r ||| x) = b &&& r := by
  rw [BitVec.and_or_distrib_left, h]
  exact BitVec.or_zero

/-- Signals other than `b` that are cleared leave `b` alone. -/
theorem and_and_not_of_disjoint {b r x : Signals} (h : b &&& x = 0) : b &&& (r &&& ~~~x) = b &&& r := by
  refine BitVec.eq_of_getLsbD_eq fun i hi => ?_
  have hbit : (b &&& x).getLsbD i = false := by rw [h]; exact BitVec.getLsbD_zero
  have hnot : (~~~x).getLsbD i = !x.getLsbD i := by rw [BitVec.getLsbD_not, decide_eq_true hi, Bool.true_and]
  rw [BitVec.getLsbD_and] at hbit
  rw [BitVec.getLsbD_and, BitVec.getLsbD_and, BitVec.getLsbD_and, hnot]
  cases hb : b.getLsbD i with
  | false => rfl
  | true =>
    rw [hb, Bool.true_and] at hbit
    rw [hbit, Bool.not_false, Bool.and_true]

/-- A bit that is not allocated is another one. -/
theorem Task.Has.disjoint_of_free {k : Task} (hb : k.Has b) {i : ℕ} (hi : i < signalsWidth)
    (hfree : k.sigAlloc.getLsbD i = false) : b &&& (1#16 <<< i) = 0 := by
  rcases hb with rfl | ⟨j, -, hj, rfl, halloc⟩
  · exact BitVec.zero_and
  · by_contra hne
    have hbit := (mask_and_ne_zero hj (1#16 <<< i)).mp hne
    rw [getLsbD_mask hi, decide_eq_true_eq] at hbit
    subst hbit
    rw [hfree] at halloc
    cases halloc

/-- What `signal_allocate` leaves in `target` is not the signal `b`. -/
theorem Core.Balanced.signalAllocate_spares {c c' : Core} (hc : c.Balanced) {n signum : ℤ}
    (hcall : signalAllocate n c = .ok (signum, c')) (hb : (c.task c.running).Has b)
    (hn : n = -1 ∨ (1#16 <<< n.toNat) &&& b = 0) :
    ∃ i < signalsWidth, c' = c.allocated (1#16 <<< i) ∧ b &&& (1#16 <<< i) = 0 := by
  rcases hc.signalAllocate_ok hcall with ⟨i, hi, -, rfl, hfree⟩ | ⟨-, hi, rfl, -⟩
  · exact ⟨i, hi, rfl, hb.disjoint_of_free hi hfree⟩
  · refine ⟨n.toNat, hi, rfl, ?_⟩
    rcases hn with rfl | hn
    · -- bit 0 is no allocated signal
      rcases hb with rfl | ⟨j, hj, hj', rfl, -⟩
      · exact BitVec.zero_and
      · by_contra hne
        have hbit := (mask_and_ne_zero hj' _).mp hne
        rw [getLsbD_mask (by decide), decide_eq_true_eq] at hbit
        simp at hbit
        omega
    · exact and_comm_eq_zero hn

/-- What a step does to `sig_alloc` of a task. -/
inductive AllocChange (s : Sys) (e : SysEvent) (s' : Sys) (t : TaskRef) : Prop where
  /-- Nothing. -/
  | keeps (hs : (s'.cs.core.task t).sigAlloc = (s.cs.core.task t).sigAlloc)
  /-- The task allocates a bit, or asks for one that it has. -/
  | allocates (target : Signals) (ht : t = s.cs.core.running) (he : e.allocates ≠ none)
      (hs : (s'.cs.core.task t).sigAlloc = (s.cs.core.task t).sigAlloc ||| target)
  /-- The task frees bits. -/
  | frees (holder : Holder) (sg : Signals) (ht : t = s.cs.core.running) (he : s.frees e = some (holder, sg))
      (hs : (s'.cs.core.task t).sigAlloc = (s.cs.core.task t).sigAlloc &&& ~~~sg)

/-- **Only the running task's `sig_alloc` changes**, when it allocates or frees. -/
theorem Sound.allocChange (h : Sound s) (hst : s.Step e s') (hlife : s.cs.life t ≠ .fresh) : AllocChange s e s' t := by
  cases hal : e.allocates with
  | some p =>
    obtain ⟨signum, c, hall⟩ := hst.allocates hal
    obtain ⟨target, rfl⟩ : ∃ target, c = s.cs.core.allocated target := by
      rcases h.nested.balanced.signalAllocate_ok hall.call with ⟨i, -, -, hc, -⟩ | ⟨-, -, hc, -⟩
      · exact ⟨_, hc⟩
      · exact ⟨_, hc⟩
    by_cases ht : t = s.cs.core.running
    · refine .allocates target ht (by simp [hal]) ?_
      rw [hall.cs, ht, Core.allocated_self]
    · refine .keeps ?_
      rw [hall.cs, show (s.cs.core.allocated target).task t = s.cs.core.task t from Core.modTask_of_ne ht]
  | none =>
    cases hf : s.frees e with
    | some p =>
      by_cases ht : t = s.cs.core.running
      · refine .frees p.1 p.2 ht hf ?_
        rw [(hst.frees hf).2, ht, Core.freed_self]
      · refine .keeps ?_
        rw [(hst.frees hf).2, show (s.cs.core.freed p.2).task t = s.cs.core.task t from Core.modTask_of_ne ht]
    | none =>
      refine .keeps ?_
      by_cases hi : ∃ u params, e = .core (.call (.taskInit u params))
      · obtain ⟨u, params, rfl⟩ := hi
        have hut : t ≠ u := by
          rintro rfl
          exact hlife hst.1.1.2.2
        obtain ⟨context, hcs⟩ := hst.taskInit
        rw [hcs]
        simp [Core.prepared, hut]
      · exact (h.sameAlloc hst hal hf fun u params he => hi ⟨u, params, he⟩).alloc t

/-- The signals of a task that neither allocates nor frees stay allocated, and no others. -/
theorem Sound.sigAlloc_step (h : Sound s) (hst : s.Step e s') (hlife : s.cs.life t ≠ .fresh)
    (ht : t = s.cs.core.running → e.allocates = none ∧ s.frees e = none) :
    (s'.cs.core.task t).sigAlloc = (s.cs.core.task t).sigAlloc := by
  cases h.allocChange hst hlife with
  | keeps hs => exact hs
  | allocates target hr he hs => exact absurd (ht hr).1 he
  | frees holder sg hr he hs => cases he.symm.trans (ht hr).2

/-- A bit that is allocated stays so until the task frees it. -/
theorem Sound.allocated_step (h : Sound s) (hst : s.Step e s') {j : ℕ} (hj : j < signalsWidth)
    (ha : (s.cs.core.task t).sigAlloc.getLsbD j = true) (hlife : s.cs.life t ≠ .fresh)
    (hfrees : s.cs.core.running = t → ∀ holder sg, s.frees e = some (holder, sg) → sg.getLsbD j = false) :
    (s'.cs.core.task t).sigAlloc.getLsbD j = true := by
  cases h.allocChange hst hlife with
  | keeps hs => rwa [hs]
  | allocates target ht he hs => rw [hs, BitVec.getLsbD_or, ha, Bool.true_or]
  | frees holder sg ht he hs =>
    have hlt : j < 16 := hj
    rw [hs, BitVec.getLsbD_and, BitVec.getLsbD_not, ha, hfrees ht.symm holder sg he]
    simp [hlt]

/-- `SIGF_SINGLE` is allocated in every task that has been initialised. -/
theorem Sound.sigfSingle_step (h : Sound s) (hst : s.Step e s')
    (hs : s.cs.life t ≠ .fresh → (s.cs.core.task t).sigAlloc.getLsbD 0 = true) (hlife' : s'.cs.life t ≠ .fresh) :
    (s'.cs.core.task t).sigAlloc.getLsbD 0 = true := by
  by_cases hlife : s.cs.life t = .fresh
  · -- it has just been initialised
    by_cases hi : ∃ params, e = .core (.call (.taskInit t params))
    · obtain ⟨params, rfl⟩ := hi
      obtain ⟨context, hcs⟩ := hst.taskInit
      rw [hcs]
      simp [Core.prepared, sigfSingle]
    · refine absurd ?_ hlife'
      cases hal : e.allocates with
      | some p =>
        obtain ⟨signum, c, hall⟩ := hst.allocates hal
        rw [hall.cs]
        exact hlife
      | none =>
        cases hf : s.frees e with
        | some p =>
          rw [(hst.frees hf).2]
          exact hlife
        | none =>
          by_cases hu : ∃ u params, e = .core (.call (.taskInit u params))
          · obtain ⟨u, params, rfl⟩ := hu
            obtain ⟨context, hcs⟩ := hst.taskInit
            have htu : t ≠ u := by
              rintro rfl
              exact hi ⟨params, rfl⟩
            rw [hcs]
            exact (Function.update_of_ne htu ..).trans hlife
          · exact ((h.sameAlloc hst hal hf fun u params he => hu ⟨u, params, he⟩).fresh t).mpr hlife
  · refine h.allocated_step hst (by decide) (hs hlife) hlife fun _ holder sg hf => ?_
    have hz := (hst.frees hf).1
    by_contra hne
    have hbit : (sg &&& sigfSingle).getLsbD 0 = true := by
      rw [BitVec.getLsbD_and, Bool.eq_true_of_not_eq_false hne]
      rfl
    rw [hz] at hbit
    cases hbit

/-- `SIGF_SINGLE` is allocated in every task, in every reachable state. -/
theorem sigfSingle_run {cfg : Config} {c : Core} {tr : List (Move Sys SysEvent)} (h : martosPre cfg = .ok c)
    (hr : Run Sys.Step (Sys.start c) tr s) (t : TaskRef) (hlife : s.cs.life t ≠ .fresh) :
    (s.cs.core.task t).sigAlloc.getLsbD 0 = true := by
  induction hr with
  | nil => exact ((Held.start h).alloc t hlife 0).mpr (.inl rfl)
  | snoc hra hst ih => exact (Sound.run h hra).sigfSingle_step hst ih hlife

/-- A task keeps an allocated signal which it does not free. -/
theorem Sound.has_step (h : Sound s) (hst : s.Step e s') (hb : (s.cs.core.task t).Has b)
    (hlife : b ≠ 0 → s.cs.life t ≠ .fresh)
    (hfrees : s.cs.core.running = t → ∀ holder sg, s.frees e = some (holder, sg) → sg &&& b = 0) :
    (s'.cs.core.task t).Has b := by
  by_cases hz : b = 0
  · exact .inl hz
  obtain ⟨j, hj, hj', rfl, halloc⟩ := hb.resolve_left hz
  refine .inr ⟨j, hj, hj', rfl, h.allocated_step hst hj' halloc (hlife hz) fun hrun holder sg hf => ?_⟩
  by_contra hne
  exact (mask_and_ne_zero hj' sg).mpr (by simpa using hne) (and_comm_eq_zero (hfrees hrun holder sg hf))

/-- **An event that does nothing to a signal of a task leaves it pending or not**, as it was. -/
theorem Sound.spares (h : Sound s) (hst : s.Step e s') (hb : (s.cs.core.task t).Has b)
    (hlife : b ≠ 0 → s.cs.life t ≠ .fresh) (hsp : s.Spares t b e) :
    b &&& (s'.cs.core.task t).sigRecvd = b &&& (s.cs.core.task t).sigRecvd := by
  by_cases hz : b = 0
  · subst hz
    exact BitVec.zero_and.trans BitVec.zero_and.symm
  cases h.signalsChange (h.effect hst) t with
  | keeps x hx hr hw =>
    rw [hr]
    refine and_or_of_disjoint (BitVec.eq_of_getLsbD_eq fun i _ => ?_)
    cases hxi : x.getLsbD i with
    | false => simp [BitVec.getLsbD_and, hxi]
    | true =>
      obtain ⟨sg, hmem, hsg⟩ := (hx i).mp hxi
      have hbit : (sg &&& b).getLsbD i = false := by rw [hsp.sends sg hmem]; exact BitVec.getLsbD_zero
      rw [BitVec.getLsbD_and, hsg, Bool.true_and] at hbit
      simp [BitVec.getLsbD_and, hbit]
  | blocks sg ht he hz' hr hw => rw [hr]
  | takes sg ht he hz' hr hw =>
    have hdis : sg &&& b = 0 := by
      rcases he with he | ⟨he, hasl⟩
      · exact hsp.waits ht.symm sg he
      · exact hsp.asleep ht.symm he sg hasl
    rw [hr]
    refine and_and_not_of_disjoint ?_
    rw [← BitVec.and_assoc, and_comm_eq_zero hdis]
    exact BitVec.zero_and
  | clears hc x hr hw =>
    rcases hc with ⟨ht, -, hne⟩ | ⟨params, rfl⟩
    · -- the bit handed out is another one
      obtain ⟨⟨holder, n⟩, ha⟩ := Option.ne_none_iff_exists'.mp hne
      obtain ⟨signum, c, hall⟩ := hst.allocates ha
      subst ht
      obtain ⟨i, hi, rfl, hbi⟩ := h.nested.balanced.signalAllocate_spares hall.call hb (hsp.asks rfl holder n ha)
      rw [hall.cs, Core.allocated_self]
      exact and_and_not_of_disjoint hbi
    · exact absurd hst.1.1.2.2 (hlife hz)

end

/-! ### The steps of the machine -/

/-- What a step can do: the state before it, the event, the state after it. -/
inductive MboxEffect (mbox : PortRef) (s : MboxSys) : MboxEvent → MboxSys → Prop where
  /-- The machine below moves. -/
  | sys {e : SysEvent} {sys : Sys} (hp : e.byTask = true → s.mpc s.running = .user) (hst : s.sys.Step e sys) :
    MboxEffect mbox s (.sys e) { s.goto (s.afterSys e) with sys := sys }
  /-- `sys_mbox_post` has got its block. -/
  | post {m : MsgRef} {msg : VoidPtr} (hu : s.sys.Calling) (hp : s.mpc s.running = .user) :
    MboxEffect mbox s (.post m msg) { s.goto (.postSend m) with
      ptr := Function.update s.ptr m msg, allocated := Function.update s.allocated m true }
  /-- `sys_arch_mbox_fetch` begins. -/
  | fetch {timeout : Ticks} {timer : TimerRef} (hu : s.sys.Calling) (hp : s.mpc s.running = .user) :
    MboxEffect mbox s (.fetch timeout timer) (s.goto (.fetchTask ⟨timeout, timer, s.sys.svc.timerNow⟩))
  /-- `sys_arch_mbox_tryfetch` begins. -/
  | tryfetch (hu : s.sys.Calling) (hp : s.mpc s.running = .user) :
    MboxEffect mbox s .tryfetch (s.goto .tryGet)
  /-- `sys_mbox_free`. -/
  | free {sys : Sys} (hp : s.mpc s.running = .user)
      (hst : s.sys.Step (.core (.call (.signalFree (s.port mbox).signal))) sys) :
    MboxEffect mbox s .free { s.goto .user with sys := sys, freed := true }
  /-- `sys_mbox_post` sends its message. -/
  | sends {m : MsgRef} {sys : Sys} (hu : s.sys.Calling) (hp : s.mpc s.running = .postSend m)
      (hst : s.sys.Step (.call (.service (.msgportSend mbox m))) sys) :
    MboxEffect mbox s .step { s.goto .user with sys := sys }
  /-- The caller becomes the owner of the port. -/
  | setsTask {f : Fetch} {sys : Sys} (hu : s.sys.Calling) (hp : s.mpc s.running = .fetchTask f)
      (hst : s.sys.Step (.call (.write (.port mbox { s.port mbox with task := some s.running }))) sys) :
    MboxEffect mbox s .step { s.goto (.fetchTest f) with sys := sys }
  /-- There is no signal yet: one is allocated. -/
  | allocates {f : Fetch} {i : ℕ} {c : Core} {sys : Sys} (hu : s.sys.Calling) (hp : s.mpc s.running = .fetchTest f)
      (hz : (s.port mbox).signal = 0) (hc : signalAllocate (-1) s.sys.cs.core = .ok ((i : ℤ), c))
      (hst : s.sys.Step (.core (.call (.signalAllocate (-1)))) sys) :
    MboxEffect mbox s .step { s.goto (.fetchStore f (1#16 <<< i)) with sys := sys }
  /-- There is a signal already. -/
  | keepsSignal {f : Fetch} (hu : s.sys.Calling) (hp : s.mpc s.running = .fetchTest f)
      (hz : (s.port mbox).signal ≠ 0) :
    MboxEffect mbox s .step (s.goto (.fetchAction f))
  /-- The new signal is stored. -/
  | stores {f : Fetch} {signal : Signals} {sys : Sys} (hu : s.sys.Calling) (hp : s.mpc s.running = .fetchStore f signal)
      (hz : signal ≠ 0) (hst : s.sys.Step (.call (.write (.port mbox { s.port mbox with signal := signal }))) sys) :
    MboxEffect mbox s .step { s.goto (.fetchAction f) with sys := sys }
  /-- From now on posts send the signal. -/
  | setsAction {f : Fetch} {sys : Sys} (hu : s.sys.Calling) (hp : s.mpc s.running = .fetchAction f)
      (hst : s.sys.Step (.call (.write (.port mbox { s.port mbox with action := .signal }))) sys) :
    MboxEffect mbox s .step { s.goto (.fetchTimer f) with sys := sys }
  /-- There is no timeout. -/
  | skipsTimer {f : Fetch} (hu : s.sys.Calling) (hp : s.mpc s.running = .fetchTimer f) (hz : f.timeout = 0) :
    MboxEffect mbox s .step (s.goto (.fetchWait f 0))
  /-- `timer_allocate`. -/
  | allocatesTimer {f : Fetch} {sys : Sys} (hu : s.sys.Calling) (hp : s.mpc s.running = .fetchTimer f)
      (hst : s.sys.Step (.call (.timerAllocate f.timer)) sys) (hz : f.timeout ≠ 0) :
    MboxEffect mbox s .step { s.goto (.fetchSetup f) with sys := sys }
  /-- The timer is set up. -/
  | setsTimer {f : Fetch} {sys : Sys} (hu : s.sys.Calling) (hp : s.mpc s.running = .fetchSetup f)
      (hst : s.sys.Step (.call (.write (.timer f.timer .delay f.timeout (s.sys.svc.timer f.timer).tick))) sys) :
    MboxEffect mbox s .step { s.goto (.fetchAdd f) with sys := sys }
  /-- `timer_add` begins. -/
  | addsTimer {f : Fetch} {sys : Sys} (hu : s.sys.Calling) (hp : s.mpc s.running = .fetchAdd f)
      (hst : s.sys.Step (.call (.timerAdd f.timer)) sys) :
    MboxEffect mbox s .step { s.goto (.fetchWait f (s.sys.svc.timer f.timer).signal) with sys := sys }
  /-- `signal_wait` is called. -/
  | waits {f : Fetch} {timerSignal : Signals} {sys : Sys} (hu : s.sys.Calling)
      (hp : s.mpc s.running = .fetchWait f timerSignal)
      (hst : s.sys.Step (.core (.call (.signalWait (timerSignal ||| (s.port mbox).signal)))) sys) :
    MboxEffect mbox s .step
      { s.goto (s.waited (.call (.signalWait (timerSignal ||| (s.port mbox).signal))) f timerSignal) with sys := sys }
  /-- A signalled fetch takes a message. -/
  | gets {f : Fetch} {timerSignal gotSignals : Signals} {sys : Sys} (hu : s.sys.Calling)
      (hp : s.mpc s.running = .fetchGot f timerSignal gotSignals) (hz : gotSignals &&& (s.port mbox).signal ≠ 0)
      (hst : s.sys.Step (.call (.service (.msgportGet mbox))) sys) :
    MboxEffect mbox s .step { s.goto (.fetchRead f timerSignal (s.messages mbox).head?) with sys := sys }
  /-- The fetch has timed out. -/
  | timesOut {f : Fetch} {timerSignal gotSignals : Signals} (hu : s.sys.Calling)
      (hp : s.mpc s.running = .fetchGot f timerSignal gotSignals) (hz : gotSignals &&& (s.port mbox).signal = 0)
      (ht : gotSignals &&& timerSignal ≠ 0) :
    MboxEffect mbox s .step (s.goto (.fetchAbort f timerSignal sysArchTimeout))
  /-- The payload is read and the block freed. -/
  | reads {f : Fetch} {timerSignal : Signals} {m : MsgRef} (hu : s.sys.Calling)
      (hp : s.mpc s.running = .fetchRead f timerSignal (some m)) :
    MboxEffect mbox s .step ((s.goto (.fetchAbort f timerSignal (s.sys.svc.timerNow - f.start))).memFree m)
  /-- `timer_abort`. -/
  | abortsTimer {f : Fetch} {timerSignal : Signals} {endTime : Ticks} {sys : Sys} (hu : s.sys.Calling)
      (hp : s.mpc s.running = .fetchAbort f timerSignal endTime) (hz : timerSignal ≠ 0)
      (hst : s.sys.Step (.call (.service (.timerAbort f.timer))) sys) :
    MboxEffect mbox s .step { s.goto (.fetchFree f endTime) with sys := sys }
  /-- A fetch without a timeout returns. -/
  | returns {f : Fetch} {timerSignal : Signals} {endTime : Ticks} (hu : s.sys.Calling)
      (hp : s.mpc s.running = .fetchAbort f timerSignal endTime) (hz : timerSignal = 0) :
    MboxEffect mbox s .step (s.goto .user)
  /-- `timer_free`, and the fetch returns. -/
  | freesTimer {f : Fetch} {endTime : Ticks} {sys : Sys} (hu : s.sys.Calling)
      (hp : s.mpc s.running = .fetchFree f endTime) (hst : s.sys.Step (.call (.timerFree f.timer)) sys) :
    MboxEffect mbox s .step { s.goto .user with sys := sys }
  /-- `sys_arch_mbox_tryfetch` takes a message if there is one. -/
  | tryGets {sys : Sys} (hu : s.sys.Calling) (hp : s.mpc s.running = .tryGet)
      (hst : s.sys.Step (.call (.service (.msgportGet mbox))) sys) :
    MboxEffect mbox s .step { s.goto (.tryRead (s.messages mbox).head?) with sys := sys }
  /-- The payload is read and the block freed. -/
  | tryReads {m : MsgRef} (hu : s.sys.Calling) (hp : s.mpc s.running = .tryRead (some m)) :
    MboxEffect mbox s .step ((s.goto .user).memFree m)
  /-- There was no message. -/
  | tryEmpty (hu : s.sys.Calling) (hp : s.mpc s.running = .tryRead none) :
    MboxEffect mbox s .step (s.goto .user)

section

variable {mbox : PortRef} {s s' : MboxSys} {ev : MboxEvent}

theorem MboxSys.act_eq_some {e : SysEvent} {p : MboxPc} (h : s.act e p = some s') :
    ∃ sys, s.sys.Step e sys ∧ s' = { s.goto p with sys := sys } := by
  obtain ⟨sys, hsys, rfl⟩ := Option.map_eq_some_iff.mp h
  exact ⟨sys, Sys.step_of_next hsys, rfl⟩

theorem MboxSys.execStep_effect (hu : s.sys.Calling) (h : s.execStep mbox = some s') : MboxEffect mbox s .step s' := by
  unfold MboxSys.execStep at h
  split at h
  · cases h
  · next m hp =>
    obtain ⟨sys, hst, rfl⟩ := MboxSys.act_eq_some h
    exact .sends hu hp hst
  · next f hp =>
    obtain ⟨sys, hst, rfl⟩ := MboxSys.act_eq_some h
    exact .setsTask hu hp hst
  · next f hp =>
    by_cases hz : (s.port mbox).signal = 0
    · rw [if_pos hz] at h
      cases hc : signalAllocate (-1) s.sys.cs.core with
      | error e => simp [hc] at h
      | ok r =>
        obtain ⟨signum, c⟩ := r
        simp only [hc] at h
        by_cases hn : 0 ≤ signum
        · rw [if_pos hn] at h
          obtain ⟨i, rfl⟩ := Int.eq_ofNat_of_zero_le hn
          obtain ⟨sys, hst, rfl⟩ := MboxSys.act_eq_some h
          exact .allocates hu hp hz hc hst
        · rw [if_neg hn] at h
          cases h
    · rw [if_neg hz] at h
      cases h
      exact .keepsSignal hu hp hz
  · next f signal hp =>
    by_cases hz : signal = 0
    · rw [if_pos hz] at h
      cases h
    · rw [if_neg hz] at h
      obtain ⟨sys, hst, rfl⟩ := MboxSys.act_eq_some h
      exact .stores hu hp hz hst
  · next f hp =>
    obtain ⟨sys, hst, rfl⟩ := MboxSys.act_eq_some h
    exact .setsAction hu hp hst
  · next f hp =>
    by_cases hz : f.timeout = 0
    · rw [if_pos hz] at h
      cases h
      exact .skipsTimer hu hp hz
    · rw [if_neg hz] at h
      obtain ⟨sys, hst, rfl⟩ := MboxSys.act_eq_some h
      exact .allocatesTimer hu hp hst hz
  · next f hp =>
    obtain ⟨sys, hst, rfl⟩ := MboxSys.act_eq_some h
    exact .setsTimer hu hp hst
  · next f hp =>
    obtain ⟨sys, hst, rfl⟩ := MboxSys.act_eq_some h
    exact .addsTimer hu hp hst
  · next f timerSignal hp =>
    obtain ⟨sys, hst, rfl⟩ := MboxSys.act_eq_some h
    exact .waits hu hp hst
  · cases h
  · next f timerSignal gotSignals hp =>
    by_cases hz : gotSignals &&& (s.port mbox).signal ≠ 0
    · rw [if_pos hz] at h
      obtain ⟨sys, hst, rfl⟩ := MboxSys.act_eq_some h
      exact .gets hu hp hz hst
    · rw [if_neg hz] at h
      by_cases ht : gotSignals &&& timerSignal ≠ 0
      · rw [if_pos ht] at h
        cases h
        exact .timesOut hu hp (not_not.mp hz) ht
      · rw [if_neg ht] at h
        cases h
  · next f timerSignal m hp =>
    cases m with
    | none => cases h
    | some m =>
      cases h
      exact .reads hu hp
  · next f timerSignal endTime hp =>
    by_cases hz : timerSignal ≠ 0
    · rw [if_pos hz] at h
      obtain ⟨sys, hst, rfl⟩ := MboxSys.act_eq_some h
      exact .abortsTimer hu hp hz hst
    · rw [if_neg hz] at h
      cases h
      exact .returns hu hp (not_not.mp hz)
  · next f endTime hp =>
    obtain ⟨sys, hst, rfl⟩ := MboxSys.act_eq_some h
    exact .freesTimer hu hp hst
  · next hp =>
    obtain ⟨sys, hst, rfl⟩ := MboxSys.act_eq_some h
    exact .tryGets hu hp hst
  · next m hp =>
    cases m with
    | none =>
      cases h
      exact .tryEmpty hu hp
    | some m =>
      cases h
      exact .tryReads hu hp

/-- **Every step has one of these effects.** -/
theorem MboxSys.Step.effect (h : s.Step mbox ev s') : MboxEffect mbox s ev s' := by
  unfold MboxSys.Step at h
  cases ev with
  | sys e =>
    simp only [MboxSys.next] at h
    by_cases hp : e.byTask = true ∧ s.mpc s.running ≠ .user
    · rw [if_pos hp] at h
      cases h
    · rw [if_neg hp] at h
      obtain ⟨sys, hst, rfl⟩ := MboxSys.act_eq_some h
      exact .sys (fun hb => by_contra fun hne => hp ⟨hb, hne⟩) hst
  | post m msg =>
    simp only [MboxSys.next] at h
    by_cases hp : s.sys.Calling ∧ s.mpc s.running = .user
    · rw [if_pos hp] at h
      cases h
      exact .post hp.1 hp.2
    · rw [if_neg hp] at h
      cases h
  | fetch timeout timer =>
    simp only [MboxSys.next] at h
    by_cases hp : s.sys.Calling ∧ s.mpc s.running = .user
    · rw [if_pos hp] at h
      cases h
      exact .fetch hp.1 hp.2
    · rw [if_neg hp] at h
      cases h
  | tryfetch =>
    simp only [MboxSys.next] at h
    by_cases hp : s.sys.Calling ∧ s.mpc s.running = .user
    · rw [if_pos hp] at h
      cases h
      exact .tryfetch hp.1 hp.2
    · rw [if_neg hp] at h
      cases h
  | free =>
    simp only [MboxSys.next] at h
    by_cases hp : s.mpc s.running = .user
    · rw [if_pos hp] at h
      obtain ⟨u, hu, rfl⟩ := Option.map_eq_some_iff.mp h
      obtain ⟨sys, hst, rfl⟩ := MboxSys.act_eq_some hu
      exact .free hp hst
    · rw [if_neg hp] at h
      cases h
  | step =>
    simp only [MboxSys.next] at h
    by_cases hu : s.sys.Calling
    · rw [if_pos hu] at h
      exact MboxSys.execStep_effect hu h
    · rw [if_neg hu] at h
      cases h

end

end Martos
