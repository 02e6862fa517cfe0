import Martos.Lwip.Cleanup

/-!
# Whose signal is the mailbox's?

The numbers of signals are a task's own, but a mailbox has one field for its signal, whoever fetches.
`sys_arch_mbox_fetch` makes the calling task the owner of the port each time, and allocates a signal
only if there is none yet: a second task that fetches waits for a bit that the first has allocated, and
which is free in its own `sig_alloc` or belongs to something else there. `sys_mbox_free` gives the bit
back in the `sig_alloc` of the task that calls it.

The holders of the tasks' bits are read off the moves (`MboxSys.holdings`), with the mailbox as the holder
of its signal. `Belongs` is the invariant: the signal is held by the mailbox for the task that has allocated
it, and only this task goes on with it. It is kept where the signal is found by that task alone
(`MboxSys.Paired`), as it is where the mailbox has a single consumer (`MboxSys.paired_of_single`). Then a
task that sleeps in a fetch has the bit in its `sig_alloc`, held by the mailbox and nothing else
(`mbox_signal_belongs`).
-/

namespace Martos

open Checked Transition

namespace MboxSys

variable (mbox : PortRef)

/-! ### The ledger -/

/-- The bit that is handed out in a statement, and to whom: the mailbox holds its signal. -/
def handsOutAt (s : MboxSys) : MboxPc → Option (Holder × ℕ)
  | .fetchTest _ =>
    if (s.port mbox).signal = 0 then
      (s.sys.handsOut (.core (.call (.signalAllocate (-1))))).map fun p => (.port mbox, p.2)
    else none
  | .fetchTimer f => if f.timeout = 0 then none else s.sys.handsOut (.call (.timerAllocate f.timer))
  | _ => none

/-- The bit that is handed out in an event, and to whom. -/
def handsOut (s : MboxSys) : MboxEvent → Option (Holder × ℕ)
  | .sys e => s.sys.handsOut e
  | .step => s.handsOutAt mbox (s.mpc s.running)
  | _ => none

/-- For whom a statement calls `signal_free`, and with which bits. -/
def freesAt (s : MboxSys) : MboxPc → Option (Holder × Signals)
  | .fetchFree f _ => some (.timer f.timer, (s.sys.svc.timer f.timer).signal)
  | _ => none

/-- For whom an event calls `signal_free`, and with which bits. -/
def frees (s : MboxSys) : MboxEvent → Option (Holder × Signals)
  | .sys e => s.sys.frees e
  | .free => some (.port mbox, (s.port mbox).signal)
  | .step => s.freesAt (s.mpc s.running)
  | _ => none

/-- The holders after a move. -/
def holdingsAfter (H : Holdings) (m : Move MboxSys MboxEvent) : Holdings :=
  match m.pre.handsOut mbox m.event with
  | some p => H.add m.pre.running p.1 p.2
  | none =>
    match m.pre.frees mbox m.event with
    | some p => H.remove m.pre.running p.1 p.2
    | none => H

/-- The holders after a list of moves, where they were `H` before. -/
def holdings (H : Holdings) (tr : List (Move MboxSys MboxEvent)) : Holdings := tr.foldl (holdingsAfter mbox) H

/-- Code other than the mailbox functions frees a bit only for its holder. -/
def FreesOwn (H : Holdings) (tr : List (Move MboxSys MboxEvent)) : Prop :=
  ∀ tr₁ m tr₂, tr = tr₁ ++ m :: tr₂ → ∀ e, m.event = .sys e → ∀ holder sg, m.pre.sys.frees e = some (holder, sg) →
    ∀ i, sg.getLsbD i = true → (holder, i) ∈ holdings mbox H tr₁ m.pre.running

/-! ### Who goes on with the signal -/

/-- The task for which a move allocates the mailbox's signal. -/
def allocator (m : Move MboxSys MboxEvent) : Option TaskRef :=
  match m.event, m.pre.mpc m.pre.running with
  | .step, .fetchTest _ => if (m.pre.port mbox).signal = 0 then some m.pre.running else none
  | _, _ => none

/-- The task that has allocated the mailbox's signal. -/
def owner (tr : List (Move MboxSys MboxEvent)) : Option TaskRef := latest (allocator mbox) tr

/-- A fetch goes on with the signal that it finds in the mailbox, or the mailbox is freed with one. -/
def FindsSignal (m : Move MboxSys MboxEvent) : Prop :=
  (m.pre.port mbox).signal ≠ 0 ∧
    (m.event = .free ∨ m.event = .step ∧ ∃ f, m.pre.mpc m.pre.running = .fetchTest f)

/-- Only the task that has allocated the signal fetches with it, or frees it. -/
def Paired (tr : List (Move MboxSys MboxEvent)) : Prop :=
  ∀ tr₁ m tr₂, tr = tr₁ ++ m :: tr₂ → FindsSignal mbox m → owner mbox tr₁ = some m.pre.running

/-- `sys_mbox_free` is called once, and no fetch begins after it. -/
def LastFree (s : MboxSys) : MboxEvent → Prop
  | .fetch _ _ => s.freed = false
  | .free => s.freed = false
  | _ => True

end MboxSys

/-! ### The ledger is right -/

section

variable {mbox : PortRef} {s s' : MboxSys} {ev : MboxEvent} {H : Holdings} {t : TaskRef}

theorem MboxSys.holdingsAfter_none (ho : s.handsOut mbox ev = none) (hf : s.frees mbox ev = none) :
    MboxSys.holdingsAfter mbox H ⟨s, ev, s'⟩ = H := by
  simp only [MboxSys.holdingsAfter, ho, hf]

/-- What a holder of the task has kept. -/
theorem MboxSys.mem_holdingsAfter {holder : Holder} {i : ℕ} (hm : (holder, i) ∈ H t)
    (ho : ∀ p, s.handsOut mbox ev = some p → p.1.replaced holder = holder)
    (hf : ∀ sg, s.frees mbox ev = some (holder, sg) → t = s.running → sg.getLsbD i = false) :
    (holder, i) ∈ MboxSys.holdingsAfter mbox H ⟨s, ev, s'⟩ t := by
  unfold MboxSys.holdingsAfter
  dsimp only
  cases hout : s.handsOut mbox ev with
  | some p => exact Holdings.mem_add.mpr (.inr ⟨holder, hm, ho p hout⟩)
  | none =>
    cases hfree : s.frees mbox ev with
    | none => exact hm
    | some p =>
      refine Holdings.mem_remove.mpr ⟨hm, fun ⟨ht, hh, hb⟩ => ?_⟩
      rw [hf p.2 (by rw [hfree, hh]) ht] at hb
      cases hb

/-- The mailbox gets the bit that a fetch allocates. -/
theorem MboxSys.handsOut_port {f : Fetch} {i : ℕ} {c : Core} (hp : s.mpc s.running = .fetchTest f)
    (hz : (s.port mbox).signal = 0) (hc : signalAllocate (-1) s.sys.cs.core = .ok ((i : ℤ), c)) :
    s.handsOut mbox .step = some (.port mbox, i) := by
  have hout := Sys.handsOut_eq (e := .core (.call (.signalAllocate (-1)))) rfl hc
  rw [if_neg (by omega)] at hout
  refine (congrArg (s.handsOutAt mbox) hp).trans ((if_pos hz).trans ?_)
  rw [hout]
  rfl

/-- **A step keeps the holders and `sig_alloc` together.** -/
theorem MboxEffect.held_step (heff : MboxEffect mbox s ev s') (h : Sound s.sys) (hh : Held H s.sys)
    (hown : ∀ holder sg, s.frees mbox ev = some (holder, sg) → ∀ i, sg.getLsbD i = true → (holder, i) ∈ H s.running) :
    Held (MboxSys.holdingsAfter mbox H ⟨s, ev, s'⟩) s'.sys := by
  have hsame (hs : s'.sys = s.sys) (ho : s.handsOut mbox ev = none) (hf : s.frees mbox ev = none) :
      Held (MboxSys.holdingsAfter mbox H ⟨s, ev, s'⟩) s'.sys := by
    rwa [MboxSys.holdingsAfter_none ho hf, hs]
  have hout {p : MboxPc} (hp : s.mpc s.running = p) : s.handsOut mbox .step = s.handsOutAt mbox p :=
    congrArg (s.handsOutAt mbox) hp
  have hfree {p : MboxPc} (hp : s.mpc s.running = p) : s.frees mbox .step = s.freesAt p := congrArg s.freesAt hp
  -- a statement that neither allocates nor frees
  have hplain {e : SysEvent} (hst : s.sys.Step e s'.sys) (ho : s.handsOut mbox ev = none) (hf : s.frees mbox ev = none)
      (ha : e.allocates = none) (hfe : s.sys.frees e = none) :
      Held (MboxSys.holdingsAfter mbox H ⟨s, ev, s'⟩) s'.sys := by
    rw [MboxSys.holdingsAfter_none ho hf]
    have hstep := hh.step h hst (by rw [hfe]; nofun)
    unfold Holdings.after at hstep
    dsimp only at hstep
    rwa [Sys.handsOut_eq_none ha, hfe] at hstep
  cases heff with
  | sys hp hst => exact hh.step h hst hown
  | post hu hp => exact hsame rfl rfl rfl
  | fetch hu hp => exact hsame rfl rfl rfl
  | tryfetch hu hp => exact hsame rfl rfl rfl
  | free hp hst =>
    obtain ⟨hs, hcs⟩ := hst.frees (show s.sys.frees _ = some (.direct, _) from rfl)
    exact hh.freed h hs (hown _ _ rfl) hcs fun tm => (h.effect hst).signal_eq nofun
  | sends hu hp hst => exact hplain hst (hout hp) (hfree hp) rfl rfl
  | setsTask hu hp hst => exact hplain hst (hout hp) (hfree hp) rfl rfl
  | @allocates f i c sys hu hp hz hc hst =>
    obtain ⟨signum, c', hall⟩ := hst.allocates (h := .direct) (n := -1) rfl
    obtain ⟨rfl, rfl⟩ := Prod.mk.inj (Except.ok.inj (hc.symm.trans hall.call))
    rcases h.nested.balanced.signalAllocate_ok hc with ⟨j, hj, hij, rfl, hfree⟩ | ⟨hneg, -⟩
    · obtain rfl : i = j := by omega
      unfold MboxSys.holdingsAfter
      dsimp only
      rw [MboxSys.handsOut_port hp hz hc]
      exact hh.allocated h hj hfree hall.cs (fun tm _ => (h.effect hst).signal_eq nofun) nofun
    · omega
  | keepsSignal hu hp hz => exact hsame rfl ((hout hp).trans (if_neg hz)) (hfree hp)
  | stores hu hp hz hst => exact hplain hst (hout hp) (hfree hp) rfl rfl
  | setsAction hu hp hst => exact hplain hst (hout hp) (hfree hp) rfl rfl
  | skipsTimer hu hp hz => exact hsame rfl ((hout hp).trans (if_pos hz)) (hfree hp)
  | @allocatesTimer f sys hu hp hst hz =>
    have hstep := hh.step h hst nofun
    have hnew : s.handsOut mbox .step = s.sys.handsOut (.call (.timerAllocate f.timer)) := (hout hp).trans (if_neg hz)
    unfold Holdings.after at hstep
    unfold MboxSys.holdingsAfter
    dsimp only
    rw [hnew, show s.frees mbox .step = none from hfree hp]
    exact hstep
  | setsTimer hu hp hst => exact hplain hst (hout hp) (hfree hp) rfl rfl
  | addsTimer hu hp hst => exact hplain hst (hout hp) (hfree hp) rfl rfl
  | waits hu hp hst => exact hplain hst (hout hp) (hfree hp) rfl rfl
  | gets hu hp hz hst => exact hplain hst (hout hp) (hfree hp) rfl rfl
  | timesOut hu hp hz ht => exact hsame rfl (hout hp) (hfree hp)
  | reads hu hp => exact hsame rfl (hout hp) (hfree hp)
  | abortsTimer hu hp hz hst => exact hplain hst (hout hp) (hfree hp) rfl rfl
  | returns hu hp hz => exact hsame rfl (hout hp) (hfree hp)
  | @freesTimer f endTime sys hu hp hst =>
    have hback : s.frees mbox .step = some (.timer f.timer, (s.sys.svc.timer f.timer).signal) := hfree hp
    have hstep := hh.step h hst fun holder sg hf => hown holder sg (hback.trans hf)
    unfold Holdings.after at hstep
    unfold MboxSys.holdingsAfter
    dsimp only
    rw [show s.handsOut mbox .step = none from hout hp, hback]
    exact hstep
  | tryGets hu hp hst => exact hplain hst (hout hp) (hfree hp) rfl rfl
  | tryReads hu hp => exact hsame rfl (hout hp) (hfree hp)
  | tryEmpty hu hp => exact hsame rfl (hout hp) (hfree hp)

/-! ### The mailbox's signal -/

/-- The fetch has the mailbox's signal. -/
def MboxPc.past : MboxPc → Bool
  | .fetchAction _ => true
  | .fetchTimer _ => true
  | .fetchSetup _ => true
  | .fetchAdd _ => true
  | .fetchWait _ _ => true
  | .fetchWaiting _ _ => true
  | .fetchGot _ _ _ => true
  | .fetchRead _ _ _ => true
  | .fetchAbort _ _ _ => true
  | .fetchFree _ _ => true
  | _ => false

theorem MboxPc.fetching_of_past {p : MboxPc} (h : p.past = true) : p.fetching ≠ none := by
  cases p <;> first | exact Option.some_ne_none _ | cases h

/-- What a step does to the mailbox's signal, and to the fetches that have it. -/
inductive BitChange (mbox : PortRef) (s : MboxSys) (ev : MboxEvent) (s' : MboxSys) : Prop where
  /-- Nothing. -/
  | keeps (hs : (s'.port mbox).signal = (s.port mbox).signal) (ha : MboxSys.allocator mbox ⟨s, ev, s'⟩ = none)
      (hp : ∀ t, (s'.mpc t).past = true → (s.mpc t).past = true)
      (hst : ∀ t f signal, s'.mpc t = .fetchStore f signal → s.mpc t = .fetchStore f signal)
  /-- A fetch goes on with it. -/
  | finds {f : Fetch} (he : ev = .step) (hp : s.mpc s.running = .fetchTest f) (hz : (s.port mbox).signal ≠ 0)
      (hs' : s' = s.goto (.fetchAction f))
  /-- A fetch allocates one. -/
  | allocates {f : Fetch} {i : ℕ} (he : ev = .step) (hp : s.mpc s.running = .fetchTest f)
      (hz : (s.port mbox).signal = 0) (hi : i < signalsWidth) (ho : s.handsOut mbox .step = some (.port mbox, i))
      (hs : (s'.port mbox).signal = 0) (hmpc : s'.mpc = Function.update s.mpc s.running (.fetchStore f (1#16 <<< i)))
  /-- A fetch stores the one that it has allocated. -/
  | stores {f : Fetch} {signal : Signals} (he : ev = .step) (hp : s.mpc s.running = .fetchStore f signal)
      (hs : (s'.port mbox).signal = signal) (hmpc : s'.mpc = Function.update s.mpc s.running (.fetchAction f))

/-- **What a step does to the mailbox's signal.** -/
theorem MboxEffect.bitChange (heff : MboxEffect mbox s ev s') (h : Sound s.sys) (ho : s.OneFetch mbox ev) :
    BitChange mbox s ev s' := by
  have hport {e : SysEvent} (hst : s.sys.Step e s'.sys) (hw : ∀ value, e ≠ .call (.write (.port mbox value)))
      (hi : e ≠ .call (.msgportInit mbox)) : (s'.port mbox).signal = (s.port mbox).signal :=
    congrArg MsgPort.signal ((h.effect hst).port_kept hw hi)
  have hwrite {value : MsgPort} (hst : s.sys.Step (.call (.write (.port mbox value))) s'.sys) :
      (s'.port mbox).signal = value.signal := by
    rw [MboxSys.port, hst.write_eq]
    exact congrArg MsgPort.signal (Function.update_self ..)
  have hkeep {p q : MboxPc} (hs : (s'.port mbox).signal = (s.port mbox).signal) (hp : s.mpc s.running = p)
      (hmpc : s'.mpc = Function.update s.mpc s.running q)
      (hq : (∀ f, p = .fetchTest f → ev ≠ .step) ∧ (q.past = true → p.past = true) ∧
        ∀ f signal, q = .fetchStore f signal → p = .fetchStore f signal) : BitChange mbox s ev s' := by
    refine .keeps hs ?_ (fun t ht => ?_) fun t f signal ht => ?_
    · unfold MboxSys.allocator
      dsimp only
      rw [hp]
      split
      · next f => exact absurd rfl (hq.1 f rfl)
      · rfl
    · by_cases hr : t = s.running
      · rw [hr, hp]
        rw [hmpc, hr, Function.update_self] at ht
        exact hq.2.1 ht
      · rwa [hmpc, Function.update_of_ne hr] at ht
    · by_cases hr : t = s.running
      · rw [hr, hp]
        rw [hmpc, hr, Function.update_self] at ht
        exact hq.2.2 f signal ht
      · rwa [hmpc, Function.update_of_ne hr] at ht
  cases heff with
  | @sys e sys hp hst =>
    have hs := hport hst (fun value he => ho (.inl ⟨value, he⟩)) fun he => ho (.inr he)
    rcases s.afterSys_cases e with hsame | ⟨f, timerSignal, c, got, -, hp, -, hp'⟩
    · exact hkeep hs rfl rfl ⟨by simp, by rw [hsame]; exact id, by rw [hsame]; exact fun _ _ => id⟩
    · exact hkeep hs hp rfl ⟨by simp, fun _ => rfl, by simp [hp']⟩
  | post hu hp => exact hkeep rfl hp rfl ⟨by simp, id, by simp⟩
  | fetch hu hp => exact hkeep rfl hp rfl ⟨by simp, id, by simp⟩
  | tryfetch hu hp => exact hkeep rfl hp rfl ⟨by simp, id, by simp⟩
  | free hp hst => exact hkeep (hport hst (by simp) (by simp)) hp rfl ⟨by simp, id, by simp⟩
  | sends hu hp hst => exact hkeep (hport hst (by simp) (by simp)) hp rfl ⟨by simp, id, by simp⟩
  | setsTask hu hp hst => exact hkeep (hwrite hst :) hp rfl ⟨by simp, id, by simp⟩
  | @allocates f i c sys hu hp hz hc hst =>
    rcases h.nested.balanced.signalAllocate_ok hc with ⟨j, hj, hij, -⟩ | ⟨hneg, -⟩
    · obtain rfl : i = j := by omega
      exact .allocates rfl hp hz hj (MboxSys.handsOut_port hp hz hc) ((hport hst (by simp) (by simp)).trans hz) rfl
    · omega
  | keepsSignal hu hp hz => exact .finds rfl hp hz rfl
  | stores hu hp hz hst => exact .stores rfl hp (hwrite hst) rfl
  | setsAction hu hp hst => exact hkeep (hwrite hst :) hp rfl ⟨by simp, fun _ => rfl, by simp⟩
  | skipsTimer hu hp hz => exact hkeep rfl hp rfl ⟨by simp, fun _ => rfl, by simp⟩
  | allocatesTimer hu hp hst hz => exact hkeep (hport hst (by simp) (by simp)) hp rfl ⟨by simp, fun _ => rfl, by simp⟩
  | setsTimer hu hp hst => exact hkeep (hport hst (by simp) (by simp)) hp rfl ⟨by simp, fun _ => rfl, by simp⟩
  | addsTimer hu hp hst => exact hkeep (hport hst (by simp) (by simp)) hp rfl ⟨by simp, fun _ => rfl, by simp⟩
  | waits hu hp hst =>
    refine hkeep (hport hst (by simp) (by simp)) hp rfl ⟨by simp, fun _ => rfl, fun f signal hq => ?_⟩
    unfold MboxSys.waited at hq
    split at hq <;> cases hq
  | gets hu hp hz hst => exact hkeep (hport hst (by simp) (by simp)) hp rfl ⟨by simp, fun _ => rfl, by simp⟩
  | timesOut hu hp hz ht => exact hkeep rfl hp rfl ⟨by simp, fun _ => rfl, by simp⟩
  | reads hu hp => exact hkeep rfl hp rfl ⟨by simp, fun _ => rfl, by simp⟩
  | abortsTimer hu hp hz hst => exact hkeep (hport hst (by simp) (by simp)) hp rfl ⟨by simp, fun _ => rfl, by simp⟩
  | returns hu hp hz => exact hkeep rfl hp rfl ⟨by simp, fun _ => rfl, by simp⟩
  | freesTimer hu hp hst => exact hkeep (hport hst (by simp) (by simp)) hp rfl ⟨by simp, fun _ => rfl, by simp⟩
  | tryGets hu hp hst => exact hkeep (hport hst (by simp) (by simp)) hp rfl ⟨by simp, id, by simp⟩
  | tryReads hu hp => exact hkeep rfl hp rfl ⟨by simp, id, by simp⟩
  | tryEmpty hu hp => exact hkeep rfl hp rfl ⟨by simp, id, by simp⟩

/-! ### What stays in the ledger -/

theorem Holder.replaced_port {h : Holder} {p : PortRef} : h.replaced (.port p) = .port p := by
  cases h <;> simp [Holder.replaced]

theorem Holder.replaced_of_ne {h : Holder} {tm : TimerRef} (hne : h ≠ .timer tm) :
    h.replaced (.timer tm) = .timer tm := by
  cases h with
  | timer u => exact if_neg (Ne.symm hne)
  | _ => rfl

/-- A bit that belongs to a port is not freed below. -/
theorem Sys.frees_ne_port {a : Sys} {e : SysEvent} {p : PortRef} {sg : Signals} : a.frees e ≠ some (.port p, sg) := by
  intro hf
  unfold Sys.frees at hf
  split at hf
  · cases hf
  · cases hf
  · split at hf <;> cases hf
  · cases hf

theorem MboxSys.freesAt_eq_some {p : MboxPc} {holder : Holder} {sg : Signals} (h : s.freesAt p = some (holder, sg)) :
    ∃ f endTime, p = .fetchFree f endTime ∧ holder = .timer f.timer ∧ sg = (s.sys.svc.timer f.timer).signal := by
  unfold MboxSys.freesAt at h
  split at h
  · next f endTime =>
    obtain ⟨rfl, rfl⟩ := Prod.mk.inj (Option.some.inj h)
    exact ⟨f, endTime, rfl, rfl, rfl⟩
  · cases h

theorem MboxSys.handsOutAt_eq_some {p : MboxPc} {q : Holder × ℕ} (h : s.handsOutAt mbox p = some q) :
    q.1 = .port mbox ∨ ∃ f, p = .fetchTimer f := by
  unfold MboxSys.handsOutAt at h
  split at h
  · split_ifs at h
    obtain ⟨x, -, rfl⟩ := Option.map_eq_some_iff.mp h
    exact .inl rfl
  · next f => exact .inr ⟨f, rfl⟩
  · cases h

/-- The mailbox keeps its bit until it is freed. -/
theorem MboxSys.port_mem_step {i : ℕ} (hm : (.port mbox, i) ∈ H t)
    (hf : ev = .free → t = s.running → (s.port mbox).signal.getLsbD i = false) :
    (.port mbox, i) ∈ MboxSys.holdingsAfter mbox H ⟨s, ev, s'⟩ t := by
  refine MboxSys.mem_holdingsAfter hm (fun _ _ => Holder.replaced_port) fun sg hfrees ht => ?_
  cases ev with
  | sys e => exact absurd hfrees Sys.frees_ne_port
  | free =>
    obtain ⟨-, rfl⟩ := Prod.mk.inj (Option.some.inj hfrees)
    exact hf rfl ht
  | step =>
    obtain ⟨f, endTime, -, hh, -⟩ := MboxSys.freesAt_eq_some hfrees
    cases hh
  | _ => cases hfrees

theorem MboxPc.fetching_of_timer {p : MboxPc} {tm : TimerRef} (h : p.timer = some tm) :
    ∃ f, p.fetching = some f ∧ f.timer = tm := by
  have hif {f : Fetch} {timerSignal : Signals} (h : (if timerSignal = 0 then none else some f.timer) = some tm) :
      f.timer = tm := by
    split_ifs at h
    exact Option.some.inj h
  cases p with
  | fetchSetup f => exact ⟨f, rfl, Option.some.inj h⟩
  | fetchAdd f => exact ⟨f, rfl, Option.some.inj h⟩
  | fetchWait f timerSignal => exact ⟨f, rfl, hif h⟩
  | fetchWaiting f timerSignal => exact ⟨f, rfl, hif h⟩
  | fetchGot f timerSignal gotSignals => exact ⟨f, rfl, hif h⟩
  | fetchRead f timerSignal m => exact ⟨f, rfl, hif h⟩
  | fetchAbort f timerSignal endTime => exact ⟨f, rfl, hif h⟩
  | fetchFree f endTime => exact ⟨f, rfl, Option.some.inj h⟩
  | _ => cases h

/-- A task in a fetch has its timer before a step, and does not free it, or has just allocated it. -/
theorem MboxEffect.timer_step (heff : MboxEffect mbox s ev s') {tm : TimerRef} (htm : (s'.mpc t).timer = some tm) :
    ((s.mpc t).timer = some tm ∧ (t = s.running → ev = .step → s.freesAt (s.mpc t) = none)) ∨
    (t = s.running ∧ ev = .step ∧ ∃ f, s.mpc t = .fetchTimer f ∧ f.timeout ≠ 0 ∧ f.timer = tm ∧
      s.sys.Step (.call (.timerAllocate tm)) s'.sys) := by
  have hmove {p q : MboxPc} (hp : s.mpc s.running = p) (hmpc : s'.mpc = Function.update s.mpc s.running q)
      (hq : q.timer = some tm → p.timer = some tm ∧ (ev = .step → s.freesAt p = none)) :
      (s.mpc t).timer = some tm ∧ (t = s.running → ev = .step → s.freesAt (s.mpc t) = none) := by
    by_cases ht : t = s.running
    · subst ht
      rw [hmpc, Function.update_self] at htm
      rw [hp]
      obtain ⟨htm, hfree⟩ := hq htm
      exact ⟨htm, fun _ => hfree⟩
    · rw [hmpc, Function.update_of_ne ht] at htm
      exact ⟨htm, fun hr => absurd hr ht⟩
  cases heff with
  | @sys e sys hp hst =>
    refine .inl (hmove rfl rfl fun hq => ⟨?_, nofun⟩)
    rcases s.afterSys_cases e with hsame | ⟨f, timerSignal, c, got, -, hp, -, hp'⟩
    · rwa [hsame] at hq
    · rw [hp'] at hq
      rwa [hp]
  | post hu hp => exact .inl (hmove hp rfl nofun)
  | fetch hu hp => exact .inl (hmove hp rfl nofun)
  | tryfetch hu hp => exact .inl (hmove hp rfl nofun)
  | free hp hst => exact .inl (hmove hp rfl nofun)
  | sends hu hp hst => exact .inl (hmove hp rfl nofun)
  | setsTask hu hp hst => exact .inl (hmove hp rfl nofun)
  | allocates hu hp hz hc hst => exact .inl (hmove hp rfl nofun)
  | keepsSignal hu hp hz => exact .inl (hmove hp rfl nofun)
  | stores hu hp hz hst => exact .inl (hmove hp rfl nofun)
  | setsAction hu hp hst => exact .inl (hmove hp rfl nofun)
  | skipsTimer hu hp hz => exact .inl (hmove hp rfl nofun)
  | @allocatesTimer f sys hu hp hst hz =>
    by_cases ht : t = s.running
    · subst ht
      obtain rfl : f.timer = tm := by
        change (Function.update s.mpc s.running (.fetchSetup f) s.running).timer = some tm at htm
        rw [Function.update_self] at htm
        exact Option.some.inj htm
      exact .inr ⟨rfl, rfl, f, hp, hz, rfl, hst⟩
    · have hold : (Function.update s.mpc s.running (.fetchSetup f) t).timer = some tm := htm
      rw [Function.update_of_ne ht] at hold
      exact .inl ⟨hold, fun hr => absurd hr ht⟩
  | setsTimer hu hp hst => exact .inl (hmove hp rfl fun hq => ⟨hq, fun _ => rfl⟩)
  | @addsTimer f sys hu hp hst =>
    refine .inl (hmove hp rfl fun hq => ⟨?_, fun _ => rfl⟩)
    obtain ⟨g, hg, rfl⟩ := MboxPc.fetching_of_timer hq
    obtain rfl := Option.some.inj hg
    rfl
  | @waits f timerSignal sys hu hp hst =>
    refine .inl (hmove hp rfl fun hq => ⟨?_, fun _ => rfl⟩)
    unfold MboxSys.waited at hq
    split at hq <;> exact hq
  | gets hu hp hz hst => exact .inl (hmove hp rfl fun hq => ⟨hq, fun _ => rfl⟩)
  | timesOut hu hp hz ht => exact .inl (hmove hp rfl fun hq => ⟨hq, fun _ => rfl⟩)
  | reads hu hp => exact .inl (hmove hp rfl fun hq => ⟨hq, fun _ => rfl⟩)
  | abortsTimer hu hp hz hst => exact .inl (hmove hp rfl fun hq => ⟨(if_neg hz).trans hq, fun _ => rfl⟩)
  | returns hu hp hz => exact .inl (hmove hp rfl nofun)
  | freesTimer hu hp hst => exact .inl (hmove hp rfl nofun)
  | tryGets hu hp hst => exact .inl (hmove hp rfl nofun)
  | tryReads hu hp => exact .inl (hmove hp rfl nofun)
  | tryEmpty hu hp => exact .inl (hmove hp rfl nofun)

/-- **The timer of a fetch has a bit** until the fetch frees it. -/
theorem MboxSys.Tidy.timers_step (h : s.Tidy mbox) (hc : s.PrivateTimers ev) (hst : s.Step mbox ev s')
    (ht : ∀ t tm, (s.mpc t).timer = some tm → ∃ i, (.timer tm, i) ∈ H t) {tm : TimerRef}
    (htm : (s'.mpc t).timer = some tm) : ∃ i, (.timer tm, i) ∈ MboxSys.holdingsAfter mbox H ⟨s, ev, s'⟩ t := by
  rcases hst.effect.timer_step htm with ⟨hold, hnot⟩ | ⟨rfl, rfl, f, hp, hz, rfl, hal⟩
  · obtain ⟨i, hm⟩ := ht t tm hold
    obtain ⟨f, hf, rfl⟩ := MboxPc.fetching_of_timer hold
    have hne : (s.mpc t).fetching ≠ none := by
      rw [hf]
      exact Option.some_ne_none _
    refine ⟨i, MboxSys.mem_holdingsAfter hm (fun p hout => Holder.replaced_of_ne fun hh => ?_) fun sg hfrees hr => ?_⟩
    · cases ev with
      | sys e =>
        cases ha : e.allocates with
        | none => cases (Sys.handsOut_eq_none ha).symm.trans hout
        | some q =>
          have hq : q.1 = .timer f.timer := by
            simp only [MboxSys.handsOut, Sys.handsOut, ha, Option.bind_some] at hout
            split at hout
            · split_ifs at hout
              rw [← hh, ← Option.some.inj hout]
            · cases hout
          exact SysEvent.not_allocates (hc t f hf) q.2 (by rw [ha, ← hq])
      | step =>
        rcases MboxSys.handsOutAt_eq_some hout with hport | ⟨g, hg⟩
        · cases hport.symm.trans hh
        · -- only one task is in a fetch
          obtain rfl : t = s.running := by
            by_contra hr
            have hnone := h.alone t hne s.running (Ne.symm hr)
            rw [hg] at hnone
            cases hnone
          rw [hg] at hold
          cases hold
      | _ => cases hout
    · subst hr
      cases ev with
      | sys e =>
        rcases hst.effect.fetching_cases hne with he | ⟨e', he, hb⟩
        · cases he
        · obtain rfl := MboxEvent.sys.inj he
          cases hfrees.symm.trans (h.timing.inv.frees_eq_none (MboxSys.timed_timer hf) hb)
      | free =>
        cases hfrees
      | step => cases hfrees.symm.trans (hnot rfl rfl)
      | _ => cases hfrees
  · obtain ⟨signum, c, hall⟩ := hal.allocates (h := .timer f.timer) (n := -1) rfl
    have hout : s.handsOut mbox .step = some (.timer f.timer, signum.toNat) := by
      refine (congrArg (s.handsOutAt mbox) hp).trans ((if_neg hz).trans ?_)
      rw [Sys.handsOut_eq (e := .call (.timerAllocate f.timer)) rfl hall.call, if_neg (hall.timer _ rfl).1]
    refine ⟨signum.toNat, ?_⟩
    unfold MboxSys.holdingsAfter
    dsimp only
    rw [hout]
    exact Holdings.mem_add.mpr (.inl ⟨rfl, rfl, rfl⟩)

/-! ### The invariant -/

/-- The bits of the mailbox and of the timers of fetches belong to the tasks that go on with them, where
task `o` has allocated the mailbox's signal. -/
structure Belongs (mbox : PortRef) (H : Holdings) (o : Option TaskRef) (s : MboxSys) : Prop where
  /-- The holders agree with the tasks' bits. -/
  held : Held H s.sys
  /-- The fetches. -/
  tidy : s.Tidy mbox
  /-- The signal is held by the mailbox until it is freed. -/
  port : (s.port mbox).signal ≠ 0 → ∃ u i, o = some u ∧ i < signalsWidth ∧ (s.port mbox).signal = 1#16 <<< i ∧
    ((.port mbox, i) ∈ H u ∨ s.freed = true ∧ (s.mpc u).fetching = none)
  /-- Only the task that has allocated it goes on with it. -/
  past : ∀ t, (s.mpc t).past = true → o = some t ∧ (s.port mbox).signal ≠ 0
  /-- A fetch stores the signal that it has allocated. -/
  store : ∀ t f signal, s.mpc t = .fetchStore f signal → o = some t ∧ (s.port mbox).signal = 0 ∧
    ∃ i, i < signalsWidth ∧ signal = 1#16 <<< i ∧ (.port mbox, i) ∈ H t
  /-- The timers. -/
  timers : ∀ t tm, (s.mpc t).timer = some tm → ∃ i, (.timer tm, i) ∈ H t

theorem MboxEffect.freed_step (heff : MboxEffect mbox s ev s') : (s.freed = true → s'.freed = true) ∧
    (ev = .free → s'.freed = true ∧ s'.mpc s.running = .user) := by
  cases heff with
  | free hp hst => exact ⟨fun _ => rfl, fun _ => ⟨rfl, Function.update_self ..⟩⟩
  | _ => exact ⟨id, nofun⟩

variable {o : Option TaskRef}

/-- The fetches and `sys_mbox_free` give back what is theirs. -/
theorem Belongs.frees_own (hb : Belongs mbox H o s) (hl : s.LastFree ev)
    (hpaired : MboxSys.FindsSignal mbox ⟨s, ev, s'⟩ → o = some s.running)
    (hown : ∀ e, ev = .sys e → ∀ holder sg, s.sys.frees e = some (holder, sg) → ∀ i, sg.getLsbD i = true →
      (holder, i) ∈ H s.running)
    {holder : Holder} {sg : Signals} (hf : s.frees mbox ev = some (holder, sg)) {i : ℕ} (hi : sg.getLsbD i = true) :
    (holder, i) ∈ H s.running := by
  cases ev with
  | sys e => exact hown e rfl holder sg hf i hi
  | free =>
    obtain ⟨rfl, rfl⟩ := Prod.mk.inj (Option.some.inj hf)
    have hne : (s.port mbox).signal ≠ 0 := by
      intro hz
      rw [hz] at hi
      exact absurd hi (by simp)
    obtain ⟨u, j, ho, hj, hsig, hor⟩ := hb.port hne
    obtain rfl := Option.some.inj (ho.symm.trans (hpaired ⟨hne, .inl rfl⟩))
    rw [hsig, getLsbD_mask hj, decide_eq_true_eq] at hi
    subst hi
    refine hor.resolve_right fun hfreed => ?_
    cases hfreed.1.symm.trans hl
  | step =>
    obtain ⟨f, endTime, hp, rfl, rfl⟩ := MboxSys.freesAt_eq_some hf
    obtain ⟨j, hm⟩ := hb.timers s.running f.timer (by rw [hp]; rfl)
    rw [hb.held.timer _ _ _ hm, getLsbD_mask (hb.held.range _ _ hm).2, decide_eq_true_eq] at hi
    rwa [hi]
  | _ => cases hf

/-- Only one task is in a fetch. -/
theorem Belongs.eq_running (hb : Belongs mbox H o s) (ht : (s.mpc t).fetching ≠ none)
    (hr : (s.mpc s.running).fetching ≠ none) : t = s.running := by
  by_contra hne
  exact hr (hb.tidy.alone t ht s.running (Ne.symm hne))

/-- The mailbox's signal still belongs to its owner. -/
theorem Belongs.port_step (hb : Belongs mbox H o s) (hl : s.LastFree ev)
    (hpaired : MboxSys.FindsSignal mbox ⟨s, ev, s'⟩ → o = some s.running) (hst : s.Step mbox ev s')
    (hne : (s.port mbox).signal ≠ 0) : ∃ u i, o = some u ∧ i < signalsWidth ∧ (s.port mbox).signal = 1#16 <<< i ∧
      ((.port mbox, i) ∈ MboxSys.holdingsAfter mbox H ⟨s, ev, s'⟩ u ∨
        s'.freed = true ∧ (s'.mpc u).fetching = none) := by
  obtain ⟨u, i, ho, hi, hsig, hor⟩ := hb.port hne
  refine ⟨u, i, ho, hi, hsig, ?_⟩
  by_cases hev : ev = .free
  · obtain ⟨hfreed, huser⟩ := hst.effect.freed_step.2 hev
    obtain rfl := Option.some.inj (ho.symm.trans (hpaired ⟨hne, .inl hev⟩))
    refine .inr ⟨hfreed, ?_⟩
    rw [huser]
    rfl
  · rcases hor with hm | ⟨hfreed, hout⟩
    · exact .inl (MboxSys.port_mem_step hm fun he => absurd he hev)
    · refine .inr ⟨hst.effect.freed_step.1 hfreed, MboxSys.fetching_step hst hout fun timeout timer he => ?_⟩
      subst he
      cases hfreed.symm.trans hl

/-- **A step keeps the invariant**, if a fetch that finds a signal, or a free of it, is made by its owner. -/
theorem Belongs.step (hb : Belongs mbox H o s)
    (hst : Restrict (fun s ev => s.PrivateTimers ev ∧ s.OneFetch mbox ev ∧ s.LastFree ev) (MboxSys.Step mbox) s ev s')
    (hpaired : MboxSys.FindsSignal mbox ⟨s, ev, s'⟩ → o = some s.running)
    (hown : ∀ e, ev = .sys e → ∀ holder sg, s.sys.frees e = some (holder, sg) → ∀ i, sg.getLsbD i = true →
      (holder, i) ∈ H s.running) :
    Belongs mbox (MboxSys.holdingsAfter mbox H ⟨s, ev, s'⟩) ((MboxSys.allocator mbox ⟨s, ev, s'⟩).or o) s' := by
  obtain ⟨⟨hc, hone, hl⟩, hst⟩ := hst
  have hsound : Sound s.sys := hb.tidy.timing.inv.sound
  have hheld := hst.effect.held_step hsound hb.held fun holder sg hf i hi => hb.frees_own hl hpaired hown hf hi
  have htidy := hb.tidy.step ⟨⟨hc, hone⟩, hst⟩
  have htimers (t : TaskRef) (tm : TimerRef) (htm : (s'.mpc t).timer = some tm) :=
    hb.tidy.timers_step hc hst hb.timers htm
  have hport := hb.port_step hl hpaired hst
  cases hst.effect.bitChange hsound hone with
  | keeps hs ha hp hstore =>
    rw [ha, Option.none_or]
    refine ⟨hheld, htidy, fun hne => ?_, fun t ht => ?_, fun t f signal ht => ?_, htimers⟩
    · rw [hs] at hne ⊢
      exact hport hne
    · rw [hs]
      exact hb.past t (hp t ht)
    · obtain ⟨ho, hz, i, hi, hsig, hm⟩ := hb.store t f signal (hstore t f signal ht)
      rw [hs]
      refine ⟨ho, hz, i, hi, hsig, MboxSys.port_mem_step hm fun _ _ => ?_⟩
      rw [hz]
      exact BitVec.getLsbD_zero
  | @finds f he hp hz hs' =>
    subst he hs'
    have ho : o = some s.running := hpaired ⟨hz, .inr ⟨rfl, f, hp⟩⟩
    have ha : MboxSys.allocator mbox ⟨s, .step, s.goto (.fetchAction f)⟩ = none := by
      simp only [MboxSys.allocator, hp]
      exact if_neg hz
    have hin : (s.mpc s.running).fetching ≠ none := by
      rw [hp]
      exact Option.some_ne_none _
    rw [ha, Option.none_or]
    refine ⟨hheld, htidy, hport, fun t ht => ?_, fun t g signal ht => ?_, htimers⟩
    · by_cases hr : t = s.running
      · rw [hr]
        exact ⟨ho, hz⟩
      · rw [hst.effect.mpc_of_ne hr] at ht
        exact absurd (hb.eq_running (MboxPc.fetching_of_past ht) hin) hr
    · by_cases hr : t = s.running
      · subst hr
        cases (Function.update_self ..).symm.trans ht
      · rw [hst.effect.mpc_of_ne hr] at ht
        exact absurd (hb.store t g signal ht).2.1 hz
  | @allocates f i he hp hz hi hout hs hmpc =>
    subst he
    have ha : MboxSys.allocator mbox ⟨s, .step, s'⟩ = some s.running := by
      simp only [MboxSys.allocator, hp]
      exact if_pos hz
    have hin : (s.mpc s.running).fetching ≠ none := by
      rw [hp]
      exact Option.some_ne_none _
    rw [ha, Option.some_or]
    refine ⟨hheld, htidy, fun hne => absurd hs hne, fun t ht => ?_, fun t g signal ht => ?_, htimers⟩
    · by_cases hr : t = s.running
      · rw [hmpc, hr, Function.update_self] at ht
        cases ht
      · rw [hst.effect.mpc_of_ne hr] at ht
        exact absurd hz (hb.past t ht).2
    · by_cases hr : t = s.running
      · subst hr
        rw [hmpc, Function.update_self] at ht
        obtain ⟨-, rfl⟩ := MboxPc.fetchStore.inj ht
        refine ⟨rfl, hs, i, hi, rfl, ?_⟩
        unfold MboxSys.holdingsAfter
        dsimp only
        rw [hout]
        exact Holdings.mem_add.mpr (.inl ⟨rfl, rfl, rfl⟩)
      · rw [hst.effect.mpc_of_ne hr] at ht
        refine absurd (hb.eq_running ?_ hin) hr
        rw [ht]
        exact Option.some_ne_none _
  | @stores f signal he hp hs hmpc =>
    subst he
    obtain ⟨ho, hz, i, hi, hsig, hm⟩ := hb.store s.running f signal hp
    have ha : MboxSys.allocator mbox ⟨s, .step, s'⟩ = none := by simp only [MboxSys.allocator, hp]
    have hin : (s.mpc s.running).fetching ≠ none := by
      rw [hp]
      exact Option.some_ne_none _
    have hne : signal ≠ 0 := by
      rw [hsig]
      exact mask_ne_zero hi
    rw [ha, Option.none_or]
    refine ⟨hheld, htidy, fun _ => ?_, fun t ht => ?_, fun t g signal' ht => ?_, htimers⟩
    · rw [hs]
      exact ⟨s.running, i, ho, hi, hsig, .inl (MboxSys.port_mem_step hm nofun)⟩
    · by_cases hr : t = s.running
      · rw [hr, hs]
        exact ⟨ho, hne⟩
      · rw [hst.effect.mpc_of_ne hr] at ht
        exact absurd hz (hb.past t ht).2
    · by_cases hr : t = s.running
      · rw [hmpc, hr, Function.update_self] at ht
        cases ht
      · rw [hst.effect.mpc_of_ne hr] at ht
        refine absurd (hb.eq_running ?_ hin) hr
        rw [ht]
        exact Option.some_ne_none _

variable {cfg : Config} {c : Core} {tr₀ : List (Move Sys SysEvent)} {s₀ : Sys} {ptr : MsgRef → VoidPtr}
  {allocated : MsgRef → Bool} {tr : List (Move MboxSys MboxEvent)}

theorem Belongs.start (h : martosPre cfg = .ok c) (hr₀ : Run Sys.Step (Sys.start c) tr₀ s₀) (hown : Sys.FreesOwn tr₀) :
    Belongs mbox (Sys.holdings tr₀) none (MboxSys.start mbox s₀ ptr allocated) where
  held := (Held.run h hr₀ hown).same ⟨fun _ => rfl, fun _ => Iff.rfl⟩ fun _ => rfl
  tidy := .start h hr₀
  port hne := by
    have hport : (MboxSys.start mbox s₀ ptr allocated).port mbox = ⟨none, 0, .ignore⟩ := Function.update_self ..
    exact absurd (congrArg MsgPort.signal hport) hne
  past _ := nofun
  store _ _ _ := nofun
  timers _ _ := nofun

/-- The bits belong to the tasks that go on with them, in every run. -/
theorem Belongs.run (h : martosPre cfg = .ok c) (hr₀ : Run Sys.Step (Sys.start c) tr₀ s₀) (hown₀ : Sys.FreesOwn tr₀)
    (hr : Run (Restrict (fun s ev => s.PrivateTimers ev ∧ s.OneFetch mbox ev ∧ s.LastFree ev) (MboxSys.Step mbox))
      (MboxSys.start mbox s₀ ptr allocated) tr s)
    (hown : MboxSys.FreesOwn mbox (Sys.holdings tr₀) tr) (hpaired : MboxSys.Paired mbox tr) :
    Belongs mbox (MboxSys.holdings mbox (Sys.holdings tr₀) tr) (MboxSys.owner mbox tr) s := by
  induction hr with
  | nil => exact .start h hr₀ hown₀
  | @snoc tr a b ev hra hst ih =>
    have hsplit {tr₁ tr₂ : List (Move MboxSys MboxEvent)} {m : Move MboxSys MboxEvent} (htr : tr = tr₁ ++ m :: tr₂) :
        tr ++ [⟨a, ev, b⟩] = tr₁ ++ m :: (tr₂ ++ [⟨a, ev, b⟩]) := by
      rw [htr, List.append_assoc, List.cons_append]
    have hb := ih (fun tr₁ m tr₂ htr => hown tr₁ m _ (hsplit htr)) fun tr₁ m tr₂ htr => hpaired tr₁ m _ (hsplit htr)
    have hlog : MboxSys.holdings mbox (Sys.holdings tr₀) (tr ++ [⟨a, ev, b⟩]) =
        MboxSys.holdingsAfter mbox (MboxSys.holdings mbox (Sys.holdings tr₀) tr) ⟨a, ev, b⟩ := List.foldl_append
    rw [hlog, show MboxSys.owner mbox (tr ++ [⟨a, ev, b⟩]) = _ from latest_snoc ..]
    exact hb.step hst (hpaired tr ⟨a, ev, b⟩ [] rfl) (hown tr ⟨a, ev, b⟩ [] rfl)

/-- A fetch that sleeps has the mailbox's signal, which nothing else has. -/
theorem Belongs.waiting (hb : Belongs mbox H o s) {f : Fetch} {timerSignal : Signals}
    (hp : s.mpc t = .fetchWaiting f timerSignal) : ∃ i, (s.port mbox).signal = 1#16 <<< i ∧
      (s.sys.cs.core.task t).sigAlloc.getLsbD i = true ∧ (.port mbox, i) ∈ H t ∧
      ∀ holder, (holder, i) ∈ H t → holder = .port mbox := by
  have hf : (s.mpc t).fetching = some f := congrArg MboxPc.fetching hp
  obtain ⟨ho, hne⟩ := hb.past t (by rw [hp]; rfl)
  obtain ⟨u, i, ho', -, hsig, hor⟩ := hb.port hne
  obtain rfl := Option.some.inj (ho.symm.trans ho')
  have hm : (.port mbox, i) ∈ H t := by
    refine hor.resolve_right fun hout => ?_
    cases hf.symm.trans hout.2
  have hlife : s.sys.cs.life t ≠ .fresh := by
    refine hb.tidy.timing.inv.alive t ?_
    rw [MboxSys.timed_timer hf]
    exact Option.some_ne_none _
  refine ⟨i, hsig, (hb.held.alloc t hlife i).mpr (.inr ⟨_, hm⟩), hm, fun holder hm' => ?_⟩
  exact congrArg Prod.fst (List.inj_on_of_nodup_map (hb.held.nodup t) hm' hm rfl)

/-- `sys_mbox_free` clears the mailbox's signal for the task that calls it. -/
theorem MboxSys.Step.free_alloc (hst : s.Step mbox .free s') (t : TaskRef) :
    (s'.sys.cs.core.task t).sigAlloc = if t = s.running then
      (s.sys.cs.core.task t).sigAlloc &&& ~~~(s.port mbox).signal else (s.sys.cs.core.task t).sigAlloc := by
  have heff := hst.effect
  clear hst
  cases heff with
  | @free sys hp hst =>
    obtain ⟨-, hcs⟩ := hst.frees (show s.sys.frees _ = some (.direct, _) from rfl)
    change (sys.cs.core.task t).sigAlloc = _
    rw [hcs]
    by_cases ht : t = s.running
    · subst ht
      rw [if_pos rfl]
      exact congrArg Task.sigAlloc Core.freed_self
    · have hsame : (s.sys.cs.core.freed (s.port mbox).signal).task t = s.sys.cs.core.task t := Core.modTask_of_ne ht
      rw [if_neg ht]
      exact congrArg Task.sigAlloc hsame

/-! ### A single consumer -/

/-- Only task `t` fetches, and frees the mailbox. -/
def MboxSys.By (t : TaskRef) (s : MboxSys) : MboxEvent → Prop
  | .fetch _ _ => s.running = t
  | .free => s.running = t
  | _ => True

/-- **A single consumer that frees its mailbox itself** is the only one to go on with the signal. -/
theorem MboxSys.paired_of_single (h : martosPre cfg = .ok c) (hr₀ : Run Sys.Step (Sys.start c) tr₀ s₀)
    (hown₀ : Sys.FreesOwn tr₀)
    (hr : Run (Restrict (fun s ev => s.PrivateTimers ev ∧ s.OneFetch mbox ev ∧ s.LastFree ev ∧ s.By t ev)
      (MboxSys.Step mbox)) (MboxSys.start mbox s₀ ptr allocated) tr s)
    (hown : MboxSys.FreesOwn mbox (Sys.holdings tr₀) tr) :
    MboxSys.Paired mbox tr ∧ s.Alone t ∧ ∀ u, MboxSys.owner mbox tr = some u → u = t := by
  induction hr with
  | nil => exact ⟨fun tr₁ m tr₂ htr => by simp at htr, fun _ _ => rfl, nofun⟩
  | @snoc tr a b ev hra hst ih =>
    have hown' : MboxSys.FreesOwn mbox (Sys.holdings tr₀) tr := fun tr₁ m tr₂ htr =>
      hown tr₁ m (tr₂ ++ [⟨a, ev, b⟩]) (by rw [htr, List.append_assoc, List.cons_append])
    obtain ⟨hpaired, hal, howner⟩ := ih hown'
    obtain ⟨⟨hc, hone, hl, hby⟩, hst⟩ := hst
    have hb := Belongs.run h hr₀ hown₀ (hra.mono fun _ _ _ hs => ⟨⟨hs.1.1, hs.1.2.1, hs.1.2.2.1⟩, hs.2⟩) hown' hpaired
    -- only the consumer tests the signal
    have htest {f : Fetch} (hp : a.mpc a.running = .fetchTest f) : a.running = t := by
      by_contra hne
      have hnone := hal a.running hne
      rw [hp] at hnone
      cases hnone
    refine ⟨forall_split_snoc hpaired fun ⟨hne, hev⟩ => ?_, fun u hut => ?_, fun u hu => ?_⟩
    · obtain ⟨u, i, ho, -⟩ := hb.port hne
      have hrun : a.running = t := by
        rcases hev with hev | ⟨hev, f, hp⟩
        · obtain rfl : ev = .free := hev
          exact hby
        · exact htest hp
      rw [ho, howner u ho, ← hrun]
    · refine MboxSys.fetching_step hst (hal u hut) ?_
      rintro timeout timer rfl hur
      exact hut (hur.trans hby)
    · rw [show MboxSys.owner mbox (tr ++ [⟨a, ev, b⟩]) = _ from latest_snoc .., Option.or_eq_some_iff] at hu
      rcases hu with hu | ⟨-, hu⟩
      · unfold MboxSys.allocator at hu
        split at hu
        · next f _ hp =>
          split_ifs at hu
          exact (Option.some.inj hu).symm.trans (htest hp)
        · cases hu
      · exact howner u hu

/-! ### Runs that can be replayed -/

/-- Nothing but the mailbox functions frees bits. -/
def MboxSys.KeepsBits (s : MboxSys) : MboxEvent → Prop
  | .sys e => s.sys.frees e = none
  | _ => True

instance (s : MboxSys) (ev : MboxEvent) : Decidable (s.LastFree ev) :=
  match ev with
  | .fetch _ _ => inferInstanceAs (Decidable (s.freed = false))
  | .free => inferInstanceAs (Decidable (s.freed = false))
  | .sys _ | .post _ _ | .tryfetch | .step => inferInstanceAs (Decidable True)

instance (t : TaskRef) (s : MboxSys) (ev : MboxEvent) : Decidable (s.By t ev) :=
  match ev with
  | .fetch _ _ => inferInstanceAs (Decidable (s.running = t))
  | .free => inferInstanceAs (Decidable (s.running = t))
  | .sys _ | .post _ _ | .tryfetch | .step => inferInstanceAs (Decidable True)

instance (s : MboxSys) (ev : MboxEvent) : Decidable (s.KeepsBits ev) :=
  match ev with
  | .sys e => inferInstanceAs (Decidable (s.sys.frees e = none))
  | .post _ _ | .fetch _ _ | .tryfetch | .free | .step => inferInstanceAs (Decidable True)

theorem MboxSys.FreesOwn.of_keepsBits (h : ∀ m ∈ tr, m.pre.KeepsBits m.event) : MboxSys.FreesOwn mbox H tr := by
  rintro tr₁ ⟨a, ev, b⟩ tr₂ rfl e rfl holder sg hf
  have hnone : a.sys.frees e = none := h ⟨a, .sys e, b⟩ (by simp)
  cases hnone.symm.trans hf

/-- A step with one fetching task that keeps its bits. -/
theorem MboxSys.lone_step_keeps {ok : MboxSys → MboxEvent → Prop} (h : s.Timing ∧ s.OthersOut t)
    (hst : Restrict (fun s ev => s.Lone t ev ∧ ok s ev) (MboxSys.Step mbox) s ev s') :
    Restrict (fun s ev => s.PrivateTimers ev ∧ s.OneFetch mbox ev ∧ ok s ev) (MboxSys.Step mbox) s ev s' ∧
      s'.Timing ∧ s'.OthersOut t := by
  obtain ⟨⟨hl, hok⟩, hst⟩ := hst
  obtain ⟨⟨⟨hc, hone⟩, -⟩, h'⟩ := MboxSys.lone_step_oneFetch h ⟨⟨hl, trivial⟩, hst⟩
  exact ⟨⟨⟨hc, hone, hok⟩, hst⟩, h'⟩

/-- Events that can be replayed, with task `t` as the only one to fetch and to free the mailbox, are those of a
run as it should be. -/
theorem MboxSys.exists_single (mbox : PortRef) (t : TaskRef) (es₁ es₂ : List MboxEvent) (ev : MboxEvent)
    {p : MboxSys → MboxSys → MboxSys → Bool}
    (h : (martosPre CoreSys.exampleConfig).toOption.any (fun c =>
      (replay (nextIf (fun s ev => s.Lone t ev ∧ s.LastFree ev ∧ s.By t ev ∧ s.KeepsBits ev) (MboxSys.next mbox))
        (MboxSys.start mbox (Sys.start c) (fun _ => 0) fun _ => false) es₁).any fun s₁ =>
      (nextIf (fun s ev => s.Lone t ev ∧ s.LastFree ev ∧ s.By t ev ∧ s.KeepsBits ev) (MboxSys.next mbox) s₁ ev).any
        fun s₂ => (replay (nextIf (fun s ev => s.Lone t ev ∧ s.LastFree ev ∧ s.By t ev ∧ s.KeepsBits ev)
          (MboxSys.next mbox)) s₂ es₂).any (p s₁ s₂)) = true) :
    ∃ c tr₁ s₁ s₂ tr₂ s, martosPre CoreSys.exampleConfig = .ok c ∧
      Run (Restrict (fun s ev => s.PrivateTimers ev ∧ s.OneFetch mbox ev ∧ s.LastFree ev) (MboxSys.Step mbox))
        (MboxSys.start mbox (Sys.start c) (fun _ => 0) fun _ => false) (tr₁ ++ ⟨s₁, ev, s₂⟩ :: tr₂) s ∧
      MboxSys.FreesOwn mbox (Sys.holdings []) (tr₁ ++ ⟨s₁, ev, s₂⟩ :: tr₂) ∧
      MboxSys.Paired mbox (tr₁ ++ ⟨s₁, ev, s₂⟩ :: tr₂) ∧ p s₁ s₂ s = true := by
  obtain ⟨c, hc, h⟩ := (Option.any_eq_true ..).mp h
  have hc := eq_ok_of_toOption hc
  obtain ⟨tr₁, s₁, s₂, tr₂, s, hr, -, hp⟩ := Run.exists_of_replay
    (restrict_of_nextIf fun _ _ _ => id) h
  obtain ⟨hr, -⟩ := hr.refine (P := fun s => s.Timing ∧ s.OthersOut t) ⟨.start hc .nil, fun _ _ => ⟨rfl, rfl⟩⟩
    fun _ _ _ => MboxSys.lone_step_keeps
  have hown : MboxSys.FreesOwn mbox (Sys.holdings []) (tr₁ ++ ⟨s₁, ev, s₂⟩ :: tr₂) := by
    refine .of_keepsBits fun m hm => ?_
    exact (hr.step_of_mem hm).1.2.2.2.2
  have hpaired := (MboxSys.paired_of_single hc .nil .nil
    (hr.mono fun _ _ _ hs => ⟨⟨hs.1.1, hs.1.2.1, hs.1.2.2.1, hs.1.2.2.2.1⟩, hs.2⟩) hown).1
  exact ⟨c, tr₁, s₁, s₂, tr₂, s, hc, hr.mono fun _ _ _ hs => ⟨⟨hs.1.1, hs.1.2.1, hs.1.2.2.1⟩, hs.2⟩, hown, hpaired, hp⟩

/-- Task 1 fetches with a timeout of two ticks, and times out. -/
def exampleTimedOut : List MboxEvent := exampleConsumer ++ [.fetch 2 0] ++ exampleFetchTimeout 0x20000200 ++ [.step]

/-- The same where task 2, of a lower priority, runs meanwhile. -/
def exampleTimedOutBoth : List MboxEvent :=
  (CoreSys.startTask 1 "one" 5 0x20001000 ++ CoreSys.startTask 2 "two" 4 0x20002000 ++ CoreSys.lowerInit).map
    (fun e => .sys (.core e)) ++ [.fetch 2 0] ++ exampleFetchTimeout 0x20002200 ++ [.step]

/-- Task 1 waits for something else, and task 2 fetches. -/
def exampleOtherFetch : List MboxEvent :=
  [.sys (.core (.call (.signalWait 1))), .sys (.core .resume), .sys (.core .pendSV),
    .sys (.core (.pendSVSwitch 0x20001200)), .sys (.core .pendSVExit), .fetch 0 5, .step, .step, .step, .step, .step]

/-- **The mailbox's signal belongs to the task that waits for it**, in every run from `sys_mbox_new` in
which bits are freed only by their holders, and the task that has allocated the signal is the only one
that fetches with it, and the one that frees it:

* while a task sleeps in `sys_arch_mbox_fetch`, the mailbox's signal is a bit that is set in its
  `sig_alloc`, and that is held by the mailbox and nothing else of the task;
* `sys_mbox_free` clears the signal in the `sig_alloc` of the task that has allocated it, and changes
  nothing else in any `sig_alloc`. -/
theorem mbox_signal_belongs (h : martosPre cfg = .ok c) (hr₀ : Run Sys.Step (Sys.start c) tr₀ s₀)
    (hown₀ : Sys.FreesOwn tr₀)
    (hr : Run (Restrict (fun s ev => s.PrivateTimers ev ∧ s.OneFetch mbox ev ∧ s.LastFree ev) (MboxSys.Step mbox))
      (MboxSys.start mbox s₀ ptr allocated) tr s)
    (hown : MboxSys.FreesOwn mbox (Sys.holdings tr₀) tr) (hpaired : MboxSys.Paired mbox tr) :
    (∀ t f timerSignal, s.mpc t = .fetchWaiting f timerSignal → ∃ i, (s.port mbox).signal = 1#16 <<< i ∧
      (s.sys.cs.core.task t).sigAlloc.getLsbD i = true ∧
      (.port mbox, i) ∈ MboxSys.holdings mbox (Sys.holdings tr₀) tr t ∧
      ∀ holder, (holder, i) ∈ MboxSys.holdings mbox (Sys.holdings tr₀) tr t → holder = .port mbox) ∧
    ∀ tr₁ m tr₂, tr = tr₁ ++ m :: tr₂ → m.event = .free → ∀ t,
      (m.post.sys.cs.core.task t).sigAlloc = if MboxSys.owner mbox tr₁ = some t then
        (m.pre.sys.cs.core.task t).sigAlloc &&& ~~~(m.pre.port mbox).signal
      else (m.pre.sys.cs.core.task t).sigAlloc := by
  refine ⟨fun t f timerSignal hp => (Belongs.run h hr₀ hown₀ hr hown hpaired).waiting hp, ?_⟩
  rintro tr₁ ⟨a, ev, b⟩ tr₂ htr rfl t
  have hst : a.Step mbox .free b := (hr.split htr).2.1.2
  rw [hst.free_alloc t]
  by_cases hz : (a.port mbox).signal = 0
  · -- there is nothing to clear
    have hclear : (a.sys.cs.core.task t).sigAlloc &&& ~~~(a.port mbox).signal = (a.sys.cs.core.task t).sigAlloc := by
      rw [hz]
      exact BitVec.and_allOnes
    rw [hclear, ite_self, ite_self]
  · have ho : MboxSys.owner mbox tr₁ = some a.running := hpaired tr₁ _ tr₂ htr ⟨hz, .inl rfl⟩
    rw [ho]
    by_cases ht : t = a.running
    · rw [if_pos ht, if_pos (congrArg some ht.symm)]
    · rw [if_neg ht, if_neg fun he => ht (Option.some.inj he).symm]

/-- The theorem at runs in which task 1 times out, and then fetches once more and sleeps, or frees the
mailbox. -/
theorem mbox_signal_belongs_task_one :
    (∃ c tr s, martosPre CoreSys.exampleConfig = .ok c ∧
      Run (Restrict (fun s ev => s.PrivateTimers ev ∧ s.OneFetch 0 ev ∧ s.LastFree ev) (MboxSys.Step 0))
        (MboxSys.start 0 (Sys.start c) (fun _ => 0) fun _ => false) tr s ∧
      s.mpc 1 = .fetchWaiting ⟨0, 3, 2⟩ 0 ∧ ∃ i, (s.port 0).signal = 1#16 <<< i ∧
        (s.sys.cs.core.task 1).sigAlloc.getLsbD i = true) ∧
    ∃ c tr₁ s₁ s₂ tr₂ s, martosPre CoreSys.exampleConfig = .ok c ∧
      Run (Restrict (fun s ev => s.PrivateTimers ev ∧ s.OneFetch 0 ev ∧ s.LastFree ev) (MboxSys.Step 0))
        (MboxSys.start 0 (Sys.start c) (fun _ => 0) fun _ => false) (tr₁ ++ ⟨s₁, .free, s₂⟩ :: tr₂) s ∧
      MboxSys.owner 0 tr₁ = some 1 ∧ (s₂.sys.cs.core.task 1).sigAlloc =
        (s₁.sys.cs.core.task 1).sigAlloc &&& ~~~(s₁.port 0).signal := by
  constructor
  · obtain ⟨c, tr₁, s₁, s₂, tr₂, s, hc, hr, hown, hpaired, hp⟩ := MboxSys.exists_single 0 1 exampleTimedOut
      [.step, .step, .step, .step, .step] (.fetch 0 3)
      (p := fun _ _ s => decide (s.mpc 1 = .fetchWaiting ⟨0, 3, 2⟩ 0)) (by decide +kernel)
    have hp := of_decide_eq_true hp
    obtain ⟨i, hsig, halloc, -⟩ := (mbox_signal_belongs hc .nil .nil hr hown hpaired).1 1 _ _ hp
    exact ⟨c, _, s, hc, hr, hp, i, hsig, halloc⟩
  · obtain ⟨c, tr₁, s₁, s₂, tr₂, s, hc, hr, hown, hpaired, hp⟩ := MboxSys.exists_single 0 1 exampleTimedOut [] .free
      (p := fun s₁ _ _ => decide (s₁.running = 1 ∧ (s₁.port 0).signal ≠ 0)) (by decide +kernel)
    obtain ⟨hrun, hz⟩ := of_decide_eq_true hp
    have ho : MboxSys.owner 0 tr₁ = some 1 := hrun ▸ hpaired tr₁ _ tr₂ rfl ⟨hz, .inl rfl⟩
    refine ⟨c, tr₁, s₁, s₂, tr₂, s, hc, hr, ho, ?_⟩
    exact ((mbox_signal_belongs hc .nil .nil hr hown hpaired).2 tr₁ _ tr₂ rfl rfl 1).trans (if_pos ho)

/-- Task 1 has fetched, and task 2 fetches next: it sleeps, and waits for a bit which is free in its own
`sig_alloc`. -/
theorem mbox_signal_not_own : ¬ ∀ (cfg : Config) (c : Core) (mbox : PortRef) (ptr : MsgRef → VoidPtr)
    (allocated : MsgRef → Bool) (tr : List (Move MboxSys MboxEvent)) (s : MboxSys), martosPre cfg = .ok c →
    Run (Restrict (fun s ev => s.PrivateTimers ev ∧ s.OneFetch mbox ev ∧ s.LastFree ev) (MboxSys.Step mbox))
      (MboxSys.start mbox (Sys.start c) ptr allocated) tr s →
    MboxSys.FreesOwn mbox (Sys.holdings []) tr →
    ∀ t f timerSignal, s.mpc t = .fetchWaiting f timerSignal →
      (s.port mbox).signal &&& (s.sys.cs.core.task t).sigAlloc ≠ 0 := by
  intro hall
  have hrun : (martosPre CoreSys.exampleConfig).toOption.any (fun c =>
      (replay (nextIf (fun s ev => s.Lone 1 ev ∧ s.LastFree ev ∧ s.KeepsBits ev) (MboxSys.next 0))
        (MboxSys.start 0 (Sys.start c) (fun _ => 0) fun _ => false) exampleTimedOutBoth).any fun s₁ =>
      decide ((s₁.mpc 1).fetching = none ∧ s₁.sys.spc 1 = .user) &&
      (replay (nextIf (fun s ev => s.Lone 2 ev ∧ s.LastFree ev ∧ s.KeepsBits ev) (MboxSys.next 0)) s₁
        exampleOtherFetch).any fun s => decide (s.mpc 2 = .fetchWaiting ⟨0, 5, 2⟩ 0 ∧
          (s.port 0).signal &&& (s.sys.cs.core.task 2).sigAlloc = 0)) = true := by decide +kernel
  obtain ⟨c, hc, hrun⟩ := (Option.any_eq_true ..).mp hrun
  have hc := eq_ok_of_toOption hc
  obtain ⟨s₁, hs₁, hrun⟩ := (Option.any_eq_true ..).mp hrun
  obtain ⟨hout, hrun⟩ := Bool.and_eq_true_iff.mp hrun
  obtain ⟨hfetch, huser⟩ := of_decide_eq_true hout
  obtain ⟨s, hs, hp⟩ := (Option.any_eq_true ..).mp hrun
  obtain ⟨hp, hz⟩ := of_decide_eq_true hp
  obtain ⟨tr₁, hr₁, -⟩ := Run.of_replay (restrict_of_nextIf fun _ _ _ => id) hs₁
  obtain ⟨tr₂, hr₂, -⟩ := Run.of_replay (restrict_of_nextIf fun _ _ _ => id) hs
  obtain ⟨hr₁, ht, ho⟩ := hr₁.refine (P := fun s => s.Timing ∧ s.OthersOut 1) ⟨.start hc .nil, fun _ _ => ⟨rfl, rfl⟩⟩
    fun _ _ _ => MboxSys.lone_step_keeps
  -- task 1 is out of its fetch as well
  have ho' : s₁.OthersOut 2 := by
    intro u hu
    by_cases hu1 : u = 1
    · rw [hu1]
      exact ⟨hfetch, huser⟩
    · exact ho u hu1
  obtain ⟨hr₂, -⟩ := hr₂.refine (P := fun s => s.Timing ∧ s.OthersOut 2) ⟨ht, ho'⟩
    fun _ _ _ => MboxSys.lone_step_keeps
  have hr := hr₁.append hr₂
  refine hall _ c 0 _ _ _ s hc (hr.mono fun _ _ _ hs => ⟨⟨hs.1.1, hs.1.2.1, hs.1.2.2.1⟩, hs.2⟩) ?_ 2 _ _ hp hz
  refine .of_keepsBits fun m hm => ?_
  exact (hr.step_of_mem hm).1.2.2.2

end

end Martos
