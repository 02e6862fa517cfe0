import Martos.Lwip.Cleanup

/-!
# A wait that times out does not take back its request

`sys_arch_sem_wait` counts the semaphore down and queues its request before it waits. When the wait
times out it frees its timer and its signal, and leaves the rest as it is: the count stays one too
low for good, and a request that no `sem_signal` has taken from the queue is there still when the
function, on whose stack it is, has returned.

`SemState` is a semaphore for itself, and `SemState.apply` what the operations do to it, as the
code does it (`Sound.semState_step`). What the semaphore would be without a call is then what the
operations of the others make of it (`SemSys.without`). The operations add to the count whatever
the count is, so it never comes back (`SemSys.WaitCall.count_eq`).
-/

namespace Martos

open Checked Transition

/-! ### A semaphore for itself -/

/-- An operation on a semaphore. -/
inductive SemOp where
  /-- `sem_add_request`. -/
  | request (req : ReqRef)
  /-- `sem_signal`. -/
  | signal

/-- A semaphore. -/
structure SemState where
  /-- `count`. -/
  count : ℤ
  /-- `req_queue`. -/
  reqQueue : List ReqRef
  deriving DecidableEq

namespace SemState

/-- What an operation does. -/
def apply (x : SemState) : SemOp → SemState
  | .request req => ⟨x.count - 1, if x.count - 1 < 0 then x.reqQueue ++ [req] else x.reqQueue⟩
  | .signal => ⟨x.count + 1, if x.count + 1 < 0 then x.reqQueue.tail else x.reqQueue⟩

/-- What an operation does, if there is one. -/
def applyOpt (x : SemState) (op : Option SemOp) : SemState := op.elim x x.apply

/-- The semaphore after a number of operations. -/
def applyAll (x : SemState) (ops : List SemOp) : SemState := ops.foldl apply x

theorem applyAll_snoc (x : SemState) (ops : List SemOp) (op : Option SemOp) :
    x.applyAll (ops ++ op.toList) = (x.applyAll ops).applyOpt op := by
  cases op <;> simp [applyAll, applyOpt]

/-- What an operation adds to the count does not depend on the semaphore. -/
theorem applyOpt_count_sub (x y : SemState) (op : Option SemOp) :
    (x.applyOpt op).count - (y.applyOpt op).count = x.count - y.count := by
  cases op with
  | none => rfl
  | some op =>
    cases op with
    | request req =>
      change x.count - 1 - (y.count - 1) = _
      omega
    | signal =>
      change x.count + 1 - (y.count + 1) = _
      omega

end SemState

/-- The semaphore at `sem`. -/
def Services.semState (svc : Services) (sem : SemRef) : SemState := ⟨svc.count sem, svc.reqQueue sem⟩

/-- The operation of an event on semaphore `sem`. -/
def SysEvent.semOp (sem : SemRef) (e : SysEvent) : Option SemOp :=
  if e.signalsSem sem = true then some .signal
  else e.requests.bind fun p => if p.1 = sem then some (.request p.2) else none

section

variable {s s' : Sys} {e : SysEvent} {sem : SemRef}

theorem SysEvent.semOp_eq (m : Move Sys SysEvent) : m.event.semOp sem =
    if m.event.signalsSem sem = true then some .signal else (Sys.requested sem m).map .request := by
  unfold SysEvent.semOp Sys.requested
  cases m.event.requests with
  | none => rfl
  | some p =>
    obtain ⟨sem', req⟩ := p
    by_cases hsem : sem' = sem <;> simp [hsem]

/-- **The code does to a semaphore what the operation says.** -/
theorem Sound.semState_step (h : Sound s) (hst : s.Step e s') (hno : ∀ n, e.service ≠ some (.semInit sem n)) :
    s'.svc.semState sem = (s.svc.semState sem).applyOpt (e.semOp sem) := by
  have hop : e.semOp sem = if e.signalsSem sem = true then some .signal
      else (Sys.requested sem ⟨s, e, s'⟩).map .request := SysEvent.semOp_eq ⟨s, e, s'⟩
  rw [hop]
  unfold Services.semState
  cases h.semChange sem hst hno with
  | keeps hr hs ht hc hq =>
    rw [hr, hs, hc, hq]
    rfl
  | takes req hr hs ht hn hc hq =>
    rw [hr, hs, hc, hq]
    have hno : ¬ s.svc.count sem - 1 < 0 := by omega
    simp [SemState.applyOpt, SemState.apply, hno]
  | queues req hr hs ht hn hc hq =>
    rw [hr, hs, hc, hq]
    have hneg : s.svc.count sem - 1 < 0 := by omega
    simp [SemState.applyOpt, SemState.apply, hneg]
  | releases hr hs ht hn hc hq =>
    rw [hs, hc, hq]
    have hno : ¬ s.svc.count sem + 1 < 0 := by omega
    simp [SemState.applyOpt, SemState.apply, hno]
  | grants req hr hs ht hn hc hq hd =>
    rw [hs, hc, hq]
    have hneg : s.svc.count sem + 1 < 0 := by omega
    simp [SemState.applyOpt, SemState.apply, hneg]

end

/-! ### The semaphore without a call -/

/-- The call has made its request, or there is none. -/
def SemPc.asked : SemPc → Bool
  | .waitAllocate _ => false
  | .waitStore _ _ => false
  | .waitWaiter _ => false
  | .waitRequest _ => false
  | _ => true

namespace SemSys

/-- The operation of a move on semaphore `sem`. -/
def semOp (sem : SemRef) (m : Move SemSys SemEvent) : Option SemOp :=
  match m.event with
  | .sys e => e.semOp sem
  | .wait _ _ _ _ => none
  | .step =>
    match m.pre.wpc m.pre.running with
    | .waitRequest w => if w.sem = sem then some (.request w.req) else none
    | _ => none

/-- The move is a statement of task `t` in `sys_arch_sem_wait`. -/
def ownMove (t : TaskRef) (m : Move SemSys SemEvent) : Bool :=
  match m.event with
  | .step => decide (m.pre.running = t)
  | _ => false

/-- The operation of a move on `sem`, if it is not one of task `t`. -/
def othersOp (sem : SemRef) (t : TaskRef) (m : Move SemSys SemEvent) : Option SemOp :=
  if ownMove t m = true then none else semOp sem m

/-- What the others have made of semaphore `sem` since `s₁`, while task `t` was in a call: the semaphore
as it would be had the call never been made. -/
def without (sem : SemRef) (t : TaskRef) (s₁ : SemSys) (tr : List (Move SemSys SemEvent)) : SemState :=
  (s₁.sys.svc.semState sem).applyAll (tr.filterMap (othersOp sem t))

/-- The call that task `t` has made in `s₁` has left no trace in `s'`. -/
structure NoTrace (sem : SemRef) (req : ReqRef) (t : TaskRef) (s₁ : SemSys) (tr : List (Move SemSys SemEvent))
    (s' : SemSys) : Prop where
  /-- Its request is not on the queue. -/
  withdrawn : req ∉ s'.sys.svc.reqQueue sem
  /-- Count and queue are what they would be without it. -/
  same : s'.sys.svc.semState sem = without sem t s₁ tr

end SemSys

/-- The event is `sem_init(sem, ..)`. -/
def SemEvent.initsSem (sem : SemRef) : SemEvent → Bool
  | .sys e =>
    match e.service with
    | some (.semInit sem' _) => decide (sem' = sem)
    | _ => false
  | _ => false

section

variable {s s' s₁ s₂ : SemSys} {ev : SemEvent} {t : TaskRef} {w : SemWait} {sem : SemRef}
  {tr : List (Move SemSys SemEvent)}

theorem SemSys.semOp_of_pc {p : SemPc} (hp : s.wpc s.running = p) (hne : ∀ w, p ≠ .waitRequest w) :
    SemSys.semOp sem ⟨s, .step, s'⟩ = none := by
  unfold SemSys.semOp
  dsimp only
  rw [hp]
  split
  · next w => exact absurd rfl (hne w)
  · rfl

/-- What a step does to a semaphore. -/
theorem SemEffect.semState_step (heff : SemEffect s ev s') (h : Sound s.sys)
    (hno : ev.initsSem sem = false) :
    s'.sys.svc.semState sem = (s.sys.svc.semState sem).applyOpt (SemSys.semOp sem ⟨s, ev, s'⟩) := by
  -- a statement with no operation
  have hnone {e : SysEvent} {sys : Sys} {p : SemPc} (hs : s'.sys = sys) (hp : s.wpc s.running = p)
      (hne : ∀ w, p ≠ .waitRequest w) (hst : s.sys.Step e sys) (hop : e.semOp sem = none)
      (hinit : ∀ n, e.service ≠ some (.semInit sem n)) :
      s'.sys.svc.semState sem = (s.sys.svc.semState sem).applyOpt (SemSys.semOp sem ⟨s, .step, s'⟩) := by
    rw [SemSys.semOp_of_pc hp hne, hs, h.semState_step hst hinit, hop]
  have hstill {p : SemPc} (hs : s'.sys = s.sys) (hp : s.wpc s.running = p) (hne : ∀ w, p ≠ .waitRequest w) :
      s'.sys.svc.semState sem = (s.sys.svc.semState sem).applyOpt (SemSys.semOp sem ⟨s, .step, s'⟩) := by
    rw [SemSys.semOp_of_pc hp hne, hs]
    rfl
  have hrequest {w : SemWait} {sys : Sys} (hs : s'.sys = sys) (hp : s.wpc s.running = .waitRequest w)
      (hst : s.sys.Step (.call (.service (.semAddRequest w.sem w.req))) sys) :
      s'.sys.svc.semState sem = (s.sys.svc.semState sem).applyOpt (SemSys.semOp sem ⟨s, .step, s'⟩) := by
    have hop : SemSys.semOp sem ⟨s, .step, s'⟩ = (SysEvent.call (.service (.semAddRequest w.sem w.req))).semOp sem := by
      unfold SemSys.semOp
      dsimp only
      rw [hp]
      rfl
    rw [hop, hs, h.semState_step hst nofun]
  cases heff with
  | sys hp hst =>
    refine h.semState_step hst fun n hn => ?_
    simp [SemEvent.initsSem, hn] at hno
  | enters hu hp => rfl
  | allocates hu hp hc hst => exact hnone rfl hp nofun hst rfl nofun
  | stores hu hp hz hst => exact hnone rfl hp nofun hst rfl nofun
  | setsWaiter hu hp hst => exact hnone rfl hp nofun hst rfl nofun
  | gets hu hp hg hst => exact hrequest rfl hp hst
  | queues hu hp hg hst => exact hrequest rfl hp hst
  | early hu hp => exact hstill rfl hp nofun
  | skipsTimer hu hp hz => exact hstill rfl hp nofun
  | allocatesTimer hu hp hz hst => exact hnone rfl hp nofun hst rfl nofun
  | setsTimer hu hp hst => exact hnone rfl hp nofun hst rfl nofun
  | addsTimer hu hp hst => exact hnone rfl hp nofun hst rfl nofun
  | waits hu hp hst => exact hnone rfl hp nofun hst rfl nofun
  | granted hu hp hz => exact hstill rfl hp nofun
  | timesOut hu hp hz ht => exact hstill rfl hp nofun
  | abortsTimer hu hp hz hst => exact hnone rfl hp nofun hst rfl nofun
  | skipsAbort hu hp hz => exact hstill rfl hp nofun
  | freesTimer hu hp hst => exact hnone rfl hp nofun hst rfl nofun
  | returns hu hp hst => exact hnone rfl hp nofun hst rfl nofun

/-- A call makes its request in one step. -/
theorem SemEffect.asked_step (heff : SemEffect s .step s') :
    (∃ w, s.wpc s.running = .waitRequest w ∧ (s'.wpc s.running).asked = true) ∨
      (∀ w, s.wpc s.running ≠ .waitRequest w) ∧ (s'.wpc s.running).asked = (s.wpc s.running).asked := by
  have hto {p q : SemPc} (hs : s'.wpc = Function.update s.wpc s.running q) (hp : s.wpc s.running = p)
      (hne : ∀ w, p ≠ .waitRequest w) (hq : q.asked = p.asked) :
      (∀ w, s.wpc s.running ≠ .waitRequest w) ∧ (s'.wpc s.running).asked = (s.wpc s.running).asked := by
    rw [hs, Function.update_self, hp]
    exact ⟨hne, hq⟩
  have hrequest {w : SemWait} {q : SemPc} (hs : s'.wpc = Function.update s.wpc s.running q)
      (hp : s.wpc s.running = .waitRequest w) (hq : q.asked = true) :
      ∃ w, s.wpc s.running = .waitRequest w ∧ (s'.wpc s.running).asked = true := by
    rw [hs, Function.update_self]
    exact ⟨w, hp, hq⟩
  cases heff with
  | gets hu hp hg hst => exact .inl (hrequest rfl hp rfl)
  | queues hu hp hg hst => exact .inl (hrequest rfl hp rfl)
  | allocates hu hp hc hst => exact .inr (hto rfl hp nofun rfl)
  | stores hu hp hz hst => exact .inr (hto rfl hp nofun rfl)
  | setsWaiter hu hp hst => exact .inr (hto rfl hp nofun rfl)
  | early hu hp => exact .inr (hto rfl hp nofun rfl)
  | skipsTimer hu hp hz => exact .inr (hto rfl hp nofun rfl)
  | allocatesTimer hu hp hz hst => exact .inr (hto rfl hp nofun rfl)
  | setsTimer hu hp hst => exact .inr (hto rfl hp nofun rfl)
  | addsTimer hu hp hst => exact .inr (hto rfl hp nofun rfl)
  | waits hu hp hst =>
    refine .inr (hto rfl hp nofun ?_)
    unfold SemSys.waited
    split <;> rfl
  | granted hu hp hz => exact .inr (hto rfl hp nofun rfl)
  | timesOut hu hp hz ht => exact .inr (hto rfl hp nofun rfl)
  | abortsTimer hu hp hz hst => exact .inr (hto rfl hp nofun rfl)
  | skipsAbort hu hp hz => exact .inr (hto rfl hp nofun rfl)
  | freesTimer hu hp hst => exact .inr (hto rfl hp nofun rfl)
  | returns hu hp hst => exact .inr (hto rfl hp nofun rfl)

/-- Nothing else makes the request. -/
theorem SemEffect.asked_kept (heff : SemEffect s ev s') (hw : (s.wpc t).call = some w)
    (hown : SemSys.ownMove t ⟨s, ev, s'⟩ = false) : (s'.wpc t).asked = (s.wpc t).asked := by
  by_cases ht : t = s.running
  · subst ht
    cases heff with
    | @sys e sys hp hst =>
      rw [show ({ s.goto (s.afterSys e) with sys := sys } : SemSys).wpc s.running = s.afterSys e from
        Function.update_self ..]
      rcases s.afterSys_cases e with hsame | ⟨w', timerSignal, c, got, -, hp', -, hgot⟩
      · rw [hsame]
      · rw [hgot, hp']
        rfl
    | enters hu hp =>
      rw [hp] at hw
      cases hw
    | _ => simp [SemSys.ownMove] at hown
  · rw [heff.wpc_of_ne ht]

theorem SemSys.without_snoc (m : Move SemSys SemEvent) :
    SemSys.without sem t s₁ (tr ++ [m]) = (SemSys.without sem t s₁ tr).applyOpt (SemSys.othersOp sem t m) := by
  unfold SemSys.without
  rw [List.filterMap_append, ← SemState.applyAll_snoc]
  cases hm : SemSys.othersOp sem t m <;> simp [hm]

/-- The count is what it would be without the call, less the request of the call. -/
def SemSys.Short (sem : SemRef) (t : TaskRef) (s₁ : SemSys) (tr : List (Move SemSys SemEvent)) (s : SemSys) : Prop :=
  (s.sys.svc.semState sem).count + (s.wpc t).asked.toNat = (SemSys.without sem t s₁ tr).count

theorem SemSys.Short.step (hsh : SemSys.Short sem t s₁ tr s) (h : Sound s.sys) (hst : s.Step ev s')
    (hw : (s.wpc t).call = some w) (hsem : w.sem = sem) (hno : ev.initsSem sem = false) :
    SemSys.Short sem t s₁ (tr ++ [⟨s, ev, s'⟩]) s' := by
  have heff := hst.effect
  have hstate := heff.semState_step h hno
  unfold SemSys.Short at hsh ⊢
  rw [SemSys.without_snoc, hstate]
  cases hown : SemSys.ownMove t ⟨s, ev, s'⟩ with
  | false =>
    -- a move of the others does to the semaphore what it would do without the call
    have hop : SemSys.othersOp sem t ⟨s, ev, s'⟩ = SemSys.semOp sem ⟨s, ev, s'⟩ := by
      simp [SemSys.othersOp, hown]
    have hsub := SemState.applyOpt_count_sub (s.sys.svc.semState sem) (SemSys.without sem t s₁ tr)
      (SemSys.semOp sem ⟨s, ev, s'⟩)
    rw [hop, heff.asked_kept hw hown]
    omega
  | true =>
    have hop : SemSys.othersOp sem t ⟨s, ev, s'⟩ = none := by simp [SemSys.othersOp, hown]
    rw [hop]
    obtain ⟨rfl, hrun⟩ : ev = .step ∧ s.running = t := by
      cases ev with
      | step => exact ⟨rfl, of_decide_eq_true hown⟩
      | _ => cases hown
    subst hrun
    rcases heff.asked_step with ⟨w', hp, hasked⟩ | ⟨hne, hasked⟩
    · obtain rfl := Option.some.inj ((congrArg SemPc.call hp).symm.trans hw)
      have hreq : SemSys.semOp sem ⟨s, .step, s'⟩ = some (.request w'.req) := by
        simp [SemSys.semOp, hp, hsem]
      rw [hreq, hasked]
      rw [hp] at hsh
      change (s.sys.svc.semState sem).count + 0 = _ at hsh
      change (s.sys.svc.semState sem).count - 1 + 1 = (SemSys.without sem s.running s₁ tr).count
      omega
    · rw [SemSys.semOp_of_pc rfl hne, hasked]
      exact hsh

variable {timeout : Ticks} {req : ReqRef} {timer : TimerRef} {value : Ticks}

/-- **The count stays one too low** when `sys_arch_sem_wait` has returned. -/
theorem SemSys.WaitCall.count_eq (hc : SemSys.WaitCall t sem timeout req timer s₁ s₂ tr s s' value) (h : s₁.Tidy)
    (hno : ∀ m ∈ tr, m.event.initsSem sem = false) :
    (s'.sys.svc.semState sem).count + 1 = (SemSys.without sem t s₁ tr).count := by
  obtain ⟨⟨⟨ht, hw⟩, -⟩, hall⟩ := hc.inside h
  obtain ⟨hrun, hcaller, hback, hvalue⟩ := hc
  have hbegin : SemSys.Short sem t s₁ [] s₂ := by
    have heff := hrun.begins.2.effect
    subst hcaller
    cases heff with
    | enters hu hp =>
      unfold SemSys.Short
      rw [SemSys.goto_wpc_self]
      exact Int.add_zero _
  have hshort : (∀ m ∈ tr, m.pre.Tidy ∧ (m.pre.wpc t).call = some ⟨sem, timeout, req, timer, s₁.sys.svc.timerNow⟩ ∧
      m.event.initsSem sem = false) → SemSys.Short sem t s₁ tr s := by
    refine hrun.during.history
      (P := fun tr s => (∀ m ∈ tr, m.pre.Tidy ∧
        (m.pre.wpc t).call = some ⟨sem, timeout, req, timer, s₁.sys.svc.timerNow⟩ ∧
        m.event.initsSem sem = false) → SemSys.Short sem t s₁ tr s) (fun _ => hbegin) fun tr a ev b _ ih hst hms => ?_
    obtain ⟨hta, hwa, hna⟩ := hms ⟨a, ev, b⟩ (by simp)
    have hsh := ih fun m hm => hms m (List.mem_append_left _ hm)
    exact hsh.step hta.timing.inv.sound hst.2.2 hwa rfl hna
  have hsh := hshort fun m hm => ⟨(hall m hm).1.1, (hall m hm).1.2, hno m hm⟩
  have hend : SemSys.Short sem t s₁ (tr ++ [⟨s, .step, s'⟩]) s' :=
    hsh.step ht.timing.inv.sound hrun.ends.2 hw rfl rfl
  obtain ⟨w, sys, -, -, rfl⟩ := SemSys.returns_step hrun.ends.2 hvalue
  unfold SemSys.Short at hend
  rw [SemSys.without_snoc] at hend
  have hown : SemSys.othersOp sem t ⟨s, .step, { s.goto .user with sys := sys }⟩ = none :=
    if_pos (decide_eq_true hback)
  have hasked : (({ s.goto .user with sys := sys } : SemSys).wpc t).asked = true := by
    subst hback
    rw [show ({ s.goto .user with sys := sys } : SemSys).wpc s.running = .user from Function.update_self ..]
    rfl
  rw [hown, hasked] at hend
  exact hend

/-- **A call that times out leaves a trace.** In no run does a call of `sys_arch_sem_wait` that returns
`SYS_ARCH_TIMEOUT` leave the semaphore as it would be had the call never been made. The runs are those in which no call
starts with its request at the address of one that is still queued (`SemSys.Contract`). -/
theorem sem_timeout_leaves_trace {cfg : Config} {c : Core} {tr₀ : List (Move SemSys SemEvent)}
    (h : martosPre cfg = .ok c) (hr : Run (Restrict SemSys.Contract SemSys.Step) (SemSys.start (Sys.start c)) tr₀ s₁)
    (hc : SemSys.WaitCall t sem timeout req timer s₁ s₂ tr s s' sysArchTimeout)
    (hno : ∀ m ∈ tr, m.event.initsSem sem = false) : ¬ SemSys.NoTrace sem req t s₁ tr s' := by
  intro hn
  have hcount := hc.count_eq (SemSys.tidy_run h hr) hno
  rw [hn.same] at hcount
  omega

/-- Task 1 waits for a semaphore with count 0, and times out after two ticks. -/
theorem SemSys.exists_timeout : ∃ c tr₀ s₁ s₂ tr s s', martosPre CoreSys.exampleConfig = .ok c ∧
    Run (Restrict SemSys.Contract SemSys.Step) (SemSys.start (Sys.start c)) tr₀ s₁ ∧
    SemSys.WaitCall 1 7 2 3 0 s₁ s₂ tr s s' sysArchTimeout ∧ (∀ m ∈ tr, m.event.initsSem 7 = false) ∧
    s₁.sys.svc.semState 7 = ⟨0, []⟩ ∧ s'.sys.svc.semState 7 = ⟨-1, [3]⟩ := by
  obtain ⟨c, tr₀, s₁, s₂, tr, s, s', hc, hr, hcall, hp, htr⟩ := SemSys.exists_call 1 7 2 3 0 sysArchTimeout
    ((exampleSemWait 2).take 12) exampleSemTimeout
    (p := fun s₁ s' => decide (s₁.sys.svc.semState 7 = ⟨0, []⟩ ∧ s'.sys.svc.semState 7 = ⟨-1, [3]⟩)) (by decide +kernel)
  have hevents : ∀ ev ∈ exampleSemTimeout, ev.initsSem 7 = false := by decide
  obtain ⟨h₁, h'⟩ := of_decide_eq_true hp
  refine ⟨c, tr₀, s₁, s₂, tr, s, s', hc, hr, hcall, fun m hm => hevents _ ?_, h₁, h'⟩
  rw [← htr]
  exact List.mem_map_of_mem hm

/-- The request of a call that has timed out is on the queue, and the count is -1. -/
theorem sem_timeout_leaves_request : ∃ c tr₀ s₁ s₂ tr s s', martosPre CoreSys.exampleConfig = .ok c ∧
    Run (Restrict SemSys.Contract SemSys.Step) (SemSys.start (Sys.start c)) tr₀ s₁ ∧
    SemSys.WaitCall 1 7 2 3 0 s₁ s₂ tr s s' sysArchTimeout ∧ (∀ m ∈ tr, m.event.initsSem 7 = false) ∧
    s₁.sys.svc.semState 7 = ⟨0, []⟩ ∧ s'.sys.svc.semState 7 = ⟨-1, [3]⟩ ∧ ¬ SemSys.NoTrace 7 3 1 s₁ tr s' := by
  obtain ⟨c, tr₀, s₁, s₂, tr, s, s', hc, hr, hcall, hno, h₁, h'⟩ := SemSys.exists_timeout
  refine ⟨c, tr₀, s₁, s₂, tr, s, s', hc, hr, hcall, hno, h₁, h', fun hn => hn.withdrawn ?_⟩
  rw [show s'.sys.svc.reqQueue 7 = [3] from congrArg SemState.reqQueue h']
  exact List.mem_singleton_self 3

/-- The theorem at that call. -/
theorem sem_timeout_leaves_trace_two_ticks : ∃ s₁ s₂ tr s s', SemSys.WaitCall 1 7 2 3 0 s₁ s₂ tr s s' sysArchTimeout ∧
    ¬ SemSys.NoTrace 7 3 1 s₁ tr s' := by
  obtain ⟨c, tr₀, s₁, s₂, tr, s, s', hc, hr, hcall, hno, -⟩ := SemSys.exists_timeout
  exact ⟨s₁, s₂, tr, s, s', hcall, sem_timeout_leaves_trace hc hr hcall hno⟩

end

end Martos
