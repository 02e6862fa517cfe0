import Martos.Services.Deliveries

/-!
# The accounts of a semaphore

The count of a semaphore and its queue of requests are changed apart: `sem_add_request`
counts down and queues the request if the count is then negative, `sem_signal` counts up and
grants the first request if the count is still negative. `SemChange` says what a step does to
one semaphore. Since `sem_signal` tests the count after it has counted up, a signal at count
-1 grants nothing, although there is a request; the request which it should have granted stays
on the queue for good. `Sys.missed` counts these signals, and the accounts are right exactly
as long as there are none (`sem_accounted_iff`).
-/

namespace Martos

open Checked Transition

/-- The semaphore and the request of `sem_add_request`, called directly or in `sem_wait`. -/
def SysEvent.requests : SysEvent → Option (SemRef × ReqRef)
  | .call (.semWait sem req) => some (sem, req)
  | .call (.service (.semAddRequest sem req)) => some (sem, req)
  | .isr (.semAddRequest sem req) => some (sem, req)
  | _ => none

/-- The event is `sem_signal(sem)`. -/
def SysEvent.signalsSem (sem : SemRef) (e : SysEvent) : Bool :=
  match e.service with
  | some (.semSignal sem') => decide (sem' = sem)
  | _ => false

/-- `sem_add_request` returns false: the resource has been got. -/
def gotResource : Except Fault (Bool × Kernel) → Bool
  | .ok (false, _) => true
  | _ => false

namespace Sys

variable (sem : SemRef)

/-- The request made of `sem` in a move. -/
def requested (m : Move Sys SysEvent) : Option ReqRef :=
  m.event.requests.bind fun p => if p.1 = sem then some p.2 else none

/-- The request of `sem` for which `sem_add_request` returns false in an event. -/
def taken (s : Sys) : SysEvent → Option ReqRef
  | .call (.semWait sem' req) =>
    if sem' = sem ∧ gotResource (semWaitRequest sem' req s.kernel) = true then some req else none
  | .call (.service (.semAddRequest sem' req)) =>
    if sem' = sem ∧ gotResource (semAddRequest sem' req s.kernel) = true then some req else none
  | .isr (.semAddRequest sem' req) =>
    if sem' = sem ∧ gotResource (semAddRequest sem' req s.kernel) = true then some req else none
  | _ => none

/-- The requests of `sem` granted in a move: `sem_add_request` has returned false, or the
request has been removed from the queue and its waiter signalled. -/
def granted (m : Move Sys SysEvent) : List ReqRef :=
  (m.pre.taken sem m.event).toList ++ (m.pre.svc.reqQueue sem).filter fun req =>
    decide (req ∉ m.post.svc.reqQueue sem ∧
      ((m.pre.svc.request req).waiter, (m.pre.svc.request req).signal) ∈ m.pre.sends m.event)

/-- `sem_signal` is called in the move at count -1. -/
def misses (m : Move Sys SysEvent) : Bool := m.event.signalsSem sem && decide (m.pre.svc.count sem = -1)

/-- The requests made in a list of moves. -/
def requestsOf (tr : List (Move Sys SysEvent)) : List ReqRef := tr.filterMap (requested sem)

/-- The requests granted in a list of moves. -/
def grantsOf (tr : List (Move Sys SysEvent)) : List ReqRef := tr.flatMap (granted sem)

/-- The number of calls of `sem_signal` in a list of moves. -/
def signalsOf (tr : List (Move Sys SysEvent)) : ℕ := tr.countP fun m => m.event.signalsSem sem

/-- The number of calls of `sem_signal` at count -1. -/
def missed (tr : List (Move Sys SysEvent)) : ℕ := tr.countP (misses sem)

end Sys

/-- What a step that is not `sem_init(sem, ..)` does to semaphore `sem`. -/
inductive SemChange (sem : SemRef) (s : Sys) (e : SysEvent) (s' : Sys) : Prop where
  /-- Nothing. -/
  | keeps (hr : Sys.requested sem ⟨s, e, s'⟩ = none) (hs : e.signalsSem sem = false) (ht : s.taken sem e = none)
      (hc : s'.svc.count sem = s.svc.count sem) (hq : s'.svc.reqQueue sem = s.svc.reqQueue sem)
  /-- A request gets the resource. -/
  | takes (req : ReqRef) (hr : Sys.requested sem ⟨s, e, s'⟩ = some req) (hs : e.signalsSem sem = false)
      (ht : s.taken sem e = some req) (hn : 1 ≤ s.svc.count sem) (hc : s'.svc.count sem = s.svc.count sem - 1)
      (hq : s'.svc.reqQueue sem = s.svc.reqQueue sem)
  /-- A request is queued. -/
  | queues (req : ReqRef) (hr : Sys.requested sem ⟨s, e, s'⟩ = some req) (hs : e.signalsSem sem = false)
      (ht : s.taken sem e = none) (hn : s.svc.count sem ≤ 0) (hc : s'.svc.count sem = s.svc.count sem - 1)
      (hq : s'.svc.reqQueue sem = s.svc.reqQueue sem ++ [req])
  /-- `sem_signal` finds no need to grant a request. -/
  | releases (hr : Sys.requested sem ⟨s, e, s'⟩ = none) (hs : e.signalsSem sem = true)
      (ht : s.taken sem e = none) (hn : -1 ≤ s.svc.count sem) (hc : s'.svc.count sem = s.svc.count sem + 1)
      (hq : s'.svc.reqQueue sem = s.svc.reqQueue sem)
  /-- `sem_signal` grants the first request. -/
  | grants (req : ReqRef) (hr : Sys.requested sem ⟨s, e, s'⟩ = none) (hs : e.signalsSem sem = true)
      (ht : s.taken sem e = none) (hn : s.svc.count sem ≤ -2) (hc : s'.svc.count sem = s.svc.count sem + 1)
      (hq : s.svc.reqQueue sem = req :: s'.svc.reqQueue sem)
      (hd : ((s.svc.request req).waiter, (s.svc.request req).signal) ∈ s.sends e)

section

variable {s s' : Sys} {e : SysEvent} {sem : SemRef}

theorem Sys.requested_eq {m : Move Sys SysEvent} {sem' : SemRef} {req : ReqRef}
    (h : m.event.requests = some (sem', req)) :
    Sys.requested sem m = if sem' = sem then some req else none := by
  simp [Sys.requested, h]

/-- A call that does not block is the one that the event says. -/
theorem Sys.Calls.signalsSem_eq {a : Service} (hc : s.Calls e a) (ha : ∀ sem', a ≠ .semSignal sem') :
    e.signalsSem sem = false := by
  unfold SysEvent.signalsSem
  rw [hc.service_eq]
  cases a with
  | semSignal sem' => exact absurd rfl (ha sem')
  | _ => rfl

theorem Sys.Calls.requests_eq (sem : SemRef) {a : Service} (hc : s.Calls e a)
    (ha : ∀ sem' req, a ≠ .semAddRequest sem' req) :
    e.requests = none ∧ s.taken sem e = none := by
  rcases hc.1 with ⟨rfl, -⟩ | ⟨rfl, -⟩
  · cases a with
    | semAddRequest sem' req => exact absurd rfl (ha sem' req)
    | _ => exact ⟨rfl, rfl⟩
  · cases a with
    | semAddRequest sem' req => exact absurd rfl (ha sem' req)
    | _ => exact ⟨rfl, rfl⟩

/-- When `sem_add_request` returns false. -/
theorem gotResource_iff {k k' : Kernel} {b : Bool} {req : ReqRef} (hb : k.core.Balanced)
    (h : semAddRequest sem req k = .ok (b, k')) :
    gotResource (semAddRequest sem req k) = true ↔ 1 ≤ k.svc.count sem := by
  obtain ⟨hq, -⟩ := semAddRequest_eq_ok hb h
  rw [h, hq]
  by_cases hn : k.svc.count sem - 1 < 0
  · rw [decide_eq_true hn]
    refine ⟨fun hg => ?_, fun hg => ?_⟩
    · cases hg
    · omega
  · rw [decide_eq_false hn]
    exact ⟨fun _ => by omega, fun _ => rfl⟩

/-- The request that gets the resource in a step. -/
theorem Sound.taken_eq (sem : SemRef) {sem' : SemRef} {req : ReqRef} (h : Sound s) (hst : s.Step e s')
    (he : e.requests = some (sem', req)) :
    s.taken sem e = if sem' = sem ∧ 1 ≤ s.svc.count sem' then some req else none := by
  have hb : s.kernel.core.Balanced := h.nested.balanced
  have hasked {r : ReqRef} : (⟨s.cs.core, s.svc.asked r s.cs.core.running⟩ : Kernel).core.Balanced := hb
  have hx := hst.2
  unfold SysEvent.requests at he
  split at he
  · obtain ⟨rfl, rfl⟩ := Prod.mk.inj (Option.some.inj he)
    simp only [Sys.exec, Sys.execCall, bind_eq_ok] at hx
    obtain ⟨⟨b, k⟩, hk, -⟩ := hx
    simp only [Sys.taken]
    refine if_congr (and_congr_right fun _ => ?_) rfl rfl
    exact gotResource_iff hasked hk
  · obtain ⟨rfl, rfl⟩ := Prod.mk.inj (Option.some.inj he)
    simp only [Sys.exec, Sys.execCall, Sys.execService, bind_eq_ok] at hx
    obtain ⟨⟨b, k⟩, hk, -⟩ := hx
    simp only [Sys.taken]
    exact if_congr (and_congr_right fun _ => gotResource_iff hb hk) rfl rfl
  · obtain ⟨rfl, rfl⟩ := Prod.mk.inj (Option.some.inj he)
    simp only [Sys.exec, Sys.execService, bind_eq_ok] at hx
    obtain ⟨⟨b, k⟩, hk, -⟩ := hx
    simp only [Sys.taken]
    exact if_congr (and_congr_right fun _ => gotResource_iff hb hk) rfl rfl
  · cases he

/-- What `sem_add_request` does to a semaphore. -/
theorem Services.requested_count {svc : Services} {sem' : SemRef} {req : ReqRef} :
    (svc.requested sem' req).count sem = if sem = sem' then svc.count sem' - 1 else svc.count sem :=
  Function.update_apply ..

/-- A request of some semaphore, seen from `sem`. -/
theorem Sound.semChange_request {sem' : SemRef} {req : ReqRef} (h : Sound s) (svc : Services) (hst : s.Step e s')
    (he : e.requests = some (sem', req)) (hs : e.signalsSem sem = false) (hc : svc.count = s.svc.count)
    (hq : svc.reqQueue = s.svc.reqQueue) (hsvc : s'.svc = svc.requested sem' req) : SemChange sem s e s' := by
  have hr : Sys.requested sem ⟨s, e, s'⟩ = if sem' = sem then some req else none := Sys.requested_eq he
  have ht := h.taken_eq sem hst he
  have hqueue : s'.svc.reqQueue =
      if svc.count sem' - 1 < 0 then svc.reqQueue.listAddTail sem' req else svc.reqQueue := by
    rw [hsvc]
    rfl
  have hcount : s'.svc.count sem = if sem = sem' then svc.count sem' - 1 else svc.count sem := by
    rw [hsvc]
    exact Services.requested_count
  rw [hc] at hcount hqueue
  rw [hq] at hqueue
  by_cases hsem : sem' = sem
  · subst hsem
    rw [if_pos rfl] at hr hcount
    by_cases hn : 1 ≤ s.svc.count sem'
    · rw [if_pos ⟨rfl, hn⟩] at ht
      rw [if_neg (by omega)] at hqueue
      exact .takes req hr hs ht hn hcount (by rw [hqueue])
    · rw [if_neg fun hand => hn hand.2] at ht
      rw [if_pos (by omega)] at hqueue
      exact .queues req hr hs ht (by omega) hcount (by rw [hqueue, Seqs.listAddTail_self])
  · rw [if_neg hsem] at hr
    rw [if_neg fun hand => hsem hand.1] at ht
    rw [if_neg (Ne.symm hsem)] at hcount
    refine .keeps hr hs ht hcount ?_
    rw [hqueue]
    by_cases hn : s.svc.count sem' - 1 < 0
    · rw [if_pos hn, Seqs.listAddTail_of_ne (Ne.symm hsem)]
    · rw [if_neg hn]

/-- `sem_signal` of some semaphore, seen from `sem`. -/
theorem Sys.Calls.signalsSem_signal {sem' : SemRef} (hc : s.Calls e (.semSignal sem')) :
    e.signalsSem sem = decide (sem' = sem) := by
  unfold SysEvent.signalsSem
  rw [hc.service_eq]

/-- **What a step does to a semaphore.** -/
theorem Sound.semChange (h : Sound s) (sem : SemRef) (hst : s.Step e s')
    (hno : ∀ n, e.service ≠ some (.semInit sem n)) :
    SemChange sem s e s' := by
  have hnot {m : Move Sys SysEvent} (hm : m.event.requests = none) : Sys.requested sem m = none := by
    simp [Sys.requested, hm]
  have hother {a : Service} (hc : s.Calls e a) (ha : ∀ sem', a ≠ .semSignal sem')
      (ha' : ∀ sem' req, a ≠ .semAddRequest sem' req) (hcount : s'.svc.count = s.svc.count)
      (hqueue : s'.svc.reqQueue = s.svc.reqQueue) : SemChange sem s e s' :=
    .keeps (hnot (hc.requests_eq sem ha').1) (hc.signalsSem_eq ha) (hc.requests_eq sem ha').2
      (by rw [hcount]) (by rw [hqueue])
  have hsame (he : e.requests = none) (hs : e.signalsSem sem = false) (ht : s.taken sem e = none)
      (hcount : s'.svc.count = s.svc.count) (hqueue : s'.svc.reqQueue = s.svc.reqQueue) : SemChange sem s e s' :=
    .keeps (hnot he) hs ht (by rw [hcount]) (by rw [hqueue])
  cases h.effect hst with
  | @semInit _ sem' n hc =>
    have hsem : sem ≠ sem' := by
      rintro rfl
      exact hno n hc.service_eq
    exact .keeps (hnot (hc.requests_eq sem (by simp)).1) (hc.signalsSem_eq (by simp))
      (hc.requests_eq sem (by simp)).2 (Function.update_of_ne hsem ..) (Function.update_of_ne hsem ..)
  | @requests _ sem' req hc =>
    refine h.semChange_request s.svc hst ?_ (hc.signalsSem_eq (by simp)) rfl rfl rfl
    rcases hc.1 with ⟨rfl, -⟩ | ⟨rfl, -⟩ <;> rfl
  | @semTaken sem' req hu hr hn =>
    exact h.semChange_request (s.svc.asked req s.cs.core.running) hst rfl rfl rfl rfl rfl
  | @semQueued sem' req hu hr hd hn =>
    exact h.semChange_request (s.svc.asked req s.cs.core.running) hst rfl rfl rfl rfl rfl
  | @released _ sem' hc hn =>
    have hreq := hc.requests_eq sem (by simp)
    by_cases hsem : sem' = sem
    · subst hsem
      exact .releases (hnot hreq.1) (hc.signalsSem_signal.trans (decide_eq_true rfl)) hreq.2 (by omega)
        (Function.update_self ..) rfl
    · exact .keeps (hnot hreq.1) (hc.signalsSem_signal.trans (decide_eq_false hsem)) hreq.2
        (Function.update_of_ne (Ne.symm hsem) ..) rfl
  | @grants _ sem' req cs hc hn hh hd =>
    have hreq := hc.requests_eq sem (by simp)
    by_cases hsem : sem' = sem
    · subst hsem
      refine .grants req (hnot hreq.1) (hc.signalsSem_signal.trans (decide_eq_true rfl)) hreq.2 (by omega)
        (Function.update_self ..) ?_ ?_
      · change s.svc.reqQueue sem' = req :: (s.svc.reqQueue.listRemHead sem').2 sem'
        rw [Seqs.listRemHead_self]
        exact List.eq_cons_of_mem_head? hh
      · rw [hc.sends_eq]
        simp [Service.sends, hn, hh]
    · exact .keeps (hnot hreq.1) (hc.signalsSem_signal.trans (decide_eq_false hsem)) hreq.2
        (Function.update_of_ne (Ne.symm hsem) ..) (Seqs.listRemHead_of_ne (Ne.symm hsem))
  | got hc => exact hother hc (by simp) (by simp) rfl rfl
  | sent hc hm ha hs =>
    rcases hc with hc | ⟨hc, -⟩
    · exact hother hc (by simp) (by simp) rfl rfl
    · exact hother hc (by simp) (by simp) rfl rfl
  | aborts hc ha hm => exact hother hc (by simp) (by simp) rfl rfl
  | abortsNot hc ha => exact hother hc (by simp) (by simp) rfl rfl
  | @write w hu hw => cases w <;> exact hsame rfl rfl rfl rfl rfl
  | _ => exact hsame rfl rfl rfl rfl rfl

/-! ### The accounts -/

/-- Where no request leaves the queue, only the one that gets the resource is granted. -/
theorem Sys.granted_of_subset {m : Move Sys SysEvent}
    (hsub : ∀ req ∈ m.pre.svc.reqQueue sem, req ∈ m.post.svc.reqQueue sem) :
    Sys.granted sem m = (m.pre.taken sem m.event).toList := by
  have hnone : ((m.pre.svc.reqQueue sem).filter fun req => decide (req ∉ m.post.svc.reqQueue sem ∧
      ((m.pre.svc.request req).waiter, (m.pre.svc.request req).signal) ∈ m.pre.sends m.event)) = [] := by
    rw [List.filter_eq_nil_iff]
    intro req hreq hp
    exact (of_decide_eq_true hp).1 (hsub req hreq)
  unfold Sys.granted
  rw [hnone, List.append_nil]

/-- The first request leaves the queue and is granted. -/
theorem Sound.granted_first {req : ReqRef} (h : Sound s) (ht : s.taken sem e = none)
    (hq : s.svc.reqQueue sem = req :: s'.svc.reqQueue sem)
    (hd : ((s.svc.request req).waiter, (s.svc.request req).signal) ∈ s.sends e) :
    Sys.granted sem ⟨s, e, s'⟩ = [req] := by
  have hnodup := h.requests.separate.nodup sem
  rw [hq, List.nodup_cons] at hnodup
  have hrest : ((s'.svc.reqQueue sem).filter fun x => decide (x ∉ s'.svc.reqQueue sem ∧
      ((s.svc.request x).waiter, (s.svc.request x).signal) ∈ s.sends e)) = [] := by
    rw [List.filter_eq_nil_iff]
    intro x hx hp
    exact (of_decide_eq_true hp).1 hx
  unfold Sys.granted
  simp only [ht, Option.toList_none, List.nil_append, hq, List.filter_cons, hrest]
  exact if_pos (decide_eq_true ⟨hnodup.1, hd⟩)

/-- The requests granted in a step, and then those queued, are those queued before it and
those made in it; but where there are resources a request is granted past those queued. -/
theorem Sound.granted_append (h : Sound s) (hch : SemChange sem s e s') :
    Sys.granted sem ⟨s, e, s'⟩ ++ s'.svc.reqQueue sem =
      s.svc.reqQueue sem ++ (Sys.requested sem ⟨s, e, s'⟩).toList ∨
    1 ≤ s.svc.count sem ∧ s'.svc.reqQueue sem = s.svc.reqQueue sem ∧
      Sys.granted sem ⟨s, e, s'⟩ = (Sys.requested sem ⟨s, e, s'⟩).toList := by
  cases hch with
  | keeps hr hs ht hc hq =>
    rw [Sys.granted_of_subset fun req hreq => by rwa [hq]]
    exact .inl (by simp [hr, ht, hq])
  | takes req hr hs ht hn hc hq =>
    rw [Sys.granted_of_subset fun req hreq => by rwa [hq]]
    exact .inr ⟨hn, hq, by simp [hr, ht]⟩
  | queues req hr hs ht hn hc hq =>
    rw [Sys.granted_of_subset fun req hreq => by rw [hq]; exact List.mem_append_left _ hreq]
    exact .inl (by simp [hr, ht, hq])
  | releases hr hs ht hn hc hq =>
    rw [Sys.granted_of_subset fun req hreq => by rwa [hq]]
    exact .inl (by simp [hr, ht, hq])
  | grants req hr hs ht hn hc hq hd =>
    rw [h.granted_first ht hq hd, hr, hq]
    exact .inl (by simp)

/-- The books of semaphore `sem`, initialised with `n`, after the moves `tr`. -/
structure Books (sem : SemRef) (n : ℤ) (tr : List (Move Sys SysEvent)) (s : Sys) : Prop where
  /-- The count is what is left. -/
  count : s.svc.count sem = n + Sys.signalsOf sem tr - (Sys.requestsOf sem tr).length
  /-- The requests made have been granted or are queued. -/
  requests : (Sys.grantsOf sem tr).length + (s.svc.reqQueue sem).length = (Sys.requestsOf sem tr).length
  /-- Each missed signal leaves a request too many on the queue. -/
  queue : ((s.svc.reqQueue sem).length : ℤ) = max 0 (-s.svc.count sem) + Sys.missed sem tr
  /-- As long as there are none, requests are granted in their order. -/
  order : Sys.missed sem tr = 0 → Sys.grantsOf sem tr ++ s.svc.reqQueue sem = Sys.requestsOf sem tr

variable {tr : List (Move Sys SysEvent)} {m : Move Sys SysEvent} {n : ℤ}

theorem Sys.requestsOf_snoc :
    Sys.requestsOf sem (tr ++ [m]) = Sys.requestsOf sem tr ++ (Sys.requested sem m).toList := by
  unfold Sys.requestsOf
  rw [List.filterMap_append]
  cases hm : Sys.requested sem m <;> simp [hm]

theorem Sys.grantsOf_snoc : Sys.grantsOf sem (tr ++ [m]) = Sys.grantsOf sem tr ++ Sys.granted sem m := by
  simp [Sys.grantsOf]

theorem Sys.signalsOf_snoc :
    Sys.signalsOf sem (tr ++ [m]) = Sys.signalsOf sem tr + (m.event.signalsSem sem).toNat := by
  cases hm : m.event.signalsSem sem <;> simp [Sys.signalsOf, hm]

theorem Sys.missed_snoc : Sys.missed sem (tr ++ [m]) = Sys.missed sem tr + (Sys.misses sem m).toNat := by
  cases hm : Sys.misses sem m <;> simp [Sys.missed, hm]

/-- The count goes down with a request and up with a signal. -/
theorem SemChange.count_eq (hch : SemChange sem s e s') : s'.svc.count sem = s.svc.count sem +
    (e.signalsSem sem).toNat - (Sys.requested sem ⟨s, e, s'⟩).toList.length := by
  cases hch with
  | keeps hr hs ht hc hq => simp [hr, hs, hc]
  | takes req hr hs ht hn hc hq => simp [hr, hs, hc]
  | queues req hr hs ht hn hc hq => simp [hr, hs, hc]
  | releases hr hs ht hn hc hq => simp [hr, hs, hc]
  | grants req hr hs ht hn hc hq hd => simp [hr, hs, hc]

/-- The length of the queue follows the count, but for a signal at count -1. -/
theorem SemChange.length_eq (hch : SemChange sem s e s') :
    ((s'.svc.reqQueue sem).length : ℤ) - max 0 (-s'.svc.count sem) =
      (s.svc.reqQueue sem).length - max 0 (-s.svc.count sem) + (Sys.misses sem ⟨s, e, s'⟩).toNat := by
  have hmiss (hs : e.signalsSem sem = false) : Sys.misses sem ⟨s, e, s'⟩ = false := by simp [Sys.misses, hs]
  cases hch with
  | keeps hr hs ht hc hq => simp [hmiss hs, hc, hq]
  | takes req hr hs ht hn hc hq =>
    simp only [hmiss hs, hc, hq, Bool.toNat_false]
    omega
  | queues req hr hs ht hn hc hq =>
    simp only [hmiss hs, hc, hq, List.length_append, List.length_singleton, Bool.toNat_false]
    omega
  | releases hr hs ht hn hc hq =>
    by_cases hm : s.svc.count sem = -1
    · simp [Sys.misses, hs, hc, hq, hm]
    · simp only [Sys.misses, hs, hc, hq, Bool.true_and, decide_eq_false hm, Bool.toNat_false]
      omega
  | grants req hr hs ht hn hc hq hd =>
    have hm : s.svc.count sem ≠ -1 := by omega
    simp only [Sys.misses, hs, hc, hq, List.length_cons, Bool.true_and, decide_eq_false hm, Bool.toNat_false]
    omega

/-- A step keeps the books. -/
theorem Books.step (hbk : Books sem n tr s) (h : Sound s) (hch : SemChange sem s e s') :
    Books sem n (tr ++ [⟨s, e, s'⟩]) s' := by
  have hq := hbk.queue
  have hcount := hbk.count
  have hreq := hbk.requests
  have happend := h.granted_append hch
  refine ⟨?_, ?_, ?_, fun hz => ?_⟩
  · rw [hch.count_eq, hcount, Sys.signalsOf_snoc, Sys.requestsOf_snoc, List.length_append]
    push_cast
    omega
  · rw [Sys.grantsOf_snoc, Sys.requestsOf_snoc, List.length_append, List.length_append]
    rcases happend with happend | ⟨-, hqueue, hgranted⟩
    · have hlen := congrArg List.length happend
      rw [List.length_append, List.length_append] at hlen
      omega
    · rw [hqueue, hgranted]
      omega
  · have hlen := hch.length_eq
    rw [Sys.missed_snoc]
    push_cast
    omega
  · rw [Sys.missed_snoc] at hz
    have hnone : Sys.missed sem tr = 0 := by omega
    rw [Sys.grantsOf_snoc, Sys.requestsOf_snoc, ← hbk.order hnone]
    rcases happend with happend | ⟨hpos, hqueue, hgranted⟩
    · rw [List.append_assoc, happend, List.append_assoc]
    · -- there are resources, so nothing is queued
      have hempty : s.svc.reqQueue sem = [] := by
        rw [← List.length_eq_zero_iff]
        omega
      rw [hqueue, hgranted, hempty, List.append_nil, List.append_nil]

/-- The books are right after `sem_init`. -/
theorem Books.init (h : Sound s) (hst : s.Step e s') (he : e.service = some (.semInit sem n)) (hn : 0 ≤ n) :
    Books sem n [] s' := by
  have hsvc : s'.svc.count sem = n ∧ s'.svc.reqQueue sem = [] := by
    cases h.effect hst with
    | semInit hc =>
      obtain ⟨rfl, rfl⟩ := Service.semInit.inj (Option.some.inj (hc.service_eq.symm.trans he))
      exact ⟨Function.update_self .., Function.update_self ..⟩
    | requests hc => cases hc.service_eq.symm.trans he
    | released hc => cases hc.service_eq.symm.trans he
    | grants hc => cases hc.service_eq.symm.trans he
    | got hc => cases hc.service_eq.symm.trans he
    | sent hc => rcases hc with hc | ⟨hc, -⟩ <;> cases hc.service_eq.symm.trans he
    | aborts hc => cases hc.service_eq.symm.trans he
    | abortsNot hc => cases hc.service_eq.symm.trans he
    | _ => cases he
  refine ⟨?_, ?_, ?_, fun _ => ?_⟩
  · simp [hsvc.1, Sys.signalsOf, Sys.requestsOf]
  · simp [hsvc.2, Sys.grantsOf, Sys.requestsOf]
  · simp [hsvc.1, hsvc.2, Sys.missed, hn]
  · simp [hsvc.2, Sys.grantsOf, Sys.requestsOf]

/-- The books are kept over a run. -/
theorem Books.run (hbk : Books sem n [] s) (h : Sound s) (hr : Run Sys.Step s tr s')
    (hno : ∀ x ∈ tr, ∀ k, x.event.service ≠ some (.semInit sem k)) : Books sem n tr s' := by
  induction hr with
  | nil => exact hbk
  | @snoc tr a b e hra hst ih =>
    have hsound : Sound a := hra.invariant h fun _ _ _ ha hst => ha.step hst
    have hb := ih fun x hx => hno x (List.mem_append_left _ hx)
    exact hb.step hsound (hsound.semChange sem hst (hno ⟨a, e, b⟩ (by simp)))

/-- The accounts of semaphore `sem`, initialised with `n`, after the moves `tr`. -/
structure Accounted (sem : SemRef) (n : ℤ) (tr : List (Move Sys SysEvent)) (s : Sys) : Prop where
  /-- The queue is as long as the count says. -/
  queue : ((s.svc.reqQueue sem).length : ℤ) = max 0 (-s.svc.count sem)
  /-- Of `r` requests and with `s` signals, `min r (n + s)` have been granted. -/
  granted : ((Sys.grantsOf sem tr).length : ℤ) = min ((Sys.requestsOf sem tr).length : ℤ) (n + Sys.signalsOf sem tr)
  /-- In the order in which they were made. -/
  order : Sys.grantsOf sem tr <+: Sys.requestsOf sem tr

/-- **When the accounts of a semaphore are right.** After `sem_init(sem, n)`, in any run: the
queue of requests is as long as the count says, `min r (n + s)` of `r` requests have been granted
after `s` signals, and in their order, if and only if `sem_signal` has never been called at
count -1. -/
theorem sem_accounted_iff {cfg : Config} {c : Core} (h : martosPre cfg = .ok c)
    (hr : Run Sys.Step (Sys.start c) tr s) {tr₁ tr₂ : List (Move Sys SysEvent)} (htr : tr = tr₁ ++ m :: tr₂)
    (hinit : m.event.service = some (.semInit sem n)) (hn : 0 ≤ n)
    (hno : ∀ x ∈ tr₂, ∀ k, x.event.service ≠ some (.semInit sem k)) :
    Accounted sem n tr₂ s ↔ ∀ x ∈ tr₂, x.event.signalsSem sem = true → x.pre.svc.count sem ≠ -1 := by
  obtain ⟨hr₁, hst, hr₂⟩ := hr.split htr
  have hpre := Sound.run h hr₁
  have hbk := (Books.init hpre hst hinit hn).run (hpre.step hst) hr₂ hno
  have hqueue := hbk.queue
  have hcount := hbk.count
  have hmissed : (∀ x ∈ tr₂, x.event.signalsSem sem = true → x.pre.svc.count sem ≠ -1) ↔ Sys.missed sem tr₂ = 0 := by
    unfold Sys.missed
    rw [List.countP_eq_zero]
    refine forall₂_congr fun x _ => ?_
    simp [Sys.misses]
  rw [hmissed]
  constructor
  · intro ha
    have hlen := ha.queue
    omega
  · intro hz
    have horder := hbk.order hz
    have hlen := hbk.requests
    refine ⟨by omega, by omega, ?_⟩
    rw [← horder]
    exact List.prefix_append ..

/-- No request of the caller of `sem_signal(sem)` is queued. -/
def SignalsOthers (sem : SemRef) (s : Sys) (e : SysEvent) : Prop :=
  e.signalsSem sem = true → ∀ req ∈ s.svc.reqQueue sem, (s.svc.request req).waiter ≠ s.cs.core.running

instance (s : Sys) (e : SysEvent) : Decidable (SignalsOthers sem s e) := inferInstanceAs (Decidable (_ → _))

/-- The events of the example runs: semaphore 7 is initialised with 0; task 1 is started and
calls `sem_wait`; then the init task runs again. -/
def SysEvent.semWaitExample : List SysEvent :=
  CoreSys.oneTask.map .core ++ [.call (.semWait 7 3), .resume, .core .resume, .core .pendSV,
    .core (.pendSVSwitch 0x20001200), .core .pendSVExit]

theorem SysEvent.semWaitExample_quiet : ∀ e ∈ SysEvent.semWaitExample,
    (∀ k, e.service ≠ some (.semInit 7 k)) ∧ e.signalsSem 7 = false := by
  simp [SysEvent.semWaitExample, CoreSys.oneTask, CoreSys.startTask, CoreSys.lowerInit, SysEvent.service,
    SysEvent.signalsSem]

/-- The theorem at a run with a queued request of task 1, of a semaphore initialised with 0. -/
theorem sem_accounted_iff_queued : ∃ c tr₁ m tr₂ s, martosPre CoreSys.exampleConfig = .ok c ∧
    Run Sys.Step (Sys.start c) (tr₁ ++ m :: tr₂) s ∧ m.event.service = some (.semInit 7 0) ∧
    s.svc.reqQueue 7 = [3] ∧ Accounted 7 0 tr₂ s := by
  obtain ⟨c, tr₁, s₁, s₂, tr₂, s, hc, hr, htr, hp⟩ := Sys.exists_run CoreSys.exampleConfig (fun _ _ => True) []
    (.call (.service (.semInit 7 0))) SysEvent.semWaitExample
    (p := fun _ _ s => decide (s.svc.reqQueue 7 = [3])) (by decide +kernel)
  have hr := hr.mono fun _ _ _ => And.right
  have hquiet (x : Move Sys SysEvent) (hx : x ∈ tr₂) :
      (∀ k, x.event.service ≠ some (.semInit 7 k)) ∧ x.event.signalsSem 7 = false :=
    SysEvent.semWaitExample_quiet _ (htr ▸ List.mem_map_of_mem hx)
  refine ⟨c, tr₁, _, tr₂, s, hc, hr, rfl, of_decide_eq_true hp, ?_⟩
  refine (sem_accounted_iff hc hr rfl rfl le_rfl fun x hx => (hquiet x hx).1).mpr fun x hx hs => ?_
  rw [(hquiet x hx).2] at hs
  cases hs

/-- Task 1 waits for the semaphore, the init task signals it, and the request stays queued. -/
theorem sem_signal_misses_waiter : ¬ ∀ (cfg : Config) (c : Core) (tr₁ tr₂ : List (Move Sys SysEvent))
    (m : Move Sys SysEvent) (s : Sys) (sem : SemRef) (n : ℤ), martosPre cfg = .ok c →
    Run (Restrict (SignalsOthers sem) Sys.Step) (Sys.start c) (tr₁ ++ m :: tr₂) s →
    m.event.service = some (.semInit sem n) → 0 ≤ n →
    (∀ x ∈ tr₂, ∀ k, x.event.service ≠ some (.semInit sem k)) → Accounted sem n tr₂ s := by
  intro hall
  obtain ⟨c, tr₁, s₁, s₂, tr₂, s, hc, hr, htr, hp⟩ := Sys.exists_run CoreSys.exampleConfig (SignalsOthers 7) []
    (.call (.service (.semInit 7 0))) (SysEvent.semWaitExample ++ [.call (.service (.semSignal 7))])
    (p := fun _ _ s => decide (s.svc.reqQueue 7 = [3] ∧ s.svc.count 7 = 0)) (by decide +kernel)
  obtain ⟨hq, hcount⟩ := of_decide_eq_true hp
  have hno (x : Move Sys SysEvent) (hx : x ∈ tr₂) (k : ℤ) : x.event.service ≠ some (.semInit 7 k) := by
    have hev : x.event ∈ SysEvent.semWaitExample ++ [.call (.service (.semSignal 7))] :=
      htr ▸ List.mem_map_of_mem hx
    rcases List.mem_append.mp hev with hev | hev
    · exact (SysEvent.semWaitExample_quiet _ hev).1 k
    · rw [List.mem_singleton.mp hev]
      simp [SysEvent.service]
  have hacc := hall _ c tr₁ tr₂ _ s 7 0 hc hr rfl le_rfl hno
  have hlen := hacc.queue
  rw [hq, hcount] at hlen
  exact absurd hlen (by decide)

end

end Martos
