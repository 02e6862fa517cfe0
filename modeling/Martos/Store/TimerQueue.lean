import Martos.Lib.Transition
import Martos.Services.Timers
import Martos.Store.Refinement

/-!
# The queue of timers over whole runs

The links of the nodes, under any sequence of `timer_add`, `timer_abort` and `timer_poll` with
any readings of the clock, and anything else in between that leaves the queue and the timers on
it alone. The queue is a well-formed list in the order of the ticks, and timers with one tick are
in the order in which they were inserted. `InOrder` is the invariant; it holds of the log of
insertions, which is a function of the run.

* `InOrder.sublist`, `InOrder.orderedInsert` — timers leave the queue, and one comes into it.
* `Store.Settled.polls` — what one poll of such a queue does, link by link.
* `Store.Kept.step` — every step of the system keeps the invariant.
* `Shows.polls` — `TIM2_IRQHandler` finds such a queue in the states of the machine.
-/

namespace Martos

open Checked Transition Agreement DoublyLinked

/-! ### The order of the last occurrences in a log -/

/-- The last `a` of the log comes before the last `b`. -/
def LastBefore (log : List TimerRef) (a b : TimerRef) : Prop :=
  ∃ us vs, log = us ++ vs ∧ a ∈ us ∧ a ∉ vs ∧ b ∈ vs

section

variable {log : List TimerRef} {a b x : TimerRef}

/-- A later entry that is not `a`. -/
theorem LastBefore.snoc (h : LastBefore log a b) (hx : x ≠ a) : LastBefore (log ++ [x]) a b := by
  obtain ⟨us, vs, rfl, hus, hvs, hb⟩ := h
  refine ⟨us, vs ++ [x], List.append_assoc .., hus, fun hm => ?_, List.mem_append_left _ hb⟩
  rcases List.mem_append.mp hm with hm | hm
  · exact hvs hm
  · exact hx (List.mem_singleton.mp hm).symm

theorem LastBefore.new (ha : a ∈ log) (hab : a ≠ b) : LastBefore (log ++ [b]) a b :=
  ⟨log, [b], rfl, ha, by simpa using hab, by simp⟩

end

/-! ### The order of the queue -/

/-- `a` is before `b` in the queue: its tick is less, or it is the same and `a` was inserted first. -/
def QueuedBefore (timer : TimerRef → Timer) (log : List TimerRef) (a b : TimerRef) : Prop :=
  (timer a).tick < (timer b).tick ∨ (timer a).tick = (timer b).tick ∧ LastBefore log a b

/-- The queue `q` is in order, and the timers on it have been added and have a task to signal. -/
structure InOrder (timer : TimerRef → Timer) (log q : List TimerRef) : Prop where
  /-- The timers. -/
  queued : ∀ tm ∈ q, (timer tm).status = .added ∧ ∃ t, (timer tm).task = some t
  /-- They have been inserted. -/
  logged : ∀ tm ∈ q, tm ∈ log
  /-- The order. -/
  sorted : q.Pairwise (QueuedBefore timer log)

section

variable {timer timer' : TimerRef → Timer} {log q q' : List TimerRef} {tm u : TimerRef}

theorem QueuedBefore.tick_le (h : QueuedBefore timer log u tm) : (timer u).tick ≤ (timer tm).tick := by
  rcases h with hlt | ⟨heq, -⟩
  · exact BitVec.le_of_lt hlt
  · exact BitVec.le_of_eq heq

theorem InOrder.nil : InOrder timer log [] := ⟨nofun, nofun, .nil⟩

/-- Timers leave the queue, and those that stay are not written to. -/
theorem InOrder.sublist (h : InOrder timer log q) (hsub : q'.Sublist q) (heq : ∀ tm ∈ q', timer' tm = timer tm) :
    InOrder timer' log q' where
  queued tm hm := by
    rw [heq tm hm]
    exact h.queued tm (hsub.subset hm)
  logged tm hm := h.logged tm (hsub.subset hm)
  sorted := by
    refine (h.sorted.sublist hsub).imp_of_mem fun {a b} ha hb hab => ?_
    unfold QueuedBefore
    rw [heq a ha, heq b hb]
    exact hab

/-- The order of the timers that are in the queue, after an insertion. -/
theorem QueuedBefore.snoc {a b : TimerRef} (h : QueuedBefore timer log a b) (ha : timer' a = timer a)
    (hb : timer' b = timer b) (htm : tm ≠ a) : QueuedBefore timer' (log ++ [tm]) a b := by
  unfold QueuedBefore
  rw [ha, hb]
  exact h.imp_right fun ⟨heq, hlast⟩ => ⟨heq, hlast.snoc htm⟩

/-- The timer is behind those with the same tick. -/
theorem pairwise_orderedInsert (hs : q.Pairwise (QueuedBefore timer log)) (hlog : ∀ u ∈ q, u ∈ log) (hno : tm ∉ q)
    (heq : ∀ u ∈ q, timer' u = timer u) :
    (q.orderedInsert (fun a b => (timer' a).tick < (timer' b).tick) tm).Pairwise
      (QueuedBefore timer' (log ++ [tm])) := by
  induction q with
  | nil => exact List.pairwise_singleton ..
  | cons x xs ih =>
    obtain ⟨hx, hxs⟩ := List.pairwise_cons.mp hs
    have hne {u : TimerRef} (hu : u ∈ x :: xs) : tm ≠ u := fun he => hno (he ▸ hu)
    have hkeep {a b : TimerRef} (ha : a ∈ x :: xs) (hb : b ∈ x :: xs) (hab : QueuedBefore timer log a b) :
        QueuedBefore timer' (log ++ [tm]) a b := hab.snoc (heq a ha) (heq b hb) (hne ha)
    have hx' (b : TimerRef) (hb : b ∈ xs) : QueuedBefore timer' (log ++ [tm]) x b :=
      hkeep List.mem_cons_self (List.mem_cons_of_mem _ hb) (hx b hb)
    by_cases hlt : (timer' tm).tick < (timer' x).tick
    · -- before the first later timer
      rw [List.orderedInsert, if_pos hlt]
      refine List.pairwise_cons.mpr ⟨fun b hb => ?_, List.pairwise_cons.mpr ⟨hx', ?_⟩⟩
      · rcases List.mem_cons.mp hb with rfl | hb
        · exact .inl hlt
        · have hle := (hx' b hb).tick_le
          exact .inl (by bv_omega)
      · exact hxs.imp_of_mem fun ha hb => hkeep (List.mem_cons_of_mem _ ha) (List.mem_cons_of_mem _ hb)
    · rw [List.orderedInsert, if_neg hlt]
      have hrest := ih hxs (fun u hu => hlog u (List.mem_cons_of_mem _ hu)) (fun hm => hno (List.mem_cons_of_mem _ hm))
        fun u hu => heq u (List.mem_cons_of_mem _ hu)
      refine List.pairwise_cons.mpr ⟨fun b hb => ?_, hrest⟩
      rcases (List.mem_orderedInsert _).mp hb with rfl | hb
      · by_cases he : (timer' x).tick = (timer' b).tick
        · exact .inr ⟨he, LastBefore.new (hlog x List.mem_cons_self) (hne List.mem_cons_self).symm⟩
        · exact .inl (by bv_omega)
      · exact hx' b hb

/-- A timer comes into the queue. -/
theorem InOrder.orderedInsert (h : InOrder timer log q) (hno : tm ∉ q) (heq : ∀ u ∈ q, timer' u = timer u)
    (hadded : (timer' tm).status = .added) (htask : ∃ t, (timer' tm).task = some t) :
    InOrder timer' (log ++ [tm]) (q.orderedInsert (fun a b => (timer' a).tick < (timer' b).tick) tm) where
  queued u hu := by
    rcases (List.mem_orderedInsert _).mp hu with rfl | hu
    · exact ⟨hadded, htask⟩
    · rw [heq u hu]
      exact h.queued u hu
  logged u hu := by
    rcases (List.mem_orderedInsert _).mp hu with rfl | hu
    · simp
    · exact List.mem_append_left _ (h.logged u hu)
  sorted := pairwise_orderedInsert h.sorted h.logged hno heq

end

/-! ### The functions on a queue in order -/

/-- `timers` is a well-formed list, and these timers are on it. -/
def Store.Queue (st : Store) (q : List TimerRef) : Prop :=
  ∃ S f, kernelHeaders ⊆ S ∧ Represents S st.heap f ∧ f .timers = q.map .timer

/-- The store depicts the kernel, whose own lists have been initialised and whose core is settled. -/
structure Store.Settled (st : Store) (k : Kernel) : Prop where
  /-- The lists, and the data. -/
  depicts : ∃ S, kernelHeaders ⊆ S ∧ Depicts S st k
  /-- The core. -/
  core : k.core.Settled

/-- The signals that task `t` has received after these calls of `signal_send`. -/
def receivedAfter (t : TaskRef) (calls : List (TaskRef × Signals)) (recvd : Signals) : Signals :=
  calls.foldl (fun r call => if call.1 = t then r ||| call.2 else r) recvd

section

theorem timers_mem_kernelHeaders : KernelList.timers ∈ kernelHeaders := by simp [kernelHeaders]

theorem ready_mem_kernelHeaders : KernelList.tasks .ready ∈ kernelHeaders := by simp [kernelHeaders]

variable {st : Store} {k : Kernel} {log q : List TimerRef} {tm : TimerRef}

theorem Store.Settled.queue (h : st.Settled k) : st.Queue (k.svc.timers ()) := by
  obtain ⟨S, hS, hd⟩ := h.depicts
  exact ⟨S, k.seqs, hS, hd.lists, rfl⟩

/-- What is on the queue can be read off the links. -/
theorem Store.Settled.queue_unique (h : st.Settled k) (hq : st.Queue q) : q = k.svc.timers () := by
  obtain ⟨S, hS, hd⟩ := h.depicts
  obtain ⟨T, f, hT, hf, hfq⟩ := hq
  have heq : f .timers = k.seqs .timers :=
    hf.unique hd.lists (hT timers_mem_kernelHeaders) (hS timers_mem_kernelHeaders)
  rw [hfq] at heq
  exact KernelNode.timer_injective.list_map heq

theorem Store.Settled.timer (h : st.Settled k) : st.data.svc.timer = k.svc.timer := by
  obtain ⟨S, -, hd⟩ := h.depicts
  exact hd.timer

theorem Store.Settled.task (h : st.Settled k) : st.data.core.task = k.core.task := by
  obtain ⟨S, -, hd⟩ := h.depicts
  rw [hd.data]
  rfl

theorem Store.Settled.nodup_timers (h : st.Settled k) : (k.svc.timers ()).Nodup := by
  obtain ⟨S, -, hd⟩ := h.depicts
  exact (k.timers_within.separate KernelNode.timer_injective timersHeader_injective hd.lists.separate).nodup ()

theorem Store.Settled.clockAt (h : st.Settled k) (now : Ticks) :
    (st.clockAt now).Settled { k with svc := { k.svc with timerNow := now } } := by
  obtain ⟨S, hS, hd⟩ := h.depicts
  exact ⟨⟨S, hS, hd.clockAt now⟩, h.core⟩

/-- `timer_poll` over pointers comes to its end, with one call of `signal_send` for each timer that is due. -/
theorem Store.Settled.timerPoll (h : st.Settled k) (ht : ∀ tm ∈ k.svc.timers (), ∃ t, (k.svc.timer tm).task = some t) :
    ∃ calls st' k', Returns (fun fuel => st.timerPoll fuel) (calls, st') ∧ Martos.timerPoll k = .ok k' ∧
      st'.Settled k' ∧ List.Forall₂ k.svc.Call k.svc.due calls := by
  obtain ⟨S, hS, hd⟩ := h.depicts
  obtain ⟨k', hk', hc'⟩ := timerPoll_ok h.core ht
  have hpoll := hd.timerPoll (hS timers_mem_kernelHeaders) (hS ready_mem_kernelHeaders)
    (Nat.le_add_right k.core.nodes (k.svc.timers ()).length) (Nat.le_add_left ..)
  rw [hk'] at hpoll
  obtain ⟨⟨calls, st'⟩, hret, hd', hcalls⟩ := hpoll.returns
  exact ⟨calls, st', k', hret, hk', ⟨⟨S, hS, hd'⟩, hc'⟩, hcalls⟩

/-- A queue in order is sorted by tick. -/
theorem InOrder.descending {svc : Services} (h : InOrder svc.timer log (svc.timers ())) :
    Seqs.Descending svc.urgency (svc.timers ()) :=
  h.sorted.imp fun hab => Services.urgency_le.mpr hab.tick_le

theorem signalSends_sigRecvd {calls : List (TaskRef × Signals)} {c d : Core} (hc : c.Settled)
    (h : signalSends calls c = .ok d) (t : TaskRef) :
    (d.task t).sigRecvd = receivedAfter t calls (c.task t).sigRecvd := by
  induction calls generalizing c with
  | nil =>
    obtain rfl := pure_eq_ok.mp h
    rfl
  | cons call calls ih =>
    obtain ⟨c', hsend, hc'⟩ := hc.signalSend call.1 call.2
    have hrest : signalSends calls c' = .ok d := by
      unfold signalSends at h ⊢
      rwa [List.foldlM_cons, hsend, ok_bind] at h
    have hone : (c'.task t).sigRecvd =
        if call.1 = t then (c.task t).sigRecvd ||| call.2 else (c.task t).sigRecvd := by
      have hcase : ∀ f : Task → Task, (∀ x, (f x).sigRecvd = x.sigRecvd ||| call.2) →
          ((Function.update c.task call.1 (f (c.task call.1))) t).sigRecvd =
            if call.1 = t then (c.task t).sigRecvd ||| call.2 else (c.task t).sigRecvd := by
        intro f hf
        by_cases ht : call.1 = t
        · subst ht
          rw [if_pos rfl, Function.update_self, hf]
        · rw [if_neg ht, Function.update_of_ne fun he => ht he.symm]
      rcases Core.signalSend_cases hc.balanced hc.located call.1 call.2 with ⟨-, he⟩ | ⟨-, -, he⟩
      · obtain rfl := Except.ok.inj (hsend.symm.trans he)
        exact hcase (fun x => { x with sigRecvd := x.sigRecvd ||| call.2 }) fun _ => rfl
      · obtain rfl := Except.ok.inj (hsend.symm.trans he)
        exact hcase (fun x => { x with sigRecvd := x.sigRecvd ||| call.2, state := .ready }) fun _ => rfl
    rw [ih hc' hrest, hone]
    rfl

/-- The calls of `signal_send` are those for the timers, in their order. -/
theorem Services.Call.forall₂_iff {svc : Services} {xs : List TimerRef} {calls : List (TaskRef × Signals)} :
    List.Forall₂ svc.Call xs calls ↔
      calls.map (fun call => (some call.1, call.2)) =
        xs.map fun tm => ((svc.timer tm).task, (svc.timer tm).signal) := by
  induction xs generalizing calls with
  | nil => cases calls <;> simp
  | cons x xs ih =>
    cases calls with
    | nil => simp
    | cons call calls =>
      simp only [List.forall₂_cons, ih, List.map_cons, List.cons.injEq, Prod.mk.injEq, Services.Call]
      exact and_congr_left fun _ => and_congr eq_comm eq_comm

/-- The calls for these timers are determined. -/
theorem Services.Call.forall₂_unique {svc : Services} {xs : List TimerRef} {calls calls' : List (TaskRef × Signals)}
    (h : List.Forall₂ svc.Call xs calls) (h' : List.Forall₂ svc.Call xs calls') : calls = calls' := by
  have hinj : Function.Injective fun call : TaskRef × Signals => (some call.1, call.2) := by
    rintro ⟨t, sg⟩ ⟨t', sg'⟩ he
    cases he
    rfl
  exact hinj.list_map ((forall₂_iff.mp h).trans (forall₂_iff.mp h').symm)

/-- **A poll of a queue in order**, over the links: it comes to its end, takes from the queue the
timers whose tick has come and no others, marks these, and calls `signal_send` once for each,
in the order of the queue. -/
theorem Store.Settled.polls (h : st.Settled k) (hq : InOrder st.data.svc.timer log (k.svc.timers ())) (now : Ticks) :
    ∃ calls st' k', Returns (fun fuel => (st.clockAt now).timerPoll fuel) (calls, st') ∧ st'.Settled k' ∧
      k'.svc.timers () = (k.svc.timers ()).filter (fun tm => now < (st.data.svc.timer tm).tick) ∧
      (∀ tm, st'.data.svc.timer tm =
        if tm ∈ k.svc.timers () ∧ (st.data.svc.timer tm).tick ≤ now then { st.data.svc.timer tm with status := .done }
        else st.data.svc.timer tm) ∧
      calls.map (fun call => (some call.1, call.2)) =
        (((k.svc.timers ()).filter fun tm => (st.data.svc.timer tm).tick ≤ now).map fun tm =>
          ((st.data.svc.timer tm).task, (st.data.svc.timer tm).signal)) ∧
      ∀ t, (st'.data.core.task t).sigRecvd = receivedAfter t calls (st.data.core.task t).sigRecvd := by
  let svc : Services := { k.svc with timerNow := now }
  have htimer : st.data.svc.timer = svc.timer := h.timer
  rw [htimer] at hq ⊢
  have hq : InOrder svc.timer log (svc.timers ()) := hq
  have hsorted := hq.descending
  obtain ⟨calls, st', k', hret, hpoll, h', hcalls⟩ := (h.clockAt now).timerPoll fun tm hm => (hq.queued tm hm).2
  obtain ⟨hsvc, calls', hcalls', hsends⟩ := timerPoll_eq_ok (k := ⟨k.core, svc⟩) h.core.balanced hpoll
  obtain rfl : calls = calls' := Services.Call.forall₂_unique hcalls hcalls'
  obtain ⟨hdue, hrest⟩ := Services.polled_sorted hsorted
  refine ⟨calls, st', k', hret, h', ?_, fun tm => ?_, ?_, fun t => ?_⟩
  · rw [hsvc, hrest]
    refine List.filter_congr fun tm _ => ?_
    simp only [← decide_not, BitVec.not_le]
    rfl
  · rw [h'.timer, hsvc]
    have hmem : tm ∈ svc.due ↔ tm ∈ svc.timers () ∧ (svc.timer tm).tick ≤ now := Services.mem_due_iff hsorted
    by_cases hd : tm ∈ svc.due
    · rw [Services.polled_timer_of_mem hd]
      exact (if_pos (hmem.mp hd)).symm
    · rw [Services.polled_timer_of_not_mem hd]
      exact (if_neg fun hdue => hd (hmem.mpr hdue)).symm
  · rw [Services.Call.forall₂_iff.mp hcalls']
    exact congrArg _ hdue
  · rw [h'.task, h.task]
    exact signalSends_sigRecvd h.core hsends t

/-- `timer_abort` of a timer in the queue. -/
theorem Store.Settled.timerAbort (h : st.Settled k) (htm : tm ∈ k.svc.timers ())
    (ha : (k.svc.timer tm).status = .added) :
    ∃ st', st.timerAbort tm = some st' ∧
      st'.Settled { k with svc := { k.svc with timers := k.svc.timers.listUnlink tm } } := by
  obtain ⟨S, hS, hd⟩ := h.depicts
  have habort := hd.timerAbort (N := 0) tm
  have hunlink : Martos.timerAbort tm k =
      .ok { k with svc := { k.svc with timers := k.svc.timers.listUnlink tm } } := by
    refine ((timerAbortAdded_transparent tm).critical h.core.balanced).trans ?_
    rw [Martos.timerAbortAdded, if_pos ha, timerUnlink, assertThat_of _ htm]
    rfl
  rw [hunlink] at habort
  obtain ⟨st', ⟨n, he⟩, hd'⟩ := habort.returns
  exact ⟨st', he (n + 1) (by omega), ⟨S, hS, hd'⟩, h.core⟩

end

/-! ### `timer_add` -/

/-- The tick that `timer_add` gives the timer. -/
def Timer.addTick (x : Timer) (clock : Ticks) : Ticks := if x.op = .delay then clock + x.delay else x.tick

/-- `timer_add` takes the timer: what it asserts. -/
def Timer.Addable (x : Timer) : Prop :=
  (x.op = .delay ∨ x.op = .alarm) ∧ (x.status = .initialized ∨ x.status = .done ∨ x.status = .aborted)

/-- The timer after `timer_add`, which reads the clock twice. -/
def Timer.afterAdd (x : Timer) (clock₁ clock₂ : Ticks) : Timer :=
  { x with tick := x.addTick clock₁, status := if x.addTick clock₁ ≤ clock₂ then .aborted else .added }

/-- What `timer_add` does to the timers, which reads the clock twice. -/
def Services.timerAdded (svc : Services) (clock₁ clock₂ : Ticks) (tm : TimerRef) : Services :=
  let svc := { svc.modTimer tm fun x => { x with tick := x.addTick clock₁ } with timerNow := clock₂ }
  if (svc.timer tm).tick ≤ clock₂ then timerAddElapsed tm svc else svc.timerInserted tm

section

variable {st : Store} {k : Kernel} {svc : Services} {tm : TimerRef} {clock₁ clock₂ : Ticks}

/-- `timer_add` up to the second reading of the clock. -/
theorem timerAddStart_of_addable (h : (svc.timer tm).Addable) :
    timerAddStart tm svc = .ok (svc.modTimer tm fun x => { x with tick := x.addTick svc.timerNow }) := by
  unfold timerAddStart
  rw [assertThat_of _ h.1, ok_bind, assertThat_of _ h.2, ok_bind]
  refine congrArg Except.ok ?_
  by_cases hop : (svc.timer tm).op = .delay
  · simp [Services.modTimer, Timer.addTick, hop]
  · simp [Services.modTimer, Timer.addTick, hop]

theorem Services.timerAdded_timer : (svc.timerAdded clock₁ clock₂ tm).timer =
    Function.update svc.timer tm ((svc.timer tm).afterAdd clock₁ clock₂) := by
  have htick : (Function.update svc.timer tm { svc.timer tm with tick := (svc.timer tm).addTick clock₁ } tm).tick =
      (svc.timer tm).addTick clock₁ := congrArg Timer.tick (Function.update_self tm _ svc.timer)
  simp only [timerAdded, modTimer, htick]
  by_cases hle : (svc.timer tm).addTick clock₁ ≤ clock₂
  · simp [timerAddElapsed, modTimer, Timer.afterAdd, hle]
  · simp [timerInserted_timer, modTimer, Timer.afterAdd, hle]

theorem Services.timerAdded_timers : (svc.timerAdded clock₁ clock₂ tm).timers () =
    if (svc.timer tm).addTick clock₁ ≤ clock₂ then svc.timers ()
    else (svc.timers ()).orderedInsert (fun a b => ((svc.timerAdded clock₁ clock₂ tm).timer a).tick <
      ((svc.timerAdded clock₁ clock₂ tm).timer b).tick) tm := by
  -- the services when the clock is read a second time
  let svc' : Services := { svc.modTimer tm fun x => { x with tick := x.addTick clock₁ } with timerNow := clock₂ }
  have htick : (svc'.timer tm).tick = (svc.timer tm).addTick clock₁ :=
    congrArg Timer.tick (Function.update_self tm _ svc.timer)
  have hadded : svc.timerAdded clock₁ clock₂ tm =
      if (svc.timer tm).addTick clock₁ ≤ clock₂ then timerAddElapsed tm svc' else svc'.timerInserted tm := by
    rw [← htick]
    rfl
  rw [hadded]
  by_cases hle : (svc.timer tm).addTick clock₁ ≤ clock₂
  · rw [if_pos hle, if_pos hle]
    rfl
  · have hticks (u : TimerRef) : ((svc'.modTimer tm fun x => { x with status := .added }).timer u).tick =
        (svc'.timer u).tick := apply_modTimer Timer.tick (by exact fun _ => rfl) u
    rw [if_neg hle, if_neg hle]
    simp only [timerInserted_timer, hticks]
    exact Function.update_self () _ svc.timers

/-- `timer_add` over pointers, up to the second reading of the clock. -/
theorem Store.Settled.timerAddStart (h : st.Settled k) (hok : (k.svc.timer tm).Addable) :
    ∃ st', st.timerAddStart tm = some st' ∧
      st'.Settled ⟨k.core, k.svc.modTimer tm fun x => { x with tick := x.addTick k.svc.timerNow }⟩ := by
  obtain ⟨S, hS, hd⟩ := h.depicts
  have hstart := hd.lift (N := 0) (oblivious_timerAddStart tm)
  rw [timerAddStart_of_addable hok, ok_bind] at hstart
  obtain ⟨st', ⟨n, he⟩, hd', -⟩ := hstart.returns
  exact ⟨st', he (n + 1) (by omega), ⟨S, hS, hd'⟩, h.core⟩

/-- The rest of `timer_add` over pointers. -/
theorem Store.Settled.timerAddRest (h : st.Settled k) (hno : tm ∉ k.svc.timers ()) :
    ∃ st', Returns (fun fuel => st.timerAddRest fuel tm) st' ∧ st'.Settled ⟨k.core,
      if (k.svc.timer tm).tick ≤ k.svc.timerNow then timerAddElapsed tm k.svc else k.svc.timerInserted tm⟩ := by
  obtain ⟨S, hS, hd⟩ := h.depicts
  have helapsed : timerElapsed tm st.data.svc = decide ((k.svc.timer tm).tick ≤ k.svc.timerNow) := by
    rw [hd.data]
    rfl
  simp only [Store.timerAddRest, helapsed, decide_eq_true_eq]
  by_cases hle : (k.svc.timer tm).tick ≤ k.svc.timerNow
  · simp only [if_pos hle]
    exact ⟨_, ⟨0, fun _ _ => rfl⟩, ⟨S, hS, hd.modTimer tm fun x => { x with status := .aborted }⟩, h.core⟩
  · simp only [if_neg hle]
    have hinsert := hd.timerAddInsert (hS timers_mem_kernelHeaders) h.core.balanced le_rfl tm
    rw [timerAddInsert_eq h.core.balanced h.nodup_timers, assertThat_of _ hno, ok_bind] at hinsert
    obtain ⟨st', hret, hd'⟩ := hinsert.returns
    exact ⟨st', hret, ⟨S, hS, hd'⟩, h.core⟩

/-- `timer_add` over pointers. -/
theorem Store.Settled.timerAdd (h : st.Settled k) (hno : tm ∉ k.svc.timers ()) (hok : (st.data.svc.timer tm).Addable)
    (clock₁ clock₂ : Ticks) :
    ∃ st', Returns (fun fuel => st.timerAdd fuel clock₁ clock₂ tm) st' ∧
      st'.Settled ⟨k.core, k.svc.timerAdded clock₁ clock₂ tm⟩ := by
  rw [h.timer] at hok
  obtain ⟨st₁, he₁, h₁⟩ := (h.clockAt clock₁).timerAddStart hok
  obtain ⟨st', hret, h'⟩ := (h₁.clockAt clock₂).timerAddRest hno
  have hrun : (fun fuel => st.timerAdd fuel clock₁ clock₂ tm) =
      fun fuel => (st₁.clockAt clock₂).timerAddRest fuel tm := by
    funext fuel
    rw [Store.timerAdd, he₁]
    rfl
  exact ⟨st', hrun ▸ hret, h'⟩

end

/-! ### Runs -/

/-- The calls, with what they read from the clock. -/
inductive TimerEvent where
  /-- `timer_add(tm)`. -/
  | add (tm : TimerRef) (clock₁ clock₂ : Ticks)
  /-- `timer_abort(tm)`. -/
  | abort (tm : TimerRef)
  /-- `timer_poll()`. -/
  | poll (now : Ticks)
  /-- Anything else. -/
  | other

namespace Store

/-- The rest of the system leaves the kernel's lists well formed, and it leaves the queue and the
timers on it as they are. -/
def Spares (st st' : Store) : Prop :=
  ∃ k', st.Queue (k'.svc.timers ()) ∧ st'.Settled k' ∧
    ∀ tm ∈ k'.svc.timers (), st'.data.svc.timer tm = st.data.svc.timer tm

/-- `timer_add` on a timer that has been allocated, `timer_abort` on a timer that is queued, a
poll, and the rest of the system. -/
def TimerStep (st : Store) : TimerEvent → Store → Prop
  | .add tm clock₁ clock₂, st' =>
    (∃ t, (st.data.svc.timer tm).task = some t) ∧ Returns (fun fuel => st.timerAdd fuel clock₁ clock₂ tm) st'
  | .abort tm, st' => (∃ q, st.Queue q ∧ tm ∈ q) ∧ st.timerAbort tm = some st'
  | .poll now, st' => ∃ calls, Returns (fun fuel => (st.clockAt now).timerPoll fuel) (calls, st')
  | .other, st' => st.Spares st'

/-- The timer that a move has put into the queue. -/
def inserted : Move Store TimerEvent → Option TimerRef
  | ⟨_, .add tm _ _, st'⟩ => if (st'.data.svc.timer tm).status = .added then some tm else none
  | _ => none

/-- The timers that have been put into the queue, in that order. -/
def insertions (tr : List (Move Store TimerEvent)) : List TimerRef := tr.filterMap inserted

/-- The lists are well formed, and the queue is in order. -/
def Kept (tr : List (Move Store TimerEvent)) (st : Store) : Prop :=
  ∃ k, st.Settled k ∧ InOrder st.data.svc.timer (insertions tr) (k.svc.timers ())

section

variable {st st' : Store} {tr : List (Move Store TimerEvent)} {e : TimerEvent}

theorem insertions_snoc (mv : Move Store TimerEvent) :
    insertions (tr ++ [mv]) = insertions tr ++ (inserted mv).toList := by
  unfold insertions
  rw [List.filterMap_append]
  cases hmv : inserted mv <;> simp [hmv]

/-- What a call of `timer_add` that returns has asserted. -/
theorem addable_of_returns {tm : TimerRef} {clock₁ clock₂ : Ticks}
    (h : Returns (fun fuel => st.timerAdd fuel clock₁ clock₂ tm) st') : (st.data.svc.timer tm).Addable := by
  obtain ⟨n, hn⟩ := h
  obtain ⟨st₁, hst₁, -⟩ := Option.bind_eq_some_iff.mp (hn (n + 1) (by omega))
  obtain ⟨k, hk, -⟩ := Option.bind_eq_some_iff.mp hst₁
  obtain ⟨svc, hsvc, -⟩ := bind_eq_ok.mp (eq_ok_of_toOption hk)
  simp only [Martos.timerAddStart, bind_eq_ok, assertThat_eq_ok] at hsvc
  obtain ⟨-, hop, -, hstatus, -⟩ := hsvc
  exact ⟨hop, hstatus⟩

theorem Kept.add {tm : TimerRef} {clock₁ clock₂ : Ticks} (h : Kept tr st)
    (htask : ∃ t, (st.data.svc.timer tm).task = some t)
    (hret : Returns (fun fuel => st.timerAdd fuel clock₁ clock₂ tm) st') :
    Kept (tr ++ [⟨st, .add tm clock₁ clock₂, st'⟩]) st' := by
  obtain ⟨k, hk, hq⟩ := h
  have hok := addable_of_returns hret
  have hno : tm ∉ k.svc.timers () := by
    intro hm
    rcases hok.2 with hst | hst | hst <;> rw [(hq.queued tm hm).1] at hst <;> cases hst
  obtain ⟨st'', hret', hk'⟩ := hk.timerAdd hno hok clock₁ clock₂
  obtain rfl : st' = st'' := hret.unique hret'
  have htimer : st'.data.svc.timer =
      Function.update st.data.svc.timer tm ((st.data.svc.timer tm).afterAdd clock₁ clock₂) := by
    rw [hk'.timer, Services.timerAdded_timer, hk.timer]
  have hself : st'.data.svc.timer tm = (st.data.svc.timer tm).afterAdd clock₁ clock₂ := by
    rw [htimer, Function.update_self]
  have hother (u : TimerRef) (hu : u ∈ k.svc.timers ()) : st'.data.svc.timer u = st.data.svc.timer u := by
    have hne : u ≠ tm := fun he => hno (he ▸ hu)
    rw [htimer, Function.update_of_ne hne]
  refine ⟨_, hk', ?_⟩
  rw [insertions_snoc, Services.timerAdded_timers, ← hk'.timer, ← hk.timer]
  by_cases hle : (st.data.svc.timer tm).addTick clock₁ ≤ clock₂
  · have hnone : inserted ⟨st, .add tm clock₁ clock₂, st'⟩ = none := by simp [inserted, hself, Timer.afterAdd, hle]
    rw [hnone, if_pos hle, Option.toList_none, List.append_nil]
    exact hq.sublist (List.Sublist.refl _) hother
  · have hadded : (st'.data.svc.timer tm).status = .added := by rw [hself]; exact if_neg hle
    have hsome : inserted ⟨st, .add tm clock₁ clock₂, st'⟩ = some tm := if_pos hadded
    rw [hsome, if_neg hle]
    exact hq.orderedInsert hno hother hadded (by rw [hself]; exact htask)

theorem Kept.abort {tm : TimerRef} (h : Kept tr st) (hm : ∃ q, st.Queue q ∧ tm ∈ q)
    (hret : st.timerAbort tm = some st') : Kept (tr ++ [⟨st, .abort tm, st'⟩]) st' := by
  obtain ⟨k, hk, hq⟩ := h
  obtain ⟨q, hstq, hmem⟩ := hm
  rw [hk.queue_unique hstq] at hmem
  have hadded : (k.svc.timer tm).status = .added := by
    rw [← hk.timer]
    exact (hq.queued tm hmem).1
  obtain ⟨st'', hret', hk'⟩ := hk.timerAbort hmem hadded
  obtain rfl : st' = st'' := Option.some.inj (hret.symm.trans hret')
  refine ⟨_, hk', ?_⟩
  have htimer : st'.data.svc.timer = st.data.svc.timer := hk'.timer.trans hk.timer.symm
  rw [insertions_snoc, htimer]
  change InOrder st.data.svc.timer (insertions tr ++ []) ((k.svc.timers ()).erase tm)
  rw [List.append_nil]
  exact hq.sublist List.erase_sublist fun _ _ => rfl

theorem Kept.poll {now : Ticks} {calls : List (TaskRef × Signals)} (h : Kept tr st)
    (hret : Returns (fun fuel => (st.clockAt now).timerPoll fuel) (calls, st')) :
    Kept (tr ++ [⟨st, .poll now, st'⟩]) st' := by
  obtain ⟨k, hk, hq⟩ := h
  obtain ⟨calls', st'', k', hret', hk', htimers, htimer, -⟩ := hk.polls hq now
  obtain ⟨-, rfl⟩ := Prod.mk.inj (hret.unique hret')
  refine ⟨k', hk', ?_⟩
  rw [insertions_snoc, htimers]
  change InOrder st'.data.svc.timer (insertions tr ++ []) _
  rw [List.append_nil]
  refine hq.sublist List.filter_sublist fun tm hm => ?_
  have hlater : now < (st.data.svc.timer tm).tick := of_decide_eq_true (List.mem_filter.mp hm).2
  rw [htimer tm, if_neg]
  rintro ⟨-, hle⟩
  exact BitVec.not_lt.mpr hle hlater

theorem Kept.other (h : Kept tr st) (hs : st.Spares st') : Kept (tr ++ [⟨st, .other, st'⟩]) st' := by
  obtain ⟨k, hk, hq⟩ := h
  obtain ⟨k', hqueue, hk', htimer⟩ := hs
  refine ⟨k', hk', ?_⟩
  rw [insertions_snoc]
  change InOrder st'.data.svc.timer (insertions tr ++ []) _
  rw [hk.queue_unique hqueue] at htimer ⊢
  rw [List.append_nil]
  exact hq.sublist (List.Sublist.refl _) htimer

/-- Every step keeps the queue in order. -/
theorem Kept.step (h : Kept tr st) (hst : st.TimerStep e st') : Kept (tr ++ [⟨st, e, st'⟩]) st' := by
  cases e with
  | add tm clock₁ clock₂ => exact h.add hst.1 hst.2
  | abort tm => exact h.abort hst.1 hst.2
  | poll now =>
    obtain ⟨calls, hret⟩ := hst
    exact h.poll hret
  | other => exact h.other hst

end

end Store

section

variable {st₀ st : Store} {k₀ : Kernel} {tr : List (Move Store TimerEvent)}

/-- Every run from an empty queue keeps the queue in order. -/
theorem kept_of_run (h₀ : st₀.Settled k₀) (he : k₀.svc.timers () = []) (hr : Run Store.TimerStep st₀ tr st) :
    Store.Kept tr st := by
  refine hr.history ⟨k₀, h₀, ?_⟩ fun _ _ _ _ _ hp hst => hp.step hst
  rw [he]
  exact .nil

/-- **The queue of timers.** After any run from an empty queue, of `timer_add`, `timer_abort` on
timers that are queued and `timer_poll`, with any readings of the clock, `timers` is a well-formed
list in the order of the ticks, in which timers with one tick are in the order of their insertion.
A poll at any clock value then returns. It leaves the timers with a later tick, in their order, as
a well-formed list, marks exactly the others `TIMER_DONE`, and calls `signal_send` once for each
of these, in the order of the queue; its task has received the signal then. -/
theorem timer_queue_sorted_and_polled (h₀ : st₀.Settled k₀) (he : k₀.svc.timers () = [])
    (hr : Run Store.TimerStep st₀ tr st) :
    ∃ q, st.Queue q ∧ q.Nodup ∧ q.Pairwise (QueuedBefore st.data.svc.timer (Store.insertions tr)) ∧
      ∀ now, ∃ calls st', Returns (fun fuel => (st.clockAt now).timerPoll fuel) (calls, st') ∧
        st'.Queue (q.filter fun tm => now < (st.data.svc.timer tm).tick) ∧
        (∀ tm, st'.data.svc.timer tm =
          if tm ∈ q ∧ (st.data.svc.timer tm).tick ≤ now then { st.data.svc.timer tm with status := .done }
          else st.data.svc.timer tm) ∧
        calls.map (fun call => (some call.1, call.2)) =
          ((q.filter fun tm => (st.data.svc.timer tm).tick ≤ now).map fun tm =>
            ((st.data.svc.timer tm).task, (st.data.svc.timer tm).signal)) ∧
        ∀ t, (st'.data.core.task t).sigRecvd = receivedAfter t calls (st.data.core.task t).sigRecvd := by
  obtain ⟨k, hk, hq⟩ := kept_of_run h₀ he hr
  refine ⟨k.svc.timers (), hk.queue, hk.nodup_timers, hq.sorted, fun now => ?_⟩
  obtain ⟨calls, st', k', hret, hk', htimers, htimer, hcalls⟩ := hk.polls hq now
  exact ⟨calls, st', hret, htimers ▸ hk'.queue, htimer, hcalls⟩

end

/-- No task is scheduled yet, and all timers are allocated and set to tick 5. -/
def exampleTimers : Kernel where
  core := { resetCore CoreSys.exampleConfig with idNestcnt := -1 }
  svc := { resetServices with timer := fun _ => ⟨some 1, 1, 0, 5, .alarm, .initialized⟩ }

/-- The memory after `list_init` of the kernel's lists. -/
def exampleStore : Store :=
  let st : Store := ⟨⟨fun _ => none, fun _ => none⟩, exampleTimers⟩
  ((st.listInit (.tasks .ready)).listInit (.tasks .waiting)).listInit .timers

theorem settled_exampleStore : exampleStore.Settled exampleTimers := by
  have hseqs : exampleTimers.seqs = fun _ => [] := by
    funext l
    cases l <;> rfl
  have hinit {S : Set KernelList} {st : Store} (h : Depicts S st exampleTimers) (l : KernelList) :
      Depicts (S ∪ {l}) (st.listInit l) exampleTimers := by
    refine h.listInit l ?_ rfl
    rw [hseqs]
    exact Function.update_eq_self l fun _ => []
  have hd := hinit (hinit (hinit (.uninitialised hseqs) (.tasks .ready)) (.tasks .waiting)) .timers
  refine ⟨⟨_, ?_, hd⟩, ⟨rfl, le_refl _⟩, fun _ => List.nodup_nil, fun l t => ?_⟩
  · rintro l (rfl | rfl | rfl) <;> simp
  · simp [exampleTimers, resetCore, Core.place, TaskState.list]

/-- Two timers with one tick, and the poll at which they are due. -/
theorem timer_queue_sorted_and_polled_ties : ∃ tr st calls st', Run Store.TimerStep exampleStore tr st ∧
    tr.map Move.event = [.add 7 0 0, .add 3 2 4] ∧ Store.insertions tr = [7, 3] ∧ st.Queue [7, 3] ∧
    [7, 3].Pairwise (QueuedBefore st.data.svc.timer [7, 3]) ∧
    Returns (fun fuel => (st.clockAt 5).timerPoll fuel) (calls, st') ∧ st'.Queue [] ∧
    calls.map (fun call => (some call.1, call.2)) = [(some 1, 1), (some 1, 1)] := by
  have h₀ := settled_exampleStore
  have hno : 7 ∉ exampleTimers.svc.timers () := by decide
  obtain ⟨st₁, hret₁, h₁⟩ := h₀.timerAdd hno ⟨.inr rfl, .inl rfl⟩ 0 0
  have ht₁ := h₁.timer
  have hok : (st₁.data.svc.timer 3).Addable := by
    rw [ht₁]
    exact ⟨.inr rfl, .inl rfl⟩
  obtain ⟨st₂, hret₂, h₂⟩ := h₁.timerAdd (by decide) hok 2 4
  have hst₁ : exampleStore.TimerStep (.add 7 0 0) st₁ := ⟨⟨1, rfl⟩, hret₁⟩
  have hst₂ : st₁.TimerStep (.add 3 2 4) st₂ := ⟨⟨1, by rw [ht₁]; rfl⟩, hret₂⟩
  have hrun := (Run.one hst₁).snoc hst₂
  have hins : Store.insertions ([⟨exampleStore, .add 7 0 0, st₁⟩] ++ [⟨st₁, .add 3 2 4, st₂⟩]) = [7, 3] := by
    simp only [Store.insertions, Store.inserted, List.singleton_append, List.filterMap_cons, List.filterMap_nil, ht₁,
      h₂.timer]
    decide
  obtain ⟨q, hq, -, hsorted, hpolls⟩ := timer_queue_sorted_and_polled h₀ rfl hrun
  obtain rfl : q = [7, 3] := h₂.queue_unique hq
  rw [hins] at hsorted
  obtain ⟨calls, st', hret, hq', -, hcalls, -⟩ := hpolls 5
  rw [h₂.timer] at hq' hcalls
  exact ⟨_, st₂, calls, st', hrun, rfl, hins, hq, hsorted, hret, hq', hcalls⟩

/-! ### The machine -/

/-- In a state of the machine where the contracts of the timers are kept, the poll of `TIM2_IRQHandler`
returns, and calls `signal_send` once for each timer that is due. -/
theorem Shows.polls {S : Set KernelList} {a : StoreSys} {s : Sys} (h : Shows S a s) (hup : HeadersUp S s) (hs : Sound s)
    (ht : Timed s) :
    ∃ calls st', Returns (fun fuel => (a.store.clockAt (s.svc.timerNow + 1)).timerPoll fuel) (calls, st') ∧
      List.Forall₂ s.svc.clocked.Call s.svc.clocked.due calls := by
  have hset : a.store.Settled s.kernel := ⟨⟨S, hup.kernel, h.store⟩, hs.settled⟩
  obtain ⟨calls, st', -, hret, -, -, hcalls⟩ := (hset.clockAt (s.svc.timerNow + 1)).timerPoll fun tm hm =>
    ht.allocated tm (by rw [(ht.queued tm hm).1]; decide)
  exact ⟨calls, st', hret, hcalls⟩

end Martos
