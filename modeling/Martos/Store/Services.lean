import Martos.Store.Core

/-!
# The services over pointers

The functions of `semaphore.c`, `msgport.c` and `timer.c` over pointers do what those of
`Services.Kernel` do over sequences. Their lists have to be initialised, and a request or message
that is queued has to be on no list; the functions over sequences notice the rest.

`timer_poll` reads the `next` of a node which it has unlinked, after a call of `signal_send`.
Neither function has written to it in between: `list_unlink` writes to the neighbours, and
`signal_send` to nodes of tasks and to the headers of their lists (`Store.SameTimers`).
-/

namespace Martos

open Checked DoublyLinked Agreement

section

variable {S : Set KernelList} {st : Store} {k : Kernel} {N : ℕ}

/-! ### Critical sections and signals -/

theorem Depicts.enableKernel (h : Depicts S st k) :
    Agrees N Fault.OfLists (fun st' k' => Depicts S st' k') (fun _ => st.enable) k.enable :=
  h.enable.right fun _ _ _ hc => hc.1

theorem Depicts.sendKernel (h : Depicts S st k) (hl : .tasks .ready ∈ S) (hN : k.core.nodes ≤ N) (t : TaskRef)
    (sg : Signals) :
    Agrees N Fault.OfLists
      (fun st' k' => Depicts S st' k' ∧ st.SameTimers st' ∧ k'.core.nodes = k.core.nodes ∧ k'.svc = k.svc)
      (fun fuel => st.signalSend fuel t sg) (k.signalSend t sg) :=
  (h.signalSend hl hN t sg).right fun _ _ _ ⟨h', hs, hn⟩ => ⟨h', hs, hn, rfl⟩

/-- Another value of the services' data. -/
theorem Depicts.withSvc (h : Depicts S st k) {svc svc' : Services} (hb : (⟨st.data.core, svc⟩ : Kernel) =
    Kernel.blank ⟨k.core, svc'⟩) (hs : (⟨k.core, svc'⟩ : Kernel).seqs = k.seqs) :
    Depicts S (st.withSvc svc) { k with svc := svc' } := h.write hb hs

/-- The signal which `signal_allocate` returns. -/
theorem Depicts.signalAllocate (h : Depicts S st k) (n : ℤ) :
    Agrees N Fault.OfLists (fun p q => p.1 = q.1 ∧ Depicts S p.2 { k with core := q.2 })
      (fun _ => st.signalAllocate n) (signalAllocate n k.core) := by
  obtain ⟨links, rfl⟩ := h.eta
  rcases (commutes_signalAllocate n).cases k.core with ⟨⟨m, c⟩, hc, hblank⟩ | ⟨e, hc, hblank⟩
  · have hself : Martos.signalAllocate n k.core =
        do return Prod.map id (Core.carrying k.core.lists) (← Martos.signalAllocate n k.core) :=
      commutes_signalAllocate n k.core
    have hlists : c.lists = k.core.lists := by
      rw [hc] at hself
      rw [show c = Core.carrying k.core.lists c from (Prod.mk.inj (Except.ok.inj hself)).2]
      rfl
    rw [hc]
    refine .ok (a := (m, (⟨links, k.blank⟩ : Store).withCore (c.carrying fun _ => [])))
      ⟨rfl, h.withCore rfl hlists⟩ fun _ _ => ?_
    rw [Store.signalAllocate, show Martos.signalAllocate n k.blank.core = .ok (m, c.carrying fun _ => []) from hblank]
    rfl
  · rw [hc]
    refine .stops fun _ => ?_
    rw [Store.signalAllocate, show Martos.signalAllocate n k.blank.core = .error e from hblank]
    rfl

/-! ### Semaphores -/

theorem Depicts.semInit (h : Depicts S st k) (sem : SemRef) (count : ℤ) :
    Depicts (S ∪ {.requests sem}) (st.semInit sem count) (semInit sem count k) := by
  obtain ⟨links, rfl⟩ := h.eta
  let k₁ : Kernel := { k with svc := { k.svc with count := Function.update k.svc.count sem count } }
  have h₁ : Depicts S _ k₁ := h.withSvc rfl rfl
  exact h₁.listInit (.requests sem)
    ((k₁.replaces_requests (Function.update k.svc.reqQueue sem [])).update KernelList.requests_injective) rfl

theorem oblivious_semSetCount (sem : SemRef) (n : ℤ) : Oblivious (semSetCount sem n) :=
  fun _ => .test (fun _ => rfl) (.write fun _ => rfl)

theorem Depicts.semAddRequest (h : Depicts S st k) {sem : SemRef} (hl : .requests sem ∈ S) {req : ReqRef}
    (hoff : k.seqs.Off (.request req)) :
    Agrees N Fault.OfLists (fun p q => p.1 = q.1 ∧ Depicts S p.2 q.2) (fun _ => st.semAddRequest sem req)
      (semAddRequest sem req k) := by
  obtain ⟨links, rfl⟩ := h.eta
  refine .bind (h.disable.lift (oblivious_semSetCount sem (k.svc.count sem - 1))) ?_
  rintro st₁ k₁ - ⟨h₁, -, hseqs⟩
  obtain ⟨links₁, rfl⟩ := h₁.eta
  refine .ite Iff.rfl (fun _ => ?_) fun _ => ?_
  · obtain ⟨st₂, he, h₂⟩ := h₁.listAddTail hl (hseqs ▸ hoff)
      ((k₁.replaces_requests _).listAddTail KernelList.requests_injective) rfl
    refine .left (fun _ _ => he) (.bind (Depicts.enableKernel (k := semEnqueue sem req k₁) h₂) ?_)
    intro st₃ k₃ _ h₃
    exact .pure ⟨rfl, h₃⟩
  · refine .bind h₁.enableKernel ?_
    intro st₂ k₂ _ h₂
    exact .pure ⟨rfl, h₂⟩

/-- The first request is taken from the queue, and its waiter signalled. -/
theorem Depicts.semWake (h : Depicts S st k) (hready : .tasks .ready ∈ S) (hN : k.core.nodes ≤ N) {sem : SemRef}
    (hl : .requests sem ∈ S) :
    Agrees N Fault.OfLists (fun st' k' => Depicts S st' k') (fun fuel => st.semWake fuel sem) (semWake sem k) := by
  obtain ⟨st₁, he, h₁⟩ := h.listRemHead hl ((k.replaces_requests _).listRemHead KernelList.requests_injective) rfl
  obtain ⟨links₁, rfl⟩ := h₁.eta
  unfold Store.semWake Martos.semWake Seqs.listRemHead
  refine .left (fun _ _ => he) ?_
  cases hh : (k.svc.reqQueue sem).head? with
  | none => exact .stops fun _ => rfl
  | some req =>
    refine .left (a := req) (fun _ _ => rfl) (.check_bind Iff.rfl fun _ => .check_bind Iff.rfl fun _ => ?_)
    refine (h₁.sendKernel hready hN (k.svc.request req).waiter (k.svc.request req).signal).imp ?_
    intro st₂ k₂ _ h₂
    exact h₂.1

theorem Depicts.semRelease (h : Depicts S st k) (hready : .tasks .ready ∈ S) (hN : k.core.nodes ≤ N) {sem : SemRef}
    (hl : .requests sem ∈ S) :
    Agrees N Fault.OfLists (fun st' k' => Depicts S st' k') (fun fuel => st.semRelease fuel sem)
      (semRelease sem k) := by
  refine .ite ?_ (fun _ => h.semWake hready hN hl) fun _ => .pure h
  rw [h.data]
  exact Iff.rfl

theorem Depicts.semSignal (h : Depicts S st k) (hready : .tasks .ready ∈ S) (hN : k.core.nodes ≤ N) {sem : SemRef}
    (hl : .requests sem ∈ S) :
    Agrees N Fault.OfLists (fun st' k' => Depicts S st' k') (fun fuel => st.semSignal fuel sem) (semSignal sem k) := by
  obtain ⟨links, rfl⟩ := h.eta
  refine .bind (h.disable.lift (oblivious_semSetCount sem (k.svc.count sem + 1))) ?_
  rintro st₁ k₁ hk₁ ⟨h₁, -, -⟩
  have hnodes : k₁.core.nodes ≤ N := by
    obtain ⟨-, rfl⟩ := semSetCount_eq_ok.mp hk₁
    exact hN
  refine .bind (h₁.semRelease hready hnodes hl) ?_
  intro st₂ k₂ _ h₂
  exact h₂.enableKernel

theorem Depicts.semWaitRequest (h : Depicts S st k) {sem : SemRef} (hl : .requests sem ∈ S) {req : ReqRef}
    (hoff : k.seqs.Off (.request req)) :
    Agrees N Fault.OfLists (fun p q => p.1 = q.1 ∧ Depicts S p.2 q.2) (fun _ => st.semWaitRequest sem req)
      (semWaitRequest sem req k) := by
  obtain ⟨links, rfl⟩ := h.eta
  let k₁ : Kernel := { k with svc := { k.svc with
    request := Function.update k.svc.request req ⟨k.core.running, sigfSingle⟩ } }
  have h₁ : Depicts S _ k₁ := h.withSvc rfl rfl
  exact h₁.semAddRequest hl hoff

/-! ### Message ports -/

theorem Depicts.msgportInit (h : Depicts S st k) (port : PortRef) :
    Agrees N Fault.OfLists (fun st' k' => Depicts (S ∪ {.messages port}) st' k') (fun _ => st.msgportInit port)
      (msgportInit port k) := by
  refine .bind (h.signalAllocate (-1)) ?_
  rintro ⟨signum, st₁⟩ ⟨signum', c₁⟩ - ⟨hsignum, h₁⟩
  obtain rfl : signum = signum' := hsignum
  have h₁ : Depicts S st₁ { k with core := c₁ } := h₁
  obtain ⟨links₁, rfl⟩ := h₁.eta
  refine .check_bind Iff.rfl fun _ => ?_
  let k₂ : Kernel := ⟨c₁, { k.svc with
    port := Function.update k.svc.port port ⟨some c₁.running, 1#16 <<< signum.toNat, .signal⟩ }⟩
  have h₂ : Depicts S _ k₂ := h₁.withSvc rfl rfl
  exact .pure (h₂.listInit (.messages port)
    ((k₂.replaces_messages (Function.update k.svc.messageList port [])).update KernelList.messages_injective) rfl)

/-- The pointer returned is that to the message, or NULL. -/
theorem Depicts.msgportGet (h : Depicts S st k) {port : PortRef} (hl : .messages port ∈ S) :
    Agrees N Fault.OfLists (fun p q => p.1 = q.1.map (fun message => .node (.message message)) ∧ Depicts S p.2 q.2)
      (fun _ => st.msgportGet port) (msgportGet port k) := by
  obtain ⟨st₁, he, h₁⟩ := h.disable.listRemHead hl
    ((k.disable.replaces_messages _).listRemHead KernelList.messages_injective) rfl
  refine .left (fun _ _ => he) (.bind h₁.enableKernel ?_)
  intro st₂ k₂ _ h₂
  refine .pure ⟨?_, h₂⟩
  exact Option.map_map ..

theorem Depicts.msgportNotify (h : Depicts S st k) (hready : .tasks .ready ∈ S) (hN : k.core.nodes ≤ N)
    (port : PortRef) :
    Agrees N Fault.OfLists (fun st' k' => Depicts S st' k') (fun fuel => st.msgportNotify fuel port)
      (msgportNotify port k) := by
  obtain ⟨links, rfl⟩ := h.eta
  have htask : (k.blank.svc.port port).task = (k.svc.port port).task := rfl
  unfold Store.msgportNotify Martos.msgportNotify
  simp only [htask]
  cases (k.svc.port port).task with
  | none => exact .pure h
  | some t =>
    refine .ite Iff.rfl (fun _ => ?_) fun _ => .pure h
    refine (h.sendKernel hready hN t (k.svc.port port).signal).imp ?_
    intro st₂ k₂ _ h₂
    exact h₂.1

theorem Depicts.msgportSend (h : Depicts S st k) (hready : .tasks .ready ∈ S) (hN : k.core.nodes ≤ N) {port : PortRef}
    (hl : (k.svc.port port).action ≠ .invalid → .messages port ∈ S) {message : MsgRef}
    (hoff : k.seqs.Off (.message message)) :
    Agrees N Fault.OfLists (fun st' k' => Depicts S st' k') (fun fuel => st.msgportSend fuel port message)
      (msgportSend port message k) := by
  obtain ⟨links, rfl⟩ := h.eta
  refine .check_bind Iff.rfl fun ha => ?_
  have hport : KernelList.messages port ∈ S := by
    refine hl ?_
    rintro hinvalid
    have ha : (k.svc.port port).action = .signal ∨ (k.svc.port port).action = .ignore := ha
    rw [hinvalid] at ha
    rcases ha with ha | ha <;> cases ha
  obtain ⟨st₁, he, h₁⟩ := h.disable.listAddTail hport hoff
    ((k.disable.replaces_messages _).listAddTail KernelList.messages_injective) rfl
  refine .left (fun _ _ => he) (.bind (h₁.msgportNotify hready hN port) ?_)
  intro st₂ k₂ _ h₂
  exact h₂.enableKernel

theorem Depicts.msgportReply (h : Depicts S st k) (hready : .tasks .ready ∈ S) (hN : k.core.nodes ≤ N)
    (hl : ∀ port, (k.svc.port port).action ≠ .invalid → .messages port ∈ S) {message : MsgRef}
    (hoff : k.seqs.Off (.message message)) :
    Agrees N Fault.OfLists (fun st' k' => Depicts S st' k') (fun fuel => st.msgportReply fuel message)
      (msgportReply message k) := by
  have hport : st.data.svc.replyPort message = k.svc.replyPort message := by
    rw [h.data]
    rfl
  unfold Store.msgportReply Martos.msgportReply
  rw [hport]
  cases k.svc.replyPort message with
  | none => exact .stops fun _ => rfl
  | some port => exact .left (fun _ _ => rfl) (h.msgportSend hready hN (hl port) hoff)

/-! ### Timers -/

theorem oblivious_timerAllocate (tm : TimerRef) : Oblivious (timerAllocate tm) := by
  intro k₀ k
  have hallocate : signalAllocate (-1) (Kernel.carrying k₀ k).core = do
      return Prod.map id (Core.carrying k₀.core.lists) (← signalAllocate (-1) k.core) :=
    commutes_signalAllocate (-1) k.core
  unfold timerAllocate
  rw [hallocate, bind_assoc, bind_assoc]
  refine congrArg (signalAllocate (-1) k.core >>= ·) (funext fun ⟨n, c⟩ => ?_)
  rw [pure_bind, bind_assoc]
  rfl

theorem oblivious_timerFree (tm : TimerRef) : Oblivious (timerFree tm) := by
  intro k₀ k
  have hfree (sg : Signals) : signalFree sg (Kernel.carrying k₀ k).core = do
      return Core.carrying k₀.core.lists (← signalFree sg k.core) := commutes_signalFree sg k.core
  unfold timerFree
  dsimp only
  rw [hfree, bind_assoc, bind_assoc]
  rfl

theorem oblivious_timerAddStart (tm : TimerRef) : Oblivious fun k => do
    let svc ← timerAddStart tm k.svc
    return { k with svc := svc } := by
  intro k₀ k
  unfold timerAddStart
  simp only [bind_assoc, pure_bind]
  refine congrArg (assertThat _ _ >>= ·) (funext fun _ => congrArg (assertThat _ _ >>= ·) (funext fun _ => ?_))
  refine congrArg pure ?_
  by_cases ho : (k.svc.timer tm).op = .delay
  · simp [Kernel.carrying, Services.modTimer, ho]
  · simp [Kernel.carrying, ho]

/-- Where the queue goes on: at the first of these timers, or at the tail sentinel. -/
def timersFrom : List TimerRef → KernelPtr
  | [] => .tail .timers
  | tm :: _ => .node (.timer tm)

theorem timersFrom_cons (xs : List TimerRef) :
    ∃ ps, (xs.map KernelNode.timer).map .node ++ [Ptr.tail .timers] = timersFrom xs :: ps := by
  cases xs with
  | nil => exact ⟨_, rfl⟩
  | cons x xs => exact ⟨_, rfl⟩

variable {tm : TimerRef} {as bs : List TimerRef}

theorem Depicts.next_head (h : Depicts S st k) (hl : .timers ∈ S) :
    st.links.next (.head .timers) = some (timersFrom (k.svc.timers ())) := by
  obtain ⟨ps, hb⟩ := timersFrom_cons (k.svc.timers ())
  exact (h.lists.at_cut hl rfl (cut_nil KernelList.timers) hb).1

theorem Depicts.next_timer (h : Depicts S st k) (hl : .timers ∈ S) (hq : k.svc.timers () = as ++ tm :: bs) :
    st.links.next (.node (.timer tm)) = some (timersFrom bs) := by
  obtain ⟨ps, hb⟩ := timersFrom_cons bs
  have hcut : k.seqs .timers = (as ++ [tm]).map .timer ++ bs.map .timer := by simp [Kernel.seqs, hq]
  have ha : Ptr.head KernelList.timers :: ((as ++ [tm]).map KernelNode.timer).map .node =
      (.head .timers :: (as.map .timer).map .node) ++ [Ptr.node (.timer tm)] := by simp
  exact (h.lists.at_cut hl hcut ha hb).1

theorem Depicts.next_tail (h : Depicts S st k) (hl : .timers ∈ S) : st.links.next (.tail .timers) = none :=
  h.lists.tailNext _ hl

theorem Depicts.timer (h : Depicts S st k) : st.data.svc.timer = k.svc.timer := by
  rw [h.data]
  rfl

theorem Depicts.off_timer (htm : tm ∉ k.svc.timers ()) : k.seqs.Off (.timer tm) :=
  k.timers_within.off KernelNode.timer_injective fun _ => htm

/-- Where the loop of `timer_add` stops is where the timer belongs. -/
theorem Depicts.timerScan (h : Depicts S st k) (hl : .timers ∈ S) (tm : TimerRef) (pre : List TimerRef)
    {xs : List TimerRef} (hq : k.svc.timers () = pre ++ xs) : ∃ cs ds, xs = cs ++ ds ∧
      xs.orderedInsert (fun a b => (k.svc.timer a).tick < (k.svc.timer b).tick) tm = cs ++ tm :: ds ∧
      ∀ n, xs.length < n → st.timerScan (k.svc.timer tm).tick n (timersFrom xs) =
        some (if ds = [] then none else some (timersFrom ds)) := by
  induction xs generalizing pre with
  | nil =>
    refine ⟨[], [], rfl, rfl, fun n hn => ?_⟩
    obtain ⟨n, rfl⟩ : ∃ j, n = j + 1 := ⟨n - 1, by simp at hn; omega⟩
    simp [Store.timerScan, timersFrom, h.next_tail hl]
  | cons x xs ih =>
    have hscan (n : ℕ) : st.timerScan (k.svc.timer tm).tick (n + 1) (timersFrom (x :: xs)) =
        if (k.svc.timer tm).tick < (k.svc.timer x).tick then some (some (.node (.timer x)))
        else st.timerScan (k.svc.timer tm).tick n (timersFrom xs) := by
      simp [Store.timerScan, timersFrom, h.next_timer hl hq, Store.timerAt, h.timer]
    by_cases hlt : (k.svc.timer tm).tick < (k.svc.timer x).tick
    · refine ⟨[], x :: xs, rfl, by simp [hlt], fun n hn => ?_⟩
      obtain ⟨n, rfl⟩ : ∃ j, n = j + 1 := ⟨n - 1, by simp at hn; omega⟩
      rw [hscan, if_pos hlt]
      simp [timersFrom]
    · obtain ⟨cs, ds, hxs, hins, hrest⟩ := ih (pre ++ [x]) (by simpa using hq)
      refine ⟨x :: cs, ds, by rw [hxs]; rfl, by simp [hlt, hins], fun n hn => ?_⟩
      obtain ⟨n, rfl⟩ : ∃ j, n = j + 1 := ⟨n - 1, by simp at hn; omega⟩
      rw [hscan, if_neg hlt]
      exact hrest n (by simpa using hn)

/-- The two cases at the end of `timer_add` both put the timer at its place. -/
theorem Depicts.timerLink (h : Depicts S st k) (hl : .timers ∈ S) (htm : tm ∉ k.svc.timers ()) {cs ds : List TimerRef}
    (hq : k.svc.timers () = cs ++ ds) :
    ∃ st', st.timerLink tm (if ds = [] then none else some (timersFrom ds)) = some st' ∧
      Depicts S st' { k with svc := { k.svc with timers := Function.update k.svc.timers () (cs ++ tm :: ds) } } := by
  have hoff : k.seqs.Off (.timer tm) := Depicts.off_timer htm
  have hupdate := (k.replaces_timers (Function.update k.svc.timers () (cs ++ tm :: ds))).update timersHeader_injective
  have hcut : k.seqs .timers = cs.map .timer ++ ds.map .timer := by simp [Kernel.seqs, hq]
  cases ds with
  | nil =>
    have htail : k.seqs.listAddTail .timers (.timer tm) =
        Function.update k.seqs .timers ((cs ++ [tm]).map KernelNode.timer) := by
      rw [Seqs.listAddTail, hcut]
      simp
    exact h.listAddTail hl hoff (htail.trans hupdate) rfl
  | cons d ds =>
    obtain ⟨us, -, p, -, ha, -⟩ := exists_neighbours KernelList.timers (cs.map KernelNode.timer) []
    obtain ⟨ps, hb⟩ := timersFrom_cons (d :: ds)
    obtain ⟨-, hprev⟩ := h.lists.at_cut hl hcut ha hb
    obtain ⟨heap, he, -, hR⟩ := listInsert_cut h.lists hl hoff hcut ha
    have hinsert : Function.update k.seqs .timers (cs.map .timer ++ .timer tm :: (d :: ds).map .timer) = _ :=
      (by simp : _ = _).trans hupdate
    rw [hinsert] at hR
    refine ⟨st.put heap, ?_, h.put hR rfl⟩
    have hprev : st.links.prev (timersFrom (d :: ds)) = some p := hprev
    simp [Store.timerLink, Store.listInsert, hprev, he]

/-- `timer_add` from its `disable()` on. -/
theorem Depicts.timerAddInsert (h : Depicts S st k) (hl : .timers ∈ S) (hb : k.core.Balanced)
    (hN : (k.svc.timers ()).length ≤ N) (tm : TimerRef) :
    Agrees N Fault.OfLists (fun st' k' => Depicts S st' k') (fun fuel => st.timerAddInsert fuel tm)
      (timerAddInsert tm k) := by
  have hnodup : (k.svc.timers ()).Nodup :=
    (k.timers_within.separate KernelNode.timer_injective timersHeader_injective h.lists.separate).nodup ()
  rw [timerAddInsert_eq hb hnodup]
  by_cases htm : tm ∈ k.svc.timers ()
  · rw [assertThat, if_neg (not_not.mpr htm)]
    exact .outside (.inl rfl)
  · rw [assertThat_of _ htm, ok_bind]
    let svc := k.svc.modTimer tm fun x => { x with status := .added }
    have h₁ : Depicts S _ ⟨k.core.disable, svc⟩ := h.disable.modTimer tm fun x => { x with status := .added }
    have hticks (u : TimerRef) : (svc.timer u).tick = (k.svc.timer u).tick :=
      Services.apply_modTimer Timer.tick (by exact fun _ => rfl) u
    obtain ⟨cs, ds, hq, hins, hscan⟩ := h₁.timerScan hl tm [] (show svc.timers () = [] ++ k.svc.timers () from rfl)
    obtain ⟨st₂, he₂, h₂⟩ := h₁.timerLink hl htm hq
    have hinserted : k.svc.timerInserted tm =
        { svc with timers := Function.update svc.timers () (cs ++ tm :: ds) } := by
      unfold Services.timerInserted
      rw [← hins]
      simp only [hticks]
      rfl
    have henable := h₂.enable (N := N)
    rw [show k.core.disable.enable = .ok k.core from hb.enable rfl rfl] at henable
    have hend : Agrees N Fault.OfLists (fun st' k' => Depicts S st' k') (fun _ => st₂.enable)
        (.ok ⟨k.core, k.svc.timerInserted tm⟩) := by
      rw [hinserted]
      exact henable.right fun _ _ _ hc => hc.1
    refine .left (fun _ _ => h₁.next_head hl) (.left (fun fuel hfuel => ?_) (.left (fun _ _ => he₂) hend))
    rw [h₁.timer]
    exact hscan fuel (hN.trans_lt hfuel)

theorem Depicts.unlinkTimer (h : Depicts S st k) (htm : tm ∈ k.svc.timers ()) :
    ∃ st', st.listUnlink (.timer tm) = some st' ∧
      Depicts S st' { k with svc := { k.svc with timers := k.svc.timers.listUnlink tm } } ∧
      st'.links.next (.node (.timer tm)) = st.links.next (.node (.timer tm)) := by
  have hmem : KernelNode.timer tm ∈ k.seqs .timers := List.mem_map_of_mem htm
  have hunlink := (k.replaces_timers (k.svc.timers.listUnlink tm)).listUnlink KernelNode.timer_injective
  obtain ⟨st', he, h', hoff⟩ := h.listUnlink hmem hunlink rfl
  refine ⟨st', he, h', hoff _ ?_⟩
  rw [Seqs.node_mem_spine, ← hunlink]
  exact h.lists.separate.off_listUnlink (.timer tm) .timers

theorem Depicts.timerAbort (h : Depicts S st k) (tm : TimerRef) :
    Agrees N Fault.OfLists (fun st' k' => Depicts S st' k') (fun _ => st.timerAbort tm) (timerAbort tm k) := by
  have hadded : Agrees N Fault.OfLists (fun st' k' => Depicts S st' k') (fun _ => st.disable.timerAbortAdded tm)
      (timerAbortAdded tm k.disable) := by
    refine .ite ?_ (fun _ => ?_) fun _ => .pure h.disable
    · rw [h.disable.timer]
    · by_cases htm : tm ∈ k.disable.svc.timers ()
      · obtain ⟨st', he, h', -⟩ := h.disable.unlinkTimer htm
        rw [timerUnlink, assertThat_of _ htm, ok_bind]
        exact .ok h' fun _ _ => he
      · rw [timerUnlink, assertThat, if_neg htm]
        exact .outside (.inr rfl)
  refine .bind hadded ?_
  intro st₁ k₁ _ h₁
  exact h₁.enableKernel

/-- The loop of `timer_poll`, `j` passes of which have been made: it makes one call of `signal_send` for
each timer that is due, in the order of the queue. -/
theorem Depicts.timerPollLoop (h : Depicts S st k) (hl : .timers ∈ S) (hready : .tasks .ready ∈ S)
    (hN : k.core.nodes ≤ N) (now : Ticks) {xs : List TimerRef} (hq : k.svc.timers () = xs) {j : ℕ}
    (hj : j + xs.length ≤ N) :
    Agrees N Fault.OfLists
      (fun p k' => Depicts S p.2 k' ∧
        List.Forall₂ k.svc.Call (xs.takeWhile fun tm => decide ((k.svc.timer tm).tick ≤ now)) p.1)
      (fun fuel => Store.timerPollLoop fuel now (fuel - j) (timersFrom xs) st) (timerPollLoop now xs k) := by
  induction xs generalizing st k j with
  | nil =>
    refine .ok (a := ([], st)) ⟨h, .nil⟩ fun fuel hfuel => ?_
    obtain ⟨n, hn⟩ : ∃ n, fuel - j = n + 1 := ⟨fuel - j - 1, by simp at hj; omega⟩
    simp [hn, Store.timerPollLoop, timersFrom, h.next_tail hl]
  | cons x xs ih =>
    have hnext : st.links.next (.node (.timer x)) = some (timersFrom xs) :=
      h.next_timer hl (show _ = [] ++ x :: xs from hq)
    have hx : x ∈ k.svc.timers () := by rw [hq]; exact List.mem_cons_self
    have hloop : ∀ fuel, N < fuel → Store.timerPollLoop fuel now (fuel - j) (timersFrom (x :: xs)) st =
        if now < (st.data.svc.timer x).tick then some ([], st)
        else (do
          let st ← st.listUnlink (.timer x)
          let st := st.modTimer x fun u => { u with status := .done }
          let t ← (st.data.svc.timer x).task
          let signal := (st.data.svc.timer x).signal
          let st ← st.signalSend fuel t signal
          let next ← st.links.next (.node (.timer x))
          let p ← Store.timerPollLoop fuel now (fuel - (j + 1)) next st
          return ((t, signal) :: p.1, p.2)) := by
      intro fuel hfuel
      obtain ⟨n, hn⟩ : ∃ n, fuel - j = n + 1 := ⟨fuel - j - 1, by simp at hj; omega⟩
      have hn' : fuel - (j + 1) = n := by omega
      rw [hn, hn', timersFrom, Store.timerPollLoop, hnext]
      rfl
    refine .congr hloop (.ite ?_ (fun hlt => .pure ⟨h, ?_⟩) fun hdue => ?_)
    · rw [h.timer]
    · rw [h.timer] at hlt
      rw [List.takeWhile_cons_of_neg (by simpa using hlt)]
      exact .nil
    · rw [h.timer] at hdue
      rw [List.takeWhile_cons_of_pos (by simpa using hdue)]
      obtain ⟨st₁, he₁, h₁, hnext₁⟩ := h.unlinkTimer hx
      have h₂ : Depicts S _ ⟨k.core, k.svc.timerFired x⟩ := h₁.modTimer x fun u => { u with status := .done }
      have hself : (k.svc.timerFired x).timer x = { k.svc.timer x with status := .done } := Services.modTimer_self
      have hrest : (k.svc.timerFired x).timers () = xs := by
        change (k.svc.timers ()).erase x = xs
        rw [hq, List.erase_cons_head]
      refine .left (fun _ _ => he₁) ?_
      dsimp only
      rw [timerFire_eq, h₂.timer, hself]
      cases htask : (k.svc.timer x).task with
      | none => exact .stops fun _ => rfl
      | some t =>
        refine .left (fun _ _ => rfl) (.bind (h₂.sendKernel hready hN t (k.svc.timer x).signal) ?_)
        rintro st₃ k₃ - ⟨h₃, hs₃, hn₃, hsvc₃⟩
        have hsvc₃ : k₃.svc = k.svc.timerFired x := hsvc₃
        -- the node has been unlinked, and still points to the one behind it
        have hnext₃ : st₃.links.next (.node (.timer x)) = some (timersFrom xs) :=
          (hs₃ x).trans (hnext₁.trans hnext)
        have hgoes := ih h₃ (hn₃ ▸ hN) (hsvc₃ ▸ hrest) (j := j + 1) (by simp at hj; omega)
        refine .left (fun _ _ => hnext₃) (hgoes.map_left fun p k' _ ⟨h', hcalls⟩ => ⟨h', .cons ⟨htask, rfl⟩ ?_⟩)
        simp only [hsvc₃, Services.tick_timerFired] at hcalls
        exact hcalls.imp fun _ _ => Services.Call.of_timerFired

/-- `timer_poll`. -/
theorem Depicts.timerPoll (h : Depicts S st k) (hl : .timers ∈ S) (hready : .tasks .ready ∈ S)
    (hN : k.core.nodes ≤ N) (hq : (k.svc.timers ()).length ≤ N) :
    Agrees N Fault.OfLists (fun p k' => Depicts S p.2 k' ∧ List.Forall₂ k.svc.Call k.svc.due p.1)
      (fun fuel => st.timerPoll fuel) (timerPoll k) := by
  have hnow : st.data.svc.timerNow = k.svc.timerNow := by
    rw [h.data]
    rfl
  have hloop := h.disable.timerPollLoop hl hready hN k.svc.timerNow rfl (j := 0)
    (by rw [Nat.zero_add]; exact hq)
  unfold Store.timerPoll Martos.timerPoll
  rw [hnow]
  refine .left (fun _ _ => h.disable.next_head hl) (.bind hloop ?_)
  rintro ⟨calls, st₁⟩ k₁ - ⟨h₁, hcalls⟩
  exact h₁.enableKernel.map_left fun _ _ _ h' => ⟨h', hcalls⟩

theorem Depicts.clockAt (h : Depicts S st k) (now : Ticks) :
    Depicts S (st.clockAt now) { k with svc := { k.svc with timerNow := now } } := by
  obtain ⟨links, rfl⟩ := h.eta
  exact h.withSvc rfl rfl

theorem Depicts.tim2IRQHandler (h : Depicts S st k) (hl : .timers ∈ S) (hready : .tasks .ready ∈ S)
    (hN : k.core.nodes ≤ N) (hq : (k.svc.timers ()).length ≤ N) :
    Agrees N Fault.OfLists (fun st' k' => Depicts S st' k') (fun fuel => st.tim2IRQHandler fuel)
      (tim2IRQHandler k) := by
  have hnow : st.data.svc.timerNow = k.svc.timerNow := by
    rw [h.data]
    rfl
  unfold Store.tim2IRQHandler
  rw [hnow]
  exact ((h.clockAt (k.svc.timerNow + 1)).timerPoll hl hready hN hq).map_left fun _ _ _ h' => h'.1

end

end Martos
