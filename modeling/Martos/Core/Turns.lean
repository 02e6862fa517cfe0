import Martos.Core.Priority
import Martos.Core.Stacks
import Martos.Lib.Rotation

/-!
# Round robin

Tasks of the same priority take turns (README). `pendSVHandler` is the whole of
`PendSV_Handler_user`; taken again and again with nothing in between, it turns the ring of
the tasks that share the running task's priority, the running one first and then those on
`ready` in their order, by one place each time, and leaves the others where they are
(`RoundRobin.handler`). What the ring looks like after any number of switches, and who was
selected meanwhile, is then a fact about rotations. Nothing stops the switches while the tasks
of the ring are `Fit` and keep to their stacks (`InStacks`).
-/

namespace Martos

open Checked Rotation Transition

/-- `PendSV_Handler_user`, up to what it returns: the frame of the task it has selected. -/
def pendSVHandler (oldFrame : ℕ) (c : Core) : Except Fault (ℕ × Core) := do
  let c ← taskVerify c.running c
  let c ← pendSVHandlerSwitch oldFrame c
  let c ← taskVerify c.running c
  return ((c.task c.running).context.frame, c)

/-- Switches one after the other, for the frames they are given: the tasks selected. -/
def pendSVHandlers : List ℕ → Core → Except Fault (List TaskRef × Core)
  | [], c => .ok ([], c)
  | oldFrame :: frames, c => do
    let (_, c) ← pendSVHandler oldFrame c
    let (ts, c') ← pendSVHandlers frames c
    return (c.running :: ts, c')

namespace Core

variable (c : Core)

/-- The tasks on `ready` of the running task's priority. -/
def peers : List TaskRef := (c.lists .ready).filter fun t => decide (c.prio t = c.prio c.running)

/-- The tasks that take turns: the running one, then its peers. -/
def ring : List TaskRef := c.running :: c.peers

/-- The tasks on `ready` of a lower priority. -/
def lower : List TaskRef := (c.lists .ready).filter fun t => decide (c.prio t < c.prio c.running)

/-- The running task is in state `TASK_RUNNING` and on no list, the lists are well formed,
`ready` does not ascend, and no task on it ranks above the running one. -/
structure RoundRobin (c : Core) : Prop where
  /-- The running task can run on. -/
  running : (c.task c.running).state = .running
  /-- No task is on the lists twice. -/
  separate : c.lists.Separate
  /-- The running task is on none of them. -/
  off : ¬ c.OnList c.running
  /-- `ready` is sorted. -/
  sorted : Seqs.Descending c.prio (c.lists .ready)
  /-- The running task ranks as high as any on it. -/
  top : c.Top

/-- The tasks of the ring pass `task_verify`, and go on to pass it when the running one is
switched out. -/
structure Fit (c : Core) : Prop where
  /-- No check of a task's structure fails. -/
  verified : ∀ t ∈ c.ring, verify (c.task t) = .ok ()
  /-- The running task's depth of nesting is one that the check accepts. -/
  nested : -1 ≤ c.idNestcnt

/-- Each switch is given a frame in the stack of the task it switches out, which is the next of
the ring. -/
def InStacks (frames : List ℕ) : Prop :=
  ∀ i frame t, frames[i]? = some frame → c.ring[i % c.ring.length]? = some t → (c.task t).context.Holds frame

end Core

section

variable {c c' : Core} {frame : ℕ}

/-- The handler is what the core machine does in its three steps. -/
theorem CoreSys.exec_pendSVHandler (s : CoreSys) :
    (s.exec .pendSV >>= fun s₁ => s₁.exec (.pendSVSwitch frame) >>= fun s₂ => s₂.exec .pendSVExit) =
      pendSVHandler frame { s.core with pendSV := false } >>= fun r =>
        .ok { s with core := r.2, phase := .thread } := by
  simp only [CoreSys.exec, pendSVHandler]
  cases hv : taskVerify s.core.running { s.core with pendSV := false } with
  | error e => rfl
  | ok c =>
    simp only [ok_bind, pure, Except.pure]
    cases hs : pendSVHandlerSwitch frame c with
    | error e => rfl
    | ok d =>
      simp only [ok_bind]
      cases taskVerify d.running d with
      | error e => rfl
      | ok d' => rfl

/-- In every state of the machine with no handler at work and no switch due, the tasks can
take turns. -/
theorem Placed.roundRobin {s : CoreSys} (hp : Placed s) (ho : Ordered s) (hd : ¬ s.Due)
    (hs : (s.core.task s.core.running).state = .running) : s.core.RoundRobin where
  running := hs
  separate := hp.located.separate
  off := hp.running_off hs
  sorted := ho.sorted
  top := ho.top hd

/-- `task_verify` changes nothing but PRIMASK. -/
theorem taskVerify_eq_ok {t : TaskRef} (h : taskVerify t c = .ok c') : ∃ b, c' = { c with primask := b } := by
  simp only [taskVerify, Core.enable, bind_eq_ok, assertThat_eq_ok, pure_eq_ok] at h
  obtain ⟨-, -, -, -, -, -, -, -, -, -, rfl⟩ := h
  by_cases hlt : c.disable.idNestcnt - 1 < 0
  · rw [if_pos hlt]
    exact ⟨false, by simp [Core.disable]⟩
  · rw [if_neg hlt]
    exact ⟨true, by simp [Core.disable]⟩

/-- A write to PRIMASK does not matter to the turns. -/
theorem Core.RoundRobin.primask (h : c.RoundRobin) (b : Bool) : ({ c with primask := b } : Core).RoundRobin :=
  ⟨h.running, h.separate, h.off, h.sorted, h.top⟩

theorem Core.RoundRobin.ring_append (h : c.RoundRobin) : c.ring ++ c.lower = c.running :: c.lists .ready := by
  rw [Core.ring, Core.peers, Core.lower, List.cons_append, filter_append_filter c.prio h.sorted h.top]

theorem Core.RoundRobin.ring_nodup (h : c.RoundRobin) : c.ring.Nodup :=
  List.nodup_cons.mpr ⟨fun hm => h.off (.inl (List.mem_of_mem_filter hm)), (h.separate.nodup _).filter _⟩

theorem Core.prio_of_mem_peers {t : TaskRef} (h : t ∈ c.peers) : c.prio t = c.prio c.running :=
  of_decide_eq_true (List.mem_filter.mp h).2

theorem Core.prio_of_mem_lower {t : TaskRef} (h : t ∈ c.lower) : c.prio t < c.prio c.running :=
  of_decide_eq_true (List.mem_filter.mp h).2

/-- The peers and the running task are those of its priority. -/
theorem Core.filter_peers : (c.peers ++ c.running :: c.lower).filter (fun t => decide (c.prio t = c.prio c.running)) =
    c.peers ++ [c.running] := by
  have hpeers : c.peers.filter (fun t => decide (c.prio t = c.prio c.running)) = c.peers :=
    List.filter_eq_self.mpr fun t ht => decide_eq_true (Core.prio_of_mem_peers ht)
  have hlower : c.lower.filter (fun t => decide (c.prio t = c.prio c.running)) = [] :=
    List.filter_eq_nil_iff.mpr fun t ht => by simpa using (Core.prio_of_mem_lower ht).ne
  rw [List.filter_append, hpeers, List.filter_cons_of_pos (by simp), hlower]

theorem Core.filter_lower : (c.peers ++ c.running :: c.lower).filter (fun t => decide (c.prio t < c.prio c.running)) =
    c.lower := by
  have hpeers : c.peers.filter (fun t => decide (c.prio t < c.prio c.running)) = [] :=
    List.filter_eq_nil_iff.mpr fun t ht => by simp [Core.prio_of_mem_peers ht]
  have hlower : c.lower.filter (fun t => decide (c.prio t < c.prio c.running)) = c.lower :=
    List.filter_eq_self.mpr fun t ht => decide_eq_true (Core.prio_of_mem_lower ht)
  rw [List.filter_append, hpeers, List.filter_cons_of_neg (by simp), hlower, List.nil_append]

/-- The state in which the running task has gone back to `ready`. -/
theorem Core.RoundRobin.requeued (h : c.RoundRobin) (frame : ℕ) : (c.requeued frame).prio = c.prio ∧
    (c.requeued frame).lists.Separate ∧ Seqs.Descending c.prio ((c.requeued frame).lists .ready) ∧
    (c.requeued frame).lists .waiting = c.lists .waiting ∧
    (c.requeued frame).lists .ready = c.peers ++ c.running :: c.lower := by
  have hoff : c.lists.Off c.running := by
    intro l hm
    cases l with
    | ready => exact h.off (.inl hm)
    | waiting => exact h.off (.inr hm)
  refine ⟨funext (Core.apply_update Task.prio (by rfl)), ?_, h.sorted.listEnqueue _,
    show c.lists.listEnqueue c.prio .ready c.running .waiting = _ from Seqs.listEnqueue_of_ne (by decide), ?_⟩
  · refine h.separate.update ?_ fun t ht => ?_
    · exact ((List.perm_orderedInsert _ _ _).nodup_iff).mpr (List.nodup_cons.mpr ⟨hoff _, h.separate.nodup _⟩)
    · rcases (List.mem_orderedInsert _).mp ht with rfl | ht
      · exact .inr hoff
      · exact .inl ht
  · change c.lists.listEnqueue c.prio .ready c.running .ready = _
    rw [Seqs.listEnqueue_self, ← filter_append_filter c.prio h.sorted h.top]
    refine orderedInsert_append c.prio (fun t ht => ?_) fun t ht => Core.prio_of_mem_lower ht
    rw [Core.prio_of_mem_peers ht]
    exact lt_irrefl _

/-- From `c` to `c'` the ring has been turned by `k` places, and the rest is as it was. -/
structure Core.Turned (c c' : Core) (k : ℕ) : Prop where
  /-- The priorities. -/
  prio : c'.prio = c.prio
  /-- The ring. -/
  ring : c'.ring = c.ring.rotate k
  /-- The other tasks on `ready`. -/
  lower : c'.lower = c.lower
  /-- The waiting tasks. -/
  waiting : c'.lists .waiting = c.lists .waiting

/-- **A switch turns the ring by one place.** -/
theorem Core.RoundRobin.switch (h : c.RoundRobin) (frame : ℕ) :
    ∃ t, pendSVHandlerSwitch frame c = .ok ((c.requeued frame).switchedIn t) ∧
      ((c.requeued frame).switchedIn t).RoundRobin ∧ c.Turned ((c.requeued frame).switchedIn t) 1 := by
  obtain ⟨hprio, hsep, hsort, hwait, hready⟩ := h.requeued frame
  -- the task selected, and what is left on `ready`
  obtain ⟨t, ts, hcons⟩ : ∃ t ts, (c.requeued frame).lists .ready = t :: ts :=
    List.exists_cons_of_ne_nil (by rw [hready]; simp)
  have hhead : ((c.requeued frame).lists .ready).head? = some t := by rw [hcons]; rfl
  have hprio' : ((c.requeued frame).switchedIn t).prio = c.prio := (Core.switchedIn_prio _ t).trans hprio
  have hlists : t :: ((c.requeued frame).switchedIn t).lists .ready = c.peers ++ c.running :: c.lower := by
    rw [← hready, hcons]
    change t :: ((c.requeued frame).lists.listRemHead .ready).2 .ready = _
    rw [Seqs.listRemHead_self, hcons, List.tail_cons]
  -- it is one of the ring
  have hp : c.prio t = c.prio c.running := by
    rw [hready] at hcons
    cases hE : c.peers with
    | nil =>
      rw [hE] at hcons
      rw [(List.cons.inj hcons).1]
    | cons e es =>
      rw [hE] at hcons
      rw [← (List.cons.inj hcons).1]
      exact Core.prio_of_mem_peers (by rw [hE]; exact List.mem_cons_self ..)
  refine ⟨t, ?_, ?_, ?_⟩
  · have hout : c.switchOut frame = .ok (c.requeued frame) := by
      simp only [Core.switchOut, h.running, if_neg h.off]
    rw [Core.pendSVHandlerSwitch_eq, hout, ok_bind, Core.switchIn, hhead]
  · exact {
      running := by simp [Core.switchedIn]
      separate := hsep.update ((hsep.nodup .ready).sublist (List.tail_sublist _)) fun u hu =>
        .inl (List.mem_of_mem_tail hu)
      off := fun hon => by
        have hoff (l) (hm : t ∈ ((c.requeued frame).lists.listRemHead .ready).2 l) : False :=
          ((hsep.mem_listRemHead hhead).mp hm).2 rfl
        exact hon.elim (hoff .ready) (hoff .waiting)
      sorted := by
        rw [hprio']
        exact hsort.listRemHead
      top := Core.Top.switchedIn (by rw [hprio]; exact hsort) hhead }
  · have hrun : ((c.requeued frame).switchedIn t).running = t := rfl
    exact {
      prio := hprio'
      ring := by
        have hself : ((c.requeued frame).switchedIn t).ring =
            (t :: ((c.requeued frame).switchedIn t).lists .ready).filter fun u =>
              decide (c.prio u = c.prio c.running) := by
          rw [Core.ring, Core.peers, hprio', hrun, hp, List.filter_cons_of_pos (by simp [hp])]
        rw [hself, hlists, Core.filter_peers, Core.ring, List.rotate_cons_succ, List.rotate_zero]
      lower := by
        have hself : ((c.requeued frame).switchedIn t).lower =
            (t :: ((c.requeued frame).switchedIn t).lists .ready).filter fun u =>
              decide (c.prio u < c.prio c.running) := by
          rw [Core.lower, hprio', hrun, hp, List.filter_cons_of_neg (by simp [hp])]
        rw [hself, hlists, Core.filter_lower]
      waiting := by
        rw [← hwait]
        exact Seqs.listRemHead_of_ne (show TaskList.waiting ≠ TaskList.ready by decide) }

theorem Core.Turned.trans {d : Core} {k l : ℕ} (h : c.Turned d k) (h' : d.Turned c' l) : c.Turned c' (k + l) where
  prio := h'.prio.trans h.prio
  ring := by rw [h'.ring, h.ring, List.rotate_rotate]
  lower := h'.lower.trans h.lower
  waiting := h'.waiting.trans h.waiting

/-! ### What stops the switches -/

theorem Core.verify_eq_ok {k : Task} : Core.verify k = .ok () ↔ taskcontextVerify k.context = .ok () ∧
    sigfSingle &&& k.sigAlloc ≠ 0 ∧ -1 ≤ k.idNestcnt ∧
    (k.state = .initialized ∨ k.state = .running ∨ k.state = .ready ∨ k.state = .waiting) := by
  simp only [Core.verify, bind_eq_ok, assertThat_eq_ok]
  constructor
  · rintro ⟨u, hk, v, hs, w, hn, hst⟩
    exact ⟨hk, hs, hn, hst⟩
  · rintro ⟨hk, hs, hn, hst⟩
    exact ⟨(), hk, (), hs, (), hn, hst⟩

/-- `task_verify` passes when its checks do, and its own critical section can be closed. -/
theorem exists_taskVerify_eq_ok {t : TaskRef} :
    (∃ d, taskVerify t c = .ok d) ↔ Core.verify (c.task t) = .ok () ∧ -2 ≤ c.idNestcnt := by
  have heq : taskVerify t c = (Core.verify (c.task t) >>= fun _ => c.disable.enable) := by
    simp only [taskVerify, Core.verify, bind_assoc]
    rfl
  rw [heq]
  constructor
  · rintro ⟨d, hd⟩
    obtain ⟨u, hv, he⟩ := bind_eq_ok.mp hd
    obtain ⟨v, hn, -⟩ := bind_eq_ok.mp he
    have hle : -1 ≤ c.idNestcnt + 1 := assertThat_eq_ok.mp hn
    exact ⟨hv, by omega⟩
  · rintro ⟨hv, hn⟩
    have hle : -1 ≤ c.disable.idNestcnt := by
      simp only [Core.disable]
      omega
    exact ⟨_, by rw [hv, ok_bind, Core.enable_of_masked rfl hle]⟩

theorem Core.requeued_of_ne {u : TaskRef} (hu : u ≠ c.running) : (c.requeued frame).task u = c.task u := by
  simp [Core.requeued, Core.switchedOut, hu]

theorem Core.requeued_self : (c.requeued frame).task c.running = { c.task c.running with
    context := { (c.task c.running).context with frame := frame }, state := .ready, idNestcnt := c.idNestcnt } := by
  simp [Core.requeued, Core.switchedOut]

theorem Core.switchedIn_self (d : Core) {t : TaskRef} :
    (d.switchedIn t).task t = { d.task t with state := .running } := by
  simp [Core.switchedIn]

/-- The task switched out passes the checks if its frame is in its stack. -/
theorem Core.Fit.requeued (hf : c.Fit) (hframe : (c.task c.running).context.Holds frame) {t : TaskRef}
    (ht : t ∈ c.ring) : Core.verify ((c.requeued frame).task t) = .ok () := by
  by_cases hrun : t = c.running
  · obtain ⟨-, hs, -, -⟩ := Core.verify_eq_ok.mp (hf.verified t ht)
    subst hrun
    apply Core.verify_eq_ok.mpr
    rw [Core.requeued_self]
    exact ⟨taskcontextVerify_of_holds hframe, hs, hf.nested, .inr (.inr (.inl rfl))⟩
  · rw [Core.requeued_of_ne hrun]
    exact hf.verified t ht

/-- And so does the task selected. -/
theorem Core.Fit.switched (hf : c.Fit) (hframe : (c.task c.running).context.Holds frame) {t : TaskRef}
    (ht : c.Turned ((c.requeued frame).switchedIn t) 1) : ((c.requeued frame).switchedIn t).Fit := by
  have hmem {u : TaskRef} (hu : u ∈ ((c.requeued frame).switchedIn t).ring) : u ∈ c.ring := by
    rw [ht.ring] at hu
    exact List.mem_rotate.mp hu
  have hself := hf.requeued hframe (hmem (List.mem_cons_self (a := t)))
  obtain ⟨hk, hs, hn, -⟩ := Core.verify_eq_ok.mp hself
  constructor
  · intro u hu
    by_cases hut : u = t
    · subst hut
      apply Core.verify_eq_ok.mpr
      rw [Core.switchedIn_self]
      exact ⟨hk, hs, hn, .inr (.inl rfl)⟩
    · rw [Core.switchedIn_of_ne _ hut]
      exact hf.requeued hframe (hmem hu)
  · exact hn

/-- A switch moves no stack. -/
theorem Core.holds_switched {t u : TaskRef} {f : ℕ} :
    (((c.requeued frame).switchedIn t).task u).context.Holds f ↔ (c.task u).context.Holds f := by
  have hout : ((c.requeued frame).task u).context.Holds f ↔ (c.task u).context.Holds f := by
    by_cases hu : u = c.running
    · subst hu
      rw [Core.requeued_self]
      rfl
    · rw [Core.requeued_of_ne hu]
  rw [← hout]
  by_cases hu : u = t
  · subst hu
    rw [Core.switchedIn_self]
  · rw [Core.switchedIn_of_ne _ hu]

theorem Core.mem_ring : c.running ∈ c.ring := List.mem_cons_self ..

/-- The first frame is the running task's. -/
theorem Core.InStacks.head {frames : List ℕ} (h : c.InStacks (frame :: frames)) :
    (c.task c.running).context.Holds frame :=
  h 0 frame c.running rfl (by rw [Nat.zero_mod]; rfl)

/-- The others are those of the ring that has been turned. -/
theorem Core.InStacks.tail {frames : List ℕ} (h : c.InStacks (frame :: frames)) (ht : c.Turned c' 1)
    (hstack : ∀ u f, (c'.task u).context.Holds f ↔ (c.task u).context.Holds f) : c'.InStacks frames := by
  intro i f t hi hr
  have hpos : 0 < c.ring.length := Nat.succ_pos _
  rw [ht.ring, List.length_rotate, List.getElem?_rotate (Nat.mod_lt _ hpos), Nat.mod_add_mod] at hr
  exact (hstack t f).mpr (h (i + 1) f t hi hr)

/-- The handler turns the ring, and it is stopped by nothing but the checks of `task_verify` of
two tasks of the ring; those do not fail where the tasks are fit. -/
theorem Core.RoundRobin.handler (h : c.RoundRobin) (frame : ℕ) :
    (∃ t ∈ c.ring, ∃ d e, taskVerify t d = .error e ∧ pendSVHandler frame c = .error e ∧
      ¬ (c.Fit ∧ (c.task c.running).context.Holds frame)) ∨
    ∃ f c', pendSVHandler frame c = .ok (f, c') ∧ c'.RoundRobin ∧ c.Turned c' 1 ∧
      (c.Fit → (c.task c.running).context.Holds frame → c'.Fit) ∧
      ∀ u f, (c'.task u).context.Holds f ↔ (c.task u).context.Holds f := by
  have hpass {d : Core} {t : TaskRef} (hd : d.Fit) (ht : t ∈ d.ring) {e : Fault} : taskVerify t d ≠ .error e := by
    have hn := hd.nested
    obtain ⟨d', hok⟩ := exists_taskVerify_eq_ok.mpr ⟨hd.verified t ht, by omega⟩
    rw [hok]
    exact fun he => by cases he
  unfold pendSVHandler
  cases hv : taskVerify c.running c with
  | error e => exact .inl ⟨c.running, c.mem_ring, c, e, hv, rfl, fun hf => hpass hf.1 c.mem_ring hv⟩
  | ok c₁ =>
    obtain ⟨b, rfl⟩ := taskVerify_eq_ok hv
    obtain ⟨t, hs, hrr, ht⟩ := (h.primask b).switch frame
    rw [ok_bind, hs, ok_bind]
    have hfit (hf : c.Fit) (hframe : (c.task c.running).context.Holds frame) :
        ((Core.requeued { c with primask := b } frame).switchedIn t).Fit :=
      Core.Fit.switched (c := { c with primask := b }) ⟨hf.verified, hf.nested⟩ hframe ht
    have hmem : t ∈ c.ring := List.mem_rotate.mp (ht.ring ▸ Core.mem_ring)
    cases hv' : taskVerify ((Core.requeued { c with primask := b } frame).switchedIn t).running
        ((Core.requeued { c with primask := b } frame).switchedIn t) with
    | error e => exact .inl ⟨t, hmem, _, e, hv', rfl, fun hf => hpass (hfit hf.1 hf.2) Core.mem_ring hv'⟩
    | ok c₃ =>
      obtain ⟨b', rfl⟩ := taskVerify_eq_ok hv'
      refine .inr ⟨_, _, rfl, hrr.primask b', ⟨ht.prio, ht.ring, ht.lower, ht.waiting⟩, fun hf hframe => ?_, ?_⟩
      · exact ⟨(hfit hf hframe).verified, (hfit hf hframe).nested⟩
      · exact fun u f => Core.holds_switched

/-- Any number of switches. -/
theorem Core.RoundRobin.handlers (h : c.RoundRobin) (frames : List ℕ) :
    (∃ t ∈ c.ring, ∃ d e, taskVerify t d = .error e ∧ pendSVHandlers frames c = .error e ∧
      ¬ (c.Fit ∧ c.InStacks frames)) ∨
    ∃ c', pendSVHandlers frames c = .ok (turns c.ring frames.length, c') ∧ c'.RoundRobin ∧
      c.Turned c' frames.length := by
  induction frames generalizing c with
  | nil => exact .inr ⟨c, rfl, h, ⟨rfl, (List.rotate_zero _).symm, rfl, rfl⟩⟩
  | cons frame frames ih =>
    rw [pendSVHandlers]
    rcases h.handler frame with ⟨t, hmem, d, e, hv, hx, hno⟩ | ⟨f, c₁, hx, h₁, ht, hfit, hstack⟩
    · exact .inl ⟨t, hmem, d, e, hv, by rw [hx]; rfl, fun hf => hno ⟨hf.1, hf.2.head⟩⟩
    · rw [hx, ok_bind]
      dsimp only
      rcases ih h₁ with ⟨t, hmem, d, e, hv, hx, hno⟩ | ⟨c', hx, h', ht'⟩
      · refine .inl ⟨t, List.mem_rotate.mp (ht.ring ▸ hmem), d, e, hv, by rw [hx]; rfl, fun hf => hno ⟨?_, ?_⟩⟩
        · exact hfit hf.1 hf.2.head
        · exact hf.2.tail ht hstack
      · refine .inr ⟨c', ?_, h', ?_⟩
        · have hring : c.ring.rotate 1 = c₁.running :: c₁.peers := ht.ring.symm
          rw [hx, List.length_cons, turns_succ hring, ← ht.ring]
          rfl
        · rw [List.length_cons, Nat.add_comm]
          exact ht.trans ht'

/-- **Tasks of the same priority take turns.** With the running task in state
`TASK_RUNNING` and ranking as high as any on `ready`, any number of switches in a row is
stopped by nothing but the checks of `task_verify` of those tasks, and by nothing at all if
each of them passes `task_verify` and is switched out with a frame in its stack; in every
stretch of as many switches as there are tasks of that priority each of them is selected once,
in the order of `ready` with the one that ran last at the end; no other task is selected, and
the others stay where they are; and after that many switches `running` and the lists are as
before. -/
theorem tasks_take_turns (h : c.RoundRobin) (frames : List ℕ) :
    (∀ e, pendSVHandlers frames c = .error e → ∃ t ∈ c.ring, ∃ d, taskVerify t d = .error e) ∧
    ((∀ t ∈ c.ring, ∃ d, taskVerify t c = .ok d) → -1 ≤ c.idNestcnt → c.InStacks frames →
      ∃ ts c', pendSVHandlers frames c = .ok (ts, c')) ∧
    ∀ ts c', pendSVHandlers frames c = .ok (ts, c') → ts.length = frames.length ∧
      (∀ pre win post, ts = pre ++ win ++ post → win.length = c.ring.length →
        win = c.ring.rotate (pre.length + 1) ∧ ∀ t ∈ c.ring, win.count t = 1) ∧
      (∀ t ∈ ts, t ∈ c.ring) ∧
      c'.running :: c'.lists .ready = c.ring.rotate frames.length ++ c.lower ∧ c'.lower = c.lower ∧
      (frames.length = c.ring.length → c'.running = c.running ∧ c'.lists = c.lists) := by
  have hne : c.ring ≠ [] := List.cons_ne_nil _ _
  rcases h.handlers frames with ⟨t, hmem, d, e, hv, hx, hno⟩ | ⟨c', hx, hrr, ht⟩
  · rw [hx]
    refine ⟨fun e' he => ?_, fun hpass hn hin => ?_, ?_⟩
    · cases he
      exact ⟨t, hmem, d, hv⟩
    · exact absurd ⟨⟨fun u hu => (exists_taskVerify_eq_ok.mp (hpass u hu)).1, hn⟩, hin⟩ hno
    · intro ts c' hok
      cases hok
  · rw [hx]
    refine ⟨fun e he => (by cases he), fun _ _ _ => ⟨_, _, rfl⟩, fun ts d hok => ?_⟩
    obtain ⟨rfl, rfl⟩ := Prod.mk.inj (Except.ok.inj hok)
    have hlists : c'.running :: c'.lists .ready = c.ring.rotate frames.length ++ c.lower := by
      rw [← hrr.ring_append, ht.ring, ht.lower]
    refine ⟨length_turns hne _, fun pre win post hs hl => ?_, fun t => mem_of_mem_turns, hlists, ht.lower, ?_⟩
    · have hwin := turns_window hne hs hl
      refine ⟨hwin, fun t hmem => ?_⟩
      rw [hwin, (List.rotate_perm _ _).count_eq]
      exact List.count_eq_one_of_mem h.ring_nodup hmem
    · intro hlen
      rw [hlen, List.rotate_length, h.ring_append] at hlists
      obtain ⟨hrun, hready⟩ := List.cons.inj hlists
      refine ⟨hrun, funext fun l => ?_⟩
      cases l with
      | ready => exact hready
      | waiting => exact ht.waiting

/-- The theorem at four switches among three tasks of one priority, with two tasks on `ready`
below them. -/
theorem tasks_take_turns_three : ∃ c ts c', c.RoundRobin ∧ c.lists .ready = [2, 3, 4, initTask] ∧ c.ring = [1, 2, 3] ∧
    pendSVHandlers [0x20001200, 0x20002200, 0x20003200, 0x20001200] c = .ok (ts, c') ∧ ts.length = 4 ∧
    (∀ t ∈ ts, t ∈ c.ring) ∧ c'.running :: c'.lists .ready = [2, 3, 1, 4, initTask] := by
  obtain ⟨c, tr, s, hc, hr, hp⟩ := CoreSys.exists_run_of_replayed CoreSys.exampleConfig (fun _ _ => True)
    (CoreSys.startTask 1 "one" 5 0x20001000 ++ CoreSys.startTask 2 "two" 5 0x20002000 ++
      CoreSys.startTask 3 "three" 5 0x20003000 ++ CoreSys.startTask 4 "four" 3 0x20004000 ++ CoreSys.lowerInit)
    (p := fun s => decide ((s.core.task s.core.running).state = .running ∧ -1 ≤ s.core.idNestcnt ∧
        s.core.lists .ready = [2, 3, 4, initTask] ∧ s.core.lower = [4, initTask] ∧ s.core.ring = [1, 2, 3] ∧
        (s.core.lists .ready).Pairwise (fun t u => s.core.prio u ≤ s.core.prio t) ∧
        (∀ t ∈ s.core.lists .ready, s.core.prio t ≤ s.core.prio s.core.running) ∧
        (s.core.task 1).context.bos = 0x20001000 ∧ (s.core.task 1).context.tos = 0x20001400 ∧
        (s.core.task 2).context.bos = 0x20002000 ∧ (s.core.task 2).context.tos = 0x20002400 ∧
        (s.core.task 3).context.bos = 0x20003000 ∧ (s.core.task 3).context.tos = 0x20003400) &&
      s.core.ring.all fun t => (taskVerify t s.core).toOption.isSome)
    (by decide +kernel)
  obtain ⟨hp, hpass⟩ := Bool.and_eq_true_iff.mp hp
  obtain ⟨hst, hn, hready, hlower, hring, hsorted, htop, h1, h1', h2, h2', h3, h3'⟩ := of_decide_eq_true hp
  have hr : Run CoreSys.Step (CoreSys.start c) tr s := hr.mono fun _ _ _ h => h.2
  have hpl := Placed.run hc hr
  have hrr : s.core.RoundRobin := ⟨hst, hpl.located.separate, hpl.running_off hst, hsorted, htop⟩
  have hverify (t : TaskRef) (ht : t ∈ s.core.ring) : ∃ d, taskVerify t s.core = .ok d := by
    obtain ⟨d, hd⟩ := Option.isSome_iff_exists.mp (List.all_eq_true.mp hpass t ht)
    exact ⟨d, eq_ok_of_toOption hd⟩
  have hin : s.core.InStacks [0x20001200, 0x20002200, 0x20003200, 0x20001200] := by
    intro i frame t hi ht
    rw [hring] at ht
    match i with
    | 0 => cases hi; cases ht; exact ⟨by omega, by simp only [stackFrameSize]; omega⟩
    | 1 => cases hi; cases ht; exact ⟨by omega, by simp only [stackFrameSize]; omega⟩
    | 2 => cases hi; cases ht; exact ⟨by omega, by simp only [stackFrameSize]; omega⟩
    | 3 => cases hi; cases ht; exact ⟨by omega, by simp only [stackFrameSize]; omega⟩
    | _ + 4 => cases hi
  obtain ⟨ts, c', hok⟩ := (tasks_take_turns hrr _).2.1 hverify hn hin
  obtain ⟨hlen, -, hmem, hlists, -, -⟩ := (tasks_take_turns hrr _).2.2 ts c' hok
  refine ⟨s.core, ts, c', hrr, hready, hring, hok, hlen, hmem, ?_⟩
  rw [hlists, hlower, hring]
  rfl

end

end Martos
