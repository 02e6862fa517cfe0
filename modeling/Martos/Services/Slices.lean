import Martos.Services.Soundness

/-!
# Time slices

A task that runs on is switched out after `QUANTUM` ticks. `elapsed` is counted down by
`SysTick_Handler`, which requests a switch where it reaches zero exactly, and reloaded by
the switch; `signal_send` requests one where the task it wakes ranks above the running
one.

The count is unsigned, and a tick that finds it at zero takes it to the largest value. As
long as no switch is pending this cannot happen (`Sliced`): the tick that reaches zero is
the one that requests the switch. And as long as the interrupts wake only tasks that do
not rank above it, a task that stays in its own code is left alone for exactly the ticks
its count says (`Quiet`).
-/

namespace Martos

open Transition

/-- With no switch pending, the count is between one and `q`. -/
structure Sliced (q : BitVec 32) (s : CoreSys) : Prop where
  /-- The time slice is `q`. -/
  quantum : s.core.quantum = q
  /-- The count, except inside the handler before it switches. -/
  elapsed : s.phase ≠ .verified → s.core.pendSV = false → 1 ≤ s.core.elapsed.toNat ∧ s.core.elapsed.toNat ≤ q.toNat

section

variable {q : BitVec 32} {s s' : CoreSys} {e : Event}

/-- A step that leaves the count, and no pending switch undone. -/
theorem Sliced.of_same (h : Sliced q s) (hq : s'.core.quantum = s.core.quantum)
    (he : s'.core.elapsed = s.core.elapsed) (hp : s'.core.pendSV = false → s.core.pendSV = false)
    (hv : s'.phase ≠ .verified → s.phase ≠ .verified) : Sliced q s' where
  quantum := hq.trans h.quantum
  elapsed hv' hp' := by
    rw [he]
    exact h.elapsed (hv hv') (hp hp')

/-- The switch reloads the count. -/
theorem Sliced.switchedIn (h : Sliced q s) (hq : q ≠ 0#32) {d : Core} (hd : d.quantum = s.core.quantum) (t : TaskRef)
    (phase : Phase) : Sliced q { s with core := d.switchedIn t, phase := phase } where
  quantum := hd.trans h.quantum
  elapsed _ _ := by
    change 1 ≤ d.quantum.toNat ∧ d.quantum.toNat ≤ q.toNat
    rw [hd, h.quantum]
    exact ⟨by bv_omega, le_rfl⟩

/-- A tick that finds the count above zero: it requests a switch if it is the last one. -/
theorem Core.ticked_of_pos {c : Core} (h : 1 ≤ c.elapsed.toNat) : c.ticked.elapsed.toNat = c.elapsed.toNat - 1 ∧
    c.ticked.pendSV = (c.pendSV || decide (c.elapsed.toNat = 1)) := by
  have hone : c.elapsed - 1 = 0 ↔ c.elapsed.toNat = 1 := by bv_omega
  refine ⟨?_, congrArg (c.pendSV || ·) (decide_eq_decide.mpr hone)⟩
  rw [Core.ticked]
  bv_omega

theorem Sliced.step (h : Sliced q s) (hn : Nested s) (hq : q ≠ 0#32) (hst : s.Step e s') : Sliced q s' := by
  cases hn.effect hst with
  | sysTick hm =>
    refine ⟨h.quantum, fun hv hp => ?_⟩
    obtain ⟨hpos, hle⟩ := h.elapsed hv (Bool.or_eq_false_iff.mp hp).1
    obtain ⟨hdown, hpend⟩ := Core.ticked_of_pos hpos
    -- the tick that reaches zero requests the switch
    have hne := of_decide_eq_false (Bool.or_eq_false_iff.mp (hpend.symm.trans hp)).2
    change 1 ≤ s.core.ticked.elapsed.toNat ∧ s.core.ticked.elapsed.toNat ≤ q.toNat
    omega
  | pendSV hp hm => exact ⟨h.quantum, fun hv => absurd rfl hv⟩
  | @preempts frame t hp hs hl hh => exact h.switchedIn hq (d := s.core.requeued frame) rfl t _
  | @leaves frame t st hp hs hst hh => exact h.switchedIn hq (d := s.core.switchedOut frame st) rfl t _
  | pendSVExit hp => exact h.of_same rfl rfl id fun _ => by rw [hp]; decide
  | taskSetPrio hu => exact h.of_same rfl rfl (fun hp => (Bool.or_eq_false_iff.mp hp).1) id
  | woken hw hm he => exact h.of_same rfl rfl (fun hp => (Bool.or_eq_false_iff.mp hp).1) id
  | requests ht hpc => exact h.of_same rfl rfl (fun hp => nomatch hp) id
  | yields ht hpc => exact h.of_same rfl rfl (fun hp => nomatch hp) id
  | _ => exact h.of_same rfl rfl id id

theorem Sliced.start {cfg : Config} {c : Core} (h : martosPre cfg = .ok c) (hq : cfg.quantum ≠ 0#32) :
    Sliced cfg.quantum (CoreSys.start c) := by
  obtain ⟨context, rfl⟩ := Core.exists_of_martosPre h
  exact ⟨rfl, fun _ _ => ⟨show 1 ≤ cfg.quantum.toNat by bv_omega, le_rfl⟩⟩

theorem Sliced.run {cfg : Config} {c : Core} {tr : List (Move CoreSys Event)} (h : martosPre cfg = .ok c)
    (hq : cfg.quantum ≠ 0#32) (hr : Run CoreSys.Step (CoreSys.start c) tr s) : Sliced cfg.quantum s :=
  (hr.invariant (P := fun s => Nested s ∧ Sliced cfg.quantum s) ⟨Nested.start h, .start h hq⟩
    fun _ _ _ ⟨hn, hs⟩ hst => ⟨hn.step hst, hs.step hn hq hst⟩).2

/-! ### Wake-ups -/

/-- From `s` to `s'` task `t` has been made ready. -/
def CoreSys.MakesReady (s s' : CoreSys) (t : TaskRef) : Prop :=
  (s.core.task t).state = .waiting ∧ (s'.core.task t).state = .ready

/-- What calls of `signal_send` leave alone. -/
structure Woken (s s' : CoreSys) : Prop where
  /-- `running`. -/
  running : s'.core.running = s.core.running
  /-- The priorities. -/
  prio : s'.core.prio = s.core.prio
  /-- The count. -/
  elapsed : s'.core.elapsed = s.core.elapsed
  /-- A task that waits has waited before. -/
  waiting : ∀ t, (s'.core.task t).state = .waiting → (s.core.task t).state = .waiting
  /-- A task that was ready is ready. -/
  ready : ∀ t, (s.core.task t).state = .ready → (s'.core.task t).state = .ready
  /-- The tasks made ready decide whether a switch is requested. -/
  pendSV : (∀ t, s.MakesReady s' t → s.core.prio t ≤ s.core.prio s.core.running) →
    s'.core.pendSV = s.core.pendSV

theorem Woken.refl (s : CoreSys) : Woken s s := ⟨rfl, rfl, rfl, fun _ => id, fun _ => id, fun _ => rfl⟩

theorem Woken.trans {s'' : CoreSys} (h : Woken s s') (h' : Woken s' s'') : Woken s s'' where
  running := h'.running.trans h.running
  prio := h'.prio.trans h.prio
  elapsed := h'.elapsed.trans h.elapsed
  waiting t ht := h.waiting t (h'.waiting t ht)
  ready t ht := h'.ready t (h.ready t ht)
  pendSV hle := by
    have hfirst := h.pendSV fun t ht => hle t ⟨ht.1, h'.ready t ht.2⟩
    have hsecond := h'.pendSV fun t ht => by
      rw [h.prio, h.running]
      exact hle t ⟨h.waiting t ht.1, ht.2⟩
    exact hsecond.trans hfirst

/-- One call of `signal_send`. -/
theorem Nested.woken_step (h : Nested s) {t : TaskRef} {sg : Signals} (he : e.Sends t sg) (hst : s.Step e s') :
    Woken s s' := by
  cases h.effect hst with
  | @posted _ t' sg' hw he' =>
    have hstate {u : TaskRef} : ((s.core.posted t' sg').task u).state = (s.core.task u).state :=
      Core.apply_update Task.state (by rfl) u
    exact {
      running := rfl
      prio := funext (Core.apply_update Task.prio (by rfl))
      elapsed := rfl
      waiting := fun u hu => hstate.symm.trans hu
      ready := fun u hu => hstate.trans hu
      pendSV := fun _ => rfl }
  | @woken _ u sg' hw hm he' =>
    have hself : ((s.core.woken u sg').task u).state = .ready := by simp [Core.woken]
    have hof {v : TaskRef} (hv : v ≠ u) : (s.core.woken u sg').task v = s.core.task v := by simp [Core.woken, hv]
    exact {
      running := rfl
      prio := funext (Core.apply_update Task.prio (by rfl))
      elapsed := rfl
      waiting := fun v hv => by
        by_cases hvu : v = u
        · rw [hvu]
          exact hw.1
        · rw [← hof hvu]
          exact hv
      ready := fun v hv => by
        by_cases hvu : v = u
        · rw [hvu]
          exact hself
        · exact (congrArg Task.state (hof hvu)).trans hv
      pendSV := fun hle => by
        have hlow := not_lt.mpr (hle u ⟨hw.1, hself⟩)
        simp [Core.woken, hlow] }
  | _ => rcases he with he | he <;> cases he

/-- Calls of `signal_send` one after the other. -/
theorem Nested.woken_run {tr : List (Move CoreSys Event)} (h : Nested s) (hr : Run CoreSys.Step s tr s')
    (hs : ∀ m ∈ tr, ∃ t sg, m.event.Sends t sg) : Woken s s' := by
  induction hr with
  | nil => exact .refl s
  | snoc hr hst ih =>
    obtain ⟨t, sg, he⟩ := hs _ (List.mem_append_right _ (List.mem_singleton_self _))
    have hn := hr.invariant h fun _ _ _ hn hst => hn.step hst
    exact (ih fun m hm => hs m (List.mem_append_left _ hm)).trans (hn.woken_step he hst)

end

/-! ### Ticks of a task left alone -/

/-- What can happen while the running task makes no call of the kernel and no switch is
made: interrupts, and what the task writes to its own structures. -/
def SysEvent.Quiet : SysEvent → Prop
  | .core .sysTick => True
  | .core (.isrSignalSend _ _) => True
  | .core .pendSVExit => True
  | .isr _ => True
  | .tim2 => True
  | .call (.write _) => True
  | _ => False

/-- The event is a tick. -/
def SysEvent.isSysTick : SysEvent → Bool
  | .core .sysTick => true
  | _ => false

/-- The ticks among the moves. -/
def sysTicks (tr : List (Move Sys SysEvent)) : ℕ := tr.countP fun m => m.event.isSysTick

/-- The running task makes no call, and no task that ranks above it is made ready. -/
structure LeftAlone (m : Move Sys SysEvent) : Prop where
  /-- What happens. -/
  quiet : m.event.Quiet
  /-- The tasks made ready. -/
  ready : ∀ t, m.pre.cs.MakesReady m.post.cs t → m.pre.cs.core.prio t ≤ m.pre.cs.core.prio m.pre.cs.core.running

section

variable {s s' : Sys} {e : SysEvent}

/-- Such a step is a tick, or wakes tasks. -/
theorem Sound.quiet_cases (h : Sound s) (heff : SysEffect s e s') (hq : e.Quiet) :
    (e.isSysTick = true ∧ s'.cs.core = s.cs.core.ticked) ∨ (e.isSysTick = false ∧ Woken s.cs s'.cs) := by
  have hcs {p : Sys} (hp : p.cs = s.cs) : Woken s.cs p.cs := hp ▸ .refl s.cs
  -- the calls that do not block send at most one signal
  have hdel {t : TaskRef} {sg : Signals} {cs : CoreSys} (hd : s.cs.Delivers t sg cs) : Woken s.cs cs := by
    obtain ⟨ev, hev, hst⟩ := hd
    exact h.nested.woken_step hev hst
  have htick {a : Service} (hc : s.Calls e a) : e.isSysTick = false := by
    rcases hc.1 with ⟨rfl, -⟩ | ⟨rfl, -⟩ <;> rfl
  cases heff with
  | @core ev cs hst hc =>
    cases ev with
    | sysTick =>
      refine .inl ⟨rfl, ?_⟩
      cases h.nested.effect hst with
      | sysTick hm => rfl
      | posted hw he => rcases he with ⟨he, -⟩ | ⟨he, -⟩ <;> cases he
      | woken hw hm he => rcases he with ⟨he, -⟩ | ⟨he, -⟩ <;> cases he
    | isrSignalSend t sg => exact .inr ⟨rfl, h.nested.woken_step (.inr rfl) hst⟩
    | pendSVExit =>
      refine .inr ⟨rfl, ?_⟩
      cases h.nested.effect hst with
      | pendSVExit hp => exact ⟨rfl, rfl, rfl, fun _ => id, fun _ => id, fun _ => rfl⟩
      | posted hw he => rcases he with ⟨he, -⟩ | ⟨he, -⟩ <;> cases he
      | woken hw hm he => rcases he with ⟨he, -⟩ | ⟨he, -⟩ <;> cases he
    | _ => cases hq
  | semInit hc => exact .inr ⟨htick hc, .refl _⟩
  | requests hc => exact .inr ⟨htick hc, .refl _⟩
  | released hc hn => exact .inr ⟨htick hc, .refl _⟩
  | grants hc hn hh hs => exact .inr ⟨htick hc, hdel hs⟩
  | got hc => exact .inr ⟨htick hc, .refl _⟩
  | sent hc hm ha hs =>
    refine .inr ⟨hc.elim htick fun hr => htick hr.1, ?_⟩
    rcases hs with ⟨t, -, -, hd⟩ | ⟨-, rfl⟩
    · exact hdel hd
    · exact .refl _
  | aborts hc ha hm => exact .inr ⟨htick hc, .refl _⟩
  | abortsNot hc ha => exact .inr ⟨htick hc, .refl _⟩
  | tim2 hm hc hr htr =>
    refine .inr ⟨rfl, h.nested.woken_run hr fun m hm => ?_⟩
    have hmem := List.mem_map_of_mem (f := Move.event) hm
    rw [htr] at hmem
    obtain ⟨call, -, hev⟩ := List.mem_map.mp hmem
    exact ⟨call.1, call.2, .inr hev.symm⟩
  | @write w hu hw => exact .inr ⟨rfl, by cases w <;> exact .refl _⟩
  | _ => cases hq

/-- **Where the count stands, and whether a switch is pending, after moves that leave the
running task alone.** -/
theorem Sound.left_alone_run {tr : List (Move Sys SysEvent)} (h : Sound s) (hr : Run Sys.Step s tr s')
    (hal : ∀ m ∈ tr, LeftAlone m) (hp : s.cs.core.pendSV = false) (hpos : 1 ≤ s.cs.core.elapsed.toNat) :
    (sysTicks tr < s.cs.core.elapsed.toNat → s'.cs.core.pendSV = false ∧
      s'.cs.core.elapsed.toNat = s.cs.core.elapsed.toNat - sysTicks tr) ∧
    (s.cs.core.elapsed.toNat ≤ sysTicks tr → s'.cs.core.pendSV = true) := by
  induction hr with
  | nil =>
    have hzero : sysTicks [] = 0 := rfl
    rw [hzero]
    exact ⟨fun _ => ⟨hp, rfl⟩, fun hle => by omega⟩
  | @snoc tr t t' ev hr hst ih =>
    obtain ⟨hbefore, hafter⟩ := ih fun m hm => hal m (List.mem_append_left _ hm)
    obtain ⟨hq, hready⟩ := hal _ (List.mem_append_right _ (List.mem_singleton_self _))
    have ht := hr.invariant h fun _ _ _ hs hst => hs.step hst
    rcases ht.quiet_cases (ht.effect hst) hq with ⟨he, hcore⟩ | ⟨he, hw⟩
    · have hcount : sysTicks (tr ++ [⟨t, ev, t'⟩]) = sysTicks tr + 1 := by
        simp [sysTicks, List.countP_append, he]
      rw [hcount, hcore]
      constructor
      · intro hlt
        obtain ⟨hp, hel⟩ := hbefore (by omega)
        obtain ⟨hdown, hpend⟩ := Core.ticked_of_pos (c := t.cs.core) (by omega)
        refine ⟨?_, by omega⟩
        rw [hpend, hp, Bool.false_or]
        exact decide_eq_false (by omega)
      · intro hle
        by_cases hlt : sysTicks tr < s.cs.core.elapsed.toNat
        · -- this tick reaches zero
          obtain ⟨hp, hel⟩ := hbefore hlt
          rw [(Core.ticked_of_pos (by omega)).2, hp, Bool.false_or]
          exact decide_eq_true (by omega)
        · rw [Core.ticked, hafter (by omega), Bool.true_or]
    · have hcount : sysTicks (tr ++ [⟨t, ev, t'⟩]) = sysTicks tr := by
        simp [sysTicks, List.countP_append, he]
      rw [hcount, hw.pendSV hready, hw.elapsed]
      exact ⟨hbefore, hafter⟩

/-- **Time slices are exact.** For every time slice of at least one tick: in every state
reached with no switch pending, outside of the handler, the count is between one and the
time slice; and from every such state, in every run of moves that leave the running task
alone, a switch is pending exactly when as many ticks have come as the count said. -/
theorem time_slices_exact {cfg : Config} {c : Core} {tr : List (Move Sys SysEvent)} (hq : cfg.quantum ≠ 0#32)
    (h : martosPre cfg = .ok c) (hr : Run Sys.Step (Sys.start c) tr s) (hv : s.cs.phase ≠ .verified)
    (hp : s.cs.core.pendSV = false) :
    (1 ≤ s.cs.core.elapsed.toNat ∧ s.cs.core.elapsed.toNat ≤ cfg.quantum.toNat) ∧
    ∀ tr' s', Run Sys.Step s tr' s' → (∀ m ∈ tr', LeftAlone m) →
      (s'.cs.core.pendSV = true ↔ s.cs.core.elapsed.toNat ≤ sysTicks tr') := by
  obtain ⟨ctr, hcr⟩ := core_run_of_run h hr
  have hel := (Sliced.run h hq hcr).elapsed hv hp
  refine ⟨hel, fun tr' s' hr' hal => ?_⟩
  obtain ⟨hbefore, hafter⟩ := (Sound.run h hr).left_alone_run hr' hal hp hel.1
  constructor
  · intro hp'
    by_contra hlt
    rw [(hbefore (by omega)).1] at hp'
    cases hp'
  · exact hafter

theorem Sound.left_alone_tick (h : Sound s) (hst : s.Step (.core .sysTick) s') : LeftAlone ⟨s, .core .sysTick, s'⟩ where
  quiet := trivial
  ready t ht := by
    have hcore : s'.cs.core = s.cs.core.ticked := by
      rcases h.quiet_cases (h.effect hst) trivial with ⟨-, hcore⟩ | ⟨he, -⟩
      · exact hcore
      · cases he
    have hready := ht.2
    rw [hcore] at hready
    exact absurd (ht.1.symm.trans hready) (by decide)

/-- A call of `signal_send` for a task that does not rank above the running one. -/
theorem Sound.left_alone_send (h : Sound s) {u : TaskRef} {sg : Signals}
    (hst : s.Step (.core (.isrSignalSend u sg)) s') (hle : s.cs.core.prio u ≤ s.cs.core.prio s.cs.core.running) :
    LeftAlone ⟨s, .core (.isrSignalSend u sg), s'⟩ where
  quiet := trivial
  ready t ht := by
    obtain ⟨hwait, hready⟩ := ht
    by_cases htu : t = u
    · rw [htu]
      exact hle
    · -- the structures of the others stay as they are
      have hsame : (s'.cs.core.task t).state = (s.cs.core.task t).state := by
        obtain ⟨cs, hcs, rfl⟩ := (h.effect hst).core_step
        cases h.nested.effect hcs with
        | posted hw he =>
          rcases he with ⟨he, -⟩ | ⟨he, -⟩ <;> cases he
          simp [Core.posted, htu]
        | woken hw hm he =>
          rcases he with ⟨he, -⟩ | ⟨he, -⟩ <;> cases he
          simp [Core.woken, htu]
      exact absurd (hwait.symm.trans (hsame.symm.trans hready)) (by decide)

theorem Sound.left_alone_ticks (h : Sound s) {tr : List (Move Sys SysEvent)} (hr : Run Sys.Step s tr s') {n : ℕ}
    (hev : tr.map Move.event = List.replicate n (.core .sysTick)) : ∀ m ∈ tr, LeftAlone m := by
  intro m hm
  obtain ⟨hsound, hst⟩ := hr.forall_move h (fun _ _ _ hs hst => hs.step hst) m hm
  have hmem := List.mem_map_of_mem (f := Move.event) hm
  rw [hev] at hmem
  obtain ⟨pre, ev, post⟩ := m
  obtain rfl : ev = .core .sysTick := List.eq_of_mem_replicate hmem
  exact hsound.left_alone_tick hst

/-- The theorem at ten ticks of a task, with a wake-up of a task of the same priority in between. -/
theorem time_slices_exact_equal : ∃ c tr s₀ s tr', martosPre CoreSys.exampleConfig = .ok c ∧
    Run Sys.Step (Sys.start c) tr s₀ ∧ s₀.cs.core.running = 2 ∧ (s₀.cs.core.task 1).state = .waiting ∧
    Run Sys.Step s₀ tr' s ∧ (∀ m ∈ tr', LeftAlone m) ∧ sysTicks tr' = 10 ∧ s.cs.core.lists .ready = [1, initTask] ∧
    s.cs.core.pendSV = true := by
  have hx : (martosPre CoreSys.exampleConfig).toOption.any (fun c =>
      (replay Sys.next (Sys.start c) (CoreSys.twoTasks.map .core ++ [.core (.call (.signalWait 2)), .core .resume,
        .core .pendSV, .core (.pendSVSwitch 0x20001200), .core .pendSVExit])).any fun s₀ =>
        (replay Sys.next s₀ (List.replicate 5 (.core .sysTick))).any fun s₁ =>
          (s₁.next (.core (.isrSignalSend 1 2))).any fun s₂ =>
            (replay Sys.next s₂ (List.replicate 5 (.core .sysTick))).any fun s =>
              decide ((s₀.cs.core.running = 2 ∧ (s₀.cs.core.task 1).state = .waiting ∧ s₀.cs.core.pendSV = false ∧
                s₀.cs.phase ≠ .verified ∧ s₀.cs.core.elapsed = 10) ∧
                s₁.cs.core.prio 1 ≤ s₁.cs.core.prio s₁.cs.core.running ∧
                s.cs.core.lists .ready = [1, initTask])) = true := by decide +kernel
  have hn (s : Sys) (e : SysEvent) (s' : Sys) : s.next e = some s' → s.Step e s' := Sys.step_of_next
  obtain ⟨c, hc, hx⟩ := (Option.any_eq_true ..).mp hx
  have hc := Checked.eq_ok_of_toOption hc
  obtain ⟨s₀, hs₀, hx⟩ := (Option.any_eq_true ..).mp hx
  obtain ⟨s₁, hs₁, hx⟩ := (Option.any_eq_true ..).mp hx
  obtain ⟨s₂, hs₂, hx⟩ := (Option.any_eq_true ..).mp hx
  obtain ⟨s, hs, hx⟩ := (Option.any_eq_true ..).mp hx
  obtain ⟨⟨hrun, hwait, hpend, hphase, hel⟩, hle, hready⟩ := of_decide_eq_true hx
  obtain ⟨tr, hr, -⟩ := Run.of_replay hn hs₀
  obtain ⟨tr₁, hr₁, hev₁⟩ := Run.of_replay hn hs₁
  obtain ⟨tr₂, hr₂, hev₂⟩ := Run.of_replay hn hs
  have hsend := Sys.step_of_next hs₂
  have hsound := Sound.run hc hr
  have hsound₁ := hr₁.invariant hsound fun _ _ _ hs hst => hs.step hst
  have hal (m) (hm : m ∈ tr₁ ++ ⟨s₁, .core (.isrSignalSend 1 2), s₂⟩ :: tr₂) : LeftAlone m := by
    rcases List.mem_append.mp hm with hm | hm
    · exact hsound.left_alone_ticks hr₁ hev₁ m hm
    · rcases List.mem_cons.mp hm with rfl | hm
      · exact hsound₁.left_alone_send hsend hle
      · exact (hsound₁.step hsend).left_alone_ticks hr₂ hev₂ m hm
  have hr' := hr₁.append ((Run.one hsend).append hr₂)
  have hticks : sysTicks (tr₁ ++ ⟨s₁, .core (.isrSignalSend 1 2), s₂⟩ :: tr₂) = 10 := by
    calc sysTicks _ = ((tr₁ ++ ⟨s₁, .core (.isrSignalSend 1 2), s₂⟩ :: tr₂).map Move.event).countP
          SysEvent.isSysTick := by rw [List.countP_map]; rfl
      _ = 10 := by rw [List.map_append, List.map_cons, hev₁, hev₂]; rfl
  refine ⟨c, tr, s₀, s, _, hc, hr, hrun, hwait, hr', hal, hticks, hready, ?_⟩
  refine ((time_slices_exact (by decide) hc hr hphase hpend).2 _ s hr' hal).mpr ?_
  rw [hel]
  exact hticks.ge

end

end Martos
