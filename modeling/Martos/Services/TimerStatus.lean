import Martos.Services.Timers

/-!
# The status of a timer and the queue

`timer_add` and `timer_abort` look at the status of a timer, not at the queue, to find out
whether it is queued. `Services.Agrees` is what they rely on: a timer is on the queue exactly
when its status is `TIMER_ADDED`.

Every function but one keeps this up. `timer_abort` takes the timer from the queue and
leaves the status as it is, so that a second call unlinks a node which is on no list, and
`timer_add` refuses the timer. And `timer_allocate`, if it is called on a timer that is
queued, resets the status and leaves the timer on the queue. `timer_status_agrees_iff` says
that there is no third way.
-/

namespace Martos

open Checked Transition

/-- A timer is on the queue exactly when its status says so. -/
def Services.Agrees (svc : Services) : Prop := ∀ tm, tm ∈ svc.timers () ↔ (svc.timer tm).status = .added

/-- The steps of the machine, with `timer_allocate` called also on timers that are queued. -/
def Sys.AllocatesStep (s : Sys) (e : SysEvent) (s' : Sys) : Prop :=
  s.Step e s' ∨
    ∃ tm, e = .call (.timerAllocate tm) ∧ s.Calling ∧ s.adding tm = false ∧ s.exec e = .ok s'

/-- The event is a call of `timer_abort(tm)` or `timer_allocate(tm)`. -/
def SysEvent.Resets (tm : TimerRef) (e : SysEvent) : Prop :=
  e.service = some (.timerAbort tm) ∨ e = .call (.timerAllocate tm)

section

variable {s s' : Sys} {e : SysEvent} {tm : TimerRef}

/-- Another status for one timer. -/
theorem Services.Agrees.update (h : s.svc.Agrees) {u : TimerRef} {x : Timer} {l : List TimerRef}
    (hu : u ∈ l ↔ x.status = .added) (hl : ∀ v, v ≠ u → (v ∈ l ↔ v ∈ s.svc.timers ())) (v : TimerRef) :
    v ∈ l ↔ (Function.update s.svc.timer u x v).status = .added := by
  by_cases hv : v = u
  · subst hv
    rw [Function.update_self]
    exact hu
  · rw [Function.update_of_ne hv, hl v hv]
    exact h v

/-- **A step keeps status and queue in agreement**, unless `timer_abort` takes a timer from
the queue. -/
theorem Services.Agrees.step (h : s.svc.Agrees) (ht : Timed s) (hs : Sound s) (hok : FreesUnused s e)
    (hno : ∀ tm, e.service = some (.timerAbort tm) → tm ∉ s.svc.timers ()) (heff : SysEffect s e s') :
    s'.svc.Agrees := by
  -- a timer that is not in use gets another status
  have hfree {u : TimerRef} {x : Timer} (hf : u ∉ s.svc.timers ()) (hx : x.status ≠ .added) (v : TimerRef) :
      v ∈ s.svc.timers () ↔ (Function.update s.svc.timer u x v).status = .added :=
    h.update (iff_of_false hf hx) (fun _ _ => Iff.rfl) v
  -- a timer keeps its status
  have hsame {u : TimerRef} {x : Timer} (hx : x.status = (s.svc.timer u).status) (v : TimerRef) :
      v ∈ s.svc.timers () ↔ (Function.update s.svc.timer u x v).status = .added :=
    h.update ((h u).trans (by rw [hx])) (fun _ _ => Iff.rfl) v
  cases heff with
  | timerAllocate hu hf hst => exact hfree hf.2 (by simp)
  | timerFree hu hf hst => exact hfree hf.2 (by simp)
  | addStarts hu ha hs => exact hsame rfl
  | delayStarts hu hf hd hst => exact hfree hf.2 (by simp)
  | @addElapsed u delay hu hp he =>
    have hadding := (ht.adders _ u ⟨delay, .inl hp⟩).1
    have hout : u ∉ s.svc.timers () := by
      intro hm
      rw [(ht.queued u hm).2] at hadding
      cases hadding
    exact hfree hout (by simp)
  | @addInserts u delay hu hp hm =>
    have hmem (v : TimerRef) : v ∈ (s.svc.timerInserted u).timers () ↔ v ∈ s.svc.timers () ∨ v = u := by
      rw [Services.timerInserted_timers, Seqs.mem_listEnqueue]
      simp
    intro v
    exact h.update (iff_of_true ((hmem u).mpr (.inr rfl)) rfl)
      (fun w hw => (hmem w).trans (or_iff_left hw)) v
  | delayFrees hu hp hst => exact hfree (hok.timerFree hp).2 (by simp)
  | aborts hc ha hm => exact absurd hm (hno _ hc.service_eq)
  | tim2 hm hc hr htr =>
    have hd : (s.svc.clocked.timers ()).Nodup := hs.timers
    intro v
    change v ∈ s.svc.clocked.polled.timers () ↔ (s.svc.clocked.polled.timer v).status = .added
    rw [Services.mem_polled_iff hd]
    by_cases hdue : v ∈ s.svc.clocked.due
    · rw [Services.polled_timer_of_mem hdue]
      simp [hdue]
    · rw [Services.polled_timer_of_not_mem hdue, and_iff_left hdue]
      exact h v
  | @write w hu hw =>
    cases w with
    | timer u op delay tick => exact hsame rfl
    | _ => exact h
  | _ => exact h

/-- Where status and queue agree, `timer_abort` of a timer that is not queued does nothing. -/
theorem Services.Agrees.timerAbort_eq (h : s.svc.Agrees) (hs : Sound s) (hm : tm ∉ s.svc.timers ()) :
    timerAbort tm s.kernel = .ok s.kernel := by
  have hcrit := (timerAbortAdded_transparent tm).critical (k := s.kernel) hs.nested.balanced
  refine hcrit.trans ?_
  exact if_neg (mt (h tm).mpr hm)

/-- `timer_abort` takes a timer that is queued from the queue, and leaves its status. -/
theorem Timed.abort_queued (ht : Timed s) (hs : Sound s) (hst : s.Step e s')
    (ha : e.service = some (.timerAbort tm)) (hm : tm ∈ s.svc.timers ()) : ¬ s'.svc.Agrees := by
  have hx := hst.execService_eq ha
  simp only [Sys.execService, bind_eq_ok, pure_eq_ok] at hx
  obtain ⟨k, hk, rfl⟩ := hx
  rcases timerAbort_cases (k := s.kernel) hs.nested.balanced hk with ⟨hadded, -, rfl⟩ | ⟨hadded, -⟩
  · intro hag
    have hmem : tm ∈ (s.svc.timers ()).erase tm := (hag tm).mpr hadded
    exact hs.timers.not_mem_erase hmem
  · exact absurd (ht.queued tm hm).1 hadded

/-- `timer_allocate` of a timer that is queued resets its status, and leaves it on the queue. -/
theorem Sys.allocate_queued (hx : s.exec (.call (.timerAllocate tm)) = .ok s') (hm : tm ∈ s.svc.timers ()) :
    ¬ s'.svc.Agrees := by
  simp only [Sys.exec, Sys.execCall, bind_eq_ok, pure_eq_ok] at hx
  obtain ⟨k, hk, rfl⟩ := hx
  obtain ⟨n, c, sg, -, rfl⟩ := timerAllocate_eq_ok hk
  intro hag
  have hstatus := (hag tm).mp hm
  simp [Sys.put] at hstatus

end

/-- What the callers of `timer_add` and `timer_abort` rely on, after a move: status and queue
agree; `timer_abort` of a timer that is not queued does nothing; and a timer that
`timer_abort` has been called on is accepted by `timer_add`, if it has been allocated and set
up. -/
structure Sys.KeepsStatus (m : Move Sys SysEvent) : Prop where
  /-- Status and queue agree. -/
  agrees : ∀ tm, tm ∈ m.post.svc.timers () ↔ (m.post.svc.timer tm).status = .added
  /-- `timer_abort` of a timer that is not queued changes nothing. -/
  again : ∀ tm, tm ∉ m.post.svc.timers () → timerAbort tm m.post.kernel = .ok m.post.kernel
  /-- After `timer_abort` the timer can be added. -/
  accepted : ∀ tm, m.event.service = some (.timerAbort tm) → (m.pre.svc.timer tm).status ≠ .invalid →
    (m.pre.svc.timer tm).op ≠ .none → ∃ svc, timerAddStart tm m.post.svc = .ok svc

section

variable {s s' : Sys} {e : SysEvent} {tm : TimerRef}

/-- `timer_add` accepts a timer that is set up, allocated and not added. -/
theorem timerAddStart_ok {svc : Services} (ho : (svc.timer tm).op ≠ .none) (hi : (svc.timer tm).status ≠ .invalid)
    (ha : (svc.timer tm).status ≠ .added) : ∃ svc', timerAddStart tm svc = .ok svc' := by
  have hop : (svc.timer tm).op = .delay ∨ (svc.timer tm).op = .alarm := by
    cases hx : (svc.timer tm).op with
    | none => exact absurd hx ho
    | delay => exact .inl rfl
    | alarm => exact .inr rfl
  have hstatus : (svc.timer tm).status = .initialized ∨ (svc.timer tm).status = .done ∨
      (svc.timer tm).status = .aborted := by
    cases hx : (svc.timer tm).status with
    | invalid => exact absurd hx hi
    | added => exact absurd hx ha
    | initialized => exact .inl rfl
    | done => exact .inr (.inl rfl)
    | aborted => exact .inr (.inr rfl)
  unfold timerAddStart
  rw [assertThat_of _ hop, ok_bind, assertThat_of _ hstatus, ok_bind]
  exact ⟨_, rfl⟩

/-- `timer_abort` of a timer that is not queued leaves the timers alone. -/
theorem SysEffect.svc_of_abort (heff : SysEffect s e s') (ha : e.service = some (.timerAbort tm))
    (hm : tm ∉ s.svc.timers ()) : s'.svc = s.svc := by
  cases heff with
  | @aborts _ u hc hadd hmem =>
    cases hc.service_eq.symm.trans ha
    exact absurd hmem hm
  | abortsNot hc hadd => rfl
  | semInit hc => cases hc.service_eq.symm.trans ha
  | requests hc => cases hc.service_eq.symm.trans ha
  | released hc hn => cases hc.service_eq.symm.trans ha
  | grants hc hn hh hs => cases hc.service_eq.symm.trans ha
  | got hc => cases hc.service_eq.symm.trans ha
  | sent hc hm ha' hs => rcases hc with hc | ⟨hc, -⟩ <;> cases hc.service_eq.symm.trans ha
  | _ => cases ha

/-- A step that does not reset a queued timer. -/
theorem Sys.KeepsStatus.of_step (h : s.svc.Agrees) (ht : Timed s) (hs : Sound s) (hok : FreesUnused s e)
    (hno : ∀ tm, e.Resets tm → tm ∉ s.svc.timers ()) (hst : s.Step e s') : Sys.KeepsStatus ⟨s, e, s'⟩ := by
  have heff := hs.effect hst
  have hag : s'.svc.Agrees := h.step ht hs hok (fun tm ha => hno tm (.inl ha)) heff
  refine ⟨hag, fun tm hm => hag.timerAbort_eq (hs.step hst) hm, fun tm ha hi ho => ?_⟩
  have hm := hno tm (.inl ha)
  rw [heff.svc_of_abort ha hm]
  exact timerAddStart_ok ho hi (mt (h tm).mpr hm)

end

section

variable {s : Sys} {tr : List (Move Sys SysEvent)}

/-- **When status and queue agree.** In a run of any length, of all the kernel offers, in which
timers are freed while they are not in use: status and queue agree in every state reached,
`timer_abort` of a timer that is not queued does nothing there, and after `timer_abort` the
timer is accepted again by `timer_add`, if and only if no call in the run is a `timer_abort`
or a `timer_allocate` of a timer that is queued. -/
theorem timer_status_agrees_iff {cfg : Config} {c : Core} (h : martosPre cfg = .ok c)
    (hr : Run (Restrict FreesUnused Sys.AllocatesStep) (Sys.start c) tr s) :
    (∀ m ∈ tr, Sys.KeepsStatus m) ↔ ∀ m ∈ tr, ∀ tm, m.event.Resets tm → tm ∉ m.pre.svc.timers () := by
  have hstart : Sound (Sys.start c) ∧ Timed (Sys.start c) := Timed.run h .nil
  -- both sides say that the run is one of the machine in which no queued timer is reset
  suffices hinv : (∀ m ∈ tr, Sys.KeepsStatus m) ∧ (∀ m ∈ tr, ∀ tm, m.event.Resets tm → tm ∉ m.pre.svc.timers ()) ∧
      Sound s ∧ Timed s ∧ s.svc.Agrees ∨
      ¬ (∀ m ∈ tr, Sys.KeepsStatus m) ∧ ¬ ∀ m ∈ tr, ∀ tm, m.event.Resets tm → tm ∉ m.pre.svc.timers () by
    rcases hinv with ⟨hk, hno, -⟩ | ⟨hk, hno⟩
    · exact iff_of_true hk hno
    · exact iff_of_false hk hno
  induction hr with
  | nil =>
    refine .inl ⟨fun _ hm => (nomatch hm), fun _ hm => (nomatch hm), hstart.1, hstart.2, fun tm => ?_⟩
    exact iff_of_false (fun hm => nomatch hm) (fun ha => nomatch ha)
  | @snoc tr s s' e hr hst ih =>
    obtain ⟨hok, hst⟩ := hst
    rcases ih with ⟨hk, hno, hs, ht, hag⟩ | ⟨hk, hno⟩
    · by_cases hreset : ∀ tm, e.Resets tm → tm ∉ s.svc.timers ()
      · -- the move is a step of the machine
        have hst : s.Step e s' := by
          rcases hst with hst | ⟨tm, rfl, hu, ha, hx⟩
          · exact hst
          · exact ⟨⟨hu.1, hu.2, ha, hreset tm (.inr rfl)⟩, hx⟩
        have hlast := Sys.KeepsStatus.of_step hag ht hs hok hreset hst
        refine .inl ⟨fun m hm => ?_, fun m hm => ?_, hs.step hst, ht.step hs hok (hs.effect hst), hlast.agrees⟩
        · rcases List.mem_append.mp hm with hm | hm
          · exact hk m hm
          · obtain rfl := List.mem_singleton.mp hm
            exact hlast
        · rcases List.mem_append.mp hm with hm | hm
          · exact hno m hm
          · obtain rfl := List.mem_singleton.mp hm
            exact hreset
      · refine .inr ⟨fun hall => ?_, fun hall => hreset (hall ⟨s, e, s'⟩ (by simp))⟩
        have hag' : s'.svc.Agrees := (hall ⟨s, e, s'⟩ (by simp)).agrees
        push Not at hreset
        obtain ⟨tm, hre, hm⟩ := hreset
        rcases hre with ha | rfl
        · rcases hst with hst | ⟨u, rfl, -⟩
          · exact ht.abort_queued hs hst ha hm hag'
          · cases ha
        · rcases hst with hst | ⟨u, -, -, -, hx⟩
          · exact Sys.allocate_queued hst.2 hm hag'
          · exact Sys.allocate_queued hx hm hag'
    · exact .inr ⟨fun hall => hk fun m hm => hall m (List.mem_append_left _ hm),
        fun hall => hno fun m hm => hall m (List.mem_append_left _ hm)⟩

/-- A timer is added, and aborted while it is queued. -/
theorem exists_abort_queued : ∃ c tr₁ s₁ s₂ s, martosPre CoreSys.exampleConfig = .ok c ∧
    Run (Restrict FreesUnused Sys.Step) (Sys.start c) (tr₁ ++ [⟨s₁, .call (.service (.timerAbort 7)), s₂⟩]) s ∧
    7 ∈ s₁.svc.timers () ∧ 7 ∉ s₂.svc.timers () ∧ (s₂.svc.timer 7).status = .added := by
  obtain ⟨c, tr₁, s₁, s₂, tr₂, s, hc, hr, htr, hp⟩ := Sys.exists_run CoreSys.exampleConfig FreesUnused
    [.call (.timerAllocate 7), .call (.write (.timer 7 .delay 5 0)), .call (.timerAdd 7), .resume, .resume]
    (.call (.service (.timerAbort 7))) []
    (p := fun s₁ s₂ _ => decide (7 ∈ s₁.svc.timers () ∧ 7 ∉ s₂.svc.timers () ∧ (s₂.svc.timer 7).status = .added))
    (by decide +kernel)
  obtain rfl := List.map_eq_nil_iff.mp htr
  exact ⟨c, tr₁, s₁, s₂, s, hc, hr, of_decide_eq_true hp⟩

/-- The theorem at a run that ends with the abort of a queued timer. -/
theorem timer_status_agrees_iff_abort : ∃ c tr s, martosPre CoreSys.exampleConfig = .ok c ∧
    Run (Restrict FreesUnused Sys.AllocatesStep) (Sys.start c) tr s ∧ ¬ ∀ m ∈ tr, Sys.KeepsStatus m := by
  obtain ⟨c, tr₁, s₁, s₂, s, hc, hr, hm, -, -⟩ := exists_abort_queued
  have hr : Run (Restrict FreesUnused Sys.AllocatesStep) (Sys.start c) _ s :=
    hr.mono fun _ _ _ hst => ⟨hst.1, .inl hst.2⟩
  refine ⟨c, _, s, hc, hr, fun hk => ?_⟩
  exact (timer_status_agrees_iff hc hr).mp hk _ (List.mem_append_right tr₁ (List.mem_singleton_self _)) 7 (.inl rfl) hm

/-- After `timer_abort` a timer is off the queue, and still has status `TIMER_ADDED`. -/
theorem timer_abort_leaves_status : ¬ ∀ (cfg : Config) (c : Core) (tr : List (Move Sys SysEvent)) (s : Sys),
    martosPre cfg = .ok c → Run (Restrict FreesUnused Sys.Step) (Sys.start c) tr s →
    ∀ m ∈ tr, Sys.KeepsStatus m := by
  intro hall
  obtain ⟨c, tr₁, s₁, s₂, s, hc, hr, -, hout, hadded⟩ := exists_abort_queued
  have hk := hall _ c _ s hc hr _ (List.mem_append_right tr₁ (List.mem_singleton_self _))
  exact hout ((hk.agrees 7).mpr hadded)

end

end Martos
