import Martos.Services.Admission

/-!
# The assertions of sem_signal

Where the count is still negative after it has been counted up, `sem_signal` asserts that
`list_rem_head` returns a request, that its signal is not 0 and that its waiter is not the
running task. The first two hold because the queue is at least as long as the count says
(`Books`), and because every request queued was made with a signal (`AsksSignals`). The third
does not: a task that has made a request with `sem_add_request` and goes on can call
`sem_signal` while this request is the first of the queue.
-/

namespace Martos

open Checked Transition

/-- The assertions of `sem_signal`. -/
def Fault.OfSemSignal (f : Fault) : Prop := f = .semRequest ∨ f = .semWaiter ∨ f = .semSignal

section

variable {c : Core} {k : Kernel} {sem : SemRef} {t : TaskRef} {sg : Signals}

theorem signalSend_avoids (hb : c.Balanced) : Avoids Fault.OfSemSignal (signalSend t sg c) := by
  rw [Core.signalSend_eq hb]
  refine .ite (fun _ => .ite (fun _ => .ite (fun _ => .error ?_) fun _ => .ok _) fun _ => .error ?_) fun _ => .ok _
  · rintro (hf | hf | hf) <;> cases hf
  · rintro (hf | hf | hf) <;> cases hf

/-- The assertions where a request is to be granted. -/
theorem semWake_avoids_iff (hb : k.core.Balanced) : Avoids Fault.OfSemSignal (semWake sem k) ↔
    ∃ req, (k.svc.reqQueue sem).head? = some req ∧ (k.svc.request req).waiter ≠ k.core.running ∧
      (k.svc.request req).signal ≠ 0 := by
  cases hh : (k.svc.reqQueue sem).head? with
  | none =>
    have heq : semWake sem k = .error .semRequest := by simp only [semWake, Seqs.listRemHead, hh]
    rw [heq]
    refine ⟨fun ha => absurd (.inl rfl) (ha _ rfl), ?_⟩
    rintro ⟨req, hreq, -⟩
    cases hreq
  | some req =>
    have heq : semWake sem k = (do
        assertThat (k.core.running ≠ (k.svc.request req).waiter) .semWaiter
        assertThat ((k.svc.request req).signal ≠ 0#16) .semSignal
        Kernel.signalSend { k with svc := { k.svc with reqQueue := (k.svc.reqQueue.listRemHead sem).2 } }
          (k.svc.request req).waiter (k.svc.request req).signal) := by
      simp only [semWake, Seqs.listRemHead, hh]
    rw [heq]
    constructor
    · intro ha
      refine ⟨req, rfl, fun hw => ?_, fun hz => ?_⟩
      · refine ha .semWaiter (bind_eq_error.mpr (.inl ?_)) (.inr (.inl rfl))
        exact assertThat_eq_error.mpr ⟨fun hne => hne hw.symm, rfl⟩
      · by_cases hw : k.core.running = (k.svc.request req).waiter
        · refine ha .semWaiter (bind_eq_error.mpr (.inl ?_)) (.inr (.inl rfl))
          exact assertThat_eq_error.mpr ⟨fun hne => hne hw, rfl⟩
        · refine ha .semSignal (bind_eq_error.mpr (.inr ⟨(), assertThat_of _ hw, ?_⟩)) (.inr (.inr rfl))
          exact bind_eq_error.mpr (.inl (assertThat_eq_error.mpr ⟨fun hne => hne hz, rfl⟩))
    · rintro ⟨req', hreq, hw, hz⟩
      obtain rfl := Option.some.inj hreq
      refine .bind (.assertThat fun hno => absurd (Ne.symm hw) hno) fun _ _ => ?_
      refine .bind (.assertThat fun hno => absurd hz hno) fun _ _ => ?_
      exact .bind (signalSend_avoids hb) fun _ _ => .pure _

/-- **When the assertions of `sem_signal` hold**, where the count does not overflow. -/
theorem semSignal_avoids_iff (hb : k.core.Balanced) (hn : -semaphoreCountMax - 1 ≤ k.svc.count sem) :
    Avoids Fault.OfSemSignal (semSignal sem k) ↔
      (k.svc.count sem + 1 < 0 → ∃ req, (k.svc.reqQueue sem).head? = some req ∧
        (k.svc.request req).waiter ≠ k.core.running ∧ (k.svc.request req).signal ≠ 0) := by
  have hcount : (k.svc.setCount sem (k.svc.count sem + 1)).count sem = k.svc.count sem + 1 :=
    Function.update_self ..
  rw [semSignal_eq hb]
  by_cases hneg : k.svc.count sem + 1 < 0
  · have hset : semSetCount sem (k.svc.count sem + 1) k =
        .ok { k with svc := k.svc.setCount sem (k.svc.count sem + 1) } := by
      refine semSetCount_eq_ok.mpr ⟨⟨by omega, ?_⟩, rfl⟩
      unfold semaphoreCountMax
      omega
    have hrel : semRelease sem { k with svc := k.svc.setCount sem (k.svc.count sem + 1) } =
        semWake sem { k with svc := k.svc.setCount sem (k.svc.count sem + 1) } := by
      refine if_pos ?_
      rw [hcount]
      exact hneg
    rw [hset, ok_bind, hrel]
    refine (semWake_avoids_iff (k := { k with svc := k.svc.setCount sem (k.svc.count sem + 1) }) hb).trans ?_
    exact ⟨fun hex _ => hex, fun himp => himp hneg⟩
  · refine ⟨fun _ hlt => absurd hlt hneg, fun _ => ?_⟩
    refine .bind (.bind (.assertThat fun _ => ?_) fun _ _ => .pure _) fun k' hk' => ?_
    · rintro (hf | hf | hf) <;> cases hf
    · obtain ⟨-, rfl⟩ := semSetCount_eq_ok.mp hk'
      refine .ite (fun hlt => ?_) fun _ => .ok _
      rw [hcount] at hlt
      exact absurd hlt hneg

end

/-- A request of `sem` is made with a signal. -/
def AsksSignals (sem : SemRef) (s : Sys) (e : SysEvent) : Prop :=
  match e.service with
  | some (.semAddRequest sem' req) => sem' = sem → (s.svc.request req).signal ≠ 0
  | _ => True

instance (sem : SemRef) (s : Sys) (e : SysEvent) : Decidable (AsksSignals sem s e) := by
  unfold AsksSignals
  split <;> infer_instance

section

variable {s s' : Sys} {e : SysEvent} {sem : SemRef} {tr : List (Move Sys SysEvent)} {m : Move Sys SysEvent} {n : ℤ}

theorem AsksSignals.signal {req : ReqRef} (h : AsksSignals sem s e) (he : e.service = some (.semAddRequest sem req)) :
    (s.svc.request req).signal ≠ 0 := by
  unfold AsksSignals at h
  rw [he] at h
  exact h rfl

/-- What `sem_signal` finds. -/
structure Signalable (sem : SemRef) (s : Sys) : Prop where
  /-- The requests queued have a signal. -/
  signal : ∀ req ∈ s.svc.reqQueue sem, (s.svc.request req).signal ≠ 0
  /-- The count is an `int`. -/
  count : -semaphoreCountMax - 1 ≤ s.svc.count sem

theorem Sys.requests_of_requested {req : ReqRef} (hr : Sys.requested sem m = some req) :
    m.event.requests = some (sem, req) := by
  obtain ⟨⟨sem', req'⟩, hp, hr⟩ := Option.bind_eq_some_iff.mp hr
  obtain ⟨hsem, hreq⟩ := Option.ite_none_right_eq_some.mp hr
  rw [hp, ← hsem, ← Option.some.inj hreq]

/-- `sem_add_request` has not overflowed the count. -/
theorem Sys.Step.requested_count_le {req : ReqRef} (hst : s.Step e s') (he : e.requests = some (sem, req)) :
    -semaphoreCountMax - 1 ≤ s.svc.count sem - 1 := by
  have hle {k : Kernel} {p : Bool × Kernel} (hk : semAddRequest sem req k = .ok p) :
      -semaphoreCountMax - 1 ≤ k.svc.count sem - 1 := by
    unfold semAddRequest at hk
    obtain ⟨k₁, h₁, -⟩ := bind_eq_ok.mp hk
    exact (semSetCount_eq_ok.mp h₁).1.1
  have hx := hst.2
  unfold SysEvent.requests at he
  split at he
  · obtain ⟨rfl, rfl⟩ := Prod.mk.inj (Option.some.inj he)
    obtain ⟨p, hk, -⟩ := bind_eq_ok.mp hx
    exact hle hk
  · obtain ⟨rfl, rfl⟩ := Prod.mk.inj (Option.some.inj he)
    obtain ⟨p, hk, -⟩ := bind_eq_ok.mp hx
    exact hle hk
  · obtain ⟨rfl, rfl⟩ := Prod.mk.inj (Option.some.inj he)
    obtain ⟨p, hk, -⟩ := bind_eq_ok.mp hx
    exact hle hk
  · cases he

/-- A step keeps what `sem_signal` finds. -/
theorem Signalable.step (hs : Signalable sem s) (h : Sound s) (hok : AsksSignals sem s e) (hst : s.Step e s')
    (hno : ∀ k, e.service ≠ some (.semInit sem k)) : Signalable sem s' := by
  have hn := hs.count
  refine ⟨fun req hreq => ?_, ?_⟩
  · rcases h.queued_cases (h.effect hst) hreq with ⟨hold, hsame⟩ | ⟨he, hsame⟩ | hj
    · rw [hsame]
      exact hs.signal req hold
    · rw [hsame]
      exact hok.signal he
    · rw [hj.request]
      exact show sigfSingle ≠ 0 by decide
  · cases h.semChange sem hst hno with
    | keeps hr hsig ht hc hq => rwa [hc]
    | takes req hr hsig ht hpos hc hq =>
      unfold semaphoreCountMax at *
      omega
    | queues req hr hsig ht hle hc hq =>
      rw [hc]
      exact hst.requested_count_le (Sys.requests_of_requested hr)
    | releases hr hsig ht hle hc hq => omega
    | grants req hr hsig ht hle hc hq hd => omega

theorem Signalable.run (hs : Signalable sem s) (h : Sound s) (hr : Run Sys.Step s tr s')
    (hno : ∀ x ∈ tr, ∀ k, x.event.service ≠ some (.semInit sem k))
    (hask : ∀ x ∈ tr, AsksSignals sem x.pre x.event) : Signalable sem s' := by
  induction hr with
  | nil => exact hs
  | @snoc tr a b e hra hst ih =>
    have hsound : Sound a := hra.invariant h fun _ _ _ ha hst => ha.step hst
    have ha := ih (fun x hx => hno x (List.mem_append_left _ hx)) fun x hx => hask x (List.mem_append_left _ hx)
    exact ha.step hsound (hask ⟨a, e, b⟩ (by simp)) hst (hno ⟨a, e, b⟩ (by simp))

/-- What holds when `sem_signal` is called, in a run after `sem_init(sem, n)`. -/
theorem Signalable.of_init {cfg : Config} {c : Core} (h : martosPre cfg = .ok c)
    (hr : Run Sys.Step (Sys.start c) tr s) {tr₁ tr₂ : List (Move Sys SysEvent)} (htr : tr = tr₁ ++ m :: tr₂)
    (hinit : m.event.service = some (.semInit sem n)) (hn : 0 ≤ n)
    (hno : ∀ x ∈ tr₂, ∀ k, x.event.service ≠ some (.semInit sem k))
    (hask : ∀ x ∈ tr₂, AsksSignals sem x.pre x.event) :
    Signalable sem s ∧ (s.svc.count sem + 1 < 0 → ∃ req, (s.svc.reqQueue sem).head? = some req) := by
  obtain ⟨hr₁, hst, hr₂⟩ := hr.split htr
  have hpre := Sound.run h hr₁
  have hbk₀ := Books.init hpre hst hinit hn
  have hq₀ := hbk₀.queue
  have hc₀ := hbk₀.count
  simp only [Sys.signalsOf, Sys.requestsOf, Sys.missed, List.countP_nil, List.filterMap_nil, List.length_nil] at hq₀ hc₀
  have hempty : m.post.svc.reqQueue sem = [] := by
    rw [← List.length_eq_zero_iff]
    omega
  have hsig : Signalable sem m.post := by
    refine ⟨fun req hreq => ?_, ?_⟩
    · rw [hempty] at hreq
      cases hreq
    · unfold semaphoreCountMax
      omega
  refine ⟨hsig.run (hpre.step hst) hr₂ hno hask, fun hneg => ?_⟩
  have hq := (hbk₀.run (hpre.step hst) hr₂ hno).queue
  cases hh : s.svc.reqQueue sem with
  | nil =>
    rw [hh, List.length_nil] at hq
    omega
  | cons req rest => exact ⟨req, rfl⟩

/-- **When the assertions of `sem_signal` hold.** After `sem_init(sem, n)`, in any run in which
requests of `sem` are made with a signal, in every state reached:

* where `sem_signal` would find the incremented count negative there is a first request, and
  its signal is not 0;
* none of the assertions of `sem_signal` fails if and only if then this request was not made
  for the running task. -/
theorem sem_signal_asserts_iff {cfg : Config} {c : Core} (h : martosPre cfg = .ok c)
    (hr : Run Sys.Step (Sys.start c) tr s) {tr₁ tr₂ : List (Move Sys SysEvent)} (htr : tr = tr₁ ++ m :: tr₂)
    (hinit : m.event.service = some (.semInit sem n)) (hn : 0 ≤ n)
    (hno : ∀ x ∈ tr₂, ∀ k, x.event.service ≠ some (.semInit sem k))
    (hask : ∀ x ∈ tr₂, AsksSignals sem x.pre x.event) :
    (s.svc.count sem + 1 < 0 → ∃ req, (s.svc.reqQueue.listRemHead sem).1 = some req ∧
      (s.svc.request req).signal ≠ 0) ∧
    (Avoids Fault.OfSemSignal (semSignal sem s.kernel) ↔ (s.svc.count sem + 1 < 0 →
      ∀ req, (s.svc.reqQueue sem).head? = some req → (s.svc.request req).waiter ≠ s.cs.core.running)) := by
  obtain ⟨hsig, hhead⟩ := Signalable.of_init h hr htr hinit hn hno hask
  have hb : s.kernel.core.Balanced := (Sound.run h hr).nested.balanced
  have hfirst {req : ReqRef} (hreq : (s.svc.reqQueue sem).head? = some req) : (s.svc.request req).signal ≠ 0 :=
    hsig.signal req (List.mem_of_mem_head? hreq)
  refine ⟨fun hneg => ?_, ?_⟩
  · obtain ⟨req, hreq⟩ := hhead hneg
    exact ⟨req, hreq, hfirst hreq⟩
  · rw [semSignal_avoids_iff hb hsig.count]
    refine imp_congr_right fun hneg => ?_
    obtain ⟨req, hreq⟩ := hhead hneg
    constructor
    · rintro ⟨req', hreq', hw, -⟩ req'' hreq''
      obtain rfl := Option.some.inj (hreq'.symm.trans hreq'')
      exact hw
    · intro hw
      exact ⟨req, hreq, hw req hreq, hfirst hreq⟩

/-- The init task makes a request, and goes on. -/
def SysEvent.requestExample : List SysEvent :=
  [.call (.write (.request 9 ⟨initTask, 2⟩)), .call (.service (.semAddRequest 7 9))]

theorem SysEvent.requestExample_quiet {e : SysEvent} (he : e ∈ SysEvent.requestExample ∨ e ∈ SysEvent.semWaitExample)
    (k : ℤ) : e.service ≠ some (.semInit 7 k) := by
  rcases he with he | he
  · revert he
    simp only [SysEvent.requestExample, List.mem_cons, List.not_mem_nil, or_false]
    rintro (rfl | rfl)
    · simp [SysEvent.service]
    · simp [SysEvent.service]
  · exact (SysEvent.semWaitExample_quiet e he).1 k

/-- The theorem at a run in which the request of task 1 is queued first and then one of the
init task, which runs. -/
theorem sem_signal_asserts_iff_waiter : ∃ c tr₁ m tr₂ s, martosPre CoreSys.exampleConfig = .ok c ∧
    Run Sys.Step (Sys.start c) (tr₁ ++ m :: tr₂) s ∧ m.event.service = some (.semInit 7 0) ∧
    s.svc.count 7 = -2 ∧ s.svc.reqQueue 7 = [3, 9] ∧ (s.svc.request 9).waiter = s.cs.core.running ∧
    Avoids Fault.OfSemSignal (semSignal 7 s.kernel) := by
  obtain ⟨c, tr₁, s₁, s₂, tr₂, s, hc, hr, htr, hp⟩ := Sys.exists_run CoreSys.exampleConfig (AsksSignals 7) []
    (.call (.service (.semInit 7 0))) (SysEvent.semWaitExample ++ SysEvent.requestExample)
    (p := fun _ _ s => decide (s.svc.count 7 = -2 ∧ s.svc.reqQueue 7 = [3, 9] ∧
      (s.svc.request 9).waiter = s.cs.core.running ∧ (s.svc.request 3).waiter ≠ s.cs.core.running))
    (by decide +kernel)
  obtain ⟨hcount, hq, hw, hne⟩ := of_decide_eq_true hp
  have hno (x : Move Sys SysEvent) (hx : x ∈ tr₂) (k : ℤ) : x.event.service ≠ some (.semInit 7 k) := by
    have hev := List.mem_map_of_mem (f := Move.event) hx
    rw [htr] at hev
    exact SysEvent.requestExample_quiet (List.mem_append.mp hev).symm k
  refine ⟨c, tr₁, _, tr₂, s, hc, hr.mono fun _ _ _ => And.right, rfl, hcount, hq, hw, ?_⟩
  refine (sem_signal_asserts_iff hc (hr.mono fun _ _ _ => And.right) rfl rfl le_rfl hno fun x hx =>
    (hr.step_of_mem (m := x) (by simp [hx])).1).2.mpr fun _ req hreq => ?_
  rw [hq] at hreq
  obtain rfl := Option.some.inj hreq
  exact hne

/-- The init task makes a request and goes on, task 1 waits, and then the init task, whose
request is the first, would release the semaphore. -/
theorem sem_signal_asserts_waiter : ¬ ∀ (cfg : Config) (c : Core) (tr₁ tr₂ : List (Move Sys SysEvent))
    (m : Move Sys SysEvent) (s : Sys) (sem : SemRef) (n : ℤ), martosPre cfg = .ok c →
    Run (Restrict (AsksSignals sem) Sys.Step) (Sys.start c) (tr₁ ++ m :: tr₂) s →
    m.event.service = some (.semInit sem n) → 0 ≤ n →
    (∀ x ∈ tr₂, ∀ k, x.event.service ≠ some (.semInit sem k)) → s.Enabled (.call (.service (.semSignal sem))) →
    Avoids Fault.OfSemSignal (semSignal sem s.kernel) := by
  intro hall
  obtain ⟨c, tr₁, s₁, s₂, tr₂, s, hc, hr, htr, hp⟩ := Sys.exists_run CoreSys.exampleConfig (AsksSignals 7) []
    (.call (.service (.semInit 7 0))) (SysEvent.requestExample ++ SysEvent.semWaitExample)
    (p := fun _ _ s => decide (s.svc.count 7 = -2 ∧ s.svc.reqQueue 7 = [9, 3] ∧
      (s.svc.request 9).waiter = s.cs.core.running ∧ s.Enabled (.call (.service (.semSignal 7)))))
    (by decide +kernel)
  obtain ⟨hcount, hq, hw, hen⟩ := of_decide_eq_true hp
  have hno (x : Move Sys SysEvent) (hx : x ∈ tr₂) (k : ℤ) : x.event.service ≠ some (.semInit 7 k) := by
    have hev := List.mem_map_of_mem (f := Move.event) hx
    rw [htr] at hev
    exact SysEvent.requestExample_quiet (List.mem_append.mp hev) k
  have hb : s.kernel.core.Balanced := (Sound.run hc (hr.mono fun _ _ _ => And.right)).nested.balanced
  have hle : -semaphoreCountMax - 1 ≤ s.kernel.svc.count 7 := by
    change _ ≤ s.svc.count 7
    rw [hcount]
    decide
  have hneg : s.kernel.svc.count 7 + 1 < 0 := by
    change s.svc.count 7 + 1 < 0
    rw [hcount]
    decide
  obtain ⟨req, hreq, hne, -⟩ := (semSignal_avoids_iff hb hle).mp
    (hall _ c tr₁ tr₂ _ s 7 0 hc hr rfl le_rfl hno hen) hneg
  rw [show s.kernel.svc.reqQueue 7 = [9, 3] from hq] at hreq
  obtain rfl := Option.some.inj hreq
  exact hne hw

end

end Martos
