import Martos.Core.Nesting

/-!
# Allocating a signal

`signal_allocate` settles on a bit and leaves its mask in `target`; the later half then
marks the bit as allocated and makes sure that it is not pending. That half is guarded by
`0 < target`, to save the critical section when no signal was allocated. But `target` is
a single bit on every path: when the bit asked for is taken it is that bit, and when all
are taken it is the last one tried, bit 0. So a call that returns `-1` clears this bit in
`sig_wait` and `sig_recvd` of a task to which it belongs.

`chooseSignal_cases` says what the first half can settle on, and `signal_allocate_exact`
when the whole call does no more than it should.
-/

namespace Martos

open Checked Transition

section

variable {i j : ℕ} {alloc : Signals} {signal : ℤ}

/-! ### Single bits -/

/-- The bits of a mask with one bit. -/
theorem getLsbD_mask (hi : i < signalsWidth) : (1#16 <<< i).getLsbD j = decide (j = i) := by
  have hi : i < 16 := hi
  rw [← BitVec.twoPow_eq, BitVec.getLsbD_twoPow]
  by_cases hj : j = i
  · simp [hj, hi]
  · simp [hj, Ne.symm hj]

theorem mask_and_ne_zero (hi : i < signalsWidth) (x : Signals) :
    (1#16 <<< i) &&& x ≠ 0 ↔ x.getLsbD i = true := by
  constructor
  · intro hne
    by_contra hf
    rw [Bool.not_eq_true] at hf
    refine hne (BitVec.eq_of_getLsbD_eq fun j _ => ?_)
    rw [BitVec.getLsbD_and, getLsbD_mask hi]
    by_cases hj : j = i
    · simp [hj, hf]
    · simp [hj]
  · intro hx hz
    have hbit : ((1#16 <<< i) &&& x).getLsbD i = true := by simp [BitVec.getLsbD_and, getLsbD_mask hi, hx]
    simp [hz] at hbit

/-! ### The choice of a bit -/

/-- The search finds a free bit, or all bits from `n` down are taken. -/
theorem searchSignal_cases (alloc : Signals) {n : ℕ} (hn : n < signalsWidth) :
    (∃ i : ℕ, i < signalsWidth ∧ searchSignal alloc n = ((i : ℤ), 1#16 <<< i) ∧ alloc.getLsbD i = false) ∨
    (searchSignal alloc n = (-1, 1#16 <<< 0) ∧ ∀ i ≤ n, alloc.getLsbD i = true) := by
  induction n with
  | zero =>
    by_cases hb : (1#16 <<< 0) &&& alloc ≠ 0
    · refine .inr ⟨if_pos hb, fun i hi => ?_⟩
      obtain rfl := Nat.le_zero.mp hi
      exact (mask_and_ne_zero hn alloc).mp hb
    · exact .inl ⟨0, hn, if_neg hb, by simpa using mt (mask_and_ne_zero hn alloc).mpr hb⟩
  | succ n ih =>
    by_cases hb : (1#16 <<< (n + 1)) &&& alloc ≠ 0
    · rw [searchSignal, if_pos hb]
      rcases ih (Nat.lt_of_succ_lt hn) with hfound | ⟨heq, hall⟩
      · exact .inl hfound
      · refine .inr ⟨heq, fun i hi => ?_⟩
        rcases Nat.le_succ_iff.mp hi with hi | rfl
        · exact hall i hi
        · exact (mask_and_ne_zero hn alloc).mp hb
    · exact .inl ⟨n + 1, hn, if_neg hb, by simpa using mt (mask_and_ne_zero hn alloc).mpr hb⟩

/-- The request cannot be met: the bit asked for is taken, or all bits are. -/
def Refused (alloc : Signals) (signal : ℤ) : Prop :=
  if signal = -1 then ∀ i < signalsWidth, alloc.getLsbD i = true else alloc.getLsbD signal.toNat = true

instance : Decidable (Refused alloc signal) := by unfold Refused; infer_instance

/-- The first half of `signal_allocate` settles on a free bit, the one asked for if there is
one, or fails. When it fails `target` is the mask of a bit all the same. -/
theorem chooseSignal_cases (alloc : Signals) (h₁ : -1 ≤ signal) (h₂ : signal < signalsWidth) :
    (∃ i : ℕ, i < signalsWidth ∧ chooseSignal alloc signal = ((i : ℤ), 1#16 <<< i) ∧
      alloc.getLsbD i = false ∧ (signal ≠ -1 → signal = i) ∧ ¬ Refused alloc signal) ∨
    (chooseSignal alloc signal = (-1, 1#16 <<< signal.toNat) ∧ Refused alloc signal) := by
  by_cases hs : signal = -1
  · subst hs
    rcases searchSignal_cases alloc (n := signalsWidth - 1) (by decide) with ⟨i, hi, heq, hfree⟩ | ⟨heq, hall⟩
    · refine .inl ⟨i, hi, heq, hfree, fun h => absurd rfl h, fun hr => ?_⟩
      simp only [Refused, if_true] at hr
      simp [hr i hi] at hfree
    · refine .inr ⟨heq, ?_⟩
      simp only [Refused, if_true]
      exact fun i hi => hall i (Nat.le_sub_one_of_lt hi)
  · obtain ⟨n, rfl⟩ := Int.eq_ofNat_of_zero_le (show 0 ≤ signal by omega)
    have hn : n < signalsWidth := by exact_mod_cast h₂
    by_cases hb : (1#16 <<< n) &&& alloc ≠ 0
    · refine .inr ⟨?_, ?_⟩
      · simp only [chooseSignal, if_pos hs, Int.toNat_natCast, if_pos hb]
      · rw [Refused, if_neg hs]
        exact (mask_and_ne_zero hn alloc).mp hb
    · have hfree : alloc.getLsbD n = false := by simpa using mt (mask_and_ne_zero hn alloc).mpr hb
      refine .inl ⟨n, hn, ?_, hfree, fun _ => rfl, ?_⟩
      · simp only [chooseSignal, if_pos hs, Int.toNat_natCast, if_neg hb]
      · simp [Refused, hs, hfree]

end

/-! ### The whole call -/

/-- `signal_allocate(signal)` has returned `b`, and the caller's structure has become `k'`: a
failed call has changed nothing, a successful one nothing but the bit it hands out. -/
structure AllocatesOnly (signal b : ℤ) (k k' : Task) : Prop where
  /-- The result is a bit or `-1`. -/
  range : b = -1 ∨ (0 ≤ b ∧ b < signalsWidth)
  /-- It is `-1` when the bit asked for, or any bit, is taken. -/
  refused : b = -1 ↔ Refused k.sigAlloc signal
  /-- A failed call changes nothing. -/
  kept : b = -1 → k'.sigAlloc = k.sigAlloc ∧ k'.sigWait = k.sigWait ∧ k'.sigRecvd = k.sigRecvd
  /-- The bit handed out was free, and is the one asked for. -/
  free : b ≠ -1 → k.sigAlloc.getLsbD b.toNat = false ∧ (signal ≠ -1 → b = signal)
  /-- It is now allocated, and not pending. -/
  handed : b ≠ -1 → ∀ j : ℕ,
    k'.sigAlloc.getLsbD j = (k.sigAlloc.getLsbD j || decide (j = b.toNat)) ∧
    k'.sigWait.getLsbD j = (k.sigWait.getLsbD j && decide (j ≠ b.toNat)) ∧
    k'.sigRecvd.getLsbD j = (k.sigRecvd.getLsbD j && decide (j ≠ b.toNat))

/-- If the request cannot be met, the task neither waits for the bit that is left in `target`
nor has it pending. -/
def RefusedQuietly (signal : ℤ) (k : Task) : Prop :=
  Refused k.sigAlloc signal →
    k.sigWait.getLsbD signal.toNat = false ∧ k.sigRecvd.getLsbD signal.toNat = false

/-- A bit is cleared: nothing else changes, and nothing at all if it was not set. -/
theorem getLsbD_and_not_mask {i j : ℕ} (hi : i < signalsWidth) (x : Signals) :
    (x &&& ~~~(1#16 <<< i)).getLsbD j = (x.getLsbD j && decide (j ≠ i)) := by
  rw [BitVec.getLsbD_and, BitVec.getLsbD_not, getLsbD_mask hi]
  by_cases hj : j < 16
  · simp [hj]
  · simp [BitVec.getLsbD_of_ge x j (by omega)]

theorem and_not_mask_eq_self {i : ℕ} (hi : i < signalsWidth) (x : Signals) :
    x &&& ~~~(1#16 <<< i) = x ↔ x.getLsbD i = false := by
  constructor
  · intro heq
    have hbit := getLsbD_and_not_mask (j := i) hi x
    simpa [heq] using hbit
  · intro hx
    refine BitVec.eq_of_getLsbD_eq fun j _ => ?_
    rw [getLsbD_and_not_mask hi]
    by_cases hj : j = i
    · simp [hj, hx]
    · simp [hj]

theorem or_mask_eq_self {i : ℕ} (hi : i < signalsWidth) {x : Signals} (hx : x.getLsbD i = true) :
    x ||| 1#16 <<< i = x := by
  refine BitVec.eq_of_getLsbD_eq fun j _ => ?_
  rw [BitVec.getLsbD_or, getLsbD_mask hi]
  by_cases hj : j = i
  · simp [hj, hx]
  · simp [hj]

/-- The bit that a refused request leaves in `target` is allocated. -/
theorem Refused.getLsbD {alloc : Signals} {signal : ℤ} (h : Refused alloc signal) :
    alloc.getLsbD signal.toNat = true := by
  by_cases hs : signal = -1
  · subst hs
    exact h 0 (by decide)
  · rwa [Refused, if_neg hs] at h

/-- `signal_allocate` hands out a free bit, or returns `-1` and clears a bit that it does not
hand out. -/
theorem Core.Balanced.signalAllocate_cases {c : Core} (hb : c.Balanced) {signal : ℤ} (h₁ : -1 ≤ signal)
    (h₂ : signal < signalsWidth) :
    (∃ i : ℕ, i < signalsWidth ∧ signalAllocate signal c = .ok ((i : ℤ), c.allocated (1#16 <<< i)) ∧
      (c.task c.running).sigAlloc.getLsbD i = false ∧ (signal ≠ -1 → signal = i) ∧
      ¬ Refused (c.task c.running).sigAlloc signal) ∨
    (signalAllocate signal c = .ok (-1, c.allocated (1#16 <<< signal.toNat)) ∧
      Refused (c.task c.running).sigAlloc signal) := by
  have hcall := Core.signalAllocate_eq hb signal
  rw [assertThat_of _ ⟨h₁, h₂⟩, ok_bind] at hcall
  rcases chooseSignal_cases (c.task c.running).sigAlloc h₁ h₂ with
    ⟨i, hi, heq, hfree, hasked, hnot⟩ | ⟨heq, hrefused⟩
  · rw [heq] at hcall
    exact .inl ⟨i, hi, hcall, hfree, hasked, hnot⟩
  · rw [heq] at hcall
    exact .inr ⟨hcall, hrefused⟩

@[simp] theorem Core.allocated_self {c : Core} {target : Signals} : (c.allocated target).task c.running =
    { c.task c.running with
      sigAlloc := (c.task c.running).sigAlloc ||| target
      sigWait := (c.task c.running).sigWait &&& ~~~target
      sigRecvd := (c.task c.running).sigRecvd &&& ~~~target } :=
  Core.modTask_self

@[simp] theorem Core.freed_self {c : Core} {sg : Signals} : (c.freed sg).task c.running =
    { c.task c.running with sigAlloc := (c.task c.running).sigAlloc &&& ~~~sg } :=
  Core.modTask_self

/-- A refused request changes nothing exactly if the bit in `target` was neither waited for nor
pending. -/
theorem AllocatesOnly.refused_iff {signal : ℤ} {k : Task} (hi : signal.toNat < signalsWidth)
    (hr : Refused k.sigAlloc signal) :
    AllocatesOnly signal (-1) k
      { k with sigAlloc := k.sigAlloc ||| 1#16 <<< signal.toNat
               sigWait := k.sigWait &&& ~~~(1#16 <<< signal.toNat)
               sigRecvd := k.sigRecvd &&& ~~~(1#16 <<< signal.toNat) } ↔
      k.sigWait.getLsbD signal.toNat = false ∧ k.sigRecvd.getLsbD signal.toNat = false := by
  refine ⟨fun h => ?_, fun ⟨hwait, hrecvd⟩ => ?_⟩
  · obtain ⟨-, hwait, hrecvd⟩ := h.kept rfl
    exact ⟨(and_not_mask_eq_self hi _).mp hwait, (and_not_mask_eq_self hi _).mp hrecvd⟩
  · exact {
      range := .inl rfl
      refused := ⟨fun _ => hr, fun _ => rfl⟩
      kept := fun _ => ⟨or_mask_eq_self hi hr.getLsbD, (and_not_mask_eq_self hi _).mpr hwait,
        (and_not_mask_eq_self hi _).mpr hrecvd⟩
      free := fun hne => absurd rfl hne
      handed := fun hne => absurd rfl hne }

/-- **When `signal_allocate` does what it should.** For every state of the calling task and
every argument the call returns; it changes nothing when it fails, and exactly the bit it
hands out when it succeeds, if and only if the bit a refused request leaves in `target` was
neither waited for nor pending. -/
theorem signal_allocate_exact {c : Core} (hb : c.Balanced) {signal : ℤ} (h₁ : -1 ≤ signal)
    (h₂ : signal < signalsWidth) : ∃ b c', signalAllocate signal c = .ok (b, c') ∧
      c'.running = c.running ∧
      (AllocatesOnly signal b (c.task c.running) (c'.task c.running) ↔
        RefusedQuietly signal (c.task c.running)) := by
  rcases hb.signalAllocate_cases h₁ h₂ with ⟨i, hi, hcall, hfree, hasked, hnot⟩ | ⟨hcall, hrefused⟩
  · -- a bit is handed out
    have hne : (i : ℤ) ≠ -1 := by omega
    refine ⟨_, _, hcall, rfl, fun _ hr => absurd hr hnot, fun _ => ?_⟩
    rw [Core.allocated_self]
    exact {
      range := .inr ⟨Int.natCast_nonneg i, Int.ofNat_lt.mpr hi⟩
      refused := ⟨fun h => absurd h hne, fun h => absurd h hnot⟩
      kept := fun h => absurd h hne
      free := fun _ => ⟨hfree, fun hs => (hasked hs).symm⟩
      handed := fun _ j => ⟨by rw [BitVec.getLsbD_or, getLsbD_mask hi]; rfl,
        getLsbD_and_not_mask hi _, getLsbD_and_not_mask hi _⟩ }
  · -- the request is refused
    have hi : signal.toNat < signalsWidth := by
      have hw : signalsWidth = 16 := rfl
      omega
    refine ⟨_, _, hcall, rfl, ?_⟩
    rw [Core.allocated_self, AllocatesOnly.refused_iff hi hrefused]
    exact ⟨fun h _ => h, fun h => h hrefused⟩

/-- The theorem at a task that has allocated all bits, with bit 1 pending: it is refused one
more, and keeps what it has. -/
theorem signal_allocate_exact_refused : ∃ c tr s, martosPre CoreSys.exampleConfig = .ok c ∧
    Run CoreSys.Step (CoreSys.start c) tr s ∧ (s.core.task s.core.running).sigRecvd = 2 ∧
    ∃ c', signalAllocate (-1) s.core = .ok (-1, c') ∧
      AllocatesOnly (-1) (-1) (s.core.task s.core.running) (c'.task s.core.running) := by
  obtain ⟨c, tr, s, hc, hr, hp⟩ := CoreSys.exists_run_of_replayed CoreSys.exampleConfig (fun _ _ => True)
    (List.replicate 15 (.call (.signalAllocate (-1))) ++ [.isrSignalSend initTask 2])
    (p := fun s => decide (Refused (s.core.task s.core.running).sigAlloc (-1) ∧
      (s.core.task s.core.running).sigWait.getLsbD 0 = false ∧ (s.core.task s.core.running).sigRecvd = 2))
    (by decide +kernel)
  obtain ⟨hrefused, hwait, hrecvd⟩ := of_decide_eq_true hp
  have hr : Run CoreSys.Step (CoreSys.start c) tr s := hr.mono fun _ _ _ h => h.2
  have hquiet : RefusedQuietly (-1) (s.core.task s.core.running) := fun _ => ⟨hwait, by rw [hrecvd]; decide⟩
  obtain ⟨b, c', hcall, hrun, hiff⟩ := signal_allocate_exact (Nested.run hc hr).balanced
    (show (-1 : ℤ) ≤ -1 by decide) (by decide)
  have honly := hiff.mpr hquiet
  obtain rfl := honly.refused.mpr hrefused
  exact ⟨c, tr, s, hc, hr, hrecvd, c', hcall, hrun ▸ honly⟩

/-- A task that has allocated all bits, and has a grant of a semaphore pending, loses it when
it asks for one more. -/
theorem signal_allocate_drops_grant : ¬ ∀ (cfg : Config) (c : Core) (tr : List (Move CoreSys Event)) (s : CoreSys),
    martosPre cfg = .ok c → Run CoreSys.Step (CoreSys.start c) tr s →
    ∀ (signal b : ℤ) (c' : Core), -1 ≤ signal → signal < signalsWidth →
      signalAllocate signal s.core = .ok (b, c') →
      AllocatesOnly signal b (s.core.task s.core.running) (c'.task s.core.running) := by
  intro hall
  obtain ⟨c, tr, s, hc, hr, hp⟩ := CoreSys.exists_run_of_replayed CoreSys.exampleConfig (fun _ _ => True)
    (List.replicate 15 (.call (.signalAllocate (-1))) ++ [.isrSignalSend initTask sigfSingle])
    (p := fun s => decide (Refused (s.core.task s.core.running).sigAlloc (-1) ∧
      (s.core.task s.core.running).sigRecvd.getLsbD 0 = true)) (by decide +kernel)
  obtain ⟨hrefused, hpending⟩ := of_decide_eq_true hp
  have hr : Run CoreSys.Step (CoreSys.start c) tr s := hr.mono fun _ _ _ h => h.2
  rcases (Nested.run hc hr).balanced.signalAllocate_cases (show (-1 : ℤ) ≤ -1 by decide) (by decide) with
    ⟨_, _, _, _, _, hnot⟩ | ⟨hcall, -⟩
  · exact hnot hrefused
  · have hkept := hall _ c tr s hc hr (-1) _ _ (by decide) (by decide) hcall
    rw [Core.allocated_self] at hkept
    have hquiet := (AllocatesOnly.refused_iff (by decide) hrefused).mp hkept
    exact absurd (hpending.symm.trans hquiet.2) (by decide)

end Martos
