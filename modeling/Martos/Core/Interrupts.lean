import Martos.Core.Effects
import Mathlib.Data.List.Infix

/-!
# Calls of `disable` and `enable`

`disable` and `enable` nest: the count starts at `-1`, every `disable` adds one and masks
interrupts, every `enable` takes one off and unmasks them when the count is negative
again. The header asks that each `enable` be preceded by a `disable` of its own, and
`enable` has an assertion for it.

The assertion is `-1 <= id_nestcnt`, tested before the count goes down, so it lets the
first unmatched `enable` through: after `n` open sections the count is `n - 1`, and with
none open it is `-1`, which passes. Sequences without such a call are the only ones on
which the assertion says what it is there to say (`enable_catches_iff`).
-/

namespace Martos

open Checked

/-- A call of one of the two functions. -/
inductive IrqCall where
  /-- `disable()`. -/
  | disable
  /-- `enable()`. -/
  | enable
  deriving DecidableEq

namespace IrqCall

/-- What the call does. -/
def exec : IrqCall → Core → Except Fault Core
  | .disable, c => .ok c.disable
  | .enable, c => c.enable

/-- Calls made one after the other. -/
def execAll (ks : List IrqCall) (c : Core) : Except Fault Core := ks.foldlM (fun c k => k.exec c) c

/-- By how many the `disable()` calls outnumber the `enable()` calls. -/
def surplus (ks : List IrqCall) : ℤ := ks.count .disable - ks.count .enable

/-- Every `enable()` has an earlier `disable()` of its own. -/
def Matched (ks : List IrqCall) : Prop := ∀ pre, pre <+: ks → 0 ≤ surplus pre

end IrqCall

open IrqCall

/-- With `n` critical sections open. -/
def Core.nestedBy (c : Core) (n : ℤ) : Core := { c with idNestcnt := n - 1, primask := decide (0 < n) }

section

variable {c : Core} {ks pre : List IrqCall} {k : IrqCall}

theorem Core.nestedBy_zero (hn : c.idNestcnt = -1) (hp : c.primask = false) : c.nestedBy 0 = c := by
  unfold Core.nestedBy
  simp [← hn, ← hp]

theorem Core.disable_nestedBy {n : ℤ} (hn : 0 ≤ n) : (c.nestedBy n).disable = c.nestedBy (n + 1) := by
  have hpos : 0 < n + 1 := by omega
  simp [Core.disable, Core.nestedBy, hpos]

/-- `enable` passes its assertion with no section open as well. -/
theorem Core.enable_nestedBy {n : ℤ} (hn : 0 ≤ n) : (c.nestedBy n).enable = .ok (c.nestedBy (n - 1)) := by
  have hmask (m : ℤ) : decide (0 < m) = decide (0 ≤ m - 1) := decide_eq_decide.mpr (by omega)
  have hb : (c.nestedBy n).Balanced := ⟨hmask n, show -1 ≤ n - 1 by omega⟩
  rw [Core.enable_eq_opened hb]
  simp only [Core.opened, Core.nestedBy, hmask]

namespace IrqCall

@[simp] theorem surplus_nil : surplus [] = 0 := rfl

@[simp] theorem surplus_snoc_disable : surplus (ks ++ [.disable]) = surplus ks + 1 := by
  simp [surplus, List.count_append]
  omega

@[simp] theorem surplus_snoc_enable : surplus (ks ++ [.enable]) = surplus ks - 1 := by
  simp [surplus, List.count_append]
  omega

theorem Matched.surplus_nonneg (h : Matched ks) : 0 ≤ surplus ks := h ks (List.prefix_refl ks)

theorem Matched.of_prefix (h : Matched ks) (hp : pre <+: ks) : Matched pre :=
  fun _ hq => h _ (hq.trans hp)

theorem matched_snoc_iff : Matched (ks ++ [k]) ↔ Matched ks ∧ 0 ≤ surplus (ks ++ [k]) := by
  constructor
  · intro h
    exact ⟨h.of_prefix (List.prefix_append ks [k]), h.surplus_nonneg⟩
  · intro ⟨h, hs⟩ pre hp
    rcases List.prefix_concat_iff.mp hp with rfl | hp
    · exact hs
    · exact h pre hp

theorem execAll_snoc : execAll (ks ++ [k]) c = execAll ks c >>= k.exec := by
  simp [execAll, List.foldlM_append]

/-- As long as the calls are matched, none fails, and the count says how many sections are
open. -/
theorem Matched.execAll_eq (h : Matched ks) : execAll ks (c.nestedBy 0) = .ok (c.nestedBy (surplus ks)) := by
  induction ks using List.reverseRecOn with
  | nil => rfl
  | append_singleton ks k ih =>
    obtain ⟨hks, hs⟩ := matched_snoc_iff.mp h
    have hn := hks.surplus_nonneg
    rw [execAll_snoc, ih hks, ok_bind]
    cases k with
    | disable =>
      rw [surplus_snoc_disable]
      exact congrArg Except.ok (Core.disable_nestedBy hn)
    | enable =>
      rw [surplus_snoc_enable]
      exact Core.enable_nestedBy hn

/-- Calls that are not matched have a first `enable()` without a `disable()`. -/
theorem exists_unmatched (h : ¬ Matched ks) :
    ∃ pre post, ks = pre ++ .enable :: post ∧ Matched pre ∧ ¬ Matched (pre ++ [.enable]) := by
  induction ks using List.reverseRecOn with
  | nil =>
    refine absurd (fun pre hp => ?_) h
    rw [List.prefix_nil.mp hp, surplus_nil]
  | append_singleton ks k ih =>
    by_cases hks : Matched ks
    · cases k with
      | disable =>
        have hn := hks.surplus_nonneg
        exact absurd (matched_snoc_iff.mpr ⟨hks, by rw [surplus_snoc_disable]; omega⟩) h
      | enable => exact ⟨ks, [], rfl, hks, h⟩
    · obtain ⟨pre, post, rfl, hpre, hno⟩ := ih hks
      exact ⟨pre, post ++ [k], by simp, hpre, hno⟩

/-- The assertion of `enable` catches unmatched calls: made from `c`, the calls reach the
first `enable()` without a `disable()` and fail there, and if they are all accepted then
interrupts are masked after each prefix exactly when more sections have been opened than
closed in it. -/
structure Caught (c : Core) (ks : List IrqCall) : Prop where
  /-- The first unmatched `enable()` fails. -/
  fails : ∀ pre post, ks = pre ++ .enable :: post → Matched pre → ¬ Matched (pre ++ [.enable]) →
    ∃ d, execAll pre c = .ok d ∧ d.enable = .error .enable
  /-- PRIMASK follows the open sections. -/
  masked : ∀ d, execAll ks c = .ok d → ∀ pre d', pre <+: ks → execAll pre c = .ok d' →
    (d'.primask = true ↔ pre.count .enable < pre.count .disable)

end IrqCall

/-- **The assertion catches unmatched calls exactly where there are none**: in every
sequence with an `enable()` that has no `disable()` of its own, the first such call
passes. -/
theorem enable_catches_iff (hn : c.idNestcnt = -1) (hp : c.primask = false) (ks : List IrqCall) :
    Caught c ks ↔ Matched ks := by
  have hrun {pre} (hm : Matched pre) : execAll pre c = .ok (c.nestedBy (surplus pre)) := by
    have h := hm.execAll_eq (c := c)
    rwa [Core.nestedBy_zero hn hp] at h
  constructor
  · intro h
    by_contra hno
    obtain ⟨pre, post, hks, hpre, hun⟩ := exists_unmatched hno
    obtain ⟨d, hd, hfail⟩ := h.fails pre post hks hpre hun
    obtain rfl := Except.ok.inj ((hrun hpre).symm.trans hd)
    -- with no section open the count is `-1`, which passes
    rw [Core.enable_nestedBy hpre.surplus_nonneg] at hfail
    cases hfail
  · intro h
    constructor
    · intro pre post hks _ hun
      refine absurd (h.of_prefix ?_) hun
      rw [hks]
      exact ⟨post, by simp⟩
    · intro d _ pre d' hpre hd'
      obtain rfl := Except.ok.inj ((hrun (h.of_prefix hpre)).symm.trans hd')
      rw [Core.nestedBy, decide_eq_true_iff, surplus]
      omega

/-- The sequence `disable(); disable(); enable(); enable();` of a nested section. -/
theorem enable_catches_iff_nested : ∃ c : Core, c.idNestcnt = -1 ∧ c.primask = false ∧
    (Caught c [.disable, .disable, .enable, .enable] ↔ Matched [.disable, .disable, .enable, .enable]) :=
  ⟨{ resetCore CoreSys.exampleConfig with idNestcnt := -1 }, rfl, rfl, enable_catches_iff rfl rfl _⟩

/-- An `enable()` before any `disable()` is accepted. -/
theorem enable_passes_unmatched : ¬ ∀ (c : Core) (ks : List IrqCall), c.idNestcnt = -1 → c.primask = false →
    Caught c ks := by
  intro h
  let c : Core := { resetCore CoreSys.exampleConfig with idNestcnt := -1 }
  obtain ⟨d, hd, hfail⟩ := (h c [.enable] rfl rfl).fails [] [] rfl
    (fun pre hp => by rw [List.prefix_nil.mp hp, surplus_nil])
    (fun hm => absurd hm.surplus_nonneg (by decide))
  obtain rfl := Except.ok.inj hd
  cases hfail

/-- After `enable(); disable();` no section is open, but interrupts are masked. -/
example : (execAll [.enable, .disable] { resetCore CoreSys.exampleConfig with idNestcnt := -1 }).toOption.map
    Core.primask = some true := by decide

end

end Martos
