import Martos.Lib.Transition
import Mathlib.Data.List.Sort

/-!
# Queues by level

A scheduler with levels keeps a first-in-first-out queue for each level: who arrives goes
to the end of the queue of its level, and the one selected is the first of the highest
level that has any (`Step`). A single list that does not ascend is such a family of queues,
one behind the other; who arrives is inserted behind all that are not lower, and the head
is selected (`Moves`).

* `Moves.levels` — the list does what the queues do.
* `Falling.eq_of_levels` — and the queues determine the list.
* `Moves.before` — the account of one who waits: each selection takes one of those before
  it, and each arrival from a higher level adds one.
-/

namespace Levels

open Transition

/-- What can happen. -/
inductive Op (α β : Type*) where
  /-- `a` arrives at level `p`. -/
  | arrive (a : α) (p : β)
  /-- `a` is selected. -/
  | select (a : α)

variable {α β : Type*}

/-- Somebody is selected. -/
def Op.isSelect : Op α β → Bool
  | .select _ => true
  | .arrive _ _ => false

section

variable [LinearOrder β]

/-- Somebody arrives at a level above `p`. -/
def Op.isAbove (p : β) : Op α β → Bool
  | .arrive _ q => decide (p < q)
  | .select _ => false

/-- The queues of all levels, and what happens to them. -/
inductive Step : (β → List α) → Op α β → (β → List α) → Prop where
  /-- Who arrives goes to the end of its level. -/
  | arrive {q : β → List α} (a : α) (p : β) : Step q (.arrive a p) (Function.update q p (q p ++ [a]))
  /-- The first of the highest level is selected. -/
  | select {q : β → List α} {a : α} {p : β} {rest : List α} (hp : q p = a :: rest) (hq : ∀ r > p, q r = []) :
      Step q (.select a) (Function.update q p rest)

variable (prio : α → β)

/-- Those of a list at level `p`. -/
def level (xs : List α) (p : β) : List α := xs.filter fun a => decide (prio a = p)

/-- The list does not ascend. -/
def Falling (xs : List α) : Prop := xs.Pairwise fun a b => prio b ≤ prio a

/-- The list takes in `n`, behind all that are not lower. -/
def enter (n : α) (xs : List α) : List α := xs.orderedInsert (fun a b => prio b < prio a) n

/-- What happens to a list that is kept in order. -/
inductive Moves : List α → List (Op α β) → List α → Prop where
  /-- Nothing. -/
  | nil {xs : List α} : Moves xs [] xs
  /-- Somebody who is not on the list arrives. -/
  | arrive {xs ys : List α} {ops : List (Op α β)} {n : α} (hn : n ∉ xs) (h : Moves (enter prio n xs) ops ys) :
      Moves xs (.arrive n (prio n) :: ops) ys
  /-- The head is selected. -/
  | select {xs ys : List α} {ops : List (Op α β)} {a : α} (h : Moves xs ops ys) : Moves (a :: xs) (.select a :: ops) ys

variable {prio} {xs ys : List α} {ops : List (Op α β)} {a n t : α} {p : β}

/-! ### The list and its levels -/

theorem mem_enter : a ∈ enter prio n xs ↔ a = n ∨ a ∈ xs := List.mem_orderedInsert ..

theorem Falling.tail (h : Falling prio (a :: xs)) : Falling prio xs := (List.pairwise_cons.mp h).2

/-- A list in order stays so. -/
theorem Falling.enter (h : Falling prio xs) (n : α) : Falling prio (enter prio n xs) := by
  induction xs with
  | nil => exact List.pairwise_singleton ..
  | cons a xs ih =>
    obtain ⟨ha, hx⟩ := List.pairwise_cons.mp h
    unfold Levels.enter
    by_cases hlt : prio a < prio n
    · rw [List.orderedInsert, if_pos hlt]
      refine List.pairwise_cons.mpr ⟨fun b hb => ?_, h⟩
      rcases List.mem_cons.mp hb with rfl | hb
      · exact hlt.le
      · exact (ha b hb).trans hlt.le
    · rw [List.orderedInsert, if_neg hlt]
      refine List.pairwise_cons.mpr ⟨fun b hb => ?_, ih hx⟩
      rcases mem_enter.mp hb with rfl | hb
      · exact not_lt.mp hlt
      · exact ha b hb

/-- Who arrives goes to the end of its level, and the other levels stay as they are. -/
theorem Falling.level_enter (h : Falling prio xs) (n : α) (p : β) :
    level prio (Levels.enter prio n xs) p = level prio xs p ++ if prio n = p then [n] else [] := by
  induction xs with
  | nil =>
    by_cases hp : prio n = p
    · simp [level, Levels.enter, hp]
    · simp [level, Levels.enter, hp]
  | cons a xs ih =>
    obtain ⟨ha, hx⟩ := List.pairwise_cons.mp h
    unfold Levels.enter
    by_cases hlt : prio a < prio n
    · rw [List.orderedInsert, if_pos hlt]
      by_cases hp : prio n = p
      · -- nobody on the list is at this level
        have hnone : level prio (a :: xs) p = [] := by
          refine List.filter_eq_nil_iff.mpr fun b hb => ?_
          have hb' : prio b < prio n := by
            rcases List.mem_cons.mp hb with rfl | hb
            · exact hlt
            · exact (ha b hb).trans_lt hlt
          simpa [← hp] using hb'.ne
        rw [hnone, if_pos hp, List.nil_append, level, List.filter_cons_of_pos (by simpa using hp)]
        exact congrArg _ hnone
      · rw [if_neg hp, List.append_nil, level, List.filter_cons_of_neg (by simpa using hp)]
        rfl
    · rw [List.orderedInsert, if_neg hlt]
      have ih := ih hx
      by_cases hp : prio a = p
      · rw [level, level, List.filter_cons_of_pos (by simpa using hp), List.filter_cons_of_pos (by simpa using hp),
          List.cons_append]
        exact congrArg _ ih
      · rw [level, level, List.filter_cons_of_neg (by simpa using hp), List.filter_cons_of_neg (by simpa using hp)]
        exact ih

/-- Above the head there is nobody. -/
theorem Falling.level_above (h : Falling prio (a :: xs)) (hp : prio a < p) : level prio (a :: xs) p = [] := by
  refine List.filter_eq_nil_iff.mpr fun b hb => ?_
  have hb' : prio b ≤ prio a := by
    rcases List.mem_cons.mp hb with rfl | hb
    · exact le_rfl
    · exact (List.pairwise_cons.mp h).1 b hb
  simpa using (hb'.trans_lt hp).ne

theorem level_cons_self : level prio (a :: xs) (prio a) = a :: level prio xs (prio a) :=
  List.filter_cons_of_pos (by simp)

theorem level_cons_of_ne (hp : p ≠ prio a) : level prio (a :: xs) p = level prio xs p :=
  List.filter_cons_of_neg (by simpa using Ne.symm hp)

/-- **The queues determine the list.** -/
theorem Falling.eq_of_levels (hx : Falling prio xs) (hy : Falling prio ys) (h : level prio xs = level prio ys) :
    xs = ys := by
  induction xs generalizing ys with
  | nil =>
    cases ys with
    | nil => rfl
    | cons b ys =>
      have hb := congrFun h (prio b)
      rw [level_cons_self] at hb
      cases hb
  | cons a xs ih =>
    cases ys with
    | nil =>
      have ha := congrFun h (prio a)
      rw [level_cons_self] at ha
      cases ha
    | cons b ys =>
      -- the heads are at the same level, the highest with anybody
      have hab : prio a = prio b := by
        rcases lt_trichotomy (prio a) (prio b) with hlt | heq | hlt
        · have hb := congrFun h (prio b)
          rw [hx.level_above hlt, level_cons_self] at hb
          cases hb
        · exact heq
        · have ha := congrFun h (prio a)
          rw [hy.level_above hlt, level_cons_self] at ha
          cases ha
      have hself := congrFun h (prio a)
      rw [level_cons_self, hab, level_cons_self, ← hab] at hself
      obtain ⟨rfl, hrest⟩ := List.cons.inj hself
      refine congrArg _ (ih hx.tail hy.tail (funext fun p => ?_))
      by_cases hp : p = prio a
      · rw [hp]
        exact hrest
      · have hq := congrFun h p
        rwa [level_cons_of_ne hp, level_cons_of_ne hp] at hq

/-- **The list does what the queues do.** -/
theorem Moves.levels (h : Moves prio xs ops ys) (hx : Falling prio xs) :
    ∃ tr, Run Step (level prio xs) tr (level prio ys) ∧ tr.map Move.event = ops := by
  induction h with
  | nil => exact ⟨[], .nil, rfl⟩
  | @arrive xs ys ops n hn h ih =>
    obtain ⟨tr, hr, htr⟩ := ih (hx.enter n)
    have hlev : level prio (enter prio n xs) =
        Function.update (level prio xs) (prio n) (level prio xs (prio n) ++ [n]) := by
      funext p
      rw [hx.level_enter]
      by_cases hp : prio n = p
      · rw [if_pos hp, ← hp, Function.update_self]
      · rw [if_neg hp, List.append_nil, Function.update_of_ne (Ne.symm hp)]
    have hst : Step (level prio xs) (.arrive n (prio n)) (level prio (enter prio n xs)) := by
      rw [hlev]
      exact .arrive n (prio n)
    exact ⟨_, (Run.one hst).append hr, by simp [htr]⟩
  | @select xs ys ops a h ih =>
    obtain ⟨tr, hr, htr⟩ := ih hx.tail
    have hlev : level prio xs = Function.update (level prio (a :: xs)) (prio a) (level prio xs (prio a)) := by
      funext p
      by_cases hp : p = prio a
      · rw [hp, Function.update_self]
      · rw [Function.update_of_ne hp, level_cons_of_ne hp]
    have hst : Step (level prio (a :: xs)) (.select a) (level prio xs) := by
      rw [hlev]
      exact .select level_cons_self fun r hrp => hx.level_above hrp
    exact ⟨_, (Run.one hst).append hr, by simp [htr]⟩

/-! ### Waiting -/

variable [DecidableEq α]

/-- How many are before `t`. -/
def before (t : α) (xs : List α) : ℕ := xs.idxOf t

/-- Who arrives goes before those of lower levels only. -/
theorem Falling.before_enter (h : Falling prio xs) (ht : t ∈ xs) (hn : n ∉ xs) :
    before t (Levels.enter prio n xs) = before t xs + if prio t < prio n then 1 else 0 := by
  have hnt : n ≠ t := fun he => hn (he ▸ ht)
  unfold before Levels.enter
  induction xs with
  | nil => cases ht
  | cons a xs ih =>
    obtain ⟨ha, hx⟩ := List.pairwise_cons.mp h
    by_cases hat : a = t
    · subst hat
      by_cases hlt : prio a < prio n
      · rw [List.orderedInsert, if_pos hlt, if_pos hlt, List.idxOf_cons_ne _ hnt]
      · rw [List.orderedInsert, if_neg hlt, if_neg hlt, List.idxOf_cons_self, List.idxOf_cons_self]
    · have ht' : t ∈ xs := (List.mem_cons.mp ht).resolve_left (Ne.symm hat)
      by_cases hlt : prio a < prio n
      · rw [List.orderedInsert, if_pos hlt, if_pos ((ha t ht').trans_lt hlt), List.idxOf_cons_ne _ hnt]
      · rw [List.orderedInsert, if_neg hlt, List.idxOf_cons_ne _ hat, List.idxOf_cons_ne _ hat,
          ih hx ht' (fun hm => hn (List.mem_cons_of_mem _ hm))]
        omega

/-- **The account of one who waits**: as long as it is not selected it stays on the list; each
selection takes one of those before it, and each arrival from above adds one. -/
theorem Moves.before (h : Moves prio xs ops ys) (hx : Falling prio xs) (ht : t ∈ xs)
    (hno : ∀ a, Op.select a ∈ ops → a ≠ t) : t ∈ ys ∧
    before t ys + ops.countP Op.isSelect = Levels.before t xs + ops.countP (Op.isAbove (prio t)) := by
  induction h with
  | nil => exact ⟨ht, rfl⟩
  | @arrive xs ys ops n hn h ih =>
    obtain ⟨hmem, heq⟩ := ih (hx.enter n) (mem_enter.mpr (.inr ht)) fun a ha => hno a (List.mem_cons_of_mem _ ha)
    refine ⟨hmem, ?_⟩
    rw [hx.before_enter ht hn] at heq
    simp only [List.countP_cons, Op.isSelect, Op.isAbove, decide_eq_true_eq, Bool.false_eq_true, if_false]
    omega
  | @select xs ys ops a h ih =>
    have hat : a ≠ t := hno a (List.mem_cons_self ..)
    have ht' : t ∈ xs := (List.mem_cons.mp ht).resolve_left (Ne.symm hat)
    obtain ⟨hmem, heq⟩ := ih hx.tail ht' fun b hb => hno b (List.mem_cons_of_mem _ hb)
    refine ⟨hmem, ?_⟩
    have hidx : Levels.before t (a :: xs) = Levels.before t xs + 1 := List.idxOf_cons_ne _ hat
    simp only [List.countP_cons, Op.isSelect, Op.isAbove, Bool.false_eq_true, if_true, if_false, hidx]
    omega

end

end Levels
