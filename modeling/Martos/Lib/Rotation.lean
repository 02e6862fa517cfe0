import Mathlib.Data.List.Rotate
import Mathlib.Data.List.Sort

/-!
# Taking turns

A ring of entries which is turned by one place at a time, and the entries that come to its
front: in every stretch of as many turns as there are entries, each of them comes to the
front once, in the order of the ring.

* `turns` — the entries that come to the front.
* `turns_window` — a stretch of full length is a rotation of the ring.
* `orderedInsert_append` — a sorted list of which the first part is the ring: inserting
  behind entries that are not lower puts an entry at the end of that part.
-/

namespace Rotation

variable {α : Type*}

/-- The entries that come to the front when the ring is turned `k` times. -/
def turns : List α → ℕ → List α
  | _, 0 => []
  | ring, k + 1 => (ring.rotate 1).take 1 ++ turns (ring.rotate 1) k

section

variable {ring : List α} {k : ℕ}

theorem turns_succ {a : α} {as : List α} (h : ring.rotate 1 = a :: as) :
    turns ring (k + 1) = a :: turns (ring.rotate 1) k := by
  rw [turns, h]
  rfl

theorem exists_rotate_one (h : ring ≠ []) : ∃ a as, ring.rotate 1 = a :: as :=
  List.exists_cons_of_ne_nil fun he => h (List.rotate_eq_nil_iff.mp he)

@[simp] theorem length_turns (h : ring ≠ []) (k : ℕ) : (turns ring k).length = k := by
  induction k generalizing ring with
  | zero => rfl
  | succ k ih =>
    obtain ⟨a, as, hr⟩ := exists_rotate_one h
    rw [turns_succ hr, List.length_cons, ih (fun he => h (List.rotate_eq_nil_iff.mp he))]

/-- After `i` turns and one more, the entry `i + 1` places on is at the front. -/
theorem getElem?_turns (h : ring ≠ []) {i : ℕ} (hi : i < k) :
    (turns ring k)[i]? = ring[(i + 1) % ring.length]? := by
  induction k generalizing ring i with
  | zero => omega
  | succ k ih =>
    have hpos : 0 < ring.length := List.length_pos_iff.mpr h
    obtain ⟨a, as, hr⟩ := exists_rotate_one h
    rw [turns_succ hr]
    cases i with
    | zero =>
      have hfront := List.getElem?_rotate (l := ring) (n := 1) hpos
      rw [hr] at hfront
      rw [List.getElem?_cons_zero]
      rw [List.getElem?_cons_zero] at hfront
      exact hfront
    | succ i =>
      rw [List.getElem?_cons_succ, ih (fun he => h (List.rotate_eq_nil_iff.mp he)) (by omega), List.length_rotate,
        List.getElem?_rotate (Nat.mod_lt _ hpos), Nat.mod_add_mod]

/-- **In as many turns as there are entries, each has its turn**, in the order of the ring. -/
theorem turns_window (h : ring ≠ []) {pre win post : List α} (hs : turns ring k = pre ++ win ++ post)
    (hl : win.length = ring.length) : win = ring.rotate (pre.length + 1) := by
  have hlen : k = pre.length + win.length + post.length := by
    rw [← length_turns h k, hs]
    simp only [List.length_append]
  refine List.ext_getElem? fun j => ?_
  by_cases hj : j < win.length
  · have hwin : (turns ring k)[pre.length + j]? = win[j]? := by
      rw [hs, List.append_assoc, List.getElem?_append_right (by omega), Nat.add_sub_cancel_left,
        List.getElem?_append_left hj]
    rw [← hwin, getElem?_turns h (by omega), List.getElem?_rotate (hl ▸ hj)]
    congr 2
    omega
  · rw [List.getElem?_eq_none (by omega), List.getElem?_eq_none (by rw [List.length_rotate]; omega)]

theorem mem_of_mem_turns {a : α} (ha : a ∈ turns ring k) : a ∈ ring := by
  induction k generalizing ring with
  | zero => simp [turns] at ha
  | succ k ih =>
    rcases List.mem_append.mp ha with ha | ha
    · exact List.mem_rotate.mp (List.mem_of_mem_take ha)
    · exact List.mem_rotate.mp (ih ha)

end

section

variable {β : Type*} [LinearOrder β] (prio : α → β)

/-- A list that does not ascend, and does not rank above `p`, is its entries of rank `p` and
then the others. -/
theorem filter_append_filter {xs : List α} {p : β} (hs : xs.Pairwise fun a b => prio b ≤ prio a)
    (hp : ∀ a ∈ xs, prio a ≤ p) :
    xs.filter (fun a => decide (prio a = p)) ++ xs.filter (fun a => decide (prio a < p)) = xs := by
  induction xs with
  | nil => rfl
  | cons a xs ih =>
    obtain ⟨ha, hs⟩ := List.pairwise_cons.mp hs
    have htail := ih hs fun b hb => hp b (List.mem_cons_of_mem _ hb)
    rcases (hp a (List.mem_cons_self ..)).eq_or_lt with heq | hlt
    · rw [List.filter_cons_of_pos (by simpa using heq), List.filter_cons_of_neg (by simp [heq]), List.cons_append,
        htail]
    · -- all that follow are lower as well
      have hnone : xs.filter (fun b => decide (prio b = p)) = [] := by
        refine List.filter_eq_nil_iff.mpr fun b hb => ?_
        have hb' := ha b hb
        simpa using (lt_of_le_of_lt hb' hlt).ne
      rw [hnone, List.nil_append] at htail
      rw [List.filter_cons_of_neg (by simpa using hlt.ne), hnone, List.nil_append,
        List.filter_cons_of_pos (by simpa using hlt), htail]

/-- An entry goes behind those that are not lower, and before those that are. -/
theorem orderedInsert_append {as bs : List α} {n : α} (ha : ∀ a ∈ as, ¬ prio a < prio n)
    (hb : ∀ b ∈ bs, prio b < prio n) :
    (as ++ bs).orderedInsert (fun a b => prio b < prio a) n = as ++ n :: bs := by
  induction as with
  | nil =>
    cases bs with
    | nil => rfl
    | cons b bs => exact if_pos (hb b (List.mem_cons_self ..))
  | cons a as ih =>
    rw [List.cons_append, List.orderedInsert, if_neg (ha a (List.mem_cons_self ..)),
      ih fun b hb => ha b (List.mem_cons_of_mem _ hb), List.cons_append]

end

end Rotation
