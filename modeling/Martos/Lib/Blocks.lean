import Mathlib.Data.List.Nodup
import Mathlib.Logic.Function.Basic
import Mathlib.Tactic.Linarith

/-!
# Stores as functions, and blocks of cells

A store (a memory, a register file) is a function from cells to values. `store` carries
out a list of writes, the first one first, and `load` reads a list of cells. Moving
several values at once between two stores, as a machine's load and store multiple do, is
`store` along the list of cells on one side and `load` of the cells on the other.

* `store_of_notMem`, `load_store_of_disjoint` — the frame rules: cells that are not
  written keep their values.
* `load_store_zip` — what has been stored in distinct cells is read back.
* `store_load` — a store filled with what another one holds agrees with it there.

`block k a n` is the list of `n` cells from address `a` on, `k` apart. Where the block
does not run over the end of the address space its addresses are distinct
(`nodup_block`), and they are the numbers one expects (`bounds_of_mem_block`).
-/

namespace Blocks

section

variable {α β : Type*} {m m' : α → β} {cells : List α} {vals : List β} {a : α}

/-- The values of some cells. -/
def load (m : α → β) (cells : List α) : List β := cells.map m

theorem load_congr (h : ∀ a ∈ cells, m' a = m a) : load m' cells = load m cells :=
  List.map_congr_left h

variable [DecidableEq α]

/-- The store after the writes `l`. -/
def store (m : α → β) (l : List (α × β)) : α → β := l.foldl (fun m w => Function.update m w.1 w.2) m

@[simp] theorem store_nil : store m [] = m := rfl

@[simp] theorem store_cons {w : α × β} {l : List (α × β)} :
    store m (w :: l) = store (Function.update m w.1 w.2) l := rfl

/-- A cell that is not written keeps its value. -/
theorem store_of_notMem {l : List (α × β)} (h : ∀ w ∈ l, w.1 ≠ a) : store m l a = m a := by
  induction l generalizing m with
  | nil => rfl
  | cons w l ih =>
    rw [store_cons, ih fun w' hw' => h w' (List.mem_cons_of_mem w hw')]
    exact Function.update_of_ne (h w List.mem_cons_self).symm _ _

/-- Cells that are not written keep their values. -/
theorem load_store_of_disjoint {l : List (α × β)} (h : ∀ w ∈ l, w.1 ∉ cells) :
    load (store m l) cells = load m cells := by
  refine load_congr fun a ha => store_of_notMem fun w hw => ?_
  intro hwa
  exact h w hw (hwa ▸ ha)

/-- What is stored in distinct cells is read back. -/
theorem load_store_zip (hd : cells.Nodup) (hl : cells.length = vals.length) :
    load (store m (cells.zip vals)) cells = vals := by
  induction cells generalizing m vals with
  | nil => simpa [load] using (List.length_eq_zero_iff.mp hl.symm).symm
  | cons a cells ih =>
    cases vals with
    | nil => simp at hl
    | cons v vals =>
      obtain ⟨ha, hd⟩ := List.nodup_cons.mp hd
      have hhead : store m ((a, v) :: cells.zip vals) a = v := by
        rw [store_cons, store_of_notMem]
        · exact Function.update_self ..
        · intro w hw hwa
          exact ha (hwa ▸ (List.of_mem_zip hw).1)
      have htail := ih (m := Function.update m a v) hd (Nat.succ.inj hl)
      exact List.cons_eq_cons.mpr ⟨hhead, htail⟩

/-- A store filled with what another one holds agrees with it there. -/
theorem store_load (m m' : α → β) (ha : a ∈ cells) : store m (cells.zip (load m' cells)) a = m' a := by
  induction cells generalizing m with
  | nil => cases ha
  | cons b cells ih =>
    by_cases hc : a ∈ cells
    · exact ih (Function.update m b (m' b)) hc
    · have hab : a = b := by simpa [hc] using ha
      subst hab
      change store (Function.update m a (m' a)) (cells.zip (load m' cells)) a = m' a
      rw [store_of_notMem]
      · exact Function.update_self ..
      · intro w hw hwa
        exact hc (hwa ▸ (List.of_mem_zip hw).1)

end

section

variable {w : ℕ} {k n : ℕ} {a x : BitVec w}

/-- The `n` addresses from `a` on, `k` apart. -/
def block (k : ℕ) (a : BitVec w) (n : ℕ) : List (BitVec w) :=
  (List.range n).map fun i => a + BitVec.ofNat w (k * i)

@[simp] theorem length_block : (block k a n).length = n := by simp [block]

/-- An offset that does not run over the end. -/
theorem toNat_add_ofNat {i : ℕ} (h : a.toNat + i < 2 ^ w) : (a + BitVec.ofNat w i).toNat = a.toNat + i := by
  rw [BitVec.toNat_add, BitVec.toNat_ofNat, Nat.mod_eq_of_lt (show i < 2 ^ w by omega), Nat.mod_eq_of_lt h]

theorem toNat_sub_ofNat {i : ℕ} (h : i ≤ a.toNat) : (a - BitVec.ofNat w i).toNat = a.toNat - i := by
  have hlt := a.isLt
  have hi : (BitVec.ofNat w i).toNat = i := by rw [BitVec.toNat_ofNat, Nat.mod_eq_of_lt (by omega)]
  rw [BitVec.toNat_sub_of_le (by rw [BitVec.le_def, hi]; exact h), hi]

/-- The addresses of a block, as numbers. -/
theorem exists_of_mem_block (hx : x ∈ block k a n) (hk : 0 < k) (h : a.toNat + k * n ≤ 2 ^ w) :
    ∃ i < n, x.toNat = a.toNat + k * i := by
  obtain ⟨i, hi, rfl⟩ := List.mem_map.mp hx
  have hi : i < n := List.mem_range.mp hi
  have hlt : k * i < k * n := Nat.mul_lt_mul_of_pos_left hi hk
  exact ⟨i, hi, toNat_add_ofNat (by omega)⟩

theorem bounds_of_mem_block (hx : x ∈ block k a n) (hk : 0 < k) (h : a.toNat + k * n ≤ 2 ^ w) :
    a.toNat ≤ x.toNat ∧ x.toNat < a.toNat + k * n := by
  obtain ⟨i, hi, hxi⟩ := exists_of_mem_block hx hk h
  have hlt : k * i < k * n := Nat.mul_lt_mul_of_pos_left hi hk
  omega

theorem nodup_block (hk : 0 < k) (h : a.toNat + k * n ≤ 2 ^ w) : (block k a n).Nodup := by
  refine List.Nodup.map_on ?_ List.nodup_range
  intro i hi j hj heq
  have hi : k * i < k * n := Nat.mul_lt_mul_of_pos_left (List.mem_range.mp hi) hk
  have hj : k * j < k * n := Nat.mul_lt_mul_of_pos_left (List.mem_range.mp hj) hk
  have hnum := congrArg BitVec.toNat heq
  rw [toNat_add_ofNat (by omega), toNat_add_ofNat (by omega)] at hnum
  exact Nat.eq_of_mul_eq_mul_left hk (by omega)

end

end Blocks
