import Mathlib.Data.List.Chain
import Mathlib.Data.List.Nodup
import Mathlib.Logic.Function.Basic

/-!
# Doubly linked sequences

A store of links gives each address a successor and a predecessor, or none. A
sequence of addresses, its two ends included, is *linked* when each neighbouring
pair points at one another. Equivalently, the successors lead from the first
address through the sequence to the last one, and the predecessors lead back
(`linked_iff_walk`).

The two edits of a doubly linked list are `Links.splice`, which puts an address
between two neighbours, and `Links.bridge`, which closes the gap over one. Both
keep a sequence without repetitions linked, and neither touches a sequence that
avoids the addresses it writes (`Linked.splice_frame`,
`Linked.bridge_frame`).
-/

namespace DoublyLinked

variable {P : Type*}

/-- The links of a store of addresses. -/
@[ext]
structure Links (P : Type*) where
  /-- The successor. -/
  next : P → Option P
  /-- The predecessor. -/
  prev : P → Option P

/-- Following `f` leads through the addresses of a sequence one after the other. -/
def Walk (f : P → Option P) (l : List P) : Prop := l.IsChain fun p q => f p = some q

/-- Neighbours in the sequence point at one another. -/
def Linked (k : Links P) (l : List P) : Prop :=
  l.IsChain fun p q => k.next p = some q ∧ k.prev q = some p

/-- A sequence is linked when the successors lead through it and the predecessors
lead back. -/
theorem linked_iff_walk (k : Links P) (l : List P) :
    Linked k l ↔ Walk k.next l ∧ Walk k.prev l.reverse := by
  unfold Linked Walk
  rw [List.isChain_reverse]
  induction l with
  | nil => simp
  | cons a l ih =>
    cases l with
    | nil => simp
    | cons b l => simp only [List.isChain_cons_cons, ih]; tauto

/-- A walk that comes to its end is determined by where it begins. -/
theorem Walk.unique {f : P → Option P} {a : P} {xs ys : List P} (hx : Walk f (a :: xs)) (hy : Walk f (a :: ys))
    (ex : f ((a :: xs).getLast (List.cons_ne_nil _ _)) = none)
    (ey : f ((a :: ys).getLast (List.cons_ne_nil _ _)) = none) : xs = ys := by
  induction xs generalizing a ys with
  | nil =>
    cases ys with
    | nil => rfl
    | cons y ys =>
      obtain ⟨hay, -⟩ := List.isChain_cons_cons.mp hy
      cases hay.symm.trans ex
  | cons x xs ih =>
    obtain ⟨hax, hx⟩ := List.isChain_cons_cons.mp hx
    cases ys with
    | nil => cases hax.symm.trans ey
    | cons y ys =>
      obtain ⟨hay, hy⟩ := List.isChain_cons_cons.mp hy
      obtain rfl : x = y := Option.some.inj (hax.symm.trans hay)
      rw [ih hx hy (by simpa using ex) (by simpa using ey)]

/-- The addresses from `p` on, as far as `f` leads, if that is fewer than `n` steps. -/
def walkFrom (f : P → Option P) : ℕ → P → Option (List P)
  | 0, _ => none
  | n + 1, p =>
    match f p with
    | none => some [p]
    | some q => (walkFrom f n q).map (p :: ·)

/-- A walk that comes to its end is found by following `f`. -/
theorem Walk.walkFrom {f : P → Option P} {a : P} {xs : List P} (h : Walk f (a :: xs))
    (hend : f ((a :: xs).getLast (List.cons_ne_nil _ _)) = none) {n : ℕ} (hn : xs.length < n) :
    walkFrom f n a = some (a :: xs) := by
  induction xs generalizing a n with
  | nil =>
    obtain ⟨n, rfl⟩ : ∃ m, n = m + 1 := ⟨n - 1, by simp at hn; omega⟩
    have hend : f a = none := hend
    simp [DoublyLinked.walkFrom, hend]
  | cons x xs ih =>
    obtain ⟨n, rfl⟩ : ∃ m, n = m + 1 := ⟨n - 1, by simp at hn; omega⟩
    obtain ⟨hax, hx⟩ := List.isChain_cons_cons.mp h
    have hrest := ih hx (by simpa using hend) (by simpa using hn)
    simp [DoublyLinked.walkFrom, hax, hrest]

theorem linked_split (k : Links P) (us vs : List P) (p : P) :
    Linked k (us ++ p :: vs) ↔ Linked k (us ++ [p]) ∧ Linked k (p :: vs) := List.isChain_split

theorem linked_cons_cons (k : Links P) (p q : P) (l : List P) :
    Linked k (p :: q :: l) ↔ (k.next p = some q ∧ k.prev q = some p) ∧ Linked k (q :: l) :=
  List.isChain_cons_cons

/-- What the links say at two neighbours inside a sequence. -/
theorem Linked.adjacent {k : Links P} {us vs : List P} {p q : P} (h : Linked k (us ++ p :: q :: vs)) :
    k.next p = some q ∧ k.prev q = some p :=
  ((linked_cons_cons k p q vs).mp ((linked_split k us (q :: vs) p).mp h).2).1

/-- Links that agree on the addresses of a sequence, where it uses them, link it alike. -/
theorem Linked.congr {k k' : Links P} {l : List P} (h : Linked k l)
    (hn : ∀ p ∈ l.dropLast, k'.next p = k.next p) (hp : ∀ p ∈ l.tail, k'.prev p = k.prev p) :
    Linked k' l := by
  induction l with
  | nil => exact .nil
  | cons a l ih =>
    cases l with
    | nil => exact .singleton a
    | cons b l =>
      rw [linked_cons_cons] at h ⊢
      refine ⟨⟨?_, ?_⟩, ih h.2 (fun p hm => hn p (by simp [hm])) fun p hm => ?_⟩
      · rw [hn a (by simp)]
        exact h.1.1
      · rw [hp b (by simp)]
        exact h.1.2
      · exact hp p (by simpa using Or.inr (by simpa using hm))

section Edits

variable [DecidableEq P]

/-- Put `n` between the neighbours `p` and `q`. -/
def Links.splice (k : Links P) (p n q : P) : Links P where
  next := Function.update (Function.update k.next n (some q)) p (some n)
  prev := Function.update (Function.update k.prev n (some p)) q (some n)

/-- Make `p` and `q` neighbours. -/
def Links.bridge (k : Links P) (p q : P) : Links P where
  next := Function.update k.next p (some q)
  prev := Function.update k.prev q (some p)

/-- Splicing a fresh address into a sequence. -/
theorem Linked.splice {k : Links P} {us vs : List P} {p q n : P}
    (h : Linked k (us ++ p :: q :: vs)) (hd : (us ++ p :: q :: vs).Nodup)
    (hn : n ∉ us ++ p :: q :: vs) : Linked (k.splice p n q) (us ++ p :: n :: q :: vs) := by
  obtain ⟨h₁, h₂⟩ := (linked_split k us (q :: vs) p).mp h
  have h₃ := ((linked_cons_cons k p q vs).mp h₂).2
  rw [List.nodup_append] at hd
  obtain ⟨-, hd₂, hd₃⟩ := hd
  simp only [List.nodup_cons, List.mem_cons, not_or] at hd₂
  simp only [List.mem_append, List.mem_cons, not_or] at hn
  obtain ⟨hnu, hnp, hnq, hnv⟩ := hn
  rw [linked_split, linked_cons_cons, linked_cons_cons]
  refine ⟨h₁.congr ?_ ?_, ⟨?_, ?_⟩, ⟨?_, ?_⟩, h₃.congr ?_ ?_⟩
  · -- before `p`, only the addresses of `us` are read for their successor
    intro x hx
    rw [List.dropLast_concat] at hx
    have hxp : x ≠ p := hd₃ x hx p (by simp)
    have hxn : x ≠ n := fun e => hnu (e ▸ hx)
    simp [Links.splice, hxp, hxn]
  · intro x hx
    have hx' : x ∈ us ++ [p] := List.mem_of_mem_tail hx
    have hxq : x ≠ q := by
      rcases List.mem_append.mp hx' with hx | hx
      · exact hd₃ x hx q (by simp)
      · rw [List.mem_singleton.mp hx]; exact hd₂.1.1
    have hxn : x ≠ n := by
      rcases List.mem_append.mp hx' with hx | hx
      · exact fun e => hnu (e ▸ hx)
      · rw [List.mem_singleton.mp hx]; exact Ne.symm hnp
    simp [Links.splice, hxq, hxn]
  · simp [Links.splice]
  · simp [Links.splice, hnq]
  · simp [Links.splice, hnp]
  · simp [Links.splice]
  · -- after `q`, neither `p` nor the new address occurs
    intro x hx
    have hx' : x ∈ q :: vs := List.dropLast_subset _ hx
    have hxp : x ≠ p := fun e => by
      subst e
      rcases List.mem_cons.mp hx' with hx' | hx'
      · exact hd₂.1.1 hx'
      · exact hd₂.1.2 hx'
    have hxn : x ≠ n := fun e => by
      subst e
      rcases List.mem_cons.mp hx' with hx' | hx'
      · exact hnq hx'
      · exact hnv hx'
    simp [Links.splice, hxp, hxn]
  · intro x hx
    simp only [List.tail_cons] at hx
    have hxq : x ≠ q := fun e => hd₂.2.1 (e ▸ hx)
    have hxn : x ≠ n := fun e => hnv (e ▸ hx)
    simp [Links.splice, hxq, hxn]

/-- Taking an address out of a sequence. -/
theorem Linked.bridge {k : Links P} {us vs : List P} {p q n : P}
    (h : Linked k (us ++ p :: n :: q :: vs)) (hd : (us ++ p :: n :: q :: vs).Nodup) :
    Linked (k.bridge p q) (us ++ p :: q :: vs) := by
  obtain ⟨h₁, h₂⟩ := (linked_split k us (n :: q :: vs) p).mp h
  have h₃ := ((linked_cons_cons k n q vs).mp ((linked_cons_cons k p n _).mp h₂).2).2
  rw [List.nodup_append] at hd
  obtain ⟨-, hd₂, hd₃⟩ := hd
  simp only [List.nodup_cons, List.mem_cons, not_or] at hd₂
  rw [linked_split, linked_cons_cons]
  refine ⟨h₁.congr ?_ ?_, ⟨?_, ?_⟩, h₃.congr ?_ ?_⟩
  · intro x hx
    rw [List.dropLast_concat] at hx
    have hxp : x ≠ p := hd₃ x hx p (by simp)
    simp [Links.bridge, hxp]
  · intro x hx
    have hxq : x ≠ q := by
      rcases List.mem_append.mp (List.mem_of_mem_tail hx) with hx | hx
      · exact hd₃ x hx q (by simp)
      · rw [List.mem_singleton.mp hx]; exact hd₂.1.2.1
    simp [Links.bridge, hxq]
  · simp [Links.bridge]
  · simp [Links.bridge]
  · intro x hx
    have hxp : x ≠ p := fun e => by
      subst e
      rcases List.mem_cons.mp (List.dropLast_subset _ hx) with hx' | hx'
      · exact hd₂.1.2.1 hx'
      · exact hd₂.1.2.2 hx'
    simp [Links.bridge, hxp]
  · intro x hx
    simp only [List.tail_cons] at hx
    have hxq : x ≠ q := fun e => hd₂.2.2.1 (e ▸ hx)
    simp [Links.bridge, hxq]

/-- A splice does not touch a sequence that avoids the three addresses. -/
theorem Linked.splice_frame {k : Links P} {l : List P} {p q n : P} (h : Linked k l) (hp : p ∉ l)
    (hn : n ∉ l) (hq : q ∉ l) : Linked (k.splice p n q) l := by
  refine h.congr (fun x hx => ?_) fun x hx => ?_
  · have hx' := List.dropLast_subset _ hx
    simp [Links.splice, show x ≠ p from fun e => hp (e ▸ hx'), show x ≠ n from fun e => hn (e ▸ hx')]
  · have hx' := List.mem_of_mem_tail hx
    simp [Links.splice, show x ≠ q from fun e => hq (e ▸ hx'), show x ≠ n from fun e => hn (e ▸ hx')]

/-- A bridge does not touch a sequence that avoids the two addresses. -/
theorem Linked.bridge_frame {k : Links P} {l : List P} {p q : P} (h : Linked k l) (hp : p ∉ l)
    (hq : q ∉ l) : Linked (k.bridge p q) l := by
  refine h.congr (fun x hx => ?_) fun x hx => ?_
  · have hx' := List.dropLast_subset _ hx
    simp [Links.bridge, show x ≠ p from fun e => hp (e ▸ hx')]
  · have hx' := List.mem_of_mem_tail hx
    simp [Links.bridge, show x ≠ q from fun e => hq (e ▸ hx')]

end Edits

end DoublyLinked
