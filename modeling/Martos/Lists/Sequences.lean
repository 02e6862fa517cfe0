import Mathlib.Data.List.Sort
import Mathlib.Logic.Function.Basic

/-!
# Lists as sequences

What the list functions of `list.c` are for: a list holds a sequence of nodes, and
a node is on at most one list. The lists of one kind of node are a family `Seqs L N`
indexed by the list headers `L`; each operation is stated on the whole family, so
that what it leaves alone is part of its definition.

`Lists.Refinement` proves that the pointer operations compute these operations,
under the contract that an inserted node is on no list (`Seqs.Off`) and an unlinked
node is on some list. The kernel is modelled over these sequences.
-/

namespace Martos

/-- The lists over nodes `N` with headers `L`: the sequence each of them holds. -/
abbrev Seqs (L : Type) (N : Type) := L → List N

/-- `node` right after `prev`. -/
def insertAfter {N : Type*} [DecidableEq N] (prev node : N) : List N → List N
  | [] => []
  | x :: xs => if x = prev then x :: node :: xs else x :: insertAfter prev node xs

theorem insertAfter_append {N : Type*} [DecidableEq N] {prev node : N} {as bs : List N} (hm : prev ∉ as) :
    insertAfter prev node (as ++ prev :: bs) = as ++ prev :: node :: bs := by
  induction as with
  | nil => simp [insertAfter]
  | cons a as ih =>
    simp only [List.mem_cons, not_or] at hm
    simp [insertAfter, Ne.symm hm.1, ih hm.2]

/-- Where what comes first is chosen first, the longest prefix that is chosen is everything that
is chosen. -/
theorem takeWhile_eq_filter {N : Type*} {p : N → Bool} {xs : List N} (h : xs.Pairwise fun a b => p b → p a) :
    xs.takeWhile p = xs.filter p ∧ xs.dropWhile p = xs.filter fun x => !p x := by
  induction xs with
  | nil => exact ⟨rfl, rfl⟩
  | cons x xs ih =>
    obtain ⟨hx, hxs⟩ := List.pairwise_cons.mp h
    obtain ⟨htake, hdrop⟩ := ih hxs
    by_cases hp : p x = true
    · simp [hp, htake, hdrop]
    · -- nothing behind it is chosen either
      have hnone : ∀ y ∈ xs, ¬ p y = true := fun y hy hpy => hp (hx y hy hpy)
      have hall : xs.filter (fun y => !p y) = xs := List.filter_eq_self.mpr fun y hy => by simpa using hnone y hy
      rw [List.takeWhile_cons_of_neg hp, List.dropWhile_cons_of_neg hp, List.filter_cons_of_neg hp,
        List.filter_eq_nil_iff.mpr hnone, List.filter_cons_of_pos (by simpa using hp), hall]
      exact ⟨rfl, rfl⟩

namespace Seqs

variable {L : Type} {N : Type}

section Operations

variable [DecidableEq L]

/-- `list_add_tail`: append. -/
def listAddTail (list : L) (node : N) (f : Seqs L N) : Seqs L N :=
  Function.update f list (f list ++ [node])

/-- `list_enqueue`: insert before the first node of lower priority. -/
def listEnqueue (prio : N → ℤ) (list : L) (node : N) (f : Seqs L N) : Seqs L N :=
  Function.update f list ((f list).orderedInsert (fun a b => prio b < prio a) node)

/-- `list_insert`: insert after `prev`; `none` is the head sentinel. -/
def listInsert [DecidableEq N] (list : L) (node : N) (prev : Option N) (f : Seqs L N) : Seqs L N :=
  Function.update f list (match prev with
    | none => node :: f list
    | some p => insertAfter p node (f list))

/-- `list_unlink`: remove the node from the list it is on. -/
def listUnlink [DecidableEq N] (node : N) (f : Seqs L N) : Seqs L N := fun l => (f l).erase node

/-- `list_rem_head`: remove the first node, and return it. -/
def listRemHead (list : L) (f : Seqs L N) : Option N × Seqs L N :=
  ((f list).head?, Function.update f list (f list).tail)

end Operations

/-- No node is on the lists twice, neither on one of them nor on two. -/
structure Separate (f : Seqs L N) : Prop where
  /-- Not twice on one list. -/
  nodup : ∀ l, (f l).Nodup
  /-- Not on two lists. -/
  unique : ∀ {l l' : L} {n : N}, n ∈ f l → n ∈ f l' → l = l'

/-- The node is on no list. -/
def Off (f : Seqs L N) (n : N) : Prop := ∀ l, n ∉ f l

variable {f : Seqs L N} {l l' : L} {m n : N} {prio : N → ℤ}

@[simp] theorem listUnlink_apply [DecidableEq N] : f.listUnlink n l = (f l).erase n := rfl

/-- Removing a node keeps the lists separate. -/
theorem Separate.listUnlink [DecidableEq N] (hf : f.Separate) (n : N) : (f.listUnlink n).Separate where
  nodup l := (hf.nodup l).erase n
  unique hm hm' := hf.unique (List.mem_of_mem_erase hm) (List.mem_of_mem_erase hm')

/-- A removed node is on no list. -/
theorem Separate.off_listUnlink [DecidableEq N] (hf : f.Separate) (n : N) : (f.listUnlink n).Off n :=
  fun l => (hf.nodup l).not_mem_erase

theorem Separate.mem_listUnlink [DecidableEq N] (hf : f.Separate) :
    m ∈ f.listUnlink n l ↔ m ≠ n ∧ m ∈ f l :=
  (hf.nodup l).mem_erase_iff

variable [DecidableEq L]

@[simp] theorem listAddTail_self : f.listAddTail l n l = f l ++ [n] := Function.update_self ..

@[simp] theorem listAddTail_of_ne (h : l' ≠ l) : f.listAddTail l n l' = f l' :=
  Function.update_of_ne h ..

@[simp] theorem listEnqueue_self :
    f.listEnqueue prio l n l = (f l).orderedInsert (fun a b => prio b < prio a) n :=
  Function.update_self ..

@[simp] theorem listEnqueue_of_ne (h : l' ≠ l) : f.listEnqueue prio l n l' = f l' :=
  Function.update_of_ne h ..

@[simp] theorem listRemHead_fst : (f.listRemHead l).1 = (f l).head? := rfl

@[simp] theorem listRemHead_self : (f.listRemHead l).2 l = (f l).tail := Function.update_self ..

@[simp] theorem listRemHead_of_ne (h : l' ≠ l) : (f.listRemHead l).2 l' = f l' :=
  Function.update_of_ne h ..

theorem mem_listAddTail : m ∈ f.listAddTail l n l' ↔ m ∈ f l' ∨ (l' = l ∧ m = n) := by
  by_cases h : l' = l
  · subst h; simp
  · simp [h]

theorem mem_listEnqueue : m ∈ f.listEnqueue prio l n l' ↔ m ∈ f l' ∨ (l' = l ∧ m = n) := by
  by_cases h : l' = l
  · subst h; simp [List.mem_orderedInsert, or_comm]
  · simp [h]

/-- What stays on the lists when the first node of `l` is removed. -/
theorem Separate.mem_listRemHead (hf : f.Separate) (hn : (f l).head? = some n) :
    m ∈ (f.listRemHead l).2 l' ↔ m ∈ f l' ∧ m ≠ n := by
  obtain ⟨xs, hl⟩ : ∃ xs, f l = n :: xs := by
    cases hxs : f l with
    | nil => simp [hxs] at hn
    | cons x xs => exact ⟨xs, by simpa [hxs] using hn⟩
  have hnot : n ∉ xs := by
    have hd := hf.nodup l
    rw [hl] at hd
    exact (List.nodup_cons.mp hd).1
  by_cases h : l' = l
  · subst h
    simp only [listRemHead_self, hl, List.tail_cons, List.mem_cons]
    constructor
    · exact fun hm => ⟨.inr hm, fun he => hnot (he ▸ hm)⟩
    · rintro ⟨hm | hm, hne⟩
      · exact absurd hm hne
      · exact hm
  · rw [listRemHead_of_ne h]
    refine ⟨fun hm => ⟨hm, ?_⟩, And.left⟩
    rintro rfl
    exact h (hf.unique hm (by rw [hl]; exact List.mem_cons_self))

/-- Changing one list to a sequence without repetitions, whose nodes were on it or
on no list, keeps the lists separate. -/
theorem Separate.update (hf : f.Separate) {xs : List N} (hd : xs.Nodup)
    (hx : ∀ m ∈ xs, m ∈ f l ∨ f.Off m) : Separate (Function.update f l xs) where
  nodup := by
    intro k
    by_cases hk : k = l
    · subst hk; simpa using hd
    · simpa [hk] using hf.nodup k
  unique := by
    intro k k' m hm hm'
    by_cases hk : k = l <;> by_cases hk' : k' = l
    · rw [hk, hk']
    · subst hk
      rw [Function.update_self] at hm
      rw [Function.update_of_ne hk'] at hm'
      rcases hx m hm with h | h
      · exact hf.unique h hm'
      · exact absurd hm' (h k')
    · subst hk'
      rw [Function.update_self] at hm'
      rw [Function.update_of_ne hk] at hm
      rcases hx m hm' with h | h
      · exact hf.unique hm h
      · exact absurd hm (h k)
    · rw [Function.update_of_ne hk] at hm
      rw [Function.update_of_ne hk'] at hm'
      exact hf.unique hm hm'

/-- Unlinking changes only the list the node is on. -/
theorem Separate.listUnlink_eq [DecidableEq N] (hf : f.Separate) (hn : n ∈ f l) :
    f.listUnlink n = Function.update f l ((f l).erase n) := by
  funext k
  by_cases hk : k = l
  · subst hk; simp
  · rw [Function.update_of_ne hk, listUnlink_apply, List.erase_of_not_mem]
    exact fun hm => hk (hf.unique hm hn)

/-! ### Priority order -/

/-- Priorities do not increase along the list. -/
def Descending (prio : N → ℤ) (xs : List N) : Prop := xs.Pairwise fun a b => prio b ≤ prio a

omit [DecidableEq L] in
theorem Descending.congr {prio' : N → ℤ} {xs : List N} (h : Descending prio xs)
    (hp : ∀ n ∈ xs, prio' n = prio n) : Descending prio' xs := by
  refine List.Pairwise.imp_of_mem ?_ h
  intro a b ha hb hab
  rw [hp a ha, hp b hb]
  exact hab

omit [DecidableEq L] in
/-- Another priority for one node of a sorted list leaves the list sorted exactly if the node
fits where it is. -/
theorem Descending.update_middle [DecidableEq N] {ys zs : List N} {p : ℤ} (hx : (ys ++ n :: zs).Nodup)
    (h : Descending prio (ys ++ n :: zs)) : Descending (Function.update prio n p) (ys ++ n :: zs) ↔
      (∀ m ∈ ys, p ≤ prio m) ∧ ∀ m ∈ zs, prio m ≤ p := by
  have hnot : n ∉ ys ++ zs := (List.nodup_cons.mp (List.nodup_middle.mp hx)).1
  have hprio {m : N} (hm : m ∈ ys ++ zs) : Function.update prio n p m = prio m := by
    have hne : m ≠ n := fun he => hnot (he ▸ hm)
    rw [Function.update_of_ne hne]
  have hys {m : N} (hm : m ∈ ys) := hprio (List.mem_append_left zs hm)
  have hzs {m : N} (hm : m ∈ zs) := hprio (List.mem_append_right ys hm)
  constructor
  · intro hd
    obtain ⟨-, htail, hcross⟩ := List.pairwise_append.mp hd
    refine ⟨fun m hm => ?_, fun m hm => ?_⟩
    · have hle := hcross m hm n (List.mem_cons_self ..)
      rwa [Function.update_self, hys hm] at hle
    · have hle := (List.pairwise_cons.mp htail).1 m hm
      rwa [Function.update_self, hzs hm] at hle
  · rintro ⟨hle, hge⟩
    obtain ⟨hfront, htail, hcross⟩ := List.pairwise_append.mp h
    have hback := (List.pairwise_cons.mp htail).2
    refine List.pairwise_append.mpr ⟨?_, List.pairwise_cons.mpr ⟨fun m hm => ?_, ?_⟩, fun m hm k hk => ?_⟩
    · exact Descending.congr hfront fun m hm => hys hm
    · rw [Function.update_self, hzs hm]
      exact hge m hm
    · exact Descending.congr hback fun m hm => hzs hm
    · rw [hys hm]
      rcases List.mem_cons.mp hk with rfl | hk'
      · rw [Function.update_self]
        exact hle m hm
      · rw [hzs hk']
        exact hcross m hm k hk

/-- `list_enqueue` keeps the order. -/
theorem Descending.listEnqueue (h : Descending prio (f l)) (n : N) :
    Descending prio (f.listEnqueue prio l n l) := by
  rw [listEnqueue_self]
  revert h
  induction f l with
  | nil => exact fun _ => List.pairwise_singleton ..
  | cons x xs ih =>
    intro h
    obtain ⟨hx, hxs⟩ := List.pairwise_cons.mp h
    by_cases hlt : prio x < prio n
    · rw [List.orderedInsert, if_pos hlt]
      refine List.pairwise_cons.mpr ⟨fun m hm => ?_, h⟩
      rcases List.mem_cons.mp hm with rfl | hm
      · exact hlt.le
      · exact (hx m hm).trans hlt.le
    · rw [List.orderedInsert, if_neg hlt]
      refine List.pairwise_cons.mpr ⟨fun m hm => ?_, ih hxs⟩
      rcases (List.mem_orderedInsert _).mp hm with rfl | hm
      · exact not_lt.mp hlt
      · exact hx m hm

/-- The first node has the highest priority. -/
theorem Descending.head (h : Descending prio (f l)) (hn : (f l).head? = some n)
    (hm : m ∈ (f.listRemHead l).2 l) : prio m ≤ prio n := by
  rw [listRemHead_self] at hm
  cases hl : f l with
  | nil => simp [hl] at hn
  | cons x xs =>
    rw [hl] at h hn hm
    obtain rfl := Option.some.inj hn
    exact (List.pairwise_cons.mp h).1 m hm

theorem Descending.listRemHead (h : Descending prio (f l)) : Descending prio ((f.listRemHead l).2 l) := by
  rw [listRemHead_self]
  exact List.Pairwise.tail h

/-! ### Lists that agree with a field of their nodes -/

/-- Every node is on the list that `loc` names, once, and on no other. -/
structure Located (f : Seqs L N) (loc : N → Option L) : Prop where
  /-- Not twice on one list. -/
  nodup : ∀ l, (f l).Nodup
  /-- On the list named. -/
  mem : ∀ l n, n ∈ f l ↔ loc n = some l

variable {loc loc' : N → Option L}

omit [DecidableEq L] in
theorem Located.separate (h : f.Located loc) : f.Separate where
  nodup := h.nodup
  unique hm hm' := Option.some.inj (((h.mem _ _).mp hm).symm.trans ((h.mem _ _).mp hm'))

omit [DecidableEq L] in
theorem Located.off (h : f.Located loc) (hn : loc n = none) : f.Off n := by
  intro l hm
  rw [h.mem, hn] at hm
  cases hm

omit [DecidableEq L] in
theorem Located.congr (h : f.Located loc) (hl : ∀ n, loc' n = loc n) : f.Located loc' where
  nodup := h.nodup
  mem l n := by rw [hl, h.mem]

/-- The node goes on a list, at any place of it. -/
theorem Located.insert [DecidableEq N] (h : f.Located loc) (hn : loc n = none) {xs : List N}
    (hp : xs.Perm (n :: f l)) : Located (Function.update f l xs) (Function.update loc n (some l)) where
  nodup := by
    refine (h.separate.update (hp.nodup_iff.mpr (List.nodup_cons.mpr ⟨h.off hn l, h.nodup l⟩)) ?_).nodup
    intro m hm
    rcases List.mem_cons.mp (hp.mem_iff.mp hm) with rfl | hm
    · exact .inr (h.off hn)
    · exact .inl hm
  mem l' m := by
    by_cases hm : m = n
    · subst hm
      by_cases hl : l' = l
      · subst hl; simp [hp.mem_iff]
      · simp [hl, Ne.symm hl, h.off hn l']
    · by_cases hl : l' = l
      · subst hl; simp [hp.mem_iff, hm, h.mem]
      · simp [hl, hm, h.mem]

theorem Located.listAddTail [DecidableEq N] (h : f.Located loc) (hn : loc n = none) :
    (f.listAddTail l n).Located (Function.update loc n (some l)) :=
  h.insert hn (List.perm_append_singleton n (f l))

theorem Located.listEnqueue [DecidableEq N] (h : f.Located loc) (hn : loc n = none) :
    (f.listEnqueue prio l n).Located (Function.update loc n (some l)) :=
  h.insert hn (List.perm_orderedInsert ..)

omit [DecidableEq L] in
theorem Located.listUnlink [DecidableEq N] (h : f.Located loc) (n : N) :
    (f.listUnlink n).Located (Function.update loc n none) where
  nodup := (h.separate.listUnlink n).nodup
  mem l m := by
    rw [h.separate.mem_listUnlink, h.mem]
    by_cases hm : m = n
    · subst hm; simp
    · simp [hm]

theorem Located.listRemHead [DecidableEq N] (h : f.Located loc) (hn : (f l).head? = some n) :
    (f.listRemHead l).2.Located (Function.update loc n none) where
  nodup l' := by
    by_cases hl : l' = l
    · subst hl; rw [listRemHead_self]; exact (h.nodup l').tail
    · rw [listRemHead_of_ne hl]; exact h.nodup l'
  mem l' m := by
    rw [h.separate.mem_listRemHead hn, h.mem]
    by_cases hm : m = n
    · subst hm; simp
    · simp [hm]

end Seqs

end Martos
