import Martos.Lists.Refinement

/-!
# Families of lists in one heap

The kernel's lists are of several kinds: lists of tasks, of timers, of requests, of
messages. Each kind is a family `Seqs L N` of its own, and all of their nodes and headers
are in one heap, which holds one larger family. `Within ι ν g f` says that the family `g` is a
part of the larger family `f`: its header `l` is the header `ι l` there, its node `n` the node
`ν n`.

`Replaces` says that the part has changed and the rest has not. An operation on the part is
then the operation on the larger family (`Replaces.listUnlink`, `Replaces.update`), which is what
the heap refines.
-/

namespace Martos

open DoublyLinked

namespace Seqs

variable {L L' N N' : Type} {ι : L → L'} {ν : N → N'}

/-- The family `g` is a part of the larger family `f`. -/
structure Within (ι : L → L') (ν : N → N') (g : Seqs L N) (f : Seqs L' N') : Prop where
  /-- The lists of the part. -/
  part : ∀ l, f (ι l) = (g l).map ν
  /-- Its nodes are on no other list. -/
  only : ∀ l' n, ν n ∈ f l' → ∃ l, ι l = l'

/-- The part `g` of `f` has become the part `g'` of `f'`, and the other lists are the same. -/
structure Replaces (ι : L → L') (ν : N → N') (g : Seqs L N) (f : Seqs L' N') (g' : Seqs L N) (f' : Seqs L' N') :
    Prop where
  /-- The part before. -/
  before : Within ι ν g f
  /-- The part after. -/
  after : Within ι ν g' f'
  /-- The other lists. -/
  rest : ∀ l', (∀ l, ι l ≠ l') → f' l' = f l'

variable {g g' : Seqs L N} {f f' : Seqs L' N'} {l : L} {n : N}

section

variable (hν : Function.Injective ν)

include hν

theorem Within.mem (h : Within ι ν g f) : ν n ∈ f (ι l) ↔ n ∈ g l := by
  rw [h.part, List.mem_map_of_injective hν]

/-- A node on none of the lists of the part is on no list. -/
theorem Within.off (h : Within ι ν g f) (hn : ∀ l, n ∉ g l) : f.Off (ν n) := by
  intro l' hm
  obtain ⟨l, rfl⟩ := h.only l' n hm
  exact hn l ((h.mem hν).mp hm)

/-- The lists of the part are separate as well. -/
theorem Within.separate (h : Within ι ν g f) (hι : Function.Injective ι) (hs : f.Separate) : g.Separate where
  nodup l := by
    have hd := hs.nodup (ι l)
    rw [h.part] at hd
    exact (List.nodup_map_iff hν).mp hd
  unique hm hm' := hι (hs.unique ((h.mem hν).mpr hm) ((h.mem hν).mpr hm'))

/-- Removing a node. -/
theorem Replaces.listUnlink [DecidableEq N] [DecidableEq N'] (h : Replaces ι ν g f (g.listUnlink n) f') :
    f.listUnlink (ν n) = f' := by
  funext l'
  by_cases hl : ∃ l, ι l = l'
  · obtain ⟨l, rfl⟩ := hl
    rw [listUnlink_apply, h.before.part, h.after.part, listUnlink_apply, List.map_erase hν]
  · have hne : ∀ l, ι l ≠ l' := fun l he => hl ⟨l, he⟩
    rw [h.rest l' hne, listUnlink_apply]
    exact List.erase_of_not_mem fun hm => hl (h.before.only l' n hm)

end

variable [DecidableEq L] [DecidableEq L'] (hι : Function.Injective ι)

include hι

/-- Another sequence for one of the lists. -/
theorem Replaces.update {xs : List N} (h : Replaces ι ν g f (Function.update g l xs) f') :
    Function.update f (ι l) (xs.map ν) = f' := by
  funext l'
  by_cases hl : ∃ k, ι k = l'
  · obtain ⟨k, rfl⟩ := hl
    rw [h.after.part]
    by_cases hk : k = l
    · subst hk
      rw [Function.update_self, Function.update_self]
    · rw [Function.update_of_ne hk, Function.update_of_ne (hι.ne hk), h.before.part]
  · have hne : ∀ k, ι k ≠ l' := fun k he => hl ⟨k, he⟩
    rw [h.rest l' hne, Function.update_of_ne (hne l).symm]

/-- Appending a node. -/
theorem Replaces.listAddTail (h : Replaces ι ν g f (g.listAddTail l n) f') : f.listAddTail (ι l) (ν n) = f' := by
  rw [Seqs.listAddTail, h.before.part, ← h.update hι, List.map_append]
  rfl

/-- Enqueueing a node, where the priorities of the nodes are the same. -/
theorem Replaces.listEnqueue {prio : N → ℤ} {prio' : N' → ℤ} (hp : ∀ n, prio' (ν n) = prio n)
    (h : Replaces ι ν g f (g.listEnqueue prio l n) f') : f.listEnqueue prio' (ι l) (ν n) = f' := by
  have hmap (xs : List N) : (xs.map ν).orderedInsert (fun a b => prio' b < prio' a) (ν n) =
      (xs.orderedInsert (fun a b => prio b < prio a) n).map ν := by
    induction xs with
    | nil => rfl
    | cons x xs ih =>
      simp only [List.map_cons, List.orderedInsert, hp, ih]
      by_cases hlt : prio x < prio n
      · rw [if_pos hlt, if_pos hlt]
        rfl
      · rw [if_neg hlt, if_neg hlt]
        rfl
  rw [Seqs.listEnqueue, h.before.part, hmap, ← h.update hι]

/-- Removing the first node. -/
theorem Replaces.listRemHead (h : Replaces ι ν g f (g.listRemHead l).2 f') :
    f.listRemHead (ι l) = ((g l).head?.map ν, f') := by
  rw [Seqs.listRemHead, h.before.part, List.head?_map, ← List.map_tail, h.update hι]

end Seqs

/-! ### Initialisation -/

section

variable {L N : Type} {S : Set L} {h h' : Heap L N} {f : Seqs L N}

/-- What a heap represents depends on its links. -/
theorem Represents.congr_links (R : Represents S h f) (hl : h'.toLinks = h.toLinks) : Represents S h' f where
  linked l hm := by
    rw [hl]
    exact R.linked l hm
  headPrev l hm := (congrFun (congrArg Links.prev hl) _).trans (R.headPrev l hm)
  tailNext l hm := (congrFun (congrArg Links.next hl) _).trans (R.tailNext l hm)
  separate := R.separate
  outside := R.outside

variable [DecidableEq L] [DecidableEq N]

/-- `list_init` makes any header that of an empty list, whatever was on its list. -/
theorem Represents.listInit (R : Represents S h f) (l : L) :
    Represents (S ∪ {l}) (h.listInit l) (Function.update f l []) where
  linked k hk := by
    by_cases hkl : k = l
    · subst hkl
      simp [Heap.listInit, Heap.setNext, Heap.setPrev, Seqs.spine, Linked]
    · have hspine : Seqs.spine (Function.update f l []) k = f.spine k := by
        simp [Seqs.spine, Function.update_of_ne hkl]
      have hne {p : Ptr L N} (hp : p ∈ f.spine k) : p ≠ .head l ∧ p ≠ .tail l := by
        constructor
        · rintro rfl
          exact hkl (Seqs.head_mem_spine.mp hp).symm
        · rintro rfl
          exact hkl (Seqs.tail_mem_spine.mp hp).symm
      rw [hspine]
      refine (R.linked k (hk.resolve_right hkl)).congr (fun p hp => ?_) fun p hp => ?_
      · obtain ⟨hh, ht⟩ := hne (List.dropLast_subset _ hp)
        simp [Heap.listInit, Heap.setNext, Heap.setPrev, hh, ht]
      · obtain ⟨hh, ht⟩ := hne (List.mem_of_mem_tail hp)
        simp [Heap.listInit, Heap.setNext, Heap.setPrev, hh, ht]
  headPrev k hk := by
    by_cases hkl : k = l
    · subst hkl
      simp [Heap.listInit, Heap.setNext, Heap.setPrev]
    · simpa [Heap.listInit, Heap.setNext, Heap.setPrev, hkl] using R.headPrev k (hk.resolve_right hkl)
  tailNext k hk := by
    by_cases hkl : k = l
    · subst hkl
      simp [Heap.listInit, Heap.setNext, Heap.setPrev]
    · simpa [Heap.listInit, Heap.setNext, Heap.setPrev, hkl] using R.tailNext k (hk.resolve_right hkl)
  separate := R.separate.update List.nodup_nil (by simp)
  outside k hk := by
    obtain ⟨hk, hkl⟩ := not_or.mp hk
    rw [Function.update_of_ne hkl]
    exact R.outside k hk

end

end Martos
