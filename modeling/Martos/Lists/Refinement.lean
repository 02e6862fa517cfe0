import Martos.Lists.Pointers
import Martos.Lists.Sequences

/-!
# The pointer lists refine sequences

`Represents S h f` says that in the heap `h` the lists `S` are well formed and hold
the sequences `f`: the spine of each list — head sentinel, nodes, tail sentinel — is
doubly linked, the outer links of the sentinels are NULL, and no node is on the lists
twice.

Every operation of `list.c` that inserts is, on a well-formed list, a
`Links.splice` between two neighbours of a spine, and every one that removes is a
`Links.bridge` over a node of it; that is what the lemmas `listAddTail_spec`,
`listEnqueue_spec`, `listInsert_spec`, `listUnlink_spec` and `listRemHead_spec` show.
The rest is done once, by `Represents.insert` and `Represents.remove`.

`lists_refine_sequences` is the result for whole programs: any number of lists, any
sequence of operations in which an inserted node is on no list and an unlinked node
on some list.
-/

namespace Martos

open DoublyLinked

variable {L : Type} {N : Type}

/-! ### Spines -/

/-- The addresses of a list in order, sentinels included. -/
def Seqs.spine (f : Seqs L N) (l : L) : List (Ptr L N) :=
  .head l :: ((f l).map .node ++ [.tail l])

@[simp] theorem Seqs.node_mem_spine {f : Seqs L N} {l : L} {n : N} :
    Ptr.node n ∈ f.spine l ↔ n ∈ f l := by simp [Seqs.spine]

@[simp] theorem Seqs.head_mem_spine {f : Seqs L N} {l l' : L} :
    Ptr.head l' ∈ f.spine l ↔ l' = l := by simp [Seqs.spine]

@[simp] theorem Seqs.tail_mem_spine {f : Seqs L N} {l l' : L} :
    Ptr.tail l' ∈ f.spine l ↔ l' = l := by simp [Seqs.spine]

theorem Seqs.nodup_spine {f : Seqs L N} {l : L} : (f.spine l).Nodup ↔ (f l).Nodup := by
  have hinj : Function.Injective (Ptr.node : N → Ptr L N) := fun _ _ h => by cases h; rfl
  simp [Seqs.spine, List.nodup_append, List.nodup_map_iff hinj]

/-- The spines of two lists have no address in common. -/
theorem Seqs.Separate.not_mem_spine {f : Seqs L N} (hf : f.Separate) {l l' : L} (hne : l ≠ l')
    {p : Ptr L N} (hp : p ∈ f.spine l) : p ∉ f.spine l' := by
  cases p with
  | head k => simp only [head_mem_spine] at hp ⊢; exact fun h => hne (hp.symm.trans h)
  | tail k => simp only [tail_mem_spine] at hp ⊢; exact fun h => hne (hp.symm.trans h)
  | node n => simp only [node_mem_spine] at hp ⊢; exact fun h => hne (hf.unique hp h)

/-- The cut at the beginning of a list. -/
theorem cut_nil (l : L) : Ptr.head l :: ([] : List N).map .node = [] ++ [Ptr.head l] := rfl

/-- Where a sequence is cut, its spine has two neighbours. -/
theorem exists_neighbours (l : L) (as bs : List N) : ∃ (us vs : List (Ptr L N)) (p q : Ptr L N),
    Ptr.head l :: as.map .node = us ++ [p] ∧ bs.map .node ++ [Ptr.tail l] = q :: vs := by
  obtain ⟨us, p, hu⟩ : ∃ us p, Ptr.head l :: as.map Ptr.node = us ++ [p] :=
    ⟨_, _, (List.dropLast_append_getLast (List.cons_ne_nil _ _)).symm⟩
  cases bs with
  | nil => exact ⟨us, [], p, .tail l, hu, rfl⟩
  | cons b bs => exact ⟨us, bs.map .node ++ [.tail l], p, .node b, hu, rfl⟩

section Cut

variable {f : Seqs L N} {l : L} {as bs : List N} {us vs : List (Ptr L N)} {p q : Ptr L N}

theorem spine_cut (hf : f l = as ++ bs) (ha : Ptr.head l :: as.map .node = us ++ [p])
    (hb : bs.map .node ++ [Ptr.tail l] = q :: vs) : f.spine l = us ++ p :: q :: vs := by
  calc f.spine l = (.head l :: as.map .node) ++ (bs.map .node ++ [.tail l]) := by
        simp [Seqs.spine, hf]
    _ = us ++ p :: q :: vs := by rw [ha, hb]; simp

theorem spine_cut_cons {n : N} (hf : f l = as ++ n :: bs)
    (ha : Ptr.head l :: as.map .node = us ++ [p]) (hb : bs.map .node ++ [Ptr.tail l] = q :: vs) :
    f.spine l = us ++ p :: .node n :: q :: vs := by
  calc f.spine l = (.head l :: as.map .node) ++ .node n :: (bs.map .node ++ [.tail l]) := by
        simp [Seqs.spine, hf]
    _ = us ++ p :: .node n :: q :: vs := by rw [ha, hb]; simp

/-- The address before a cut is not a tail sentinel. -/
theorem ne_tail_of_cut (ha : Ptr.head l :: as.map .node = us ++ [p]) (k : L) : p ≠ .tail k := by
  have hp : p ∈ Ptr.head l :: as.map (Ptr.node : N → Ptr L N) := by rw [ha]; simp
  rintro rfl
  simp at hp

/-- The address after a cut is not a head sentinel. -/
theorem ne_head_of_cut (hb : bs.map .node ++ [Ptr.tail l] = q :: vs) (k : L) : q ≠ .head k := by
  have hq : q ∈ bs.map (Ptr.node : N → Ptr L N) ++ [Ptr.tail l] := by rw [hb]; simp
  rintro rfl
  simp at hq

end Cut

/-! ### Well-formed lists -/

/-- The heaps differ at most in the links of the addresses `ps`. -/
structure Heap.EqOff (ps : List (Ptr L N)) (h h' : Heap L N) : Prop where
  /-- The names. -/
  name : h'.name = h.name
  /-- The priorities. -/
  prio : h'.prio = h.prio
  /-- The successors. -/
  next : ∀ p ∉ ps, h'.next p = h.next p
  /-- The predecessors. -/
  prev : ∀ p ∉ ps, h'.prev p = h.prev p

theorem Heap.EqOff.refl (ps : List (Ptr L N)) (h : Heap L N) : h.EqOff ps h :=
  ⟨rfl, rfl, fun _ _ => rfl, fun _ _ => rfl⟩

/-- In the heap `h` the lists `S` are well formed and hold the sequences `f`. -/
structure Represents (S : Set L) (h : Heap L N) (f : Seqs L N) : Prop where
  /-- Each spine is doubly linked. -/
  linked : ∀ l ∈ S, Linked h.toLinks (f.spine l)
  /-- `list->head.prev == NULL`. -/
  headPrev : ∀ l ∈ S, h.prev (.head l) = none
  /-- `list->tail.next == NULL`. -/
  tailNext : ∀ l ∈ S, h.next (.tail l) = none
  /-- No node is on the lists twice. -/
  separate : f.Separate
  /-- Other headers hold nothing. -/
  outside : ∀ l ∉ S, f l = []

theorem Represents.mem_of_mem {S : Set L} {h : Heap L N} {f : Seqs L N} (R : Represents S h f)
    {l : L} {n : N} (hn : n ∈ f l) : l ∈ S := by
  by_contra hl
  rw [R.outside l hl] at hn
  cases hn

/-- What a list holds can be read off the heap. -/
theorem Represents.unique {S T : Set L} {h : Heap L N} {f g : Seqs L N} (R : Represents S h f) (R' : Represents T h g)
    {l : L} (hl : l ∈ S) (hl' : l ∈ T) : f l = g l := by
  have hinj : Function.Injective (Ptr.node : N → Ptr L N) := fun _ _ h => by cases h; rfl
  have hwalk := ((linked_iff_walk _ _).mp (R.linked l hl)).1
  have hwalk' := ((linked_iff_walk _ _).mp (R'.linked l hl')).1
  have hend := hwalk.unique hwalk' (by simpa using R.tailNext l hl) (by simpa using R.tailNext l hl)
  exact hinj.list_map (List.append_cancel_right hend)

section Neighbours

variable {S : Set L} {h : Heap L N} {f : Seqs L N} {l : L} {n : N} {as bs : List N}
  {us vs : List (Ptr L N)} {p q : Ptr L N}

/-- What the links say on both sides of a cut. -/
theorem Represents.at_cut (R : Represents S h f) (hl : l ∈ S) (hf : f l = as ++ bs)
    (ha : Ptr.head l :: as.map .node = us ++ [p]) (hb : bs.map .node ++ [Ptr.tail l] = q :: vs) :
    h.next p = some q ∧ h.prev q = some p := by
  have hL := R.linked l hl
  rw [spine_cut hf ha hb] at hL
  exact hL.adjacent

/-- A node that is on no list is not at a cut. -/
theorem Seqs.Off.ne_at_cut (hn : f.Off n) (hf : f l = as ++ bs) (ha : Ptr.head l :: as.map .node = us ++ [p])
    (hb : bs.map .node ++ [Ptr.tail l] = q :: vs) : p ≠ .node n ∧ q ≠ .node n := by
  have hs := spine_cut hf ha hb
  have hns : Ptr.node n ∉ f.spine l := by simpa using hn l
  exact ⟨fun e => hns (by rw [hs, ← e]; simp), fun e => hns (by rw [hs, ← e]; simp)⟩

/-- The scan of `list_enqueue` stops where the node belongs. -/
theorem enqueueScan_spec (hL : Linked h.toLinks (bs.map .node ++ [Ptr.tail l]))
    (ht : h.next (.tail l) = none) {first : Ptr L N} {rest : List (Ptr L N)}
    (hfirst : bs.map .node ++ [Ptr.tail l] = first :: rest) :
    ∃ (cs ds : List N) (q : Ptr L N) (vs : List (Ptr L N)), bs = cs ++ ds ∧
      bs.orderedInsert (fun a b => h.prio b < h.prio a) n = cs ++ n :: ds ∧
      ds.map .node ++ [Ptr.tail l] = q :: vs ∧
      ∀ fuel, bs.length < fuel → h.enqueueScan (.node n) fuel first = some q := by
  induction bs generalizing first rest with
  | nil =>
    obtain ⟨rfl, rfl⟩ : Ptr.tail l = first ∧ [] = rest := by simpa using hfirst
    refine ⟨[], [], .tail l, [], rfl, rfl, rfl, fun fuel hfuel => ?_⟩
    obtain ⟨fuel, rfl⟩ : ∃ k, fuel = k + 1 := ⟨fuel - 1, by simp at hfuel; omega⟩
    simp [Heap.enqueueScan, ht]
  | cons b bs ih =>
    obtain ⟨rfl, rfl⟩ : Ptr.node b = first ∧ bs.map .node ++ [Ptr.tail l] = rest := by
      simpa using hfirst
    obtain ⟨us, vs, p, q, -, hq⟩ := exists_neighbours l [] bs
    have hnext : h.next (.node b) = some q := by
      rw [List.map_cons, List.cons_append, hq, linked_cons_cons] at hL
      exact hL.1.1
    by_cases hlt : h.prio b < h.prio n
    · refine ⟨[], b :: bs, .node b, _, rfl, by simp [hlt], rfl, fun fuel hfuel => ?_⟩
      obtain ⟨fuel, rfl⟩ : ∃ k, fuel = k + 1 := ⟨fuel - 1, by simp at hfuel; omega⟩
      simp [Heap.enqueueScan, hnext, Heap.prioAt, hlt]
    · have hL' : Linked h.toLinks (bs.map .node ++ [Ptr.tail l]) := by
        rw [hq]
        rw [List.map_cons, List.cons_append, hq, linked_cons_cons] at hL
        exact hL.2
      obtain ⟨cs, ds, q', vs', hbs, hins, hds, hscan⟩ := ih hL' hq
      refine ⟨b :: cs, ds, q', vs', by rw [hbs]; rfl, by simp [hlt, hins], hds, fun fuel hfuel => ?_⟩
      obtain ⟨fuel, rfl⟩ : ∃ k, fuel = k + 1 := ⟨fuel - 1, by simp at hfuel; omega⟩
      simpa [Heap.enqueueScan, hnext, Heap.prioAt, hlt] using hscan fuel (by simpa using hfuel)

end Neighbours

variable [DecidableEq L]

section Edits

variable {S : Set L} {h h' : Heap L N} {f : Seqs L N} {l : L} {n : N} {as bs : List N}
  {us vs : List (Ptr L N)} {p q : Ptr L N}

/-- A splice writes to the addresses of the new spine only. -/
theorem Heap.eqOff_splice [DecidableEq N] {ps : List (Ptr L N)} {r : Ptr L N}
    (hs : ps = us ++ p :: r :: q :: vs) : h.EqOff ps { h with toLinks := h.toLinks.splice p r q } := by
  refine ⟨rfl, rfl, fun x hx => ?_, fun x hx => ?_⟩
  all_goals
    simp only [hs, List.mem_append, List.mem_cons, not_or] at hx
    obtain ⟨-, hp, hr, hq, -⟩ := hx
    simp [Links.splice, hp, hr, hq]

/-- A bridge writes to the addresses of the new spine only. -/
theorem Heap.eqOff_bridge [DecidableEq N] {ps : List (Ptr L N)} (hs : ps = us ++ p :: q :: vs) :
    h.EqOff ps { h with toLinks := h.toLinks.bridge p q } := by
  refine ⟨rfl, rfl, fun x hx => ?_, fun x hx => ?_⟩
  all_goals
    simp only [hs, List.mem_append, List.mem_cons, not_or] at hx
    obtain ⟨-, hp, hq, -⟩ := hx
    simp [Links.bridge, hp, hq]

/-- One list is given a new sequence; the other spines and the outer links of the
sentinels are left alone. -/
theorem Represents.edit (R : Represents S h f) (hl : l ∈ S) {xs : List N} (hd : xs.Nodup)
    (hx : ∀ m ∈ xs, m ∈ f l ∨ f.Off m)
    (hlink : Linked h'.toLinks (Seqs.spine (Function.update f l xs) l))
    (hframe : ∀ k ∈ S, k ≠ l → Linked h'.toLinks (f.spine k))
    (hhead : ∀ k, h'.prev (.head k) = h.prev (.head k))
    (htail : ∀ k, h'.next (.tail k) = h.next (.tail k)) :
    Represents S h' (Function.update f l xs) where
  linked k hk := by
    by_cases hkl : k = l
    · exact hkl ▸ hlink
    · have hsk : Seqs.spine (Function.update f l xs) k = f.spine k := by
        simp [Seqs.spine, Function.update_of_ne hkl]
      rw [hsk]
      exact hframe k hk hkl
  headPrev k hk := (hhead k).trans (R.headPrev k hk)
  tailNext k hk := (htail k).trans (R.tailNext k hk)
  separate := R.separate.update hd hx
  outside k hk := by
    rw [Function.update_of_ne fun e : k = l => hk (e ▸ hl)]
    exact R.outside k hk

variable [DecidableEq N]

/-- Splicing a node that is on no list in at a cut inserts it into the sequence. -/
theorem Represents.insert (R : Represents S h f) (hl : l ∈ S) (hn : f.Off n) (hf : f l = as ++ bs)
    (ha : Ptr.head l :: as.map .node = us ++ [p]) (hb : bs.map .node ++ [Ptr.tail l] = q :: vs)
    (hk : h'.toLinks = h.toLinks.splice p (.node n) q) :
    Represents S h' (Function.update f l (as ++ n :: bs)) := by
  have hs := spine_cut hf ha hb
  have hnext : h'.next = (h.toLinks.splice p (.node n) q).next := congrArg Links.next hk
  have hprev : h'.prev = (h.toLinks.splice p (.node n) q).prev := congrArg Links.prev hk
  refine R.edit hl ?_ (fun m hm => ?_) ?_ (fun k hk' hkl => ?_) (fun k => ?_) fun k => ?_
  · rw [List.nodup_middle, ← hf]
    exact List.nodup_cons.mpr ⟨hn l, R.separate.nodup l⟩
  · rw [List.mem_append, List.mem_cons, or_left_comm, ← List.mem_append, ← hf] at hm
    rcases hm with rfl | hm
    · exact .inr hn
    · exact .inl hm
  · rw [hk, spine_cut_cons (Function.update_self ..) ha hb]
    have hL := R.linked l hl
    have hd := Seqs.nodup_spine.mpr (R.separate.nodup l)
    rw [hs] at hL hd
    exact hL.splice hd (by rw [← hs]; simpa using hn l)
  · -- another list: none of the three addresses is on its spine
    have hoff : ∀ x ∈ f.spine l, x ∉ f.spine k := fun x hx => R.separate.not_mem_spine (Ne.symm hkl) hx
    rw [hk]
    exact (R.linked k hk').splice_frame (hoff p (by rw [hs]; simp)) (by simpa using hn k)
      (hoff q (by rw [hs]; simp))
  · rw [hprev]
    simp [Links.splice, (ne_head_of_cut hb k).symm]
  · rw [hnext]
    simp [Links.splice, (ne_tail_of_cut ha k).symm]

/-- Bridging over a node takes it out of the sequence. -/
theorem Represents.remove (R : Represents S h f) (hl : l ∈ S) (hf : f l = as ++ n :: bs)
    (ha : Ptr.head l :: as.map .node = us ++ [p]) (hb : bs.map .node ++ [Ptr.tail l] = q :: vs)
    (hk : h'.toLinks = h.toLinks.bridge p q) : Represents S h' (Function.update f l (as ++ bs)) := by
  have hs := spine_cut_cons hf ha hb
  have hnext : h'.next = (h.toLinks.bridge p q).next := congrArg Links.next hk
  have hprev : h'.prev = (h.toLinks.bridge p q).prev := congrArg Links.prev hk
  have hdl := R.separate.nodup l
  rw [hf, List.nodup_middle, List.nodup_cons] at hdl
  refine R.edit hl hdl.2 (fun m hm => .inl ?_) ?_ (fun k hk' hkl => ?_) (fun k => ?_) fun k => ?_
  · rw [hf, List.mem_append, List.mem_cons, or_left_comm, ← List.mem_append]
    exact .inr hm
  · rw [hk, spine_cut (Function.update_self ..) ha hb]
    have hL := R.linked l hl
    have hd := Seqs.nodup_spine.mpr (R.separate.nodup l)
    rw [hs] at hL hd
    exact hL.bridge hd
  · have hoff : ∀ x ∈ f.spine l, x ∉ f.spine k := fun x hx => R.separate.not_mem_spine (Ne.symm hkl) hx
    rw [hk]
    exact (R.linked k hk').bridge_frame (hoff p (by rw [hs]; simp)) (hoff q (by rw [hs]; simp))
  · rw [hprev]
    simp [Links.bridge, (ne_head_of_cut hb k).symm]
  · rw [hnext]
    simp [Links.bridge, (ne_tail_of_cut ha k).symm]

end Edits

/-! ### The operations -/

variable [DecidableEq N]

section Operations

variable {S : Set L} {h : Heap L N} {f : Seqs L N} {l : L} {n : N}

theorem listAddTail_spec (R : Represents S h f) (hl : l ∈ S) (hn : f.Off n) :
    ∃ h', h.listAddTail l (.node n) = some h' ∧ h.EqOff ((f.listAddTail l n).spine l) h' ∧
      Represents S h' (f.listAddTail l n) := by
  obtain ⟨us, vs, p, q, ha, hb⟩ := exists_neighbours l (f l) []
  have hf : f l = f l ++ [] := (List.append_nil _).symm
  obtain ⟨rfl, rfl⟩ : Ptr.tail l = q ∧ [] = vs := by simpa using hb
  obtain ⟨-, hprev⟩ := R.at_cut hl hf ha hb
  refine ⟨{ h with toLinks := h.toLinks.splice p (.node n) (.tail l) }, ?_,
    Heap.eqOff_splice (spine_cut_cons (Function.update_self ..) ha hb), R.insert hl hn hf ha hb rfl⟩
  simp [Heap.listAddTail, Heap.setNext, Heap.setPrev, hprev, Links.splice]

/-- Inserting after `prev`, whatever follows it. -/
theorem listInsert_cut (R : Represents S h f) (hl : l ∈ S) (hn : f.Off n) {as bs : List N}
    {us : List (Ptr L N)} {p : Ptr L N} (hf : f l = as ++ bs)
    (ha : Ptr.head l :: as.map .node = us ++ [p]) :
    ∃ h', h.listInsert l (.node n) (some p) = some h' ∧
      h.EqOff (Seqs.spine (Function.update f l (as ++ n :: bs)) l) h' ∧
      Represents S h' (Function.update f l (as ++ n :: bs)) := by
  obtain ⟨-, vs, -, q, -, hb⟩ := exists_neighbours l as bs
  obtain ⟨hnext, -⟩ := R.at_cut hl hf ha hb
  obtain ⟨hpn, hqn⟩ := hn.ne_at_cut hf ha hb
  refine ⟨{ h with toLinks := h.toLinks.splice p (.node n) q }, ?_,
    Heap.eqOff_splice (spine_cut_cons (Function.update_self ..) ha hb), R.insert hl hn hf ha hb rfl⟩
  simp [Heap.listInsert, Heap.setNext, Heap.setPrev, hnext, hpn, Links.splice]

/-- The pointer a caller of `list_insert` passes for `prev`. -/
def prevPtr (list : L) : Option N → Ptr L N
  | none => .head list
  | some m => .node m

theorem listInsert_spec (R : Represents S h f) (hl : l ∈ S) (hn : f.Off n) {prev : Option N}
    (hp : ∀ m ∈ prev, m ∈ f l) :
    ∃ h', h.listInsert l (.node n) (some (prevPtr l prev)) = some h' ∧
      h.EqOff ((f.listInsert l n prev).spine l) h' ∧ Represents S h' (f.listInsert l n prev) := by
  cases prev with
  | none => exact listInsert_cut R hl hn rfl (cut_nil l)
  | some m =>
    obtain ⟨as, bs, hf⟩ := List.append_of_mem (hp m rfl)
    have hm : m ∉ as := by
      have hd := R.separate.nodup l
      rw [hf, List.nodup_middle, List.nodup_cons, List.mem_append, not_or] at hd
      exact hd.1.1
    have hup : f.listInsert l n (some m) = Function.update f l ((as ++ [m]) ++ n :: bs) := by
      simp [Seqs.listInsert, hf, insertAfter_append hm]
    have ha : Ptr.head l :: (as ++ [m]).map .node = (.head l :: as.map .node) ++ [Ptr.node m] := by
      simp
    rw [hup]
    exact listInsert_cut R hl hn (by simp [hf]) ha

theorem listEnqueue_spec (R : Represents S h f) (hl : l ∈ S) (hn : f.Off n) :
    ∃ h', (∀ fuel, (f l).length < fuel → h.listEnqueue fuel l (.node n) = some h') ∧
      h.EqOff ((f.listEnqueue h.prio l n).spine l) h' ∧ Represents S h' (f.listEnqueue h.prio l n) := by
  obtain ⟨us₀, rest, p₀, first, ha₀, hfirst⟩ := exists_neighbours l [] (f l)
  obtain ⟨rfl, rfl⟩ : [] = us₀ ∧ Ptr.head l = p₀ := by
    cases us₀ <;> simp_all
  have hL : Linked h.toLinks ((f l).map .node ++ [Ptr.tail l]) := by
    have := R.linked l hl
    rw [Seqs.spine, hfirst, linked_cons_cons] at this
    rw [hfirst]
    exact this.2
  obtain ⟨cs, ds, q, vs, hf, hins, hb, hscan⟩ :=
    enqueueScan_spec (n := n) hL (R.tailNext l hl) hfirst
  obtain ⟨us, -, p, -, ha, -⟩ := exists_neighbours l cs ds
  obtain ⟨hnext₀, -⟩ := R.at_cut hl rfl (cut_nil l) hfirst
  obtain ⟨-, hprev⟩ := R.at_cut hl hf ha hb
  obtain ⟨-, hqn⟩ := hn.ne_at_cut hf ha hb
  rw [Seqs.listEnqueue, hins]
  refine ⟨{ h with toLinks := h.toLinks.splice p (.node n) q }, fun fuel hfuel => ?_,
    Heap.eqOff_splice (spine_cut_cons (Function.update_self ..) ha hb), R.insert hl hn hf ha hb rfl⟩
  simp [Heap.listEnqueue, hnext₀, hscan fuel hfuel, Heap.setNext, Heap.setPrev, hprev, hqn, Links.splice]

theorem listUnlink_spec (R : Represents S h f) (hn : n ∈ f l) :
    ∃ h', h.listUnlink (.node n) = some h' ∧ h.EqOff ((f.listUnlink n).spine l) h' ∧
      Represents S h' (f.listUnlink n) := by
  have hl := R.mem_of_mem hn
  obtain ⟨as, bs, hf⟩ := List.append_of_mem hn
  obtain ⟨us, vs, p, q, ha, hb⟩ := exists_neighbours l as bs
  have hs := spine_cut_cons hf ha hb
  have hd := Seqs.nodup_spine.mpr (R.separate.nodup l)
  have hL := R.linked l hl
  rw [hs] at hL hd
  -- the node's two neighbours
  obtain ⟨-, hprev⟩ := hL.adjacent
  have hL' : Linked h.toLinks ((us ++ [p]) ++ .node n :: q :: vs) := by simpa using hL
  obtain ⟨hnext, -⟩ := hL'.adjacent
  have hnp : Ptr.node n ≠ p := by
    rw [List.nodup_append] at hd
    exact fun e => by simp [e] at hd
  have hna : n ∉ as := by
    have hdl := R.separate.nodup l
    rw [hf, List.nodup_middle, List.nodup_cons, List.mem_append, not_or] at hdl
    exact hdl.1.1
  have hup : f.listUnlink n = Function.update f l (as ++ bs) := by
    rw [R.separate.listUnlink_eq hn, hf, List.erase_append_right _ hna, List.erase_cons_head]
  rw [hup]
  refine ⟨{ h with toLinks := h.toLinks.bridge p q }, ?_,
    Heap.eqOff_bridge (spine_cut (Function.update_self ..) ha hb), R.remove hl hf ha hb rfl⟩
  simp [Heap.listUnlink, Heap.setNext, Heap.setPrev, hprev, hnext, hnp, Links.bridge]

theorem listIsEmpty_spec (R : Represents S h f) (hl : l ∈ S) : h.listIsEmpty l = (f l).isEmpty := by
  obtain ⟨us, vs, p, q, ha, hb⟩ := exists_neighbours l (f l) []
  obtain ⟨rfl, rfl⟩ : Ptr.tail l = q ∧ [] = vs := by simpa using hb
  obtain ⟨-, hprev⟩ := R.at_cut hl (List.append_nil _).symm ha hb
  rw [Heap.listIsEmpty, hprev]
  rcases List.eq_nil_or_concat (f l) with hf | ⟨xs, x, hf⟩
  · rw [hf] at ha ⊢
    obtain ⟨rfl, rfl⟩ : [] = us ∧ Ptr.head l = p := by cases us <;> simp_all
    simp
  · rw [List.concat_eq_append] at hf
    rw [hf, List.map_append, ← List.cons_append] at ha
    obtain ⟨-, hp⟩ := List.append_inj' ha rfl
    obtain rfl : Ptr.node x = p := by simpa using hp
    rw [hf]
    simp

theorem listGetHead_spec (R : Represents S h f) (hl : l ∈ S) :
    h.listGetHead l = (f l).head?.map .node := by
  rw [Heap.listGetHead, listIsEmpty_spec R hl]
  cases hf : f l with
  | nil => simp
  | cons x xs =>
    obtain ⟨hnext, -⟩ := R.at_cut hl hf (cut_nil l) rfl
    simp [hnext]

theorem listRemHead_spec (R : Represents S h f) (hl : l ∈ S) :
    ∃ h', h.listRemHead l = some ((f l).head?.map .node, h') ∧
      h.EqOff ((f.listRemHead l).2.spine l) h' ∧ Represents S h' (f.listRemHead l).2 := by
  rw [Heap.listRemHead, listGetHead_spec R hl]
  cases hf : f l with
  | nil =>
    refine ⟨h, rfl, .refl .., ?_⟩
    have hnil : (f.listRemHead l).2 = f := by
      rw [Seqs.listRemHead, hf, List.tail_nil, ← hf]
      exact Function.update_eq_self l f
    rw [hnil]
    exact R
  | cons x xs =>
    have hx : x ∈ f l := by rw [hf]; exact List.mem_cons_self
    obtain ⟨h', hun, hoff, R'⟩ := listUnlink_spec R hx
    have hcons : (f.listRemHead l).2 = f.listUnlink x := by
      rw [R.separate.listUnlink_eq hx]
      simp [Seqs.listRemHead, hf]
    rw [hcons]
    exact ⟨h', by simp [hun], hoff, R'⟩

end Operations

/-! ### Programs -/

/-- A call of a list function. -/
inductive ListOp (L : Type) (N : Type) where
  /-- `list_add_tail(list, node)`. -/
  | addTail (list : L) (node : N)
  /-- `list_enqueue(list, node)`. -/
  | enqueue (list : L) (node : N)
  /-- `list_insert(list, node, prev)`, where `none` is the head sentinel. -/
  | insert (list : L) (node : N) (prev : Option N)
  /-- `list_unlink(node)`. -/
  | unlink (node : N)
  /-- `list_rem_head(list)`. -/
  | remHead (list : L)

namespace ListOp

/-- The call on the heap: the pointer it returns (NULL for the void functions) and
the heap after. -/
def run (fuel : ℕ) (h : Heap L N) : ListOp L N → Option (Option (Ptr L N) × Heap L N)
  | addTail l n => (h.listAddTail l (.node n)).map fun h => (none, h)
  | enqueue l n => (h.listEnqueue fuel l (.node n)).map fun h => (none, h)
  | insert l n prev => (h.listInsert l (.node n) (some (prevPtr l prev))).map fun h => (none, h)
  | unlink n => (h.listUnlink (.node n)).map fun h => (none, h)
  | remHead l => h.listRemHead l

/-- The call on sequences. -/
def apply (prio : N → ℤ) (f : Seqs L N) : ListOp L N → Option N × Seqs L N
  | addTail l n => (none, f.listAddTail l n)
  | enqueue l n => (none, f.listEnqueue prio l n)
  | insert l n prev => (none, f.listInsert l n prev)
  | unlink n => (none, f.listUnlink n)
  | remHead l => f.listRemHead l

/-- The contract: the list is one of `ls`, an inserted node is on no list, `prev` is
on the list, an unlinked node is on some list. -/
def Ok (ls : List L) (f : Seqs L N) : ListOp L N → Prop
  | addTail l n => l ∈ ls ∧ f.Off n
  | enqueue l n => l ∈ ls ∧ f.Off n
  | insert l n prev => l ∈ ls ∧ f.Off n ∧ ∀ m ∈ prev, m ∈ f l
  | unlink n => ∃ l, n ∈ f l
  | remHead l => l ∈ ls

/-- The list a call works on. -/
def On (f : Seqs L N) (l : L) : ListOp L N → Prop
  | addTail l' _ | enqueue l' _ | insert l' _ _ | remHead l' => l = l'
  | unlink n => n ∈ f l

/-- A program on the heap: the pointers returned, and the heap after. -/
def runAll (fuel : ℕ) : List (ListOp L N) → Heap L N → Option (List (Option (Ptr L N)) × Heap L N)
  | [], h => some ([], h)
  | op :: ops, h => do
    let (r, h) ← op.run fuel h
    let (rs, h) ← runAll fuel ops h
    return (r :: rs, h)

/-- The same program on sequences. -/
def applyAll (prio : N → ℤ) : List (ListOp L N) → Seqs L N → List (Option N) × Seqs L N
  | [], f => ([], f)
  | op :: ops, f =>
    let (r, f) := op.apply prio f
    let (rs, f) := applyAll prio ops f
    (r :: rs, f)

/-- Every call of a program is made within its contract. -/
def AllOk (prio : N → ℤ) (ls : List L) : List (ListOp L N) → Seqs L N → Prop
  | [], _ => True
  | op :: ops, f => op.Ok ls f ∧ AllOk prio ls ops (op.apply prio f).2

/-- A call leaves the other lists unchanged. -/
theorem apply_of_not_on {prio : N → ℤ} {f : Seqs L N} {l : L} {op : ListOp L N} (h : ¬ op.On f l) :
    (op.apply prio f).2 l = f l := by
  cases op with
  | addTail l' n => exact Function.update_of_ne h ..
  | enqueue l' n => exact Function.update_of_ne h ..
  | insert l' n prev => exact Function.update_of_ne h ..
  | unlink n => exact List.erase_of_not_mem h
  | remHead l' => exact Function.update_of_ne h ..

/-- No call makes the lists longer by more than one node. -/
theorem length_apply_le (prio : N → ℤ) (f : Seqs L N) (op : ListOp L N) (l : L) :
    ((op.apply prio f).2 l).length ≤ (f l).length + 1 := by
  by_cases hl : op.On f l
  · cases op with
    | addTail l' n => obtain rfl : l = l' := hl; simp [apply]
    | enqueue l' n => obtain rfl : l = l' := hl; simp [apply, List.orderedInsert_length]
    | insert l' n prev =>
      obtain rfl : l = l' := hl
      cases prev with
      | none => simp [apply, Seqs.listInsert]
      | some m =>
        simp only [apply, Seqs.listInsert, Function.update_self]
        induction f l with
        | nil => simp [insertAfter]
        | cons x xs ih =>
          simp only [insertAfter]
          split <;> simp_all
    | unlink n =>
      have := List.length_erase_le (a := n) (l := f l)
      simp only [apply, Seqs.listUnlink_apply]
      omega
    | remHead l' =>
      obtain rfl : l = l' := hl
      simp only [apply, Seqs.listRemHead_self, List.length_tail]
      omega
  · rw [apply_of_not_on hl]
    omega

/-- One call within its contract does on the heap what it does on sequences. -/
theorem run_spec {ls : List L} {h : Heap L N} {f : Seqs L N} (R : Represents {l | l ∈ ls} h f)
    (fuel : ℕ) (hfuel : ∀ l, (f l).length < fuel) {op : ListOp L N} (hok : op.Ok ls f) :
    ∃ h', op.run fuel h = some ((op.apply h.prio f).1.map .node, h') ∧ h'.prio = h.prio ∧
      Represents {l | l ∈ ls} h' (op.apply h.prio f).2 := by
  cases op with
  | addTail l n =>
    obtain ⟨h', he, hoff, R'⟩ := listAddTail_spec R hok.1 hok.2
    exact ⟨h', by simp [run, apply, he], hoff.prio, R'⟩
  | enqueue l n =>
    obtain ⟨h', he, hoff, R'⟩ := listEnqueue_spec R hok.1 hok.2
    exact ⟨h', by simp [run, apply, he fuel (hfuel l)], hoff.prio, R'⟩
  | insert l n prev =>
    obtain ⟨h', he, hoff, R'⟩ := listInsert_spec R hok.1 hok.2.1 hok.2.2
    exact ⟨h', by simp [run, apply, he], hoff.prio, R'⟩
  | unlink n =>
    obtain ⟨l, hn⟩ := hok
    obtain ⟨h', he, hoff, R'⟩ := listUnlink_spec R hn
    exact ⟨h', by simp [run, apply, he], hoff.prio, R'⟩
  | remHead l =>
    obtain ⟨h', he, hoff, R'⟩ := listRemHead_spec R hok
    exact ⟨h', he, hoff.prio, R'⟩

/-- A whole program does. The fuel covers the nodes already there and those the
program can add. -/
theorem runAll_spec {ls : List L} (ops : List (ListOp L N)) {h : Heap L N} {f : Seqs L N}
    (R : Represents {l | l ∈ ls} h f) (fuel : ℕ) (hfuel : ∀ l, (f l).length + ops.length < fuel)
    (hok : AllOk h.prio ls ops f) :
    ∃ h', runAll fuel ops h = some ((applyAll h.prio ops f).1.map (Option.map .node), h') ∧
      Represents {l | l ∈ ls} h' (applyAll h.prio ops f).2 := by
  induction ops generalizing h f with
  | nil => exact ⟨h, rfl, R⟩
  | cons op ops ih =>
    obtain ⟨h₁, he₁, hp₁, R₁⟩ :=
      run_spec R fuel (fun l => by have := hfuel l; omega) hok.1
    have hfuel₁ : ∀ l, ((op.apply h.prio f).2 l).length + ops.length < fuel := fun l => by
      have h1 := hfuel l
      have h2 := length_apply_le h.prio f op l
      simp only [List.length_cons] at h1
      omega
    obtain ⟨h₂, he₂, R₂⟩ := ih R₁ hfuel₁ (by rw [hp₁]; exact hok.2)
    rw [hp₁] at he₂ R₂
    exact ⟨h₂, by simp [runAll, applyAll, he₁, he₂], R₂⟩

end ListOp

/-- `list_init` of a number of lists makes all of them empty lists. -/
theorem represents_listInit (ls : List L) (h : Heap L N) :
    Represents {l | l ∈ ls} (ls.foldl (fun h l => h.listInit l) h) (fun _ => []) ∧
      (ls.foldl (fun h l => h.listInit l) h).prio = h.prio := by
  induction ls using List.reverseRecOn with
  | nil =>
    refine ⟨⟨?_, ?_, ?_, ⟨fun _ => List.nodup_nil, ?_⟩, fun _ _ => rfl⟩, rfl⟩ <;> simp
  | append_singleton ls l ih =>
    obtain ⟨R, hp⟩ := ih
    rw [List.foldl_append, List.foldl_cons, List.foldl_nil]
    generalize ls.foldl (fun h l => h.listInit l) h = g at R hp
    refine ⟨⟨fun k hk => ?_, fun k hk => ?_, fun k hk => ?_, R.separate, fun _ _ => rfl⟩, hp⟩
    all_goals
      by_cases hkl : k = l
      · subst hkl
        simp [Heap.listInit, Heap.setNext, Heap.setPrev, Seqs.spine, Linked]
    · have hL := R.linked k (by simpa [hkl] using hk)
      simpa [Heap.listInit, Heap.setNext, Heap.setPrev, Seqs.spine, Linked, hkl] using hL
    · have := R.headPrev k (by simpa [hkl] using hk)
      simpa [Heap.listInit, Heap.setNext, Heap.setPrev, hkl] using this
    · have := R.tailNext k (by simpa [hkl] using hk)
      simpa [Heap.listInit, Heap.setNext, Heap.setPrev, hkl] using this

/-- **Pointer lists refine sequences.** Initialise any number of lists with
`list_init` and run any program of list operations, each within its contract. The
program runs to its end, returns the nodes the same program on sequences returns, and
leaves every list well formed: `next` leads from the head sentinel through exactly its
sequence to the tail sentinel, `prev` leads back, and no node is on two lists. Then
`list_is_empty` and `list_get_head` agree with the sequences, and one more operation
changes no list but the one it works on. -/
theorem lists_refine_sequences (ls : List L) (h₀ : Heap L N) (ops : List (ListOp L N)) (fuel : ℕ)
    (hfuel : ops.length < fuel) (hok : ListOp.AllOk h₀.prio ls ops fun _ => []) :
    ∃ h rs f, ListOp.applyAll h₀.prio ops (fun _ => []) = (rs, f) ∧
      ListOp.runAll fuel ops (ls.foldl (fun h l => h.listInit l) h₀) =
        some (rs.map (Option.map .node), h) ∧
      f.Separate ∧
      (∀ l ∈ ls,
        Walk h.next (.head l :: ((f l).map .node ++ [.tail l])) ∧
        Walk h.prev (.tail l :: ((f l).reverse.map .node ++ [.head l])) ∧
        h.prev (.head l) = none ∧ h.next (.tail l) = none ∧
        h.listIsEmpty l = (f l).isEmpty ∧ h.listGetHead l = (f l).head?.map .node) ∧
      ∀ op : ListOp L N, ∀ l, ¬ op.On f l → (op.apply h₀.prio f).2 l = f l := by
  obtain ⟨R₀, hp⟩ := represents_listInit ls h₀
  obtain ⟨h, he, R⟩ := ListOp.runAll_spec ops R₀ fuel (fun _ => by simpa using hfuel)
    (by rw [hp]; exact hok)
  rw [hp] at he R
  refine ⟨h, _, _, rfl, he, R.separate, fun l hl => ?_, fun op l => ListOp.apply_of_not_on⟩
  obtain ⟨hn, hpr⟩ := (linked_iff_walk _ _).mp (R.linked l hl)
  refine ⟨hn, ?_, R.headPrev l hl, R.tailNext l hl, listIsEmpty_spec R hl, listGetHead_spec R hl⟩
  simpa [Seqs.spine] using hpr

/-- Two lists and six calls: afterwards node `4` alone is on the first list, and the
last call returned node `1`. -/
theorem lists_refine_sequences_two_lists :
    ∃ h, ListOp.runAll 7
        [.addTail true 1, .enqueue false 2, .enqueue false 3, .insert true 4 (some 1), .unlink 2,
          .remHead true]
        ([true, false].foldl (fun h l => h.listInit l)
          (⟨⟨fun _ => none, fun _ => none⟩, fun _ => none, fun n => n⟩ : Heap Bool ℕ)) =
        some ([none, none, none, none, none, some (.node 1)], h) ∧
      Walk h.next [.head true, .node 4, .tail true] ∧ h.listGetHead false = some (.node 3) := by
  obtain ⟨h, rs, f, hf, hrun, -, hw, -⟩ := lists_refine_sequences [true, false]
    (⟨⟨fun _ => none, fun _ => none⟩, fun _ => none, fun n => n⟩ : Heap Bool ℕ)
    [.addTail true 1, .enqueue false 2, .enqueue false 3, .insert true 4 (some 1), .unlink 2,
      .remHead true] 7 (by decide)
    (by simp [ListOp.AllOk, ListOp.Ok, ListOp.apply, Seqs.Off, Seqs.listAddTail, Seqs.listEnqueue,
      Seqs.listInsert, insertAfter])
  obtain ⟨rfl, rfl⟩ := Prod.mk.inj hf
  obtain ⟨hnext, -⟩ := hw true (by decide)
  obtain ⟨-, -, -, -, -, hhead⟩ := hw false (by decide)
  exact ⟨h, hrun, hnext, hhead⟩

end Martos
