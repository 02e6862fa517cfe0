import Martos.Lists.Refinement

/-!
# The contract of `list_insert`

The header says: the node is inserted after `prev`, and if `prev` is NULL, at the head of the
list. `list_insert` tells its cases apart by `prev` and `prev->next`. The head sentinel and
the nodes of the list have a successor, and the node goes after them; the tail sentinel has
none, and the node is appended. With NULL nothing is inserted: where the header promises the
head of the list, the call of `list_add_head` is commented out.

`list_insert_contract_iff` says that this is the only case in which the contract is broken.
-/

namespace Martos

variable {L : Type} {N : Type} [DecidableEq L] [DecidableEq N]

/-- What a caller may pass for `prev`: NULL, a sentinel of the list, or a node on it. -/
def Seqs.PrevOf (f : Seqs L N) (l : L) (prev : Option (Ptr L N)) : Prop := ∀ p ∈ prev, p ∈ f.spine l

/-- The sequence with the node where the header puts it. -/
def Seqs.placed (f : Seqs L N) (l : L) (node : N) : Option (Ptr L N) → List N
  | none => node :: f l
  | some (.head _) => node :: f l
  | some (.node m) => insertAfter m node (f l)
  | some (.tail _) => f l ++ [node]

/-- `list_insert` does what the header says, and nothing else: afterwards the lists are well
formed, the list `l` holds the new sequence, the others hold what they held, and only links of
addresses on `l` have changed. -/
def Heap.InsertsAt (S : Set L) (h : Heap L N) (f : Seqs L N) (l : L) (node : N) (prev : Option (Ptr L N)) : Prop :=
  ∃ h', h.listInsert l (.node node) prev = some h' ∧
    Represents S h' (Function.update f l (f.placed l node prev)) ∧
    h.EqOff (Seqs.spine (Function.update f l (f.placed l node prev)) l) h'

section

variable {S : Set L} {h : Heap L N} {f : Seqs L N} {l : L} {n : N} {prev : Option (Ptr L N)}

/-- Where the node goes after the head sentinel or after a node of the list. -/
theorem Heap.insertsAt_prevPtr (R : Represents S h f) (hl : l ∈ S) (hn : f.Off n) (prev : Option N)
    (hp : ∀ m ∈ prev, m ∈ f l) : h.InsertsAt S f l n (some (prevPtr l prev)) := by
  obtain ⟨h', he, hoff, R'⟩ := listInsert_spec R hl hn hp
  cases prev with
  | none => exact ⟨h', he, R', hoff⟩
  | some m => exact ⟨h', he, R', hoff⟩

/-- The tail sentinel has no successor, and `list_insert` falls back on `list_add_tail`. -/
theorem Heap.insertsAt_tail (R : Represents S h f) (hl : l ∈ S) (hn : f.Off n) :
    h.InsertsAt S f l n (some (.tail l)) := by
  obtain ⟨h', he, hoff, R'⟩ := listAddTail_spec R hl hn
  refine ⟨h', ?_, R', hoff⟩
  rw [Heap.listInsert, R.tailNext l hl]
  exact he

/-- With NULL the heap stays as it is, and the list does not hold the node. -/
theorem Heap.not_insertsAt_null (R : Represents S h f) (hl : l ∈ S) (hn : f.Off n) :
    ¬ h.InsertsAt S f l n none := by
  rintro ⟨h', he, R', -⟩
  obtain rfl : h = h' := Option.some.inj he
  have hsame := R.unique R' hl hl
  rw [Function.update_self] at hsame
  exact hn l (hsame ▸ List.mem_cons_self)

/-- **The contract of `list_insert`.** On a well-formed list, with a node that is on no list
and any `prev` that is NULL, a sentinel of the list or a node on it: the node ends up where the
header says, and nothing else changes, exactly if `prev` is not NULL. -/
theorem list_insert_contract_iff (R : Represents S h f) (hl : l ∈ S) (hn : f.Off n) (hp : f.PrevOf l prev) :
    h.InsertsAt S f l n prev ↔ prev ≠ none := by
  constructor
  · rintro hi rfl
    exact Heap.not_insertsAt_null R hl hn hi
  · intro hne
    obtain ⟨p, rfl⟩ := Option.ne_none_iff_exists'.mp hne
    have hmem : p ∈ f.spine l := hp p rfl
    cases p with
    | head k =>
      obtain rfl := Seqs.head_mem_spine.mp hmem
      exact Heap.insertsAt_prevPtr R hl hn none nofun
    | tail k =>
      obtain rfl := Seqs.tail_mem_spine.mp hmem
      exact Heap.insertsAt_tail R hl hn
    | node m =>
      refine Heap.insertsAt_prevPtr R hl hn (some m) fun x hx => ?_
      obtain rfl := Option.some.inj hx
      exact Seqs.node_mem_spine.mp hmem

end

/-- A heap before any `list_init`, with these names. -/
def exampleHeap (name : ℕ → Option String) : Heap Unit ℕ := ⟨⟨fun _ => none, fun _ => none⟩, name, fun _ => 0⟩

/-- Two nodes, with any names, on a list. -/
theorem exists_examplePair (name : ℕ → Option String) :
    ∃ h : Heap Unit ℕ, Represents {l | l ∈ [()]} h (fun _ => [1, 2]) ∧ h.name = name := by
  have R₀ := (represents_listInit [()] (exampleHeap name)).1
  obtain ⟨h₁, -, hoff₁, R₁⟩ := listAddTail_spec (l := ()) (n := 1) R₀ (by simp) fun _ => by simp
  obtain ⟨h₂, -, hoff₂, R₂⟩ := listAddTail_spec (l := ()) (n := 2) R₁ (by simp) fun _ => by simp
  have hseq : Seqs.listAddTail () 2 (Seqs.listAddTail () 1 fun _ => []) = fun _ => [1, 2] := by
    funext l
    simp
  exact ⟨h₂, hseq ▸ R₂, hoff₂.name.trans hoff₁.name⟩

/-- The theorem at a list of two nodes, with the first of them for `prev`. -/
theorem list_insert_contract_iff_member : ∃ h : Heap Unit ℕ, Represents {l | l ∈ [()]} h (fun _ => [1, 2]) ∧
    h.InsertsAt {l | l ∈ [()]} (fun _ => [1, 2]) () 4 (some (.node 1)) := by
  obtain ⟨h, R, -⟩ := exists_examplePair fun _ => none
  have hprev : Seqs.PrevOf (fun _ : Unit => [1, 2]) () (some (.node 1)) := by
    rintro p ⟨⟩
    exact Seqs.node_mem_spine.mpr (by simp)
  refine ⟨h, R, (list_insert_contract_iff R (by simp) ?_ hprev).mpr (Option.some_ne_none _)⟩
  intro l
  simp

/-- The contract as the header states it fails: with NULL, nothing is inserted into the empty
list. -/
theorem list_insert_null : ¬ ∀ (S : Set Unit) (h : Heap Unit ℕ) (f : Seqs Unit ℕ) (l : Unit) (n : ℕ)
    (prev : Option (Ptr Unit ℕ)), Represents S h f → l ∈ S → f.Off n → f.PrevOf l prev → h.InsertsAt S f l n prev := by
  intro hall
  have R : Represents {l | l ∈ [()]} ((exampleHeap fun _ => none).listInit ()) fun _ => [] :=
    (represents_listInit [()] _).1
  have hoff : Seqs.Off (fun _ : Unit => []) 4 := fun _ => List.not_mem_nil
  exact Heap.not_insertsAt_null R (by simp) hoff (hall _ _ _ () 4 none R (by simp) hoff nofun)

end Martos
