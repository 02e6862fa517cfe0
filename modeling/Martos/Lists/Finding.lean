import Martos.Lists.Insertion

/-!
# Finding all nodes of a name

`list_find` starts at a list header or, through a cast, at a node: either way it reads the
first word of `start`, the successor. The header says that more nodes can be searched by
calling it on the nodes found, and that the name of a node may be NULL, in which case the node
cannot be found. But `list_find` does not test for NULL: it calls `strcmp` with the name of
every node it passes, and `strcmp` is not defined on NULL.

Searching until `list_find` returns NULL passes every node of the list, so one node without a
name is enough to break the search, wherever it is (`list_find_enumerates_iff`).
-/

namespace Martos

open DoublyLinked

variable {L : Type} {N : Type}

namespace Heap

/-- `p->name`, as the argument of `strcmp`: a sentinel is a `MinNode` and has no name, and a
name that is NULL is no string. -/
def nameAt (h : Heap L N) : Ptr L N → Option String
  | .node n => h.name n
  | _ => none

/-- The loop of `list_find`: from `nextnode` on, the first node with this name, or NULL. -/
def findScan (h : Heap L N) (name : String) : ℕ → Ptr L N → Option (Option (Ptr L N))
  | 0, _ => none
  | fuel + 1, nextnode =>
    match h.next nextnode with
    | none => some none
    | some next => do
      let other ← h.nameAt nextnode
      if other = name then return some nextnode else findScan h name fuel next

/-- `list_find`, from the header of a list, which is its head sentinel, or from a node. -/
def listFind (fuel : ℕ) (start : Ptr L N) (name : String) (h : Heap L N) : Option (Option (Ptr L N)) := do
  let nextnode ← h.next start
  h.findScan name fuel nextnode

/-- Call `list_find` on `start`, then on the node found, and so on until it returns NULL: the
nodes found, one by one. -/
def findAll (h : Heap L N) (fuel : ℕ) (name : String) : ℕ → Ptr L N → Option (List (Ptr L N))
  | 0, _ => none
  | calls + 1, start => do
    match ← h.listFind fuel start name with
    | none => return []
    | some node =>
      let nodes ← findAll h fuel name calls node
      return node :: nodes

end Heap

section

variable {h : Heap L N} {l : L} {name : String} {bs : List N}

/-- Where the loop of `list_find` ends: at the first node of that name, at the end of the list,
or in `strcmp` with NULL. -/
theorem findScan_cases (name : String) (hL : Linked h.toLinks (bs.map .node ++ [Ptr.tail l]))
    (ht : h.next (.tail l) = none) {fuel : ℕ} (hfuel : bs.length < fuel) {first : Ptr L N} {rest : List (Ptr L N)}
    (hfirst : bs.map .node ++ [Ptr.tail l] = first :: rest) :
    (∃ cs m ds, bs = cs ++ m :: ds ∧ (∀ c ∈ cs, h.name c ≠ none ∧ h.name c ≠ some name) ∧
      h.name m = some name ∧ h.findScan name fuel first = some (some (.node m))) ∨
    ((∀ c ∈ bs, h.name c ≠ none ∧ h.name c ≠ some name) ∧ h.findScan name fuel first = some none) ∨
    ((∃ c ∈ bs, h.name c = none) ∧ h.findScan name fuel first = none) := by
  induction bs generalizing fuel first rest with
  | nil =>
    obtain ⟨rfl, rfl⟩ : Ptr.tail l = first ∧ [] = rest := by simpa using hfirst
    obtain ⟨fuel, rfl⟩ : ∃ k, fuel = k + 1 := ⟨fuel - 1, by simp at hfuel; omega⟩
    exact .inr (.inl ⟨nofun, by simp [Heap.findScan, ht]⟩)
  | cons b bs ih =>
    obtain ⟨fuel, rfl⟩ : ∃ k, fuel = k + 1 := ⟨fuel - 1, by simp at hfuel; omega⟩
    obtain ⟨rfl, rfl⟩ : Ptr.node b = first ∧ bs.map .node ++ [Ptr.tail l] = rest := by simpa using hfirst
    obtain ⟨-, vs, -, q, -, hq⟩ := exists_neighbours l [] bs
    rw [List.map_cons, List.cons_append, hq, linked_cons_cons] at hL
    obtain ⟨⟨hnext, -⟩, hL⟩ := hL
    cases hb : h.name b with
    | none =>
      refine .inr (.inr ⟨⟨b, List.mem_cons_self, hb⟩, ?_⟩)
      simp [Heap.findScan, hnext, Heap.nameAt, hb]
    | some other =>
      by_cases ho : other = name
      · subst ho
        refine .inl ⟨[], b, bs, rfl, nofun, hb, ?_⟩
        simp [Heap.findScan, hnext, Heap.nameAt, hb]
      · -- another name: the loop goes on behind `b`
        have hscan : h.findScan name (fuel + 1) (.node b) = h.findScan name fuel q := by
          simp [Heap.findScan, hnext, Heap.nameAt, hb, ho]
        have hpass : h.name b ≠ none ∧ h.name b ≠ some name := by simp [hb, ho]
        rw [hscan]
        rcases ih (hq ▸ hL) (by simp at hfuel; omega) hq with ⟨cs, m, ds, rfl, hcs, hm, he⟩ | ⟨hbs, he⟩ | ⟨hnull, he⟩
        · exact .inl ⟨b :: cs, m, ds, rfl, List.forall_mem_cons.mpr ⟨hpass, hcs⟩, hm, he⟩
        · exact .inr (.inl ⟨List.forall_mem_cons.mpr ⟨hpass, hbs⟩, he⟩)
        · obtain ⟨c, hc, hn⟩ := hnull
          exact .inr (.inr ⟨⟨c, List.mem_cons_of_mem _ hc, hn⟩, he⟩)

/-- One call on a well-formed list whose nodes have names: the first node of that name, or NULL. -/
theorem listFind_spec [DecidableEq L] {S : Set L} {f : Seqs L N} (R : Represents S h f) (hl : l ∈ S) (name : String)
    (hnamed : ∀ n ∈ f l, h.name n ≠ none) {fuel : ℕ} (hfuel : (f l).length < fuel) :
    h.listFind fuel (.head l) name = some (((f l).find? fun n => decide (h.name n = some name)).map .node) := by
  obtain ⟨-, vs, -, q, -, hq⟩ := exists_neighbours l [] (f l)
  have hL : Linked h.toLinks (.head l :: ((f l).map .node ++ [Ptr.tail l])) := R.linked l hl
  have hpass {cs : List N} (hcs : ∀ c ∈ cs, h.name c ≠ none ∧ h.name c ≠ some name) :
      cs.find? (fun n => decide (h.name n = some name)) = none :=
    List.find?_eq_none.mpr fun c hc => by simpa using (hcs c hc).2
  rw [hq, linked_cons_cons] at hL
  rw [Heap.listFind, hL.1.1]
  change h.findScan name fuel q = _
  rcases findScan_cases name (hq ▸ hL.2) (R.tailNext l hl) hfuel hq with
    ⟨cs, m, ds, hm, hcs, hname, he⟩ | ⟨hall, he⟩ | ⟨hnull, -⟩
  · rw [he, hm, List.find?_append, hpass hcs, List.find?_cons_of_pos (by simpa using hname)]
    rfl
  · rw [he, hpass hall]
    rfl
  · obtain ⟨c, hc, hn⟩ := hnull
    exact absurd hn (hnamed c hc)

/-- The names of nodes passed over are not the name searched. -/
theorem filter_named_of_passed (hcs : ∀ c ∈ bs, h.name c ≠ none ∧ h.name c ≠ some name) :
    bs.filter (fun n => decide (h.name n = some name)) = [] :=
  List.filter_eq_nil_iff.mpr fun c hc => by simpa using (hcs c hc).2

/-- What repeated calls of `list_find` return, from any address followed by the nodes `bs`: the
nodes of that name, if none of the nodes has the name NULL. -/
theorem findAll_eq {fuel : ℕ} {start : Ptr L N} (hL : Linked h.toLinks (start :: (bs.map .node ++ [Ptr.tail l])))
    (ht : h.next (.tail l) = none) (hfuel : bs.length < fuel) {calls : ℕ} (hcalls : bs.length < calls) :
    h.findAll fuel name calls start =
      if ∀ n ∈ bs, h.name n ≠ none then
        some ((bs.filter fun n => decide (h.name n = some name)).map .node) else none := by
  induction calls generalizing bs start with
  | zero => omega
  | succ calls ih =>
    obtain ⟨-, vs, -, q, -, hq⟩ := exists_neighbours l [] bs
    have hL' : Linked h.toLinks (bs.map .node ++ [Ptr.tail l]) := by
      rw [hq, linked_cons_cons] at hL
      rw [hq]
      exact hL.2
    have hfind : h.listFind fuel start name = h.findScan name fuel q := by
      rw [hq, linked_cons_cons] at hL
      rw [Heap.listFind, hL.1.1]
      rfl
    rw [Heap.findAll, hfind]
    rcases findScan_cases name hL' ht hfuel hq with ⟨cs, m, ds, rfl, hcs, hm, he⟩ | ⟨hbs, he⟩ | ⟨hnull, he⟩
    · -- a node is found, and the search goes on from it
      have hLm : Linked h.toLinks (.node m :: (ds.map .node ++ [Ptr.tail l])) := by
        rw [List.map_append, List.map_cons, List.append_assoc, List.cons_append, linked_split] at hL'
        exact hL'.2
      simp only [List.length_append, List.length_cons] at hfuel hcalls
      have hrest := ih hLm (by omega) (by omega)
      have hiff : (∀ n ∈ cs ++ m :: ds, h.name n ≠ none) ↔ ∀ n ∈ ds, h.name n ≠ none := by
        rw [List.forall_mem_append, List.forall_mem_cons]
        exact ⟨fun hx => hx.2.2, fun hx => ⟨fun c hc => (hcs c hc).1, by simp [hm], hx⟩⟩
      rw [he, List.filter_append, filter_named_of_passed hcs, List.filter_cons_of_pos (by simpa using hm)]
      simp only [hiff, Option.bind_eq_bind, Option.bind_some, hrest]
      split <;> rfl
    · rw [he, filter_named_of_passed hbs, if_pos fun c hc => (hbs c hc).1]
      rfl
    · obtain ⟨c, hc, hn⟩ := hnull
      rw [he, if_neg fun hx => hx c hc hn]
      rfl

/-- **`list_find` enumerates the nodes of a name.** On a well-formed list, calling `list_find`
on the list and then on each node found returns, one by one and in the order of the list,
exactly the nodes of that name, and then NULL — exactly if every node of the list has a name. -/
theorem list_find_enumerates_iff [DecidableEq L] {S : Set L} {f : Seqs L N} (R : Represents S h f) (hl : l ∈ S)
    (name : String) {fuel : ℕ} (hfuel : (f l).length < fuel) :
    h.findAll fuel name fuel (.head l) = some (((f l).filter fun n => decide (h.name n = some name)).map .node) ↔
      ∀ n ∈ f l, h.name n ≠ none := by
  rw [findAll_eq (R.linked l hl) (R.tailNext l hl) hfuel hfuel]
  constructor
  · intro he
    by_contra hnull
    rw [if_neg hnull] at he
    cases he
  · exact fun hnamed => if_pos hnamed

end

/-- The theorem at two nodes of one name. -/
theorem list_find_enumerates_iff_pair : ∃ h : Heap Unit ℕ, Represents {l | l ∈ [()]} h (fun _ => [1, 2]) ∧
    h.findAll 3 "one" 3 (.head ()) = some [.node 1, .node 2] := by
  obtain ⟨h, R, hname⟩ := exists_examplePair fun _ => some "one"
  have hl : () ∈ {l | l ∈ [()]} := by simp
  have hfuel : [1, 2].length < 3 := by simp
  have he := (list_find_enumerates_iff R hl "one" hfuel).mpr (by simp [hname])
  exact ⟨h, R, by simpa [hname] using he⟩

/-- What the header says fails when a node has the name NULL: `list_find` compares it. -/
theorem list_find_null_name : ¬ ∀ (S : Set Unit) (h : Heap Unit ℕ) (f : Seqs Unit ℕ) (l : Unit) (name : String)
    (fuel : ℕ), Represents S h f → l ∈ S → (f l).length < fuel →
    h.findAll fuel name fuel (.head l) =
      some (((f l).filter fun n => decide (h.name n = some name)).map .node) := by
  intro hall
  obtain ⟨h, R, hname⟩ := exists_examplePair fun n => if n = 1 then none else some "two"
  have hl : () ∈ {l | l ∈ [()]} := by simp
  have hfuel : [1, 2].length < 3 := by simp
  have hnull : ¬ ∀ n ∈ [1, 2], h.name n ≠ none := by simp [hname]
  have he : h.findAll 3 "two" 3 (.head ()) = _ := findAll_eq (R.linked () hl) (R.tailNext () hl) hfuel hfuel
  rw [if_neg hnull, hall _ h _ () "two" 3 R hl hfuel] at he
  cases he

end Martos
