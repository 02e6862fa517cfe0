import Martos.Lib.Linked

/-!
# The list functions of `list.c`

The pointer operations as the C code performs them, write by write. A list header
holds two `MinNode` sentinels, `head` and `tail`; a node holds two links, a name and
a priority. All nodes and all headers live in one `Heap`; a non-NULL pointer is the
address of a sentinel or of a node (`Ptr`), and `none` is NULL. An operation returns
`none` when it follows a NULL pointer, or reads the priority of a sentinel, which has
none.

The scan of `list_enqueue` is a loop over the heap and takes fuel; `none` also stands
for running out of it. `Lists.Refinement` proves that on well-formed lists it does
not, once the fuel exceeds the length of the list.
-/

namespace Martos

open DoublyLinked

/-- An address: a sentinel of a list header, or a node. -/
inductive Ptr (L : Type) (N : Type) where
  /-- `&list->head`. -/
  | head (list : L)
  /-- `&list->tail`. -/
  | tail (list : L)
  /-- A `Node`, or a structure that begins with one. -/
  | node (n : N)
  deriving DecidableEq

/-- The memory of the lists: the links of the sentinels and of the nodes, and the
other fields of a node. -/
@[ext]
structure Heap (L : Type) (N : Type) extends Links (Ptr L N) where
  /-- `node->name`, which may be NULL. -/
  name : N → Option String
  /-- `node->prio`. -/
  prio : N → ℤ

namespace Heap

variable {L : Type} {N : Type}

/-- `p->prio`: a sentinel is a `MinNode` and has no priority. -/
def prioAt (h : Heap L N) : Ptr L N → Option ℤ
  | .node n => some (h.prio n)
  | _ => none

variable [DecidableEq L] [DecidableEq N]

/-- `p->next = v`. -/
def setNext (h : Heap L N) (p : Ptr L N) (v : Option (Ptr L N)) : Heap L N :=
  { h with next := Function.update h.next p v }

/-- `p->prev = v`. -/
def setPrev (h : Heap L N) (p : Ptr L N) (v : Option (Ptr L N)) : Heap L N :=
  { h with prev := Function.update h.prev p v }

/-- `list_unlink`. -/
def listUnlink (node : Ptr L N) (h : Heap L N) : Option (Heap L N) := do
  let p ← h.prev node
  let h := h.setNext p (h.next node)
  let q ← h.next node
  return h.setPrev q (h.prev node)

/-- `list_init`. -/
def listInit (list : L) (h : Heap L N) : Heap L N :=
  let h := h.setNext (.head list) (some (.tail list))
  let h := h.setPrev (.head list) none
  let h := h.setNext (.tail list) none
  h.setPrev (.tail list) (some (.head list))

/-- `list_is_empty`. -/
def listIsEmpty (list : L) (h : Heap L N) : Bool :=
  decide (some (.head list) = h.prev (.tail list))

/-- `list_add_tail`. -/
def listAddTail (list : L) (node : Ptr L N) (h : Heap L N) : Option (Heap L N) := do
  let h := h.setNext node (some (.tail list))
  let h := h.setPrev node (h.prev (.tail list))
  let p ← h.prev (.tail list)
  let h := h.setNext p (some node)
  return h.setPrev (.tail list) (some node)

/-- `list_get_head`. -/
def listGetHead (list : L) (h : Heap L N) : Option (Ptr L N) :=
  if h.listIsEmpty list then none else h.next (.head list)

/-- `list_rem_head`. -/
def listRemHead (list : L) (h : Heap L N) : Option (Option (Ptr L N) × Heap L N) :=
  match h.listGetHead list with
  | none => some (none, h)
  | some node => do
    let h ← h.listUnlink node
    return (some node, h)

/-- `list_insert`. With `prev == NULL` the call of `list_add_head` is commented out
and nothing is inserted. -/
def listInsert (list : L) (node : Ptr L N) (prev : Option (Ptr L N)) (h : Heap L N) :
    Option (Heap L N) :=
  match prev with
  | none => some h
  | some prev =>
    match h.next prev with
    | some _ => do
      let h := h.setNext node (h.next prev)
      let h := h.setPrev node (some prev)
      let q ← h.next prev
      let h := h.setPrev q (some node)
      return h.setNext prev (some node)
    | none => h.listAddTail list node

/-- The loop of `list_enqueue`: from `nextnode` on, the first node of lower priority
than `node`, or the tail sentinel, which is the one with `next == NULL`. -/
def enqueueScan (h : Heap L N) (node : Ptr L N) : ℕ → Ptr L N → Option (Ptr L N)
  | 0, _ => none
  | fuel + 1, nextnode =>
    match h.next nextnode with
    | none => some nextnode
    | some next => do
      let a ← h.prioAt nextnode
      let b ← h.prioAt node
      if a < b then return nextnode else enqueueScan h node fuel next

/-- `list_enqueue`. -/
def listEnqueue (fuel : ℕ) (list : L) (node : Ptr L N) (h : Heap L N) : Option (Heap L N) := do
  let first ← h.next (.head list)
  let nextnode ← h.enqueueScan node fuel first
  let h := h.setNext node (some nextnode)
  let h := h.setPrev node (h.prev nextnode)
  let p ← h.prev nextnode
  let h := h.setNext p (some node)
  return h.setPrev nextnode (some node)

end Heap

end Martos
