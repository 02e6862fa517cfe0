import Martos.Core.Placement
import Martos.Lists.Families
import Martos.Services.Kernel
import Martos.Store.Kernel

/-!
# A store that depicts a kernel

`Depicts S st k` says that the store `st` holds the kernel's data `k`: its lists are well formed
and hold the sequences which they have in `k`, and everything else is the same. `S` are the
headers that have been initialised.

A function that uses no list does the same whatever the sequences are (`Oblivious`), so that at
work on the store's data it keeps the picture (`Depicts.lift`). A list function keeps it where the
operation on sequences is within its contract; that operation is one on the family of lists of one
kind (`Seqs.Replaces`), and in the heap one on all lists.
-/

namespace Martos

open Checked DoublyLinked Agreement

/-! ### The sequences -/

/-- The data of `c` with other lists. -/
def Core.carrying (lists : Seqs TaskList TaskRef) (c : Core) : Core := { c with lists := lists }

namespace Kernel

variable (k₀ k : Kernel)

/-- The sequences on all lists. -/
def seqs : Seqs KernelList KernelNode
  | .tasks l => (k.core.lists l).map .task
  | .timers => (k.svc.timers ()).map .timer
  | .requests sem => (k.svc.reqQueue sem).map .request
  | .messages port => (k.svc.messageList port).map .message

/-- The data of `k` with the sequences of `k₀`. -/
def carrying : Kernel where
  core := k.core.carrying k₀.core.lists
  svc := { k.svc with reqQueue := k₀.svc.reqQueue, messageList := k₀.svc.messageList, timers := k₀.svc.timers }

/-- The data without the sequences. -/
def blank : Kernel where
  core := k.core.carrying fun _ => []
  svc := { k.svc with reqQueue := fun _ => [], messageList := fun _ => [], timers := fun _ => [] }

end Kernel

section

variable (k : Kernel)

theorem KernelList.tasks_injective : Function.Injective KernelList.tasks := fun _ _ h => KernelList.tasks.inj h

theorem KernelList.requests_injective : Function.Injective KernelList.requests := fun _ _ h => KernelList.requests.inj h

theorem KernelList.messages_injective : Function.Injective KernelList.messages := fun _ _ h => KernelList.messages.inj h

theorem KernelNode.task_injective : Function.Injective KernelNode.task := fun _ _ h => KernelNode.task.inj h

theorem KernelNode.timer_injective : Function.Injective KernelNode.timer := fun _ _ h => KernelNode.timer.inj h

theorem KernelNode.request_injective : Function.Injective KernelNode.request := fun _ _ h => KernelNode.request.inj h

theorem KernelNode.message_injective : Function.Injective KernelNode.message := fun _ _ h => KernelNode.message.inj h

/-- The only header of its kind. -/
theorem timersHeader_injective : Function.Injective fun _ : Unit => KernelList.timers := fun _ _ _ => rfl

theorem Kernel.tasks_within : Seqs.Within .tasks .task k.core.lists k.seqs where
  part _ := rfl
  only q t hm := by
    cases q with
    | tasks l => exact ⟨l, rfl⟩
    | timers => simp [seqs] at hm
    | requests sem => simp [seqs] at hm
    | messages port => simp [seqs] at hm

theorem Kernel.timers_within : Seqs.Within (fun _ => .timers) .timer k.svc.timers k.seqs where
  part _ := rfl
  only q tm hm := by
    cases q with
    | tasks l => simp [seqs] at hm
    | timers => exact ⟨(), rfl⟩
    | requests sem => simp [seqs] at hm
    | messages port => simp [seqs] at hm

theorem Kernel.requests_within : Seqs.Within .requests .request k.svc.reqQueue k.seqs where
  part _ := rfl
  only q req hm := by
    cases q with
    | tasks l => simp [seqs] at hm
    | timers => simp [seqs] at hm
    | requests sem => exact ⟨sem, rfl⟩
    | messages port => simp [seqs] at hm

theorem Kernel.messages_within : Seqs.Within .messages .message k.svc.messageList k.seqs where
  part _ := rfl
  only q message hm := by
    cases q with
    | tasks l => simp [seqs] at hm
    | timers => simp [seqs] at hm
    | requests sem => simp [seqs] at hm
    | messages port => exact ⟨port, rfl⟩

/-- Other lists of tasks. -/
theorem Kernel.replaces_tasks (lists : Seqs TaskList TaskRef) : Seqs.Replaces .tasks .task k.core.lists k.seqs lists
    (Kernel.seqs { k with core := { k.core with lists := lists } }) where
  before := k.tasks_within
  after := Kernel.tasks_within { k with core := { k.core with lists := lists } }
  rest q hq := by
    cases q with
    | tasks l => exact absurd rfl (hq l)
    | _ => rfl

/-- Another queue of timers. -/
theorem Kernel.replaces_timers (timers : Seqs Unit TimerRef) :
    Seqs.Replaces (fun _ => .timers) .timer k.svc.timers k.seqs timers
      (Kernel.seqs { k with svc := { k.svc with timers := timers } }) where
  before := k.timers_within
  after := Kernel.timers_within { k with svc := { k.svc with timers := timers } }
  rest q hq := by
    cases q with
    | timers => exact absurd rfl (hq ())
    | _ => rfl

/-- Other queues of requests. -/
theorem Kernel.replaces_requests (reqQueue : Seqs SemRef ReqRef) :
    Seqs.Replaces .requests .request k.svc.reqQueue k.seqs reqQueue
      (Kernel.seqs { k with svc := { k.svc with reqQueue := reqQueue } }) where
  before := k.requests_within
  after := Kernel.requests_within { k with svc := { k.svc with reqQueue := reqQueue } }
  rest q hq := by
    cases q with
    | requests sem => exact absurd rfl (hq sem)
    | _ => rfl

/-- Other lists of messages. -/
theorem Kernel.replaces_messages (messageList : Seqs PortRef MsgRef) :
    Seqs.Replaces .messages .message k.svc.messageList k.seqs messageList
      (Kernel.seqs { k with svc := { k.svc with messageList := messageList } }) where
  before := k.messages_within
  after := Kernel.messages_within { k with svc := { k.svc with messageList := messageList } }
  rest q hq := by
    cases q with
    | messages port => exact absurd rfl (hq port)
    | _ => rfl

end

/-! ### The picture -/

/-- The store holds the kernel's data, and the lists `S` have been initialised. -/
structure Depicts (S : Set KernelList) (st : Store) (k : Kernel) : Prop where
  /-- The data. -/
  data : st.data = k.blank
  /-- The lists. -/
  lists : Represents S st.heap k.seqs

/-- The links of the nodes of timers are the same. -/
def Store.SameTimers (st st' : Store) : Prop :=
  ∀ tm, st'.links.next (.node (.timer tm)) = st.links.next (.node (.timer tm))

/-- The function neither reads nor writes the sequences. -/
def Oblivious (f : Kernel → Except Fault Kernel) : Prop :=
  ∀ k₀ : Kernel, Commutes (Kernel.carrying k₀) (Kernel.carrying k₀) f

section

variable {S : Set KernelList} {st : Store} {k k' : Kernel} {l : KernelList} {n : KernelNode} {N : ℕ}

/-- A store is given by its links. -/
theorem Depicts.eta (h : Depicts S st k) : ∃ links, st = ⟨links, k.blank⟩ := by
  obtain ⟨links, data⟩ := st
  obtain rfl : data = k.blank := h.data
  exact ⟨links, rfl⟩

/-- Every pointer is NULL, and nothing is on a list. -/
theorem Depicts.uninitialised (hs : k.seqs = fun _ => []) :
    Depicts ∅ ⟨⟨fun _ => none, fun _ => none⟩, k.blank⟩ k where
  data := rfl
  lists := by
    rw [hs]
    exact {
      linked := fun l hl => absurd hl (Set.notMem_empty l)
      headPrev := fun l hl => absurd hl (Set.notMem_empty l)
      tailNext := fun l hl => absurd hl (Set.notMem_empty l)
      separate := ⟨fun _ => List.nodup_nil, nofun⟩
      outside := fun _ _ => rfl }

/-- A write to the data. -/
theorem Depicts.write (h : Depicts S st k) {data : Kernel} (hd : data = k'.blank) (hs : k'.seqs = k.seqs) :
    Depicts S { st with data := data } k' where
  data := hd
  lists := by
    rw [hs]
    exact h.lists.congr_links rfl

/-- What a list function leaves. -/
theorem Depicts.put (h : Depicts S st k) {heap : Heap KernelList KernelNode} (hR : Represents S heap k'.seqs)
    (hb : k'.blank = k.blank) : Depicts S (st.put heap) k' where
  data := h.data.trans hb.symm
  lists := hR.congr_links rfl

/-- A function that uses no list. -/
theorem Depicts.lift (h : Depicts S st k) {f : Kernel → Except Fault Kernel} (hf : Oblivious f) :
    Agrees N Fault.OfLists (fun st' k' => Depicts S st' k' ∧ st'.links = st.links ∧ k'.seqs = k.seqs)
      (fun _ => st.lift f) (f k) := by
  obtain ⟨links, rfl⟩ := h.eta
  rcases (hf k.blank).cases k with ⟨k', hk, hblank⟩ | ⟨e, hk, hblank⟩
  · have hself : f k = do return Kernel.carrying k (← f k) := hf k k
    have hseqs : k'.seqs = k.seqs := by
      rw [hk] at hself
      rw [show k' = Kernel.carrying k k' from Except.ok.inj hself]
      rfl
    rw [hk]
    refine .ok (a := ⟨links, k'.blank⟩) ⟨h.write rfl hseqs, rfl, hseqs⟩ fun _ _ => ?_
    rw [Store.lift, show f k.blank = .ok k'.blank from hblank]
    rfl
  · rw [hk]
    refine .stops fun _ => ?_
    rw [Store.lift, show f k.blank = .error e from hblank]
    rfl

/-! ### The list functions -/

/-- `list_unlink` of a node that is on a list. -/
theorem Depicts.listUnlink (h : Depicts S st k) (hn : n ∈ k.seqs l) (hs : k.seqs.listUnlink n = k'.seqs)
    (hb : k'.blank = k.blank) : ∃ st', st.listUnlink n = some st' ∧ Depicts S st' k' ∧
      ∀ p ∉ k'.seqs.spine l, st'.links.next p = st.links.next p := by
  obtain ⟨heap, he, hoff, hR⟩ := listUnlink_spec h.lists hn
  rw [hs] at hR hoff
  refine ⟨st.put heap, ?_, h.put hR hb, hoff.next⟩
  rw [Store.listUnlink, he]
  rfl

/-- `list_add_tail` of a node that is on no list. -/
theorem Depicts.listAddTail (h : Depicts S st k) (hl : l ∈ S) (hn : k.seqs.Off n)
    (hs : k.seqs.listAddTail l n = k'.seqs) (hb : k'.blank = k.blank) :
    ∃ st', st.listAddTail l n = some st' ∧ Depicts S st' k' := by
  obtain ⟨heap, he, -, hR⟩ := listAddTail_spec h.lists hl hn
  rw [hs] at hR
  refine ⟨st.put heap, ?_, h.put hR hb⟩
  rw [Store.listAddTail, he]
  rfl

/-- `list_enqueue` of a node that is on no list. Its loop makes no more passes than there are nodes. -/
theorem Depicts.listEnqueue (h : Depicts S st k) (hl : l ∈ S) (hn : k.seqs.Off n)
    (hs : k.seqs.listEnqueue st.heap.prio l n = k'.seqs) (hb : k'.blank = k.blank) :
    ∃ st', (∀ fuel, (k.seqs l).length < fuel → st.listEnqueue fuel l n = some st') ∧ Depicts S st' k' ∧
      ∀ p ∉ k'.seqs.spine l, st'.links.next p = st.links.next p := by
  obtain ⟨heap, he, hoff, hR⟩ := listEnqueue_spec h.lists hl hn
  rw [hs] at hR hoff
  refine ⟨st.put heap, fun fuel hfuel => ?_, h.put hR hb, hoff.next⟩
  rw [Store.listEnqueue, he fuel hfuel]
  rfl

/-- `list_rem_head`. -/
theorem Depicts.listRemHead (h : Depicts S st k) (hl : l ∈ S) {x : Option KernelNode}
    (hs : k.seqs.listRemHead l = (x, k'.seqs)) (hb : k'.blank = k.blank) :
    ∃ st', st.listRemHead l = some (x.map .node, st') ∧ Depicts S st' k' := by
  obtain ⟨heap, he, -, hR⟩ := listRemHead_spec h.lists hl
  obtain ⟨rfl, hseqs⟩ := Prod.mk.inj hs
  rw [show (k.seqs.listRemHead l).2 = k'.seqs from hseqs] at hR
  refine ⟨st.put heap, ?_, h.put hR hb⟩
  rw [Store.listRemHead, he]
  rfl

/-- `list_init`, of any header. -/
theorem Depicts.listInit (h : Depicts S st k) (l : KernelList) (hs : Function.update k.seqs l [] = k'.seqs)
    (hb : k'.blank = k.blank) : Depicts (S ∪ {l}) (st.listInit l) k' where
  data := h.data.trans hb.symm
  lists := hs ▸ (h.lists.listInit l).congr_links rfl

/-- `list_is_empty`. -/
theorem Depicts.listIsEmpty (h : Depicts S st k) (hl : l ∈ S) : st.listIsEmpty l = (k.seqs l).isEmpty :=
  listIsEmpty_spec h.lists hl

/-! ### Writes to the data -/

theorem Depicts.withCore (h : Depicts S st k) {c d : Core} (hc : c = d.carrying fun _ => [])
    (hl : d.lists = k.core.lists) : Depicts S (st.withCore c) { k with core := d } := by
  obtain ⟨links, rfl⟩ := h.eta
  refine h.write (hc ▸ rfl) ?_
  funext q
  cases q with
  | tasks l => exact congrArg (List.map KernelNode.task) (congrFun hl l)
  | _ => rfl

theorem Depicts.modTask (h : Depicts S st k) (t : TaskRef) (f : Task → Task) :
    Depicts S (st.modTask t f) { k with core := k.core.modTask t f } := by
  obtain ⟨links, rfl⟩ := h.eta
  exact h.write rfl rfl

theorem Depicts.modTimer (h : Depicts S st k) (tm : TimerRef) (f : Timer → Timer) :
    Depicts S (st.modTimer tm f) { k with svc := k.svc.modTimer tm f } := by
  obtain ⟨links, rfl⟩ := h.eta
  exact h.write rfl rfl

theorem Depicts.disable (h : Depicts S st k) : Depicts S st.disable k.disable := by
  obtain ⟨links, rfl⟩ := h.eta
  exact h.write rfl rfl

theorem Depicts.reschedule (h : Depicts S st k) : Depicts S st.reschedule { k with core := k.core.reschedule } := by
  obtain ⟨links, rfl⟩ := h.eta
  exact h.write rfl rfl

end

end Martos
