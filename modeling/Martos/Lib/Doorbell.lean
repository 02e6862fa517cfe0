import Mathlib.Data.List.Basic

/-!
# A queue with a doorbell

Producers put items on a queue and ring a bell, which has only two states. The consumer
turns the bell on, waits for it, silences it and then takes one item; it may also look at the
queue without waiting. So one ring can stand for many items, and an item can be gone while
its ring is still there.

Two things go wrong then, and each has its own condition: the consumer waits beside items
nobody rings for, unless it starts waiting on an empty queue or a bell that rings
(`Heard.step`); and the bell calls it to an empty queue, unless it leaves the last item alone
while the bell rings (`Backed.step`).
-/

namespace Doorbell

variable {α : Type*}

/-- Where the consumer is. -/
inductive Stage where
  /-- Elsewhere. -/
  | away
  /-- Waiting for the bell. -/
  | waiting
  /-- The bell has called it. -/
  | called
  deriving DecidableEq

/-- A queue, a bell and a consumer. -/
structure State (α : Type*) where
  /-- The items. -/
  queue : List α
  /-- The bell rings. -/
  rings : Bool
  /-- The bell is on. -/
  on : Bool
  /-- The consumer. -/
  stage : Stage

/-- What can happen. -/
inductive Event (α : Type*) where
  /-- An item comes, and the bell rings if it is on. -/
  | push (a : α)
  /-- The consumer turns the bell on and begins to wait. -/
  | wait
  /-- The bell calls it. -/
  | wake
  /-- It gives up waiting. -/
  | leave
  /-- It takes the item it was called for. -/
  | pop
  /-- It takes an item without having waited. -/
  | poll
  /-- Nothing. -/
  | skip

/-- The steps of the queue and the bell. -/
inductive Step (s : State α) : Event α → State α → Prop where
  /-- The item goes to the end of the queue; a bell that is on rings. -/
  | push (a : α) : Step s (.push a) { s with queue := s.queue ++ [a], rings := s.rings || s.on }
  /-- The bell is on from now. -/
  | wait (h : s.stage = .away) : Step s .wait { s with on := true, stage := .waiting }
  /-- The bell stops ringing. -/
  | wake (h : s.stage = .waiting) (hr : s.rings = true) : Step s .wake { s with rings := false, stage := .called }
  /-- Nothing has rung. -/
  | leave (h : s.stage = .waiting) (hr : s.rings = false) : Step s .leave { s with stage := .away }
  /-- The first item is taken, if there is one. -/
  | pop (h : s.stage = .called) : Step s .pop { s with queue := s.queue.tail, stage := .away }
  /-- The same, and the bell rings on. -/
  | poll (h : s.stage = .away) : Step s .poll { s with queue := s.queue.tail }
  /-- Nothing happens. -/
  | skip : Step s .skip s

/-- The items that wait are heard: while the consumer waits the bell is on, and rings if there
are items. -/
structure Heard (s : State α) : Prop where
  /-- The bell is on. -/
  on : s.stage = .waiting → s.on = true
  /-- It rings if there are items. -/
  rings : s.stage = .waiting → s.queue ≠ [] → s.rings = true

/-- A bell that rings is backed by an item; while the consumer is on its way to the queue, by
one more than it is going to take. -/
structure Backed (s : State α) : Prop where
  /-- There is an item if it rings. -/
  item : s.rings = true → s.queue ≠ []
  /-- There is one for the consumer. -/
  called : s.stage = .called → s.queue ≠ []
  /-- There is another one for a bell that rings again. -/
  more : s.stage = .called → s.rings = true → 2 ≤ s.queue.length

variable {s s' : State α} {e : Event α}

/-- What waits is heard as long as the consumer begins to wait only where the queue is empty or
the bell rings. -/
theorem Heard.step (h : Heard s) (hst : Step s e s') (hc : e = .wait → s.queue ≠ [] → s.rings = true) : Heard s' := by
  cases hst with
  | push a =>
    refine ⟨h.on, fun hw _ => ?_⟩
    simp [h.on hw]
  | wait ha => exact ⟨fun _ => rfl, fun _ => hc rfl⟩
  | wake hw hr => exact ⟨nofun, nofun⟩
  | leave hw hr => exact ⟨nofun, nofun⟩
  | pop hw => exact ⟨nofun, nofun⟩
  | poll ha =>
    constructor
    · exact h.on
    · intro hw
      cases ha.symm.trans hw
  | skip => exact h

/-- A consumer that waits stops waiting when the bell calls it, or leaves an empty queue. -/
theorem Heard.stops (h : Heard s) (hst : Step s e s') (hw : s.stage = .waiting) (hw' : s'.stage ≠ .waiting) :
    s'.stage = .called ∨ (s.queue = [] ∧ s'.queue = []) := by
  cases hst with
  | push a => exact absurd hw hw'
  | wait ha => exact absurd rfl hw'
  | wake _ hr => exact .inl rfl
  | leave _ hr =>
    have hnil : s.queue = [] := by
      by_contra hne
      cases hr.symm.trans (h.rings hw hne)
    exact .inr ⟨hnil, hnil⟩
  | pop hc => cases hw.symm.trans hc
  | poll ha => cases hw.symm.trans ha
  | skip => exact absurd hw hw'

/-- The bell is backed as long as the consumer does not look at the queue while the bell rings
for a last item. -/
theorem Backed.step (h : Backed s) (hst : Step s e s') (hc : e = .poll → s.rings = true → s.queue.length ≠ 1) :
    Backed s' := by
  cases hst with
  | push a =>
    refine ⟨fun _ => by simp, fun _ => by simp, fun hw _ => ?_⟩
    have hpos := List.length_pos_of_ne_nil (h.called hw)
    simp only [List.length_append, List.length_singleton]
    omega
  | wait ha => exact ⟨h.item, nofun, nofun⟩
  | wake hw hr => exact ⟨nofun, fun _ => h.item hr, nofun⟩
  | leave hw hr => exact ⟨h.item, nofun, nofun⟩
  | pop hw =>
    refine ⟨fun hr => ?_, nofun, nofun⟩
    have hlen := h.more hw hr
    refine List.ne_nil_of_length_pos ?_
    rw [List.length_tail]
    omega
  | poll ha =>
    refine ⟨fun hr => ?_, fun hw => ?_, fun hw => ?_⟩
    · have hpos := List.length_pos_of_ne_nil (h.item hr)
      have hone := hc rfl hr
      refine List.ne_nil_of_length_pos ?_
      rw [List.length_tail]
      omega
    · cases ha.symm.trans hw
    · cases ha.symm.trans hw
  | skip => exact h

end Doorbell
