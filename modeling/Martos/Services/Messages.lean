import Martos.Services.Soundness

/-!
# Message ports deliver in order, exactly once

A message travels between ports by relinking: `msgport_send` puts it at the end of a port's
list, `msgport_get` takes it from the front, `msgport_reply` sends it on. What a run has
sent to a port and what it has got from it are read off the run's moves (`sentTo`,
`gotFrom`); in every state the messages got, followed by those still queued, are the
messages sent (`Sound.delivers`).
-/

namespace Martos

open Checked Transition

/-- The call that does not block which the event is, by a task or an interrupt handler. -/
def SysEvent.service : SysEvent → Option Service
  | .call (.service a) => some a
  | .isr a => some a
  | _ => none

/-- Such an event is that call. -/
theorem Sys.Step.execService_eq {s s' : Sys} {e : SysEvent} {a : Service} (hst : s.Step e s')
    (ha : e.service = some a) :
    s.execService a = .ok s' := by
  cases e with
  | call k =>
    cases k with
    | service b =>
      obtain rfl := Option.some.inj ha
      exact hst.2
    | _ => cases ha
  | isr b =>
    obtain rfl := Option.some.inj ha
    exact hst.2
  | _ => cases ha

/-- The message that the call sends to port `p`. -/
def Service.sentTo (p : PortRef) (svc : Services) : Service → Option MsgRef
  | .msgportSend q m => if q = p then some m else none
  | .msgportReply m => if svc.replyPort m = some p then some m else none
  | _ => none

/-- The message that the call returns from port `p`. -/
def Service.gotFrom (p : PortRef) (k : Kernel) : Service → Option MsgRef
  | .msgportGet q =>
    if q = p then
      match Martos.msgportGet q k with
      | .ok (msg, _) => msg
      | .error _ => none
    else none
  | _ => none

/-- The message sent to port `p` in a move. -/
def Sys.sentTo (p : PortRef) (m : Move Sys SysEvent) : Option MsgRef :=
  m.event.service.bind (Service.sentTo p m.pre.svc)

/-- The message returned from port `p` in a move. -/
def Sys.gotFrom (p : PortRef) (m : Move Sys SysEvent) : Option MsgRef :=
  m.event.service.bind (Service.gotFrom p m.pre.kernel)

/-- Ports that have not been initialised have no messages. -/
def Unused (s : Sys) : Prop := ∀ p, (s.svc.port p).action = .invalid → s.svc.messageList p = []

section

variable {s s' : Sys} {e : SysEvent} {p : PortRef}

theorem Sys.Calls.service_eq {a : Service} (h : s.Calls e a) : e.service = some a := by
  rcases h.1 with ⟨rfl, -⟩ | ⟨rfl, -⟩ <;> rfl

theorem Unused.step (h : Unused s) (heff : SysEffect s e s') : Unused s' := by
  intro q hq
  cases heff with
  | @portInit p sg cs hu ha hst hsg =>
    by_cases hqp : q = p
    · subst hqp; exact Function.update_self ..
    · have hport : Function.update s.svc.port p ⟨some s.cs.core.running, sg, .signal⟩ q = s.svc.port q :=
        Function.update_of_ne hqp ..
      exact (Function.update_of_ne hqp ..).trans (h q ((congrArg MsgPort.action hport).symm.trans hq))
  | @got e p hc =>
    by_cases hqp : q = p
    · subst hqp; exact (Function.update_self ..).trans (by rw [h q hq]; rfl)
    · exact (Function.update_of_ne hqp ..).trans (h q hq)
  | @sent e p m cs hc hm ha hs =>
    have hqp : q ≠ p := fun he => ha (he ▸ hq)
    exact (Function.update_of_ne hqp ..).trans (h q hq)
  | @write w hu hw =>
    cases w with
    | port p value =>
      by_cases hqp : q = p
      · subst hqp
        exact absurd ((congrArg MsgPort.action (Function.update_self ..)).symm.trans hq) hw.2
      · have hport : Function.update s.svc.port p value q = s.svc.port q := Function.update_of_ne hqp ..
        exact h q ((congrArg MsgPort.action hport).symm.trans hq)
    | _ => exact h q hq
  | _ => exact h q hq

theorem Sound.gotFrom_get (h : Sound s) {q : PortRef} (hc : s.Calls e (.msgportGet q)) :
    Sys.gotFrom p ⟨s, e, s'⟩ = if q = p then (s.svc.messageList q).head? else none := by
  rw [Sys.gotFrom, hc.service_eq]
  simp only [Option.bind_some, Service.gotFrom, msgportGet_eq (k := s.kernel) h.nested.balanced]
  rfl

theorem Sys.sentTo_send {q : PortRef} {m : MsgRef}
    (hc : s.Calls e (.msgportSend q m) ∨ (s.Calls e (.msgportReply m) ∧ s.svc.replyPort m = some q)) :
    Sys.sentTo p ⟨s, e, s'⟩ = (if q = p then some m else none) ∧ Sys.gotFrom p ⟨s, e, s'⟩ = none := by
  rcases hc with hc | ⟨hc, hq⟩
  · exact ⟨by rw [Sys.sentTo, hc.service_eq]; rfl, by rw [Sys.gotFrom, hc.service_eq]; rfl⟩
  · refine ⟨?_, by rw [Sys.gotFrom, hc.service_eq]; rfl⟩
    rw [Sys.sentTo, hc.service_eq]
    simp only [Option.bind_some, Service.sentTo, hq, Option.some.injEq]

/-- What one step does to a port: the message got leaves at the front, the message sent
comes at the end. -/
theorem Sound.delivers_step (h : Sound s) (hun : Unused s) (heff : SysEffect s e s') :
    (Sys.gotFrom p ⟨s, e, s'⟩).toList ++ s'.svc.messageList p =
      s.svc.messageList p ++ (Sys.sentTo p ⟨s, e, s'⟩).toList := by
  have hsame (hl : s'.svc.messageList p = s.svc.messageList p) (hg : Sys.gotFrom p ⟨s, e, s'⟩ = none)
      (hs : Sys.sentTo p ⟨s, e, s'⟩ = none) : (Sys.gotFrom p ⟨s, e, s'⟩).toList ++ s'.svc.messageList p =
      s.svc.messageList p ++ (Sys.sentTo p ⟨s, e, s'⟩).toList := by
    rw [hl, hg, hs]
    simp
  have hother {a : Service} (hc : s.Calls e a) (hl : s'.svc.messageList p = s.svc.messageList p)
      (hg : a.gotFrom p s.kernel = none) (hs : a.sentTo p s.svc = none) :
      (Sys.gotFrom p ⟨s, e, s'⟩).toList ++ s'.svc.messageList p =
        s.svc.messageList p ++ (Sys.sentTo p ⟨s, e, s'⟩).toList :=
    hsame hl (by rw [Sys.gotFrom, hc.service_eq]; exact hg) (by rw [Sys.sentTo, hc.service_eq]; exact hs)
  cases heff with
  | @portInit q sg cs hu ha hst hsg =>
    refine hsame ?_ rfl rfl
    by_cases hqp : p = q
    · subst hqp; exact (Function.update_self ..).trans (hun p ha).symm
    · exact Function.update_of_ne hqp ..
  | @got e q hc =>
    by_cases hqp : q = p
    · subst hqp
      rw [h.gotFrom_get hc, if_pos rfl, Sys.sentTo, hc.service_eq]
      change _ ++ (s.svc.messageList.listRemHead q).2 q = _ ++ []
      rw [Seqs.listRemHead_self, List.append_nil]
      cases s.svc.messageList q <;> rfl
    · exact hother hc (Function.update_of_ne (Ne.symm hqp) ..) (if_neg hqp) rfl
  | @sent e q m cs hc hm ha hs =>
    rw [(Sys.sentTo_send hc).1, (Sys.sentTo_send hc).2]
    change [] ++ s.svc.messageList.listAddTail q m p = _
    by_cases hqp : q = p
    · subst hqp; simp
    · simp [hqp, Ne.symm hqp]
  | semInit hc => exact hother hc rfl rfl rfl
  | requests hc => exact hother hc rfl rfl rfl
  | released hc hn => exact hother hc rfl rfl rfl
  | grants hc hn hh hs => exact hother hc rfl rfl rfl
  | aborts hc ha hm => exact hother hc rfl rfl rfl
  | abortsNot hc ha => exact hother hc rfl rfl rfl
  | @write w hu hw => cases w <;> exact hsame rfl rfl rfl
  | _ => exact hsame rfl rfl rfl

/-- Over a run: what was got from the port, and then what is queued, is what was sent. -/
theorem delivers {cfg : Config} {c : Core} {tr : List (Move Sys SysEvent)} (h : martosPre cfg = .ok c)
    (hr : Run Sys.Step (Sys.start c) tr s) : Unused s ∧
    ∀ p, tr.filterMap (Sys.gotFrom p) ++ s.svc.messageList p = tr.filterMap (Sys.sentTo p) := by
  refine hr.history (P := fun tr s => Unused s ∧
    ∀ p, tr.filterMap (Sys.gotFrom p) ++ s.svc.messageList p = tr.filterMap (Sys.sentTo p))
    ⟨fun _ _ => rfl, fun _ => rfl⟩ ?_
  rintro tr s e s' hr ⟨hun, ih⟩ hst
  have hs := Sound.run h hr
  have heff := hs.effect hst
  refine ⟨hun.step heff, fun p => ?_⟩
  have hone (f : Move Sys SysEvent → Option MsgRef) : [(⟨s, e, s'⟩ : Move Sys SysEvent)].filterMap f =
      (f ⟨s, e, s'⟩).toList := by
    cases hf : f ⟨s, e, s'⟩ <;> simp [hf]
  calc List.filterMap (Sys.gotFrom p) (tr ++ [⟨s, e, s'⟩]) ++ s'.svc.messageList p
      = tr.filterMap (Sys.gotFrom p) ++ ((Sys.gotFrom p ⟨s, e, s'⟩).toList ++ s'.svc.messageList p) := by
        rw [List.filterMap_append, hone, List.append_assoc]
    _ = tr.filterMap (Sys.gotFrom p) ++ s.svc.messageList p ++ (Sys.sentTo p ⟨s, e, s'⟩).toList := by
        rw [hs.delivers_step hun heff, List.append_assoc]
    _ = List.filterMap (Sys.sentTo p) (tr ++ [⟨s, e, s'⟩]) := by
        rw [ih p, List.filterMap_append, hone]

theorem Sys.gotFrom_eq_none {m : Move Sys SysEvent} (hg : m.event.service ≠ some (.msgportGet p)) :
    Sys.gotFrom p m = none := by
  unfold Sys.gotFrom
  cases ha : m.event.service with
  | none => rfl
  | some a =>
    cases a with
    | msgportGet q =>
      have hqp : q ≠ p := fun he => hg (he ▸ ha)
      exact if_neg hqp
    | _ => rfl

/-- A step that neither gets from the port nor sends to it leaves its list alone. -/
theorem Sound.messageList_of_other (h : Sound s) (hun : Unused s) (heff : SysEffect s e s')
    (hg : e.service ≠ some (.msgportGet p)) (hs : Sys.sentTo p ⟨s, e, s'⟩ = none) :
    s'.svc.messageList p = s.svc.messageList p := by
  simpa [Sys.gotFrom_eq_none (m := ⟨s, e, s'⟩) hg, hs] using h.delivers_step (p := p) hun heff

/-- **Ports deliver in order, exactly once.** In every run:

* a message is on at most one port's list, and at most once; and it is recorded as being on
  none exactly when it is on none, which is what sending it requires;
* for every port, the messages that `msgport_get` has returned, followed by those on the
  list, are the messages sent or replied to the port, in that order;
* `msgport_get` returns NULL only when the list is empty;
* a move that is neither a send or reply to a port, nor a get from it, leaves its list as
  it is. -/
theorem ports_deliver_in_order {cfg : Config} {c : Core} {tr : List (Move Sys SysEvent)} (h : martosPre cfg = .ok c)
    (hr : Run Sys.Step (Sys.start c) tr s) :
    (s.svc.messageList.Separate ∧ ∀ m, s.msgAt m = none ↔ ∀ p, m ∉ s.svc.messageList p) ∧
    (∀ p, tr.filterMap (Sys.gotFrom p) ++ s.svc.messageList p = tr.filterMap (Sys.sentTo p)) ∧
    (∀ p, ∃ msg k, msgportGet p s.kernel = .ok (msg, k) ∧ (msg = none → s.svc.messageList p = [])) ∧
    (∀ m ∈ tr, ∀ p, m.event.service ≠ some (.msgportGet p) → Sys.sentTo p m = none →
      m.post.svc.messageList p = m.pre.svc.messageList p) := by
  have hs := Sound.run h hr
  refine ⟨⟨hs.messages.separate, fun m => ⟨fun hm => hs.messages.off hm, fun hm => ?_⟩⟩, (delivers h hr).2,
    fun p => ⟨_, _, msgportGet_eq (k := s.kernel) hs.nested.balanced, fun hn => ?_⟩, ?_⟩
  · cases hat : s.msgAt m with
    | none => rfl
    | some p => exact absurd ((hs.messages.mem p m).mpr hat) (hm p)
  · exact List.head?_eq_none_iff.mp hn
  · intro m hm p hg hno
    obtain ⟨tr₁, tr₂, rfl⟩ := List.append_of_mem hm
    obtain ⟨hr₁, hst, -⟩ := hr.split rfl
    have hpre := Sound.run h hr₁
    exact hpre.messageList_of_other (delivers h hr₁).1 (hpre.effect hst) hg hno

/-- The theorem at a run with three messages on two ports, two of them sent by an interrupt
handler: one has been got and replied to the other port. -/
theorem ports_deliver_in_order_reply : ∃ c tr s, martosPre CoreSys.exampleConfig = .ok c ∧
    Run Sys.Step (Sys.start c) tr s ∧ s.svc.messageList 0 = [8] ∧ s.svc.messageList 1 = [9, 7] ∧
    tr.filterMap (Sys.sentTo 0) = tr.filterMap (Sys.gotFrom 0) ++ [8] := by
  obtain ⟨c, tr₁, s₁, s₂, tr₂, s, hc, hr, -, hp⟩ := Sys.exists_run CoreSys.exampleConfig (fun _ _ => True)
    [.call (.msgportInit 0), .call (.msgportInit 1), .call (.service (.msgportSend 0 7)), .isr (.msgportSend 0 8),
      .isr (.msgportSend 1 9), .call (.write (.reply 7 (some 1)))]
    (.call (.service (.msgportGet 0))) [.call (.service (.msgportReply 7))]
    (p := fun _ _ s => decide (s.svc.messageList 0 = [8] ∧ s.svc.messageList 1 = [9, 7]))
    (by decide +kernel)
  obtain ⟨h0, h1⟩ := of_decide_eq_true hp
  have hr := hr.mono fun _ _ _ => And.right
  refine ⟨c, _, s, hc, hr, h0, h1, ?_⟩
  rw [← (ports_deliver_in_order hc hr).2.1 0, h0]

end

end Martos
