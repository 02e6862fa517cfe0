import Martos.Store.Refinement

/-!
# Runs over pointers

The machine over pointers starts where `martos_pre` and `timer_init` leave the memory
(`Shows.start`), and follows every run over sequences (`Shows.run`) in which no semaphore is used
before `sem_init` has been called for it: the functions over sequences work on its queue all the
same.

So whatever has been proved about runs over sequences is true of the pointers. Three results say
so in the terms of the memory:

* `pointers_refine_sequences` — the runs are the same, and so are the messages that are returned;
* `pointers_stop_iff` — the pointer code stops where the table `Sys.stops` says so, and nowhere
  else: every loop ends, and no other NULL pointer is followed;
* `lists_in_memory` — every list in memory can be walked in both directions, at any moment.
-/

namespace Martos

open Checked Transition Agreement DoublyLinked

/-! ### Start -/

section

variable {cfg : Config} {c : Core}

/-- Nothing is on a list after reset. -/
theorem Kernel.seqs_reset : Kernel.seqs ⟨resetCore cfg, resetServices⟩ = fun _ => [] := by
  funext l
  cases l <;> rfl

theorem Depicts.reset : Depicts ∅ (Store.reset cfg) ⟨resetCore cfg, resetServices⟩ := .uninitialised Kernel.seqs_reset

/-- `martos_pre` over pointers. -/
theorem Depicts.martosPre (cfg : Config) : Agrees 0 Fault.OfLists
    (fun st c => Depicts (∅ ∪ {.tasks .ready} ∪ {.tasks .waiting}) st ⟨c, resetServices⟩)
    (fun _ => Store.martosPre cfg) (martosPre cfg) := by
  have hinit {S : Set KernelList} {st : Store} (h : Depicts S st ⟨resetCore cfg, resetServices⟩) (l : KernelList) :
      Depicts (S ∪ {l}) (st.listInit l) ⟨resetCore cfg, resetServices⟩ := by
    refine h.listInit l ?_ rfl
    rw [Kernel.seqs_reset]
    exact Function.update_eq_self_iff.mpr rfl
  have h₁ := (hinit (hinit Depicts.reset (.tasks .ready)) (.tasks .waiting)).withCore
    (d := { resetCore cfg with idNestcnt := -1, elapsed := cfg.quantum }) rfl rfl
  refine .bind (h₁.liftCore fun _ => commutes_taskInit initTask _) ?_
  rintro st₂ c₂ - ⟨h₂, -, -⟩
  refine .bind (h₂.liftCore fun _ => commutes_taskVerify initTask) ?_
  rintro st₃ c₃ - ⟨h₃, -, -⟩
  obtain ⟨links, rfl⟩ := h₃.eta
  have h₄ := h₃.modTask initTask fun k => { k with state := .running }
  exact .pure (h₄.withCore rfl rfl)

/-- **The memory at the start.** -/
theorem Shows.start (h : Martos.martosPre cfg = .ok c) :
    ∃ st, Store.martosPre cfg = some st ∧ Shows kernelHeaders (StoreSys.start st) (Sys.start c) := by
  have hpre := Depicts.martosPre cfg
  rw [h] at hpre
  obtain ⟨st, hst, he⟩ := hpre
  obtain ⟨links, rfl⟩ := hst.eta
  have hinit := hst.listInit .timers (Function.update_eq_self_iff.mpr rfl) rfl
  have hheaders : ∅ ∪ {.tasks .ready} ∪ {.tasks .waiting} ∪ {.timers} = kernelHeaders := by
    ext l
    simp only [kernelHeaders, Set.empty_union, Set.mem_union, Set.mem_insert_iff, Set.mem_singleton_iff, or_assoc]
  rw [hheaders] at hinit
  exact ⟨_, he 1 Nat.zero_lt_one, hinit.withSvc rfl rfl, rfl, rfl, rfl⟩

end

/-! ### Headers in the course of a run -/

section

variable {S : Set KernelList} {s s' : Sys} {e : SysEvent}

theorem subset_withHeader (S : Set KernelList) (o : Option KernelList) : S ⊆ withHeader S o := by
  cases o with
  | none => exact subset_rfl
  | some l => exact Set.subset_union_left

theorem mem_withHeader {o : Option KernelList} {l : KernelList} : l ∈ withHeader S o ↔ l ∈ S ∨ o = some l := by
  cases o with
  | none => simp [withHeader]
  | some q => rw [Option.some.injEq, eq_comm]; exact Iff.rfl

theorem headers_snoc (es : List SysEvent) (e : SysEvent) :
    headers (es ++ [e]) = withHeader (headers es) e.initialises := by
  ext l
  simp [mem_withHeader, headers, or_and_right, exists_or, or_assoc]

theorem SemsInitialised.of_snoc {es : List SysEvent} {e : SysEvent} (h : SemsInitialised (es ++ [e])) :
    SemsInitialised es ∧ ∀ sem, e.sem = some sem → .requests sem ∈ headers es := by
  constructor
  · intro i hi sem hsem
    have hinit := h i (by simp; omega) sem (by rwa [List.getElem_append_left hi])
    rwa [List.take_append_of_le_length hi.le] at hinit
  · intro sem hsem
    obtain ⟨e', he', hinit⟩ := h es.length (by simp) sem (by simpa using hsem)
    rw [List.take_left] at he'
    exact .inr ⟨e', he', hinit⟩

/-- A port in use has been in use, or has just been initialised. -/
theorem SysEffect.port_cases (heff : SysEffect s e s') {port : PortRef} (ha : (s'.svc.port port).action ≠ .invalid) :
    (s.svc.port port).action ≠ .invalid ∨ e.initialises = some (.messages port) := by
  cases heff with
  | @portInit p sg cs hu hq hst hsg =>
    by_cases hp : port = p
    · subst hp
      exact .inr rfl
    · exact .inl fun hinvalid => ha ((congrArg MsgPort.action (Function.update_of_ne hp ..)).trans hinvalid)
  | @write w hu hw =>
    cases w with
    | port p value =>
      by_cases hp : port = p
      · subst hp
        exact .inl hw.1
      · exact .inl fun hinvalid => ha ((congrArg MsgPort.action (Function.update_of_ne hp ..)).trans hinvalid)
    | _ => exact .inl ha
  | _ => exact .inl ha

/-- A task in `msgport_wait` has been there, or has just called it at a port in use. -/
theorem SysEffect.waits_cases (heff : SysEffect s e s') {t : TaskRef} {port : PortRef}
    (hp : s'.spc t = .msgportWait port) : s.spc t = .msgportWait port ∨ (s.svc.port port).action ≠ .invalid := by
  have hgoto {p : ServicePc} (hp : (s.goto p).spc t = .msgportWait port) :
      s.spc t = .msgportWait port ∨ p = .msgportWait port := by
    by_cases ht : t = s.cs.core.running
    · subst ht
      exact .inr ((Function.update_self ..).symm.trans hp)
    · exact .inl ((Function.update_of_ne ht ..).symm.trans hp)
  have hother {p : ServicePc} (hp : (s.goto p).spc t = .msgportWait port) (hne : p ≠ .msgportWait port) :
      s.spc t = .msgportWait port ∨ (s.svc.port port).action ≠ .invalid := .inl ((hgoto hp).resolve_right hne)
  cases heff with
  | @portWaits p cs hu ha hd hst =>
    rcases hgoto hp with hp | hp
    · exact .inl hp
    · obtain rfl := ServicePc.msgportWait.inj hp
      exact .inr ha
  | semQueued hu hr hd hn => exact hother (p := .semWaitBlock) hp (by simp)
  | semBlocks hu hq hst => exact hother (p := .semWaitReturn) hp (by simp)
  | semReturns hu hq => exact hother (p := .user) hp (by simp)
  | portReturns hu hq hl hst => exact hother (p := .user) hp (by simp)
  | addStarts hu ha hs => exact hother (p := .timerAddCheck _ false) hp (by simp)
  | delayStarts hu hf hd hst => exact hother (p := .timerAddCheck _ true) hp (by simp)
  | @addElapsed tm delay hu hq he =>
    exact hother (p := if delay then .timerDelayTest tm else .user) hp (by cases delay <;> simp)
  | @addPasses tm delay hu hq he => exact hother (p := .timerAddInsert tm delay) hp (by simp)
  | @addInserts tm delay hu hq hm =>
    exact hother (p := if delay then .timerDelayTest tm else .user) hp (by cases delay <;> simp)
  | delayWaits hu hq ha hst => exact hother (p := .timerDelayFree _) hp (by simp)
  | delaySkips hu hq ha => exact hother (p := .timerDelayFree _) hp (by simp)
  | delayFrees hu hq hst => exact hother (p := .user) hp (by simp)
  | @write w hu hw => cases w <;> exact .inl hp
  | _ => exact .inl hp

/-- Every step keeps the headers of ports up. -/
theorem HeadersUp.step (h : HeadersUp S s) (heff : SysEffect s e s') : HeadersUp (withHeader S e.initialises) s' := by
  have hsub := subset_withHeader S e.initialises
  constructor
  · exact h.kernel.trans hsub
  · intro port ha
    rcases heff.port_cases ha with ha | he
    · exact hsub (h.ports port ha)
    · exact mem_withHeader.mpr (.inr he)
  · intro t port hp
    rcases heff.waits_cases hp with hp | ha
    · exact hsub (h.waits t port hp)
    · exact hsub (h.ports port ha)

theorem HeadersUp.start (c : Core) : HeadersUp kernelHeaders (Sys.start c) where
  kernel := subset_rfl
  ports _ ha := absurd rfl ha
  waits _ _ hp := by cases hp

end

/-! ### Steps -/

section

variable {S : Set KernelList} {a : StoreSys} {s s' : Sys} {e : SysEvent} {null : Option String}

/-- What can happen to the one machine can happen to the other one. -/
theorem Shows.possible (h : Shows S a s) (he : s.Enabled e) : a.Possible e := by
  obtain ⟨links, rfl⟩ := h.eta
  cases e with
  | core e =>
    cases e with
    | call c => exact ⟨he.1.1, he.1.2.1, he.2⟩
    | _ => exact he
  | call c => exact ⟨he.1.1, he.1.2, he.2.1⟩
  | resume => exact ⟨he.1.1, he.1.2, he.2⟩
  | isr c => exact he.1
  | tim2 => exact he

/-- The pointer that `msgport_wait` returns is that to the message. -/
theorem Shows.returnsMessage (h : Shows S a s) (hup : HeadersUp S s) (e : SysEvent) :
    a.returnsMessage e = (s.returnsMessage e).map fun message => .node (.message message) := by
  cases e with
  | resume =>
    have hrunning : a.running = s.cs.core.running := by
      obtain ⟨links, rfl⟩ := h.eta
      rfl
    unfold StoreSys.returnsMessage Sys.returnsMessage
    simp only [h.spc, hrunning]
    cases hp : s.spc s.cs.core.running with
    | msgportWait port =>
      have hhead := listGetHead_spec h.store.lists (hup.waits _ port hp)
      refine hhead.trans ?_
      change ((s.svc.messageList port).map KernelNode.message).head?.map Ptr.node = _
      rw [List.head?_map, Option.map_map]
      rfl
    | _ => rfl
  | _ => rfl

/-- A step over sequences is one over pointers. -/
theorem Shows.step (h : Shows S a s) (hup : HeadersUp S s) (hs : Sound s) (ha : AllNamed s.cs)
    (hst : s.StepChecked null e s') (hsem : ∀ sem, e.sem = some sem → .requests sem ∈ S) :
    ∃ a', a.Step null e a' ∧ Shows (withHeader S e.initialises) a' s' := by
  have hexec := h.exec null hup hs ha le_rfl hst.1 hsem
  rw [hst.2] at hexec
  obtain ⟨a', h', he⟩ := hexec
  exact ⟨a', ⟨h.possible hst.1, _, he⟩, h'⟩

/-- The machine over pointers is deterministic. -/
theorem StoreSys.step_unique (a : StoreSys) (e : SysEvent) (b b' : StoreSys) (h : a.Step null e b)
    (h' : a.Step null e b') : b = b' := h.2.unique h'.2

end

/-! ### Runs -/

/-- The events lead the machine over pointers from reset to `a`. -/
def StoreSys.Reaches (null : Option String) (cfg : Config) (es : List SysEvent) (a : StoreSys) : Prop :=
  ∃ st tr, Store.martosPre cfg = some st ∧ Run (StoreSys.Step null) (StoreSys.start st) tr a ∧ tr.map Move.event = es

/-- The two machines make a move on the same event, and return the same message. -/
def SameMove (m' : Move StoreSys SysEvent) (m : Move Sys SysEvent) : Prop :=
  m'.event = m.event ∧
    m'.pre.returnsMessage m'.event = (m.pre.returnsMessage m.event).map fun message => .node (.message message)

section

variable {null : Option String} {cfg : Config} {c : Core} {tr : List (Move Sys SysEvent)} {s : Sys} {a : StoreSys}
  {e : SysEvent}

theorem events_of_sameMove {tr' : List (Move StoreSys SysEvent)} (h : List.Forall₂ SameMove tr' tr) :
    tr'.map Move.event = tr.map Move.event := by
  induction h with
  | nil => rfl
  | cons hm _ ih => rw [List.map_cons, List.map_cons, hm.1, ih]

theorem Shows.run (h : martosPre cfg = .ok c) (hr : Run (Sys.StepChecked null) (Sys.start c) tr s)
    (hsem : SemsInitialised (tr.map Move.event)) :
    ∃ st tr' a, Store.martosPre cfg = some st ∧ Run (StoreSys.Step null) (StoreSys.start st) tr' a ∧
      List.Forall₂ SameMove tr' tr ∧ Shows (headers (tr.map Move.event)) a s ∧
        HeadersUp (headers (tr.map Move.event)) s := by
  obtain ⟨st, hst, hstart⟩ := Shows.start h
  have hfollow : ∃ tr' a, Run (StoreSys.Step null) (StoreSys.start st) tr' a ∧ List.Forall₂ SameMove tr' tr ∧
      Shows (headers (tr.map Move.event)) a s ∧ HeadersUp (headers (tr.map Move.event)) s := by
    refine hr.follow (Q := SameMove) (C := fun tr => SemsInitialised (tr.map Move.event))
      (R := fun tr a s =>
        Shows (headers (tr.map Move.event)) a s ∧ HeadersUp (headers (tr.map Move.event)) s) ?_ ?_ ?_ hsem
    · intro tr m htr
      rw [List.map_append] at htr
      exact htr.of_snoc.1
    · have hnone : headers [] = kernelHeaders := by simp [headers]
      rw [List.map_nil, hnone]
      exact ⟨hstart, .start c⟩
    · intro tr a s e s' hr hR hst htr
      obtain ⟨h₁, hup⟩ := hR
      rw [List.map_append] at htr ⊢
      obtain ⟨hs, ha⟩ := Sys.named_of_checked h hr
      obtain ⟨a', ha', h₂⟩ := h₁.step hup hs ha hst htr.of_snoc.2
      refine ⟨e, a', ha', ⟨rfl, h₁.returnsMessage hup e⟩, ?_⟩
      rw [List.map_singleton, headers_snoc]
      exact ⟨h₂, hup.step (hs.effect (hs.stepChecked_iff.mp hst).2)⟩
  obtain ⟨tr', a, hr', hsame, hshows⟩ := hfollow
  exact ⟨st, tr', a, hst, hr', hsame, hshows⟩

/-- There is no other run over pointers with these events. -/
theorem Shows.of_reaches (h : martosPre cfg = .ok c) (hr : Run (Sys.StepChecked null) (Sys.start c) tr s)
    (hsem : SemsInitialised (tr.map Move.event)) (ha : StoreSys.Reaches null cfg (tr.map Move.event) a) :
    Shows (headers (tr.map Move.event)) a s ∧ HeadersUp (headers (tr.map Move.event)) s := by
  obtain ⟨st, tr', a', hst, hr', hsame, hshows⟩ := Shows.run h hr hsem
  obtain ⟨st₂, tr₂, hst₂, hr₂, htr₂⟩ := ha
  obtain rfl := Option.some.inj (hst.symm.trans hst₂)
  obtain ⟨-, rfl⟩ := hr'.unique StoreSys.step_unique hr₂ ((events_of_sameMove hsame).trans htr₂.symm)
  exact hshows

/-- **The pointers refine the sequences.** For every run over sequences in which each semaphore is
initialised before it is used, in any interleaving of tasks and interrupt handlers, and `task_init` makes its
assertion:

* the machine over pointers starts, and makes a run with the same events;
* `msgport_wait` returns the same messages in the same moves of it;
* it ends, as does every run of it with these events, in memory whose lists, of the headers initialised by
  then, hold the sequences, and whose other data is the same.

`null` is what `task_find` reads through NULL, in both. The callers keep to `Sys.Contract`. -/
theorem pointers_refine_sequences (h : martosPre cfg = .ok c) (hr : Run (Sys.StepChecked null) (Sys.start c) tr s)
    (hsem : SemsInitialised (tr.map Move.event)) :
    (∃ st tr' a, Store.martosPre cfg = some st ∧ Run (StoreSys.Step null) (StoreSys.start st) tr' a ∧
      List.Forall₂ SameMove tr' tr) ∧
    ∀ a, StoreSys.Reaches null cfg (tr.map Move.event) a → Shows (headers (tr.map Move.event)) a s := by
  constructor
  · obtain ⟨st, tr', a, hst, hr', hsame, -⟩ := Shows.run h hr hsem
    exact ⟨st, tr', a, hst, hr', hsame⟩
  · intro a ha
    exact (Shows.of_reaches h hr hsem ha).1

/-- A task waits for a semaphore while a timer and a message are queued. -/
def exampleEvents : List SysEvent :=
  .call (.service (.semInit 3 0)) :: CoreSys.oneTask.map .core ++
    [.call (.msgportInit 0), .isr (.msgportSend 0 7), .call (.timerAllocate 2), .call (.write (.timer 2 .delay 5 0)),
      .call (.timerAdd 2), .resume, .resume, .call (.semWait 3 9), .resume, .core .resume, .core .pendSV,
      .core (.pendSVSwitch 0x20001200), .core .pendSVExit]

/-- The events make a run with the check. -/
theorem exists_run_of_exampleEvents (ok : Sys → SysEvent → Prop) [∀ s e, Decidable (ok s e)] {p : Sys → Bool}
    (h : (martosPre CoreSys.exampleConfig).toOption.any (fun c =>
      (replay (Sys.nextIf fun s e => s.PassesAssert (some "") e ∧ ok s e) (Sys.start c) exampleEvents).any p) = true) :
    ∃ c tr s, martosPre CoreSys.exampleConfig = .ok c ∧
      Run (Restrict ok (Sys.StepChecked (some ""))) (Sys.start c) tr s ∧
      tr.map Move.event = exampleEvents ∧ SemsInitialised (tr.map Move.event) ∧ p s = true := by
  obtain ⟨c, tr, s, hc, hr, htr, hp⟩ := Sys.exists_run_of_events CoreSys.exampleConfig _ exampleEvents h
  refine ⟨c, tr, s, hc, Sys.checked_of_run hc hr, htr, ?_, hp⟩
  rw [htr]
  decide +kernel

/-- The theorem for a run that leaves nodes of every kind queued. -/
theorem pointers_refine_sequences_example : ∃ c tr s, martosPre CoreSys.exampleConfig = .ok c ∧
    Run (Sys.StepChecked (some "")) (Sys.start c) tr s ∧ (∃ st tr' a, Store.martosPre CoreSys.exampleConfig = some st ∧
      Run (StoreSys.Step (some "")) (StoreSys.start st) tr' a ∧ List.Forall₂ SameMove tr' tr) ∧
    s.svc.reqQueue 3 = [9] ∧ s.svc.messageList 0 = [7] ∧ s.svc.timers () = [2] ∧ s.cs.core.lists .waiting = [1] := by
  obtain ⟨c, tr, s, hc, hr, -, hsem, hp⟩ := exists_run_of_exampleEvents (fun _ _ => True)
    (p := fun s => decide (s.svc.reqQueue 3 = [9] ∧ s.svc.messageList 0 = [7] ∧ s.svc.timers () = [2] ∧
      s.cs.core.lists .waiting = [1])) (by decide +kernel)
  have hr := hr.mono fun _ _ _ => And.right
  exact ⟨c, tr, s, hc, hr, (pointers_refine_sequences hc hr hsem).1, of_decide_eq_true hp⟩

/-- The events that can happen do not misuse a list. -/
theorem Verified.exec_avoids_lists (hv : Verified s.cs) (hs : Sound s) (ha : AllNamed s.cs) (ht : Timed s)
    (hen : s.Enabled e) : Avoids Fault.OfLists (s.execChecked null e) := by
  intro f hf hl
  have hstops : s.stops null e = some f := (hv.fault_execChecked_sys hs ha ht hen).symm.trans (fault_eq_some.mpr hf)
  refine s.stops_external null e f hstops ?_
  simp only [Fault.Internal, hl, or_true]

/-- **Every loop ends, and the code stops where the table says.** In every state over pointers that the
events of a run over sequences lead to, for every event that can happen there:

* the pointer code comes to its end exactly where the table `Sys.stops` says nothing: it follows no NULL pointer
  but those of the table, which are that of `task_find` in the check of `task_init`, where reading it stops the
  processor, and `running` in `PendSV_Handler_user`, where no task is ready;
* each of its loops has ended after as many passes as there are tasks and timers on the kernel's lists.

`task_init` makes its assertion, in the run and in the event. The callers keep to `Sys.Contract`; semaphores are
initialised before they are used, and `timer_free` is used on timers that are not in use. -/
theorem pointers_stop_iff (h : martosPre cfg = .ok c)
    (hr : Run (Restrict FreesUnused (Sys.StepChecked null)) (Sys.start c) tr s)
    (ha : StoreSys.Reaches null cfg (tr.map Move.event) a) (hen : s.Enabled e)
    (hsem : SemsInitialised (tr.map Move.event ++ [e])) :
    ((∃ a', a.Step null e a') ↔ s.stops null e = none) ∧
    ∀ fuel, s.kernel.load < fuel → ((∃ a', a.exec null fuel e = some a') ↔ s.stops null e = none) := by
  have hr' := hr.mono fun _ _ _ => And.right
  obtain ⟨-, hnamed⟩ := Sys.named_of_checked h hr'
  have hrun := Sys.run_of_checked h hr
  obtain ⟨hs, ht⟩ := Timed.run h hrun
  have hv : Verified s.cs := Verified.run h (hrun.mono fun _ _ _ => And.right)
  obtain ⟨hsem₁, hsem₂⟩ := hsem.of_snoc
  obtain ⟨hshows, hup⟩ := Shows.of_reaches h hr' hsem₁ ha
  have hexec := hshows.exec null hup hs hnamed le_rfl hen hsem₂
  have havoid : Avoids Fault.OfLists (s.execChecked null e) := hv.exec_avoids_lists hs hnamed ht hen
  have hok : (∃ s', s.execChecked null e = .ok s') ↔ s.stops null e = none := by
    rw [← hv.fault_execChecked_sys hs hnamed ht hen, fault_eq_none]
  have hfuel (fuel : ℕ) (hf : s.kernel.load < fuel) : (∃ a', a.exec null fuel e = some a') ↔ s.stops null e = none :=
    (hexec.ok_iff havoid hf).trans hok
  refine ⟨?_, hfuel⟩
  constructor
  · rintro ⟨a', -, n, hn⟩
    exact (hfuel (s.kernel.load + n + 1) (by omega)).mp ⟨a', hn _ (by omega)⟩
  · intro hstops
    obtain ⟨s', hs'⟩ := hok.mpr hstops
    obtain ⟨a', ha', -⟩ := hshows.step hup hs hnamed ⟨hen, hs'⟩ hsem₂
    exact ⟨a', ha'⟩

/-- The theorem at a signal of the semaphore, by an interrupt handler. -/
theorem pointers_stop_iff_signal : ∃ c tr s a, martosPre CoreSys.exampleConfig = .ok c ∧
    Run (Restrict FreesUnused (Sys.StepChecked (some ""))) (Sys.start c) tr s ∧
    StoreSys.Reaches (some "") CoreSys.exampleConfig (tr.map Move.event) a ∧
    ∃ a', a.Step (some "") (.isr (.semSignal 3)) a' := by
  obtain ⟨c, tr, s, hc, hr, htr, hsem, hp⟩ := exists_run_of_exampleEvents FreesUnused
    (p := fun s => decide (s.Enabled (.isr (.semSignal 3)) ∧ s.stops (some "") (.isr (.semSignal 3)) = none))
    (by decide +kernel)
  obtain ⟨hen, hstops⟩ := of_decide_eq_true hp
  have hsem' : SemsInitialised (tr.map Move.event ++ [.isr (.semSignal 3)]) := by
    rw [htr]
    decide +kernel
  obtain ⟨st, tr', a, hst, hr', hsame, -⟩ := Shows.run hc (hr.mono fun _ _ _ => And.right) hsem
  have ha : StoreSys.Reaches (some "") CoreSys.exampleConfig (tr.map Move.event) a :=
    ⟨st, tr', hst, hr', events_of_sameMove hsame⟩
  exact ⟨c, tr, s, a, hc, hr, ha, (pointers_stop_iff hc hr ha hen hsem').1.mpr hstops⟩

/-! ### The lists in memory -/

/-- The list in memory holds the nodes: following `next` from the head sentinel leads through them to the tail
sentinel, and following `prev` leads back. -/
structure Store.Holds (st : Store) (l : KernelList) (ns : List KernelNode) : Prop where
  /-- Forth. -/
  forth : Returns (walkFrom st.links.next · (.head l)) (.head l :: (ns.map .node ++ [.tail l]))
  /-- Back. -/
  back : Returns (walkFrom st.links.prev · (.tail l)) (.tail l :: (ns.reverse.map .node ++ [.head l]))

/-- The list is one for nodes of this kind: a cast of the pointer to the structure is right. -/
def KernelNode.Fits : KernelNode → KernelList → Prop
  | .task _, .tasks _ => True
  | .timer _, .timers => True
  | .request _, .requests _ => True
  | .message _, .messages _ => True
  | _, _ => False

theorem Represents.holds {S : Set KernelList} {st : Store} {f : Seqs KernelList KernelNode} (R : Represents S st.heap f)
    {l : KernelList} (hl : l ∈ S) : st.Holds l (f l) := by
  obtain ⟨hnext, hprev⟩ := (linked_iff_walk _ _).mp (R.linked l hl)
  have hback : (f.spine l).reverse = .tail l :: ((f l).reverse.map .node ++ [.head l]) := by simp [Seqs.spine]
  rw [hback] at hprev
  constructor
  · exact ⟨_, fun fuel hfuel => hnext.walkFrom (by simpa using R.tailNext l hl) hfuel⟩
  · exact ⟨_, fun fuel hfuel => hprev.walkFrom (by simpa using R.headPrev l hl) hfuel⟩

theorem Kernel.seqs_fits (k : Kernel) {l : KernelList} {n : KernelNode} (hn : n ∈ k.seqs l) : n.Fits l := by
  cases l with
  | tasks l => obtain ⟨t, -, rfl⟩ := List.mem_map.mp hn; trivial
  | timers => obtain ⟨tm, -, rfl⟩ := List.mem_map.mp hn; trivial
  | requests sem => obtain ⟨req, -, rfl⟩ := List.mem_map.mp hn; trivial
  | messages port => obtain ⟨message, -, rfl⟩ := List.mem_map.mp hn; trivial

/-- **The lists in memory.** In every state over pointers that the events of a run over sequences lead to:

* each list whose header has been initialised can be walked in both directions, and meets the same nodes;
* no node is met twice, on one list or on two, and each is of the kind that the list is for;
* `ready` holds the tasks whose state is `TASK_READY`, and `waiting` those whose state is `TASK_WAITING`.

The callers keep to `Sys.Contract`: among other things a timer is not aborted a second time, which would unlink a node
that is on no list. Semaphores are initialised before they are used, and `task_init` makes its assertion. -/
theorem lists_in_memory (h : martosPre cfg = .ok c) (hr : Run (Sys.StepChecked null) (Sys.start c) tr s)
    (hsem : SemsInitialised (tr.map Move.event)) (ha : StoreSys.Reaches null cfg (tr.map Move.event) a) :
    ∃ nodes : KernelList → List KernelNode,
      (∀ l ∈ headers (tr.map Move.event), a.store.Holds l (nodes l)) ∧
      (∀ l, (nodes l).Nodup ∧ ∀ n ∈ nodes l, n.Fits l ∧ ∀ l', n ∈ nodes l' → l' = l) ∧
      (∀ t, .task t ∈ nodes (.tasks .ready) ↔ (a.store.data.core.task t).state = .ready) ∧
      ∀ t, .task t ∈ nodes (.tasks .waiting) ↔ (a.store.data.core.task t).state = .waiting := by
  have hplaced := (Sys.named_of_checked h hr).1.placed
  obtain ⟨hshows, -⟩ := Shows.of_reaches h hr hsem ha
  have hR := hshows.store.lists
  have htask (t : TaskRef) : a.store.data.core.task t = s.cs.core.task t := by
    rw [hshows.store.data]
    rfl
  have hlist (l : TaskList) (t : TaskRef) : .task t ∈ s.kernel.seqs (.tasks l) ↔ s.cs.core.place t = some l :=
    (s.kernel.tasks_within.mem KernelNode.task_injective).trans (hplaced.located.mem l t)
  refine ⟨s.kernel.seqs, fun l hl => hR.holds hl, fun l => ⟨hR.separate.nodup l,
    fun n hn => ⟨s.kernel.seqs_fits hn, ?_⟩⟩,
    fun t => ?_, fun t => ?_⟩
  · intro l' hn'
    exact hR.separate.unique hn' hn
  · rw [hlist, htask, Core.place_ready]
  · rw [hlist, htask, Core.place_waiting]

/-- The theorem where a task waits for a semaphore. -/
theorem lists_in_memory_example : ∃ (a : StoreSys) (nodes : KernelList → List KernelNode),
    StoreSys.Reaches (some "") CoreSys.exampleConfig exampleEvents a ∧
    (∀ l ∈ headers exampleEvents, a.store.Holds l (nodes l)) ∧ .task 1 ∈ nodes (.tasks .waiting) := by
  obtain ⟨c, tr, s, hc, hr, htr, hsem, hp⟩ := exists_run_of_exampleEvents (fun _ _ => True)
    (p := fun s => decide ((s.cs.core.task 1).state = .waiting)) (by decide +kernel)
  have hr := hr.mono fun _ _ _ => And.right
  obtain ⟨st, tr', a, hst, hr', hsame, hshows, -⟩ := Shows.run hc hr hsem
  have ha : StoreSys.Reaches (some "") CoreSys.exampleConfig (tr.map Move.event) a :=
    ⟨st, tr', hst, hr', events_of_sameMove hsame⟩
  obtain ⟨nodes, hholds, -, -, hwaiting⟩ := lists_in_memory hc hr hsem ha
  rw [htr] at ha hholds
  refine ⟨a, nodes, ha, hholds, (hwaiting 1).mpr ?_⟩
  rw [hshows.store.data]
  exact of_decide_eq_true hp

end

end Martos
