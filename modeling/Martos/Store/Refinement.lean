import Martos.Services.Stops
import Martos.Store.Machine
import Martos.Store.Services

/-!
# The machine over pointers refines the machine over sequences

`Shows S a s`: the machine `a` over pointers is in the state `s` of the machine over sequences. What
an event does to the one agrees with what it does to the other (`Shows.exec`), so every run over
sequences is one over pointers (`Shows.run`). Both make the assertion of `task_init`.

The functions over sequences work on a semaphore's queue whether `sem_init` has been called or
not, and those over pointers do not: a run is followed as long as no semaphore is used before
(`SemsInitialised`).
-/

namespace Martos

open Checked Transition Agreement

/-! ### Headers -/

/-- The header that a call initialises. -/
def Service.initialises : Service → Option KernelList
  | .semInit sem _ => some (.requests sem)
  | _ => none

/-- The header that an event initialises. -/
def SysEvent.initialises : SysEvent → Option KernelList
  | .call (.service c) => c.initialises
  | .call (.msgportInit port) => some (.messages port)
  | .isr c => c.initialises
  | _ => none

/-- The semaphore whose queue a call uses. -/
def Service.sem : Service → Option SemRef
  | .semAddRequest sem _ => some sem
  | .semSignal sem => some sem
  | _ => none

/-- The semaphore whose queue an event uses. -/
def SysEvent.sem : SysEvent → Option SemRef
  | .call (.service c) => c.sem
  | .call (.semWait sem _) => some sem
  | .isr c => c.sem
  | _ => none

/-- The headers, one more of which has been initialised, or not. -/
def withHeader (S : Set KernelList) : Option KernelList → Set KernelList
  | none => S
  | some l => S ∪ {l}

/-- The headers that the kernel initialises when it starts. -/
def kernelHeaders : Set KernelList := {.tasks .ready, .tasks .waiting, .timers}

/-- The headers that have been initialised in the course of the events. -/
def headers (es : List SysEvent) : Set KernelList :=
  {l | l ∈ kernelHeaders ∨ ∃ e ∈ es, e.initialises = some l}

/-- The queue of every semaphore has been initialised before an event uses it. -/
def SemsInitialised (es : List SysEvent) : Prop :=
  ∀ i, (h : i < es.length) → ∀ sem ∈ es[i].sem, ∃ e ∈ es.take i, e.initialises = some (.requests sem)

instance (es : List SysEvent) : Decidable (SemsInitialised es) := by
  unfold SemsInitialised
  infer_instance

/-- The kernel's own headers have been initialised, and those of the ports in use. -/
structure HeadersUp (S : Set KernelList) (s : Sys) : Prop where
  /-- `ready`, `waiting` and `timers`. -/
  kernel : kernelHeaders ⊆ S
  /-- The list of a port that has been initialised. -/
  ports : ∀ port, (s.svc.port port).action ≠ .invalid → .messages port ∈ S
  /-- The list of a port at which a task waits. -/
  waits : ∀ t port, s.spc t = .msgportWait port → .messages port ∈ S

/-- The number of nodes the kernel's loops can come across. -/
def Kernel.load (k : Kernel) : ℕ := k.core.nodes + (k.svc.timers ()).length

/-- The machine over pointers is in the state `s`. -/
structure Shows (S : Set KernelList) (a : StoreSys) (s : Sys) : Prop where
  /-- The kernel's data. -/
  store : Depicts S a.store s.kernel
  /-- Where each task is in the core's code. -/
  pc : a.pc = s.cs.pc
  /-- Where the PendSV handler is. -/
  phase : a.phase = s.cs.phase
  /-- Where each task is in the services' code. -/
  spc : a.spc = s.spc

section

variable {S T : Set KernelList} {a : StoreSys} {s : Sys} {N : ℕ} {null : Option String}

theorem Shows.eta (h : Shows S a s) : ∃ links, a = ⟨⟨links, s.kernel.blank⟩, s.cs.pc, s.cs.phase, s.spc⟩ := by
  obtain ⟨store, pc, phase, spc⟩ := a
  obtain ⟨links, rfl⟩ := h.store.eta
  obtain rfl : pc = s.cs.pc := h.pc
  obtain rfl : phase = s.cs.phase := h.phase
  obtain rfl : spc = s.spc := h.spc
  exact ⟨links, rfl⟩

theorem Shows.put (h : Shows S a s) {st : Store} {k : Kernel} (hst : Depicts T st k) : Shows T (a.put st) (s.put k) :=
  ⟨hst, h.pc, h.phase, h.spc⟩

theorem Shows.goto (h : Shows S a s) (p : ServicePc) : Shows S (a.gotoService p) (s.goto p) := by
  obtain ⟨links, rfl⟩ := h.eta
  exact ⟨h.store, rfl, rfl, rfl⟩

/-- The records of where requests and messages are do not matter. -/
theorem Shows.requested (h : Shows S a s) (reqAt : ReqRef → Option SemRef) : Shows S a { s with reqAt := reqAt } :=
  ⟨h.store, h.pc, h.phase, h.spc⟩

theorem Shows.posted (h : Shows S a s) (msgAt : MsgRef → Option PortRef) : Shows S a { s with msgAt := msgAt } :=
  ⟨h.store, h.pc, h.phase, h.spc⟩

theorem Shows.marked (h : Shows S a s) (adding : TimerRef → Bool) : Shows S a { s with adding := adding } :=
  ⟨h.store, h.pc, h.phase, h.spc⟩

theorem Shows.finishAdd (h : Shows S a s) (tm : TimerRef) (delay : Bool) :
    Shows S (a.finishAdd tm delay) (s.finishAdd tm delay) :=
  (h.goto _).marked _

/-! ### The core -/

/-- A segment of `signal_wait`. -/
theorem Shows.afterWait (h : Shows S a s) (sg : Signals) {p : WaitResult × Store} {q : WaitResult × Core}
    (hw : Depicts.Waits S s.kernel p q) : Shows S (a.afterWait sg p) { s with cs := s.cs.afterWait sg q } := by
  obtain ⟨links, rfl⟩ := h.eta
  obtain ⟨w, st⟩ := p
  obtain ⟨w', c⟩ := q
  obtain ⟨hw, h'⟩ := hw
  obtain rfl : w = w' := hw
  cases w with
  | returned rcvd => exact ⟨h', rfl, rfl, rfl⟩
  | blocked n => exact ⟨h', rfl, rfl, rfl⟩

theorem Shows.execCore (h : Shows S a s) (hS : kernelHeaders ⊆ S) (hp : Placed s.cs) (ha : AllNamed s.cs)
    (hN : s.kernel.load ≤ N) (c : Call) :
    Agrees N Fault.OfLists (fun a' cs => Shows S a' { s with cs := cs }) (fun fuel => a.execCore null fuel c)
      (s.cs.execCallChecked null c) := by
  obtain ⟨links, rfl⟩ := h.eta
  have hst := h.store
  have hnodes : s.kernel.core.nodes ≤ N := (Nat.le_add_right ..).trans hN
  cases c with
  | disable => exact .ok ⟨hst.disable, rfl, rfl, rfl⟩ fun _ _ => rfl
  | enable =>
    refine .bind hst.enable ?_
    rintro st' c' - ⟨h', -, -⟩
    exact .pure ⟨h', rfl, rfl, rfl⟩
  | taskInit t params =>
    refine .bind (hst.taskInit null (hS (by simp [kernelHeaders])) (hS (by simp [kernelHeaders])) hnodes
      (ha.listed hp) t params) ?_
    intro st' c' _ h'
    exact .pure ⟨h', rfl, rfl, rfl⟩
  | taskSchedule t =>
    refine .bind (hst.liftCore fun _ => commutes_taskVerify t) ?_
    rintro st' c' - ⟨h', -, -⟩
    exact .pure ⟨h', rfl, rfl, rfl⟩
  | taskSetPrio t prio =>
    refine .bind (hst.liftCore fun _ => commutes_taskSetPrio t prio) ?_
    rintro st' c' - ⟨h', -, -⟩
    exact .pure ⟨h', rfl, rfl, rfl⟩
  | signalAllocate signal =>
    refine .bind (hst.signalAllocate signal) ?_
    rintro ⟨n, st'⟩ ⟨n', c'⟩ - ⟨-, h'⟩
    exact .pure ⟨h', rfl, rfl, rfl⟩
  | signalFree sg =>
    refine .bind (hst.liftCore fun _ => commutes_signalFree sg) ?_
    rintro st' c' - ⟨h', -, -⟩
    exact .pure ⟨h', rfl, rfl, rfl⟩
  | signalSend t sg =>
    refine .bind (hst.signalSend (hS (by simp [kernelHeaders])) hnodes t sg) ?_
    rintro st' c' - ⟨h', -, -⟩
    exact .pure ⟨h', rfl, rfl, rfl⟩
  | signalWait sg =>
    refine .bind (hst.signalWait (hS (by simp [kernelHeaders])) sg) ?_
    intro p q _ hw
    exact .pure (h.afterWait sg hw)

theorem Shows.resumeCore (h : Shows S a s) (hS : kernelHeaders ⊆ S) (hN : s.kernel.load ≤ N) :
    Agrees N Fault.OfLists (fun a' cs => Shows S a' { s with cs := cs }) (fun fuel => a.resumeCore fuel)
      s.cs.execResume := by
  obtain ⟨links, rfl⟩ := h.eta
  have hst := h.store
  have hnodes : s.kernel.core.nodes ≤ N := (Nat.le_add_right ..).trans hN
  have hpc : (⟨⟨links, s.kernel.blank⟩, s.cs.pc, s.cs.phase, s.spc⟩ : StoreSys).running = s.cs.core.running := rfl
  unfold StoreSys.resumeCore CoreSys.execResume
  simp only [hpc]
  cases s.cs.pc s.cs.core.running with
  | user => exact .pure h
  | taskSchedule t =>
    refine .bind (hst.taskScheduleInsert (hS (by simp [kernelHeaders])) hnodes t) ?_
    intro st' c' _ h'
    exact .pure ⟨h', rfl, rfl, rfl⟩
  | taskScheduleReschedule => exact .pure ⟨hst.reschedule, rfl, rfl, rfl⟩
  | signalWaitReschedule sg n => exact .pure ⟨hst.reschedule, rfl, rfl, rfl⟩
  | signalWaitDisable sg n =>
    refine .bind (hst.signalWaitResume (hS (by simp [kernelHeaders])) sg n) ?_
    intro p q _ hw
    exact .pure (h.afterWait sg hw)

theorem Shows.execEvent (h : Shows S a s) (hS : kernelHeaders ⊆ S) (hp : Placed s.cs) (ha : AllNamed s.cs)
    (hN : s.kernel.load ≤ N) (e : Event) :
    Agrees N Fault.OfLists (fun a' cs => Shows S a' { s with cs := cs }) (fun fuel => a.execEvent null fuel e)
      (s.cs.execChecked null e) := by
  have hnodes : s.kernel.core.nodes ≤ N := (Nat.le_add_right ..).trans hN
  cases e with
  | call c => exact h.execCore hS hp ha hN c
  | resume => exact h.resumeCore hS hN
  | isrSignalSend t sg =>
    obtain ⟨links, rfl⟩ := h.eta
    refine .bind (h.store.signalSend (hS (by simp [kernelHeaders])) hnodes t sg) ?_
    rintro st' c' - ⟨h', -, -⟩
    exact .pure ⟨h', rfl, rfl, rfl⟩
  | sysTick =>
    obtain ⟨links, rfl⟩ := h.eta
    have hself : sysTickHandler s.cs.core = (sysTickHandler s.cs.core).carrying s.cs.core.lists :=
      sysTickHandler_carrying s.cs.core
    have hlists : (sysTickHandler s.cs.core).lists = s.cs.core.lists := by
      rw [hself]
      rfl
    have h' := h.store.withCore (d := sysTickHandler s.cs.core) (sysTickHandler_carrying _) hlists
    exact .ok ⟨h', rfl, rfl, rfl⟩ fun _ _ => rfl
  | pendSV =>
    obtain ⟨links, rfl⟩ := h.eta
    have h₁ := h.store.withCore (d := { s.cs.core with pendSV := false }) rfl rfl
    refine .bind (h₁.liftCore fun _ => commutes_taskVerify s.cs.core.running) ?_
    rintro st' c' - ⟨h', -, -⟩
    exact .pure ⟨h', rfl, rfl, rfl⟩
  | pendSVSwitch frame =>
    obtain ⟨links, rfl⟩ := h.eta
    refine .bind (h.store.pendSVHandlerSwitch (hS (by simp [kernelHeaders])) hnodes frame) ?_
    intro st' c' _ h'
    exact .pure ⟨h', rfl, rfl, rfl⟩
  | pendSVExit =>
    obtain ⟨links, rfl⟩ := h.eta
    refine .bind (h.store.liftCore fun _ => commutes_taskVerify s.cs.core.running) ?_
    rintro st' c' - ⟨h', -, -⟩
    exact .pure ⟨h', rfl, rfl, rfl⟩

/-! ### The services -/

theorem Shows.execService (h : Shows S a s) (hup : HeadersUp S s) (hs : Sound s) (hN : s.kernel.load ≤ N) {c : Service}
    (hc : s.ServiceContract c) (hsem : ∀ sem, c.sem = some sem → .requests sem ∈ S) :
    Agrees N Fault.OfLists (fun a' s' => Shows (withHeader S c.initialises) a' s') (fun fuel => a.execService fuel c)
      (s.execService c) := by
  have hst := h.store
  have hready : KernelList.tasks .ready ∈ S := hup.kernel (by simp [kernelHeaders])
  have hnodes : s.kernel.core.nodes ≤ N := (Nat.le_add_right ..).trans hN
  cases c with
  | semInit sem count => exact .pure (h.put (hst.semInit sem count))
  | semAddRequest sem req =>
    have hoff := s.kernel.requests_within.off KernelNode.request_injective (hs.requests.off hc)
    refine .bind (hst.semAddRequest (hsem sem rfl) hoff) ?_
    rintro ⟨b, st'⟩ ⟨b', k'⟩ - ⟨-, h'⟩
    exact .pure ((h.requested _).put h')
  | semSignal sem =>
    refine .bind (hst.semSignal hready hnodes (hsem sem rfl)) ?_
    intro st' k' _ h'
    exact .pure (h.put h')
  | msgportGet port =>
    refine .bind (hst.msgportGet (hup.ports port hc)) ?_
    rintro ⟨message, st'⟩ ⟨message', k'⟩ - ⟨-, h'⟩
    exact .pure (h.put h')
  | msgportSend port message =>
    have hoff := s.kernel.messages_within.off KernelNode.message_injective (hs.messages.off hc)
    refine .bind (hst.msgportSend hready hnodes (hup.ports port) hoff) ?_
    intro st' k' _ h'
    exact .pure ((h.posted _).put h')
  | msgportReply message =>
    have hoff := s.kernel.messages_within.off KernelNode.message_injective (hs.messages.off hc)
    refine .bind (hst.msgportReply hready hnodes hup.ports hoff) ?_
    intro st' k' _ h'
    exact .pure ((h.posted _).put h')
  | timerAbort tm =>
    refine .bind (hst.timerAbort tm) ?_
    intro st' k' _ h'
    exact .pure (h.put h')

theorem Shows.startAdd (h : Shows S a s) (tm : TimerRef) (delay : Bool) :
    Agrees N Fault.OfLists (fun a' s' => Shows S a' s') (fun _ => a.startAdd tm delay) (s.startAdd tm delay) := by
  obtain ⟨links, rfl⟩ := h.eta
  have hstart : s.startAdd tm delay = (do
      let k ← (do
        let svc ← timerAddStart tm s.kernel.svc
        return { s.kernel with svc := svc })
      return { s.goto (.timerAddCheck tm delay) with svc := k.svc, adding := Function.update s.adding tm true }) := by
    rw [Sys.startAdd, bind_assoc]
    rfl
  rw [hstart]
  refine .bind (h.store.lift (oblivious_timerAddStart tm)) ?_
  rintro st' k' hk ⟨h', -, -⟩
  obtain ⟨svc, -, hk⟩ := bind_eq_ok.mp hk
  obtain rfl := Except.ok.inj hk
  exact .pure ⟨h', rfl, rfl, rfl⟩

theorem Shows.execWrite (h : Shows S a s) (w : Write) : Shows S (a.execWrite w) (s.execWrite w) := by
  obtain ⟨links, rfl⟩ := h.eta
  cases w with
  | timer tm op delay tick => exact ⟨h.store.modTimer tm _, rfl, rfl, rfl⟩
  | _ => exact ⟨h.store.withSvc rfl rfl, rfl, rfl, rfl⟩

theorem Shows.execCall (h : Shows S a s) (hup : HeadersUp S s) (hs : Sound s) (hN : s.kernel.load ≤ N) {c : ServiceCall}
    (hc : s.Contract c) (hsem : ∀ sem, (SysEvent.call c).sem = some sem → .requests sem ∈ S) :
    Agrees N Fault.OfLists (fun a' s' => Shows (withHeader S (SysEvent.call c).initialises) a' s')
      (fun fuel => a.execCall fuel c) (s.execCall c) := by
  have hst := h.store
  cases c with
  | service c => exact h.execService hup hs hN hc hsem
  | semWait sem req =>
    have hoff := s.kernel.requests_within.off KernelNode.request_injective (hs.requests.off hc.1)
    refine .bind (hst.semWaitRequest (hsem sem rfl) hoff) ?_
    rintro ⟨queued, st'⟩ ⟨queued', k'⟩ - ⟨hqueued, h'⟩
    obtain rfl : queued = queued' := hqueued
    have h₁ := (h.requested (Function.update s.reqAt req (some sem))).put h'
    refine .pure ?_
    cases queued with
    | false => exact h₁
    | true => exact h₁.goto .semWaitBlock
  | msgportInit port =>
    refine .bind (hst.msgportInit port) ?_
    intro st' k' _ h'
    exact .pure (h.put h')
  | msgportWait port =>
    obtain ⟨links, rfl⟩ := h.eta
    refine ⟨_, ?_, fun _ _ => rfl⟩
    exact ⟨hst.disable, rfl, rfl, rfl⟩
  | timerAllocate tm =>
    refine .bind (hst.lift (oblivious_timerAllocate tm)) ?_
    rintro st' k' - ⟨h', -, -⟩
    exact .pure (h.put h')
  | timerFree tm =>
    refine .bind (hst.lift (oblivious_timerFree tm)) ?_
    rintro st' k' - ⟨h', -, -⟩
    exact .pure (h.put h')
  | timerAdd tm => exact h.startAdd tm false
  | timerDelay tm ticks =>
    refine .bind (hst.lift (oblivious_timerAllocate tm)) ?_
    rintro st' k' - ⟨h', -, -⟩
    exact (h.put (h'.modTimer tm fun x => { x with op := .delay, delay := ticks })).startAdd tm true
  | write w => exact .pure (h.execWrite w)

theorem Shows.execResume (h : Shows S a s) (hup : HeadersUp S s) (hs : Sound s) (ha : AllNamed s.cs)
    (hN : s.kernel.load ≤ N) :
    Agrees N Fault.OfLists (fun a' s' => Shows S a' s') (fun fuel => a.execResume null fuel) s.execResume := by
  -- no service function calls `task_init`
  have hcall {c : Call} (hsame : s.cs.execCallChecked null c = s.cs.execCall c) :
      Agrees N Fault.OfLists (fun a' cs => Shows S a' { s with cs := cs }) (fun fuel => a.execCore null fuel c)
        (s.cs.execCall c) := by
    rw [← hsame]
    exact h.execCore hup.kernel hs.placed ha hN c
  have hcore {p : ServicePc} {c : Call} (hsame : s.cs.execCallChecked null c = s.cs.execCall c) :
      Agrees N Fault.OfLists (fun a' s' => Shows S a' s') (fun fuel => (a.gotoService p).execCore null fuel c) (do
        let cs ← s.cs.execCall c
        return { s.goto p with cs := cs }) := by
    rw [← hsame]
    exact ((h.goto p).execCore hup.kernel hs.placed ha hN c).right fun _ _ _ h' => h'
  have hrunning : a.running = s.cs.core.running := by
    obtain ⟨links, rfl⟩ := h.eta
    rfl
  unfold StoreSys.execResume Sys.execResume
  rw [h.spc, hrunning]
  cases hpc : s.spc s.cs.core.running with
  | user => exact .pure h
  | semWaitBlock => exact hcore rfl
  | semWaitReturn => exact .pure (h.goto .user)
  | msgportWait port =>
    have hempty : a.store.listIsEmpty (.messages port) = true ↔ s.svc.messageList port = [] := by
      rw [h.store.listIsEmpty (hup.waits _ port hpc), List.isEmpty_iff]
      exact List.map_eq_nil_iff
    have hport : a.store.data.svc.port = s.svc.port := by
      rw [h.store.data]
      rfl
    refine .ite hempty (fun _ => ?_) fun _ => hcore rfl
    rw [hport]
    exact (hcall rfl).right fun _ _ _ h' => h'
  | timerAddCheck tm delay =>
    obtain ⟨links, rfl⟩ := h.eta
    refine .ite Iff.rfl (fun _ => .pure (Shows.finishAdd ?_ tm delay)) fun _ => .pure (h.goto _)
    exact ⟨h.store.withSvc rfl rfl, rfl, rfl, rfl⟩
  | timerAddInsert tm delay =>
    refine .bind (h.store.timerAddInsert (hup.kernel (by simp [kernelHeaders])) hs.nested.balanced
      ((Nat.le_add_left ..).trans hN) tm) ?_
    intro st' k' _ h'
    exact .pure ((h.put h').finishAdd tm delay)
  | timerDelayTest tm =>
    rw [h.store.timer]
    exact .ite Iff.rfl (fun _ => hcore rfl) fun _ => .pure (h.goto _)
  | timerDelayFree tm =>
    refine .bind (h.store.lift (oblivious_timerFree tm)) ?_
    rintro st' k' - ⟨h', -, -⟩
    exact .pure ((h.put h').goto .user)

/-- **What an event does over pointers is what it does over sequences.** -/
theorem Shows.exec (null : Option String) (h : Shows S a s) (hup : HeadersUp S s) (hs : Sound s) (ha : AllNamed s.cs)
    (hN : s.kernel.load ≤ N) {e : SysEvent} (he : s.Enabled e) (hsem : ∀ sem, e.sem = some sem → .requests sem ∈ S) :
    Agrees N Fault.OfLists (fun a' s' => Shows (withHeader S e.initialises) a' s') (fun fuel => a.exec null fuel e)
      (s.execChecked null e) := by
  cases e with
  | core e => exact (h.execEvent hup.kernel hs.placed ha hN e).right fun _ _ _ h' => h'
  | call c => exact h.execCall hup hs hN he.2.2 hsem
  | resume => exact h.execResume hup hs ha hN
  | isr c => exact h.execService hup hs hN he.2 hsem
  | tim2 =>
    refine .bind (h.store.tim2IRQHandler (hup.kernel (by simp [kernelHeaders])) (hup.kernel (by simp [kernelHeaders]))
      ((Nat.le_add_right ..).trans hN) ((Nat.le_add_left ..).trans hN)) ?_
    intro st' k' _ h'
    exact .pure (h.put h')

end

end Martos
