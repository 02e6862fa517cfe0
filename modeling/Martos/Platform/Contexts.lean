import Martos.Core.Nesting
import Martos.Platform.Frames

/-!
# Context switches keep the registers

What a task's registers were when it was last switched out, and what it was given when it
was initialised, are read off the moves of a run (`Cpu.lastOut`, `Cpu.entry`). `Kept` says
where this is while the task does not run: in the frame its context points to, or, between
the two halves of the handler, in the frame whose address the handler was given. The frame
lies in the task's own stack area, and every step of the machine writes to that of the
running task alone; so the frame is there, unchanged, when the task is switched in.
-/

namespace Martos

open Blocks Transition

/-! ### The contexts in a step of the core -/

/-- A step that moves no context: the same task runs, in the same phase, and no task has
been initialised. -/
structure SameContexts (a b : CoreSys) : Prop where
  /-- The contexts. -/
  context : ∀ t, (b.core.task t).context = (a.core.task t).context
  /-- The running task. -/
  running : b.core.running = a.core.running
  /-- The phase of the handler. -/
  phase : b.phase = a.phase
  /-- The initialised tasks. -/
  fresh : ∀ t, b.life t = .fresh ↔ a.life t = .fresh

theorem SameContexts.of_step {a b : CoreSys} {ev : Event} (hn : Nested a) (hst : a.Step ev b)
    (he : ev.plain = true) : SameContexts a b := by
  have hsame {c : Core} {p : TaskRef → Pc} {d : TaskRef → ℕ}
      (hc : ∀ t, (c.task t).context = (a.core.task t).context) (hr : c.running = a.core.running) :
      SameContexts a ⟨c, p, a.phase, d, a.life⟩ := ⟨hc, hr, rfl, fun _ => Iff.rfl⟩
  cases hn.effect hst with
  | disable hu => exact hsame (fun _ => rfl) rfl
  | enable hu hd => exact hsame (fun _ => rfl) rfl
  | taskInit context hu hf => cases he
  | taskSchedule hu hi => exact ⟨fun _ => rfl, rfl, rfl, Life.update_fresh_iff (by simp [hi]) (by simp)⟩
  | taskSetPrio hu => exact hsame (Core.apply_update Task.context (by rfl)) rfl
  | signalAllocate target hu => exact hsame (Core.apply_update Task.context (by rfl)) rfl
  | signalFree hu hs => exact hsame (Core.apply_update Task.context (by rfl)) rfl
  | posted hw hev => exact hsame (Core.apply_update Task.context (by rfl)) rfl
  | woken hw hm hev => exact hsame (Core.apply_update Task.context (by rfl)) rfl
  | waitBlocks hu hnc hz hl =>
    refine hsame (fun t => ?_) rfl
    exact (Core.apply_update Task.context (by rfl) t).trans (Core.apply_update Task.context (by rfl) t)
  | waitReturns hu hnc hz =>
    refine hsame (fun t => ?_) rfl
    exact (Core.apply_update Task.context (by rfl) t).trans (Core.apply_update Task.context (by rfl) t)
  | inserts hth hpc hl =>
    exact ⟨Core.apply_update Task.context (by rfl), rfl, rfl, Life.update_fresh_iff (hn.scheduling _ _ hpc) (by simp)⟩
  | requests hth hpc => exact hsame (fun _ => rfl) rfl
  | yields hth hpc => exact hsame (fun _ => rfl) rfl
  | blocksAgain hth hpc hz hl => exact hsame (Core.apply_update Task.context (by rfl)) rfl
  | returns hth hpc hz => exact hsame (Core.apply_update Task.context (by rfl)) rfl
  | sysTick hm => exact hsame (fun _ => rfl) rfl
  | pendSV hph hm => cases he
  | preempts hph hs hl hh => cases he
  | leaves hph hs hor hh => cases he
  | pendSVExit hph => cases he

/-- What the switch does to the contexts: the frame of the task switched out. -/
theorem Nested.switch_context {a b : CoreSys} {frame : ℕ} (hn : Nested a) (hst : a.Step (.pendSVSwitch frame) b) :
    a.phase = .verified ∧ b.phase = .switched ∧ b.life = a.life ∧
    (∀ t ≠ a.core.running, (b.core.task t).context = (a.core.task t).context) ∧
    (b.core.task a.core.running).context = { (a.core.task a.core.running).context with frame := frame } := by
  -- both kinds of switch write the frame and then a state
  have hout (st : TaskState) (l : Seqs TaskList TaskRef) (u : TaskRef) :
      (∀ t ≠ a.core.running, ((Core.switchedIn { a.core.switchedOut frame st with lists := l } u).task t).context =
        (a.core.task t).context) ∧
      ((Core.switchedIn { a.core.switchedOut frame st with lists := l } u).task a.core.running).context =
        { (a.core.task a.core.running).context with frame := frame } := by
    have hin (t : TaskRef) :
        ((Core.switchedIn { a.core.switchedOut frame st with lists := l } u).task t).context =
          ((a.core.switchedOut frame st).task t).context := Core.apply_update Task.context (by rfl) t
    constructor
    · intro t ht
      rw [hin, Core.switchedOut, Core.modTask_of_ne ht]
    · rw [hin, Core.switchedOut, Core.modTask_self]
  cases hn.effect hst with
  | preempts hph hs hl hh => exact ⟨hph, rfl, rfl, hout .ready _ _⟩
  | leaves hph hs hor hh => exact ⟨hph, rfl, rfl, hout _ _ _⟩
  | posted hw he => rcases he with ⟨he, -⟩ | ⟨he, -⟩ <;> cases he
  | woken hw hm he => rcases he with ⟨he, -⟩ | ⟨he, -⟩ <;> cases he

/-- The context `taskcontext_init` sets up for a stack whose top is `tos`. -/
theorem context_of_taskcontextInit {stack stackSize : ℕ} {k : TaskContext} (h : taskcontextInit stack stackSize = .ok k)
    (hlt : stack + stackSize < 2 ^ 32) : k.tos = stack + stackSize ∧
      BitVec.ofNat 32 k.frame = BitVec.ofNat 32 (stack + stackSize) - 64 := by
  unfold taskcontextInit at h
  simp only [Checked.bind_eq_ok, Checked.pure_eq_ok] at h
  obtain ⟨-, -, -, -, -, -, rfl⟩ := h
  refine ⟨Nat.mod_eq_of_lt hlt, BitVec.eq_of_toNat_eq ?_⟩
  have h64 : (64 : Word).toNat = 64 := rfl
  rw [BitVec.toNat_sub, h64]
  simp only [stackFrameSize, BitVec.toNat_ofNat]
  omega

/-- What `task_init` does to the contexts: that of the new task. -/
theorem CoreSys.Step.init_context {a b : CoreSys} {t : TaskRef} {params : TaskParams}
    (hst : a.Step (.call (.taskInit t params)) b) (hlt : params.stack + params.stackSize < 2 ^ 32) :
    a.life t = .fresh ∧ b.life = Function.update a.life t .initialized ∧
    b.core.running = a.core.running ∧ b.phase = a.phase ∧ a.phase = .thread ∧
    (∀ u ≠ t, (b.core.task u).context = (a.core.task u).context) ∧
    (b.core.task t).context.tos = params.stack + params.stackSize ∧
    BitVec.ofNat 32 (b.core.task t).context.frame = BitVec.ofNat 32 (params.stack + params.stackSize) - 64 := by
  obtain ⟨hen, hex⟩ := hst
  simp only [CoreSys.exec, CoreSys.execCall, taskInit, Checked.bind_eq_ok, Checked.pure_eq_ok] at hex
  obtain ⟨-, ⟨k, hk, rfl⟩, rfl⟩ := hex
  obtain ⟨htos, hframe⟩ := context_of_taskcontextInit hk hlt
  refine ⟨hen.2.2, rfl, rfl, rfl, hen.1.1, fun u hu => ?_, ?_, ?_⟩
  · rw [Core.modTask_of_ne hu]
  · rw [Core.modTask_self]
    exact htos
  · rw [Core.modTask_self]
    exact hframe

/-! ### What the steps write -/

section

variable {l : Layout} {t : TaskRef} {a f : Word}

/-- The words of a frame that lies in a task's stack area belong to the task. -/
theorem Layout.owner_block (l : Layout) {n : ℕ} (hlo : l.bos t ≤ f.toNat) (hhi : f.toNat + 4 * n ≤ l.tos t)
    (ha : a ∈ block 4 f n) : l.owner a = .task t := by
  have htop := l.tos_lt t
  have hb := bounds_of_mem_block ha (by decide) (by omega)
  exact (l.task_iff a t).mpr ⟨by omega, by omega⟩

theorem Layout.owner_add (l : Layout) {i : ℕ} (hlo : l.bos t ≤ f.toNat) (hhi : f.toNat + i < l.tos t) :
    l.owner (f + BitVec.ofNat 32 i) = .task t := by
  have htop := l.tos_lt t
  have hi := toNat_add_ofNat (a := f) (i := i) (by omega)
  exact (l.task_iff _ t).mpr ⟨by omega, by omega⟩

/-- The word the handler pushes is on the main stack. -/
theorem Layout.owner_main (l : Layout) : l.owner (BitVec.ofNat 32 l.mainTos - 4) = .main := by
  have hlt := l.mainTos_lt
  have hroom := l.mainRoom
  have htos : (BitVec.ofNat 32 l.mainTos).toNat = l.mainTos := Nat.mod_eq_of_lt hlt
  have hnum : (BitVec.ofNat 32 l.mainTos - 4).toNat = (BitVec.ofNat 32 l.mainTos).toNat - 4 :=
    toNat_sub_ofNat (i := 4) (by omega)
  exact (l.main_iff _).mpr ⟨by omega, by omega⟩

end

/-- `taskcontext_init` writes the frame below the top of the stack and nothing else, and
puts the task's argument and entry point where the hardware expects r0 and pc. -/
theorem fillFrame_spec (initPc userData deadEnd tos : Word) (mem : Word → Word) :
    ∃ mem', fillFrame initPc userData deadEnd tos mem = some mem' ∧
      (∀ a ∉ block 4 (tos - 64) 16, mem' a = mem a) ∧
      mem' (tos - 64 + 32) = userData ∧ mem' (tos - 64 + 56) = initPc := by
  refine ⟨store mem (wordsWritten initPc userData deadEnd (tos - 64)), ?_,
    fun a ha => store_wordsWritten_of_notMem ha, ?_, ?_⟩
  · rw [fillFrame_eq_store, frameWrites_eq]
    rfl
  · simp [wordsWritten]
  · simp [wordsWritten]

/-! ### Saving and loading -/

section

variable (s : Cpu)

/-- What `PendSV_Handler` has done when it calls `PendSV_Handler_user`: the frame, of
sixteen words, is below PSP. -/
theorem Cpu.saveContext_mem : s.saveContext.mem =
    Function.update
      (store (store s.mem ((block 4 (s.psp - 64 + 32) 8).zip (load s.reg Reg.hardware)))
        ((block 4 (s.psp - 64) 8).zip (load s.reg Reg.software)))
      (s.msp - 4) excReturn := by
  have hhard : s.psp - 32 = s.psp - 64 + 32 := by bv_omega
  have hsoft : s.psp - 32 - 32 = s.psp - 64 := by bv_omega
  rw [← hhard, ← hsoft]
  rfl

theorem Cpu.saveContext_oldFrame : s.saveContext.oldFrame = s.psp - 64 := by
  have hsoft : s.psp - 32 - 32 = s.psp - 64 := by bv_omega
  rw [← hsoft]
  rfl

/-- What `PendSV_Handler` does when `PendSV_Handler_user` has returned a frame, if
EXC_RETURN is on the main stack. -/
theorem Cpu.loadContext_eq (hm : s.mem s.msp = excReturn) : s.loadContext =
    { s with
      psp := s.reg .r0 + 64
      msp := s.msp + 4
      reg := store (Function.update (Function.update
        (store s.reg (Reg.software.zip (load s.mem (block 4 (s.reg .r0) 8)))) .r0 (s.reg .r0 + 32)) .pc excReturn)
        (Reg.hardware.zip (load s.mem (block 4 (s.reg .r0 + 32) 8))) } := by
  have hpsp : s.reg .r0 + 64 = s.reg .r0 + 32 + 32 := by bv_omega
  have hpop : s.ldmR0.msrPspR0.mem s.ldmR0.msrPspR0.msp = excReturn := hm
  rw [Cpu.loadContext, Cpu.popPc, if_pos hpop, hpop, hpsp]
  rfl

/-- A frame that holds some registers gives them back. -/
theorem Cpu.loadContext_reg (hm : s.mem s.msp = excReturn) {reg : Reg → Word}
    (hs : load s.mem (block 4 (s.reg .r0) 8) = load reg Reg.software)
    (hh : load s.mem (block 4 (s.reg .r0 + 32) 8) = load reg Reg.hardware) : s.loadContext.reg = reg := by
  rw [Cpu.loadContext_eq s hm, hs, hh]
  funext r
  by_cases hr : r ∈ Reg.hardware
  · exact store_load _ reg hr
  · have hsoft : r ∈ Reg.software := by
      cases r <;> simp [Reg.hardware, Reg.software] at hr ⊢
    dsimp only
    rw [store_of_notMem, Function.update_of_ne, Function.update_of_ne]
    · exact store_load _ reg hsoft
    · intro h
      simp [h, Reg.software] at hsoft
    · intro h
      simp [h, Reg.software] at hsoft
    · intro w hw hwr
      exact hr (hwr ▸ (List.of_mem_zip hw).1)

/-- The argument and the entry point that `taskcontext_init` put into a frame are loaded. -/
theorem Cpu.loadContext_entry (hm : s.mem s.msp = excReturn) :
    s.loadContext.reg .r0 = s.mem (s.reg .r0 + 32) ∧ s.loadContext.reg .pc = s.mem (s.reg .r0 + 56) := by
  have hr0 : s.reg .r0 + 32 = s.reg .r0 + 32 + BitVec.ofNat 32 (4 * 0) := by bv_omega
  have hpc : s.reg .r0 + 56 = s.reg .r0 + 32 + BitVec.ofNat 32 (4 * 6) := by bv_omega
  rw [Cpu.loadContext_eq s hm]
  exact ⟨congrArg s.mem hr0.symm, congrArg s.mem hpc.symm⟩

end

/-! ### The records -/

/-- The registers and the stack pointer with which the task was last switched out. -/
def Cpu.lastOut (t : TaskRef) : List (Move Cpu CpuEvent) → Option ((Reg → Word) × Word) :=
  latest fun m => match m.event with
    | .pendSV => if m.pre.sys.core.running = t then some (m.pre.reg, m.pre.psp) else none
    | _ => none

/-- The entry point and the argument the task was initialised with. -/
def Cpu.entry (t : TaskRef) : List (Move Cpu CpuEvent) → Option (Word × Word) :=
  latest fun m => match m.event with
    | .taskInit u _ initPc userData => if u = t then some (initPc, userData) else none
    | _ => none

/-- The frame at `f` is in the task's stack area, and holds what the task had when it was
last switched out or, if it never was, what it starts with. -/
structure FrameAt (l : Layout) (tr : List (Move Cpu CpuEvent)) (mem : Word → Word) (t : TaskRef) (f : Word) : Prop where
  /-- It does not begin below the stack area. -/
  bos : l.bos t ≤ f.toNat
  /-- It does not end above it. -/
  tos : f.toNat + stackFrameSize ≤ l.tos t
  /-- The registers, where the task has been switched out. -/
  saved : ∀ reg psp, Cpu.lastOut t tr = some (reg, psp) → f + 64 = psp ∧
    load mem (block 4 f 8) = load reg Reg.software ∧ load mem (block 4 (f + 32) 8) = load reg Reg.hardware
  /-- The argument and the entry point, where it has not. -/
  first : Cpu.lastOut t tr = none → (f + 64).toNat = l.tos t ∧
    ∃ initPc userData, Cpu.entry t tr = some (initPc, userData) ∧ mem (f + 32) = userData ∧ mem (f + 56) = initPc

section

variable {l : Layout} {tr tr' : List (Move Cpu CpuEvent)} {mem mem' : Word → Word} {t : TaskRef} {f : Word}

theorem FrameAt.toNat_hard (h : FrameAt l tr mem t f) : (f + 32).toNat = f.toNat + 32 := by
  have hlt := l.tos_lt t
  have htos := h.tos
  exact toNat_add_ofNat (i := 32) (by simp only [stackFrameSize] at htos; omega)

/-- The frame stays while nothing is written to the task's stack and nothing new is
recorded of the task. -/
theorem FrameAt.congr (h : FrameAt l tr mem t f) (hm : ∀ a, l.owner a = .task t → mem' a = mem a)
    (ho : Cpu.lastOut t tr' = Cpu.lastOut t tr) (he : Cpu.entry t tr' = Cpu.entry t tr) :
    FrameAt l tr' mem' t f := by
  have hbos := h.bos
  have htos : f.toNat + 64 ≤ l.tos t := h.tos
  have hhard := h.toNat_hard
  have hsoft (a : Word) (ha : a ∈ block 4 f 8) : mem' a = mem a :=
    hm a (l.owner_block hbos (by omega) ha)
  have hrest (a : Word) (ha : a ∈ block 4 (f + 32) 8) : mem' a = mem a :=
    hm a (l.owner_block (by omega) (by omega) ha)
  refine ⟨hbos, h.tos, fun reg psp hs => ?_, fun hn => ?_⟩
  · obtain ⟨hpsp, h₁, h₂⟩ := h.saved reg psp (ho ▸ hs)
    exact ⟨hpsp, (load_congr hsoft).trans h₁, (load_congr hrest).trans h₂⟩
  · obtain ⟨htop, initPc, userData, hent, h₁, h₂⟩ := h.first (ho ▸ hn)
    refine ⟨htop, initPc, userData, he.trans hent, ?_, ?_⟩
    · exact (hm _ (l.owner_add (i := 32) hbos (by omega))).trans h₁
    · exact (hm _ (l.owner_add (i := 56) hbos (by omega))).trans h₂

/-- A frame that `taskcontext_init` has filled in, of a task that was never switched out. -/
theorem FrameAt.new {initPc userData : Word} (hbos : l.bos t ≤ f.toNat) (htos : f.toNat + stackFrameSize = l.tos t)
    (ho : Cpu.lastOut t tr = none) (he : Cpu.entry t tr = some (initPc, userData))
    (hr0 : mem (f + 32) = userData) (hpc : mem (f + 56) = initPc) : FrameAt l tr mem t f := by
  have hlt := l.tos_lt t
  refine ⟨hbos, htos.le, fun reg psp hs => ?_, fun _ => ⟨?_, initPc, userData, he, hr0, hpc⟩⟩
  · rw [ho] at hs
    cases hs
  · exact (toNat_add_ofNat (i := 64) (htos ▸ hlt)).trans htos

end

/-- Where the contexts of the tasks are. -/
structure Kept (l : Layout) (tr : List (Move Cpu CpuEvent)) (s : Cpu) : Prop where
  /-- The kernel is in a state that the machine of the core can be in. -/
  nested : Nested s.sys
  /-- The stack areas are those of the layout. -/
  tos : ∀ t, s.sys.life t ≠ .fresh → (s.sys.core.task t).context.tos = l.tos t
  /-- In the frame of its context, if the task does not run. -/
  frames : ∀ t, s.sys.life t ≠ .fresh → (t = s.sys.core.running → s.sys.phase = .switched) →
    FrameAt l tr s.mem t (BitVec.ofNat 32 (s.sys.core.task t).context.frame)
  /-- In the frame just saved. -/
  outgoing : s.sys.phase = .verified → FrameAt l tr s.mem s.sys.core.running s.oldFrame
  /-- The main stack is empty while a task runs. -/
  thread : s.sys.phase = .thread → s.msp = BitVec.ofNat 32 l.mainTos
  /-- The handler's way back is on the main stack. -/
  handler : s.sys.phase ≠ .thread → s.msp = BitVec.ofNat 32 l.mainTos - 4 ∧ s.mem s.msp = excReturn
  /-- A task that is not initialised has not been switched out. -/
  new : ∀ t, s.sys.life t = .fresh → Cpu.lastOut t tr = none

section

variable {l : Layout} {img : Image} {tr : List (Move Cpu CpuEvent)} {s s' : Cpu}

/-- A step that moves no context keeps them if it does not write to the stacks they are on. -/
theorem Kept.congr {e : CpuEvent} (h : Kept l tr s) (hn : Nested s'.sys) (hc : SameContexts s.sys s'.sys)
    (hmsp : s'.msp = s.msp) (hold : s'.oldFrame = s.oldFrame)
    (hm : ∀ a t, l.owner a = .task t → s.sys.life t ≠ .fresh →
      (t = s.sys.core.running → s.sys.phase ≠ .thread) → s'.mem a = s.mem a)
    (hmain : s.sys.phase ≠ .thread → s'.mem s.msp = s.mem s.msp)
    (hlo : ∀ t, Cpu.lastOut t (tr ++ [⟨s, e, s'⟩]) = Cpu.lastOut t tr)
    (hen : ∀ t, Cpu.entry t (tr ++ [⟨s, e, s'⟩]) = Cpu.entry t tr) :
    Kept l (tr ++ [⟨s, e, s'⟩]) s' where
  nested := hn
  tos t ht := by
    rw [hc.context]
    exact h.tos t (mt (hc.fresh t).mpr ht)
  frames t ht hr := by
    rw [hc.running, hc.phase] at hr
    have ht := mt (hc.fresh t).mpr ht
    rw [hc.context]
    refine (h.frames t ht hr).congr (fun a ha => hm a t ha ht fun htr => ?_) (hlo t) (hen t)
    rw [hr htr]
    decide
  outgoing hp := by
    rw [hc.phase] at hp
    rw [hc.running, hold]
    refine (h.outgoing hp).congr (fun a ha => hm a _ ha h.nested.runs fun _ => ?_) (hlo _) (hen _)
    rw [hp]
    decide
  thread hp := by
    rw [hmsp]
    exact h.thread (hc.phase ▸ hp)
  handler hp := by
    rw [hc.phase] at hp
    rw [hmsp, hmain hp]
    exact h.handler hp
  new t ht := (hlo t).trans (h.new t ((hc.fresh t).mp ht))

theorem SameContexts.refl (a : CoreSys) : SameContexts a a := ⟨fun _ => rfl, rfl, rfl, fun _ => Iff.rfl⟩

theorem Kept.core {e : Event} {sys : CoreSys} (h : Kept l tr s) (hp : e.plain = true) (hc : s.sys.Step e sys) :
    Kept l (tr ++ [⟨s, .core e, { s with sys := sys }⟩]) { s with sys := sys } := by
  refine h.congr (h.nested.step hc) (.of_step h.nested hc hp) rfl rfl (fun _ _ _ _ _ => rfl) (fun _ => rfl) ?_ ?_
  · exact fun t => latest_snoc ..
  · exact fun t => latest_snoc ..

theorem Kept.run {reg : Reg → Word} {psp : Word} {writes : List (Word × Word)} (h : Kept l tr s)
    (hok : s.Contract l (.run reg psp writes)) (hp : s.sys.phase = .thread) :
    Kept l (tr ++ [⟨s, .run reg psp writes, { s with reg := reg, psp := psp, mem := store s.mem writes }⟩])
      { s with reg := reg, psp := psp, mem := store s.mem writes } := by
  refine h.congr h.nested (.refl _) rfl rfl (fun a t ha ht hr => ?_) (fun hn => absurd hp hn) ?_ ?_
  · refine store_of_notMem fun w hw hwa => ?_
    rcases hok w hw t (hwa ▸ ha) with hrun | hfresh
    · exact hr hrun hp
    · exact ht hfresh
  · exact fun t => latest_snoc ..
  · exact fun t => latest_snoc ..

theorem Kept.handlerRun {writes : List (Word × Word)} (h : Kept l tr s)
    (hok : s.Contract l (.handlerRun writes)) (hp : s.sys.phase ≠ .thread) :
    Kept l (tr ++ [⟨s, .handlerRun writes, { s with mem := store s.mem writes }⟩])
      { s with mem := store s.mem writes } := by
  refine h.congr h.nested (.refl _) rfl rfl (fun a t ha ht _ => ?_) (fun _ => ?_) ?_ ?_
  · exact store_of_notMem fun w hw hwa => ht ((hok w hw).1 t (hwa ▸ ha))
  · -- the word at the stack pointer is not below it
    refine store_of_notMem fun w hw hwa => ?_
    have hown : l.owner w.1 = .main := by
      rw [hwa, (h.handler hp).1]
      exact l.owner_main
    have hlt := (hok w hw).2 hown
    rw [hwa] at hlt
    exact lt_irrefl _ hlt
  · exact fun t => latest_snoc ..
  · exact fun t => latest_snoc ..

theorem Kept.taskInit {t : TaskRef} {params : TaskParams} {initPc userData : Word} {sys : CoreSys}
    {mem : Word → Word} (h : Kept l tr s) (hok : s.Contract l (.taskInit t params initPc userData))
    (hc : s.sys.Step (.call (.taskInit t params)) sys)
    (hf : fillFrame initPc userData img.deadEnd (BitVec.ofNat 32 (params.stack + params.stackSize)) s.mem = some mem) :
    Kept l (tr ++ [⟨s, .taskInit t params initPc userData, { s with sys := sys, mem := mem }⟩])
      { s with sys := sys, mem := mem } := by
  obtain ⟨hbos, htos, hsize⟩ := hok
  have hlt := l.tos_lt t
  obtain ⟨hfresh, hlife, hrun, hphase, hthread, hothers, hctos, hcframe⟩ := hc.init_context (by omega)
  obtain ⟨mem', hf', hkeep, hr0, hpc⟩ := fillFrame_spec initPc userData img.deadEnd
    (BitVec.ofNat 32 (params.stack + params.stackSize)) s.mem
  obtain rfl := Option.some.inj (hf.symm.trans hf')
  rw [← hcframe] at hkeep hr0 hpc
  have htr : t ≠ s.sys.core.running := fun heq => h.nested.runs (heq ▸ hfresh)
  -- the new frame, as numbers
  have hsize : 64 ≤ params.stackSize := hsize
  have hf64 : (BitVec.ofNat 32 (sys.core.task t).context.frame).toNat + 64 = l.tos t := by
    have htop : (BitVec.ofNat 32 (l.tos t)).toNat = l.tos t := Nat.mod_eq_of_lt hlt
    have hsub : (BitVec.ofNat 32 (l.tos t) - 64).toNat = (BitVec.ofNat 32 (l.tos t)).toNat - 64 :=
      toNat_sub_ofNat (i := 64) (by omega)
    rw [hcframe, htos, hsub]
    omega
  -- the stacks of the other tasks are not written
  have hmem {u : TaskRef} (hu : u ≠ t) (a : Word) (ha : l.owner a = .task u) : mem a = s.mem a := by
    refine hkeep a fun hin => hu ?_
    have hown := l.owner_block (t := t) (by omega) (by omega) hin
    exact Owner.task.inj (ha.symm.trans hown)
  have hent {u : TaskRef} (hu : u ≠ t) : Cpu.entry u
      (tr ++ [⟨s, .taskInit t params initPc userData, { s with sys := sys, mem := mem }⟩]) = Cpu.entry u tr := by
    exact (latest_snoc ..).trans (congrArg (Option.or · _) (if_neg hu.symm))
  have hfresh' {u : TaskRef} (hu : u ≠ t) : sys.life u = s.sys.life u := by rw [hlife, Function.update_of_ne hu]
  exact {
    nested := h.nested.step hc
    tos := fun u hu => by
      by_cases hut : u = t
      · subst hut
        exact hctos.trans htos
      · rw [hothers u hut]
        exact h.tos u (hfresh' hut ▸ hu)
    frames := fun u hu hr => by
      by_cases hut : u = t
      · subst hut
        have hbos' : l.bos u ≤ (BitVec.ofNat 32 (sys.core.task u).context.frame).toNat := by omega
        refine FrameAt.new hbos' hf64 ((latest_snoc ..).trans (h.new u hfresh)) ?_ hr0 hpc
        exact (latest_snoc ..).trans (congrArg (Option.or · _) (if_pos rfl))
      · rw [hothers u hut]
        refine (h.frames u (hfresh' hut ▸ hu) fun hur => ?_).congr (hmem hut) (latest_snoc ..) (hent hut)
        rw [← hphase]
        exact hr (hrun ▸ hur)
    outgoing := fun hp => by
      rw [hphase, hthread] at hp
      cases hp
    thread := fun _ => h.thread hthread
    handler := fun hp => absurd (hphase.trans hthread) hp
    new := fun u hu => by
      refine (latest_snoc ..).trans (h.new u ?_)
      by_cases hut : u = t
      · exact hut ▸ hfresh
      · exact hfresh' hut ▸ hu }

/-- Taking PendSV leaves the frame of the running task below its stack pointer, and writes
to no other task's stack. -/
theorem Cpu.saveContext_frame (hok : s.Contract l .pendSV) (hmsp : s.msp = BitVec.ofNat 32 l.mainTos) :
    l.bos s.sys.core.running ≤ (s.psp - 64).toNat ∧ (s.psp - 64).toNat + 64 ≤ l.tos s.sys.core.running ∧
    load s.saveContext.mem (block 4 (s.psp - 64) 8) = load s.reg Reg.software ∧
    load s.saveContext.mem (block 4 (s.psp - 64 + 32) 8) = load s.reg Reg.hardware ∧
    ∀ a t, l.owner a = .task t → t ≠ s.sys.core.running → s.saveContext.mem a = s.mem a := by
  obtain ⟨hlo, hhi⟩ := hok
  have hlo : l.bos s.sys.core.running + 64 ≤ s.psp.toNat := hlo
  have hlt := l.tos_lt s.sys.core.running
  have hf : (s.psp - 64).toNat = s.psp.toNat - 64 := toNat_sub_ofNat (i := 64) (by omega)
  have hh : (s.psp - 64 + 32).toNat = (s.psp - 64).toNat + 32 := toNat_add_ofNat (i := 32) (by omega)
  -- the two halves of the frame are on the task's stack
  have hsoft {a : Word} (ha : a ∈ block 4 (s.psp - 64) 8) : l.owner a = .task s.sys.core.running :=
    l.owner_block (by omega) (by omega) ha
  have hhard {a : Word} (ha : a ∈ block 4 (s.psp - 64 + 32) 8) : l.owner a = .task s.sys.core.running :=
    l.owner_block (by omega) (by omega) ha
  -- and the word pushed is on the main stack
  have hmain {a : Word} {t : TaskRef} (ha : l.owner a = .task t) : a ≠ s.msp - 4 := by
    intro heq
    rw [heq, hmsp, l.owner_main] at ha
    cases ha
  refine ⟨by omega, by omega, ?_, ?_, fun a t ha ht => ?_⟩
  · rw [Cpu.saveContext_mem, load_congr fun a ha => Function.update_of_ne (hmain (hsoft ha)) _ _]
    exact load_store_zip (nodup_block (by decide) (by omega)) rfl
  · rw [Cpu.saveContext_mem, load_congr fun a ha => Function.update_of_ne (hmain (hhard ha)) _ _,
      load_store_of_disjoint]
    · exact load_store_zip (nodup_block (by decide) (by omega)) rfl
    · intro w hw hin
      have h₁ := bounds_of_mem_block (List.of_mem_zip hw).1 (by decide) (by omega)
      have h₂ := bounds_of_mem_block hin (by decide) (by omega)
      omega
  · rw [Cpu.saveContext_mem, Function.update_of_ne (hmain ha), store_of_notMem, store_of_notMem]
    · intro w hw hwa
      exact ht (Owner.task.inj (ha.symm.trans (hwa ▸ hhard (List.of_mem_zip hw).1)))
    · intro w hw hwa
      exact ht (Owner.task.inj (ha.symm.trans (hwa ▸ hsoft (List.of_mem_zip hw).1)))

/-- PendSV is taken from a task, and the handler begins. -/
theorem Nested.pendSV_eq {a b : CoreSys} (hn : Nested a) (hst : a.Step .pendSV b) :
    a.phase = .thread ∧ b = { a with core := { a.core with pendSV := false }, phase := .verified } := by
  cases hn.effect hst with
  | pendSV hp hm => exact ⟨hp, rfl⟩
  | posted hw he => rcases he with ⟨he, -⟩ | ⟨he, -⟩ <;> cases he
  | woken hw hm he => rcases he with ⟨he, -⟩ | ⟨he, -⟩ <;> cases he

theorem Nested.pendSVExit_eq {a b : CoreSys} (hn : Nested a) (hst : a.Step .pendSVExit b) :
    a.phase = .switched ∧ b = { a with phase := .thread } := by
  cases hn.effect hst with
  | pendSVExit hp => exact ⟨hp, rfl⟩
  | posted hw he => rcases he with ⟨he, -⟩ | ⟨he, -⟩ <;> cases he
  | woken hw hm he => rcases he with ⟨he, -⟩ | ⟨he, -⟩ <;> cases he

theorem Kept.pendSV {sys : CoreSys} (h : Kept l tr s) (hok : s.Contract l .pendSV) (hc : s.sys.Step .pendSV sys) :
    Kept l (tr ++ [⟨s, .pendSV, { s.saveContext with sys := sys }⟩]) { s.saveContext with sys := sys } := by
  have hnested := h.nested.step hc
  obtain ⟨hthread, rfl⟩ := h.nested.pendSV_eq hc
  have hmsp := h.thread hthread
  obtain ⟨hlo, hhi, hsoft, hhard, hothers⟩ := Cpu.saveContext_frame hok hmsp
  generalize hpost : ({ s.saveContext with sys := _ } : Cpu) = s'
  have hent (t : TaskRef) : Cpu.entry t (tr ++ [⟨s, .pendSV, s'⟩]) = Cpu.entry t tr := latest_snoc ..
  have hout {t : TaskRef} (ht : t ≠ s.sys.core.running) :
      Cpu.lastOut t (tr ++ [⟨s, .pendSV, s'⟩]) = Cpu.lastOut t tr :=
    (latest_snoc ..).trans (congrArg (Option.or · _) (if_neg ht.symm))
  have hself : Cpu.lastOut s.sys.core.running (tr ++ [⟨s, .pendSV, s'⟩]) = some (s.reg, s.psp) :=
    (latest_snoc ..).trans (congrArg (Option.or · _) (if_pos rfl))
  subst hpost
  exact {
    nested := hnested
    tos := h.tos
    frames := fun t ht hr => by
      have hne : t ≠ s.sys.core.running := fun heq => nomatch hr heq
      have hold := h.frames t ht fun heq => absurd heq hne
      exact hold.congr (fun a ha => hothers a t ha hne) (hout hne) (hent t)
    outgoing := fun _ => by
      rw [Cpu.saveContext_oldFrame]
      refine ⟨hlo, hhi, fun reg psp hs => ?_, fun hn => ?_⟩
      · obtain ⟨rfl, rfl⟩ := Prod.mk.inj (Option.some.inj (hself.symm.trans hs))
        exact ⟨BitVec.sub_add_cancel _ _, hsoft, hhard⟩
      · cases hself.symm.trans hn
    thread := fun hp => nomatch hp
    handler := fun _ => by
      refine ⟨congrArg (· - 4) hmsp, ?_⟩
      rw [Cpu.saveContext_mem]
      exact Function.update_self ..
    new := fun t ht => by
      have hne : t ≠ s.sys.core.running := fun heq => h.nested.runs (heq ▸ ht)
      exact (hout hne).trans (h.new t ht) }

theorem Kept.pendSVSwitch {sys : CoreSys} (h : Kept l tr s)
    (hc : s.sys.Step (.pendSVSwitch s.oldFrame.toNat) sys) :
    Kept l (tr ++ [⟨s, .pendSVSwitch, { s with sys := sys }⟩]) { s with sys := sys } := by
  obtain ⟨hp, hp', hlife, hothers, hself⟩ := h.nested.switch_context hc
  have hhandler := h.handler (by rw [hp]; decide)
  exact {
    nested := h.nested.step hc
    tos := fun t ht => by
      have ht : s.sys.life t ≠ .fresh := hlife ▸ ht
      by_cases hr : t = s.sys.core.running
      · subst hr
        exact (congrArg TaskContext.tos hself).trans (h.tos _ ht)
      · exact (congrArg TaskContext.tos (hothers t hr)).trans (h.tos t ht)
    frames := fun t ht _ => by
      have ht : s.sys.life t ≠ .fresh := hlife ▸ ht
      by_cases hr : t = s.sys.core.running
      · subst hr
        have hframe : BitVec.ofNat 32 (sys.core.task s.sys.core.running).context.frame = s.oldFrame := by
          rw [hself]
          exact BitVec.eq_of_toNat_eq (Nat.mod_eq_of_lt s.oldFrame.isLt)
        rw [hframe]
        exact (h.outgoing hp).congr (fun _ _ => rfl) (latest_snoc ..) (latest_snoc ..)
      · rw [hothers t hr]
        exact (h.frames t ht fun heq => absurd heq hr).congr (fun _ _ => rfl) (latest_snoc ..) (latest_snoc ..)
    outgoing := fun hv => nomatch hp'.symm.trans hv
    thread := fun hv => nomatch hp'.symm.trans hv
    handler := fun _ => hhandler
    new := fun t ht => (latest_snoc ..).trans (h.new t (hlife ▸ ht)) }

theorem Kept.pendSVExit {reg : Reg → Word} {sys : CoreSys} {s' : Cpu} (h : Kept l tr s)
    (hc : s.sys.Step .pendSVExit sys) (hs' : (s.handlerReturns reg sys).loadContext = s') :
    Kept l (tr ++ [⟨s, .pendSVExit reg, s'⟩]) s' := by
  have hnested := h.nested.step hc
  obtain ⟨hp, rfl⟩ := h.nested.pendSVExit_eq hc
  obtain ⟨hmsp, hret⟩ := h.handler (by rw [hp]; decide)
  rw [Cpu.loadContext_eq (s.handlerReturns reg _) hret] at hs'
  have hent (t : TaskRef) : Cpu.entry t (tr ++ [⟨s, .pendSVExit reg, s'⟩]) = Cpu.entry t tr := latest_snoc ..
  have hout (t : TaskRef) : Cpu.lastOut t (tr ++ [⟨s, .pendSVExit reg, s'⟩]) = Cpu.lastOut t tr := latest_snoc ..
  subst hs'
  exact {
    nested := hnested
    tos := h.tos
    frames := fun t ht _ => (h.frames t ht fun _ => hp).congr (fun _ _ => rfl) (hout t) (hent t)
    outgoing := fun hv => nomatch hv
    thread := fun _ => (congrArg (· + 4) hmsp).trans (BitVec.sub_add_cancel _ _)
    handler := fun hv => absurd rfl hv
    new := fun t ht => (hout t).trans (h.new t ht) }

theorem Kept.step {e : CpuEvent} (h : Kept l tr s) (hok : s.Contract l e) (hst : s.Step img e s') :
    Kept l (tr ++ [⟨s, e, s'⟩]) s' := by
  cases hst.effect with
  | core hp hc => exact h.core hp hc
  | taskInit hc hf => exact h.taskInit hok hc hf
  | run hp => exact h.run hok hp
  | handlerRun hp => exact h.handlerRun hok hp
  | pendSV hc => exact h.pendSV hok hc
  | pendSVSwitch hc => exact h.pendSVSwitch hc
  | pendSVExit hc => exact h.pendSVExit hc rfl

/-- The context of the init task when `martos_pre` has returned. -/
theorem context_of_martosPre {cfg : Config} {c : Core} (h : martosPre cfg = .ok c) :
    c.running = initTask ∧ taskcontextInit cfg.initStack cfg.initStackSize = .ok (c.task initTask).context := by
  unfold martosPre taskInit at h
  simp only [Checked.bind_eq_ok, Checked.pure_eq_ok] at h
  obtain ⟨-, ⟨k, hk, rfl⟩, d, hd, rfl⟩ := h
  rw [Core.taskVerify_eq ⟨rfl, le_refl (-1 : ℤ)⟩] at hd
  simp only [Checked.bind_eq_ok, Checked.pure_eq_ok] at hd
  obtain ⟨-, -, rfl⟩ := hd
  refine ⟨rfl, hk.trans ?_⟩
  simp

/-- The init task starts at its entry point, with NULL as its argument and its stack
empty. -/
theorem Cpu.start_spec {cfg : Config} {reg : Reg → Word} {mem : Word → Word} (hfit : cfg.Fits l)
    (h : Cpu.start img cfg l reg mem = some s) : Kept l [] s ∧
      s.reg .pc = img.initTaskF ∧ s.reg .r0 = 0 ∧ s.psp.toNat = (s.sys.core.task initTask).context.tos := by
  obtain ⟨hbos, htos, hsize⟩ := hfit
  have hlt := l.tos_lt initTask
  obtain ⟨c, hc, h⟩ := Option.bind_eq_some_iff.mp h
  obtain ⟨mem', hf, h⟩ := Option.bind_eq_some_iff.mp h
  cases h
  have hc := Checked.eq_ok_of_toOption hc
  obtain ⟨hrun, hk⟩ := context_of_martosPre hc
  obtain ⟨hctos, hcframe⟩ := context_of_taskcontextInit hk (by omega)
  obtain ⟨mem'', hf', hkeep, hr0, hpc⟩ := fillFrame_spec img.initTaskF 0 img.deadEnd
    (BitVec.ofNat 32 (cfg.initStack + cfg.initStackSize)) mem
  obtain rfl := Option.some.inj (hf.symm.trans hf')
  rw [← hcframe] at hr0 hpc
  refine ⟨?_, ?_, ?_, ?_⟩
  · exact {
      nested := Nested.start hc
      tos := fun t ht => by
        have ht : t = initTask := by
          by_contra hne
          exact ht (if_neg hne)
        subst ht
        exact hctos.trans htos
      frames := fun t ht hr => by
        have ht : t = initTask := by
          by_contra hne
          exact ht (if_neg hne)
        cases hr (ht.trans hrun.symm)
      outgoing := fun hp => nomatch hp
      thread := fun _ => rfl
      handler := fun hp => absurd rfl hp
      new := fun _ _ => rfl }
  · refine Eq.trans ?_ hpc
    exact congrArg mem' (by bv_omega)
  · refine Eq.trans ?_ hr0
    exact congrArg mem' (by bv_omega)
  · change (BitVec.ofNat 32 (c.task initTask).context.frame + 64).toNat = (c.task initTask).context.tos
    rw [hcframe, BitVec.sub_add_cancel, hctos]
    exact Nat.mod_eq_of_lt (by omega)

/-- The running task goes on with all registers and the stack pointer as they were when it
was last switched out; a task that never was starts at its entry point, with its argument
in r0 and its stack empty. -/
def Cpu.Resumes (tr : List (Move Cpu CpuEvent)) (s : Cpu) : Prop :=
  match Cpu.lastOut s.sys.core.running tr with
  | some (reg, psp) => s.reg = reg ∧ s.psp = psp
  | none => ∃ initPc userData, Cpu.entry s.sys.core.running tr = some (initPc, userData) ∧
      s.reg .pc = initPc ∧ s.reg .r0 = userData ∧
      s.psp.toNat = (s.sys.core.task s.sys.core.running).context.tos

theorem Kept.resumes {reg : Reg → Word} (h : Kept l tr s) (hst : s.Step img (.pendSVExit reg) s') :
    Cpu.Resumes tr s' := by
  cases hst.effect with
  | pendSVExit hc =>
    obtain ⟨hp, rfl⟩ := h.nested.pendSVExit_eq hc
    obtain ⟨-, hret⟩ := h.handler (by rw [hp]; decide)
    have hframe := h.frames _ h.nested.runs fun _ => hp
    have htos := h.tos _ h.nested.runs
    generalize hs₁ : s.handlerReturns reg { s.sys with phase := .thread } = s₁
    have hret : s₁.mem s₁.msp = excReturn := hs₁ ▸ hret
    have hr0 : s₁.reg .r0 = BitVec.ofNat 32 (s.sys.core.task s.sys.core.running).context.frame := hs₁ ▸ rfl
    have hcore : s₁.loadContext.sys.core = s.sys.core := by rw [Cpu.loadContext_eq _ hret, ← hs₁]; rfl
    have hmem : s₁.mem = s.mem := hs₁ ▸ rfl
    have hpsp : s₁.loadContext.psp = s₁.reg .r0 + 64 := by rw [Cpu.loadContext_eq _ hret]
    rw [← hr0, ← hmem] at hframe
    unfold Cpu.Resumes
    rw [hcore]
    cases hlast : Cpu.lastOut s.sys.core.running tr with
    | some p =>
      obtain ⟨hp, hsoft, hhard⟩ := hframe.saved p.1 p.2 hlast
      exact ⟨Cpu.loadContext_reg s₁ hret hsoft hhard, hpsp.trans hp⟩
    | none =>
      obtain ⟨htop, initPc, userData, hent, h₁, h₂⟩ := hframe.first hlast
      obtain ⟨hr₀, hpc⟩ := Cpu.loadContext_entry s₁ hret
      refine ⟨initPc, userData, hent, hpc.trans h₂, hr₀.trans h₁, ?_⟩
      rw [hpsp, htop, htos]

end

/-- **Context switches keep every task's registers.** In every run, from any contents of the
registers and the memory after reset: the init task starts at its entry point; and whenever
the handler returns to a task, the task goes on with r4-r11, the registers of the hardware
frame and the stack pointer as they were when it was last switched out, or, the first time,
at its `init_pc` with `user_data` in r0 and the stack pointer at the top of its stack. -/
theorem context_switches_keep_registers {cfg : Config} {l : Layout} {img : Image} {reg : Reg → Word}
    {mem : Word → Word} (hfit : cfg.Fits l) {s₀ s : Cpu} (h₀ : Cpu.start img cfg l reg mem = some s₀)
    {tr : List (Move Cpu CpuEvent)} (hr : Run (Restrict (Cpu.Contract l) (Cpu.Step img)) s₀ tr s) :
    (s₀.reg .pc = img.initTaskF ∧ s₀.reg .r0 = 0 ∧
      s₀.psp.toNat = (s₀.sys.core.task initTask).context.tos) ∧
    ∀ tr₁ m tr₂, tr = tr₁ ++ m :: tr₂ → ∀ left, m.event = .pendSVExit left → Cpu.Resumes tr₁ m.post := by
  obtain ⟨hkept, hstart⟩ := Cpu.start_spec hfit h₀
  refine ⟨hstart, fun tr₁ m tr₂ htr left hm => ?_⟩
  obtain ⟨hr₁, hst, -⟩ := hr.split htr
  have hk : Kept l tr₁ m.pre := hr₁.history hkept fun tr s e s' _ hk hst => hk.step hst.1 hst.2
  exact hk.resumes (hm ▸ hst.2)

/-- The stacks of two tasks, of a kilobyte each, and the main stack. -/
def Layout.twoTasks : Layout where
  bos t := if t = 0 then 0x20000000 else if t = 1 then 0x20001000 else 0
  tos t := if t = 0 then 0x20000400 else if t = 1 then 0x20001400 else 0
  mainBos := 0x2001F000
  mainTos := 0x20020000
  owner a :=
    if 0x20000000 ≤ a.toNat ∧ a.toNat < 0x20000400 then .task 0
    else if 0x20001000 ≤ a.toNat ∧ a.toNat < 0x20001400 then .task 1
    else if 0x2001F000 ≤ a.toNat ∧ a.toNat < 0x20020000 then .main
    else .none
  task_iff a t := by
    by_cases h₀ : t = 0
    · subst h₀
      grind
    · by_cases h₁ : t = 1
      · subst h₁
        grind
      · grind
  main_iff a := by grind
  tos_lt t := by
    split_ifs <;> decide
  mainTos_lt := by decide
  mainRoom := by decide

/-- The init task starts task 1, which runs a little, with its own values in all registers,
is preempted by the init task, and is about to go on. -/
def CpuEvent.exampleTrace : List CpuEvent :=
  [.taskInit 1 ⟨some "one", 5, 0x20001000, 1024⟩ 0x08000100 77, .core (.call (.taskSchedule 1)), .core .resume,
    .core .resume,
    .pendSV, .pendSVSwitch, .pendSVExit fun _ => 9,
    .core (.call (.taskSetPrio initTask taskPrioMin)), .pendSV, .pendSVSwitch, .pendSVExit fun _ => 9,
    .run (fun _ => 7) 0x20001380 [(0x20001380, 5)], .core (.call (.taskSetPrio 1 taskPrioMin)),
    .pendSV, .handlerRun [(0x2001FF00, 3)], .pendSVSwitch, .pendSVExit fun _ => 9,
    .run (fun _ => 8) 0x20000200 [(0x20000200, 6)], .core (.call (.taskSetPrio initTask taskPrioMin)),
    .pendSV, .pendSVSwitch]

/-- The theorem at the end of that run. -/
theorem context_switches_keep_registers_twice : CoreSys.exampleConfig.Fits Layout.twoTasks ∧
    ∃ s₀ tr₁ s₁ s₂ s, Cpu.start ⟨0x08000200, 0x08000300⟩ CoreSys.exampleConfig Layout.twoTasks
        (fun _ => 0) (fun _ => 0) = some s₀ ∧
      Run (Restrict (Cpu.Contract Layout.twoTasks) (Cpu.Step ⟨0x08000200, 0x08000300⟩)) s₀
        (tr₁ ++ [⟨s₁, .pendSVExit fun _ => 9, s₂⟩]) s ∧
      s₂.sys.core.running = 1 ∧ s₂.reg .r7 = 7 ∧ s₂.psp = 0x20001380 ∧ Cpu.Resumes tr₁ s₂ := by
  have hfit : CoreSys.exampleConfig.Fits Layout.twoTasks := ⟨rfl, rfl, by decide⟩
  refine ⟨hfit, ?_⟩
  have hrep : ((Cpu.start ⟨0x08000200, 0x08000300⟩ CoreSys.exampleConfig Layout.twoTasks (fun _ => 0)
      fun _ => 0).any fun s₀ =>
      (replay (nextIf (Cpu.Contract Layout.twoTasks) (Cpu.next ⟨0x08000200, 0x08000300⟩)) s₀
          CpuEvent.exampleTrace).any fun s₁ =>
        (nextIf (Cpu.Contract Layout.twoTasks) (Cpu.next ⟨0x08000200, 0x08000300⟩) s₁
          (.pendSVExit fun _ => 9)).any fun s₂ =>
          decide (s₂.sys.core.running = 1 ∧ s₂.reg .r7 = 7 ∧ s₂.psp = 0x20001380)) = true := by decide +kernel
  obtain ⟨s₀, h₀, hrep⟩ := (Option.any_eq_true ..).mp hrep
  obtain ⟨s₁, h₁, hrep⟩ := (Option.any_eq_true ..).mp hrep
  obtain ⟨s₂, h₂, hrep⟩ := (Option.any_eq_true ..).mp hrep
  obtain ⟨tr₁, hr₁, -⟩ := Run.of_replay (restrict_of_nextIf fun _ _ _ h => h) h₁
  have hr := hr₁.snoc (restrict_of_nextIf (fun _ _ _ h => h) _ _ _ h₂)
  obtain ⟨hrun, hr7, hpsp⟩ := of_decide_eq_true hrep
  exact ⟨s₀, tr₁, s₁, s₂, s₂, h₀, hr, hrun, hr7, hpsp,
    (context_switches_keep_registers hfit h₀ hr).2 tr₁ _ [] rfl _ rfl⟩

end Martos
