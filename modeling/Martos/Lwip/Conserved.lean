import Martos.Lwip.Fetching

/-!
# The blocks of a mailbox

`sys_mbox_post` gets a block from `mem_malloc` for its message, and the fetch that takes the
message gives it back with `mem_free`. In between the block is in the hands of the post, on the
mailbox's list, or in the hands of the fetch (`MboxSys.InUse`); only these functions move it from
one place to the next (`BlockChange`). So no block is lost, none is freed twice or read after it
has been freed, and what is read from a block is what was stored in it last
(`mailbox_conserves_blocks`).
-/

namespace Martos

open Checked Transition

namespace MboxSys

variable (mbox : PortRef) (t : TaskRef) (s : MboxSys)

/-- The block that `mem_malloc` hands out in a move, and the payload that is stored in it. -/
def memMallocs (m : Move MboxSys MboxEvent) : Option (MsgRef × VoidPtr) :=
  match m.event with
  | .post b msg => some (b, msg)
  | _ => none

/-- The block that `mem_free` takes back in a move. -/
def memFrees (m : Move MboxSys MboxEvent) : Option MsgRef :=
  match m.event, m.pre.mpc m.pre.running with
  | .step, .fetchRead _ _ (some b) => some b
  | .step, .tryRead (some b) => some b
  | _, _ => none

/-- The payload that is stored in block `b` in a move. -/
def stores (b : MsgRef) (m : Move MboxSys MboxEvent) : Option VoidPtr :=
  (memMallocs m).bind fun p => if p.1 = b then some p.2 else none

/-- A mailbox function works on the block, or it is on the mailbox's list. -/
def InUse (b : MsgRef) : Prop := (∃ u, s.mpc u = .postSend b) ∨ b ∈ s.unread mbox t

end MboxSys

/-- What a step does to the memory. -/
inductive MemChange (s : MboxSys) (ev : MboxEvent) (s' : MboxSys) : Prop where
  /-- Nothing. -/
  | keeps (hm : MboxSys.memMallocs ⟨s, ev, s'⟩ = none) (hf : MboxSys.memFrees ⟨s, ev, s'⟩ = none)
      (ht : MboxSys.takes ⟨s, ev, s'⟩ = none) (ha : s'.allocated = s.allocated) (hp : s'.ptr = s.ptr)
  /-- A post gets a block. -/
  | mallocs (b : MsgRef) (msg : VoidPtr) (he : ev = .post b msg) (hf : MboxSys.memFrees ⟨s, ev, s'⟩ = none)
      (ht : MboxSys.takes ⟨s, ev, s'⟩ = none) (ha : s'.allocated = Function.update s.allocated b true)
      (hp : s'.ptr = Function.update s.ptr b msg) (hs : s'.mpc = Function.update s.mpc s.running (.postSend b))
  /-- A fetch reads a block and frees it. -/
  | frees (b : MsgRef) (hm : MboxSys.memMallocs ⟨s, ev, s'⟩ = none) (hf : MboxSys.memFrees ⟨s, ev, s'⟩ = some b)
      (ht : MboxSys.takes ⟨s, ev, s'⟩ = some (s.ptr b)) (ha : s'.allocated = Function.update s.allocated b false)
      (hp : s'.ptr = s.ptr)

section

variable {mbox : PortRef} {t : TaskRef} {s s' : MboxSys} {ev : MboxEvent}

/-- What is read in a move is the payload of the block that is freed. -/
theorem MboxSys.takes_eq (m : Move MboxSys MboxEvent) : MboxSys.takes m = (MboxSys.memFrees m).map m.pre.ptr := by
  unfold MboxSys.takes MboxSys.memFrees
  generalize m.event = ev
  generalize m.pre.mpc m.pre.running = p
  cases ev with
  | step =>
    cases p with
    | fetchRead f timerSignal b => cases b <;> rfl
    | tryRead b => cases b <;> rfl
    | _ => rfl
  | _ => rfl

theorem MboxSys.memFrees_of_held {p : MboxPc} (hp : s.mpc s.running = p) (hh : p.held = []) :
    MboxSys.memFrees ⟨s, ev, s'⟩ = none := by
  unfold MboxSys.memFrees
  dsimp only
  rw [hp]
  split
  · cases hh
  · cases hh
  · rfl

theorem MboxEffect.memChange (heff : MboxEffect mbox s ev s') : MemChange s ev s' := by
  have hkeeps {p : MboxPc} {s' : MboxSys} (hp : s.mpc s.running = p) (hh : p.held = [])
      (ha : s'.allocated = s.allocated) (hptr : s'.ptr = s.ptr) : MemChange s .step s' := by
    have hf : MboxSys.memFrees ⟨s, .step, s'⟩ = none := MboxSys.memFrees_of_held hp hh
    refine .keeps rfl hf ?_ ha hptr
    rw [MboxSys.takes_eq, hf, Option.map_none]
  cases heff with
  | sys hp hst => exact .keeps rfl rfl rfl rfl rfl
  | @post b msg hu hp => exact .mallocs b msg rfl rfl rfl rfl rfl rfl
  | fetch hu hp => exact .keeps rfl rfl rfl rfl rfl
  | tryfetch hu hp => exact .keeps rfl rfl rfl rfl rfl
  | free hp hst => exact .keeps rfl rfl rfl rfl rfl
  | @reads f timerSignal b hu hp =>
    exact .frees b rfl (by simp only [MboxSys.memFrees, hp]) (by simp only [MboxSys.takes, hp]) rfl rfl
  | @tryReads b hu hp =>
    exact .frees b rfl (by simp only [MboxSys.memFrees, hp]) (by simp only [MboxSys.takes, hp]) rfl rfl
  | _ hu hp => exact hkeeps hp rfl rfl rfl

/-- A post stays before its call of `msgport_send` until it makes it. -/
theorem MboxEffect.postSend_kept (heff : MboxEffect mbox s ev s') (hpost : MboxSys.posts ⟨s, ev, s'⟩ = none)
    {u : TaskRef} {b : MsgRef} (hu : s.mpc u = .postSend b) : s'.mpc u = .postSend b := by
  by_cases hur : u = s.running
  · subst hur
    have hne {p : MboxPc} (hp : s.mpc s.running = p) (hno : p ≠ .postSend b) : False := hno (hp.symm.trans hu)
    cases heff with
    | @sys e sys hp hst =>
      change Function.update s.mpc s.running (s.afterSys e) s.running = _
      rw [Function.update_self]
      unfold MboxSys.afterSys
      split
      · rw [hu]
      · exact hu
    | sends hc hp =>
      unfold MboxSys.posts at hpost
      dsimp only at hpost
      rw [hp] at hpost
      cases hpost
    | free hp => exact (hne hp (by simp)).elim
    | _ hc hp => exact (hne hp (by simp)).elim
  · obtain ⟨p, hp⟩ : ∃ p, s'.mpc = Function.update s.mpc s.running p := by cases heff <;> exact ⟨_, rfl⟩
    rwa [hp, Function.update_of_ne hur]

/-- **What a step does to the blocks of the mailbox.** -/
inductive BlockChange (mbox : PortRef) (t : TaskRef) (s : MboxSys) (ev : MboxEvent) (s' : MboxSys) : Prop where
  /-- Nothing. -/
  | keeps (hm : MboxSys.memMallocs ⟨s, ev, s'⟩ = none) (hf : MboxSys.memFrees ⟨s, ev, s'⟩ = none)
      (ha : s'.allocated = s.allocated) (hp : s'.ptr = s.ptr)
      (hu : ∀ b, s'.InUse mbox t b ↔ s.InUse mbox t b)
  /-- A post gets a block. -/
  | mallocs (b : MsgRef) (msg : VoidPtr) (hm : MboxSys.memMallocs ⟨s, ev, s'⟩ = some (b, msg))
      (hf : MboxSys.memFrees ⟨s, ev, s'⟩ = none) (hb : s.allocated b = false)
      (ha : s'.allocated = Function.update s.allocated b true) (hp : s'.ptr = Function.update s.ptr b msg)
      (hu : ∀ b', s'.InUse mbox t b' ↔ b' = b ∨ s.InUse mbox t b')
  /-- A fetch reads a block and frees it. -/
  | frees (b : MsgRef) (hm : MboxSys.memMallocs ⟨s, ev, s'⟩ = none) (hf : MboxSys.memFrees ⟨s, ev, s'⟩ = some b)
      (ht : MboxSys.takes ⟨s, ev, s'⟩ = some (s.ptr b)) (hb : s.InUse mbox t b)
      (ha : s'.allocated = Function.update s.allocated b false) (hp : s'.ptr = s.ptr)
      (hu : ∀ b', s'.InUse mbox t b' ↔ b' ≠ b ∧ s.InUse mbox t b')

theorem Blocks.allocated_of_inUse (hb : Blocks mbox t s) {b : MsgRef} (hu : s.InUse mbox t b) :
    s.allocated b = true := by
  rcases hu with ⟨u, hu⟩ | hu
  · exact (hb.sent u b hu).1
  · exact hb.unread b hu

/-- A step that frees nothing and allocates nothing keeps the blocks in use. -/
theorem UnreadChange.inUse_kept (hch : UnreadChange mbox t s ev s') (heff : MboxEffect mbox s ev s')
    (ht : MboxSys.takes ⟨s, ev, s'⟩ = none) (ha : s'.allocated = s.allocated) (b : MsgRef) :
    s'.InUse mbox t b ↔ s.InUse mbox t b := by
  cases hch with
  | keeps hu ha' hp hs hpost htake =>
    unfold MboxSys.InUse
    rw [hu]
    exact or_congr_left ⟨fun ⟨u, h⟩ => ⟨u, hs u b h⟩, fun ⟨u, h⟩ => ⟨u, heff.postSend_kept hpost h⟩⟩
  | allocates m msg hm hu ha' =>
    have hat := congrFun (ha'.symm.trans ha) m
    rw [Function.update_self, hm] at hat
    cases hat
  | sends m hr hu ha' hp hs =>
    unfold MboxSys.InUse
    rw [hu, List.mem_append, List.mem_singleton]
    constructor
    · rintro (⟨u, h⟩ | h | rfl)
      · exact .inl ⟨u, MboxSys.postSend_of_update (by simp) hs h⟩
      · exact .inr h
      · exact .inl ⟨_, hr⟩
    · rintro (⟨u, h⟩ | h)
      · by_cases hur : u = s.running
        · subst hur
          obtain rfl := MboxPc.postSend.inj (hr.symm.trans h)
          exact .inr (.inr rfl)
        · exact .inl ⟨u, by rwa [hs, Function.update_of_ne hur]⟩
      · exact .inr (.inl h)
  | reads m hu ha' hp hs hpost htake => cases ht.symm.trans htake

/-- A post puts its block into use. -/
theorem UnreadChange.inUse_malloc (hch : UnreadChange mbox t s ev s') (heff : MboxEffect mbox s ev s') {b : MsgRef}
    (ht : MboxSys.takes ⟨s, ev, s'⟩ = none) (hb : s.allocated b = false)
    (ha : s'.allocated = Function.update s.allocated b true)
    (hs : s'.mpc = Function.update s.mpc s.running (.postSend b)) (b' : MsgRef) :
    s'.InUse mbox t b' ↔ b' = b ∨ s.InUse mbox t b' := by
  have hold (hsame : s'.allocated = s.allocated) : False := by
    have hat := congrFun (ha.symm.trans hsame) b
    rw [Function.update_self, hb] at hat
    cases hat
  cases hch with
  | keeps hu ha' => exact (hold ha').elim
  | sends m hr hu ha' => exact (hold ha').elim
  | reads m hu ha' hp hs' hpost htake => cases ht.symm.trans htake
  | allocates m msg hm hu ha' hp hs' hpost htake =>
    unfold MboxSys.InUse
    rw [hu]
    constructor
    · rintro (⟨u, h⟩ | h)
      · by_cases hur : u = s.running
        · rw [hs, hur, Function.update_self] at h
          exact .inl (MboxPc.postSend.inj h).symm
        · rw [hs, Function.update_of_ne hur] at h
          exact .inr (.inl ⟨u, h⟩)
      · exact .inr (.inr h)
    · rintro (rfl | ⟨u, h⟩ | h)
      · exact .inl ⟨s.running, by rw [hs, Function.update_self]⟩
      · exact .inl ⟨u, heff.postSend_kept hpost h⟩
      · exact .inr h

/-- A fetch takes the block that it frees out of use. -/
theorem UnreadChange.inUse_free (hch : UnreadChange mbox t s ev s') (heff : MboxEffect mbox s ev s')
    (hbl : Blocks mbox t s) {b : MsgRef} (ht : MboxSys.takes ⟨s, ev, s'⟩ = some (s.ptr b))
    (ha : s'.allocated = Function.update s.allocated b false) :
    s.InUse mbox t b ∧ ∀ b', s'.InUse mbox t b' ↔ b' ≠ b ∧ s.InUse mbox t b' := by
  cases hch with
  | keeps hu ha' hp hs hpost htake => cases ht.symm.trans htake
  | allocates m msg hm hu ha' hp hs hpost htake => cases ht.symm.trans htake
  | sends m hr hu ha' hp hs hpost htake => cases ht.symm.trans htake
  | reads m hu ha' hp hs hpost htake =>
    have hmem : m ∈ s.unread mbox t := by
      rw [hu]
      exact List.mem_cons_self
    -- the block read is the block freed
    obtain rfl : m = b := by
      by_contra hne
      have hat := congrFun (ha'.symm.trans ha) m
      rw [Function.update_self, Function.update_of_ne hne, hbl.unread m hmem] at hat
      cases hat
    have hnodup := hbl.nodup
    rw [hu, List.nodup_cons] at hnodup
    refine ⟨.inr hmem, fun b' => ?_⟩
    unfold MboxSys.InUse
    rw [hu, List.mem_cons]
    constructor
    · rintro (⟨u, h⟩ | h)
      · have hpre := hs u b' h
        refine ⟨?_, .inl ⟨u, hpre⟩⟩
        rintro rfl
        exact (hbl.sent u b' hpre).2.1 hmem
      · refine ⟨?_, .inr (.inr h)⟩
        rintro rfl
        exact hnodup.1 h
    · rintro ⟨hne, ⟨u, h⟩ | h | h⟩
      · exact .inl ⟨u, heff.postSend_kept hpost h⟩
      · exact absurd h hne
      · exact .inr h

theorem Consumer.blockChange (h : Consumer mbox t s) (hb : Blocks mbox t s) (hc : s.Contract mbox t ev)
    (hst : s.Step mbox ev s') : BlockChange mbox t s ev s' := by
  have hch := h.unread_step hc hst
  have heff := hst.effect
  cases heff.memChange with
  | keeps hm hf ht ha hp => exact .keeps hm hf ha hp (hch.inUse_kept heff ht ha)
  | mallocs b msg he hf ht ha hp hs =>
    subst he
    exact .mallocs b msg rfl hf hc ha hp (hch.inUse_malloc heff ht hc ha hs)
  | frees b hm hf ht ha hp =>
    obtain ⟨hin, hu⟩ := hch.inUse_free heff hb ht ha
    exact .frees b hm hf ht hin ha hp hu

/-- After the moves `tr`, from a state in which the blocks `allocated` were handed out. -/
structure Conserved (mbox : PortRef) (t : TaskRef) (allocated : MsgRef → Bool) (tr : List (Move MboxSys MboxEvent))
    (s : MboxSys) : Prop where
  /-- The blocks handed out since are those in use. -/
  blocks : ∀ b, s.allocated b = true ↔ allocated b = true ∨ s.InUse mbox t b
  /-- The blocks in use were not handed out before. -/
  fresh : ∀ b, s.InUse mbox t b → allocated b = false
  /-- They hold what was stored in them. -/
  payload : ∀ b, s.InUse mbox t b → latest (MboxSys.stores b) tr = some (s.ptr b)

variable {allocated : MsgRef → Bool} {tr : List (Move MboxSys MboxEvent)}

theorem MboxSys.stores_of_none {b : MsgRef} {m : Move MboxSys MboxEvent} (hm : MboxSys.memMallocs m = none) :
    MboxSys.stores b m = none := by
  rw [MboxSys.stores, hm, Option.bind_none]

theorem MboxSys.stores_of_some {b b' : MsgRef} {msg : VoidPtr} {m : Move MboxSys MboxEvent}
    (hm : MboxSys.memMallocs m = some (b', msg)) : MboxSys.stores b m = if b' = b then some msg else none := by
  rw [MboxSys.stores, hm, Option.bind_some]

/-- A step conserves the blocks. -/
theorem Conserved.step (h : Conserved mbox t allocated tr s) (hch : BlockChange mbox t s ev s') :
    Conserved mbox t allocated (tr ++ [⟨s, ev, s'⟩]) s' := by
  cases hch with
  | keeps hm hf ha hp hu =>
    refine ⟨?_, ?_, ?_⟩
    · intro b
      rw [ha, hu]
      exact h.blocks b
    · intro b hb
      exact h.fresh b ((hu b).mp hb)
    · intro b hb
      rw [latest_snoc, MboxSys.stores_of_none hm, Option.none_or, hp]
      exact h.payload b ((hu b).mp hb)
  | mallocs b msg hm hf hb ha hp hu =>
    have hnew : ¬ (allocated b = true ∨ s.InUse mbox t b) := by
      rw [← h.blocks b, hb]
      exact Bool.false_ne_true
    rw [not_or, Bool.not_eq_true] at hnew
    refine ⟨?_, ?_, ?_⟩
    · intro b'
      rw [hu, ha]
      by_cases hbb : b' = b
      · rw [hbb, Function.update_self]
        exact iff_of_true rfl (.inr (.inl rfl))
      · rw [Function.update_of_ne hbb, h.blocks b']
        exact or_congr_right (or_iff_right hbb).symm
    · intro b' hb'
      rcases (hu b').mp hb' with rfl | hb'
      · exact hnew.1
      · exact h.fresh b' hb'
    · intro b' hb'
      rw [latest_snoc, MboxSys.stores_of_some hm, hp]
      by_cases hbb : b = b'
      · rw [if_pos hbb, hbb, Function.update_self, Option.some_or]
      · rw [if_neg hbb, Option.none_or, Function.update_of_ne (Ne.symm hbb)]
        exact h.payload b' (((hu b').mp hb').resolve_left (Ne.symm hbb))
  | frees b hm hf ht hb ha hp hu =>
    refine ⟨?_, ?_, ?_⟩
    · intro b'
      rw [hu, ha]
      by_cases hbb : b' = b
      · have hfresh := h.fresh b hb
        rw [hbb, Function.update_self, hfresh]
        simp
      · rw [Function.update_of_ne hbb, h.blocks b']
        exact or_congr_right (and_iff_right hbb).symm
    · intro b' hb'
      exact h.fresh b' ((hu b').mp hb').2
    · intro b' hb'
      rw [latest_snoc, MboxSys.stores_of_none hm, Option.none_or, hp]
      exact h.payload b' ((hu b').mp hb').2

theorem Conserved.start {s₀ : Sys} {ptr : MsgRef → VoidPtr} :
    Conserved mbox t allocated [] (MboxSys.start mbox s₀ ptr allocated) := by
  have hnone (b : MsgRef) : ¬ (MboxSys.start mbox s₀ ptr allocated).InUse mbox t b := by
    rintro (⟨u, hu⟩ | hm)
    · cases hu
    · rw [Blocks.start.2] at hm
      cases hm
  refine ⟨?_, ?_, ?_⟩
  · intro b
    exact (or_iff_left (hnone b)).symm
  · intro b hb
    exact absurd hb (hnone b)
  · intro b hb
    exact absurd hb (hnone b)

theorem Conserved.run {cfg : Config} {c : Core} {tr₀ : List (Move Sys SysEvent)} {s₀ : Sys} {ptr : MsgRef → VoidPtr}
    (h : martosPre cfg = .ok c) (hr₀ : Run Sys.Step (Sys.start c) tr₀ s₀)
    (hr : Run (Restrict (fun s ev => s.Contract mbox t ev) (MboxSys.Step mbox)) (MboxSys.start mbox s₀ ptr allocated)
      tr s) : Conserved mbox t allocated tr s := by
  induction hr with
  | nil => exact Conserved.start
  | snoc hra hst ih =>
    obtain ⟨hcon, hb, -⟩ := consumer_run h hr₀ (fun _ _ => id) hra
    exact ih.step (hcon.blockChange hb hst.1 hst.2)

/-- **A mailbox conserves its blocks.** In every run from `sys_mbox_new` with the single consumer `t`,
where `mem_malloc` returns a block that is not handed out:

* the blocks handed out are those handed out before and those in use by the mailbox, so that none
  is lost; a block in use was not handed out before, and holds the payload stored in it last;
* a block that a fetch frees was in use and handed out, and is neither afterwards, so that none is
  freed twice; the payload read from it is the one stored in it last;
* the payloads fetched, followed by those not read yet, are those posted, in order. -/
theorem mailbox_conserves_blocks {cfg : Config} {c : Core} {tr₀ : List (Move Sys SysEvent)} {s₀ : Sys}
    {ptr : MsgRef → VoidPtr} (h : martosPre cfg = .ok c) (hr₀ : Run Sys.Step (Sys.start c) tr₀ s₀)
    (hr : Run (Restrict (fun s ev => s.Contract mbox t ev) (MboxSys.Step mbox)) (MboxSys.start mbox s₀ ptr allocated)
      tr s) :
    (∀ b, s.allocated b = true ↔ allocated b = true ∨ s.InUse mbox t b) ∧
    (∀ b, s.InUse mbox t b → allocated b = false ∧ latest (MboxSys.stores b) tr = some (s.ptr b)) ∧
    (∀ tr₁ x tr₂, tr = tr₁ ++ x :: tr₂ → ∀ b, MboxSys.memFrees x = some b →
      x.pre.InUse mbox t b ∧ x.pre.allocated b = true ∧ ¬ x.post.InUse mbox t b ∧ x.post.allocated b = false ∧
        MboxSys.takes x = latest (MboxSys.stores b) tr₁) ∧
    tr.filterMap MboxSys.posts = tr.filterMap MboxSys.takes ++ (s.unread mbox t).map s.ptr := by
  have hcons := Conserved.run h hr₀ hr
  refine ⟨hcons.blocks, ?_, ?_, (consumer_run h hr₀ (fun _ _ => id) hr).2.2⟩
  · intro b hb
    exact ⟨hcons.fresh b hb, hcons.payload b hb⟩
  · intro tr₁ x tr₂ htr b hfree
    obtain ⟨hr₁, ⟨hc, hst⟩, -⟩ := hr.split htr
    obtain ⟨hcon, hbl, -⟩ := consumer_run h hr₀ (fun _ _ => id) hr₁
    cases hcon.blockChange hbl hc hst with
    | keeps hm hf => cases hf.symm.trans hfree
    | mallocs b' msg hm hf => cases hf.symm.trans hfree
    | frees b' hm hf ht hb ha hp hu =>
      obtain rfl := Option.some.inj (hf.symm.trans hfree)
      refine ⟨hb, hbl.allocated_of_inUse hb, fun hin => ((hu b').mp hin).1 rfl, ?_, ?_⟩
      · rw [ha, Function.update_self]
      · exact ht.trans ((Conserved.run h hr₀ hr₁).payload b' hb).symm

/-- The theorem at a run in which task 1 sleeps in a fetch, the init task posts a message, and the fetch reads
its block and frees it. -/
theorem mailbox_conserves_blocks_fetched : ∃ c tr x s, martosPre CoreSys.exampleConfig = .ok c ∧
    Run (Restrict (fun s ev => s.Contract 0 1 ev) (MboxSys.Step 0))
      (MboxSys.start 0 (Sys.start c) (fun _ => 0) fun _ => false) (tr ++ [x]) s ∧
    MboxSys.memFrees x = some 7 ∧ x.pre.allocated 7 = true ∧ latest (MboxSys.stores 7) tr = some 42 ∧
    s.allocated 7 = false ∧ (tr ++ [x]).filterMap MboxSys.posts = (tr ++ [x]).filterMap MboxSys.takes := by
  obtain ⟨c, tr, s, hc, hr, hp⟩ := MboxSys.exists_run 0 (fun s ev => s.Contract 0 1 ev)
    (exampleConsumer ++ exampleFetch ++ examplePost.take 11)
    (p := fun s => decide (MboxSys.memFrees ⟨s, .step, s⟩ = some 7 ∧ s.ptr 7 = 42) &&
      (s.next 0 .step).any fun s' : MboxSys => decide (s'.unread 0 1 = []))
    (by decide +kernel)
  obtain ⟨hp, hnext⟩ := Bool.and_eq_true_iff.mp hp
  obtain ⟨hfree, hptr⟩ := of_decide_eq_true hp
  obtain ⟨s', hs', hunread⟩ := (Option.any_eq_true ..).mp hnext
  have hunread := of_decide_eq_true hunread
  have hr' : Run (Restrict (fun s ev => s.Contract 0 1 ev) (MboxSys.Step 0)) _ (tr ++ [⟨s, .step, s'⟩]) s' :=
    hr.snoc ⟨trivial, hs'⟩
  obtain ⟨-, -, hfreed, horder⟩ := mailbox_conserves_blocks hc .nil hr'
  obtain ⟨-, hpre, -, hpost, htakes⟩ := hfreed tr _ [] rfl 7 hfree
  rw [MboxSys.takes_eq, show MboxSys.memFrees ⟨s, .step, s'⟩ = some 7 from hfree, Option.map_some, hptr] at htakes
  rw [hunread, List.map_nil, List.append_nil] at horder
  exact ⟨c, tr, _, s', hc, hr', hfree, hpre, htakes.symm, hpost, horder⟩

end

end Martos
