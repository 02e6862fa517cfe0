import Martos.Lwip.Consumer

/-!
# What is posted is fetched, in order

The messages that are not read yet are the one that the consumer holds and those on the
mailbox's list. A post adds its message at the end, and the consumer reads the first
(`UnreadChange`). The payload lies in a block that nobody else writes to before it has been read
(`Blocks`), so in every run the payloads read, followed by those not read yet, are those posted
(`unread_run`).
-/

namespace Martos

open Checked Transition

/-- The message that the consumer has taken from the list and not yet read. -/
def MboxPc.held : MboxPc → List MsgRef
  | .fetchRead _ _ m => m.toList
  | .tryRead m => m.toList
  | _ => []

/-- The messages that are not read yet. -/
def MboxSys.unread (mbox : PortRef) (t : TaskRef) (s : MboxSys) : List MsgRef := (s.mpc t).held ++ s.messages mbox

/-- What a step does to the messages that are not read yet. -/
inductive UnreadChange (mbox : PortRef) (t : TaskRef) (s : MboxSys) (ev : MboxEvent) (s' : MboxSys) : Prop where
  /-- Nothing. -/
  | keeps (hu : s'.unread mbox t = s.unread mbox t) (ha : s'.allocated = s.allocated) (hp : s'.ptr = s.ptr)
      (hs : ∀ u m, s'.mpc u = .postSend m → s.mpc u = .postSend m)
      (hpost : MboxSys.posts ⟨s, ev, s'⟩ = none) (htake : MboxSys.takes ⟨s, ev, s'⟩ = none)
  /-- A post gets its block. -/
  | allocates (m : MsgRef) (msg : VoidPtr) (hm : s.allocated m = false) (hu : s'.unread mbox t = s.unread mbox t)
      (ha : s'.allocated = Function.update s.allocated m true) (hp : s'.ptr = Function.update s.ptr m msg)
      (hs : s'.mpc = Function.update s.mpc s.running (.postSend m))
      (hpost : MboxSys.posts ⟨s, ev, s'⟩ = none) (htake : MboxSys.takes ⟨s, ev, s'⟩ = none)
  /-- A post sends its message. -/
  | sends (m : MsgRef) (hr : s.mpc s.running = .postSend m) (hu : s'.unread mbox t = s.unread mbox t ++ [m])
      (ha : s'.allocated = s.allocated) (hp : s'.ptr = s.ptr) (hs : s'.mpc = Function.update s.mpc s.running .user)
      (hpost : MboxSys.posts ⟨s, ev, s'⟩ = some (s.ptr m)) (htake : MboxSys.takes ⟨s, ev, s'⟩ = none)
  /-- The consumer reads a message and frees its block. -/
  | reads (m : MsgRef) (hu : s.unread mbox t = m :: s'.unread mbox t)
      (ha : s'.allocated = Function.update s.allocated m false) (hp : s'.ptr = s.ptr)
      (hs : ∀ u m, s'.mpc u = .postSend m → s.mpc u = .postSend m)
      (hpost : MboxSys.posts ⟨s, ev, s'⟩ = none) (htake : MboxSys.takes ⟨s, ev, s'⟩ = some (s.ptr m))

section

variable {mbox : PortRef} {t : TaskRef} {s s' : MboxSys} {ev : MboxEvent}

theorem MboxSys.postSend_of_update {p : MboxPc} (hp : ∀ m, p ≠ .postSend m)
    (hs : s'.mpc = Function.update s.mpc s.running p) {u : TaskRef} {m : MsgRef} (hu : s'.mpc u = .postSend m) :
    s.mpc u = .postSend m := by
  by_cases hur : u = s.running
  · rw [hs, hur, Function.update_self] at hu
    exact absurd hu (hp m)
  · rwa [hs, Function.update_of_ne hur] at hu

/-- The consumer goes on, and the mailbox stays as it is. -/
theorem UnreadChange.of_goes {p : MboxPc} (hrun : s.running = t) (hs : s'.mpc = Function.update s.mpc s.running p)
    (hp : ∀ m, p ≠ .postSend m) (hm : s'.messages mbox = s.messages mbox) (hh : p.held = (s.mpc t).held)
    (ha : s'.allocated = s.allocated) (hptr : s'.ptr = s.ptr) (hpost : MboxSys.posts ⟨s, ev, s'⟩ = none)
    (htake : MboxSys.takes ⟨s, ev, s'⟩ = none) : UnreadChange mbox t s ev s' := by
  refine .keeps ?_ ha hptr (fun u m hu => MboxSys.postSend_of_update hp hs hu) hpost htake
  rw [MboxSys.unread, MboxSys.unread, hm, ← hh, hs, hrun, Function.update_self]

/-- The consumer takes the first message from the list. -/
theorem UnreadChange.of_gets {p : MboxPc} (h : Consumer mbox t s) (hrun : s.running = t)
    (hs : s'.mpc = Function.update s.mpc s.running p) (hp : ∀ m, p ≠ .postSend m)
    (hst : s.sys.Step (.call (.service (.msgportGet mbox))) s'.sys) (hh : (s.mpc t).held = [])
    (hh' : p.held = (s.messages mbox).head?.toList) (ha : s'.allocated = s.allocated) (hptr : s'.ptr = s.ptr)
    (hpost : MboxSys.posts ⟨s, ev, s'⟩ = none) (htake : MboxSys.takes ⟨s, ev, s'⟩ = none) :
    UnreadChange mbox t s ev s' := by
  obtain ⟨-, -, hsvc⟩ := h.sound.msgportGet_step hst
  have hm : s'.messages mbox = (s.messages mbox).tail := by simp [MboxSys.messages, hsvc]
  refine .keeps ?_ ha hptr (fun u m hu => MboxSys.postSend_of_update hp hs hu) hpost htake
  rw [MboxSys.unread, MboxSys.unread, hm, hh, hs, hrun, Function.update_self, hh']
  cases s.messages mbox <;> rfl

/-- The consumer reads the message it has taken. -/
theorem UnreadChange.of_reads {p q : MboxPc} {m : MsgRef} (hrun : s.running = t)
    (hs : s'.mpc = Function.update s.mpc s.running q)
    (hq : ∀ m, q ≠ .postSend m) (hm : s'.messages mbox = s.messages mbox) (hp : s.mpc s.running = p) (hh : p.held = [m])
    (hh' : q.held = []) (ha : s'.allocated = Function.update s.allocated m false) (hptr : s'.ptr = s.ptr)
    (hpost : MboxSys.posts ⟨s, ev, s'⟩ = none) (htake : MboxSys.takes ⟨s, ev, s'⟩ = some (s.ptr m)) :
    UnreadChange mbox t s ev s' := by
  refine .reads m ?_ ha hptr (fun u m' hu => MboxSys.postSend_of_update hq hs hu) hpost htake
  rw [MboxSys.unread, MboxSys.unread, hm, ← hrun, hp, hs, Function.update_self, hh, hh']
  rfl

/-- **What a step does to the messages that are not read yet.** -/
theorem Consumer.unread_step (h : Consumer mbox t s) (hc : s.Contract mbox t ev) (hstep : s.Step mbox ev s') :
    UnreadChange mbox t s ev s' := by
  -- a move from the point `p` that is neither a post nor a read
  have hpost {p : MboxPc} {s' : MboxSys} (hp : s.mpc s.running = p) (hno : ∀ m, p ≠ .postSend m) :
      MboxSys.posts ⟨s, .step, s'⟩ = none := by
    unfold MboxSys.posts
    dsimp only
    split
    · next m _ hq => exact absurd (hp.symm.trans hq) (hno m)
    · rfl
  have htake {p : MboxPc} {s' : MboxSys} (hp : s.mpc s.running = p) (hno : p.held = []) :
      MboxSys.takes ⟨s, .step, s'⟩ = none := by
    unfold MboxSys.takes
    dsimp only
    split
    · next f timerSignal m _ hq =>
      rw [hp.symm.trans hq] at hno
      cases hno
    · next m _ hq =>
      rw [hp.symm.trans hq] at hno
      cases hno
    · rfl
  have hkeeps {c : ServiceCall} {sys : Sys} (hst : s.sys.Step (.call c) sys) (hno : ¬ s.sys.Touches mbox (.call c)) :
      sys.svc.messageList mbox = s.messages mbox := ((h.sound.effect hst).untouched hno).2
  cases hstep.effect with
  | @sys e sys hp hst =>
    have hm : sys.svc.messageList mbox = s.messages mbox := ((h.sound.effect hst).untouched hc.port).2
    rcases h.afterSys_cases hp with ⟨hmpc, -⟩ | ⟨hrun, rfl, f, timerSignal, rcvd, hw, hret, hmpc⟩
    · refine .keeps ?_ rfl rfl (fun u m hu => ?_) rfl rfl
      · change MboxPc.held ((s.goto (s.afterSys e)).mpc t) ++ sys.svc.messageList mbox = _
        rw [hmpc, hm]
        rfl
      · rw [← hmpc]
        exact hu
    · exact .of_goes hrun hmpc (by simp) hm (by rw [hw]; rfl) rfl rfl rfl rfl
  | @post m msg hu hp =>
    refine .allocates m msg hc ?_ rfl rfl rfl rfl rfl
    change MboxPc.held (Function.update s.mpc s.running (.postSend m) t) ++ s.messages mbox = _
    by_cases ht : t = s.running
    · rw [ht, Function.update_self, MboxSys.unread, hp]
      rfl
    · rw [Function.update_of_ne ht]
      rfl
  | fetch hu hp =>
    obtain rfl : s.running = t := hc
    exact .of_goes rfl rfl (by simp) rfl (by rw [hp]; rfl) rfl rfl rfl rfl
  | tryfetch hu hp =>
    obtain rfl : s.running = t := hc
    exact .of_goes rfl rfl (by simp) rfl (by rw [hp]; rfl) rfl rfl rfl rfl
  | free hp hst => exact hc.elim
  | @sends m sys hu hp hst =>
    obtain ⟨-, -, hsvc⟩ := h.sound.msgportSend_step hst
    refine .sends m hp ?_ rfl rfl rfl ?_ (htake hp rfl)
    · have hm : sys.svc.messageList mbox = s.messages mbox ++ [m] := by simp [MboxSys.messages, hsvc]
      change MboxPc.held (Function.update s.mpc s.running .user t) ++ sys.svc.messageList mbox = _
      rw [hm, MboxSys.unread, ← List.append_assoc]
      by_cases ht : t = s.running
      · rw [ht, Function.update_self, hp]
        rfl
      · rw [Function.update_of_ne ht]
    · simp only [MboxSys.posts, hp]
  | setsTask hu hp hst =>
    have hrun := h.running_eq hp (by simp) (by simp)
    refine .of_goes hrun rfl (by simp) ?_ (by rw [← hrun, hp]; rfl) rfl rfl (hpost hp (by simp)) (htake hp rfl)
    simp [MboxSys.messages, hst.write_eq, Sys.execWrite]
  | allocates hu hp hz hcall hst =>
    have hrun := h.running_eq hp (by simp) (by simp)
    have hm := ((h.sound.effect hst).untouched (show ¬ s.sys.Touches mbox _ from fun ht => ht.elim)).2
    exact .of_goes hrun rfl (by simp) hm (by rw [← hrun, hp]; rfl) rfl rfl (hpost hp (by simp)) (htake hp rfl)
  | keepsSignal hu hp hz =>
    have hrun := h.running_eq hp (by simp) (by simp)
    exact .of_goes hrun rfl (by simp) rfl (by rw [← hrun, hp]; rfl) rfl rfl (hpost hp (by simp)) (htake hp rfl)
  | stores hu hp hz hst =>
    have hrun := h.running_eq hp (by simp) (by simp)
    refine .of_goes hrun rfl (by simp) ?_ (by rw [← hrun, hp]; rfl) rfl rfl (hpost hp (by simp)) (htake hp rfl)
    simp [MboxSys.messages, hst.write_eq, Sys.execWrite]
  | setsAction hu hp hst =>
    have hrun := h.running_eq hp (by simp) (by simp)
    refine .of_goes hrun rfl (by simp) ?_ (by rw [← hrun, hp]; rfl) rfl rfl (hpost hp (by simp)) (htake hp rfl)
    simp [MboxSys.messages, hst.write_eq, Sys.execWrite]
  | skipsTimer hu hp =>
    have hrun := h.running_eq hp (by simp) (by simp)
    exact .of_goes hrun rfl (by simp) rfl (by rw [← hrun, hp]; rfl) rfl rfl (hpost hp (by simp)) (htake hp rfl)
  | allocatesTimer hu hp hst =>
    have hrun := h.running_eq hp (by simp) (by simp)
    have hm := hkeeps hst fun ht => ht.elim
    exact .of_goes hrun rfl (by simp) hm (by rw [← hrun, hp]; rfl) rfl rfl (hpost hp (by simp)) (htake hp rfl)
  | setsTimer hu hp hst =>
    have hrun := h.running_eq hp (by simp) (by simp)
    have hm := hkeeps hst fun ht => ht.elim
    exact .of_goes hrun rfl (by simp) hm (by rw [← hrun, hp]; rfl) rfl rfl (hpost hp (by simp)) (htake hp rfl)
  | addsTimer hu hp hst =>
    have hrun := h.running_eq hp (by simp) (by simp)
    have hm := hkeeps hst fun ht => ht.elim
    exact .of_goes hrun rfl (by simp) hm (by rw [← hrun, hp]; rfl) rfl rfl (hpost hp (by simp)) (htake hp rfl)
  | @waits f timerSignal sys hu hp hst =>
    have hrun := h.running_eq hp (by simp) (by simp)
    have hm := ((h.sound.effect hst).untouched (show ¬ s.sys.Touches mbox _ from fun ht => ht.elim)).2
    refine .of_goes hrun rfl ?_ hm ?_ rfl rfl (hpost hp (by simp)) (htake hp rfl)
    · intro m
      unfold MboxSys.waited
      split <;> simp
    · rw [← hrun, hp]
      unfold MboxSys.waited
      split <;> rfl
  | gets hu hp hz hst =>
    have hrun := h.running_eq hp (by simp) (by simp)
    exact .of_gets h hrun rfl (by simp) hst (by rw [← hrun, hp]; rfl) rfl rfl rfl (hpost hp (by simp)) (htake hp rfl)
  | timesOut hu hp hz =>
    have hrun := h.running_eq hp (by simp) (by simp)
    exact .of_goes hrun rfl (by simp) rfl (by rw [← hrun, hp]; rfl) rfl rfl (hpost hp (by simp)) (htake hp rfl)
  | @reads f timerSignal m hu hp =>
    have hrun := h.running_eq hp (by simp) (by simp)
    refine .of_reads (m := m) hrun rfl (by simp) rfl hp rfl rfl rfl rfl (hpost hp (by simp)) ?_
    simp only [MboxSys.takes, hp]
  | abortsTimer hu hp hz hst =>
    have hrun := h.running_eq hp (by simp) (by simp)
    have hm := hkeeps hst fun ht => ht.elim
    exact .of_goes hrun rfl (by simp) hm (by rw [← hrun, hp]; rfl) rfl rfl (hpost hp (by simp)) (htake hp rfl)
  | returns hu hp hz =>
    have hrun := h.running_eq hp (by simp) (by simp)
    exact .of_goes hrun rfl (by simp) rfl (by rw [← hrun, hp]; rfl) rfl rfl (hpost hp (by simp)) (htake hp rfl)
  | freesTimer hu hp hst =>
    have hrun := h.running_eq hp (by simp) (by simp)
    have hm := hkeeps hst fun ht => ht.elim
    exact .of_goes hrun rfl (by simp) hm (by rw [← hrun, hp]; rfl) rfl rfl (hpost hp (by simp)) (htake hp rfl)
  | tryGets hu hp hst =>
    have hrun := h.running_eq hp (by simp) (by simp)
    exact .of_gets h hrun rfl (by simp) hst (by rw [← hrun, hp]; rfl) rfl rfl rfl (hpost hp (by simp)) (htake hp rfl)
  | @tryReads m hu hp =>
    have hrun := h.running_eq hp (by simp) (by simp)
    refine .of_reads (m := m) hrun rfl (by simp) rfl hp rfl rfl rfl rfl (hpost hp (by simp)) ?_
    simp only [MboxSys.takes, hp]
  | tryEmpty hu hp =>
    have hrun := h.running_eq hp (by simp) (by simp)
    exact .of_goes hrun rfl (by simp) rfl (by rw [← hrun, hp]; rfl) rfl rfl (hpost hp (by simp)) (htake hp rfl)

/-! ### Blocks -/

/-- The blocks of the messages that are not read yet are allocated, each to one message. -/
structure Blocks (mbox : PortRef) (t : TaskRef) (s : MboxSys) : Prop where
  /-- A message about to be sent is no other message. -/
  sent : ∀ u m, s.mpc u = .postSend m →
    s.allocated m = true ∧ m ∉ s.unread mbox t ∧ ∀ v, s.mpc v = .postSend m → v = u
  /-- A message that is not read has its block. -/
  unread : ∀ m ∈ s.unread mbox t, s.allocated m = true
  /-- No block is there twice. -/
  nodup : (s.unread mbox t).Nodup

theorem Blocks.step (hb : Blocks mbox t s) (hch : UnreadChange mbox t s ev s') : Blocks mbox t s' := by
  cases hch with
  | keeps hu ha hp hs =>
    refine ⟨fun u m hum => ?_, by rw [hu, ha]; exact hb.unread, by rw [hu]; exact hb.nodup⟩
    obtain ⟨hal, hno, hone⟩ := hb.sent u m (hs u m hum)
    rw [hu, ha]
    exact ⟨hal, hno, fun v hv => hone v (hs v m hv)⟩
  | allocates m msg hm hu ha hp hs =>
    -- the block was free, so it is none of those in use
    have hne {u : TaskRef} {m' : MsgRef} (hum : s.mpc u = .postSend m') : m' ≠ m := by
      rintro rfl
      rw [(hb.sent u m' hum).1] at hm
      cases hm
    have hnew : m ∉ s.unread mbox t := fun hmem => by
      rw [hb.unread m hmem] at hm
      cases hm
    refine ⟨fun u m' hum => ?_, fun m' hmem => ?_, by rw [hu]; exact hb.nodup⟩
    · rw [hu, ha]
      by_cases hur : u = s.running
      · obtain rfl : m = m' := by
          rw [hs, hur, Function.update_self] at hum
          exact MboxPc.postSend.inj hum
        refine ⟨Function.update_self .., hnew, fun v hv => ?_⟩
        by_contra hvu
        rw [hs, Function.update_of_ne (fun he => hvu (he.trans hur.symm))] at hv
        exact hne hv rfl
      · rw [hs, Function.update_of_ne hur] at hum
        obtain ⟨hal, hno, hone⟩ := hb.sent u m' hum
        refine ⟨by rw [Function.update_of_ne (hne hum)]; exact hal, hno, fun v hv => ?_⟩
        by_cases hvr : v = s.running
        · rw [hs, hvr, Function.update_self] at hv
          exact absurd (MboxPc.postSend.inj hv).symm (hne hum)
        · rw [hs, Function.update_of_ne hvr] at hv
          exact hone v hv
    · rw [hu] at hmem
      have hmm : m' ≠ m := by
        rintro rfl
        exact hnew hmem
      rw [ha, Function.update_of_ne hmm]
      exact hb.unread m' hmem
  | sends m hr hu ha hp hs =>
    obtain ⟨hal, hno, hone⟩ := hb.sent _ m hr
    refine ⟨fun u m' hum => ?_, fun m' hmem => ?_, ?_⟩
    · have hur : u ≠ s.running := by
        rintro rfl
        rw [hs, Function.update_self] at hum
        cases hum
      have hold : s.mpc u = .postSend m' := by rwa [hs, Function.update_of_ne hur] at hum
      obtain ⟨hal', hno', hone'⟩ := hb.sent u m' hold
      rw [ha, hu, List.mem_append, List.mem_singleton]
      refine ⟨hal', fun hmem => ?_, fun v hv => ?_⟩
      · rcases hmem with hmem | rfl
        · exact hno' hmem
        · exact hur (hone u hold)
      · exact hone' v (MboxSys.postSend_of_update (by simp) hs hv)
    · rw [hu, List.mem_append, List.mem_singleton] at hmem
      rw [ha]
      rcases hmem with hmem | rfl
      · exact hb.unread m' hmem
      · exact hal
    · rw [hu, List.nodup_append]
      refine ⟨hb.nodup, List.nodup_singleton m, fun a hmem b hbm hab => ?_⟩
      obtain rfl := List.mem_singleton.mp hbm
      exact hno (hab ▸ hmem)
  | reads m hu ha hp hs =>
    have hnd := hb.nodup
    rw [hu, List.nodup_cons] at hnd
    refine ⟨fun u m' hum => ?_, fun m' hmem => ?_, hnd.2⟩
    · obtain ⟨hal, hno, hone⟩ := hb.sent u m' (hs u m' hum)
      rw [hu, List.mem_cons, not_or] at hno
      refine ⟨?_, hno.2, fun v hv => hone v (hs v m' hv)⟩
      rw [ha, Function.update_of_ne hno.1]
      exact hal
    · have hmm : m' ≠ m := by
        rintro rfl
        exact hnd.1 hmem
      rw [ha, Function.update_of_ne hmm]
      exact hb.unread m' (by rw [hu]; exact List.mem_cons_of_mem m hmem)

/-- What a step reads is the first payload not read yet, and what it posts comes after all of them. -/
theorem Blocks.payloads_step (hb : Blocks mbox t s) (hch : UnreadChange mbox t s ev s') :
    (s.unread mbox t).map s.ptr ++ (MboxSys.posts ⟨s, ev, s'⟩).toList =
      (MboxSys.takes ⟨s, ev, s'⟩).toList ++ (s'.unread mbox t).map s'.ptr := by
  cases hch with
  | keeps hu ha hp hs hpost htake => simp [hu, hp, hpost, htake]
  | allocates m msg hm hu ha hp hs hpost htake =>
    have hmap : (s.unread mbox t).map s'.ptr = (s.unread mbox t).map s.ptr := by
      refine List.map_congr_left fun m' hmem => ?_
      have hmm : m' ≠ m := by
        rintro rfl
        rw [hb.unread m' hmem] at hm
        cases hm
      rw [hp, Function.update_of_ne hmm]
    simp [hu, hpost, htake, hmap]
  | sends m hr hu ha hp hs hpost htake => simp [hu, hp, hpost, htake]
  | reads m hu ha hp hs hpost htake => simp [hu, hp, hpost, htake]

end

end Martos
