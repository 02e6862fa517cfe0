import Martos.Services.Effects

/-!
# What holds in every run of the whole machine

Seen from the core, a step of the whole machine is a run of the core machine
(`SysEffect.core_run`), so the invariants of the core hold along every run. Of the
services' own data this module proves what all of them rely on (`Sound.step`).
-/

namespace Martos

open Checked Transition

/-! ### Records that follow the queues -/

namespace Seqs

variable {L N : Type} [DecidableEq N] {f g : Seqs L N} {loc : N → Option L}

/-- The record is right again when every node on a list was meant to be there. -/
theorem located_sync (hd : ∀ l, (f l).Nodup) (hm : ∀ l n, n ∈ f l → loc n = some l) : f.Located (f.sync loc) where
  nodup := hd
  mem l n := by
    constructor
    · intro hn
      simp [sync, hm l n hn, hn]
    · intro hn
      unfold sync at hn
      cases hl : loc n with
      | none => simp [hl] at hn
      | some l' =>
        simp only [hl] at hn
        by_cases hmem : n ∈ f l'
        · rw [if_pos hmem] at hn
          exact Option.some.inj hn ▸ hmem
        · simp [hmem] at hn

/-- Nodes have left the lists. -/
theorem Located.sync_of_sublist (h : f.Located loc) (hs : ∀ l, (g l).Sublist (f l)) : g.Located (g.sync loc) :=
  located_sync (fun l => (h.nodup l).sublist (hs l)) fun l n hn => (h.mem l n).mp ((hs l).subset hn)

theorem Located.sync_self (h : f.Located loc) : f.Located (f.sync loc) :=
  h.sync_of_sublist fun _ => List.Sublist.refl _

/-- Every list but one is as it was, and from that one nodes have left. -/
theorem Located.sync_update [DecidableEq L] (h : f.Located loc) {l : L} {xs : List N} (hx : xs.Sublist (f l)) :
    Located (Function.update f l xs) (Seqs.sync (Function.update f l xs) loc) := by
  refine h.sync_of_sublist fun k => ?_
  by_cases hk : k = l
  · subst hk; rw [Function.update_self]; exact hx
  · rw [Function.update_of_ne hk]

/-- The node goes on a list, or not. -/
theorem Located.sync_add [DecidableEq L] (h : f.Located loc) {l : L} {n : N} (hn : loc n = none)
    (hg : g = f.listAddTail l n ∨ g = f) : g.Located (g.sync (Function.update loc n (some l))) := by
  rcases hg with rfl | rfl
  · exact (h.listAddTail hn).sync_self
  · refine located_sync h.nodup fun k m hm => ?_
    have hne : m ≠ n := fun he => h.off hn k (he ▸ hm)
    rw [Function.update_of_ne hne]
    exact (h.mem k m).mp hm

end Seqs

section

variable {s s' : Sys} {e : SysEvent}

/-- **Seen from the core, every step is a run of the core machine**, in which only an event of the core calls
`task_init`. `ok` is what is asked of the moves besides. -/
theorem SysEffect.core_run_restrict (h : SysEffect s e s') (ok : CoreSys → Event → Prop)
    (hcore : ∀ ce, e = .core ce → ok s.cs ce) (hok : ∀ a ce, (∀ t params, ce ≠ .call (.taskInit t params)) → ok a ce) :
    ∃ ctr, Run (Restrict ok CoreSys.Step) s.cs ctr s'.cs := by
  have hone {ce : Event} {b : CoreSys} (hst : s.cs.Step ce b) (hne : ∀ t params, ce ≠ .call (.taskInit t params)) :
      ∃ ctr, Run (Restrict ok CoreSys.Step) s.cs ctr b := ⟨_, .one ⟨hok _ _ hne, hst⟩⟩
  have hdelivers {t : TaskRef} {sg : Signals} {b : CoreSys} (hs : s.cs.Delivers t sg b) :
      ∃ ctr, Run (Restrict ok CoreSys.Step) s.cs ctr b := by
    obtain ⟨e', he, hst⟩ := hs
    rcases he with rfl | rfl <;> exact hone hst (by simp)
  cases h with
  | core hst hc => exact ⟨_, .one ⟨hcore _ rfl, hst⟩⟩
  | semBlocks hu hp hst => exact hone hst (by simp)
  | grants hc hn hh hs => exact hdelivers hs
  | portInit hu ha hst hsg => exact hone hst (by simp)
  | sent hc hm ha hs =>
    rcases hs with ⟨t, -, -, hs⟩ | ⟨-, rfl⟩
    · exact hdelivers hs
    · exact ⟨[], .nil⟩
  | portWaits hu ha hd hst => exact hone hst (by simp)
  | portBlocks hu hp hl hst => exact hone hst (by simp)
  | portReturns hu hp hl hst => exact hone hst (by simp)
  | timerAllocate hu hf hst => exact hone hst (by simp)
  | timerFree hu hf hst => exact hone hst (by simp)
  | delayStarts hu hf hd hst => exact hone hst (by simp)
  | delayWaits hu hp ha hst => exact hone hst (by simp)
  | delayFrees hu hp hst => exact hone hst (by simp)
  | tim2 hm hc hr htr =>
    refine ⟨_, hr.restrict fun m hm => hok _ _ ?_⟩
    have hev := List.mem_map_of_mem (f := Move.event) hm
    rw [htr, List.mem_map] at hev
    obtain ⟨call, -, hcall⟩ := hev
    rw [← hcall]
    simp
  | @write w hu hw => cases w <;> exact ⟨[], .nil⟩
  | _ => exact ⟨[], .nil⟩

theorem SysEffect.core_run (h : SysEffect s e s') : ∃ ctr, Run CoreSys.Step s.cs ctr s'.cs := by
  obtain ⟨ctr, hr⟩ := h.core_run_restrict (fun _ _ => True) (fun _ _ => trivial) fun _ _ _ => trivial
  exact ⟨ctr, hr.mono fun _ _ _ => And.right⟩

/-- The invariants of the core hold at the end of a run of the core. -/
theorem core_invariants {a b : CoreSys} {ctr : List (Move CoreSys Event)} (hn : Nested a) (hp : Placed a)
    (ha : Attentive a) (hr : Run CoreSys.Step a ctr b) : Nested b ∧ Placed b ∧ Attentive b :=
  hr.invariant (P := fun s => Nested s ∧ Placed s ∧ Attentive s) ⟨hn, hp, ha⟩
    fun _ _ _ ⟨hn, hp, ha⟩ hst => ⟨hn.step hst, hp.step hn hst, ha.step hn hp hst⟩

/-! ### Depths -/

/-- The task is at a depth that differs from the one before by the critical sections its
service function has opened or closed since. -/
structure Steady (s s' : Sys) (t : TaskRef) : Prop where
  /-- The depth. -/
  depth : s'.cs.depth t + (s.spc t).opened = s.cs.depth t + (s'.spc t).opened
  /-- `signal_wait` can save it. -/
  bound : (s'.spc t).Blocks → s'.cs.depth t ≤ 32767

/-- The task's own code calls `disable` or `enable`. -/
def SysEvent.Nests (e : SysEvent) : Prop := e = .core (.call .disable) ∨ e = .core (.call .enable)

theorem Sound.steady_of_same (h : Sound s) {t : TaskRef} (hs : s'.spc t = s.spc t)
    (hd : s'.cs.depth t = s.cs.depth t) : Steady s s' t where
  depth := by rw [hs, hd]
  bound := by rw [hs, hd]; exact (h.fits t).bound

/-- The running task moves to `p`, and its depth to `d`. -/
theorem Sound.steady_goto (h : Sound s) (p : ServicePc) {d : ℕ}
    (hs : s'.spc = Function.update s.spc s.cs.core.running p)
    (hdep : s'.cs.depth = Function.update s.cs.depth s.cs.core.running d)
    (hd : d + (s.spc s.cs.core.running).opened = s.cs.depth s.cs.core.running + p.opened)
    (hb : p.Blocks → d ≤ 32767) (t : TaskRef) : Steady s s' t := by
  by_cases ht : t = s.cs.core.running
  · subst ht
    refine ⟨?_, ?_⟩
    · rw [hs, hdep, Function.update_self, Function.update_self]; exact hd
    · rw [hs, hdep, Function.update_self, Function.update_self]; exact hb
  · exact h.steady_of_same (by rw [hs, Function.update_of_ne ht]) (by rw [hdep, Function.update_of_ne ht])

/-- The running task moves to `p`, at the same depth. -/
theorem Sound.steady_move (h : Sound s) (p : ServicePc) (hs : s'.spc = Function.update s.spc s.cs.core.running p)
    (hdep : s'.cs.depth = s.cs.depth) (hd : p.opened = (s.spc s.cs.core.running).opened)
    (hb : p.Blocks → s.cs.depth s.cs.core.running ≤ 32767) (t : TaskRef) : Steady s s' t :=
  h.steady_goto p hs (by rw [hdep, Function.update_eq_self]) (by rw [hd]) hb t

theorem Sound.depth_le (h : Sound s) (hu : s.AtUser) {n : ℕ} (hd : s.cs.core.idNestcnt < n) :
    s.cs.depth s.cs.core.running ≤ n := by
  rw [h.nested.count_user hu.2] at hd
  omega

/-- **Only the calls of `disable` and `enable` in a task's own code change its depth.** -/
theorem Sound.steady (h : Sound s) (heff : SysEffect s e s') (t : TaskRef) :
    Steady s s' t ∨ (t = s.cs.core.running ∧ e.Nests ∧ s'.spc = s.spc ∧ s.spc t = .user) := by
  have hcall {k : Call} {cs : CoreSys} (hst : s.cs.Step (.call k) cs) (hd : k ≠ .disable) (he : k ≠ .enable) :
      cs.depth = s.cs.depth :=
    CoreSys.depth_of_step h.nested hst (fun hk => hd (Event.call.inj hk)) fun hk => he (Event.call.inj hk)
  have hsent {t : TaskRef} {sg : Signals} {cs : CoreSys} (hs : s.cs.Delivers t sg cs) : cs.depth = s.cs.depth := by
    obtain ⟨e', hse, hst⟩ := hs
    rcases hse with rfl | rfl <;> exact CoreSys.depth_of_step h.nested hst (by simp) (by simp)
  have hbound {p : ServicePc} (hp : s.spc s.cs.core.running = p) (hb : p.Blocks) :
      s.cs.depth s.cs.core.running ≤ 32767 := (h.fits _).bound (hp ▸ hb)
  cases heff with
  | @core e cs hst hc =>
    by_cases hn : (SysEvent.core e).Nests
    · have huser : s.spc s.cs.core.running = .user := by
        rcases hn with hn | hn <;> exact hc _ (SysEvent.core.inj hn)
      by_cases ht : t = s.cs.core.running
      · exact .inr ⟨ht, hn, rfl, ht ▸ huser⟩
      · refine .inl (h.steady_of_same rfl ?_)
        rcases hn with hn | hn <;> obtain rfl := SysEvent.core.inj hn
        · rw [CoreSys.depth_of_disable h.nested hst, Function.update_of_ne ht]
        · rw [(CoreSys.depth_of_enable h.nested hst).2, Function.update_of_ne ht]
    · have hdep : cs.depth = s.cs.depth := CoreSys.depth_of_step h.nested hst
        (fun he => hn (.inl (congrArg _ he))) fun he => hn (.inr (congrArg _ he))
      exact .inl (h.steady_of_same rfl (congrFun hdep t))
  | semQueued hu hr hd hn =>
    exact .inl (h.steady_move .semWaitBlock (by rfl) (by rfl) (by rw [hu.2]; rfl) (fun _ => h.depth_le hu.1 hd) t)
  | semBlocks hu hp hst =>
    exact .inl (h.steady_move .semWaitReturn (by rfl) (hcall hst (by simp) (by simp)) (by rw [hp]; rfl)
      (fun hb => False.elim hb) t)
  | semReturns hu hp => exact .inl (h.steady_move .user (by rfl) (by rfl) (by rw [hp]; rfl) (fun hb => False.elim hb) t)
  | grants hc hn hh hs => exact .inl (h.steady_of_same rfl (congrFun (hsent hs) t))
  | portInit hu ha hst hsg => exact .inl (h.steady_of_same rfl (congrFun (hcall hst (by simp) (by simp)) t))
  | sent hc hm ha hs =>
    rcases hs with ⟨u, -, -, hs⟩ | ⟨-, rfl⟩
    · exact .inl (h.steady_of_same rfl (congrFun (hsent hs) t))
    · exact .inl (h.steady_of_same rfl rfl)
  | portWaits hu ha hd hst =>
    have hle := h.depth_le (n := 32766) hu.1 hd
    exact .inl (h.steady_goto (.msgportWait _) (by rfl) (CoreSys.depth_of_disable h.nested hst) (by rw [hu.2]; rfl)
      (fun _ => by omega) t)
  | portBlocks hu hp hl hst => exact .inl (h.steady_of_same rfl (congrFun (hcall hst (by simp) (by simp)) t))
  | portReturns hu hp hl hst =>
    obtain ⟨hpos, hdep⟩ := CoreSys.depth_of_enable h.nested hst
    refine .inl (h.steady_goto .user (by rfl) hdep ?_ (fun hb => False.elim hb) t)
    rw [hp]
    simp only [ServicePc.opened]
    omega
  | timerAllocate hu hf hst => exact .inl (h.steady_of_same rfl (congrFun (hcall hst (by simp) (by simp)) t))
  | timerFree hu hf hst => exact .inl (h.steady_of_same rfl (congrFun (hcall hst (by simp) (by simp)) t))
  | addStarts hu ha hs =>
    exact .inl (h.steady_move (.timerAddCheck _ false) (by rfl) (by rfl) (by rw [hu.2]; rfl) (fun hb => by cases hb) t)
  | delayStarts hu hf hd hst =>
    exact .inl (h.steady_move (.timerAddCheck _ true) (by rfl) (hcall hst (by simp) (by simp)) (by rw [hu.2]; rfl)
      (fun _ => h.depth_le hu.1 hd) t)
  | @addElapsed tm delay hu hp he =>
    refine .inl (h.steady_move (if delay then .timerDelayTest tm else .user) (by rfl) (by rfl) ?_ ?_ t)
    · rw [hp]; cases delay <;> rfl
    · cases delay with
      | false => exact fun hb => False.elim hb
      | true => exact fun _ => hbound hp rfl
  | @addPasses tm delay hu hp he =>
    exact .inl (h.steady_move (.timerAddInsert tm delay) (by rfl) (by rfl) (by rw [hp]; rfl) (fun hb => hbound hp hb) t)
  | @addInserts tm delay hu hp hm =>
    refine .inl (h.steady_move (if delay then .timerDelayTest tm else .user) (by rfl) (by rfl) ?_ ?_ t)
    · rw [hp]; cases delay <;> rfl
    · cases delay with
      | false => exact fun hb => False.elim hb
      | true => exact fun _ => hbound hp rfl
  | delayWaits hu hp ha hst =>
    exact .inl (h.steady_move (.timerDelayFree _) (by rfl) (hcall hst (by simp) (by simp)) (by rw [hp]; rfl)
      (fun hb => False.elim hb) t)
  | delaySkips hu hp =>
    exact .inl (h.steady_move (.timerDelayFree _) (by rfl) (by rfl) (by rw [hp]; rfl) (fun hb => False.elim hb) t)
  | delayFrees hu hp hst =>
    exact .inl (h.steady_move .user (by rfl) (hcall hst (by simp) (by simp)) (by rw [hp]; rfl)
      (fun hb => False.elim hb) t)
  | @write w hu hw => cases w <;> exact .inl (h.steady_of_same rfl rfl)
  | _ => exact .inl (h.steady_of_same rfl rfl)

theorem Sound.fits_step (h : Sound s) (heff : SysEffect s e s') (t : TaskRef) : (s'.spc t).Fits (s'.cs.depth t) := by
  rcases h.steady heff t with hs | ⟨-, -, hspc, huser⟩
  · have hd := hs.depth
    have ho := (h.fits t).opened
    exact ⟨by omega, hs.bound⟩
  · rw [hspc, huser]
    exact ⟨Nat.zero_le _, fun hb => False.elim hb⟩

/-! ### Queues -/

theorem Sound.timers_step (h : Sound s) (heff : SysEffect s e s') : (s'.svc.timers ()).Nodup := by
  cases heff with
  | @addInserts tm delay hu hp hm =>
    have hperm := List.perm_orderedInsert (fun a b => (s.svc.timer a).tick < (s.svc.timer b).tick) tm (s.svc.timers ())
    exact hperm.nodup_iff.mpr (List.nodup_cons.mpr ⟨hm, h.timers⟩)
  | aborts hc ha hm => exact h.timers.erase _
  | tim2 hm hc hr htr => exact h.timers.sublist (List.dropWhile_sublist _)
  | @write w hu hw => cases w <;> exact h.timers
  | _ => exact h.timers

theorem Services.requested_reqQueue (svc : Services) (sem : SemRef) (req : ReqRef) :
    (svc.requested sem req).reqQueue = svc.reqQueue.listAddTail sem req ∨
      (svc.requested sem req).reqQueue = svc.reqQueue := by
  by_cases hn : svc.count sem - 1 < 0
  · exact .inl (if_pos hn)
  · exact .inr (if_neg hn)

theorem Sound.requests_step (h : Sound s) (heff : SysEffect s e s') : s'.svc.reqQueue.Located s'.reqAt := by
  cases heff with
  | semInit hc => exact h.requests.sync_update (List.nil_sublist _)
  | requests hc => exact h.requests.sync_add hc.2 (s.svc.requested_reqQueue _ _)
  | semTaken hu hr hn => exact h.requests.sync_add hr ((s.svc.asked _ _).requested_reqQueue _ _)
  | semQueued hu hr hd hn => exact h.requests.sync_add hr ((s.svc.asked _ _).requested_reqQueue _ _)
  | grants hc hn hh hs => exact h.requests.sync_update (List.tail_sublist _)
  | @write w hu hw => cases w <;> exact h.requests
  | _ => first | exact h.requests | exact h.requests.sync_self

theorem Sound.messages_step (h : Sound s) (heff : SysEffect s e s') : s'.svc.messageList.Located s'.msgAt := by
  cases heff with
  | portInit hu ha hst hsg => exact h.messages.sync_update (List.nil_sublist _)
  | got hc => exact h.messages.sync_update (List.tail_sublist _)
  | sent hc hm ha hs => exact h.messages.sync_add hm (.inl rfl)
  | @write w hu hw => cases w <;> exact h.messages
  | _ => first | exact h.messages | exact h.messages.sync_self

/-! ### Runs -/

/-- Every step keeps the machine sound. -/
theorem Sound.step (h : Sound s) (hst : s.Step e s') : Sound s' := by
  have heff := h.effect hst
  obtain ⟨ctr, hr⟩ := heff.core_run
  obtain ⟨hn, hp, ha⟩ := core_invariants h.nested h.placed h.attentive hr
  exact {
    nested := hn
    placed := hp
    attentive := ha
    fits := h.fits_step heff
    timers := h.timers_step heff
    requests := h.requests_step heff
    messages := h.messages_step heff }

theorem Sound.start {cfg : Config} {c : Core} (h : martosPre cfg = .ok c) : Sound (Sys.start c) where
  nested := .start h
  placed := .start h
  attentive := .start h
  fits _ := ⟨Nat.zero_le _, fun hb => False.elim hb⟩
  timers := List.nodup_nil
  requests := ⟨fun _ => List.nodup_nil, fun _ _ => ⟨nofun, nofun⟩⟩
  messages := ⟨fun _ => List.nodup_nil, fun _ _ => ⟨nofun, nofun⟩⟩

/-- Every reachable state is sound. -/
theorem Sound.run {cfg : Config} {c : Core} {tr : List (Move Sys SysEvent)} (h : martosPre cfg = .ok c)
    (hr : Run Sys.Step (Sys.start c) tr s) : Sound s :=
  hr.invariant (Sound.start h) fun _ _ _ hs hst => hs.step hst

/-- **Seen from the core, every run is a run of the core machine.** -/
theorem core_run_of_run {cfg : Config} {c : Core} {tr : List (Move Sys SysEvent)} (h : martosPre cfg = .ok c)
    (hr : Run Sys.Step (Sys.start c) tr s) : ∃ ctr, Run CoreSys.Step (CoreSys.start c) ctr s.cs :=
  hr.simulate Sys.cs (Sound.start h) (fun _ _ _ hs hst => hs.step hst)
    fun _ _ _ hs hst => (hs.effect hst).core_run

end

end Martos
