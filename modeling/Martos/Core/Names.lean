import Martos.Core.Placement

/-!
# Finding tasks by name

`task_find` searches `ready`, then `waiting`, and then means to try the running task. What
it compares the name with there is `task->node.name`, and `task` is NULL at that point: the
search of `waiting` has just returned it. So the running task is never tried, and a name
that neither list has leads to a read through NULL. `null` is what that read yields: a
string, or `none` if it stops the processor. (On the target, address 0 is the vector table,
so the read itself need not fail.)

`task_init` asserts that `task_find` returns NULL, with two consequences of its own. For a
NULL name, which the header permits, `task_find` returns the running task, so the assertion
fails. And a namesake of the running task passes, if the read through NULL does.

The core machine takes the assertion as passed, which only adds to what can happen;
`CoreSys.execChecked` makes it. The call of `task_init` in `martos_pre` is made while both lists
are empty and `running` is NULL, and passes, if the read through NULL does.
-/

namespace Martos

open Checked Transition

/-- `list_find`, on the nodes of a list of tasks. -/
def listFind (c : Core) (name : String) : List TaskRef → Except Fault (Option TaskRef)
  | [] => .ok none
  | nextnode :: rest =>
    match (c.task nextnode).name with
    | none => .error .nullName
    | some other => if other = name then .ok (some nextnode) else listFind c name rest

/-- `task_find` between its `disable()` and its `enable()`. -/
def taskFindName (null : Option String) (name : String) (c : Core) : Except Fault (Option TaskRef) := do
  match ← listFind c name (c.lists .ready) with
  | some task => return some task
  | none =>
    match ← listFind c name (c.lists .waiting) with
    | some task => return some task
    | none =>
      -- `task` is NULL here, and `task->node.name` is read
      match null with
      | none => .error .nullTask
      | some other => return if name = other then some c.running else none

/-- `task_find`. -/
def taskFind (null : Option String) (name : Option String) (c : Core) : Except Fault (Option TaskRef × Core) :=
  match name with
  | none => .ok (some c.running, c)
  | some name => do
    let c := c.disable
    let task ← taskFindName null name c
    let c ← c.enable
    return (task, c)

/-- `task_init` up to its assertion. -/
def taskInitAssert (null : Option String) (t : TaskRef) (name : Option String) (c : Core) : Except Fault Core := do
  let c := c.modTask t fun k => { k with state := .invalid }
  let (task, c) ← taskFind null name c
  assertThat (task = none) .taskName
  return c

/-- `task_init`, with its assertion. -/
def taskInitChecked (null : Option String) (t : TaskRef) (params : TaskParams) (c : Core) : Except Fault Core := do
  let c ← taskInitAssert null t params.name c
  taskInit t params c

/-- A call by the running task, with the assertion of `task_init`. -/
def CoreSys.execCallChecked (null : Option String) (s : CoreSys) : Call → Except Fault CoreSys
  | .taskInit t params => do
    let c ← taskInitChecked null t params s.core
    return { s with core := c, life := Function.update s.life t .initialized }
  | k => s.execCall k

/-- What an event does, with the assertion of `task_init`. -/
def CoreSys.execChecked (null : Option String) (s : CoreSys) : Event → Except Fault CoreSys
  | .call k => s.execCallChecked null k
  | e => s.exec e

namespace Core

/-- The running task, and those on `ready` and `waiting`. -/
def Known (c : Core) (t : TaskRef) : Prop := t = c.running ∨ t ∈ c.lists .ready ∨ t ∈ c.lists .waiting

/-- The task has this name. -/
def Named (c : Core) (name : String) (t : TaskRef) : Prop := (c.task t).name = some name

instance (c : Core) (name : String) : DecidablePred (c.Named name) :=
  fun t => inferInstanceAs (Decidable ((c.task t).name = some name))

/-- A task on `ready` or `waiting` has this name. -/
def Listed (c : Core) (name : String) : Prop := ∃ t, t ∈ c.lists .ready ++ c.lists .waiting ∧ c.Named name t

instance (c : Core) (name : String) : Decidable (c.Listed name) :=
  inferInstanceAs (Decidable (∃ t, t ∈ c.lists .ready ++ c.lists .waiting ∧ c.Named name t))

end Core

section

variable {c : Core} {null : Option String} {name : String} {t : TaskRef}

theorem listFind_eq (name : String) {xs : List TaskRef} (h : ∀ t ∈ xs, (c.task t).name ≠ none) :
    listFind c name xs = .ok (xs.find? fun t => decide (c.Named name t)) := by
  induction xs with
  | nil => rfl
  | cons t ts ih =>
    obtain ⟨other, ho⟩ := Option.ne_none_iff_exists'.mp (h t (List.mem_cons_self ..))
    rw [listFind, ho]
    by_cases heq : other = name
    · have hnamed : c.Named name t := ho.trans (congrArg some heq)
      simp only [if_pos heq, List.find?_cons_of_pos, decide_eq_true hnamed]
    · have hnamed : ¬ c.Named name t := fun hn => heq (Option.some.inj (ho.symm.trans hn))
      simp only [if_neg heq]
      rw [ih fun u hu => h u (List.mem_cons_of_mem _ hu), List.find?_cons_of_neg (by simpa using hnamed)]

theorem taskFindName_eq (null : Option String) (name : String)
    (h : ∀ t ∈ c.lists .ready ++ c.lists .waiting, (c.task t).name ≠ none) :
    taskFindName null name c =
      match (c.lists .ready ++ c.lists .waiting).find? fun t => decide (c.Named name t) with
      | some task => .ok (some task)
      | none =>
        match null with
        | none => .error .nullTask
        | some other => .ok (if name = other then some c.running else none) := by
  have hready := listFind_eq name fun t ht => h t (List.mem_append_left _ ht)
  have hwaiting := listFind_eq name fun t ht => h t (List.mem_append_right _ ht)
  unfold taskFindName
  rw [List.find?_append, hready, ok_bind]
  cases (c.lists .ready).find? fun t => decide (c.Named name t) with
  | some task => rfl
  | none =>
    rw [hwaiting]
    cases (c.lists .waiting).find? fun t => decide (c.Named name t) with
    | some task => rfl
    | none => cases null <;> rfl

/-- What `task_find` does with a name, if all tasks on the lists have one. -/
theorem taskFind_eq (hb : c.Balanced) (h : ∀ t ∈ c.lists .ready ++ c.lists .waiting, (c.task t).name ≠ none) :
    taskFind null (some name) c =
      match (c.lists .ready ++ c.lists .waiting).find? fun t => decide (c.Named name t) with
      | some task => .ok (some task, c)
      | none =>
        match null with
        | none => .error .nullTask
        | some other => .ok (if name = other then some c.running else none, c) := by
  have he : c.disable.enable = .ok c := hb.enable rfl rfl
  have hname := taskFindName_eq (c := c.disable) null name h
  change (do let task ← taskFindName null name c.disable; let c ← c.disable.enable; return (task, c)) = _
  rw [hname, he]
  change (match (c.lists .ready ++ c.lists .waiting).find? fun t => decide (c.Named name t) with
    | some task => Except.ok (some task)
    | none =>
      match null with
      | none => .error Fault.nullTask
      | some other => .ok (if name = other then some c.running else none)) >>= _ = _
  cases (c.lists .ready ++ c.lists .waiting).find? fun t => decide (c.Named name t) with
  | some task => rfl
  | none => cases null <;> rfl

/-- A task on the lists has the name, and is found, whatever a read through NULL would
yield. -/
theorem taskFind_listed (hb : c.Balanced) (h : ∀ t ∈ c.lists .ready ++ c.lists .waiting, (c.task t).name ≠ none)
    (hl : c.Listed name) : ∃ t, c.Known t ∧ c.Named name t ∧
      ∀ null, taskFind null (some name) c = .ok (some t, c) := by
  cases hf : (c.lists .ready ++ c.lists .waiting).find? fun t => decide (c.Named name t) with
  | some t =>
    refine ⟨t, .inr (List.mem_append.mp (List.mem_of_find?_eq_some hf)), ?_, fun null => ?_⟩
    · exact of_decide_eq_true (List.find?_some (p := fun t => decide (c.Named name t)) hf)
    · rw [taskFind_eq hb h, hf]
  | none =>
    obtain ⟨t, ht, hn⟩ := hl
    have hno := List.find?_eq_none.mp hf t ht
    exact absurd (decide_eq_true hn) hno

/-- No task on the lists has the name: it is compared with what is read through NULL. -/
theorem taskFind_not_listed (null : Option String) (hb : c.Balanced)
    (h : ∀ t ∈ c.lists .ready ++ c.lists .waiting, (c.task t).name ≠ none) (hl : ¬ c.Listed name) :
    taskFind null (some name) c =
      match null with
      | none => .error .nullTask
      | some other => .ok (if name = other then some c.running else none, c) := by
  have hf : (c.lists .ready ++ c.lists .waiting).find? (fun t => decide (c.Named name t)) = none := by
    refine List.find?_eq_none.mpr fun t ht hn => hl ⟨t, ht, ?_⟩
    exact of_decide_eq_true hn
  rw [taskFind_eq hb h, hf]

theorem Placed.known_scheduled {s : CoreSys} (hp : Placed s) (hk : s.core.Known t) : s.life t = .scheduled := by
  rcases hk with rfl | hk
  · exact hp.running_scheduled
  · have hstate := (hp.onList_iff t).mp hk
    exact (hp.scheduled t).mpr (.inr hstate)

/-- `task_find` finds the task with this name, or finds that there is none, changes nothing,
and does not depend on what a read through NULL yields. -/
def FindsTask (c : Core) (name : String) : Prop :=
  ∃ r, (∀ null, taskFind null (some name) c = .ok (r, c)) ∧ (∀ t, r = some t → c.Known t ∧ c.Named name t) ∧
    (r = none → ∀ t, c.Known t → ¬ c.Named name t)

/-- **`task_find` is right exactly for the names of tasks on `ready` and `waiting`**: any
other name leads to a read through NULL. -/
theorem task_find_exact_iff {cfg : Config} {c : Core} {tr : List (Move CoreSys Event)} {s : CoreSys}
    (h : martosPre cfg = .ok c) (hr : Run CoreSys.Step (CoreSys.start c) tr s)
    (hnamed : ∀ t, s.core.Known t → (s.core.task t).name ≠ none) (name : String) :
    FindsTask s.core name ↔ s.core.Listed name := by
  have hb := (Nested.run h hr).balanced
  have hlists (t) (ht : t ∈ s.core.lists .ready ++ s.core.lists .waiting) : (s.core.task t).name ≠ none :=
    hnamed t (.inr (List.mem_append.mp ht))
  constructor
  · rintro ⟨r, hfind, -, -⟩
    by_contra hl
    -- where the read through NULL stops the processor
    have hstop := taskFind_not_listed none hb hlists hl
    rw [hfind none] at hstop
    cases hstop
  · intro hl
    obtain ⟨t, hk, hn, hfind⟩ := taskFind_listed hb hlists hl
    refine ⟨some t, hfind, fun u hu => ?_, fun hno => nomatch hno⟩
    rw [← Option.some.inj hu]
    exact ⟨hk, hn⟩

/-- The theorem at a task on `ready`. -/
theorem task_find_exact_iff_ready : ∃ c tr s, martosPre CoreSys.exampleConfig = .ok c ∧
    Run CoreSys.Step (CoreSys.start c) tr s ∧ s.core.lists .ready = [1] ∧ FindsTask s.core "shell" := by
  obtain ⟨c, tr, s, hc, hr, hp⟩ := CoreSys.exists_run_of_replayed CoreSys.exampleConfig (fun _ _ => True)
    (CoreSys.startTask 1 "shell" 5 0x20001000)
    (p := fun s => decide (s.core.running = initTask ∧ (s.core.task initTask).name = some "init" ∧
      s.core.lists .ready = [1] ∧ s.core.lists .waiting = [] ∧ (s.core.task 1).name = some "shell"))
    (by decide +kernel)
  obtain ⟨hrun, hinit, hready, hwaiting, hname⟩ := of_decide_eq_true hp
  have hr : Run CoreSys.Step (CoreSys.start c) tr s := hr.mono fun _ _ _ h => h.2
  have hnamed (t) (ht : s.core.Known t) : (s.core.task t).name ≠ none := by
    rw [Core.Known, hrun, hready, hwaiting] at ht
    rcases ht with rfl | ht | ht
    · rw [hinit]
      exact Option.some_ne_none _
    · rw [List.mem_singleton.mp ht, hname]
      exact Option.some_ne_none _
    · cases ht
  refine ⟨c, tr, s, hc, hr, hready, (task_find_exact_iff hc hr hnamed "shell").mpr ⟨1, ?_, hname⟩⟩
  rw [hready]
  exact List.mem_append_left _ (List.mem_singleton_self 1)

/-- The init task asks for a task of its own name. -/
theorem task_find_misses_running : ¬ ∀ (cfg : Config) (c : Core) (tr : List (Move CoreSys Event)) (s : CoreSys)
    (name : String), martosPre cfg = .ok c → Run CoreSys.Step (CoreSys.start c) tr s →
    (∀ t, s.core.Known t → (s.core.task t).name ≠ none) → FindsTask s.core name := by
  intro hall
  obtain ⟨c, hc⟩ := Option.isSome_iff_exists.mp
    (show (martosPre CoreSys.exampleConfig).toOption.isSome = true by decide +kernel)
  have hc := eq_ok_of_toOption hc
  obtain ⟨context, rfl⟩ := Core.exists_of_martosPre hc
  obtain ⟨r, hfind, -, -⟩ := hall _ _ [] _ "init" hc .nil fun t ht => by
    rcases ht with rfl | ht | ht
    · exact Option.some_ne_none "init"
    · cases ht
    · cases ht
  -- neither list has a task, and the read through NULL stops the processor
  have hstop := hfind none
  cases hstop

/-! ### The check of `task_init` -/

/-- A call of `task_init` passes its assertion. -/
def PassesAssert (null : Option String) (s : CoreSys) : Event → Prop
  | .call (.taskInit t params) => (taskInitAssert null t params.name s.core).toOption.isSome = true
  | _ => True

instance (null : Option String) (s : CoreSys) (e : Event) : Decidable (PassesAssert null s e) := by
  unfold PassesAssert
  split <;> infer_instance

/-- Every task that has been initialised has a name. -/
def AllNamed (s : CoreSys) : Prop := ∀ t, s.life t ≠ .fresh → (s.core.task t).name ≠ none

section

variable {s s' : CoreSys} {e : Event}

/-- A NULL name finds the running task, and the assertion fails. -/
theorem taskInitAssert_null (null : Option String) (t : TaskRef) (c : Core) :
    taskInitAssert null t none c = .error .taskName := rfl

/-- `task_find` changes nothing. -/
theorem taskFind_unchanged {name : Option String} {r : Option TaskRef} {d : Core} (hb : c.Balanced)
    (h : taskFind null name c = .ok (r, d)) : d = c := by
  cases name with
  | none => exact (Prod.mk.inj (Except.ok.inj h)).2.symm
  | some name =>
    simp only [taskFind, bind_eq_ok, pure_eq_ok] at h
    obtain ⟨task, -, e, he, hd⟩ := h
    rw [hb.enable rfl rfl, Except.ok.injEq] at he
    rw [← (Prod.mk.inj hd).2, ← he]
    rfl

/-- A task whose state has been written. -/
theorem Core.Balanced.modTask (hb : c.Balanced) (t : TaskRef) (f : Task → Task) : (c.modTask t f).Balanced :=
  ⟨hb.primask, hb.le⟩

/-- What passes the assertion is initialised as in the core machine. -/
theorem taskInitChecked_eq {params : TaskParams} {d : Core} (hb : c.Balanced)
    (h : taskInitAssert null t params.name c = .ok d) : taskInitChecked null t params c = taskInit t params c := by
  have hd : d = c.modTask t fun k => { k with state := .invalid } := by
    simp only [taskInitAssert, bind_eq_ok, assertThat_eq_ok, pure_eq_ok] at h
    obtain ⟨⟨r, d'⟩, hfind, -, -, rfl⟩ := h
    exact taskFind_unchanged (hb.modTask t _) hfind
  rw [taskInitChecked, h, ok_bind, hd]
  -- every field is written again
  unfold taskInit
  simp [Core.modTask]

/-- A failed assertion apart, events do what they do in the core machine. -/
theorem CoreSys.execChecked_eq (hb : s.core.Balanced) (hok : PassesAssert null s e) :
    s.execChecked null e = s.exec e := by
  cases e with
  | call k =>
    cases k with
    | taskInit t params =>
      obtain ⟨d, hd⟩ := Option.isSome_iff_exists.mp hok
      have hinit : taskInitChecked null t params s.core = taskInit t params s.core :=
        taskInitChecked_eq hb (eq_ok_of_toOption hd)
      simp only [execChecked, execCallChecked, exec, execCall, hinit]
    | _ => rfl
  | _ => rfl

/-- An event that comes to its end has passed the assertion. -/
theorem CoreSys.passes_of_execChecked (hx : s.execChecked null e = .ok s') : PassesAssert null s e := by
  cases e with
  | call k =>
    cases k with
    | taskInit t params =>
      simp only [execChecked, execCallChecked, taskInitChecked, bind_eq_ok] at hx
      obtain ⟨c, ⟨d, hd, -⟩, -⟩ := hx
      simp only [PassesAssert, hd]
      rfl
    | _ => trivial
  | _ => trivial

/-- Only `task_init` gives a task another name. -/
theorem Nested.name_step (h : Nested s) (hst : s.Step e s') (ht : ∀ params, e ≠ .call (.taskInit t params)) :
    (s'.core.task t).name = (s.core.task t).name := by
  have hawaits (sg : Signals) : ((s.core.awaits sg).task t).name = (s.core.task t).name :=
    Core.apply_update Task.name (by rfl) t
  cases h.effect hst with
  | @taskInit u params context hu hf =>
    have hne : t ≠ u := fun he => ht params (he ▸ rfl)
    simp [Core.prepared, hne]
  | waitBlocks hu hn hz hl => exact (Core.apply_update Task.name (by rfl) t).trans (hawaits _)
  | waitReturns hu hn hz => exact (Core.apply_update Task.name (by rfl) t).trans (hawaits _)
  | preempts hp hs hl hh =>
    exact (Core.apply_update Task.name (by rfl) t).trans (Core.apply_update Task.name (by rfl) t)
  | leaves hp hs hst' hh =>
    exact (Core.apply_update Task.name (by rfl) t).trans (Core.apply_update Task.name (by rfl) t)
  | taskSetPrio hu => exact Core.apply_update Task.name (by rfl) t
  | signalAllocate target hu => exact Core.apply_update Task.name (by rfl) t
  | signalFree hu hs => exact Core.apply_update Task.name (by rfl) t
  | posted hw he => exact Core.apply_update Task.name (by rfl) t
  | woken hw hm he => exact Core.apply_update Task.name (by rfl) t
  | inserts ht hpc hl => exact Core.apply_update Task.name (by rfl) t
  | blocksAgain ht hpc hz hl => exact Core.apply_update Task.name (by rfl) t
  | returns ht hpc hz => exact Core.apply_update Task.name (by rfl) t
  | _ => rfl

/-- A fresh task stays fresh until `task_init`. -/
theorem Placed.fresh_step (hp : Placed s) (hn : Nested s) (hst : s.Step e s') {t : TaskRef}
    (ht : ∀ params, e ≠ .call (.taskInit t params)) (hf : s.life t = .fresh) : s'.life t = .fresh := by
  cases hn.effect hst with
  | @taskInit u params context hu hf' =>
    have hne : t ≠ u := fun he => ht params (he ▸ rfl)
    exact (Function.update_of_ne hne ..).trans hf
  | @taskSchedule u hu hi =>
    have hne : t ≠ u := by
      rintro rfl
      exact absurd (hf.symm.trans hi) (by decide)
    exact (Function.update_of_ne hne ..).trans hf
  | @inserts u hth hpc hl =>
    have hne : t ≠ u := by
      rintro rfl
      exact absurd (hf.symm.trans (hp.sched.begun _ _ hpc)) (by decide)
    exact (Function.update_of_ne hne ..).trans hf
  | _ => exact hf

theorem AllNamed.step (h : AllNamed s) (hn : Nested s) (hp : Placed s) (hok : PassesAssert null s e)
    (hst : s.Step e s') : AllNamed s' := by
  intro t ht
  by_cases hinit : ∃ params, e = .call (.taskInit t params)
  · obtain ⟨params, rfl⟩ := hinit
    -- a NULL name would not have passed
    have hname : params.name ≠ none := by
      intro hno
      rw [PassesAssert, hno, taskInitAssert_null] at hok
      cases hok
    cases hn.effect hst with
    | taskInit context hu hf => simpa [Core.prepared] using hname
    | posted hw he => rcases he with ⟨he, -⟩ | ⟨he, -⟩ <;> cases he
    | woken hw hm he => rcases he with ⟨he, -⟩ | ⟨he, -⟩ <;> cases he
  · have hno (params) : e ≠ .call (.taskInit t params) := fun he => hinit ⟨params, he⟩
    rw [hn.name_step hst hno]
    exact h t fun hf => ht (hp.fresh_step hn hst hno hf)

/-- The tasks that `task_find` searches have names. -/
theorem AllNamed.listed (h : AllNamed s) (hp : Placed s) :
    ∀ u ∈ s.core.lists .ready ++ s.core.lists .waiting, (s.core.task u).name ≠ none := by
  intro u hu
  refine h u ?_
  rw [hp.known_scheduled (.inr (List.mem_append.mp hu))]
  decide

theorem AllNamed.start {cfg : Config} {c : Core} (h : martosPre cfg = .ok c) : AllNamed (CoreSys.start c) := by
  obtain ⟨context, rfl⟩ := Core.exists_of_martosPre h
  intro t ht
  by_cases hi : t = initTask
  · rw [hi]
    exact Option.some_ne_none "init"
  · exact absurd (if_neg hi) ht

/-- With the assertion made, every task gets a name. -/
theorem AllNamed.follows (h : AllNamed s) (hn : Nested s) (hp : Placed s) {tr : List (Move CoreSys Event)}
    (hr : Run (Restrict (PassesAssert null) CoreSys.Step) s tr s') : AllNamed s' :=
  (hr.invariant (P := fun s => Nested s ∧ Placed s ∧ AllNamed s) ⟨hn, hp, h⟩
    fun _ _ _ ⟨hn, hp, ha⟩ ⟨hok, hst⟩ => ⟨hn.step hst, hp.step hn hst, ha.step hn hp hok hst⟩).2.2

theorem AllNamed.run {cfg : Config} {c : Core} {tr : List (Move CoreSys Event)} (h : martosPre cfg = .ok c)
    (hr : Run (Restrict (PassesAssert null) CoreSys.Step) (CoreSys.start c) tr s) : AllNamed s :=
  (AllNamed.start h).follows (.start h) (.start h) hr

end

section

variable {n : String} (hb : c.Balanced) (hnamed : ∀ t ∈ c.lists .ready ++ c.lists .waiting, (c.task t).name ≠ none)
include hb hnamed

/-- A name on the lists is refused. -/
theorem taskInitAssert_listed (hl : c.Listed n) (t : TaskRef) :
    taskInitAssert null t (some n) c = .error .taskName := by
  let d : Core := c.modTask t fun k => { k with state := .invalid }
  have hsame (u) : (d.task u).name = (c.task u).name := Core.apply_update Task.name (by rfl) u
  obtain ⟨u, hu, hn⟩ := hl
  obtain ⟨v, -, -, hfind⟩ := taskFind_listed (hb.modTask t _) (fun u hu => (hsame u).symm ▸ hnamed u hu)
    (c := d) ⟨u, hu, (hsame u).trans hn⟩
  change taskFind null (some n) d >>= _ = _
  rw [hfind null]
  rfl

/-- Any other name is compared with what is read through NULL. -/
theorem taskInitAssert_not_listed (null : Option String) (hl : ¬ c.Listed n) (t : TaskRef) :
    taskInitAssert null t (some n) c =
    match null with
    | none => .error .nullTask
    | some other =>
      if n = other then .error .taskName else .ok (c.modTask t fun k => { k with state := .invalid }) := by
  let d : Core := c.modTask t fun k => { k with state := .invalid }
  have hsame (u) : (d.task u).name = (c.task u).name := Core.apply_update Task.name (by rfl) u
  have hfind := taskFind_not_listed (c := d) null (hb.modTask t _)
    (fun u hu => (hsame u).symm ▸ hnamed u hu) fun ⟨u, hu, hn⟩ => hl ⟨u, hu, (hsame u).symm.trans hn⟩
  change taskFind null (some n) d >>= _ = _
  rw [hfind]
  cases null with
  | none => rfl
  | some other =>
    by_cases heq : n = other
    · simp only [if_pos heq]
      rfl
    · simp only [if_neg heq]
      rfl

end

/-- No task has the name. -/
theorem Core.unique_iff {n : String} : (some n = none ∨ ∀ u, c.Known u → (c.task u).name ≠ some n) ↔
    ¬ c.Listed n ∧ ¬ c.Named n c.running := by
  constructor
  · intro h
    have hno := h.resolve_left (by simp)
    exact ⟨fun ⟨u, hu, hn⟩ => hno u (.inr (List.mem_append.mp hu)) hn, hno c.running (.inl rfl)⟩
  · rintro ⟨hl, hr⟩
    refine .inr fun u hk hn => ?_
    rcases hk with rfl | hk
    · exact hr hn
    · exact hl ⟨u, List.mem_append.mpr hk, hn⟩

/-- The assertion of `task_init` accepts a NULL name, and a name which no running, ready or
waiting task has, and fails for every other one. -/
structure InitCheckExact (null : Option String) (t : TaskRef) (name : Option String) (c : Core) : Prop where
  /-- What passes. -/
  accepts : (name = none ∨ ∀ u, c.Known u → (c.task u).name ≠ name) → ∃ d, taskInitAssert null t name c = .ok d
  /-- What does not. -/
  rejects : ¬ (name = none ∨ ∀ u, c.Known u → (c.task u).name ≠ name) →
    taskInitAssert null t name c = .error .taskName

/-- **The check of `task_init` is exact** only for the names of tasks on `ready` and
`waiting`, and where what is read through NULL happens to compare with the name as the
name of the running task does. For a NULL name it always fails. -/
theorem init_check_exact_iff {cfg : Config} {c : Core} {tr : List (Move CoreSys Event)} {s : CoreSys}
    (h : martosPre cfg = .ok c) (hr : Run (Restrict (PassesAssert null) CoreSys.Step) (CoreSys.start c) tr s)
    (t : TaskRef) (name : Option String) : InitCheckExact null t name s.core ↔
      ∃ n, name = some n ∧ (s.core.Listed n ∨
        ∃ other, null = some other ∧ (n = other ↔ s.core.Named n s.core.running)) := by
  have hrun : Run CoreSys.Step (CoreSys.start c) tr s := hr.mono fun _ _ _ => And.right
  have hp := Placed.run h hrun
  have hb := (Nested.run h hrun).balanced
  have hnamed (u) (hu : s.core.Known u) : (s.core.task u).name ≠ none :=
    AllNamed.run h hr u (by rw [hp.known_scheduled hu]; decide)
  have hlists (u) (hu : u ∈ s.core.lists .ready ++ s.core.lists .waiting) : (s.core.task u).name ≠ none :=
    hnamed u (.inr (List.mem_append.mp hu))
  cases name with
  | none =>
    refine iff_of_false (fun hx => ?_) fun ⟨n, hn, _⟩ => nomatch hn
    obtain ⟨d, hd⟩ := hx.accepts (.inl rfl)
    cases hd
  | some n =>
    constructor
    · intro hx
      refine ⟨n, rfl, ?_⟩
      by_contra hno
      obtain ⟨hl, hother⟩ := not_or.mp hno
      have hassert := taskInitAssert_not_listed hb hlists null hl t
      by_cases hrun : s.core.Named n s.core.running
      · -- the namesake of the running task is refused only if the read says so
        have hrej := hx.rejects fun hu => (Core.unique_iff.mp hu).2 hrun
        rw [hassert] at hrej
        cases null with
        | none => cases hrej
        | some other =>
          by_cases heq : n = other
          · exact hother ⟨other, rfl, iff_of_true heq hrun⟩
          · simp [heq] at hrej
      · obtain ⟨d, hacc⟩ := hx.accepts (Core.unique_iff.mpr ⟨hl, hrun⟩)
        rw [hassert] at hacc
        cases null with
        | none => cases hacc
        | some other =>
          by_cases heq : n = other
          · simp [heq] at hacc
          · exact hother ⟨other, rfl, iff_of_false heq hrun⟩
    · rintro ⟨n', hn', hcond⟩
      obtain rfl := Option.some.inj hn'
      by_cases hl : s.core.Listed n
      · exact ⟨fun hu => absurd hl (Core.unique_iff.mp hu).1, fun _ => taskInitAssert_listed hb hlists hl t⟩
      · obtain ⟨other, rfl, hiff⟩ := hcond.resolve_left hl
        have hassert := taskInitAssert_not_listed hb hlists (some other) hl t
        constructor
        · intro hu
          have hne : n ≠ other := fun heq => (Core.unique_iff.mp hu).2 (hiff.mp heq)
          exact ⟨_, hassert.trans (if_neg hne)⟩
        · intro hnu
          have hrun : s.core.Named n s.core.running := by
            by_contra hno
            exact hnu (Core.unique_iff.mpr ⟨hl, hno⟩)
          exact hassert.trans (if_pos (hiff.mpr hrun))

/-- The theorem at the name of a task on `ready`. -/
theorem init_check_exact_iff_ready : ∃ c tr s, martosPre CoreSys.exampleConfig = .ok c ∧
    Run (Restrict (PassesAssert (some "")) CoreSys.Step) (CoreSys.start c) tr s ∧ s.core.lists .ready = [1] ∧
    InitCheckExact (some "") 2 (some "shell") s.core := by
  obtain ⟨c, tr, s, hc, hr, hp⟩ := CoreSys.exists_run_of_replayed CoreSys.exampleConfig (PassesAssert (some ""))
    (CoreSys.startTask 1 "shell" 5 0x20001000)
    (p := fun s => decide (s.core.lists .ready = [1] ∧ (s.core.task 1).name = some "shell"))
    (by decide +kernel)
  obtain ⟨hready, hname⟩ := of_decide_eq_true hp
  refine ⟨c, tr, s, hc, hr, hready, (init_check_exact_iff hc hr 2 (some "shell")).mpr
    ⟨"shell", rfl, .inl ⟨1, ?_, hname⟩⟩⟩
  rw [hready]
  exact List.mem_append_left _ (List.mem_singleton_self 1)

/-- A task without a name is initialised. -/
theorem init_check_refuses_null : ¬ ∀ (null : Option String) (cfg : Config) (c : Core)
    (tr : List (Move CoreSys Event)) (s : CoreSys) (t : TaskRef) (name : Option String), martosPre cfg = .ok c →
    Run (Restrict (PassesAssert null) CoreSys.Step) (CoreSys.start c) tr s → InitCheckExact null t name s.core := by
  intro hall
  obtain ⟨c, hc⟩ := Option.isSome_iff_exists.mp
    (show (martosPre CoreSys.exampleConfig).toOption.isSome = true by decide +kernel)
  obtain ⟨d, hd⟩ := (hall (some "") _ c [] _ 1 none (eq_ok_of_toOption hc) .nil).accepts (.inl rfl)
  cases hd

end

end Martos
