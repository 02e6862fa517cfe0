import Mathlib.Data.List.Forall2

/-!
# Labelled transition systems and their runs

A system is a relation `step s e s'`: in state `s` the event `e` can happen and
lead to `s'`. A run keeps its whole history, the list of its moves, so that what
was sent, returned or granted so far is a function of the run and needs no ghost
variable in the state.

* `Run.invariant` — what holds at the start and is kept by every step holds at
  the end of every run.
* `Run.history` — the same for a property of the moves made so far together with
  the state reached.
* `Run.forall_move` — every move of a run is a step from a state which satisfies
  the invariant.
* `Run.split` — a run is a run up to any of its moves, that move, and a run from it on.
* `Run.of_replay`, `Run.exists_of_replay` — where the steps can be computed, a list of
  events that can be replayed is a run.
* `Activation` — a function from its call to its return, and what holds meanwhile.
* `latest` — the last value that some of the moves yield, and what one more move makes of it.
* `Run.simulate` — a system each of whose steps is a run of another one, seen
  through a projection, reaches nothing the other does not reach.
* `Run.follow` — a system that answers each step of another one has a run for each of
  its runs; `Run.unique` — where steps are functions of their events, it has no other.
-/

namespace Transition

variable {σ : Type*} {ε : Type*}

/-- One move of a run: the state before, the event, the state after. -/
structure Move (σ : Type*) (ε : Type*) where
  /-- The state before. -/
  pre : σ
  /-- What happened. -/
  event : ε
  /-- The state after. -/
  post : σ

/-- `Run step s₀ tr s`: the moves `tr`, each a step, lead from `s₀` to `s`. -/
inductive Run (step : σ → ε → σ → Prop) (s₀ : σ) : List (Move σ ε) → σ → Prop where
  /-- Nothing has happened yet. -/
  | nil : Run step s₀ [] s₀
  /-- One more step at the end. -/
  | snoc {tr : List (Move σ ε)} {s s' : σ} {e : ε} :
      Run step s₀ tr s → step s e s' → Run step s₀ (tr ++ [⟨s, e, s'⟩]) s'

/-- The steps of a system which a contract `ok` allows. -/
def Restrict (ok : σ → ε → Prop) (step : σ → ε → σ → Prop) : σ → ε → σ → Prop :=
  fun s e s' => ok s e ∧ step s e s'

/-- What `next` computes where the contract allows the event. -/
def nextIf (ok : σ → ε → Prop) [∀ s e, Decidable (ok s e)] (next : σ → ε → Option σ) (s : σ) (e : ε) : Option σ :=
  if ok s e then next s e else none

theorem restrict_of_nextIf {ok : σ → ε → Prop} [∀ s e, Decidable (ok s e)] {next : σ → ε → Option σ}
    {step : σ → ε → σ → Prop} (hn : ∀ s e s', next s e = some s' → step s e s') (s : σ) (e : ε) (s' : σ)
    (h : nextIf ok next s e = some s') : Restrict ok step s e s' := by
  unfold nextIf at h
  by_cases ho : ok s e
  · exact ⟨ho, hn s e s' (by rwa [if_pos ho] at h)⟩
  · rw [if_neg ho] at h
    cases h

/-- The last of the values that moves yield under `f`. -/
def latest {β : Type*} (f : Move σ ε → Option β) (tr : List (Move σ ε)) : Option β := (tr.filterMap f).getLast?

@[simp] theorem latest_nil {β : Type*} (f : Move σ ε → Option β) : latest f [] = none := rfl

theorem latest_snoc {β : Type*} (f : Move σ ε → Option β) (tr : List (Move σ ε)) (m : Move σ ε) :
    latest f (tr ++ [m]) = (f m).or (latest f tr) := by
  cases hm : f m with
  | none => simp [latest, List.filterMap_append, hm]
  | some v => simp [latest, List.filterMap_append, hm]

/-- What holds of every move and those before it, after one more move. -/
theorem forall_split_snoc {P : List (Move σ ε) → Move σ ε → Prop} {tr : List (Move σ ε)} {m : Move σ ε}
    (h : ∀ tr₁ x tr₂, tr = tr₁ ++ x :: tr₂ → P tr₁ x) (hm : P tr m) :
    ∀ tr₁ x tr₂, tr ++ [m] = tr₁ ++ x :: tr₂ → P tr₁ x := by
  intro tr₁ x tr₂ htr
  rcases List.eq_nil_or_concat tr₂ with rfl | ⟨tr₃, y, rfl⟩
  · obtain ⟨rfl, hx⟩ := List.append_inj' htr rfl
    obtain rfl := List.head_eq_of_cons_eq hx
    exact hm
  · rw [List.concat_eq_append, ← List.cons_append, ← List.append_assoc] at htr
    exact h tr₁ x tr₃ (List.append_inj' htr rfl).1

section

variable {step : σ → ε → σ → Prop} {s₀ s : σ} {tr : List (Move σ ε)}

/-- What holds of the moves and the state at the start, and is kept by every step,
holds of every run. -/
theorem Run.history {P : List (Move σ ε) → σ → Prop} (h₀ : P [] s₀)
    (hs : ∀ tr s e s', Run step s₀ tr s → P tr s → step s e s' → P (tr ++ [⟨s, e, s'⟩]) s')
    (h : Run step s₀ tr s) : P tr s := by
  induction h with
  | nil => exact h₀
  | snoc hr hst ih => exact hs _ _ _ _ hr ih hst

/-- What holds at the start and is kept by every step holds at the end of every run. -/
theorem Run.invariant {P : σ → Prop} (h₀ : P s₀) (hs : ∀ s e s', P s → step s e s' → P s')
    (h : Run step s₀ tr s) : P s :=
  h.history (P := fun _ s => P s) h₀ fun _ s e s' _ hp hst => hs s e s' hp hst

/-- Every move of a run is a step, taken from a state that satisfies the invariant. -/
theorem Run.forall_move {P : σ → Prop} (h₀ : P s₀) (hs : ∀ s e s', P s → step s e s' → P s')
    (h : Run step s₀ tr s) : ∀ m ∈ tr, P m.pre ∧ step m.pre m.event m.post := by
  induction h with
  | nil => simp
  | snoc hr hst ih =>
    intro m hm
    rcases List.mem_append.mp hm with hm | hm
    · exact ih m hm
    · obtain rfl := List.mem_singleton.mp hm
      exact ⟨hr.invariant h₀ hs, hst⟩

/-- Every move of a run is a step. -/
theorem Run.step_of_mem (h : Run step s₀ tr s) {m : Move σ ε} (hm : m ∈ tr) : step m.pre m.event m.post :=
  (h.forall_move (P := fun _ => True) trivial (fun _ _ _ _ _ => trivial) m hm).2

/-- A run of a smaller system is a run of a larger one. -/
theorem Run.mono {step' : σ → ε → σ → Prop} (hs : ∀ s e s', step s e s' → step' s e s')
    (h : Run step s₀ tr s) : Run step' s₀ tr s := by
  induction h with
  | nil => exact .nil
  | snoc _ hst ih => exact .snoc ih (hs _ _ _ hst)

/-- A run whose moves are all allowed. -/
theorem Run.restrict {ok : σ → ε → Prop} (h : Run step s₀ tr s) (hok : ∀ m ∈ tr, ok m.pre m.event) :
    Run (Restrict ok step) s₀ tr s := by
  induction h with
  | nil => exact .nil
  | snoc _ hst ih =>
    refine .snoc (ih fun m hm => hok m (List.mem_append_left _ hm)) ⟨?_, hst⟩
    exact hok _ (List.mem_append_right _ (List.mem_singleton_self _))

/-- Where an invariant holds, a run of one system may be a run of another one. -/
theorem Run.refine {step' : σ → ε → σ → Prop} {P : σ → Prop} (h₀ : P s₀)
    (hs : ∀ s e s', P s → step s e s' → step' s e s' ∧ P s') (h : Run step s₀ tr s) : Run step' s₀ tr s ∧ P s := by
  induction h with
  | nil => exact ⟨.nil, h₀⟩
  | snoc _ hst ih =>
    obtain ⟨hr, hp⟩ := ih
    obtain ⟨hst', hp'⟩ := hs _ _ _ hp hst
    exact ⟨.snoc hr hst', hp'⟩

/-- Runs compose. -/
theorem Run.append {tr' : List (Move σ ε)} {s' : σ} (h : Run step s₀ tr s)
    (h' : Run step s tr' s') : Run step s₀ (tr ++ tr') s' := by
  induction h' with
  | nil => simpa using h
  | snoc _ hst ih => rw [← List.append_assoc]; exact .snoc ih hst

/-- A run up to one of its moves, the move, and the run from it on. -/
theorem Run.split {tr₁ tr₂ : List (Move σ ε)} {m : Move σ ε} (h : Run step s₀ tr s)
    (htr : tr = tr₁ ++ m :: tr₂) :
    Run step s₀ tr₁ m.pre ∧ step m.pre m.event m.post ∧ Run step m.post tr₂ s := by
  induction h generalizing tr₂ with
  | nil => simp at htr
  | snoc hr hst ih =>
    rcases List.eq_nil_or_concat tr₂ with rfl | ⟨tr₃, x, rfl⟩
    · obtain ⟨rfl, hm⟩ := List.append_inj' htr rfl
      obtain rfl := List.head_eq_of_cons_eq hm
      exact ⟨hr, hst, .nil⟩
    · rw [List.concat_eq_append, ← List.cons_append, ← List.append_assoc] at htr
      obtain ⟨htr', hx⟩ := List.append_inj' htr rfl
      obtain rfl := List.head_eq_of_cons_eq hx
      obtain ⟨h₁, hm, h₂⟩ := ih htr'
      rw [List.concat_eq_append]
      exact ⟨h₁, hm, .snoc h₂ hst⟩

/-- A run without moves has not gone anywhere. -/
theorem Run.eq_of_nil (h : Run step s₀ [] s) : s = s₀ := by
  generalize htr : [] = tr at h
  cases h with
  | nil => rfl
  | snoc _ _ => simp at htr

/-- A run of one step. -/
theorem Run.one {e : ε} (h : step s₀ e s) : Run step s₀ [⟨s₀, e, s⟩] s := .snoc .nil h

/-- What holds when the caller has come inside, and is kept as long as it stays there, holds where it
is inside. -/
theorem Run.inside {inside P : σ → Prop} (h₀ : inside s₀ → P s₀)
    (hs : ∀ s e s', inside s → inside s' → P s → step s e s' → P s')
    (h : Run (Restrict (fun s _ => inside s) step) s₀ tr s) (hin : inside s) :
    P s ∧ ∀ m ∈ tr, inside m.pre ∧ P m.pre ∧ step m.pre m.event m.post := by
  induction h with
  | nil => exact ⟨h₀ hin, nofun⟩
  | snoc _ hst ih =>
    obtain ⟨hp, htr⟩ := ih hst.1
    refine ⟨hs _ _ _ hst.1 hin hp hst.2, fun m hm => ?_⟩
    rcases List.mem_append.mp hm with hm | hm
    · exact htr m hm
    · obtain rfl := List.mem_singleton.mp hm
      exact ⟨hst.1, hp, hst.2⟩

/-- A function that is called in state `s₁` and returns in state `s`: the caller is `inside` it from
`s₂` to `s`. -/
structure Activation (step : σ → ε → σ → Prop) (inside : σ → Prop) (s₁ : σ) (e : ε) (s₂ : σ) (tr : List (Move σ ε))
    (s : σ) (e' : ε) (s' : σ) : Prop where
  /-- The call. -/
  begins : step s₁ e s₂
  /-- What happens meanwhile. -/
  during : Run (Restrict (fun s _ => inside s) step) s₂ tr s
  /-- The caller is inside still. -/
  inside : inside s
  /-- The return. -/
  ends : step s e' s'

/-- If every step of a system is, seen through `π`, a run of another system, then
so is every run. -/
theorem Run.simulate {τ : Type*} {δ : Type*} {step' : τ → δ → τ → Prop} (π : σ → τ) {P : σ → Prop}
    (h₀ : P s₀) (hP : ∀ s e s', P s → step s e s' → P s')
    (hs : ∀ s e s', P s → step s e s' → ∃ tr', Run step' (π s) tr' (π s'))
    (h : Run step s₀ tr s) : ∃ tr', Run step' (π s₀) tr' (π s) := by
  induction h with
  | nil => exact ⟨[], .nil⟩
  | snoc hr hst ih =>
    obtain ⟨tr₁, h₁⟩ := ih
    obtain ⟨tr₂, h₂⟩ := hs _ _ _ (hr.invariant h₀ hP) hst
    exact ⟨tr₁ ++ tr₂, h₁.append h₂⟩

/-- **One system follows another one**: where it can answer every step, between states that are related, by one of
its own, it has for every run one that is related to it, move by move. What is asked of the runs, `C`, may depend
on all that has happened. -/
theorem Run.follow {τ : Type*} {δ : Type*} {step' : τ → δ → τ → Prop} {t₀ : τ} {R : List (Move σ ε) → τ → σ → Prop}
    {Q : Move τ δ → Move σ ε → Prop} {C : List (Move σ ε) → Prop} (hC : ∀ tr m, C (tr ++ [m]) → C tr) (h₀ : R [] t₀ s₀)
    (hs : ∀ tr t s e s', Run step s₀ tr s → R tr t s → step s e s' → C (tr ++ [⟨s, e, s'⟩]) →
      ∃ d t', step' t d t' ∧ Q ⟨t, d, t'⟩ ⟨s, e, s'⟩ ∧ R (tr ++ [⟨s, e, s'⟩]) t' s')
    (h : Run step s₀ tr s) (htr : C tr) : ∃ tr' t, Run step' t₀ tr' t ∧ List.Forall₂ Q tr' tr ∧ R tr t s := by
  induction h with
  | nil => exact ⟨[], t₀, .nil, .nil, h₀⟩
  | snoc hr hst ih =>
    obtain ⟨tr', t, hr', hq, hR⟩ := ih (hC _ _ htr)
    obtain ⟨d, t', hst', hq', hR'⟩ := hs _ _ _ _ _ hr hR hst htr
    exact ⟨_, t', .snoc hr' hst', List.rel_append hq (.cons hq' .nil), hR'⟩

/-- Where every event leads to one state only, the events of a run determine it. -/
theorem Run.unique {tr' : List (Move σ ε)} {s' : σ} (hd : ∀ s e t t', step s e t → step s e t' → t = t')
    (h : Run step s₀ tr s) (h' : Run step s₀ tr' s') (he : tr.map Move.event = tr'.map Move.event) :
    tr = tr' ∧ s = s' := by
  induction h generalizing tr' s' with
  | nil =>
    obtain rfl := List.map_eq_nil_iff.mp he.symm
    exact ⟨rfl, h'.eq_of_nil.symm⟩
  | snoc hr hst ih =>
    cases h' with
    | nil => simp at he
    | snoc hr' hst' =>
      simp only [List.map_append, List.map_cons, List.map_nil] at he
      obtain ⟨he, hlast⟩ := List.append_inj' he rfl
      obtain ⟨rfl, rfl⟩ := ih hr' he
      obtain rfl := List.head_eq_of_cons_eq hlast
      obtain rfl := hd _ _ _ _ hst hst'
      exact ⟨rfl, rfl⟩

/-- The state the events lead to, each computed by `next`, if all of them can happen. -/
def replay (next : σ → ε → Option σ) : σ → List ε → Option σ
  | s, [] => some s
  | s, e :: es => (next s e).bind fun s' => replay next s' es

/-- Events that can be replayed are the events of a run. -/
theorem Run.of_replay {next : σ → ε → Option σ} (hn : ∀ s e s', next s e = some s' → step s e s')
    {es : List ε} {s' : σ} (h : replay next s es = some s') :
    ∃ tr, Run step s tr s' ∧ tr.map Move.event = es := by
  induction es generalizing s with
  | nil =>
    obtain rfl := Option.some.inj h
    exact ⟨[], .nil, rfl⟩
  | cons e es ih =>
    obtain ⟨s₁, h₁, h₂⟩ := Option.bind_eq_some_iff.mp h
    obtain ⟨tr, hr, htr⟩ := ih h₂
    exact ⟨⟨s, e, s₁⟩ :: tr, (Run.one (hn s e s₁ h₁)).append hr, by simp [htr]⟩

/-- The moves that the events make, up to the first that cannot happen. -/
def retrace (next : σ → ε → Option σ) : σ → List ε → List (Move σ ε)
  | _, [] => []
  | s, e :: es =>
    match next s e with
    | some s' => ⟨s, e, s'⟩ :: retrace next s' es
    | none => []

/-- Events that can be replayed make a run of their moves. -/
theorem Run.of_retrace {next : σ → ε → Option σ} (hn : ∀ s e s', next s e = some s' → step s e s')
    {es : List ε} {s' : σ} (h : replay next s es = some s') : Run step s (retrace next s es) s' := by
  induction es generalizing s with
  | nil =>
    obtain rfl := Option.some.inj h
    exact .nil
  | cons e es ih =>
    obtain ⟨s₁, h₁, h₂⟩ := Option.bind_eq_some_iff.mp h
    simp only [retrace, h₁]
    exact (Run.one (hn s e s₁ h₁)).append (ih h₂)

/-- A call found by replaying events. -/
theorem Activation.exists_of_replay {next : σ → ε → Option σ} (hn : ∀ s e s', next s e = some s' → step s e s')
    {inside : σ → Prop} [∀ s, Decidable (inside s)] {es : List ε} {e e' : ε} {p : σ → σ → Bool}
    (h : (next s₀ e).any (fun s₂ => (replay (nextIf (fun s _ => inside s) next) s₂ es).any fun s =>
      decide (inside s) && (next s e').any (p s)) = true) :
    ∃ s₂ tr s s', Activation step inside s₀ e s₂ tr s e' s' ∧ p s s' = true ∧ tr.map Move.event = es := by
  obtain ⟨s₂, h₂, h⟩ := (Option.any_eq_true ..).mp h
  obtain ⟨s, hs, h⟩ := (Option.any_eq_true ..).mp h
  obtain ⟨hin, h⟩ := Bool.and_eq_true_iff.mp h
  obtain ⟨s', hs', hp⟩ := (Option.any_eq_true ..).mp h
  obtain ⟨tr, hr, htr⟩ := Run.of_replay (restrict_of_nextIf hn) hs
  exact ⟨s₂, tr, s, s', ⟨hn _ _ _ h₂, hr, of_decide_eq_true hin, hn _ _ _ hs'⟩, hp, htr⟩

/-- A call in a smaller system is a call in a larger one. -/
theorem Activation.mono {step' : σ → ε → σ → Prop} {inside : σ → Prop} {e e' : ε} {s₂ s' : σ}
    (hs : ∀ s e s', step s e s' → step' s e s') (h : Activation step inside s₀ e s₂ tr s e' s') :
    Activation step' inside s₀ e s₂ tr s e' s' where
  begins := hs _ _ _ h.begins
  during := h.during.mono fun s e s' hst => ⟨hst.1, hs s e s' hst.2⟩
  inside := h.inside
  ends := hs _ _ _ h.ends

/-- Where an invariant holds, a call in one system may be a call in another one. -/
theorem Activation.refine {step' : σ → ε → σ → Prop} {inside P : σ → Prop} {e e' : ε} {s₂ s' : σ} (h₀ : P s₀)
    (hs : ∀ s e s', P s → step s e s' → step' s e s' ∧ P s') (h : Activation step inside s₀ e s₂ tr s e' s') :
    Activation step' inside s₀ e s₂ tr s e' s' := by
  obtain ⟨hbegin, h₂⟩ := hs _ _ _ h₀ h.begins
  obtain ⟨hrun, hp⟩ : Run (Restrict (fun s _ => inside s) step') _ tr s ∧ P s :=
    h.during.refine h₂ fun s e s' hp hst => ⟨⟨hst.1, (hs s e s' hp hst.2).1⟩, (hs s e s' hp hst.2).2⟩
  exact ⟨hbegin, hrun, h.inside, (hs _ _ _ hp h.ends).1⟩

/-- A run found by replaying events, cut at one of them. -/
theorem Run.exists_of_replay {next : σ → ε → Option σ} (hn : ∀ s e s', next s e = some s' → step s e s')
    {es₁ es₂ : List ε} {e : ε} {p : σ → σ → σ → Bool}
    (h : (replay next s₀ es₁).any (fun s₁ => (next s₁ e).any fun s₂ => (replay next s₂ es₂).any (p s₁ s₂)) = true) :
    ∃ tr₁ s₁ s₂ tr₂ s, Run step s₀ (tr₁ ++ ⟨s₁, e, s₂⟩ :: tr₂) s ∧ tr₂.map Move.event = es₂ ∧ p s₁ s₂ s = true := by
  obtain ⟨s₁, h₁, h⟩ := (Option.any_eq_true ..).mp h
  obtain ⟨s₂, h₂, h⟩ := (Option.any_eq_true ..).mp h
  obtain ⟨s, h₃, hp⟩ := (Option.any_eq_true ..).mp h
  obtain ⟨tr₁, hr₁, -⟩ := Run.of_replay hn h₁
  obtain ⟨tr₂, hr₂, htr₂⟩ := Run.of_replay hn h₃
  refine ⟨tr₁, s₁, s₂, tr₂, s, ?_, htr₂, hp⟩
  exact hr₁.append ((Run.one (hn s₁ e s₂ h₂)).append hr₂)

end

end Transition
