import Mathlib.Init

/-!
# Computations that can stop

`Except ε` as the monad of code with assertions: `assertThat` is an assertion, and a
computation which reaches its end has passed all of them. The lemmas take such a
computation apart, so that a proof never unfolds the monad. `Avoids p x` says that `x`
does not stop in a way described by `p`; its rules follow the computation. `fault x` is what `x`
stops with. `Commutes r r' f` says that `f` does the same to `r a` as to `a`, up to `r'`: `f` depends
on nothing that `r` changes.
-/

namespace Checked

variable {ε α β : Type}

/-- `assert(p)`, which stops with `f`. -/
def assertThat (p : Prop) [Decidable p] (f : ε) : Except ε Unit := if p then .ok () else .error f

/-- A sequence reaches its end when both parts do. -/
@[simp] theorem bind_eq_ok {x : Except ε α} {f : α → Except ε β} {b : β} :
    (x >>= f) = .ok b ↔ ∃ a, x = .ok a ∧ f a = .ok b := by
  cases x with
  | error e => simp [Bind.bind, Except.bind]
  | ok a => simp [Bind.bind, Except.bind]

/-- A sequence stops when one of the parts does. -/
@[simp] theorem bind_eq_error {x : Except ε α} {f : α → Except ε β} {e : ε} :
    (x >>= f) = .error e ↔ x = .error e ∨ ∃ a, x = .ok a ∧ f a = .error e := by
  cases x with
  | error e' => simp [Bind.bind, Except.bind]
  | ok a => simp [Bind.bind, Except.bind]

@[simp] theorem pure_eq_ok {a b : α} : (pure a : Except ε α) = .ok b ↔ a = b := by
  simp [pure, Except.pure]

@[simp] theorem pure_ne_error {a : α} {e : ε} : (pure a : Except ε α) ≠ .error e := by
  simp [pure, Except.pure]

@[simp] theorem ok_bind (a : α) (f : α → Except ε β) : (Except.ok a >>= f) = f a := rfl

theorem bind_of_eq_ok {x : Except ε α} {a : α} (h : x = .ok a) (f : α → Except ε β) : (x >>= f) = f a := by
  rw [h, ok_bind]

@[simp] theorem assertThat_eq_ok {p : Prop} [Decidable p] {f : ε} {u : Unit} :
    assertThat p f = .ok u ↔ p := by
  by_cases h : p <;> simp [assertThat, h]

@[simp] theorem assertThat_eq_error {p : Prop} [Decidable p] {f g : ε} :
    assertThat p f = .error g ↔ ¬ p ∧ f = g := by
  by_cases h : p <;> simp [assertThat, h]

theorem assertThat_of {p : Prop} [Decidable p] (f : ε) (h : p) : assertThat p f = .ok () := by
  simp [h]

@[simp] theorem ite_error_eq_ok {p : Prop} [Decidable p] {f : ε} {x : Except ε α} {a : α} :
    (if p then .error f else x) = .ok a ↔ ¬ p ∧ x = .ok a := by
  by_cases h : p <;> simp [h]

@[simp] theorem ite_ok_else_error_eq_ok {p : Prop} [Decidable p] {f : ε} {x : Except ε α} {a : α} :
    (if p then x else .error f) = .ok a ↔ p ∧ x = .ok a := by
  by_cases h : p <;> simp [h]

/-- The computations with a result are those which reach their end. -/
theorem eq_ok_of_toOption {x : Except ε α} {a : α} (h : x.toOption = some a) : x = .ok a := by
  cases x with
  | error e => simp [Except.toOption] at h
  | ok b => rw [Option.some.inj h]

/-! ### Ways of stopping -/

/-- If the computation stops, then not in one of these ways. -/
def Avoids (p : ε → Prop) (x : Except ε α) : Prop := ∀ e, x = .error e → ¬ p e

variable {p : ε → Prop}

theorem Avoids.ok (a : α) : Avoids p (.ok a) := fun _ h => nomatch h

theorem Avoids.pure (a : α) : Avoids p (pure a) := .ok a

theorem Avoids.error {e : ε} (he : ¬ p e) : Avoids p (.error e : Except ε α) := by
  intro e' h
  cases h
  exact he

theorem Avoids.assertThat {q : Prop} [Decidable q] {f : ε} (hf : ¬ q → ¬ p f) :
    Avoids p (assertThat q f) := by
  intro e h
  obtain ⟨hq, rfl⟩ := assertThat_eq_error.mp h
  exact hf hq

theorem Avoids.bind {x : Except ε α} {f : α → Except ε β} (hx : Avoids p x)
    (hf : ∀ a, x = .ok a → Avoids p (f a)) : Avoids p (x >>= f) := by
  intro e h
  rcases bind_eq_error.mp h with h | ⟨a, ha, h⟩
  · exact hx e h
  · exact hf a ha e h

theorem Avoids.ite {q : Prop} [Decidable q] {x y : Except ε α} (hx : q → Avoids p x)
    (hy : ¬ q → Avoids p y) : Avoids p (if q then x else y) := by
  by_cases h : q
  · rw [if_pos h]; exact hx h
  · rw [if_neg h]; exact hy h

/-! ### What stops a computation -/

/-- What the computation stops with, if it does. -/
def fault : Except ε α → Option ε
  | .ok _ => none
  | .error e => some e

@[simp] theorem fault_ok (a : α) : fault (.ok a : Except ε α) = none := rfl

@[simp] theorem fault_error (e : ε) : fault (.error e : Except ε α) = some e := rfl

@[simp] theorem fault_pure (a : α) : fault (pure a : Except ε α) = none := rfl

theorem fault_eq_none {x : Except ε α} : fault x = none ↔ ∃ a, x = .ok a := by
  cases x with
  | error e => simp
  | ok a => simp

theorem fault_eq_some {x : Except ε α} {e : ε} : fault x = some e ↔ x = .error e := by
  cases x with
  | error e => simp
  | ok a => simp

/-- Once the first part has come to its end, the rest decides. -/
theorem fault_bind_of_ok {x : Except ε α} {a : α} (h : x = .ok a) (f : α → Except ε β) :
    fault (x >>= f) = fault (f a) := by
  rw [h, ok_bind]

/-- Where the rest comes to its end, the first part decides. -/
theorem fault_bind_left {x : Except ε α} {f : α → Except ε β} (h : ∀ a, x = .ok a → fault (f a) = none) :
    fault (x >>= f) = fault x := by
  cases x with
  | error e => rfl
  | ok a => exact h a rfl

/-- What only computes on cannot stop. -/
@[simp] theorem fault_bind_pure (x : Except ε α) (g : α → β) : fault (x >>= fun a => pure (g a)) = fault x :=
  fault_bind_left fun _ _ => rfl

@[simp] theorem fault_assertThat (p : Prop) [Decidable p] (f : ε) :
    fault (assertThat p f) = if p then none else some f := by
  by_cases h : p <;> simp [assertThat, h]

@[simp] theorem fault_assertThat_bind (p : Prop) [Decidable p] (f : ε) (k : Unit → Except ε α) :
    fault (assertThat p f >>= k) = if p then fault (k ()) else some f := by
  by_cases h : p
  · rw [assertThat_of f h, ok_bind, if_pos h]
  · rw [if_neg h, assertThat, if_neg h]
    rfl

@[simp] theorem fault_ite (p : Prop) [Decidable p] (x y : Except ε α) :
    fault (if p then x else y) = if p then fault x else fault y := by
  by_cases h : p <;> simp [h]

/-! ### What a computation does not depend on -/

section

variable {γ : Type}

/-- On `r a`, `f` stops as it does on `a`, or comes to the result that `r'` makes of the one on `a`. -/
def Commutes (r : α → α) (r' : β → β) (f : α → Except ε β) : Prop := ∀ a, f (r a) = do return r' (← f a)

variable {r : α → α} {r' : β → β} {r'' : γ → γ}

/-- Both come to their end, or both stop alike. -/
theorem Commutes.cases {f : α → Except ε β} (hf : Commutes r r' f) (a : α) :
    (∃ b, f a = .ok b ∧ f (r a) = .ok (r' b)) ∨ ∃ e, f a = .error e ∧ f (r a) = .error e := by
  have ha := hf a
  cases hx : f a with
  | error e =>
    rw [hx] at ha
    exact .inr ⟨e, rfl, ha⟩
  | ok b =>
    rw [hx] at ha
    exact .inl ⟨b, rfl, ha⟩

theorem Commutes.write {g : α → β} (h : ∀ a, g (r a) = r' (g a)) :
    Commutes r r' fun a => (.ok (g a) : Except ε β) := fun a => congrArg Except.ok (h a)

theorem Commutes.comp {g : α → β} {f : β → Except ε γ} (hf : Commutes r' r'' f) (hg : ∀ a, g (r a) = r' (g a)) :
    Commutes r r'' fun a => f (g a) := fun a => (congrArg f (hg a)).trans (hf (g a))

theorem Commutes.bind {f : α → Except ε β} {g : β → Except ε γ} (hf : Commutes r r' f) (hg : Commutes r' r'' g) :
    Commutes r r'' fun a => f a >>= g := by
  intro a
  change (f (r a) >>= g) = f a >>= g >>= fun c => pure (r'' c)
  rw [hf a, bind_assoc, bind_assoc]
  refine congrArg (f a >>= ·) (funext fun b => ?_)
  rw [pure_bind]
  exact hg b

/-- A test that does not depend on it either, such as an assertion. -/
theorem Commutes.test {x : α → Except ε Unit} {f : α → Except ε β} (hx : ∀ a, x (r a) = x a)
    (hf : Commutes r r' f) : Commutes r r' fun a => x a >>= fun _ => f a := by
  intro a
  change (x (r a) >>= fun _ => f (r a)) = x a >>= (fun _ => f a) >>= fun b => pure (r' b)
  rw [hx a, hf a]
  exact (bind_assoc ..).symm

end

end Checked
