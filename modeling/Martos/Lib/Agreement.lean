import Martos.Lib.Checked
import Mathlib.Order.Basic
import Mathlib.Order.Nat

/-!
# Programs with loops against programs that can stop

The same program twice: once close to the machine, where loops follow pointers and take
fuel, and `none` stands for everything that stops it; and once over values, as a
computation which can stop with a fault (`Checked`). `Agrees n bad R x y` says that with
more than `n` of fuel `x` ends as `y` does, in results related by `R`, unless `y` stops
with a fault that is `bad`: these are the faults by which the program over values notices
that it is used outside of its contract, and of which the other one knows nothing.

The rules follow the two programs in step: `Agrees.bind` for a sequence, `Agrees.ite` for a
test that both make, `Agrees.check` for an assertion that both make. `Returns x a` says that
`x` comes to its end with any fuel that is enough.
-/

namespace Agreement

open Checked

/-- `assert(p)`. -/
def check (p : Prop) [Decidable p] : Option Unit := if p then some () else none

variable {ε α β γ δ : Type}

/-- With fuel above `n`, `x` ends as `y` does. -/
def Agrees (n : ℕ) (bad : ε → Prop) (R : α → β → Prop) (x : ℕ → Option α) : Except ε β → Prop
  | .ok b => ∃ a, R a b ∧ ∀ fuel, n < fuel → x fuel = some a
  | .error e => bad e ∨ ∀ fuel, n < fuel → x fuel = none

variable {n : ℕ} {bad : ε → Prop} {R : α → β → Prop} {R' : γ → δ → Prop}

/-! ### Rules -/

theorem Agrees.ok {a : α} {b : β} {x : ℕ → Option α} (h : R a b) (hx : ∀ fuel, n < fuel → x fuel = some a) :
    Agrees n bad R x (.ok b) := ⟨a, h, hx⟩

theorem Agrees.pure {a : α} {b : β} (h : R a b) : Agrees n bad R (fun _ => some a) (pure b) := ⟨a, h, fun _ _ => rfl⟩

/-- Outside of the contract nothing is said. -/
theorem Agrees.outside {e : ε} {x : ℕ → Option α} (h : bad e) : Agrees n bad R x (.error e) := .inl h

/-- Both stop. -/
theorem Agrees.stops {e : ε} {x : ℕ → Option α} (h : ∀ fuel, x fuel = none) : Agrees n bad R x (.error e) :=
  .inr fun fuel _ => h fuel

/-- With enough fuel it is another program. -/
theorem Agrees.congr {x x' : ℕ → Option α} {y : Except ε β} (hx : ∀ fuel, n < fuel → x fuel = x' fuel)
    (h : Agrees n bad R x' y) : Agrees n bad R x y := by
  cases y with
  | error e =>
    rcases h with hbad | hstop
    · exact .inl hbad
    · exact .inr fun fuel hfuel => (hx fuel hfuel).trans (hstop fuel hfuel)
  | ok b =>
    obtain ⟨a, hR, ha⟩ := h
    exact ⟨a, hR, fun fuel hfuel => (hx fuel hfuel).trans (ha fuel hfuel)⟩

/-- A part that only the program over pointers has. -/
theorem Agrees.left {x : ℕ → Option α} {f : ℕ → α → Option γ} {y : Except ε δ} {a : α}
    (hx : ∀ fuel, n < fuel → x fuel = some a) (h : Agrees n bad R' (fun fuel => f fuel a) y) :
    Agrees n bad R' (fun fuel => x fuel >>= f fuel) y := by
  refine h.congr fun fuel hfuel => ?_
  rw [hx fuel hfuel]
  rfl

/-- One part after the other. -/
theorem Agrees.bind {x : ℕ → Option α} {y : Except ε β} {f : ℕ → α → Option γ} {g : β → Except ε δ}
    (h : Agrees n bad R x y) (hf : ∀ a b, y = .ok b → R a b → Agrees n bad R' (fun fuel => f fuel a) (g b)) :
    Agrees n bad R' (fun fuel => x fuel >>= f fuel) (y >>= g) := by
  cases y with
  | error e =>
    rcases h with hbad | hstop
    · exact .inl hbad
    · refine .inr fun fuel hfuel => ?_
      change (x fuel >>= f fuel) = none
      rw [hstop fuel hfuel]
      rfl
  | ok b =>
    obtain ⟨a, hR, hx⟩ := h
    exact .left hx (hf a b rfl hR)

/-- An assertion that both make. -/
theorem Agrees.check {p q : Prop} [Decidable p] [Decidable q] {e : ε} (h : p ↔ q) :
    Agrees n bad (fun _ _ => p) (fun _ => check p) (assertThat q e) := by
  by_cases hp : p
  · rw [assertThat_of e (h.mp hp)]
    exact .ok hp fun _ _ => if_pos hp
  · have hy : assertThat q e = .error e := assertThat_eq_error.mpr ⟨mt h.mpr hp, rfl⟩
    rw [hy]
    exact .stops fun _ => if_neg hp

/-- An assertion that both make, and the rest. -/
theorem Agrees.check_bind {p q : Prop} [Decidable p] [Decidable q] {e : ε} (h : p ↔ q)
    {f : ℕ → Unit → Option α} {g : Unit → Except ε β} (hf : p → Agrees n bad R (fun fuel => f fuel ()) (g ())) :
    Agrees n bad R (fun fuel => Agreement.check p >>= f fuel) (assertThat q e >>= g) :=
  (Agrees.check h).bind fun _ _ _ hp => hf hp

/-- A test that both make. -/
theorem Agrees.ite {p q : Prop} [Decidable p] [Decidable q] {x x' : ℕ → Option α} {y y' : Except ε β} (h : p ↔ q)
    (hy : p → Agrees n bad R x y) (hn : ¬ p → Agrees n bad R x' y') :
    Agrees n bad R (fun fuel => if p then x fuel else x' fuel) (if q then y else y') := by
  by_cases hp : p
  · simp only [if_pos hp, if_pos (h.mp hp)]
    exact hy hp
  · simp only [if_neg hp, if_neg (mt h.mpr hp)]
    exact hn hp

/-- Less is said. -/
theorem Agrees.imp {S : α → β → Prop} {x : ℕ → Option α} {y : Except ε β} (h : Agrees n bad R x y)
    (hS : ∀ a b, y = .ok b → R a b → S a b) : Agrees n bad S x y := by
  cases y with
  | error e => exact h
  | ok b =>
    obtain ⟨a, hR, hx⟩ := h
    exact ⟨a, hS a b rfl hR, hx⟩

/-- What the program over values does to its result, and the other one does not. -/
theorem Agrees.right {S : α → δ → Prop} {x : ℕ → Option α} {y : Except ε β} {g : β → δ} (h : Agrees n bad R x y)
    (hg : ∀ a b, y = .ok b → R a b → S a (g b)) : Agrees n bad S x (do let b ← y; return g b) := by
  cases y with
  | error e => exact h
  | ok b =>
    obtain ⟨a, hR, hx⟩ := h
    exact ⟨a, hg a b rfl hR, hx⟩

/-- What the program over pointers does to its result, and the other one does not. -/
theorem Agrees.map_left {R' : γ → β → Prop} {x : ℕ → Option α} {y : Except ε β} {g : α → γ} (h : Agrees n bad R x y)
    (hg : ∀ a b, y = .ok b → R a b → R' (g a) b) : Agrees n bad R' (fun fuel => do let a ← x fuel; return g a) y := by
  cases y with
  | error e =>
    refine h.imp_right fun hstop fuel hfuel => ?_
    dsimp only
    rw [hstop fuel hfuel]
    rfl
  | ok b =>
    obtain ⟨a, hR, hx⟩ := h
    refine ⟨g a, hg a b rfl hR, fun fuel hfuel => ?_⟩
    dsimp only
    rw [hx fuel hfuel]
    rfl

/-! ### What an agreement says -/

/-- With enough fuel, however much that is, the program returns `a`. -/
def Returns (x : ℕ → Option α) (a : α) : Prop := ∃ n, ∀ fuel, n < fuel → x fuel = some a

/-- What is returned is determined. -/
theorem Returns.unique {x : ℕ → Option α} {a b : α} (h : Returns x a) (h' : Returns x b) : a = b := by
  obtain ⟨i, hi⟩ := h
  obtain ⟨j, hj⟩ := h'
  have ha := hi (i + j + 1) (by omega)
  have hb := hj (i + j + 1) (by omega)
  exact Option.some.inj (ha.symm.trans hb)

/-- Where the program over values comes to its end, the other one returns. -/
theorem Agrees.returns {x : ℕ → Option α} {b : β} (h : Agrees n bad R x (.ok b)) : ∃ a, Returns x a ∧ R a b := by
  obtain ⟨a, hR, hx⟩ := h
  exact ⟨a, ⟨n, hx⟩, hR⟩

/-- Where nothing is `bad`, both stop or neither does. -/
theorem Agrees.ok_iff {x : ℕ → Option α} {y : Except ε β} (h : Agrees n bad R x y) (hb : Avoids bad y) {fuel : ℕ}
    (hfuel : n < fuel) : (∃ a, x fuel = some a) ↔ ∃ b, y = .ok b := by
  cases y with
  | error e =>
    have hstop := (h.resolve_left (hb e rfl)) fuel hfuel
    simp [hstop]
  | ok b =>
    obtain ⟨a, -, hx⟩ := h
    exact iff_of_true ⟨a, hx fuel hfuel⟩ ⟨b, rfl⟩

end Agreement
