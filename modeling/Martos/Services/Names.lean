import Martos.Core.Names
import Martos.Services.Soundness

/-!
# The whole machine with the check of `task_init`

`Sys.StepChecked` is a step of the machine in which `task_init` makes its assertion, with all that
`task_find` does for it. Such a step is one of the machine that passes the assertion
(`Sound.stepChecked_iff`), so what holds in every run of the machine holds in every run with the
check (`Sys.run_of_checked`); and in these every task that has been initialised has a name
(`Sys.named_of_checked`).
-/

namespace Martos

open Checked Transition

namespace Sys

/-- What an event does, with the assertion of `task_init`. -/
def execChecked (null : Option String) (s : Sys) : SysEvent → Except Fault Sys
  | .core e => do
    let cs ← s.cs.execChecked null e
    return { s with cs := cs }
  | e => s.exec e

/-- A step of the machine, with the assertion of `task_init`. -/
def StepChecked (null : Option String) (s : Sys) (e : SysEvent) (s' : Sys) : Prop :=
  s.Enabled e ∧ s.execChecked null e = .ok s'

/-- A call of `task_init` passes its assertion. -/
def PassesAssert (null : Option String) (s : Sys) : SysEvent → Prop
  | .core e => Martos.PassesAssert null s.cs e
  | _ => True

instance (null : Option String) (s : Sys) : ∀ e, Decidable (s.PassesAssert null e)
  | .core e => inferInstanceAs (Decidable (Martos.PassesAssert null s.cs e))
  | .call _ => .isTrue trivial
  | .resume => .isTrue trivial
  | .isr _ => .isTrue trivial
  | .tim2 => .isTrue trivial

end Sys

section

variable {null : Option String} {s s' : Sys} {e : SysEvent}

theorem Sys.execChecked_eq (hb : s.cs.core.Balanced) (hok : s.PassesAssert null e) :
    s.execChecked null e = s.exec e := by
  cases e with
  | core e => simp only [execChecked, exec, CoreSys.execChecked_eq hb hok]
  | _ => rfl

theorem Sys.passes_of_execChecked (hx : s.execChecked null e = .ok s') : s.PassesAssert null e := by
  cases e with
  | core e =>
    obtain ⟨cs, hcs, -⟩ := bind_eq_ok.mp hx
    exact CoreSys.passes_of_execChecked hcs
  | _ => trivial

/-- **A step with the check is one that passes it.** -/
theorem Sound.stepChecked_iff (h : Sound s) : s.StepChecked null e s' ↔ s.PassesAssert null e ∧ s.Step e s' := by
  constructor
  · rintro ⟨hen, hx⟩
    have hok := Sys.passes_of_execChecked hx
    rw [Sys.execChecked_eq h.nested.balanced hok] at hx
    exact ⟨hok, hen, hx⟩
  · rintro ⟨hok, hen, hx⟩
    exact ⟨hen, (Sys.execChecked_eq h.nested.balanced hok).trans hx⟩

/-- A step with the check leaves no initialised task without a name. -/
theorem AllNamed.sys_step (ha : AllNamed s.cs) (h : Sound s) (hok : s.PassesAssert null e) (hst : s.Step e s') :
    AllNamed s'.cs := by
  have hother (a : CoreSys) (ce : Event) (hne : ∀ t params, ce ≠ .call (.taskInit t params)) :
      Martos.PassesAssert null a ce := by
    cases ce with
    | call k =>
      cases k with
      | taskInit t params => exact absurd rfl (hne t params)
      | _ => trivial
    | _ => trivial
  obtain ⟨ctr, hr⟩ := (h.effect hst).core_run_restrict (Martos.PassesAssert null)
    (fun ce he => by subst he; exact hok) hother
  exact ha.follows h.nested h.placed hr

variable {ok : Sys → SysEvent → Prop} {cfg : Config} {c : Core} {tr : List (Move Sys SysEvent)}

/-- In a run with the check, what holds in every run does, and the tasks have names. -/
theorem Sys.named_of_checked (h : martosPre cfg = .ok c) (hr : Run (Sys.StepChecked null) (Sys.start c) tr s) :
    Sound s ∧ AllNamed s.cs := by
  refine hr.invariant (P := fun s => Sound s ∧ AllNamed s.cs) ⟨.start h, .start h⟩ fun s e s' ⟨hs, ha⟩ hst => ?_
  obtain ⟨hpass, hst'⟩ := hs.stepChecked_iff.mp hst
  exact ⟨hs.step hst', ha.sys_step hs hpass hst'⟩

/-- Every run with the check is a run of the machine. -/
theorem Sys.run_of_checked (h : martosPre cfg = .ok c)
    (hr : Run (Restrict ok (Sys.StepChecked null)) (Sys.start c) tr s) :
    Run (Restrict ok Sys.Step) (Sys.start c) tr s :=
  (hr.refine (Sound.start h) fun _ _ _ hs ⟨hok, hst⟩ =>
    ⟨⟨hok, (hs.stepChecked_iff.mp hst).2⟩, hs.step (hs.stepChecked_iff.mp hst).2⟩).1

/-- A run of the machine that passes the assertions is one with the check. -/
theorem Sys.checked_of_run (h : martosPre cfg = .ok c)
    (hr : Run (Restrict (fun s e => s.PassesAssert null e ∧ ok s e) Sys.Step) (Sys.start c) tr s) :
    Run (Restrict ok (Sys.StepChecked null)) (Sys.start c) tr s :=
  (hr.refine (Sound.start h) fun _ _ _ hs ⟨⟨hpass, hok⟩, hst⟩ =>
    ⟨⟨hok, hs.stepChecked_iff.mpr ⟨hpass, hst⟩⟩, hs.step hst⟩).1

end

end Martos
