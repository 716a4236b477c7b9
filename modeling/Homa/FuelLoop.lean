import Mathlib.Tactic

/-!
# Loops run on a budget

A `while` loop whose termination depends on its data is its body: one
iteration goes round again from a new state or leaves with a result.  `run`
runs a body at most `fuel` times and answers `none` when the budget is spent
first, or when the body faults.  Four rules reason about a run without
unfolding it: `run_invariant` (partial correctness), `run_terminates`
(a measure every iteration decreases makes a budget above it enough),
`run_terminates_or_faults` (the same for a body that may fault) and
`run_diverges` (an invariant under which every iteration goes round again).
-/

namespace FuelLoop

/-- What one iteration of a loop body does. -/
inductive Step (σ ρ : Type*) where
  | next (s : σ)
  | done (r : ρ)

variable {σ ρ : Type*}

/-- The loop of `body`, run from `s` for at most `fuel` iterations. -/
def run (body : σ → Option (Step σ ρ)) : ℕ → σ → Option ρ
  | 0, _ => none
  | fuel + 1, s =>
      match body s with
      | none => none
      | some (.next s') => run body fuel s'
      | some (.done r) => some r

variable {body : σ → Option (Step σ ρ)}

@[simp] theorem run_zero (s : σ) : run body 0 s = none := rfl

theorem run_succ_next {s s' : σ} (fuel : ℕ) (h : body s = some (.next s')) :
    run body (fuel + 1) s = run body fuel s' := by
  simp [run, h]

theorem run_succ_done {s : σ} {r : ρ} (fuel : ℕ) (h : body s = some (.done r)) :
    run body (fuel + 1) s = some r := by
  simp [run, h]

/-- The obligation an iteration's outcome has to meet: a new state keeps the
invariant, a result meets the postcondition. -/
def Step.Holds (inv : σ → Prop) (post : ρ → Prop) : Step σ ρ → Prop
  | .next s => inv s
  | .done r => post r

@[simp] theorem holds_next {inv : σ → Prop} {post : ρ → Prop} {s : σ} :
    (Step.next s : Step σ ρ).Holds inv post ↔ inv s := Iff.rfl

@[simp] theorem holds_done {inv : σ → Prop} {post : ρ → Prop} {r : ρ} :
    (Step.done r : Step σ ρ).Holds inv post ↔ post r := Iff.rfl

theorem run_invariant {inv : σ → Prop} {post : ρ → Prop}
    (hbody : ∀ s, inv s → ∀ t, body s = some t → t.Holds inv post) :
    ∀ (fuel : ℕ) (s : σ) (r : ρ), inv s → run body fuel s = some r → post r := by
  intro fuel
  induction fuel with
  | zero =>
      intro s r _ hrun
      simp at hrun
  | succ fuel ih =>
      intro s r hs hrun
      cases hstep : body s with
      | none => simp [run, hstep] at hrun
      | some t =>
          have hholds := hbody s hs t hstep
          cases t with
          | next s' =>
              rw [run_succ_next fuel hstep] at hrun
              exact ih s' r hholds hrun
          | done r' =>
              rw [run_succ_done fuel hstep] at hrun
              cases hrun
              exact hholds

/-- Total correctness for a body that may fault: if every iteration from
the invariant decreases the measure, a budget above the measure gives a
result that meets the postcondition, or the body faults (answers `none`) at
a state of the invariant, and then so does the run. -/
theorem run_terminates_or_faults {inv : σ → Prop} {post : ρ → Prop} (measure : σ → ℕ)
    (hbody : ∀ s, inv s → ∀ t, body s = some t → t.Holds inv post ∧
      ∀ s', t = .next s' → measure s' < measure s) :
    ∀ (fuel : ℕ) (s : σ), inv s → measure s < fuel →
      (∃ r, run body fuel s = some r ∧ post r) ∨
        (run body fuel s = none ∧ ∃ s', inv s' ∧ body s' = none) := by
  intro fuel
  induction fuel with
  | zero =>
      intro s _ hfuel
      omega
  | succ fuel ih =>
      intro s hs hfuel
      cases hstep : body s with
      | none => exact Or.inr ⟨by simp [run, hstep], s, hs, hstep⟩
      | some t =>
          obtain ⟨hholds, hdec⟩ := hbody s hs t hstep
          cases t with
          | next s' =>
              rw [run_succ_next fuel hstep]
              have hlt := hdec s' rfl
              exact ih s' hholds (by omega)
          | done r =>
              exact Or.inl ⟨r, run_succ_done fuel hstep, hholds⟩

/-- Total correctness: if every iteration from the invariant can be taken
and decreases the measure, a budget above the measure gives a result, and
it meets the postcondition.  The iteration obligation is the same as for
`run_invariant`; a body with an inner loop meets the progress obligation only
when the budget is large enough for that loop. -/
theorem run_terminates {inv : σ → Prop} {post : ρ → Prop} (measure : σ → ℕ)
    (hbody : ∀ s, inv s → ∀ t, body s = some t → t.Holds inv post ∧
      ∀ s', t = .next s' → measure s' < measure s)
    (hprogress : ∀ s, inv s → ∃ t, body s = some t) :
    ∀ (fuel : ℕ) (s : σ), inv s → measure s < fuel →
      ∃ r, run body fuel s = some r ∧ post r := by
  intro fuel s hs hfuel
  rcases run_terminates_or_faults measure hbody fuel s hs hfuel with hdone | ⟨-, s', hs', hfault⟩
  · exact hdone
  · -- a state of the invariant can always be left
    obtain ⟨t, ht⟩ := hprogress s' hs'
    rw [hfault] at ht
    cases ht

theorem run_diverges {inv : σ → Prop}
    (hbody : ∀ s, inv s → ∃ s', body s = some (.next s') ∧ inv s') :
    ∀ (fuel : ℕ) (s : σ), inv s → run body fuel s = none := by
  intro fuel
  induction fuel with
  | zero =>
      intro s _
      rfl
  | succ fuel ih =>
      intro s hs
      obtain ⟨s', hstep, hs'⟩ := hbody s hs
      rw [run_succ_next fuel hstep]
      exact ih s' hs'

end FuelLoop
