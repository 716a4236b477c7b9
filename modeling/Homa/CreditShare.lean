import Mathlib.Algebra.Order.Group.Abs
import Mathlib.Algebra.Order.Ring.Int
import Mathlib.Tactic.Linarith
import Mathlib.Tactic.Ring

/-!
# Sharing a link between two classes with one credit counter

While a signed credit is positive the first class is served at a cost of
`a` per unit; otherwise the second is served and earns `b` per unit.  Over a
run the credit moves by `b` times the second class's units less `a` times
the first's (`run_balance`); when no serving exceeds `P` units it stays in a
band around its start (`run_mem_band`), so the amounts served keep the ratio
`b : a` up to `(a + b) * P + |c|` (`abs_balance_le`).
-/

namespace CreditShare

variable (a b : ℤ)

/-- The units of each class one step serves from the offers `o`: the first
class's offer while the credit is positive, else the second's. -/
def served (c : ℤ) (o : ℤ × ℤ) : ℤ × ℤ :=
  if 0 < c then (o.1, 0) else (0, o.2)

def step (c : ℤ) (o : ℤ × ℤ) : ℤ :=
  if 0 < c then c - a * o.1 else c + b * o.2

def trace : ℤ → List (ℤ × ℤ) → List (ℤ × ℤ)
  | _, [] => []
  | c, o :: os => served c o :: trace (step a b c o) os

def run (c : ℤ) (os : List (ℤ × ℤ)) : ℤ :=
  os.foldl (step a b) c

@[simp] theorem trace_nil (c : ℤ) : trace a b c [] = [] := rfl

@[simp] theorem trace_cons (c : ℤ) (o : ℤ × ℤ) (os : List (ℤ × ℤ)) :
    trace a b c (o :: os) = served c o :: trace a b (step a b c o) os := rfl

@[simp] theorem run_nil (c : ℤ) : run a b c [] = c := rfl

@[simp] theorem run_cons (c : ℤ) (o : ℤ × ℤ) (os : List (ℤ × ℤ)) :
    run a b c (o :: os) = run a b (step a b c o) os := rfl

theorem step_eq_served (c : ℤ) (o : ℤ × ℤ) :
    step a b c o = c - a * (served c o).1 + b * (served c o).2 := by
  unfold step served
  split_ifs <;> simp

theorem run_balance (c : ℤ) (os : List (ℤ × ℤ)) :
    run a b c os =
      c - a * ((trace a b c os).map Prod.fst).sum + b * ((trace a b c os).map Prod.snd).sum := by
  induction os generalizing c with
  | nil => simp
  | cons o os ih =>
    rw [run_cons, ih, trace_cons, List.map_cons, List.map_cons, List.sum_cons, List.sum_cons,
      step_eq_served]
    ring

section Band

variable {a b} {P lo hi : ℤ}

theorem step_mem_band (ha : 0 ≤ a) (hb : 0 ≤ b) (hlo : lo ≤ 1 - a * P) (hhi : b * P ≤ hi)
    {c : ℤ} {o : ℤ × ℤ} (ho : 0 ≤ o.1 ∧ 0 ≤ o.2)
    (hs : (served c o).1 ≤ P ∧ (served c o).2 ≤ P) (hc : lo ≤ c ∧ c ≤ hi) :
    lo ≤ step a b c o ∧ step a b c o ≤ hi := by
  unfold step
  unfold served at hs
  split_ifs at hs ⊢ with hpos
  · have hcost : a * o.1 ≤ a * P := mul_le_mul_of_nonneg_left hs.1 ha
    have hcost0 : 0 ≤ a * o.1 := mul_nonneg ha ho.1
    constructor <;> linarith
  · have hearn : b * o.2 ≤ b * P := mul_le_mul_of_nonneg_left hs.2 hb
    have hearn0 : 0 ≤ b * o.2 := mul_nonneg hb ho.2
    constructor <;> linarith

theorem run_mem_band (ha : 0 ≤ a) (hb : 0 ≤ b) (hlo : lo ≤ 1 - a * P) (hhi : b * P ≤ hi)
    (os : List (ℤ × ℤ)) :
    ∀ {c : ℤ}, (∀ o ∈ os, 0 ≤ o.1 ∧ 0 ≤ o.2) → (∀ u ∈ trace a b c os, u.1 ≤ P ∧ u.2 ≤ P) →
      lo ≤ c ∧ c ≤ hi → lo ≤ run a b c os ∧ run a b c os ≤ hi := by
  induction os with
  | nil =>
    intro c _ _ hc
    exact hc
  | cons o os ih =>
    intro c hos htr hc
    have hstep := step_mem_band ha hb hlo hhi (hos o List.mem_cons_self)
      (htr _ List.mem_cons_self) hc
    exact ih (fun o' ho' => hos o' (List.mem_cons_of_mem o ho'))
      (fun u hu => htr u (List.mem_cons_of_mem _ hu)) hstep

theorem abs_balance_le (ha : 0 ≤ a) (hb : 0 ≤ b) (hP : 0 ≤ P) {c : ℤ} {os : List (ℤ × ℤ)}
    (hos : ∀ o ∈ os, 0 ≤ o.1 ∧ 0 ≤ o.2) (htr : ∀ u ∈ trace a b c os, u.1 ≤ P ∧ u.2 ≤ P) :
    |a * ((trace a b c os).map Prod.fst).sum - b * ((trace a b c os).map Prod.snd).sum| ≤
      (a + b) * P + |c| := by
  have hband := run_mem_band ha hb (min_le_right c (1 - a * P)) (le_max_right c (b * P)) os
    hos htr ⟨min_le_left _ _, le_max_left _ _⟩
  have hbal := run_balance a b c os
  have haP : 0 ≤ a * P := mul_nonneg ha hP
  have hbP : 0 ≤ b * P := mul_nonneg hb hP
  have hc := le_abs_self c
  have hc' := neg_abs_le c
  -- the end of the run lies below `c` at most down to `1 - a * P`, above it
  -- at most up to `b * P`
  rw [abs_le]
  rcases min_le_iff.mp hband.1 with hlo | hlo <;> rcases le_max_iff.mp hband.2 with hhi | hhi <;>
    constructor <;> linarith

end Band

end CreditShare
