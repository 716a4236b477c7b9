import Mathlib.Tactic
import Mathlib.Data.Nat.Bitwise

/-!
# Machine integers as the kernel compiles them

Signed `w`-bit arithmetic built with `-fno-strict-overflow` keeps the low
`w` bits and reads them back signed (`wrapInt`, which is `Int.bmod`);
unsigned results are taken modulo `2 ^ w`.  Models apply these exactly where
the source can overflow.  Besides, ceiling division `(a + b - 1) / b`, and
the comparison of wrapping counters `(a + r - 1 - b) & 1 << 31`, which stays
right across the wrap while `b` is less than `2 ^ 31` past `a`.
-/

namespace MachineArith

/-- The signed `w`-bit value with the same low `w` bits as `x`.  Kept
irreducible: unfolding it during unification runs into arithmetic on
`2 ^ w`; proofs go through the lemmas below. -/
@[irreducible] def wrapInt (w : ℕ) (x : ℤ) : ℤ :=
  x.bmod (2 ^ w)

theorem wrapInt_of_lt {w : ℕ} {x : ℤ} (hlo : -(2 ^ w : ℤ) ≤ 2 * x)
    (hhi : 2 * x < 2 ^ w) : wrapInt w x = x := by
  unfold wrapInt
  apply Int.bmod_eq_of_le_mul_two
  · push_cast
    linarith
  · push_cast
    linarith

theorem wrapInt_32_of_mem {x : ℤ} (hlo : -2 ^ 31 ≤ x) (hhi : x < 2 ^ 31) :
    wrapInt 32 x = x :=
  wrapInt_of_lt (by linarith) (by linarith)

theorem wrapInt_32_lt (x : ℤ) : wrapInt 32 x < 2 ^ 31 := by
  unfold wrapInt
  have := Int.bmod_lt (x := x) (m := 2 ^ 32) (by positivity)
  norm_num at this ⊢
  omega

theorem neg_le_wrapInt (w : ℕ) (x : ℤ) :
    -((2 ^ w : ℕ) / 2 : ℤ) ≤ wrapInt w x := by
  unfold wrapInt
  exact Int.le_bmod (by positivity)

theorem neg_le_wrapInt_32 (x : ℤ) : -2 ^ 31 ≤ wrapInt 32 x := by
  have := neg_le_wrapInt 32 x
  norm_num at this ⊢
  exact this

/-- Wrapping an operand first does not change a wrapped sum: a counter kept
as an `int` and updated by wrapping additions is the wrapped total of its
updates. -/
theorem wrapInt_add_wrapInt (w : ℕ) (x y : ℤ) : wrapInt w (x + wrapInt w y) = wrapInt w (x + y) := by
  unfold wrapInt
  exact Int.add_bmod_bmod

theorem wrapInt_wrapInt_add (w : ℕ) (x y : ℤ) : wrapInt w (wrapInt w x + y) = wrapInt w (x + y) := by
  unfold wrapInt
  exact Int.bmod_add_bmod

@[simp] theorem wrapInt_wrapInt (w : ℕ) (x : ℤ) : wrapInt w (wrapInt w x) = wrapInt w x := by
  unfold wrapInt
  exact Int.bmod_bmod

theorem wrapInt_of_overflow {w : ℕ} {x : ℤ} (hlo : (2 ^ w : ℤ) ≤ 2 * x)
    (hhi : 2 * x < 3 * 2 ^ w) : wrapInt w x = x - 2 ^ w := by
  have hsub : wrapInt w (x - 2 ^ w) = x - 2 ^ w :=
    wrapInt_of_lt (by linarith) (by linarith)
  rw [← hsub]
  unfold wrapInt
  have hcast : x - 2 ^ w = x - 1 * ((2 ^ w : ℕ) : ℤ) := by push_cast; ring
  rw [hcast, Int.sub_mul_bmod_self_right]

/-- `(a + b - 1) / b`: the number of chunks of size `b` needed for `a`
items. -/
def ceilDiv (a b : ℕ) : ℕ :=
  (a + b - 1) / b

theorem ceilDiv_le_of_le_mul {a b c : ℕ} (hb : 0 < b) (h : a ≤ c * b) : ceilDiv a b ≤ c := by
  unfold ceilDiv
  have hlt : a + b - 1 < (c + 1) * b := by
    rw [Nat.add_mul, Nat.one_mul]
    omega
  exact Nat.lt_succ_iff.mp ((Nat.div_lt_iff_lt_mul hb).mpr hlt)

theorem one_lt_ceilDiv_iff {a b : ℕ} (hb : 0 < b) : 1 < ceilDiv a b ↔ b < a := by
  unfold ceilDiv
  constructor
  · intro h
    by_contra hab
    have hlt : a + b - 1 < 2 * b := by omega
    have := (Nat.div_lt_iff_lt_mul hb).mpr hlt
    omega
  · intro h
    have hle : 2 * b ≤ a + b - 1 := by omega
    have := (Nat.le_div_iff_mul_le hb).mpr hle
    omega

/-! ## Bit 31 of a `u32` -/

/-- `x & 1 << 31` for the `u32` with the low 32 bits of `x` is nonzero: the
sign of the `int` with the same bits. -/
def signBit32 (x : ℤ) : Bool :=
  ((x % 2 ^ 32).toNat &&& 1 <<< 31) != 0

theorem signBit32_eq_true_iff (x : ℤ) : signBit32 x = true ↔ 2 ^ 31 ≤ x % 2 ^ 32 := by
  have hnonneg : 0 ≤ x % 2 ^ 32 := Int.emod_nonneg x (by norm_num)
  have hlt : x % 2 ^ 32 < 2 ^ 32 := Int.emod_lt_of_pos x (by norm_num)
  unfold signBit32
  rw [Nat.one_shiftLeft, Nat.and_two_pow, Nat.testBit_eq_decide_div_mod_eq]
  simp only [bne_iff_ne, ne_eq, mul_eq_zero, Bool.toNat_eq_zero, decide_eq_false_iff_not, not_or,
    not_not]
  omega

theorem signBit32_congr {x y : ℤ} (h : x ≡ y [ZMOD 2 ^ 32]) : signBit32 x = signBit32 y := by
  unfold signBit32
  rw [h]

theorem signBit32_iff_neg {d : ℤ} (hlo : -2 ^ 31 ≤ d) (hhi : d < 2 ^ 31) :
    signBit32 d = true ↔ d < 0 := by
  rw [signBit32_eq_true_iff]
  rcases lt_or_ge d 0 with hneg | hnonneg
  · have hmod : d % 2 ^ 32 = d + 2 ^ 32 := by
      rw [Int.emod_eq_iff (by norm_num)]
      refine ⟨by omega, by norm_num; omega, ⟨1, by ring⟩⟩
    omega
  · have hmod : d % 2 ^ 32 = d := Int.emod_eq_of_lt hnonneg (by omega)
    omega

/-- Serial-number comparison: with `b` equal to `a + k` modulo `2 ^ 32`,
`(a + r - 1 - b) & 1 << 31` holds exactly when `k ≥ r`, for every
`0 ≤ k < 2 ^ 31` and `1 ≤ r ≤ 2 ^ 31`. -/
theorem signBit32_serial {a b k r : ℤ} (hb : b ≡ a + k [ZMOD 2 ^ 32]) (hr : 1 ≤ r)
    (hr' : r ≤ 2 ^ 31) (hk : 0 ≤ k) (hk' : k < 2 ^ 31) :
    signBit32 (a + r - 1 - b) = true ↔ r ≤ k := by
  have hcongr : a + r - 1 - b ≡ r - 1 - k [ZMOD 2 ^ 32] := by
    have := Int.ModEq.sub_left (a + r - 1) hb
    rwa [show a + r - 1 - (a + k) = r - 1 - k by ring] at this
  rw [signBit32_congr hcongr, signBit32_iff_neg (by omega) (by omega)]
  omega

end MachineArith
