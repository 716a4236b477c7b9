import Mathlib
import Homa.MachineArith

/-!
# Separated lists of half-open intervals

`Bounded a b l` says every interval of `l` is non-empty, starts at or after
the end of the one before, and lies in `[a, b)`; sortedness, disjointness
and containment follow from it.  The intervals are elements of any type
with two projections into a linear order.  `holes` reads a list as the set
of points it covers, and over `ℤ` the `span` of a bounded list counts them.
A list that `Tiles` a window covers it one interval after another; `split k
a n` tiles `[a, a + n)` by pieces of `k` points, as a sender cuts segments.
-/

namespace IntervalList

section Order

variable {α ι : Type*} [LinearOrder α] (lo hi : ι → α)

/-- The points covered by some interval of the list. -/
def holes (l : List ι) : Set α :=
  {x | ∃ i ∈ l, x ∈ Set.Ico (lo i) (hi i)}

/-- The intervals of `l` are non-empty, lie inside `[a, b)`, and each one
starts at or after the end of the one before it. -/
def Bounded : α → α → List ι → Prop
  | a, b, [] => a ≤ b
  | a, b, i :: l => a ≤ lo i ∧ lo i < hi i ∧ Bounded (hi i) b l

/-- The intervals of `l` are non-empty and cover `[a, b)` one after another,
with no gap and no overlap. -/
def Tiles : α → α → List ι → Prop
  | a, b, [] => a = b
  | a, b, i :: l => lo i = a ∧ lo i < hi i ∧ Tiles (hi i) b l

variable {lo hi}

@[simp] theorem holes_nil : holes lo hi [] = ∅ := by
  ext x
  simp [holes]

@[simp] theorem holes_cons (i : ι) (l : List ι) :
    holes lo hi (i :: l) = Set.Ico (lo i) (hi i) ∪ holes lo hi l := by
  ext x
  simp [holes]

@[simp] theorem holes_append (l l' : List ι) :
    holes lo hi (l ++ l') = holes lo hi l ∪ holes lo hi l' := by
  ext x
  simp only [holes, List.mem_append, Set.mem_ofPred_eq, Set.mem_union]
  constructor
  · rintro ⟨i, hi | hi, hx⟩
    · exact .inl ⟨i, hi, hx⟩
    · exact .inr ⟨i, hi, hx⟩
  · rintro (⟨i, hi, hx⟩ | ⟨i, hi, hx⟩)
    · exact ⟨i, .inl hi, hx⟩
    · exact ⟨i, .inr hi, hx⟩

theorem holes_map {κ : Type*} (f : κ → ι) (l : List κ) :
    holes lo hi (l.map f) = holes (lo ∘ f) (hi ∘ f) l := by
  ext x
  simp [holes]

theorem subset_holes_of_mem {i : ι} {l : List ι} (hmem : i ∈ l) :
    Set.Ico (lo i) (hi i) ⊆ holes lo hi l :=
  fun _ hx => ⟨i, hmem, hx⟩

@[simp] theorem bounded_nil {a b : α} : Bounded lo hi a b [] ↔ a ≤ b :=
  Iff.rfl

@[simp] theorem bounded_cons {a b : α} {i : ι} {l : List ι} :
    Bounded lo hi a b (i :: l) ↔
      a ≤ lo i ∧ lo i < hi i ∧ Bounded lo hi (hi i) b l :=
  Iff.rfl

theorem bounded_map {κ : Type*} {f : κ → ι} {a b : α} {l : List κ} :
    Bounded lo hi a b (l.map f) ↔ Bounded (lo ∘ f) (hi ∘ f) a b l := by
  induction l generalizing a with
  | nil => rfl
  | cons i l ih => simp [ih]

namespace Bounded

theorem le {a b : α} {l : List ι} (h : Bounded lo hi a b l) : a ≤ b := by
  induction l generalizing a with
  | nil => exact h
  | cons i l ih =>
      obtain ⟨hai, hlt, hrest⟩ := h
      exact hai.trans (hlt.le.trans (ih hrest))

theorem mono_left {a a' b : α} {l : List ι} (ha : a' ≤ a)
    (h : Bounded lo hi a b l) : Bounded lo hi a' b l := by
  cases l with
  | nil => exact ha.trans h
  | cons i l =>
      obtain ⟨hai, hlt, hrest⟩ := h
      exact ⟨ha.trans hai, hlt, hrest⟩

theorem mono_right {a b b' : α} {l : List ι} (hb : b ≤ b')
    (h : Bounded lo hi a b l) : Bounded lo hi a b' l := by
  induction l generalizing a with
  | nil => exact h.trans hb
  | cons i l ih =>
      obtain ⟨hai, hlt, hrest⟩ := h
      exact ⟨hai, hlt, ih hrest⟩

theorem append_single {a b c : α} {l : List ι} {j : ι}
    (h : Bounded lo hi a b l) (hbj : b ≤ lo j) (hj : lo j < hi j)
    (hjc : hi j ≤ c) : Bounded lo hi a c (l ++ [j]) := by
  induction l generalizing a with
  | nil => exact ⟨h.trans hbj, hj, hjc⟩
  | cons i l ih =>
      obtain ⟨hai, hlt, hrest⟩ := h
      exact ⟨hai, hlt, ih hrest⟩

theorem holes_subset {a b : α} {l : List ι} (h : Bounded lo hi a b l) :
    holes lo hi l ⊆ Set.Ico a b := by
  induction l generalizing a with
  | nil => simp
  | cons i l ih =>
      obtain ⟨hai, hlt, hrest⟩ := h
      have hb : hi i ≤ b := hrest.le
      rw [holes_cons]
      apply Set.union_subset
      · exact Set.Ico_subset_Ico hai hb
      · exact (ih hrest).trans (Set.Ico_subset_Ico (hai.trans hlt.le) le_rfl)

theorem lo_lt_hi {a b : α} {l : List ι} (h : Bounded lo hi a b l) {j : ι}
    (hj : j ∈ l) : lo j < hi j := by
  induction l generalizing a with
  | nil => simp at hj
  | cons i l ih =>
      obtain ⟨_, hlt, hrest⟩ := h
      rcases List.mem_cons.mp hj with rfl | hj
      · exact hlt
      · exact ih hrest hj

theorem lo_ge {a b : α} {l : List ι} (h : Bounded lo hi a b l) {j : ι} (hj : j ∈ l) :
    a ≤ lo j := by
  have hmem : lo j ∈ holes lo hi l := subset_holes_of_mem hj ⟨le_rfl, h.lo_lt_hi hj⟩
  exact (h.holes_subset hmem).1

theorem hi_le {a b : α} {l : List ι} (h : Bounded lo hi a b l) {j : ι} (hj : j ∈ l) :
    hi j ≤ b := by
  induction l generalizing a with
  | nil => simp at hj
  | cons i l ih =>
      obtain ⟨_, hlt, hrest⟩ := h
      rcases List.mem_cons.mp hj with rfl | hj
      · exact hrest.le
      · exact ih hrest hj

theorem pairwise_hi_le {a b : α} {l : List ι} (h : Bounded lo hi a b l) :
    l.Pairwise (fun i j => hi i ≤ lo j) := by
  induction l generalizing a with
  | nil => exact List.Pairwise.nil
  | cons i l ih =>
      obtain ⟨_, _, hrest⟩ := h
      exact List.Pairwise.cons (fun j hj => hrest.lo_ge hj) (ih hrest)

theorem pairwise_lo_lt {a b : α} {l : List ι} (h : Bounded lo hi a b l) :
    l.Pairwise (fun i j => lo i < lo j) := by
  apply (h.pairwise_hi_le).imp_of_mem
  intro i j hi _ hij
  exact (h.lo_lt_hi hi).trans_le hij

theorem pairwise_disjoint {a b : α} {l : List ι} (h : Bounded lo hi a b l) :
    l.Pairwise (fun i j =>
      Disjoint (Set.Ico (lo i) (hi i)) (Set.Ico (lo j) (hi j))) := by
  apply (h.pairwise_hi_le).imp
  intro i j hij
  rw [Set.disjoint_left]
  intro x hx hx'
  exact absurd (hx.2.trans_le (hij.trans hx'.1)) (lt_irrefl x)

end Bounded

@[simp] theorem tiles_nil {a b : α} : Tiles lo hi a b [] ↔ a = b :=
  Iff.rfl

@[simp] theorem tiles_cons {a b : α} {i : ι} {l : List ι} :
    Tiles lo hi a b (i :: l) ↔ lo i = a ∧ lo i < hi i ∧ Tiles lo hi (hi i) b l :=
  Iff.rfl

namespace Tiles

theorem bounded {a b : α} {l : List ι} (h : Tiles lo hi a b l) :
    Bounded lo hi a b l := by
  induction l generalizing a with
  | nil => exact le_of_eq h
  | cons i l ih =>
      obtain ⟨hlo, hlt, hrest⟩ := h
      exact ⟨hlo.ge, hlt, ih hrest⟩

theorem le {a b : α} {l : List ι} (h : Tiles lo hi a b l) : a ≤ b :=
  h.bounded.le

theorem append {a b c : α} {l l' : List ι} (h : Tiles lo hi a b l)
    (h' : Tiles lo hi b c l') : Tiles lo hi a c (l ++ l') := by
  induction l generalizing a with
  | nil =>
      rw [tiles_nil] at h
      subst h
      exact h'
  | cons i l ih =>
      obtain ⟨hlo, hlt, hrest⟩ := h
      exact ⟨hlo, hlt, ih hrest⟩

theorem of_append {a b : α} {l l' : List ι} (h : Tiles lo hi a b (l ++ l')) :
    ∃ m, Tiles lo hi a m l ∧ Tiles lo hi m b l' := by
  induction l generalizing a with
  | nil => exact ⟨a, rfl, h⟩
  | cons i l ih =>
      obtain ⟨hlo, hlt, hrest⟩ := h
      obtain ⟨m, hl, hl'⟩ := ih hrest
      exact ⟨m, ⟨hlo, hlt, hl⟩, hl'⟩

theorem right_unique {a b c : α} {l : List ι} (h : Tiles lo hi a b l)
    (h' : Tiles lo hi a c l) : b = c := by
  induction l generalizing a with
  | nil => exact h.symm.trans h'
  | cons i l ih => exact ih h.2.2 h'.2.2

theorem flatMap {κ : Type*} {lo' hi' : κ → α} {a b : α} {l : List ι}
    (f : ι → List κ) (hf : ∀ i ∈ l, Tiles lo' hi' (lo i) (hi i) (f i))
    (h : Tiles lo hi a b l) : Tiles lo' hi' a b (l.flatMap f) := by
  induction l generalizing a with
  | nil =>
      rw [tiles_nil] at h
      simpa using h
  | cons i l ih =>
      obtain ⟨hlo, _, hrest⟩ := h
      rw [List.flatMap_cons]
      have hi : Tiles lo' hi' a (hi i) (f i) := hlo ▸ hf i List.mem_cons_self
      exact hi.append (ih (fun j hj => hf j (List.mem_cons_of_mem i hj)) hrest)

end Tiles

end Order

section Span

variable {ι : Type*} {lo hi : ι → ℤ}

theorem Ico_sdiff_front {a b c : ℤ} (hab : a ≤ b) :
    Set.Ico a c \ Set.Ico a b = Set.Ico b c := by
  ext x
  simp only [Set.mem_sdiff, Set.mem_Ico]
  omega

theorem Ico_sdiff_back {a b c : ℤ} (hbc : b ≤ c) :
    Set.Ico a c \ Set.Ico b c = Set.Ico a b := by
  ext x
  simp only [Set.mem_sdiff, Set.mem_Ico]
  omega

theorem Ico_sdiff_middle {a b c d : ℤ} (hab : a ≤ b) (hbc : b ≤ c)
    (hcd : c ≤ d) :
    Set.Ico a d \ Set.Ico b c = Set.Ico a b ∪ Set.Ico c d := by
  ext x
  simp only [Set.mem_sdiff, Set.mem_Ico, Set.mem_union]
  omega

theorem Ico_sdiff_grow {a b c d : ℤ} {H : Set ℤ} (hH : H ⊆ Set.Ico a b)
    (hab : a ≤ b) (hbc : b ≤ c) (hcd : c ≤ d) :
    Set.Ico a d \ (H ∪ Set.Ico b c) = (Set.Ico a b \ H) ∪ Set.Ico c d := by
  ext x
  simp only [Set.mem_sdiff, Set.mem_union, Set.mem_Ico, not_or]
  constructor
  · rintro ⟨⟨hax, hxd⟩, hxH, hxbc⟩
    by_cases hxb : x < b
    · exact .inl ⟨⟨hax, hxb⟩, hxH⟩
    · exact .inr ⟨by omega, hxd⟩
  · rintro (⟨⟨hax, hxb⟩, hxH⟩ | ⟨hcx, hxd⟩)
    · exact ⟨⟨hax, by omega⟩, hxH, by omega⟩
    · refine ⟨⟨by omega, hxd⟩, fun hxH => ?_, by omega⟩
      have := hH hxH
      rw [Set.mem_Ico] at this
      omega

/-- The number of points covered by the intervals, counted with
multiplicity. -/
def span (lo hi : ι → ℤ) (l : List ι) : ℤ :=
  (l.map fun i => hi i - lo i).sum

@[simp] theorem span_nil : span lo hi [] = 0 := rfl

@[simp] theorem span_cons (i : ι) (l : List ι) :
    span lo hi (i :: l) = (hi i - lo i) + span lo hi l := by
  simp [span]

@[simp] theorem span_append (l l' : List ι) :
    span lo hi (l ++ l') = span lo hi l + span lo hi l' := by
  simp [span]

namespace Bounded

theorem span_nonneg {a b : ℤ} {l : List ι} (h : Bounded lo hi a b l) :
    0 ≤ span lo hi l := by
  induction l generalizing a with
  | nil => simp
  | cons i l ih =>
      obtain ⟨_, hlt, hrest⟩ := h
      have := ih hrest
      rw [span_cons]
      omega

theorem span_eq_zero_iff {a b : ℤ} {l : List ι} (h : Bounded lo hi a b l) :
    span lo hi l = 0 ↔ l = [] := by
  cases l with
  | nil => simp
  | cons i l =>
      obtain ⟨_, hlt, hrest⟩ := h
      have := hrest.span_nonneg
      simp only [span_cons, reduceCtorEq, iff_false]
      omega

end Bounded

end Span

section Split

open MachineArith

/-- `[a, a + n)` cut into pieces of `k` points, the last one possibly
shorter; a piece is its start and its length. -/
def split (k : ℕ) (a : ℤ) (n : ℕ) : List (ℤ × ℕ) :=
  (List.range (ceilDiv n k)).map fun i => (a + (i * k : ℕ), min k (n - i * k))

def pieceEnd (p : ℤ × ℕ) : ℤ :=
  p.1 + p.2

@[simp] theorem length_split (k : ℕ) (a : ℤ) (n : ℕ) :
    (split k a n).length = ceilDiv n k := by
  simp [split]

@[simp] theorem split_zero (k : ℕ) (a : ℤ) : split k a 0 = [] := by
  have h : ceilDiv 0 k = 0 := by
    unfold ceilDiv
    rcases Nat.eq_zero_or_pos k with hk | hk
    · simp [hk]
    · exact Nat.div_eq_of_lt (by omega)
  simp [split, h]

theorem split_of_le {k n : ℕ} (a : ℤ) (hn : 0 < n) (hnk : n ≤ k) :
    split k a n = [(a, n)] := by
  have h : ceilDiv n k = 1 := by
    unfold ceilDiv
    apply Nat.div_eq_of_lt_le <;> omega
  simp [split, h, hnk]

theorem split_of_lt {k n : ℕ} (a : ℤ) (hk : 0 < k) (hkn : k < n) :
    split k a n = (a, k) :: split k (a + k) (n - k) := by
  have h : ceilDiv n k = ceilDiv (n - k) k + 1 := by
    unfold ceilDiv
    have : n + k - 1 = (n - k + k - 1) + 1 * k := by omega
    rw [this, Nat.add_mul_div_right _ _ hk]
  unfold split
  rw [h, List.range_succ_eq_map, List.map_cons, List.map_map]
  congr 1
  · simp only [Nat.zero_mul, Nat.cast_zero, add_zero, Nat.sub_zero]
    rw [min_eq_left hkn.le]
  · apply List.map_congr_left
    intro i _
    simp only [Function.comp_apply, Prod.mk.injEq]
    constructor
    · push_cast
      ring
    · congr 1
      rw [Nat.succ_mul]
      omega

theorem split_eq_cons {k n : ℕ} (a : ℤ) (hk : 0 < k) (hn : 0 < n) :
    split k a n = (a, min k n) :: split k (a + min k n) (n - min k n) := by
  by_cases hnk : n ≤ k
  · rw [split_of_le a hn hnk, min_eq_right hnk, Nat.sub_self, split_zero]
  · rw [split_of_lt a hk (by omega), min_eq_left (by omega)]

theorem tiles_split {k : ℕ} (hk : 0 < k) (a : ℤ) (n : ℕ) :
    Tiles Prod.fst pieceEnd a (a + n) (split k a n) := by
  induction n using Nat.strong_induction_on generalizing a with
  | _ n ih =>
      rcases Nat.eq_zero_or_pos n with rfl | hn
      · simp
      by_cases hnk : n ≤ k
      · rw [split_of_le a hn hnk]
        simp [pieceEnd, hn]
      · rw [split_of_lt a hk (by omega)]
        have hrest := ih (n - k) (by omega) (a + k)
        have hend : a + (k : ℤ) + ((n - k : ℕ) : ℤ) = a + n := by
          push_cast [show k ≤ n by omega]
          ring
        rw [hend] at hrest
        exact ⟨rfl, by simp [pieceEnd]; omega, hrest⟩

end Split

end IntervalList
