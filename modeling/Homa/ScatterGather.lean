import Mathlib.Data.List.Basic

/-!
# Scatter-gather byte buffers

Memory maps a page and a position to a byte; `read` takes a range of one
page and `write` stores bytes at a position.  A write changes no range it
does not overlap (`read_write_of_disjoint`).  A buffer gathered from several
ranges is their concatenation, and copying `n` bytes from position `o`
copies `window xs o n`, which splits at the boundary of two parts
(`window_append_of_le`, `window_append_of_lt`).
-/

namespace ScatterGather

variable {π β : Type*}

/-! ## Pages of bytes -/

/-- The `n` bytes of page `p` from position `off`. -/
def read (mem : π → ℕ → β) (p : π) (off n : ℕ) : List β :=
  (List.range n).map fun i => mem p (off + i)

/-- Memory once `bs` is stored on page `p` from position `off`. -/
def write [DecidableEq π] (mem : π → ℕ → β) (p : π) (off : ℕ) (bs : List β) : π → ℕ → β :=
  fun q i => if q = p ∧ off ≤ i then bs.getD (i - off) (mem q i) else mem q i

@[simp] theorem length_read (mem : π → ℕ → β) (p : π) (off n : ℕ) :
    (read mem p off n).length = n := by
  simp [read]

@[simp] theorem read_zero (mem : π → ℕ → β) (p : π) (off : ℕ) : read mem p off 0 = [] := rfl

theorem read_add (mem : π → ℕ → β) (p : π) (off a b : ℕ) :
    read mem p off (a + b) = read mem p off a ++ read mem p (off + a) b := by
  simp only [read, List.range_add, List.map_append, List.map_map]
  congr 1
  apply List.map_congr_left
  intro i _
  simp [Nat.add_assoc]

theorem take_read (mem : π → ℕ → β) (p : π) (off n k : ℕ) :
    (read mem p off n).take k = read mem p off (min k n) := by
  rw [read, ← List.map_take, List.take_range]
  rfl

section Write

variable [DecidableEq π]

theorem read_write_of_disjoint (mem : π → ℕ → β) {p q : π} {off o n : ℕ} {bs : List β}
    (h : q ≠ p ∨ o + n ≤ off ∨ off + bs.length ≤ o) :
    read (write mem p off bs) q o n = read mem q o n := by
  apply List.map_congr_left
  intro i hi
  rw [List.mem_range] at hi
  unfold write
  split_ifs with hq
  · -- on the written page, past the end of what was written
    obtain ⟨rfl, hle⟩ := hq
    have hout : o + n ≤ off ∨ off + bs.length ≤ o := h.resolve_left (not_not.mpr rfl)
    have hpast : bs.length ≤ o + i - off := by omega
    simp [List.getD_eq_getElem?_getD, List.getElem?_eq_none hpast]
  · rfl

theorem read_write_self (mem : π → ℕ → β) (p : π) (off : ℕ) (bs : List β) :
    read (write mem p off bs) p off bs.length = bs := by
  apply List.ext_getElem (by simp)
  intro i h _
  simp only [length_read] at h
  simp [read, write, List.getD_eq_getElem?_getD, List.getElem?_eq_getElem h]

end Write

/-! ## Windows of a gathered buffer -/

/-- The `n` bytes of `xs` from position `o`, fewer where `xs` ends first. -/
def window (xs : List β) (o n : ℕ) : List β :=
  (xs.drop o).take n

@[simp] theorem window_zero (xs : List β) (o : ℕ) : window xs o 0 = [] := by
  simp [window]

@[simp] theorem length_window (xs : List β) (o n : ℕ) :
    (window xs o n).length = min n (xs.length - o) := by
  simp [window]

theorem window_append (a b : List β) (o n : ℕ) :
    window (a ++ b) o n = window a o n ++ window b (o - a.length) (n - (a.length - o)) := by
  simp only [window, List.drop_append, List.take_append, List.length_drop]

theorem window_append_of_le (a b : List β) {o : ℕ} (n : ℕ) (h : a.length ≤ o) :
    window (a ++ b) o n = window b (o - a.length) n := by
  have hnil : window a o n = [] := by simp [window, List.drop_eq_nil_of_le h]
  rw [window_append, hnil, List.nil_append, Nat.sub_eq_zero_of_le h, Nat.sub_zero]

theorem window_append_of_lt (a b : List β) {o n c : ℕ} (h : o < a.length)
    (hc : c = min (a.length - o) n) :
    window (a ++ b) o n = window a o n ++ window b (o + c - a.length) (n - c) := by
  rw [window_append, Nat.sub_eq_zero_of_le (Nat.le_of_lt h)]
  -- the piece is the rest of the first part, or the whole window
  rcases Nat.le_total (a.length - o) n with hle | hle
  · rw [Nat.min_eq_left hle] at hc
    subst hc
    have h0 : o + (a.length - o) - a.length = 0 := by omega
    rw [h0]
  · rw [Nat.min_eq_right hle] at hc
    subst hc
    rw [Nat.sub_self, Nat.sub_eq_zero_of_le hle, window_zero, window_zero]

theorem window_eq_take (a : List β) {o n c : ℕ} (hc : c = min (a.length - o) n) :
    window a o n = (a.drop o).take c := by
  rw [window, List.take_eq_take_iff, List.length_drop, hc]
  omega

theorem window_read (mem : π → ℕ → β) (p : π) {off n o : ℕ} (k : ℕ) (h : o ≤ n) :
    window (read mem p off n) o k = read mem p (off + o) (min k (n - o)) := by
  have hsplit : read mem p off n = read mem p off o ++ read mem p (off + o) (n - o) := by
    rw [← read_add, Nat.add_sub_cancel' h]
  rw [hsplit, window_append_of_le _ _ _ (by simp), length_read, Nat.sub_self, window,
    List.drop_zero, take_read]

end ScatterGather
