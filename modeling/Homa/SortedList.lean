import Mathlib.Data.List.Sort
import Mathlib.Order.Basic
import Mathlib.Data.List.GetD

/-!
# Lists kept in order of a key

Priority lists stay sorted by inserting an entry before the first one it
beats (`List.orderedInsert`) and by moving an entry whose key changed towards
the front (`moveUp`) or the back (`moveDown`).  The moving loops work on the
list split around the entry, `place (rpre, post) x`, with `rpre` nearest
entry first.
-/

namespace SortedList

variable {α β : Type*} [LinearOrder β]

def Sorted (key : α → β) (l : List α) : Prop :=
  l.Pairwise fun a b => key a ≤ key b

/-- The list split around `x`, with the part in front reversed. -/
def place (p : List α × List α) (x : α) : List α :=
  p.1.reverse ++ x :: p.2

/-- Move `x` towards the front while it beats the entry in front of it. -/
def moveUp (r : α → α → Bool) (x : α) : List α → List α → List α × List α
  | [], post => ([], post)
  | o :: rpre, post => if r x o then moveUp r x rpre (o :: post) else (o :: rpre, post)

/-- Move `x` towards the back while the entry behind it beats it. -/
def moveDown (r : α → α → Bool) (x : α) : List α → List α → List α × List α
  | rpre, [] => (rpre, [])
  | rpre, o :: post => if r o x then moveDown r x (o :: rpre) post else (rpre, o :: post)

/-- The list `l` split around its first `x`. -/
def split [DecidableEq α] (x : α) (l : List α) : List α × List α :=
  ((l.takeWhile (· ≠ x)).reverse, (l.dropWhile (· ≠ x)).tail)

/-- Insertion sort that takes the entries of `l` from the front and puts
each before the first entry it beats, so entries with equal keys keep their
order. -/
def insertionSortFront (r : α → α → Bool) (l : List α) : List α :=
  l.foldl (fun s x => s.orderedInsert (fun a b => r a b = true) x) []

variable {key : α → β}

theorem Sorted.sublist {l l' : List α} (h : Sorted key l) (hs : l'.Sublist l) :
    Sorted key l' :=
  List.Pairwise.sublist hs h

theorem Sorted.erase [DecidableEq α] {l : List α} (h : Sorted key l) (x : α) :
    Sorted key (l.erase x) :=
  h.sublist (List.erase_sublist)

theorem Sorted.congr {key' : α → β} {l : List α} (h : Sorted key l)
    (hk : ∀ a ∈ l, key' a = key a) : Sorted key' l := by
  unfold Sorted at *
  rw [List.pairwise_iff_get] at *
  intro i j hij
  rw [hk _ (List.get_mem _ _), hk _ (List.get_mem _ _)]
  exact h i j hij

theorem sorted_append_cons {A B : List α} {x : α} :
    Sorted key (A ++ x :: B) ↔
      Sorted key (A ++ B) ∧ (∀ a ∈ A, key a ≤ key x) ∧ ∀ b ∈ B, key x ≤ key b := by
  simp only [Sorted, List.pairwise_append, List.pairwise_cons, List.mem_cons]
  constructor
  · rintro ⟨hA, ⟨hxB, hB⟩, hAB⟩
    exact ⟨⟨hA, hB, fun a ha b hb => hAB a ha b (.inr hb)⟩,
      fun a ha => hAB a ha x (.inl rfl), hxB⟩
  · rintro ⟨⟨hA, hB, hAB⟩, hAx, hxB⟩
    refine ⟨hA, ⟨hxB, hB⟩, ?_⟩
    rintro a ha b (rfl | hb)
    · exact hAx a ha
    · exact hAB a ha b hb

theorem sorted_place {p : List α × List α} {x : α} :
    Sorted key (place p x) ↔
      Sorted key (p.1.reverse ++ p.2) ∧ (∀ a ∈ p.1, key a ≤ key x) ∧
        ∀ b ∈ p.2, key x ≤ key b := by
  simp only [place, sorted_append_cons, List.mem_reverse]

theorem moveUp_spec_of_mem {r : α → α → Bool} {rpre post : List α} (x : α)
    (hr : ∀ o ∈ rpre, r x o = true ↔ key x < key o) (hs : Sorted key (rpre.reverse ++ post)) :
    (∀ a ∈ (moveUp r x rpre post).1, key a ≤ key x) ∧
      ∃ M, (moveUp r x rpre post).2 = M ++ post ∧ ∀ m ∈ M, key x < key m := by
  induction rpre generalizing post with
  | nil => exact ⟨by simp [moveUp], [], by simp [moveUp]⟩
  | cons o rpre ih =>
    have hs' : Sorted key (rpre.reverse ++ o :: post) := by simpa using hs
    have hro := hr o List.mem_cons_self
    by_cases hxo : r x o = true
    · -- `x` passes `o`, which joins the entries behind it
      obtain ⟨hA, M, hM, hMx⟩ := ih (fun o' ho' => hr o' (List.mem_cons_of_mem o ho')) hs'
      simp only [moveUp, hxo, if_true]
      refine ⟨hA, M ++ [o], by simp [hM], fun m hm => ?_⟩
      rcases List.mem_append.mp hm with hm | hm
      · exact hMx m hm
      · rw [List.mem_singleton.mp hm]
        exact hro.mp hxo
    · have hox : key o ≤ key x := not_lt.mp fun h => hxo (hro.mpr h)
      simp only [moveUp, hxo, Bool.false_eq_true, if_false]
      refine ⟨fun a ha => ?_, [], by simp, by simp⟩
      rcases List.mem_cons.mp ha with rfl | ha
      · exact hox
      · have hao := (sorted_append_cons.mp hs').2.1 a (List.mem_reverse.mpr ha)
        exact hao.trans hox

section Compare

variable {r : α → α → Bool} (hr : ∀ a b, r a b = true ↔ key a < key b)
include hr

theorem Sorted.orderedInsert {l : List α} (h : Sorted key l) (x : α) :
    Sorted key (l.orderedInsert (fun a b => r a b = true) x) := by
  induction l with
  | nil => simp [Sorted]
  | cons y l ih =>
    have hy := List.pairwise_cons.mp h
    by_cases hxy : r x y = true
    · rw [List.orderedInsert_cons_of_le (fun a b => r a b = true) l hxy]
      have hlt := (hr x y).mp hxy
      refine List.Pairwise.cons (fun b hb => ?_) h
      rcases List.mem_cons.mp hb with rfl | hb
      · exact hlt.le
      · exact hlt.le.trans (hy.1 b hb)
    · rw [List.orderedInsert_of_not_le (fun a b => r a b = true) l hxy]
      have hle : key y ≤ key x := not_lt.mp fun h => hxy ((hr x y).mpr h)
      refine List.Pairwise.cons (fun b hb => ?_) (ih hy.2)
      rcases (List.mem_orderedInsert _).mp hb with rfl | hb
      · exact hle
      · exact hy.1 b hb

end Compare

theorem moveUp_concat (r : α → α → Bool) (x : α) (rpre post : List α) :
    (moveUp r x rpre post).1.reverse ++ (moveUp r x rpre post).2 = rpre.reverse ++ post := by
  induction rpre generalizing post with
  | nil => rfl
  | cons o rpre ih =>
    by_cases hxo : r x o = true
    · simp [moveUp, hxo, ih]
    · simp [moveUp, hxo]

theorem moveUp_fst_length_le (r : α → α → Bool) (x : α) (rpre post : List α) :
    (moveUp r x rpre post).1.length ≤ rpre.length := by
  induction rpre generalizing post with
  | nil => simp [moveUp]
  | cons o rpre ih =>
    by_cases hxo : r x o = true
    · simpa [moveUp, hxo] using (ih (o :: post)).trans (Nat.le_succ _)
    · simp [moveUp, hxo]

theorem sorted_place_moveUp_of_mem {r : α → α → Bool} {rpre post : List α} (x : α)
    (hr : ∀ o ∈ rpre, r x o = true ↔ key x < key o) (hs : Sorted key (rpre.reverse ++ post))
    (hpost : ∀ b ∈ post, key x ≤ key b) : Sorted key (place (moveUp r x rpre post) x) := by
  obtain ⟨hA, M, hM, hMx⟩ := moveUp_spec_of_mem x hr hs
  refine sorted_place.mpr ⟨by rwa [moveUp_concat], hA, fun b hb => ?_⟩
  rw [hM] at hb
  rcases List.mem_append.mp hb with hb | hb
  · exact (hMx b hb).le
  · exact hpost b hb

theorem moveUp_reverse_nil (r : α → α → Bool) (x : α) (l : List α) :
    (moveUp r x l.reverse []).1.reverse = l.take (moveUp r x l.reverse []).1.length ∧
      (moveUp r x l.reverse []).2 = l.drop (moveUp r x l.reverse []).1.length := by
  generalize hup : moveUp r x l.reverse [] = up
  have hcat : up.1.reverse ++ up.2 = l := by
    rw [← hup, moveUp_concat, List.reverse_reverse, List.append_nil]
  constructor
  · rw [← hcat, ← List.length_reverse, List.take_left]
  · rw [← hcat, ← List.length_reverse, List.drop_left]

section Compare

variable {r : α → α → Bool} (hr : ∀ a b, r a b = true ↔ key a < key b)
include hr

/-! ### Insertion sort from the front -/

theorem orderedInsert_of_le {s : List α} {x : α} (hle : ∀ b ∈ s, key b ≤ key x) :
    s.orderedInsert (fun a b => r a b = true) x = s ++ [x] := by
  induction s with
  | nil => rfl
  | cons y s ih =>
    have hxy : ¬ r x y = true := fun h => absurd ((hr x y).mp h) (not_lt.mpr (hle y (by simp)))
    rw [List.orderedInsert_of_not_le (fun a b => r a b = true) s hxy,
      ih fun b hb => hle b (List.mem_cons_of_mem y hb), List.cons_append]

theorem filter_orderedInsert {s : List α} (h : Sorted key s) (x : α) (k : β) :
    (s.orderedInsert (fun a b => r a b = true) x).filter (fun a => key a = k) =
      s.filter (fun a => key a = k) ++ [x].filter (fun a => key a = k) := by
  induction s with
  | nil => simp
  | cons y s ih =>
    have hy := List.pairwise_cons.mp h
    by_cases hxy : r x y = true
    · -- `x` goes first; everything behind it has a larger key
      have hlt := (hr x y).mp hxy
      rw [List.orderedInsert_cons_of_le (fun a b => r a b = true) s hxy]
      by_cases hxk : key x = k
      · have hnone : (y :: s).filter (fun a => key a = k) = [] := by
          refine List.filter_eq_nil_iff.mpr fun b hb => ?_
          have hb' : key y ≤ key b := by
            rcases List.mem_cons.mp hb with rfl | hb
            · exact le_rfl
            · exact hy.1 b hb
          simp only [decide_eq_true_eq]
          intro hbk
          exact absurd (hbk ▸ hxk ▸ hlt) (not_lt.mpr hb')
        simp only [List.filter_cons, hxk, decide_true, if_true, List.filter_nil] at hnone ⊢
        rw [hnone]
        simp
      · simp [List.filter_cons, hxk]
    · rw [List.orderedInsert_of_not_le (fun a b => r a b = true) s hxy]
      simp only [List.filter_cons, ih hy.2]
      split_ifs <;> simp

theorem foldl_orderedInsert_sorted {s : List α} (h : Sorted key s) (l : List α) :
    Sorted key (l.foldl (fun s x => s.orderedInsert (fun a b => r a b = true) x) s) := by
  induction l generalizing s with
  | nil => exact h
  | cons x l ih => exact ih (h.orderedInsert hr x)

theorem foldl_orderedInsert_filter {s : List α} (h : Sorted key s) (l : List α) (k : β) :
    (l.foldl (fun s x => s.orderedInsert (fun a b => r a b = true) x) s).filter
        (fun a => key a = k) =
      s.filter (fun a => key a = k) ++ l.filter (fun a => key a = k) := by
  induction l generalizing s with
  | nil => simp
  | cons x l ih =>
    rw [List.foldl_cons, ih (h.orderedInsert hr x), filter_orderedInsert hr h, List.append_assoc,
      ← List.filter_append, List.singleton_append]

theorem foldl_orderedInsert_of_sorted {s l : List α} (h : Sorted key (s ++ l)) :
    l.foldl (fun s x => s.orderedInsert (fun a b => r a b = true) x) s = s ++ l := by
  induction l generalizing s with
  | nil => simp
  | cons x l ih =>
    have hle : ∀ b ∈ s, key b ≤ key x :=
      fun b hb => (List.pairwise_append.mp h).2.2 b hb x (by simp)
    rw [List.foldl_cons, orderedInsert_of_le hr hle, ih (by simpa using h), List.append_assoc,
      List.singleton_append]

theorem insertionSortFront_sorted (l : List α) : Sorted key (insertionSortFront r l) :=
  foldl_orderedInsert_sorted hr (List.Pairwise.nil) l

theorem insertionSortFront_filter (l : List α) (k : β) :
    (insertionSortFront r l).filter (fun a => key a = k) = l.filter (fun a => key a = k) := by
  simpa [insertionSortFront] using foldl_orderedInsert_filter hr (List.Pairwise.nil) l k

theorem insertionSortFront_of_sorted {l : List α} (h : Sorted key l) : insertionSortFront r l = l :=
  foldl_orderedInsert_of_sorted hr (s := []) (by simpa using h)

end Compare

theorem insertionSortFront_perm (r : α → α → Bool) (l : List α) :
    (insertionSortFront r l).Perm l := by
  suffices h : ∀ s : List α,
      (l.foldl (fun s x => s.orderedInsert (fun a b => r a b = true) x) s).Perm (s ++ l) by
    simpa [insertionSortFront] using h []
  induction l with
  | nil => simp
  | cons x l ih =>
    intro s
    rw [List.foldl_cons]
    refine (ih _).trans ?_
    -- the entry inserted anywhere is a permutation of it put in front
    exact ((List.perm_orderedInsert _ x s).append_right l).trans List.perm_middle.symm

/-! ## One entry moved forward

An insertion sort that swaps an entry forward, slot by slot, leaves the
list with that entry moved to where it stopped and the entries it passed one
slot further back. -/

section MoveForward

variable (l : List α) {i j : ℕ}

/-- `l` with `x`, its entry in slot `i`, moved forward to slot `j`. -/
def moveForward (l : List α) (j i : ℕ) (x : α) : List α :=
  l.take j ++ x :: ((l.take i).drop j ++ l.drop (i + 1))

theorem take_append_drop_take (hji : j ≤ i) : l.take j ++ (l.take i).drop j = l.take i := by
  conv_rhs => rw [← List.take_append_drop j (l.take i), List.take_take, Nat.min_eq_left hji]

theorem moveForward_eq_take_append (x : α) :
    moveForward l j i x = (l.take j ++ x :: (l.take i).drop j) ++ l.drop (i + 1) := by
  simp [moveForward]

theorem moveForward_perm (hji : j ≤ i) (hi : i < l.length) : (moveForward l j i l[i]).Perm l := by
  have hl : l.take i ++ l[i] :: l.drop (i + 1) = l := by
    rw [← List.drop_eq_getElem_cons hi, List.take_append_drop]
  calc (moveForward l j i l[i]).Perm (l[i] :: (l.take j ++ ((l.take i).drop j ++ l.drop (i + 1)))) :=
        List.perm_middle
    _ = l[i] :: (l.take i ++ l.drop (i + 1)) := by
        rw [← List.append_assoc, take_append_drop_take l hji]
    List.Perm _ (l.take i ++ l[i] :: l.drop (i + 1)) := List.perm_middle.symm
    _ = l := hl

theorem moveForward_self (hi : i < l.length) : moveForward l i i l[i] = l := by
  rw [moveForward, List.drop_eq_nil_of_le (by simp), List.nil_append, ← List.drop_eq_getElem_cons hi,
    List.take_append_drop]

theorem length_take_moveForward (x : α) (hji : j ≤ i) (hi : i < l.length) :
    (l.take j ++ x :: (l.take i).drop j).length = i + 1 := by
  simp; omega

theorem moveForward_take_succ (x : α) (hji : j ≤ i) (hi : i < l.length) :
    (moveForward l j i x).take (i + 1) = l.take j ++ x :: (l.take i).drop j := by
  rw [moveForward_eq_take_append, List.take_left' (length_take_moveForward l x hji hi)]

theorem moveForward_drop_succ (x : α) (hji : j ≤ i) (hi : i < l.length) :
    (moveForward l j i x).drop (i + 1) = l.drop (i + 1) := by
  rw [moveForward_eq_take_append, List.drop_left' (length_take_moveForward l x hji hi)]

theorem moveForward_take (x : α) (hji : j ≤ i) (hi : i < l.length) :
    (moveForward l j i x).take j = l.take j := by
  rw [moveForward, List.take_left' (by simp; omega)]

theorem moveForward_getD_of_lt (x d : α) {k : ℕ} (hk : k < j) (hji : j ≤ i) (hi : i < l.length) :
    (moveForward l j i x).getD k d = l.getD k d := by
  rw [moveForward, List.getD_append _ _ _ _ (by simp; omega)]
  simp [List.getD_eq_getElem?_getD, hk]

theorem moveForward_getD_self (x d : α) (hji : j ≤ i) (hi : i < l.length) :
    (moveForward l j i x).getD j d = x := by
  have hj : min j l.length = j := Nat.min_eq_left (by omega)
  rw [moveForward, List.getD_append_right _ _ _ _ (by simp)]
  simp [hj]

theorem moveForward_getD_of_gt (x d : α) {k : ℕ} (hik : i < k) (hji : j ≤ i) (hi : i < l.length) :
    (moveForward l j i x).getD k d = l.getD k d := by
  rw [moveForward_eq_take_append, List.getD_append_right _ _ _ _
    (by rw [length_take_moveForward l x hji hi]; omega), length_take_moveForward l x hji hi]
  simp only [List.getD_eq_getElem?_getD, List.getElem?_drop]
  congr 2
  omega

end MoveForward

theorem getD_mem_drop {l : List α} {m k : ℕ} (hmk : m ≤ k) (hk : k < l.length) (d : α) :
    l.getD k d ∈ l.drop m := by
  rw [List.getD_eq_getElem _ _ hk, List.mem_iff_getElem]
  exact ⟨k - m, by simp; omega, by simp only [List.getElem_drop]; congr 1; omega⟩

theorem getD_ne_getD_of_nodup {l : List α} (hl : l.Nodup) {k k' : ℕ} (hk : k < l.length)
    (hk' : k' < l.length) (hne : k ≠ k') (d : α) : l.getD k d ≠ l.getD k' d := by
  rw [List.getD_eq_getElem _ _ hk, List.getD_eq_getElem _ _ hk']
  exact fun h => hne (hl.getElem_inj_iff.mp h)

end SortedList
