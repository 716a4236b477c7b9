import Mathlib.Data.Finset.Card
import Mathlib.Data.List.Perm.Basic

/-!
# Keeping the best `k` of a stream of candidates

A bounded array of the best candidates seen so far, best first, kept by
carrying: the new candidate walks down the array, stops at an entry equal to
it, and otherwise takes the place of each entry it beats and carries that
entry on; what is carried off the end is appended while there is room
(`step`).  When `better` compares by a key into a linear order, the array
holds distinct candidates, sorted, as many as there are up to `k`, and every
one left out is no better than any kept (`Kept`, `kept_foldl`).
-/

namespace BestK

variable {α : Type*} [DecidableEq α]

/-- Sort `x` into `vs`: the new list, and the entry carried off its end, or
`none` when `x` met itself. -/
def insertCarry (better : α → α → Bool) : List α → α → List α × Option α
  | [], x => ([], some x)
  | v :: vs, x =>
    if x = v then (v :: vs, none)
    else if better x v then
      let r := insertCarry better vs v
      (x :: r.1, r.2)
    else
      let r := insertCarry better vs x
      (v :: r.1, r.2)

/-- One candidate: sorted in, and the entry carried off the end appended
while the list has fewer than `k` entries. -/
def step (better : α → α → Bool) (k : ℕ) (vs : List α) (x : α) : List α :=
  match insertCarry better vs x with
  | (vs', some y) => if vs'.length < k then vs' ++ [y] else vs'
  | (vs', none) => vs'

section Key

variable {β : Type*} [LinearOrder β] (key : α → β)

def better (a b : α) : Bool := decide (key a < key b)

/-- Best first: the keys do not decrease. -/
def BestFirst (vs : List α) : Prop := vs.Pairwise fun a b => key a ≤ key b

/-- What the list keeps over the candidates `seen`: distinct candidates, best
first, as many as there are up to `k`, none left out better than one kept. -/
structure Kept (k : ℕ) (seen vs : List α) : Prop where
  nodup : vs.Nodup
  bestFirst : BestFirst key vs
  mem_seen : ∀ v ∈ vs, v ∈ seen
  length_eq : vs.length = min k seen.toFinset.card
  left_out : ∀ c ∈ seen, c ∉ vs → vs.length = k ∧ ∀ v ∈ vs, key v ≤ key c

variable {key}

theorem insertCarry_of_mem {vs : List α} {x : α} (hs : BestFirst key vs) (hx : x ∈ vs) :
    insertCarry (better key) vs x = (vs, none) := by
  induction vs with
  | nil => simp at hx
  | cons v vs ih =>
    have hs' := List.pairwise_cons.mp hs
    by_cases hxv : x = v
    · simp [insertCarry, hxv]
    · have hxs : x ∈ vs := (List.mem_cons.mp hx).resolve_left hxv
      have hnot : ¬key x < key v := not_lt.mpr (hs'.1 x hxs)
      simp [insertCarry, hxv, better, hnot, ih hs'.2 hxs]

theorem insertCarry_of_not_mem {vs : List α} (hs : BestFirst key vs) (hnd : vs.Nodup) :
    ∀ {x : α}, x ∉ vs → ∃ r y, insertCarry (better key) vs x = (r, some y) ∧
      BestFirst key (r ++ [y]) ∧ (r ++ [y]).Perm (x :: vs) := by
  induction vs with
  | nil =>
    intro x _
    exact ⟨[], x, rfl, List.pairwise_singleton _ _, List.Perm.refl _⟩
  | cons v vs ih =>
    intro x hx
    have hs' := List.pairwise_cons.mp hs
    have hnd' := List.nodup_cons.mp hnd
    have hxv : x ≠ v := fun h => hx (h ▸ List.mem_cons_self)
    have hxs : x ∉ vs := fun h => hx (List.mem_cons_of_mem v h)
    by_cases hlt : key x < key v
    · -- `x` takes `v`'s place and `v` is carried on
      obtain ⟨r, y, hr, hsorted, hperm⟩ := ih hs'.2 hnd'.2 hnd'.1
      refine ⟨x :: r, y, by simp [insertCarry, hxv, better, hlt, hr], ?_, ?_⟩
      · refine List.pairwise_cons.mpr ⟨fun z hz => ?_, hsorted⟩
        rcases List.mem_cons.mp (hperm.subset hz) with rfl | hz
        · exact hlt.le
        · exact hlt.le.trans (hs'.1 z hz)
      · exact hperm.cons x
    · -- `v` stays and `x` goes on down
      obtain ⟨r, y, hr, hsorted, hperm⟩ := ih hs'.2 hnd'.2 hxs
      refine ⟨v :: r, y, by simp [insertCarry, hxv, better, hlt, hr], ?_, ?_⟩
      · refine List.pairwise_cons.mpr ⟨fun z hz => ?_, hsorted⟩
        rcases List.mem_cons.mp (hperm.subset hz) with rfl | hz
        · exact not_lt.mp hlt
        · exact hs'.1 z hz
      · exact (hperm.cons v).trans (List.Perm.swap x v vs)

theorem kept_nil (k : ℕ) : Kept key k [] [] :=
  ⟨List.nodup_nil, List.Pairwise.nil, by simp, by simp, by simp⟩

section Step

variable {k : ℕ} {seen vs r : List α} {x y : α}

theorem toFinset_append_singleton (seen : List α) (x : α) :
    (seen ++ [x]).toFinset = insert x seen.toFinset := by
  ext z
  simp

omit [DecidableEq α] in
theorem le_of_bestFirst_append_singleton (hsorted : BestFirst key (r ++ [y])) :
    ∀ v ∈ r, key v ≤ key y := fun v hv =>
  (List.pairwise_append.mp hsorted).2.2 v hv y List.mem_cons_self

theorem Kept.append_of_mem (h : Kept key k seen vs) (hx : x ∈ vs) :
    Kept key k (seen ++ [x]) vs := by
  have hseen : x ∈ seen := h.mem_seen x hx
  refine ⟨h.nodup, h.bestFirst, fun v hv => List.mem_append_left _ (h.mem_seen v hv), ?_, ?_⟩
  · rw [toFinset_append_singleton, Finset.insert_eq_of_mem (List.mem_toFinset.mpr hseen)]
    exact h.length_eq
  · intro c hc hcv
    rcases List.mem_append.mp hc with hc | hc
    · exact h.left_out c hc hcv
    · exact absurd (List.mem_singleton.mp hc ▸ hx) hcv

theorem Kept.mem_seen_carry (h : Kept key k seen vs) (hperm : (r ++ [y]).Perm (x :: vs)) :
    ∀ z ∈ r ++ [y], z ∈ seen ++ [x] := fun z hz => by
  rcases List.mem_cons.mp (hperm.subset hz) with rfl | hz
  · exact List.mem_append_right _ List.mem_cons_self
  · exact List.mem_append_left _ (h.mem_seen z hz)

theorem Kept.append_room (h : Kept key k seen vs) (hx : x ∉ vs)
    (hsorted : BestFirst key (r ++ [y])) (hperm : (r ++ [y]).Perm (x :: vs))
    (hroom : r.length < k) :
    Kept key k (seen ++ [x]) (r ++ [y]) := by
  have hlen : r.length = vs.length := by simpa using hperm.length_eq
  have hnew : x ∉ seen := fun hxs => by
    have := (h.left_out x hxs hx).1
    omega
  have hcard : (seen ++ [x]).toFinset.card = seen.toFinset.card + 1 := by
    rw [toFinset_append_singleton, Finset.card_insert_of_notMem (by simpa using hnew)]
  refine ⟨hperm.nodup_iff.mpr (List.nodup_cons.mpr ⟨hx, h.nodup⟩), hsorted,
    h.mem_seen_carry hperm, ?_, ?_⟩
  · have := h.length_eq
    rw [List.length_append, hlen, hcard]
    simp only [List.length_singleton]
    omega
  · intro c hc hcv
    rcases List.mem_append.mp hc with hc | hc
    · by_cases hcvs : c ∈ vs
      · exact absurd (hperm.symm.subset (List.mem_cons_of_mem x hcvs)) hcv
      · have := (h.left_out c hc hcvs).1
        omega
    · rw [List.mem_singleton.mp hc] at hcv
      exact absurd (hperm.symm.subset List.mem_cons_self) hcv

theorem Kept.le_of_not_mem_carry (h : Kept key k seen vs) (hsorted : BestFirst key (r ++ [y]))
    (hperm : (r ++ [y]).Perm (x :: vs)) (hnd : (r ++ [y]).Nodup) {c : α} (hcseen : c ∈ seen)
    (hcxvs : c ∉ x :: vs) :
    ∀ v ∈ r, key v ≤ key c := by
  intro v hv
  have hold := (h.left_out c hcseen fun hcv => hcxvs (List.mem_cons_of_mem x hcv)).2
  rcases List.mem_cons.mp (hperm.subset (List.mem_append_left _ hv)) with hvx | hvs
  · -- the candidate was kept, so the carried entry was an old one
    have hyr : y ∉ r := fun hyr =>
      (List.nodup_append.mp hnd).2.2 y hyr y List.mem_cons_self rfl
    have hyvs : y ∈ vs := by
      rcases List.mem_cons.mp (hperm.subset (List.mem_append_right r List.mem_cons_self))
        with hyx | hyvs
      · exact absurd (hyx ▸ hvx ▸ hv) hyr
      · exact hyvs
    exact (le_of_bestFirst_append_singleton hsorted v hv).trans (hold y hyvs)
  · exact hold v hvs

theorem Kept.append_full (h : Kept key k seen vs) (hx : x ∉ vs)
    (hsorted : BestFirst key (r ++ [y])) (hperm : (r ++ [y]).Perm (x :: vs))
    (hroom : ¬r.length < k) :
    Kept key k (seen ++ [x]) r := by
  have hlen : r.length = vs.length := by simpa using hperm.length_eq
  have hnd : (r ++ [y]).Nodup := hperm.nodup_iff.mpr (List.nodup_cons.mpr ⟨hx, h.nodup⟩)
  have hk : vs.length = k := by
    have := h.length_eq
    omega
  refine ⟨(List.nodup_append.mp hnd).1, (List.pairwise_append.mp hsorted).1,
    fun z hz => h.mem_seen_carry hperm z (List.mem_append_left _ hz), ?_, ?_⟩
  · have hle : seen.toFinset.card ≤ (seen ++ [x]).toFinset.card :=
      Finset.card_le_card (by rw [toFinset_append_singleton]; exact Finset.subset_insert _ _)
    have := h.length_eq
    omega
  · intro c hc hcr
    refine ⟨by omega, fun v hv => ?_⟩
    by_cases hcy : c = y
    · exact hcy ▸ le_of_bestFirst_append_singleton hsorted v hv
    · have hcxvs : c ∉ x :: vs := fun hcx => by
        rcases List.mem_append.mp (hperm.symm.subset hcx) with h' | h'
        · exact hcr h'
        · exact hcy (List.mem_singleton.mp h')
      have hcseen : c ∈ seen := by
        rcases List.mem_append.mp hc with hc | hc
        · exact hc
        · exact absurd (List.mem_cons.mpr (.inl (List.mem_singleton.mp hc))) hcxvs
      exact h.le_of_not_mem_carry hsorted hperm hnd hcseen hcxvs v hv

theorem Kept.step (h : Kept key k seen vs) (x : α) :
    Kept key k (seen ++ [x]) (step (better key) k vs x) := by
  by_cases hx : x ∈ vs
  · rw [BestK.step, insertCarry_of_mem h.bestFirst hx]
    exact h.append_of_mem hx
  · obtain ⟨r, y, hr, hsorted, hperm⟩ := insertCarry_of_not_mem h.bestFirst h.nodup hx
    rw [BestK.step, hr]
    dsimp only
    by_cases hroom : r.length < k
    · rw [if_pos hroom]
      exact h.append_room hx hsorted hperm hroom
    · rw [if_neg hroom]
      exact h.append_full hx hsorted hperm hroom

end Step

theorem kept_foldl {k : ℕ} (xs : List α) :
    ∀ {seen vs : List α}, Kept key k seen vs →
      Kept key k (seen ++ xs) (xs.foldl (step (better key) k) vs) := by
  induction xs with
  | nil =>
    intro seen vs h
    simpa using h
  | cons x xs ih =>
    intro seen vs h
    have := ih (h.step x)
    simpa using this

end Key

end BestK
