import Mathlib.Data.List.Basic

/-!
# Singly linked lists edited through links

Kernel code edits chains of `next` pointers through pointers to pointers.
A link is a pointer variable or the `next` field of a node (`Heap.read`,
`Heap.write`).  `Chain h x xs` says following `next` from `x` visits `xs`
and reaches NULL; `Path h l xs l'` that following links from `l` passes
`xs` and arrives at the link `l'`.  The frames are explicit: a write to a
link a chain or path does not read leaves it alone (`Chain.write`,
`Path.write`).
-/

namespace LinkHeap

variable {ν α : Type*}

/-- Where a pointer is stored: a pointer variable, or the `next` field of a
node. -/
inductive Loc (ν α : Type*) where
  | var (v : ν)
  | next (a : α)
  deriving DecidableEq

/-- The pointer variables and the `next` fields of the nodes. -/
structure Heap (ν α : Type*) where
  vars : ν → Option α
  next : α → Option α

namespace Heap

/-- `*link`. -/
def read (h : Heap ν α) : Loc ν α → Option α
  | .var v => h.vars v
  | .next a => h.next a

/-- `*link = x`. -/
def write [DecidableEq ν] [DecidableEq α] (h : Heap ν α) : Loc ν α → Option α → Heap ν α
  | .var v, x => { h with vars := Function.update h.vars v x }
  | .next a, x => { h with next := Function.update h.next a x }

@[simp] theorem read_var (h : Heap ν α) (v : ν) : h.read (.var v) = h.vars v := rfl

@[simp] theorem read_next (h : Heap ν α) (a : α) : h.read (.next a) = h.next a := rfl

section Write

variable [DecidableEq ν] [DecidableEq α]

@[simp] theorem read_write_self (h : Heap ν α) (l : Loc ν α) (x : Option α) :
    (h.write l x).read l = x := by
  cases l <;> simp [write, read]

theorem read_write_of_ne (h : Heap ν α) {l m : Loc ν α} (hne : m ≠ l) (x : Option α) :
    (h.write l x).read m = h.read m := by
  cases l <;> cases m <;> simp_all [write, read, Function.update_of_ne]

@[simp] theorem write_var_next (h : Heap ν α) (v : ν) (x : Option α) :
    (h.write (.var v) x).next = h.next := rfl

@[simp] theorem write_next_vars (h : Heap ν α) (a : α) (x : Option α) :
    (h.write (.next a) x).vars = h.vars := rfl

end Write

/-! ## Chains -/

/-- Following `next` from the pointer `x` visits the nodes `xs` and then
reaches NULL. -/
def Chain (h : Heap ν α) : Option α → List α → Prop
  | x, [] => x = none
  | x, a :: xs => x = some a ∧ h.Chain (h.next a) xs

/-- The list stored at the link `l` is `xs`. -/
def IsList (h : Heap ν α) (l : Loc ν α) (xs : List α) : Prop :=
  h.Chain (h.read l) xs

theorem Chain.of_next {h h' : Heap ν α} {x : Option α} {xs : List α} (hc : h.Chain x xs)
    (hn : ∀ a ∈ xs, h'.next a = h.next a) : h'.Chain x xs := by
  induction xs generalizing x with
  | nil => exact hc
  | cons a xs ih =>
    obtain ⟨rfl, hc⟩ := hc
    refine ⟨rfl, ?_⟩
    rw [hn a List.mem_cons_self]
    exact ih hc fun b hb => hn b (List.mem_cons_of_mem a hb)

theorem Chain.write [DecidableEq ν] [DecidableEq α] {h : Heap ν α} {x : Option α} {xs : List α}
    (hc : h.Chain x xs) {m : Loc ν α} (hm : ∀ a ∈ xs, m ≠ .next a) (y : Option α) :
    (h.write m y).Chain x xs :=
  hc.of_next fun a ha => by simpa using h.read_write_of_ne (hm a ha).symm y

theorem Chain.unique {h : Heap ν α} {x : Option α} {xs ys : List α} (hx : h.Chain x xs)
    (hy : h.Chain x ys) : xs = ys := by
  induction xs generalizing x ys with
  | nil =>
    cases ys with
    | nil => rfl
    | cons b ys => exact absurd (hx.symm.trans hy.1) (by simp)
  | cons a xs ih =>
    cases ys with
    | nil => exact absurd (hx.1.symm.trans hy) (by simp)
    | cons b ys =>
      obtain ⟨rfl, hx⟩ := hx
      obtain ⟨hab, hy⟩ := hy
      obtain rfl : a = b := Option.some.inj hab
      rw [ih hx hy]

/-- `walk h n x`: the nodes from `x` on, or `none` if there are `n` or more. -/
def walk (h : Heap ν α) : ℕ → Option α → Option (List α)
  | 0, _ => none
  | _ + 1, none => some []
  | n + 1, some a => (h.walk n (h.next a)).map (a :: ·)

theorem Chain.walk {h : Heap ν α} {x : Option α} {xs : List α} (hc : h.Chain x xs) {n : ℕ}
    (hn : xs.length < n) : h.walk n x = some xs := by
  induction xs generalizing x n with
  | nil =>
    obtain rfl := hc
    obtain ⟨n, rfl⟩ : ∃ m, n = m + 1 := ⟨n - 1, by simp at hn; omega⟩
    rfl
  | cons a xs ih =>
    obtain ⟨rfl, hc⟩ := hc
    obtain ⟨n, rfl⟩ : ∃ m, n = m + 1 := ⟨n - 1, by simp at hn; omega⟩
    simp only [Heap.walk, ih hc (by simpa using hn), Option.map_some]

/-! ## Paths -/

/-- Following links from `l` passes the nodes `xs` and arrives at `l'`. -/
def Path (h : Heap ν α) : Loc ν α → List α → Loc ν α → Prop
  | l, [], l' => l = l'
  | l, a :: xs, l' => h.read l = some a ∧ h.Path (.next a) xs l'

def pathLocs : Loc ν α → List α → List (Loc ν α)
  | _, [] => []
  | l, a :: xs => l :: pathLocs (.next a) xs

theorem Path.write [DecidableEq ν] [DecidableEq α] {h : Heap ν α} {l l' : Loc ν α} {xs : List α}
    (hp : h.Path l xs l') {m : Loc ν α} (hm : m ∉ pathLocs l xs) (y : Option α) :
    (h.write m y).Path l xs l' := by
  induction xs generalizing l with
  | nil => exact hp
  | cons a xs ih =>
    simp only [pathLocs, List.mem_cons, not_or] at hm
    exact ⟨(h.read_write_of_ne (Ne.symm hm.1) y).trans hp.1, ih hp.2 hm.2⟩

theorem Path.snoc {h : Heap ν α} {l l' : Loc ν α} {xs : List α} (hp : h.Path l xs l') {a : α}
    (ha : h.read l' = some a) : h.Path l (xs ++ [a]) (.next a) := by
  induction xs generalizing l with
  | nil =>
    obtain rfl := hp
    exact ⟨ha, rfl⟩
  | cons b xs ih => exact ⟨hp.1, ih hp.2⟩

theorem Path.isList {h : Heap ν α} {l l' : Loc ν α} {xs : List α} (hp : h.Path l xs l')
    (hnull : h.read l' = none) : h.IsList l xs := by
  induction xs generalizing l with
  | nil =>
    obtain rfl := hp
    exact hnull
  | cons a xs ih => exact ⟨hp.1, ih hp.2⟩

theorem Path.end_mem {h : Heap ν α} {l l' : Loc ν α} {xs : List α} (hp : h.Path l xs l') :
    l' = l ∨ ∃ a ∈ xs, l' = .next a := by
  induction xs generalizing l with
  | nil => exact .inl hp.symm
  | cons a xs ih =>
    rcases ih hp.2 with h' | ⟨b, hb, h'⟩
    · exact .inr ⟨a, List.mem_cons_self, h'⟩
    · exact .inr ⟨b, List.mem_cons_of_mem a hb, h'⟩

theorem mem_pathLocs {l m : Loc ν α} {xs : List α} (hm : m ∈ pathLocs l xs) :
    m = l ∨ ∃ a ∈ xs, m = .next a := by
  induction xs generalizing l with
  | nil => simp [pathLocs] at hm
  | cons a xs ih =>
    rcases List.mem_cons.mp hm with rfl | hm
    · exact .inl rfl
    · rcases ih hm with rfl | ⟨b, hb, rfl⟩
      · exact .inr ⟨a, List.mem_cons_self, rfl⟩
      · exact .inr ⟨b, List.mem_cons_of_mem a hb, rfl⟩

theorem Path.end_not_mem_pathLocs {h : Heap ν α} {l l' : Loc ν α} {xs : List α}
    (hp : h.Path l xs l') (hnd : xs.Nodup) (hl : ∀ a ∈ xs, l ≠ .next a) :
    l' ∉ pathLocs l xs := by
  induction xs generalizing l with
  | nil => simp [pathLocs]
  | cons a xs ih =>
    simp only [pathLocs, List.mem_cons, not_or]
    have hnd' := List.nodup_cons.mp hnd
    refine ⟨fun hend => ?_, ih hp.2 hnd'.2 fun b hb hab => hnd'.1 ?_⟩
    · -- the end is `l` itself only if the path is empty
      rcases hp.2.end_mem with h' | ⟨b, _, h'⟩
      · exact hl a List.mem_cons_self (hend ▸ h')
      · exact hl b (List.mem_cons_of_mem a ‹_›) (hend ▸ h')
    · rw [Loc.next.inj hab]
      exact hb

theorem not_mem_pathLocs {l m : Loc ν α} {xs : List α} (hl : m ≠ l) (hm : ∀ a ∈ xs, m ≠ .next a) :
    m ∉ pathLocs l xs := fun hmem => by
  rcases mem_pathLocs hmem with h' | ⟨a, ha, h'⟩
  · exact hl h'
  · exact hm a ha h'

theorem Path.end_ne {h : Heap ν α} {l l' : Loc ν α} {xs : List α} (hp : h.Path l xs l')
    {m : Loc ν α} (hl : m ≠ l) (hm : ∀ a ∈ xs, m ≠ .next a) : l' ≠ m := by
  rcases hp.end_mem with rfl | ⟨a, ha, rfl⟩
  · exact Ne.symm hl
  · exact Ne.symm (hm a ha)

theorem IsList.path_last {h : Heap ν α} {l : Loc ν α} {xs : List α} {a : α}
    (hl : h.IsList l (xs ++ [a])) : h.Path l (xs ++ [a]) (.next a) ∧ h.next a = none := by
  induction xs generalizing l with
  | nil => exact ⟨⟨hl.1, rfl⟩, hl.2⟩
  | cons b xs ih =>
    obtain ⟨hp, hnull⟩ := ih (show h.IsList (.next b) (xs ++ [a]) from hl.2)
    exact ⟨⟨hl.1, hp⟩, hnull⟩

theorem Path.isList_write_end [DecidableEq ν] [DecidableEq α] {h : Heap ν α} {l l' : Loc ν α}
    {xs : List α} (hp : h.Path l xs l') (hnd : xs.Nodup) (hl : ∀ a ∈ xs, l ≠ .next a) {b : α}
    (hb : b ∉ xs) (hbl : l ≠ .next b) :
    ((h.write l' (some b)).write (.next b) none).IsList l (xs ++ [b]) := by
  have hbxs : ∀ a ∈ xs, (Loc.next b : Loc ν α) ≠ .next a := fun a ha h' =>
    hb (Loc.next.inj h' ▸ ha)
  have hend : l' ∉ pathLocs l xs := hp.end_not_mem_pathLocs hnd hl
  have hnext : (Loc.next b : Loc ν α) ∉ pathLocs l xs := not_mem_pathLocs (Ne.symm hbl) hbxs
  refine (((hp.write hend _).write hnext _).snoc ?_).isList (read_write_self _ _ _)
  rw [read_write_of_ne _ (hp.end_ne (Ne.symm hbl) hbxs), read_write_self]

end Heap

end LinkHeap
