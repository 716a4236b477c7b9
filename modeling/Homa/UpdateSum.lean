import Mathlib.Algebra.BigOperators.Group.Finset.Basic
import Mathlib.Algebra.BigOperators.Group.List.Basic
import Mathlib.Tactic.Abel

/-!
# Sums over a table updated at one key

A counter kept beside a table of records (a total of bytes, of buffers, of
memory) is checked against the sum of one quantity `g` over a set or a list
of keys.  When one record changes, that sum moves by the change of `g` at
that key, if the key is counted, and not at all otherwise.
-/

namespace UpdateSum

variable {ι α M : Type*} [DecidableEq ι] [AddCommGroup M]

theorem finset_sum_update {S : Finset ι} {i : ι} (hi : i ∈ S) (f : ι → α) (v : α) (g : α → M) :
    ∑ j ∈ S, g (Function.update f i v j) = ∑ j ∈ S, g (f j) + (g v - g (f i)) := by
  rw [← Finset.add_sum_erase S _ hi, ← Finset.add_sum_erase S _ hi, Function.update_self]
  have hrest : ∑ j ∈ S.erase i, g (Function.update f i v j) = ∑ j ∈ S.erase i, g (f j) :=
    Finset.sum_congr rfl fun j hj => by rw [Function.update_of_ne (Finset.ne_of_mem_erase hj)]
  rw [hrest]
  abel

theorem list_sum_update_of_notMem {l : List ι} {i : ι} (hi : i ∉ l) (f : ι → α) (v : α)
    (g : α → M) :
    (l.map fun j => g (Function.update f i v j)).sum = (l.map fun j => g (f j)).sum := by
  rw [List.map_congr_left fun j hj => by rw [Function.update_of_ne (ne_of_mem_of_not_mem hj hi)]]

theorem list_sum_update {l : List ι} (hl : l.Nodup) {i : ι} (hi : i ∈ l) (f : ι → α) (v : α)
    (g : α → M) :
    (l.map fun j => g (Function.update f i v j)).sum =
      (l.map fun j => g (f j)).sum + (g v - g (f i)) := by
  rw [← List.sum_map_erase _ hi, ← List.sum_map_erase _ hi, Function.update_self,
    list_sum_update_of_notMem (hl.not_mem_erase) f v g]
  abel

end UpdateSum
