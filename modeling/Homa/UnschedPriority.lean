import Homa.Pool

/-!
# Priorities of unscheduled packets

`homa_unsched_priority` scans `peer->unsched_cutoffs` down from slot
`num_priorities - 1` and returns the first slot whose cutoff admits the
message, with no lower bound on the loop.  A CUTOFFS packet sets slot `0`
to `INT_MAX`; the cutoffs `homa_peer_alloc` sets have `INT_MAX` only in slot
`HOMA_MAX_PRIORITIES - 2`.  A scan result is `.ok i` for the slot returned,
or `.error i` for the first index read outside the array.
-/

namespace Homa

open MachineArith

/-- `HOMA_MAX_PRIORITIES`: the size of `unsched_cutoffs`. -/
def homaMaxPriorities : ℕ := 8

/-- `peer->unsched_cutoffs` as `homa_peer_alloc` leaves it: zeroed by
`kzalloc`, slot `HOMA_MAX_PRIORITIES - 1` set to 0 and slot
`HOMA_MAX_PRIORITIES - 2` to `INT_MAX`. -/
def homaPeerAllocCutoffs : Fin homaMaxPriorities → ℤ :=
  fun i => if i.val = homaMaxPriorities - 2 then intMax else 0

/-- `peer->unsched_cutoffs` after `homa_cutoffs_pkt`: slot 0 is `INT_MAX`
and the others are the packet's `ntohl(h->unsched_cutoffs[i])` as `int`. -/
def homaCutoffsPkt (wire : Fin homaMaxPriorities → UInt32) : Fin homaMaxPriorities → ℤ :=
  fun i => if i.val = 0 then intMax else wrapInt 32 (wire i).toNat

/-- The loop of `homa_unsched_priority` from slot `n - 1` down. -/
def unschedPriorityScan (cutoffs : Fin homaMaxPriorities → ℤ) (length : ℤ) : ℕ → Except ℤ ℕ
  | 0 => .error (-1)
  | i + 1 =>
      if h : i < homaMaxPriorities then
        if cutoffs ⟨i, h⟩ ≥ length then .ok i else unschedPriorityScan cutoffs length i
      else .error i

/-- `homa_unsched_priority(homa, peer, length)` with
`homa->num_priorities = numPriorities`. -/
def homaUnschedPriority (numPriorities : ℤ) (cutoffs : Fin homaMaxPriorities → ℤ)
    (length : ℤ) : Except ℤ ℕ :=
  if numPriorities ≤ 0 then .error (numPriorities - 1)
  else unschedPriorityScan cutoffs length numPriorities.toNat

section Scan

variable {cutoffs : Fin homaMaxPriorities → ℤ} {length : ℤ}

theorem unschedPriorityScan_of_lt {n : ℕ} (hn : n ≤ homaMaxPriorities)
    (hlt : ∀ j : Fin homaMaxPriorities, j.val < n → cutoffs j < length) :
    unschedPriorityScan cutoffs length n = .error (-1) := by
  induction n with
  | zero => rfl
  | succ i ih =>
    have hi : i < homaMaxPriorities := by omega
    have hcut : ¬ cutoffs ⟨i, hi⟩ ≥ length := not_le.mpr (hlt ⟨i, hi⟩ (by simp))
    simp only [unschedPriorityScan, dif_pos hi, if_neg hcut]
    exact ih (by omega) fun j hj => hlt j (by omega)

theorem unschedPriorityScan_spec {n : ℕ} (hn : n ≤ homaMaxPriorities)
    (hex : ∃ j : Fin homaMaxPriorities, j.val < n ∧ length ≤ cutoffs j) :
    ∃ i : Fin homaMaxPriorities, i.val < n ∧
      unschedPriorityScan cutoffs length n = .ok i.val ∧ length ≤ cutoffs i ∧
        ∀ j : Fin homaMaxPriorities, i.val < j.val → j.val < n → cutoffs j < length := by
  induction n with
  | zero =>
    obtain ⟨j, hj, -⟩ := hex
    omega
  | succ k ih =>
    have hk : k < homaMaxPriorities := by omega
    by_cases hcut : length ≤ cutoffs ⟨k, hk⟩
    · -- slot `k` is the first one read
      refine ⟨⟨k, hk⟩, by simp, ?_, hcut, fun j hkj hjn => by change k < j.val at hkj; omega⟩
      simp only [unschedPriorityScan, dif_pos hk, ge_iff_le, if_pos hcut]
    · -- slot `k` does not admit the length, so the admitting slot is below it
      have hex' : ∃ j : Fin homaMaxPriorities, j.val < k ∧ length ≤ cutoffs j := by
        obtain ⟨j, hj, hjc⟩ := hex
        refine ⟨j, ?_, hjc⟩
        by_contra hjk
        have hjeq : j = ⟨k, hk⟩ := Fin.ext (show j.val = k by omega)
        exact hcut (hjeq ▸ hjc)
      obtain ⟨i, hik, hscan, hic, habove⟩ := ih (by omega) hex'
      refine ⟨i, by omega, ?_, hic, fun j hij hjn => ?_⟩
      · simp only [unschedPriorityScan, dif_pos hk, ge_iff_le, if_neg hcut]
        exact hscan
      · by_cases hjk : j.val = k
        · have hjeq : j = ⟨k, hk⟩ := Fin.ext hjk
          rw [hjeq]
          exact not_le.mp hcut
        · exact habove j hij (by omega)

end Scan

/-- After a CUTOFFS packet, for every number of priority levels the sysctl
allows and every length an `int` holds, the scan reads only slots below
`num_priorities` and returns the largest slot whose cutoff admits the
length. -/
theorem homaUnschedPriority_cutoffsPkt (wire : Fin homaMaxPriorities → UInt32)
    {numPriorities length : ℤ} (hlo : 1 ≤ numPriorities)
    (hhi : numPriorities ≤ homaMaxPriorities) (hlen : length ≤ intMax) :
    ∃ i : Fin homaMaxPriorities, (i.val : ℤ) < numPriorities ∧
      homaUnschedPriority numPriorities (homaCutoffsPkt wire) length = .ok i.val ∧
      length ≤ homaCutoffsPkt wire i ∧
      ∀ j : Fin homaMaxPriorities, i.val < j.val → (j.val : ℤ) < numPriorities →
        homaCutoffsPkt wire j < length := by
  have hn : numPriorities.toNat ≤ homaMaxPriorities := by omega
  -- slot 0 holds `INT_MAX`, which admits every length
  have hex : ∃ j : Fin homaMaxPriorities, j.val < numPriorities.toNat ∧
      length ≤ homaCutoffsPkt wire j :=
    ⟨⟨0, by decide⟩, show 0 < numPriorities.toNat by omega, by simpa [homaCutoffsPkt] using hlen⟩
  obtain ⟨i, hin, hscan, hic, habove⟩ := unschedPriorityScan_spec hn hex
  refine ⟨i, by omega, ?_, hic, fun j hij hjn => habove j hij (by omega)⟩
  rw [homaUnschedPriority, if_neg (by omega)]
  exact hscan

/-- Cutoffs for eight levels, falling from slot 1 on. -/
def eightLevelCutoffs (i : Fin homaMaxPriorities) : UInt32 :=
  [0, 8000, 4000, 2000, 1000, 500, 200, 100].getD i.val 0

theorem homaUnschedPriority_cutoffsPkt_eightLevels :
    (1 : ℤ) ≤ 8 ∧ (8 : ℤ) ≤ homaMaxPriorities ∧ (1000 : ℤ) ≤ intMax ∧
      ∃ i : Fin homaMaxPriorities, (i.val : ℤ) < 8 ∧
        homaUnschedPriority 8 (homaCutoffsPkt eightLevelCutoffs) 1000 = .ok i.val ∧
        1000 ≤ homaCutoffsPkt eightLevelCutoffs i ∧
        ∀ j : Fin homaMaxPriorities, i.val < j.val → (j.val : ℤ) < 8 →
          homaCutoffsPkt eightLevelCutoffs j < 1000 :=
  ⟨by norm_num, by norm_num [homaMaxPriorities], by norm_num [intMax],
    homaUnschedPriority_cutoffsPkt eightLevelCutoffs (by norm_num)
      (by norm_num [homaMaxPriorities]) (by norm_num [intMax])⟩

theorem homaUnschedPriority_peerAlloc {numPriorities length : ℤ} (hlo : 1 ≤ numPriorities)
    (hhi : numPriorities ≤ homaMaxPriorities - 2) (hlen : 1 ≤ length) :
    homaUnschedPriority numPriorities homaPeerAllocCutoffs length = .error (-1) := by
  rw [homaUnschedPriority, if_neg (by omega)]
  apply unschedPriorityScan_of_lt (by omega)
  intro j hj
  -- the slots the scan reads are all zeroed
  have hslot : j.val ≠ homaMaxPriorities - 2 := by
    simp only [homaMaxPriorities] at hhi ⊢
    omega
  simp only [homaPeerAllocCutoffs, if_neg hslot]
  omega

/-- With one priority level, the first 1000-byte message to a new peer reads
`unsched_cutoffs[-1]`. -/
theorem homaUnschedPriority_fresh_peer_out_of_bounds :
    homaUnschedPriority 1 homaPeerAllocCutoffs 1000 = .error (-1) :=
  homaUnschedPriority_peerAlloc le_rfl (by simp [homaMaxPriorities]) (by norm_num)

end Homa
