import Homa.Grant

/-!
# `homa_grant_fix_order` sorts `active_rpcs`

`homa_grant_fix_order` is an insertion sort of `active_rpcs` by
`homa_grant_outranks`, each swap writing the ranks of the two RPCs it
exchanges.  It sorts by key (fewer ungranted bytes, then the older) while
every active RPC has between 0 and `2^31 - 1` ungranted bytes, so that the
`int` difference of two counts does not wrap (`outranks_iff_grantKey`); each
pass keeps `FixInv`.  With counts further apart `homa_grant_outranks` can go
round in a cycle.
-/

namespace Homa

open MachineArith SortedList

/-- `msgin.length - msgin.granted`: the bytes still to grant. -/
def GrantRpc.ungranted (rpc : GrantRpc) : ℤ := rpc.length - rpc.granted

namespace GrantSys

/-- The order `homa_grant_outranks` is meant to follow: fewer ungranted
bytes first, then the older RPC. -/
def grantKey (s : GrantSys) (id : ℕ) : Lex (ℤ × ℕ) :=
  toLex ((s.rpcs id).ungranted, (s.rpcs id).birth)

/-- The ungranted bytes of the RPC fit in an `int` with room to subtract
another such count. -/
def UngrantedInRange (s : GrantSys) (id : ℕ) : Prop :=
  0 ≤ (s.rpcs id).ungranted ∧ (s.rpcs id).ungranted < 2 ^ 31

instance (s : GrantSys) (id : ℕ) : Decidable (s.UngrantedInRange id) :=
  inferInstanceAs (Decidable (_ ∧ _))

theorem outranks_iff_grantKey {s : GrantSys} {a b : ℕ} (ha : s.UngrantedInRange a)
    (hb : s.UngrantedInRange b) : s.outranks a b = true ↔ s.grantKey a < s.grantKey b := by
  obtain ⟨ha0, ha1⟩ := ha
  obtain ⟨hb0, hb1⟩ := hb
  simp only [GrantRpc.ungranted] at ha0 ha1 hb0 hb1
  -- both counts and their difference lie in `int`, so no `wrapInt` changes them
  have hdiff : wrapInt 32 (wrapInt 32 ((s.rpcs a).length - (s.rpcs a).granted) -
      wrapInt 32 ((s.rpcs b).length - (s.rpcs b).granted)) =
        (s.rpcs a).ungranted - (s.rpcs b).ungranted := by
    rw [wrapInt_32_of_mem (by omega) ha1, wrapInt_32_of_mem (by omega) hb1,
      wrapInt_32_of_mem (by omega) (by omega)]
    rfl
  simp only [outranks, homaGrantOutranks, hdiff, grantKey, Prod.Lex.toLex_lt_toLex,
    GrantRpc.ungranted, Bool.or_eq_true, Bool.and_eq_true, decide_eq_true_eq, beq_iff_eq]
  omega

variable {s s' : GrantSys}

theorem RanksOnly.birth (h : s.RanksOnly s') (id : ℕ) : (s'.rpcs id).birth = (s.rpcs id).birth := by
  have hb := congrArg GrantRpc.birth (h id)
  exact hb

theorem RanksOnly.grantKey (h : s.RanksOnly s') : s'.grantKey = s.grantKey := by
  funext id
  simp only [GrantSys.grantKey, GrantRpc.ungranted, h.length id, h.granted id, h.birth id]

theorem RanksOnly.ungrantedInRange (h : s.RanksOnly s') (id : ℕ) :
    s'.UngrantedInRange id ↔ s.UngrantedInRange id := by
  simp only [UngrantedInRange, GrantRpc.ungranted, h.length id, h.granted id]

theorem rank_setRank (s : GrantSys) (id x : ℕ) (r : ℤ) :
    ((s.setRank id r).rpcs x).rank = if x = id then r else (s.rpcs x).rank := by
  by_cases hx : x = id
  · subst hx
    simp [setRank, setRpc]
  · simp [setRank, setRpc, hx]

end GrantSys

/-! ## Renumbering -/

@[simp] theorem renumber_grant (lo n : ℕ) (s : GrantSys) : (renumber lo n s).grant = s.grant := by
  induction n with
  | zero => rfl
  | succ n ih => simp [renumber, GrantSys.setRank, GrantSys.setRpc, ih]

theorem rank_renumber_of_forall_ne {lo n id : ℕ} {s : GrantSys}
    (h : ∀ k < n, s.grant.activeRpcs.getD (lo + k) 0 ≠ id) :
    ((renumber lo n s).rpcs id).rank = (s.rpcs id).rank := by
  induction n with
  | zero => rfl
  | succ n ih =>
    simp only [renumber, GrantSys.rank_setRank, renumber_grant]
    rw [if_neg (Ne.symm (h n (Nat.lt_succ_self n))), ih fun k hk => h k (by omega)]

theorem rank_renumber_slot {lo n k : ℕ} {s : GrantSys} (hnd : s.grant.activeRpcs.Nodup)
    (hlen : lo + n ≤ s.grant.activeRpcs.length) (hk : k < n) :
    ((renumber lo n s).rpcs (s.grant.activeRpcs.getD (lo + k) 0)).rank = (lo + k : ℕ) := by
  induction n with
  | zero => omega
  | succ n ih =>
    simp only [renumber, GrantSys.rank_setRank, renumber_grant]
    by_cases hkn : k = n
    · subst hkn
      simp
    · -- the last slot renumbered holds another RPC
      have hne := getD_ne_getD_of_nodup hnd (show lo + k < s.grant.activeRpcs.length by omega)
        (show lo + n < s.grant.activeRpcs.length by omega) (by omega) 0
      rw [if_neg hne]
      exact ih (by omega) (by omega)

/-! ## One pass -/

namespace GrantSys

/-- The slot the RPC in slot `i` reaches in the pass over slot `i`. -/
def fixOrderSlot (s : GrantSys) (i : ℕ) : ℕ :=
  (moveUp s.outranks (s.grant.activeRpcs.getD i 0) (s.grant.activeRpcs.take i).reverse []).1.length

theorem fixOrderSlot_le (s : GrantSys) (i : ℕ) : s.fixOrderSlot i ≤ i :=
  (moveUp_fst_length_le _ _ _ _).trans (by simp)

theorem place_fixOrderSlot (s : GrantSys) (i : ℕ) :
    place (moveUp s.outranks (s.grant.activeRpcs.getD i 0) (s.grant.activeRpcs.take i).reverse [])
        (s.grant.activeRpcs.getD i 0) =
      s.grant.activeRpcs.take (s.fixOrderSlot i) ++
        s.grant.activeRpcs.getD i 0 :: (s.grant.activeRpcs.take i).drop (s.fixOrderSlot i) := by
  obtain ⟨hpre, hpost⟩ := moveUp_reverse_nil s.outranks (s.grant.activeRpcs.getD i 0)
    (s.grant.activeRpcs.take i)
  have hle := s.fixOrderSlot_le i
  unfold fixOrderSlot at hle ⊢
  rw [place, hpre, hpost, List.take_take, Nat.min_eq_left hle]

end GrantSys

variable {s : GrantSys} {i : ℕ}

theorem homaGrantFixOrderStep_of_lt (r : ℤ) (h : s.fixOrderSlot i < i) :
    homaGrantFixOrderStep (s, r) i =
      (renumber (s.fixOrderSlot i) (i + 1 - s.fixOrderSlot i)
          (s.setActive (moveForward s.grant.activeRpcs (s.fixOrderSlot i) i
            (s.grant.activeRpcs.getD i 0))),
        if (s.fixOrderSlot i : ℤ) < r then (s.fixOrderSlot i : ℤ) else r) := by
  have hplace := s.place_fixOrderSlot i
  unfold GrantSys.fixOrderSlot at h hplace
  simp only [homaGrantFixOrderStep, if_pos h, hplace, moveForward, List.append_assoc,
    List.cons_append]
  rfl

theorem homaGrantFixOrderStep_of_not_lt (r : ℤ) (h : ¬s.fixOrderSlot i < i) :
    homaGrantFixOrderStep (s, r) i = (s, r) := by
  unfold GrantSys.fixOrderSlot at h
  simp only [homaGrantFixOrderStep, if_neg h]

theorem homaGrantFixOrderStep_active (r : ℤ) (hi : i < s.grant.activeRpcs.length) :
    (homaGrantFixOrderStep (s, r) i).1.grant.activeRpcs =
      moveForward s.grant.activeRpcs (s.fixOrderSlot i) i (s.grant.activeRpcs.getD i 0) := by
  by_cases h : s.fixOrderSlot i < i
  · rw [homaGrantFixOrderStep_of_lt r h, renumber_grant]
    rfl
  · have hj : s.fixOrderSlot i = i := le_antisymm (s.fixOrderSlot_le i) (not_lt.mp h)
    rw [homaGrantFixOrderStep_of_not_lt r h, hj, List.getD_eq_getElem _ _ hi, moveForward_self _ hi]

theorem homaGrantFixOrderStep_sorted (r : ℤ) (hi : i < s.grant.activeRpcs.length)
    (hrange : ∀ id ∈ s.grant.activeRpcs, s.UngrantedInRange id)
    (hs : Sorted s.grantKey (s.grant.activeRpcs.take i)) :
    Sorted s.grantKey ((homaGrantFixOrderStep (s, r) i).1.grant.activeRpcs.take (i + 1)) := by
  have hx : s.grant.activeRpcs.getD i 0 ∈ s.grant.activeRpcs := by
    rw [List.getD_eq_getElem _ _ hi]
    exact List.getElem_mem hi
  -- the RPC is compared only with those in front of it, all in range
  have hr : ∀ o ∈ (s.grant.activeRpcs.take i).reverse,
      s.outranks (s.grant.activeRpcs.getD i 0) o = true ↔
        s.grantKey (s.grant.activeRpcs.getD i 0) < s.grantKey o := fun o ho =>
    GrantSys.outranks_iff_grantKey (hrange _ hx)
      (hrange o (List.mem_of_mem_take (List.mem_reverse.mp ho)))
  have hsorted := sorted_place_moveUp_of_mem (s.grant.activeRpcs.getD i 0) hr
    (show Sorted s.grantKey ((s.grant.activeRpcs.take i).reverse.reverse ++ []) by simpa using hs)
    (fun b hb => absurd hb List.not_mem_nil)
  rw [homaGrantFixOrderStep_active r hi, moveForward_take_succ _ _ (s.fixOrderSlot_le i) hi,
    ← s.place_fixOrderSlot i]
  exact hsorted

theorem homaGrantFixOrderStep_rank (r : ℤ) (hi : i < s.grant.activeRpcs.length)
    (hnd : s.grant.activeRpcs.Nodup)
    (hrank : ∀ k < s.grant.activeRpcs.length, (s.rpcs (s.grant.activeRpcs.getD k 0)).rank = k)
    {k : ℕ} (hk : k < s.grant.activeRpcs.length) :
    ((homaGrantFixOrderStep (s, r) i).1.rpcs
      ((homaGrantFixOrderStep (s, r) i).1.grant.activeRpcs.getD k 0)).rank = k := by
  by_cases hji : s.fixOrderSlot i < i
  swap
  · rw [homaGrantFixOrderStep_of_not_lt r hji]
    exact hrank k hk
  have hle := s.fixOrderSlot_le i
  rw [homaGrantFixOrderStep_of_lt r hji, renumber_grant]
  set j := s.fixOrderSlot i
  set A := s.grant.activeRpcs
  set A' := moveForward A j i (A.getD i 0) with hA'
  have hperm : A'.Perm A := by
    rw [hA', List.getD_eq_getElem _ _ hi]
    exact moveForward_perm A hle hi
  have hnd' : A'.Nodup := hperm.nodup_iff.mpr hnd
  have hlen' : A'.length = A.length := hperm.length_eq
  show ((renumber j (i + 1 - j) (s.setActive A')).rpcs (A'.getD k 0)).rank = k
  by_cases hkj : j ≤ k ∧ k ≤ i
  · -- slot `k` is one of those the swaps renumbered
    have hslot := @rank_renumber_slot j (i + 1 - j) (k - j) (s.setActive A') hnd'
      (by simp only [GrantSys.setActive]; omega) (by omega)
    rw [show j + (k - j) = k by omega] at hslot
    exact hslot
  · -- the RPC in slot `k` did not move, and the renumbering passed it by
    have hkeep : A'.getD k 0 = A.getD k 0 := by
      rcases (by omega : k < j ∨ i < k) with h | h
      · exact moveForward_getD_of_lt A _ 0 h hle hi
      · exact moveForward_getD_of_gt A _ 0 h hle hi
    have hne : ∀ k' < i + 1 - j, (s.setActive A').grant.activeRpcs.getD (j + k') 0 ≠ A'.getD k 0 :=
      fun k' hk' => getD_ne_getD_of_nodup hnd' (by omega) (by omega) (by omega) 0
    rw [rank_renumber_of_forall_ne hne, hkeep]
    exact hrank k hk

/-- `result` is what `homa_grant_fix_order` returns when its passes have
turned `A` into `A'`: `INT_MAX` if nothing moved, else the first slot that
changed, which holds an RPC promoted from a slot behind it. -/
def FirstPromoted (A A' : List ℕ) (result : ℤ) : Prop :=
  (A' = A ∧ result = intMax) ∨
    ∃ m : ℕ, result = m ∧ A'.take m = A.take m ∧ A'.getD m 0 ∈ A.drop (m + 1)

theorem homaGrantFixOrderStep_result {A₀ : List ℕ} (r : ℤ) (hi : i < s.grant.activeRpcs.length)
    (hlen : (s.grant.activeRpcs.length : ℤ) ≤ intMax)
    (hdrop : s.grant.activeRpcs.drop i = A₀.drop i) (h : FirstPromoted A₀ s.grant.activeRpcs r) :
    FirstPromoted A₀ (homaGrantFixOrderStep (s, r) i).1.grant.activeRpcs
      (homaGrantFixOrderStep (s, r) i).2 := by
  by_cases hji : s.fixOrderSlot i < i
  swap
  · rw [homaGrantFixOrderStep_of_not_lt r hji]
    exact h
  have hle := s.fixOrderSlot_le i
  have hactive := homaGrantFixOrderStep_active (s := s) r hi
  rw [homaGrantFixOrderStep_of_lt r hji] at hactive ⊢
  rw [hactive]
  set j := s.fixOrderSlot i
  set A := s.grant.activeRpcs
  -- the RPC that moved came from slot `i`, which is as it was in `A₀`
  have hi₀ : i < A₀.length := by
    have hl := congrArg List.length hdrop
    simp only [List.length_drop] at hl
    omega
  have hx : A.getD i 0 ∈ A₀.drop (j + 1) := by
    have hhead := congrArg (fun l => l.getD 0 0) hdrop
    simp only [List.getD_eq_getElem?_getD, List.getElem?_drop, Nat.add_zero] at hhead
    rw [List.getD_eq_getElem?_getD, hhead, ← List.getD_eq_getElem?_getD]
    exact getD_mem_drop (by omega) hi₀ 0
  rcases h with ⟨hA, hr⟩ | ⟨m, hr, htake, hm⟩
  · -- nothing had moved: this move sets the result
    refine .inr ⟨j, ?_, ?_, ?_⟩
    · rw [hr, if_pos (by omega)]
    · rw [moveForward_take _ _ hle hi, hA]
    · rw [moveForward_getD_self _ _ _ hle hi]
      exact hx
  · by_cases hjm : j < m
    · -- this move reached further forward than the earlier ones
      refine .inr ⟨j, by rw [hr, if_pos (by omega)], ?_, ?_⟩
      · calc (moveForward A j i (A.getD i 0)).take j = (A.take m).take j := by
              rw [moveForward_take _ _ hle hi, List.take_take, Nat.min_eq_left hjm.le]
          _ = A₀.take j := by rw [htake, List.take_take, Nat.min_eq_left hjm.le]
      · rw [moveForward_getD_self _ _ _ hle hi]
        exact hx
    · refine .inr ⟨m, by rw [hr, if_neg (by omega)], ?_, ?_⟩
      · calc (moveForward A j i (A.getD i 0)).take m
            = ((moveForward A j i (A.getD i 0)).take j).take m := by
              rw [List.take_take, Nat.min_eq_left (by omega)]
          _ = A.take m := by rw [moveForward_take _ _ hle hi, List.take_take, Nat.min_eq_left (by omega)]
          _ = A₀.take m := htake
      · rcases Nat.lt_or_ge m j with hmj | hmj
        · rw [moveForward_getD_of_lt _ _ _ hmj hle hi]
          exact hm
        · obtain rfl : m = j := by omega
          rw [moveForward_getD_self _ _ _ hle hi]
          exact hx

/-! ## The whole sort -/

/-- What `homa_grant_fix_order` is to achieve, from `s` to `s'` returning
`result`: the same RPCs, none behind an RPC it outranks, each ranked by its
slot, and `result` the first slot that received a promoted RPC. -/
structure Repaired (s s' : GrantSys) (result : ℤ) : Prop where
  perm : s'.grant.activeRpcs.Perm s.grant.activeRpcs
  ordered : s'.grant.activeRpcs.Pairwise fun a b => s'.outranks b a = false
  ranked : ∀ k < s'.grant.activeRpcs.length, (s'.rpcs (s'.grant.activeRpcs.getD k 0)).rank = k
  promoted : FirstPromoted s.grant.activeRpcs s'.grant.activeRpcs result

theorem GrantSys.ordered_of_sorted {s : GrantSys} {l : List ℕ}
    (hrange : ∀ id ∈ l, s.UngrantedInRange id) (h : Sorted s.grantKey l) :
    l.Pairwise fun a b => s.outranks b a = false :=
  List.Pairwise.imp_of_mem (fun ha hb hab => Bool.eq_false_iff.mpr fun hba =>
    not_lt.mpr hab ((GrantSys.outranks_iff_grantKey (hrange _ hb) (hrange _ ha)).mp hba)) h

/-- What the passes over slots `1 .. i - 1` of `homa_grant_fix_order` leave:
the slots in front of `i` sorted by key and ranked, the rest untouched. -/
structure FixInv (s₀ : GrantSys) (i : ℕ) (st : GrantSys × ℤ) : Prop where
  ranksOnly : s₀.RanksOnly st.1
  perm : st.1.grant.activeRpcs.Perm s₀.grant.activeRpcs
  drop_eq : st.1.grant.activeRpcs.drop i = s₀.grant.activeRpcs.drop i
  sorted : Sorted s₀.grantKey (st.1.grant.activeRpcs.take i)
  rank : ∀ k < s₀.grant.activeRpcs.length, (st.1.rpcs (st.1.grant.activeRpcs.getD k 0)).rank = k
  result : FirstPromoted s₀.grant.activeRpcs st.1.grant.activeRpcs st.2

/-- `active_rpcs` as the grant code keeps it: no RPC twice, at most
`HOMA_MAX_GRANTS` slots, and each RPC ranked by its slot. -/
structure GrantSys.ActiveWf (s : GrantSys) : Prop where
  nodup : s.grant.activeRpcs.Nodup
  length_le : (s.grant.activeRpcs.length : ℤ) ≤ homaMaxGrants
  ranked : ∀ k < s.grant.activeRpcs.length, (s.rpcs (s.grant.activeRpcs.getD k 0)).rank = k

section FixOrder

variable {s₀ : GrantSys} (hwf : s₀.ActiveWf)
  (hrange : ∀ id ∈ s₀.grant.activeRpcs, s₀.UngrantedInRange id)

include hwf in
theorem FixInv.start : FixInv s₀ 1 (s₀, intMax) where
  ranksOnly := .rfl
  perm := .refl _
  drop_eq := rfl
  sorted := by
    -- at most one RPC is in front of slot 1
    rcases s₀.grant.activeRpcs with _ | ⟨a, l⟩ <;> simp [Sorted]
  rank := hwf.ranked
  result := .inl ⟨rfl, rfl⟩

include hwf hrange in
theorem FixInv.step {i : ℕ} {st : GrantSys × ℤ} (hinv : FixInv s₀ i st)
    (hi : i < s₀.grant.activeRpcs.length) : FixInv s₀ (i + 1) (homaGrantFixOrderStep st i) := by
  obtain ⟨s, r⟩ := st
  have hlenA : s.grant.activeRpcs.length = s₀.grant.activeRpcs.length := hinv.perm.length_eq
  have hiA : i < s.grant.activeRpcs.length := hlenA ▸ hi
  have hkey : s.grantKey = s₀.grantKey := hinv.ranksOnly.grantKey
  have hrangeA : ∀ id ∈ s.grant.activeRpcs, s.UngrantedInRange id := fun id hid =>
    (hinv.ranksOnly.ungrantedInRange id).mpr (hrange id (hinv.perm.subset hid))
  have hactive := homaGrantFixOrderStep_active (s := s) r hiA
  refine ⟨hinv.ranksOnly.trans (ranksOnly_listFrame.fixOrderStep (s, r) i), ?_, ?_, ?_, ?_, ?_⟩
  · rw [hactive, List.getD_eq_getElem _ _ hiA]
    exact (moveForward_perm _ (s.fixOrderSlot_le i) hiA).trans hinv.perm
  · rw [hactive, moveForward_drop_succ _ _ (s.fixOrderSlot_le i) hiA, ← List.drop_drop,
      hinv.drop_eq, List.drop_drop]
  · rw [← hkey]
    exact homaGrantFixOrderStep_sorted r hiA hrangeA (hkey ▸ hinv.sorted)
  · intro k hk
    exact homaGrantFixOrderStep_rank r hiA (hinv.perm.nodup_iff.mpr hwf.nodup)
      (hlenA ▸ hinv.rank) (hlenA ▸ hk)
  · have hmax : homaMaxGrants ≤ intMax := by decide
    exact homaGrantFixOrderStep_result r hiA (hlenA ▸ hwf.length_le.trans hmax) hinv.drop_eq
      hinv.result

include hwf hrange in
theorem FixInv.foldl (m : ℕ) :
    ∀ {i : ℕ} {st : GrantSys × ℤ}, FixInv s₀ i st → i + m ≤ s₀.grant.activeRpcs.length →
      FixInv s₀ (i + m) ((List.range' i m).foldl homaGrantFixOrderStep st) := by
  induction m with
  | zero => exact fun h _ => h
  | succ m ih =>
    intro i st hinv hm
    rw [List.range'_succ, List.foldl_cons, show i + (m + 1) = i + 1 + m by omega]
    exact ih (hinv.step hwf hrange (by omega)) (by omega)

include hwf hrange in
theorem homaGrantFixOrder_fixInv :
    FixInv s₀ (max 1 s₀.grant.activeRpcs.length) (homaGrantFixOrder s₀) := by
  unfold homaGrantFixOrder
  rcases Nat.eq_zero_or_pos s₀.grant.activeRpcs.length with h0 | hpos
  · rw [h0]
    exact FixInv.start hwf
  · have hfold := FixInv.foldl hwf hrange (s₀.grant.activeRpcs.length - 1) (FixInv.start hwf)
      (by omega)
    rwa [show 1 + (s₀.grant.activeRpcs.length - 1) = max 1 s₀.grant.activeRpcs.length by omega]
      at hfold

end FixOrder

theorem homaGrantFixOrder_repairs_order (s : GrantSys) (hwf : s.ActiveWf)
    (hrange : ∀ id ∈ s.grant.activeRpcs, s.UngrantedInRange id) :
    Repaired s (homaGrantFixOrder s).1 (homaGrantFixOrder s).2 := by
  have hinv := homaGrantFixOrder_fixInv hwf hrange
  have hlen : (homaGrantFixOrder s).1.grant.activeRpcs.length = s.grant.activeRpcs.length :=
    hinv.perm.length_eq
  -- the passes covered every slot, so the whole array is sorted
  have hsorted : Sorted (homaGrantFixOrder s).1.grantKey (homaGrantFixOrder s).1.grant.activeRpcs := by
    have h := hinv.sorted
    rwa [List.take_of_length_le (by omega), ← hinv.ranksOnly.grantKey] at h
  have hrange' : ∀ id ∈ (homaGrantFixOrder s).1.grant.activeRpcs,
      (homaGrantFixOrder s).1.UngrantedInRange id := fun id hid =>
    (hinv.ranksOnly.ungrantedInRange id).mpr (hrange id (hinv.perm.subset hid))
  exact ⟨hinv.perm, GrantSys.ordered_of_sorted hrange' hsorted, hlen ▸ hinv.rank, hinv.result⟩

/-- Three active RPCs with 300, 100 and 200 bytes still to grant, in that
order and ranked by slot. -/
def threeActive : GrantSys :=
  { homaGrantAlloc GrantConfig.default with
    grant := { (homaGrantAlloc GrantConfig.default).grant with activeRpcs := [0, 1, 2] }
    rpcs := fun id => { GrantRpc.alloc 0 with
      length := 1000, granted := 1000 - [300, 100, 200].getD id 0, rank := id, birth := id } }

theorem homaGrantFixOrder_repairs_threeActive :
    threeActive.ActiveWf ∧ (∀ id ∈ threeActive.grant.activeRpcs, threeActive.UngrantedInRange id) ∧
      Repaired threeActive (homaGrantFixOrder threeActive).1 (homaGrantFixOrder threeActive).2 :=
  have hwf : threeActive.ActiveWf := ⟨by decide, by decide, by decide⟩
  have hrange : ∀ id ∈ threeActive.grant.activeRpcs, threeActive.UngrantedInRange id := by decide
  ⟨hwf, hrange, homaGrantFixOrder_repairs_order threeActive hwf hrange⟩

/-- RPC 1 is promoted to slot 0 and RPC 2 to slot 1; the result is 0. -/
example : (homaGrantFixOrder threeActive).1.grant.activeRpcs = [1, 2, 0] ∧
    (homaGrantFixOrder threeActive).2 = 0 := by
  decide +kernel

/-- Three active RPCs with `-2^30`, `1` and `2^30 + 100` bytes still to
grant (the first was granted `2^30` bytes past its length), ranked by slot.
The difference between the first and the last does not fit in an `int`. -/
def wrappedCycle : GrantSys :=
  { homaGrantAlloc GrantConfig.default with
    grant := { (homaGrantAlloc GrantConfig.default).grant with activeRpcs := [0, 1, 2] }
    rpcs := fun id => { GrantRpc.alloc 0 with
      length := [1000, 1, 2 ^ 30 + 100].getD id 0, granted := [1000 + 2 ^ 30, 0, 0].getD id 0,
      rank := id, birth := id } }

/-- With the wrapped difference RPC 2 outranks RPC 0, yet neither RPC behind
RPC 0 outranks the RPC in front of it, so no pass moves anything: RPC 2
stays behind RPC 0. -/
theorem homaGrantFixOrder_wrapped_cycle :
    wrappedCycle.ActiveWf ∧
      wrappedCycle.outranks 1 0 = false ∧ wrappedCycle.outranks 2 1 = false ∧
      wrappedCycle.outranks 2 0 = true ∧
      (homaGrantFixOrder wrappedCycle).1.grant.activeRpcs = [0, 1, 2] ∧
      (homaGrantFixOrder wrappedCycle).2 = intMax ∧
      ¬Repaired wrappedCycle (homaGrantFixOrder wrappedCycle).1 (homaGrantFixOrder wrappedCycle).2 := by
  refine ⟨⟨by decide, by decide, by decide⟩, by decide +kernel, by decide +kernel, by decide +kernel,
    by decide +kernel, by decide +kernel, fun h => ?_⟩
  have hordered := h.ordered
  revert hordered
  decide +kernel

end Homa
