import Homa.GrantOffsets
import Homa.MessageIn

/-!
# Incoming bytes

`total_incoming` counts the bytes granted but not yet received; each RPC
keeps its share in `msgin.rec_incoming`, and a change of a share reaches the
total only as a delta (`homa_grant_update_incoming`, `homa_grant_end_rpc`).
The invariant is a ledger (`IncomingLedger`): the total is the sum of the
shares as an `int`, no share is negative, and an ended RPC has no share.

The sum itself is not bounded: `homa_grant_check_rpc` adds the unreceived
length of a fully unscheduled message with no check against `max_incoming`,
and enough such messages wrap `total_incoming` negative.
-/

namespace Homa

open MachineArith GrantSys

/-! ## The first packet of a response -/

/-- `homa_message_in_init(rpc, length, unsched)` on the grant fields;
`numBpages` is the pool's answer, and `none` the `BUG_ON` of
`homa_grant_manage_rpc`. -/
def homaMessageInInitGrant (cfg : GrantConfig) (id : ℕ) (length unsched : ℤ)
    (numBpages : Option ℤ) (birth : ℕ) (s : GrantSys) : Option GrantSys :=
  if length > homaMaxMessageLength then some s
  else
    let s := s.setRpc id { s.rpcs id with length, bytesRemaining := length, birth }
    match numBpages with
    | none => some (s.setRpc id { s.rpcs id with length := -1 })
    | some n => homaGrantInitRpc cfg unsched id (s.setRpc id { s.rpcs id with numBpages := n })

/-! ## What the grant operations leave alone -/

namespace GrantSys

/-- `s'` has the shares, the states, the lengths and the total of `s`. -/
structure KeepsIncoming (s s' : GrantSys) : Prop where
  recIncoming : ∀ id, (s'.rpcs id).recIncoming = (s.rpcs id).recIncoming
  dead : ∀ id, (s'.rpcs id).dead = (s.rpcs id).dead
  length : ∀ id, (s'.rpcs id).length = (s.rpcs id).length
  total : s'.grant.totalIncoming = s.grant.totalIncoming

namespace KeepsIncoming

variable {s s₁ s₂ : GrantSys}

theorem refl (s : GrantSys) : s.KeepsIncoming s :=
  ⟨fun _ => rfl, fun _ => rfl, fun _ => rfl, rfl⟩

theorem trans (h₁ : s.KeepsIncoming s₁) (h₂ : s₁.KeepsIncoming s₂) : s.KeepsIncoming s₂ where
  recIncoming id := (h₂.recIncoming id).trans (h₁.recIncoming id)
  dead id := (h₂.dead id).trans (h₁.dead id)
  length id := (h₂.length id).trans (h₁.length id)
  total := h₂.total.trans h₁.total

theorem of_ranksOnly (h : s.RanksOnly s₁) (ht : s₁.grant.totalIncoming = s.grant.totalIncoming) :
    s.KeepsIncoming s₁ where
  recIncoming := h.recIncoming
  dead id := by
    have hf := congrArg GrantRpc.dead (h id)
    exact hf
  length := h.length
  total := ht

theorem of_eq (hrpcs : s₁.rpcs = s.rpcs) (htotal : s₁.grant.totalIncoming = s.grant.totalIncoming) :
    s.KeepsIncoming s₁ :=
  ⟨fun id => by rw [hrpcs], fun id => by rw [hrpcs], fun id => by rw [hrpcs], htotal⟩

theorem setRpc (s : GrantSys) (id : ℕ) {rpc : GrantRpc}
    (hrec : rpc.recIncoming = (s.rpcs id).recIncoming) (hdead : rpc.dead = (s.rpcs id).dead)
    (hlen : rpc.length = (s.rpcs id).length) : s.KeepsIncoming (s.setRpc id rpc) where
  recIncoming r := by
    by_cases hr : r = id
    · subst hr
      simpa [GrantSys.setRpc] using hrec
    · simp [GrantSys.setRpc, hr]
  dead r := by
    by_cases hr : r = id
    · subst hr
      simpa [GrantSys.setRpc] using hdead
    · simp [GrantSys.setRpc, hr]
  length r := by
    by_cases hr : r = id
    · subst hr
      simpa [GrantSys.setRpc] using hlen
    · simp [GrantSys.setRpc, hr]
  total := rfl

end KeepsIncoming

end GrantSys

theorem keepsIncoming_listFrame : ListFrame GrantSys.KeepsIncoming where
  refl := KeepsIncoming.refl
  trans h₁ h₂ := h₁.trans h₂
  setRank s id rank := .of_ranksOnly (ranksOnly_setRank s id rank) rfl
  setPeer s p peer := .of_ranksOnly (ranksOnly_setPeer s p peer) rfl
  withGrant _ g hg := .of_ranksOnly (RanksOnly.rfl.with_grant g) hg

theorem keepsIncoming_homaGrantUpdateGranted (cfg : GrantConfig) (id : ℕ) (s : GrantSys) :
    s.KeepsIncoming (homaGrantUpdateGranted cfg id s).1 := by
  -- the call sets `granted` and may lower `stalled_rank`; neither is a share
  have htotal : (homaGrantUpdateGranted cfg id s).1.grant.totalIncoming = s.grant.totalIncoming := by
    unfold homaGrantUpdateGranted
    dsimp only
    split_ifs <;> simp [GrantSys.setRpc]
  rcases homaGrantUpdateGranted_rpcs cfg id s with h | ⟨g, h⟩
  · exact .of_ranksOnly (.of_rpcs h) htotal
  · have hk : s.KeepsIncoming (s.setRpc id { s.rpcs id with granted := g }) :=
      KeepsIncoming.setRpc s id rfl rfl rfl
    have hrpcs : (homaGrantUpdateGranted cfg id s).1.rpcs = (s.setRpc id { s.rpcs id with granted := g }).rpcs := h
    refine ⟨?_, ?_, ?_, htotal⟩ <;> intro r <;> rw [hrpcs]
    · exact hk.recIncoming r
    · exact hk.dead r
    · exact hk.length r

/-! ## The ledger -/

/-- The shares of the RPCs in `S` add up to `total_incoming` as an `int`,
no RPC outside `S` has a share, and no share is negative. -/
structure ShareLedger (s : GrantSys) (S : Finset ℕ) : Prop where
  outside : ∀ id ∉ S, (s.rpcs id).recIncoming = 0
  total : s.grant.totalIncoming = wrapInt 32 (∑ id ∈ S, (s.rpcs id).recIncoming)
  nonneg : ∀ id, 0 ≤ (s.rpcs id).recIncoming

/-- The ledger, and an RPC ended with its message initialized has no
share. -/
structure IncomingLedger (s : GrantSys) (S : Finset ℕ) : Prop extends ShareLedger s S where
  ended : ∀ id, (s.rpcs id).dead → 0 ≤ (s.rpcs id).length → (s.rpcs id).recIncoming = 0

theorem sum_recIncoming_update (S : Finset ℕ) (f : ℕ → GrantRpc) {id : ℕ} (hid : id ∈ S)
    (rpc : GrantRpc) :
    ∑ j ∈ S, (Function.update f id rpc j).recIncoming =
      ∑ j ∈ S, (f j).recIncoming + (rpc.recIncoming - (f id).recIncoming) := by
  rw [← Finset.add_sum_erase S _ hid, ← Finset.add_sum_erase S _ hid]
  have hrest : ∑ j ∈ S.erase id, (Function.update f id rpc j).recIncoming =
      ∑ j ∈ S.erase id, (f j).recIncoming :=
    Finset.sum_congr rfl fun j hj => by rw [Function.update_of_ne (Finset.ne_of_mem_erase hj)]
  rw [hrest, Function.update_self]
  ring

namespace ShareLedger

variable {s s' : GrantSys} {S T : Finset ℕ}

theorem mono (h : ShareLedger s S) (hST : S ⊆ T) : ShareLedger s T where
  outside id hid := h.outside id fun hS => hid (hST hS)
  total := by
    rw [h.total, Finset.sum_subset hST fun id _ hid => h.outside id hid]
  nonneg := h.nonneg

theorem of_shares (h : ShareLedger s S)
    (hrec : ∀ id, (s'.rpcs id).recIncoming = (s.rpcs id).recIncoming)
    (htotal : s'.grant.totalIncoming = s.grant.totalIncoming) : ShareLedger s' S where
  outside id hid := (hrec id).trans (h.outside id hid)
  total := by
    rw [htotal, h.total]
    simp only [hrec]
  nonneg id := (hrec id).symm ▸ h.nonneg id

theorem keeps (h : ShareLedger s S) (hk : s.KeepsIncoming s') : ShareLedger s' S :=
  h.of_shares hk.recIncoming hk.total

theorem reshare (h : ShareLedger s S) {id : ℕ} {rpc : GrantRpc}
    (hrpcs : s'.rpcs = Function.update s.rpcs id rpc) (hnonneg : 0 ≤ rpc.recIncoming)
    (htotal : s'.grant.totalIncoming =
      wrapInt 32 (s.grant.totalIncoming + (rpc.recIncoming - (s.rpcs id).recIncoming))) :
    ShareLedger s' (insert id S) where
  outside j hj := by
    have hne : j ≠ id := fun he => hj (he ▸ Finset.mem_insert_self id S)
    rw [hrpcs, Function.update_of_ne hne]
    exact h.outside j fun hS => hj (Finset.mem_insert_of_mem hS)
  total := by
    have hS : ∑ j ∈ insert id S, (s.rpcs j).recIncoming = ∑ j ∈ S, (s.rpcs j).recIncoming :=
      Finset.sum_insert_of_eq_zero_if_notMem (h.outside id)
    rw [htotal, h.total, hrpcs, sum_recIncoming_update _ _ (Finset.mem_insert_self id S), hS,
      wrapInt_wrapInt_add]
  nonneg j := by
    rw [hrpcs]
    by_cases hj : j = id
    · subst hj
      simpa using hnonneg
    · rw [Function.update_of_ne hj]
      exact h.nonneg j

end ShareLedger

section Steps

variable {cfg : GrantConfig} {s : GrantSys} {S : Finset ℕ}

theorem ShareLedger.updateIncoming (h : ShareLedger s S) (id : ℕ) :
    ShareLedger (homaGrantUpdateIncoming id s) (insert id S) := by
  unfold homaGrantUpdateIncoming
  dsimp only
  -- the delta is added only when it is not zero; a zero delta is a
  -- multiple of `2 ^ 32`, which the total does not see
  have hwrap : s.grant.totalIncoming = wrapInt 32 s.grant.totalIncoming := by
    rw [h.total, wrapInt_wrapInt]
  set incoming := wrapInt 32 ((s.rpcs id).granted -
    wrapInt 32 ((s.rpcs id).length - (s.rpcs id).bytesRemaining))
  -- the new share is never negative
  have hnonneg : 0 ≤ (if incoming < 0 then 0 else incoming) := by
    split_ifs <;> omega
  generalize (if incoming < 0 then 0 else incoming) = share at hnonneg ⊢
  split_ifs with hdelta
  · refine h.reshare rfl hnonneg ?_
    simp only [GrantSys.setRpc, wrapInt_add_wrapInt]
  · refine h.reshare rfl hnonneg ?_
    rw [not_not] at hdelta
    show s.grant.totalIncoming = _
    rw [← wrapInt_add_wrapInt, hdelta, add_zero, ← hwrap]

theorem ShareLedger.endRpcShare (h : ShareLedger s S) (id : ℕ) :
    ShareLedger (homaGrantEndRpcShare id s) (insert id S) := by
  unfold homaGrantEndRpcShare
  dsimp only
  split_ifs with hrec
  · refine h.reshare rfl le_rfl ?_
    simp only [GrantSys.setRpc, sub_eq_add_neg, zero_add]
  · exact h.mono (Finset.subset_insert id S)

theorem homaGrantUpdateIncoming_rpcs (id : ℕ) (s : GrantSys) :
    ∃ share, (homaGrantUpdateIncoming id s).rpcs =
      Function.update s.rpcs id { s.rpcs id with recIncoming := share } := by
  unfold homaGrantUpdateIncoming
  dsimp only
  split_ifs <;> exact ⟨_, rfl⟩

theorem homaGrantEndRpcShare_rpcs (id : ℕ) (s : GrantSys) :
    (homaGrantEndRpcShare id s).rpcs =
      Function.update s.rpcs id { s.rpcs id with recIncoming := 0 } := by
  unfold homaGrantEndRpcShare
  dsimp only
  split_ifs with hrec
  · rfl
  · -- a zero share: writing zero changes nothing
    have hsame : { s.rpcs id with recIncoming := 0 } = s.rpcs id := by
      rw [not_not] at hrec
      rw [← hrec]
    rw [hsame, Function.update_eq_self]

end Steps

/-! ## The ledger over the calls -/

/-- Some finite set of RPCs carries the ledger. -/
def IncomingInv (s : GrantSys) : Prop :=
  ∃ S, IncomingLedger s S

/-- The ledger holds and RPC `id` is not dead: the state the grant code
works in when it updates `id`. -/
def LiveLedger (id : ℕ) (s : GrantSys) : Prop :=
  IncomingInv s ∧ ¬(s.rpcs id).dead

section Invariant

variable {cfg : GrantConfig} {s s' : GrantSys} {id : ℕ}

theorem IncomingInv.keeps (h : IncomingInv s) (hk : s.KeepsIncoming s') : IncomingInv s' := by
  obtain ⟨S, hS⟩ := h
  refine ⟨S, hS.toShareLedger.keeps hk, fun r hd hl => ?_⟩
  rw [hk.dead] at hd
  rw [hk.length] at hl
  rw [hk.recIncoming]
  exact hS.ended r hd hl

theorem LiveLedger.keeps (h : LiveLedger id s) (hk : s.KeepsIncoming s') : LiveLedger id s' :=
  ⟨h.1.keeps hk, by rw [hk.dead]; exact h.2⟩

theorem LiveLedger.updateIncoming (h : LiveLedger id s) :
    LiveLedger id (homaGrantUpdateIncoming id s) := by
  obtain ⟨⟨S, hS⟩, hd⟩ := h
  obtain ⟨share, hrpcs⟩ := homaGrantUpdateIncoming_rpcs id s
  -- the record of `id` changes only in its share, and `id` is not dead
  have hsame : ∀ r, ((homaGrantUpdateIncoming id s).rpcs r).dead = (s.rpcs r).dead ∧
      ((homaGrantUpdateIncoming id s).rpcs r).length = (s.rpcs r).length := by
    intro r
    rw [hrpcs]
    by_cases hr : r = id
    · subst hr
      simp
    · simp [Function.update_of_ne hr]
  refine ⟨⟨insert id S, hS.toShareLedger.updateIncoming id, fun r hdr hlr => ?_⟩, ?_⟩
  · rw [(hsame r).1] at hdr
    rw [(hsame r).2] at hlr
    have hne : r ≠ id := fun he => hd (he ▸ hdr)
    rw [hrpcs, Function.update_of_ne hne]
    exact hS.ended r hdr hlr
  · rw [(hsame id).1]
    exact hd

theorem LiveLedger.updateIncoming_inv (h : LiveLedger id s) :
    IncomingInv (homaGrantUpdateIncoming id s) :=
  h.updateIncoming.1

theorem IncomingInv.candCheck (h : IncomingInv s) (cfg : GrantConfig) (id : ℕ) :
    IncomingInv (homaGrantCandCheck cfg id s) := by
  unfold homaGrantCandCheck
  split_ifs with hdead
  · exact h
  · have h1 : LiveLedger id (homaGrantUpdateGranted cfg id s).1 :=
      LiveLedger.keeps ⟨h, hdead⟩ (keepsIncoming_homaGrantUpdateGranted cfg id s)
    generalize homaGrantUpdateGranted cfg id s = p at h1 ⊢
    obtain ⟨s₁, priority⟩ := p
    dsimp only at h1 ⊢
    have h2 := h1.updateIncoming
    split_ifs
    · exact (h2.keeps (keepsIncoming_listFrame.unmanage cfg id _)).1
    · exact h2.1
    · exact h1.1

/-! ### While an RPC ends

`homa_rpc_end` marks the RPC dead, and `homa_grant_end_rpc` then unmanages
it and runs the candidates it promoted before it takes the RPC's share out
of the total.  In between, the dead RPC still has its share: the ledger
holds for every other RPC (`EndLedger`). -/

/-- The ledger while `homa_grant_end_rpc` runs for the dead RPC `id`, whose
share is still in the total. -/
structure EndLedger (id : ℕ) (s : GrantSys) (S : Finset ℕ) : Prop extends ShareLedger s S where
  ended : ∀ r ≠ id, (s.rpcs r).dead → 0 ≤ (s.rpcs r).length → (s.rpcs r).recIncoming = 0
  dead : (s.rpcs id).dead

namespace EndLedger

variable {S : Finset ℕ}

theorem keeps (h : EndLedger id s S) (hk : s.KeepsIncoming s') : EndLedger id s' S where
  toShareLedger := h.toShareLedger.keeps hk
  ended r hr hd hl := by
    rw [hk.dead] at hd
    rw [hk.length] at hl
    rw [hk.recIncoming]
    exact h.ended r hr hd hl
  dead := by
    rw [hk.dead]
    exact h.dead

theorem updateIncoming (h : EndLedger id s S) {c : ℕ} (hc : ¬(s.rpcs c).dead) :
    EndLedger id (homaGrantUpdateIncoming c s) (insert c S) := by
  obtain ⟨share, hrpcs⟩ := homaGrantUpdateIncoming_rpcs c s
  have hci : c ≠ id := fun he => hc (he ▸ h.dead)
  refine ⟨h.toShareLedger.updateIncoming c, fun r hr hd hl => ?_, ?_⟩
  · rw [hrpcs] at hd hl ⊢
    by_cases hrc : r = c
    · subst hrc
      rw [Function.update_self] at hd
      exact absurd hd hc
    · rw [Function.update_of_ne hrc] at hd hl ⊢
      exact h.ended r hr hd hl
  · rw [hrpcs, Function.update_of_ne hci.symm]
    exact h.dead

theorem candCheck (h : EndLedger id s S) (cfg : GrantConfig) (c : ℕ) :
    ∃ T, EndLedger id (homaGrantCandCheck cfg c s) T := by
  unfold homaGrantCandCheck
  split_ifs with hdead
  · exact ⟨S, h⟩
  · have hk := keepsIncoming_homaGrantUpdateGranted cfg c s
    have h1 : EndLedger id (homaGrantUpdateGranted cfg c s).1 S := h.keeps hk
    have hdead1 : ¬((homaGrantUpdateGranted cfg c s).1.rpcs c).dead := by
      rw [hk.dead]
      exact hdead
    generalize homaGrantUpdateGranted cfg c s = p at h1 hdead1 ⊢
    obtain ⟨s₁, priority⟩ := p
    dsimp only at h1 hdead1 ⊢
    have h2 := h1.updateIncoming hdead1
    split_ifs
    · exact ⟨_, h2.keeps (keepsIncoming_listFrame.unmanage cfg c _)⟩
    · exact ⟨_, h2⟩
    · exact ⟨S, h1⟩

theorem candCheckLoop (cfg : GrantConfig) :
    ∀ (fuel : ℕ) (cand : List ℕ) {s : GrantSys} {S : Finset ℕ}, EndLedger id s S →
      ∃ T, EndLedger id (homaGrantCandCheckLoop cfg fuel cand s) T := by
  intro fuel
  induction fuel with
  | zero =>
    intro cand s S h
    exact ⟨S, h⟩
  | succ fuel ih =>
    intro cand s S h
    cases cand with
    | nil => exact ⟨S, h⟩
    | cons c cand =>
      obtain ⟨T, hT⟩ := h.candCheck cfg c
      exact ih _ hT

theorem endRpcShare (h : EndLedger id s S) :
    IncomingLedger (homaGrantEndRpcShare id s) (insert id S) where
  toShareLedger := h.toShareLedger.endRpcShare id
  ended r hd hl := by
    rw [homaGrantEndRpcShare_rpcs] at hd hl ⊢
    by_cases hr : r = id
    · subst hr
      simp
    · rw [Function.update_of_ne hr] at hd hl ⊢
      exact h.ended r hr hd hl

theorem endRpc (h : EndLedger id s S) (cfg : GrantConfig) :
    IncomingInv (homaGrantEndRpc cfg id s) := by
  unfold homaGrantEndRpc
  dsimp only
  split_ifs
  · -- unmanaging keeps every share, and the candidates keep the ledger
    obtain ⟨T, hT⟩ := candCheckLoop cfg ((s.promoted (homaGrantUnmanageRpc cfg id s)).length +
        (homaGrantUnmanageRpc cfg id s).grantableCount) (s.promoted (homaGrantUnmanageRpc cfg id s))
      (h.keeps (keepsIncoming_listFrame.unmanage cfg id s))
    exact ⟨insert id T, hT.endRpcShare⟩
  · exact ⟨insert id S, h.endRpcShare⟩

end EndLedger

theorem IncomingInv.rpcEnd (h : IncomingInv s) (cfg : GrantConfig) (id : ℕ) :
    IncomingInv (homaRpcEndGrant cfg id s) := by
  obtain ⟨S, hS⟩ := h
  unfold homaRpcEndGrant
  dsimp only
  split_ifs with hdead hlen
  · exact ⟨S, hS⟩
  · -- marking the RPC dead changes no share and no total
    have h1 : ShareLedger (s.setRpc id { s.rpcs id with dead := true }) S := by
      refine hS.toShareLedger.of_shares (fun r => ?_) rfl
      by_cases hr : r = id
      · subst hr
        simp [GrantSys.setRpc]
      · simp [GrantSys.setRpc, hr]
    refine EndLedger.endRpc ⟨h1, fun r hr hd hl => ?_, by simp [GrantSys.setRpc]⟩ cfg
    simp only [GrantSys.setRpc, Function.update_of_ne hr] at hd hl ⊢
    exact hS.ended r hd hl
  · refine ⟨S, ?_, fun r hdr hlr => ?_⟩
    · refine hS.toShareLedger.of_shares (fun r => ?_) rfl
      by_cases hr : r = id
      · subst hr
        simp [GrantSys.setRpc]
      · simp [GrantSys.setRpc, hr]
    · -- the message of `id` was never initialized, so only other RPCs count
      by_cases hr : r = id
      · subst hr
        simp [GrantSys.setRpc] at hlen hlr
        omega
      · simp only [GrantSys.setRpc, Function.update_of_ne hr] at hdr hlr ⊢
        exact hS.ended r hdr hlr

theorem IncomingInv.resetStalled (h : IncomingInv s) (rank : ℤ) :
    IncomingInv { s with grant := { s.grant with stalledRank := rank } } :=
  h.keeps (keepsIncoming_listFrame.withGrant _ _ rfl)

theorem IncomingInv.checkRpc (h : IncomingInv s) (cfg : GrantConfig) (recalc : Bool) (id : ℕ) :
    IncomingInv (homaGrantCheckRpc cfg recalc id s) := by
  unfold homaGrantCheckRpc
  dsimp only
  by_cases hguard : (s.rpcs id).length < 0 ∨ (s.rpcs id).numBpages ≤ 0 ∨ (s.rpcs id).dead
  · rw [if_pos hguard]
    exact h
  rw [if_neg hguard]
  have hdead : ¬(s.rpcs id).dead := fun hd => hguard (.inr (.inr hd))
  -- the incoming bytes of `id` first, then the reordering
  have h1 : LiveLedger id (homaGrantUpdateIncoming id s) := LiveLedger.updateIncoming ⟨h, hdead⟩
  generalize homaGrantUpdateIncoming id s = s₁ at h1 ⊢
  have h2 : LiveLedger id (if recalc then homaGrantFixOrder s₁ else (s₁, intMax)).1 := by
    split_ifs
    · exact h1.keeps (keepsIncoming_listFrame.fixOrder s₁)
    · exact h1
  generalize (if recalc then homaGrantFixOrder s₁ else (s₁, intMax)) = p at h2 ⊢
  obtain ⟨s₂, needy⟩ := p
  dsimp only at h2 ⊢
  -- the fast path: a grant to `id` itself and its incoming bytes again
  have h3 : LiveLedger id (homaGrantUpdateGranted cfg id s₂).1 :=
    h2.keeps (keepsIncoming_homaGrantUpdateGranted cfg id s₂)
  generalize homaGrantUpdateGranted cfg id s₂ = q at h3 ⊢
  obtain ⟨s₃, priority⟩ := q
  dsimp only at h3 ⊢
  have h4 := h3.updateIncoming
  have h5 := (h4.keeps (keepsIncoming_listFrame.unmanage cfg id _)).1
  generalize (if s₂.grant.stalledRank < needy then s₂.grant.stalledRank else needy) = needy'
  split_ifs
  · exact h5.resetStalled intMax
  · exact h5
  · exact h4.1.resetStalled intMax
  · exact h4.1
  · exact h2.1.resetStalled intMax
  · exact h2.1

theorem IncomingInv.fifoGrant (h : IncomingInv s) {x : GrantSys} (hx : s.KeepsIncoming x)
    (cfg : GrantConfig) :
    IncomingInv (match x.grant.oldestRpc with
      | none => x
      | some id =>
          if (x.rpcs id).dead then x
          else
            let rpc := x.rpcs id
            let x := x.setRpc id { rpc with
              granted := wrapInt 32 (rpc.granted + cfg.fifoGrantIncrement) }
            let x := if (x.rpcs id).granted ≥ (x.rpcs id).length then
                homaGrantUnmanageRpc cfg id (x.setRpc id { x.rpcs id with granted := (x.rpcs id).length })
              else homaGrantPromoteRpc cfg id x
            homaGrantUpdateIncoming id x) := by
  split
  · exact h.keeps hx
  · rename_i id _
    dsimp only
    split_ifs with hdead hge
    · exact h.keeps hx
    · -- the grant reaches the message end: `granted` is set twice, then unmanaged
      have hl : LiveLedger id x := ⟨h.keeps hx, hdead⟩
      refine LiveLedger.updateIncoming_inv (LiveLedger.keeps ?_
        (keepsIncoming_listFrame.unmanage cfg id _))
      refine LiveLedger.keeps ?_ (KeepsIncoming.setRpc _ id rfl rfl rfl)
      exact hl.keeps (KeepsIncoming.setRpc x id rfl rfl rfl)
    · have hl : LiveLedger id x := ⟨h.keeps hx, hdead⟩
      refine LiveLedger.updateIncoming_inv (LiveLedger.keeps ?_
        (keepsIncoming_listFrame.promote cfg id _))
      exact hl.keeps (KeepsIncoming.setRpc x id rfl rfl rfl)

theorem IncomingInv.checkFifo (h : IncomingInv s) (cfg : GrantConfig) (due : Bool) :
    IncomingInv (homaGrantCheckFifo cfg due s) := by
  unfold homaGrantCheckFifo
  dsimp only
  split_ifs
  · exact h
  · exact h
  -- dropping or searching for the oldest RPC changes no share and no total
  all_goals
    exact h.fifoGrant (.of_eq (by split <;> (try split_ifs) <;> rfl)
      (by split <;> (try split_ifs) <;> rfl)) cfg

theorem keepsIncoming_homaGrantInitRpc {cfg : GrantConfig} {unsched : ℤ} {s s' : GrantSys}
    (h : homaGrantInitRpc cfg unsched id s = some s') : s.KeepsIncoming s' := by
  have h0 : s.KeepsIncoming (s.setRank id (-1)) := keepsIncoming_listFrame.setRank s id (-1)
  unfold homaGrantInitRpc at h
  dsimp only at h
  split_ifs at h
  · cases h
    exact h0.trans (KeepsIncoming.setRpc _ id rfl rfl rfl)
  · refine KeepsIncoming.trans ?_ (keepsIncoming_listFrame.manage h)
    exact h0.trans (KeepsIncoming.setRpc _ id rfl rfl rfl)
  · cases h
    exact h0.trans (KeepsIncoming.setRpc _ id rfl rfl rfl)

theorem IncomingInv.of_lengths (h : IncomingInv s)
    (hrec : ∀ r, (s'.rpcs r).recIncoming = (s.rpcs r).recIncoming)
    (hdead : ∀ r, (s'.rpcs r).dead = (s.rpcs r).dead)
    (hlen : ∀ r, (s.rpcs r).dead → (s'.rpcs r).length = (s.rpcs r).length)
    (htotal : s'.grant.totalIncoming = s.grant.totalIncoming) : IncomingInv s' := by
  obtain ⟨S, hS⟩ := h
  refine ⟨S, hS.toShareLedger.of_shares hrec htotal, fun r hd hl => ?_⟩
  rw [hdead] at hd
  rw [hlen r hd] at hl
  rw [hrec]
  exact hS.ended r hd hl

theorem IncomingInv.setRpc (h : IncomingInv s) {rpc : GrantRpc} (hdead : ¬(s.rpcs id).dead)
    (hrec : rpc.recIncoming = (s.rpcs id).recIncoming) (hd : rpc.dead = (s.rpcs id).dead) :
    IncomingInv (s.setRpc id rpc) := by
  refine h.of_lengths (fun r => ?_) (fun r => ?_) (fun r hr => ?_) rfl
  all_goals
    by_cases hr' : r = id
    · subst hr'
      simp_all [GrantSys.setRpc]
    · simp [GrantSys.setRpc, hr']

theorem IncomingInv.messageInInit (h : IncomingInv s) {cfg : GrantConfig} {length unsched : ℤ}
    {numBpages : Option ℤ} {birth : ℕ} (hdead : ¬(s.rpcs id).dead)
    (hs : homaMessageInInitGrant cfg id length unsched numBpages birth s = some s') :
    IncomingInv s' := by
  unfold homaMessageInInitGrant at hs
  split_ifs at hs
  · cases hs
    exact h
  -- the record of `id` gets its length, then its pages or `-1`
  have hdead' : ∀ rpc : GrantRpc, rpc.dead = (s.rpcs id).dead → ¬((s.setRpc id rpc).rpcs id).dead := by
    intro rpc hd
    simpa [GrantSys.setRpc, hd] using hdead
  dsimp only at hs
  split at hs
  · cases hs
    refine IncomingInv.setRpc ?_ (hdead' _ rfl) rfl rfl
    exact h.setRpc hdead rfl rfl
  · refine IncomingInv.keeps ?_ (keepsIncoming_homaGrantInitRpc hs)
    refine IncomingInv.setRpc ?_ (hdead' _ rfl) rfl rfl
    exact h.setRpc hdead rfl rfl

end Invariant

/-! ## Runs -/

/-- A call that reaches the shares or the total. -/
inductive IncomingOp where
  /-- the first DATA packet of a response, with what the pool allocated -/
  | initMsg (id : ℕ) (length unsched : ℤ) (numBpages : Option ℤ) (birth : ℕ)
  /-- `homa_add_packet` keeps `bytes` new bytes of the message -/
  | receive (id : ℕ) (bytes : ℤ)
  | checkRpc (recalc : Bool) (id : ℕ)
  | candCheck (id : ℕ)
  | checkFifo (due : Bool)
  | rpcEnd (id : ℕ)

/-- One call; `none` where it cannot happen: a first packet for a message
already set up or an RPC already ended, or a packet with more new bytes
than the message lacks. -/
def IncomingOp.step (cfg : GrantConfig) (s : GrantSys) : IncomingOp → Option GrantSys
  | .initMsg id length unsched numBpages birth =>
      if (s.rpcs id).length < 0 ∧ ¬(s.rpcs id).dead then
        homaMessageInInitGrant cfg id length unsched numBpages birth s
      else none
  | .receive id bytes =>
      if 0 ≤ (s.rpcs id).length ∧ ¬(s.rpcs id).dead ∧ 0 ≤ bytes ∧
          bytes ≤ (s.rpcs id).bytesRemaining then
        some (s.setRpc id { s.rpcs id with bytesRemaining := (s.rpcs id).bytesRemaining - bytes })
      else none
  | .checkRpc recalc id => some (homaGrantCheckRpc cfg recalc id s)
  | .candCheck id => some (homaGrantCandCheck cfg id s)
  | .checkFifo due => some (homaGrantCheckFifo cfg due s)
  | .rpcEnd id => some (homaRpcEndGrant cfg id s)

/-- The states a sequence of calls leads to from `s`. -/
inductive IncomingRun (cfg : GrantConfig) (s : GrantSys) : GrantSys → Prop where
  | refl : IncomingRun cfg s s
  | step {s₁ s₂ : GrantSys} {op : IncomingOp} : IncomingRun cfg s s₁ →
      op.step cfg s₁ = some s₂ → IncomingRun cfg s s₂

theorem IncomingOp.incomingInv {cfg : GrantConfig} {s s' : GrantSys} {op : IncomingOp}
    (h : IncomingInv s) (hs : op.step cfg s = some s') : IncomingInv s' := by
  cases op with
  | initMsg id length unsched numBpages birth =>
      simp only [IncomingOp.step] at hs
      split_ifs at hs with hguard
      exact h.messageInInit hguard.2 hs
  | receive id bytes =>
      simp only [IncomingOp.step] at hs
      split_ifs at hs with hguard
      cases hs
      exact h.setRpc hguard.2.1 rfl rfl
  | checkRpc recalc id =>
      cases hs
      exact h.checkRpc cfg recalc id
  | candCheck id =>
      cases hs
      exact h.candCheck cfg id
  | checkFifo due =>
      cases hs
      exact h.checkFifo cfg due
  | rpcEnd id =>
      cases hs
      exact h.rpcEnd cfg id

theorem IncomingRun.incomingInv {cfg : GrantConfig} {s₀ s : GrantSys} (hrun : IncomingRun cfg s₀ s)
    (h : IncomingInv s₀) : IncomingInv s := by
  induction hrun with
  | refl => exact h
  | step _ hs ih => exact IncomingOp.incomingInv ih hs

/-- The calls of `ops` one after the other; `none` if one cannot happen. -/
def IncomingOp.exec (cfg : GrantConfig) : List IncomingOp → GrantSys → Option GrantSys
  | [], s => some s
  | op :: ops, s => (op.step cfg s).bind (IncomingOp.exec cfg ops)

theorem IncomingRun.exec {cfg : GrantConfig} {s₀ s : GrantSys} (hrun : IncomingRun cfg s₀ s) :
    ∀ {ops : List IncomingOp} {s' : GrantSys}, IncomingOp.exec cfg ops s = some s' →
      IncomingRun cfg s₀ s' := by
  intro ops
  induction ops generalizing s with
  | nil =>
      intro s' h
      cases h
      exact hrun
  | cons op ops ih =>
      intro s' h
      simp only [IncomingOp.exec, Option.bind_eq_some_iff] at h
      obtain ⟨s₁, h₁, h₂⟩ := h
      exact ih (hrun.step h₁) h₂

theorem incomingInv_homaGrantAlloc (cfg : GrantConfig) : IncomingInv (homaGrantAlloc cfg) := by
  refine ⟨∅, ⟨fun _ _ => rfl, ?_, fun _ => le_rfl⟩, fun _ hd => ?_⟩
  · rw [Finset.sum_empty]
    show (0 : ℤ) = wrapInt 32 0
    exact (wrapInt_32_of_mem (by norm_num) (by norm_num)).symm
  · simp [homaGrantAlloc, GrantRpc.alloc] at hd

/-- Over every run from the grant state `homa_grant_alloc` sets up, only
finitely many RPCs have a share; `total_incoming` is the sum of the shares
of any set of RPCs that holds them all, as an `int`; no share is negative;
and an RPC ended with its message initialized has no share. -/
theorem homaGrantIncoming_ledger :
    ∀ (cfg : GrantConfig) (s : GrantSys), IncomingRun cfg (homaGrantAlloc cfg) s →
      (∃ S : Finset ℕ, ∀ id ∉ S, (s.rpcs id).recIncoming = 0) ∧
      (∀ S : Finset ℕ, (∀ id ∉ S, (s.rpcs id).recIncoming = 0) →
        s.grant.totalIncoming = wrapInt 32 (∑ id ∈ S, (s.rpcs id).recIncoming)) ∧
      (∀ id, 0 ≤ (s.rpcs id).recIncoming) ∧
      (∀ id, (s.rpcs id).dead → 0 ≤ (s.rpcs id).length → (s.rpcs id).recIncoming = 0) := by
  intro cfg s hrun
  obtain ⟨S, hS⟩ := hrun.incomingInv (incomingInv_homaGrantAlloc cfg)
  refine ⟨⟨S, hS.outside⟩, fun T hT => ?_, hS.nonneg, hS.ended⟩
  -- both sets carry the ledger, so their union does, and it adds only zeros to `T`
  have hunion := hS.toShareLedger.mono (Finset.subset_union_left : S ⊆ S ∪ T)
  rw [hunion.total, Finset.sum_subset (Finset.subset_union_right : T ⊆ S ∪ T)
    fun id _ hid => hT id hid]

/-! ## The total wraps -/

/-- A response of `HOMA_MAX_MESSAGE_LENGTH` bytes, all of them unscheduled,
in 22 bpages: its first DATA packet sets it up, 1400 bytes of it are kept,
and `homa_grant_check_rpc` runs. -/
def fullArrival (id : ℕ) : List IncomingOp :=
  [.initMsg id homaMaxMessageLength homaMaxMessageLength (some 22) id, .receive id 1400,
    .checkRpc false id]

/-- The record of such a response afterwards: fully granted, not managed,
and all but its first packet counted as incoming. -/
def arrivedRpc (id : ℕ) : GrantRpc :=
  { GrantRpc.alloc 0 with
    length := homaMaxMessageLength, bytesRemaining := homaMaxMessageLength - 1400,
    granted := homaMaxMessageLength, recIncoming := homaMaxMessageLength - 1400, rank := -1,
    birth := id, numBpages := 22 }

/-- The grant state after responses `0 .. k - 1` arrived that way. -/
def arrivedState (k : ℕ) : GrantSys :=
  { homaGrantAlloc GrantConfig.default with
    grant := { (homaGrantAlloc GrantConfig.default).grant with
      totalIncoming := wrapInt 32 (k * (homaMaxMessageLength - 1400)) }
    rpcs := fun id => if id < k then arrivedRpc id else GrantRpc.alloc 0 }

theorem exec_fullArrival (k : ℕ) :
    IncomingOp.exec GrantConfig.default (fullArrival k) (arrivedState k) =
      some (arrivedState (k + 1)) := by
  have hw1 : wrapInt 32 1400 = 1400 := wrapInt_32_of_mem (by norm_num) (by norm_num)
  have hw2 : wrapInt 32 1398600 = 1398600 := wrapInt_32_of_mem (by norm_num) (by norm_num)
  simp [IncomingOp.exec, IncomingOp.step, fullArrival, arrivedState, homaGrantAlloc,
    homaMessageInInitGrant, homaGrantInitRpc, homaGrantCheckRpc, homaGrantUpdateIncoming,
    GrantSys.setRpc, GrantSys.setRank, GrantRpc.alloc, homaMaxMessageLength, hw1, hw2]
  -- what is left: the total, and the record of `k` among the others
  constructor
  · have hsum : (k : ℤ) * 1398600 + 1398600 = ((k : ℤ) + 1) * 1398600 := by ring
    rw [wrapInt_wrapInt_add, hsum]
  · funext id
    by_cases hid : id = k
    · subst hid
      simp [arrivedRpc, GrantRpc.alloc, homaMaxMessageLength]
    · rw [Function.update_of_ne hid]
      by_cases hlt : id < k
      · simp [hlt, hlt.le]
      · have hle : ¬id ≤ k := by omega
        simp [hlt, hle]

theorem incomingRun_arrivedState (k : ℕ) :
    IncomingRun GrantConfig.default (homaGrantAlloc GrantConfig.default) (arrivedState k) := by
  induction k with
  | zero =>
      have hw : wrapInt 32 0 = 0 := wrapInt_32_of_mem (by norm_num) (by norm_num)
      have h0 : arrivedState 0 = homaGrantAlloc GrantConfig.default := by
        simp [arrivedState, homaGrantAlloc, hw]
      rw [h0]
      exact .refl
  | succ k ih => exact ih.exec (exec_fullArrival k)

theorem sum_arrivedState (k : ℕ) :
    ∑ id ∈ Finset.range k, ((arrivedState k).rpcs id).recIncoming = k * 1398600 := by
  have hshare : ∀ id ∈ Finset.range k, ((arrivedState k).rpcs id).recIncoming = 1398600 := by
    intro id hid
    rw [Finset.mem_range] at hid
    simp [arrivedState, hid, arrivedRpc, homaMaxMessageLength]
  rw [Finset.sum_congr rfl hshare, Finset.sum_const, Finset.card_range, nsmul_eq_mul]

theorem homaGrantIncoming_ledger_oneArrival :
    IncomingRun GrantConfig.default (homaGrantAlloc GrantConfig.default) (arrivedState 1) ∧
      (arrivedState 1).grant.totalIncoming =
        wrapInt 32 (∑ id ∈ Finset.range 1, ((arrivedState 1).rpcs id).recIncoming) := by
  have hrun := incomingRun_arrivedState 1
  refine ⟨hrun, (homaGrantIncoming_ledger _ _ hrun).2.1 (Finset.range 1) fun id hid => ?_⟩
  have hid' : id ≠ 0 := fun h => hid (Finset.mem_range.mpr (by omega))
  simp [arrivedState, hid', GrantRpc.alloc]

/-- After 1536 fully unscheduled responses of `HOMA_MAX_MESSAGE_LENGTH`
bytes, each with its first packet in, the shares of these initialized,
live RPCs add up to 2148249600, past `INT_MAX`, and no other RPC has one;
`total_incoming` holds that sum wrapped to a negative `int`. -/
theorem homaGrantIncoming_total_wraps :
    IncomingRun GrantConfig.default (homaGrantAlloc GrantConfig.default) (arrivedState 1536) ∧
      (∀ id ∉ Finset.range 1536, ((arrivedState 1536).rpcs id).recIncoming = 0) ∧
      (∀ id ∈ Finset.range 1536, 0 ≤ ((arrivedState 1536).rpcs id).length ∧
        ¬((arrivedState 1536).rpcs id).dead) ∧
      ∑ id ∈ Finset.range 1536, ((arrivedState 1536).rpcs id).recIncoming = 2148249600 ∧
      (arrivedState 1536).grant.totalIncoming = -2146717696 := by
  refine ⟨incomingRun_arrivedState 1536, fun id hid => ?_, fun id hid => ?_, ?_, ?_⟩
  · rw [Finset.mem_range] at hid
    simp [arrivedState, hid, GrantRpc.alloc]
  · rw [Finset.mem_range] at hid
    simp [arrivedState, hid, arrivedRpc, GrantRpc.alloc, homaMaxMessageLength]
  · rw [sum_arrivedState]
    norm_num
  · -- the wrapped sum: one `2 ^ 32` below
    have hw : wrapInt 32 (1536 * 1398600) = 1536 * 1398600 - 2 ^ 32 :=
      wrapInt_of_overflow (by norm_num) (by norm_num)
    simp only [arrivedState, homaMaxMessageLength]
    norm_num at hw ⊢
    exact hw

end Homa
