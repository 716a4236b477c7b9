import Homa.Grant

/-!
# Grant offsets

`homa_grant_update_granted` moves an RPC's grant offset to one window past
the bytes received, no further than the end of the message, and cuts it back
when the bytes granted but not received would pass `max_incoming`.  In
exact arithmetic (`grantOffset`) the offset stays within the message and
the window and only grows; the `int` sums agree with it while the quantities
stay well inside the `int` range (`UpdateBounds`).  The `window` sysctl is
not checked, and a negative `window_param` makes the sums wrap.
-/

namespace Homa

open MachineArith GrantSys

/-- The quantities `homa_grant_update_granted` combines for `rpc` lie in
`[0, 2 ^ 29]`, and no more has been received than the message holds, so
none of its `int` sums overflows. -/
structure UpdateBounds (cfg : GrantConfig) (s : GrantSys) (rpc : GrantRpc) : Prop where
  length_nonneg : 0 ≤ rpc.length
  length_le : rpc.length ≤ 2 ^ 29
  bytesRemaining_nonneg : 0 ≤ rpc.bytesRemaining
  bytesRemaining_le : rpc.bytesRemaining ≤ rpc.length
  recIncoming_nonneg : 0 ≤ rpc.recIncoming
  recIncoming_le : rpc.recIncoming ≤ 2 ^ 29
  window_nonneg : 0 ≤ s.grant.window
  window_le : s.grant.window ≤ 2 ^ 29
  totalIncoming_nonneg : 0 ≤ s.grant.totalIncoming
  totalIncoming_le : s.grant.totalIncoming ≤ 2 ^ 29
  maxIncoming_nonneg : 0 ≤ cfg.maxIncoming
  maxIncoming_le : cfg.maxIncoming ≤ 2 ^ 29

/-- The offset `homa_grant_update_granted` aims for, in exact arithmetic. -/
def grantOffset (cfg : GrantConfig) (s : GrantSys) (rpc : GrantRpc) : ℤ :=
  let received := rpc.length - rpc.bytesRemaining
  let offset := received + s.grant.window
  let offset := if offset > rpc.length then rpc.length else offset
  let incomingDelta := offset - received - rpc.recIncoming
  let avlIncoming := cfg.maxIncoming - s.grant.totalIncoming
  if avlIncoming < incomingDelta then offset - (incomingDelta - avlIncoming) else offset

/-! ## The offset in exact arithmetic -/

section Exact

variable (cfg : GrantConfig) (s : GrantSys) (rpc : GrantRpc)

theorem grantOffset_le_length : grantOffset cfg s rpc ≤ rpc.length := by
  unfold grantOffset
  dsimp only
  split_ifs <;> omega

theorem grantOffset_le_window :
    grantOffset cfg s rpc ≤ rpc.length - rpc.bytesRemaining + s.grant.window := by
  unfold grantOffset
  dsimp only
  split_ifs <;> omega

theorem grantOffset_headroom :
    s.grant.totalIncoming - rpc.recIncoming +
        (grantOffset cfg s rpc - (rpc.length - rpc.bytesRemaining)) ≤
      max cfg.maxIncoming s.grant.totalIncoming := by
  unfold grantOffset
  dsimp only
  split_ifs <;> omega

end Exact

theorem homaGrantPriority_nonneg (cfg : GrantConfig) (numActiveRpcs : ℕ) (rank : ℤ) :
    0 ≤ homaGrantPriority cfg numActiveRpcs rank := by
  unfold homaGrantPriority
  dsimp only
  split_ifs <;> omega

/-! ## One call of `homa_grant_update_granted` -/

section UpdateGranted

variable {cfg : GrantConfig} {s : GrantSys} {id : ℕ}

theorem homaGrantUpdateGranted_spec (hb : UpdateBounds cfg s (s.rpcs id)) :
    ((homaGrantUpdateGranted cfg id s).2 = -1 ∧
        ((homaGrantUpdateGranted cfg id s).1.rpcs id).granted = (s.rpcs id).granted) ∨
      (0 ≤ (homaGrantUpdateGranted cfg id s).2 ∧
        (s.rpcs id).granted < grantOffset cfg s (s.rpcs id) ∧
        ((homaGrantUpdateGranted cfg id s).1.rpcs id).granted = grantOffset cfg s (s.rpcs id)) := by
  obtain ⟨hL0, hL1, hB0, hB1, hR0, hR1, hW0, hW1, hT0, hT1, hM0, hM1⟩ := hb
  set rpc := s.rpcs id with hrpc
  set received := rpc.length - rpc.bytesRemaining with hreceived
  set offset := if received + s.grant.window > rpc.length then rpc.length
    else received + s.grant.window with hoffset
  set delta := offset - received - rpc.recIncoming with hdelta
  set avl := cfg.maxIncoming - s.grant.totalIncoming with havl
  -- the offset lies between the bytes received and the message end
  have hoff : received ≤ offset ∧ offset ≤ rpc.length := by
    rw [hoffset]
    split_ifs <;> omega
  -- none of the sums of the call leaves the `int` range
  have w1 : wrapInt 32 received = received := wrapInt_32_of_mem (by omega) (by omega)
  have w2 : wrapInt 32 (received + s.grant.window) = received + s.grant.window :=
    wrapInt_32_of_mem (by omega) (by omega)
  have w3 : wrapInt 32 (offset - received) = offset - received :=
    wrapInt_32_of_mem (by omega) (by omega)
  have w4 : wrapInt 32 (offset - received - rpc.recIncoming) = delta :=
    wrapInt_32_of_mem (by omega) (by omega)
  have w5 : wrapInt 32 avl = avl := wrapInt_32_of_mem (by omega) (by omega)
  have w6 : wrapInt 32 (delta - avl) = delta - avl := wrapInt_32_of_mem (by omega) (by omega)
  have w7 : wrapInt 32 (offset - (delta - avl)) = offset - (delta - avl) :=
    wrapInt_32_of_mem (by omega) (by omega)
  have hexact : grantOffset cfg s rpc = if avl < delta then offset - (delta - avl) else offset := by
    simp only [grantOffset, ← hreceived, ← hoffset, ← hdelta, ← havl]
  unfold homaGrantUpdateGranted
  simp only [← hrpc, ← hreceived, w1, w2, ← hoffset, w3, w4, ← havl, w5, w6, w7]
  rw [hexact]
  by_cases hsilent : rpc.silentTicks > 1
  · rw [if_pos hsilent]
    exact .inl ⟨rfl, rfl⟩
  rw [if_neg hsilent]
  by_cases hrank : rpc.rank < 0 ∨ rpc.granted ≥ rpc.length
  · rw [if_pos hrank]
    exact .inl ⟨rfl, rfl⟩
  rw [if_neg hrank]
  -- out of headroom the offset is cut back; either way it is compared with the old one
  by_cases hcut : avl < delta
  · simp only [if_pos hcut]
    by_cases hle : offset - (delta - avl) ≤ rpc.granted
    · rw [if_pos hle]
      exact .inl ⟨rfl, rfl⟩
    · rw [if_neg hle]
      exact .inr ⟨homaGrantPriority_nonneg _ _ _, by omega, by simp [setRpc]⟩
  · simp only [if_neg hcut]
    by_cases hle : offset ≤ rpc.granted
    · rw [if_pos hle]
      exact .inl ⟨rfl, rfl⟩
    · rw [if_neg hle]
      exact .inr ⟨homaGrantPriority_nonneg _ _ _, by omega, by simp [setRpc]⟩

theorem homaGrantUpdateGranted_rpcs (cfg : GrantConfig) (id : ℕ) (s : GrantSys) :
    (homaGrantUpdateGranted cfg id s).1.rpcs = s.rpcs ∨
      ∃ g, (homaGrantUpdateGranted cfg id s).1.rpcs =
        Function.update s.rpcs id { s.rpcs id with granted := g } := by
  unfold homaGrantUpdateGranted
  dsimp only
  split_ifs <;> first | exact .inl rfl | exact .inr ⟨_, rfl⟩

end UpdateGranted

/-! ## The other calls that set offsets -/

/-- What `homa_grant_check_fifo` gives the message it picks: the FIFO
increment, but no more than the message. -/
def fifoClamp (cfg : GrantConfig) (rpc : GrantRpc) : ℤ :=
  let g := wrapInt 32 (rpc.granted + cfg.fifoGrantIncrement)
  if g ≥ rpc.length then rpc.length else g

namespace GrantSys

/-- `s'` has the grant offsets and message lengths of `s`. -/
def OffsetsKept (s s' : GrantSys) : Prop :=
  ∀ r, (s'.rpcs r).granted = (s.rpcs r).granted ∧ (s'.rpcs r).length = (s.rpcs r).length

/-- `s'` has the message lengths of `s`, and each offset as it was or
raised by a FIFO grant. -/
def FifoOffsets (cfg : GrantConfig) (s s' : GrantSys) : Prop :=
  ∀ r, (s'.rpcs r).length = (s.rpcs r).length ∧
    ((s'.rpcs r).granted = (s.rpcs r).granted ∨ (s'.rpcs r).granted = fifoClamp cfg (s.rpcs r))

variable {cfg : GrantConfig} {s s1 s' : GrantSys}

theorem OffsetsKept.of_ranksOnly (h : s.RanksOnly s') : s.OffsetsKept s' :=
  fun r => ⟨h.granted r, h.length r⟩

theorem OffsetsKept.trans (h1 : s.OffsetsKept s1) (h2 : s1.OffsetsKept s') : s.OffsetsKept s' :=
  fun r => ⟨(h2 r).1.trans (h1 r).1, (h2 r).2.trans (h1 r).2⟩

theorem offsetsKept_homaGrantUpdateIncoming (id : ℕ) (s : GrantSys) :
    s.OffsetsKept (homaGrantUpdateIncoming id s) := by
  intro r
  unfold homaGrantUpdateIncoming
  dsimp only
  by_cases hr : r = id
  · subst hr
    split_ifs <;> simp [setRpc]
  · split_ifs <;> simp [setRpc, hr]

theorem FifoOffsets.of_rpcs (h : s'.rpcs = s.rpcs) : s.FifoOffsets cfg s' :=
  fun r => by rw [h]; exact ⟨rfl, .inl rfl⟩

theorem FifoOffsets.kept (h : s.FifoOffsets cfg s1) (hk : s1.OffsetsKept s') :
    s.FifoOffsets cfg s' :=
  fun r => ⟨(hk r).2.trans (h r).1, by rw [(hk r).1]; exact (h r).2⟩

theorem FifoOffsets.setRpc {id : ℕ} {rpc : GrantRpc} (hs : ∀ r, r ≠ id → s1.rpcs r = s.rpcs r)
    (hlen : rpc.length = (s.rpcs id).length)
    (hg : rpc.granted = (s.rpcs id).granted ∨ rpc.granted = fifoClamp cfg (s.rpcs id)) :
    s.FifoOffsets cfg (s1.setRpc id rpc) := by
  intro r
  by_cases hr : r = id
  · subst hr
    simp only [GrantSys.setRpc, Function.update_self]
    exact ⟨hlen, hg⟩
  · simp [GrantSys.setRpc, Function.update_of_ne hr, hs r hr]

end GrantSys

section FifoGrant

variable {cfg : GrantConfig} {s x : GrantSys} {id : ℕ}

theorem fifoGrant_unmanage (hx : x.rpcs = s.rpcs)
    (hge : ((x.setRpc id { x.rpcs id with
        granted := wrapInt 32 ((x.rpcs id).granted + cfg.fifoGrantIncrement) }).rpcs id).granted ≥
      ((x.setRpc id { x.rpcs id with
        granted := wrapInt 32 ((x.rpcs id).granted + cfg.fifoGrantIncrement) }).rpcs id).length) :
    s.FifoOffsets cfg (homaGrantUpdateIncoming id (homaGrantUnmanageRpc cfg id
      ((x.setRpc id { x.rpcs id with
          granted := wrapInt 32 ((x.rpcs id).granted + cfg.fifoGrantIncrement) }).setRpc id
        { (x.setRpc id { x.rpcs id with
            granted := wrapInt 32 ((x.rpcs id).granted + cfg.fifoGrantIncrement) }).rpcs id with
          granted := (x.setRpc id { x.rpcs id with
            granted := wrapInt 32 ((x.rpcs id).granted + cfg.fifoGrantIncrement) }).rpcs id |>.length
        }))) := by
  refine GrantSys.FifoOffsets.kept ?_
    ((GrantSys.OffsetsKept.of_ranksOnly (ranksOnly_listFrame.unmanage _ _ _)).trans
      (GrantSys.offsetsKept_homaGrantUpdateIncoming _ _))
  simp only [GrantSys.setRpc, Function.update_self, hx] at hge
  refine GrantSys.FifoOffsets.setRpc (fun r hr => ?_) ?_ (.inr ?_)
  · simp [GrantSys.setRpc, Function.update_of_ne hr, hx]
  · simp [GrantSys.setRpc, hx]
  · simp [GrantSys.setRpc, hx, fifoClamp, hge]

theorem fifoGrant_promote (hx : x.rpcs = s.rpcs)
    (hlt : ¬((x.setRpc id { x.rpcs id with
        granted := wrapInt 32 ((x.rpcs id).granted + cfg.fifoGrantIncrement) }).rpcs id).granted ≥
      ((x.setRpc id { x.rpcs id with
        granted := wrapInt 32 ((x.rpcs id).granted + cfg.fifoGrantIncrement) }).rpcs id).length) :
    s.FifoOffsets cfg (homaGrantUpdateIncoming id (homaGrantPromoteRpc cfg id
      (x.setRpc id { x.rpcs id with
        granted := wrapInt 32 ((x.rpcs id).granted + cfg.fifoGrantIncrement) }))) := by
  refine GrantSys.FifoOffsets.kept ?_
    ((GrantSys.OffsetsKept.of_ranksOnly (ranksOnly_listFrame.promote _ _ _)).trans
      (GrantSys.offsetsKept_homaGrantUpdateIncoming _ _))
  simp only [GrantSys.setRpc, Function.update_self, hx] at hlt
  refine GrantSys.FifoOffsets.setRpc (fun r hr => ?_) ?_ (.inr ?_)
  · simp [hx]
  · simp [hx]
  · simp [hx, fifoClamp, hlt]

end FifoGrant

theorem homaGrantCheckFifo_offsets (cfg : GrantConfig) (due : Bool) (s : GrantSys) :
    s.FifoOffsets cfg (homaGrantCheckFifo cfg due s) := by
  unfold homaGrantCheckFifo
  dsimp only
  split_ifs
  · exact .of_rpcs rfl
  · exact .of_rpcs rfl
  -- after the oldest RPC is picked, with or without a search, the same cases
  all_goals
    split
    · exact .of_rpcs (by split <;> (try split_ifs) <;> rfl)
    · split_ifs with hdead hge
      · exact .of_rpcs (by split <;> (try split_ifs) <;> rfl)
      · exact fifoGrant_unmanage (by split <;> (try split_ifs) <;> rfl) hge
      · exact fifoGrant_promote (by split <;> (try split_ifs) <;> rfl) hge

theorem homaGrantInitRpc_offsets {cfg : GrantConfig} {unsched : ℤ} {id : ℕ} {s s' : GrantSys}
    (h : homaGrantInitRpc cfg unsched id s = some s') (r : ℕ) :
    (s'.rpcs r).length = (s.rpcs r).length ∧
      (s'.rpcs r).granted = if r = id then
        (if unsched ≥ (s.rpcs id).length then (s.rpcs id).length else unsched)
      else (s.rpcs r).granted := by
  -- the state before the possible `homa_grant_manage_rpc`
  have hset : ∀ g, (((s.setRank id (-1)).setRpc id
      { (s.setRank id (-1)).rpcs id with granted := g }).rpcs r) =
        if r = id then { s.rpcs id with rank := -1, granted := g } else s.rpcs r := by
    intro g
    by_cases hr : r = id
    · subst hr
      simp [GrantSys.setRank, GrantSys.setRpc]
    · simp [GrantSys.setRank, GrantSys.setRpc, hr]
  have hlen : ((s.setRank id (-1)).rpcs id).length = (s.rpcs id).length := by
    simp [GrantSys.setRank, GrantSys.setRpc]
  unfold homaGrantInitRpc at h
  dsimp only at h
  split_ifs at h with hcover hbpages <;> rw [hlen] at hcover
  · cases h
    rw [hset]
    split_ifs <;> simp [GrantSys.setRank, GrantSys.setRpc, *]
  · have hk := GrantSys.OffsetsKept.of_ranksOnly (ranksOnly_listFrame.manage h) r
    rw [hk.1, hk.2, hset]
    split_ifs <;> simp [*]
  · cases h
    rw [hset]
    split_ifs <;> simp [*]

section Frames

variable {cfg : GrantConfig} {s : GrantSys} {id r : ℕ}

theorem homaGrantUpdateGranted_of_ne (hr : r ≠ id) :
    (homaGrantUpdateGranted cfg id s).1.rpcs r = s.rpcs r := by
  rcases homaGrantUpdateGranted_rpcs cfg id s with h | ⟨g, h⟩ <;> simp [h, hr]

theorem homaGrantUpdateGranted_length (r : ℕ) :
    ((homaGrantUpdateGranted cfg id s).1.rpcs r).length = (s.rpcs r).length := by
  by_cases hr : r = id
  · subst hr
    rcases homaGrantUpdateGranted_rpcs cfg r s with h | ⟨g, h⟩ <;> simp [h]
  · rw [homaGrantUpdateGranted_of_ne hr]

theorem fifoClamp_bounds {rpc : GrantRpc} (hg : 0 ≤ rpc.granted) (hgl : rpc.granted ≤ rpc.length)
    (hl : rpc.length ≤ 2 ^ 29) (hinc : 0 ≤ cfg.fifoGrantIncrement)
    (hinc' : cfg.fifoGrantIncrement ≤ 2 ^ 29) :
    rpc.granted ≤ fifoClamp cfg rpc ∧ fifoClamp cfg rpc ≤ rpc.length := by
  have hwrap : wrapInt 32 (rpc.granted + cfg.fifoGrantIncrement) =
      rpc.granted + cfg.fifoGrantIncrement := wrapInt_32_of_mem (by omega) (by omega)
  unfold fifoClamp
  dsimp only
  rw [hwrap]
  split_ifs <;> omega

end Frames

/-! ## Runs of the calls that set offsets -/

/-- A call that sets grant offsets. -/
inductive OffsetOp where
  | updateGranted (id : ℕ)
  | checkFifo (due : Bool)
  | initRpc (unsched : ℤ) (id : ℕ)

namespace OffsetOp

def step (cfg : GrantConfig) (s : GrantSys) : OffsetOp → Option GrantSys
  | .updateGranted id => some (homaGrantUpdateGranted cfg id s).1
  | .checkFifo due => some (homaGrantCheckFifo cfg due s)
  | .initRpc unsched id => homaGrantInitRpc cfg unsched id s

/-- The call is made within the bounds: its quantities stay well inside
`int`, and the FIFO increment is not negative. -/
def Bounded (cfg : GrantConfig) (s : GrantSys) : OffsetOp → Prop
  | .updateGranted id => UpdateBounds cfg s (s.rpcs id)
  | .checkFifo _ => 0 ≤ cfg.fifoGrantIncrement ∧ cfg.fifoGrantIncrement ≤ 2 ^ 29
  | .initRpc unsched id => (s.rpcs id).granted = 0 ∧ 0 ≤ unsched

end OffsetOp

/-- The states that bounded calls lead to from `s`. -/
inductive OffsetRun (cfg : GrantConfig) (s : GrantSys) : GrantSys → Prop where
  | refl : OffsetRun cfg s s
  | step {s1 s2 : GrantSys} {op : OffsetOp} : OffsetRun cfg s s1 → op.Bounded cfg s1 →
      op.step cfg s1 = some s2 → OffsetRun cfg s s2

/-- The offset of message `r` lies inside it, and the message is far from
the `int` limit. -/
def OffsetOk (s : GrantSys) (r : ℕ) : Prop :=
  0 ≤ (s.rpcs r).granted ∧ (s.rpcs r).granted ≤ (s.rpcs r).length ∧ (s.rpcs r).length ≤ 2 ^ 29

theorem OffsetOp.offsetOk {cfg : GrantConfig} {s s' : GrantSys} {op : OffsetOp} {r : ℕ}
    (hb : op.Bounded cfg s) (hs : op.step cfg s = some s') (hok : OffsetOk s r) :
    OffsetOk s' r ∧ (s.rpcs r).granted ≤ (s'.rpcs r).granted := by
  unfold OffsetOk at hok ⊢
  obtain ⟨hg0, hgl, hl⟩ := hok
  cases op with
  | updateGranted id =>
      cases hs
      have hlen : ((homaGrantUpdateGranted cfg id s).1.rpcs r).length = (s.rpcs r).length :=
        homaGrantUpdateGranted_length r
      by_cases hr : r = id
      · subst hr
        rcases homaGrantUpdateGranted_spec hb with ⟨-, hg⟩ | ⟨-, hlt, hg⟩
        · refine ⟨⟨?_, ?_, ?_⟩, ?_⟩ <;> omega
        · have hle := grantOffset_le_length cfg s (s.rpcs r)
          refine ⟨⟨?_, ?_, ?_⟩, ?_⟩ <;> omega
      · rw [homaGrantUpdateGranted_of_ne hr]
        exact ⟨⟨hg0, hgl, hl⟩, le_rfl⟩
  | checkFifo due =>
      cases hs
      obtain ⟨hlen, hg⟩ := homaGrantCheckFifo_offsets cfg due s r
      have hclamp := fifoClamp_bounds hg0 hgl hl hb.1 hb.2
      rcases hg with hg | hg <;> refine ⟨⟨?_, ?_, ?_⟩, ?_⟩ <;> omega
  | initRpc unsched id =>
      obtain ⟨hlen, hg⟩ := homaGrantInitRpc_offsets hs r
      have hzero := hb.1
      have hpos := hb.2
      by_cases hr : r = id
      · subst hr
        rw [if_pos rfl] at hg
        split_ifs at hg <;> refine ⟨⟨?_, ?_, ?_⟩, ?_⟩ <;> omega
      · rw [if_neg hr] at hg
        refine ⟨⟨?_, ?_, ?_⟩, ?_⟩ <;> omega

theorem OffsetRun.offsetOk {cfg : GrantConfig} {s s' : GrantSys} (h : OffsetRun cfg s s') {r : ℕ}
    (hok : OffsetOk s r) : OffsetOk s' r ∧ (s.rpcs r).granted ≤ (s'.rpcs r).granted := by
  induction h with
  | refl => exact ⟨hok, le_rfl⟩
  | step _ hb hs ih =>
      obtain ⟨hok1, hle1⟩ := ih
      obtain ⟨hok2, hle2⟩ := OffsetOp.offsetOk hb hs hok1
      exact ⟨hok2, hle1.trans hle2⟩

/-- Within the bounds, one call of `homa_grant_update_granted` either
declines and leaves the offset alone, or raises it, within the message and
the window, keeping the bytes granted but not received within the
headroom; and over every sequence of bounded calls of
`homa_grant_update_granted`, `homa_grant_check_fifo` and
`homa_grant_init_rpc` a message's offset never goes down and never passes
its length. -/
theorem homaGrantOffsets_bounded :
    (∀ (cfg : GrantConfig) (s : GrantSys) (id : ℕ),
      (s.rpcs id).recIncoming =
          max 0 ((s.rpcs id).granted - ((s.rpcs id).length - (s.rpcs id).bytesRemaining)) →
      UpdateBounds cfg s (s.rpcs id) →
      ((homaGrantUpdateGranted cfg id s).2 = -1 ∧
          ((homaGrantUpdateGranted cfg id s).1.rpcs id).granted = (s.rpcs id).granted) ∨
        (0 ≤ (homaGrantUpdateGranted cfg id s).2 ∧
          (s.rpcs id).granted < ((homaGrantUpdateGranted cfg id s).1.rpcs id).granted ∧
          ((homaGrantUpdateGranted cfg id s).1.rpcs id).granted ≤ (s.rpcs id).length ∧
          ((homaGrantUpdateGranted cfg id s).1.rpcs id).granted ≤
            (s.rpcs id).length - (s.rpcs id).bytesRemaining + s.grant.window ∧
          s.grant.totalIncoming - (s.rpcs id).recIncoming +
              (((homaGrantUpdateGranted cfg id s).1.rpcs id).granted -
                ((s.rpcs id).length - (s.rpcs id).bytesRemaining)) ≤
            max cfg.maxIncoming s.grant.totalIncoming)) ∧
    (∀ (cfg : GrantConfig) (r : ℕ) (s s' : GrantSys), OffsetRun cfg s s' → OffsetOk s r →
      OffsetOk s' r ∧ (s.rpcs r).granted ≤ (s'.rpcs r).granted) := by
  refine ⟨fun cfg s id _ hb => ?_, fun cfg r s s' h hok => h.offsetOk hok⟩
  rcases homaGrantUpdateGranted_spec hb with hdecline | ⟨hp, hlt, hg⟩
  · exact .inl hdecline
  · rw [hg]
    exact .inr ⟨hp, hlt, grantOffset_le_length cfg s _, grantOffset_le_window cfg s _,
      grantOffset_headroom cfg s _⟩

/-- One active message of 1000 bytes from peer 0, nothing received, 5 bytes
granted and counted in `total_incoming`, under grant window `window`. -/
def oneMessageState (window : ℤ) : GrantSys :=
  { grant := { activeRpcs := [0], grantablePeers := [], numGrantableRpcs := 1, totalIncoming := 5,
               stalledRank := intMax, window, oldestRpc := none }
    peers := Function.update (fun _ => ⟨[], 0⟩) 0 ⟨[], 1⟩
    rpcs := Function.update (fun _ => GrantRpc.alloc 0) 0
      { peer := 0, length := 1000, bytesRemaining := 1000, granted := 5, recIncoming := 5,
        rank := 0, birth := 0, numBpages := 1, silentTicks := 0, dead := false }
    live := {0} }

theorem homaGrantOffsets_bounded_oneMessage :
    UpdateBounds GrantConfig.default (oneMessageState 10000) ((oneMessageState 10000).rpcs 0) ∧
      OffsetRun GrantConfig.default (oneMessageState 10000)
        (homaGrantUpdateGranted GrantConfig.default 0 (oneMessageState 10000)).1 ∧
      OffsetOk (homaGrantUpdateGranted GrantConfig.default 0 (oneMessageState 10000)).1 0 ∧
      ((homaGrantUpdateGranted GrantConfig.default 0 (oneMessageState 10000)).1.rpcs 0).granted ≤
        1000 := by
  have hb : UpdateBounds GrantConfig.default (oneMessageState 10000)
      ((oneMessageState 10000).rpcs 0) := by
    constructor <;> decide
  have hrec : ((oneMessageState 10000).rpcs 0).recIncoming =
      max 0 (((oneMessageState 10000).rpcs 0).granted -
        (((oneMessageState 10000).rpcs 0).length - ((oneMessageState 10000).rpcs 0).bytesRemaining)) := by
    decide
  have hrun : OffsetRun GrantConfig.default (oneMessageState 10000)
      (homaGrantUpdateGranted GrantConfig.default 0 (oneMessageState 10000)).1 :=
    @OffsetRun.step _ _ _ _ (.updateGranted 0) .refl hb rfl
  have hok : OffsetOk (oneMessageState 10000) 0 := by
    unfold OffsetOk
    decide
  refine ⟨hb, hrun, (homaGrantOffsets_bounded.2 _ 0 _ _ hrun hok).1, ?_⟩
  rcases homaGrantOffsets_bounded.1 _ _ _ hrec hb with ⟨-, h⟩ | ⟨-, -, h, -⟩
  · rw [h]
    decide
  · exact h

/-- The `window` sysctl at `INT_MIN`, a value `proc_dointvec` accepts. -/
def intMinWindowCfg : GrantConfig := { GrantConfig.default with windowParam := -2 ^ 31 }

/-- With the window at `INT_MIN`, `received + window` wraps nothing but
`new_grant_offset - received` underflows to `INT_MAX - 4`; the headroom clip
then subtracts past `INT_MIN` and lands on `max_incoming`, far beyond the
message: `homa_grant_update_granted` grants 400000 bytes of a 1000-byte
message. -/
theorem homaGrantUpdateGranted_window_wraps :
    ((oneMessageState (homaGrantWindow intMinWindowCfg 1)).rpcs 0).recIncoming =
        max 0 (((oneMessageState (homaGrantWindow intMinWindowCfg 1)).rpcs 0).granted -
          (((oneMessageState (homaGrantWindow intMinWindowCfg 1)).rpcs 0).length -
            ((oneMessageState (homaGrantWindow intMinWindowCfg 1)).rpcs 0).bytesRemaining)) ∧
      0 ≤ (homaGrantUpdateGranted intMinWindowCfg 0
        (oneMessageState (homaGrantWindow intMinWindowCfg 1))).2 ∧
      ((homaGrantUpdateGranted intMinWindowCfg 0
        (oneMessageState (homaGrantWindow intMinWindowCfg 1))).1.rpcs 0).granted = 400000 ∧
      ((oneMessageState (homaGrantWindow intMinWindowCfg 1)).rpcs 0).length = 1000 := by
  have hwin : homaGrantWindow intMinWindowCfg 1 = -2 ^ 31 := by
    unfold homaGrantWindow wrapInt
    decide
  rw [hwin]
  unfold homaGrantUpdateGranted wrapInt
  decide

end Homa
