import Homa.MessageOutFill
import Homa.Socket

/-!
# The transmit path and the pacer

`homa_xmit_data` walks an RPC's `msgout.packets` from `next_xmit` while the
packet starts below `granted`.  A packet of a long message first asks
`homa_pacer_check_nic_q` whether `link_idle_time` is at most
`max_nic_queue_cycles` ahead of the clock; one held back puts its RPC on
`throttled_rpcs` (`homa_pacer_manage_rpc`), sorted by bytes left, from which
the pacer thread sends with `force`, taking the oldest RPC
`fifo_fraction` thousandths of the time.  `granted` rises on GRANT and on a
RESEND past it; `homa_rpc_tx_end` finds how far the NIC has transmitted.

Each function is one locked region; their interleaving is `TxSys`
(Homa.TxSystem).  A packet is named by its index in `msgout.packets`, a link
into the list by the index it points at (the length for NULL).  The clock
and `link_idle_time` are `u64` cycle counts that do not wrap, so `ℕ`.
-/

namespace Homa

open MachineArith

/-- What `homa_xmit_data`, the pacer and `homa_rpc_tx_end` read of an
outgoing DATA packet: its `homa_skb_info`. -/
structure TxPacket where
  /-- `homa_info->offset`. -/
  offset : ℤ
  /-- `homa_info->data_bytes`. -/
  dataBytes : ℤ
  /-- `homa_info->wire_bytes`: the bytes the packet takes on the wire, headers
  of all its segments included. -/
  wireBytes : ℤ
  deriving DecidableEq, Repr

def TxPacket.stop (p : TxPacket) : ℤ :=
  p.offset + p.dataBytes

/-- `HOMA_ETH_OVERHEAD`: Ethernet header, CRC, preamble and gap. -/
def homaEthOverhead : ℤ := 18 + 24

/-- The `homa_skb_info` that `homa_tx_data_pkt_alloc` gives a packet: its
`wire_bytes` counts the data and, for each segment, a `homa_data_hdr`, the
IP header and `HOMA_ETH_OVERHEAD`, an unsigned product stored in an `int`. -/
def DataSkb.txPacket (g : Geometry) (skb : DataSkb) : TxPacket :=
  { offset := skb.offset
    dataBytes := skb.dataBytes
    wireBytes := wrapInt 32 (skb.dataBytes +
      homaTxSegs skb.dataBytes g.maxSegData * (homaDataHdrSize + g.ipHeaderLength + homaEthOverhead)) }

/-- The fields of an RPC and of its `struct homa_message_out` that sending
reads and writes. -/
structure TxRpc where
  state : RpcState
  length : ℤ
  unscheduled : ℤ
  granted : ℤ
  /-- `msgout.sched_priority`, from the last GRANT. -/
  schedPriority : ℕ
  packets : List TxPacket
  /-- `msgout.next_xmit`: the first packet not yet handed to the IP stack. -/
  nextXmit : ℕ
  nextXmitOffset : ℤ
  /-- `msgout.first_not_tx`: where `homa_rpc_tx_end` resumes. -/
  firstNotTx : ℕ
  initTime : ℕ
  deriving DecidableEq, Repr

/-- `homa_message_out_init(rpc, length)` at `homa_clock() = clock`, followed
by `granted = unscheduled`, which `homa_message_out_fill` sets before its
loop.  `homa_sendmsg` has made the RPC `RPC_OUTGOING`. -/
def txRpcInit (length unschedBytes : ℤ) (clock : ℕ) : TxRpc :=
  let m := homaMessageOutInit length unschedBytes
  { state := .outgoing, length, unscheduled := m.unscheduled, granted := m.unscheduled
    schedPriority := 0, packets := [], nextXmit := 0, nextXmitOffset := 0, firstNotTx := 0
    initTime := clock }

/-- What the pacer's functions use of `struct homa_pacer`; the throttled
RPCs by id, in list order.  Its mutex is `TxSys.pacerBusy`. -/
structure Pacer where
  fifoCount : ℤ
  throttled : List ℕ
  /-- `link_idle_time`. -/
  linkIdleTime : ℕ
  deriving DecidableEq, Repr

/-- The sysctl values the transmit path reads through `pacer->homa`. -/
structure TxConfig where
  /-- `qshared->max_nic_queue_cycles`, an `int`. -/
  maxNicQueueCycles : ℤ
  /-- `qshared->fifo_fraction`, in thousandths. -/
  fifoFraction : ℤ
  /-- `pacer->cycles_per_mbyte`. -/
  cyclesPerMbyte : ℕ
  /-- `qshared->defer_min_bytes`. -/
  deferMinBytes : ℤ
  /-- `homa->flags & HOMA_FLAG_DONT_THROTTLE`. -/
  dontThrottle : Bool
  /-- `homa_qdisc_active(homa)`. -/
  qdiscActive : Bool
  deriving DecidableEq, Repr

/-! ## `homa_pacer_check_nic_q` -/

/-- `cycles_for_packet`: `cycles_per_mbyte` times the `int` `wire_bytes`, in
`u64`, over a million. -/
def cyclesForPacket (cfg : TxConfig) (wireBytes : ℤ) : ℕ :=
  cfg.cyclesPerMbyte * (wireBytes % 2 ^ 64).toNat % 2 ^ 64 / 1000000

/-- One pass of the loop of `homa_pacer_check_nic_q(pacer, skb, force)`:
`none` when it returns 0, else the `link_idle_time` its `cmpxchg` stores.
A retried `cmpxchg` is a pass that starts later. -/
def homaPacerCheckNicQ (cfg : TxConfig) (linkIdleTime clock : ℕ) (wireBytes : ℤ)
    (force : Bool) : Option ℕ :=
  if (clock : ℤ) + cfg.maxNicQueueCycles < linkIdleTime ∧ force = false ∧ cfg.dontThrottle = false then
    none
  else if linkIdleTime < clock then some (clock + cyclesForPacket cfg wireBytes)
  else some (linkIdleTime + cyclesForPacket cfg wireBytes)

section CheckNicQ

variable {cfg : TxConfig} {linkIdleTime clock : ℕ} {wireBytes : ℤ}

theorem homaPacerCheckNicQ_eq_some {force : Bool} {idle : ℕ}
    (h : homaPacerCheckNicQ cfg linkIdleTime clock wireBytes force = some idle) :
    idle = max linkIdleTime clock + cyclesForPacket cfg wireBytes ∧
      (force = false → cfg.dontThrottle = false →
        (linkIdleTime : ℤ) ≤ clock + cfg.maxNicQueueCycles) := by
  unfold homaPacerCheckNicQ at h
  split_ifs at h with hfull hidle
  · cases h
    refine ⟨by rw [max_eq_right hidle.le], fun hf hd => ?_⟩
    simp only [hf, hd, and_true, not_lt] at hfull
    exact hfull
  · cases h
    refine ⟨by rw [max_eq_left (not_lt.mp hidle)], fun hf hd => ?_⟩
    simp only [hf, hd, and_true, not_lt] at hfull
    exact hfull

theorem homaPacerCheckNicQ_force :
    homaPacerCheckNicQ cfg linkIdleTime clock wireBytes true =
      some (max linkIdleTime clock + cyclesForPacket cfg wireBytes) := by
  unfold homaPacerCheckNicQ
  rw [if_neg (by simp)]
  split_ifs with hidle
  · rw [max_eq_right hidle.le]
  · rw [max_eq_left (not_lt.mp hidle)]

end CheckNicQ

/-! ## The throttled list -/

/-- The walk of `homa_pacer_manage_rpc` down `throttled_rpcs`: `id` goes in
front of the first candidate with more bytes left, at the end when there is
none. -/
def throttleInsert (bytesLeft : ℕ → ℤ) (id : ℕ) : List ℕ → List ℕ
  | [] => [id]
  | cand :: rest =>
    if bytesLeft cand > bytesLeft id then id :: cand :: rest
    else cand :: throttleInsert bytesLeft id rest

/-- `homa_pacer_manage_rpc(rpc)` for the RPC `id`; `bytesLeft` reads
`msgout.length - msgout.next_xmit_offset` of each RPC. -/
def homaPacerManageRpc (bytesLeft : ℕ → ℤ) (id : ℕ) (p : Pacer) : Pacer :=
  if id ∈ p.throttled then p
  else { p with throttled := throttleInsert bytesLeft id p.throttled }

def homaPacerUnmanageRpc (id : ℕ) (p : Pacer) : Pacer :=
  if id ∈ p.throttled then { p with throttled := p.throttled.erase id } else p

theorem throttleInsert_perm (bytesLeft : ℕ → ℤ) (id : ℕ) (l : List ℕ) :
    (throttleInsert bytesLeft id l).Perm (id :: l) := by
  induction l with
  | nil => exact List.Perm.refl _
  | cons cand rest ih =>
    unfold throttleInsert
    split_ifs
    · exact List.Perm.refl _
    · exact (ih.cons cand).trans (List.Perm.swap id cand rest)

theorem throttleInsert_eq_orderedInsert (bytesLeft : ℕ → ℤ) (id : ℕ) (l : List ℕ) :
    throttleInsert bytesLeft id l =
      l.orderedInsert (fun a b => bytesLeft a < bytesLeft b) id := by
  induction l with
  | nil => rfl
  | cons cand rest ih =>
    unfold throttleInsert
    rw [List.orderedInsert_cons, ih]

section Manage

variable {bytesLeft : ℕ → ℤ} {id x : ℕ} {p : Pacer}

@[simp] theorem homaPacerManageRpc_linkIdleTime :
    (homaPacerManageRpc bytesLeft id p).linkIdleTime = p.linkIdleTime := by
  unfold homaPacerManageRpc
  split_ifs <;> rfl

@[simp] theorem homaPacerManageRpc_fifoCount :
    (homaPacerManageRpc bytesLeft id p).fifoCount = p.fifoCount := by
  unfold homaPacerManageRpc
  split_ifs <;> rfl

@[simp] theorem homaPacerUnmanageRpc_linkIdleTime :
    (homaPacerUnmanageRpc id p).linkIdleTime = p.linkIdleTime := by
  unfold homaPacerUnmanageRpc
  split_ifs <;> rfl

@[simp] theorem homaPacerUnmanageRpc_fifoCount :
    (homaPacerUnmanageRpc id p).fifoCount = p.fifoCount := by
  unfold homaPacerUnmanageRpc
  split_ifs <;> rfl

theorem mem_homaPacerManageRpc :
    x ∈ (homaPacerManageRpc bytesLeft id p).throttled ↔ x = id ∨ x ∈ p.throttled := by
  unfold homaPacerManageRpc
  split_ifs with hid
  · constructor
    · exact Or.inr
    · rintro (rfl | hx)
      · exact hid
      · exact hx
  · rw [(throttleInsert_perm bytesLeft id p.throttled).mem_iff, List.mem_cons]

theorem nodup_homaPacerManageRpc (hnd : p.throttled.Nodup) :
    (homaPacerManageRpc bytesLeft id p).throttled.Nodup := by
  unfold homaPacerManageRpc
  split_ifs with hid
  · exact hnd
  · exact (throttleInsert_perm bytesLeft id p.throttled).nodup_iff.mpr
      (List.nodup_cons.mpr ⟨hid, hnd⟩)

theorem mem_homaPacerUnmanageRpc (hnd : p.throttled.Nodup) :
    x ∈ (homaPacerUnmanageRpc id p).throttled ↔ x ≠ id ∧ x ∈ p.throttled := by
  unfold homaPacerUnmanageRpc
  split_ifs with hid
  · exact hnd.mem_erase_iff
  · constructor
    · intro hx
      exact ⟨fun h => hid (h ▸ hx), hx⟩
    · exact And.right

theorem nodup_homaPacerUnmanageRpc (hnd : p.throttled.Nodup) :
    (homaPacerUnmanageRpc id p).throttled.Nodup := by
  unfold homaPacerUnmanageRpc
  split_ifs
  · exact hnd.erase id
  · exact hnd

end Manage

/-! ## The pacer's choice -/

/-- One candidate of the FIFO walk of `homa_pacer_xmit`: keep the RPC with
the smallest `init_time` seen so far, the first of equals. -/
def oldestStep (initTime : ℕ → ℕ) (acc : Option ℕ × ℕ) (cur : ℕ) : Option ℕ × ℕ :=
  if initTime cur < acc.2 then (some cur, initTime cur) else acc

/-- The choice of `homa_pacer_xmit`: `fifo_count` drops by
`fifo_fraction`, and once not positive is refilled by 1000 and the oldest
RPC taken; otherwise the first. -/
def homaPacerSelect (cfg : TxConfig) (initTime : ℕ → ℕ) (p : Pacer) : Pacer × Option ℕ :=
  let fifoCount := wrapInt 32 (p.fifoCount - cfg.fifoFraction)
  if fifoCount ≤ 0 then
    ({ p with fifoCount := wrapInt 32 (fifoCount + 1000) },
      (p.throttled.foldl (oldestStep initTime) (none, 2 ^ 64 - 1)).1)
  else ({ p with fifoCount }, p.throttled.head?)

def homaPacerSelectFifo (cfg : TxConfig) (p : Pacer) : Bool :=
  decide (wrapInt 32 (p.fifoCount - cfg.fifoFraction) ≤ 0)

section Select

variable {cfg : TxConfig} {initTime : ℕ → ℕ} {p : Pacer}

theorem foldl_oldestStep_mem (l : List ℕ) :
    ∀ {acc : Option ℕ × ℕ} {id : ℕ}, (l.foldl (oldestStep initTime) acc).1 = some id →
      acc.1 = some id ∨ id ∈ l := by
  induction l with
  | nil =>
    intro acc id h
    exact Or.inl h
  | cons cur rest ih =>
    intro acc id h
    rw [List.foldl_cons] at h
    rcases ih h with hacc | hrest
    · unfold oldestStep at hacc
      split_ifs at hacc
      · cases hacc
        exact Or.inr List.mem_cons_self
      · exact Or.inl hacc
    · exact Or.inr (List.mem_cons_of_mem cur hrest)

@[simp] theorem homaPacerSelect_throttled :
    (homaPacerSelect cfg initTime p).1.throttled = p.throttled := by
  unfold homaPacerSelect
  dsimp only
  split_ifs <;> rfl

@[simp] theorem homaPacerSelect_linkIdleTime :
    (homaPacerSelect cfg initTime p).1.linkIdleTime = p.linkIdleTime := by
  unfold homaPacerSelect
  dsimp only
  split_ifs <;> rfl

theorem mem_of_homaPacerSelect {id : ℕ} (h : (homaPacerSelect cfg initTime p).2 = some id) :
    id ∈ p.throttled := by
  unfold homaPacerSelect at h
  dsimp only at h
  split_ifs at h
  · exact (foldl_oldestStep_mem p.throttled h).resolve_left (by simp)
  · exact List.mem_of_mem_head? h

theorem homaPacerSelect_fifoCount (hf0 : 0 ≤ cfg.fifoFraction) (hf : cfg.fifoFraction ≤ 1000)
    (hc0 : 0 < p.fifoCount) (hc : p.fifoCount ≤ 1000) :
    (homaPacerSelect cfg initTime p).1.fifoCount =
        p.fifoCount - cfg.fifoFraction + (if homaPacerSelectFifo cfg p then 1000 else 0) ∧
      0 < (homaPacerSelect cfg initTime p).1.fifoCount ∧
      (homaPacerSelect cfg initTime p).1.fifoCount ≤ 1000 := by
  have hsub : wrapInt 32 (p.fifoCount - cfg.fifoFraction) = p.fifoCount - cfg.fifoFraction :=
    wrapInt_32_of_mem (by omega) (by omega)
  unfold homaPacerSelect homaPacerSelectFifo
  dsimp only
  rw [hsub]
  by_cases hfifo : p.fifoCount - cfg.fifoFraction ≤ 0
  · -- a FIFO choice refills the count
    have hadd : wrapInt 32 (p.fifoCount - cfg.fifoFraction + 1000) =
        p.fifoCount - cfg.fifoFraction + 1000 :=
      wrapInt_32_of_mem (by omega) (by omega)
    simp only [hfifo, if_true, decide_true]
    rw [hadd]
    omega
  · simp only [hfifo, if_false, decide_false, Bool.false_eq_true]
    omega

end Select

/-! ## One pass of `homa_xmit_data` -/

/-- The priority `homa_xmit_data` passes to `__homa_xmit_data`. -/
inductive XmitPriority where
  /-- `homa_unsched_priority(homa, rpc->peer, rpc->msgout.length)`. -/
  | unsched
  /-- `rpc->msgout.sched_priority`. -/
  | sched (priority : ℕ)
  deriving DecidableEq, Repr

/-- How one pass of the loop of `homa_xmit_data` ends. -/
inductive XmitStep where
  /-- The loop ends, with the pacer as given. -/
  | exit (pacer : Pacer)
  /-- `skb` goes to `__homa_xmit_data` at `priority`, and the loop goes on
  with the RPC and the pacer as given. -/
  | send (rpc : TxRpc) (pacer : Pacer) (skb : TxPacket) (priority : XmitPriority)

/-- One pass of the loop of `homa_xmit_data(rpc, force)`: the loop test, the
grant test, the NIC queue test for a long message, then `next_xmit` moves
past the packet. -/
def homaXmitDataBody (cfg : TxConfig) (clock : ℕ) (bytesLeft : ℕ → ℤ) (id : ℕ) (force : Bool)
    (rpc : TxRpc) (pacer : Pacer) : XmitStep :=
  match rpc.packets[rpc.nextXmit]? with
  | none => .exit pacer
  | some skb =>
    if rpc.state = .dead then .exit pacer
    else if rpc.nextXmitOffset ≥ rpc.granted then .exit pacer
    else
      let admitted : Option ℕ :=
        if rpc.length - rpc.nextXmitOffset > cfg.deferMinBytes ∧ cfg.qdiscActive = false then
          homaPacerCheckNicQ cfg pacer.linkIdleTime clock skb.wireBytes force
        else some pacer.linkIdleTime
      match admitted with
      | none => .exit (homaPacerManageRpc bytesLeft id pacer)
      | some linkIdleTime =>
        .send
          { rpc with
            nextXmit := rpc.nextXmit + 1
            nextXmitOffset := wrapInt 32 (rpc.nextXmitOffset + skb.dataBytes) }
          { pacer with linkIdleTime } skb
          (if rpc.nextXmitOffset < rpc.unscheduled then .unsched else .sched rpc.schedPriority)

section XmitBody

variable {cfg : TxConfig} {clock : ℕ} {bytesLeft : ℕ → ℤ} {id : ℕ} {force : Bool}
  {rpc : TxRpc} {pacer : Pacer}

theorem homaXmitDataBody_exit {pacer' : Pacer}
    (h : homaXmitDataBody cfg clock bytesLeft id force rpc pacer = .exit pacer') :
    ((rpc.packets.length ≤ rpc.nextXmit ∨ rpc.state = .dead ∨ rpc.granted ≤ rpc.nextXmitOffset) ∧
        pacer' = pacer) ∨
      (∃ skb, rpc.packets[rpc.nextXmit]? = some skb ∧ rpc.state ≠ .dead ∧
        rpc.nextXmitOffset < rpc.granted ∧ cfg.deferMinBytes < rpc.length - rpc.nextXmitOffset ∧
        cfg.qdiscActive = false ∧
        homaPacerCheckNicQ cfg pacer.linkIdleTime clock skb.wireBytes force = none ∧
        pacer' = homaPacerManageRpc bytesLeft id pacer) := by
  unfold homaXmitDataBody at h
  cases hskb : rpc.packets[rpc.nextXmit]? with
  | none =>
    rw [hskb] at h
    cases h
    exact Or.inl ⟨Or.inl (List.getElem?_eq_none_iff.mp hskb), rfl⟩
  | some skb =>
    simp only [hskb] at h
    by_cases hdead : rpc.state = .dead
    · rw [if_pos hdead] at h
      cases h
      exact Or.inl ⟨Or.inr (Or.inl hdead), rfl⟩
    rw [if_neg hdead] at h
    by_cases hgranted : rpc.nextXmitOffset ≥ rpc.granted
    · rw [if_pos hgranted] at h
      cases h
      exact Or.inl ⟨Or.inr (Or.inr hgranted), rfl⟩
    rw [if_neg hgranted] at h
    by_cases hlong : rpc.length - rpc.nextXmitOffset > cfg.deferMinBytes ∧ cfg.qdiscActive = false
    · -- a long message: the pacer is asked, and says no
      rw [if_pos hlong] at h
      cases hcheck : homaPacerCheckNicQ cfg pacer.linkIdleTime clock skb.wireBytes force with
      | none =>
        rw [hcheck] at h
        cases h
        exact Or.inr ⟨skb, rfl, hdead, not_le.mp hgranted, hlong.1, hlong.2, hcheck, rfl⟩
      | some idle =>
        rw [hcheck] at h
        cases h
    · rw [if_neg hlong] at h
      cases h

theorem homaXmitDataBody_send {rpc' : TxRpc} {pacer' : Pacer} {skb : TxPacket}
    {priority : XmitPriority}
    (h : homaXmitDataBody cfg clock bytesLeft id force rpc pacer = .send rpc' pacer' skb priority) :
    rpc.packets[rpc.nextXmit]? = some skb ∧ rpc.state ≠ .dead ∧
      rpc.nextXmitOffset < rpc.granted ∧
      rpc' = { rpc with
        nextXmit := rpc.nextXmit + 1
        nextXmitOffset := wrapInt 32 (rpc.nextXmitOffset + skb.dataBytes) } ∧
      (∃ idle, pacer' = { pacer with linkIdleTime := idle } ∧
        (idle = pacer.linkIdleTime ∨
          homaPacerCheckNicQ cfg pacer.linkIdleTime clock skb.wireBytes force = some idle)) ∧
      priority = if rpc.nextXmitOffset < rpc.unscheduled then .unsched else .sched rpc.schedPriority := by
  unfold homaXmitDataBody at h
  cases hskb : rpc.packets[rpc.nextXmit]? with
  | none =>
    rw [hskb] at h
    cases h
  | some skb₀ =>
    simp only [hskb] at h
    by_cases hdead : rpc.state = .dead
    · rw [if_pos hdead] at h
      cases h
    rw [if_neg hdead] at h
    by_cases hgranted : rpc.nextXmitOffset ≥ rpc.granted
    · rw [if_pos hgranted] at h
      cases h
    rw [if_neg hgranted] at h
    by_cases hlong : rpc.length - rpc.nextXmitOffset > cfg.deferMinBytes ∧ cfg.qdiscActive = false
    · -- a long message: the pacer is asked
      rw [if_pos hlong] at h
      cases hcheck : homaPacerCheckNicQ cfg pacer.linkIdleTime clock skb₀.wireBytes force with
      | none =>
        rw [hcheck] at h
        cases h
      | some idle =>
        rw [hcheck] at h
        simp only [XmitStep.send.injEq] at h
        obtain ⟨rfl, rfl, rfl, rfl⟩ := h
        exact ⟨rfl, hdead, not_le.mp hgranted, rfl, ⟨idle, rfl, Or.inr hcheck⟩, rfl⟩
    · -- a short message, or a qdisc does the pacing: no check
      rw [if_neg hlong] at h
      simp only [XmitStep.send.injEq] at h
      obtain ⟨rfl, rfl, rfl, rfl⟩ := h
      exact ⟨rfl, hdead, not_le.mp hgranted, rfl, ⟨pacer.linkIdleTime, rfl, Or.inl rfl⟩, rfl⟩

end XmitBody

/-! ## Raising the grant -/

/-- `homa_grant_pkt(skb, rpc)` on a GRANT for `offset` at `priority`, up to
its call of `homa_xmit_data`: only an `RPC_OUTGOING` RPC takes it, and
`granted` rises to the offset, capped by the length. -/
def homaGrantPktUpdate (offset : ℤ) (priority : ℕ) (rpc : TxRpc) : TxRpc :=
  if rpc.state = .outgoing then
    { rpc with
      granted :=
        if offset > rpc.granted then (if offset > rpc.length then rpc.length else offset)
        else rpc.granted
      schedPriority := priority }
  else rpc

/-- The end of the range of `homa_resend_pkt`: `offset + length`, or where
transmission has got to when `length` is -1. -/
def homaResendEnd (offset length txEnd : ℤ) : ℤ :=
  if length = -1 then txEnd else wrapInt 32 (offset + length)

/-- The raise of `granted` in `homa_resend_pkt` when the RESEND asks for more
than was granted: the GRANT that would have allowed it is taken to be lost. -/
def homaResendGrant (stop : ℤ) (rpc : TxRpc) : TxRpc :=
  if stop > rpc.granted then
    { rpc with granted := if stop > rpc.length then rpc.length else stop }
  else rpc

section Grant

variable {rpc : TxRpc}

theorem homaGrantPktUpdate_granted (offset : ℤ) (priority : ℕ) (h : rpc.granted ≤ rpc.length) :
    rpc.granted ≤ (homaGrantPktUpdate offset priority rpc).granted ∧
      (homaGrantPktUpdate offset priority rpc).granted ≤ rpc.length := by
  unfold homaGrantPktUpdate
  by_cases hout : rpc.state = .outgoing
  · rw [if_pos hout]
    dsimp only
    split_ifs <;> omega
  · rw [if_neg hout]
    exact ⟨le_rfl, h⟩

theorem homaResendGrant_granted (stop : ℤ) (h : rpc.granted ≤ rpc.length) :
    rpc.granted ≤ (homaResendGrant stop rpc).granted ∧
      (homaResendGrant stop rpc).granted ≤ rpc.length := by
  unfold homaResendGrant
  by_cases hmore : stop > rpc.granted
  · rw [if_pos hmore]
    dsimp only
    split_ifs <;> omega
  · rw [if_neg hmore]
    exact ⟨le_rfl, h⟩

theorem lt_homaResendGrant_granted {stop x : ℤ} (hmore : rpc.granted < stop) (hx : x < stop)
    (hlen : x < rpc.length) : x < (homaResendGrant stop rpc).granted := by
  unfold homaResendGrant
  rw [if_pos hmore]
  dsimp only
  split_ifs <;> omega

theorem homaGrantPktUpdate_eq (offset : ℤ) (priority : ℕ) :
    ∃ g q, homaGrantPktUpdate offset priority rpc = { rpc with granted := g, schedPriority := q } := by
  unfold homaGrantPktUpdate
  by_cases hout : rpc.state = .outgoing
  · rw [if_pos hout]
    exact ⟨_, _, rfl⟩
  · rw [if_neg hout]
    exact ⟨rpc.granted, rpc.schedPriority, rfl⟩

theorem homaResendGrant_eq (stop : ℤ) :
    ∃ g, homaResendGrant stop rpc = { rpc with granted := g } := by
  unfold homaResendGrant
  by_cases hmore : stop > rpc.granted
  · rw [if_pos hmore]
    exact ⟨_, rfl⟩
  · rw [if_neg hmore]
    exact ⟨rpc.granted, rfl⟩

end Grant

/-! ## `homa_rpc_tx_end` -/

/-- The loop of `homa_rpc_tx_end` from index `i`: the first packet not yet
passed on or still held (`held i`), or the message end. -/
def txEndScan (held : ℕ → Bool) (nextXmitOffset length : ℤ) : ℕ → List TxPacket → ℤ × ℕ
  | i, [] => (length, i)
  | i, skb :: rest =>
    if skb.offset ≥ nextXmitOffset ∨ held i = true then (skb.offset, i)
    else txEndScan held nextXmitOffset length (i + 1) rest

/-- `homa_rpc_tx_end(rpc)`: the offset it returns and the new
`first_not_tx`. -/
def homaRpcTxEnd (held : ℕ → Bool) (rpc : TxRpc) : ℤ × ℕ :=
  txEndScan held rpc.nextXmitOffset rpc.length rpc.firstNotTx (rpc.packets.drop rpc.firstNotTx)

theorem txEndScan_cases (held : ℕ → Bool) (nextXmitOffset length : ℤ) (i : ℕ) (l : List TxPacket) :
    txEndScan held nextXmitOffset length i l = (length, i + l.length) ∨
      ∃ k p, l[k]? = some p ∧ txEndScan held nextXmitOffset length i l = (p.offset, i + k) := by
  induction l generalizing i with
  | nil => exact Or.inl rfl
  | cons q l ih =>
    unfold txEndScan
    split_ifs
    · exact Or.inr ⟨0, q, rfl, rfl⟩
    · rcases ih (i + 1) with h | ⟨k, p, hp, h⟩
      · refine Or.inl ?_
        rw [h, List.length_cons]
        congr 1
        omega
      · refine Or.inr ⟨k + 1, p, hp, ?_⟩
        rw [h]
        congr 1
        omega

theorem txEndScan_snd_le_of_getElem (held : ℕ → Bool) (nextXmitOffset length : ℤ)
    {l : List TxPacket} {k : ℕ} {p : TxPacket} (hp : l[k]? = some p) (hoff : nextXmitOffset ≤ p.offset)
    (i : ℕ) : (txEndScan held nextXmitOffset length i l).2 ≤ i + k := by
  induction l generalizing i k with
  | nil => simp at hp
  | cons q l ih =>
    unfold txEndScan
    split_ifs with hstop
    · simp
    · cases k with
      | zero =>
        simp only [List.getElem?_cons_zero, Option.some.injEq] at hp
        subst hp
        exact absurd (Or.inl hoff) hstop
      | succ k =>
        have := ih (k := k) (by simpa using hp) (i + 1)
        omega

theorem le_txEndScan_snd (held : ℕ → Bool) (nextXmitOffset length : ℤ) (i : ℕ) (l : List TxPacket) :
    i ≤ (txEndScan held nextXmitOffset length i l).2 := by
  rcases txEndScan_cases held nextXmitOffset length i l with h | ⟨k, p, -, h⟩ <;> simp [h]

theorem txEndScan_resume (held : ℕ → Bool) (nextXmitOffset length : ℤ) (i : ℕ) (l : List TxPacket) :
    txEndScan held nextXmitOffset length (txEndScan held nextXmitOffset length i l).2
        (l.drop ((txEndScan held nextXmitOffset length i l).2 - i)) =
      txEndScan held nextXmitOffset length i l := by
  induction l generalizing i with
  | nil => simp [txEndScan]
  | cons q l ih =>
    by_cases hstop : q.offset ≥ nextXmitOffset ∨ held i = true
    · have hscan : txEndScan held nextXmitOffset length i (q :: l) = (q.offset, i) := by
        simp [txEndScan, hstop]
      simp [hscan, txEndScan, hstop]
    · have hscan : txEndScan held nextXmitOffset length i (q :: l) =
          txEndScan held nextXmitOffset length (i + 1) l := by
        simp only [txEndScan, if_neg hstop]
      have hle := le_txEndScan_snd held nextXmitOffset length (i + 1) l
      -- the index moved past `q`, so the resumed scan drops it as well
      have hdrop : (q :: l).drop ((txEndScan held nextXmitOffset length (i + 1) l).2 - i) =
          l.drop ((txEndScan held nextXmitOffset length (i + 1) l).2 - (i + 1)) := by
        rw [show (txEndScan held nextXmitOffset length (i + 1) l).2 - i =
          (txEndScan held nextXmitOffset length (i + 1) l).2 - (i + 1) + 1 by omega]
        rfl
      rw [hscan, hdrop, ih]

theorem homaRpcTxEnd_resume (held : ℕ → Bool) (rpc : TxRpc) :
    homaRpcTxEnd held { rpc with firstNotTx := (homaRpcTxEnd held rpc).2 } = homaRpcTxEnd held rpc := by
  have hle := le_txEndScan_snd held rpc.nextXmitOffset rpc.length rpc.firstNotTx
    (rpc.packets.drop rpc.firstNotTx)
  have hres := txEndScan_resume held rpc.nextXmitOffset rpc.length rpc.firstNotTx
    (rpc.packets.drop rpc.firstNotTx)
  -- dropping up to the new `first_not_tx` is dropping the old one and then the rest
  rw [List.drop_drop, Nat.add_sub_of_le hle] at hres
  exact hres

end Homa
