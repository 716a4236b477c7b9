import Homa.MessageInReassembly
import Homa.SortedList
import Homa.MessageOutFill

/-!
# Handing a whole message to the actor

`homa_deliver_skbs` waits until an incoming message is complete, then passes
its packets to the socket's `rx_actor` in order of offset.  `msgin.packets`
is in arrival order, so the packets are first moved to a private queue:
spliced over when their `int` offsets are strictly increasing, otherwise
inserted one by one before the first queued packet with a larger offset,
read as a `u32`.  Both paths give the stable insertion sort by the `u32`
offset (`homaDeliverOrder_eq_sort`).

Whether the actor sees one stream depends on what `homa_add_packet` queued:
a packet whose `start + length` wraps is queued and counted, so a message
can complete with bytes that never arrived.
-/

namespace Homa

open MachineArith SortedList

/-- `ntohl(h->seg.offset)` as the `u32` the insertion sort compares. -/
def DataPacket.wireOffset (p : DataPacket) : ℕ :=
  p.segOffset.toNat

/-- The walk that checks whether `msgin.packets` is already in order: each
`int` offset above the one before, from `prev_offset = -1`. -/
def deliverInOrder (prevOffset : ℤ) : List DataPacket → Bool
  | [] => true
  | p :: rest => if p.start ≤ prevOffset then false else deliverInOrder p.start rest

/-- The insertion sort of `homa_deliver_skbs`: each packet goes before the
first queued packet with a larger offset, read as the `u32` of `ntohl`. -/
def homaDeliverSort (packets : List DataPacket) : List DataPacket :=
  insertionSortFront (fun a b => decide (a.wireOffset < b.wireOffset)) packets

/-- The queue `homa_deliver_skbs` hands to the actor. -/
def homaDeliverOrder (packets : List DataPacket) : List DataPacket :=
  if packets.length > 1 then
    if deliverInOrder (-1) packets then packets else homaDeliverSort packets
  else packets

/-- The walk over the sorted queue: `rx_actor` gets each packet until one
fails with `actorError p`; the result and the packets given. -/
def rxActorWalk (actorError : DataPacket → Option ℤ) : List DataPacket → ℤ × List DataPacket
  | [] => (0, [])
  | p :: rest =>
      match actorError p with
      | some err => (err, [p])
      | none => ((rxActorWalk actorError rest).1, p :: (rxActorWalk actorError rest).2)

/-- What one `homa_deliver_skbs` call did: its result, the packets given to
the actor in order, and the message afterwards. -/
structure Delivery where
  result : ℤ
  delivered : List DataPacket
  msgin : MessageIn

/-- `homa_deliver_skbs(rpc, caller_ctx)`: `dead` is the RPC's state on
entry, `deadAfter` whether it was ended while the lock was dropped around
the actor. -/
def homaDeliverSkbs (dead deadAfter : Bool) (actorError : DataPacket → Option ℤ)
    (msgin : MessageIn) : Delivery :=
  if dead then ⟨-einval, [], msgin⟩
  -- wait until the whole message is there
  else if msgin.length < 0 ∨ msgin.bytesRemaining ≠ 0 then ⟨0, [], msgin⟩
  else if msgin.packets = [] then ⟨0, [], msgin⟩
  else
    let walk := rxActorWalk actorError (homaDeliverOrder msgin.packets)
    let msgin := { msgin with packets := [] }
    if deadAfter then ⟨if walk.1 ≠ 0 then walk.1 else -einval, walk.2, msgin⟩
    else ⟨walk.1, walk.2, msgin⟩

/-! ## Both paths give the stable sort -/

theorem DataPacket.start_eq_wireOffset {p : DataPacket} (h : 0 ≤ p.start) :
    p.start = p.wireOffset := by
  have hlt : (p.segOffset.toNat : ℤ) < 2 ^ 32 := by exact_mod_cast p.segOffset.toNat_lt
  unfold DataPacket.start DataPacket.wireOffset at *
  by_cases hu : (p.segOffset.toNat : ℤ) < 2 ^ 31
  · exact wrapInt_32_of_mem (by omega) hu
  · -- offsets at or above `2 ^ 31` read as negative `int`s
    rw [wrapInt_of_overflow (by omega) (by omega)] at h
    omega

theorem deliverInOrder_sorted {prevOffset : ℤ} {l : List DataPacket} (hprev : -1 ≤ prevOffset)
    (h : deliverInOrder prevOffset l = true) :
    l.Pairwise (fun a b => a.wireOffset < b.wireOffset) ∧ ∀ p ∈ l, prevOffset < p.start := by
  induction l generalizing prevOffset with
  | nil => exact ⟨List.Pairwise.nil, fun p hp => absurd hp List.not_mem_nil⟩
  | cons p rest ih =>
    simp only [deliverInOrder] at h
    split_ifs at h with hp
    have hp' : prevOffset < p.start := not_le.mp hp
    obtain ⟨hrest, habove⟩ := ih (by omega) h
    have hwire := DataPacket.start_eq_wireOffset (p := p) (by omega)
    refine ⟨List.Pairwise.cons (fun q hq => ?_) hrest, fun q hq => ?_⟩
    · have hq := habove q hq
      have hwire' := DataPacket.start_eq_wireOffset (p := q) (by omega)
      omega
    · rcases List.mem_cons.mp hq with rfl | hq
      · exact hp'
      · exact hp'.trans (habove q hq)

theorem wireOffset_lt_iff (a b : DataPacket) :
    decide (a.wireOffset < b.wireOffset) = true ↔ a.wireOffset < b.wireOffset :=
  decide_eq_true_iff

theorem homaDeliverOrder_eq_sort (packets : List DataPacket) :
    homaDeliverOrder packets = homaDeliverSort packets := by
  unfold homaDeliverOrder
  split_ifs with hlen hin
  · -- the fast path: already strictly increasing, so the sort leaves them
    have hsorted := (deliverInOrder_sorted le_rfl hin).1
    exact (insertionSortFront_of_sorted wireOffset_lt_iff (hsorted.imp le_of_lt)).symm
  · rfl
  · -- a single packet, or none
    have hsorted : Sorted DataPacket.wireOffset packets := by
      match packets, hlen with
      | [], _ => exact List.Pairwise.nil
      | [_], _ => exact List.pairwise_singleton _ _
      | _ :: _ :: _, h => exact absurd (by simp) h
    exact (insertionSortFront_of_sorted wireOffset_lt_iff hsorted).symm

theorem rxActorWalk_none (l : List DataPacket) : rxActorWalk (fun _ => none) l = (0, l) := by
  induction l with
  | nil => rfl
  | cons p rest ih => simp [rxActorWalk, ih]

/-- For a complete message, an actor that never fails is given every
queued packet exactly once, in non-decreasing order of offset and with
packets at the same offset in the order they arrived; the queue is left
empty. -/
theorem homaDeliverSkbs_delivers {msgin : MessageIn} (hlen : 0 ≤ msgin.length)
    (hdone : msgin.bytesRemaining = 0) (hne : msgin.packets ≠ []) :
    (homaDeliverSkbs false false (fun _ => none) msgin).result = 0 ∧
      (homaDeliverSkbs false false (fun _ => none) msgin).delivered =
        homaDeliverSort msgin.packets ∧
      (homaDeliverSkbs false false (fun _ => none) msgin).delivered.Perm msgin.packets ∧
      Sorted DataPacket.wireOffset (homaDeliverSkbs false false (fun _ => none) msgin).delivered ∧
      (∀ k, (homaDeliverSkbs false false (fun _ => none) msgin).delivered.filter
          (fun p => p.wireOffset = k) = msgin.packets.filter (fun p => p.wireOffset = k)) ∧
      (homaDeliverSkbs false false (fun _ => none) msgin).msgin.packets = [] := by
  have heq : homaDeliverSkbs false false (fun _ => none) msgin =
      ⟨0, homaDeliverSort msgin.packets, { msgin with packets := [] }⟩ := by
    have hcomplete : ¬ (msgin.length < 0 ∨ msgin.bytesRemaining ≠ 0) := by omega
    simp only [homaDeliverSkbs, Bool.false_eq_true, if_false, if_neg hcomplete, if_neg hne,
      homaDeliverOrder_eq_sort, rxActorWalk_none]
  rw [heq]
  exact ⟨rfl, rfl, insertionSortFront_perm _ _, insertionSortFront_sorted wireOffset_lt_iff _,
    insertionSortFront_filter wireOffset_lt_iff _, rfl⟩

/-! ## A message completed by a wrapped packet -/

/-- The `i`-th packet of a message sent in order, 100 bytes at offset
`100 * i`. -/
def seqPacket (i : ℕ) : DataPacket :=
  ⟨UInt32.ofNat (100 * i), 100, by norm_num⟩

theorem seqPacket_start {i : ℕ} (hi : i ≤ 9) : (seqPacket i).start = 100 * i := by
  unfold seqPacket DataPacket.start
  rw [UInt32.toNat_ofNat', Nat.mod_eq_of_lt (by omega)]
  exact wrapInt_32_of_mem (by omega) (by push_cast; omega)

theorem seqPacket_stop {i : ℕ} (hi : i ≤ 9) : (seqPacket i).stop = 100 * i + 100 := by
  have hlen : (seqPacket i).length = 100 := rfl
  unfold DataPacket.stop
  rw [seqPacket_start hi, hlen]
  exact wrapInt_32_of_mem (by omega) (by omega)

/-- The message after the wrapped packet, the packet at `0` and those up to
`100 * k`: two gaps behind it, `recv_end` at `100 * (k + 1)`. -/
def wrapRunState (wrapped : DataPacket) (k : ℕ) : MessageIn :=
  ⟨1000, wrapped :: (List.range (k + 1)).map seqPacket,
    [⟨0, 2147483632⟩, ⟨-2147483564, 0⟩], 100 * (k + 1), 800 - 100 * k⟩

theorem homaAddPackets_wrapRunState (wrapped : DataPacket) :
    ∀ k ≤ 8, homaAddPackets (wrapRunState wrapped 0)
      ((List.range' 1 k).map fun i => (seqPacket i, true)) = wrapRunState wrapped k := by
  intro k
  induction k with
  | zero => intro _; rfl
  | succ k ih =>
    intro hk
    rw [List.range'_concat, List.map_append, homaAddPackets_append, ih (by omega)]
    -- the next packet starts at `recv_end`
    have hstart : (seqPacket (1 + 1 * k)).start = (wrapRunState wrapped k).recvEnd := by
      rw [seqPacket_start (by omega)]
      simp only [wrapRunState]
      push_cast
      ring
    have hstop : (seqPacket (1 + 1 * k)).stop ≤ (wrapRunState wrapped k).length := by
      rw [seqPacket_stop (by omega)]
      simp only [wrapRunState]
      omega
    simp only [List.map_cons, List.map_nil, homaAddPackets_cons, homaAddPackets_nil,
      homaAddPacket_sequential true hstop hstart]
    have hlen : (seqPacket (1 + 1 * k)).length = 100 := rfl
    simp only [wrapRunState, MessageIn.keep, hlen, MessageIn.mk.injEq, true_and, List.cons_append,
      List.cons.injEq]
    refine ⟨?_, ?_, ?_⟩
    · rw [List.range_succ (n := k + 1), List.map_append]
      simp [Nat.add_comm]
    · rw [wrapInt_32_of_mem (by omega) (by omega)]
      push_cast
      ring
    · rw [wrapInt_32_of_mem (by omega) (by omega)]
      push_cast
      ring

theorem homaAddPackets_wrapped_start :
    homaAddPackets ⟨1000, [], [], 0, 1000⟩
        [(⟨0x7FFFFFF0, 100, by norm_num⟩, true), (seqPacket 0, true)] =
      wrapRunState ⟨0x7FFFFFF0, 100, by norm_num⟩ 0 := by
  set wrapped : DataPacket := ⟨0x7FFFFFF0, 100, by norm_num⟩ with hwrapped
  have hstart : wrapped.start = 2147483632 := by
    unfold DataPacket.start
    rw [wrapInt_of_lt] <;> simp [hwrapped]
  -- `start + length` is past `INT_MAX` and wraps below the message end
  have hstop : wrapped.stop = -2147483564 := by
    unfold DataPacket.stop
    rw [hstart, DataPacket.length, wrapInt_of_overflow] <;> simp [hwrapped]
  have hlen : wrapped.length = 100 := rfl
  have hlen₀ : (seqPacket 0).length = 100 := rfl
  -- the wrapped packet opens the gap `[0, 0x7FFFFFF0)` and leaves `recv_end` negative
  have hfirst : homaAddPacket ⟨1000, [], [], 0, 1000⟩ wrapped true =
      ⟨1000, [wrapped], [⟨0, 2147483632⟩], -2147483564, 900⟩ := by
    rw [homaAddPacket_newGap (by rw [hstop]; norm_num) (by rw [hstart]; norm_num)]
    simp only [MessageIn.keep, hlen, hstart, hstop, List.nil_append]
    rw [wrapInt_32_of_mem (by norm_num) (by norm_num)]
    norm_num
  -- the packet at `0` is past that `recv_end`: it opens a second gap
  have hsecond : homaAddPacket ⟨1000, [wrapped], [⟨0, 2147483632⟩], -2147483564, 900⟩
      (seqPacket 0) true = wrapRunState wrapped 0 := by
    rw [homaAddPacket_newGap (by rw [seqPacket_stop (Nat.zero_le 9)]; norm_num)
      (by rw [seqPacket_start (Nat.zero_le 9)]; norm_num)]
    simp only [MessageIn.keep, hlen₀, seqPacket_stop (Nat.zero_le 9),
      seqPacket_start (Nat.zero_le 9), wrapRunState]
    rw [wrapInt_32_of_mem (by norm_num) (by norm_num)]
    norm_num
  simp only [homaAddPackets_cons, homaAddPackets_nil, hfirst, hsecond]

/-- A 1000-byte message gets the packet at `0x7FFFFFF0` with 100 bytes,
whose end wraps, and then the packets at `0, 100, ..., 800`.  Every one of
them is kept and counted, so `bytes_remaining` reaches 0 although the bytes
`[900, 1000)` never arrived.  `homa_deliver_skbs` then hands the actor
`[0, 900)` followed by `[0x7FFFFFF0, 0x7FFFFFF0 + 100)`: the ranges do not
cover the message and run past its end. -/
theorem homaDeliverSkbs_wrapped_packet :
    homaMessageInInit 1000 0 = .ok ⟨1000, [], [], 0, 1000⟩ ∧
      (homaAddPackets ⟨1000, [], [], 0, 1000⟩ ((⟨0x7FFFFFF0, 100, by norm_num⟩, true) ::
        (List.range 9).map fun i => (seqPacket i, true))).bytesRemaining = 0 ∧
      ((homaDeliverSkbs false false (fun _ => none)
        (homaAddPackets ⟨1000, [], [], 0, 1000⟩ ((⟨0x7FFFFFF0, 100, by norm_num⟩, true) ::
          (List.range 9).map fun i => (seqPacket i, true)))).delivered.map
            fun p => (p.wireOffset, p.wireOffset + p.dataLen)) =
        (List.range 9).map (fun i => (100 * i, 100 * i + 100)) ++ [(2147483632, 2147483732)] := by
  have hsplit : (List.range 9).map (fun i => (seqPacket i, true)) =
      [(seqPacket 0, true)] ++ (List.range' 1 8).map fun i => (seqPacket i, true) := rfl
  have hrun : homaAddPackets ⟨1000, [], [], 0, 1000⟩ ((⟨0x7FFFFFF0, 100, by norm_num⟩, true) ::
      (List.range 9).map fun i => (seqPacket i, true)) =
      wrapRunState ⟨0x7FFFFFF0, 100, by norm_num⟩ 8 := by
    rw [hsplit, ← List.cons_append, homaAddPackets_append, homaAddPackets_wrapped_start,
      homaAddPackets_wrapRunState _ 8 le_rfl]
  have hremaining : (wrapRunState ⟨0x7FFFFFF0, 100, by norm_num⟩ 8).bytesRemaining = 0 := by
    simp [wrapRunState]
  obtain ⟨-, hdelivered, -⟩ :=
    homaDeliverSkbs_delivers (by simp [wrapRunState]) hremaining (by simp [wrapRunState])
  refine ⟨by simp [homaMessageInInit, homaMaxMessageLength], hrun ▸ hremaining, ?_⟩
  rw [hrun, hdelivered]
  decide

end Homa
