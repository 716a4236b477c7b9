import Homa.IntervalList
import Homa.MachineArith

/-!
# Reassembly of an incoming message

`homa_message_in_init` sets up `struct homa_message_in` for a message of
`length` bytes, and `homa_add_packet` files each DATA packet: one at
`recv_end` extends the received prefix, one past it opens a gap, an earlier
one must fill part of a gap, and the rest is discarded.  The `int`
arithmetic wraps (`MachineArith.wrapInt 32`); an offset at or above `2 ^ 31`
arrives negative.  Whether `homa_gap_alloc` succeeds is an input.
-/

namespace Homa

open MachineArith

/-- `HOMA_MAX_MESSAGE_LENGTH` (homa.h). -/
def homaMaxMessageLength : ℤ := 1400000

/-- `EINVAL`, returned negated. -/
def einval : ℤ := 22

/-- A DATA packet as `homa_add_packet` reads it: the wire field `seg.offset`
and the payload length `homa_data_len(skb)`.  One IP datagram carries at
most 65535 payload bytes. -/
structure DataPacket where
  segOffset : UInt32
  dataLen : ℕ
  dataLen_le : dataLen ≤ 65535

namespace DataPacket

/-- `int start = ntohl(h->seg.offset)`. -/
def start (p : DataPacket) : ℤ :=
  wrapInt 32 p.segOffset.toNat

/-- `int length = homa_data_len(skb)`. -/
def length (p : DataPacket) : ℤ :=
  p.dataLen

/-- `int end = start + length`, wrapping as the kernel computes it. -/
def stop (p : DataPacket) : ℤ :=
  wrapInt 32 (p.start + p.length)

/-- The packet's bytes `[offset, offset + length)` of the message. -/
def range (p : DataPacket) : Set ℤ :=
  Set.Ico p.start (p.start + p.length)

/-- The packet's end does not overflow an `int`. -/
def NoWrap (p : DataPacket) : Prop :=
  p.start + p.length < 2 ^ 31

instance (p : DataPacket) : Decidable p.NoWrap :=
  inferInstanceAs (Decidable (_ < _))

theorem length_nonneg (p : DataPacket) : 0 ≤ p.length :=
  Int.natCast_nonneg _

theorem length_le (p : DataPacket) : p.length ≤ 65535 := by
  unfold length
  exact_mod_cast p.dataLen_le

theorem neg_le_start (p : DataPacket) : -2 ^ 31 ≤ p.start := by
  have := neg_le_wrapInt 32 p.segOffset.toNat
  unfold start
  norm_num at this ⊢
  exact this

theorem stop_of_noWrap {p : DataPacket} (h : p.NoWrap) :
    p.stop = p.start + p.length := by
  unfold stop
  have := p.neg_le_start
  have := p.length_nonneg
  apply wrapInt_of_lt <;> norm_num [NoWrap] at * <;> omega

end DataPacket

/-- `struct homa_gap`: the bytes `[start, end)` of the message have not
arrived.  (`end` is a Lean keyword; the field is `stop`.) -/
structure Gap where
  start : ℤ
  stop : ℤ
deriving DecidableEq, Repr

/-- The reassembly fields of `struct homa_message_in`. -/
structure MessageIn where
  length : ℤ
  packets : List DataPacket
  gaps : List Gap
  recvEnd : ℤ
  bytesRemaining : ℤ

/-- `homa_message_in_init(rpc, length, unsched)`; `poolErr` is the result of
`homa_pool_alloc_msg`.  The struct starts zeroed. -/
def homaMessageInInit (length poolErr : ℤ) : Except ℤ MessageIn :=
  if length > homaMaxMessageLength then .error (-einval)
  else if poolErr ≠ 0 then .error poolErr
  else .ok
    { length := length
      packets := []
      gaps := []
      recvEnd := 0
      bytesRemaining := length }

/-- `homa_gap_alloc(next, start, end)`: a new gap linked in just before
`next`, where `before` is the part of the list ahead of `next` and `after`
the part from `next` on; `none` when `kmalloc` fails. -/
def homaGapAlloc (allocOk : Bool) (before after : List Gap) (start stop : ℤ) :
    Option (List Gap) :=
  if allocOk then some (before ++ ⟨start, stop⟩ :: after) else none

/-- The `list_for_each_entry_safe` loop of `homa_add_packet` for a packet
before `recv_end`: `some gaps` is `goto keep`, `none` is `goto discard`. -/
def homaAddPacketGapScan (allocOk : Bool) (start stop : ℤ) :
    List Gap → Option (List Gap)
  | [] => none
  | gap :: rest =>
      -- Is the packet at the start of this gap?
      if start ≤ gap.start then
        if stop ≤ gap.start then
          (homaAddPacketGapScan allocOk start stop rest).map (gap :: ·)
        else if start < gap.start then none
        else if stop > gap.stop then none
        else
          let gap' := { gap with start := stop }
          if gap'.start ≥ gap'.stop then some rest else some (gap' :: rest)
      -- Is the packet at the end of this gap?
      else if stop ≥ gap.stop then
        if start ≥ gap.stop then
          (homaAddPacketGapScan allocOk start stop rest).map (gap :: ·)
        else if stop > gap.stop then none
        else some ({ gap with stop := start } :: rest)
      -- The packet is in the middle of the gap: split it.  The new gap
      -- `[gap->start, start)` goes in front of the shrunk one.
      else
        homaGapAlloc allocOk [] ({ gap with start := stop } :: rest)
          gap.start start

namespace MessageIn

/-- The `keep:` exit of `homa_add_packet`: queue the packet and count its
bytes. -/
def keep (msgin : MessageIn) (p : DataPacket) : MessageIn :=
  { msgin with
    packets := msgin.packets ++ [p]
    bytesRemaining := wrapInt 32 (msgin.bytesRemaining - p.length) }

end MessageIn

/-- `homa_add_packet(rpc, skb)`.  A discarded packet leaves `msgin` as it
was; `allocOk` is the outcome of the one gap allocation the call may make. -/
def homaAddPacket (msgin : MessageIn) (p : DataPacket) (allocOk : Bool) :
    MessageIn :=
  let start := p.start
  let stop := p.stop
  if stop > msgin.length then msgin
  -- Common case: packet is sequential.
  else if start = msgin.recvEnd then
    { msgin with recvEnd := wrapInt 32 (msgin.recvEnd + p.length) }.keep p
  -- Packet creates a new gap.
  else if start > msgin.recvEnd then
    match homaGapAlloc allocOk msgin.gaps [] msgin.recvEnd start with
    | none => msgin
    | some gaps => { msgin with gaps := gaps, recvEnd := stop }.keep p
  else
    match homaAddPacketGapScan allocOk start stop msgin.gaps with
    | none => msgin
    | some gaps => { msgin with gaps := gaps }.keep p

theorem homaAddPacket_cases (msgin : MessageIn) (p : DataPacket)
    (allocOk : Bool) :
    homaAddPacket msgin p allocOk = msgin ∨
      ∃ gaps recvEnd, homaAddPacket msgin p allocOk =
        { msgin with gaps := gaps, recvEnd := recvEnd }.keep p := by
  unfold homaAddPacket
  dsimp only
  split_ifs
  · exact .inl rfl
  · exact .inr ⟨_, _, rfl⟩
  · cases homaGapAlloc allocOk msgin.gaps [] msgin.recvEnd p.start
    · exact .inl rfl
    · exact .inr ⟨_, _, rfl⟩
  · cases homaAddPacketGapScan allocOk p.start p.stop msgin.gaps
    · exact .inl rfl
    · exact .inr ⟨_, _, rfl⟩

theorem homaAddPacket_sequential {msgin : MessageIn} {p : DataPacket} (allocOk : Bool)
    (hstop : p.stop ≤ msgin.length) (hstart : p.start = msgin.recvEnd) :
    homaAddPacket msgin p allocOk =
      { msgin with recvEnd := wrapInt 32 (msgin.recvEnd + p.length) }.keep p := by
  unfold homaAddPacket
  dsimp only
  rw [if_neg (not_lt.mpr hstop), if_pos hstart]

theorem homaAddPacket_newGap {msgin : MessageIn} {p : DataPacket}
    (hstop : p.stop ≤ msgin.length) (hstart : msgin.recvEnd < p.start) :
    homaAddPacket msgin p true =
      { msgin with gaps := msgin.gaps ++ [Gap.mk msgin.recvEnd p.start], recvEnd := p.stop }.keep p := by
  unfold homaAddPacket
  dsimp only
  rw [if_neg (not_lt.mpr hstop), if_neg hstart.ne', if_pos hstart]
  rfl

/-- Packets filed one after another, each with its allocation outcome. -/
def homaAddPackets (msgin : MessageIn) (arrivals : List (DataPacket × Bool)) :
    MessageIn :=
  arrivals.foldl (fun m arrival => homaAddPacket m arrival.1 arrival.2) msgin

@[simp] theorem homaAddPackets_nil (msgin : MessageIn) :
    homaAddPackets msgin [] = msgin := rfl

@[simp] theorem homaAddPackets_cons (msgin : MessageIn) (p : DataPacket)
    (allocOk : Bool) (rest : List (DataPacket × Bool)) :
    homaAddPackets msgin ((p, allocOk) :: rest) =
      homaAddPackets (homaAddPacket msgin p allocOk) rest := by
  unfold homaAddPackets
  rw [List.foldl_cons]

theorem homaAddPackets_append (msgin : MessageIn) (l l' : List (DataPacket × Bool)) :
    homaAddPackets msgin (l ++ l') = homaAddPackets (homaAddPackets msgin l) l' := by
  unfold homaAddPackets
  rw [List.foldl_append]

end Homa
