import Homa.FuelLoop
import Homa.MessageIn

/-!
# Building an outgoing message

`homa_message_out_fill` copies a message from user space into a chain of
GSO sk_buffs, `msgout.packets`.  It works out the geometry (`max_seg_data`
bytes of message per packet on the wire, `max_gso_data` per GSO packet, a
whole number of segments), then each iteration cuts the next piece, never
across the unscheduled limit, and `homa_tx_data_pkt_alloc` builds its
sk_buff, with a `homa_seg_hdr` in front of each segment after the first
(`homa_fill_data_interleaved`).

An sk_buff is the fields of its `homa_skb_info` and `skb_shared_info` that
Homa reads back, and its contents after the transport header as `Chunk`s.
The geometry is computed as the C code computes it (`sizeof` differences
unsigned 64-bit, `do_div` by a 32-bit divisor, results in `int`s).  Whether
a packet's allocations succeed, and whether the RPC is ended while unlocked
for the copy, is an input of each iteration (`PacketEvent`).
-/

namespace Homa

open MachineArith FuelLoop

/-- `EFAULT`, returned negated. -/
def efault : ℤ := 14

/-- `ENOMEM`, returned negated. -/
def enomem : ℤ := 12

/-- `sizeof(struct homa_data_hdr)` (homa_wire.h); its last four bytes are
the first segment header. -/
def homaDataHdrSize : ℕ := 56

/-- `sizeof(struct homa_seg_hdr)`. -/
def homaSegHdrSize : ℕ := 4

/-! ## Packet geometry -/

/-- What `homa_message_out_fill` reads to lay packets out. -/
structure Geometry where
  /-- `dst_mtu(dst)`. -/
  mtu : ℤ
  /-- `hsk->ip_header_length`. -/
  ipHeaderLength : ℤ
  /-- `dst->dev->gso_max_size`. -/
  gsoMaxSize : ℤ
  /-- The sysctl `homa->max_gso_size`. -/
  maxGsoSize : ℤ
  /-- `hsk->sock.sk_protocol == IPPROTO_TCP`. -/
  hijack : Bool
deriving DecidableEq, Repr

namespace Geometry

/-- `max_seg_data = mtu - ip_header_length - sizeof(struct homa_data_hdr)`. -/
def maxSegData (g : Geometry) : ℤ :=
  wrapInt 32 (g.mtu - g.ipHeaderLength - homaDataHdrSize)

/-- `gso_size`: the device's limit, capped by `max_gso_size`. -/
def gsoSize (g : Geometry) : ℤ :=
  if g.gsoMaxSize > g.maxGsoSize then g.maxGsoSize else g.gsoMaxSize

/-- `segs_per_gso`: how many segments fit in `gso_size`, at least one.  With
hijacking a segment needs `max_seg_data` bytes, otherwise four more for its
`homa_seg_hdr`. -/
def segsPerGso (g : Geometry) : ℕ :=
  let segs :=
    if g.hijack then
      ((g.gsoSize - g.ipHeaderLength - homaDataHdrSize) % 2 ^ 64).toNat /
        (g.maxSegData % 2 ^ 32).toNat
    else
      ((g.gsoSize - g.ipHeaderLength - homaDataHdrSize + homaSegHdrSize) %
          2 ^ 64).toNat /
        ((g.maxSegData + homaSegHdrSize) % 2 ^ 32).toNat
  if segs = 0 then 1 else segs

/-- `max_gso_data = segs_per_gso * max_seg_data`, a `u64` product stored in
an `int`. -/
def maxGsoData (g : Geometry) : ℤ :=
  wrapInt 32 (g.segsPerGso * g.maxSegData)

end Geometry

/-! ## sk_buffs -/

/-- A run of bytes appended to a DATA sk_buff after its `homa_data_hdr`. -/
inductive Chunk where
  /-- `len` message bytes starting at message offset `pos`. -/
  | data (pos : ℤ) (len : ℕ)
  /-- A `struct homa_seg_hdr` holding `offset`. -/
  | segHdr (offset : ℤ)
deriving DecidableEq, Repr

/-- One byte of a DATA sk_buff from its transport header on. -/
inductive SkbByte where
  /-- A byte of the `homa_data_hdr` before its segment header. -/
  | hdr
  /-- A byte of a segment header holding `offset`. -/
  | seg (offset : ℤ)
  /-- The message byte at offset `pos`. -/
  | msg (pos : ℤ)
deriving DecidableEq, Repr

/-- The message bytes `[pos, pos + len)`. -/
def msgBytes (pos : ℤ) : ℕ → List SkbByte
  | 0 => []
  | len + 1 => .msg pos :: msgBytes (pos + 1) len

/-- The four bytes of a segment header. -/
def segHdrBytes (offset : ℤ) : List SkbByte :=
  List.replicate homaSegHdrSize (.seg offset)

def Chunk.bytes : Chunk → List SkbByte
  | .data pos len => msgBytes pos len
  | .segHdr offset => segHdrBytes offset

/-- An outgoing DATA sk_buff as Homa reads it back. -/
structure DataSkb where
  /-- `homa_info->offset`, also the header's `common.sequence`. -/
  offset : ℤ
  /-- `homa_info->data_bytes`. -/
  dataBytes : ℤ
  /-- `homa_info->seg_length`. -/
  segLength : ℤ
  /-- `seg.offset` in the `homa_data_hdr`. -/
  segOffset : ℤ
  /-- `skb_shinfo(skb)->gso_segs`, a `u16`; 0 unless the packet is a GSO
  packet. -/
  gsoSegs : ℕ
  /-- `skb_shinfo(skb)->gso_size`, a `u16`; 0 unless the packet is a GSO
  packet. -/
  gsoSize : ℤ
  /-- What follows the `homa_data_hdr`. -/
  body : List Chunk
deriving DecidableEq, Repr

/-- The sk_buff's bytes from the transport header on: the header up to its
segment header, the segment header, then the body. -/
def DataSkb.bytes (skb : DataSkb) : List SkbByte :=
  List.replicate (homaDataHdrSize - homaSegHdrSize) .hdr ++
    segHdrBytes skb.segOffset ++ skb.body.flatMap Chunk.bytes

/-! ## Filling one sk_buff -/

/-- `homa_skb_append_from_iter(homa, skb, iter, length)` for an iterator of
`count` bytes at `pos`; a copy past its end fails with `-EFAULT`. -/
def homaSkbAppendFromIter (count pos : ℕ) (length : ℤ) :
    Except ℤ (List Chunk × ℕ) :=
  if length ≤ 0 then .ok ([], pos)
  else if pos + length.toNat ≤ count then
    .ok ([.data pos length.toNat], pos + length.toNat)
  else .error (-efault)

/-- The locals of `homa_fill_data_interleaved` and what it has appended. -/
structure InterleaveState where
  segLength : ℤ
  bytesLeft : ℤ
  offset : ℤ
  pos : ℕ
  body : List Chunk

/-- One iteration of the loop of `homa_fill_data_interleaved`: a segment's
data, then, unless it was the last, the next segment's header. -/
def homaFillDataInterleavedBody (count : ℕ) (s : InterleaveState) :
    Option (Step InterleaveState (Except ℤ (List Chunk × ℕ))) :=
  let segLength := if s.bytesLeft < s.segLength then s.bytesLeft else s.segLength
  match homaSkbAppendFromIter count s.pos segLength with
  | .error e => some (.done (.error e))
  | .ok (data, pos) =>
      let bytesLeft := wrapInt 32 (s.bytesLeft - segLength)
      let offset := wrapInt 32 (s.offset + segLength)
      if bytesLeft = 0 then some (.done (.ok (s.body ++ data, pos)))
      else
        some (.next
          { segLength, bytesLeft, offset, pos
            body := s.body ++ data ++ [.segHdr offset] })

/-- `homa_fill_data_interleaved(rpc, skb, iter)` for a packet of `dataBytes`
bytes at `offset` with segments of `segLength` bytes; the first segment
header is the one in the `homa_data_hdr`. -/
def homaFillDataInterleaved (fuel count pos : ℕ) (offset dataBytes segLength : ℤ) :
    Option (Except ℤ (List Chunk × ℕ)) :=
  run (homaFillDataInterleavedBody count) fuel
    { segLength, bytesLeft := dataBytes, offset, pos, body := [] }

/-- `segs` in `homa_tx_data_pkt_alloc`: `length + max_seg_data - 1` as a
`u64`, divided by `max_seg_data`. -/
def homaTxSegs (length maxSegData : ℤ) : ℕ :=
  (wrapInt 32 (length + maxSegData - 1) % 2 ^ 64).toNat /
    (maxSegData % 2 ^ 32).toNat

/-- `homa_tx_data_pkt_alloc(rpc, iter, offset, length, max_seg_data, _)`;
`segs` and `gso_size` keep their low 16 bits in `skb_shinfo(skb)`. -/
def homaTxDataPktAlloc (fuel : ℕ) (hijack : Bool) (count pos : ℕ)
    (offset length maxSegData : ℤ) (allocOk : Bool) :
    Option (Except ℤ (DataSkb × ℕ)) :=
  let segs := homaTxSegs length maxSegData
  let skb : DataSkb :=
    { offset, dataBytes := length, segLength := maxSegData, segOffset := -1
      gsoSegs := 0, gsoSize := 0, body := [] }
  if !allocOk then some (.error (-enomem))
  else if segs > 1 ∧ !hijack then
    (homaFillDataInterleaved fuel count pos offset length maxSegData).map
      fun r => r.map fun (body, pos) =>
        ({ skb with segOffset := offset, gsoSegs := segs % 2 ^ 16
                    gsoSize := (maxSegData + homaSegHdrSize) % 2 ^ 16, body }, pos)
  else
    some <| (homaSkbAppendFromIter count pos length).map fun (body, pos) =>
      if segs > 1 then
        ({ skb with gsoSegs := segs % 2 ^ 16, gsoSize := maxSegData % 2 ^ 16, body }, pos)
      else ({ skb with body }, pos)

/-! ## The message -/

/-- A DATA packet built by `homa_resend_data`: a copy of the original
header with the fields it rewrites, and the bytes it copies. -/
structure ResentPacket where
  /-- `h->common.sequence`. -/
  sequence : ℤ
  /-- `h->seg.offset`. -/
  segOffset : ℤ
  /-- `h->incoming`. -/
  incoming : ℤ
  /-- `new_homa_info->offset`. -/
  offset : ℤ
  /-- `new_homa_info->data_bytes`, also its `seg_length`. -/
  dataBytes : ℤ
  /-- The bytes after the `homa_data_hdr`. -/
  payload : List SkbByte
deriving DecidableEq, Repr

/-- The fields of `struct homa_message_out` that building and resending a
message use.  `to_free` holds the retransmitted packets, newest first. -/
structure MessageOut where
  length : ℤ
  unscheduled : ℤ
  granted : ℤ
  packets : List DataSkb
  toFree : List ResentPacket
  numSkbs : ℕ
  copiedFromUser : ℤ
deriving DecidableEq, Repr

/-- `homa_message_out_init(rpc, length)`: the struct is zeroed, and the
unscheduled bytes are the sysctl `unsched_bytes` capped by the length. -/
def homaMessageOutInit (length unschedBytes : ℤ) : MessageOut :=
  { length
    unscheduled := if unschedBytes > length then length else unschedBytes
    granted := 0, packets := [], toFree := [], numSkbs := 0
    copiedFromUser := 0 }

/-- What happens around one packet's construction that the arithmetic does
not decide. -/
inductive PacketEvent where
  | ok
  /-- An allocation in `homa_tx_data_pkt_alloc` fails. -/
  | noMemory
  /-- The RPC is ended while it is unlocked for the copy. -/
  | rpcDead
deriving DecidableEq, Repr

/-- The state of the loop of `homa_message_out_fill`. -/
structure FillState where
  msgout : MessageOut
  bytesLeft : ℤ
  pos : ℕ

/-- `skb_data_bytes` for the packet at `offset`: `max_gso_data`, cut at the
unscheduled limit, and at most what is left. -/
def homaSkbDataBytes (maxGsoData unscheduled offset bytesLeft : ℤ) : ℤ :=
  let cut :=
    if offset < unscheduled ∧ wrapInt 32 (offset + maxGsoData) > unscheduled then
      wrapInt 32 (unscheduled - offset)
    else maxGsoData
  if cut > bytesLeft then bytesLeft else cut

/-- One iteration of the loop of `homa_message_out_fill`, with its loop test
`bytes_left > 0`.  The iterator holds the whole message. -/
def homaMessageOutFillBody (fuel : ℕ) (g : Geometry)
    (events : ℕ → PacketEvent) (s : FillState) :
    Option (Step FillState (ℤ × MessageOut)) :=
  if s.bytesLeft ≤ 0 then some (.done (0, s.msgout))
  else
    let m := s.msgout
    let offset := wrapInt 32 (m.length - s.bytesLeft)
    let skbDataBytes :=
      homaSkbDataBytes g.maxGsoData m.unscheduled offset s.bytesLeft
    let event := events m.numSkbs
    (homaTxDataPktAlloc fuel g.hijack m.length.toNat s.pos offset skbDataBytes
        g.maxSegData (event ≠ .noMemory)).map fun
      | .error e => .done (e, m)
      | .ok (skb, pos) =>
          let bytesLeft := wrapInt 32 (s.bytesLeft - skbDataBytes)
          if event = .rpcDead then .done (-einval, m)
          else
            .next
              { msgout :=
                  { m with
                    packets := m.packets ++ [skb]
                    numSkbs := m.numSkbs + 1
                    copiedFromUser := wrapInt 32 (m.length - bytesLeft) }
                bytesLeft, pos }

/-- `homa_message_out_fill(rpc, iter, xmit, flags)` for an iterator of
`count` bytes: the return value and the RPC's new `msgout`.  `msgout` is the
RPC's old one, which an invalid length leaves alone. -/
def homaMessageOutFill (fuel : ℕ) (g : Geometry) (unschedBytes : ℤ)
    (count : ℕ) (events : ℕ → PacketEvent) (msgout : MessageOut) :
    Option (ℤ × MessageOut) :=
  if count > homaMaxMessageLength ∨ count = 0 then some (-einval, msgout)
  else
    let m := homaMessageOutInit count unschedBytes
    run (homaMessageOutFillBody fuel g events) fuel
      { msgout := { m with granted := m.unscheduled }, bytesLeft := count, pos := 0 }

end Homa
