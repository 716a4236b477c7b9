import Homa.Socket
import Homa.PeerAcks
import Homa.Timer
import Homa.Transition

/-!
# Ending RPCs between two hosts: ACK, NEED_ACK and RPC_UNKNOWN

A client host and a server host exchange packets over a network that may
lose, duplicate and reorder them.  The client ends a finished RPC in
`homa_recvmsg` and files an ack for it (`homa_peer_add_ack`); acks leave in
request DATA headers, in the ACK a full ack array forces out and in the
answer to NEED_ACK.  A client that no longer knows an RPC answers a RESEND
with RPC_UNKNOWN.  The server ends an RPC on each of these, and creates one
for every request DATA packet whose id it does not hold.

The receive side is translated from `homa_dispatch_pkts` and its handlers,
on both hosts.  What a host sends on its own initiative is over-approximated:
any segment of a live RPC's message at any time, a RESEND for the missing
part of any message, NEED_ACK for any server RPC sending its response, and
an end or abort of any RPC; what holds of every run of this system holds of
the code.  Pool and gap allocation outcomes and the grant offset are inputs
of the steps.  The server host is the client of no RPC, so it holds no acks.
-/

namespace Homa

namespace Protocol

/-! ## Hosts and packets -/

/-- The fields of a client `struct homa_rpc` that the protocol reads. -/
structure ClientRpc where
  state : RpcState
  msgin : MessageIn
  error : ℤ
  /-- `msgout.length`. -/
  msgoutLength : ℤ
  /-- The `ack` in the header of each DATA packet of the request, written
  when `homa_message_out_fill` built the packet; `homa_resend_data` copies
  the header. -/
  msgoutAcks : List HomaAck

/-- `msgin` as `homa_rpc_alloc_client` leaves it: `length` is -1 and the
rest is zeroed. -/
def ClientRpc.initMsgin : MessageIn :=
  ⟨-1, [], [], 0, 0⟩

/-- The fields of a server `struct homa_rpc` that the protocol reads. -/
structure ServerRpc where
  state : RpcState
  msgin : MessageIn
  msgoutLength : ℤ

/-- The client host: its socket's RPCs, `homa->next_outgoing_id`, and the
ack fields of its `struct homa_peer` for the server. -/
structure ClientHost where
  rpcs : ℕ → Option ClientRpc
  nextOutgoingId : ℕ
  peer : AckPeer

/-- The server host: its socket's RPCs. -/
structure ServerHost where
  rpcs : ℕ → Option ServerRpc

/-- A packet from the client to the server, with the header fields that its
handler reads. -/
inductive ClientPkt where
  | data (id : ℕ) (messageLength : ℤ) (seg : DataPacket) (ack : HomaAck)
  | resend (id : ℕ) (hdr : ResendHdr)
  | rpcUnknown (id : ℕ)
  | busy (id : ℕ)
  | ack (hdr : AckHdr)

/-- A packet from the server to the client. -/
inductive ServerPkt where
  | data (id : ℕ) (messageLength : ℤ) (seg : DataPacket)
  | resend (id : ℕ) (hdr : ResendHdr)
  | rpcUnknown (id : ℕ)
  | busy (id : ℕ)
  | needAck (id : ℕ)

/-- `homa_message_in_init` on a client RPC's `msgin`, and whether it
succeeded. -/
def homaMessageInInitRpc (msgin : MessageIn) (length poolErr : ℤ) : MessageIn × Bool :=
  match homaMessageInInit length poolErr with
  | .ok m => (m, true)
  | .error _ =>
    if length > homaMaxMessageLength then (msgin, false)
    else ({ msgin with length := -1, packets := [], gaps := [], bytesRemaining := length }, false)

/-! ## The server host -/

namespace ServerHost

def setRpc (h : ServerHost) (id : ℕ) (r : Option ServerRpc) : ServerHost :=
  ⟨Function.update h.rpcs id r⟩

@[simp] theorem setRpc_rpcs (h : ServerHost) (id : ℕ) (r : Option ServerRpc) :
    (h.setRpc id r).rpcs = Function.update h.rpcs id r := rfl

/-- `homa_rpc_end`: the RPC leaves the hash table, and no lookup finds it
again.  Ending an id the table does not hold changes nothing. -/
def homaRpcEnd (id : ℕ) (h : ServerHost) : ServerHost :=
  h.setRpc id none

variable (dport : ℕ)

/-- `homa_rpc_acked`: the RPC the ack names ends.  An ack for another port
would be looked up in that port's socket, which this model does not have. -/
def homaRpcAcked (ack : HomaAck) (h : ServerHost) : ServerHost :=
  if ack.serverPort = dport then h.homaRpcEnd ack.clientId else h

/-- `homa_ack_pkt`: the RPC of the header ends, then each RPC of
`acks[0 .. num_acks)`. -/
def homaAckPkt (hdr : AckHdr) (h : ServerHost) : ServerHost :=
  (hdr.acks.take hdr.numAcks).foldl (fun h ack => homaRpcAcked dport ack h)
    (h.homaRpcEnd hdr.senderId)

/-- `homa_rpc_unknown_pkt` on the server: the client no longer knows the
RPC, so it ends.  Without the RPC the dispatcher drops the packet. -/
def homaRpcUnknownPkt (id : ℕ) (h : ServerHost) : ServerHost :=
  h.homaRpcEnd id

/-- `homa_resend_pkt` on the server: RPC_UNKNOWN without the RPC, BUSY before
the response exists; retransmissions are the `serverXmit` steps. -/
def homaResendPkt (id : ℕ) (h : ServerHost) : List ServerPkt :=
  match h.rpcs id with
  | none => [.rpcUnknown id]
  | some r => if r.state ≠ .outgoing then [.busy id] else []

/-- `homa_rpc_alloc_server`: the RPC with this id if the table holds one,
else a new one in `RPC_INCOMING` whose `msgin` `homa_message_in_init` set
up; `none` when that fails, and the packet is dropped. -/
def homaRpcAllocServer (id : ℕ) (messageLength poolErr : ℤ) (h : ServerHost) :
    Option ServerHost :=
  match h.rpcs id with
  | some _ => some h
  | none =>
    match homaMessageInInit messageLength poolErr with
    | .error _ => none
    | .ok msgin => some (h.setRpc id (some ⟨.incoming, msgin, -1⟩))

/-- `homa_data_pkt` on the server: the piggybacked ack first, then
`homa_add_packet` unless the RPC is past its request or `bufs` is false. -/
def homaDataPkt (id : ℕ) (seg : DataPacket) (ack : HomaAck) (bufs allocOk : Bool)
    (h : ServerHost) : ServerHost :=
  let h := if ack.clientId ≠ 0 then homaRpcAcked dport ack h else h
  match h.rpcs id with
  -- the ack ended this very RPC, now `RPC_DEAD`: discard
  | none => h
  | some r =>
    if r.state ≠ .incoming ∧ 0 ≤ r.msgin.length then h
    else if bufs then h.setRpc id (some { r with msgin := homaAddPacket r.msgin seg allocOk })
    else h

/-- `homa_dispatch_pkts` on the server for one packet from the client: the
new server state and what it sends back. -/
def homaDispatchPkt (poolErr : ℤ) (bufs allocOk : Bool) (h : ServerHost) :
    ClientPkt → ServerHost × List ServerPkt
  | .data id messageLength seg ack =>
    match homaRpcAllocServer id messageLength poolErr h with
    | none => (h, [])
    | some h => (homaDataPkt dport id seg ack bufs allocOk h, [])
  | .resend id _ => (h, homaResendPkt id h)
  | .rpcUnknown id => (homaRpcUnknownPkt id h, [])
  | .busy _ => (h, [])
  | .ack hdr => (homaAckPkt dport hdr h, [])

end ServerHost

/-! ## The client host -/

namespace ClientRpc

/-- The end of `homa_data_pkt`: with no buffer space (`num_bpages == 0`)
the packet is dropped, else it goes to `homa_add_packet`. -/
def addPacket (seg : DataPacket) (bufs allocOk : Bool) (r : ClientRpc) : ClientRpc :=
  if bufs then { r with msgin := homaAddPacket r.msgin seg allocOk } else r

end ClientRpc

namespace ClientHost

def setRpc (c : ClientHost) (id : ℕ) (r : Option ClientRpc) : ClientHost :=
  { c with rpcs := Function.update c.rpcs id r }

@[simp] theorem setRpc_rpcs (c : ClientHost) (id : ℕ) (r : Option ClientRpc) :
    (c.setRpc id r).rpcs = Function.update c.rpcs id r := rfl

@[simp] theorem setRpc_nextOutgoingId (c : ClientHost) (id : ℕ) (r : Option ClientRpc) :
    (c.setRpc id r).nextOutgoingId = c.nextOutgoingId := rfl

@[simp] theorem setRpc_peer (c : ClientHost) (id : ℕ) (r : Option ClientRpc) :
    (c.setRpc id r).peer = c.peer := rfl

/-- `homa_rpc_end` on the client. -/
def homaRpcEnd (id : ℕ) (c : ClientHost) : ClientHost :=
  c.setRpc id none

/-- `homa_data_pkt` on the client: the first packet of the response moves the
RPC to `RPC_INCOMING` and sets up `msgin`; packets for RPCs in other states
or unknown are dropped. -/
def homaDataPkt (id : ℕ) (messageLength : ℤ) (seg : DataPacket) (poolErr : ℤ)
    (bufs allocOk : Bool) (c : ClientHost) : ClientHost :=
  match c.rpcs id with
  | none => c
  | some r =>
    if r.state = .incoming then c.setRpc id (some (r.addPacket seg bufs allocOk))
    else if r.state ≠ .outgoing then c
    else
      let init := homaMessageInInitRpc r.msgin messageLength poolErr
      let r := { r with state := .incoming, msgin := init.1 }
      if init.2 then c.setRpc id (some (r.addPacket seg bufs allocOk))
      else c.setRpc id (some r)

/-- `homa_resend_pkt` on the client: RPC_UNKNOWN without the RPC; otherwise
it retransmits (`clientXmit` steps) or sends BUSY. -/
def homaResendPkt (id : ℕ) (c : ClientHost) : List ClientPkt :=
  match c.rpcs id with
  | none => [.rpcUnknown id]
  | some _ => []

variable (dport : ℕ)

/-- The ACK that `homa_need_ack_pkt` sends: RPC `id` in the header, and up
to `HOMA_MAX_ACKS_PER_PKT` acks taken from the peer. -/
def needAckReply (id : ℕ) (c : ClientHost) : ClientHost × List ClientPkt :=
  let got := homaPeerGetAcks homaMaxAcksPerPkt c.peer
  ({ c with peer := got.1 }, [.ack ⟨id, dport, got.2.1.toNat, got.2.2⟩])

/-- `homa_need_ack_pkt`: an RPC that exists and does not hold its whole
response asks for the rest (`homa_request_retrans`, with `granted` its
`msgin.granted`); otherwise the client acks. -/
def homaNeedAckPkt (id : ℕ) (granted : ℤ) (c : ClientHost) : ClientHost × List ClientPkt :=
  match c.rpcs id with
  | some r =>
    if r.state ≠ .incoming ∨ r.msgin.bytesRemaining ≠ 0 then
      (c, (homaRequestRetrans r.msgin granted).map (.resend id))
    else needAckReply dport id c
  | none => needAckReply dport id c

/-- `homa_dispatch_pkts` on the client for one packet from the server. -/
def homaDispatchPkt (poolErr granted : ℤ) (bufs allocOk : Bool) (c : ClientHost) :
    ServerPkt → ClientHost × List ClientPkt
  | .data id messageLength seg => (homaDataPkt id messageLength seg poolErr bufs allocOk c, [])
  | .resend id _ => (c, homaResendPkt id c)
  -- `homa_rpc_unknown_pkt`: an RPC in `RPC_OUTGOING` retransmits its request
  -- (`clientXmit` steps), and nothing else changes
  | .rpcUnknown _ => (c, [])
  | .busy _ => (c, [])
  | .needAck id => homaNeedAckPkt dport id granted c

/-- The `ack` of a DATA header as `homa_tx_data_pkt_alloc` writes it:
cleared, then `homa_peer_get_acks(peer, 1, &h->ack)`. -/
def homaTxDataPktAck (p : AckPeer) : AckPeer × HomaAck :=
  let got := homaPeerGetAcks 1 p
  (got.1, got.2.2.headD ⟨0, 0⟩)

/-- The acks of the `n` packets that `homa_message_out_fill` builds, in
order. -/
def homaMessageOutFillAcks : ℕ → AckPeer → AckPeer × List HomaAck
  | 0, p => (p, [])
  | n + 1, p =>
    let first := homaTxDataPktAck p
    let rest := homaMessageOutFillAcks n first.1
    (rest.1, first.2 :: rest.2)

/-- `homa_sendmsg` with a request of `length` bytes in `n` packets:
`homa_rpc_alloc_client` takes the next id, and `homa_message_out_fill`
builds the packets. -/
def homaSendmsg (length : ℤ) (n : ℕ) (c : ClientHost) : ClientHost :=
  let fill := homaMessageOutFillAcks n c.peer
  { rpcs := Function.update c.rpcs c.nextOutgoingId
      (some ⟨.outgoing, ClientRpc.initMsgin, 0, length, fill.2⟩)
    nextOutgoingId := c.nextOutgoingId + 2
    peer := fill.1 }

/-- `homa_recvmsg` returning client RPC `id`: `homa_peer_add_ack`, which
sends an ACK when the peer's array is full, then `homa_rpc_end`. -/
def homaRecvmsg (id : ℕ) (c : ClientHost) : ClientHost × List ClientPkt :=
  let added := homaPeerAddAck id dport c.peer
  ({ c.homaRpcEnd id with peer := added.1 }, (added.2.map ClientPkt.ack).toList)

end ClientHost

/-! ## The system -/

/-- Both hosts, the packets in flight each way, and the server's history of
each id (`handed`, `ended`, `recreated`). -/
structure RpcSys where
  client : ClientHost
  server : ServerHost
  toServer : List ClientPkt
  toClient : List ServerPkt
  handed : ℕ → ℕ
  ended : ℕ → Bool
  recreated : ℕ → Bool

namespace RpcSys

/-- The server moves to `h`; its history notes the RPCs that left its table
and those that came back. -/
@[simps -fullyApplied]
def withServer (s : RpcSys) (h : ServerHost) : RpcSys :=
  { s with
    server := h
    ended := fun id => s.ended id || ((s.server.rpcs id).isSome && (h.rpcs id).isNone)
    recreated := fun id =>
      s.recreated id || (s.ended id && (s.server.rpcs id).isNone && (h.rpcs id).isSome) }

variable (dport : ℕ)

/-- One step of either host, either application or the network. -/
inductive Step : RpcSys → RpcSys → Prop
  /-- The client application sends a request; `homa_message_out_fill`
  takes lengths from 1 to `HOMA_MAX_MESSAGE_LENGTH`. -/
  | sendmsg {s : RpcSys} (length : ℤ) (n : ℕ)
      (hlength : 0 < length ∧ length ≤ homaMaxMessageLength) :
      Step s { s with client := s.client.homaSendmsg length n }
  /-- `homa_recvmsg` returns a client RPC that failed or holds its whole
  response (the exit test of `homa_wait_private`). -/
  | recvmsg {s : RpcSys} {id : ℕ} {r : ClientRpc} (hr : s.client.rpcs id = some r)
      (hready : r.error ≠ 0 ∨ 0 ≤ r.msgin.length ∧ r.msgin.bytesRemaining = 0) :
      Step s { s with
        client := (s.client.homaRecvmsg dport id).1
        toServer := s.toServer ++ (s.client.homaRecvmsg dport id).2 }
  /-- The application cancels a client RPC (`HOMA_ABORT` with no error), or
  the socket shuts down: `homa_rpc_end`, with no ack. -/
  | cancel {s : RpcSys} (id : ℕ) :
      Step s { s with client := s.client.homaRpcEnd id }
  /-- `homa_rpc_abort` on a client RPC: the timer gave up, the peer failed,
  or the application aborted it with an error. -/
  | abort {s : RpcSys} {id : ℕ} {r : ClientRpc} (err : ℤ) (hr : s.client.rpcs id = some r)
      (herr : err ≠ 0) :
      Step s { s with client := s.client.setRpc id (some { r with error := err }) }
  /-- The client sends a packet of a request, first or again; its header
  carries the ack the packet was built with. -/
  | clientXmit {s : RpcSys} {id : ℕ} {r : ClientRpc} (seg : DataPacket) {ack : HomaAck}
      (hr : s.client.rpcs id = some r) (hack : ack ∈ r.msgoutAcks)
      (hseg : 0 ≤ seg.start ∧ seg.start + seg.length ≤ r.msgoutLength) :
      Step s { s with toServer := s.toServer ++ [.data id r.msgoutLength seg ack] }
  /-- The client's timer asks for what it misses of a response
  (`homa_request_retrans`). -/
  | clientResend {s : RpcSys} {id : ℕ} {r : ClientRpc} (granted : ℤ)
      (hr : s.client.rpcs id = some r) :
      Step s { s with
        toServer := s.toServer ++ (homaRequestRetrans r.msgin granted).map (.resend id) }
  /-- `homa_recvmsg` returns a whole request to the server application, and
  the RPC goes to `RPC_IN_SERVICE`. -/
  | serverRecvmsg {s : RpcSys} {id : ℕ} {r : ServerRpc} (hr : s.server.rpcs id = some r)
      (hstate : r.state = .incoming)
      (hready : 0 ≤ r.msgin.length ∧ r.msgin.bytesRemaining = 0) :
      Step s { s.withServer (s.server.setRpc id (some { r with state := .inService })) with
        handed := Function.update s.handed id (s.handed id + 1) }
  /-- `homa_sendmsg` with the response of an RPC in service. -/
  | serverReply {s : RpcSys} {id : ℕ} {r : ServerRpc} (length : ℤ)
      (hr : s.server.rpcs id = some r) (hstate : r.state = .inService)
      (hlength : 0 < length ∧ length ≤ homaMaxMessageLength) :
      Step s (s.withServer
        (s.server.setRpc id (some { r with state := .outgoing, msgoutLength := length })))
  /-- The server ends an RPC of its own accord: a timeout, a failed
  `homa_sendmsg`, a socket shutdown. -/
  | serverEnd {s : RpcSys} (id : ℕ) :
      Step s (s.withServer (s.server.homaRpcEnd id))
  /-- The server sends a packet of a response, first or again. -/
  | serverXmit {s : RpcSys} {id : ℕ} {r : ServerRpc} (seg : DataPacket)
      (hr : s.server.rpcs id = some r) (hstate : r.state = .outgoing)
      (hseg : 0 ≤ seg.start ∧ seg.start + seg.length ≤ r.msgoutLength) :
      Step s { s with toClient := s.toClient ++ [.data id r.msgoutLength seg] }
  /-- The server's timer sends NEED_ACK for an RPC sending its response. -/
  | serverNeedAck {s : RpcSys} {id : ℕ} {r : ServerRpc} (hr : s.server.rpcs id = some r)
      (hstate : r.state = .outgoing) :
      Step s { s with toClient := s.toClient ++ [.needAck id] }
  /-- The server's timer asks for what it misses of a request. -/
  | serverResend {s : RpcSys} {id : ℕ} {r : ServerRpc} (granted : ℤ)
      (hr : s.server.rpcs id = some r) (hstate : r.state = .incoming) :
      Step s { s with
        toClient := s.toClient ++ (homaRequestRetrans r.msgin granted).map (.resend id) }
  /-- A packet reaches the server. -/
  | toServer {s : RpcSys} (l₁ l₂ : List ClientPkt) (p : ClientPkt)
      (hnet : s.toServer = l₁ ++ p :: l₂) (poolErr : ℤ) (bufs allocOk : Bool) :
      Step s { s.withServer (s.server.homaDispatchPkt dport poolErr bufs allocOk p).1 with
        toServer := l₁ ++ l₂
        toClient := s.toClient ++ (s.server.homaDispatchPkt dport poolErr bufs allocOk p).2 }
  /-- A packet reaches the client. -/
  | toClient {s : RpcSys} (l₁ l₂ : List ServerPkt) (p : ServerPkt)
      (hnet : s.toClient = l₁ ++ p :: l₂) (poolErr granted : ℤ) (bufs allocOk : Bool) :
      Step s { s with
        client := (s.client.homaDispatchPkt dport poolErr granted bufs allocOk p).1
        toClient := l₁ ++ l₂
        toServer := s.toServer ++ (s.client.homaDispatchPkt dport poolErr granted bufs allocOk p).2 }
  /-- The network loses a packet on its way to the server. -/
  | dropToServer {s : RpcSys} (l₁ l₂ : List ClientPkt) (p : ClientPkt)
      (hnet : s.toServer = l₁ ++ p :: l₂) :
      Step s { s with toServer := l₁ ++ l₂ }
  /-- The network loses a packet on its way to the client. -/
  | dropToClient {s : RpcSys} (l₁ l₂ : List ServerPkt) (p : ServerPkt)
      (hnet : s.toClient = l₁ ++ p :: l₂) :
      Step s { s with toClient := l₁ ++ l₂ }
  /-- The network duplicates a packet on its way to the server. -/
  | dupToServer {s : RpcSys} {p : ClientPkt} (hp : p ∈ s.toServer) :
      Step s { s with toServer := s.toServer ++ [p] }
  /-- The network duplicates a packet on its way to the client. -/
  | dupToClient {s : RpcSys} {p : ServerPkt} (hp : p ∈ s.toClient) :
      Step s { s with toClient := s.toClient ++ [p] }

/-- Both hosts fresh: no RPCs, the first client id 2 (`homa_init`), the
peer's ack array empty, nothing in flight, no history. -/
structure Init (s : RpcSys) : Prop where
  client_rpcs : ∀ id, s.client.rpcs id = none
  nextOutgoingId_eq : s.client.nextOutgoingId = 2
  peer_eq : s.client.peer = AckPeer.alloc
  server_rpcs : ∀ id, s.server.rpcs id = none
  toServer_eq : s.toServer = []
  toClient_eq : s.toClient = []
  handed_eq : ∀ id, s.handed id = 0
  ended_eq : ∀ id, s.ended id = false
  recreated_eq : ∀ id, s.recreated id = false

abbrev Reachable : RpcSys → Prop :=
  Transition.Reachable Init (Step dport)

/-- The system as both hosts start it. -/
def fresh : RpcSys :=
  ⟨⟨fun _ => none, 2, AckPeer.alloc⟩, ⟨fun _ => none⟩, [], [], fun _ => 0, fun _ => false,
    fun _ => false⟩

theorem fresh_init : Init fresh :=
  ⟨fun _ => rfl, rfl, rfl, fun _ => rfl, rfl, rfl, fun _ => rfl, fun _ => rfl, fun _ => rfl⟩

end RpcSys

end Protocol

end Homa
