import Homa.Protocol

/-!
# Acks name RPCs the client is done with

The server may end an RPC on an ack in a DATA header, the acks of an ACK
packet, or an RPC_UNKNOWN.  Every such packet names an RPC the client
created and has ended or holds the whole response of
(`ClientHost.DoneWith`), in every reachable state, whatever the network
does.  The invariant has a part about the client alone (`ClientInv`) and a
part linking the server and the network to it (`LinkInv`); the client's
steps only grow what it is done with (`ClientHost.Grows`), as ids are never
reused and a whole response stays whole.
-/

namespace Homa

namespace Protocol

open MessageIn

/-! ## Reception of a whole message -/

theorem bytesRemaining_homaAddPacket_of_zero {msgin : MessageIn} (hinv : msgin.Reassembly)
    {p : DataPacket} (hp : p.NoWrap) (allocOk : Bool) (h0 : msgin.bytesRemaining = 0) :
    (homaAddPacket msgin p allocOk).bytesRemaining = 0 := by
  rcases homaAddPacket_cases msgin p allocOk with heq | ⟨gaps, recvEnd, heq⟩
  · rw [heq]
    exact h0
  · have hinv' := hinv.homaAddPacket p allocOk hp
    rw [heq] at hinv' ⊢
    have hnonneg := hinv'.bytesRemaining_nonneg
    have hafter := hinv'.bytesRemaining_eq
    rw [keep_length, keptBytes_keep] at hafter
    have hbefore := hinv.bytesRemaining_eq
    have hlen := p.length_nonneg
    -- a kept packet adds its bytes to those already queued
    change _ = msgin.length - (msgin.keptBytes + p.length) at hafter
    omega

theorem homaAddPacket_of_length_neg {msgin : MessageIn} (hlen : msgin.length < 0)
    {p : DataPacket} (hp : p.NoWrap) (hstart : 0 ≤ p.start) (allocOk : Bool) :
    homaAddPacket msgin p allocOk = msgin := by
  have hstop := DataPacket.stop_of_noWrap hp
  have := p.length_nonneg
  unfold homaAddPacket
  dsimp only
  rw [if_pos (by omega)]

/-- A DATA packet lies inside its message, whose length
`homa_message_out_fill` accepted. -/
def SegOk (messageLength : ℤ) (seg : DataPacket) : Prop :=
  0 < messageLength ∧ messageLength ≤ homaMaxMessageLength ∧ 0 ≤ seg.start ∧
    seg.start + seg.length ≤ messageLength

theorem SegOk.noWrap {messageLength : ℤ} {seg : DataPacket} (h : SegOk messageLength seg) :
    seg.NoWrap := by
  obtain ⟨-, hmax, -, hend⟩ := h
  unfold DataPacket.NoWrap
  unfold homaMaxMessageLength at hmax
  omega

theorem homaMessageInInitRpc_spec (msgin : MessageIn) {length : ℤ}
    (hlength : 0 < length ∧ length ≤ homaMaxMessageLength) (poolErr : ℤ) :
    (homaMessageInInitRpc msgin length poolErr).2 = true ∧
        (homaMessageInInitRpc msgin length poolErr).1.Reassembly ∨
      (homaMessageInInitRpc msgin length poolErr).2 = false ∧
        (homaMessageInInitRpc msgin length poolErr).1.length = -1 ∧
        0 < (homaMessageInInitRpc msgin length poolErr).1.bytesRemaining := by
  unfold homaMessageInInitRpc
  split
  next m hinit => exact .inl ⟨rfl, reassembly_of_homaMessageInInit hinit hlength.1.le⟩
  next e hinit =>
    rw [if_neg (not_lt.mpr hlength.2)]
    exact .inr ⟨rfl, rfl, hlength.1⟩

/-! ## Client RPCs -/

namespace ClientRpc

/-- Once the response has started, `msgin` is filed consistently, or is
marked absent after `homa_message_in_init` failed, with bytes missing. -/
def Wf (r : ClientRpc) : Prop :=
  r.state = .incoming → r.msgin.Reassembly ∨ r.msgin.length = -1 ∧ 0 < r.msgin.bytesRemaining

/-- The test of `homa_need_ack_pkt`: the response is all there. -/
def Complete (r : ClientRpc) : Prop :=
  r.state = .incoming ∧ r.msgin.bytesRemaining = 0

variable {r : ClientRpc} {messageLength : ℤ} {seg : DataPacket}

@[simp] theorem addPacket_state (seg : DataPacket) (bufs allocOk : Bool) (r : ClientRpc) :
    (r.addPacket seg bufs allocOk).state = r.state := by
  unfold addPacket
  split <;> rfl

@[simp] theorem addPacket_msgoutAcks (seg : DataPacket) (bufs allocOk : Bool) (r : ClientRpc) :
    (r.addPacket seg bufs allocOk).msgoutAcks = r.msgoutAcks := by
  unfold addPacket
  split <;> rfl

theorem Wf.addPacket (hwf : r.Wf) (hseg : SegOk messageLength seg) (bufs allocOk : Bool) :
    (r.addPacket seg bufs allocOk).Wf := by
  unfold ClientRpc.addPacket
  split
  · intro hinc
    rcases hwf hinc with hre | ⟨hlen, hpos⟩
    · exact .inl (hre.homaAddPacket seg allocOk hseg.noWrap)
    · -- an absent message ignores the packet
      right
      dsimp only
      rw [homaAddPacket_of_length_neg (by omega) hseg.noWrap hseg.2.2.1]
      exact ⟨hlen, hpos⟩
  · exact hwf

theorem Complete.addPacket (hwf : r.Wf) (hc : r.Complete) (hseg : SegOk messageLength seg)
    (bufs allocOk : Bool) : (r.addPacket seg bufs allocOk).Complete := by
  obtain ⟨hinc, h0⟩ := hc
  refine ⟨by rw [addPacket_state]; exact hinc, ?_⟩
  unfold ClientRpc.addPacket
  split
  · rcases hwf hinc with hre | ⟨-, hpos⟩
    · exact bytesRemaining_homaAddPacket_of_zero hre hseg.noWrap allocOk h0
    · omega
  · exact h0

theorem Wf.received (hwf : r.Wf) (hc : r.Complete) :
    r.msgin.received = Set.Ico 0 r.msgin.length := by
  rcases hwf hc.1 with hre | ⟨-, hpos⟩
  · exact hre.bytesRemaining_eq_zero_iff.mp hc.2
  · have := hc.2
    omega

end ClientRpc

/-! ## What the client is done with -/

theorem homaIsClient_add_two (id : ℕ) : homaIsClient (id + 2) = homaIsClient id := by
  simp only [homaIsClient, Nat.and_one_is_mod, Nat.add_mod_right]

namespace ClientHost

/-- The client created RPC `id`: a client id (`homa_is_client`), handed out
before `next_outgoing_id`. -/
def Created (c : ClientHost) (id : ℕ) : Prop :=
  homaIsClient id = true ∧ 0 < id ∧ id < c.nextOutgoingId

theorem Created.mono {c c' : ClientHost} {id : ℕ} (h : c.Created id)
    (hle : c.nextOutgoingId ≤ c'.nextOutgoingId) : c'.Created id :=
  ⟨h.1, h.2.1, h.2.2.trans_le hle⟩

/-- The client no longer needs the server's state for RPC `id`: it created
the RPC, and has ended it or holds its whole response. -/
def DoneWith (c : ClientHost) (id : ℕ) : Prop :=
  c.Created id ∧ (c.rpcs id = none ∨ ∃ r, c.rpcs id = some r ∧ r.Complete)

/-- `c'` has handed out every id `c` had, and is done with everything `c`
is done with. -/
structure Grows (c c' : ClientHost) : Prop where
  nextOutgoingId_le : c.nextOutgoingId ≤ c'.nextOutgoingId
  doneWith : ∀ id, c.DoneWith id → c'.DoneWith id

theorem Grows.refl (c : ClientHost) : c.Grows c :=
  ⟨le_rfl, fun _ hd => hd⟩

theorem Grows.trans {c c' c'' : ClientHost} (h : c.Grows c') (h' : c'.Grows c'') :
    c.Grows c'' :=
  ⟨h.nextOutgoingId_le.trans h'.nextOutgoingId_le, fun id hd => h'.doneWith id (h.doneWith id hd)⟩

theorem grows_peer (c : ClientHost) (p : AckPeer) : c.Grows { c with peer := p } :=
  ⟨le_rfl, fun _ hd => hd⟩

theorem grows_setRpc {c : ClientHost} {id : ℕ} {r r' : ClientRpc} (hr : c.rpcs id = some r)
    (hc : r.Complete → r'.Complete) : c.Grows (c.setRpc id (some r')) := by
  refine ⟨le_rfl, fun x ⟨hlt, hx⟩ => ⟨hlt, ?_⟩⟩
  by_cases hxid : x = id
  · subst hxid
    rcases hx with hnone | ⟨r₀, hr₀, hc₀⟩
    · rw [hr] at hnone
      cases hnone
    · rw [hr, Option.some.injEq] at hr₀
      subst hr₀
      exact .inr ⟨r', by simp, hc hc₀⟩
  · rw [setRpc_rpcs, Function.update_of_ne hxid]
    exact hx

theorem grows_homaRpcEnd (c : ClientHost) (id : ℕ) : c.Grows (c.homaRpcEnd id) := by
  refine ⟨le_rfl, fun x ⟨hlt, hx⟩ => ⟨hlt, ?_⟩⟩
  by_cases hxid : x = id
  · subst hxid
    exact .inl (by simp [homaRpcEnd])
  · rw [homaRpcEnd, setRpc_rpcs, Function.update_of_ne hxid]
    exact hx

theorem doneWith_homaRpcEnd {c : ClientHost} {id : ℕ} (hlt : c.Created id) :
    (c.homaRpcEnd id).DoneWith id :=
  ⟨hlt, .inl (by simp [homaRpcEnd])⟩

@[simp] theorem homaSendmsg_rpcs (length : ℤ) (n : ℕ) (c : ClientHost) :
    (c.homaSendmsg length n).rpcs = Function.update c.rpcs c.nextOutgoingId
      (some ⟨.outgoing, ClientRpc.initMsgin, 0, length, (homaMessageOutFillAcks n c.peer).2⟩) :=
  rfl

@[simp] theorem homaSendmsg_nextOutgoingId (length : ℤ) (n : ℕ) (c : ClientHost) :
    (c.homaSendmsg length n).nextOutgoingId = c.nextOutgoingId + 2 :=
  rfl

@[simp] theorem homaSendmsg_peer (length : ℤ) (n : ℕ) (c : ClientHost) :
    (c.homaSendmsg length n).peer = (homaMessageOutFillAcks n c.peer).1 :=
  rfl

theorem grows_homaSendmsg (c : ClientHost) (length : ℤ) (n : ℕ) :
    c.Grows (c.homaSendmsg length n) := by
  refine ⟨by simp, fun x ⟨hlt, hx⟩ => ⟨hlt.mono (by simp), ?_⟩⟩
  rw [homaSendmsg_rpcs, Function.update_of_ne hlt.2.2.ne]
  exact hx

end ClientHost

/-! ## Acks leaving the peer -/

theorem homaPeerGetAcks_sub {p : AckPeer} (h : p.Wf) {count : ℤ} (hc : 0 ≤ count) :
    (homaPeerGetAcks count p).1.Wf ∧ (∀ a ∈ (homaPeerGetAcks count p).1.stored, a ∈ p.stored) ∧
      ∀ a ∈ (homaPeerGetAcks count p).2.2, a ∈ p.stored := by
  obtain ⟨hwf, -, -, hsplit⟩ := homaPeerGetAcks_spec h hc
  refine ⟨hwf, fun a ha => ?_, fun a ha => ?_⟩ <;> rw [← hsplit] <;> simp [ha]

namespace ClientHost

theorem homaTxDataPktAck_sub {p : AckPeer} (h : p.Wf) :
    (homaTxDataPktAck p).1.Wf ∧ (∀ a ∈ (homaTxDataPktAck p).1.stored, a ∈ p.stored) ∧
      ((homaTxDataPktAck p).2.clientId ≠ 0 → (homaTxDataPktAck p).2 ∈ p.stored) := by
  obtain ⟨hwf, hkept, hout⟩ := homaPeerGetAcks_sub h (show (0 : ℤ) ≤ 1 by norm_num)
  refine ⟨hwf, hkept, fun hne => ?_⟩
  unfold homaTxDataPktAck at hne ⊢
  dsimp only at hne ⊢
  cases hl : (homaPeerGetAcks 1 p).2.2 with
  | nil =>
    rw [hl] at hne
    exact absurd rfl hne
  | cons a rest =>
    exact hout a (by rw [hl]; exact List.mem_cons_self)

theorem homaMessageOutFillAcks_sub (n : ℕ) {p : AckPeer} (h : p.Wf) :
    (homaMessageOutFillAcks n p).1.Wf ∧
      (∀ a ∈ (homaMessageOutFillAcks n p).1.stored, a ∈ p.stored) ∧
      ∀ a ∈ (homaMessageOutFillAcks n p).2, a.clientId ≠ 0 → a ∈ p.stored := by
  induction n generalizing p with
  | zero => exact ⟨h, fun a ha => ha, fun a ha => by simp [homaMessageOutFillAcks] at ha⟩
  | succ n ih =>
    obtain ⟨hwf₁, hkept₁, hack₁⟩ := homaTxDataPktAck_sub h
    obtain ⟨hwf, hkept, hacks⟩ := ih hwf₁
    refine ⟨hwf, fun a ha => hkept₁ a (hkept a ha), fun a ha hne => ?_⟩
    rcases List.mem_cons.mp ha with rfl | ha
    · exact hack₁ hne
    · exact hkept₁ a (hacks a ha hne)

end ClientHost

theorem homaPeerAddAck_sub {p : AckPeer} (h : p.Wf) (id dport : ℕ) :
    (homaPeerAddAck id dport p).1.Wf ∧
      ∀ a, (a ∈ (homaPeerAddAck id dport p).1.stored ∨
          ∃ hdr ∈ (homaPeerAddAck id dport p).2, a ∈ hdr.carried) →
        a ∈ p.stored ∨ a = ⟨id, dport⟩ := by
  by_cases hlt : p.numAcks < homaMaxAcksPerPkt
  · obtain ⟨hwf, hstored, hnone⟩ := homaPeerAddAck_of_lt h.1 hlt id dport
    refine ⟨hwf, fun a ha => ?_⟩
    rw [hstored, hnone] at ha
    simpa using ha
  · obtain ⟨hwf, hstored, hdr, hsome, hcarried⟩ := homaPeerAddAck_of_full h hlt id dport
    refine ⟨hwf, fun a ha => ?_⟩
    rw [hstored, hsome] at ha
    simp only [List.not_mem_nil, false_or, Option.mem_def, Option.some.injEq,
      exists_eq_left'] at ha
    rw [hcarried, List.mem_cons] at ha
    exact ha.symm

/-! ## Packets -/

def ClientPkt.id : ClientPkt → ℕ
  | .data id _ _ _ | .resend id _ | .rpcUnknown id | .busy id => id
  | .ack hdr => hdr.senderId

/-- The server RPCs that the server's handler of a packet may end. -/
def ClientPkt.acked : ClientPkt → List ℕ
  | .data _ _ _ a => if a.clientId ≠ 0 then [a.clientId] else []
  | .ack hdr => hdr.carried.map HomaAck.clientId
  | .rpcUnknown id => [id]
  | .resend _ _ | .busy _ => []

def ServerPkt.id : ServerPkt → ℕ
  | .data id _ _ | .resend id _ | .rpcUnknown id | .busy id | .needAck id => id

/-- A DATA packet of a response lies inside a message the server could
send. -/
def ServerPkt.Wf : ServerPkt → Prop
  | .data _ messageLength seg => SegOk messageLength seg
  | _ => True

/-- Packets from the client that are about RPCs it created and may end
only RPCs it is done with. -/
def ClientHost.SendsOk (c : ClientHost) (out : List ClientPkt) : Prop :=
  ∀ q ∈ out, c.Created q.id ∧ ∀ x ∈ q.acked, c.DoneWith x

namespace ClientHost

variable {c c' : ClientHost}

theorem SendsOk.grow {out : List ClientPkt} (h : c.SendsOk out) (hg : c.Grows c') :
    c'.SendsOk out :=
  fun q hq => ⟨(h q hq).1.mono hg.nextOutgoingId_le, fun x hx => hg.doneWith x ((h q hq).2 x hx)⟩

theorem SendsOk.append {l l' : List ClientPkt} (h : c.SendsOk l) (h' : c.SendsOk l') :
    c.SendsOk (l ++ l') := by
  intro q hq
  rcases List.mem_append.mp hq with hq | hq
  · exact h q hq
  · exact h' q hq

theorem SendsOk.sub {l l' : List ClientPkt} (h : c.SendsOk l) (hsub : ∀ q ∈ l', q ∈ l) :
    c.SendsOk l' :=
  fun q hq => h q (hsub q hq)

theorem sendsOk_nil (c : ClientHost) : c.SendsOk [] :=
  fun _ hq => absurd hq List.not_mem_nil

theorem sendsOk_singleton {q : ClientPkt} :
    c.SendsOk [q] ↔ c.Created q.id ∧ ∀ x ∈ q.acked, c.DoneWith x := by
  simp [SendsOk]

theorem setRpc_rpcs_eq_some {id x : ℕ} {r : Option ClientRpc} {r' : ClientRpc}
    (h : (c.setRpc id r).rpcs x = some r') : x = id ∧ r = some r' ∨ c.rpcs x = some r' := by
  by_cases hxid : x = id
  · subst hxid
    rw [setRpc_rpcs, Function.update_self] at h
    exact .inl ⟨rfl, h⟩
  · rw [setRpc_rpcs, Function.update_of_ne hxid] at h
    exact .inr h

end ClientHost

/-! ## The client host -/

/-- The acks the client can still send name RPCs it is done with, its RPCs'
responses are filed consistently, and the next id is a fresh client id. -/
structure ClientInv (c : ClientHost) : Prop where
  rpcs_created : ∀ id, c.rpcs id ≠ none → c.Created id
  rpcs_wf : ∀ id r, c.rpcs id = some r → r.Wf
  peer_wf : c.peer.Wf
  peer_done : ∀ a ∈ c.peer.stored, c.DoneWith a.clientId
  msgout_done : ∀ id r, c.rpcs id = some r → ∀ a ∈ r.msgoutAcks, a.clientId ≠ 0 →
    c.DoneWith a.clientId
  next_client : homaIsClient c.nextOutgoingId = true
  next_pos : 0 < c.nextOutgoingId

namespace ClientInv

variable {c : ClientHost}

theorem setRpc (hc : ClientInv c) {id : ℕ} {r r' : ClientRpc} (hr : c.rpcs id = some r)
    (hwf : r'.Wf) (hcomplete : r.Complete → r'.Complete) (hacks : r'.msgoutAcks = r.msgoutAcks) :
    ClientInv (c.setRpc id (some r')) := by
  have hg := ClientHost.grows_setRpc hr hcomplete
  refine ⟨fun x hx => ?_, fun x r₁ hr₁ => ?_, hc.peer_wf,
    fun a ha => hg.doneWith _ (hc.peer_done a ha), fun x r₁ hr₁ a ha hne => ?_, hc.next_client,
    hc.next_pos⟩
  · by_cases hxid : x = id
    · subst hxid
      exact hc.rpcs_created x (by simp [hr])
    · rw [ClientHost.setRpc_rpcs, Function.update_of_ne hxid] at hx
      exact hc.rpcs_created x hx
  · rcases ClientHost.setRpc_rpcs_eq_some hr₁ with ⟨-, heq⟩ | hr₁
    · cases heq
      exact hwf
    · exact hc.rpcs_wf x r₁ hr₁
  · rcases ClientHost.setRpc_rpcs_eq_some hr₁ with ⟨rfl, heq⟩ | hr₁
    · cases heq
      rw [hacks] at ha
      exact hg.doneWith _ (hc.msgout_done x r hr a ha hne)
    · exact hg.doneWith _ (hc.msgout_done x r₁ hr₁ a ha hne)

theorem homaRpcEnd (hc : ClientInv c) (id : ℕ) : ClientInv (c.homaRpcEnd id) := by
  have hg := c.grows_homaRpcEnd id
  refine ⟨fun x hx => ?_, fun x r hr => ?_, hc.peer_wf,
    fun a ha => hg.doneWith _ (hc.peer_done a ha), fun x r hr a ha hne => ?_, hc.next_client,
    hc.next_pos⟩
  · rcases Option.ne_none_iff_exists'.mp hx with ⟨r, hr⟩
    rcases ClientHost.setRpc_rpcs_eq_some hr with ⟨-, heq⟩ | hr
    · cases heq
    · exact hc.rpcs_created x (by simp [hr])
  · rcases ClientHost.setRpc_rpcs_eq_some hr with ⟨-, heq⟩ | hr
    · cases heq
    · exact hc.rpcs_wf x r hr
  · rcases ClientHost.setRpc_rpcs_eq_some hr with ⟨-, heq⟩ | hr
    · cases heq
    · exact hg.doneWith _ (hc.msgout_done x r hr a ha hne)

theorem withPeer (hc : ClientInv c) {p : AckPeer} (hwf : p.Wf)
    (hsub : ∀ a ∈ p.stored, a ∈ c.peer.stored) : ClientInv { c with peer := p } :=
  ⟨hc.rpcs_created, hc.rpcs_wf, hwf, fun a ha => hc.peer_done a (hsub a ha), hc.msgout_done,
    hc.next_client, hc.next_pos⟩

theorem homaSendmsg (hc : ClientInv c) (length : ℤ) (n : ℕ) :
    ClientInv (c.homaSendmsg length n) := by
  have hg := c.grows_homaSendmsg length n
  obtain ⟨hwf, hkept, hacks⟩ := ClientHost.homaMessageOutFillAcks_sub n hc.peer_wf
  refine ⟨fun x hx => ?_, fun x r hr => ?_, hwf,
    fun a ha => hg.doneWith _ (hc.peer_done a (hkept a ha)), fun x r hr a ha hne => ?_,
    by rw [ClientHost.homaSendmsg_nextOutgoingId, homaIsClient_add_two]; exact hc.next_client,
    by simp⟩
  · by_cases hxid : x = c.nextOutgoingId
    · -- the new RPC takes the next id
      rw [hxid]
      exact ⟨hc.next_client, hc.next_pos, by simp⟩
    · rw [ClientHost.homaSendmsg_rpcs, Function.update_of_ne hxid] at hx
      exact (hc.rpcs_created x hx).mono (by simp)
  · by_cases hxid : x = c.nextOutgoingId
    · -- the new RPC is sending its request
      rw [ClientHost.homaSendmsg_rpcs, hxid, Function.update_self, Option.some.injEq] at hr
      subst hr
      intro hinc
      cases hinc
    · rw [ClientHost.homaSendmsg_rpcs, Function.update_of_ne hxid] at hr
      exact hc.rpcs_wf x r hr
  · by_cases hxid : x = c.nextOutgoingId
    · rw [ClientHost.homaSendmsg_rpcs, hxid, Function.update_self, Option.some.injEq] at hr
      subst hr
      exact hg.doneWith _ (hc.peer_done a (hacks a ha hne))
    · rw [ClientHost.homaSendmsg_rpcs, Function.update_of_ne hxid] at hr
      exact hg.doneWith _ (hc.msgout_done x r hr a ha hne)

theorem homaRecvmsg (hc : ClientInv c) (dport : ℕ) {id : ℕ} (hlt : c.Created id) :
    ClientInv (c.homaRecvmsg dport id).1 ∧ c.Grows (c.homaRecvmsg dport id).1 ∧
      (c.homaRecvmsg dport id).1.SendsOk (c.homaRecvmsg dport id).2 := by
  obtain ⟨hwf, hadd⟩ := homaPeerAddAck_sub hc.peer_wf id dport
  have hend := hc.homaRpcEnd id
  have hg := c.grows_homaRpcEnd id
  -- every ack kept or sent names an RPC that has ended
  have hdone : ∀ a, (a ∈ (homaPeerAddAck id dport c.peer).1.stored ∨
      ∃ hdr ∈ (homaPeerAddAck id dport c.peer).2, a ∈ hdr.carried) →
      (c.homaRpcEnd id).DoneWith a.clientId := by
    intro a ha
    rcases hadd a ha with hold | rfl
    · exact hg.doneWith _ (hc.peer_done a hold)
    · exact ClientHost.doneWith_homaRpcEnd hlt
  refine ⟨⟨hend.rpcs_created, hend.rpcs_wf, hwf, fun a ha => hdone a (.inl ha), hend.msgout_done,
      hend.next_client, hend.next_pos⟩,
    hg.trans (ClientHost.grows_peer _ _), fun q hq => ?_⟩
  obtain ⟨hdr, hhdr, rfl⟩ : ∃ hdr, (homaPeerAddAck id dport c.peer).2 = some hdr ∧ q = .ack hdr := by
    simp only [ClientHost.homaRecvmsg] at hq
    cases hsent : (homaPeerAddAck id dport c.peer).2 with
    | none => simp [hsent] at hq
    | some hdr =>
      simp only [hsent, Option.map_some, Option.toList_some, List.mem_singleton] at hq
      exact ⟨hdr, rfl, hq⟩
  refine ⟨(hdone ⟨hdr.senderId, hdr.dport⟩ (.inr ⟨hdr, hhdr, List.mem_cons_self⟩)).1, ?_⟩
  intro x hx
  obtain ⟨a, ha, rfl⟩ := List.mem_map.mp hx
  exact hdone a (.inr ⟨hdr, hhdr, ha⟩)

theorem homaDataPkt (hc : ClientInv c) {id : ℕ} {messageLength : ℤ} {seg : DataPacket}
    (hseg : SegOk messageLength seg) (poolErr : ℤ) (bufs allocOk : Bool) :
    ClientInv (c.homaDataPkt id messageLength seg poolErr bufs allocOk) ∧
      c.Grows (c.homaDataPkt id messageLength seg poolErr bufs allocOk) := by
  unfold ClientHost.homaDataPkt
  split
  · exact ⟨hc, .refl _⟩
  · rename_i r hr
    have hwf := hc.rpcs_wf id r hr
    dsimp only
    split_ifs with hinc hout hinit
    · -- `RPC_INCOMING`: the packet is filed
      have hcomplete := fun hcomp : r.Complete => hcomp.addPacket hwf hseg bufs allocOk
      exact ⟨hc.setRpc hr (hwf.addPacket hseg bufs allocOk) hcomplete (by simp),
        ClientHost.grows_setRpc hr hcomplete⟩
    · exact ⟨hc, .refl _⟩
    · -- the first packet of the response, after `msgin` was set up
      have hre : (homaMessageInInitRpc r.msgin messageLength poolErr).1.Reassembly := by
        rcases homaMessageInInitRpc_spec r.msgin ⟨hseg.1, hseg.2.1⟩ poolErr with
          ⟨-, hre⟩ | ⟨hfail, -⟩
        · exact hre
        · rw [hfail] at hinit
          cases hinit
      have hwf' : ClientRpc.Wf
          { r with state := .incoming, msgin := (homaMessageInInitRpc r.msgin messageLength poolErr).1 } :=
        fun _ => .inl hre
      exact ⟨hc.setRpc hr (hwf'.addPacket hseg bufs allocOk) (fun hcomp => absurd hcomp.1 hinc)
        (by simp), ClientHost.grows_setRpc hr (fun hcomp => absurd hcomp.1 hinc)⟩
    · -- `homa_message_in_init` failed: the message is marked absent
      have hwf' : ClientRpc.Wf
          { r with state := .incoming, msgin := (homaMessageInInitRpc r.msgin messageLength poolErr).1 } := by
        intro _
        rcases homaMessageInInitRpc_spec r.msgin ⟨hseg.1, hseg.2.1⟩ poolErr with
          ⟨hok, -⟩ | ⟨-, habsent⟩
        · exact absurd hok hinit
        · exact .inr habsent
      exact ⟨hc.setRpc hr hwf' (fun hcomp => absurd hcomp.1 hinc) rfl,
        ClientHost.grows_setRpc hr (fun hcomp => absurd hcomp.1 hinc)⟩

theorem needAckReply (hc : ClientInv c) (dport : ℕ) {id : ℕ} (hdone : c.DoneWith id) :
    ClientInv (c.needAckReply dport id).1 ∧ c.Grows (c.needAckReply dport id).1 ∧
      (c.needAckReply dport id).1.SendsOk (c.needAckReply dport id).2 := by
  obtain ⟨hwf, hkept, hout⟩ :=
    homaPeerGetAcks_sub hc.peer_wf (show (0 : ℤ) ≤ homaMaxAcksPerPkt by decide)
  refine ⟨hc.withPeer hwf hkept, ClientHost.grows_peer _ _, fun q hq => ?_⟩
  simp only [ClientHost.needAckReply, List.mem_singleton] at hq
  subst hq
  refine ⟨hdone.1, fun x hx => ?_⟩
  simp only [ClientPkt.acked, AckHdr.carried, List.map_cons, List.mem_cons, List.mem_map] at hx
  rcases hx with rfl | ⟨a, ha, rfl⟩
  · exact hdone
  · exact hc.peer_done a (hout a (List.mem_of_mem_take ha))

theorem homaNeedAckPkt (hc : ClientInv c) (dport : ℕ) {id : ℕ} (hlt : c.Created id)
    (granted : ℤ) :
    ClientInv (c.homaNeedAckPkt dport id granted).1 ∧ c.Grows (c.homaNeedAckPkt dport id granted).1 ∧
      (c.homaNeedAckPkt dport id granted).1.SendsOk (c.homaNeedAckPkt dport id granted).2 := by
  unfold ClientHost.homaNeedAckPkt
  split
  · rename_i r hr
    split_ifs with hneed
    · -- RESEND for what is missing
      refine ⟨hc, .refl _, fun q hq => ?_⟩
      obtain ⟨hdr, -, rfl⟩ := List.mem_map.mp hq
      exact ⟨hlt, fun x hx => absurd hx List.not_mem_nil⟩
    · -- the whole response is there
      simp only [ne_eq, not_or, not_not] at hneed
      exact hc.needAckReply dport ⟨hlt, .inr ⟨r, hr, hneed⟩⟩
  · rename_i hnone
    exact hc.needAckReply dport ⟨hlt, .inl hnone⟩

theorem homaDispatchPkt (hc : ClientInv c) (dport : ℕ) {p : ServerPkt}
    (hlt : c.Created p.id) (hwf : p.Wf) (poolErr granted : ℤ) (bufs allocOk : Bool) :
    ClientInv (c.homaDispatchPkt dport poolErr granted bufs allocOk p).1 ∧
      c.Grows (c.homaDispatchPkt dport poolErr granted bufs allocOk p).1 ∧
      (c.homaDispatchPkt dport poolErr granted bufs allocOk p).1.SendsOk
        (c.homaDispatchPkt dport poolErr granted bufs allocOk p).2 := by
  cases p with
  | data id messageLength seg =>
    obtain ⟨hc', hg⟩ := hc.homaDataPkt hwf poolErr bufs allocOk
    exact ⟨hc', hg, ClientHost.sendsOk_nil _⟩
  | resend id hdr =>
    refine ⟨hc, .refl _, fun q hq => ?_⟩
    simp only [ClientHost.homaDispatchPkt, ClientHost.homaResendPkt] at hq
    split at hq
    · rename_i hnone
      rw [List.mem_singleton] at hq
      subst hq
      refine ⟨hlt, fun x hx => ?_⟩
      rw [ClientPkt.acked, List.mem_singleton] at hx
      subst hx
      exact ⟨hlt, .inl hnone⟩
    · exact absurd hq List.not_mem_nil
  | rpcUnknown id => exact ⟨hc, .refl _, ClientHost.sendsOk_nil _⟩
  | busy id => exact ⟨hc, .refl _, ClientHost.sendsOk_nil _⟩
  | needAck id => exact hc.homaNeedAckPkt dport hlt granted

end ClientInv

/-! ## The server host -/

namespace ServerHost

/-- Every RPC of `h'` is one of `h`, with its state and response length;
only its request may have grown. -/
def Keeps (h h' : ServerHost) : Prop :=
  ∀ x r', h'.rpcs x = some r' →
    ∃ r, h.rpcs x = some r ∧ r'.state = r.state ∧ r'.msgoutLength = r.msgoutLength

/-- Every RPC of `h'` is one of `h` with its state and response length, or
a new one for RPC `id`, receiving its request. -/
def Evolves (id : ℕ) (h h' : ServerHost) : Prop :=
  ∀ x r', h'.rpcs x = some r' →
    (∃ r, h.rpcs x = some r ∧ r'.state = r.state ∧ r'.msgoutLength = r.msgoutLength) ∨
      h.rpcs x = none ∧ x = id ∧ r'.state = .incoming

/-- `h'` has ended only RPCs that `S` names. -/
def EndsOnly (S : ℕ → Prop) (h h' : ServerHost) : Prop :=
  ∀ x, h.rpcs x ≠ none → h'.rpcs x = none → S x

variable {h h' h'' : ServerHost}

theorem Keeps.refl (h : ServerHost) : Keeps h h :=
  fun _ r' hr' => ⟨r', hr', rfl, rfl⟩

theorem Keeps.trans (h₁ : Keeps h h') (h₂ : Keeps h' h'') : Keeps h h'' := by
  intro x r'' hr''
  obtain ⟨r', hr', hs', hl'⟩ := h₂ x r'' hr''
  obtain ⟨r, hr, hs, hl⟩ := h₁ x r' hr'
  exact ⟨r, hr, hs'.trans hs, hl'.trans hl⟩

theorem Keeps.evolves (hk : Keeps h h') (id : ℕ) : Evolves id h h' :=
  fun x r' hr' => .inl (hk x r' hr')

theorem Evolves.keeps {id : ℕ} (he : Evolves id h h') (hk : Keeps h' h'') : Evolves id h h'' := by
  intro x r'' hr''
  obtain ⟨r', hr', hs, hl⟩ := hk x r'' hr''
  rcases he x r' hr' with ⟨r, hr, hs', hl'⟩ | ⟨hnone, rfl, hinc⟩
  · exact .inl ⟨r, hr, hs.trans hs', hl.trans hl'⟩
  · exact .inr ⟨hnone, rfl, hs.trans hinc⟩

theorem endsOnly_refl (S : ℕ → Prop) (h : ServerHost) : EndsOnly S h h :=
  fun _ hx hx' => absurd hx' hx

theorem EndsOnly.trans {S T : ℕ → Prop} (h₁ : EndsOnly S h h') (h₂ : EndsOnly T h' h'') :
    EndsOnly (fun x => S x ∨ T x) h h'' := by
  intro x hx hx''
  by_cases hx' : h'.rpcs x = none
  · exact .inl (h₁ x hx hx')
  · exact .inr (h₂ x hx' hx'')

theorem EndsOnly.mono {S T : ℕ → Prop} (h₁ : EndsOnly S h h') (hST : ∀ x, S x → T x) :
    EndsOnly T h h' :=
  fun x hx hx' => hST x (h₁ x hx hx')

theorem keeps_homaRpcEnd (id : ℕ) (h : ServerHost) : Keeps h (h.homaRpcEnd id) := by
  intro x r' hr'
  by_cases hxid : x = id
  · subst hxid
    simp [homaRpcEnd] at hr'
  · rw [homaRpcEnd, setRpc_rpcs, Function.update_of_ne hxid] at hr'
    exact ⟨r', hr', rfl, rfl⟩

theorem endsOnly_homaRpcEnd (id : ℕ) (h : ServerHost) :
    EndsOnly (· = id) h (h.homaRpcEnd id) := by
  intro x hx hx'
  by_contra hxid
  rw [homaRpcEnd, setRpc_rpcs, Function.update_of_ne hxid] at hx'
  exact hx hx'

theorem keeps_setRpc_msgin {id : ℕ} {r : ServerRpc} (hr : h.rpcs id = some r)
    (msgin : MessageIn) : Keeps h (h.setRpc id (some { r with msgin })) := by
  intro x r' hr'
  by_cases hxid : x = id
  · subst hxid
    rw [setRpc_rpcs, Function.update_self, Option.some.injEq] at hr'
    subst hr'
    exact ⟨r, hr, rfl, rfl⟩
  · rw [setRpc_rpcs, Function.update_of_ne hxid] at hr'
    exact ⟨r', hr', rfl, rfl⟩

theorem endsOnly_setRpc_some (S : ℕ → Prop) (id : ℕ) (r : ServerRpc) (h : ServerHost) :
    EndsOnly S h (h.setRpc id (some r)) := by
  intro x hx hx'
  by_cases hxid : x = id
  · subst hxid
    simp at hx'
  · rw [setRpc_rpcs, Function.update_of_ne hxid] at hx'
    exact absurd hx' hx

theorem homaRpcAllocServer_spec {id : ℕ} {messageLength poolErr : ℤ} {h₁ : ServerHost}
    (halloc : h.homaRpcAllocServer id messageLength poolErr = some h₁) :
    Evolves id h h₁ ∧ EndsOnly (fun _ => False) h h₁ := by
  unfold homaRpcAllocServer at halloc
  split at halloc
  · cases halloc
    exact ⟨(Keeps.refl h).evolves id, endsOnly_refl _ h⟩
  · rename_i hnone
    split at halloc
    · cases halloc
    · rename_i msgin _
      cases halloc
      refine ⟨fun x r' hr' => ?_, endsOnly_setRpc_some _ id _ h⟩
      by_cases hxid : x = id
      · subst hxid
        rw [setRpc_rpcs, Function.update_self, Option.some.injEq] at hr'
        subst hr'
        exact .inr ⟨hnone, rfl, rfl⟩
      · rw [setRpc_rpcs, Function.update_of_ne hxid] at hr'
        exact .inl ⟨r', hr', rfl, rfl⟩

variable (dport : ℕ)

theorem keeps_homaRpcAcked (ack : HomaAck) (h : ServerHost) :
    Keeps h (homaRpcAcked dport ack h) := by
  unfold homaRpcAcked
  split_ifs
  · exact keeps_homaRpcEnd _ h
  · exact Keeps.refl h

theorem endsOnly_homaRpcAcked (ack : HomaAck) (h : ServerHost) :
    EndsOnly (· = ack.clientId) h (homaRpcAcked dport ack h) := by
  unfold homaRpcAcked
  split_ifs
  · exact endsOnly_homaRpcEnd _ h
  · exact endsOnly_refl _ h

theorem foldl_homaRpcAcked (l : List HomaAck) (h : ServerHost) :
    Keeps h (l.foldl (fun h ack => homaRpcAcked dport ack h) h) ∧
      EndsOnly (· ∈ l.map HomaAck.clientId) h (l.foldl (fun h ack => homaRpcAcked dport ack h) h) := by
  induction l generalizing h with
  | nil => exact ⟨Keeps.refl h, endsOnly_refl _ h⟩
  | cons a l ih =>
    obtain ⟨hk, he⟩ := ih (homaRpcAcked dport a h)
    refine ⟨(keeps_homaRpcAcked dport a h).trans hk,
      ((endsOnly_homaRpcAcked dport a h).trans he).mono fun x hx => ?_⟩
    rw [List.map_cons, List.mem_cons]
    exact hx

theorem homaAckPkt_spec (hdr : AckHdr) (h : ServerHost) :
    Keeps h (homaAckPkt dport hdr h) ∧
      EndsOnly (· ∈ hdr.carried.map HomaAck.clientId) h (homaAckPkt dport hdr h) := by
  obtain ⟨hk, he⟩ := foldl_homaRpcAcked dport (hdr.acks.take hdr.numAcks) (h.homaRpcEnd hdr.senderId)
  refine ⟨(keeps_homaRpcEnd _ h).trans hk, ((endsOnly_homaRpcEnd _ h).trans he).mono fun x hx => ?_⟩
  rw [AckHdr.carried, List.map_cons, List.mem_cons]
  exact hx

theorem homaDataPkt_spec (id : ℕ) (seg : DataPacket) (ack : HomaAck) (bufs allocOk : Bool)
    (h : ServerHost) :
    Keeps h (homaDataPkt dport id seg ack bufs allocOk h) ∧
      EndsOnly (fun x => ack.clientId ≠ 0 ∧ x = ack.clientId) h
        (homaDataPkt dport id seg ack bufs allocOk h) := by
  unfold homaDataPkt
  dsimp only
  generalize hh₁ : (if ack.clientId ≠ 0 then homaRpcAcked dport ack h else h) = h₁
  -- the piggybacked ack first
  have hack : Keeps h h₁ ∧ EndsOnly (fun x => ack.clientId ≠ 0 ∧ x = ack.clientId) h h₁ := by
    rw [← hh₁]
    split_ifs with hne
    · exact ⟨keeps_homaRpcAcked dport ack h,
        (endsOnly_homaRpcAcked dport ack h).mono fun x hx => ⟨hne, hx⟩⟩
    · exact ⟨Keeps.refl h, endsOnly_refl _ h⟩
  split
  · exact hack
  · rename_i r hr
    split_ifs
    · exact hack
    · exact ⟨hack.1.trans (keeps_setRpc_msgin hr _),
        (hack.2.trans (endsOnly_setRpc_some (fun _ => False) id _ h₁)).mono
          fun x hx => hx.resolve_right not_false⟩
    · exact hack

theorem homaDispatchPkt_evolves (poolErr : ℤ) (bufs allocOk : Bool) (h : ServerHost)
    (p : ClientPkt) : Evolves p.id h (h.homaDispatchPkt dport poolErr bufs allocOk p).1 := by
  cases p with
  | data id messageLength seg ack =>
    simp only [homaDispatchPkt]
    split
    · exact (Keeps.refl h).evolves _
    · rename_i h₁ halloc
      exact (homaRpcAllocServer_spec halloc).1.keeps
        (homaDataPkt_spec dport id seg ack bufs allocOk h₁).1
  | resend id hdr => exact (Keeps.refl h).evolves _
  | rpcUnknown id => exact (keeps_homaRpcEnd id h).evolves _
  | busy id => exact (Keeps.refl h).evolves _
  | ack hdr => exact (homaAckPkt_spec dport hdr h).1.evolves _

theorem homaDispatchPkt_endsOnly (poolErr : ℤ) (bufs allocOk : Bool) (h : ServerHost)
    (p : ClientPkt) : EndsOnly (· ∈ p.acked) h (h.homaDispatchPkt dport poolErr bufs allocOk p).1 := by
  cases p with
  | data id messageLength seg ack =>
    simp only [homaDispatchPkt]
    split
    · exact endsOnly_refl _ h
    · rename_i h₁ halloc
      refine ((homaRpcAllocServer_spec halloc).2.trans
        (homaDataPkt_spec dport id seg ack bufs allocOk h₁).2).mono fun x hx => ?_
      rcases hx with hx | ⟨hne, rfl⟩
      · exact hx.elim
      · simp [ClientPkt.acked, hne]
  | resend id hdr => exact endsOnly_refl _ h
  | rpcUnknown id => exact (endsOnly_homaRpcEnd id h).mono fun x hx => by simp [ClientPkt.acked, hx]
  | busy id => exact endsOnly_refl _ h
  | ack hdr => exact (homaAckPkt_spec dport hdr h).2

theorem homaDispatchPkt_out (poolErr : ℤ) (bufs allocOk : Bool) (h : ServerHost)
    (p : ClientPkt) : ∀ q ∈ (h.homaDispatchPkt dport poolErr bufs allocOk p).2,
      q.id = p.id ∧ q.Wf := by
  intro q hq
  cases p with
  | data id messageLength seg ack =>
    simp only [homaDispatchPkt] at hq
    split at hq <;> exact absurd hq List.not_mem_nil
  | resend id hdr =>
    simp only [homaDispatchPkt, homaResendPkt] at hq
    split at hq
    · rw [List.mem_singleton] at hq
      subst hq
      exact ⟨rfl, trivial⟩
    · split_ifs at hq
      · rw [List.mem_singleton] at hq
        subst hq
        exact ⟨rfl, trivial⟩
      · exact absurd hq List.not_mem_nil
  | rpcUnknown id => exact absurd hq List.not_mem_nil
  | busy id => exact absurd hq List.not_mem_nil
  | ack hdr => exact absurd hq List.not_mem_nil

end ServerHost

/-! ## The server and the network -/

/-- The packets in flight and the server's RPCs, relative to the client: what
goes to the server names only RPCs the client created and is done with. -/
structure LinkInv (c : ClientHost) (h : ServerHost) (toServer : List ClientPkt)
    (toClient : List ServerPkt) : Prop where
  toServer_ok : c.SendsOk toServer
  server_created : ∀ id, h.rpcs id ≠ none → c.Created id
  server_wf : ∀ id r, h.rpcs id = some r → r.state = .outgoing →
    0 < r.msgoutLength ∧ r.msgoutLength ≤ homaMaxMessageLength
  toClient_ok : ∀ p ∈ toClient, c.Created p.id ∧ p.Wf

namespace LinkInv

variable {c c' : ClientHost} {h h' : ServerHost} {ts : List ClientPkt} {tc : List ServerPkt}

theorem grow (hl : LinkInv c h ts tc) (hg : c.Grows c') : LinkInv c' h ts tc :=
  ⟨hl.toServer_ok.grow hg, fun id hid => (hl.server_created id hid).mono hg.nextOutgoingId_le,
    hl.server_wf, fun p hp => ⟨(hl.toClient_ok p hp).1.mono hg.nextOutgoingId_le,
      (hl.toClient_ok p hp).2⟩⟩

theorem sendToServer (hl : LinkInv c h ts tc) {out : List ClientPkt} (hout : c.SendsOk out) :
    LinkInv c h (ts ++ out) tc :=
  { hl with toServer_ok := hl.toServer_ok.append hout }

theorem sendToClient (hl : LinkInv c h ts tc) {out : List ServerPkt}
    (hout : ∀ p ∈ out, c.Created p.id ∧ p.Wf) : LinkInv c h ts (tc ++ out) :=
  { hl with
    toClient_ok := fun p hp => (List.mem_append.mp hp).elim (hl.toClient_ok p) (hout p) }

theorem sendOneToClient (hl : LinkInv c h ts tc) {p : ServerPkt}
    (hp : c.Created p.id ∧ p.Wf) : LinkInv c h ts (tc ++ [p]) :=
  hl.sendToClient fun _ hq => List.mem_singleton.mp hq ▸ hp

theorem takeToServer (hl : LinkInv c h ts tc) {l₁ l₂ : List ClientPkt} {p : ClientPkt}
    (hnet : ts = l₁ ++ p :: l₂) : LinkInv c h (l₁ ++ l₂) tc :=
  { hl with
    toServer_ok := hl.toServer_ok.sub fun _ hq =>
      hnet ▸ ((List.sublist_cons_self p l₂).append_left l₁).subset hq }

theorem takeToClient (hl : LinkInv c h ts tc) {l₁ l₂ : List ServerPkt} {p : ServerPkt}
    (hnet : tc = l₁ ++ p :: l₂) : LinkInv c h ts (l₁ ++ l₂) :=
  { hl with
    toClient_ok := fun q hq =>
      hl.toClient_ok q (hnet ▸ ((List.sublist_cons_self p l₂).append_left l₁).subset hq) }

theorem evolve (hl : LinkInv c h ts tc) {id : ℕ} (he : h.Evolves id h')
    (hid : c.Created id) : LinkInv c h' ts tc := by
  refine { hl with server_created := fun x hx => ?_, server_wf := fun x r' hr' hout => ?_ }
  · obtain ⟨r', hr'⟩ := Option.ne_none_iff_exists'.mp hx
    rcases he x r' hr' with ⟨r, hr, -⟩ | ⟨-, rfl, -⟩
    · exact hl.server_created x (by rw [hr]; simp)
    · exact hid
  · rcases he x r' hr' with ⟨r, hr, hs, hlen⟩ | ⟨-, -, hinc⟩
    · rw [hlen]
      exact hl.server_wf x r hr (hs ▸ hout)
    · rw [hinc] at hout
      cases hout

theorem keep (hl : LinkInv c h ts tc) (hk : h.Keeps h') : LinkInv c h' ts tc := by
  refine { hl with server_created := fun x hx => ?_, server_wf := fun x r' hr' hout => ?_ }
  · obtain ⟨r', hr'⟩ := Option.ne_none_iff_exists'.mp hx
    obtain ⟨r, hr, -⟩ := hk x r' hr'
    exact hl.server_created x (by rw [hr]; simp)
  · obtain ⟨r, hr, hs, hlen⟩ := hk x r' hr'
    rw [hlen]
    exact hl.server_wf x r hr (hs ▸ hout)

theorem setRpc (hl : LinkInv c h ts tc) {id : ℕ} {r r' : ServerRpc} (hr : h.rpcs id = some r)
    (hwf : r'.state = .outgoing → 0 < r'.msgoutLength ∧ r'.msgoutLength ≤ homaMaxMessageLength) :
    LinkInv c (h.setRpc id (some r')) ts tc := by
  refine { hl with server_created := fun x hx => ?_, server_wf := fun x r₁ hr₁ hout => ?_ }
  · by_cases hxid : x = id
    · subst hxid
      exact hl.server_created x (by rw [hr]; simp)
    · rw [ServerHost.setRpc_rpcs, Function.update_of_ne hxid] at hx
      exact hl.server_created x hx
  · by_cases hxid : x = id
    · subst hxid
      rw [ServerHost.setRpc_rpcs, Function.update_self, Option.some.injEq] at hr₁
      subst hr₁
      exact hwf hout
    · rw [ServerHost.setRpc_rpcs, Function.update_of_ne hxid] at hr₁
      exact hl.server_wf x r₁ hr₁ hout

end LinkInv

/-! ## The system -/

namespace RpcSys

/-- Both hosts and the network: everything the server may still receive
and end an RPC on names one the client is done with. -/
structure AckInv (s : RpcSys) : Prop where
  client : ClientInv s.client
  link : LinkInv s.client s.server s.toServer s.toClient

theorem AckInv.init {s : RpcSys} (hs : Init s) : AckInv s := by
  have hstored : s.client.peer.stored = [] := by
    rw [hs.peer_eq]
    rfl
  refine ⟨⟨fun id hid => absurd (hs.client_rpcs id) hid, fun id r hr => ?_, ?_,
      fun a ha => ?_, fun id r hr => ?_, by rw [hs.nextOutgoingId_eq]; rfl,
      by rw [hs.nextOutgoingId_eq]; decide⟩,
    ⟨fun q hq => ?_, fun id hid => absurd (hs.server_rpcs id) hid, fun id r hr => ?_,
      fun q hq => ?_⟩⟩
  · rw [hs.client_rpcs id] at hr
    cases hr
  · rw [hs.peer_eq]
    exact AckPeer.alloc_wf
  · rw [hstored] at ha
    cases ha
  · rw [hs.client_rpcs id] at hr
    cases hr
  · rw [hs.toServer_eq] at hq
    cases hq
  · rw [hs.server_rpcs id] at hr
    cases hr
  · rw [hs.toClient_eq] at hq
    cases hq

variable (dport : ℕ)

theorem AckInv.step {s s' : RpcSys} (hinv : AckInv s) (hstep : Step dport s s') : AckInv s' := by
  obtain ⟨hc, hl⟩ := hinv
  cases hstep with
  | sendmsg length n hlength =>
    exact ⟨hc.homaSendmsg length n, hl.grow (s.client.grows_homaSendmsg length n)⟩
  | recvmsg hr hready =>
    obtain ⟨hc', hg, hout⟩ := hc.homaRecvmsg dport (hc.rpcs_created _ (by rw [hr]; simp))
    exact ⟨hc', (hl.grow hg).sendToServer hout⟩
  | cancel id => exact ⟨hc.homaRpcEnd id, hl.grow (s.client.grows_homaRpcEnd id)⟩
  | abort err hr herr =>
    have hwf := hc.rpcs_wf _ _ hr
    exact ⟨hc.setRpc hr hwf id rfl, hl.grow (ClientHost.grows_setRpc hr id)⟩
  | clientXmit seg hr hack hseg =>
    refine ⟨hc, hl.sendToServer (ClientHost.sendsOk_singleton.mpr
      ⟨hc.rpcs_created _ (by simp [ClientPkt.id, hr]), fun x hx => ?_⟩)⟩
    simp only [ClientPkt.acked] at hx
    split_ifs at hx with hne
    · rw [List.mem_singleton] at hx
      subst hx
      exact hc.msgout_done _ _ hr _ hack hne
    · exact absurd hx List.not_mem_nil
  | clientResend granted hr =>
    refine ⟨hc, hl.sendToServer fun q hq => ?_⟩
    obtain ⟨hdr, -, rfl⟩ := List.mem_map.mp hq
    exact ⟨hc.rpcs_created _ (by simp [ClientPkt.id, hr]), fun x hx => absurd hx List.not_mem_nil⟩
  | serverRecvmsg hr hstate hready => exact ⟨hc, hl.setRpc hr fun hout => by cases hout⟩
  | serverReply length hr hstate hlength => exact ⟨hc, hl.setRpc hr fun _ => hlength⟩
  | serverEnd id => exact ⟨hc, hl.keep (ServerHost.keeps_homaRpcEnd id _)⟩
  | serverXmit seg hr hstate hseg =>
    obtain ⟨hpos, hmax⟩ := hl.server_wf _ _ hr hstate
    exact ⟨hc, hl.sendOneToClient ⟨hl.server_created _ (by simp [ServerPkt.id, hr]), hpos, hmax, hseg⟩⟩
  | serverNeedAck hr hstate =>
    exact ⟨hc, hl.sendOneToClient ⟨hl.server_created _ (by simp [ServerPkt.id, hr]), trivial⟩⟩
  | serverResend granted hr hstate =>
    refine ⟨hc, hl.sendToClient fun q hq => ?_⟩
    obtain ⟨hdr, -, rfl⟩ := List.mem_map.mp hq
    exact ⟨hl.server_created _ (by simp [ServerPkt.id, hr]), trivial⟩
  | toServer l₁ l₂ p hnet poolErr bufs allocOk =>
    have hp := hl.toServer_ok p (by rw [hnet]; simp)
    refine ⟨hc, ((hl.takeToServer hnet).evolve
      (ServerHost.homaDispatchPkt_evolves dport poolErr bufs allocOk s.server p) hp.1).sendToClient
        fun q hq => ?_⟩
    obtain ⟨hid, hwf⟩ := ServerHost.homaDispatchPkt_out dport poolErr bufs allocOk s.server p q hq
    exact ⟨hid ▸ hp.1, hwf⟩
  | toClient l₁ l₂ p hnet poolErr granted bufs allocOk =>
    obtain ⟨hlt, hwf⟩ := hl.toClient_ok p (by rw [hnet]; simp)
    obtain ⟨hc', hg, hout⟩ := hc.homaDispatchPkt dport hlt hwf poolErr granted bufs allocOk
    exact ⟨hc', ((hl.takeToClient hnet).grow hg).sendToServer hout⟩
  | dropToServer l₁ l₂ p hnet => exact ⟨hc, hl.takeToServer hnet⟩
  | dropToClient l₁ l₂ p hnet => exact ⟨hc, hl.takeToClient hnet⟩
  | dupToServer hp =>
    exact ⟨hc, hl.sendToServer (ClientHost.sendsOk_singleton.mpr (hl.toServer_ok _ hp))⟩
  | dupToClient hp => exact ⟨hc, hl.sendOneToClient (hl.toClient_ok _ hp)⟩

theorem Reachable.ackInv {s : RpcSys} (h : Reachable dport s) : AckInv s :=
  @Transition.Reachable.inv _ Init (Step dport) AckInv (fun _ hs => AckInv.init hs)
    (fun _ _ _ hinv hstep => hinv.step dport hstep) s h

/-- Whatever the network loses, duplicates or reorders, a packet from the
client makes the server discard an RPC only if the client created that
RPC and has ended it, or holds every byte of its response. -/
theorem homaDispatchPkt_ends_done {s : RpcSys} (h : Reachable dport s) {p : ClientPkt}
    (hp : p ∈ s.toServer) (poolErr : ℤ) (bufs allocOk : Bool) {id : ℕ}
    (hlive : s.server.rpcs id ≠ none)
    (hend : (s.server.homaDispatchPkt dport poolErr bufs allocOk p).1.rpcs id = none) :
    s.client.Created id ∧
      (s.client.rpcs id = none ∨ ∃ r, s.client.rpcs id = some r ∧ r.state = .incoming ∧
        r.msgin.received = Set.Ico 0 r.msgin.length) := by
  obtain ⟨hc, hl⟩ := h.ackInv
  have hacked := ServerHost.homaDispatchPkt_endsOnly dport poolErr bufs allocOk s.server p id
    hlive hend
  obtain ⟨hlt, hdone⟩ := (hl.toServer_ok p hp).2 id hacked
  refine ⟨hlt, hdone.imp_right fun ⟨r, hr, hcomp⟩ => ⟨r, hr, hcomp.1, ?_⟩⟩
  exact (hc.rpcs_wf id r hr).received hcomp

/-! ### A run in which the server ends an RPC on RPC_UNKNOWN

The client sends a one-byte request and cancels the RPC once the server has
created its own.  The server's timer asks for more of the request, the
RESEND finds no client RPC, and the client answers RPC_UNKNOWN, on which the
server ends the RPC. -/

/-- The one byte of the request. -/
def witnessSeg : DataPacket :=
  ⟨0, 1, by decide⟩

theorem witnessSeg_start : witnessSeg.start = 0 := by
  unfold witnessSeg DataPacket.start
  exact MachineArith.wrapInt_32_of_mem (by norm_num) (by norm_num)

theorem witnessSeg_length : witnessSeg.length = 1 :=
  rfl

theorem homaAddPacket_witnessSeg :
    homaAddPacket ⟨1, [], [], 0, 1⟩ witnessSeg true = ⟨1, [witnessSeg], [], 1, 0⟩ := by
  have hstop : witnessSeg.stop = 1 := by
    unfold DataPacket.stop
    rw [witnessSeg_start, witnessSeg_length]
    exact MachineArith.wrapInt_32_of_mem (by norm_num) (by norm_num)
  rw [homaAddPacket_sequential true (by rw [hstop]) witnessSeg_start]
  simp only [MessageIn.keep, witnessSeg_length, List.nil_append, zero_add, sub_self]
  rw [MachineArith.wrapInt_32_of_mem (x := 1) (by norm_num) (by norm_num),
    MachineArith.wrapInt_32_of_mem (x := 0) (by norm_num) (by norm_num)]

/-- The client RPC right after `homa_sendmsg`. -/
def witnessClientRpc : ClientRpc :=
  ⟨.outgoing, ClientRpc.initMsgin, 0, 1, [⟨0, 0⟩]⟩

/-- The server RPC once the request's byte is filed. -/
def witnessServerRpc : ServerRpc :=
  ⟨.incoming, homaAddPacket ⟨1, [], [], 0, 1⟩ witnessSeg true, -1⟩

def unknownRun₁ : RpcSys :=
  { fresh with client := fresh.client.homaSendmsg 1 1 }

def unknownRun₂ : RpcSys :=
  { unknownRun₁ with toServer := unknownRun₁.toServer ++ [.data 2 1 witnessSeg ⟨0, 0⟩] }

def unknownRun₃ : RpcSys :=
  { unknownRun₂.withServer
      (unknownRun₂.server.homaDispatchPkt 0 0 true true (.data 2 1 witnessSeg ⟨0, 0⟩)).1 with
    toServer := [] ++ []
    toClient := unknownRun₂.toClient ++
      (unknownRun₂.server.homaDispatchPkt 0 0 true true (.data 2 1 witnessSeg ⟨0, 0⟩)).2 }

def unknownRun₄ : RpcSys :=
  { unknownRun₃ with client := unknownRun₃.client.homaRpcEnd 2 }

def unknownRun₅ : RpcSys :=
  { unknownRun₄ with
    toClient := unknownRun₄.toClient ++
      (homaRequestRetrans witnessServerRpc.msgin 2).map (.resend 2) }

def unknownRun₆ : RpcSys :=
  { unknownRun₅ with
    client := (unknownRun₅.client.homaDispatchPkt 0 0 0 true true (.resend 2 ⟨1, 1⟩)).1
    toClient := [] ++ []
    toServer := unknownRun₅.toServer ++
      (unknownRun₅.client.homaDispatchPkt 0 0 0 true true (.resend 2 ⟨1, 1⟩)).2 }

theorem unknownRun₆_reachable : Reachable 0 unknownRun₆ := by
  have h₀ : Reachable 0 fresh := .init fresh_init
  have h₁ : Reachable 0 unknownRun₁ := .step h₀ (Step.sendmsg 1 1 ⟨by decide, by decide⟩)
  have h₂ : Reachable 0 unknownRun₂ :=
    .step h₁ (@Step.clientXmit 0 unknownRun₁ 2 witnessClientRpc witnessSeg ⟨0, 0⟩ rfl
      List.mem_cons_self ⟨by rw [witnessSeg_start], by rw [witnessSeg_start, witnessSeg_length]; rfl⟩)
  have h₃ : Reachable 0 unknownRun₃ :=
    .step h₂ (Step.toServer [] [] (.data 2 1 witnessSeg ⟨0, 0⟩) rfl 0 true true)
  have h₄ : Reachable 0 unknownRun₄ := .step h₃ (Step.cancel 2)
  have h₅ : Reachable 0 unknownRun₅ :=
    .step h₄ (@Step.serverResend 0 unknownRun₄ 2 witnessServerRpc 2 rfl rfl)
  have hnet : unknownRun₅.toClient = [] ++ [.resend 2 ⟨1, 1⟩] := by
    change (homaRequestRetrans witnessServerRpc.msgin 2).map (ServerPkt.resend 2) = _
    rw [witnessServerRpc, homaAddPacket_witnessSeg]
    rfl
  exact .step h₅ (Step.toClient [] [] (.resend 2 ⟨1, 1⟩) hnet 0 0 true true)

/-- The RPC_UNKNOWN of the run ends the server's RPC, whose client has
ended it. -/
theorem homaDispatchPkt_ends_done_unknown :
    unknownRun₆.client.Created 2 ∧
      (unknownRun₆.client.rpcs 2 = none ∨ ∃ r, unknownRun₆.client.rpcs 2 = some r ∧
        r.state = .incoming ∧ r.msgin.received = Set.Ico 0 r.msgin.length) :=
  homaDispatchPkt_ends_done 0 unknownRun₆_reachable (p := .rpcUnknown 2)
    (List.mem_append_right _ List.mem_cons_self) 0 true true
    (Option.ne_none_iff_isSome.mpr rfl) rfl

end RpcSys

end Protocol

end Homa
