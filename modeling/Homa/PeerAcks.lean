import Mathlib.Data.List.Perm.Basic
import Mathlib.Data.List.Range
import Mathlib.Algebra.Order.Ring.Int

/-!
# Acks held by a peer

`homa_peer_add_ack` records an RPC the client is done with in
`peer->acks[0 .. num_acks)`; the acks leave on outgoing DATA packets and
NEED_ACK replies through `homa_peer_get_acks`, or, when the array is full,
in an ACK packet carrying the whole array and the new RPC.  The peer is the
array with stale cells past `num_acks`, `AckPeer.stored` the acks it holds;
a call is an `AckOp`, and what it hands out an `AckOut`.
-/

namespace Homa

/-! ## Prefixes of an array -/

section ArrayPrefix

variable {α : Type*}

theorem range_map_update_of_le (f : ℕ → α) {n m : ℕ} (hnm : n ≤ m) (a : α) :
    (List.range n).map (Function.update f m a) = (List.range n).map f :=
  List.map_congr_left fun k hk =>
    Function.update_of_ne (by rw [List.mem_range] at hk; omega) a f

theorem range_succ_map_update (f : ℕ → α) (n : ℕ) (a : α) :
    (List.range (n + 1)).map (Function.update f n a) = (List.range n).map f ++ [a] := by
  rw [List.range_succ, List.map_append, range_map_update_of_le f le_rfl a]
  simp

theorem range_map_append_offset (f : ℕ → α) (m c : ℕ) :
    (List.range m).map f ++ (List.range c).map (fun k => f (m + k)) = (List.range (m + c)).map f := by
  induction c with
  | zero => simp
  | succ c ih =>
    rw [List.range_succ, List.map_append, ← List.append_assoc, ih, ← Nat.add_assoc,
      List.range_succ, List.map_append]
    simp

end ArrayPrefix

/-! ## The model -/

/-- `HOMA_MAX_ACKS_PER_PKT`: the size of `peer->acks` and of the array in an
ACK packet. -/
def homaMaxAcksPerPkt : ℤ := 5

structure HomaAck where
  clientId : ℕ
  serverPort : ℕ
  deriving DecidableEq, Repr

/-- The ack fields of `struct homa_peer`: `num_acks` and the array `acks`,
whose cells from `num_acks` on are stale. -/
structure AckPeer where
  numAcks : ℤ
  acks : ℕ → HomaAck

/-- The ack fields as `homa_peer_alloc` leaves them: zeroed. -/
def AckPeer.alloc : AckPeer := ⟨0, fun _ => ⟨0, 0⟩⟩

/-- The acks the peer holds, `acks[0 .. num_acks)`. -/
def AckPeer.stored (p : AckPeer) : List HomaAck :=
  (List.range p.numAcks.toNat).map p.acks

/-- `struct homa_ack_hdr` as `homa_peer_add_ack` sends it: the `sender_id`
and `dport` that `homa_xmit_control` puts in the common header, the 16-bit
`num_acks` and the array. -/
structure AckHdr where
  senderId : ℕ
  dport : ℕ
  numAcks : ℕ
  acks : List HomaAck
  deriving DecidableEq, Repr

/-- What the receiver's `homa_ack_pkt` acks: the RPC of the header and
`acks[0 .. num_acks)`. -/
def AckHdr.carried (h : AckHdr) : List HomaAck :=
  ⟨h.senderId, h.dport⟩ :: h.acks.take h.numAcks

/-- `homa_peer_add_ack(rpc)`: the ack goes into the next cell, or with the
array full the array goes out in an ACK packet and empties. -/
def homaPeerAddAck (id dport : ℕ) (p : AckPeer) : AckPeer × Option AckHdr :=
  if p.numAcks < homaMaxAcksPerPkt then
    ({ numAcks := p.numAcks + 1, acks := Function.update p.acks p.numAcks.toNat ⟨id, dport⟩ }, none)
  else
    ({ p with numAcks := 0 },
      some { senderId := id, dport, numAcks := (p.numAcks % 2 ^ 16).toNat,
             acks := (List.range homaMaxAcksPerPkt.toNat).map p.acks })

/-- `homa_peer_get_acks(peer, count, dst)`: the peer, the return value and
what is copied to `dst`, the last `count` acks (all of them if fewer). -/
def homaPeerGetAcks (count : ℤ) (p : AckPeer) : AckPeer × ℤ × List HomaAck :=
  if p.numAcks = 0 then (p, 0, [])
  else
    let count := if count > p.numAcks then p.numAcks else count
    ({ p with numAcks := p.numAcks - count }, count,
      (List.range count.toNat).map fun k => p.acks ((p.numAcks - count).toNat + k))

/-- A call on one peer's acks: `homa_peer_add_ack` for a client RPC, or
`homa_peer_get_acks` as a DATA packet (`count` 1) or a NEED_ACK reply
(`count` `HOMA_MAX_ACKS_PER_PKT`) makes it. -/
inductive AckOp where
  | addAck (id dport : ℕ)
  | getAcks (count : ℤ)
  deriving DecidableEq, Repr

/-- What a call hands out of the peer: nothing, the ACK packet of a full
array, or what `homa_peer_get_acks` returns and copies. -/
inductive AckOut where
  | none
  | sent (hdr : AckHdr)
  | got (count : ℤ) (dst : List HomaAck)
  deriving DecidableEq, Repr

/-- The acks that leave the peer with an output. -/
def AckOut.acks : AckOut → List HomaAck
  | .none => []
  | .sent hdr => hdr.carried
  | .got _ dst => dst

def AckOp.added : AckOp → List HomaAck
  | .addAck id dport => [⟨id, dport⟩]
  | .getAcks _ => []

/-- The callers ask `homa_peer_get_acks` for no fewer than 0 acks. -/
def AckOp.CountOk : AckOp → Prop
  | .addAck _ _ => True
  | .getAcks count => 0 ≤ count

instance (op : AckOp) : Decidable op.CountOk := by
  cases op <;> unfold AckOp.CountOk <;> infer_instance

def AckOp.step (p : AckPeer) : AckOp → AckPeer × AckOut
  | .addAck id dport =>
      let r := homaPeerAddAck id dport p
      (r.1, (r.2.map AckOut.sent).getD .none)
  | .getAcks count =>
      let r := homaPeerGetAcks count p
      (r.1, .got r.2.1 r.2.2)

/-- The calls of `ops` one after the other, with what each handed out. -/
def AckOp.run : AckPeer → List AckOp → AckPeer × List AckOut
  | p, [] => (p, [])
  | p, op :: ops =>
      let r := op.step p
      let rest := run r.1 ops
      (rest.1, r.2 :: rest.2)

/-! ## One call -/

/-- `0 <= num_acks <= HOMA_MAX_ACKS_PER_PKT`: the count names cells of the
array. -/
def AckPeer.Wf (p : AckPeer) : Prop :=
  0 ≤ p.numAcks ∧ p.numAcks ≤ homaMaxAcksPerPkt

instance (p : AckPeer) : Decidable p.Wf :=
  inferInstanceAs (Decidable (_ ∧ _))

theorem AckPeer.alloc_wf : AckPeer.alloc.Wf := by
  decide

theorem homaPeerAddAck_of_lt {p : AckPeer} (h0 : 0 ≤ p.numAcks)
    (hlt : p.numAcks < homaMaxAcksPerPkt) (id dport : ℕ) :
    (homaPeerAddAck id dport p).1.Wf ∧
      (homaPeerAddAck id dport p).1.stored = p.stored ++ [⟨id, dport⟩] ∧
      (homaPeerAddAck id dport p).2 = none := by
  simp only [homaPeerAddAck, if_pos hlt, AckPeer.Wf, AckPeer.stored, and_true]
  refine ⟨⟨by omega, by omega⟩, ?_⟩
  rw [show (p.numAcks + 1).toNat = p.numAcks.toNat + 1 by omega, range_succ_map_update]

theorem homaPeerAddAck_of_full {p : AckPeer} (h : p.Wf) (hfull : ¬p.numAcks < homaMaxAcksPerPkt)
    (id dport : ℕ) :
    (homaPeerAddAck id dport p).1.Wf ∧ (homaPeerAddAck id dport p).1.stored = [] ∧
      ∃ hdr, (homaPeerAddAck id dport p).2 = some hdr ∧ hdr.carried = ⟨id, dport⟩ :: p.stored := by
  have h5 : p.numAcks = homaMaxAcksPerPkt := by
    have := h.2
    omega
  simp only [homaPeerAddAck, if_neg hfull]
  refine ⟨⟨le_rfl, by dsimp only; decide⟩, by simp [AckPeer.stored], _, rfl, ?_⟩
  simp [AckHdr.carried, AckPeer.stored, h5, homaMaxAcksPerPkt, List.take_of_length_le]

theorem stored_append_tail (p : AckPeer) {c : ℤ} (hc0 : 0 ≤ c) (hc : c ≤ p.numAcks) :
    (List.range (p.numAcks - c).toNat).map p.acks ++
        (List.range c.toNat).map (fun k => p.acks ((p.numAcks - c).toNat + k)) = p.stored := by
  rw [range_map_append_offset, show (p.numAcks - c).toNat + c.toNat = p.numAcks.toNat by omega]
  rfl

theorem homaPeerGetAcks_spec {p : AckPeer} (h : p.Wf) {count : ℤ} (hc : 0 ≤ count) :
    (homaPeerGetAcks count p).1.Wf ∧ (homaPeerGetAcks count p).2.1 = min count p.numAcks ∧
      (homaPeerGetAcks count p).2.2.length = (homaPeerGetAcks count p).2.1.toNat ∧
      (homaPeerGetAcks count p).1.stored ++ (homaPeerGetAcks count p).2.2 = p.stored := by
  obtain ⟨h0, h5⟩ := h
  unfold homaPeerGetAcks
  split_ifs with hz hgt <;> dsimp only [AckPeer.Wf, AckPeer.stored]
  · -- nothing held: the early return
    exact ⟨⟨h0, h5⟩, by omega, rfl, List.append_nil _⟩
  · -- all the acks held go out
    refine ⟨⟨by omega, by omega⟩, by omega, by simp, ?_⟩
    exact stored_append_tail p h0 le_rfl
  · refine ⟨⟨by omega, by omega⟩, by omega, by simp, ?_⟩
    exact stored_append_tail p hc (by omega)

theorem AckOp.step_spec {p : AckPeer} (h : p.Wf) {op : AckOp} (hop : op.CountOk) :
    (op.step p).1.Wf ∧ (p.stored ++ op.added).Perm ((op.step p).1.stored ++ (op.step p).2.acks) := by
  cases op with
  | addAck id dport =>
    by_cases hlt : p.numAcks < homaMaxAcksPerPkt
    · obtain ⟨hwf, hstored, hnone⟩ := homaPeerAddAck_of_lt h.1 hlt id dport
      refine ⟨hwf, ?_⟩
      simp [AckOp.step, AckOp.added, AckOut.acks, hnone, hstored]
    · obtain ⟨hwf, hstored, hdr, hsome, hcarried⟩ := homaPeerAddAck_of_full h hlt id dport
      refine ⟨hwf, ?_⟩
      simp only [AckOp.step, AckOp.added, hsome, Option.map_some, Option.getD_some, AckOut.acks,
        hstored, hcarried, List.nil_append]
      exact List.perm_append_singleton _ _
  | getAcks count =>
    obtain ⟨hwf, -, -, hsplit⟩ := homaPeerGetAcks_spec h hop
    refine ⟨hwf, ?_⟩
    simp only [AckOp.step, AckOp.added, AckOut.acks, List.append_nil, hsplit]
    exact List.Perm.refl _

/-! ## Runs -/

theorem AckOp.run_spec {p : AckPeer} (h : p.Wf) {ops : List AckOp} (hops : ∀ op ∈ ops, op.CountOk) :
    (AckOp.run p ops).1.Wf ∧
      (p.stored ++ ops.flatMap AckOp.added).Perm
        ((AckOp.run p ops).1.stored ++ (AckOp.run p ops).2.flatMap AckOut.acks) := by
  induction ops generalizing p with
  | nil => exact ⟨h, by simp [AckOp.run]⟩
  | cons op ops ih =>
    obtain ⟨hwf₁, hperm₁⟩ := AckOp.step_spec h (hops op List.mem_cons_self)
    obtain ⟨hwf, hperm⟩ := ih hwf₁ fun o ho => hops o (List.mem_cons_of_mem op ho)
    refine ⟨hwf, ?_⟩
    simp only [AckOp.run, List.flatMap_cons]
    -- the first call's outputs, then the rest's
    calc (p.stored ++ (op.added ++ ops.flatMap AckOp.added))
        = (p.stored ++ op.added) ++ ops.flatMap AckOp.added := (List.append_assoc _ _ _).symm
      List.Perm _ (((op.step p).1.stored ++ (op.step p).2.acks) ++ ops.flatMap AckOp.added) :=
          hperm₁.append_right _
      List.Perm _ ((op.step p).2.acks ++ ((op.step p).1.stored ++ ops.flatMap AckOp.added)) := by
          rw [List.append_assoc]
          exact List.perm_append_comm_assoc _ _ _
      List.Perm _ ((op.step p).2.acks ++ ((AckOp.run (op.step p).1 ops).1.stored ++
            (AckOp.run (op.step p).1 ops).2.flatMap AckOut.acks)) := hperm.append_left _
      List.Perm _ ((AckOp.run (op.step p).1 ops).1.stored ++
            ((op.step p).2.acks ++ (AckOp.run (op.step p).1 ops).2.flatMap AckOut.acks)) :=
          List.perm_append_comm_assoc _ _ _

theorem AckOp.run_getElem? (p : AckPeer) (ops : List AckOp) (i : ℕ) :
    (AckOp.run p ops).2[i]? = ops[i]?.map fun op => (op.step (AckOp.run p (ops.take i)).1).2 := by
  induction ops generalizing p i with
  | nil => simp [AckOp.run]
  | cons op ops ih =>
    cases i with
    | zero => simp [AckOp.run]
    | succ i =>
      simp only [AckOp.run, List.getElem?_cons_succ, List.take_succ_cons]
      exact ih _ i

theorem homaPeerAcks_conserved (ops : List AckOp) (hops : ∀ op ∈ ops, op.CountOk) :
    (∀ n, (AckOp.run AckPeer.alloc (ops.take n)).1.Wf) ∧
      (ops.flatMap AckOp.added).Perm
        ((AckOp.run AckPeer.alloc ops).1.stored ++
          (AckOp.run AckPeer.alloc ops).2.flatMap AckOut.acks) ∧
      ∀ i count, ops[i]? = some (.getAcks count) →
        ∃ dst, (AckOp.run AckPeer.alloc ops).2[i]? =
            some (.got (min count (AckOp.run AckPeer.alloc (ops.take i)).1.numAcks) dst) ∧
          dst.length = (min count (AckOp.run AckPeer.alloc (ops.take i)).1.numAcks).toNat := by
  have hwfTake : ∀ n, (AckOp.run AckPeer.alloc (ops.take n)).1.Wf := fun n =>
    (AckOp.run_spec AckPeer.alloc_wf fun op hop => hops op (List.mem_of_mem_take hop)).1
  refine ⟨hwfTake, ?_, ?_⟩
  · simpa [AckPeer.stored, AckPeer.alloc] using (AckOp.run_spec AckPeer.alloc_wf hops).2
  · intro i count hi
    have hc : 0 ≤ count := hops _ (List.mem_of_getElem? hi)
    obtain ⟨-, hret, hlen, -⟩ := homaPeerGetAcks_spec (hwfTake i) hc
    refine ⟨_, ?_, hret ▸ hlen⟩
    rw [AckOp.run_getElem?, hi, Option.map_some, AckOp.step, ← hret]

/-- Seven client RPCs to one server complete, then a DATA packet and a
NEED_ACK reply take acks from the peer. -/
def sevenAcks : List AckOp :=
  [.addAck 1 80, .addAck 2 80, .addAck 3 80, .addAck 4 80, .addAck 5 80, .addAck 6 80,
    .addAck 7 80, .getAcks 1, .getAcks homaMaxAcksPerPkt]

theorem homaPeerAcks_conserved_sevenAcks :
    (∀ op ∈ sevenAcks, op.CountOk) ∧
      (∀ n, (AckOp.run AckPeer.alloc (sevenAcks.take n)).1.Wf) ∧
      (sevenAcks.flatMap AckOp.added).Perm
        ((AckOp.run AckPeer.alloc sevenAcks).1.stored ++
          (AckOp.run AckPeer.alloc sevenAcks).2.flatMap AckOut.acks) ∧
      ∀ i count, sevenAcks[i]? = some (.getAcks count) →
        ∃ dst, (AckOp.run AckPeer.alloc sevenAcks).2[i]? =
            some (.got (min count (AckOp.run AckPeer.alloc (sevenAcks.take i)).1.numAcks) dst) ∧
          dst.length = (min count (AckOp.run AckPeer.alloc (sevenAcks.take i)).1.numAcks).toNat :=
  have hops : ∀ op ∈ sevenAcks, op.CountOk := by decide
  ⟨hops, homaPeerAcks_conserved sevenAcks hops⟩

/-- The sixth ack overflows the array: the ACK packet carries RPC 6 in its
header and RPCs 1 to 5; the DATA packet then takes RPC 7, and the NEED_ACK
reply finds none. -/
example : ((AckOp.run AckPeer.alloc sevenAcks).2.flatMap AckOut.acks).map HomaAck.clientId =
    [6, 1, 2, 3, 4, 5, 7] := by
  decide

end Homa
