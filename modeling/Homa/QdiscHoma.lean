import Homa.SortedList
import Homa.MessageIn

/-!
# Deferred Homa packets in SRPT order

`homa_qdisc_defer_homa` keeps each RPC's deferred packets in `qrpc.packets`
and the RPCs in the red-black tree `qdev->deferred_rpcs`, ordered by
`homa_qdisc_precedes` (fewest bytes left, then oldest, then lowest address);
`homa_qdisc_get_deferred_homa` takes the oldest packet of the leftmost RPC.
The tree is its in-order sequence, into which an insertion lands before the
first RPC it precedes (`homaQdiscInsertRb`).  The key `tx_left` changes only
for the leftmost RPC and only downwards, so the sequence stays sorted
(`HomaDeferral.Inv`).
-/

namespace Homa

open SortedList

/-- What the qdisc reads of a deferred packet's `homa_skb_info`. -/
structure DeferredSkb where
  offset : ℤ
  dataBytes : ℤ
  deriving DecidableEq, Repr

/-- The fields of an RPC the deferral reads and writes: `qrpc.tx_left`,
`qrpc.packets`, `msgout.init_time` and `msgout.length`. -/
structure QdiscRpc where
  txLeft : ℤ
  packets : List DeferredSkb
  initTime : ℕ
  length : ℤ

/-- `homa_qdisc_precedes(rpc1, rpc2)`; RPCs are told apart by their ids,
where the source compares their addresses. -/
def homaQdiscPrecedes (id1 : ℕ) (r1 : QdiscRpc) (id2 : ℕ) (r2 : QdiscRpc) : Bool :=
  if r1.txLeft < r2.txLeft then true
  else if r2.txLeft < r1.txLeft then false
  else if r1.initTime < r2.initTime then true
  else if r2.initTime < r1.initTime then false
  else id1 < id2

/-- The Homa deferral state of a `homa_qdisc_dev`: the RPCs, and the in-order
sequence of `deferred_rpcs`. -/
structure HomaDeferral where
  rpcs : ℕ → QdiscRpc
  deferredRpcs : List ℕ

namespace HomaDeferral

/-- The order of `homa_qdisc_precedes` in the state `s`. -/
def precedes (s : HomaDeferral) (a b : ℕ) : Bool :=
  homaQdiscPrecedes a (s.rpcs a) b (s.rpcs b)

/-- The key `homa_qdisc_precedes` compares lexicographically. -/
def key (s : HomaDeferral) (id : ℕ) : ℤ ×ₗ ℕ ×ₗ ℕ :=
  toLex ((s.rpcs id).txLeft, toLex ((s.rpcs id).initTime, id))

def setRpc (s : HomaDeferral) (id : ℕ) (rpc : QdiscRpc) : HomaDeferral :=
  { s with rpcs := Function.update s.rpcs id rpc }

end HomaDeferral

/-- `homa_qdisc_insert_rb(qdev, rpc)` on the in-order sequence. -/
def homaQdiscInsertRb (id : ℕ) (s : HomaDeferral) : HomaDeferral :=
  { s with deferredRpcs := s.deferredRpcs.orderedInsert (fun a b => s.precedes a b = true) id }

/-- `homa_qdisc_defer_homa(qdev, skb)` for a packet of the RPC `id`: queue
it, and if it is the RPC's only deferred packet, lower `tx_left` to the
bytes from its offset on and put the RPC in the tree. -/
def homaQdiscDeferHoma (id : ℕ) (skb : DeferredSkb) (s : HomaDeferral) : HomaDeferral :=
  let rpc := s.rpcs id
  let rpc := { rpc with packets := rpc.packets ++ [skb] }
  if rpc.packets.length = 1 then
    let bytesLeft := rpc.length - skb.offset
    let rpc := if bytesLeft < rpc.txLeft then { rpc with txLeft := bytesLeft } else rpc
    homaQdiscInsertRb id (s.setRpc id rpc)
  else s.setRpc id rpc

/-- `homa_qdisc_get_deferred_homa(qdev)`; `none` is the empty tree, or an RPC
in the tree without packets, which the source would dereference. -/
def homaQdiscGetDeferredHoma (s : HomaDeferral) : Option (DeferredSkb × HomaDeferral) :=
  match s.deferredRpcs with
  | [] => none
  | id :: rest =>
      let rpc := s.rpcs id
      match rpc.packets with
      | [] => none
      | skb :: packets =>
          let deferredRpcs := if packets.length = 0 then rest else id :: rest
          let bytesLeft := rpc.length - (skb.offset + skb.dataBytes)
          let txLeft := if bytesLeft < rpc.txLeft then bytesLeft else rpc.txLeft
          some (skb, { rpcs := Function.update s.rpcs id { rpc with packets, txLeft }, deferredRpcs })

/-- A call on the deferral structures. -/
inductive HomaDeferralOp where
  | defer (id : ℕ) (skb : DeferredSkb)
  | get

namespace HomaDeferral

def step (s : HomaDeferral) : HomaDeferralOp → Option HomaDeferral
  | .defer id skb => some (homaQdiscDeferHoma id skb s)
  | .get => (homaQdiscGetDeferredHoma s).map Prod.snd

/-- No packet deferred yet: every RPC has `tx_left` at
`HOMA_MAX_MESSAGE_LENGTH`, as `homa_qdisc_rpc_init` leaves it. -/
structure Init (s : HomaDeferral) : Prop where
  deferred_nil : s.deferredRpcs = []
  packets_nil : ∀ id, (s.rpcs id).packets = []
  txLeft_eq : ∀ id, (s.rpcs id).txLeft = homaMaxMessageLength

inductive Reachable : HomaDeferral → Prop where
  | init {s : HomaDeferral} : s.Init → Reachable s
  | step {s s' : HomaDeferral} {op : HomaDeferralOp} : Reachable s → s.step op = some s' →
      Reachable s'

/-- The tree holds exactly the RPCs with deferred packets, each once, in
the order of `homa_qdisc_precedes` on their current keys. -/
structure Inv (s : HomaDeferral) : Prop where
  mem_iff : ∀ id, id ∈ s.deferredRpcs ↔ (s.rpcs id).packets ≠ []
  nodup : s.deferredRpcs.Nodup
  sorted : Sorted s.key s.deferredRpcs

/-! ## The order and its key -/

theorem precedes_iff (s : HomaDeferral) (a b : ℕ) : s.precedes a b = true ↔ s.key a < s.key b := by
  unfold precedes homaQdiscPrecedes key
  simp only [Prod.Lex.toLex_lt_toLex]
  split_ifs <;> simp <;> omega

theorem key_injective (s : HomaDeferral) {a b : ℕ} (h : s.key a = s.key b) : a = b := by
  simp only [key, toLex_inj, Prod.mk.injEq] at h
  exact h.2.2

theorem pairwise_precedes {s : HomaDeferral} {l : List ℕ} (hsorted : Sorted s.key l)
    (hnodup : l.Nodup) : l.Pairwise fun a b => s.precedes a b = true := by
  refine (hsorted.and hnodup).imp fun ⟨hle, hne⟩ => (precedes_iff s _ _).mpr ?_
  exact lt_of_le_of_ne hle fun h => hne (key_injective s h)

@[simp] theorem setRpc_rpcs (s : HomaDeferral) (id : ℕ) (rpc : QdiscRpc) (b : ℕ) :
    (s.setRpc id rpc).rpcs b = if b = id then rpc else s.rpcs b := by
  simp [setRpc, Function.update_apply]

@[simp] theorem setRpc_deferredRpcs (s : HomaDeferral) (id : ℕ) (rpc : QdiscRpc) :
    (s.setRpc id rpc).deferredRpcs = s.deferredRpcs := rfl

theorem key_setRpc_of_ne (s : HomaDeferral) {id b : ℕ} (rpc : QdiscRpc) (hb : b ≠ id) :
    (s.setRpc id rpc).key b = s.key b := by
  simp [key, hb]

theorem key_setRpc_of_eq (s : HomaDeferral) {id : ℕ} (rpc : QdiscRpc)
    (htx : rpc.txLeft = (s.rpcs id).txLeft) (htime : rpc.initTime = (s.rpcs id).initTime) :
    (s.setRpc id rpc).key = s.key := by
  funext b
  by_cases hb : b = id
  · subst hb
    simp [key, htx, htime]
  · exact key_setRpc_of_ne s rpc hb

theorem key_setRpc_le (s : HomaDeferral) {id : ℕ} {rpc : QdiscRpc}
    (htx : rpc.txLeft ≤ (s.rpcs id).txLeft) (htime : rpc.initTime = (s.rpcs id).initTime) :
    (s.setRpc id rpc).key id ≤ s.key id := by
  simp only [key, setRpc_rpcs, if_true, htime]
  rw [Prod.Lex.toLex_le_toLex]
  rcases htx.lt_or_eq with hlt | heq
  · exact .inl hlt
  · exact .inr ⟨heq, le_rfl⟩

theorem sorted_setRpc {s : HomaDeferral} {id : ℕ} (rpc : QdiscRpc) {l : List ℕ}
    (hsorted : Sorted s.key l) (hid : id ∉ l) : Sorted (s.setRpc id rpc).key l :=
  hsorted.congr fun _ hb => key_setRpc_of_ne s rpc fun h => hid (h ▸ hb)

/-! ## Each call keeps the tree in order -/

section Steps

variable {s : HomaDeferral}

theorem deferHoma_of_ne_nil {id : ℕ} {skb : DeferredSkb} (hne : (s.rpcs id).packets ≠ []) :
    homaQdiscDeferHoma id skb s =
      s.setRpc id { s.rpcs id with packets := (s.rpcs id).packets ++ [skb] } := by
  have hlen : ((s.rpcs id).packets ++ [skb]).length ≠ 1 := by
    have := List.length_pos_iff.mpr hne
    simp only [List.length_append, List.length_singleton]
    omega
  simp only [homaQdiscDeferHoma, if_neg hlen]

theorem deferHoma_of_nil {id : ℕ} (skb : DeferredSkb) (hnil : (s.rpcs id).packets = []) :
    ∃ rpc : QdiscRpc, homaQdiscDeferHoma id skb s = homaQdiscInsertRb id (s.setRpc id rpc) ∧
      rpc.packets = [skb] ∧ rpc.txLeft ≤ (s.rpcs id).txLeft ∧
      rpc.initTime = (s.rpcs id).initTime ∧ rpc.length = (s.rpcs id).length := by
  have hlen : ((s.rpcs id).packets ++ [skb]).length = 1 := by simp [hnil]
  simp only [homaQdiscDeferHoma, if_pos hlen]
  split_ifs with hlt
  · exact ⟨_, rfl, by simp [hnil], hlt.le, rfl, rfl⟩
  · exact ⟨_, rfl, by simp [hnil], le_rfl, rfl, rfl⟩

theorem Inv.deferHoma (hs : s.Inv) (id : ℕ) (skb : DeferredSkb) :
    (homaQdiscDeferHoma id skb s).Inv := by
  by_cases hnil : (s.rpcs id).packets = []
  · -- the RPC enters the tree
    obtain ⟨rpc, heq, hpackets, -, -, -⟩ := deferHoma_of_nil skb hnil
    have hid : id ∉ s.deferredRpcs := fun h => (hs.mem_iff id).mp h hnil
    have hperm := List.perm_orderedInsert (fun a b => (s.setRpc id rpc).precedes a b = true) id
      s.deferredRpcs
    rw [heq]
    refine ⟨fun b => ?_, ?_, ?_⟩
    · simp only [homaQdiscInsertRb, setRpc_deferredRpcs, setRpc_rpcs]
      rw [hperm.mem_iff, List.mem_cons]
      by_cases hb : b = id
      · simp [hb, hpackets]
      · simp [hb, hs.mem_iff b]
    · exact hperm.nodup_iff.mpr (List.nodup_cons.mpr ⟨hid, hs.nodup⟩)
    · exact (sorted_setRpc rpc hs.sorted hid).orderedInsert (precedes_iff _) id
  · -- only the RPC's queue grows
    rw [deferHoma_of_ne_nil hnil]
    have hkey := key_setRpc_of_eq s { s.rpcs id with packets := (s.rpcs id).packets ++ [skb] }
      rfl rfl
    refine ⟨fun b => ?_, hs.nodup, by rw [hkey]; exact hs.sorted⟩
    rw [setRpc_deferredRpcs, setRpc_rpcs]
    by_cases hb : b = id
    · subst hb
      simp [(hs.mem_iff b).mpr hnil]
    · simp [hb, hs.mem_iff b]

theorem getDeferredHoma_cases {skb : DeferredSkb} {s' : HomaDeferral}
    (h : homaQdiscGetDeferredHoma s = some (skb, s')) :
    ∃ id rest packets, ∃ rpc : QdiscRpc, s'.rpcs = (s.setRpc id rpc).rpcs ∧
      s'.deferredRpcs = (if packets = [] then rest else id :: rest) ∧
      s.deferredRpcs = id :: rest ∧ (s.rpcs id).packets = skb :: packets ∧
      rpc.packets = packets ∧ rpc.txLeft ≤ (s.rpcs id).txLeft ∧
      rpc.initTime = (s.rpcs id).initTime := by
  unfold homaQdiscGetDeferredHoma at h
  split at h
  · cases h
  · rename_i id rest hd
    dsimp only at h
    split at h
    · cases h
    · rename_i skb' packets hp
      simp only [Option.some.injEq, Prod.mk.injEq] at h
      obtain ⟨rfl, rfl⟩ := h
      refine ⟨id, rest, packets, _, rfl, ?_, hd, hp, rfl, ?_, rfl⟩
      · simp only [List.length_eq_zero_iff]
      · dsimp only
        split_ifs with hlt
        · exact hlt.le
        · exact le_rfl

theorem key_eq_of_rpcs {t : HomaDeferral} (h : s.rpcs = t.rpcs) : s.key = t.key := by
  funext b
  simp [key, h]

theorem Inv.getDeferredHoma (hs : s.Inv) {skb : DeferredSkb} {s' : HomaDeferral}
    (h : homaQdiscGetDeferredHoma s = some (skb, s')) : s'.Inv := by
  obtain ⟨id, rest, packets, rpc, hrpcs, hlist, hd, hp, hpackets, htx, htime⟩ :=
    getDeferredHoma_cases h
  have hnodup := hs.nodup
  have hsorted := hs.sorted
  rw [hd] at hnodup hsorted
  have hid : id ∉ rest := (List.nodup_cons.mp hnodup).1
  have hkey : s'.key = (s.setRpc id rpc).key := key_eq_of_rpcs hrpcs
  have hrest : Sorted s'.key rest :=
    hkey ▸ sorted_setRpc rpc (List.pairwise_cons.mp hsorted).2 hid
  refine ⟨fun b => ?_, ?_, ?_⟩
  · -- the RPC stays in the tree exactly when it has packets left
    rw [hrpcs, setRpc_rpcs, hlist]
    by_cases hb : b = id
    · rw [if_pos hb, hb, hpackets]
      split_ifs with hnil
      · simp [hnil, hid]
      · simp [hnil]
    · have hmem := hs.mem_iff b
      rw [hd, List.mem_cons, or_iff_right hb] at hmem
      rw [if_neg hb, ← hmem]
      split_ifs
      · rfl
      · simp [hb]
  · rw [hlist]
    split_ifs
    · exact (List.nodup_cons.mp hnodup).2
    · exact hnodup
  · rw [hlist]
    split_ifs
    · exact hrest
    · -- the leftmost RPC's key only went down
      refine List.Pairwise.cons (fun b hb => ?_) hrest
      have hbid : b ≠ id := fun h => hid (h ▸ hb)
      rw [hkey]
      calc (s.setRpc id rpc).key id ≤ s.key id := key_setRpc_le s htx htime
        _ ≤ s.key b := (List.pairwise_cons.mp hsorted).1 b hb
        _ = (s.setRpc id rpc).key b := (key_setRpc_of_ne s rpc hbid).symm

theorem Inv.step (hs : s.Inv) {op : HomaDeferralOp} {s' : HomaDeferral}
    (h : s.step op = some s') : s'.Inv := by
  cases op with
  | defer id skb =>
    cases h
    exact hs.deferHoma id skb
  | get =>
    obtain ⟨⟨skb, s''⟩, hget, rfl⟩ := Option.map_eq_some_iff.mp h
    exact hs.getDeferredHoma hget

theorem step_txLeft_le {op : HomaDeferralOp} {s' : HomaDeferral} (h : s.step op = some s')
    (b : ℕ) : (s'.rpcs b).txLeft ≤ (s.rpcs b).txLeft := by
  cases op with
  | defer id skb =>
    cases h
    by_cases hnil : (s.rpcs id).packets = []
    · obtain ⟨rpc, heq, -, htx, -, -⟩ := deferHoma_of_nil skb hnil
      rw [heq]
      by_cases hb : b = id
      · subst hb
        simpa [homaQdiscInsertRb] using htx
      · simp [homaQdiscInsertRb, hb]
    · rw [deferHoma_of_ne_nil hnil]
      by_cases hb : b = id <;> simp [hb]
  | get =>
    obtain ⟨⟨skb, s''⟩, hget, rfl⟩ := Option.map_eq_some_iff.mp h
    obtain ⟨id, -, -, rpc, hrpcs, -, -, -, -, htx, -⟩ := getDeferredHoma_cases hget
    rw [hrpcs, setRpc_rpcs]
    split_ifs with hb
    · exact hb ▸ htx
    · exact le_rfl

theorem deferHoma_packets (id : ℕ) (skb : DeferredSkb) (b : ℕ) :
    ((homaQdiscDeferHoma id skb s).rpcs b).packets =
      if b = id then (s.rpcs id).packets ++ [skb] else (s.rpcs b).packets := by
  by_cases hnil : (s.rpcs id).packets = []
  · obtain ⟨rpc, heq, hpackets, -, -, -⟩ := deferHoma_of_nil skb hnil
    rw [heq]
    by_cases hb : b = id
    · subst hb
      simp [homaQdiscInsertRb, hpackets, hnil]
    · simp [homaQdiscInsertRb, hb]
  · rw [deferHoma_of_ne_nil hnil]
    by_cases hb : b = id
    · subst hb
      simp
    · simp [hb]

theorem Inv.getDeferredHoma_min (hs : s.Inv) {skb : DeferredSkb} {s' : HomaDeferral}
    (h : homaQdiscGetDeferredHoma s = some (skb, s')) :
    ∃ id packets, (s.rpcs id).packets = skb :: packets ∧ (s'.rpcs id).packets = packets ∧
      (∀ b, b ≠ id → (s'.rpcs b).packets = (s.rpcs b).packets) ∧
      ∀ b, b ≠ id → (s.rpcs b).packets ≠ [] → s.precedes id b = true := by
  obtain ⟨id, rest, packets, rpc, hrpcs, -, hd, hp, hpackets, -⟩ := getDeferredHoma_cases h
  refine ⟨id, packets, hp, ?_, fun b hb => ?_, fun b hb hne => ?_⟩
  · rw [hrpcs, setRpc_rpcs, if_pos rfl, hpackets]
  · rw [hrpcs, setRpc_rpcs, if_neg hb]
  have hmem := (hs.mem_iff b).mpr hne
  rw [hd, List.mem_cons, or_iff_right hb] at hmem
  have hpair := pairwise_precedes hs.sorted hs.nodup
  rw [hd] at hpair
  exact (List.pairwise_cons.mp hpair).1 b hmem

theorem Inv.getDeferredHoma_some (hs : s.Inv) {id : ℕ} (hne : (s.rpcs id).packets ≠ []) :
    ∃ skb s', homaQdiscGetDeferredHoma s = some (skb, s') := by
  -- the tree is not empty, and its leftmost RPC has a packet
  obtain ⟨first, rest, hd⟩ := List.exists_cons_of_ne_nil
    (List.ne_nil_of_mem ((hs.mem_iff id).mpr hne))
  have hfirst := (hs.mem_iff first).mp (by rw [hd]; exact List.mem_cons_self)
  obtain ⟨skb, packets, hp⟩ := List.exists_cons_of_ne_nil hfirst
  unfold homaQdiscGetDeferredHoma
  simp only [hd, hp]
  exact ⟨_, _, rfl⟩

theorem Init.inv (h : s.Init) : s.Inv :=
  ⟨fun id => by simp [h.deferred_nil, h.packets_nil id], by simp [h.deferred_nil],
    by simp [h.deferred_nil, Sorted]⟩

theorem Reachable.inv (h : s.Reachable) : s.Inv := by
  induction h with
  | init hinit => exact hinit.inv
  | step _ hstep ih => exact ih.step hstep

end Steps

end HomaDeferral

/-- Over any run of `homa_qdisc_defer_homa` and
`homa_qdisc_get_deferred_homa` calls: an RPC is in `deferred_rpcs` exactly
when it has deferred packets; the tree's in-order sequence is strictly
increasing under `homa_qdisc_precedes` on the current `tx_left` values; no
call raises a `tx_left`; a deferred packet joins the end of its RPC's
queue; while any packet is deferred the get hands one out; and every
packet handed out is the oldest deferred packet of an RPC that precedes
every other RPC with deferred packets, and leaves that RPC's queue. -/
theorem homaQdiscDeferral_srpt {s : HomaDeferral} (hs : s.Reachable) :
    (∀ id, id ∈ s.deferredRpcs ↔ (s.rpcs id).packets ≠ []) ∧
      s.deferredRpcs.Pairwise (fun a b => homaQdiscPrecedes a (s.rpcs a) b (s.rpcs b) = true) ∧
      (∀ op s', s.step op = some s' → ∀ id, (s'.rpcs id).txLeft ≤ (s.rpcs id).txLeft) ∧
      (∀ id skb b, ((homaQdiscDeferHoma id skb s).rpcs b).packets =
        if b = id then (s.rpcs id).packets ++ [skb] else (s.rpcs b).packets) ∧
      (∀ id, (s.rpcs id).packets ≠ [] → ∃ skb s', homaQdiscGetDeferredHoma s = some (skb, s')) ∧
      (∀ skb s', homaQdiscGetDeferredHoma s = some (skb, s') →
        ∃ id packets, (s.rpcs id).packets = skb :: packets ∧ (s'.rpcs id).packets = packets ∧
          (∀ b, b ≠ id → (s'.rpcs b).packets = (s.rpcs b).packets) ∧
          ∀ b, b ≠ id → (s.rpcs b).packets ≠ [] →
            homaQdiscPrecedes id (s.rpcs id) b (s.rpcs b) = true) := by
  have hinv := hs.inv
  exact ⟨hinv.mem_iff, HomaDeferral.pairwise_precedes hinv.sorted hinv.nodup,
    fun _ _ h => HomaDeferral.step_txLeft_le h, HomaDeferral.deferHoma_packets,
    fun _ hne => hinv.getDeferredHoma_some hne, fun _ _ h => hinv.getDeferredHoma_min h⟩

/-- The state before any packet is deferred, with every RPC as
`homa_qdisc_rpc_init` leaves it. -/
def homaDeferralInit (initTime : ℕ → ℕ) (length : ℕ → ℤ) : HomaDeferral :=
  ⟨fun id => ⟨homaMaxMessageLength, [], initTime id, length id⟩, []⟩

/-- RPC 1 defers its packet at offset 500 and RPC 2 its packet at offset 0,
both of 1000-byte messages. -/
def twoDeferred : HomaDeferral :=
  homaQdiscDeferHoma 2 ⟨0, 100⟩
    (homaQdiscDeferHoma 1 ⟨500, 100⟩ (homaDeferralInit (fun _ => 0) (fun _ => 1000)))

/-- RPC 1, with fewer bytes left, comes first in the tree. -/
theorem homaQdiscDeferral_srpt_twoDeferred :
    twoDeferred.Reachable ∧ twoDeferred.deferredRpcs = [1, 2] ∧
      let s := twoDeferred
      (∀ id, id ∈ s.deferredRpcs ↔ (s.rpcs id).packets ≠ []) ∧
        s.deferredRpcs.Pairwise (fun a b => homaQdiscPrecedes a (s.rpcs a) b (s.rpcs b) = true) ∧
        (∀ op s', s.step op = some s' → ∀ id, (s'.rpcs id).txLeft ≤ (s.rpcs id).txLeft) ∧
        (∀ id skb b, ((homaQdiscDeferHoma id skb s).rpcs b).packets =
          if b = id then (s.rpcs id).packets ++ [skb] else (s.rpcs b).packets) ∧
        (∀ id, (s.rpcs id).packets ≠ [] → ∃ skb s', homaQdiscGetDeferredHoma s = some (skb, s')) ∧
        (∀ skb s', homaQdiscGetDeferredHoma s = some (skb, s') →
          ∃ id packets, (s.rpcs id).packets = skb :: packets ∧ (s'.rpcs id).packets = packets ∧
            (∀ b, b ≠ id → (s'.rpcs b).packets = (s.rpcs b).packets) ∧
            ∀ b, b ≠ id → (s.rpcs b).packets ≠ [] →
              homaQdiscPrecedes id (s.rpcs id) b (s.rpcs b) = true) :=
  have hreach : twoDeferred.Reachable :=
    @HomaDeferral.Reachable.step _ _ (.defer 2 ⟨0, 100⟩)
      (@HomaDeferral.Reachable.step _ _ (.defer 1 ⟨500, 100⟩)
        (.init ⟨rfl, fun _ => rfl, fun _ => rfl⟩) rfl) rfl
  ⟨hreach, by decide, homaQdiscDeferral_srpt hreach⟩

end Homa
