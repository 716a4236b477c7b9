import Homa.MessageIn
import Homa.UpdateSum

/-!
# Reaping dead RPCs

`homa_rpc_end` marks an RPC dead, queues it on `dead_rpcs` and adds its
buffers to `dead_skbs`; `homa_rpc_reap` frees them later in batches,
skipping an RPC someone else holds and stopping on a transmit skb still in
flight.  This module follows the skbs through every locked region that
touches them on one socket: the fill loop of `homa_message_out_fill`,
`homa_resend_data`, transmits and their completions, `homa_rpc_hold`,
`homa_rpc_put`, `homa_rpc_end` and one batch of the reaper.  An skb is a
number, and the skbs freed so far are logged in `freedSkbs`.

The accounting holds over every run (`ReapSock.Inv`), except that
`homa_resend_data` does not test for a dead RPC: each skb it adds to one is
counted by `num_skbs` but never by `dead_skbs` (`ReapSock.drift`).
-/

namespace Homa

/-- `BATCH_MAX` of `homa_rpc_reap`. -/
def batchMax : ℕ := 10

/-- The fields of `struct homa_rpc` the reaper and its feeders use;
`filling` holds while `homa_message_out_fill` runs. -/
structure ReapRpc where
  refs : ℕ
  /-- `rpc->state == RPC_DEAD`. -/
  dead : Bool
  /-- `msgout.length`; `-1` until `homa_message_out_init`. -/
  outLength : ℤ
  /-- `msgout.packets`, chained through `next_skb`. -/
  packets : List ℕ
  /-- `msgout.to_free`. -/
  toFree : List ℕ
  numSkbs : ℤ
  skbMemory : ℤ
  /-- `msgin.length`. -/
  inLength : ℤ
  /-- `skb_queue_len(&msgin.packets)`. -/
  inPackets : ℕ
  filling : Bool
  filled : Bool
  deriving DecidableEq, Repr

namespace ReapRpc

/-- An RPC as `homa_rpc_alloc_client` or `homa_rpc_alloc_server` leaves it,
with `inPackets` packets of its incoming message queued. -/
def new (inLength : ℤ) (inPackets : ℕ) : ReapRpc :=
  { refs := 1, dead := false, outLength := -1, packets := [], toFree := [], numSkbs := 0,
    skbMemory := 0, inLength, inPackets, filling := false, filled := false }

/-- The transmit skbs of the RPC, in the order the reaper frees them. -/
def chain (rpc : ReapRpc) : List ℕ := rpc.toFree ++ rpc.packets

/-- The queued rx skbs, which `homa_rpc_end` counts and the reaper purges
when `msgin.length >= 0`. -/
def rxSkbs (rpc : ReapRpc) : ℕ := if 0 ≤ rpc.inLength then rpc.inPackets else 0

/-- What the RPC counts for in `dead_skbs`. -/
def deadCount (rpc : ReapRpc) : ℤ := rpc.numSkbs + rpc.rxSkbs

/-- What the RPC counts for in `sk_wmem_alloc`. -/
def wmemShare (rpc : ReapRpc) : ℤ := if rpc.filled then rpc.skbMemory else 0

/-- The references that the socket's RPC table and, while a fill runs, the
sending thread hold. -/
def baseRefs (rpc : ReapRpc) : ℕ := if rpc.filling then 2 else 1

/-- `homa_message_out_init`: `msgout` cleared, with its length set. -/
def homaMessageOutInit (rpc : ReapRpc) (length : ℤ) : ReapRpc :=
  { rpc with outLength := length, packets := [], toFree := [], numSkbs := 0, skbMemory := 0 }

/-- `__skb_queue_purge_reason(&rpc->msgin.packets, ...)` in the reaper. -/
def purgeRx (rpc : ReapRpc) : ReapRpc :=
  if 0 ≤ rpc.inLength then { rpc with inPackets := 0 } else rpc

end ReapRpc

/-- Where an skb is, as far as its memory goes. -/
inductive SkbState where
  | unborn
  /-- On the `packets` or `to_free` chain of the RPC. -/
  | owned (id : ℕ)
  | freed
  deriving DecidableEq, Repr

/-- A socket and its RPCs, as reaping sees them. -/
@[ext] structure ReapSock where
  rpcs : ℕ → ReapRpc
  /-- The RPCs that have not been passed to `kfree`. -/
  live : Finset ℕ
  skbs : ℕ → SkbState
  /-- `refcount_read(&skb->users)`. -/
  users : ℕ → ℕ
  /-- The next skb the allocator hands out. -/
  nextSkb : ℕ
  deadRpcs : List ℕ
  deadSkbs : ℤ
  /-- `sk_wmem_alloc`. -/
  wmemAlloc : ℤ
  protectCount : ℕ
  freedSkbs : List ℕ

namespace ReapSock

def setRpc (s : ReapSock) (id : ℕ) (rpc : ReapRpc) : ReapSock :=
  { s with rpcs := Function.update s.rpcs id rpc }

/-- The skbs of the RPCs on `dead_rpcs`. -/
def deadSum (s : ReapSock) : ℤ :=
  (s.deadRpcs.map fun id => (s.rpcs id).deadCount).sum

/-- The memory of the messages whose fill has returned. -/
def wmemSum (s : ReapSock) : ℤ :=
  ∑ id ∈ s.live, (s.rpcs id).wmemShare

/-- How far `dead_skbs` falls short of the skbs of the dead RPCs. -/
def drift (s : ReapSock) : ℤ := s.deadSum - s.deadSkbs

/-! ## The locked regions -/

def homaRpcHold (id : ℕ) (s : ReapSock) : ReapSock :=
  s.setRpc id { s.rpcs id with refs := (s.rpcs id).refs + 1 }

def homaRpcPut (id : ℕ) (s : ReapSock) : ReapSock :=
  s.setRpc id { s.rpcs id with refs := (s.rpcs id).refs - 1 }

def homaSkbFreeManyTx (skbs : List ℕ) (s : ReapSock) : ReapSock :=
  { s with
    skbs := fun skb => if skb ∈ skbs then .freed else s.skbs skb
    freedSkbs := s.freedSkbs ++ skbs }

/-- The end of `homa_message_out_fill`, on its normal and its error exit
alike: the message's skb memory is charged to `sk_wmem_alloc`. -/
def homaMessageOutFillReturn (id : ℕ) (s : ReapSock) : ReapSock :=
  { s.setRpc id { s.rpcs id with filling := false, filled := true } with
    wmemAlloc := s.wmemAlloc + (s.rpcs id).skbMemory }

/-- `homa_message_out_fill` up to its loop: a length out of range goes to
`error`; otherwise `homa_message_out_init` clears `msgout`. -/
def homaMessageOutFillStart (id length : ℕ) (s : ReapSock) : ReapSock :=
  if homaMaxMessageLength < (length : ℤ) ∨ length = 0 then homaMessageOutFillReturn id s
  else s.setRpc id { (s.rpcs id).homaMessageOutInit length with filling := true }

/-- One pass of the fill loop once the new skb is built: freed with `error`
if the RPC died meanwhile, else appended to `packets`. -/
def homaMessageOutFillAppend (id truesize : ℕ) (s : ReapSock) : ReapSock :=
  let skb := s.nextSkb
  if (s.rpcs id).dead then
    homaMessageOutFillReturn id (homaSkbFreeManyTx [skb] { s with nextSkb := skb + 1 })
  else
    { s.setRpc id { s.rpcs id with
        packets := (s.rpcs id).packets ++ [skb]
        numSkbs := (s.rpcs id).numSkbs + 1
        skbMemory := (s.rpcs id).skbMemory + truesize } with
      nextSkb := skb + 1
      skbs := Function.update s.skbs skb (.owned id)
      users := Function.update s.users skb 1 }

/-- One retransmitted segment of `homa_resend_data`: a new skb pushed on
`to_free`, with the reference `skb_get` takes for its transmit. -/
def homaResendDataSkb (id : ℕ) (s : ReapSock) : ReapSock :=
  let skb := s.nextSkb
  { s.setRpc id { s.rpcs id with
      toFree := skb :: (s.rpcs id).toFree
      numSkbs := (s.rpcs id).numSkbs + 1 } with
    nextSkb := skb + 1
    skbs := Function.update s.skbs skb (.owned id)
    users := Function.update s.users skb 2 }

/-- A transmit takes a reference on the skb it hands to the NIC. -/
def homaXmitSkb (skb : ℕ) (s : ReapSock) : ReapSock :=
  { s with users := Function.update s.users skb (s.users skb + 1) }

/-- A transmit completion drops it. -/
def homaTxComplete (skb : ℕ) (s : ReapSock) : ReapSock :=
  { s with users := Function.update s.users skb (s.users skb - 1) }

/-- `homa_rpc_end`, as far as the buffers go: the RPC is queued on
`dead_rpcs` and its buffers added to `dead_skbs`. -/
def homaRpcEnd (id : ℕ) (s : ReapSock) : ReapSock :=
  if (s.rpcs id).dead then s
  else
    { s.setRpc id { s.rpcs id with dead := true } with
      deadRpcs := s.deadRpcs ++ [id]
      deadSkbs := s.deadSkbs + (s.rpcs id).rxSkbs + (s.rpcs id).numSkbs }

end ReapSock

/-! ## `homa_rpc_reap` -/

/-- How a walk along transmit skbs stopped. -/
inductive TxWalk where
  /-- No skb left. -/
  | done
  /-- At an skb with `users > 1`: `goto next_rpc`. -/
  | busy
  /-- The batch is full: `goto release`. -/
  | full
  deriving DecidableEq, Repr

/-- Where a walk stopped, what was left of the chain, and the skbs it took. -/
structure ChainWalk where
  walk : TxWalk
  rest : List ℕ
  taken : List ℕ
  deriving DecidableEq, Repr

/-- The reaper's walk along one chain, with `n` skbs already in the batch. -/
def reapChain (batchSize : ℕ) (users : ℕ → ℕ) (n : ℕ) : List ℕ → ChainWalk
  | [] => ⟨.done, [], []⟩
  | skb :: rest =>
      if 1 < users skb then ⟨.busy, skb :: rest, []⟩
      else if batchSize ≤ n + 1 then ⟨.full, rest, [skb]⟩
      else
        let w := reapChain batchSize users (n + 1) rest
        { w with taken := skb :: w.taken }

/-- The transmit loop of `homa_rpc_reap` for one RPC: it frees from
`to_free`, then moves `packets` onto it. -/
def homaRpcReapTx (batchSize : ℕ) (users : ℕ → ℕ) (n : ℕ) (toFree packets : List ℕ) :
    ChainWalk × List ℕ :=
  let w := reapChain batchSize users n toFree
  match w.walk, packets with
  | .done, [] => (w, [])
  | .done, packets =>
      let w' := reapChain batchSize users (n + w.taken.length) packets
      ({ w' with taken := w.taken ++ w'.taken }, [])
  | _, packets => (w, packets)

/-- What a batch has collected: its skbs, its RPCs and the rx skbs it
purged. -/
structure ReapBatch where
  skbs : List ℕ
  rpcs : List ℕ
  rxFrees : ℕ
  deriving DecidableEq, Repr

/-- The transmit skbs the reaper takes from `rpc`, with `n` skbs already in
the batch: none when `msgout.length < 0`. -/
def reapTx (batchSize : ℕ) (users : ℕ → ℕ) (n : ℕ) (rpc : ReapRpc) : ChainWalk × List ℕ :=
  if 0 ≤ rpc.outLength then homaRpcReapTx batchSize users n rpc.toFree rpc.packets
  else (⟨.done, rpc.toFree, []⟩, rpc.packets)

/-- The RPC with its chains cut to what the walk `tx` left. -/
def ReapRpc.afterWalk (rpc : ReapRpc) (tx : ChainWalk × List ℕ) : ReapRpc :=
  { rpc with toFree := tx.1.rest, packets := tx.2, numSkbs := rpc.numSkbs - tx.1.taken.length }

namespace ReapSock

/-- `rpcs[num_rpcs] = rpc`: the RPC's rx skbs are purged, it leaves
`dead_rpcs`, and its skb memory leaves `sk_wmem_alloc`. -/
def reapRpcCollect (id : ℕ) (s : ReapSock) (b : ReapBatch) : ReapSock × ReapBatch :=
  let rpc := s.rpcs id
  ({ s.setRpc id rpc.purgeRx with
      deadRpcs := s.deadRpcs.erase id
      wmemAlloc := s.wmemAlloc - rpc.skbMemory },
    { b with rpcs := b.rpcs ++ [id], rxFrees := b.rxFrees + rpc.rxSkbs })

/-- The body of the collection loop of `homa_rpc_reap` for the dead RPC `id`;
`busy` is a failed `homa_rpc_try_lock`, and `false` is `goto release`. -/
def homaRpcReapOne (batchSize : ℕ) (busy : List ℕ) (id : ℕ) (s : ReapSock) (b : ReapBatch) :
    ReapSock × ReapBatch × Bool :=
  if id ∈ busy ∨ 1 < (s.rpcs id).refs then (s, b, true)
  else
    let tx := reapTx batchSize s.users b.skbs.length (s.rpcs id)
    let s := s.setRpc id ((s.rpcs id).afterWalk tx)
    let b := { b with skbs := b.skbs ++ tx.1.taken }
    match tx.1.walk with
    | .busy => (s, b, true)
    | .full => (s, b, false)
    | .done =>
        let r := reapRpcCollect id s b
        (r.1, r.2, decide (r.2.rpcs.length < batchSize))

/-- The collection loop of `homa_rpc_reap` over the dead RPCs `ids`; the
flag is `checked_all_rpcs`. -/
def homaRpcReapCollect (batchSize : ℕ) (busy : List ℕ) :
    List ℕ → ReapSock → ReapBatch → ReapSock × ReapBatch × Bool
  | [], s, b => (s, b, true)
  | id :: ids, s, b =>
      let r := homaRpcReapOne batchSize busy id s b
      if r.2.2 then homaRpcReapCollect batchSize busy ids r.1 r.2.1 else (r.1, r.2.1, false)

/-- The end of a batch: `dead_skbs` drops by what was collected, the RPCs
are passed to `kfree` and the skbs to `homa_skb_free_many_tx`. -/
def homaRpcReapRelease (b : ReapBatch) (s : ReapSock) : ReapSock :=
  homaSkbFreeManyTx b.skbs
    { s with
      deadSkbs := s.deadSkbs - (b.skbs.length + b.rxFrees)
      live := s.live \ b.rpcs.toFinset }

/-- One pass of the loop of `homa_rpc_reap`, which takes the socket lock:
nothing while `protect_count` is set, else collect a batch and free it.
The flag is `checked_all_rpcs`. -/
def homaRpcReapBatch (batchSize : ℕ) (busy : List ℕ) (s : ReapSock) : ReapSock × Bool :=
  if s.protectCount ≠ 0 then (s, false)
  else
    let r := homaRpcReapCollect batchSize busy s.deadRpcs s ⟨[], [], 0⟩
    (homaRpcReapRelease r.2.1 r.1, r.2.2)

end ReapSock

/-- The size of the next batch of `homa_rpc_reap` and the skbs left to reap
after it; `none` is the `break` when `reap_all` is false and
`skbs_to_reap` has run out. -/
def homaRpcReapBatchSize (reapAll : Bool) (skbsToReap : ℤ) : Option (ℕ × ℤ) :=
  if reapAll then some (batchMax, skbsToReap)
  else if skbsToReap ≤ 0 then none
  else
    let batchSize := min batchMax skbsToReap.toNat
    some (batchSize, skbsToReap - batchSize)

/-! ## Runs -/

/-- One locked region on the socket's RPCs. -/
inductive ReapOp where
  | fillStart (id length : ℕ)
  | fillAppend (id truesize : ℕ)
  | fillReturn (id : ℕ)
  | resend (id : ℕ)
  | xmit (id skb : ℕ)
  | txComplete (skb : ℕ)
  | hold (id : ℕ)
  | put (id : ℕ)
  | rpcEnd (id : ℕ)
  | reap (batchSize : ℕ) (busy : List ℕ)
  deriving DecidableEq, Repr

namespace ReapOp

open ReapSock

/-- The `homa_rpc_put` with which `homa_sendmsg` drops the reference it took
for `homa_message_out_fill`, once the fill has returned. -/
def putAfterFill (id : ℕ) (s : ReapSock) : ReapSock :=
  if (s.rpcs id).filling then s else ReapSock.homaRpcPut id s

/-- One step, or `none` where no caller makes it.  A retransmit and
`homa_rpc_end` do not look at whether the RPC is dead. -/
def step (s : ReapSock) : ReapOp → Option ReapSock
  | .fillStart id length =>
      if id ∈ s.live ∧ (s.rpcs id).filling = false ∧ (s.rpcs id).filled = false then
        some (putAfterFill id (homaMessageOutFillStart id length (ReapSock.homaRpcHold id s)))
      else none
  | .fillAppend id truesize =>
      if id ∈ s.live ∧ (s.rpcs id).filling = true then
        some (putAfterFill id (homaMessageOutFillAppend id truesize s))
      else none
  | .fillReturn id =>
      if id ∈ s.live ∧ (s.rpcs id).filling = true then
        some (ReapSock.homaRpcPut id (homaMessageOutFillReturn id s))
      else none
  | .resend id =>
      if id ∈ s.live ∧ 0 ≤ (s.rpcs id).outLength ∧ (s.rpcs id).packets ≠ [] then
        some (homaResendDataSkb id s)
      else none
  | .xmit id skb =>
      if id ∈ s.live ∧ skb ∈ (s.rpcs id).packets then some (homaXmitSkb skb s) else none
  | .txComplete skb => if 2 ≤ s.users skb then some (homaTxComplete skb s) else none
  | .hold id => if id ∈ s.live then some (ReapSock.homaRpcHold id s) else none
  | .put id =>
      if id ∈ s.live ∧ (s.rpcs id).baseRefs < (s.rpcs id).refs then some (ReapSock.homaRpcPut id s)
      else none
  | .rpcEnd id => if id ∈ s.live then some (ReapSock.homaRpcEnd id s) else none
  | .reap batchSize busy =>
      if 0 < batchSize ∧ batchSize ≤ batchMax then some (homaRpcReapBatch batchSize busy s).1
      else none

/-- The step is not a retransmit into a dead RPC. -/
def SparesDead (s : ReapSock) : ReapOp → Prop
  | .resend id => (s.rpcs id).dead = false
  | _ => True

def exec : List ReapOp → ReapSock → Option ReapSock
  | [], s => some s
  | op :: ops, s => (op.step s).bind (exec ops)

end ReapOp

/-- Runs from `s` to `s'` each step of which satisfies `ok`. -/
inductive ReapRun (ok : ReapSock → ReapOp → Prop) : ReapSock → ReapSock → Prop where
  | refl (s : ReapSock) : ReapRun ok s s
  | step {s s' s'' : ReapSock} (op : ReapOp) :
      ok s op → op.step s = some s' → ReapRun ok s' s'' → ReapRun ok s s''

/-- A socket whose RPCs were just allocated, before any transmit skb. -/
structure ReapSock.Init (s : ReapSock) : Prop where
  rpcs : ∀ id ∈ s.live, ∃ inLength inPackets, s.rpcs id = ReapRpc.new inLength inPackets
  skbs : ∀ skb, s.skbs skb = .unborn
  deadRpcs : s.deadRpcs = []
  deadSkbs : s.deadSkbs = 0
  wmemAlloc : s.wmemAlloc = 1
  freedSkbs : s.freedSkbs = []

/-! ## The invariant -/

/-- What holds of an RPC that has not been freed, by itself. -/
structure ReapRpc.Wf (rpc : ReapRpc) : Prop where
  numSkbs : rpc.numSkbs = rpc.chain.length
  chain_nodup : rpc.chain.Nodup
  refs : rpc.baseRefs ≤ rpc.refs
  filled_of_filling : rpc.filling = true → rpc.filled = false
  outLength_of_filling : rpc.filling = true → 0 < rpc.outLength
  unstarted : rpc.filling = false → rpc.filled = false → rpc.outLength < 0 ∧ rpc.skbMemory = 0
  chain_of_neg : rpc.outLength < 0 → rpc.chain = []

/-- The accounting of a socket between locked regions. -/
structure ReapSock.Inv (s : ReapSock) : Prop where
  wf : ∀ id ∈ s.live, (s.rpcs id).Wf
  owned : ∀ id ∈ s.live, ∀ skb ∈ (s.rpcs id).chain, s.skbs skb = .owned id
  deadRpcs_nodup : s.deadRpcs.Nodup
  mem_deadRpcs : ∀ id, id ∈ s.deadRpcs ↔ id ∈ s.live ∧ (s.rpcs id).dead = true
  wmem : s.wmemAlloc = 1 + s.wmemSum
  unborn : ∀ skb, s.nextSkb ≤ skb → s.skbs skb = .unborn
  mem_freedSkbs : ∀ skb, skb ∈ s.freedSkbs ↔ s.skbs skb = .freed
  freedSkbs_nodup : s.freedSkbs.Nodup

namespace ReapRpc

@[simp] theorem baseRefs_pos (rpc : ReapRpc) : 0 < rpc.baseRefs := by
  unfold baseRefs
  split <;> omega

theorem refs_pos {rpc : ReapRpc} (h : rpc.Wf) : 0 < rpc.refs :=
  lt_of_lt_of_le rpc.baseRefs_pos h.refs

theorem Wf.wmemShare_of_refs {rpc : ReapRpc} (h : rpc.Wf) (hrefs : rpc.refs ≤ 1) :
    rpc.wmemShare = rpc.skbMemory := by
  have hfill : rpc.filling = false := by
    cases hf : rpc.filling
    · rfl
    · have := h.refs
      simp only [baseRefs, hf, if_true] at this
      omega
  unfold wmemShare
  cases hfilled : rpc.filled
  · simp [(h.unstarted hfill hfilled).2]
  · rfl

namespace Wf

variable {rpc : ReapRpc}

theorem hold (h : rpc.Wf) : { rpc with refs := rpc.refs + 1 }.Wf :=
  { h with
    refs := by
      show rpc.baseRefs ≤ rpc.refs + 1
      have := h.refs
      omega }

theorem put (h : rpc.Wf) (hlt : rpc.baseRefs < rpc.refs) : { rpc with refs := rpc.refs - 1 }.Wf :=
  { h with
    refs := by
      show rpc.baseRefs ≤ rpc.refs - 1
      omega }

theorem fillReturn (h : rpc.Wf) : { rpc with filling := false, filled := true }.Wf where
  numSkbs := h.numSkbs
  chain_nodup := h.chain_nodup
  refs := by simp only [baseRefs, Bool.false_eq_true, if_false]; exact rpc.refs_pos h
  filled_of_filling := by simp
  outLength_of_filling := by simp
  unstarted := by simp
  chain_of_neg := h.chain_of_neg

theorem fillStart (hfilled : rpc.filled = false) (hrefs : 2 ≤ rpc.refs) {length : ℤ} (hlen : 0 < length) : { rpc.homaMessageOutInit length with filling := true }.Wf where
  numSkbs := rfl
  chain_nodup := List.nodup_nil
  refs := by simpa [baseRefs, homaMessageOutInit] using hrefs
  filled_of_filling _ := hfilled
  outLength_of_filling _ := hlen
  unstarted := by simp
  chain_of_neg _ := rfl

theorem append (h : rpc.Wf) (hfill : rpc.filling = true) {skb : ℕ} (hskb : skb ∉ rpc.chain)
    (truesize : ℕ) :
    { rpc with
      packets := rpc.packets ++ [skb]
      numSkbs := rpc.numSkbs + 1
      skbMemory := rpc.skbMemory + truesize }.Wf :=
  { h with
    numSkbs := by
      have := h.numSkbs
      simp only [chain, List.length_append, List.length_singleton] at this ⊢
      omega
    chain_nodup := by
      show (rpc.toFree ++ (rpc.packets ++ [skb])).Nodup
      rw [← List.append_assoc]
      exact (List.perm_append_singleton skb rpc.chain).nodup_iff.2
        (List.nodup_cons.2 ⟨hskb, h.chain_nodup⟩)
    unstarted := fun hf => by simp [hfill] at hf
    chain_of_neg := fun hneg => absurd hneg (not_lt.2 (h.outLength_of_filling hfill).le) }

theorem resend (h : rpc.Wf) (hlen : 0 ≤ rpc.outLength) {skb : ℕ} (hskb : skb ∉ rpc.chain) :
    { rpc with toFree := skb :: rpc.toFree, numSkbs := rpc.numSkbs + 1 }.Wf :=
  { h with
    numSkbs := by
      have := h.numSkbs
      simp only [chain, List.length_append, List.length_cons] at this ⊢
      omega
    chain_nodup := by
      show (skb :: rpc.chain).Nodup
      exact List.nodup_cons.2 ⟨hskb, h.chain_nodup⟩
    chain_of_neg := fun hneg => absurd hlen (not_le.2 hneg) }

theorem rpcEnd (h : rpc.Wf) : { rpc with dead := true }.Wf := { h with }

theorem purgeRx (h : rpc.Wf) : rpc.purgeRx.Wf := by
  unfold ReapRpc.purgeRx
  split
  · exact { h with }
  · exact h

theorem afterWalk (h : rpc.Wf) {tx : ChainWalk × List ℕ}
    (htx : rpc.chain = tx.1.taken ++ (tx.1.rest ++ tx.2)) : (rpc.afterWalk tx).Wf :=
  { h with
    numSkbs := by
      have := h.numSkbs
      rw [htx] at this
      simp only [ReapRpc.afterWalk, chain, List.length_append] at this ⊢
      omega
    chain_nodup := by
      have := h.chain_nodup
      rw [htx] at this
      exact this.of_append_right
    chain_of_neg := fun hneg => by
      have := h.chain_of_neg hneg
      rw [htx] at this
      exact (List.append_eq_nil_iff.1 this).2 }

end Wf

end ReapRpc

namespace ReapSock

variable (s : ReapSock) (id : ℕ) (rpc : ReapRpc)

@[simp] theorem setRpc_rpcs (j : ℕ) :
    (s.setRpc id rpc).rpcs j = if j = id then rpc else s.rpcs j := by
  simp [setRpc, Function.update_apply]

@[simp] theorem setRpc_live : (s.setRpc id rpc).live = s.live := rfl
@[simp] theorem setRpc_skbs : (s.setRpc id rpc).skbs = s.skbs := rfl
@[simp] theorem setRpc_users : (s.setRpc id rpc).users = s.users := rfl
@[simp] theorem setRpc_nextSkb : (s.setRpc id rpc).nextSkb = s.nextSkb := rfl
@[simp] theorem setRpc_deadRpcs : (s.setRpc id rpc).deadRpcs = s.deadRpcs := rfl
@[simp] theorem setRpc_deadSkbs : (s.setRpc id rpc).deadSkbs = s.deadSkbs := rfl
@[simp] theorem setRpc_wmemAlloc : (s.setRpc id rpc).wmemAlloc = s.wmemAlloc := rfl
@[simp] theorem setRpc_protectCount : (s.setRpc id rpc).protectCount = s.protectCount := rfl
@[simp] theorem setRpc_freedSkbs : (s.setRpc id rpc).freedSkbs = s.freedSkbs := rfl

variable {s id}

theorem wmemSum_setRpc (hid : id ∈ s.live) :
    (s.setRpc id rpc).wmemSum = s.wmemSum + (rpc.wmemShare - (s.rpcs id).wmemShare) :=
  UpdateSum.finset_sum_update hid s.rpcs rpc ReapRpc.wmemShare

theorem deadSum_setRpc (hnd : s.deadRpcs.Nodup) (hid : id ∈ s.deadRpcs) :
    (s.setRpc id rpc).deadSum = s.deadSum + (rpc.deadCount - (s.rpcs id).deadCount) :=
  UpdateSum.list_sum_update hnd hid s.rpcs rpc ReapRpc.deadCount

theorem deadSum_setRpc_of_notMem (hid : id ∉ s.deadRpcs) : (s.setRpc id rpc).deadSum = s.deadSum :=
  UpdateSum.list_sum_update_of_notMem hid s.rpcs rpc ReapRpc.deadCount

namespace Inv

variable {s : ReapSock} {id : ℕ} {rpc : ReapRpc}

theorem lt_nextSkb (h : s.Inv) {skb j : ℕ} (hskb : s.skbs skb = .owned j) : skb < s.nextSkb := by
  by_contra hge
  rw [h.unborn skb (not_lt.1 hge)] at hskb
  cases hskb

theorem ne_nextSkb (h : s.Inv) (hid : id ∈ s.live) {skb : ℕ} (hskb : skb ∈ (s.rpcs id).chain) :
    skb ≠ s.nextSkb :=
  (h.lt_nextSkb (h.owned id hid skb hskb)).ne

theorem wf_setRpc (h : s.Inv) (hwf : rpc.Wf) : ∀ j ∈ s.live, ((s.setRpc id rpc).rpcs j).Wf := by
  intro j hj
  by_cases hji : j = id
  · simpa [hji] using hwf
  · simpa [hji] using h.wf j hj

theorem owned_setRpc (h : s.Inv) (hown : ∀ skb ∈ rpc.chain, s.skbs skb = .owned id) :
    ∀ j ∈ s.live, ∀ skb ∈ ((s.setRpc id rpc).rpcs j).chain, s.skbs skb = .owned j := by
  intro j hj skb hskb
  by_cases hji : j = id
  · subst hji
    simp only [setRpc_rpcs, if_true] at hskb
    exact hown skb hskb
  · simp only [setRpc_rpcs, hji, if_false] at hskb
    exact h.owned j hj skb hskb

theorem setRpcCharge (h : s.Inv) (hid : id ∈ s.live) (hwf : rpc.Wf)
    (hown : ∀ skb ∈ rpc.chain, s.skbs skb = .owned id) (hdead : rpc.dead = (s.rpcs id).dead)
    {w : ℤ} (hw : w = s.wmemAlloc + (rpc.wmemShare - (s.rpcs id).wmemShare)) :
    { s.setRpc id rpc with wmemAlloc := w }.Inv where
  wf := h.wf_setRpc hwf
  owned := h.owned_setRpc hown
  deadRpcs_nodup := h.deadRpcs_nodup
  mem_deadRpcs j := by
    by_cases hji : j = id
    · subst hji
      simpa [hdead] using h.mem_deadRpcs j
    · simpa [hji] using h.mem_deadRpcs j
  wmem := by
    show w = 1 + (s.setRpc id rpc).wmemSum
    rw [hw, wmemSum_setRpc rpc hid, h.wmem]
    ring
  unborn := h.unborn
  mem_freedSkbs := h.mem_freedSkbs
  freedSkbs_nodup := h.freedSkbs_nodup

theorem setRpc (h : s.Inv) (hid : id ∈ s.live) (hwf : rpc.Wf)
    (hown : ∀ skb ∈ rpc.chain, s.skbs skb = .owned id) (hdead : rpc.dead = (s.rpcs id).dead)
    (hshare : rpc.wmemShare = (s.rpcs id).wmemShare) : (s.setRpc id rpc).Inv :=
  h.setRpcCharge hid hwf hown hdead (w := s.wmemAlloc) (by rw [hshare, sub_self, add_zero])

theorem users (h : s.Inv) (u : ℕ → ℕ) : { s with users := u }.Inv :=
  ⟨h.1, h.2, h.3, h.4, h.5, h.6, h.7, h.8⟩

theorem deadSkbs (h : s.Inv) (d : ℤ) : { s with deadSkbs := d }.Inv :=
  ⟨h.1, h.2, h.3, h.4, h.5, h.6, h.7, h.8⟩

theorem homaRpcHold (h : s.Inv) (hid : id ∈ s.live) : (ReapSock.homaRpcHold id s).Inv :=
  h.setRpc hid (h.wf id hid).hold (h.owned id hid) rfl rfl

theorem homaRpcPut (h : s.Inv) (hid : id ∈ s.live)
    (hlt : (s.rpcs id).baseRefs < (s.rpcs id).refs) : (ReapSock.homaRpcPut id s).Inv :=
  h.setRpc hid ((h.wf id hid).put hlt) (h.owned id hid) rfl rfl

theorem homaMessageOutFillReturn (h : s.Inv) (hid : id ∈ s.live)
    (hfilled : (s.rpcs id).filled = false) : (ReapSock.homaMessageOutFillReturn id s).Inv :=
  h.setRpcCharge hid (h.wf id hid).fillReturn (h.owned id hid) rfl (by
    simp [ReapRpc.wmemShare, hfilled])

theorem allocSkb (h : s.Inv) (id : ℕ) :
    { s with nextSkb := s.nextSkb + 1, skbs := Function.update s.skbs s.nextSkb (.owned id) }.Inv where
  wf := h.wf
  owned j hj skb hskb := by
    show Function.update s.skbs s.nextSkb (.owned id) skb = .owned j
    rw [Function.update_of_ne (h.ne_nextSkb hj hskb)]
    exact h.owned j hj skb hskb
  deadRpcs_nodup := h.deadRpcs_nodup
  mem_deadRpcs := h.mem_deadRpcs
  wmem := h.wmem
  unborn skb hge := by
    have hge' : s.nextSkb + 1 ≤ skb := hge
    show Function.update s.skbs s.nextSkb (.owned id) skb = .unborn
    rw [Function.update_of_ne (by omega)]
    exact h.unborn skb (by omega)
  mem_freedSkbs skb := by
    show skb ∈ s.freedSkbs ↔ Function.update s.skbs s.nextSkb (.owned id) skb = .freed
    by_cases hskb : skb = s.nextSkb
    · subst hskb
      rw [Function.update_self, h.mem_freedSkbs, h.unborn _ le_rfl]
      simp
    · rw [Function.update_of_ne hskb, h.mem_freedSkbs]
  freedSkbs_nodup := h.freedSkbs_nodup

theorem skipSkb (h : s.Inv) : { s with nextSkb := s.nextSkb + 1 }.Inv :=
  ⟨h.1, h.2, h.3, h.4, h.5, fun skb hge => h.unborn skb (Nat.le_of_succ_le hge), h.7, h.8⟩

theorem freeSkbs (h : s.Inv) {l : List ℕ} (hl : l.Nodup)
    (hfree : ∀ skb ∈ l, skb < s.nextSkb ∧ s.skbs skb ≠ .freed ∧
      ∀ j ∈ s.live, skb ∉ (s.rpcs j).chain) :
    (homaSkbFreeManyTx l s).Inv where
  wf := h.wf
  owned j hj skb hskb := by
    have hnot : skb ∉ l := fun hmem => (hfree skb hmem).2.2 j hj hskb
    simp [homaSkbFreeManyTx, hnot, h.owned j hj skb hskb]
  deadRpcs_nodup := h.deadRpcs_nodup
  mem_deadRpcs := h.mem_deadRpcs
  wmem := h.wmem
  unborn skb hge := by
    have hnot : skb ∉ l := fun hmem => absurd (hfree skb hmem).1 (not_lt.2 hge)
    simp [homaSkbFreeManyTx, hnot, h.unborn skb hge]
  mem_freedSkbs skb := by
    by_cases hmem : skb ∈ l
    · simp [homaSkbFreeManyTx, hmem]
    · simp [homaSkbFreeManyTx, hmem, h.mem_freedSkbs]
  freedSkbs_nodup := by
    refine h.freedSkbs_nodup.append hl fun skb hfreed hmem => ?_
    exact (hfree skb hmem).2.1 ((h.mem_freedSkbs skb).1 hfreed)

theorem homaRpcEnd (h : s.Inv) (hid : id ∈ s.live) : (ReapSock.homaRpcEnd id s).Inv := by
  unfold ReapSock.homaRpcEnd
  split
  · exact h
  · rename_i hdead
    have hnot : id ∉ s.deadRpcs := fun hm => hdead ((h.mem_deadRpcs id).1 hm).2
    exact {
      wf := h.wf_setRpc (h.wf id hid).rpcEnd
      owned := h.owned_setRpc (h.owned id hid)
      deadRpcs_nodup := h.deadRpcs_nodup.append (List.nodup_singleton id) (by simpa using hnot)
      mem_deadRpcs := fun j => by
        by_cases hji : j = id
        · subst hji
          simp [hid]
        · simp [hji, h.mem_deadRpcs j]
      wmem := by
        show s.wmemAlloc = 1 + (s.setRpc id _).wmemSum
        rw [wmemSum_setRpc _ hid, h.wmem]
        simp [ReapRpc.wmemShare]
      unborn := h.unborn
      mem_freedSkbs := h.mem_freedSkbs
      freedSkbs_nodup := h.freedSkbs_nodup }

end Inv

end ReapSock

/-! ## The walks of the reaper -/

theorem reapChain_spec (batchSize : ℕ) (users : ℕ → ℕ) (n : ℕ) (l : List ℕ) :
    (reapChain batchSize users n l).taken ++ (reapChain batchSize users n l).rest = l ∧
      (∀ skb ∈ (reapChain batchSize users n l).taken, users skb ≤ 1) ∧
      ((reapChain batchSize users n l).walk = .done → (reapChain batchSize users n l).rest = []) := by
  induction l generalizing n with
  | nil => simp [reapChain]
  | cons skb rest ih =>
    unfold reapChain
    split_ifs with hbusy hfull
    · simp
    · simp
      omega
    · obtain ⟨htake, husers, hdone⟩ := ih (n + 1)
      refine ⟨by simp [htake], ?_, hdone⟩
      simp only [List.mem_cons, forall_eq_or_imp]
      exact ⟨by omega, husers⟩

theorem homaRpcReapTx_of_ne_done {batchSize : ℕ} {users : ℕ → ℕ} {n : ℕ} {toFree : List ℕ}
    (hw : (reapChain batchSize users n toFree).walk ≠ .done) (packets : List ℕ) :
    homaRpcReapTx batchSize users n toFree packets = (reapChain batchSize users n toFree, packets) := by
  cases hwalk : (reapChain batchSize users n toFree).walk
  · exact absurd hwalk hw
  · simp [homaRpcReapTx, hwalk]
  · simp [homaRpcReapTx, hwalk]

theorem homaRpcReapTx_of_done {batchSize : ℕ} {users : ℕ → ℕ} {n : ℕ} {toFree : List ℕ}
    (hw : (reapChain batchSize users n toFree).walk = .done) (packets : List ℕ) :
    homaRpcReapTx batchSize users n toFree packets =
      ({ reapChain batchSize users (n + (reapChain batchSize users n toFree).taken.length) packets with
          taken := (reapChain batchSize users n toFree).taken ++
            (reapChain batchSize users (n + (reapChain batchSize users n toFree).taken.length)
              packets).taken }, []) := by
  cases packets with
  | nil =>
    have hrest := (reapChain_spec batchSize users n toFree).2.2 hw
    simp only [homaRpcReapTx, hw, reapChain, List.append_nil]
    cases hc : reapChain batchSize users n toFree
    simp_all
  | cons skb rest => simp [homaRpcReapTx, hw]

theorem homaRpcReapTx_spec (batchSize : ℕ) (users : ℕ → ℕ) (n : ℕ) (toFree packets : List ℕ) :
    (homaRpcReapTx batchSize users n toFree packets).1.taken ++
        ((homaRpcReapTx batchSize users n toFree packets).1.rest ++
          (homaRpcReapTx batchSize users n toFree packets).2) = toFree ++ packets ∧
      (∀ skb ∈ (homaRpcReapTx batchSize users n toFree packets).1.taken, users skb ≤ 1) ∧
      ((homaRpcReapTx batchSize users n toFree packets).1.walk = .done →
        (homaRpcReapTx batchSize users n toFree packets).1.rest ++
          (homaRpcReapTx batchSize users n toFree packets).2 = []) := by
  obtain ⟨htake, husers, hdone⟩ := reapChain_spec batchSize users n toFree
  by_cases hw : (reapChain batchSize users n toFree).walk = .done
  · -- `to_free` ran out: the walk goes on along `packets`
    rw [homaRpcReapTx_of_done hw]
    obtain ⟨htake', husers', hdone'⟩ :=
      reapChain_spec batchSize users (n + (reapChain batchSize users n toFree).taken.length) packets
    refine ⟨?_, ?_, fun hw' => by simpa using hdone' hw'⟩
    · simp only [List.append_nil, List.append_assoc, htake']
      exact congrArg (· ++ packets) (by simpa [hdone hw] using htake)
    · simp only [List.mem_append]
      rintro skb (hskb | hskb)
      · exact husers skb hskb
      · exact husers' skb hskb
  · rw [homaRpcReapTx_of_ne_done hw]
    exact ⟨by rw [← List.append_assoc, htake], husers, fun hdone' => absurd hdone' hw⟩

theorem reapTx_spec {rpc : ReapRpc} (hwf : rpc.Wf) (batchSize : ℕ) (users : ℕ → ℕ) (n : ℕ) :
    rpc.chain = (reapTx batchSize users n rpc).1.taken ++
        ((reapTx batchSize users n rpc).1.rest ++ (reapTx batchSize users n rpc).2) ∧
      (∀ skb ∈ (reapTx batchSize users n rpc).1.taken, users skb ≤ 1) ∧
      ((reapTx batchSize users n rpc).1.walk = .done →
        (reapTx batchSize users n rpc).1.rest ++ (reapTx batchSize users n rpc).2 = []) := by
  unfold reapTx
  split
  · obtain ⟨htake, husers, hdone⟩ := homaRpcReapTx_spec batchSize users n rpc.toFree rpc.packets
    exact ⟨htake.symm, husers, hdone⟩
  · rename_i hneg
    have hnil := hwf.chain_of_neg (not_le.1 hneg)
    refine ⟨rfl, by simp, fun _ => hnil⟩

/-! ## One batch of the reaper

The collection loop changes the socket before the batch is freed; between
two RPCs of the loop, the state that the end of the batch would leave,
`homaRpcReapRelease b s`, keeps the invariant. -/

namespace ReapSock

theorem deadCount_afterWalk (rpc : ReapRpc) (tx : ChainWalk × List ℕ) :
    (rpc.afterWalk tx).deadCount = rpc.deadCount - tx.1.taken.length := by
  show rpc.numSkbs - tx.1.taken.length + rpc.rxSkbs = rpc.numSkbs + rpc.rxSkbs - tx.1.taken.length
  ring

theorem deadSum_setRpc_of_deadCount {s : ReapSock} {id : ℕ} {rpc : ReapRpc}
    (h : rpc.deadCount = (s.rpcs id).deadCount) : (s.setRpc id rpc).deadSum = s.deadSum := by
  unfold deadSum
  congr 1
  refine List.map_congr_left fun j _ => ?_
  by_cases hji : j = id
  · simp [hji, h]
  · simp [hji]

@[simp] theorem homaSkbFreeManyTx_drift (l : List ℕ) (s : ReapSock) :
    (homaSkbFreeManyTx l s).drift = s.drift := rfl

theorem homaRpcReapRelease_empty (s : ReapSock) : homaRpcReapRelease ⟨[], [], 0⟩ s = s := by
  ext <;> simp [homaRpcReapRelease, homaSkbFreeManyTx]

theorem homaRpcReapRelease_take (b : ReapBatch) (s : ReapSock) (id : ℕ) (rpc : ReapRpc)
    (taken : List ℕ) :
    homaRpcReapRelease { b with skbs := b.skbs ++ taken } (s.setRpc id rpc) =
      homaSkbFreeManyTx taken
        { (homaRpcReapRelease b s).setRpc id rpc with
          deadSkbs := (homaRpcReapRelease b s).deadSkbs - taken.length } := by
  ext skb
  all_goals simp [homaRpcReapRelease, homaSkbFreeManyTx, setRpc]
  · by_cases h₁ : skb ∈ taken <;> by_cases h₂ : skb ∈ b.skbs <;> simp [h₁, h₂]
  · ring

theorem homaRpcReapRelease_collect (b : ReapBatch) (s : ReapSock) (id : ℕ) :
    homaRpcReapRelease (reapRpcCollect id s b).2 (reapRpcCollect id s b).1 =
      { (homaRpcReapRelease b s).setRpc id (s.rpcs id).purgeRx with
        live := (homaRpcReapRelease b s).live.erase id
        deadRpcs := s.deadRpcs.erase id
        deadSkbs := (homaRpcReapRelease b s).deadSkbs - (s.rpcs id).rxSkbs
        wmemAlloc := s.wmemAlloc - (s.rpcs id).skbMemory } := by
  ext skb
  all_goals simp [homaRpcReapRelease, homaSkbFreeManyTx, reapRpcCollect, setRpc,
    Finset.sdiff_insert]
  · rfl
  · ring

namespace Inv

variable {s : ReapSock} {id : ℕ} {rpc : ReapRpc}

theorem takeSkbs (h : s.Inv) (hid : id ∈ s.live) (hwf : rpc.Wf) {taken : List ℕ}
    (hsplit : (s.rpcs id).chain = taken ++ rpc.chain) (hdead : rpc.dead = (s.rpcs id).dead)
    (hshare : rpc.wmemShare = (s.rpcs id).wmemShare) (d : ℤ) :
    (homaSkbFreeManyTx taken { s.setRpc id rpc with deadSkbs := d }).Inv := by
  have hnodup := (h.wf id hid).chain_nodup
  rw [hsplit] at hnodup
  have hmem : ∀ skb, skb ∈ taken ∨ skb ∈ rpc.chain → s.skbs skb = .owned id := fun skb hskb =>
    h.owned id hid skb (by rw [hsplit]; exact List.mem_append.2 hskb)
  have hcut := (h.setRpc hid hwf (fun skb hskb => hmem skb (.inr hskb)) hdead hshare).deadSkbs d
  refine hcut.freeSkbs hnodup.of_append_left fun skb hskb => ?_
  have hown := hmem skb (.inl hskb)
  refine ⟨h.lt_nextSkb hown, by simp [hown], fun j _ hj => ?_⟩
  by_cases hji : j = id
  · subst hji
    simp only [setRpc_rpcs, if_true] at hj
    exact List.disjoint_of_nodup_append hnodup hskb hj
  · simp only [setRpc_rpcs, hji, if_false] at hj
    have := h.owned j (by assumption) skb hj
    rw [hown] at this
    exact hji (SkbState.owned.inj this).symm

theorem collect (h : s.Inv) (hdead : id ∈ s.deadRpcs) (hchain : (s.rpcs id).chain = [])
    (hrefs : (s.rpcs id).refs ≤ 1) (d : ℤ) :
    { s.setRpc id (s.rpcs id).purgeRx with
        live := s.live.erase id
        deadRpcs := s.deadRpcs.erase id
        deadSkbs := d
        wmemAlloc := s.wmemAlloc - (s.rpcs id).skbMemory }.Inv where
  wf j hj := by
    obtain ⟨hji, hj⟩ := Finset.mem_erase.1 hj
    simpa [hji] using h.wf j hj
  owned j hj skb hskb := by
    obtain ⟨hji, hj⟩ := Finset.mem_erase.1 hj
    simp only [setRpc_rpcs, hji, if_false] at hskb
    exact h.owned j hj skb hskb
  deadRpcs_nodup := h.deadRpcs_nodup.erase id
  mem_deadRpcs j := by
    show j ∈ s.deadRpcs.erase id ↔ j ∈ s.live.erase id ∧ _
    by_cases hji : j = id
    · subst hji
      simp [h.deadRpcs_nodup.not_mem_erase]
    · simp [h.deadRpcs_nodup.mem_erase_iff, hji, h.mem_deadRpcs j]
  wmem := by
    have hid := ((h.mem_deadRpcs id).1 hdead).1
    have hshare := (h.wf id hid).wmemShare_of_refs hrefs
    have hrest : ∑ j ∈ s.live.erase id, ((s.setRpc id (s.rpcs id).purgeRx).rpcs j).wmemShare =
        ∑ j ∈ s.live.erase id, (s.rpcs j).wmemShare :=
      Finset.sum_congr rfl fun j hj => by simp [Finset.ne_of_mem_erase hj]
    show s.wmemAlloc - (s.rpcs id).skbMemory =
      1 + ∑ j ∈ s.live.erase id, ((s.setRpc id (s.rpcs id).purgeRx).rpcs j).wmemShare
    rw [hrest, h.wmem, wmemSum, ← Finset.add_sum_erase _ _ hid, hshare]
    ring
  unborn := h.unborn
  mem_freedSkbs := h.mem_freedSkbs
  freedSkbs_nodup := h.freedSkbs_nodup

end Inv

end ReapSock

namespace ReapSock

@[simp] theorem purgeRx_refs (rpc : ReapRpc) : rpc.purgeRx.refs = rpc.refs := by
  unfold ReapRpc.purgeRx
  split <;> rfl

@[simp] theorem purgeRx_chain (rpc : ReapRpc) : rpc.purgeRx.chain = rpc.chain := by
  unfold ReapRpc.purgeRx
  split <;> rfl

@[simp] theorem homaRpcReapRelease_rpcs (b : ReapBatch) (s : ReapSock) :
    (homaRpcReapRelease b s).rpcs = s.rpcs := rfl

@[simp] theorem homaRpcReapRelease_deadRpcs (b : ReapBatch) (s : ReapSock) :
    (homaRpcReapRelease b s).deadRpcs = s.deadRpcs := rfl

@[simp] theorem homaRpcReapRelease_live (b : ReapBatch) (s : ReapSock) :
    (homaRpcReapRelease b s).live = s.live \ b.rpcs.toFinset := rfl

@[simp] theorem homaRpcReapRelease_freedSkbs (b : ReapBatch) (s : ReapSock) :
    (homaRpcReapRelease b s).freedSkbs = s.freedSkbs ++ b.skbs := rfl

variable {s₀ s : ReapSock} {id : ℕ} {ids : List ℕ} {b : ReapBatch}

theorem drift_take (h : s.Inv) (hdead : id ∈ s.deadRpcs) (tx : ChainWalk × List ℕ) :
    (homaSkbFreeManyTx tx.1.taken
      { s.setRpc id ((s.rpcs id).afterWalk tx) with
        deadSkbs := s.deadSkbs - tx.1.taken.length }).drift = s.drift := by
  rw [homaSkbFreeManyTx_drift]
  show (s.setRpc id _).deadSum - (s.deadSkbs - _) = s.deadSum - s.deadSkbs
  rw [deadSum_setRpc _ h.deadRpcs_nodup hdead, deadCount_afterWalk]
  ring

theorem drift_collect (h : s.Inv) (hdead : id ∈ s.deadRpcs) (hchain : (s.rpcs id).chain = [])
    (w : ℤ) :
    { s.setRpc id (s.rpcs id).purgeRx with
        live := s.live.erase id
        deadRpcs := s.deadRpcs.erase id
        deadSkbs := s.deadSkbs - (s.rpcs id).rxSkbs
        wmemAlloc := w }.drift = s.drift := by
  have hid := ((h.mem_deadRpcs id).1 hdead).1
  have hnum : (s.rpcs id).numSkbs = 0 := by
    rw [(h.wf id hid).numSkbs, hchain]
    rfl
  have hrest : ((s.deadRpcs.erase id).map fun j => ((s.setRpc id (s.rpcs id).purgeRx).rpcs j).deadCount) =
      (s.deadRpcs.erase id).map fun j => (s.rpcs j).deadCount :=
    List.map_congr_left fun j hj => by simp [(h.deadRpcs_nodup.mem_erase_iff.1 hj).1]
  show ((s.deadRpcs.erase id).map fun j => ((s.setRpc id _).rpcs j).deadCount).sum -
      (s.deadSkbs - _) = s.deadSum - s.deadSkbs
  rw [hrest, deadSum, ← List.sum_map_erase _ hdead, ReapRpc.deadCount, hnum]
  ring

/-- What the collection loop keeps: the state the batch would leave keeps the
invariant, and every skb taken was unheld at the front of its chains. -/
structure CollectInv (s₀ : ReapSock) (ids : List ℕ) (s : ReapSock) (b : ReapBatch) : Prop where
  inv : (homaRpcReapRelease b s).Inv
  drift : (homaRpcReapRelease b s).drift = s₀.drift
  live : s.live = s₀.live
  users : s.users = s₀.users
  refs : ∀ id, (s.rpcs id).refs = (s₀.rpcs id).refs
  taken : ∀ id, ∃ pre, (s₀.rpcs id).chain = pre ++ (s.rpcs id).chain ∧
    ∀ skb ∈ pre, skb ∈ b.skbs ∧ s₀.users skb ≤ 1
  collected : ∀ id ∈ b.rpcs, (s.rpcs id).chain = [] ∧ (s₀.rpcs id).refs = 1
  ids_nodup : ids.Nodup
  ids_dead : ∀ id ∈ ids, id ∈ s.deadRpcs

namespace CollectInv

theorem start (h : s.Inv) : CollectInv s s.deadRpcs s ⟨[], [], 0⟩ where
  inv := by rw [homaRpcReapRelease_empty]; exact h
  drift := by rw [homaRpcReapRelease_empty]
  live := rfl
  users := rfl
  refs _ := rfl
  taken _ := ⟨[], rfl, by simp⟩
  collected := by simp
  ids_nodup := h.deadRpcs_nodup
  ids_dead _ hid := hid

theorem tail (hc : CollectInv s₀ (id :: ids) s b) : CollectInv s₀ ids s b :=
  { hc with
    ids_nodup := (List.nodup_cons.1 hc.ids_nodup).2
    ids_dead := fun j hj => hc.ids_dead j (List.mem_cons_of_mem id hj) }

theorem mem_live (hc : CollectInv s₀ (id :: ids) s b) : id ∈ (homaRpcReapRelease b s).live :=
  ((hc.inv.mem_deadRpcs id).1 (hc.ids_dead id List.mem_cons_self)).1

theorem take (hc : CollectInv s₀ (id :: ids) s b) {tx : ChainWalk × List ℕ}
    (hsplit : (s.rpcs id).chain = tx.1.taken ++ (tx.1.rest ++ tx.2))
    (husers : ∀ skb ∈ tx.1.taken, s.users skb ≤ 1) :
    CollectInv s₀ (id :: ids) (s.setRpc id ((s.rpcs id).afterWalk tx))
      { b with skbs := b.skbs ++ tx.1.taken } where
  inv := by
    rw [homaRpcReapRelease_take]
    exact hc.inv.takeSkbs hc.mem_live ((hc.inv.wf id hc.mem_live).afterWalk hsplit) hsplit rfl rfl _
  drift := by
    rw [homaRpcReapRelease_take]
    exact (drift_take hc.inv (hc.ids_dead id List.mem_cons_self) tx).trans hc.drift
  live := hc.live
  users := hc.users
  refs j := by
    by_cases hji : j = id
    · subst hji
      simpa [ReapRpc.afterWalk] using hc.refs j
    · simpa [hji] using hc.refs j
  taken j := by
    obtain ⟨pre, hpre, hmem⟩ := hc.taken j
    by_cases hji : j = id
    · subst hji
      refine ⟨pre ++ tx.1.taken, ?_, ?_⟩
      · simp only [setRpc_rpcs, if_true]
        rw [hpre, hsplit, List.append_assoc]
        rfl
      · intro skb hskb
        rcases List.mem_append.1 hskb with hskb | hskb
        · exact ⟨List.mem_append_left _ (hmem skb hskb).1, (hmem skb hskb).2⟩
        · exact ⟨List.mem_append_right _ hskb, hc.users ▸ husers skb hskb⟩
    · refine ⟨pre, by simpa [hji] using hpre, fun skb hskb => ?_⟩
      exact ⟨List.mem_append_left _ (hmem skb hskb).1, (hmem skb hskb).2⟩
  collected j hj := by
    have hji : j ≠ id := by
      rintro rfl
      have := hc.mem_live
      simp [hj] at this
    simpa [hji] using hc.collected j hj
  ids_nodup := hc.ids_nodup
  ids_dead := hc.ids_dead

theorem collect (hc : CollectInv s₀ (id :: ids) s b) (hchain : (s.rpcs id).chain = [])
    (hrefs : (s.rpcs id).refs ≤ 1) :
    CollectInv s₀ ids (reapRpcCollect id s b).1 (reapRpcCollect id s b).2 where
  inv := by
    rw [homaRpcReapRelease_collect]
    exact hc.inv.collect (hc.ids_dead id List.mem_cons_self) hchain hrefs _
  drift := by
    rw [homaRpcReapRelease_collect]
    exact (drift_collect hc.inv (hc.ids_dead id List.mem_cons_self) hchain _).trans hc.drift
  live := hc.live
  users := hc.users
  refs j := by
    by_cases hji : j = id
    · subst hji
      simpa [reapRpcCollect] using hc.refs j
    · simpa [reapRpcCollect, hji] using hc.refs j
  taken j := by
    obtain ⟨pre, hpre, hmem⟩ := hc.taken j
    by_cases hji : j = id
    · subst hji
      exact ⟨pre, by simpa [reapRpcCollect] using hpre, hmem⟩
    · exact ⟨pre, by simpa [reapRpcCollect, hji] using hpre, hmem⟩
  collected j hj := by
    simp only [reapRpcCollect, List.mem_append, List.mem_singleton] at hj
    by_cases hji : j = id
    · subst hji
      have hpos := ReapRpc.refs_pos (hc.inv.wf j hc.mem_live)
      refine ⟨by simpa [reapRpcCollect] using hchain, ?_⟩
      rw [← hc.refs j]
      simp only [homaRpcReapRelease_rpcs] at hpos
      omega
    · simpa [reapRpcCollect, hji] using hc.collected j (hj.resolve_right hji)
  ids_nodup := (List.nodup_cons.1 hc.ids_nodup).2
  ids_dead j hj := by
    have hji : j ≠ id := fun h => (List.nodup_cons.1 hc.ids_nodup).1 (h ▸ hj)
    exact (List.mem_erase_of_ne hji).2 (hc.ids_dead j (List.mem_cons_of_mem id hj))

theorem reapOne (batchSize : ℕ) (busy : List ℕ) (hc : CollectInv s₀ (id :: ids) s b) :
    CollectInv s₀ ids (homaRpcReapOne batchSize busy id s b).1
      (homaRpcReapOne batchSize busy id s b).2.1 := by
  have hwf : (s.rpcs id).Wf := hc.inv.wf id hc.mem_live
  obtain ⟨hsplit, husers, hdone⟩ := reapTx_spec hwf batchSize s.users b.skbs.length
  have ht := hc.take hsplit husers
  unfold homaRpcReapOne
  split_ifs with hskip
  · exact hc.tail
  · dsimp only
    split
    · exact ht.tail
    · exact ht.tail
    · rename_i hw
      refine ht.collect ?_ ?_
      · simpa [ReapRpc.afterWalk, ReapRpc.chain] using hdone hw
      · simp only [not_or, not_lt] at hskip
        simpa [ReapRpc.afterWalk] using hskip.2

theorem collectLoop (batchSize : ℕ) (busy : List ℕ) (hc : CollectInv s₀ ids s b) :
    ∃ ids', CollectInv s₀ ids' (homaRpcReapCollect batchSize busy ids s b).1
      (homaRpcReapCollect batchSize busy ids s b).2.1 := by
  induction ids generalizing s b with
  | nil => exact ⟨[], hc⟩
  | cons id ids ih =>
    have hone := hc.reapOne batchSize busy
    simp only [homaRpcReapCollect]
    split
    · exact ih hone
    · exact ⟨ids, hone⟩

end CollectInv

/-- Every RPC freed between `s` and `s'` had one reference left in `s`, and
the skbs of its chains, none of them held by anyone else, are freed in
`s'`. -/
def FreesSafely (s s' : ReapSock) : Prop :=
  ∀ id ∈ s.live, id ∉ s'.live → (s.rpcs id).refs = 1 ∧
    ∀ skb ∈ (s.rpcs id).chain, s.users skb ≤ 1 ∧ skb ∈ s'.freedSkbs

theorem Inv.homaRpcReapBatch (h : s.Inv) (batchSize : ℕ) (busy : List ℕ) :
    (homaRpcReapBatch batchSize busy s).1.Inv ∧
      (homaRpcReapBatch batchSize busy s).1.drift = s.drift ∧
      FreesSafely s (homaRpcReapBatch batchSize busy s).1 := by
  unfold ReapSock.homaRpcReapBatch
  split
  · exact ⟨h, rfl, fun id hid hout => absurd hid hout⟩
  · obtain ⟨ids', hc⟩ := (CollectInv.start h).collectLoop batchSize busy
    refine ⟨hc.inv, hc.drift, fun id hid hout => ?_⟩
    have hb : id ∈ (homaRpcReapCollect batchSize busy s.deadRpcs s ⟨[], [], 0⟩).2.1.rpcs := by
      simpa [hc.live, hid] using hout
    obtain ⟨hnil, hrefs⟩ := hc.collected id hb
    obtain ⟨pre, hpre, hmem⟩ := hc.taken id
    rw [hnil, List.append_nil] at hpre
    refine ⟨hrefs, fun skb hskb => ?_⟩
    rw [hpre] at hskb
    exact ⟨(hmem skb hskb).2, by simp [(hmem skb hskb).1]⟩

end ReapSock

/-! ## Every step -/

namespace ReapSock

/-- `s'` keeps the invariant, the drift and the live RPCs of `s`. -/
structure Steady (s s' : ReapSock) : Prop where
  inv : s'.Inv
  drift : s'.drift = s.drift
  live : s'.live = s.live

theorem Steady.trans {s₁ s₂ s₃ : ReapSock} (h₁ : Steady s₁ s₂) (h₂ : Steady s₂ s₃) :
    Steady s₁ s₃ :=
  ⟨h₂.inv, h₂.drift.trans h₁.drift, h₂.live.trans h₁.live⟩

variable {s : ReapSock} {id : ℕ} {rpc : ReapRpc}

theorem drift_setRpc_of_deadCount (h : rpc.deadCount = (s.rpcs id).deadCount) :
    (s.setRpc id rpc).drift = s.drift := by
  unfold drift
  rw [deadSum_setRpc_of_deadCount h, setRpc_deadSkbs]

theorem steady_users (h : s.Inv) (u : ℕ → ℕ) : Steady s { s with users := u } :=
  ⟨h.users u, rfl, rfl⟩

theorem steady_homaRpcHold (h : s.Inv) (hid : id ∈ s.live) : Steady s (homaRpcHold id s) :=
  ⟨h.homaRpcHold hid, drift_setRpc_of_deadCount rfl, rfl⟩

theorem steady_homaRpcPut (h : s.Inv) (hid : id ∈ s.live)
    (hlt : (s.rpcs id).baseRefs < (s.rpcs id).refs) : Steady s (homaRpcPut id s) :=
  ⟨h.homaRpcPut hid hlt, drift_setRpc_of_deadCount rfl, rfl⟩

theorem steady_homaMessageOutFillReturn (h : s.Inv) (hid : id ∈ s.live)
    (hfilled : (s.rpcs id).filled = false) : Steady s (homaMessageOutFillReturn id s) :=
  ⟨h.homaMessageOutFillReturn hid hfilled, drift_setRpc_of_deadCount rfl, rfl⟩

theorem steady_fillReturn_put (h : s.Inv) (hid : id ∈ s.live)
    (hfill : (s.rpcs id).filling = true) :
    Steady s (homaRpcPut id (homaMessageOutFillReturn id s)) := by
  have hwf := h.wf id hid
  have h₁ := steady_homaMessageOutFillReturn h hid (hwf.filled_of_filling hfill)
  refine h₁.trans (steady_homaRpcPut h₁.inv hid ?_)
  have := hwf.refs
  simp only [ReapRpc.baseRefs, hfill, if_true] at this
  simp [homaMessageOutFillReturn, ReapRpc.baseRefs]
  omega

theorem putAfterFill_of_filling (h : (s.rpcs id).filling = true) : ReapOp.putAfterFill id s = s := by
  simp [ReapOp.putAfterFill, h]

theorem putAfterFill_of_not_filling (h : (s.rpcs id).filling = false) :
    ReapOp.putAfterFill id s = homaRpcPut id s := by
  simp [ReapOp.putAfterFill, h]

theorem steady_fillStart (h : s.Inv) (hid : id ∈ s.live) (hfill : (s.rpcs id).filling = false)
    (hfilled : (s.rpcs id).filled = false) (length : ℕ) :
    Steady s (ReapOp.putAfterFill id (homaMessageOutFillStart id length (homaRpcHold id s))) := by
  have hwf := h.wf id hid
  have h₁ := steady_homaRpcHold h hid
  unfold homaMessageOutFillStart
  split_ifs with hlen
  · -- the length is refused: the fill returns at once
    have h₂ := steady_homaMessageOutFillReturn h₁.inv hid (by simpa [homaRpcHold] using hfilled)
    rw [putAfterFill_of_not_filling (by simp [homaMessageOutFillReturn])]
    refine h₁.trans (h₂.trans (steady_homaRpcPut h₂.inv hid ?_))
    simp [homaMessageOutFillReturn, homaRpcHold, ReapRpc.baseRefs]
    exact ReapRpc.refs_pos hwf
  · -- `homa_message_out_init`, with the chains still empty
    have hchain := hwf.chain_of_neg (hwf.unstarted hfill hfilled).1
    have hnum : (s.rpcs id).numSkbs = 0 := by rw [hwf.numSkbs, hchain]; rfl
    have hlen' : (0 : ℤ) < length := by omega
    rw [putAfterFill_of_filling (by simp)]
    refine h₁.trans ⟨h₁.inv.setRpc hid (ReapRpc.Wf.fillStart (by simpa [homaRpcHold] using hfilled)
      (by simpa [homaRpcHold] using Nat.succ_le_succ (ReapRpc.refs_pos hwf)) hlen')
      (by simp [ReapRpc.chain, ReapRpc.homaMessageOutInit]) rfl
      (by simp [ReapRpc.wmemShare, homaRpcHold, hfilled, ReapRpc.homaMessageOutInit]),
      drift_setRpc_of_deadCount ?_, rfl⟩
    simp [ReapRpc.deadCount, ReapRpc.homaMessageOutInit, ReapRpc.rxSkbs, homaRpcHold, hnum]

theorem steady_fillAppend (h : s.Inv) (hid : id ∈ s.live) (hfill : (s.rpcs id).filling = true)
    (truesize : ℕ) :
    Steady s (ReapOp.putAfterFill id (homaMessageOutFillAppend id truesize s)) := by
  have hwf := h.wf id hid
  unfold homaMessageOutFillAppend
  split_ifs with hdead
  · -- the RPC died while the skb was built: free it and return
    have h₁ : Steady s { s with nextSkb := s.nextSkb + 1 } := ⟨h.skipSkb, rfl, rfl⟩
    have h₂ : Steady s (homaSkbFreeManyTx [s.nextSkb] { s with nextSkb := s.nextSkb + 1 }) := by
      refine h₁.trans ⟨h₁.inv.freeSkbs (List.nodup_singleton _) ?_, rfl, rfl⟩
      intro skb hskb
      rw [List.mem_singleton] at hskb
      subst hskb
      refine ⟨Nat.lt_succ_self _, by simp [h.unborn _ le_rfl], fun j hj hmem => ?_⟩
      exact h.ne_nextSkb hj hmem rfl
    rw [putAfterFill_of_not_filling (by simp [homaMessageOutFillReturn])]
    exact h₂.trans (steady_fillReturn_put h₂.inv hid hfill)
  · -- the skb goes at the end of `packets`
    have hskb : s.nextSkb ∉ (s.rpcs id).chain := fun hmem => h.ne_nextSkb hid hmem rfl
    have hnot : id ∉ s.deadRpcs := fun hm => hdead ((h.mem_deadRpcs id).1 hm).2
    rw [putAfterFill_of_filling (by simp [hfill])]
    refine ⟨((h.allocSkb id).setRpc hid (hwf.append hfill hskb truesize) (fun skb hmem => ?_) rfl
      ?_).users (Function.update s.users s.nextSkb 1), ?_, rfl⟩
    · show Function.update s.skbs s.nextSkb (.owned id) skb = .owned id
      rcases List.mem_append.1 (show skb ∈ (s.rpcs id).chain ++ [s.nextSkb] by
        simpa [ReapRpc.chain] using hmem) with hold | hnew
      · rw [Function.update_of_ne (h.ne_nextSkb hid hold)]
        exact h.owned id hid skb hold
      · rw [List.mem_singleton.1 hnew, Function.update_self]
    · simp [ReapRpc.wmemShare, hwf.filled_of_filling hfill]
    · show (s.setRpc id _).deadSum - s.deadSkbs = s.deadSum - s.deadSkbs
      rw [deadSum_setRpc_of_notMem _ hnot]

theorem steady_homaRpcEnd (h : s.Inv) (hid : id ∈ s.live) : Steady s (homaRpcEnd id s) := by
  refine ⟨h.homaRpcEnd hid, ?_, ?_⟩
  · unfold homaRpcEnd
    split
    · rfl
    · show ((s.deadRpcs ++ [id]).map fun j => ((s.setRpc id _).rpcs j).deadCount).sum -
          (s.deadSkbs + _ + _) = s.deadSum - s.deadSkbs
      rw [List.map_append, List.sum_append]
      have hsum : (s.deadRpcs.map fun j => ((s.setRpc id { s.rpcs id with dead := true }).rpcs j).deadCount).sum = s.deadSum :=
        deadSum_setRpc_of_deadCount rfl
      rw [hsum]
      simp only [List.map_cons, List.map_nil, List.sum_cons, List.sum_nil, setRpc_rpcs, if_true,
        ReapRpc.deadCount, ReapRpc.rxSkbs]
      ring
  · unfold homaRpcEnd
    split <;> rfl

theorem resend_spec (h : s.Inv) (hid : id ∈ s.live) (hlen : 0 ≤ (s.rpcs id).outLength) :
    (homaResendDataSkb id s).Inv ∧
      (homaResendDataSkb id s).drift = s.drift + (if (s.rpcs id).dead then 1 else 0) ∧
      (homaResendDataSkb id s).live = s.live := by
  have hwf := h.wf id hid
  have hskb : s.nextSkb ∉ (s.rpcs id).chain := fun hmem => h.ne_nextSkb hid hmem rfl
  refine ⟨((h.allocSkb id).setRpc hid (hwf.resend hlen hskb) (fun skb hmem => ?_) rfl rfl).users
    (Function.update s.users s.nextSkb 2), ?_, rfl⟩
  · show Function.update s.skbs s.nextSkb (.owned id) skb = .owned id
    rcases List.mem_cons.1 (show skb ∈ s.nextSkb :: (s.rpcs id).chain from hmem) with hnew | hold
    · rw [hnew, Function.update_self]
    · rw [Function.update_of_ne (h.ne_nextSkb hid hold)]
      exact h.owned id hid skb hold
  · show (s.setRpc id _).deadSum - s.deadSkbs = s.deadSum - s.deadSkbs + _
    split_ifs with hdead
    · rw [deadSum_setRpc _ h.deadRpcs_nodup ((h.mem_deadRpcs id).2 ⟨hid, hdead⟩)]
      simp only [ReapRpc.deadCount, ReapRpc.rxSkbs]
      ring
    · have hnot : id ∉ s.deadRpcs := fun hm => hdead ((h.mem_deadRpcs id).1 hm).2
      rw [deadSum_setRpc_of_notMem _ hnot, add_zero]

end ReapSock

namespace ReapOp

open ReapSock

variable {s s' : ReapSock}

/-- What one step does to the accounting: the invariant holds after it,
the drift grows only by a retransmit into a dead RPC, and every RPC it
frees is freed safely. -/
theorem step_spec {op : ReapOp} (h : s.Inv) (hs : op.step s = some s') :
    s'.Inv ∧ s.drift ≤ s'.drift ∧ (op.SparesDead s → s'.drift = s.drift) ∧ FreesSafely s s' := by
  -- every step but a retransmit and a batch of the reaper is steady
  have ofSteady : Steady s s' →
      s'.Inv ∧ s.drift ≤ s'.drift ∧ (op.SparesDead s → s'.drift = s.drift) ∧ FreesSafely s s' :=
    fun hst => ⟨hst.inv, hst.drift.ge, fun _ => hst.drift,
      fun id hid hout => absurd (hst.live ▸ hid) hout⟩
  cases op with
  | fillStart id length =>
    obtain ⟨⟨hid, hfill, hfilled⟩, hs⟩ := Option.ite_none_right_eq_some.1 hs
    cases hs
    exact ofSteady (steady_fillStart h hid hfill hfilled length)
  | fillAppend id truesize =>
    obtain ⟨⟨hid, hfill⟩, hs⟩ := Option.ite_none_right_eq_some.1 hs
    cases hs
    exact ofSteady (steady_fillAppend h hid hfill truesize)
  | fillReturn id =>
    obtain ⟨⟨hid, hfill⟩, hs⟩ := Option.ite_none_right_eq_some.1 hs
    cases hs
    exact ofSteady (steady_fillReturn_put h hid hfill)
  | resend id =>
    obtain ⟨⟨hid, hlen, -⟩, hs⟩ := Option.ite_none_right_eq_some.1 hs
    cases hs
    obtain ⟨hinv, hdrift, hlive⟩ := resend_spec h hid hlen
    refine ⟨hinv, ?_, fun hspare => ?_, fun j hj hout => absurd (hlive ▸ hj) hout⟩
    · rw [hdrift]
      split_ifs <;> omega
    · simp only [SparesDead] at hspare
      simp [hdrift, hspare]
  | xmit id skb =>
    obtain ⟨-, hs⟩ := Option.ite_none_right_eq_some.1 hs
    cases hs
    exact ofSteady (steady_users h _)
  | txComplete skb =>
    obtain ⟨-, hs⟩ := Option.ite_none_right_eq_some.1 hs
    cases hs
    exact ofSteady (steady_users h _)
  | hold id =>
    obtain ⟨hid, hs⟩ := Option.ite_none_right_eq_some.1 hs
    cases hs
    exact ofSteady (steady_homaRpcHold h hid)
  | put id =>
    obtain ⟨⟨hid, hlt⟩, hs⟩ := Option.ite_none_right_eq_some.1 hs
    cases hs
    exact ofSteady (steady_homaRpcPut h hid hlt)
  | rpcEnd id =>
    obtain ⟨hid, hs⟩ := Option.ite_none_right_eq_some.1 hs
    cases hs
    exact ofSteady (steady_homaRpcEnd h hid)
  | reap batchSize busy =>
    obtain ⟨-, hs⟩ := Option.ite_none_right_eq_some.1 hs
    cases hs
    obtain ⟨hinv, hdrift, hfrees⟩ := h.homaRpcReapBatch batchSize busy
    exact ⟨hinv, hdrift.ge, fun _ => hdrift, hfrees⟩

theorem exec_append (ops ops' : List ReapOp) (s : ReapSock) :
    exec (ops ++ ops') s = (exec ops s).bind (exec ops') := by
  induction ops generalizing s with
  | nil => rfl
  | cons op ops ih => simp [exec, ih, Option.bind_assoc]

theorem exec_run {ok : ReapSock → ReapOp → Prop} {ops : List ReapOp}
    (hok : ∀ s₁ op, op ∈ ops → ok s₁ op) (h : exec ops s = some s') : ReapRun ok s s' := by
  induction ops generalizing s with
  | nil =>
    cases h
    exact .refl _
  | cons op ops ih =>
    obtain ⟨s₁, hs₁, hrest⟩ := Option.bind_eq_some_iff.1 h
    exact .step op (hok s op List.mem_cons_self) hs₁
      (ih (fun s₂ op' hop => hok s₂ op' (List.mem_cons_of_mem op hop)) hrest)

end ReapOp

namespace ReapRun

open ReapSock

variable {ok : ReapSock → ReapOp → Prop} {s s' : ReapSock}

theorem trans {s'' : ReapSock} (h₁ : ReapRun ok s s') (h₂ : ReapRun ok s' s'') :
    ReapRun ok s s'' := by
  induction h₁ with
  | refl => exact h₂
  | step op hok hs _ ih => exact .step op hok hs (ih h₂)

theorem inv (hrun : ReapRun ok s s') : s.Inv → s'.Inv ∧ s.drift ≤ s'.drift := by
  induction hrun with
  | refl => exact fun h => ⟨h, le_rfl⟩
  | step op _ hs _ ih =>
    intro h
    obtain ⟨hinv, hle, -, -⟩ := ReapOp.step_spec h hs
    obtain ⟨hinv', hle'⟩ := ih hinv
    exact ⟨hinv', hle.trans hle'⟩

theorem drift_eq (hrun : ReapRun ReapOp.SparesDead s s') : s.Inv → s'.drift = s.drift := by
  induction hrun with
  | refl => exact fun _ => rfl
  | step op hok hs _ ih =>
    intro h
    obtain ⟨hinv, -, heq, -⟩ := ReapOp.step_spec h hs
    rw [ih hinv, heq hok]

end ReapRun

theorem ReapRpc.new_wf (inLength : ℤ) (inPackets : ℕ) : (ReapRpc.new inLength inPackets).Wf where
  numSkbs := rfl
  chain_nodup := List.nodup_nil
  refs := le_rfl
  filled_of_filling h := by cases h
  outLength_of_filling h := by cases h
  unstarted _ _ := ⟨show (-1 : ℤ) < 0 by decide, rfl⟩
  chain_of_neg _ := rfl

namespace ReapSock.Init

variable {s : ReapSock}

theorem inv (h : s.Init) : s.Inv where
  wf id hid := by
    obtain ⟨inLength, inPackets, hrpc⟩ := h.rpcs id hid
    rw [hrpc]
    exact ReapRpc.new_wf inLength inPackets
  owned id hid skb hskb := by
    obtain ⟨inLength, inPackets, hrpc⟩ := h.rpcs id hid
    rw [hrpc] at hskb
    cases hskb
  deadRpcs_nodup := by rw [h.deadRpcs]; exact List.nodup_nil
  mem_deadRpcs id := by
    rw [h.deadRpcs]
    constructor
    · intro hmem
      cases hmem
    · rintro ⟨hid, hdead⟩
      obtain ⟨inLength, inPackets, hrpc⟩ := h.rpcs id hid
      rw [hrpc] at hdead
      cases hdead
  wmem := by
    rw [h.wmemAlloc, wmemSum, Finset.sum_eq_zero fun id hid => ?_, add_zero]
    obtain ⟨inLength, inPackets, hrpc⟩ := h.rpcs id hid
    rw [hrpc]
    rfl
  unborn skb _ := h.skbs skb
  mem_freedSkbs skb := by simp [h.freedSkbs, h.skbs skb]
  freedSkbs_nodup := by rw [h.freedSkbs]; exact List.nodup_nil

theorem drift (h : s.Init) : s.drift = 0 := by
  simp [ReapSock.drift, deadSum, h.deadRpcs, h.deadSkbs]

end ReapSock.Init

/-- A socket with one client RPC and nothing sent yet. -/
def oneRpcSock : ReapSock where
  rpcs _ := ReapRpc.new (-1) 0
  live := {0}
  skbs _ := .unborn
  users _ := 0
  nextSkb := 0
  deadRpcs := []
  deadSkbs := 0
  wmemAlloc := 1
  protectCount := 0
  freedSkbs := []

/-- A RESEND handled while the batch of `homa_dispatch_pkts` has dropped the
lock retransmits into an RPC another thread has ended. -/
def deadResendRun : List ReapOp :=
  [.fillStart 0 1000, .fillAppend 0 2000, .fillReturn 0, .hold 0, .rpcEnd 0, .resend 0, .put 0,
    .txComplete 1, .reap batchMax []]

/-- The accounting of dead RPCs over every run from a socket whose RPCs
were just allocated: `num_skbs` counts the skbs on both chains,
`dead_skbs` is at most the skbs of the RPCs on `dead_rpcs`,
`sk_wmem_alloc - 1` is the skb memory of the live RPCs whose fill has
returned, no skb has been freed twice, and any next step frees only RPCs
with one reference left, with all their skbs freed and none in flight. -/
theorem homaRpcReap_accounting {s₀ s : ReapSock} (h0 : s₀.Init)
    (hrun : ReapRun (fun _ _ => True) s₀ s) :
    (∀ id ∈ s.live, (s.rpcs id).numSkbs =
      ((s.rpcs id).packets.length + (s.rpcs id).toFree.length : ℤ)) ∧
    s.deadSkbs ≤ (s.deadRpcs.map fun id => (s.rpcs id).numSkbs + (s.rpcs id).rxSkbs).sum ∧
    s.wmemAlloc - 1 = ∑ id ∈ s.live with (s.rpcs id).filled = true, (s.rpcs id).skbMemory ∧
    s.freedSkbs.Nodup ∧
    ∀ (op : ReapOp) s', op.step s = some s' → ReapSock.FreesSafely s s' := by
  obtain ⟨h, hdrift⟩ := hrun.inv h0.inv
  rw [h0.drift] at hdrift
  refine ⟨fun id hid => ?_, ?_, ?_, h.freedSkbs_nodup, fun op s' hs => (ReapOp.step_spec h hs).2.2.2⟩
  · rw [(h.wf id hid).numSkbs, ReapRpc.chain, List.length_append]
    push_cast
    ring
  · have : 0 ≤ s.deadSum - s.deadSkbs := hdrift
    unfold ReapSock.deadSum at this
    simp only [ReapRpc.deadCount] at this
    omega
  · rw [h.wmem, ReapSock.wmemSum, Finset.sum_filter]
    simp [ReapRpc.wmemShare]

theorem oneRpcSock_init : oneRpcSock.Init :=
  ⟨fun _ _ => ⟨-1, 0, rfl⟩, fun _ => rfl, rfl, rfl, rfl, rfl⟩

theorem homaRpcReap_accounting_deadResend :
    oneRpcSock.Init ∧ ∃ s, ReapRun (fun _ _ => True) oneRpcSock s ∧
      s.deadSkbs ≤ (s.deadRpcs.map fun id => (s.rpcs id).numSkbs + (s.rpcs id).rxSkbs).sum ∧
      s.freedSkbs.Nodup := by
  have hexec : (ReapOp.exec deadResendRun oneRpcSock).isSome = true := by
    decide
  obtain ⟨s, hs⟩ := Option.isSome_iff_exists.mp hexec
  have hrun : ReapRun (fun _ _ => True) oneRpcSock s := ReapOp.exec_run (fun _ _ _ => trivial) hs
  obtain ⟨-, hle, -, hnodup, -⟩ := homaRpcReap_accounting oneRpcSock_init hrun
  exact ⟨oneRpcSock_init, s, hrun, hle, hnodup⟩

/-- Where no retransmit goes to a dead RPC, `dead_skbs` is exactly the
number of skbs of the RPCs on `dead_rpcs`. -/
theorem homaRpcReap_deadSkbs {s₀ s : ReapSock} (h0 : s₀.Init) (hrun : ReapRun ReapOp.SparesDead s₀ s) :
    s.deadSkbs = (s.deadRpcs.map fun id => (s.rpcs id).numSkbs + (s.rpcs id).rxSkbs).sum := by
  have hdrift := hrun.drift_eq h0.inv
  rw [h0.drift] at hdrift
  have : s.deadSum - s.deadSkbs = 0 := hdrift
  unfold ReapSock.deadSum at this
  simp only [ReapRpc.deadCount] at this
  omega

/-- `homa_sendmsg` sends a request of 1000 bytes in one skb. -/
def requestFill : List ReapOp :=
  [.fillStart 0 1000, .fillAppend 0 2000, .fillReturn 0]

theorem homaRpcReap_deadSkbs_liveResend :
    oneRpcSock.Init ∧ ∃ s, ReapRun ReapOp.SparesDead oneRpcSock s ∧ s.deadRpcs = [0] ∧
      s.deadSkbs = (s.deadRpcs.map fun id => (s.rpcs id).numSkbs + (s.rpcs id).rxSkbs).sum := by
  have hfill : (ReapOp.exec requestFill oneRpcSock).map (fun s => (s.rpcs 0).dead) = some false := by
    decide
  obtain ⟨s₁, hs₁, hlive⟩ := Option.map_eq_some_iff.1 hfill
  have hall : (ReapOp.exec (requestFill ++ [.resend 0, .rpcEnd 0]) oneRpcSock).map
      (·.deadRpcs) = some [0] := by
    decide
  obtain ⟨s, hs, hdead⟩ := Option.map_eq_some_iff.1 hall
  rw [ReapOp.exec_append, hs₁, Option.bind_some, ReapOp.exec] at hs
  obtain ⟨s₂, hs₂, hend⟩ := Option.bind_eq_some_iff.1 hs
  -- no operation but the RESEND asks anything of the state it is taken in
  have hfillRun : ReapRun ReapOp.SparesDead oneRpcSock s₁ :=
    ReapOp.exec_run (fun _ op hop => by
      simp only [requestFill, List.mem_cons, List.not_mem_nil, or_false] at hop
      rcases hop with rfl | rfl | rfl <;> trivial) hs₁
  have hendRun : ReapRun ReapOp.SparesDead s₂ s :=
    ReapOp.exec_run (fun _ op hop => by
      rw [List.mem_singleton] at hop
      subst hop
      trivial) hend
  have hrun : ReapRun ReapOp.SparesDead oneRpcSock s :=
    hfillRun.trans (.step (.resend 0) hlive hs₂ hendRun)
  exact ⟨oneRpcSock_init, s, hrun, hdead, homaRpcReap_deadSkbs oneRpcSock_init hrun⟩

/-- After `deadResendRun` no RPC is left, dead or alive, but `dead_skbs`
is `-1`. -/
theorem homaResendData_dead_rpc_skews_deadSkbs :
    oneRpcSock.Init ∧ ∃ s, ReapRun (fun _ _ => True) oneRpcSock s ∧
      s.live = ∅ ∧ s.deadRpcs = [] ∧ s.deadSkbs = -1 := by
  have hexec : (ReapOp.exec deadResendRun oneRpcSock).map
      (fun s => (s.live, s.deadRpcs, s.deadSkbs)) = some (∅, [], -1) := by
    decide
  obtain ⟨s, hs, hval⟩ := Option.map_eq_some_iff.1 hexec
  simp only [Prod.mk.injEq] at hval
  refine ⟨oneRpcSock_init, s, ReapOp.exec_run (fun _ _ _ => trivial) hs, hval⟩

end Homa
