import Homa.SortedList
import Homa.Pool

/-!
# The grant scheduler

`homa_grant.c` decides which incoming messages get grants.  Up to
`max_overcommit` messages are active, in `grant->active_rpcs` ordered by
`homa_grant_outranks` (fewer ungranted bytes, then the older message), at
most `max_rpcs_per_peer` of them from one peer; the others wait on their
peer's `grantable_rpcs`, and those peers on `grant->grantable_peers`.

The RPCs, peers and `struct homa_grant` are one state, `GrantSys`.  An
intrusive list is the list of the ids on it, and `active_rpcs` the list of
its first `num_active_rpcs` slots, `renumber` giving each moved entry its
slot as rank.  The `int` arithmetic wraps as the kernel's does.
-/

namespace Homa

open MachineArith SortedList

/-- `HOMA_MAX_GRANTS`: the size of `active_rpcs`. -/
def homaMaxGrants : ℤ := 10

/-- The grant fields of an RPC: its peer and whether `state == RPC_DEAD`, and
the fields of `rpc->msgin` that the grant code reads and writes. -/
structure GrantRpc where
  peer : ℕ
  length : ℤ
  bytesRemaining : ℤ
  granted : ℤ
  recIncoming : ℤ
  rank : ℤ
  birth : ℕ
  numBpages : ℤ
  silentTicks : ℤ
  dead : Bool
  deriving DecidableEq, Repr

/-- An RPC as `homa_rpc_alloc_client` and `homa_rpc_alloc_server` create
it: zeroed, with `msgin.length = -1`. -/
def GrantRpc.alloc (peer : ℕ) : GrantRpc :=
  { peer, length := -1, bytesRemaining := 0, granted := 0, recIncoming := 0, rank := 0,
    birth := 0, numBpages := 0, silentTicks := 0, dead := false }

/-- The grant fields of `struct homa_peer`. -/
structure GrantPeer where
  grantableRpcs : List ℕ
  activeRpcs : ℤ
  deriving DecidableEq, Repr

/-- The sysctl-settable values the grant code reads (`max_sched_prio` lives
in `struct homa`). -/
structure GrantConfig where
  maxIncoming : ℤ
  windowParam : ℤ
  maxRpcsPerPeer : ℤ
  maxOvercommit : ℤ
  fifoGrantIncrement : ℤ
  fifoFraction : ℤ
  maxSchedPrio : ℤ
  deriving DecidableEq, Repr

/-- The values `homa_grant_alloc` sets, with `max_sched_prio` at its
default. -/
def GrantConfig.default : GrantConfig :=
  { maxIncoming := 400000, windowParam := 10000, maxRpcsPerPeer := 1, maxOvercommit := 8,
    fifoGrantIncrement := 50000, fifoFraction := 50, maxSchedPrio := 7 }

/-- The state of `struct homa_grant`; `active_rpcs[0 .. num_active_rpcs)` is
`activeRpcs`. -/
structure Grant where
  activeRpcs : List ℕ
  grantablePeers : List ℕ
  numGrantableRpcs : ℤ
  totalIncoming : ℤ
  stalledRank : ℤ
  window : ℤ
  oldestRpc : Option ℕ
  deriving DecidableEq, Repr

/-- The grant state with the RPCs and peers it links; `live` are the RPCs
that exist (allocated and not yet reaped). -/
structure GrantSys where
  grant : Grant
  peers : ℕ → GrantPeer
  rpcs : ℕ → GrantRpc
  live : Finset ℕ

namespace GrantSys

def setRpc (s : GrantSys) (id : ℕ) (rpc : GrantRpc) : GrantSys :=
  { s with rpcs := Function.update s.rpcs id rpc }

def setRank (s : GrantSys) (id : ℕ) (rank : ℤ) : GrantSys :=
  s.setRpc id { s.rpcs id with rank }

def setPeer (s : GrantSys) (p : ℕ) (peer : GrantPeer) : GrantSys :=
  { s with peers := Function.update s.peers p peer }

def setGrantable (s : GrantSys) (p : ℕ) (l : List ℕ) : GrantSys :=
  s.setPeer p { s.peers p with grantableRpcs := l }

def addPeerActive (s : GrantSys) (p : ℕ) (d : ℤ) : GrantSys :=
  s.setPeer p { s.peers p with activeRpcs := (s.peers p).activeRpcs + d }

def setActive (s : GrantSys) (l : List ℕ) : GrantSys :=
  { s with grant := { s.grant with activeRpcs := l } }

def setPeers (s : GrantSys) (l : List ℕ) : GrantSys :=
  { s with grant := { s.grant with grantablePeers := l } }

/-- The first RPC on `p`'s `grantable_rpcs` (`list_first_entry`). -/
def peerHead (s : GrantSys) (p : ℕ) : ℕ :=
  ((s.peers p).grantableRpcs.head?).getD 0

end GrantSys

/-! ## Priorities -/

/-- `homa_grant_outranks(rpc1, rpc2)`, with the `int` differences
wrapping. -/
def homaGrantOutranks (rpc1 rpc2 : GrantRpc) : Bool :=
  let grantDiff := wrapInt 32 (wrapInt 32 (rpc1.length - rpc1.granted) -
    wrapInt 32 (rpc2.length - rpc2.granted))
  grantDiff < 0 || (grantDiff == 0 && rpc1.birth < rpc2.birth)

/-- `homa_grant_window`: `window_param`, or when it is 0 the share of
`max_incoming` for one more active message, in `u64`. -/
def homaGrantWindow (cfg : GrantConfig) (numActiveRpcs : ℕ) : ℤ :=
  let window : ℕ := (cfg.windowParam % 2 ^ 64).toNat
  let window := if window = 0 then (cfg.maxIncoming % 2 ^ 64).toNat / (numActiveRpcs + 1)
    else window
  wrapInt 32 window

/-- The grant state `homa_grant_alloc` sets up, before any RPC: no active or
grantable RPCs, `stalled_rank` at `INT_MAX` and the window for no active
RPC. -/
def homaGrantAlloc (cfg : GrantConfig) : GrantSys :=
  { grant := { activeRpcs := [], grantablePeers := [], numGrantableRpcs := 0, totalIncoming := 0,
               stalledRank := intMax, window := homaGrantWindow cfg 0, oldestRpc := none }
    peers := fun _ => ⟨[], 0⟩
    rpcs := fun _ => GrantRpc.alloc 0
    live := ∅ }

def homaGrantPriority (cfg : GrantConfig) (numActiveRpcs : ℕ) (rank : ℤ) : ℤ :=
  let priority := cfg.maxSchedPrio - rank
  let extraLevels := cfg.maxSchedPrio + 1 - numActiveRpcs
  let priority := if extraLevels ≥ 0 then priority - extraLevels else priority
  if priority < 0 then 0 else priority

namespace GrantSys

/-- `homa_grant_outranks` on two RPCs of the state. -/
def outranks (s : GrantSys) (a b : ℕ) : Bool :=
  homaGrantOutranks (s.rpcs a) (s.rpcs b)

/-- Peers compare by their first grantable RPCs. -/
def peerOutranks (s : GrantSys) (p q : ℕ) : Bool :=
  s.outranks (s.peerHead p) (s.peerHead q)

end GrantSys

/-! ## `active_rpcs` -/

/-- Give the RPCs in slots `lo .. lo + n - 1` of `active_rpcs` their slot as
rank, as the loops that move entries of `active_rpcs` do. -/
def renumber (lo : ℕ) : ℕ → GrantSys → GrantSys
  | 0, s => s
  | n + 1, s =>
      let s := renumber lo n s
      s.setRank (s.grant.activeRpcs.getD (lo + n) 0) (lo + n : ℕ)

/-- `active_rpcs` after the entries in slots `ia .. lc - 1` moved down one
slot, over the entry in slot `lc` if there is one, and `id` went into slot
`ia`. -/
def activeInsert (active : List ℕ) (ia lc id : ℕ) : List ℕ :=
  active.take ia ++ id :: (active.drop ia).take (lc - ia) ++ active.drop (lc + 1)

/-- The backward scan of `homa_grant_insert_active`: `insert_after` and
`peer_index`, each `-1` when no slot qualifies. -/
def insertActiveScan (s : GrantSys) (id : ℕ) : ℕ → ℤ → ℤ × ℤ
  | 0, peerIndex => (-1, peerIndex)
  | i + 1, peerIndex =>
      let other := s.grant.activeRpcs.getD i 0
      if !s.outranks id other then (i, peerIndex)
      else insertActiveScan s id i
        (if peerIndex < 0 ∧ (s.rpcs other).peer = (s.rpcs id).peer then i else peerIndex)

/-- The end of `homa_grant_insert_active`: the RPCs in slots
`insert_after + 1 .. last_to_copy` move down one slot with their ranks, `id`
takes slot `insert_after + 1` and counts for its peer. -/
def homaGrantMoveIn (id : ℕ) (insertAfter lastToCopy : ℤ) (s : GrantSys) : GrantSys :=
  let ia := (insertAfter + 1).toNat
  let lc := (lastToCopy + 1).toNat
  let s := s.setActive (activeInsert s.grant.activeRpcs ia lc id)
  let s := renumber ia (lc + 1 - ia) s
  s.addPeerActive (s.rpcs id).peer 1

/-- An RPC bumped out of `active_rpcs`: rank `-1`, one active RPC fewer for
its peer. -/
def bumpActive (id : ℕ) (s : GrantSys) : GrantSys :=
  (s.setRank id (-1)).addPeerActive (s.rpcs id).peer (-1)

/-- `homa_grant_insert_active(rpc)`: the new state and the RPC that must go
to the grantable lists, if any (`id` itself, or one it displaced). -/
def homaGrantInsertActive (cfg : GrantConfig) (id : ℕ) (s : GrantSys) : GrantSys × Option ℕ :=
  let active := s.grant.activeRpcs
  let num := active.length
  let (insertAfter, peerIndex) := insertActiveScan s id num (-1)
  if (s.peers (s.rpcs id).peer).activeRpcs ≥ cfg.maxRpcsPerPeer then
    -- all RPCs of the peer outrank `id`: bump `id`; else bump the peer's last
    if peerIndex ≤ insertAfter then (s, some id)
    else
      let result := active.getD peerIndex.toNat 0
      (homaGrantMoveIn id insertAfter (peerIndex - 1) (bumpActive result s), some result)
  else if insertAfter ≥ cfg.maxOvercommit - 1 then (s, some id)
  else if (num : ℤ) ≥ cfg.maxOvercommit then
    let result := active.getD (num - 1) 0
    (homaGrantMoveIn id insertAfter ((num : ℤ) - 2) (bumpActive result s), some result)
  else (homaGrantMoveIn id insertAfter ((num : ℤ) - 1) s, none)

/-! ## The grantable lists -/

/-- `homa_grant_adjust_peer(grant, peer)`: after `p`'s list changed, take
`p` off `grantable_peers` if the list is empty, insert it in order if it
was not on it, and otherwise move it up and then down to its place. -/
def homaGrantAdjustPeer (p : ℕ) (s : GrantSys) : GrantSys :=
  let peers := s.grant.grantablePeers
  if (s.peers p).grantableRpcs = [] then s.setPeers (peers.erase p)
  else if p ∉ peers then
    s.setPeers (peers.orderedInsert (fun a b => s.peerOutranks a b = true) p)
  else
    let up := moveUp s.peerOutranks p (split p peers).1 (split p peers).2
    s.setPeers (place (moveDown s.peerOutranks p up.1 up.2) p)

def homaGrantInsertGrantable (id : ℕ) (s : GrantSys) : GrantSys :=
  let p := (s.rpcs id).peer
  let l := (s.peers p).grantableRpcs.orderedInsert (fun a b => s.outranks a b = true) id
  homaGrantAdjustPeer p (s.setGrantable p l)

def homaGrantRemoveGrantable (id : ℕ) (s : GrantSys) : GrantSys :=
  let p := (s.rpcs id).peer
  let l := (s.peers p).grantableRpcs
  let s' := s.setGrantable p (l.erase id)
  if l.head? = some id then homaGrantAdjustPeer p s' else s'

/-- `homa_grant_manage_rpc(rpc)`; `none` where its `BUG_ON` fires (the RPC
is already managed). -/
def homaGrantManageRpc (cfg : GrantConfig) (id : ℕ) (s : GrantSys) : Option GrantSys :=
  if (s.rpcs id).rank ≥ 0 ∨ id ∈ (s.peers (s.rpcs id).peer).grantableRpcs then none
  else
    let s := { s with grant := { s.grant with numGrantableRpcs := s.grant.numGrantableRpcs + 1 } }
    let (s, bumped) := homaGrantInsertActive cfg id s
    let s := match bumped with
      | some b => homaGrantInsertGrantable b s
      | none => s
    some { s with grant := { s.grant with window := homaGrantWindow cfg s.grant.activeRpcs.length } }

/-- The promotion at the end of `homa_grant_remove_active`: the first RPC of
the first peer on `grantable_peers` with room for another active RPC joins
`active_rpcs` at the end. -/
def homaGrantPromoteFirst (cfg : GrantConfig) (s : GrantSys) : GrantSys :=
  match s.grant.grantablePeers.find? (fun p => (s.peers p).activeRpcs < cfg.maxRpcsPerPeer) with
  | none => s
  | some p =>
      let other := s.peerHead p
      let s := (homaGrantRemoveGrantable other s).addPeerActive p 1
      let num := s.grant.activeRpcs.length
      (s.setActive (s.grant.activeRpcs ++ [other])).setRank other num

/-- `homa_grant_remove_active(rpc)`: the RPCs behind `rpc` move up one slot
with their ranks, and an RPC from the grantable lists may take the freed
slot. -/
def homaGrantRemoveActive (cfg : GrantConfig) (id : ℕ) (s : GrantSys) : GrantSys :=
  let rank := (s.rpcs id).rank.toNat
  let active := s.grant.activeRpcs.eraseIdx rank
  let s := renumber rank (active.length - rank) (s.setActive active)
  homaGrantPromoteFirst cfg (bumpActive id s)

def homaGrantUnmanageRpc (cfg : GrantConfig) (id : ℕ) (s : GrantSys) : GrantSys :=
  let removedActive := decide ((s.rpcs id).rank ≥ 0)
  let s := if removedActive then homaGrantRemoveActive cfg id s else s
  let removedGrantable := decide (id ∈ (s.peers (s.rpcs id).peer).grantableRpcs)
  let s := if removedGrantable then homaGrantRemoveGrantable id s else s
  let s := if removedActive || removedGrantable then
      { s with grant := { s.grant with numGrantableRpcs := s.grant.numGrantableRpcs - 1
                                       window := homaGrantWindow cfg s.grant.activeRpcs.length } }
    else s
  if s.grant.oldestRpc = some id then { s with grant := { s.grant with oldestRpc := none } }
  else s

/-! ## Reordering -/

/-- One pass of the outer loop of `homa_grant_fix_order`: the RPC in slot
`i` moves up past the RPCs it outranks, with the ranks of the slots it
passed; `result` becomes the slot it reached if it moved. -/
def homaGrantFixOrderStep (st : GrantSys × ℤ) (i : ℕ) : GrantSys × ℤ :=
  let (s, result) := st
  let active := s.grant.activeRpcs
  let rpc := active.getD i 0
  let up := moveUp s.outranks rpc (active.take i).reverse []
  let j := up.1.length
  -- only the swaps write ranks: an RPC that does not move keeps its rank
  if j < i then
    (renumber j (i + 1 - j) (s.setActive (place up rpc ++ active.drop (i + 1))),
      if (j : ℤ) < result then j else result)
  else (s, result)

/-- `homa_grant_fix_order(grant)`: the state and the best slot an RPC was
promoted to (`INT_MAX` if none moved). -/
def homaGrantFixOrder (s : GrantSys) : GrantSys × ℤ :=
  (List.range' 1 (s.grant.activeRpcs.length - 1)).foldl homaGrantFixOrderStep (s, intMax)

/-- `homa_grant_promote_rpc(grant, rpc)` after the priority of `rpc` went
up: into `active_rpcs`, or up its peer's list and the peer up its list. -/
def homaGrantPromoteRpc (cfg : GrantConfig) (id : ℕ) (s : GrantSys) : GrantSys :=
  let active := s.grant.activeRpcs
  let num := active.length
  if (s.rpcs id).rank ≥ 0 then s
  else if (num : ℤ) < cfg.maxOvercommit || s.outranks id (active.getD (num - 1) 0) then
    let (s, bumped) := homaGrantInsertActive cfg id (homaGrantRemoveGrantable id s)
    match bumped with
    | some b => homaGrantInsertGrantable b s
    | none => s
  else
    let p := (s.rpcs id).peer
    let l := (s.peers p).grantableRpcs
    let up := moveUp s.outranks id (split id l).1 (split id l).2
    let s := s.setGrantable p (place up id)
    if up.1 = [] then homaGrantAdjustPeer p s else s

/-! ## Grants and incoming bytes -/

/-- `homa_grant_update_incoming(rpc, grant)`: record the RPC's granted but
unreceived bytes, adding the change to `total_incoming`. -/
def homaGrantUpdateIncoming (id : ℕ) (s : GrantSys) : GrantSys :=
  let rpc := s.rpcs id
  let incoming := wrapInt 32 (rpc.granted - wrapInt 32 (rpc.length - rpc.bytesRemaining))
  let incoming := if incoming < 0 then 0 else incoming
  let delta := wrapInt 32 (incoming - rpc.recIncoming)
  let s := if delta ≠ 0 then
      { s with grant := { s.grant with totalIncoming := wrapInt 32 (s.grant.totalIncoming + delta) } }
    else s
  s.setRpc id { rpc with recIncoming := incoming }

/-- `homa_grant_update_granted(rpc, grant)`: the state and the priority of the
grant to send, or `-1`. -/
def homaGrantUpdateGranted (cfg : GrantConfig) (id : ℕ) (s : GrantSys) : GrantSys × ℤ :=
  let rpc := s.rpcs id
  let rank := rpc.rank
  if rpc.silentTicks > 1 then (s, -1)
  else if rank < 0 ∨ rpc.granted ≥ rpc.length then (s, -1)
  else
    let received := wrapInt 32 (rpc.length - rpc.bytesRemaining)
    let newGrantOffset := wrapInt 32 (received + s.grant.window)
    let newGrantOffset := if newGrantOffset > rpc.length then rpc.length else newGrantOffset
    let incomingDelta := wrapInt 32 (wrapInt 32 (newGrantOffset - received) - rpc.recIncoming)
    let avlIncoming := wrapInt 32 (cfg.maxIncoming - s.grant.totalIncoming)
    -- out of headroom: lower `stalled_rank` to `rank` and grant what fits
    let (s, newGrantOffset) := if avlIncoming < incomingDelta then
        ({ s with grant := { s.grant with stalledRank := min s.grant.stalledRank rank } },
          wrapInt 32 (newGrantOffset - wrapInt 32 (incomingDelta - avlIncoming)))
      else (s, newGrantOffset)
    if newGrantOffset ≤ rpc.granted then (s, -1)
    else (s.setRpc id { rpc with granted := newGrantOffset },
      homaGrantPriority cfg s.grant.activeRpcs.length rank)

/-- `homa_grant_init_rpc(rpc, unsched)`; `none` where `homa_grant_manage_rpc`
hits its `BUG_ON`. -/
def homaGrantInitRpc (cfg : GrantConfig) (unsched : ℤ) (id : ℕ) (s : GrantSys) :
    Option GrantSys :=
  let s := s.setRank id (-1)
  let rpc := s.rpcs id
  if unsched ≥ rpc.length then some (s.setRpc id { rpc with granted := rpc.length })
  else
    let s := s.setRpc id { rpc with granted := unsched }
    if rpc.numBpages ≠ 0 then homaGrantManageRpc cfg id s else some s

/-- `homa_grant_check_rpc(rpc)` up to the first release of the RPC lock; the
grant it sends, the candidates and the FIFO grant run as steps of their own. -/
def homaGrantCheckRpc (cfg : GrantConfig) (recalc : Bool) (id : ℕ) (s : GrantSys) : GrantSys :=
  let rpc := s.rpcs id
  if rpc.length < 0 ∨ rpc.numBpages ≤ 0 ∨ rpc.dead then s
  else
    let s := homaGrantUpdateIncoming id s
    let (s, needyRank) := if recalc then homaGrantFixOrder s else (s, intMax)
    let rank := (s.rpcs id).rank
    let needyRank := if s.grant.stalledRank < needyRank then s.grant.stalledRank else needyRank
    let s := if rank ≥ 0 ∧ rank ≤ needyRank then
        -- the fast path
        let (s, priority) := homaGrantUpdateGranted cfg id s
        let s := homaGrantUpdateIncoming id s
        if priority ≥ 0 ∧ (s.rpcs id).granted ≥ (s.rpcs id).length then
          homaGrantUnmanageRpc cfg id s
        else s
      else s
    if needyRank < intMax ∧ s.grant.totalIncoming < cfg.maxIncoming then
      { s with grant := { s.grant with stalledRank := intMax } }
    else s

/-- One RPC of `homa_grant_cand_check`. -/
def homaGrantCandCheck (cfg : GrantConfig) (id : ℕ) (s : GrantSys) : GrantSys :=
  if (s.rpcs id).dead then s
  else
    let (s, priority) := homaGrantUpdateGranted cfg id s
    if priority ≥ 0 then
      let s := homaGrantUpdateIncoming id s
      if (s.rpcs id).granted ≥ (s.rpcs id).length then homaGrantUnmanageRpc cfg id s else s
    else s

/-- `homa_grant_find_oldest(grant)`: the oldest RPC on the grantable lists
or in slots `1 ..` of `active_rpcs` that has not run far past its window. -/
def homaGrantFindOldest (cfg : GrantConfig) (s : GrantSys) : GrantSys :=
  let maxIncoming := wrapInt 32 (s.grant.window + wrapInt 32 (2 * cfg.fifoGrantIncrement))
  let scan := fun (acc : Option ℕ × ℕ) (id : ℕ) =>
    let rpc := s.rpcs id
    if rpc.birth ≥ acc.2 then acc
    else if rpc.recIncoming ≥ maxIncoming then acc
    else (some id, rpc.birth)
  let grantable := s.grant.grantablePeers.flatMap fun p => (s.peers p).grantableRpcs
  let oldest := (s.grant.activeRpcs.drop 1).foldl scan (grantable.foldl scan (none, 2 ^ 64 - 1))
  { s with grant := { s.grant with oldestRpc := oldest.1 } }

/-- `homa_grant_check_fifo(grant)` when its time has come (`due`): a FIFO
grant of `fifo_grant_increment` bytes to the oldest message. -/
def homaGrantCheckFifo (cfg : GrantConfig) (due : Bool) (s : GrantSys) : GrantSys :=
  if !due then s
  else if cfg.fifoFraction = 0 ∨ cfg.fifoGrantIncrement = 0 then s
  else
    let maxIncoming := wrapInt 32 (s.grant.window + wrapInt 32 (2 * cfg.fifoGrantIncrement))
    -- drop an oldest RPC that does not respond to its grants
    let s := match s.grant.oldestRpc with
      | some r => if (s.rpcs r).recIncoming ≥ maxIncoming then
          { s with grant := { s.grant with oldestRpc := none } } else s
      | none => s
    let s := if s.grant.oldestRpc = none then homaGrantFindOldest cfg s else s
    match s.grant.oldestRpc with
    | none => s
    | some id =>
        if (s.rpcs id).dead then s
        else
          let rpc := s.rpcs id
          let s := s.setRpc id { rpc with granted := wrapInt 32 (rpc.granted + cfg.fifoGrantIncrement) }
          let s := if (s.rpcs id).granted ≥ (s.rpcs id).length then
              homaGrantUnmanageRpc cfg id (s.setRpc id { s.rpcs id with granted := (s.rpcs id).length })
            else homaGrantPromoteRpc cfg id s
          homaGrantUpdateIncoming id s

/-- The RPCs that joined `active_rpcs` from `s` to `s'`: those
`homa_grant_remove_active` hands to `homa_grant_cand_add`. -/
def GrantSys.promoted (s s' : GrantSys) : List ℕ :=
  s'.grant.activeRpcs.filter fun id => id ∉ s.grant.activeRpcs

def GrantSys.grantableCount (s : GrantSys) : ℕ :=
  (s.grant.grantablePeers.flatMap fun p => (s.peers p).grantableRpcs).length

/-- `homa_grant_cand_check(cand, grant)`: the candidates in turn, with the
RPCs unmanaging one promotes added behind; `fuel` bounds how many. -/
def homaGrantCandCheckLoop (cfg : GrantConfig) : ℕ → List ℕ → GrantSys → GrantSys
  | 0, _, s => s
  | _ + 1, [], s => s
  | fuel + 1, id :: cand, s =>
      homaGrantCandCheckLoop cfg fuel (cand ++ s.promoted (homaGrantCandCheck cfg id s))
        (homaGrantCandCheck cfg id s)

/-- The end of `homa_grant_end_rpc(rpc)`: the RPC's share leaves the total. -/
def homaGrantEndRpcShare (id : ℕ) (s : GrantSys) : GrantSys :=
  let rpc := s.rpcs id
  if rpc.recIncoming ≠ 0 then
    let s := { s with grant := { s.grant with
      totalIncoming := wrapInt 32 (s.grant.totalIncoming - rpc.recIncoming) } }
    s.setRpc id { rpc with recIncoming := 0 }
  else s

/-- `homa_grant_end_rpc(rpc)`: unmanaging may promote an RPC, and
`homa_grant_cand_check` grants to it while this RPC's share is still in the
total. -/
def homaGrantEndRpc (cfg : GrantConfig) (id : ℕ) (s : GrantSys) : GrantSys :=
  homaGrantEndRpcShare id <|
    if (s.rpcs id).granted < (s.rpcs id).length then
      let s' := homaGrantUnmanageRpc cfg id s
      homaGrantCandCheckLoop cfg ((s.promoted s').length + s'.grantableCount) (s.promoted s') s'
    else s

/-- The grant part of `homa_rpc_end(rpc)`: the RPC becomes `RPC_DEAD` and,
if its message was initialized, leaves the grant structures. -/
def homaRpcEndGrant (cfg : GrantConfig) (id : ℕ) (s : GrantSys) : GrantSys :=
  if (s.rpcs id).dead then s
  else
    let s := s.setRpc id { s.rpcs id with dead := true }
    if (s.rpcs id).length ≥ 0 then homaGrantEndRpc cfg id s else s

/-! ## What the list operations leave alone

Managing, promoting and unmanaging RPCs renumber ranks but touch no other
field of any RPC (`RanksOnly`, a `ListFrame` below). -/

def GrantRpc.unranked (rpc : GrantRpc) : GrantRpc := { rpc with rank := 0 }

namespace GrantSys

/-- `s'` differs from `s`, as far as the RPCs go, at most in their ranks. -/
def RanksOnly (s s' : GrantSys) : Prop :=
  ∀ id, (s'.rpcs id).unranked = (s.rpcs id).unranked

variable {s s' s'' : GrantSys}

theorem RanksOnly.rfl : s.RanksOnly s := fun _ => Eq.refl _

theorem RanksOnly.trans (h1 : s.RanksOnly s') (h2 : s'.RanksOnly s'') : s.RanksOnly s'' :=
  fun id => (h2 id).trans (h1 id)

theorem RanksOnly.of_rpcs (h : s'.rpcs = s.rpcs) : s.RanksOnly s' := fun id => by rw [h]

theorem RanksOnly.with_grant (h : s.RanksOnly s') (g : Grant) :
    s.RanksOnly { s' with grant := g } :=
  h

theorem RanksOnly.granted (h : s.RanksOnly s') (id : ℕ) :
    (s'.rpcs id).granted = (s.rpcs id).granted := by
  -- `granted` of the unranked RPCs is that of the RPCs
  have hf := congrArg GrantRpc.granted (h id)
  exact hf

theorem RanksOnly.length (h : s.RanksOnly s') (id : ℕ) :
    (s'.rpcs id).length = (s.rpcs id).length := by
  have hf := congrArg GrantRpc.length (h id)
  exact hf

theorem RanksOnly.bytesRemaining (h : s.RanksOnly s') (id : ℕ) :
    (s'.rpcs id).bytesRemaining = (s.rpcs id).bytesRemaining := by
  have hf := congrArg GrantRpc.bytesRemaining (h id)
  exact hf

theorem RanksOnly.recIncoming (h : s.RanksOnly s') (id : ℕ) :
    (s'.rpcs id).recIncoming = (s.rpcs id).recIncoming := by
  have hf := congrArg GrantRpc.recIncoming (h id)
  exact hf

theorem ranksOnly_setRank (s : GrantSys) (id : ℕ) (rank : ℤ) : s.RanksOnly (s.setRank id rank) := by
  intro r
  by_cases hr : r = id
  · subst hr
    simp [setRank, setRpc, GrantRpc.unranked]
  · simp [setRank, setRpc, hr]

theorem ranksOnly_setPeer (s : GrantSys) (p : ℕ) (peer : GrantPeer) :
    s.RanksOnly (s.setPeer p peer) :=
  .of_rpcs rfl

end GrantSys

open GrantSys

/-! ## Frames of the list operations

Every list operation is built from four kinds of change: a rank, a peer, a
field of `struct homa_grant` other than `total_incoming`, and nothing.  A
relation that holds across each and composes (`ListFrame`) holds across
every list operation. -/

/-- A relation between grant states that holds across every elementary
change the list operations make. -/
structure ListFrame (R : GrantSys → GrantSys → Prop) : Prop where
  refl : ∀ s, R s s
  trans : ∀ {s₁ s₂ s₃}, R s₁ s₂ → R s₂ s₃ → R s₁ s₃
  setRank : ∀ s id rank, R s (s.setRank id rank)
  setPeer : ∀ s p peer, R s (s.setPeer p peer)
  withGrant : ∀ (s : GrantSys) (g : Grant), g.totalIncoming = s.grant.totalIncoming →
    R s { s with grant := g }

namespace ListFrame

variable {R : GrantSys → GrantSys → Prop} (hR : ListFrame R)
include hR

theorem addPeerActive (s : GrantSys) (p : ℕ) (d : ℤ) : R s (s.addPeerActive p d) :=
  hR.setPeer _ _ _

theorem setGrantable (s : GrantSys) (p : ℕ) (l : List ℕ) : R s (s.setGrantable p l) :=
  hR.setPeer _ _ _

theorem setActive (s : GrantSys) (l : List ℕ) : R s (s.setActive l) :=
  hR.withGrant _ _ rfl

theorem setPeers (s : GrantSys) (l : List ℕ) : R s (s.setPeers l) :=
  hR.withGrant _ _ rfl

theorem renumbered (lo n : ℕ) (s : GrantSys) : R s (renumber lo n s) := by
  induction n with
  | zero => exact hR.refl s
  | succ n ih => exact hR.trans ih (hR.setRank _ _ _)

theorem moveIn (id : ℕ) (insertAfter lastToCopy : ℤ) (s : GrantSys) :
    R s (homaGrantMoveIn id insertAfter lastToCopy s) :=
  hR.trans (hR.trans (hR.setActive _ _) (hR.renumbered _ _ _)) (hR.addPeerActive _ _ _)

theorem bump (id : ℕ) (s : GrantSys) : R s (bumpActive id s) :=
  hR.trans (hR.setRank _ _ _) (hR.addPeerActive _ _ _)

theorem insertActive (cfg : GrantConfig) (id : ℕ) (s : GrantSys) :
    R s (homaGrantInsertActive cfg id s).1 := by
  unfold homaGrantInsertActive
  dsimp only
  split_ifs
  · exact hR.refl s
  · exact hR.trans (hR.bump _ _) (hR.moveIn _ _ _ _)
  · exact hR.refl s
  · exact hR.trans (hR.bump _ _) (hR.moveIn _ _ _ _)
  · exact hR.moveIn _ _ _ _

theorem adjustPeer (p : ℕ) (s : GrantSys) : R s (homaGrantAdjustPeer p s) := by
  unfold homaGrantAdjustPeer
  dsimp only
  split_ifs <;> exact hR.setPeers _ _

theorem insertGrantable (id : ℕ) (s : GrantSys) : R s (homaGrantInsertGrantable id s) :=
  hR.trans (hR.setGrantable _ _ _) (hR.adjustPeer _ _)

theorem removeGrantable (id : ℕ) (s : GrantSys) : R s (homaGrantRemoveGrantable id s) := by
  unfold homaGrantRemoveGrantable
  dsimp only
  split_ifs
  · exact hR.trans (hR.setGrantable _ _ _) (hR.adjustPeer _ _)
  · exact hR.setGrantable _ _ _

theorem insert (cfg : GrantConfig) (id : ℕ) (s : GrantSys) :
    R s (match (homaGrantInsertActive cfg id s).2 with
      | some b => homaGrantInsertGrantable b (homaGrantInsertActive cfg id s).1
      | none => (homaGrantInsertActive cfg id s).1) := by
  split
  · exact hR.trans (hR.insertActive cfg id s) (hR.insertGrantable _ _)
  · exact hR.insertActive cfg id s

theorem manage {cfg : GrantConfig} {id : ℕ} {s s' : GrantSys}
    (h : homaGrantManageRpc cfg id s = some s') : R s s' := by
  unfold homaGrantManageRpc at h
  dsimp only at h
  split_ifs at h
  cases h
  -- the count of grantable RPCs goes up first, the window is set last
  have h0 : R s
      { s with grant := { s.grant with numGrantableRpcs := s.grant.numGrantableRpcs + 1 } } :=
    hR.withGrant _ _ rfl
  generalize ({ s with grant := { s.grant with numGrantableRpcs := s.grant.numGrantableRpcs + 1 } } :
    GrantSys) = s₁ at h0 ⊢
  refine hR.trans h0 (hR.trans (hR.insert cfg id s₁) ?_)
  exact hR.withGrant _ _ rfl

theorem promoteFirst (cfg : GrantConfig) (s : GrantSys) : R s (homaGrantPromoteFirst cfg s) := by
  unfold homaGrantPromoteFirst
  split
  · exact hR.refl s
  · exact hR.trans (hR.trans (hR.trans (hR.removeGrantable _ _) (hR.addPeerActive _ _ _))
      (hR.setActive _ _)) (hR.setRank _ _ _)

theorem removeActive (cfg : GrantConfig) (id : ℕ) (s : GrantSys) :
    R s (homaGrantRemoveActive cfg id s) :=
  hR.trans (hR.trans (hR.trans (hR.setActive _ _) (hR.renumbered _ _ _)) (hR.bump _ _))
    (hR.promoteFirst _ _)

theorem unmanage (cfg : GrantConfig) (id : ℕ) (s : GrantSys) :
    R s (homaGrantUnmanageRpc cfg id s) := by
  -- every stage either leaves the state alone or is one of the list operations
  have h1 : R s (if (s.rpcs id).rank ≥ 0 then homaGrantRemoveActive cfg id s else s) := by
    split_ifs
    · exact hR.removeActive _ _ _
    · exact hR.refl s
  unfold homaGrantUnmanageRpc
  simp only [decide_eq_true_eq]
  refine hR.trans h1 ?_
  generalize (if (s.rpcs id).rank ≥ 0 then homaGrantRemoveActive cfg id s else s) = s₁
  have h2 : R s₁ (if id ∈ (s₁.peers (s₁.rpcs id).peer).grantableRpcs then
      homaGrantRemoveGrantable id s₁ else s₁) := by
    split_ifs
    · exact hR.removeGrantable _ _
    · exact hR.refl s₁
  refine hR.trans h2 ?_
  generalize (if id ∈ (s₁.peers (s₁.rpcs id).peer).grantableRpcs then
      homaGrantRemoveGrantable id s₁ else s₁) = s₂
  -- the count and the window change together, then `oldest_rpc` is cleared
  split_ifs
  · exact hR.trans (hR.withGrant _ _ rfl) (hR.withGrant _ _ rfl)
  · exact hR.withGrant _ _ rfl
  · exact hR.withGrant _ _ rfl
  · exact hR.refl _

theorem promote (cfg : GrantConfig) (id : ℕ) (s : GrantSys) :
    R s (homaGrantPromoteRpc cfg id s) := by
  unfold homaGrantPromoteRpc
  dsimp only
  split_ifs
  · exact hR.refl s
  · exact hR.trans (hR.removeGrantable _ _) (hR.insert _ _ _)
  · exact hR.trans (hR.setGrantable _ _ _) (hR.adjustPeer _ _)
  · exact hR.setGrantable _ _ _

theorem fixOrderStep (st : GrantSys × ℤ) (i : ℕ) : R st.1 (homaGrantFixOrderStep st i).1 := by
  obtain ⟨s, result⟩ := st
  dsimp only [homaGrantFixOrderStep]
  split
  · exact hR.trans (hR.setActive _ _) (hR.renumbered _ _ _)
  · exact hR.refl s

theorem fixOrder (s : GrantSys) : R s (homaGrantFixOrder s).1 := by
  -- the outer loop of `homa_grant_fix_order`, by induction over its slots
  have hfold : ∀ (l : List ℕ) (st : GrantSys × ℤ), R st.1 (l.foldl homaGrantFixOrderStep st).1 := by
    intro l
    induction l with
    | nil => exact fun st => hR.refl st.1
    | cons i l ih => exact fun st => hR.trans (hR.fixOrderStep st i) (ih _)
  exact hfold _ (s, intMax)

end ListFrame

theorem ranksOnly_listFrame : ListFrame GrantSys.RanksOnly where
  refl _ := .rfl
  trans h₁ h₂ := h₁.trans h₂
  setRank := ranksOnly_setRank
  setPeer := ranksOnly_setPeer
  withGrant _ g _ := RanksOnly.rfl.with_grant g

end Homa
