import Homa.GrantIncoming

/-!
# The order of the grantable lists

Each peer's `grantable_rpcs` is kept in the order of `homa_grant_outranks`:
`homa_grant_insert_grantable` puts an RPC in front of the first one it
outranks, and `homa_grant_promote_rpc` moves an RPC whose priority went up
towards the front.  Nothing moves one towards the back, as the code assumes
priorities only go up; but the FIFO grant adds `fifo_grant_increment`, a
sysctl that may be negative, to `msgin.granted`.
-/

namespace Homa

open GrantSys

/-- A call that changes the grant lists. -/
inductive GrantListOp where
  | manage (id : ℕ)
  | unmanage (id : ℕ)
  | promote (id : ℕ)
  | fixOrder
  | checkFifo (due : Bool)
  | rpcEnd (id : ℕ)

/-- One call; `none` is the `BUG_ON` of `homa_grant_manage_rpc`. -/
def GrantListOp.step (cfg : GrantConfig) (s : GrantSys) : GrantListOp → Option GrantSys
  | .manage id => homaGrantManageRpc cfg id s
  | .unmanage id => some (homaGrantUnmanageRpc cfg id s)
  | .promote id => some (homaGrantPromoteRpc cfg id s)
  | .fixOrder => some (homaGrantFixOrder s).1
  | .checkFifo due => some (homaGrantCheckFifo cfg due s)
  | .rpcEnd id => some (homaRpcEndGrant cfg id s)

def GrantListOp.exec (cfg : GrantConfig) : List GrantListOp → GrantSys → Option GrantSys
  | [], s => some s
  | op :: ops, s => (op.step cfg s).bind (GrantListOp.exec cfg ops)

/-- No RPC on `p`'s grantable list outranks one in front of it. -/
def GrantSys.PeerOrdered (s : GrantSys) (p : ℕ) : Prop :=
  (s.peers p).grantableRpcs.Pairwise fun a b => s.outranks b a = false

instance (s : GrantSys) (p : ℕ) : Decidable (s.PeerOrdered p) :=
  inferInstanceAs (Decidable (List.Pairwise _ _))

/-- The grant sysctls at their defaults, but one active message at a time
and a FIFO grant of `-200` bytes. -/
def negFifoCfg : GrantConfig :=
  { GrantConfig.default with maxOvercommit := 1, fifoGrantIncrement := -200 }

/-- Four messages of 1000 bytes from peer 0, through `homa_grant_init_rpc`
but not yet managed, with 50, 100, 500 and 600 bytes still to grant; the
third is the oldest. -/
def fourWaiting : GrantSys :=
  { homaGrantAlloc negFifoCfg with
    rpcs := fun id => { GrantRpc.alloc 0 with
      length := 1000, bytesRemaining := 1000, granted := 1000 - [50, 100, 500, 600].getD id 600,
      rank := -1, birth := [0, 2, 1, 3].getD id 3, numBpages := 1 } }

/-- Managing the four messages makes the first one active and queues the
other three on peer 0's list in order.  The FIFO grant then goes to the
oldest, RPC 2, and takes 200 bytes back: it now has 700 bytes to grant,
more than RPC 3 behind it, and stays where it was. -/
theorem homaGrantCheckFifo_unorders_peer_list :
    (GrantListOp.exec negFifoCfg [.manage 0, .manage 1, .manage 2, .manage 3] fourWaiting).map
        (fun s => (s.grant.activeRpcs, (s.peers 0).grantableRpcs, decide (s.PeerOrdered 0))) =
      some ([0], [1, 2, 3], true) ∧
    (GrantListOp.exec negFifoCfg
        [.manage 0, .manage 1, .manage 2, .manage 3, .checkFifo true] fourWaiting).map
        (fun s => ((s.peers 0).grantableRpcs, (s.rpcs 2).granted, s.outranks 3 2,
          decide (s.PeerOrdered 0))) =
      some ([1, 2, 3], 300, true, false) := by
  constructor <;> decide +kernel

end Homa
