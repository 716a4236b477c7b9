import Homa.PoolSystem
import Homa.Grant
import Homa.Socket

/-!
# Setting up an incoming message

`homa_message_in_init` checks the announced length, sets up reassembly,
asks the pool for space, starts the grant state and counts the length in a
histogram; `homa_rpc_alloc_server` calls it before taking the socket lock.
The histogram index is `-1` for a zero-length message, and a server RPC
freed on a shut-down socket keeps its bpages and grant state.
-/

namespace Homa

open MachineArith

/-! ## The length histograms -/

/-- `HOMA_NUM_SMALL_COUNTS`: entries of `small_msg_bytes`, one per 64 bytes. -/
def homaNumSmallCounts : ℤ := 64

/-- `HOMA_NUM_MEDIUM_COUNTS`: entries of `medium_msg_bytes`, one per 1024 bytes. -/
def homaNumMediumCounts : ℤ := 128

/-- The histogram entry `homa_message_in_init` adds a message's length to. -/
inductive LengthMetric where
  | small (index : ℤ)
  | medium (index : ℤ)
  | large
  deriving DecidableEq, Repr

/-- The entry lies inside its array. -/
def LengthMetric.InBounds : LengthMetric → Prop
  | .small index => 0 ≤ index ∧ index < homaNumSmallCounts
  | .medium index => 0 ≤ index ∧ index < homaNumMediumCounts
  | .large => True

instance (m : LengthMetric) : Decidable m.InBounds := by
  cases m <;> unfold LengthMetric.InBounds <;> infer_instance

/-- The metrics at the end of `homa_message_in_init`; `>>` on a negative
`int` shifts arithmetically. -/
def homaMessageInMetric (length : ℤ) : LengthMetric :=
  if length < homaNumSmallCounts * 64 then .small ((length - 1) >>> (6 : ℕ))
  else if length < homaNumMediumCounts * 1024 then .medium ((length - 1) >>> (10 : ℕ))
  else .large

/-- A DATA packet announcing a zero-length message passes every check of
`homa_message_in_init`: the length is below `HOMA_MAX_MESSAGE_LENGTH`, the
pool has nothing to allocate and succeeds, and the message is then counted
at `small_msg_bytes[-1]`, before the array. -/
theorem homaMessageInInit_zero_length (fuel coreId now leaseCycles id : ℕ) :
    homaMessageInInit 0 0 = .ok ⟨0, [], [], 0, 0⟩ ∧
      homaPoolAllocMsg fuel coreId now leaseCycles id 0 (prefixPool 2 0) =
        some (0, prefixPool 2 0, []) ∧
      homaMessageInMetric 0 = .small (-1) ∧ ¬ (homaMessageInMetric 0).InBounds := by
  have hmetric : homaMessageInMetric 0 = .small (-1) := by decide
  refine ⟨by simp [homaMessageInInit, homaMaxMessageLength], ?_, hmetric, ?_⟩
  · simp [homaPoolAllocMsg, prefixPool]
  · rw [hmetric]
    decide

/-! ## Creating a server RPC -/

/-- What `homa_rpc_alloc_server` changes: the socket's buffer pool (with its
`waiting_for_bufs`), the grant state, and the RPC list of the hash bucket;
`shutdown` is the socket's flag. -/
structure ServerAlloc where
  pool : Pool
  grants : GrantSys
  shutdown : Bool
  bucket : List ℕ

/-- `homa_rpc_alloc_server(hsk, source, h, &created)` for a first DATA packet
of the RPC `id`, with `kzalloc` and the peer lookup succeeding; `none` is
the pool running out of fuel or the `BUG_ON` of `homa_grant_manage_rpc`. -/
def homaRpcAllocServer (cfg : GrantConfig) (coreId now leaseCycles id peer length : ℕ)
    (unsched : ℤ) (birth : ℕ) (s : ServerAlloc) : Option (ℤ × ServerAlloc) := do
  if id ∈ s.bucket then return (0, s)
  let grants := s.grants.setRpc id (GrantRpc.alloc peer)
  -- `homa_message_in_init`
  if (length : ℤ) > homaMaxMessageLength then return (-einval, s)
  let (err, pool, offsets) ← homaPoolAllocMsg (poolFuel s.pool) coreId now leaseCycles id length
    s.pool
  if err ≠ 0 then return (err, { s with pool })
  let grants := grants.setRpc id { grants.rpcs id with
    length := length, bytesRemaining := length, birth := birth, numBpages := offsets.length }
  let grants ← homaGrantInitRpc cfg unsched id grants
  -- the socket lock: a shut-down socket sends the RPC to `error`, which frees it
  if s.shutdown then return (-eshutdown, { s with pool, grants })
  let grants := { grants with live := insert id grants.live }
  return (0, { s with pool, grants, bucket := id :: s.bucket })

/-- A 64 KiB request reaches a shut-down socket with an empty grant state and
a fresh two-bpage pool.  `homa_message_in_init` takes bpage 0 (its reference
count becomes 1 and `free_bpages` drops) and, with nothing granted yet, makes
the RPC the one active RPC; then the shutdown check frees the RPC.  The call
fails, but the bpage stays taken and `active_rpcs` still holds the freed
RPC. -/
theorem homaRpcAllocServer_shutdown_leaks :
    ∃ r, homaRpcAllocServer GrantConfig.default 0 0 0 5 9 homaBpageSize 0 0
        ⟨prefixPool 2 0, homaGrantAlloc GrantConfig.default, true, []⟩ = some r ∧
      r.1 = -eshutdown ∧ r.2.pool.freeBpages = (prefixPool 2 0).freeBpages - 1 ∧
      (r.2.pool.descriptors 0).refs = 1 ∧ r.2.grants.grant.activeRpcs = [5] ∧
      5 ∉ r.2.grants.live ∧ r.2.bucket = [] := by
  have hfuel : poolFuel (prefixPool 2 0) = 6 + 2 := rfl
  have halloc := homaPoolAllocMsg_prefixPool (n := 2) (k := 0) (by norm_num) 6 5
  simp only [homaRpcAllocServer, hfuel, halloc]
  refine ⟨_, rfl, ?_⟩
  decide

end Homa
