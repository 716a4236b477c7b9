import Homa.Pool

/-!
# A pool and the messages holding its space

`PoolSys` is the pool `homa_pool_set_region` sets up together with the
messages whose space is live, allocated by `homa_pool_alloc_msg` and given
back by `homa_pool_release_buffers`.  The offsets are `u32`, so past `2 ^ 16`
bpages they wrap and two messages can get the same space.
-/

namespace Homa

open FuelLoop

/-- The space of a message whose allocation succeeded. -/
structure LiveMsg where
  offsets : List ℕ
  length : ℕ
  deriving DecidableEq, Repr

/-- A pool and the messages with live space in it. -/
structure PoolSys where
  pool : Pool
  msgs : List LiveMsg

/-- The pool `homa_pool_alloc` zeroes before any region is set. -/
def homaPoolAlloc : Pool :=
  { region := false, numBpages := 0, descriptors := fun _ => { refs := 0, owner := 0, expiration := 0 }
    freeBpages := 0, bpagesNeeded := 0
    cores := fun _ => { pageHint := 0, allocated := 0, nextCandidate := 0 }
    waitingForBufs := [] }

/-- The budget an allocation's search for bpages runs on: two sweeps of the
pool and a little more. -/
def poolFuel (pool : Pool) : ℕ :=
  2 * pool.numBpages + 4

/-- What a step does. -/
inductive PoolAction where
  /-- `homa_pool_alloc_msg` on core `coreId` at time `now` for the message
  of `length` bytes of the RPC `id`. -/
  | allocMsg (coreId now leaseCycles id length : ℕ)
  /-- `homa_pool_release_buffers` of the `k`-th live message. -/
  | release (k : ℕ)

/-- One step; messages are `1 .. HOMA_MAX_MESSAGE_LENGTH` bytes long. -/
def PoolSys.step (s : PoolSys) : PoolAction → Option PoolSys
  | .allocMsg coreId now leaseCycles id length =>
      if 1 ≤ length ∧ (length : ℤ) ≤ homaMaxMessageLength then
        (homaPoolAllocMsg (poolFuel s.pool) coreId now leaseCycles id length s.pool).map fun r =>
          { pool := r.2.1
            msgs := if r.2.2 = [] then s.msgs else s.msgs ++ [⟨r.2.2, length⟩] }
      else none
  | .release k =>
      match s.msgs[k]? with
      | none => none
      | some m =>
          some { pool := (homaPoolReleaseBuffers m.offsets s.pool).2, msgs := s.msgs.eraseIdx k }

/-- A pool just set up with a region, and no message. -/
structure PoolSys.Init (s : PoolSys) : Prop where
  setRegion : ∃ regionSize, homaPoolSetRegion true true regionSize homaPoolAlloc = (0, s.pool)
  msgs_eq : s.msgs = []

inductive PoolSys.Reachable : PoolSys → Prop where
  | init {s : PoolSys} : s.Init → PoolSys.Reachable s
  | step {s s' : PoolSys} {a : PoolAction} : PoolSys.Reachable s → s.step a = some s' →
      PoolSys.Reachable s'

/-! ## Regions of more than `2 ^ 16` bpages -/

section Wrap

variable {n k : ℕ}

/-- The pool after `k` messages of one bpage each from core `0`: bpages
`0 .. k` hold one message each, and core `0` goes on searching at `k`. -/
def prefixPool (n k : ℕ) : Pool :=
  { region := true, numBpages := n
    descriptors := fun i => { refs := if i < k then 1 else 0, owner := -1, expiration := 0 }
    freeBpages := (n : ℤ) - k, bpagesNeeded := intMax
    cores := fun c => { pageHint := 0, allocated := 0, nextCandidate := if c = 0 then k else 0 }
    waitingForBufs := [] }

/-- The messages of `prefixPool n k`, one for each bpage. -/
def prefixMsgs (k : ℕ) : List LiveMsg :=
  (List.range k).map fun j => ⟨[bpageOffset j], homaBpageSize⟩

theorem homaPoolLimit_bounds (pool : Pool) :
    min (pool.numBpages : ℤ) (pool.numBpages - pool.freeBpages + minExtra) ≤ homaPoolLimit pool ∧
      homaPoolLimit pool ≤ pool.numBpages := by
  unfold homaPoolLimit minExtra
  dsimp only
  split_ifs <;> omega

theorem homaPoolSetRegion_prefixPool (hn : 2 ≤ n) (hlt : n < 2 ^ 31) :
    homaPoolSetRegion true true (n * homaBpageSize) homaPoolAlloc = (0, prefixPool n 0) := by
  have hshift : (n * homaBpageSize) >>> homaBpageShift = n := by
    simp [homaBpageSize, homaBpageShift, Nat.shiftRight_eq_div_pow]
  have hwrap : MachineArith.wrapInt 32 (n : ℤ) = n :=
    MachineArith.wrapInt_32_of_mem (by omega) (by exact_mod_cast hlt)
  simp only [homaPoolSetRegion, hshift, hwrap, minPoolSize, homaPoolAlloc]
  rw [if_neg (by simp), if_neg (by omega), if_neg (by simp), if_neg (by simp)]
  congr 1
  ext <;> simp [prefixPool]

theorem homaPoolGetPages_prefixPool (hk : k < n) (fuel : ℕ) :
    homaPoolGetPages (fuel + 2) 1 false 0 0 0 (prefixPool n k) =
      some (0, prefixPool n (k + 1), [k]) := by
  set P : Pool := { prefixPool n k with freeBpages := (prefixPool n k).freeBpages - (1 : ℕ) }
    with hP
  have hfree : ¬ (prefixPool n k).freeBpages - (1 : ℕ) < 0 := by
    simp only [prefixPool]
    omega
  have hcur : (P.cores 0).nextCandidate = k := by simp [hP, prefixPool]
  have hrange : ¬ GetPagesLoop.range ⟨P, 0, []⟩ ≤ k := by
    have hF : P.freeBpages = (n : ℤ) - k - 1 := by simp [hP, prefixPool]
    have hbounds := homaPoolLimit_bounds P
    rw [show P.numBpages = n from rfl, hF] at hbounds
    rw [show GetPagesLoop.range ⟨P, 0, []⟩ = homaPoolLimit P from if_pos rfl]
    simp only [minExtra] at hbounds
    omega
  have havail : homaBpageAvailable (P.descriptors k) 0 = true := by
    simp [hP, prefixPool, homaBpageAvailable]
  unfold homaPoolGetPages
  rw [if_neg hfree, run_succ_next _ (homaPoolGetPagesBody_take (by simp) hcur hrange havail),
    run_succ_done _ (@homaPoolGetPagesBody_done 1 false 0 0 0 _ rfl)]
  have howner : ¬ 0 ≤ (P.descriptors k).owner := by simp [hP, prefixPool]
  simp only [Option.map_some, Option.some.injEq, Prod.mk.injEq, true_and, List.nil_append,
    and_true, if_neg howner, Bool.false_eq_true, if_false]
  ext
  · rfl
  · rfl
  · rename_i i
    by_cases hi : i = k
    · subst hi
      simp [hP, prefixPool]
    · simp only [hP, prefixPool, Pool.setBpage_descriptors, hi, if_false]
      split_ifs <;> simp_all <;> omega
  · simp [hP, prefixPool]
    omega
  · rfl
  · rename_i c
    by_cases hc : c = 0 <;> simp [hP, prefixPool, hc]
  · rfl

theorem homaPoolAllocMsg_prefixPool (hk : k < n) (fuel id : ℕ) :
    homaPoolAllocMsg (fuel + 2) 0 0 0 id homaBpageSize (prefixPool n k) =
      some (0, prefixPool n (k + 1), [bpageOffset k]) := by
  have hfull : homaBpageSize >>> homaBpageShift = 1 := by decide
  have hpart : homaBpageSize &&& (homaBpageSize - 1) = 0 := by decide
  have hreg : (prefixPool n k).region = true := rfl
  simp only [homaPoolAllocMsg, hreg, hfull, Bool.not_true, Bool.false_eq_true, if_false,
    homaPoolGetPages_prefixPool hk fuel]
  simp [hpart]

theorem PoolSys.step_prefix (hk : k < n) :
    PoolSys.step ⟨prefixPool n k, prefixMsgs k⟩ (.allocMsg 0 0 0 k homaBpageSize) =
      some ⟨prefixPool n (k + 1), prefixMsgs (k + 1)⟩ := by
  have hfuel : poolFuel (prefixPool n k) = (2 * n + 2) + 2 := by simp [poolFuel, prefixPool]
  simp only [PoolSys.step]
  rw [if_pos (by simp [homaBpageSize, homaBpageShift, homaMaxMessageLength]), hfuel,
    homaPoolAllocMsg_prefixPool hk]
  simp [prefixMsgs, List.range_succ]

theorem PoolSys.reachable_prefix (hn : 2 ≤ n) (hlt : n < 2 ^ 31) :
    ∀ k ≤ n, PoolSys.Reachable ⟨prefixPool n k, prefixMsgs k⟩
  | 0, _ => .init ⟨⟨n * homaBpageSize, homaPoolSetRegion_prefixPool hn hlt⟩, rfl⟩
  | k + 1, hk => .step (PoolSys.reachable_prefix hn hlt k (by omega)) (PoolSys.step_prefix hk)

end Wrap

/-- On a region of `2 ^ 16 + 1` bpages, after `2 ^ 16 + 1` one-bpage messages
from core `0`, the first and the last have their space at offset `0`: the
last one's bpage `2 ^ 16` is referenced but no message points into it, and
bpage `0` has one reference but two messages. -/
theorem homaPoolAllocMsg_offsets_wrap :
    ∃ s : PoolSys, s.Reachable ∧ s.pool.numBpages = 2 ^ 16 + 1 ∧
      s.msgs[0]? = some ⟨[0], homaBpageSize⟩ ∧ s.msgs[2 ^ 16]? = some ⟨[0], homaBpageSize⟩ ∧
      (s.pool.descriptors 0).refs = 1 ∧ (s.pool.descriptors (2 ^ 16)).refs = 1 := by
  refine ⟨⟨prefixPool (2 ^ 16 + 1) (2 ^ 16 + 1), prefixMsgs (2 ^ 16 + 1)⟩,
    PoolSys.reachable_prefix (by norm_num) (by norm_num) _ le_rfl, rfl, ?_, ?_, ?_, ?_⟩
  · simp [prefixMsgs, bpageOffset]
  · simp [prefixMsgs, bpageOffset, homaBpageShift]
  · simp [prefixPool]
  · simp [prefixPool]

end Homa
