import Homa.MessageOutFill

/-!
# The receive-buffer pool

`homa_pool.c` hands out a socket's buffer region in bpages of
`HOMA_BPAGE_SIZE` bytes: a message gets a whole bpage for each full
`HOMA_BPAGE_SIZE` bytes (`homa_pool_get_pages`) and its partial last bpage
as a chunk of one its core owns; `refs` counts the messages in a bpage plus
its owner.  Offsets are `u32` values `page << HOMA_BPAGE_SHIFT`.  Each call
holds its locks throughout, so `spin_trylock_bh` succeeds.
-/

namespace Homa

open FuelLoop

def homaBpageShift : ℕ := 16

def homaBpageSize : ℕ := 2 ^ homaBpageShift

def minPoolSize : ℤ := 2

def minExtra : ℤ := 4

def intMax : ℤ := 2 ^ 31 - 1

/-- The `u32` offset of the start of bpage `page` in the region. -/
def bpageOffset (page : ℕ) : ℕ :=
  (page <<< homaBpageShift) % 2 ^ 32

/-- `struct homa_bpage`; an `owner` below zero means none. -/
structure Bpage where
  refs : ℤ
  owner : ℤ
  expiration : ℕ
  deriving DecidableEq, Repr

/-- `struct homa_pool_core`. -/
structure PoolCore where
  pageHint : ℕ
  allocated : ℕ
  nextCandidate : ℕ
  deriving DecidableEq, Repr

/-- `struct homa_pool`, with the socket's `waiting_for_bufs` as the ids and
message lengths of the RPCs on it. -/
@[ext] structure Pool where
  region : Bool
  numBpages : ℕ
  descriptors : ℕ → Bpage
  freeBpages : ℤ
  bpagesNeeded : ℤ
  cores : ℕ → PoolCore
  waitingForBufs : List (ℕ × ℕ)

namespace Pool

def setBpage (pool : Pool) (i : ℕ) (b : Bpage) : Pool :=
  { pool with descriptors := Function.update pool.descriptors i b }

def setCore (pool : Pool) (c : ℕ) (core : PoolCore) : Pool :=
  { pool with cores := Function.update pool.cores c core }

variable (pool : Pool) (i c : ℕ) (b : Bpage) (core : PoolCore)

@[simp] theorem setBpage_descriptors (j : ℕ) :
    (pool.setBpage i b).descriptors j = if j = i then b else pool.descriptors j := by
  by_cases h : j = i
  · subst h
    simp [setBpage]
  · simp [setBpage, h]

@[simp] theorem setBpage_region : (pool.setBpage i b).region = pool.region := rfl
@[simp] theorem setBpage_numBpages : (pool.setBpage i b).numBpages = pool.numBpages := rfl
@[simp] theorem setBpage_freeBpages : (pool.setBpage i b).freeBpages = pool.freeBpages := rfl
@[simp] theorem setBpage_bpagesNeeded :
    (pool.setBpage i b).bpagesNeeded = pool.bpagesNeeded := rfl
@[simp] theorem setBpage_cores : (pool.setBpage i b).cores = pool.cores := rfl
@[simp] theorem setBpage_waitingForBufs :
    (pool.setBpage i b).waitingForBufs = pool.waitingForBufs := rfl

@[simp] theorem setCore_cores (d : ℕ) :
    (pool.setCore c core).cores d = if d = c then core else pool.cores d := by
  by_cases h : d = c
  · subst h
    simp [setCore]
  · simp [setCore, h]

@[simp] theorem setCore_region : (pool.setCore c core).region = pool.region := rfl
@[simp] theorem setCore_numBpages : (pool.setCore c core).numBpages = pool.numBpages := rfl
@[simp] theorem setCore_descriptors : (pool.setCore c core).descriptors = pool.descriptors := rfl
@[simp] theorem setCore_freeBpages : (pool.setCore c core).freeBpages = pool.freeBpages := rfl
@[simp] theorem setCore_bpagesNeeded :
    (pool.setCore c core).bpagesNeeded = pool.bpagesNeeded := rfl
@[simp] theorem setCore_waitingForBufs :
    (pool.setCore c core).waitingForBufs = pool.waitingForBufs := rfl

end Pool

/-! ## Setting up the region -/

/-- `homa_pool_set_region`: `aligned` is the page alignment of the region,
`allocOk` the success of the two allocations of the descriptors and the
per-core data. -/
def homaPoolSetRegion (aligned allocOk : Bool) (regionSize : ℕ) (pool : Pool) : ℤ × Pool :=
  if !aligned then (-einval, pool)
  else
    let numBpages := MachineArith.wrapInt 32 (regionSize >>> homaBpageShift : ℕ)
    if numBpages < minPoolSize then (-einval, pool)
    else if !allocOk then (-enomem, pool)
    else if pool.region then (-einval, pool)
    else
      (0, { region := true, numBpages := numBpages.toNat
            descriptors := fun _ => { refs := 0, owner := -1, expiration := 0 }
            freeBpages := numBpages, bpagesNeeded := intMax
            cores := fun _ => { pageHint := 0, allocated := 0, nextCandidate := 0 }
            waitingForBufs := pool.waitingForBufs })

/-! ## `homa_pool_get_pages` -/

/-- `homa_bpage_available`: free, or owned with no message in it and its
lease expired. -/
def homaBpageAvailable (bpage : Bpage) (now : ℕ) : Bool :=
  bpage.refs = 0 || (bpage.refs = 1 && 0 ≤ bpage.owner && bpage.expiration ≤ now)

/-- The candidate range of `homa_pool_get_pages`: the bpages not free, plus a
quarter more (at least `MIN_EXTRA`), at most the whole pool. -/
def homaPoolLimit (pool : Pool) : ℤ :=
  let limit := (pool.numBpages : ℤ) - pool.freeBpages
  let extra := limit >>> 2
  let limit := limit + (if extra < minExtra then minExtra else extra)
  if limit > pool.numBpages then pool.numBpages else limit

/-- The state of the loop of `homa_pool_get_pages`: the pool, `limit`, and
`pages[0 .. alloced)`. -/
structure GetPagesLoop where
  pool : Pool
  limit : ℤ
  pages : List ℕ

/-- One iteration of the loop of `homa_pool_get_pages`. -/
def homaPoolGetPagesBody (numPages : ℕ) (setOwner : Bool) (coreNum now leaseCycles : ℕ)
    (st : GetPagesLoop) : Option (Step GetPagesLoop (Pool × List ℕ)) :=
  if st.pages.length = numPages then some (.done (st.pool, st.pages))
  else
    let limit := if st.limit = 0 then homaPoolLimit st.pool else st.limit
    let core := st.pool.cores coreNum
    let cur := core.nextCandidate
    if limit ≤ cur then
      -- back to the first bpage, with the range computed again
      some (.next { st with pool := st.pool.setCore coreNum { core with nextCandidate := 0 },
                            limit := 0 })
    else
      let pool := st.pool.setCore coreNum { core with nextCandidate := cur + 1 }
      let bpage := pool.descriptors cur
      if !homaBpageAvailable bpage now then some (.next { pool, limit, pages := st.pages })
      else
        -- a stolen bpage was not counted in `free_bpages`
        let pool := if 0 ≤ bpage.owner then { pool with freeBpages := pool.freeBpages + 1 }
          else pool
        let bpage : Bpage := if setOwner then
            { refs := 2, owner := coreNum, expiration := now + leaseCycles }
          else { bpage with refs := 1, owner := -1 }
        some (.next { pool := pool.setBpage cur bpage, limit, pages := st.pages ++ [cur] })

/-- The range an iteration searches: the one computed before, or a new one
when `limit` is zero. -/
def GetPagesLoop.range (st : GetPagesLoop) : ℤ :=
  if st.limit = 0 then homaPoolLimit st.pool else st.limit

section GetPagesBody

variable {numPages : ℕ} {setOwner : Bool} {coreNum now leaseCycles cur : ℕ} {st : GetPagesLoop}

theorem homaPoolGetPagesBody_done (h : st.pages.length = numPages) :
    homaPoolGetPagesBody numPages setOwner coreNum now leaseCycles st =
      some (.done (st.pool, st.pages)) := by
  simp [homaPoolGetPagesBody, h]

theorem homaPoolGetPagesBody_wrap (h : st.pages.length ≠ numPages)
    (hcur : (st.pool.cores coreNum).nextCandidate = cur) (hlimit : st.range ≤ cur) :
    homaPoolGetPagesBody numPages setOwner coreNum now leaseCycles st =
      some (.next { st with
        pool := st.pool.setCore coreNum { st.pool.cores coreNum with nextCandidate := 0 },
        limit := 0 }) := by
  unfold GetPagesLoop.range at hlimit
  simp only [homaPoolGetPagesBody, h, if_false, hcur]
  rw [if_pos hlimit]

theorem homaPoolGetPagesBody_skip (h : st.pages.length ≠ numPages)
    (hcur : (st.pool.cores coreNum).nextCandidate = cur) (hlimit : ¬ st.range ≤ cur)
    (havail : homaBpageAvailable (st.pool.descriptors cur) now = false) :
    homaPoolGetPagesBody numPages setOwner coreNum now leaseCycles st =
      some (.next { pool := st.pool.setCore coreNum { st.pool.cores coreNum with nextCandidate := cur + 1 },
                    limit := st.range, pages := st.pages }) := by
  unfold GetPagesLoop.range at hlimit ⊢
  simp only [homaPoolGetPagesBody, h, if_false, hcur]
  rw [if_neg hlimit]
  simp [havail]

theorem homaPoolGetPagesBody_take (h : st.pages.length ≠ numPages)
    (hcur : (st.pool.cores coreNum).nextCandidate = cur) (hlimit : ¬ st.range ≤ cur)
    (havail : homaBpageAvailable (st.pool.descriptors cur) now = true) :
    homaPoolGetPagesBody numPages setOwner coreNum now leaseCycles st =
      let bpage := st.pool.descriptors cur
      let pool := st.pool.setCore coreNum { st.pool.cores coreNum with nextCandidate := cur + 1 }
      let pool := if 0 ≤ bpage.owner then { pool with freeBpages := pool.freeBpages + 1 } else pool
      let bpage : Bpage := if setOwner then
          { refs := 2, owner := coreNum, expiration := now + leaseCycles }
        else { bpage with refs := 1, owner := -1 }
      some (.next { pool := pool.setBpage cur bpage, limit := st.range,
                    pages := st.pages ++ [cur] }) := by
  unfold GetPagesLoop.range at hlimit ⊢
  simp only [homaPoolGetPagesBody, h, if_false, hcur]
  rw [if_neg hlimit]
  simp only [Pool.setCore_descriptors, havail, Bool.not_true, Bool.false_eq_true, if_false]
  rfl

end GetPagesBody

/-- `homa_pool_get_pages`: `-1` when `free_bpages` cannot cover `numPages`,
else `0` and the bpages found. -/
def homaPoolGetPages (fuel numPages : ℕ) (setOwner : Bool) (coreNum now leaseCycles : ℕ)
    (pool : Pool) : Option (ℤ × Pool × List ℕ) :=
  if pool.freeBpages - numPages < 0 then some (-1, pool, [])
  else
    (run (homaPoolGetPagesBody numPages setOwner coreNum now leaseCycles) fuel
        { pool := { pool with freeBpages := pool.freeBpages - numPages }, limit := 0,
          pages := [] }).map
      fun r => (0, r.1, r.2)

theorem homaPoolGetPagesBody_pages_le {numPages : ℕ} {setOwner : Bool} {coreNum now leaseCycles : ℕ}
    {st : GetPagesLoop} {t : Step GetPagesLoop (Pool × List ℕ)}
    (hle : st.pages.length ≤ numPages)
    (ht : homaPoolGetPagesBody numPages setOwner coreNum now leaseCycles st = some t) :
    t.Holds (fun st => st.pages.length ≤ numPages) (fun r => r.2.length = numPages) := by
  by_cases hdone : st.pages.length = numPages
  · rw [homaPoolGetPagesBody_done hdone] at ht
    cases ht
    exact hdone
  by_cases hwrap : st.range ≤ (st.pool.cores coreNum).nextCandidate
  · rw [homaPoolGetPagesBody_wrap hdone rfl hwrap] at ht
    cases ht
    exact hle
  cases havail : homaBpageAvailable (st.pool.descriptors (st.pool.cores coreNum).nextCandidate) now
  · rw [homaPoolGetPagesBody_skip hdone rfl hwrap havail] at ht
    cases ht
    exact hle
  · rw [homaPoolGetPagesBody_take hdone rfl hwrap havail] at ht
    cases ht
    simp only [holds_next, List.length_append, List.length_singleton]
    omega

theorem homaPoolGetPages_length {fuel numPages : ℕ} {setOwner : Bool} {coreNum now leaseCycles : ℕ}
    {pool pool' : Pool} {pages : List ℕ}
    (h : homaPoolGetPages fuel numPages setOwner coreNum now leaseCycles pool = some (0, pool', pages)) :
    pages.length = numPages := by
  unfold homaPoolGetPages at h
  split_ifs at h with hfree
  · simp at h
  · obtain ⟨r, hr, hr'⟩ := Option.map_eq_some_iff.mp h
    cases hr'
    exact run_invariant (fun st hst t ht => homaPoolGetPagesBody_pages_le hst ht) fuel _ r
      (Nat.zero_le _) hr

/-! ## `homa_pool_release_buffers` -/

/-- One iteration of the loop of `homa_pool_release_buffers`. -/
def homaPoolReleaseBuffer (acc : ℤ × Pool) (buffer : ℕ) : ℤ × Pool :=
  let pool := acc.2
  let bpageIndex := buffer >>> homaBpageShift
  if bpageIndex < pool.numBpages then
    let bpage := pool.descriptors bpageIndex
    let pool := pool.setBpage bpageIndex { bpage with refs := bpage.refs - 1 }
    (acc.1, if bpage.refs - 1 = 0 then { pool with freeBpages := pool.freeBpages + 1 } else pool)
  else (-einval, pool)

def homaPoolReleaseBuffers (buffers : List ℕ) (pool : Pool) : ℤ × Pool :=
  if !pool.region then (0, pool)
  else buffers.foldl homaPoolReleaseBuffer (0, pool)

/-! ## `homa_pool_alloc_msg` -/

/-- Where `out_of_space` links the RPC into `waiting_for_bufs`: before the
first RPC with a longer message. -/
def insertWaiting (w : ℕ × ℕ) : List (ℕ × ℕ) → List (ℕ × ℕ)
  | [] => [w]
  | other :: rest => if other.2 > w.2 then w :: other :: rest else other :: insertWaiting w rest

/-- `set_bpages_needed`, from the first RPC waiting. -/
def setBpagesNeeded (pool : Pool) : Pool :=
  match pool.waitingForBufs with
  | [] => pool
  | w :: _ => { pool with bpagesNeeded := ((w.2 + homaBpageSize - 1) >>> homaBpageShift : ℕ) }

/-- The `out_of_space` label: queue the RPC for buffer space. -/
def homaPoolOutOfSpace (id length : ℕ) (pool : Pool) : Pool :=
  setBpagesNeeded { pool with waitingForBufs := insertWaiting (id, length) pool.waitingForBufs }

/-- Whether the core's own bpage takes the chunk: `true` with the bpage
referenced once more (and its space reused if no message is left in it), or
`false` once the core has given up a full bpage or owns none. -/
def homaPoolOwnPage (coreId now leaseCycles partialLen : ℕ) (pool : Pool) : Pool × Bool :=
  let core := pool.cores coreId
  let bpage := pool.descriptors core.pageHint
  let take := fun (pool : Pool) =>
    pool.setBpage core.pageHint { bpage with expiration := now + leaseCycles, refs := bpage.refs + 1 }
  if bpage.owner ≠ coreId then (pool, false)
  else if core.allocated + partialLen > homaBpageSize then
    if bpage.refs = 1 then
      (take (pool.setCore coreId { core with allocated := 0 }), true)
    else
      (pool.setBpage core.pageHint { bpage with owner := -1, refs := bpage.refs - 1 }, false)
  else (take pool, true)

/-- The `allocate_partial` label: the chunk at `allocated` in the core's
bpage. -/
def homaPoolAllocatePartial (coreId partialLen : ℕ) (pool : Pool) : Pool × ℕ :=
  let core := pool.cores coreId
  (pool.setCore coreId { core with allocated := core.allocated + partialLen },
    (core.allocated + (core.pageHint <<< homaBpageShift)) % 2 ^ 32)

/-- `homa_pool_alloc_msg` for the RPC `id` with a message of `length`
bytes: the result, the pool, and `msgin.bpage_offsets[0 .. num_bpages)`. -/
def homaPoolAllocMsg (fuel coreId now leaseCycles id length : ℕ) (pool : Pool) :
    Option (ℤ × Pool × List ℕ) := do
  if !pool.region then return (-enomem, pool, [])
  let fullPages := length >>> homaBpageShift
  let (res, pool, pages) ← if fullPages ≠ 0 then
      homaPoolGetPages fuel fullPages false coreId now leaseCycles pool
    else pure (0, pool, [])
  if res ≠ 0 then return (0, homaPoolOutOfSpace id length pool, [])
  let offsets := pages.map bpageOffset
  let partialLen := length &&& (homaBpageSize - 1)
  if partialLen = 0 then return (0, pool, offsets)
  let (pool, own) := homaPoolOwnPage coreId now leaseCycles partialLen pool
  if own then
    let (pool, offset) := homaPoolAllocatePartial coreId partialLen pool
    return (0, pool, offsets ++ [offset])
  -- `new_page`
  let (res, pool, page) ← homaPoolGetPages fuel 1 true coreId now leaseCycles pool
  if res ≠ 0 then
    return (0, homaPoolOutOfSpace id length (homaPoolReleaseBuffers offsets pool).2, [])
  let pool := pool.setCore coreId { pool.cores coreId with pageHint := page.headD 0, allocated := 0 }
  let (pool, offset) := homaPoolAllocatePartial coreId partialLen pool
  return (0, pool, offsets ++ [offset])

end Homa
