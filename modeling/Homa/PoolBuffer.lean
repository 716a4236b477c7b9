import Homa.PoolSystem
import Homa.MessageOutFill

/-!
# From message offsets to buffer addresses

`homa_pool_get_buffer` turns a message offset into an address: entry
`offset >> 16` of `msgin.bpage_offsets` plus the offset within the bpage.
`homa_copy_to_pool` copies each packet out in chunks, never past what the
call says is `available`.  For the offsets `homa_pool_alloc_msg` gives a
message (`BufferLayout`) the addresses run on with the offsets, so the copy
writes every byte where it belongs.  The entries are `u32` region offsets:
in a pool of more than `2 ^ 16` bpages they wrap.
-/

namespace Homa

open FuelLoop

/-! ## `homa_pool_get_buffer` -/

/-- `homa_pool_get_buffer(rpc, offset, &available)`: the address as a region
offset (`none` for `NULL`) and `available`. -/
def homaPoolGetBuffer (length : ℤ) (bpageOffsets : List ℕ) (offset : ℤ) : Option ℕ × ℤ :=
  let bpageIndex := offset >>> homaBpageShift
  if offset ≥ length then (none, 0)
  else
    let bpageOffset := offset % (homaBpageSize : ℤ)
    let available := if bpageIndex < (bpageOffsets.length : ℤ) - 1
      then homaBpageSize - bpageOffset else length - offset
    (some (bpageOffsets.getD bpageIndex.toNat 0 + bpageOffset.toNat), available)

/-- The space `homa_pool_alloc_msg` gives a message of `length` bytes: one
entry of `bpage_offsets` for each bpage it spans. -/
def BufferLayout (length : ℤ) (bpageOffsets : List ℕ) : Prop :=
  ((bpageOffsets.length : ℤ) - 1) * homaBpageSize < length ∧
    length ≤ bpageOffsets.length * homaBpageSize

/-- The address of message offset `offset`: its entry plus its place in the
bpage. -/
def bufferAddr (bpageOffsets : List ℕ) (offset : ℤ) : ℕ :=
  bpageOffsets.getD (offset / homaBpageSize).toNat 0 + (offset % homaBpageSize).toNat

/-- The bytes entry `i` of `bpage_offsets` holds: a whole bpage, and the
rest of the message for the last one. -/
def entryLength (length i : ℤ) : ℤ :=
  min homaBpageSize (length - i * homaBpageSize)

section GetBuffer

variable {length offset : ℤ} {bpageOffsets : List ℕ}

theorem bpageIndex_eq (offset : ℤ) : offset >>> homaBpageShift = offset / homaBpageSize := by
  rw [Int.shiftRight_eq_div_pow]
  rfl

/-- Inside the message, the address is the entry covering the offset plus
the place in its bpage; at least one byte is available there, and no more
than the entry holds. -/
theorem homaPoolGetBuffer_spec (hlayout : BufferLayout length bpageOffsets) (h0 : 0 ≤ offset)
    (hlt : offset < length) :
    ∃ available, homaPoolGetBuffer length bpageOffsets offset =
        (some (bufferAddr bpageOffsets offset), available) ∧
      1 ≤ available ∧
      offset % homaBpageSize + available ≤ entryLength length (offset / homaBpageSize) ∧
      (offset / homaBpageSize).toNat < bpageOffsets.length := by
  obtain ⟨hlo, hhi⟩ := hlayout
  simp only [homaPoolGetBuffer, bpageIndex_eq, ge_iff_le, not_le.mpr hlt, if_false]
  simp only [entryLength, homaBpageSize, homaBpageShift] at hlo hhi ⊢
  refine ⟨_, rfl, ?_, ?_, ?_⟩
  -- the last entry takes the rest of the message, the others their bpage
  · split_ifs <;> omega
  · split_ifs <;> omega
  · omega

theorem bufferAddr_add (hlayout : BufferLayout length bpageOffsets) (h0 : 0 ≤ offset)
    (hlt : offset < length) {k : ℕ}
    (hk : (k : ℤ) < (homaPoolGetBuffer length bpageOffsets offset).2) :
    bufferAddr bpageOffsets (offset + k) = bufferAddr bpageOffsets offset + k := by
  obtain ⟨available, heq, -, hroom, -⟩ := homaPoolGetBuffer_spec hlayout h0 hlt
  rw [heq] at hk
  have hroom' : offset % homaBpageSize + k < homaBpageSize := by
    have := min_le_left (homaBpageSize : ℤ) (length - offset / homaBpageSize * homaBpageSize)
    simp only [entryLength] at hroom
    omega
  have hdiv : (offset + k) / homaBpageSize = offset / homaBpageSize := by
    simp only [homaBpageSize, homaBpageShift] at hroom' ⊢
    omega
  have hmod : (offset + k) % homaBpageSize = offset % homaBpageSize + k := by
    simp only [homaBpageSize, homaBpageShift] at hroom' ⊢
    omega
  have hnn : 0 ≤ offset % (homaBpageSize : ℤ) := Int.emod_nonneg _ (by simp [homaBpageSize])
  simp only [bufferAddr, hdiv, hmod]
  omega

/-- A message of one bpage and 1000 bytes whose second bpage lies before
its first in the region. -/
def swappedOffsets : List ℕ := [2 * homaBpageSize, 0]

end GetBuffer

/-! ## The copy loop of `homa_copy_to_pool` -/

/-- A chunk the loop copies: `size` bytes from byte `src` of the packet's
payload to `dst`. -/
structure CopyChunk where
  dst : ℕ
  src : ℤ
  size : ℤ
  deriving DecidableEq, Repr

/-- The bytes a chunk writes, each as its address and its payload byte. -/
def CopyChunk.bytes (c : CopyChunk) : List (ℕ × ℕ) :=
  (List.range c.size.toNat).map fun k => (c.dst + k, c.src.toNat + k)

/-- The state of the inner loop: `copied`, and the chunks copied so far. -/
structure CopyLoop where
  copied : ℤ
  chunks : List CopyChunk

/-- One iteration of the inner loop of `homa_copy_to_pool` for a packet at
`offset` with `pktLength` bytes of payload; an invalid destination ends the
copy with `-EFAULT`. -/
def homaCopyToPoolBody (length : ℤ) (bpageOffsets : List ℕ) (offset pktLength : ℤ)
    (st : CopyLoop) : Option (Step CopyLoop (Except ℤ (List CopyChunk))) :=
  if st.copied < pktLength then
    let chunkSize := pktLength - st.copied
    match homaPoolGetBuffer length bpageOffsets (offset + st.copied) with
    | (none, _) => some (.done (.error (-efault)))
    | (some dst, bufBytes) =>
        if bufBytes ≤ 0 then some (.done (.error (-efault)))
        else if bufBytes < chunkSize then
          -- the `break` for `buf_bytes == 0`, which the check above rules out
          if bufBytes = 0 then some (.done (.ok st.chunks))
          else some (.next ⟨st.copied + bufBytes, st.chunks ++ [⟨dst, st.copied, bufBytes⟩]⟩)
        else some (.next ⟨st.copied + chunkSize, st.chunks ++ [⟨dst, st.copied, chunkSize⟩]⟩)
  else some (.done (.ok st.chunks))

/-- The inner loop for one packet.  Every iteration copies at least one
byte or leaves, so `pktLength + 1` iterations are always enough
(`homaCopyToPoolPacket_terminates`). -/
def homaCopyToPoolPacket (length : ℤ) (bpageOffsets : List ℕ) (offset pktLength : ℤ) :
    Option (Except ℤ (List CopyChunk)) :=
  run (homaCopyToPoolBody length bpageOffsets offset pktLength) (pktLength.toNat + 1) ⟨0, []⟩

section CopyLoop

variable {length offset pktLength : ℤ} {bpageOffsets : List ℕ} {st st' : CopyLoop}

theorem homaCopyToPoolBody_next
    (h : homaCopyToPoolBody length bpageOffsets offset pktLength st = some (.next st')) :
    ∃ dst n, (homaPoolGetBuffer length bpageOffsets (offset + st.copied)).1 = some dst ∧
      1 ≤ n ∧ n ≤ (homaPoolGetBuffer length bpageOffsets (offset + st.copied)).2 ∧
      st.copied + n ≤ pktLength ∧
      st' = ⟨st.copied + n, st.chunks ++ [⟨dst, st.copied, n⟩]⟩ := by
  unfold homaCopyToPoolBody at h
  split_ifs at h with hcopied
  · rcases hget : homaPoolGetBuffer length bpageOffsets (offset + st.copied) with
      ⟨_ | dst, bufBytes⟩
    · simp [hget] at h
    · simp only [hget] at h
      split_ifs at h with hpos hlt hzero <;> cases h
      · -- the buffer ends before the packet: copy what it has room for
        exact ⟨dst, bufBytes, rfl, by omega, le_rfl, by omega, rfl⟩
      · -- the rest of the packet fits
        exact ⟨dst, pktLength - st.copied, rfl, by omega, by omega, by omega, rfl⟩
  · cases h

theorem homaCopyToPoolBody_done {r : Except ℤ (List CopyChunk)}
    (h : homaCopyToPoolBody length bpageOffsets offset pktLength st = some (.done r)) :
    (pktLength ≤ st.copied ∧ r = .ok st.chunks) ∨
      (st.copied < pktLength ∧
        ((homaPoolGetBuffer length bpageOffsets (offset + st.copied)).1 = none ∨
          (homaPoolGetBuffer length bpageOffsets (offset + st.copied)).2 ≤ 0)) := by
  unfold homaCopyToPoolBody at h
  split_ifs at h with hcopied
  · rcases hget : homaPoolGetBuffer length bpageOffsets (offset + st.copied) with
      ⟨_ | dst, bufBytes⟩
    · exact .inr ⟨hcopied, .inl rfl⟩
    · simp only [hget] at h
      split_ifs at h with hpos hlt hzero <;> cases h
      · exact .inr ⟨hcopied, .inr hpos⟩
      · exact .inr ⟨hcopied, .inr (by omega)⟩
  · cases h
    exact .inl ⟨by omega, rfl⟩

theorem homaCopyToPoolBody_isSome (st : CopyLoop) :
    ∃ t, homaCopyToPoolBody length bpageOffsets offset pktLength st = some t := by
  unfold homaCopyToPoolBody
  split_ifs
  · rcases homaPoolGetBuffer length bpageOffsets (offset + st.copied) with ⟨_ | dst, bufBytes⟩
    · exact ⟨_, rfl⟩
    · dsimp only
      split_ifs <;> exact ⟨_, rfl⟩
  · exact ⟨_, rfl⟩

theorem copyChunks_bytes_step (hlayout : BufferLayout length bpageOffsets) (h0 : 0 ≤ offset)
    {copied n : ℤ} {dst : ℕ} (hcopied : 0 ≤ copied) (hlt : offset + copied < length)
    (hdst : (homaPoolGetBuffer length bpageOffsets (offset + copied)).1 = some dst)
    (hn : 0 ≤ n) (havail : n ≤ (homaPoolGetBuffer length bpageOffsets (offset + copied)).2) :
    (List.range copied.toNat).map (fun j : ℕ => (bufferAddr bpageOffsets (offset + j), j)) ++
        (⟨dst, copied, n⟩ : CopyChunk).bytes =
      (List.range (copied + n).toNat).map fun j : ℕ => (bufferAddr bpageOffsets (offset + j), j) := by
  obtain ⟨available, heq, -, -, -⟩ := homaPoolGetBuffer_spec hlayout (by omega) hlt
  have hdst' : dst = bufferAddr bpageOffsets (offset + copied) := by
    rw [heq] at hdst
    exact (Option.some.inj hdst).symm
  rw [show (copied + n).toNat = copied.toNat + n.toNat by omega, List.range_add, List.map_append,
    List.map_map]
  congr 1
  simp only [CopyChunk.bytes]
  apply List.map_congr_left
  intro k hk
  have hk' : (k : ℤ) < (homaPoolGetBuffer length bpageOffsets (offset + copied)).2 := by
    simp only [List.mem_range] at hk
    omega
  have hrun := bufferAddr_add hlayout (by omega) hlt hk'
  simp only [Function.comp, Nat.cast_add, Int.toNat_of_nonneg hcopied, ← add_assoc, hrun, hdst']

/-- A packet inside the message is copied whole: byte `j` of its payload
goes to the address of offset `offset + j`, each once and in order, across
bpage boundaries. -/
theorem homaCopyToPoolPacket_copies (hlayout : BufferLayout length bpageOffsets)
    (h0 : 0 ≤ offset) (hpkt : 0 ≤ pktLength) (hend : offset + pktLength ≤ length) :
    ∃ chunks, homaCopyToPoolPacket length bpageOffsets offset pktLength = some (.ok chunks) ∧
      chunks.flatMap CopyChunk.bytes =
        (List.range pktLength.toNat).map fun j : ℕ => (bufferAddr bpageOffsets (offset + j), j) := by
  -- the chunks so far cover the first `copied` bytes
  let inv : CopyLoop → Prop := fun st => 0 ≤ st.copied ∧ st.copied ≤ pktLength ∧
    st.chunks.flatMap CopyChunk.bytes =
      (List.range st.copied.toNat).map fun j : ℕ => (bufferAddr bpageOffsets (offset + j), j)
  let post : Except ℤ (List CopyChunk) → Prop := fun r => ∃ chunks, r = .ok chunks ∧
    chunks.flatMap CopyChunk.bytes =
      (List.range pktLength.toNat).map fun j : ℕ => (bufferAddr bpageOffsets (offset + j), j)
  have hbody : ∀ st, inv st → ∀ t, homaCopyToPoolBody length bpageOffsets offset pktLength st =
      some t → t.Holds inv post ∧ ∀ st', t = .next st' →
        (pktLength - st'.copied).toNat < (pktLength - st.copied).toNat := by
    intro st ⟨hc0, hcle, hbytes⟩ t ht
    cases t with
    | next st' =>
      obtain ⟨dst, n, hdst, hn, havail, hle, rfl⟩ := homaCopyToPoolBody_next ht
      refine ⟨⟨show 0 ≤ st.copied + n by omega, hle, ?_⟩, fun _ h => by cases h; dsimp only; omega⟩
      rw [List.flatMap_append, hbytes, List.flatMap_singleton]
      exact copyChunks_bytes_step hlayout h0 hc0 (by omega) hdst (by omega) havail
    | done r =>
      refine ⟨?_, fun _ h => by cases h⟩
      rcases homaCopyToPoolBody_done ht with ⟨hge, rfl⟩ | ⟨hlt, hbad⟩
      · have hcopied : st.copied = pktLength := by omega
        exact ⟨st.chunks, rfl, hcopied ▸ hbytes⟩
      · -- inside the message the destination is always valid
        obtain ⟨available, heq, hpos, -, -⟩ :=
          homaPoolGetBuffer_spec hlayout (show 0 ≤ offset + st.copied by omega) (by omega)
        rw [heq] at hbad
        rcases hbad with hnone | hle
        · cases hnone
        · dsimp only at hle
          omega
  obtain ⟨r, hr, chunks, rfl, hcover⟩ := run_terminates
    (fun st => (pktLength - st.copied).toNat) hbody (fun st _ => homaCopyToPoolBody_isSome st)
    (pktLength.toNat + 1) ⟨0, []⟩ ⟨le_rfl, hpkt, by simp⟩ (by dsimp only; omega)
  exact ⟨chunks, hr, hcover⟩

theorem homaCopyToPoolPacket_copies_acrossBpages :
    BufferLayout (homaBpageSize + 1000) swappedOffsets ∧
      ∃ chunks, homaCopyToPoolPacket (homaBpageSize + 1000) swappedOffsets 65000 1400 =
          some (.ok chunks) ∧
        chunks.flatMap CopyChunk.bytes = (List.range (1400 : ℤ).toNat).map
          fun j : ℕ => (bufferAddr swappedOffsets (65000 + j), j) := by
  have hlayout : BufferLayout (homaBpageSize + 1000) swappedOffsets := by
    norm_num [BufferLayout, swappedOffsets, homaBpageSize, homaBpageShift]
  exact ⟨hlayout, homaCopyToPoolPacket_copies hlayout (by norm_num) (by norm_num)
    (by norm_num [homaBpageSize, homaBpageShift])⟩

end CopyLoop

/-! ## The buffers `homa_pool_alloc_msg` gives -/

section AllocMsg

variable {fuel coreId now leaseCycles id length : ℕ} {pool pool' : Pool} {offsets : List ℕ}

theorem homaPoolAllocMsg_length
    (h : homaPoolAllocMsg fuel coreId now leaseCycles id length pool = some (0, pool', offsets))
    (hne : offsets ≠ []) :
    offsets.length = length >>> homaBpageShift +
      (if length &&& (homaBpageSize - 1) = 0 then 0 else 1) := by
  unfold homaPoolAllocMsg at h
  split_ifs at h with hreg
  · simp at h
    exact absurd h.2.2 hne
  extract_lets fullPages partialLen cont at h
  -- what follows the search for the full bpages: the partial bpage, if any
  have htail : ∀ x : ℤ × Pool × List ℕ, cont x = some (0, pool', offsets) →
      x.1 = 0 ∧ offsets.length = x.2.2.length + (if partialLen = 0 then 0 else 1) := by
    rintro ⟨res, pool₁, pages⟩ hx
    simp only [cont] at hx
    split_ifs at hx with hres hpart hown
    · simp at hx
      exact absurd hx.2 hne
    · simp only [Option.pure_def, Option.some.injEq, Prod.mk.injEq] at hx
      obtain ⟨-, -, rfl⟩ := hx
      exact ⟨not_not.mp hres, by simp [hpart]⟩
    · simp only [Option.pure_def, Option.some.injEq, Prod.mk.injEq] at hx
      obtain ⟨-, -, rfl⟩ := hx
      exact ⟨not_not.mp hres, by simp [hpart]⟩
    · -- `new_page`: one more bpage for the partial chunk
      obtain ⟨y, -, hy⟩ := Option.bind_eq_some_iff.mp hx
      split_ifs at hy with hres'
      · simp at hy
        exact absurd hy.2 hne
      · simp only [Option.pure_def, Option.some.injEq, Prod.mk.injEq] at hy
        obtain ⟨-, -, rfl⟩ := hy
        exact ⟨not_not.mp hres, by simp [hpart]⟩
  split_ifs at h with hfull
  · obtain ⟨x, hx, hk⟩ := Option.bind_eq_some_iff.mp h
    obtain ⟨hres, hlen⟩ := htail x hk
    have hpages : x.2.2.length = fullPages := by
      obtain ⟨res, pool₁, pages⟩ := x
      simp only at hres
      subst hres
      exact homaPoolGetPages_length hx
    rw [hlen, hpages]
  · obtain ⟨-, hlen⟩ := htail (0, pool, []) h
    rw [hlen, show length >>> homaBpageShift = 0 from not_not.mp hfull]
    rfl

/-- The space `homa_pool_alloc_msg` hands out is laid out as
`homa_pool_get_buffer` expects: full bpages, then a partial last one. -/
theorem homaPoolAllocMsg_layout
    (h : homaPoolAllocMsg fuel coreId now leaseCycles id length pool = some (0, pool', offsets))
    (hne : offsets ≠ []) : BufferLayout length offsets := by
  have hlen := homaPoolAllocMsg_length h hne
  have hpos : 0 < offsets.length := List.length_pos_iff.mpr hne
  simp only [homaBpageSize, homaBpageShift, Nat.shiftRight_eq_div_pow,
    Nat.and_two_pow_sub_one_eq_mod] at hlen
  simp only [BufferLayout, homaBpageSize, homaBpageShift]
  split_ifs at hlen with hmod <;> omega

theorem homaPoolAllocMsg_layout_partialBpage :
    ∃ pool', homaPoolAllocMsg 20 0 0 0 0 (homaBpageSize + 1000) (prefixPool 4 0) =
        some (0, pool', [0, homaBpageSize]) ∧
      BufferLayout (homaBpageSize + 1000 : ℕ) [0, homaBpageSize] := by
  have hrun : (homaPoolAllocMsg 20 0 0 0 0 (homaBpageSize + 1000) (prefixPool 4 0)).map
      (fun r => (r.1, r.2.2)) = some (0, [0, homaBpageSize]) := by
    decide +kernel
  obtain ⟨⟨res, pool', offsets⟩, hr, hval⟩ := Option.map_eq_some_iff.1 hrun
  simp only [Prod.mk.injEq] at hval
  obtain ⟨rfl, rfl⟩ := hval
  exact ⟨pool', hr, homaPoolAllocMsg_layout hr (List.cons_ne_nil _ _)⟩

end AllocMsg

/-- On a region of `2 ^ 16 + 1` bpages, after `2 ^ 16 + 1` one-bpage
messages from core `0`, the last message holds bpage `2 ^ 16`, which starts
at byte `2 ^ 32` of the region.  Yet every offset of it maps below that
bpage, to the address the first message has for the same offset: the two
messages are copied into the same space. -/
theorem homaPoolGetBuffer_wrap :
    ∃ s : PoolSys, s.Reachable ∧ ∃ first last : LiveMsg,
      s.msgs[0]? = some first ∧ s.msgs[2 ^ 16]? = some last ∧
      (s.pool.descriptors (2 ^ 16)).refs = 1 ∧
      ∀ offset : ℤ, 0 ≤ offset → offset < last.length →
        (homaPoolGetBuffer last.length last.offsets offset).1 =
          (homaPoolGetBuffer first.length first.offsets offset).1 ∧
        ∀ addr, (homaPoolGetBuffer last.length last.offsets offset).1 = some addr →
          addr < 2 ^ 16 * homaBpageSize := by
  have hlayout : BufferLayout homaBpageSize [0] := by
    simp [BufferLayout, homaBpageSize]
  -- both messages have the single entry `0`: bpage `2 ^ 16` wraps to it
  refine ⟨⟨prefixPool (2 ^ 16 + 1) (2 ^ 16 + 1), prefixMsgs (2 ^ 16 + 1)⟩,
    PoolSys.reachable_prefix (by norm_num) (by norm_num) _ le_rfl, ⟨[0], homaBpageSize⟩,
    ⟨[0], homaBpageSize⟩, ?_, ?_, ?_, ?_⟩
  · simp [prefixMsgs, bpageOffset]
  · simp [prefixMsgs, bpageOffset, homaBpageShift]
  · simp [prefixPool]
  intro offset h0 hlt
  change offset < (homaBpageSize : ℤ) at hlt
  refine ⟨rfl, fun addr haddr => ?_⟩
  change (homaPoolGetBuffer homaBpageSize [0] offset).1 = some addr at haddr
  obtain ⟨available, heq, -, -, -⟩ := homaPoolGetBuffer_spec hlayout h0 hlt
  rw [heq, Option.some.injEq] at haddr
  subst haddr
  -- the address is the offset itself, inside bpage `0`
  have hdiv : offset / (homaBpageSize : ℤ) = 0 := Int.ediv_eq_zero_of_lt h0 hlt
  simp only [bufferAddr, hdiv, Int.toNat_zero, List.getD_cons_zero, zero_add]
  simp only [homaBpageSize, homaBpageShift] at hlt ⊢
  omega

end Homa
