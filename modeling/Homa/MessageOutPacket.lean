import Homa.MessageOutFill
import Homa.IntervalList

/-!
# The layout of one DATA sk_buff

`DataSkb.layout hijack k a n` is the sk_buff that should carry the `n`
message bytes at offset `a` when a segment holds `k` of them: one segment
as is; a GSO packet with TCP hijacking back to back; without it, a segment
header with the segment's offset in front of every segment after the first.
`homaTxDataPktAlloc_eq` shows that `homa_tx_data_pkt_alloc` builds exactly
that, by the invariant `InterleaveState.Inv` of the interleaving loop.
-/

namespace Homa

open MachineArith FuelLoop IntervalList

/-- Each segment preceded by a segment header holding its offset. -/
def interleave (segs : List (ℤ × ℕ)) : List Chunk :=
  segs.flatMap fun p => [.segHdr p.1, .data p.1 p.2]

@[simp] theorem interleave_nil : interleave [] = [] := rfl

@[simp] theorem interleave_cons (p : ℤ × ℕ) (segs : List (ℤ × ℕ)) :
    interleave (p :: segs) = .segHdr p.1 :: .data p.1 p.2 :: interleave segs :=
  rfl

theorem interleave_split {k n : ℕ} (hk : 0 < k) (hn : 0 < n) (a : ℤ) :
    interleave (split k a n) = .segHdr a :: (interleave (split k a n)).tail := by
  by_cases hnk : n ≤ k
  · rw [split_of_le a hn hnk]
    rfl
  · rw [split_of_lt a hk (by omega)]
    rfl

/-- The sk_buff for `n` message bytes at `a`, `k` bytes to a segment. -/
def DataSkb.layout (hijack : Bool) (k : ℕ) (a : ℤ) (n : ℕ) : DataSkb :=
  if n ≤ k then
    { offset := a, dataBytes := n, segLength := k, segOffset := -1
      gsoSegs := 0, gsoSize := 0, body := [.data a n] }
  else if hijack then
    { offset := a, dataBytes := n, segLength := k, segOffset := -1
      gsoSegs := ceilDiv n k % 2 ^ 16, gsoSize := (k : ℤ) % 2 ^ 16, body := [.data a n] }
  else
    { offset := a, dataBytes := n, segLength := k, segOffset := a
      gsoSegs := ceilDiv n k % 2 ^ 16, gsoSize := ((k : ℤ) + homaSegHdrSize) % 2 ^ 16
      body := (interleave (split k a n)).tail }

namespace DataSkb

variable {hijack : Bool} {k : ℕ} {a : ℤ} {n : ℕ}

@[simp] theorem layout_offset : (layout hijack k a n).offset = a := by
  unfold layout
  split_ifs <;> rfl

@[simp] theorem layout_dataBytes : (layout hijack k a n).dataBytes = n := by
  unfold layout
  split_ifs <;> rfl

@[simp] theorem layout_segLength : (layout hijack k a n).segLength = k := by
  unfold layout
  split_ifs <;> rfl

theorem layout_gsoSegs :
    (layout hijack k a n).gsoSegs =
      if n ≤ k then 0 else (split k a n).length % 2 ^ 16 := by
  unfold layout
  split_ifs <;> simp

end DataSkb

/-! ## Appending message bytes -/

theorem homaSkbAppendFromIter_of_pos {count pos len : ℕ} (hlen : 0 < len)
    (hcount : pos + len ≤ count) :
    homaSkbAppendFromIter count pos len = .ok ([.data pos len], pos + len) := by
  unfold homaSkbAppendFromIter
  rw [if_neg (by omega), Int.toNat_natCast, if_pos hcount]

theorem homaTxSegs_eq {n k : ℕ} (hk : 0 < k) (hfit : (n : ℤ) + k < 2 ^ 31) :
    homaTxSegs n k = ceilDiv n k := by
  unfold homaTxSegs
  rw [wrapInt_32_of_mem (by omega) (by omega)]
  have hsum : ((n : ℤ) + k - 1) % 2 ^ 64 = n + k - 1 :=
    Int.emod_eq_of_lt (by omega) (by omega)
  have hdiv : (k : ℤ) % 2 ^ 32 = k := Int.emod_eq_of_lt (by omega) (by omega)
  have hnat : ((n : ℤ) + k - 1).toNat = n + k - 1 := by omega
  rw [hsum, hdiv, hnat, Int.toNat_natCast]
  rfl

/-! ## The interleaving loop -/

/-- The invariant of `homa_fill_data_interleaved` filling `n` bytes at `a`
from an iterator of `count` bytes. -/
structure InterleaveState.Inv (k : ℕ) (a : ℤ) (n count : ℕ)
    (s : InterleaveState) : Prop where
  segLength_eq : s.segLength = k
  bytesLeft_pos : 0 < s.bytesLeft
  offset_eq : s.offset = s.pos
  end_eq : s.offset + s.bytesLeft = a + n
  end_le : s.offset + s.bytesLeft ≤ count
  end_lt : a + n < 2 ^ 31
  body_eq :
    s.body ++ (interleave (split k s.offset s.bytesLeft.toNat)).tail =
      (interleave (split k a n)).tail

theorem homaFillDataInterleavedBody_last {k count : ℕ} {a : ℤ} {n : ℕ}
    {s : InterleaveState} (hk : 0 < k) (hs : s.Inv k a n count)
    (hlast : s.bytesLeft ≤ k) :
    homaFillDataInterleavedBody count s =
      some (.done (.ok ((interleave (split k a n)).tail, s.pos + s.bytesLeft.toNat))) := by
  have hbl := hs.bytesLeft_pos
  have hseg : (if s.bytesLeft < s.segLength then s.bytesLeft else s.segLength) =
      (s.bytesLeft.toNat : ℤ) := by
    rw [hs.segLength_eq]
    split_ifs <;> omega
  have happend := @homaSkbAppendFromIter_of_pos count s.pos s.bytesLeft.toNat (by omega)
    (by have := hs.end_le; have := hs.offset_eq; omega)
  have hzero : wrapInt 32 (s.bytesLeft - (s.bytesLeft.toNat : ℤ)) = 0 := by
    rw [show s.bytesLeft - (s.bytesLeft.toNat : ℤ) = 0 by omega]
    exact wrapInt_32_of_mem (by norm_num) (by norm_num)
  have hbody : s.body ++ [Chunk.data s.pos s.bytesLeft.toNat] =
      (interleave (split k a n)).tail := by
    rw [← hs.body_eq, split_of_le _ (by omega) (by omega), hs.offset_eq]
    rfl
  unfold homaFillDataInterleavedBody
  simp only [hseg, happend, hzero, if_true, hbody]

theorem homaFillDataInterleavedBody_next {k count : ℕ} {a : ℤ} {n : ℕ}
    {s : InterleaveState} (hk : 0 < k) (hs : s.Inv k a n count)
    (hmore : k < s.bytesLeft) :
    ∃ s', homaFillDataInterleavedBody count s = some (.next s') ∧
      s'.Inv k a n count ∧ s'.bytesLeft.toNat < s.bytesLeft.toNat := by
  have hend := hs.end_eq
  have hle := hs.end_le
  have hlt := hs.end_lt
  have hoff := hs.offset_eq
  have hseg : (if s.bytesLeft < s.segLength then s.bytesLeft else s.segLength) =
      (k : ℤ) := by
    rw [hs.segLength_eq]
    split_ifs <;> omega
  have happend := @homaSkbAppendFromIter_of_pos count s.pos k hk (by omega)
  have hleft : wrapInt 32 (s.bytesLeft - k) = s.bytesLeft - k :=
    wrapInt_32_of_mem (by omega) (by omega)
  have hoffset : wrapInt 32 (s.offset + k) = s.offset + k :=
    wrapInt_32_of_mem (by omega) (by omega)
  have hne : s.bytesLeft - k ≠ 0 := by omega
  refine ⟨{ segLength := k, bytesLeft := s.bytesLeft - k, offset := s.offset + k
            pos := s.pos + k
            body := s.body ++ [.data s.pos k] ++ [.segHdr (s.offset + k)] },
    ?_, ?_, ?_⟩
  · unfold homaFillDataInterleavedBody
    simp only [hseg, happend, hleft, hoffset, hne, if_false]
  · have hsplit : split k s.offset s.bytesLeft.toNat =
        (s.offset, k) :: split k (s.offset + k) (s.bytesLeft - k).toNat := by
      rw [split_of_lt _ hk (by omega)]
      congr 2
      omega
    have hrest := interleave_split hk (n := (s.bytesLeft - k).toNat) (by omega)
      (s.offset + k)
    constructor
    · rfl
    · show 0 < s.bytesLeft - k
      omega
    · show s.offset + k = ((s.pos + k : ℕ) : ℤ)
      push_cast
      omega
    · show s.offset + k + (s.bytesLeft - k) = a + n
      omega
    · show s.offset + k + (s.bytesLeft - k) ≤ count
      omega
    · exact hlt
    · show s.body ++ [.data s.pos k] ++ [.segHdr (s.offset + k)] ++
          (interleave (split k (s.offset + k) (s.bytesLeft - k).toNat)).tail = _
      rw [← hs.body_eq, hsplit, interleave_cons, List.tail_cons, hrest, hoff]
      simp
  · show (s.bytesLeft - k).toNat < s.bytesLeft.toNat
    omega

theorem InterleaveState.Inv.init {k count pos n : ℕ} (hn : 0 < n)
    (hcount : pos + n ≤ count) (hfit : (pos : ℤ) + n < 2 ^ 31) :
    InterleaveState.Inv k pos n count
      { segLength := k, bytesLeft := n, offset := pos, pos, body := [] } where
  segLength_eq := rfl
  bytesLeft_pos := by simp [hn]
  offset_eq := rfl
  end_eq := rfl
  end_le := by simp only; omega
  end_lt := hfit
  body_eq := by simp

theorem homaFillDataInterleavedBody_spec {k count pos n : ℕ} (hk : 0 < k)
    {s : InterleaveState} (hs : s.Inv k pos n count) :
    ∀ t, homaFillDataInterleavedBody count s = some t →
      t.Holds (InterleaveState.Inv k pos n count)
        (· = .ok ((interleave (split k pos n)).tail, pos + n)) ∧
      ∀ s', t = .next s' → s'.bytesLeft.toNat < s.bytesLeft.toNat := by
  intro t ht
  by_cases hlast : s.bytesLeft ≤ k
  · rw [homaFillDataInterleavedBody_last hk hs hlast] at ht
    cases ht
    have hend := hs.end_eq
    have hoff := hs.offset_eq
    have hbl := hs.bytesLeft_pos
    refine ⟨?_, fun _ h => by cases h⟩
    show Except.ok _ = Except.ok _
    congr 2
    omega
  · obtain ⟨s', hstep, hs', hdec⟩ :=
      homaFillDataInterleavedBody_next hk hs (by omega)
    rw [hstep] at ht
    cases ht
    exact ⟨hs', fun _ h => by cases h; exact hdec⟩

theorem homaFillDataInterleavedBody_isSome (count : ℕ) (s : InterleaveState) :
    ∃ t, homaFillDataInterleavedBody count s = some t := by
  unfold homaFillDataInterleavedBody
  dsimp only
  cases homaSkbAppendFromIter count s.pos
      (if s.bytesLeft < s.segLength then s.bytesLeft else s.segLength) with
  | error e => exact ⟨_, rfl⟩
  | ok appended => split_ifs <;> exact ⟨_, rfl⟩

theorem homaFillDataInterleaved_of_eq_some {fuel k count pos n : ℕ}
    {r : Except ℤ (List Chunk × ℕ)} (hk : 0 < k) (hn : 0 < n)
    (hcount : pos + n ≤ count) (hfit : (pos : ℤ) + n < 2 ^ 31)
    (hrun : homaFillDataInterleaved fuel count pos pos n k = some r) :
    r = .ok ((interleave (split k pos n)).tail, pos + n) :=
  run_invariant (fun _ hs t ht => (homaFillDataInterleavedBody_spec hk hs t ht).1)
    fuel _ r (InterleaveState.Inv.init hn hcount hfit) hrun

theorem homaFillDataInterleaved_eq {fuel k count pos n : ℕ} (hk : 0 < k)
    (hn : 0 < n) (hcount : pos + n ≤ count) (hfit : (pos : ℤ) + n < 2 ^ 31)
    (hfuel : n < fuel) :
    homaFillDataInterleaved fuel count pos pos n k =
      some (.ok ((interleave (split k pos n)).tail, pos + n)) := by
  obtain ⟨r, hrun, hr⟩ := run_terminates (fun s => s.bytesLeft.toNat)
    (fun _ hs t ht => homaFillDataInterleavedBody_spec hk hs t ht)
    (fun s _ => homaFillDataInterleavedBody_isSome count s)
    fuel _ (InterleaveState.Inv.init hn hcount hfit) (by simpa using hfuel)
  unfold homaFillDataInterleaved
  rw [hrun, hr]

/-! ## Building the sk_buff -/

/-- What `homa_tx_data_pkt_alloc` returns for a packet of `n` bytes at the
iterator's position: the layout, or `-ENOMEM`. -/
def txDataPktResult (allocOk hijack : Bool) (k pos n : ℕ) :
    Except ℤ (DataSkb × ℕ) :=
  if allocOk then .ok (DataSkb.layout hijack k pos n, pos + n) else .error (-enomem)

theorem homaTxDataPktAlloc_of_eq_some {fuel count pos n k : ℕ}
    {hijack allocOk : Bool} {r : Except ℤ (DataSkb × ℕ)} (hk : 0 < k) (hn : 0 < n)
    (hcount : pos + n ≤ count) (hfit : (pos : ℤ) + n + k < 2 ^ 31)
    (hrun : homaTxDataPktAlloc fuel hijack count pos pos n k allocOk = some r) :
    r = txDataPktResult allocOk hijack k pos n := by
  unfold homaTxDataPktAlloc at hrun
  dsimp only at hrun
  rw [homaTxSegs_eq hk (by omega)] at hrun
  unfold txDataPktResult
  cases allocOk with
  | false =>
      simp only [Bool.not_false, ↓reduceIte, Option.some.injEq] at hrun
      simp only [Bool.false_eq_true, ↓reduceIte]
      exact hrun.symm
  | true =>
      simp only [Bool.not_true, Bool.false_eq_true, ↓reduceIte] at hrun
      by_cases hkn : n ≤ k
      · have hsegs : ¬ 1 < ceilDiv n k := by rw [one_lt_ceilDiv_iff hk]; omega
        simp only [gt_iff_lt, hsegs, false_and, ↓reduceIte,
          homaSkbAppendFromIter_of_pos hn hcount, Except.map, Option.some.injEq] at hrun
        rw [← hrun]
        unfold DataSkb.layout
        simp only [hkn, ↓reduceIte]
      · have hsegs : 1 < ceilDiv n k := by rw [one_lt_ceilDiv_iff hk]; omega
        cases hijack with
        | true =>
            simp only [gt_iff_lt, hsegs, Bool.not_true, Bool.false_eq_true, and_false,
              ↓reduceIte, homaSkbAppendFromIter_of_pos hn hcount, Except.map,
              Option.some.injEq] at hrun
            rw [← hrun]
            unfold DataSkb.layout
            simp only [hkn, ↓reduceIte]
        | false =>
            simp only [gt_iff_lt, hsegs, Bool.not_false, and_self, ↓reduceIte] at hrun
            obtain ⟨r', hfill, rfl⟩ := Option.map_eq_some_iff.mp hrun
            rw [homaFillDataInterleaved_of_eq_some hk hn hcount (by omega) hfill]
            unfold DataSkb.layout
            simp only [hkn, Bool.false_eq_true, ↓reduceIte]
            rfl

theorem homaTxDataPktAlloc_isSome {fuel count pos n k : ℕ} (hijack allocOk : Bool)
    (hk : 0 < k) (hn : 0 < n) (hcount : pos + n ≤ count)
    (hfit : (pos : ℤ) + n + k < 2 ^ 31) (hfuel : n < fuel) :
    ∃ r, homaTxDataPktAlloc fuel hijack count pos pos n k allocOk = some r := by
  unfold homaTxDataPktAlloc
  dsimp only
  split_ifs with hfail hinterleaved
  · exact ⟨_, rfl⟩
  · rw [homaFillDataInterleaved_eq hk hn hcount (by omega) hfuel]
    exact ⟨_, rfl⟩
  all_goals exact ⟨_, rfl⟩

/-! ## Reading a packet's bytes -/

@[simp] theorem msgBytes_zero (pos : ℤ) : msgBytes pos 0 = [] := rfl

@[simp] theorem msgBytes_succ (pos : ℤ) (len : ℕ) :
    msgBytes pos (len + 1) = .msg pos :: msgBytes (pos + 1) len := rfl

@[simp] theorem length_msgBytes (pos : ℤ) (len : ℕ) : (msgBytes pos len).length = len := by
  induction len generalizing pos with
  | zero => rfl
  | succ len ih => simp [ih]

theorem msgBytes_add (pos : ℤ) (m m' : ℕ) :
    msgBytes pos (m + m') = msgBytes pos m ++ msgBytes (pos + m) m' := by
  induction m generalizing pos with
  | zero => simp
  | succ m ih =>
      rw [Nat.add_right_comm, msgBytes_succ, ih, msgBytes_succ, List.cons_append]
      congr 3
      push_cast
      ring

theorem take_msgBytes {len m : ℕ} (pos : ℤ) (h : len ≤ m) :
    (msgBytes pos m).take len = msgBytes pos len := by
  obtain ⟨m', rfl⟩ := Nat.exists_eq_add_of_le h
  rw [msgBytes_add, List.take_left' (length_msgBytes pos len)]

theorem drop_msgBytes {len m : ℕ} (pos : ℤ) (h : len ≤ m) :
    (msgBytes pos m).drop len = msgBytes (pos + len) (m - len) := by
  obtain ⟨m', rfl⟩ := Nat.exists_eq_add_of_le h
  rw [msgBytes_add, List.drop_left' (length_msgBytes pos len), Nat.add_sub_cancel_left]

/-- The bytes of a packet from the data of its segment at `o` on, `m` bytes
of message being left: back to back, or each segment after a segment
header. -/
def layoutBytes (interleaved : Bool) (k : ℕ) (o : ℤ) (m : ℕ) : List SkbByte :=
  if interleaved then ((interleave (split k o m)).flatMap Chunk.bytes).drop homaSegHdrSize
  else msgBytes o m

/-- Where the data of the next segment starts, relative to the current
one. -/
def layoutStride (interleaved : Bool) (k : ℕ) : ℕ :=
  if interleaved then k + homaSegHdrSize else k

theorem layoutBytes_interleaved_eq {k m : ℕ} (o : ℤ) (hk : 0 < k) (hm : 0 < m) :
    layoutBytes true k o m =
      msgBytes o (min k m) ++
        (interleave (split k (o + min k m) (m - min k m))).flatMap Chunk.bytes := by
  unfold layoutBytes
  rw [if_pos rfl, split_eq_cons o hk hm, interleave_cons, List.flatMap_cons,
    List.flatMap_cons]
  simp [Chunk.bytes, segHdrBytes, homaSegHdrSize]

theorem take_layoutBytes {k m : ℕ} (interleaved : Bool) (o : ℤ) (hk : 0 < k) (hm : 0 < m) :
    (layoutBytes interleaved k o m).take (min k m) = msgBytes o (min k m) := by
  cases interleaved with
  | false => exact take_msgBytes o (min_le_right k m)
  | true =>
      rw [layoutBytes_interleaved_eq o hk hm,
        List.take_left' (length_msgBytes o (min k m))]

theorem drop_layoutBytes {k m : ℕ} (interleaved : Bool) (o : ℤ) (hk : 0 < k) (hkm : k < m) :
    (layoutBytes interleaved k o m).drop (layoutStride interleaved k) =
      layoutBytes interleaved k (o + k) (m - k) := by
  cases interleaved with
  | false =>
      unfold layoutStride layoutBytes
      simp only [Bool.false_eq_true, ↓reduceIte]
      exact drop_msgBytes o hkm.le
  | true =>
      have hmin : min k m = k := min_eq_left hkm.le
      rw [layoutBytes_interleaved_eq o hk (by omega), hmin]
      unfold layoutStride
      rw [if_pos rfl, ← List.drop_drop, List.drop_left' (length_msgBytes o k),
        interleave_split hk (by omega), List.flatMap_cons]
      unfold layoutBytes
      rw [if_pos rfl, interleave_split hk (by omega), List.flatMap_cons]
      simp [Chunk.bytes, segHdrBytes, homaSegHdrSize]

namespace DataSkb

/-- The packet interleaves segment headers with its data. -/
def layoutInterleaved (hijack : Bool) (k n : ℕ) : Bool :=
  !hijack && decide (k < n)

theorem layout_bytes_drop (hijack : Bool) (k : ℕ) (a : ℤ) (n : ℕ) (hk : 0 < k) :
    (layout hijack k a n).bytes.drop homaDataHdrSize =
      layoutBytes (layoutInterleaved hijack k n) k a n := by
  have hhdr : (List.replicate (homaDataHdrSize - homaSegHdrSize) SkbByte.hdr ++
      segHdrBytes (layout hijack k a n).segOffset).length = homaDataHdrSize := by
    simp [segHdrBytes, homaDataHdrSize, homaSegHdrSize]
  unfold bytes
  rw [List.drop_left' hhdr]
  unfold layout layoutInterleaved layoutBytes
  by_cases hnk : n ≤ k
  · simp [hnk, Chunk.bytes]
  · cases hijack with
    | true => simp [hnk, Chunk.bytes]
    | false =>
        have hsplit := interleave_split hk (by omega : 0 < n) a
        simp only [hnk, ↓reduceIte, Bool.not_false, Bool.true_and, decide_true,
          show k < n by omega]
        rw [hsplit, List.flatMap_cons, List.tail_cons]
        simp [Chunk.bytes, segHdrBytes, homaSegHdrSize]

theorem layout_gsoSize (hijack : Bool) (k : ℕ) (a : ℤ) (n : ℕ) (hkn : k < n)
    (hk : k + homaSegHdrSize < 2 ^ 16) :
    (layout hijack k a n).gsoSize = layoutStride (layoutInterleaved hijack k n) k := by
  unfold layout layoutInterleaved layoutStride
  simp only [homaSegHdrSize] at hk ⊢
  cases hijack <;> simp [show ¬ n ≤ k by omega, hkn] <;> omega

end DataSkb

end Homa
