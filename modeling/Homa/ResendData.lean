import Homa.MessageOutTiling

/-!
# Retransmitting a range of a message

`homa_resend_data(rpc, start, end, priority)` walks `msgout.packets` and,
inside each GSO packet, the segments the NIC will cut it into, and sends
every segment meeting `[start, end)` again as a packet of its own, linked on
`msgout.to_free`.  It finds a segment's bytes at `seg_offset`, advancing by
`gso_size`, which with interleaved segment headers skips the header of the
next segment.  On a message `homa_message_out_fill` filled, it sends exactly
the segments `resendPlan` lists (`homaResendData_eq`).
-/

namespace Homa

open MachineArith FuelLoop IntervalList

/-! ## The model -/

/-- What `homa_resend_data` has done so far: the message with its `to_free`
chain, and the packets handed to `__homa_xmit_data`, in order. -/
structure ResendOut where
  msgout : MessageOut
  sent : List ResentPacket

/-- The locals of the segment loop of `homa_resend_data`. -/
structure SegmentCursor where
  segOffset : ℤ
  offset : ℤ
  segLength : ℤ
  dataLeft : ℤ
  out : ResendOut

/-- One iteration of the segment loop over the packet `skb`; `allocOk i` is
whether the allocations for the `i`-th copy succeed, and leaving with
`false` is `goto resend_done`. -/
def homaResendDataSegmentBody (skb : DataSkb) (start stop : ℤ) (allocOk : ℕ → Bool)
    (c : SegmentCursor) : Option (Step SegmentCursor (Bool × ResendOut)) :=
  if c.dataLeft ≤ 0 then some (.done (true, c.out))
  else
    let segLength := if c.segLength > c.dataLeft then c.dataLeft else c.segLength
    let advance (out : ResendOut) : SegmentCursor :=
      { segOffset := wrapInt 32 (c.segOffset + skb.gsoSize)
        offset := wrapInt 32 (c.offset + segLength)
        segLength
        dataLeft := wrapInt 32 (c.dataLeft - segLength)
        out }
    if stop ≤ c.offset then some (.done (false, c.out))
    else if wrapInt 32 (c.offset + segLength) ≤ start then some (.next (advance c.out))
    else if !allocOk c.out.sent.length then some (.done (false, c.out))
    else
      let packet : ResentPacket :=
        { sequence := c.offset, segOffset := c.offset, incoming := stop
          offset := c.offset, dataBytes := segLength
          payload := (skb.bytes.drop c.segOffset.toNat).take segLength.toNat }
      some (.next (advance
        { msgout :=
            { c.out.msgout with
              toFree := packet :: c.out.msgout.toFree
              numSkbs := c.out.msgout.numSkbs + 1 }
          sent := c.out.sent ++ [packet] }))

/-- The packet loop of `homa_resend_data` over the packets not yet
visited. -/
def homaResendDataLoop (fuel : ℕ) (start stop : ℤ) (allocOk : ℕ → Bool) :
    List DataSkb → ResendOut → Option ResendOut
  | [], out => some out
  | skb :: rest, out =>
      if skb.offset ≥ stop then some out
      else if start ≥ wrapInt 32 (skb.offset + skb.dataBytes) then
        homaResendDataLoop fuel start stop allocOk rest out
      else
        let segLength := if skb.gsoSegs ≤ 1 then skb.dataBytes else skb.segLength
        match run (homaResendDataSegmentBody skb start stop allocOk) fuel
            { segOffset := homaDataHdrSize, offset := skb.offset, segLength
              dataLeft := skb.dataBytes, out } with
        | none => none
        | some (true, out) => homaResendDataLoop fuel start stop allocOk rest out
        | some (false, out) => some out

/-- `homa_resend_data(rpc, start, end, _)`: the RPC's new `msgout` and the
packets sent, in order. -/
def homaResendData (fuel : ℕ) (msgout : MessageOut) (start stop : ℤ)
    (allocOk : ℕ → Bool) : Option (MessageOut × List ResentPacket) :=
  if stop ≤ start then some (msgout, [])
  else
    (homaResendDataLoop fuel start stop allocOk msgout.packets
        { msgout, sent := [] }).map fun out => (out.msgout, out.sent)

/-! ## What a RESEND should send -/

/-- The segments the NIC cuts a packet into. -/
def DataSkb.segments (skb : DataSkb) : List (ℤ × ℕ) :=
  split skb.segLength.toNat skb.offset skb.dataBytes.toNat

/-- The segment `p` shares a byte with `[start, stop)`. -/
def Meets (start stop : ℤ) (p : ℤ × ℕ) : Prop :=
  max p.1 start < min (pieceEnd p) stop

instance (start stop : ℤ) (p : ℤ × ℕ) : Decidable (Meets start stop p) :=
  inferInstanceAs (Decidable (_ < _))

/-- The packet resending the segment `p` in answer to a RESEND of
`[start, stop)`. -/
def resentPacket (stop : ℤ) (p : ℤ × ℕ) : ResentPacket :=
  { sequence := p.1, segOffset := p.1, incoming := stop, offset := p.1
    dataBytes := p.2, payload := msgBytes p.1 p.2 }

/-- Resending segments in order until an allocation fails: the packets sent
so far, and whether sending goes on. -/
def resendStep (start stop : ℤ) (allocOk : ℕ → Bool) (acc : List ResentPacket × Bool)
    (p : ℤ × ℕ) : List ResentPacket × Bool :=
  if acc.2 ∧ Meets start stop p then
    if allocOk acc.1.length then (acc.1 ++ [resentPacket stop p], true) else (acc.1, false)
  else acc

/-- The packets a RESEND of `[start, stop)` should send for a message cut
into the segments `segs`. -/
def resendPlan (start stop : ℤ) (allocOk : ℕ → Bool) (segs : List (ℤ × ℕ)) :
    List ResentPacket :=
  (segs.foldl (resendStep start stop allocOk) ([], true)).1

/-- The message and the packets sent after sending `sent`. -/
def resendOut (msgout : MessageOut) (sent : List ResentPacket) : ResendOut :=
  { msgout :=
      { msgout with
        toFree := sent.reverse ++ msgout.toFree
        numSkbs := msgout.numSkbs + sent.length }
    sent }

section Plan

variable {start stop : ℤ} {allocOk : ℕ → Bool}

theorem not_meets_of_le_fst {p : ℤ × ℕ} (h : stop ≤ p.1) : ¬ Meets start stop p := by
  unfold Meets
  omega

theorem not_meets_of_end_le {p : ℤ × ℕ} (h : pieceEnd p ≤ start) : ¬ Meets start stop p := by
  unfold Meets
  omega

theorem meets_of_lt {p : ℤ × ℕ} (hstart : start < stop) (hlen : 0 < p.2)
    (hfst : p.1 < stop) (hend : start < pieceEnd p) : Meets start stop p := by
  unfold Meets pieceEnd at *
  omega

theorem resendStep_of_not_meets {p : ℤ × ℕ} (acc : List ResentPacket × Bool)
    (h : ¬ Meets start stop p) : resendStep start stop allocOk acc p = acc := by
  unfold resendStep
  rw [if_neg (fun h' => h h'.2)]

theorem resendStep_send {p : ℤ × ℕ} (sent : List ResentPacket) (h : Meets start stop p)
    (hok : allocOk sent.length = true) :
    resendStep start stop allocOk (sent, true) p = (sent ++ [resentPacket stop p], true) := by
  unfold resendStep
  rw [if_pos ⟨rfl, h⟩, if_pos hok]

theorem resendStep_fail {p : ℤ × ℕ} (sent : List ResentPacket) (h : Meets start stop p)
    (hfail : allocOk sent.length = false) :
    resendStep start stop allocOk (sent, true) p = (sent, false) := by
  unfold resendStep
  rw [if_pos ⟨rfl, h⟩, if_neg (by simp [hfail])]

theorem resendStep_stopped (sent : List ResentPacket) (p : ℤ × ℕ) :
    resendStep start stop allocOk (sent, false) p = (sent, false) := by
  unfold resendStep
  rw [if_neg (fun h => Bool.false_ne_true h.1)]

theorem foldl_resendStep_stopped (sent : List ResentPacket) (l : List (ℤ × ℕ)) :
    l.foldl (resendStep start stop allocOk) (sent, false) = (sent, false) := by
  induction l with
  | nil => rfl
  | cons p l ih =>
      rw [List.foldl_cons, resendStep_stopped, ih]

theorem foldl_resendStep_of_not_meets (acc : List ResentPacket × Bool) {l : List (ℤ × ℕ)}
    (h : ∀ p ∈ l, ¬ Meets start stop p) :
    l.foldl (resendStep start stop allocOk) acc = acc := by
  induction l generalizing acc with
  | nil => rfl
  | cons p l ih =>
      rw [List.foldl_cons, resendStep_of_not_meets acc (h p List.mem_cons_self)]
      exact ih acc (fun q hq => h q (List.mem_cons_of_mem p hq))

theorem foldl_resendStep_eq_take (sent : List ResentPacket) (l : List (ℤ × ℕ)) :
    let meeting := l.filter fun p => decide (Meets start stop p)
    ∃ j ≤ meeting.length,
      (l.foldl (resendStep start stop allocOk) (sent, true)).1 =
        sent ++ (meeting.take j).map (resentPacket stop) ∧
      (∀ i < j, allocOk (sent.length + i) = true) ∧
      (j < meeting.length → allocOk (sent.length + j) = false) := by
  intro meeting
  induction l generalizing sent with
  | nil => exact ⟨0, by simp, by simp, by simp, by simp [meeting]⟩
  | cons p l ih =>
      rw [List.foldl_cons]
      by_cases hp : Meets start stop p
      · have hfilter : meeting = p :: l.filter fun p => decide (Meets start stop p) := by
          simp [meeting, hp]
        by_cases hok : allocOk sent.length = true
        · rw [resendStep_send sent hp hok]
          obtain ⟨j, hj, heq, hbefore, hat⟩ := ih (sent ++ [resentPacket stop p])
          refine ⟨j + 1, by simp [hfilter]; omega, ?_, ?_, ?_⟩
          · rw [heq, hfilter]
            simp
          · intro i hi
            cases i with
            | zero => simpa using hok
            | succ i =>
                have := hbefore i (by omega)
                simp only [List.length_append, List.length_singleton] at this
                rw [show sent.length + (i + 1) = sent.length + 1 + i by omega]
                exact this
          · intro hlt
            rw [hfilter, List.length_cons] at hlt
            have := hat (by omega)
            simp only [List.length_append, List.length_singleton] at this
            rw [show sent.length + (j + 1) = sent.length + 1 + j by omega]
            exact this
        · rw [resendStep_fail sent hp (by simpa using hok)]
          refine ⟨0, by simp, ?_, by simp, ?_⟩
          · rw [foldl_resendStep_stopped]
            simp
          · intro _
            simpa using hok
      · have hfilter : meeting = l.filter fun p => decide (Meets start stop p) := by
          simp [meeting, hp]
        rw [resendStep_of_not_meets _ hp, hfilter]
        exact ih sent

end Plan

theorem resendOut_send (msgout : MessageOut) (sent : List ResentPacket)
    (packet : ResentPacket) :
    ({ msgout :=
        { (resendOut msgout sent).msgout with
          toFree := packet :: (resendOut msgout sent).msgout.toFree
          numSkbs := (resendOut msgout sent).msgout.numSkbs + 1 }
       sent := (resendOut msgout sent).sent ++ [packet] } : ResendOut) =
      resendOut msgout (sent ++ [packet]) := by
  simp [resendOut, Nat.add_assoc]

theorem mem_split_bounds {k m : ℕ} {o : ℤ} {p : ℤ × ℕ} (hk : 0 < k)
    (hp : p ∈ split k o m) : o ≤ p.1 ∧ pieceEnd p ≤ o + m :=
  ⟨(tiles_split hk o m).bounded.lo_ge hp, (tiles_split hk o m).bounded.hi_le hp⟩

/-! ## The segment loop -/

section SegmentLoop

/-- The invariant of the segment loop: the segments left are those of
`[offset, offset + data_left)`, `seg_offset` points at the first one's data,
and what has been sent is the plan for those visited. -/
structure SegmentCursor.Inv (h : Bool) (k : ℕ) (a : ℤ) (n : ℕ) (msgout : MessageOut)
    (start stop : ℤ) (allocOk : ℕ → Bool) (acc : List ResentPacket × Bool)
    (c : SegmentCursor) : Prop where
  dataLeft_nonneg : 0 ≤ c.dataLeft
  end_eq : c.offset + c.dataLeft = a + n
  offset_ge : a ≤ c.offset
  segLength_eq : 0 < c.dataLeft → c.segLength = min k n
  segOffset_ge : 0 < c.dataLeft → homaDataHdrSize ≤ c.segOffset
  segOffset_le : 0 < c.dataLeft → c.segOffset ≤ homaDataHdrSize + 5 * (c.offset - a)
  bytes_eq : 0 < c.dataLeft →
    (DataSkb.layout h k a n).bytes.drop c.segOffset.toNat =
      layoutBytes (DataSkb.layoutInterleaved h k n) k c.offset c.dataLeft.toNat
  sent : ∃ D, split k a n = D ++ split k c.offset c.dataLeft.toNat ∧
    (D.foldl (resendStep start stop allocOk) acc).2 = true ∧
    c.out = resendOut msgout (D.foldl (resendStep start stop allocOk) acc).1

/-- How the segment loop over `DataSkb.layout h k a n` can end: with the
plan for all its segments sent, going on if sending can go on, or stopping
because an allocation failed or the range ends inside the packet. -/
def SegmentLoopPost (k : ℕ) (a : ℤ) (n : ℕ) (msgout : MessageOut) (start stop : ℤ)
    (allocOk : ℕ → Bool) (acc : List ResentPacket × Bool) (r : Bool × ResendOut) :
    Prop :=
  let acc' := (split k a n).foldl (resendStep start stop allocOk) acc
  r.2 = resendOut msgout acc'.1 ∧ (r.1 = true → acc'.2 = true) ∧
    (r.1 = false → acc'.2 = false ∨ stop < a + n)

variable {h : Bool} {k : ℕ} {a : ℤ} {n : ℕ} {msgout : MessageOut} {start stop : ℤ}
  {allocOk : ℕ → Bool} {acc : List ResentPacket × Bool}

theorem layout_gsoSize_le (h : Bool) (k : ℕ) (a : ℤ) (n : ℕ) :
    0 ≤ (DataSkb.layout h k a n).gsoSize ∧ (DataSkb.layout h k a n).gsoSize ≤ k + 4 := by
  unfold DataSkb.layout
  split_ifs <;> simp only [homaSegHdrSize] <;> omega

theorem SegmentCursor.Inv.advance (hk : 0 < k) (hk' : k + homaSegHdrSize < 2 ^ 16) {c : SegmentCursor}
    (hs : c.Inv h k a n msgout start stop allocOk acc) (hmore : 0 < c.dataLeft)
    {D : List (ℤ × ℕ)} (hD : split k a n = D ++ split k c.offset c.dataLeft.toNat)
    {out : ResendOut}
    (hfold : ((D ++ [(c.offset, min k c.dataLeft.toNat)]).foldl
      (resendStep start stop allocOk) acc).2 = true)
    (hout : out = resendOut msgout ((D ++ [(c.offset, min k c.dataLeft.toNat)]).foldl
      (resendStep start stop allocOk) acc).1) :
    SegmentCursor.Inv h k a n msgout start stop allocOk acc
      { segOffset := c.segOffset + (DataSkb.layout h k a n).gsoSize
        offset := c.offset + (min k c.dataLeft.toNat : ℕ)
        segLength := (min k c.dataLeft.toNat : ℕ)
        dataLeft := c.dataLeft - (min k c.dataLeft.toNat : ℕ)
        out } := by
  have hend := hs.end_eq
  have hoff := hs.offset_ge
  have hso := hs.segOffset_ge hmore
  have hsol := hs.segOffset_le hmore
  have hgso := layout_gsoSize_le h k a n
  -- Another segment is left only when the current one was a full one.
  have hfull : 0 < c.dataLeft - (min k c.dataLeft.toNat : ℕ) →
      min k c.dataLeft.toNat = k ∧ k < n := by
    intro hpos
    omega
  constructor
  · show 0 ≤ c.dataLeft - _
    omega
  · show c.offset + _ + (c.dataLeft - _) = a + n
    omega
  · show a ≤ c.offset + _
    omega
  · intro (hpos : 0 < c.dataLeft - ((min k c.dataLeft.toNat : ℕ) : ℤ))
    obtain ⟨hmin, hkn⟩ := hfull hpos
    show ((min k c.dataLeft.toNat : ℕ) : ℤ) = min k n
    rw [hmin, min_eq_left hkn.le]
  · intro _
    show homaDataHdrSize ≤ c.segOffset + _
    omega
  · intro (hpos : 0 < c.dataLeft - ((min k c.dataLeft.toNat : ℕ) : ℤ))
    obtain ⟨hmin, hkn⟩ := hfull hpos
    show c.segOffset + _ ≤ homaDataHdrSize + 5 * (c.offset + _ - a)
    rw [hmin]
    omega
  · intro (hpos : 0 < c.dataLeft - ((min k c.dataLeft.toNat : ℕ) : ℤ))
    obtain ⟨hmin, hkn⟩ := hfull hpos
    show (DataSkb.layout h k a n).bytes.drop (c.segOffset + _).toNat =
      layoutBytes (DataSkb.layoutInterleaved h k n) k (c.offset + (min k c.dataLeft.toNat : ℕ))
        (c.dataLeft - (min k c.dataLeft.toNat : ℕ)).toNat
    rw [DataSkb.layout_gsoSize h k a n hkn hk', hmin]
    have hdrop := drop_layoutBytes (DataSkb.layoutInterleaved h k n) c.offset hk
      (m := c.dataLeft.toNat) (by omega)
    have hstride : (c.segOffset + (layoutStride (DataSkb.layoutInterleaved h k n) k : ℤ)).toNat =
        c.segOffset.toNat + layoutStride (DataSkb.layoutInterleaved h k n) k := by
      omega
    rw [hstride, ← List.drop_drop, hs.bytes_eq hmore, hdrop]
    congr 1
    omega
  · refine ⟨D ++ [(c.offset, min k c.dataLeft.toNat)], ?_, hfold, hout⟩
    show split k a n = _ ++ split k (c.offset + (min k c.dataLeft.toNat : ℕ))
      (c.dataLeft - (min k c.dataLeft.toNat : ℕ)).toNat
    rw [hD, split_eq_cons c.offset hk (by omega), List.append_assoc, List.singleton_append]
    congr 3
    omega

theorem SegmentCursor.Inv.iteration_noWrap (hk' : k ≤ 65535) (ha : 0 ≤ a)
    (hfit : a + n ≤ 1400000) {c : SegmentCursor} (hs : c.Inv h k a n msgout start stop allocOk acc)
    (hmore : 0 < c.dataLeft) :
    (if c.segLength > c.dataLeft then c.dataLeft else c.segLength) =
        ((min k c.dataLeft.toNat : ℕ) : ℤ) ∧
      wrapInt 32 (c.offset + (min k c.dataLeft.toNat : ℕ)) =
        c.offset + (min k c.dataLeft.toNat : ℕ) ∧
      wrapInt 32 (c.dataLeft - (min k c.dataLeft.toNat : ℕ)) =
        c.dataLeft - (min k c.dataLeft.toNat : ℕ) ∧
      wrapInt 32 (c.segOffset + (DataSkb.layout h k a n).gsoSize) =
        c.segOffset + (DataSkb.layout h k a n).gsoSize := by
  have hend := hs.end_eq
  have hoff := hs.offset_ge
  have hso := hs.segOffset_le hmore
  have hgso := layout_gsoSize_le h k a n
  refine ⟨?_, wrapInt_32_of_mem (by omega) (by omega), wrapInt_32_of_mem (by omega) (by omega),
    wrapInt_32_of_mem (by have := hs.segOffset_ge hmore; omega)
      (by simp only [homaDataHdrSize] at hso; omega)⟩
  rw [hs.segLength_eq hmore]
  split_ifs <;> omega

theorem SegmentCursor.Inv.resentPacket_eq (hk : 0 < k) {c : SegmentCursor}
    (hs : c.Inv h k a n msgout start stop allocOk acc) (hmore : 0 < c.dataLeft) :
    ({ sequence := c.offset
       segOffset := c.offset
       incoming := stop
       offset := c.offset
       dataBytes := ((min k c.dataLeft.toNat : ℕ) : ℤ)
       payload := ((DataSkb.layout h k a n).bytes.drop c.segOffset.toNat).take
         ((min k c.dataLeft.toNat : ℕ) : ℤ).toNat } : ResentPacket) =
      resentPacket stop (c.offset, min k c.dataLeft.toNat) := by
  have hpayload : ((DataSkb.layout h k a n).bytes.drop c.segOffset.toNat).take
      ((min k c.dataLeft.toNat : ℕ) : ℤ).toNat = msgBytes c.offset (min k c.dataLeft.toNat) := by
    rw [Int.toNat_natCast, hs.bytes_eq hmore]
    exact take_layoutBytes _ c.offset hk (by omega)
  rw [hpayload]
  rfl

theorem homaResendDataSegmentBody_spec (hk : 0 < k) (hk' : k + homaSegHdrSize < 2 ^ 16) (ha : 0 ≤ a)
    (hfit : a + n ≤ 1400000) (hlt : start < stop) {c : SegmentCursor}
    (hs : c.Inv h k a n msgout start stop allocOk acc) :
    ∀ t, homaResendDataSegmentBody (DataSkb.layout h k a n) start stop allocOk c = some t →
      t.Holds (SegmentCursor.Inv h k a n msgout start stop allocOk acc)
        (SegmentLoopPost k a n msgout start stop allocOk acc) ∧
      ∀ c', t = .next c' → c'.dataLeft.toNat < c.dataLeft.toNat := by
  intro t ht
  obtain ⟨D, hD, halive, hout⟩ := hs.sent
  have hend := hs.end_eq
  have hoff := hs.offset_ge
  have hleft0 := hs.dataLeft_nonneg
  by_cases hdone : c.dataLeft ≤ 0
  · -- All segments visited: the plan for the whole packet has been sent.
    unfold homaResendDataSegmentBody at ht
    rw [if_pos hdone] at ht
    cases ht
    rw [show c.dataLeft.toNat = 0 by omega, split_zero, List.append_nil] at hD
    refine ⟨?_, fun _ h => by cases h⟩
    unfold SegmentLoopPost
    rw [hD]
    exact ⟨hout, fun _ => halive, fun h => by cases h⟩
  · have hmore : 0 < c.dataLeft := by omega
    obtain ⟨hseg, hoffset, hleft, hsegOffset⟩ :=
      hs.iteration_noWrap (by simp only [homaSegHdrSize] at hk'; omega) ha hfit hmore
    have hdec : (c.dataLeft - (min k c.dataLeft.toNat : ℕ)).toNat < c.dataLeft.toNat := by
      omega
    have hsplit := split_eq_cons c.offset hk (n := c.dataLeft.toNat) (by omega)
    -- What the segments after the current one add to the plan.
    have hrest_fst : ∀ p ∈ split k c.offset c.dataLeft.toNat, c.offset ≤ p.1 :=
      fun p hp => (mem_split_bounds hk hp).1
    unfold homaResendDataSegmentBody at ht
    rw [if_neg hdone] at ht
    dsimp only at ht
    rw [hseg, hoffset, hleft, hsegOffset] at ht
    by_cases hstop : stop ≤ c.offset
    · -- `end <= offset`: no segment from here on meets the range.
      rw [if_pos hstop] at ht
      cases ht
      refine ⟨?_, fun _ h => by cases h⟩
      unfold SegmentLoopPost
      rw [hD, List.foldl_append, foldl_resendStep_of_not_meets _
        (fun p hp => not_meets_of_le_fst (le_trans hstop (hrest_fst p hp)))]
      exact ⟨hout, fun h => absurd h Bool.false_ne_true, fun _ => Or.inr (by omega)⟩
    rw [if_neg hstop] at ht
    by_cases hskip : c.offset + (min k c.dataLeft.toNat : ℕ) ≤ start
    · -- The segment ends before the range: move on.
      rw [if_pos hskip] at ht
      cases ht
      have hnot : ¬ Meets start stop (c.offset, min k c.dataLeft.toNat) :=
        not_meets_of_end_le (by simpa [pieceEnd] using hskip)
      refine ⟨hs.advance hk hk' hmore hD ?_ ?_, fun c' h => by cases h; exact hdec⟩
      · rw [List.foldl_append, List.foldl_cons, resendStep_of_not_meets _ hnot]
        exact halive
      · rw [List.foldl_append, List.foldl_cons, resendStep_of_not_meets _ hnot]
        exact hout
    rw [if_neg hskip] at ht
    have hmeets : Meets start stop (c.offset, min k c.dataLeft.toNat) :=
      meets_of_lt hlt (by simp; omega) (by simpa using hstop)
        (by simp only [pieceEnd]; omega)
    obtain ⟨sent, hsent⟩ : ∃ sent, D.foldl (resendStep start stop allocOk) acc = (sent, true) :=
      ⟨_, Prod.ext rfl halive⟩
    rw [hsent] at hout
    have hlen : c.out.sent.length = sent.length := by rw [hout]; rfl
    cases hok : allocOk sent.length with
    | false =>
        -- The allocation fails: `goto resend_done`.
        rw [hlen, hok] at ht
        simp only [Bool.not_false, ↓reduceIte] at ht
        cases ht
        refine ⟨?_, fun _ h => by cases h⟩
        unfold SegmentLoopPost
        rw [hD, hsplit, List.foldl_append, hsent, List.foldl_cons,
          resendStep_fail sent hmeets hok, foldl_resendStep_stopped]
        exact ⟨hout, fun h => absurd h Bool.false_ne_true, fun _ => Or.inl rfl⟩
    | true =>
        -- The segment is copied and sent.
        rw [hlen, hok] at ht
        simp only [Bool.not_true, Bool.false_eq_true, ↓reduceIte] at ht
        cases ht
        rw [hs.resentPacket_eq hk hmore, hout, resendOut_send]
        refine ⟨hs.advance hk hk' hmore hD ?_ ?_, fun c' h => by cases h; exact hdec⟩
        · rw [List.foldl_append, hsent, List.foldl_cons, resendStep_send sent hmeets hok]
          rfl
        · rw [List.foldl_append, hsent, List.foldl_cons, resendStep_send sent hmeets hok]
          rfl

theorem SegmentCursor.Inv.init (hk : 0 < k) (hn : 0 < n) (hsegs : ceilDiv n k < 2 ^ 16)
    (hacc : acc.2 = true) :
    SegmentCursor.Inv h k a n msgout start stop allocOk acc
      { segOffset := homaDataHdrSize
        offset := (DataSkb.layout h k a n).offset
        segLength := if (DataSkb.layout h k a n).gsoSegs ≤ 1 then
            (DataSkb.layout h k a n).dataBytes else (DataSkb.layout h k a n).segLength
        dataLeft := (DataSkb.layout h k a n).dataBytes
        out := resendOut msgout acc.1 } := by
  simp only [DataSkb.layout_offset, DataSkb.layout_dataBytes, DataSkb.layout_segLength]
  constructor
  · show (0 : ℤ) ≤ n
    omega
  · rfl
  · exact le_rfl
  · intro _
    show (if (DataSkb.layout h k a n).gsoSegs ≤ 1 then (n : ℤ) else k) = min k n
    -- A packet of one segment is sent whole; a GSO packet has more than one.
    rw [DataSkb.layout_gsoSegs]
    by_cases hnk : n ≤ k
    · rw [if_pos hnk, if_pos (Nat.zero_le 1)]
      omega
    · have hmulti : 1 < ceilDiv n k := (one_lt_ceilDiv_iff hk).2 (by omega)
      rw [if_neg hnk, length_split, Nat.mod_eq_of_lt hsegs, if_neg (by omega)]
      omega
  · intro _
    exact le_rfl
  · intro _
    show (homaDataHdrSize : ℤ) ≤ homaDataHdrSize + 5 * (a - a)
    omega
  · intro _
    show (DataSkb.layout h k a n).bytes.drop (homaDataHdrSize : ℤ).toNat =
      layoutBytes (DataSkb.layoutInterleaved h k n) k a (n : ℤ).toNat
    rw [Int.toNat_natCast, Int.toNat_natCast]
    exact DataSkb.layout_bytes_drop h k a n hk
  · exact ⟨[], by simp, hacc, rfl⟩

theorem homaResendDataSegmentBody_isSome (skb : DataSkb) (start stop : ℤ)
    (allocOk : ℕ → Bool) (c : SegmentCursor) :
    ∃ t, homaResendDataSegmentBody skb start stop allocOk c = some t := by
  unfold homaResendDataSegmentBody
  dsimp only
  split_ifs <;> exact ⟨_, rfl⟩

theorem run_homaResendDataSegmentBody (hk : 0 < k) (hk' : k + homaSegHdrSize < 2 ^ 16) (ha : 0 ≤ a)
    (hn : 0 < n) (hsegs : ceilDiv n k < 2 ^ 16) (hfit : a + n ≤ 1400000) (hlt : start < stop)
    (hacc : acc.2 = true)
    {fuel : ℕ} (hfuel : n < fuel) :
    ∃ r, run (homaResendDataSegmentBody (DataSkb.layout h k a n) start stop allocOk) fuel
        { segOffset := homaDataHdrSize
          offset := (DataSkb.layout h k a n).offset
          segLength := if (DataSkb.layout h k a n).gsoSegs ≤ 1 then
              (DataSkb.layout h k a n).dataBytes else (DataSkb.layout h k a n).segLength
          dataLeft := (DataSkb.layout h k a n).dataBytes
          out := resendOut msgout acc.1 } = some r ∧
      SegmentLoopPost k a n msgout start stop allocOk acc r :=
  @run_terminates _ _ _ (SegmentCursor.Inv h k a n msgout start stop allocOk acc)
    (SegmentLoopPost k a n msgout start stop allocOk acc) (fun c => c.dataLeft.toNat)
    (fun _ hs t ht => homaResendDataSegmentBody_spec hk hk' ha hfit hlt hs t ht)
    (fun c _ => homaResendDataSegmentBody_isSome _ start stop allocOk c)
    fuel _ (SegmentCursor.Inv.init hk hn hsegs hacc) (by simpa using hfuel)

end SegmentLoop

/-! ## The packet loop -/

section PacketLoop

variable {h : Bool} {k : ℕ} {msgout : MessageOut} {start stop : ℤ} {allocOk : ℕ → Bool}

@[simp] theorem DataSkb.layout_segments (h : Bool) (k : ℕ) (a : ℤ) (n : ℕ) :
    (DataSkb.layout h k a n).segments = split k a n := by
  simp [DataSkb.segments]

@[simp] theorem DataSkb.layout_stop (h : Bool) (k : ℕ) (a : ℤ) (n : ℕ) :
    (DataSkb.layout h k a n).stop = a + n := by
  simp [DataSkb.stop]

theorem tiles_flatMap_segments (hk : 0 < k) {b c : ℤ} {l : List DataSkb}
    (hl : ∀ skb ∈ l, skb = DataSkb.layout h k skb.offset skb.dataBytes.toNat)
    (htiles : Tiles DataSkb.offset DataSkb.stop b c l) :
    Tiles Prod.fst pieceEnd b c (l.flatMap DataSkb.segments) :=
  htiles.flatMap _ fun skb hskb => by
    rw [hl skb hskb]
    simpa using tiles_split hk skb.offset skb.dataBytes.toNat

theorem homaResendDataLoop_eq (hk : 0 < k) (hk' : k + homaSegHdrSize < 2 ^ 16) (hlt : start < stop)
    {covered : ℤ} (hcov : covered ≤ 1400000) {fuel : ℕ} (hfuel : covered < fuel) :
    ∀ (rest : List DataSkb) (b : ℤ) (acc : List ResentPacket × Bool), 0 ≤ b →
      Tiles DataSkb.offset DataSkb.stop b covered rest →
      (∀ skb ∈ rest, skb = DataSkb.layout h k skb.offset skb.dataBytes.toNat) →
      (∀ skb ∈ rest, ceilDiv skb.dataBytes.toNat k < 2 ^ 16) →
      acc.2 = true →
      homaResendDataLoop fuel start stop allocOk rest (resendOut msgout acc.1) =
        some (resendOut msgout
          ((rest.flatMap DataSkb.segments).foldl (resendStep start stop allocOk) acc).1) := by
  intro rest
  induction rest with
  | nil =>
      intro b acc _ _ _ _ _
      rfl
  | cons skb rest ih =>
      intro b acc hb htiles hlayout hsegs hacc
      have hall := tiles_flatMap_segments hk hlayout htiles
      obtain ⟨a, n, rfl⟩ : ∃ a n, skb = DataSkb.layout h k a n :=
        ⟨_, _, hlayout skb List.mem_cons_self⟩
      obtain ⟨hoff, hpos, hrest⟩ := htiles
      simp only [DataSkb.layout_offset, DataSkb.layout_stop] at hoff hpos hrest
      subst b
      have hcovered := hrest.le
      have hlayout' := fun s hs => hlayout s (List.mem_cons_of_mem _ hs)
      have hsegs' := fun s hs => hsegs s (List.mem_cons_of_mem _ hs)
      have hsegs₀ : ceilDiv n k < 2 ^ 16 := by simpa using hsegs _ List.mem_cons_self
      -- The segments of the later packets start where this packet ends.
      have hlater : ∀ p ∈ rest.flatMap DataSkb.segments, a + n ≤ p.1 :=
        fun p hp => (tiles_flatMap_segments hk hlayout' hrest).bounded.lo_ge hp
      rw [homaResendDataLoop]
      simp only [DataSkb.layout_offset]
      by_cases hbreak : a ≥ stop
      · -- The packet starts at or after the range's end: `break`.
        rw [if_pos hbreak, foldl_resendStep_of_not_meets acc
          (fun p hp => not_meets_of_le_fst (le_trans hbreak (hall.bounded.lo_ge hp)))]
      rw [if_neg hbreak, DataSkb.layout_dataBytes,
        wrapInt_32_of_mem (x := a + n) (by omega) (by omega), List.flatMap_cons,
        DataSkb.layout_segments, List.foldl_append]
      by_cases hskip : start ≥ a + n
      · -- The packet ends before the range: `continue`.
        rw [if_pos hskip, foldl_resendStep_of_not_meets acc
          (fun p hp => not_meets_of_end_le (le_trans (mem_split_bounds hk hp).2 hskip))]
        exact ih (a + n) acc (by omega) hrest hlayout' hsegs' hacc
      rw [if_neg hskip]
      have hn : 0 < n := by omega
      have hfit : a + n ≤ 1400000 := by omega
      have hfuel' : n < fuel := by omega
      obtain ⟨r, hrun, hout, htrue, hfalse⟩ :=
        @run_homaResendDataSegmentBody h k a n msgout start stop allocOk acc hk hk' hb hn hsegs₀ hfit
          hlt hacc fuel hfuel'
      simp only [DataSkb.layout_offset, DataSkb.layout_dataBytes] at hrun
      rw [hrun]
      obtain ⟨_ | _, out⟩ := r
      · -- `goto resend_done`: sending has stopped, or the range ends in this packet.
        dsimp only at hout hfalse ⊢
        rw [hout]
        rcases hfalse rfl with hstopped | hinside
        · rw [show (split k a n).foldl (resendStep start stop allocOk) acc =
            (((split k a n).foldl (resendStep start stop allocOk) acc).1, false) from
              Prod.ext rfl hstopped, foldl_resendStep_stopped]
        · rw [foldl_resendStep_of_not_meets _
            (fun p hp => not_meets_of_le_fst (le_trans hinside.le (hlater p hp)))]
      · -- The whole packet has been visited: go on with the next one.
        dsimp only at hout htrue ⊢
        rw [hout]
        exact ih (a + n) _ (by omega) hrest hlayout' hsegs' (htrue rfl)

end PacketLoop

/-! ## A RESEND on a filled message -/

section Resend

variable {g : Geometry} {L U : ℤ} {msgout : MessageOut} {start stop : ℤ}
  {allocOk : ℕ → Bool}

/-- The geometry of the unit tests of `homa_resend_data`: an IPv6 socket on a
device with `gso_max_size` 5000. -/
def resendTestGeometry : Geometry :=
  { mtu := 1496, ipHeaderLength := 40, gsoMaxSize := 5000, maxGsoSize := 10000
    hijack := false }

theorem resendOut_nil (msgout : MessageOut) :
    resendOut msgout [] = { msgout, sent := [] } := by
  simp [resendOut]

theorem resendPlan_of_le (allocOk : ℕ → Bool) (segs : List (ℤ × ℕ)) (hle : stop ≤ start) :
    resendPlan start stop allocOk segs = [] := by
  unfold resendPlan
  rw [foldl_resendStep_of_not_meets _ fun p _ => by unfold Meets; omega]

theorem MessageOut.Filled.tiles_segments (hg : g.Usable) {covered : ℤ}
    (hm : msgout.Filled g L U covered) :
    Tiles Prod.fst pieceEnd 0 covered (msgout.packets.flatMap DataSkb.segments) :=
  tiles_flatMap_segments (by have := hg.maxSegData_pos; omega) hm.layout hm.tiles

theorem MessageOut.Filled.ceilDiv_lt (hg : g.Usable) (hgso : g.segsPerGso < 2 ^ 16) {covered : ℤ}
    (hm : msgout.Filled g L U covered) :
    ∀ skb ∈ msgout.packets, ceilDiv skb.dataBytes.toNat g.maxSegData.toNat < 2 ^ 16 := by
  intro skb hskb
  have hk := hg.maxSegData_pos
  have hk' := hg.maxSegData_le
  have hpos := hg.maxGsoData_pos
  have hle := hm.le_maxGsoData skb hskb
  have hP0 : 0 ≤ (g.segsPerGso : ℤ) * g.maxSegData := Int.mul_nonneg (by omega) (by omega)
  have hP : (g.segsPerGso : ℤ) * g.maxSegData < 2 ^ 32 :=
    calc (g.segsPerGso : ℤ) * g.maxSegData ≤ 65535 * 65535 :=
          Int.mul_le_mul (by omega) hk' (by omega) (by norm_num)
      _ < 2 ^ 32 := by norm_num
  -- a product past the signed range would have wrapped to a negative `max_gso_data`
  have hnowrap : g.maxGsoData = g.segsPerGso * g.maxSegData := by
    unfold Geometry.maxGsoData at hpos ⊢
    by_cases hsmall : (g.segsPerGso : ℤ) * g.maxSegData < 2 ^ 31
    · exact wrapInt_32_of_mem (by omega) hsmall
    · rw [wrapInt_of_overflow (by omega) (by omega)] at hpos
      omega
  have hcast : ((g.segsPerGso * g.maxSegData.toNat : ℕ) : ℤ) = g.segsPerGso * g.maxSegData := by
    push_cast
    rw [Int.toNat_of_nonneg (by omega)]
  have hn : skb.dataBytes.toNat ≤ g.segsPerGso * g.maxSegData.toNat := by
    omega
  exact (ceilDiv_le_of_le_mul (by omega) hn).trans_lt hgso

/-- On a message cut into packets by `homa_message_out_fill`,
`homa_resend_data` sends the plan for the message's segments and links
the copies on `to_free`. -/
theorem homaResendData_eq_resendPlan (hg : g.Usable) (hsize : g.maxSegData + homaSegHdrSize < 2 ^ 16)
    (hgso : g.segsPerGso < 2 ^ 16) (hm : msgout.Filled g L U L)
    (hL : L ≤ homaMaxMessageLength) {fuel : ℕ} (hfuel : L < fuel) :
    homaResendData fuel msgout start stop allocOk =
      some ((resendOut msgout (resendPlan start stop allocOk
          (msgout.packets.flatMap DataSkb.segments))).msgout,
        resendPlan start stop allocOk (msgout.packets.flatMap DataSkb.segments)) := by
  unfold homaResendData
  by_cases hle : stop ≤ start
  · rw [if_pos hle, resendPlan_of_le allocOk _ hle, resendOut_nil]
  · rw [if_neg hle, ← resendOut_nil]
    have hk := hg.maxSegData_pos
    have hk' := hg.maxSegData_le
    rw [show ([] : List ResentPacket) = (([], true) : List ResentPacket × Bool).1 from rfl,
      homaResendDataLoop_eq (k := g.maxSegData.toNat) (by omega) (by omega) (by omega)
        (by unfold homaMaxMessageLength at hL; exact hL) hfuel msgout.packets 0 _ le_rfl
        hm.tiles hm.layout (hm.ceilDiv_lt hg hgso) rfl]
    rfl

/-- The unit test `homa_resend_data__basics`: with `unsched_bytes` 10000 the
third packet is cut at 10000, so its last segment has 200 bytes. -/
example :
    ((homaMessageOutFill 16001 resendTestGeometry 10000 16000 (fun _ => .ok)
        (homaMessageOutInit 0 0)).bind fun r =>
      (homaResendData 16001 r.2 7000 10000 (fun _ => true)).map fun out =>
        out.2.map fun p => (p.offset, p.dataBytes)) =
      some [(7000, 1400), (8400, 1400), (9800, 200)] := by
  decide +kernel


/-- On every message `homa_message_out_fill` has built, `homa_resend_data`
sends, in order, one packet for each segment meeting `[start, end)` up to
the first whose allocations fail, with the segment's offset and length and the
message bytes at that offset. -/
theorem homaResendData_sends_meeting_segments {g : Geometry} (hg : g.Usable)
    (hsize : g.maxSegData + homaSegHdrSize < 2 ^ 16) (hgso : g.segsPerGso < 2 ^ 16)
    {fuel fuel' count : ℕ} {unschedBytes : ℤ} {events : ℕ → PacketEvent}
    {msgout₀ msgout : MessageOut}
    (hfill : homaMessageOutFill fuel g unschedBytes count events msgout₀ = some (0, msgout))
    (hfuel : count < fuel') (start stop : ℤ) (allocOk : ℕ → Bool) :
    let segs := msgout.packets.flatMap DataSkb.segments
    let meeting := segs.filter fun p => decide (Meets start stop p)
    Tiles Prod.fst pieceEnd 0 count segs ∧
      ∃ j ≤ meeting.length,
        homaResendData fuel' msgout start stop allocOk =
          some ((resendOut msgout ((meeting.take j).map (resentPacket stop))).msgout,
            (meeting.take j).map (resentPacket stop)) ∧
        (∀ i < j, allocOk i = true) ∧ (j < meeting.length → allocOk j = false) := by
  intro segs meeting
  -- A call that returns 0 had a valid length.
  have hvalid : ¬ (count > homaMaxMessageLength ∨ count = 0) := by
    intro hbad
    unfold homaMessageOutFill at hfill
    rw [if_pos hbad] at hfill
    simp [einval] at hfill
  have hmax : (count : ℤ) ≤ homaMaxMessageLength := by omega
  obtain ⟨covered, hm, hend⟩ := homaMessageOutFill_outcome hg (by omega) hmax hfill
  have hcov : covered = count := by
    rcases hend with ⟨-, hcov⟩ | ⟨herr, -⟩ | ⟨herr, -⟩
    · exact hcov
    · simp [enomem] at herr
    · simp [einval] at herr
  subst hcov
  refine ⟨hm.tiles_segments hg, ?_⟩
  obtain ⟨j, hj, heq, hbefore, hat⟩ :=
    @foldl_resendStep_eq_take start stop allocOk [] segs
  refine ⟨j, hj, ?_, by simpa using hbefore, by simpa using hat⟩
  rw [homaResendData_eq_resendPlan hg hsize hgso hm hmax (by omega)]
  unfold resendPlan
  rw [heq, List.nil_append]

theorem homaResendData_sends_meeting_segments_test :
    resendTestGeometry.Usable ∧
      resendTestGeometry.maxSegData + homaSegHdrSize < 2 ^ 16 ∧ resendTestGeometry.segsPerGso < 2 ^ 16 ∧
      ∃ msgout, homaMessageOutFill 16001 resendTestGeometry 10000 16000 (fun _ => .ok)
          (homaMessageOutInit 0 0) = some (0, msgout) ∧
        let segs := msgout.packets.flatMap DataSkb.segments
        let meeting := segs.filter fun p => decide (Meets 7000 10000 p)
        Tiles Prod.fst pieceEnd 0 16000 segs ∧
          ∃ j ≤ meeting.length,
            homaResendData 16001 msgout 7000 10000 (fun _ => true) =
              some ((resendOut msgout ((meeting.take j).map (resentPacket 10000))).msgout,
                (meeting.take j).map (resentPacket 10000)) ∧
            (∀ i < j, (fun _ => true) i = true) ∧
            (j < meeting.length → (fun _ => true) j = false) := by
  have hg : resendTestGeometry.Usable := ⟨by decide +kernel, by decide +kernel, by decide +kernel⟩
  obtain ⟨msgout, hfill, -⟩ :=
    @homaMessageOutFill_filled resendTestGeometry 16001 16000 10000 (fun _ => .ok)
      (homaMessageOutInit 0 0) hg (by decide) (by decide) (by decide) (fun _ => rfl)
  have hsize : resendTestGeometry.maxSegData + homaSegHdrSize < 2 ^ 16 := by decide +kernel
  have hgso : resendTestGeometry.segsPerGso < 2 ^ 16 := by decide +kernel
  exact ⟨hg, hsize, hgso, msgout, hfill,
    homaResendData_sends_meeting_segments hg hsize hgso hfill (by decide) 7000 10000 fun _ => true⟩

/-- When the allocation for a segment fails, `homa_resend_data` stops: on
a 100-byte message a RESEND of all of it sends nothing. -/
theorem homaResendData_allocation_failure :
    (homaMessageOutFill 101 resendTestGeometry 10000 100 (fun _ => .ok)
        (homaMessageOutInit 0 0)).map (fun r =>
      (r.1, (r.2.packets.flatMap DataSkb.segments).filter fun p => decide (Meets 0 100 p),
        (homaResendData 101 r.2 0 100 (fun _ => false)).map fun out => out.2.length)) =
      some (0, [(0, 100)], some 0) := by
  decide +kernel

end Resend

end Homa
