import Homa.MessageIn

/-!
# The reassembly invariant of an incoming message

`MessageIn.Reassembly` is the state `homa_add_packet` is written to keep:
`recv_end` in `[0, length]`; the gaps non-empty, sorted, disjoint and below
`recv_end`; the queued packets disjoint, inside the message, covering
`[0, recv_end)` minus the gaps; and `bytes_remaining` the length minus the
queued bytes.  Every `goto keep` is an instance of `Reassembly.keep`, and
the gap scan is handled once by `homaAddPacketGapScan_spec`.  The invariant
survives every packet whose `start + length` fits in an `int`; the
`(start + length) > msgin.length` check does not catch one whose end wraps.
-/

namespace Homa

open IntervalList MachineArith

namespace MessageIn

/-- The message bytes held by the queued packets. -/
def received (msgin : MessageIn) : Set ℤ :=
  holes DataPacket.start (fun p => p.start + p.length) msgin.packets

/-- The message bytes the gap list reports missing. -/
def missing (msgin : MessageIn) : Set ℤ :=
  holes Gap.start Gap.stop msgin.gaps

def gapBytes (msgin : MessageIn) : ℤ :=
  span Gap.start Gap.stop msgin.gaps

def keptBytes (msgin : MessageIn) : ℤ :=
  (msgin.packets.map DataPacket.length).sum

/-- The reception state of an incoming message that has been filed
consistently. -/
structure Reassembly (msgin : MessageIn) : Prop where
  length_le : msgin.length ≤ homaMaxMessageLength
  recvEnd_nonneg : 0 ≤ msgin.recvEnd
  recvEnd_le : msgin.recvEnd ≤ msgin.length
  gaps_bounded : Bounded Gap.start Gap.stop 0 msgin.recvEnd msgin.gaps
  packets_disjoint : msgin.packets.Pairwise fun p q => Disjoint p.range q.range
  packets_inside :
    ∀ p ∈ msgin.packets, 0 ≤ p.start ∧ p.start + p.length ≤ msgin.length
  received_eq : msgin.received = Set.Ico 0 msgin.recvEnd \ msgin.missing
  bytesRemaining_eq : msgin.bytesRemaining = msgin.length - msgin.keptBytes
  keptBytes_eq : msgin.keptBytes = msgin.recvEnd - msgin.gapBytes

@[simp] theorem keep_length (msgin : MessageIn) (p : DataPacket) :
    (msgin.keep p).length = msgin.length := rfl

@[simp] theorem keep_gaps (msgin : MessageIn) (p : DataPacket) :
    (msgin.keep p).gaps = msgin.gaps := rfl

@[simp] theorem keep_recvEnd (msgin : MessageIn) (p : DataPacket) :
    (msgin.keep p).recvEnd = msgin.recvEnd := rfl

@[simp] theorem keep_packets (msgin : MessageIn) (p : DataPacket) :
    (msgin.keep p).packets = msgin.packets ++ [p] := rfl

theorem received_keep (msgin : MessageIn) (p : DataPacket) :
    (msgin.keep p).received = msgin.received ∪ p.range := by
  simp [received, DataPacket.range]

theorem keptBytes_keep (msgin : MessageIn) (p : DataPacket) :
    (msgin.keep p).keptBytes = msgin.keptBytes + p.length := by
  simp [keptBytes]

theorem keptBytes_nonneg (msgin : MessageIn) : 0 ≤ msgin.keptBytes := by
  apply List.sum_nonneg
  intro n hn
  obtain ⟨p, -, rfl⟩ := List.mem_map.mp hn
  exact p.length_nonneg

/-- Every `goto keep` of `homa_add_packet` preserves the invariant, provided
the new gap list and `recv_end` say that exactly the packet's bytes arrived,
and these were not there before. -/
theorem Reassembly.keep {msgin : MessageIn} {p : DataPacket}
    {gaps : List Gap} {recvEnd : ℤ} (hinv : msgin.Reassembly)
    (hbounded : Bounded Gap.start Gap.stop 0 recvEnd gaps)
    (hrecvEnd : msgin.recvEnd ≤ recvEnd) (hrecvEnd_le : recvEnd ≤ msgin.length)
    (hinside : 0 ≤ p.start ∧ p.start + p.length ≤ msgin.length)
    (hnew : Set.Ico 0 recvEnd \ holes Gap.start Gap.stop gaps =
      msgin.received ∪ p.range)
    (hfresh : Disjoint msgin.received p.range)
    (hspan : recvEnd - span Gap.start Gap.stop gaps =
      msgin.recvEnd - msgin.gapBytes + p.length) :
    ({ msgin with gaps := gaps, recvEnd := recvEnd }.keep p).Reassembly := by
  have hlen := p.length_le
  have hkept : msgin.keptBytes ≤ msgin.recvEnd := by
    have := hinv.gaps_bounded.span_nonneg
    rw [hinv.keptBytes_eq]
    unfold gapBytes
    omega
  have hwrap : wrapInt 32 (msgin.bytesRemaining - p.length) =
      msgin.bytesRemaining - p.length := by
    have := hinv.bytesRemaining_eq
    have := hinv.length_le
    have := hinv.recvEnd_le
    have := msgin.keptBytes_nonneg
    have := p.length_nonneg
    unfold homaMaxMessageLength at *
    apply wrapInt_of_lt <;> norm_num <;> omega
  constructor
  · exact hinv.length_le
  · exact hinv.recvEnd_nonneg.trans hrecvEnd
  · exact hrecvEnd_le
  · exact hbounded
  · -- the packet's bytes are new, so it overlaps no queued packet
    rw [keep_packets, List.pairwise_append]
    refine ⟨hinv.packets_disjoint, List.pairwise_singleton _ _, ?_⟩
    intro q hq r hr
    rw [List.mem_singleton] at hr
    subst hr
    refine hfresh.mono_left ?_
    intro x hx
    exact ⟨q, hq, hx⟩
  · intro q hq
    simp only [keep_packets, List.mem_append, List.mem_singleton] at hq
    rcases hq with hq | rfl
    · exact hinv.packets_inside q hq
    · exact hinside
  · rw [received_keep]
    exact hnew.symm
  · show wrapInt 32 (msgin.bytesRemaining - p.length) =
      msgin.length - (msgin.keep p).keptBytes
    rw [hwrap, keptBytes_keep, hinv.bytesRemaining_eq]
    ring
  · show (msgin.keep p).keptBytes = recvEnd - span Gap.start Gap.stop gaps
    rw [keptBytes_keep, hspan, hinv.keptBytes_eq]

end MessageIn

/-! ## The gap scan -/

private theorem holes_cut {H : Set ℤ} {s t lo hi b : ℤ}
    (hH : H ⊆ Set.Ico hi b) (ht : t ≤ hi) :
    (Set.Ico lo hi ∪ H) \ Set.Ico s t = (Set.Ico lo hi \ Set.Ico s t) ∪ H := by
  rw [Set.union_sdiff_distrib]
  congr 1
  apply Disjoint.sdiff_eq_left
  rw [Set.disjoint_left]
  intro x hxH hxst
  have := hH hxH
  rw [Set.mem_Ico] at this hxst
  omega

theorem homaAddPacketGapScan_spec {allocOk : Bool} {start stop a b : ℤ}
    {gaps gaps' : List Gap} (hbounded : Bounded Gap.start Gap.stop a b gaps)
    (hle : start ≤ stop)
    (hscan : homaAddPacketGapScan allocOk start stop gaps = some gaps') :
    Bounded Gap.start Gap.stop a b gaps' ∧
      holes Gap.start Gap.stop gaps' =
        holes Gap.start Gap.stop gaps \ Set.Ico start stop ∧
      Set.Ico start stop ⊆ holes Gap.start Gap.stop gaps ∧
      span Gap.start Gap.stop gaps' + (stop - start) =
        span Gap.start Gap.stop gaps ∧
      a ≤ start ∧ stop ≤ b := by
  induction gaps generalizing a gaps' with
  | nil => simp [homaAddPacketGapScan] at hscan
  | cons gap rest ih =>
      obtain ⟨hagap, hgap, hrest⟩ := hbounded
      have hholes : holes Gap.start Gap.stop rest ⊆ Set.Ico gap.stop b :=
        hrest.holes_subset
      have hb : gap.stop ≤ b := hrest.le
      simp only [homaAddPacketGapScan] at hscan
      split_ifs at hscan with h₁ h₂ h₃ h₄ h₅ h₆ h₇ h₈
      · -- the packet ends before this gap: a later gap cannot hold it
        obtain ⟨rest', hrest', -⟩ := Option.map_eq_some_iff.mp hscan
        have := (ih hrest hrest').2.2.2.2.1
        omega
      · -- the packet fills this gap entirely: the gap is deleted
        cases hscan
        have hstart : start = gap.start := by omega
        have hstop : stop = gap.stop := by omega
        subst hstart hstop
        refine ⟨hrest.mono_left (hagap.trans hgap.le), ?_, ?_, ?_, hagap, hb⟩
        · rw [holes_cons, holes_cut hholes le_rfl, Set.sdiff_self,
            Set.empty_union]
        · rw [holes_cons]
          exact Set.subset_union_left
        · rw [span_cons]
          ring
      · -- the packet fills the front of this gap
        cases hscan
        have hstart : start = gap.start := by omega
        subst hstart
        simp only [bounded_cons, holes_cons, span_cons]
        refine ⟨⟨by omega, by omega, hrest⟩, ?_, ?_, by ring, hagap, by omega⟩
        · rw [holes_cut hholes (by omega), Ico_sdiff_front hle]
        · exact Set.subset_union_of_subset_left
            (Set.Ico_subset_Ico le_rfl (by omega)) _
      · -- the packet starts after this gap: keep scanning
        obtain ⟨rest', hrest', rfl⟩ := Option.map_eq_some_iff.mp hscan
        obtain ⟨hbounded', hholes', hsub, hspan, hlo, hhi⟩ := ih hrest hrest'
        have hdisj :
            Disjoint (Set.Ico gap.start gap.stop) (Set.Ico start stop) := by
          rw [Set.disjoint_left]
          intro x hx hx'
          rw [Set.mem_Ico] at hx hx'
          omega
        refine ⟨⟨hagap, hgap, hbounded'⟩, ?_, ?_, ?_, by omega, hhi⟩
        · rw [holes_cons, holes_cons, hholes', Set.union_sdiff_distrib,
            hdisj.sdiff_eq_left]
        · rw [holes_cons]
          exact hsub.trans Set.subset_union_right
        · simp only [span_cons]
          omega
      · -- the packet fills the back of this gap
        cases hscan
        have hstop : stop = gap.stop := by omega
        subst hstop
        simp only [bounded_cons, holes_cons, span_cons]
        refine ⟨⟨hagap, by omega, hrest.mono_left (by omega)⟩, ?_, ?_, by ring,
          by omega, hb⟩
        · rw [holes_cut hholes le_rfl, Ico_sdiff_back hle]
        · exact Set.subset_union_of_subset_left
            (Set.Ico_subset_Ico (by omega) le_rfl) _
      · -- the packet is strictly inside this gap: the gap is split
        unfold homaGapAlloc at hscan
        split_ifs at hscan
        cases hscan
        simp only [List.nil_append, bounded_cons, holes_cons, span_cons]
        refine ⟨⟨hagap, by omega, by omega, by omega, hrest⟩, ?_, ?_, by ring,
          by omega, by omega⟩
        · rw [holes_cut hholes (by omega),
            Ico_sdiff_middle (by omega) hle (by omega), Set.union_assoc]
        · exact Set.subset_union_of_subset_left
            (Set.Ico_subset_Ico (by omega) (by omega)) _

/-! ## One packet -/

namespace MessageIn

theorem Reassembly.homaAddPacket {msgin : MessageIn} (hinv : msgin.Reassembly)
    (p : DataPacket) (allocOk : Bool) (hp : p.NoWrap) :
    (Homa.homaAddPacket msgin p allocOk).Reassembly := by
  have hstop := DataPacket.stop_of_noWrap hp
  have hlen := p.length_nonneg
  have hrecv0 := hinv.recvEnd_nonneg
  have hrecvL := hinv.recvEnd_le
  have hmax := hinv.length_le
  unfold homaMaxMessageLength at hmax
  have hmissing : msgin.missing ⊆ Set.Ico 0 msgin.recvEnd :=
    hinv.gaps_bounded.holes_subset
  have hreceived : msgin.received ⊆ Set.Ico 0 msgin.recvEnd := by
    rw [hinv.received_eq]
    exact Set.sdiff_subset
  unfold Homa.homaAddPacket
  dsimp only
  split_ifs with htoo hseq hnew
  · exact hinv
  · -- sequential: the received prefix grows by the packet
    have hwrap : wrapInt 32 (msgin.recvEnd + p.length) =
        msgin.recvEnd + p.length := by
      apply wrapInt_of_lt <;> omega
    rw [hwrap]
    have hend : msgin.recvEnd + p.length ≤ msgin.length := by omega
    have hbounded : Bounded Gap.start Gap.stop 0 (msgin.recvEnd + p.length)
        msgin.gaps := hinv.gaps_bounded.mono_right (by omega)
    refine hinv.keep hbounded (by omega) hend ⟨by omega, by omega⟩ ?_ ?_ ?_
    · have hgrow := Ico_sdiff_grow hmissing hrecv0 le_rfl (by omega : msgin.recvEnd ≤ msgin.recvEnd + p.length)
      rw [Set.Ico_self, Set.union_empty] at hgrow
      rw [hinv.received_eq, DataPacket.range, hseq]
      exact hgrow
    · refine Set.disjoint_left.mpr fun x hx hx' => ?_
      have := hreceived hx
      rw [DataPacket.range, Set.mem_Ico] at hx'
      rw [Set.mem_Ico] at this
      omega
    · unfold gapBytes
      ring
  · -- past `recv_end`: a new gap covers the bytes in between
    unfold homaGapAlloc
    split_ifs with hok
    · dsimp only
      have hbounded : Bounded Gap.start Gap.stop 0 p.stop
          (msgin.gaps ++ [⟨msgin.recvEnd, p.start⟩]) :=
        hinv.gaps_bounded.append_single le_rfl hnew
          (show p.start ≤ p.stop by omega)
      refine hinv.keep hbounded (by omega) (by omega) ⟨by omega, by omega⟩
        ?_ ?_ ?_
      · rw [holes_append, holes_cons, holes_nil, Set.union_empty,
          hinv.received_eq, DataPacket.range, hstop]
        exact Ico_sdiff_grow hmissing hrecv0 hnew.le
          (show p.start ≤ p.start + p.length by omega)
      · refine Set.disjoint_left.mpr fun x hx hx' => ?_
        have := hreceived hx
        rw [DataPacket.range, Set.mem_Ico] at hx'
        rw [Set.mem_Ico] at this
        omega
      · simp only [gapBytes, span_append, span_cons, span_nil]
        omega
    · exact hinv
  · -- before `recv_end`: the packet must fill part of a gap
    cases hscan : homaAddPacketGapScan allocOk p.start p.stop msgin.gaps with
    | none => exact hinv
    | some gaps =>
        obtain ⟨hbounded, hholes, hsub, hspan, hlo, hhi⟩ :=
          homaAddPacketGapScan_spec hinv.gaps_bounded (by omega) hscan
        dsimp only
        have hinside : 0 ≤ p.start ∧ p.start + p.length ≤ msgin.length :=
          ⟨hlo, by omega⟩
        refine hinv.keep hbounded le_rfl hrecvL hinside ?_ ?_ ?_
        · rw [hholes, hinv.received_eq, DataPacket.range, ← hstop]
          rw [Set.sdiff_sdiff_right, Set.inter_eq_right.mpr (hsub.trans hmissing)]
          rfl
        · rw [hinv.received_eq, DataPacket.range, ← hstop]
          exact Set.disjoint_sdiff_left.mono_right hsub
        · unfold gapBytes
          omega

theorem Reassembly.homaAddPackets {msgin : MessageIn} (hinv : msgin.Reassembly)
    (arrivals : List (DataPacket × Bool))
    (hnoWrap : ∀ arrival ∈ arrivals, arrival.1.NoWrap) :
    (Homa.homaAddPackets msgin arrivals).Reassembly := by
  induction arrivals generalizing msgin with
  | nil => exact hinv
  | cons arrival rest ih =>
      obtain ⟨p, allocOk⟩ := arrival
      rw [homaAddPackets_cons]
      apply ih (hinv.homaAddPacket p allocOk (hnoWrap (p, allocOk) (by simp)))
      intro arrival harrival
      exact hnoWrap arrival (by simp [harrival])

theorem length_homaAddPacket (msgin : MessageIn) (p : DataPacket)
    (allocOk : Bool) : (Homa.homaAddPacket msgin p allocOk).length =
      msgin.length := by
  rcases homaAddPacket_cases msgin p allocOk with h | ⟨gaps, recvEnd, h⟩
  · rw [h]
  · rw [h]
    rfl

theorem length_homaAddPackets (msgin : MessageIn)
    (arrivals : List (DataPacket × Bool)) :
    (Homa.homaAddPackets msgin arrivals).length = msgin.length := by
  induction arrivals generalizing msgin with
  | nil => rfl
  | cons arrival rest ih =>
      obtain ⟨p, allocOk⟩ := arrival
      rw [homaAddPackets_cons, ih, length_homaAddPacket]

theorem reassembly_of_homaMessageInInit {length poolErr : ℤ}
    {msgin : MessageIn} (hinit : homaMessageInInit length poolErr = .ok msgin)
    (hlength : 0 ≤ length) : msgin.Reassembly := by
  unfold homaMessageInInit at hinit
  split_ifs at hinit with hmax hpool
  cases hinit
  constructor <;>
    simp [received, missing, keptBytes, gapBytes, not_lt.mp hmax, hlength]

theorem Reassembly.bytesRemaining_eq_gapBytes {msgin : MessageIn}
    (hinv : msgin.Reassembly) :
    msgin.bytesRemaining = msgin.length - msgin.recvEnd + msgin.gapBytes := by
  rw [hinv.bytesRemaining_eq, hinv.keptBytes_eq]
  ring

theorem Reassembly.bytesRemaining_nonneg {msgin : MessageIn}
    (hinv : msgin.Reassembly) : 0 ≤ msgin.bytesRemaining := by
  have := hinv.gaps_bounded.span_nonneg
  have := hinv.recvEnd_le
  rw [hinv.bytesRemaining_eq_gapBytes]
  unfold gapBytes
  omega

theorem Reassembly.bytesRemaining_eq_zero_iff {msgin : MessageIn}
    (hinv : msgin.Reassembly) :
    msgin.bytesRemaining = 0 ↔ msgin.received = Set.Ico 0 msgin.length := by
  have hspan := hinv.gaps_bounded.span_nonneg
  have hle := hinv.recvEnd_le
  have hzero := hinv.gaps_bounded.span_eq_zero_iff
  rw [hinv.bytesRemaining_eq_gapBytes, hinv.received_eq]
  unfold gapBytes at *
  constructor
  · intro hbytes
    have hend : msgin.recvEnd = msgin.length := by omega
    have hgaps : msgin.gaps = [] := hzero.mp (by omega)
    rw [missing, hgaps, holes_nil, Set.sdiff_empty, hend]
  · intro hset
    -- the last byte of the message is present, so `recv_end` reached it
    have hend : msgin.recvEnd = msgin.length := by
      by_contra hne
      have hlast : msgin.length - 1 ∈ Set.Ico 0 msgin.length := by
        rw [Set.mem_Ico]
        have := hinv.recvEnd_nonneg
        omega
      rw [← hset] at hlast
      have := hlast.1.2
      omega
    -- and no gap is left: the first gap's first byte would be missing
    have hgaps : msgin.gaps = [] := by
      cases hcons : msgin.gaps with
      | nil => rfl
      | cons gap rest =>
          have hbounded := hinv.gaps_bounded
          rw [hcons] at hbounded
          obtain ⟨hlo, hgap, hrest⟩ := hbounded
          have hin : gap.start ∈ Set.Ico 0 msgin.length := by
            have := hrest.le
            rw [Set.mem_Ico]
            omega
          rw [← hset] at hin
          exfalso
          apply hin.2
          rw [missing, hcons, holes_cons]
          exact .inl ⟨le_rfl, hgap⟩
    rw [hgaps] at hzero ⊢
    simp only [span_nil]
    omega

end MessageIn

/-- The reception state after `homa_message_in_init` and any run of
`homa_add_packet` calls, in any order, with any duplicates and any
allocation failures, provided no packet's `start + length` wraps: `recv_end`
lies in `[0, L]`; the gaps are sorted, non-empty, pairwise disjoint and
inside `[0, recv_end)`; the queued packets hold pairwise disjoint ranges
inside `[0, L)` whose union is `[0, recv_end)` minus the gaps; and
`bytes_remaining` is `L` minus the queued bytes, never negative, and zero
exactly when all of `[0, L)` is queued. -/
theorem homaAddPackets_receptionState {L poolErr : ℤ} {msgin : MessageIn}
    (hinit : homaMessageInInit L poolErr = .ok msgin) (hL : 0 < L)
    (arrivals : List (DataPacket × Bool))
    (hnoWrap : ∀ arrival ∈ arrivals, arrival.1.NoWrap) :
    let m := homaAddPackets msgin arrivals
    (0 ≤ m.recvEnd ∧ m.recvEnd ≤ L) ∧
      m.gaps.Pairwise (fun g g' => g.start < g'.start) ∧
      (∀ g ∈ m.gaps, g.start < g.stop) ∧
      m.gaps.Pairwise (fun g g' =>
        Disjoint (Set.Ico g.start g.stop) (Set.Ico g'.start g'.stop)) ∧
      m.missing ⊆ Set.Ico 0 m.recvEnd ∧
      m.packets.Pairwise (fun p q => Disjoint p.range q.range) ∧
      (∀ p ∈ m.packets, 0 ≤ p.start ∧ p.start + p.length ≤ L) ∧
      m.received = Set.Ico 0 m.recvEnd \ m.missing ∧
      m.bytesRemaining = L - m.keptBytes ∧
      0 ≤ m.bytesRemaining ∧
      (m.bytesRemaining = 0 ↔ m.received = Set.Ico 0 L) := by
  intro m
  have hinit' := hinit
  unfold homaMessageInInit at hinit'
  split_ifs at hinit'
  cases hinit'
  have hinv : m.Reassembly :=
    (MessageIn.reassembly_of_homaMessageInInit hinit hL.le).homaAddPackets
      arrivals hnoWrap
  have hlength : m.length = L := MessageIn.length_homaAddPackets _ _
  rw [← hlength]
  exact ⟨⟨hinv.recvEnd_nonneg, hinv.recvEnd_le⟩,
    hinv.gaps_bounded.pairwise_lo_lt,
    fun g hg => hinv.gaps_bounded.lo_lt_hi hg,
    hinv.gaps_bounded.pairwise_disjoint,
    hinv.gaps_bounded.holes_subset,
    hinv.packets_disjoint, hinv.packets_inside, hinv.received_eq,
    hinv.bytesRemaining_eq, hinv.bytesRemaining_nonneg,
    hinv.bytesRemaining_eq_zero_iff⟩

/-- The second half of a 1000-byte message, then the first. -/
def outOfOrderArrivals : List (DataPacket × Bool) :=
  [(⟨500, 500, by norm_num⟩, true), (⟨0, 500, by norm_num⟩, true)]

theorem homaAddPackets_receptionState_outOfOrder :
    homaMessageInInit 1000 0 = .ok ⟨1000, [], [], 0, 1000⟩ ∧
      (∀ arrival ∈ outOfOrderArrivals, arrival.1.NoWrap) ∧
      (homaAddPackets ⟨1000, [], [], 0, 1000⟩ outOfOrderArrivals).received =
        Set.Ico 0 (homaAddPackets ⟨1000, [], [], 0, 1000⟩ outOfOrderArrivals).recvEnd \
          (homaAddPackets ⟨1000, [], [], 0, 1000⟩ outOfOrderArrivals).missing ∧
      ((homaAddPackets ⟨1000, [], [], 0, 1000⟩ outOfOrderArrivals).bytesRemaining = 0 ↔
        (homaAddPackets ⟨1000, [], [], 0, 1000⟩ outOfOrderArrivals).received =
          Set.Ico 0 1000) := by
  have hinit : homaMessageInInit 1000 0 = .ok ⟨1000, [], [], 0, 1000⟩ := by
    simp [homaMessageInInit, homaMaxMessageLength]
  have hnoWrap : ∀ arrival ∈ outOfOrderArrivals, arrival.1.NoWrap := by
    decide +kernel
  obtain ⟨-, -, -, -, -, -, -, hreceived, -, -, hdone⟩ :=
    homaAddPackets_receptionState hinit (by norm_num) outOfOrderArrivals hnoWrap
  exact ⟨hinit, hnoWrap, hreceived, hdone⟩

/-! ## A packet whose end wraps -/

/-- The wrap the message-end check misses.  A 1000-byte message receives a
packet at offset `0x7FFFFFF0` carrying 100 bytes: `start + length` is
`2 ^ 31 + 84`, which wraps to `-2147483564`, so `(start + length) >
msgin.length` is false.  The packet takes the new-gap path: the gap
`[0, 0x7FFFFFF0)` is added, `recv_end` becomes negative and the packet is
kept with 900 bytes said to remain. -/
theorem homaAddPacket_end_overflow :
    homaMessageInInit 1000 0 = .ok ⟨1000, [], [], 0, 1000⟩ ∧
      homaAddPacket ⟨1000, [], [], 0, 1000⟩ ⟨0x7FFFFFF0, 100, by norm_num⟩ true =
        ⟨1000, [⟨0x7FFFFFF0, 100, by norm_num⟩], [⟨0, 2147483632⟩],
          -2147483564, 900⟩ := by
  refine ⟨by simp [homaMessageInInit, homaMaxMessageLength], ?_⟩
  set p : DataPacket := ⟨0x7FFFFFF0, 100, by norm_num⟩ with hp
  have hstart : p.start = 2147483632 := by
    unfold DataPacket.start
    rw [wrapInt_of_lt] <;> simp [hp]
  have hstop : p.stop = -2147483564 := by
    unfold DataPacket.stop
    rw [hstart, DataPacket.length, wrapInt_of_overflow] <;> simp [hp]
  have hremaining : wrapInt 32 (1000 - p.length) = 900 := by
    rw [DataPacket.length, wrapInt_of_lt] <;> simp [hp]
  unfold homaAddPacket
  simp only [hstart, hstop]
  rw [if_neg (by norm_num), if_neg (by norm_num), if_pos (by norm_num)]
  simp only [homaGapAlloc, if_true, MessageIn.keep, List.nil_append,
    hremaining]

end Homa
