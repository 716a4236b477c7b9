import Homa.MessageOutPacket

/-!
# The packets of an outgoing message tile it

`MessageOut.Filled g L U covered` is the state the loop of
`homa_message_out_fill` keeps: the packets so far are `DataSkb.layout`
sk_buffs covering `[0, covered)` one after another, none holds more than
`max_gso_data` bytes, and one starts exactly at the unscheduled limit `U`
once it is passed.  The loop keeps it whenever the geometry is `Usable`,
and each iteration takes at least one byte.  A `gso_size` smaller than the
headers of one packet makes `segs_per_gso` underflow.
-/

namespace Homa

open MachineArith FuelLoop IntervalList

def DataSkb.stop (skb : DataSkb) : ℤ :=
  skb.offset + skb.dataBytes

/-- A geometry for which `homa_message_out_fill` is meant to work. -/
structure Geometry.Usable (g : Geometry) : Prop where
  maxSegData_pos : 1 ≤ g.maxSegData
  maxSegData_le : g.maxSegData ≤ 65535
  maxGsoData_pos : 1 ≤ g.maxGsoData

/-- The first `covered` bytes of a message of `L` bytes with unscheduled
limit `U` have been cut into packets. -/
structure MessageOut.Filled (g : Geometry) (L U covered : ℤ) (m : MessageOut) :
    Prop where
  length_eq : m.length = L
  unscheduled_eq : m.unscheduled = U
  granted_eq : m.granted = U
  toFree_eq : m.toFree = []
  numSkbs_eq : m.numSkbs = m.packets.length
  copied_eq : m.copiedFromUser = covered
  tiles : Tiles DataSkb.offset DataSkb.stop 0 covered m.packets
  layout :
    ∀ skb ∈ m.packets,
      skb = DataSkb.layout g.hijack g.maxSegData.toNat skb.offset skb.dataBytes.toNat
  le_maxGsoData : ∀ skb ∈ m.packets, skb.dataBytes ≤ g.maxGsoData
  unscheduled_start : 0 < U → U < covered → ∃ skb ∈ m.packets, skb.offset = U

/-- The invariant of the loop of `homa_message_out_fill`. -/
structure FillState.Inv (g : Geometry) (L U : ℤ) (s : FillState) : Prop where
  filled : s.msgout.Filled g L U (L - s.bytesLeft)
  bytesLeft_nonneg : 0 ≤ s.bytesLeft
  bytesLeft_le : s.bytesLeft ≤ L
  pos_eq : (s.pos : ℤ) = L - s.bytesLeft
  noWrap : L - s.bytesLeft < U → L - s.bytesLeft + g.maxGsoData < 2 ^ 31

/-- How a call of `homa_message_out_fill` can end: with the whole message cut
into packets, or with an error caused by the event of the packet it was
building. -/
def FillOutcome (g : Geometry) (L U : ℤ) (events : ℕ → PacketEvent)
    (r : ℤ × MessageOut) : Prop :=
  ∃ covered, r.2.Filled g L U covered ∧
    (r.1 = 0 ∧ covered = L ∨
      r.1 = -enomem ∧ events r.2.numSkbs = .noMemory ∨
      r.1 = -einval ∧ events r.2.numSkbs = .rpcDead)

/-! ## One packet -/

/-- The size of the next packet: at least one byte, at most what is left and
`max_gso_data`, never across the unscheduled limit, and short of the limit
only as a full `max_gso_data` packet. -/
theorem homaSkbDataBytes_spec (d U covered bytesLeft : ℤ) (hd : 1 ≤ d)
    (hcovered : 0 ≤ covered) (hleft : 0 < bytesLeft) (hsmall : bytesLeft < 2 ^ 31)
    (hU : U ≤ covered + bytesLeft) (hwrap : covered < U → covered + d < 2 ^ 31) :
    let n := homaSkbDataBytes d U covered bytesLeft
    1 ≤ n ∧ n ≤ bytesLeft ∧ n ≤ d ∧ (covered < U → covered + n ≤ U) ∧
      (covered + n < U → n = d) := by
  intro n
  unfold n homaSkbDataBytes
  dsimp only
  by_cases hcut : covered < U ∧ wrapInt 32 (covered + d) > U
  · obtain ⟨hlt, hover⟩ := hcut
    have hsum : wrapInt 32 (covered + d) = covered + d :=
      wrapInt_32_of_mem (by omega) (hwrap hlt)
    have hcutv : wrapInt 32 (U - covered) = U - covered :=
      wrapInt_32_of_mem (by omega) (by omega)
    rw [hsum] at hover
    simp only [hsum, hcutv]
    split_ifs <;> omega
  · rw [if_neg hcut]
    have hnocut : covered < U → covered + d ≤ U := by
      intro hlt
      have := wrapInt_32_of_mem (x := covered + d) (by omega) (hwrap hlt)
      by_contra hgt
      exact hcut ⟨hlt, by omega⟩
    split_ifs with hbig
    · omega
    · omega

namespace MessageOut.Filled

variable {g : Geometry} {L U covered : ℤ} {m : MessageOut}

theorem push (hm : m.Filled g L U covered) {n : ℕ} (hn : 0 < n)
    (hnd : (n : ℤ) ≤ g.maxGsoData) (hU : covered < U → covered + n ≤ U) :
    ({ m with
        packets := m.packets ++ [DataSkb.layout g.hijack g.maxSegData.toNat covered n]
        numSkbs := m.numSkbs + 1
        copiedFromUser := covered + n } : MessageOut).Filled g L U (covered + n) where
  length_eq := hm.length_eq
  unscheduled_eq := hm.unscheduled_eq
  granted_eq := hm.granted_eq
  toFree_eq := hm.toFree_eq
  numSkbs_eq := by simp [hm.numSkbs_eq]
  copied_eq := rfl
  tiles := by
    refine hm.tiles.append ?_
    simp [DataSkb.stop, hn]
  layout := by
    intro skb hskb
    rcases List.mem_append.mp hskb with hold | hnew
    · exact hm.layout skb hold
    · rw [List.mem_singleton.mp hnew]
      simp
  le_maxGsoData := by
    intro skb hskb
    rcases List.mem_append.mp hskb with hold | hnew
    · exact hm.le_maxGsoData skb hold
    · rw [List.mem_singleton.mp hnew]
      simpa using hnd
  unscheduled_start := by
    intro hpos hlt
    rcases lt_trichotomy U covered with hbefore | hat | hafter
    · obtain ⟨skb, hskb, hoff⟩ := hm.unscheduled_start hpos hbefore
      exact ⟨skb, List.mem_append_left _ hskb, hoff⟩
    · exact ⟨_, List.mem_append_right _ (List.mem_singleton_self _), by simp [hat]⟩
    · have := hU hafter
      omega

end MessageOut.Filled

/-! ## The loop -/

section Loop

variable {g : Geometry} {L U : ℤ} {fuel : ℕ} {events : ℕ → PacketEvent}

theorem FillState.Inv.offset_eq {s : FillState} (hs : s.Inv g L U)
    (hL : L ≤ homaMaxMessageLength) :
    wrapInt 32 (s.msgout.length - s.bytesLeft) = (s.pos : ℤ) := by
  have hmax : homaMaxMessageLength = 1400000 := rfl
  rw [hs.filled.length_eq, hs.pos_eq]
  have := hs.bytesLeft_nonneg
  have := hs.bytesLeft_le
  exact wrapInt_32_of_mem (by omega) (by omega)

theorem FillState.Inv.next_packet (hg : g.Usable) (hL : L ≤ homaMaxMessageLength)
    (hUL : U ≤ L) {s : FillState} (hs : s.Inv g L U) (hmore : 0 < s.bytesLeft) :
    ∃ n k : ℕ,
      homaSkbDataBytes g.maxGsoData s.msgout.unscheduled s.pos s.bytesLeft = n ∧
      g.maxSegData = k ∧ 1 ≤ k ∧ k ≤ 65535 ∧ 1 ≤ n ∧ (n : ℤ) ≤ s.bytesLeft ∧
      (n : ℤ) ≤ g.maxGsoData ∧ ((s.pos : ℤ) < U → s.pos + n ≤ U) ∧
      ((s.pos : ℤ) + n < U → (n : ℤ) = g.maxGsoData) ∧
      s.pos + n ≤ s.msgout.length.toNat := by
  have hmax : homaMaxMessageLength = 1400000 := rfl
  have hleftL := hs.bytesLeft_le
  have hpos := hs.pos_eq
  have hU := hs.filled.unscheduled_eq
  have hspec := homaSkbDataBytes_spec g.maxGsoData s.msgout.unscheduled s.pos s.bytesLeft
    hg.maxGsoData_pos (by omega)
    hmore (by omega) (by omega) (by rw [hU, hpos]; exact hs.noWrap)
  obtain ⟨n, hn⟩ : ∃ n : ℕ,
      homaSkbDataBytes g.maxGsoData s.msgout.unscheduled s.pos s.bytesLeft = n :=
    ⟨_, (Int.toNat_of_nonneg (by have := hspec.1; omega)).symm⟩
  simp only [hn] at hspec
  rw [hU] at hspec
  obtain ⟨hn1, hnleft, hnd, hcut, hfull⟩ := hspec
  obtain ⟨k, hk⟩ : ∃ k : ℕ, g.maxSegData = k :=
    ⟨_, (Int.toNat_of_nonneg (by have := hg.maxSegData_pos; omega)).symm⟩
  have hk1 := hg.maxSegData_pos
  have hk2 := hg.maxSegData_le
  refine ⟨n, k, hn, hk, by omega, by omega, by omega, hnleft, hnd, hcut, hfull, ?_⟩
  rw [hs.filled.length_eq]
  omega

theorem homaMessageOutFillBody_spec (hg : g.Usable) (hL : L ≤ homaMaxMessageLength)
    (hUL : U ≤ L) {s : FillState} (hs : s.Inv g L U) :
    ∀ t, homaMessageOutFillBody fuel g events s = some t →
      t.Holds (FillState.Inv g L U) (FillOutcome g L U events) ∧
      ∀ s', t = .next s' → s'.bytesLeft.toNat < s.bytesLeft.toNat := by
  intro t ht
  have hmax : homaMaxMessageLength = 1400000 := rfl
  have hleft0 := hs.bytesLeft_nonneg
  have hleftL := hs.bytesLeft_le
  have hpos := hs.pos_eq
  by_cases hdone : s.bytesLeft ≤ 0
  · -- The loop test fails: every byte has been cut.
    unfold homaMessageOutFillBody at ht
    rw [if_pos hdone] at ht
    cases ht
    exact ⟨⟨L - s.bytesLeft, hs.filled, .inl ⟨rfl, by omega⟩⟩, fun _ h => by cases h⟩
  · obtain ⟨n, k, hn, hk, hk1, hk2, hn1, hnleft, hnd, hcut, hfull, hcount⟩ :=
      hs.next_packet hg hL hUL (by omega)
    unfold homaMessageOutFillBody at ht
    rw [if_neg hdone] at ht
    dsimp only at ht
    rw [hs.offset_eq hL, hn, hk] at ht
    obtain ⟨r, hr, rfl⟩ := Option.map_eq_some_iff.mp ht
    rw [homaTxDataPktAlloc_of_eq_some (by omega) (by omega) hcount (by omega) hr]
    have hleft : wrapInt 32 (s.bytesLeft - n) = s.bytesLeft - n :=
      wrapInt_32_of_mem (by omega) (by omega)
    have hcopied : wrapInt 32 (s.msgout.length - (s.bytesLeft - n)) = s.pos + n := by
      rw [hs.filled.length_eq, wrapInt_32_of_mem (by omega) (by omega)]
      omega
    -- The packet's event decides between the two error exits and the next
    -- iteration.
    cases hev : events s.msgout.numSkbs with
    | noMemory =>
        simp only [txDataPktResult, ne_eq, not_true_eq_false, decide_false,
          Bool.false_eq_true, ↓reduceIte]
        exact ⟨⟨L - s.bytesLeft, hs.filled, .inr (.inl ⟨rfl, hev⟩)⟩, fun _ h => by cases h⟩
    | rpcDead =>
        simp only [txDataPktResult, ne_eq, reduceCtorEq, not_false_eq_true,
          decide_true, ↓reduceIte]
        exact ⟨⟨L - s.bytesLeft, hs.filled, .inr (.inr ⟨rfl, hev⟩)⟩, fun _ h => by cases h⟩
    | ok =>
        simp only [txDataPktResult, ne_eq, reduceCtorEq, not_false_eq_true,
          decide_true, ↓reduceIte, hleft, hcopied]
        have hfilled : s.msgout.Filled g L U s.pos := by
          rw [hpos]
          exact hs.filled
        have hpush := hfilled.push (n := n) (by omega) hnd hcut
        rw [hk, Int.toNat_natCast] at hpush
        refine ⟨?_, ?_⟩
        · rw [holds_next]
          constructor
          · dsimp only
            rw [show L - (s.bytesLeft - n) = s.pos + n by omega]
            exact hpush
          · dsimp only
            omega
          · dsimp only
            omega
          · dsimp only
            push_cast
            omega
          · dsimp only
            intro hlt
            have hd := hfull (by omega)
            omega
        · intro s' hs'
          cases hs'
          dsimp only
          omega

theorem homaMessageOutFillBody_isSome (hg : g.Usable) (hL : L ≤ homaMaxMessageLength)
    (hUL : U ≤ L) {s : FillState} (hs : s.Inv g L U) (hfuel : L < fuel) :
    ∃ t, homaMessageOutFillBody fuel g events s = some t := by
  unfold homaMessageOutFillBody
  by_cases hdone : s.bytesLeft ≤ 0
  · rw [if_pos hdone]
    exact ⟨_, rfl⟩
  · have hmax : homaMaxMessageLength = 1400000 := rfl
    obtain ⟨n, k, hn, hk, hk1, hk2, hn1, hnleft, -, -, -, hcount⟩ :=
      hs.next_packet hg hL hUL (by omega)
    have hleftL := hs.bytesLeft_le
    have hpos := hs.pos_eq
    rw [if_neg hdone]
    dsimp only
    rw [hs.offset_eq hL, hn, hk]
    obtain ⟨r, hr⟩ := @homaTxDataPktAlloc_isSome fuel _ _ _ k g.hijack
      (decide (events s.msgout.numSkbs ≠ .noMemory)) (by omega) (by omega) hcount
      (by omega) (by omega)
    rw [hr]
    exact ⟨_, rfl⟩

theorem FillState.Inv.init (count : ℕ) (unschedBytes : ℤ) :
    let m := homaMessageOutInit count unschedBytes
    FillState.Inv g count m.unscheduled
      { msgout := { m with granted := m.unscheduled }, bytesLeft := count, pos := 0 } := by
  intro m
  have hd := wrapInt_32_lt (g.segsPerGso * g.maxSegData)
  constructor
  · constructor <;> simp [m, homaMessageOutInit]
    -- No byte is covered yet, so the unscheduled limit has not been passed.
    intro hU
    exact hU.le
  · simp
  · simp
  · simp
  · intro _
    simpa [Geometry.maxGsoData] using hd

end Loop

/-! ## Whole calls -/

section Call

variable {g : Geometry} {fuel count : ℕ} {unschedBytes : ℤ}
  {events : ℕ → PacketEvent} {msgout : MessageOut}

theorem unscheduled_le (count : ℕ) (unschedBytes : ℤ) :
    (homaMessageOutInit count unschedBytes).unscheduled ≤ count := by
  unfold homaMessageOutInit
  dsimp only
  split_ifs <;> omega

theorem homaMessageOutFill_outcome (hg : g.Usable) (hcount : 0 < count)
    (hmax : count ≤ homaMaxMessageLength) {r : ℤ × MessageOut}
    (hrun : homaMessageOutFill fuel g unschedBytes count events msgout = some r) :
    FillOutcome g count (homaMessageOutInit count unschedBytes).unscheduled events r := by
  unfold homaMessageOutFill at hrun
  rw [if_neg (by omega)] at hrun
  exact run_invariant
    (fun _ hs t ht => (homaMessageOutFillBody_spec hg (by exact_mod_cast hmax)
      (unscheduled_le count unschedBytes) hs t ht).1)
    fuel _ r (FillState.Inv.init count unschedBytes) hrun

theorem homaMessageOutFill_isSome (hg : g.Usable) (hcount : 0 < count)
    (hmax : count ≤ homaMaxMessageLength) (hfuel : count < fuel) :
    ∃ r, homaMessageOutFill fuel g unschedBytes count events msgout = some r ∧
      FillOutcome g count (homaMessageOutInit count unschedBytes).unscheduled events r := by
  have hL : (count : ℤ) ≤ homaMaxMessageLength := by exact_mod_cast hmax
  unfold homaMessageOutFill
  rw [if_neg (by omega)]
  exact run_terminates (fun s => s.bytesLeft.toNat)
    (fun _ hs t ht => homaMessageOutFillBody_spec hg hL
      (unscheduled_le count unschedBytes) hs t ht)
    (fun _ hs => homaMessageOutFillBody_isSome hg hL
      (unscheduled_le count unschedBytes) hs (by exact_mod_cast hfuel))
    fuel _ (FillState.Inv.init count unschedBytes) (by simpa using hfuel)

theorem homaMessageOutFill_filled (hg : g.Usable) (hcount : 0 < count)
    (hmax : count ≤ homaMaxMessageLength) (hfuel : count < fuel)
    (hok : ∀ i, events i = .ok) :
    ∃ m, homaMessageOutFill fuel g unschedBytes count events msgout = some (0, m) ∧
      m.Filled g count (homaMessageOutInit count unschedBytes).unscheduled count := by
  obtain ⟨⟨err, m⟩, hrun, covered, hm, hend⟩ :=
    @homaMessageOutFill_isSome g fuel count unschedBytes events msgout hg hcount hmax
      hfuel
  rcases hend with ⟨herr, hcov⟩ | ⟨-, hev⟩ | ⟨-, hev⟩
  · dsimp only at herr hcov
    subst herr hcov
    exact ⟨m, hrun, hm⟩
  · rw [hok] at hev
    cases hev
  · rw [hok] at hev
    cases hev

end Call

/-! ## A `gso_size` below one packet's headers -/

/-- With the sysctl `max_gso_size` at 50 on an IPv6 socket, `segs_per_gso`
underflows and `max_gso_data` comes out negative: a 1000-byte message is cut
into seven packets of negative length at decreasing offsets, and the eighth
copy runs past the end of the iterator. -/
theorem homaMessageOutFill_small_gso (msgout : MessageOut) :
    let g : Geometry :=
      { mtu := 1496, ipHeaderLength := 40, gsoMaxSize := 65536, maxGsoSize := 50
        hijack := false }
    g.maxSegData = 1400 ∧ g.maxGsoData = -269200712 ∧
      (homaMessageOutFill 1001 g 40000 1000 (fun _ => .ok) msgout).map
          (fun r => (r.1, r.2.packets.map fun skb => (skb.offset, skb.dataBytes))) =
        some (-efault,
          [(0, -269200712), (-269200712, -269200712), (-538401424, -269200712),
            (-807602136, -269200712), (-1076802848, -269200712),
            (-1346003560, -269200712), (-1615204272, -269200712)]) := by
  intro g
  refine ⟨by decide +kernel, by decide +kernel, ?_⟩
  unfold homaMessageOutFill
  rw [if_neg (by decide)]
  decide +kernel

end Homa
