import Homa.CreditShare
import Homa.MachineArith

/-!
# How the pacer shares the link between Homa and TCP

When both Homa and TCP packets are deferred, `homa_qdisc_pacer` chooses by
the signed `int` `qdev->homa_credit`: a positive credit sends a Homa packet
and costs its length times `100 - homa_share`, otherwise a TCP packet earns
its length times `homa_share`; when only one protocol has packets the credit
is reset.  A pass is modelled from what it finds and what the transmit
functions return (`PacerPass`), and while no product leaves the `int` range
the credit is the two-class counter of `CreditShare`
(`homaQdiscPacerRun_eq`).
-/

namespace Homa

open MachineArith

/-- The clamp of `homa_qdisc_update_sysctl_deps` on `homa_share`. -/
def homaQdiscUpdateSysctlDeps (homaShare : ℤ) : ℤ :=
  let homaShare := if homaShare < 0 then 0 else homaShare
  if homaShare > 100 then 100 else homaShare

theorem homaQdiscUpdateSysctlDeps_mem (homaShare : ℤ) :
    0 ≤ homaQdiscUpdateSysctlDeps homaShare ∧ homaQdiscUpdateSysctlDeps homaShare ≤ 100 := by
  unfold homaQdiscUpdateSysctlDeps
  dsimp only
  split_ifs <;> omega

/-- What one pass of the pacer's loop finds: whether each protocol has
deferred packets, and the lengths the two transmit functions would send. -/
structure PacerPass where
  tcpQdiscsEmpty : Bool
  deferredRpcsEmpty : Bool
  homaXmit : ℤ
  tcpXmit : ℤ
  deriving DecidableEq, Repr

/-- Both protocols have deferred packets. -/
def PacerPass.Both (p : PacerPass) : Prop :=
  p.tcpQdiscsEmpty = false ∧ p.deferredRpcsEmpty = false

/-- What each protocol would send in the pass. -/
def PacerPass.offers (p : PacerPass) : ℤ × ℤ := (p.homaXmit, p.tcpXmit)

/-- The transmit function a pass calls, with the `xmit_bytes` it returns. -/
inductive PacerXmit where
  | homa (xmitBytes : ℤ)
  | tcp (xmitBytes : ℤ)
  deriving DecidableEq, Repr

def PacerXmit.bytes : PacerXmit → ℤ × ℤ
  | .homa xmitBytes => (xmitBytes, 0)
  | .tcp xmitBytes => (0, xmitBytes)

def homaXmitBytes (xs : List PacerXmit) : ℤ := (xs.map fun x => x.bytes.1).sum

def tcpXmitBytes (xs : List PacerXmit) : ℤ := (xs.map fun x => x.bytes.2).sum

/-- The resets of `homa_credit` when only one protocol has packets; `none`
is the `break` when neither has. -/
def homaQdiscPacerReset (credit : ℤ) (p : PacerPass) : Option ℤ :=
  if p.tcpQdiscsEmpty then
    if p.deferredRpcsEmpty then none else some 1
  else if p.deferredRpcsEmpty then some 0
  else some credit

/-- The transmission of a pass and the `int` arithmetic on `homa_credit`. -/
def homaQdiscPacerXmit (homaShare credit : ℤ) (p : PacerPass) : ℤ × PacerXmit :=
  if credit > 0 then
    let xmitBytes := p.homaXmit
    (if xmitBytes > 0 then wrapInt 32 (credit - wrapInt 32 (xmitBytes * (100 - homaShare)))
      else credit, .homa xmitBytes)
  else
    let xmitBytes := p.tcpXmit
    (if xmitBytes > 0 then wrapInt 32 (credit + wrapInt 32 (xmitBytes * homaShare))
      else credit, .tcp xmitBytes)

/-- One pass of the loop of `homa_qdisc_pacer` after the NIC-queue wait. -/
def homaQdiscPacerPass (homaShare credit : ℤ) (p : PacerPass) : Option (ℤ × PacerXmit) :=
  match homaQdiscPacerReset credit p with
  | none => none
  | some credit => some (homaQdiscPacerXmit homaShare credit p)

/-- The passes of successive calls of `homa_qdisc_pacer`: a `break` ends a
call and leaves the credit as it is. -/
def homaQdiscPacerRun (homaShare : ℤ) : ℤ → List PacerPass → ℤ × List PacerXmit
  | credit, [] => (credit, [])
  | credit, p :: ps =>
    match homaQdiscPacerPass homaShare credit p with
    | none => homaQdiscPacerRun homaShare credit ps
    | some (credit', x) =>
        ((homaQdiscPacerRun homaShare credit' ps).1, x :: (homaQdiscPacerRun homaShare credit' ps).2)

theorem homaQdiscPacerRun_append (homaShare : ℤ) (ps qs : List PacerPass) :
    ∀ credit, homaQdiscPacerRun homaShare credit (ps ++ qs) =
      ((homaQdiscPacerRun homaShare (homaQdiscPacerRun homaShare credit ps).1 qs).1,
        (homaQdiscPacerRun homaShare credit ps).2 ++
          (homaQdiscPacerRun homaShare (homaQdiscPacerRun homaShare credit ps).1 qs).2) := by
  induction ps with
  | nil => intro credit; rfl
  | cons p ps ih =>
    intro credit
    cases hpass : homaQdiscPacerPass homaShare credit p with
    | none => simp only [List.cons_append, homaQdiscPacerRun, hpass, ih]
    | some r => simp only [List.cons_append, homaQdiscPacerRun, hpass, ih, List.cons_append]

theorem homaQdiscPacerRun_take_begins (homaShare credit : ℤ) (ps : List PacerPass) (k : ℕ) :
    (homaQdiscPacerRun homaShare credit (ps.take k)).2 <+:
      (homaQdiscPacerRun homaShare credit ps).2 := by
  have hsplit := homaQdiscPacerRun_append homaShare (ps.take k) (ps.drop k) credit
  rw [List.take_append_drop] at hsplit
  rw [hsplit]
  exact List.prefix_append _ _

/-! ## While both protocols have packets -/

section Both

variable {homaShare P : ℤ}

theorem xmit_mul_share_mem {x share : ℤ} (hx : 0 ≤ x ∧ x ≤ P) (hs : 0 ≤ share ∧ share ≤ 100)
    (hP : 100 * P < 2 ^ 31) : 0 ≤ x * share ∧ x * share < 2 ^ 31 := by
  have hle : x * share ≤ P * 100 := mul_le_mul hx.2 hs.2 hs.1 (hx.1.trans hx.2)
  exact ⟨mul_nonneg hx.1 hs.1, by linarith⟩

theorem homaQdiscPacerPass_of_both {credit : ℤ} {p : PacerPass} (hboth : p.Both) :
    homaQdiscPacerPass homaShare credit p = some (homaQdiscPacerXmit homaShare credit p) := by
  simp [homaQdiscPacerPass, homaQdiscPacerReset, hboth.1, hboth.2]

theorem homaQdiscPacerXmit_bytes (credit : ℤ) (p : PacerPass) :
    (homaQdiscPacerXmit homaShare credit p).2.bytes = CreditShare.served credit p.offers := by
  unfold homaQdiscPacerXmit CreditShare.served
  split_ifs <;> rfl

theorem homaQdiscPacerXmit_credit (hs : 0 ≤ homaShare ∧ homaShare ≤ 100) (hP : 100 * P < 2 ^ 31)
    {credit : ℤ} {p : PacerPass} (hx : 0 ≤ p.homaXmit ∧ 0 ≤ p.tcpXmit)
    (hserved : (CreditShare.served credit p.offers).1 ≤ P ∧
      (CreditShare.served credit p.offers).2 ≤ P)
    (hc : -2 ^ 31 ≤ credit ∧ credit < 2 ^ 31) :
    (homaQdiscPacerXmit homaShare credit p).1 =
      CreditShare.step (100 - homaShare) homaShare credit p.offers := by
  simp only [homaQdiscPacerXmit, CreditShare.step, CreditShare.served, PacerPass.offers]
    at hserved ⊢
  by_cases hpos : 0 < credit
  · -- a Homa packet: the cost fits, and the credit falls from above zero
    simp only [if_pos hpos, gt_iff_lt] at hserved ⊢
    have hmul := xmit_mul_share_mem ⟨hx.1, hserved.1⟩
      (show 0 ≤ 100 - homaShare ∧ 100 - homaShare ≤ 100 by omega) hP
    split_ifs with hbytes
    · rw [wrapInt_32_of_mem (by omega) hmul.2, wrapInt_32_of_mem (by omega) (by omega)]
      ring
    · have hzero : p.homaXmit = 0 := by omega
      simp [hzero]
  · -- a TCP packet: the earnings fit, and the credit rises from at most zero
    simp only [if_neg hpos, gt_iff_lt] at hserved ⊢
    have hmul := xmit_mul_share_mem ⟨hx.2, hserved.2⟩ hs hP
    split_ifs with hbytes
    · rw [wrapInt_32_of_mem (by omega) hmul.2, wrapInt_32_of_mem (by omega) (by omega)]
      ring
    · have hzero : p.tcpXmit = 0 := by omega
      simp [hzero]

theorem step_mem_int (hs : 0 ≤ homaShare ∧ homaShare ≤ 100) (hP0 : 0 ≤ P)
    (hP : 100 * P < 2 ^ 31) {credit : ℤ} {o : ℤ × ℤ} (ho : 0 ≤ o.1 ∧ 0 ≤ o.2)
    (hserved : (CreditShare.served credit o).1 ≤ P ∧ (CreditShare.served credit o).2 ≤ P)
    (hc : -2 ^ 31 ≤ credit ∧ credit < 2 ^ 31) :
    -2 ^ 31 ≤ CreditShare.step (100 - homaShare) homaShare credit o ∧
      CreditShare.step (100 - homaShare) homaShare credit o < 2 ^ 31 := by
  have hcost : (100 - homaShare) * P ≤ 100 * P := by nlinarith
  have hearn : homaShare * P ≤ 100 * P := by nlinarith
  have hband := CreditShare.step_mem_band (show 0 ≤ 100 - homaShare by omega) hs.1
    (show (-2 ^ 31 : ℤ) ≤ 1 - (100 - homaShare) * P by linarith)
    (show homaShare * P ≤ 2 ^ 31 - 1 by linarith) ho hserved ⟨hc.1, by omega⟩
  omega

theorem homaQdiscPacerRun_eq (hs : 0 ≤ homaShare ∧ homaShare ≤ 100) (hP0 : 0 ≤ P)
    (hP : 100 * P < 2 ^ 31) (ps : List PacerPass) :
    ∀ {credit : ℤ}, (∀ p ∈ ps, p.Both) → (∀ p ∈ ps, 0 ≤ p.homaXmit ∧ 0 ≤ p.tcpXmit) →
      (∀ x ∈ (homaQdiscPacerRun homaShare credit ps).2, x.bytes.1 ≤ P ∧ x.bytes.2 ≤ P) →
      -2 ^ 31 ≤ credit ∧ credit < 2 ^ 31 →
      (homaQdiscPacerRun homaShare credit ps).1 =
          CreditShare.run (100 - homaShare) homaShare credit (ps.map PacerPass.offers) ∧
        (homaQdiscPacerRun homaShare credit ps).2.map PacerXmit.bytes =
          CreditShare.trace (100 - homaShare) homaShare credit (ps.map PacerPass.offers) := by
  induction ps with
  | nil =>
    intro credit _ _ _ _
    exact ⟨rfl, rfl⟩
  | cons p ps ih =>
    intro credit hboth hx hsent hc
    have hpass : homaQdiscPacerPass homaShare credit p =
        some (homaQdiscPacerXmit homaShare credit p) :=
      homaQdiscPacerPass_of_both (hboth p List.mem_cons_self)
    have hrun : homaQdiscPacerRun homaShare credit (p :: ps) =
        ((homaQdiscPacerRun homaShare (homaQdiscPacerXmit homaShare credit p).1 ps).1,
          (homaQdiscPacerXmit homaShare credit p).2 ::
            (homaQdiscPacerRun homaShare (homaQdiscPacerXmit homaShare credit p).1 ps).2) := by
      simp only [homaQdiscPacerRun, hpass]
    rw [hrun] at hsent ⊢
    -- the first transmission is what the counter serves, so it is at most `P`
    have hserved := hsent _ List.mem_cons_self
    rw [homaQdiscPacerXmit_bytes] at hserved
    have hpx := hx p List.mem_cons_self
    have hstep := homaQdiscPacerXmit_credit hs hP hpx hserved hc
    obtain ⟨hcredit, htrace⟩ := ih (fun q hq => hboth q (List.mem_cons_of_mem p hq))
      (fun q hq => hx q (List.mem_cons_of_mem p hq))
      (fun y hy => hsent y (List.mem_cons_of_mem _ hy))
      (hstep ▸ step_mem_int hs hP0 hP hpx hserved hc)
    rw [List.map_cons, List.map_cons, CreditShare.run_cons, CreditShare.trace_cons,
      homaQdiscPacerXmit_bytes, ← hstep]
    exact ⟨hcredit, by rw [htrace]⟩

theorem homaXmitBytes_eq (xs : List PacerXmit) :
    homaXmitBytes xs = ((xs.map PacerXmit.bytes).map Prod.fst).sum := by
  simp [homaXmitBytes, List.map_map, Function.comp_def]

theorem tcpXmitBytes_eq (xs : List PacerXmit) :
    tcpXmitBytes xs = ((xs.map PacerXmit.bytes).map Prod.snd).sum := by
  simp [tcpXmitBytes, List.map_map, Function.comp_def]

/-- What a run while both protocols have packets does with the credit: it
moves by the TCP earnings less the Homa costs, stays between its start and
the band `[1 - (100 - homa_share) * P, homa_share * P]`, and so the bytes
sent keep the ratio up to `100 * P` and the starting credit. -/
theorem homaQdiscPacerRun_counter (hs : 0 ≤ homaShare ∧ homaShare ≤ 100) (hP0 : 0 ≤ P)
    (hP : 100 * P < 2 ^ 31) {credit : ℤ} {ps : List PacerPass} (hboth : ∀ p ∈ ps, p.Both)
    (hx : ∀ p ∈ ps, 0 ≤ p.homaXmit ∧ 0 ≤ p.tcpXmit)
    (hsent : ∀ x ∈ (homaQdiscPacerRun homaShare credit ps).2, x.bytes.1 ≤ P ∧ x.bytes.2 ≤ P)
    (hc : -2 ^ 31 ≤ credit ∧ credit < 2 ^ 31) :
    (homaQdiscPacerRun homaShare credit ps).1 =
        credit - homaXmitBytes (homaQdiscPacerRun homaShare credit ps).2 * (100 - homaShare) +
          tcpXmitBytes (homaQdiscPacerRun homaShare credit ps).2 * homaShare ∧
      min credit (1 - (100 - homaShare) * P) ≤ (homaQdiscPacerRun homaShare credit ps).1 ∧
      (homaQdiscPacerRun homaShare credit ps).1 ≤ max credit (homaShare * P) ∧
      |homaXmitBytes (homaQdiscPacerRun homaShare credit ps).2 * (100 - homaShare) -
          tcpXmitBytes (homaQdiscPacerRun homaShare credit ps).2 * homaShare| ≤
        100 * P + |credit| := by
  obtain ⟨hrun, htrace⟩ := homaQdiscPacerRun_eq hs hP0 hP ps hboth hx hsent hc
  have hoffers : ∀ o ∈ ps.map PacerPass.offers, 0 ≤ o.1 ∧ 0 ≤ o.2 := by
    intro o ho
    obtain ⟨p, hp, rfl⟩ := List.mem_map.mp ho
    exact hx p hp
  -- what the counter serves is what the pacer sends, at most `P` each time
  have hserved : ∀ u ∈ CreditShare.trace (100 - homaShare) homaShare credit
      (ps.map PacerPass.offers), u.1 ≤ P ∧ u.2 ≤ P := by
    intro u hu
    rw [← htrace] at hu
    obtain ⟨x, hxmem, rfl⟩ := List.mem_map.mp hu
    exact hsent x hxmem
  have hband := CreditShare.run_mem_band (show 0 ≤ 100 - homaShare by omega) hs.1
    (min_le_right credit (1 - (100 - homaShare) * P)) (le_max_right credit (homaShare * P)) _
    hoffers hserved ⟨min_le_left _ _, le_max_left _ _⟩
  have hratio := CreditShare.abs_balance_le (show 0 ≤ 100 - homaShare by omega) hs.1 hP0 hoffers
    hserved
  rw [homaXmitBytes_eq, tcpXmitBytes_eq, htrace, hrun]
  refine ⟨?_, hband.1, hband.2, ?_⟩
  · rw [CreditShare.run_balance]
    ring
  · rw [mul_comm _ (100 - homaShare), mul_comm _ homaShare]
    simpa using hratio

end Both

/-- While both Homa and TCP packets are deferred, and with `homa_share` as
`homa_qdisc_update_sysctl_deps` leaves it, the pacer's credit moves by
exactly the TCP bytes times `homa_share` less the Homa bytes times
`100 - homa_share`, so no `int` overflows as long as a packet is under
`2 ^ 31 / 100` bytes; after every pass it lies between its start and the
band `(-(100 - s) * P, s * P]`, and within the band if it started there;
and the bytes sent keep the ratio up to `100 * P` and the starting credit. -/
theorem homaQdiscPacer_shares_link (homaShare credit P : ℤ) (ps : List PacerPass)
    (hboth : ∀ p ∈ ps, p.Both) (hx : ∀ p ∈ ps, 0 ≤ p.homaXmit ∧ 0 ≤ p.tcpXmit)
    (hc : -2 ^ 31 ≤ credit ∧ credit < 2 ^ 31)
    (hsent : ∀ x ∈ (homaQdiscPacerRun (homaQdiscUpdateSysctlDeps homaShare) credit ps).2,
      x.bytes.1 ≤ P ∧ x.bytes.2 ≤ P)
    (hP0 : 0 ≤ P) (hP : 100 * P < 2 ^ 31) :
    let s := homaQdiscUpdateSysctlDeps homaShare
    (0 ≤ s ∧ s ≤ 100) ∧
      |homaXmitBytes (homaQdiscPacerRun s credit ps).2 * (100 - s) -
          tcpXmitBytes (homaQdiscPacerRun s credit ps).2 * s| ≤ 100 * P + |credit| ∧
      (∀ k, (homaQdiscPacerRun s credit (ps.take k)).1 =
          credit - homaXmitBytes (homaQdiscPacerRun s credit (ps.take k)).2 * (100 - s) +
            tcpXmitBytes (homaQdiscPacerRun s credit (ps.take k)).2 * s ∧
        min credit (1 - (100 - s) * P) ≤ (homaQdiscPacerRun s credit (ps.take k)).1 ∧
        (homaQdiscPacerRun s credit (ps.take k)).1 ≤ max credit (s * P)) ∧
      (-((100 - s) * P) < credit → credit ≤ s * P → ∀ k,
        -((100 - s) * P) < (homaQdiscPacerRun s credit (ps.take k)).1 ∧
          (homaQdiscPacerRun s credit (ps.take k)).1 ≤ s * P) := by
  intro s
  have hs := homaQdiscUpdateSysctlDeps_mem homaShare
  -- every first part of the run is a run of its own
  have hprefix : ∀ k, (homaQdiscPacerRun s credit (ps.take k)).1 =
        credit - homaXmitBytes (homaQdiscPacerRun s credit (ps.take k)).2 * (100 - s) +
          tcpXmitBytes (homaQdiscPacerRun s credit (ps.take k)).2 * s ∧
      min credit (1 - (100 - s) * P) ≤ (homaQdiscPacerRun s credit (ps.take k)).1 ∧
      (homaQdiscPacerRun s credit (ps.take k)).1 ≤ max credit (s * P) := by
    intro k
    have hk := homaQdiscPacerRun_counter hs hP0 hP
      (fun p hp => hboth p (List.mem_of_mem_take hp)) (fun p hp => hx p (List.mem_of_mem_take hp))
      (fun x hxk => hsent x ((homaQdiscPacerRun_take_begins s credit ps k).subset hxk)) hc
    exact ⟨hk.1, hk.2.1, hk.2.2.1⟩
  refine ⟨hs, (homaQdiscPacerRun_counter hs hP0 hP hboth hx hsent hc).2.2.2, hprefix, ?_⟩
  intro hlo hhi k
  obtain ⟨-, hkLo, hkHi⟩ := hprefix k
  -- inside the band, its ends are the bounds
  rw [min_eq_right (by linarith)] at hkLo
  rw [max_eq_right hhi] at hkHi
  exact ⟨by linarith, hkHi⟩

/-- Three passes with both protocols busy, at the default `homa_share`. -/
def pacerBusyPasses : List PacerPass :=
  [⟨false, false, 1500, 1000⟩, ⟨false, false, 1200, 1500⟩, ⟨false, false, 1500, 1500⟩]

theorem homaQdiscPacer_shares_link_busy :
    ((∀ p ∈ pacerBusyPasses, p.Both) ∧
      (∀ p ∈ pacerBusyPasses, 0 ≤ p.homaXmit ∧ 0 ≤ p.tcpXmit) ∧
      ((-2 ^ 31 : ℤ) ≤ 0 ∧ (0 : ℤ) < 2 ^ 31) ∧
      (∀ x ∈ (homaQdiscPacerRun (homaQdiscUpdateSysctlDeps 50) 0 pacerBusyPasses).2,
        x.bytes.1 ≤ 1500 ∧ x.bytes.2 ≤ 1500) ∧
      (0 : ℤ) ≤ 1500 ∧ (100 * 1500 : ℤ) < 2 ^ 31) ∧
    let s := homaQdiscUpdateSysctlDeps 50
    (0 ≤ s ∧ s ≤ 100) ∧
      |homaXmitBytes (homaQdiscPacerRun s 0 pacerBusyPasses).2 * (100 - s) -
          tcpXmitBytes (homaQdiscPacerRun s 0 pacerBusyPasses).2 * s| ≤ 100 * 1500 + |0| ∧
      (∀ k, (homaQdiscPacerRun s 0 (pacerBusyPasses.take k)).1 =
          0 - homaXmitBytes (homaQdiscPacerRun s 0 (pacerBusyPasses.take k)).2 * (100 - s) +
            tcpXmitBytes (homaQdiscPacerRun s 0 (pacerBusyPasses.take k)).2 * s ∧
        min 0 (1 - (100 - s) * 1500) ≤ (homaQdiscPacerRun s 0 (pacerBusyPasses.take k)).1 ∧
        (homaQdiscPacerRun s 0 (pacerBusyPasses.take k)).1 ≤ max 0 (s * 1500)) ∧
      (-((100 - s) * 1500) < 0 → 0 ≤ s * 1500 → ∀ k,
        -((100 - s) * 1500) < (homaQdiscPacerRun s 0 (pacerBusyPasses.take k)).1 ∧
          (homaQdiscPacerRun s 0 (pacerBusyPasses.take k)).1 ≤ s * 1500) := by
  have hboth : ∀ p ∈ pacerBusyPasses, p.Both := by simp [pacerBusyPasses, PacerPass.Both]
  have hx : ∀ p ∈ pacerBusyPasses, 0 ≤ p.homaXmit ∧ 0 ≤ p.tcpXmit := by decide
  have hsent : ∀ x ∈ (homaQdiscPacerRun (homaQdiscUpdateSysctlDeps 50) 0 pacerBusyPasses).2,
      x.bytes.1 ≤ 1500 ∧ x.bytes.2 ≤ 1500 := by decide +kernel
  exact ⟨⟨hboth, hx, by norm_num, hsent, by norm_num, by norm_num⟩,
    homaQdiscPacer_shares_link 50 0 1500 pacerBusyPasses hboth hx (by norm_num) hsent (by norm_num)
      (by norm_num)⟩

/-- The band alone is not kept.  At the default `homa_share` of 50 and from
the initial credit 0, a TCP packet of 60000 bytes leaves the credit at
3000000; the run that follows, of one Homa packet of 100 bytes, ends at
2995000, far above `homa_share * P = 5000` for its largest packet `P = 100`. -/
theorem homaQdiscPacer_credit_leaves_band :
    homaQdiscUpdateSysctlDeps 50 = 50 ∧
      homaQdiscPacerRun 50 0 [⟨false, false, 1500, 60000⟩] = (3000000, [.tcp 60000]) ∧
      homaQdiscPacerRun 50 3000000 [⟨false, false, 100, 1500⟩] = (2995000, [.homa 100]) ∧
      ¬(2995000 : ℤ) ≤ 50 * 100 := by
  decide +kernel

end Homa
