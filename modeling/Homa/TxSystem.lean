import Homa.IntervalList
import Homa.Pacer

/-!
# Threads on the transmit path

Several threads send data of one host at once: `homa_sendmsg` through
`homa_message_out_fill`, the softirq handlers of GRANT and RESEND, and the
pacer thread.  Each works in locked regions (`homa_xmit_data` drops the RPC
lock around every packet it hands to IP, `homa_pacer_xmit` chooses an RPC
under the throttle lock and only then locks it), and `TxSys.Step` takes one
region as one atomic step.  Besides the fields of the code, a state records
what each message is cut into (`planned`), what has been handed to
`__homa_xmit_data` (`sent`), the largest `cycles_for_packet` so far and the
pacer's choices.
-/

namespace Homa

open IntervalList

/-- Where the caller of `homa_xmit_data` goes on when its loop ends. -/
inductive XmitReturn where
  /-- A GRANT or RESEND handler, or the end of `homa_message_out_fill` and of
  `homa_sendmsg`: the thread leaves. -/
  | leave
  /-- The loop of `homa_message_out_fill`, with the packets still to build. -/
  | fill (rest : List TxPacket)
  /-- `homa_pacer_xmit`, which then checks whether the RPC has more to send. -/
  | pacer
  deriving DecidableEq, Repr

inductive TxPc where
  /-- `homa_message_out_fill` on `id`, at the top of its loop, with the
  packets still to build. -/
  | fill (id : ℕ) (rest : List TxPacket)
  /-- `homa_xmit_data(rpc, force)` on `id`, at the top of its loop. -/
  | xmit (id : ℕ) (force : Bool) (ret : XmitReturn)
  /-- `homa_pacer_xmit`, holding `pacer->mutex`, at the top of its loop. -/
  | pacerTop
  /-- `homa_pacer_xmit` past the NIC queue check, about to choose an RPC. -/
  | pacerSelect
  deriving DecidableEq, Repr

namespace TxPc

def rpcId : TxPc → Option ℕ
  | .fill id _ => some id
  | .xmit id _ _ => some id
  | .pacerTop | .pacerSelect => none

/-- The packets a thread still has to build for the message of `id`. -/
def toBuild (pc : TxPc) (id : ℕ) : Option (List TxPacket) :=
  match pc with
  | .fill id' rest => if id' = id then some rest else none
  | .xmit id' _ (.fill rest) => if id' = id then some rest else none
  | _ => none

/-- The thread runs `homa_pacer_xmit`, and so holds `pacer->mutex`. -/
def inPacer : TxPc → Bool
  | .pacerTop | .pacerSelect => true
  | .xmit _ _ .pacer => true
  | _ => false

/-- The pacer has found the NIC queue short and has not yet sent with
`force`. -/
def pacerPending : TxPc → Bool
  | .pacerSelect => true
  | .xmit _ force _ => force
  | _ => false

end TxPc

/-- The RPCs' transmit state, the pacer and the threads. -/
structure TxSys where
  /-- The RPCs with an outgoing message, by id. -/
  rpc : ℕ → Option TxRpc
  pacer : Pacer
  /-- `pacer->mutex` is held. -/
  pacerBusy : Bool
  /-- `homa_clock()`. -/
  clock : ℕ
  thread : ℕ → Option TxPc
  /-- The packets `homa_message_out_fill` cuts each message into. -/
  planned : ℕ → List TxPacket
  /-- What `homa_xmit_data` has handed to `__homa_xmit_data` for each RPC. -/
  sent : ℕ → List (TxPacket × XmitPriority)
  /-- The largest `cycles_for_packet` of a packet built so far. -/
  maxCycles : ℕ
  /-- The choices `homa_pacer_xmit` has made, and how many were FIFO ones. -/
  picks : ℕ
  fifoPicks : ℕ
  /-- The segments `homa_resend_data` has handed to `__homa_xmit_data` for
  each RPC, and their time on the NIC queue. -/
  resent : ℕ → List TxPacket
  resentCycles : ℕ

namespace TxSys

variable (cfg : TxConfig)

@[simps -fullyApplied]
def setRpc (s : TxSys) (id : ℕ) (r : TxRpc) : TxSys :=
  { s with rpc := Function.update s.rpc id (some r) }

@[simps -fullyApplied]
def setThread (s : TxSys) (t : ℕ) (pc : Option TxPc) : TxSys :=
  { s with thread := Function.update s.thread t pc }

/-- `msgout.length - msgout.next_xmit_offset` of each RPC. -/
def bytesLeft (s : TxSys) (id : ℕ) : ℤ :=
  match s.rpc id with
  | some r => r.length - r.nextXmitOffset
  | none => 0

/-- `msgout.init_time` of each RPC. -/
def initTime (s : TxSys) (id : ℕ) : ℕ :=
  match s.rpc id with
  | some r => r.initTime
  | none => 0

/-! ## The regions -/

/-- `homa_rpc_end(rpc)` as far as sending goes: a live RPC becomes dead and
leaves the pacer's list. -/
def rpcEnd (id : ℕ) (s : TxSys) : TxSys :=
  match s.rpc id with
  | some r =>
    if r.state = .dead then s
    else { s.setRpc id { r with state := .dead } with pacer := homaPacerUnmanageRpc id s.pacer }
  | none => s

/-- One iteration of the fill loop on `id`: build the packet unlocked
(`allocOk`), append it, and send it at once below the unscheduled limit; a
failed allocation or a dead RPC makes the fill fail. -/
def fillStep (t id : ℕ) (allocOk : Bool) (rest : List TxPacket) (s : TxSys) : TxSys :=
  match rest with
  | [] => s.setThread t (some (.xmit id false .leave))
  | skb :: rest =>
    match s.rpc id with
    | none => s.setThread t none
    | some r =>
      if allocOk = false ∨ r.state = .dead then (s.rpcEnd id).setThread t none
      else
        let s' := { s.setRpc id { r with packets := r.packets ++ [skb], firstNotTx := 0 } with
          maxCycles := max s.maxCycles (cyclesForPacket cfg skb.wireBytes) }
        if skb.offset < r.unscheduled then s'.setThread t (some (.xmit id false (.fill rest)))
        else s'.setThread t (some (.fill id rest))

/-- Where the caller of `homa_xmit_data` goes on, with the RPC as the loop
left it: `homa_pacer_xmit` takes an RPC that has nothing more it may send off
the list. -/
def xmitReturn (t id : ℕ) (r : TxRpc) (ret : XmitReturn) (s : TxSys) : TxSys :=
  match ret with
  | .leave => s.setThread t none
  | .fill rest => s.setThread t (some (.fill id rest))
  | .pacer =>
    let s := if r.packets.length ≤ r.nextXmit ∨ r.granted ≤ r.nextXmitOffset then
        { s with pacer := homaPacerUnmanageRpc id s.pacer }
      else s
    s.setThread t (some .pacerTop)

/-- One pass of the loop of `homa_xmit_data` on `id`. -/
def xmitStep (t id : ℕ) (force : Bool) (ret : XmitReturn) (s : TxSys) : TxSys :=
  match s.rpc id with
  | none => s.setThread t none
  | some r =>
    match homaXmitDataBody cfg s.clock s.bytesLeft id force r s.pacer with
    | .send r' pacer skb priority =>
      { s.setRpc id r' with
        pacer
        sent := Function.update s.sent id (s.sent id ++ [(skb, priority)]) }.setThread t
        (some (.xmit id false ret))
    | .exit pacer => xmitReturn t id r ret { s with pacer }

/-- The top of the loop of `homa_pacer_xmit`: it stops, releasing its
mutex, once the NIC queue is `max_nic_queue_cycles` long or no RPC is
throttled. -/
def pacerTopStep (t : ℕ) (s : TxSys) : TxSys :=
  if ((s.pacer.linkIdleTime : ℤ) - s.clock ≥ cfg.maxNicQueueCycles) ∨ s.pacer.throttled = [] then
    { s.setThread t none with pacerBusy := false }
  else s.setThread t (some .pacerSelect)

/-- The choice of `homa_pacer_xmit` under the throttle lock, then
`homa_xmit_data(rpc, true)` on the RPC chosen. -/
def pacerSelectStep (t : ℕ) (s : TxSys) : TxSys :=
  let c := homaPacerSelect cfg s.initTime s.pacer
  let s' := { s with
    pacer := c.1
    picks := s.picks + 1
    fifoPicks := s.fifoPicks + if homaPacerSelectFifo cfg s.pacer then 1 else 0 }
  match c.2 with
  | none => { s'.setThread t none with pacerBusy := false }
  | some id => s'.setThread t (some (.xmit id true .pacer))

/-- The next region of thread `t`, at `pc`. -/
def runThread (t : ℕ) (pc : TxPc) (allocOk : Bool) (s : TxSys) : TxSys :=
  match pc with
  | .fill id rest => s.fillStep cfg t id allocOk rest
  | .xmit id force ret => s.xmitStep cfg t id force ret
  | .pacerTop => s.pacerTopStep cfg t
  | .pacerSelect => s.pacerSelectStep cfg t

/-- `homa_sendmsg` on the RPC `id`, which has no outgoing message yet, up to
the loop of `homa_message_out_fill`: `homa_message_out_init`, and `granted`
set to the unscheduled bytes; `plan` is what the loop will build. -/
def sendmsg (t id : ℕ) (length unschedBytes : ℤ) (plan : List TxPacket) (s : TxSys) : TxSys :=
  { (s.setRpc id (txRpcInit length unschedBytes s.clock)).setThread t (some (.fill id plan)) with
    planned := Function.update s.planned id plan }

/-- `homa_grant_pkt` on a GRANT for `id`: an `RPC_OUTGOING` RPC takes it and
calls `homa_xmit_data(rpc, false)`. -/
def grantPkt (t id : ℕ) (offset : ℤ) (priority : ℕ) (s : TxSys) : TxSys :=
  match s.rpc id with
  | none => s
  | some r =>
    let s := s.setRpc id (homaGrantPktUpdate offset priority r)
    if r.state = .outgoing then s.setThread t (some (.xmit id false .leave)) else s

/-- One segment of `id` sent by `homa_resend_data`: `homa_pacer_check_nic_q`
with `force` lets it through. -/
def resendSeg (id : ℕ) (s : TxSys) (seg : TxPacket) : TxSys :=
  match homaPacerCheckNicQ cfg s.pacer.linkIdleTime s.clock seg.wireBytes true with
  | some idle =>
    { s with pacer := { s.pacer with linkIdleTime := idle }
             resent := Function.update s.resent id (s.resent id ++ [seg])
             resentCycles := s.resentCycles + cyclesForPacket cfg seg.wireBytes }
  | none => s

/-- The segments `homa_resend_data` sends, each through the forced queue
check before `__homa_xmit_data`; which segments they are is
Homa.ResendData's subject. -/
def resendData (id : ℕ) (segs : List TxPacket) (s : TxSys) : TxSys :=
  segs.foldl (resendSeg cfg id) s

/-- `homa_resend_pkt` on a RESEND for `[offset, offset + length)` of `id`:
`homa_rpc_tx_end`, `homa_resend_data` of the range cut at `tx_end`, and a
raise of `granted` when the range ends past it. -/
def resendPkt (t id : ℕ) (offset length : ℤ) (held : ℕ → Bool) (segs : List TxPacket)
    (s : TxSys) : TxSys :=
  match s.rpc id with
  | none => s
  | some r =>
    let txEnd := homaRpcTxEnd held r
    let r := { r with firstNotTx := txEnd.2 }
    if homaIsClient id = false ∧ r.state ≠ .outgoing then s.setRpc id r
    else
      let s := s.resendData cfg id segs
      let stop := homaResendEnd offset length txEnd.1
      if stop > r.granted then
        (s.setRpc id (homaResendGrant stop r)).setThread t (some (.xmit id false .leave))
      else s.setRpc id r

/-- `homa_pacer_xmit` entered by thread `t`, the pacer thread's
`homa_pacer_main` or a GRO completion's `homa_pacer_check`:
`spin_trylock_bh` on `pacer->mutex` fails while another thread holds it. -/
def pacerXmit (t : ℕ) (s : TxSys) : TxSys :=
  if s.pacerBusy then s else { s.setThread t (some .pacerTop) with pacerBusy := true }

/-! ## What each region can do -/

section Regions

variable {s : TxSys} {t id : ℕ}

theorem rpcEnd_cases (s : TxSys) (id : ℕ) :
    s.rpcEnd id = s ∨ ∃ r, s.rpc id = some r ∧ r.state ≠ .dead ∧
      s.rpcEnd id = { s.setRpc id { r with state := .dead } with
        pacer := homaPacerUnmanageRpc id s.pacer } := by
  unfold rpcEnd
  cases hr : s.rpc id with
  | none => exact Or.inl rfl
  | some r =>
    dsimp only
    by_cases hdead : r.state = .dead
    · rw [if_pos hdead]
      exact Or.inl rfl
    · rw [if_neg hdead]
      exact Or.inr ⟨r, rfl, hdead, rfl⟩

@[simp] theorem rpcEnd_thread : (s.rpcEnd id).thread = s.thread := by
  rcases rpcEnd_cases s id with h | ⟨r, -, -, h⟩ <;> simp [h]

@[simp] theorem rpcEnd_pacerBusy : (s.rpcEnd id).pacerBusy = s.pacerBusy := by
  rcases rpcEnd_cases s id with h | ⟨r, -, -, h⟩ <;> simp [h]

@[simp] theorem rpcEnd_clock : (s.rpcEnd id).clock = s.clock := by
  rcases rpcEnd_cases s id with h | ⟨r, -, -, h⟩ <;> simp [h]

@[simp] theorem rpcEnd_planned : (s.rpcEnd id).planned = s.planned := by
  rcases rpcEnd_cases s id with h | ⟨r, -, -, h⟩ <;> simp [h]

@[simp] theorem rpcEnd_sent : (s.rpcEnd id).sent = s.sent := by
  rcases rpcEnd_cases s id with h | ⟨r, -, -, h⟩ <;> simp [h]

@[simp] theorem rpcEnd_maxCycles : (s.rpcEnd id).maxCycles = s.maxCycles := by
  rcases rpcEnd_cases s id with h | ⟨r, -, -, h⟩ <;> simp [h]

@[simp] theorem rpcEnd_picks : (s.rpcEnd id).picks = s.picks := by
  rcases rpcEnd_cases s id with h | ⟨r, -, -, h⟩ <;> simp [h]

@[simp] theorem rpcEnd_fifoPicks : (s.rpcEnd id).fifoPicks = s.fifoPicks := by
  rcases rpcEnd_cases s id with h | ⟨r, -, -, h⟩ <;> simp [h]

@[simp] theorem rpcEnd_resentCycles : (s.rpcEnd id).resentCycles = s.resentCycles := by
  rcases rpcEnd_cases s id with h | ⟨r, -, -, h⟩ <;> simp [h]

@[simp] theorem rpcEnd_linkIdleTime : (s.rpcEnd id).pacer.linkIdleTime = s.pacer.linkIdleTime := by
  rcases rpcEnd_cases s id with h | ⟨r, -, -, h⟩ <;> simp [h]

@[simp] theorem rpcEnd_fifoCount : (s.rpcEnd id).pacer.fifoCount = s.pacer.fifoCount := by
  rcases rpcEnd_cases s id with h | ⟨r, -, -, h⟩ <;> simp [h]

theorem rpcEnd_rpc :
    (s.rpcEnd id).rpc = Function.update s.rpc id ((s.rpc id).map fun r => { r with state := .dead }) := by
  unfold rpcEnd
  cases hr : s.rpc id with
  | none =>
    dsimp only
    rw [Option.map_none, ← hr, Function.update_eq_self]
  | some r =>
    dsimp only
    by_cases hdead : r.state = .dead
    · -- a dead RPC is left as it is
      have hkeep : { r with state := .dead } = r := by rw [← hdead]
      rw [if_pos hdead, Option.map_some, hkeep, ← hr, Function.update_eq_self]
    · rw [if_neg hdead, Option.map_some]
      rfl

theorem fillStep_cases (allocOk : Bool) (rest : List TxPacket) :
    (rest = [] ∧ s.fillStep cfg t id allocOk rest = s.setThread t (some (.xmit id false .leave))) ∨
    (∃ skb rest', rest = skb :: rest' ∧ s.rpc id = none ∧
      s.fillStep cfg t id allocOk rest = s.setThread t none) ∨
    (∃ skb rest' r, rest = skb :: rest' ∧ s.rpc id = some r ∧ (allocOk = false ∨ r.state = .dead) ∧
      s.fillStep cfg t id allocOk rest = (s.rpcEnd id).setThread t none) ∨
    (∃ skb rest' r, rest = skb :: rest' ∧ s.rpc id = some r ∧ allocOk = true ∧ r.state ≠ .dead ∧
      s.fillStep cfg t id allocOk rest =
        { s.setRpc id { r with packets := r.packets ++ [skb], firstNotTx := 0 } with
          maxCycles := max s.maxCycles (cyclesForPacket cfg skb.wireBytes) }.setThread t
          (some (if skb.offset < r.unscheduled then .xmit id false (.fill rest') else .fill id rest'))) := by
  cases rest with
  | nil => exact Or.inl ⟨rfl, rfl⟩
  | cons skb rest' =>
    cases hr : s.rpc id with
    | none =>
      refine Or.inr (Or.inl ⟨skb, rest', rfl, rfl, ?_⟩)
      simp only [fillStep, hr]
    | some r =>
      by_cases hfail : allocOk = false ∨ r.state = .dead
      · refine Or.inr (Or.inr (Or.inl ⟨skb, rest', r, rfl, rfl, hfail, ?_⟩))
        simp only [fillStep, hr, if_pos hfail]
      · have hok : allocOk = true ∧ r.state ≠ .dead := by
          cases allocOk <;> simp_all
        refine Or.inr (Or.inr (Or.inr ⟨skb, rest', r, rfl, rfl, hok.1, hok.2, ?_⟩))
        simp only [fillStep, hr, if_neg hfail]
        split_ifs <;> rfl

theorem xmitStep_cases (force : Bool) (ret : XmitReturn) :
    (s.rpc id = none ∧ s.xmitStep cfg t id force ret = s.setThread t none) ∨
    (∃ r r' p skb prio, s.rpc id = some r ∧
      homaXmitDataBody cfg s.clock s.bytesLeft id force r s.pacer = .send r' p skb prio ∧
      s.xmitStep cfg t id force ret =
        { s.setRpc id r' with
          pacer := p
          sent := Function.update s.sent id (s.sent id ++ [(skb, prio)]) }.setThread t
          (some (.xmit id false ret))) ∨
    (∃ r p, s.rpc id = some r ∧ homaXmitDataBody cfg s.clock s.bytesLeft id force r s.pacer = .exit p ∧
      s.xmitStep cfg t id force ret = xmitReturn t id r ret { s with pacer := p }) := by
  cases hr : s.rpc id with
  | none =>
    refine Or.inl ⟨rfl, ?_⟩
    simp only [xmitStep, hr]
  | some r =>
    cases hb : homaXmitDataBody cfg s.clock s.bytesLeft id force r s.pacer with
    | send r' p skb prio =>
      refine Or.inr (Or.inl ⟨r, r', p, skb, prio, rfl, hb, ?_⟩)
      simp only [xmitStep, hr, hb]
    | exit p =>
      refine Or.inr (Or.inr ⟨r, p, rfl, hb, ?_⟩)
      simp only [xmitStep, hr, hb]

theorem xmitReturn_pacer (r : TxRpc) (s : TxSys) :
    xmitReturn t id r .pacer s =
      { s with
        pacer := if r.packets.length ≤ r.nextXmit ∨ r.granted ≤ r.nextXmitOffset then
          homaPacerUnmanageRpc id s.pacer else s.pacer }.setThread t (some .pacerTop) := by
  simp only [xmitReturn]
  split_ifs <;> rfl

theorem pacerTopStep_cases :
    ((((s.pacer.linkIdleTime : ℤ) - s.clock ≥ cfg.maxNicQueueCycles) ∨ s.pacer.throttled = []) ∧
      s.pacerTopStep cfg t = { s.setThread t none with pacerBusy := false }) ∨
    ((s.pacer.linkIdleTime : ℤ) < s.clock + cfg.maxNicQueueCycles ∧ s.pacer.throttled ≠ [] ∧
      s.pacerTopStep cfg t = s.setThread t (some .pacerSelect)) := by
  unfold pacerTopStep
  by_cases hstop : ((s.pacer.linkIdleTime : ℤ) - s.clock ≥ cfg.maxNicQueueCycles) ∨ s.pacer.throttled = []
  · exact Or.inl ⟨hstop, if_pos hstop⟩
  · refine Or.inr ⟨by omega, fun h => hstop (Or.inr h), if_neg hstop⟩

theorem pacerSelectStep_eq :
    s.pacerSelectStep cfg t =
      let s' := { s with
        pacer := (homaPacerSelect cfg s.initTime s.pacer).1
        picks := s.picks + 1
        fifoPicks := s.fifoPicks + if homaPacerSelectFifo cfg s.pacer then 1 else 0 }
      match (homaPacerSelect cfg s.initTime s.pacer).2 with
      | none => { s'.setThread t none with pacerBusy := false }
      | some id => s'.setThread t (some (.xmit id true .pacer)) := rfl

theorem grantPkt_cases {r : TxRpc} (hr : s.rpc id = some r) (offset : ℤ) (priority : ℕ) :
    (r.state = .outgoing ∧ s.grantPkt t id offset priority =
      (s.setRpc id (homaGrantPktUpdate offset priority r)).setThread t (some (.xmit id false .leave))) ∨
    (r.state ≠ .outgoing ∧ s.grantPkt t id offset priority = s) := by
  unfold grantPkt
  rw [hr]
  dsimp only
  by_cases hout : r.state = .outgoing
  · exact Or.inl ⟨hout, if_pos hout⟩
  · refine Or.inr ⟨hout, ?_⟩
    rw [if_neg hout]
    have hkeep : homaGrantPktUpdate offset priority r = r := by
      simp only [homaGrantPktUpdate, if_neg hout]
    cases s
    simp only [setRpc, hkeep]
    simp only at hr
    rw [← hr, Function.update_eq_self]

theorem resendSeg_eq (s : TxSys) (seg : TxPacket) :
    s.resendSeg cfg id seg = { s with
      pacer := { s.pacer with
        linkIdleTime := max s.pacer.linkIdleTime s.clock + cyclesForPacket cfg seg.wireBytes }
      resent := Function.update s.resent id (s.resent id ++ [seg])
      resentCycles := s.resentCycles + cyclesForPacket cfg seg.wireBytes } := by
  simp only [resendSeg, homaPacerCheckNicQ_force]

theorem resendData_eq (segs : List TxPacket) (s : TxSys) :
    s.resendData cfg id segs = { s with
      pacer := { s.pacer with linkIdleTime := (s.resendData cfg id segs).pacer.linkIdleTime }
      resent := (s.resendData cfg id segs).resent
      resentCycles := (s.resendData cfg id segs).resentCycles } := by
  induction segs generalizing s with
  | nil => rfl
  | cons seg segs ih =>
    simp only [resendData, List.foldl_cons] at ih ⊢
    rw [ih (s.resendSeg cfg id seg), resendSeg_eq]

@[simp] theorem resendData_rpc (segs : List TxPacket) : (s.resendData cfg id segs).rpc = s.rpc := by
  rw [resendData_eq]

@[simp] theorem resendData_thread (segs : List TxPacket) :
    (s.resendData cfg id segs).thread = s.thread := by
  rw [resendData_eq]

@[simp] theorem resendData_clock (segs : List TxPacket) : (s.resendData cfg id segs).clock = s.clock := by
  rw [resendData_eq]

@[simp] theorem resendData_maxCycles (segs : List TxPacket) :
    (s.resendData cfg id segs).maxCycles = s.maxCycles := by
  rw [resendData_eq]

@[simp] theorem resendData_pacerBusy (segs : List TxPacket) :
    (s.resendData cfg id segs).pacerBusy = s.pacerBusy := by
  rw [resendData_eq]

@[simp] theorem resendData_planned (segs : List TxPacket) :
    (s.resendData cfg id segs).planned = s.planned := by
  rw [resendData_eq]

@[simp] theorem resendData_sent (segs : List TxPacket) : (s.resendData cfg id segs).sent = s.sent := by
  rw [resendData_eq]

@[simp] theorem resendData_picks (segs : List TxPacket) : (s.resendData cfg id segs).picks = s.picks := by
  rw [resendData_eq]

@[simp] theorem resendData_fifoPicks (segs : List TxPacket) :
    (s.resendData cfg id segs).fifoPicks = s.fifoPicks := by
  rw [resendData_eq]

@[simp] theorem resendData_throttled (segs : List TxPacket) :
    (s.resendData cfg id segs).pacer.throttled = s.pacer.throttled := by
  rw [resendData_eq]

@[simp] theorem resendData_fifoCount (segs : List TxPacket) :
    (s.resendData cfg id segs).pacer.fifoCount = s.pacer.fifoCount := by
  rw [resendData_eq]

theorem resendData_idle_le {k : ℤ} (hk : 0 ≤ k) (segs : List TxPacket)
    (h : (s.pacer.linkIdleTime : ℤ) ≤ s.clock + k + s.resentCycles) :
    ((s.resendData cfg id segs).pacer.linkIdleTime : ℤ) ≤
      s.clock + k + (s.resendData cfg id segs).resentCycles := by
  induction segs generalizing s with
  | nil => exact h
  | cons seg segs ih =>
    simp only [resendData, List.foldl_cons] at ih ⊢
    have hstep : ((s.resendSeg cfg id seg).pacer.linkIdleTime : ℤ) ≤
        (s.resendSeg cfg id seg).clock + k + (s.resendSeg cfg id seg).resentCycles := by
      rw [resendSeg_eq]
      dsimp only
      have := max_le h (by omega : (s.clock : ℤ) ≤ s.clock + k + s.resentCycles)
      push_cast
      omega
    have hclock : (s.resendSeg cfg id seg).clock = s.clock := by rw [resendSeg_eq]
    rw [← hclock]
    exact ih hstep

theorem resendData_resent (segs : List TxPacket) :
    (s.resendData cfg id segs).resent = Function.update s.resent id (s.resent id ++ segs) := by
  induction segs generalizing s with
  | nil => simp [resendData]
  | cons seg segs ih =>
    simp only [resendData, List.foldl_cons] at ih ⊢
    rw [ih, resendSeg_eq]
    simp

theorem resendPkt_cases {r : TxRpc} (hr : s.rpc id = some r) (offset length : ℤ) (held : ℕ → Bool)
    (segs : List TxPacket) :
    s.resendPkt cfg t id offset length held segs =
        s.setRpc id { r with firstNotTx := (homaRpcTxEnd held r).2 } ∨
      (homaResendEnd offset length (homaRpcTxEnd held r).1 ≤ r.granted ∧
        s.resendPkt cfg t id offset length held segs =
          (s.resendData cfg id segs).setRpc id { r with firstNotTx := (homaRpcTxEnd held r).2 }) ∨
      (r.granted < homaResendEnd offset length (homaRpcTxEnd held r).1 ∧
        s.resendPkt cfg t id offset length held segs =
          ((s.resendData cfg id segs).setRpc id
            (homaResendGrant (homaResendEnd offset length (homaRpcTxEnd held r).1)
              { r with firstNotTx := (homaRpcTxEnd held r).2 })).setThread t
            (some (.xmit id false .leave))) := by
  unfold resendPkt
  rw [hr]
  dsimp only
  split_ifs with hbusy hmore
  · exact Or.inl rfl
  · exact Or.inr (Or.inr ⟨hmore, rfl⟩)
  · exact Or.inr (Or.inl ⟨not_lt.mp hmore, rfl⟩)

theorem resendPkt_forced {r : TxRpc} (hr : s.rpc id = some r) (offset length : ℤ) (held : ℕ → Bool)
    (segs : List TxPacket) :
    ∃ l : List TxPacket,
      s.resendPkt cfg t id offset length held segs =
        (s.resendData cfg id l).setRpc id { r with firstNotTx := (homaRpcTxEnd held r).2 } ∨
      ∃ stop, r.granted < stop ∧ s.resendPkt cfg t id offset length held segs =
        ((s.resendData cfg id l).setRpc id
          (homaResendGrant stop { r with firstNotTx := (homaRpcTxEnd held r).2 })).setThread t
          (some (.xmit id false .leave)) := by
  rcases resendPkt_cases cfg hr offset length held segs (t := t) with heq | ⟨-, heq⟩ | ⟨hmore, heq⟩
  · exact ⟨[], Or.inl heq⟩
  · exact ⟨segs, Or.inl heq⟩
  · exact ⟨segs, Or.inr ⟨_, hmore, heq⟩⟩

theorem pacerXmit_cases :
    (s.pacerBusy = true ∧ s.pacerXmit t = s) ∨
    (s.pacerBusy = false ∧ s.pacerXmit t = { s.setThread t (some .pacerTop) with pacerBusy := true }) := by
  unfold pacerXmit
  cases s.pacerBusy with
  | true => exact Or.inl ⟨rfl, rfl⟩
  | false => exact Or.inr ⟨rfl, rfl⟩

end Regions

/-! ## Steps and runs -/

/-- One step: a region of a thread, a handler that starts one, or the clock
moving on.  A message sent is cut into packets that tile it, as
`homa_message_out_fill` cuts it (`homaMessageOutFill_txPlan`). -/
inductive Step : TxSys → TxSys → Prop
  | sendmsg {s : TxSys} {t id : ℕ} {length unschedBytes : ℤ} {plan : List TxPacket}
      (hthread : s.thread t = none) (hfresh : s.rpc id = none) (hpos : 0 < length)
      (hmax : length ≤ homaMaxMessageLength)
      (hplan : Tiles TxPacket.offset TxPacket.stop 0 length plan) :
      Step s (s.sendmsg t id length unschedBytes plan)
  | run {s : TxSys} {t : ℕ} {pc : TxPc} (allocOk : Bool) (hthread : s.thread t = some pc) :
      Step s (s.runThread cfg t pc allocOk)
  | grant {s : TxSys} {t id : ℕ} {r : TxRpc} (offset : ℤ) (priority : ℕ)
      (hthread : s.thread t = none) (hrpc : s.rpc id = some r) (hlive : r.state ≠ .dead) :
      Step s (s.grantPkt t id offset priority)
  | resend {s : TxSys} {t id : ℕ} {r : TxRpc} (offset length : ℤ) (held : ℕ → Bool)
      (segs : List TxPacket) (hthread : s.thread t = none) (hrpc : s.rpc id = some r)
      (hlive : r.state ≠ .dead)
      (hsegs : ∀ seg ∈ segs, ∃ p ∈ r.packets, p.offset ≤ seg.offset ∧ seg.stop ≤ p.stop ∧
        seg.wireBytes ≤ p.wireBytes ∧ offset < seg.stop ∧
        seg.offset < min (homaResendEnd offset length (homaRpcTxEnd held r).1)
          (homaRpcTxEnd held r).1) :
      Step s (s.resendPkt cfg t id offset length held segs)
  | rpcEnd {s : TxSys} (id : ℕ) : Step s (s.rpcEnd id)
  /-- `homa_data_pkt` on the first DATA packet of the response to a client
  RPC: `RPC_OUTGOING` becomes `RPC_INCOMING`. -/
  | response {s : TxSys} {id : ℕ} {r : TxRpc} (hrpc : s.rpc id = some r)
      (hclient : homaIsClient id = true) (hout : r.state = .outgoing) :
      Step s (s.setRpc id { r with state := .incoming })
  | pacerXmit {s : TxSys} {t : ℕ} (hthread : s.thread t = none) : Step s (s.pacerXmit t)
  | tick {s : TxSys} (d : ℕ) : Step s { s with clock := s.clock + d }

/-- A host before anything is sent: `homa_pacer_alloc` has set
`fifo_count` to 1000 and `link_idle_time` to the clock of that time. -/
structure Init (s : TxSys) : Prop where
  rpc_eq : ∀ id, s.rpc id = none
  thread_eq : ∀ t, s.thread t = none
  pacerBusy_eq : s.pacerBusy = false
  fifoCount_eq : s.pacer.fifoCount = 1000
  throttled_eq : s.pacer.throttled = []
  linkIdleTime_le : s.pacer.linkIdleTime ≤ s.clock
  planned_eq : ∀ id, s.planned id = []
  sent_eq : ∀ id, s.sent id = []
  resent_eq : ∀ id, s.resent id = []
  maxCycles_eq : s.maxCycles = 0
  picks_eq : s.picks = 0
  fifoPicks_eq : s.fifoPicks = 0

/-- The host as `homa_pacer_alloc` leaves it at `homa_clock() = clock`. -/
def init (clock : ℕ) : TxSys :=
  { rpc := fun _ => none, pacer := ⟨1000, [], clock⟩, pacerBusy := false, clock
    thread := fun _ => none, planned := fun _ => [], sent := fun _ => [], maxCycles := 0
    picks := 0, fifoPicks := 0, resent := fun _ => [], resentCycles := 0 }

theorem init_init (clock : ℕ) : (init clock).Init where
  rpc_eq _ := rfl
  thread_eq _ := rfl
  pacerBusy_eq := rfl
  fifoCount_eq := rfl
  throttled_eq := rfl
  linkIdleTime_le := le_rfl
  planned_eq _ := rfl
  sent_eq _ := rfl
  resent_eq _ := rfl
  maxCycles_eq := rfl
  picks_eq := rfl
  fifoPicks_eq := rfl

inductive Reachable : TxSys → Prop
  | init {s : TxSys} : s.Init → Reachable s
  | step {s s' : TxSys} : Reachable s → Step cfg s s' → Reachable s'

end TxSys

end Homa
