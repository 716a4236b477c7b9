import Homa.MessageInReassembly
import Homa.Pacer

/-!
# The timer: silent ticks, RESEND requests and timeouts

`homa_timer` runs once per tick, counts it in the `u32` `timer_ticks` and
visits every RPC: one in service has `silent_ticks` cleared, any other gets
a silent tick and `homa_timer_check_rpc`.  That function sends NEED_ACK for
a server RPC whose response is out, from `request_ack_ticks` ticks after
`done_timer_ticks`; clears `silent_ticks` of an RPC that does not wait on its
peer; and otherwise, from `resend_ticks` on, asks every `resend_interval`
ticks for what is missing (`homa_request_retrans`), aborting the RPC at
`timeout_ticks`.
-/

namespace Homa

open IntervalList MachineArith

/-- The sysctl values `homa_timer_check_rpc` reads from `struct homa`. -/
structure TimerConfig where
  resendTicks : ℤ
  resendInterval : ℤ
  timeoutTicks : ℤ
  requestAckTicks : ℤ
  deriving DecidableEq, Repr

/-- The values `homa_init` sets. -/
def TimerConfig.default : TimerConfig :=
  { resendTicks := 5, resendInterval := 5, timeoutTicks := 100, requestAckTicks := 2 }

/-- What the timer reads and writes of an RPC: its outgoing message, the
reassembly state and grant of its incoming one, and the timer's fields. -/
structure TimerRpc extends TxRpc where
  msgin : MessageIn
  /-- `msgin.granted`. -/
  msginGranted : ℤ
  /-- `msgin.num_bpages`. -/
  numBpages : ℕ
  silentTicks : ℤ
  /-- `done_timer_ticks`, a `u32`: 0 until the timer first finds the
  response transmitted. -/
  doneTimerTicks : ℕ
  /-- `rpc->error`. -/
  error : ℤ

/-- `struct homa_resend_hdr`: send `[offset, offset + length)` again; a
length of -1 asks for everything. -/
structure ResendHdr where
  offset : ℤ
  length : ℤ
  deriving DecidableEq, Repr

/-- Where the range a RESEND asks for ends. -/
def ResendHdr.stop (h : ResendHdr) : ℤ :=
  h.offset + h.length

/-- What `homa_timer_check_rpc` does besides writing the RPC. -/
inductive TimerAction where
  /-- `homa_xmit_control(NEED_ACK, ...)`. -/
  | needAck
  /-- `homa_xmit_control(RESEND, ...)` in `homa_request_retrans`. -/
  | resend (h : ResendHdr)
  /-- `homa_rpc_abort(rpc, -ETIMEDOUT)`. -/
  | abort
  /-- The `% homa->resend_interval` of `homa_timer_check_rpc` with the
  sysctl at 0: a divide error, which stops the kernel. -/
  | divideError
  deriving DecidableEq, Repr

/-- The RESEND `homa_request_retrans` sends for a gap. -/
def Gap.toResend (gap : Gap) : ResendHdr :=
  ⟨gap.start, gap.stop - gap.start⟩

/-- `homa_request_retrans(rpc)`: a RESEND for every gap of the incoming
message and one for the granted bytes past `recv_end`; before any data of the
message has arrived (`msgin.length < 0`), one RESEND for everything. -/
def homaRequestRetrans (msgin : MessageIn) (granted : ℤ) : List ResendHdr :=
  if msgin.length ≥ 0 then
    let length := granted - msgin.recvEnd
    if length ≤ 0 then msgin.gaps.map Gap.toResend
    else msgin.gaps.map Gap.toResend ++ [⟨msgin.recvEnd, length⟩]
  else [⟨0, -1⟩]

namespace TimerRpc

variable (cfg : TimerConfig) (held : ℕ → Bool) (id : ℕ)

/-- The start of `homa_timer_check_rpc`: a server RPC whose response is all
out records the tick once and sends NEED_ACK from `request_ack_ticks`
later, by a `>=` test that survives the wrap. -/
def needAckCheck (timerTicks : ℕ) (txEnd : ℤ) (rpc : TimerRpc) : TimerRpc × List TimerAction :=
  if homaIsClient id = false ∧ rpc.state = .outgoing ∧ txEnd = rpc.length then
    if rpc.doneTimerTicks = 0 then ({ rpc with doneTimerTicks := timerTicks }, [])
    else if signBit32 (rpc.doneTimerTicks + cfg.requestAckTicks - 1 - timerTicks) then
      (rpc, [.needAck])
    else (rpc, [])
  else (rpc, [])

/-- The end of `homa_timer_check_rpc` for an RPC that waits: a RESEND every
`resend_interval` ticks from `resend_ticks` on (C's `%`, which divides by
zero at 0), an abort from `timeout_ticks` on. -/
def silentCheck (rpc : TimerRpc) : List TimerAction :=
  if rpc.silentTicks < cfg.resendTicks then []
  else if rpc.silentTicks ≥ cfg.timeoutTicks then [.abort]
  else if cfg.resendInterval = 0 then [.divideError]
  else if (rpc.silentTicks - cfg.resendTicks).tmod cfg.resendInterval = 0 then
    (homaRequestRetrans rpc.msgin rpc.msginGranted).map .resend
  else []

/-- `homa_timer_check_rpc(rpc)` at `homa->timer_ticks = timerTicks`, where
`held i` says whether the driver still holds the `i`-th packet of the
outgoing message (`homa_rpc_tx_end`). -/
def homaTimerCheckRpc (timerTicks : ℕ) (rpc : TimerRpc) : TimerRpc × List TimerAction :=
  let txEnd := homaRpcTxEnd held rpc.toTxRpc
  let ack := needAckCheck cfg id timerTicks txEnd.1 { rpc with firstNotTx := txEnd.2 }
  let rpc := ack.1
  let silence := ({ rpc with silentTicks := 0 }, ack.2)
  if rpc.state = .incoming then
    -- everything granted has arrived, or there is no buffer space to grant into
    if rpc.msgin.length - rpc.msgin.bytesRemaining ≥ rpc.msginGranted then silence
    else if rpc.numBpages = 0 then silence
    else (rpc, ack.2 ++ silentCheck cfg rpc)
  -- a server that has received its request does not worry about retries
  else if homaIsClient id = false then silence
  -- granted bytes not yet transmitted: the ball is in this host's court
  else if rpc.state = .outgoing ∧ txEnd.1 < rpc.granted then silence
  else (rpc, ack.2 ++ silentCheck cfg rpc)

/-- The body of `homa_timer`'s loop for one RPC: one in service has
`silent_ticks` cleared, any other gets one more silent tick and
`homa_timer_check_rpc`. -/
def homaTimerRpc (timerTicks : ℕ) (rpc : TimerRpc) : TimerRpc × List TimerAction :=
  if rpc.state = .inService then ({ rpc with silentTicks := 0 }, [])
  else homaTimerCheckRpc cfg held id timerTicks { rpc with silentTicks := rpc.silentTicks + 1 }

/-- `homa_rpc_abort(rpc, -ETIMEDOUT)` on the RPC's own fields: a server RPC
is ended, a client RPC gets the error (and is handed to the application,
`Homa.homaRpcAbort`). -/
def timerAbort (rpc : TimerRpc) : TimerRpc :=
  if homaIsClient id = false then { rpc with state := .dead }
  else { rpc with error := -etimedout }

/-- The RPC waits on its peer: the tests of `homa_timer_check_rpc` that
would clear `silent_ticks` all fail, `txEnd` being what `homa_rpc_tx_end`
returns. -/
def Waits (txEnd : ℤ) (rpc : TimerRpc) : Prop :=
  (rpc.state = .incoming ∧ rpc.msgin.length - rpc.msgin.bytesRemaining < rpc.msginGranted ∧
      rpc.numBpages ≠ 0) ∨
    (rpc.state ≠ .incoming ∧ homaIsClient id = true ∧ ¬(rpc.state = .outgoing ∧ txEnd < rpc.granted))

instance (txEnd : ℤ) (rpc : TimerRpc) : Decidable (Waits id txEnd rpc) := by
  unfold Waits
  infer_instance

/-- `n` passes of `homa_timer` over an RPC that nothing else touches, the
first at `homa->timer_ticks = ticks + 1` (a `u32`): the RPC afterwards, and
what each pass sent for it. -/
def quietPasses : ℕ → ℕ → TimerRpc → TimerRpc × List (List TimerAction)
  | _, 0, rpc => (rpc, [])
  | ticks, n + 1, rpc =>
    let ticks := (ticks + 1) % 2 ^ 32
    let pass := homaTimerRpc cfg held id ticks rpc
    -- no pass follows a divide error
    if TimerAction.divideError ∈ pass.2 then (pass.1, [pass.2])
    else
      let rest := quietPasses ticks n
        (if TimerAction.abort ∈ pass.2 then timerAbort id pass.1 else pass.1)
      (rest.1, pass.2 :: rest.2)

/-! ## One call -/

section Call

variable {cfg held id}

theorem needAckCheck_fst (timerTicks : ℕ) (txEnd : ℤ) (rpc : TimerRpc) :
    (needAckCheck cfg id timerTicks txEnd rpc).1 =
      { rpc with doneTimerTicks := (needAckCheck cfg id timerTicks txEnd rpc).1.doneTimerTicks } := by
  unfold needAckCheck
  split_ifs <;> rfl

theorem needAckCheck_of_waits {timerTicks : ℕ} {txEnd txEnd' : ℤ} {rpc : TimerRpc}
    (hw : Waits id txEnd' rpc) : needAckCheck cfg id timerTicks txEnd rpc = (rpc, []) := by
  unfold needAckCheck
  rw [if_neg]
  rintro ⟨hserver, hout, -⟩
  rcases hw with ⟨hin, -⟩ | ⟨-, hclient, -⟩
  · rw [hout] at hin
    cases hin
  · rw [hserver] at hclient
    cases hclient

theorem homaTimerCheckRpc_eq (timerTicks : ℕ) (rpc : TimerRpc) :
    homaTimerCheckRpc cfg held id timerTicks rpc =
      let txEnd := homaRpcTxEnd held rpc.toTxRpc
      let ack := needAckCheck cfg id timerTicks txEnd.1 { rpc with firstNotTx := txEnd.2 }
      if Waits id txEnd.1 rpc then (ack.1, ack.2 ++ silentCheck cfg ack.1)
      else ({ ack.1 with silentTicks := 0 }, ack.2) := by
  unfold homaTimerCheckRpc Waits
  simp only
  rw [needAckCheck_fst]
  by_cases hin : rpc.state = RpcState.incoming
  · by_cases hdone : rpc.msgin.length - rpc.msgin.bytesRemaining ≥ rpc.msginGranted
    · simp [hin, hdone]
    · by_cases hbuf : rpc.numBpages = 0 <;> simp [hin, hbuf, not_le.mp hdone]
  · by_cases hclient : homaIsClient id = true
    · by_cases hsend : rpc.state = .outgoing ∧ (homaRpcTxEnd held rpc.toTxRpc).1 < rpc.granted <;>
        simp [hin, hclient, hsend]
    · simp [hin, hclient]

theorem homaTimerCheckRpc_of_waits {timerTicks : ℕ} {rpc : TimerRpc}
    (hw : Waits id (homaRpcTxEnd held rpc.toTxRpc).1 rpc) :
    homaTimerCheckRpc cfg held id timerTicks rpc =
      ({ rpc with firstNotTx := (homaRpcTxEnd held rpc.toTxRpc).2 },
        silentCheck cfg { rpc with firstNotTx := (homaRpcTxEnd held rpc.toTxRpc).2 }) := by
  have hw' : Waits id (homaRpcTxEnd held rpc.toTxRpc).1
      { rpc with firstNotTx := (homaRpcTxEnd held rpc.toTxRpc).2 } := hw
  rw [homaTimerCheckRpc_eq]
  simp only [if_pos hw, needAckCheck_of_waits hw', List.nil_append]

theorem homaTimerCheckRpc_of_not_waits {timerTicks : ℕ} {rpc : TimerRpc}
    (hw : ¬Waits id (homaRpcTxEnd held rpc.toTxRpc).1 rpc) :
    (homaTimerCheckRpc cfg held id timerTicks rpc).1.silentTicks = 0 ∧
      (homaTimerCheckRpc cfg held id timerTicks rpc).2 ⊆ [.needAck] := by
  rw [homaTimerCheckRpc_eq]
  simp only [if_neg hw, true_and]
  unfold needAckCheck
  split_ifs <;> simp

theorem abort_mem_silentCheck (rpc : TimerRpc) :
    TimerAction.abort ∈ silentCheck cfg rpc ↔
      cfg.resendTicks ≤ rpc.silentTicks ∧ cfg.timeoutTicks ≤ rpc.silentTicks := by
  unfold silentCheck
  split_ifs with h1 h2 <;> simp <;> omega

theorem divideError_not_mem_silentCheck (hint : cfg.resendInterval ≠ 0) (rpc : TimerRpc) :
    TimerAction.divideError ∉ silentCheck cfg rpc := by
  unfold silentCheck
  split_ifs <;> simp_all

theorem timeoutTicks_le_of_abort {timerTicks : ℕ} {rpc : TimerRpc}
    (h : TimerAction.abort ∈ (homaTimerCheckRpc cfg held id timerTicks rpc).2) :
    cfg.timeoutTicks ≤ rpc.silentTicks := by
  by_cases hw : Waits id (homaRpcTxEnd held rpc.toTxRpc).1 rpc
  · rw [homaTimerCheckRpc_of_waits hw] at h
    exact ((abort_mem_silentCheck _).mp h).2
  · have := (homaTimerCheckRpc_of_not_waits hw).2 h
    simp at this

theorem homaTimerRpc_silentTicks (timerTicks : ℕ) (rpc : TimerRpc) :
    (homaTimerRpc cfg held id timerTicks rpc).1.silentTicks = 0 ∨
      (homaTimerRpc cfg held id timerTicks rpc).1.silentTicks = rpc.silentTicks + 1 := by
  unfold homaTimerRpc
  split_ifs with hserv
  · exact Or.inl rfl
  · rw [homaTimerCheckRpc_eq]
    simp only
    split_ifs
    · right
      rw [needAckCheck_fst]
    · exact Or.inl rfl

theorem timeoutTicks_le_of_homaTimerRpc {timerTicks : ℕ} {rpc : TimerRpc}
    (h : TimerAction.abort ∈ (homaTimerRpc cfg held id timerTicks rpc).2) :
    cfg.timeoutTicks ≤ rpc.silentTicks + 1 := by
  unfold homaTimerRpc at h
  split_ifs at h
  · simp at h
  · exact timeoutTicks_le_of_abort h

theorem silentCheck_congr {r r' : TimerRpc} (hs : r.silentTicks = r'.silentTicks)
    (hm : r.msgin = r'.msgin) (hg : r.msginGranted = r'.msginGranted) :
    silentCheck cfg r = silentCheck cfg r' := by
  unfold silentCheck
  rw [hs, hm, hg]

theorem homaTimerRpc_of_waits {timerTicks : ℕ} {rpc : TimerRpc} (hstate : rpc.state ≠ .inService)
    (hw : Waits id (homaRpcTxEnd held rpc.toTxRpc).1 rpc) :
    homaTimerRpc cfg held id timerTicks rpc =
      ({ rpc with silentTicks := rpc.silentTicks + 1, firstNotTx := (homaRpcTxEnd held rpc.toTxRpc).2 },
        silentCheck cfg { rpc with silentTicks := rpc.silentTicks + 1 }) := by
  unfold homaTimerRpc
  rw [if_neg hstate]
  exact homaTimerCheckRpc_of_waits hw

theorem waits_of_pass {rpc : TimerRpc} (hw : Waits id (homaRpcTxEnd held rpc.toTxRpc).1 rpc) (x : ℤ) :
    Waits id (homaRpcTxEnd held { rpc.toTxRpc with firstNotTx := (homaRpcTxEnd held rpc.toTxRpc).2 }).1
      { rpc with silentTicks := x, firstNotTx := (homaRpcTxEnd held rpc.toTxRpc).2 } := by
  rw [homaRpcTxEnd_resume]
  exact hw

end Call

/-! ## The timer's passes over a silent RPC -/

section Schedule

variable {cfg held id}

/-- An RPC that waits on its peer and hears nothing, visited by `homa_timer`
on each of `n` passes up to the one that aborts it: the `j`-th pass runs the
silent-tick checks at one more silent tick than the pass before, so it asks
for a retransmission when the count has reached `resend_ticks` and moved a
multiple of `resend_interval` past it, and aborts once the count reaches
`timeout_ticks`. -/
theorem homaTimer_resend_schedule (hint : cfg.resendInterval ≠ 0) {rpc : TimerRpc}
    (hstate : rpc.state ≠ .inService) (hw : Waits id (homaRpcTxEnd held rpc.toTxRpc).1 rpc) {n : ℕ}
    (hn : rpc.silentTicks + n ≤ max cfg.resendTicks cfg.timeoutTicks) (ticks : ℕ) :
    (quietPasses cfg held id ticks n rpc).2 =
      (List.range n).map fun j : ℕ =>
        silentCheck cfg { rpc with silentTicks := rpc.silentTicks + (j : ℤ) + 1 } := by
  induction n generalizing rpc ticks with
  | zero => rfl
  | succ n ih =>
    simp only [quietPasses]
    rw [homaTimerRpc_of_waits hstate hw, if_neg (divideError_not_mem_silentCheck hint _),
      List.range_succ_eq_map, List.map_cons, List.map_map]
    simp only [Nat.cast_zero, add_zero]
    congr 1
    cases n with
    | zero => rfl
    | succ m =>
      -- not yet the last pass, so not an abort: the RPC goes on as it was
      have hnot : TimerAction.abort ∉ silentCheck cfg { rpc with silentTicks := rpc.silentTicks + 1 } := by
        unfold silentCheck
        simp only
        split_ifs with h1 h2 <;> simp
        push_cast at hn
        omega
      let next : TimerRpc :=
        { rpc with silentTicks := rpc.silentTicks + 1, firstNotTx := (homaRpcTxEnd held rpc.toTxRpc).2 }
      have hrest := @ih next hstate (waits_of_pass hw _)
        (show rpc.silentTicks + 1 + ((m + 1 : ℕ) : ℤ) ≤ max cfg.resendTicks cfg.timeoutTicks by
          push_cast at hn ⊢
          omega)
        ((ticks + 1) % 2 ^ 32)
      rw [if_neg hnot, hrest]
      refine List.map_congr_left fun j _ => silentCheck_congr ?_ rfl rfl
      simp only [next]
      push_cast
      ring

/-- A client RPC whose 1000-byte request has all been transmitted and is
granted in full, waiting for its response. -/
def witnessTimerRpc : TimerRpc :=
  { state := .outgoing, length := 1000, unscheduled := 1000, granted := 1000, schedPriority := 0
    packets := [⟨0, 1000, 1100⟩], nextXmit := 1, nextXmitOffset := 1000, firstNotTx := 0, initTime := 0
    msgin := ⟨-1, [], [], 0, 0⟩, msginGranted := 0, numBpages := 0, silentTicks := 0
    doneTimerTicks := 0, error := 0 }

theorem homaTimer_resend_schedule_default :
    (quietPasses TimerConfig.default (fun _ => false) 2 0 100 witnessTimerRpc).2 =
      (List.range 100).map fun j : ℕ =>
        silentCheck TimerConfig.default
          { witnessTimerRpc with silentTicks := witnessTimerRpc.silentTicks + (j : ℤ) + 1 } :=
  homaTimer_resend_schedule (by decide) (by decide) (by decide) (by decide) 0

end Schedule

/-! ## What the RESENDs ask for -/

section Retrans

@[simp] theorem Gap.toResend_offset : ResendHdr.offset ∘ Gap.toResend = Gap.start :=
  rfl

@[simp] theorem Gap.toResend_stop : ResendHdr.stop ∘ Gap.toResend = Gap.stop := by
  funext gap
  simp [Gap.toResend, ResendHdr.stop]

theorem holes_gaps_toResend (msgin : MessageIn) :
    holes ResendHdr.offset ResendHdr.stop (msgin.gaps.map Gap.toResend) = msgin.missing := by
  rw [holes_map, Gap.toResend_offset, Gap.toResend_stop]
  rfl

theorem Ico_recvEnd_diff_received {msgin : MessageIn} (hinv : msgin.Reassembly) :
    Set.Ico 0 msgin.recvEnd \ msgin.received = msgin.missing := by
  rw [hinv.received_eq]
  exact Set.sdiff_sdiff_cancel_left hinv.gaps_bounded.holes_subset

/-- `homa_request_retrans` on an incoming message filed consistently asks
for exactly the bytes below `max(recv_end, granted)` that have not arrived,
as non-empty ranges, each after the one before. -/
theorem homaRequestRetrans_missing {msgin : MessageIn} (hinv : msgin.Reassembly)
    (hlen : 0 ≤ msgin.length) (granted : ℤ) :
    holes ResendHdr.offset ResendHdr.stop (homaRequestRetrans msgin granted) =
        Set.Ico 0 (max msgin.recvEnd granted) \ msgin.received ∧
      Bounded ResendHdr.offset ResendHdr.stop 0 (max msgin.recvEnd granted)
        (homaRequestRetrans msgin granted) := by
  have hgaps : Bounded ResendHdr.offset ResendHdr.stop 0 msgin.recvEnd
      (msgin.gaps.map Gap.toResend) := by
    rw [bounded_map, Gap.toResend_offset, Gap.toResend_stop]
    exact hinv.gaps_bounded
  unfold homaRequestRetrans
  rw [if_pos hlen]
  simp only
  by_cases hshort : granted - msgin.recvEnd ≤ 0
  · -- nothing granted past `recv_end`: the gaps are all that is missing
    rw [if_pos hshort, max_eq_left (by omega), holes_gaps_toResend, Ico_recvEnd_diff_received hinv]
    exact ⟨rfl, hgaps⟩
  · rw [if_neg hshort, max_eq_right (by omega)]
    refine ⟨?_, hgaps.append_single le_rfl (by simp [ResendHdr.stop]; omega)
      (by simp [ResendHdr.stop])⟩
    -- the bytes below `recv_end` that are missing are the gaps; those past it
    -- up to `granted` have not arrived at all
    have hsplit : Set.Ico 0 granted = Set.Ico 0 msgin.recvEnd ∪ Set.Ico msgin.recvEnd granted :=
      (Set.Ico_union_Ico_eq_Ico hinv.recvEnd_nonneg (by omega)).symm
    have hfar : Set.Ico msgin.recvEnd granted \ msgin.received = Set.Ico msgin.recvEnd granted := by
      rw [sdiff_eq_left, hinv.received_eq, Set.disjoint_left]
      rintro x hx ⟨hx', -⟩
      exact absurd hx.1 (not_le.mpr hx'.2)
    rw [holes_append, holes_gaps_toResend, hsplit, Set.union_sdiff_distrib,
      Ico_recvEnd_diff_received hinv, hfar]
    simp [ResendHdr.stop]

/-- A 1000-byte incoming message of which the 100 bytes at offset 500 have
arrived, leaving a gap at `[0, 500)`. -/
def witnessMsgin : MessageIn :=
  homaAddPacket ⟨1000, [], [], 0, 1000⟩ ⟨500, 100, by decide⟩ true

theorem witnessMsgin_reassembly : witnessMsgin.Reassembly := by
  have hinit : homaMessageInInit 1000 0 = .ok ⟨1000, [], [], 0, 1000⟩ := by
    simp [homaMessageInInit, homaMaxMessageLength]
  have hnoWrap : DataPacket.NoWrap ⟨500, 100, by decide⟩ := by
    unfold DataPacket.NoWrap DataPacket.start DataPacket.length
    rw [wrapInt_32_of_mem (by decide) (by decide)]
    decide
  exact (MessageIn.reassembly_of_homaMessageInInit hinit (by norm_num)).homaAddPacket _ true hnoWrap

theorem homaRequestRetrans_missing_gap :
    holes ResendHdr.offset ResendHdr.stop (homaRequestRetrans witnessMsgin 1000) =
        Set.Ico 0 (max witnessMsgin.recvEnd 1000) \ witnessMsgin.received ∧
      Bounded ResendHdr.offset ResendHdr.stop 0 (max witnessMsgin.recvEnd 1000)
        (homaRequestRetrans witnessMsgin 1000) :=
  homaRequestRetrans_missing witnessMsgin_reassembly
    (by rw [witnessMsgin, MessageIn.length_homaAddPacket]; norm_num) 1000

end Retrans

/-! ## NEED_ACK across the wrap of `timer_ticks` -/

section NeedAck

variable {cfg held id}

/-- For a server RPC whose response has all been transmitted and whose
`done_timer_ticks` has been recorded, the timer sends NEED_ACK exactly when
at least `request_ack_ticks` ticks have passed since, counting modulo
`2 ^ 32`: for every `done_timer_ticks`, every `k < 2 ^ 31` ticks later and
every `request_ack_ticks` in `[1, 2 ^ 31]`. -/
theorem homaTimerCheckRpc_needAck_iff {rpc : TimerRpc} {timerTicks k : ℕ}
    (hserver : homaIsClient id = false) (hout : rpc.state = .outgoing)
    (hsent : (homaRpcTxEnd held rpc.toTxRpc).1 = rpc.length) (hdone : rpc.doneTimerTicks ≠ 0)
    (hticks : timerTicks = (rpc.doneTimerTicks + k) % 2 ^ 32) (hk : k < 2 ^ 31)
    (hr : 1 ≤ cfg.requestAckTicks) (hr' : cfg.requestAckTicks ≤ 2 ^ 31) :
    TimerAction.needAck ∈ (homaTimerCheckRpc cfg held id timerTicks rpc).2 ↔
      cfg.requestAckTicks ≤ k := by
  -- a server RPC sending its response never waits on its peer
  have hnw : ¬Waits id (homaRpcTxEnd held rpc.toTxRpc).1 rpc := by
    rintro (⟨hin, -⟩ | ⟨-, hclient, -⟩)
    · rw [hout] at hin
      cases hin
    · rw [hserver] at hclient
      cases hclient
  have hwrap : (timerTicks : ℤ) ≡ rpc.doneTimerTicks + k [ZMOD 2 ^ 32] := by
    rw [hticks]
    push_cast
    exact Int.emod_emod_of_dvd _ (dvd_refl _)
  have hserial := signBit32_serial hwrap hr hr' (Int.natCast_nonneg k) (by exact_mod_cast hk)
  rw [homaTimerCheckRpc_eq]
  simp only [if_neg hnw]
  unfold needAckCheck
  simp only [hserver, hout, hsent, and_self, if_true, if_neg hdone]
  split_ifs with hbit
  · simp only [List.mem_singleton, true_iff]
    exact_mod_cast hserial.mp hbit
  · simp only [List.not_mem_nil, false_iff]
    intro hle
    exact hbit (hserial.mpr (by exact_mod_cast hle))

/-- A server RPC whose 1000-byte response has all been transmitted, with
`done_timer_ticks` recorded one tick before `timer_ticks` wraps. -/
def witnessDoneRpc : TimerRpc :=
  { witnessTimerRpc with doneTimerTicks := 2 ^ 32 - 1 }

theorem homaTimerCheckRpc_needAck_iff_wrap :
    TimerAction.needAck ∈
        (homaTimerCheckRpc TimerConfig.default (fun _ => false) 3 4 witnessDoneRpc).2 ↔
      TimerConfig.default.requestAckTicks ≤ 5 :=
  homaTimerCheckRpc_needAck_iff (by decide) rfl (by decide) (by decide) (by decide) (by norm_num)
    (by decide) (by decide)

end NeedAck

end TimerRpc

end Homa
