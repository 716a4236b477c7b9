import Homa.TxInvariants

/-!
# What goes out for each message

`homa_message_out_fill` cuts a message into packets that tile it and appends
them in order; `homa_xmit_data` hands them to the IP stack from `next_xmit`
on, while other threads raise `granted`, end the RPC or build more packets.
`MsgInv` says what every reachable state keeps of each outgoing message:
what has been handed over is the first packets of the message, each once and
in order, covering `[0, next_xmit_offset)`, each below the grant and at the
priority its offset calls for.  `ResentInv` says the same of the grant for
the segments `homa_resend_data` retransmits.
-/

namespace Homa

open IntervalList MachineArith

namespace TxSys

variable {cfg : TxConfig}

/-- What holds of the outgoing message `r` of the RPC `id`. -/
structure MsgInv (cfg : TxConfig) (s : TxSys) (id : ℕ) (r : TxRpc) : Prop where
  plan_tiles : Tiles TxPacket.offset TxPacket.stop 0 r.length (s.planned id)
  length_pos : 0 < r.length
  length_le : r.length ≤ homaMaxMessageLength
  built : r.packets <+: s.planned id
  /-- The thread building the message has the rest of it still to build. -/
  building : ∀ {t pc rest}, s.thread t = some pc → pc.toBuild id = some rest →
    r.packets ++ rest = s.planned id
  nextXmit_le : r.nextXmit ≤ r.packets.length
  sent_eq : (s.sent id).map Prod.fst = r.packets.take r.nextXmit
  sent_tiles : Tiles TxPacket.offset TxPacket.stop 0 r.nextXmitOffset (r.packets.take r.nextXmit)
  granted_le : r.granted ≤ r.length
  sent_granted : ∀ e ∈ s.sent id, e.1.offset < r.granted
  sent_priority : ∀ e ∈ s.sent id, (e.2 = .unsched ↔ e.1.offset < r.unscheduled)
  firstNotTx_le : r.firstNotTx ≤ r.nextXmit
  cycles_le : ∀ p ∈ r.packets, cyclesForPacket cfg p.wireBytes ≤ s.maxCycles

def Msgs (cfg : TxConfig) (s : TxSys) : Prop :=
  ∀ id r, s.rpc id = some r → MsgInv cfg s id r

section Message

variable {s s' : TxSys} {id : ℕ} {r : TxRpc}

theorem MsgInv.packets_tiles (h : MsgInv cfg s id r) :
    ∃ c, Tiles TxPacket.offset TxPacket.stop 0 c r.packets ∧
      Tiles TxPacket.offset TxPacket.stop c r.length ((s.planned id).drop r.packets.length) := by
  obtain ⟨rest, hrest⟩ := h.built
  have hplan := h.plan_tiles
  rw [← hrest] at hplan
  obtain ⟨c, hc, hc'⟩ := hplan.of_append
  refine ⟨c, hc, ?_⟩
  rw [← hrest, List.drop_left]
  exact hc'

theorem MsgInv.next_packet (h : MsgInv cfg s id r) {skb : TxPacket}
    (hskb : r.packets[r.nextXmit]? = some skb) :
    skb.offset = r.nextXmitOffset ∧ 0 ≤ r.nextXmitOffset ∧ skb.stop ≤ r.length ∧
      Tiles TxPacket.offset TxPacket.stop 0 skb.stop (r.packets.take (r.nextXmit + 1)) := by
  obtain ⟨c, hc, hrest⟩ := h.packets_tiles
  have htake : r.packets.take (r.nextXmit + 1) = r.packets.take r.nextXmit ++ [skb] := by
    rw [List.take_add_one, hskb]
    rfl
  -- the packets up to this one tile the start of what is built
  have hpre : Tiles TxPacket.offset TxPacket.stop 0 c
      (r.packets.take (r.nextXmit + 1) ++ r.packets.drop (r.nextXmit + 1)) := by
    rw [List.take_append_drop]
    exact hc
  obtain ⟨m, hm, hm'⟩ := hpre.of_append
  rw [htake] at hm
  obtain ⟨m', hsent, hone⟩ := hm.of_append
  have hm'eq : m' = r.nextXmitOffset := hsent.right_unique h.sent_tiles
  obtain ⟨hoff, -, hstop⟩ := hone
  rw [tiles_nil] at hstop
  refine ⟨hoff.trans hm'eq, hm'eq ▸ hsent.le, ?_, ?_⟩
  · rw [hstop]
    exact hm'.le.trans hrest.le
  · rw [htake, hstop]
    exact hm

theorem MsgInv.frame (h : MsgInv cfg s id r) (hplanned : s'.planned id = s.planned id)
    (hsent : s'.sent id = s.sent id) (hmax : s.maxCycles ≤ s'.maxCycles)
    (hbuild : ∀ {t pc rest}, s'.thread t = some pc → pc.toBuild id = some rest →
      ∃ pc₀, s.thread t = some pc₀ ∧ pc₀.toBuild id = some rest) : MsgInv cfg s' id r where
  plan_tiles := hplanned ▸ h.plan_tiles
  length_pos := h.length_pos
  length_le := h.length_le
  built := hplanned ▸ h.built
  building ht hb := by
    obtain ⟨pc₀, ht₀, hb₀⟩ := hbuild ht hb
    rw [hplanned]
    exact h.building ht₀ hb₀
  nextXmit_le := h.nextXmit_le
  sent_eq := hsent ▸ h.sent_eq
  sent_tiles := h.sent_tiles
  granted_le := h.granted_le
  sent_granted := hsent ▸ h.sent_granted
  sent_priority := hsent ▸ h.sent_priority
  firstNotTx_le := h.firstNotTx_le
  cycles_le p hp := (h.cycles_le p hp).trans hmax

theorem MsgInv.of_rpc (h : MsgInv cfg s id r) {r' : TxRpc} (hlength : r'.length = r.length)
    (hunsched : r'.unscheduled = r.unscheduled) (hpackets : r'.packets = r.packets)
    (hnext : r'.nextXmit = r.nextXmit) (hoffset : r'.nextXmitOffset = r.nextXmitOffset)
    (hgranted : r.granted ≤ r'.granted) (hgranted' : r'.granted ≤ r'.length)
    (hfirst : r'.firstNotTx ≤ r'.nextXmit) : MsgInv cfg s id r' where
  plan_tiles := hlength ▸ h.plan_tiles
  length_pos := hlength ▸ h.length_pos
  length_le := hlength ▸ h.length_le
  built := hpackets ▸ h.built
  building ht hb := hpackets ▸ h.building ht hb
  nextXmit_le := hpackets ▸ hnext ▸ h.nextXmit_le
  sent_eq := hpackets ▸ hnext ▸ h.sent_eq
  sent_tiles := hpackets ▸ hnext ▸ hoffset ▸ h.sent_tiles
  granted_le := hgranted'
  sent_granted e he := (h.sent_granted e he).trans_le hgranted
  sent_priority e he := hunsched ▸ h.sent_priority e he
  firstNotTx_le := hfirst
  cycles_le := hpackets ▸ h.cycles_le

theorem MsgInv.sendmsg {t : ℕ} {length unschedBytes : ℤ} {plan : List TxPacket}
    (hw : s.Wf) (hfresh : s.rpc id = none) (hpos : 0 < length) (hmax : length ≤ homaMaxMessageLength)
    (hplan : Tiles TxPacket.offset TxPacket.stop 0 length plan) :
    MsgInv cfg (s.sendmsg t id length unschedBytes plan) id (txRpcInit length unschedBytes s.clock) where
  plan_tiles := by simpa [TxSys.sendmsg, txRpcInit] using hplan
  length_pos := hpos
  length_le := hmax
  built := List.nil_prefix
  building ht hb := by
    -- only the new thread builds the new message
    simp only [TxSys.sendmsg, setThread_thread, Function.update_apply] at ht
    split_ifs at ht with htt
    · cases ht
      simp only [TxPc.toBuild, if_true, Option.some.injEq] at hb
      subst hb
      simp [TxSys.sendmsg, txRpcInit]
    · have hsome := hw.thread_rpc ht (TxPc.rpcId_of_toBuild (by rw [hb]; rfl))
      rw [hfresh] at hsome
      exact absurd hsome Bool.false_ne_true
  nextXmit_le := le_rfl
  sent_eq := by simp [TxSys.sendmsg, txRpcInit, hw.sent_fresh hfresh]
  sent_tiles := rfl
  granted_le := by
    simp only [txRpcInit, homaMessageOutInit]
    split_ifs <;> omega
  sent_granted e he := by simp [TxSys.sendmsg, hw.sent_fresh hfresh] at he
  sent_priority e he := by simp [TxSys.sendmsg, hw.sent_fresh hfresh] at he
  firstNotTx_le := le_rfl
  cycles_le p hp := by simp [txRpcInit] at hp

theorem MsgInv.frame_update {t : ℕ} {o : Option TxPc} (h : MsgInv cfg s id r)
    (hthread : s'.thread = Function.update s.thread t o) (hplanned : s'.planned id = s.planned id)
    (hsent : s'.sent id = s.sent id) (hmax : s.maxCycles ≤ s'.maxCycles)
    (ho : ∀ pc rest, o = some pc → pc.toBuild id = some rest →
      ∃ pc₀, s.thread t = some pc₀ ∧ pc₀.toBuild id = some rest) : MsgInv cfg s' id r := by
  refine h.frame hplanned hsent hmax fun {t' pc rest} ht' hb => ?_
  rcases thread_of_update hthread ht' with ⟨rfl, ho'⟩ | ⟨-, hold⟩
  · exact ho pc rest ho' hb
  · exact ⟨pc, hold, hb⟩

theorem MsgInv.append (h : MsgInv cfg s id r) (hw : s.Wf) {t : ℕ} {skb : TxPacket}
    {rest : List TxPacket} (ht : s.thread t = some (.fill id (skb :: rest))) {pc : TxPc}
    (hpc : pc.toBuild id = some rest) (hthread : s'.thread = Function.update s.thread t (some pc))
    (hplanned : s'.planned = s.planned) (hsent : s'.sent = s.sent)
    (hmax : s'.maxCycles = max s.maxCycles (cyclesForPacket cfg skb.wireBytes)) :
    MsgInv cfg s' id { r with packets := r.packets ++ [skb], firstNotTx := 0 } := by
  have hplan : r.packets ++ skb :: rest = s.planned id := h.building ht (by simp [TxPc.toBuild])
  have htake : (r.packets ++ [skb]).take r.nextXmit = r.packets.take r.nextXmit :=
    List.take_append_of_le_length h.nextXmit_le
  refine
    { plan_tiles := hplanned ▸ h.plan_tiles
      length_pos := h.length_pos
      length_le := h.length_le
      built := ⟨rest, by rw [hplanned, ← hplan, List.append_assoc, List.singleton_append]⟩
      building := fun {t' pc' rest'} ht' hb => ?_
      nextXmit_le := by simp only [List.length_append]; exact h.nextXmit_le.trans (Nat.le_succ _)
      sent_eq := by simp only [hsent, htake]; exact h.sent_eq
      sent_tiles := by simp only [htake]; exact h.sent_tiles
      granted_le := h.granted_le
      sent_granted := hsent ▸ h.sent_granted
      sent_priority := hsent ▸ h.sent_priority
      firstNotTx_le := Nat.zero_le _
      cycles_le := fun p hp => ?_ }
  · -- only `t` builds the message, with `rest` left to build
    rcases thread_of_update hthread ht' with ⟨rfl, ho⟩ | ⟨hne, hold⟩
    · cases ho
      rw [hpc, Option.some.injEq] at hb
      subst hb
      rw [hplanned, ← hplan, List.append_assoc, List.singleton_append]
    · exact absurd (hw.build_unique hold ht (by rw [hb]; rfl) (by simp [TxPc.toBuild])) hne
  · rw [hmax]
    rcases List.mem_append.mp hp with hp | hp
    · exact (h.cycles_le p hp).trans (le_max_left _ _)
    · rw [List.mem_singleton.mp hp]
      exact le_max_right _ _

theorem MsgInv.send (h : MsgInv cfg s id r) {t : ℕ} {o : Option TxPc} {skb : TxPacket}
    (hskb : r.packets[r.nextXmit]? = some skb) (hgrant : r.nextXmitOffset < r.granted)
    (hthread : s'.thread = Function.update s.thread t o) (hplanned : s'.planned id = s.planned id)
    (hsent : s'.sent id = s.sent id ++
      [(skb, if r.nextXmitOffset < r.unscheduled then .unsched else .sched r.schedPriority)])
    (hmax : s.maxCycles ≤ s'.maxCycles)
    (ho : ∀ pc rest, o = some pc → pc.toBuild id = some rest →
      ∃ pc₀, s.thread t = some pc₀ ∧ pc₀.toBuild id = some rest) :
    MsgInv cfg s' id { r with
      nextXmit := r.nextXmit + 1
      nextXmitOffset := wrapInt 32 (r.nextXmitOffset + skb.dataBytes) } := by
  obtain ⟨hoff, hnonneg, hstop, htiles⟩ := h.next_packet hskb
  have hlt : r.nextXmit < r.packets.length := (List.getElem?_eq_some_iff.mp hskb).1
  have htake : r.packets.take (r.nextXmit + 1) = r.packets.take r.nextXmit ++ [skb] := by
    rw [List.take_add_one, hskb]
    rfl
  -- the new offset is the end of the packet: it fits in an `int`
  have hwrap : wrapInt 32 (r.nextXmitOffset + skb.dataBytes) = skb.stop := by
    have hstop0 : 0 ≤ skb.stop := htiles.le
    have hmax' := h.length_le
    unfold homaMaxMessageLength at hmax'
    unfold TxPacket.stop at hstop0 hstop ⊢
    rw [← hoff]
    exact wrapInt_32_of_mem (by omega) (by omega)
  refine
    { plan_tiles := hplanned ▸ h.plan_tiles
      length_pos := h.length_pos
      length_le := h.length_le
      built := hplanned ▸ h.built
      building := fun {t' pc rest} ht' hb => ?_
      nextXmit_le := hlt
      sent_eq := by rw [hsent, List.map_append, h.sent_eq, htake]; rfl
      sent_tiles := by simp only; rw [hwrap]; exact htiles
      granted_le := h.granted_le
      sent_granted := fun e he => ?_
      sent_priority := fun e he => ?_
      firstNotTx_le := h.firstNotTx_le.trans (Nat.le_succ _)
      cycles_le := fun p hp => (h.cycles_le p hp).trans hmax }
  · rw [hplanned]
    rcases thread_of_update hthread ht' with ⟨rfl, ho'⟩ | ⟨-, hold⟩
    · obtain ⟨pc₀, h₀, hb₀⟩ := ho pc rest ho' hb
      exact h.building h₀ hb₀
    · exact h.building hold hb
  · rw [hsent] at he
    rcases List.mem_append.mp he with he | he
    · exact h.sent_granted e he
    · rw [List.mem_singleton.mp he, hoff]
      exact hgrant
  · rw [hsent] at he
    rcases List.mem_append.mp he with he | he
    · exact h.sent_priority e he
    · rw [List.mem_singleton.mp he, hoff]
      dsimp only
      split_ifs with hun
      · exact iff_of_true rfl hun
      · exact iff_of_false (by simp) hun

theorem MsgInv.homaRpcTxEnd_snd_le (h : MsgInv cfg s id r) (held : ℕ → Bool) :
    (homaRpcTxEnd held r).2 ≤ r.nextXmit := by
  unfold homaRpcTxEnd
  have hfirst := h.firstNotTx_le
  cases hskb : r.packets[r.nextXmit]? with
  | none =>
    -- everything built has gone out: the scan can go no further
    have hlen : r.packets.length ≤ r.nextXmit := List.getElem?_eq_none_iff.mp hskb
    rcases txEndScan_cases held r.nextXmitOffset r.length r.firstNotTx (r.packets.drop r.firstNotTx) with
      heq | ⟨k, p, hp, heq⟩ <;> rw [heq]
    · simp only [List.length_drop]
      omega
    · have hk := (List.getElem?_eq_some_iff.mp hp).1
      simp only [List.length_drop] at hk
      dsimp only
      omega
  | some skb =>
    -- the packet at `next_xmit` starts at `next_xmit_offset`: the scan stops there at the latest
    have hoff := (h.next_packet hskb).1
    have hget : (r.packets.drop r.firstNotTx)[r.nextXmit - r.firstNotTx]? = some skb := by
      rw [List.getElem?_drop, Nat.add_sub_cancel' hfirst, hskb]
    have hscan := txEndScan_snd_le_of_getElem held r.nextXmitOffset r.length hget hoff.ge r.firstNotTx
    omega

theorem MsgInv.offset_le (h : MsgInv cfg s id r) {j : ℕ} {p : TxPacket} (hj : j ≤ r.nextXmit)
    (hp : r.packets[j]? = some p) : p.offset ≤ r.nextXmitOffset := by
  rcases hj.lt_or_eq with hj | rfl
  · -- a packet already sent lies inside `[0, next_xmit_offset)`
    have hmem : p ∈ r.packets.take r.nextXmit := by
      rw [List.mem_iff_getElem?]
      exact ⟨j, by rw [List.getElem?_take_of_lt hj, hp]⟩
    exact ((h.sent_tiles.bounded.lo_lt_hi hmem).trans_le (h.sent_tiles.bounded.hi_le hmem)).le
  · exact (h.next_packet hp).1.le

theorem MsgInv.homaRpcTxEnd_fst_le_length (h : MsgInv cfg s id r) (held : ℕ → Bool) :
    (homaRpcTxEnd held r).1 ≤ r.length := by
  unfold homaRpcTxEnd
  rcases txEndScan_cases held r.nextXmitOffset r.length r.firstNotTx (r.packets.drop r.firstNotTx) with
    heq | ⟨k, p, hp, heq⟩
  · rw [heq]
  · -- the scan stops at a packet built, which lies inside the message
    rw [heq]
    have hmem : p ∈ s.planned id := h.built.subset (List.mem_of_mem_drop (List.mem_of_getElem? hp))
    exact ((h.plan_tiles.bounded.lo_lt_hi hmem).trans_le (h.plan_tiles.bounded.hi_le hmem)).le

theorem MsgInv.homaRpcTxEnd_fst_le (h : MsgInv cfg s id r) (hbuilt : r.packets = s.planned id)
    (held : ℕ → Bool) : (homaRpcTxEnd held r).1 ≤ r.nextXmitOffset := by
  have hsnd := h.homaRpcTxEnd_snd_le held
  have hfirst := h.firstNotTx_le
  have hnext := h.nextXmit_le
  unfold homaRpcTxEnd at hsnd ⊢
  rcases txEndScan_cases held r.nextXmitOffset r.length r.firstNotTx (r.packets.drop r.firstNotTx) with
    heq | ⟨k, p, hp, heq⟩ <;> rw [heq] at hsnd ⊢
  · -- the scan ran to the end: the whole message has been sent
    simp only [List.length_drop] at hsnd
    have hall : r.nextXmit = r.packets.length := by omega
    have htiles := h.sent_tiles
    rw [hall, List.take_length, hbuilt] at htiles
    exact (htiles.right_unique h.plan_tiles).ge
  · rw [List.getElem?_drop] at hp
    exact h.offset_le hsnd hp

end Message

/-! ## Every message, region by region -/

section Regions

variable {s s' : TxSys} {t id : ℕ}

variable (id) in
theorem Msgs.update (h : s.Msgs cfg) {o : Option TxPc}
    (hthread : s'.thread = Function.update s.thread t o)
    (hrpc : ∀ x, x ≠ id → s'.rpc x = s.rpc x)
    (hplanned : ∀ x, x ≠ id → s'.planned x = s.planned x)
    (hsent : ∀ x, x ≠ id → s'.sent x = s.sent x) (hmax : s.maxCycles ≤ s'.maxCycles)
    (ho : ∀ pc x rest, o = some pc → pc.toBuild x = some rest →
      x = id ∨ ∃ pc₀, s.thread t = some pc₀ ∧ pc₀.toBuild x = some rest)
    (hid : ∀ r', s'.rpc id = some r' → MsgInv cfg s' id r') : s'.Msgs cfg := by
  intro x r hr
  by_cases hx : x = id
  · subst hx
    exact hid r hr
  · rw [hrpc x hx] at hr
    refine (h x r hr).frame_update hthread (hplanned x hx) (hsent x hx) hmax fun pc rest ho' hb => ?_
    exact (ho pc x rest ho' hb).resolve_left hx

theorem Msgs.frame (h : s.Msgs cfg) {o : Option TxPc}
    (hthread : s'.thread = Function.update s.thread t o) (hrpc : s'.rpc = s.rpc)
    (hplanned : s'.planned = s.planned) (hsent : s'.sent = s.sent) (hmax : s.maxCycles ≤ s'.maxCycles)
    (ho : ∀ pc x rest, o = some pc → pc.toBuild x = some rest →
      ∃ pc₀, s.thread t = some pc₀ ∧ pc₀.toBuild x = some rest) : s'.Msgs cfg := by
  intro x r hr
  rw [hrpc] at hr
  exact (h x r hr).frame_update hthread (by rw [hplanned]) (by rw [hsent]) hmax
    fun pc rest ho' hb => ho pc x rest ho' hb

theorem no_build_none {s : TxSys} {t : ℕ} (pc : TxPc) (x : ℕ) (rest : List TxPacket)
    (ho : (none : Option TxPc) = some pc) (_ : pc.toBuild x = some rest) :
    ∃ pc₀, s.thread t = some pc₀ ∧ pc₀.toBuild x = some rest := by
  cases ho

theorem Msgs.sendmsg (h : s.Msgs cfg) (hw : s.Wf) (hfresh : s.rpc id = none)
    {length unschedBytes : ℤ} {plan : List TxPacket} (hpos : 0 < length)
    (hmax : length ≤ homaMaxMessageLength) (hplan : Tiles TxPacket.offset TxPacket.stop 0 length plan) :
    (s.sendmsg t id length unschedBytes plan).Msgs cfg := by
  refine h.update id rfl (fun x hx => Function.update_of_ne hx _ _) (fun x hx => Function.update_of_ne hx _ _)
    (fun _ _ => rfl) le_rfl (fun pc x rest ho hb => ?_) (fun r' hr' => ?_)
  · cases ho
    exact Or.inl (TxPc.eq_of_toBuild rfl (by rw [hb]; rfl))
  · have hr'' : r' = txRpcInit length unschedBytes s.clock := by
      simpa [TxSys.sendmsg] using hr'.symm
    subst hr''
    exact MsgInv.sendmsg hw hfresh hpos hmax hplan

theorem Msgs.fillStep (h : s.Msgs cfg) (hw : s.Wf) {rest : List TxPacket}
    (ht : s.thread t = some (.fill id rest)) (allocOk : Bool) :
    (s.fillStep cfg t id allocOk rest).Msgs cfg := by
  rcases @fillStep_cases cfg s t id allocOk rest with
    ⟨-, heq⟩ | ⟨skb, rest', -, -, heq⟩ | ⟨skb, rest', r, -, hr, -, heq⟩ |
      ⟨skb, rest', r, rfl, hr, -, -, heq⟩ <;> rw [heq]
  · exact h.frame rfl rfl rfl rfl le_rfl fun pc x rest ho hb => by cases ho; simp [TxPc.toBuild] at hb
  · exact h.frame rfl rfl rfl rfl le_rfl no_build_none
  · -- the fill fails and the RPC ends
    refine h.update id (t := t) (o := none) (by simp) (fun x hx => by simp [rpcEnd_rpc, Function.update_of_ne hx])
      (fun x _ => by simp) (fun x _ => by simp) (by simp) (fun pc x rest ho _ => by cases ho) ?_
    intro r' hr'
    simp only [setThread_rpc, rpcEnd_rpc, Function.update_self] at hr'
    rw [hr] at hr'
    simp only [Option.map_some, Option.some.injEq] at hr'
    subst hr'
    refine ((h id r hr).frame_update (t := t) (o := none) (by simp) (by simp) (by simp) (by simp)
      fun pc rest ho _ => by cases ho).of_rpc rfl rfl rfl rfl rfl le_rfl (h id r hr).granted_le (h id r hr).firstNotTx_le
  · -- a packet is appended
    refine h.update id rfl (fun x hx => Function.update_of_ne hx _ _) (fun _ _ => rfl) (fun _ _ => rfl)
      (le_max_left _ _) (fun pc x rest ho hb => Or.inl ?_) (fun r' hr' => ?_)
    · cases ho
      split_ifs at hb <;> exact TxPc.eq_of_toBuild rfl (by rw [hb]; rfl)
    · simp only [setThread_rpc, setRpc_rpc, Function.update_self, Option.some.injEq] at hr'
      subst hr'
      exact (h id r hr).append hw ht (by split_ifs <;> simp [TxPc.toBuild]) rfl rfl rfl rfl

theorem Msgs.xmitStep (h : s.Msgs cfg) {force : Bool} {ret : XmitReturn}
    (ht : s.thread t = some (.xmit id force ret)) : (s.xmitStep cfg t id force ret).Msgs cfg := by
  -- the thread goes on with what it had to build
  have hsame : ∀ (pc : TxPc) x rest, some (TxPc.xmit id false ret) = some pc → pc.toBuild x = some rest →
      ∃ pc₀, s.thread t = some pc₀ ∧ pc₀.toBuild x = some rest := by
    intro pc x rest ho hb
    cases ho
    exact ⟨_, ht, by cases ret <;> exact hb⟩
  rcases @xmitStep_cases cfg s t id force ret with
    ⟨-, heq⟩ | ⟨r, r', p, skb, prio, hr, hb, heq⟩ | ⟨r, p, hr, -, heq⟩ <;> rw [heq]
  · exact h.frame rfl rfl rfl rfl le_rfl no_build_none
  · obtain ⟨hskb, -, hgrant, rfl, -, rfl⟩ := homaXmitDataBody_send hb
    refine h.update id rfl (fun x hx => Function.update_of_ne hx _ _) (fun _ _ => rfl)
      (fun x hx => Function.update_of_ne hx _ _) le_rfl
      (fun pc x rest ho hb => Or.inr (hsame pc x rest ho hb)) (fun r'' hr'' => ?_)
    simp only [setThread_rpc, setRpc_rpc, Function.update_self, Option.some.injEq] at hr''
    subst hr''
    exact (h id r hr).send hskb hgrant rfl rfl (by simp) le_rfl
      (fun pc rest ho hb => hsame pc id rest ho hb)
  · -- the loop ends; the RPC is as it was
    cases ret with
    | leave => exact h.frame rfl rfl rfl rfl le_rfl no_build_none
    | fill rest =>
      exact h.frame rfl rfl rfl rfl le_rfl fun pc x rest' ho hb => by
        cases ho
        exact ⟨_, ht, hb⟩
    | pacer =>
      rw [xmitReturn_pacer]
      exact h.frame rfl rfl rfl rfl le_rfl fun pc x rest ho hb => by cases ho; simp [TxPc.toBuild] at hb

theorem Msgs.pacerTopStep (h : s.Msgs cfg) : (s.pacerTopStep cfg t).Msgs cfg := by
  rcases pacerTopStep_cases cfg (s := s) (t := t) with ⟨-, heq⟩ | ⟨-, -, heq⟩ <;> rw [heq]
  · exact h.frame rfl rfl rfl rfl le_rfl no_build_none
  · exact h.frame rfl rfl rfl rfl le_rfl fun pc x rest ho hb => by cases ho; simp [TxPc.toBuild] at hb

theorem Msgs.pacerSelectStep (h : s.Msgs cfg) : (s.pacerSelectStep cfg t).Msgs cfg := by
  rw [pacerSelectStep_eq]
  dsimp only
  split
  · exact h.frame rfl rfl rfl rfl le_rfl no_build_none
  · exact h.frame rfl rfl rfl rfl le_rfl fun pc x rest ho hb => by cases ho; simp [TxPc.toBuild] at hb

theorem Msgs.setRpc (h : s.Msgs cfg) {r r' : TxRpc} (hr : s.rpc id = some r)
    (hthread : s'.thread = s.thread ∨ s'.thread = Function.update s.thread t (some (.xmit id false .leave)))
    (hrpc : s'.rpc = Function.update s.rpc id (some r')) (hplanned : s'.planned = s.planned)
    (hsent : s'.sent = s.sent) (hmax : s'.maxCycles = s.maxCycles)
    (hr' : MsgInv cfg s id r → MsgInv cfg s id r') : s'.Msgs cfg := by
  -- what thread `t` does after the step, it builds nothing new
  obtain ⟨o, hth, ho⟩ : ∃ o : Option TxPc, s'.thread = Function.update s.thread t o ∧
      ∀ pc x rest, o = some pc → pc.toBuild x = some rest →
        ∃ pc₀, s.thread t = some pc₀ ∧ pc₀.toBuild x = some rest := by
    rcases hthread with hth | hth
    · exact ⟨s.thread t, by rw [hth, Function.update_eq_self], fun pc x rest ho hb => ⟨pc, ho, hb⟩⟩
    · exact ⟨_, hth, fun pc x rest ho hb => by cases ho; simp [TxPc.toBuild] at hb⟩
  refine h.update id hth (fun x hx => by rw [hrpc, Function.update_of_ne hx]) (fun _ _ => by rw [hplanned])
    (fun _ _ => by rw [hsent]) hmax.ge (fun pc x rest ho' hb => Or.inr (ho pc x rest ho' hb)) ?_
  intro r'' hr''
  rw [hrpc, Function.update_self, Option.some.injEq] at hr''
  subst hr''
  exact (hr' (h id r hr)).frame_update hth (by rw [hplanned]) (by rw [hsent]) hmax.ge
    fun pc rest ho' hb => ho pc id rest ho' hb

theorem Msgs.grantPkt (h : s.Msgs cfg) {r : TxRpc} (hr : s.rpc id = some r) (offset : ℤ) (priority : ℕ) :
    (s.grantPkt t id offset priority).Msgs cfg := by
  obtain ⟨g, q, hg⟩ := @homaGrantPktUpdate_eq r offset priority
  have hinv : MsgInv cfg s id r → MsgInv cfg s id (homaGrantPktUpdate offset priority r) := by
    intro hm
    obtain ⟨hup, hle⟩ := homaGrantPktUpdate_granted offset priority hm.granted_le
    rw [hg] at hup hle ⊢
    exact hm.of_rpc rfl rfl rfl rfl rfl hup hle hm.firstNotTx_le
  rcases grantPkt_cases hr offset priority (t := t) with ⟨-, heq⟩ | ⟨-, heq⟩ <;> rw [heq]
  · exact h.setRpc hr (Or.inr rfl) rfl rfl rfl rfl hinv
  · exact h

theorem Msgs.resendData (h : s.Msgs cfg) (id : ℕ) (segs : List TxPacket) :
    (s.resendData cfg id segs).Msgs cfg :=
  h.frame (t := 0) (o := s.thread 0) (by simp) (by simp) (by simp) (by simp) (by simp)
    fun pc _ _ ho hb => ⟨pc, ho, hb⟩

theorem Msgs.resendPkt (h : s.Msgs cfg) {r : TxRpc} (hr : s.rpc id = some r)
    (offset length : ℤ) (held : ℕ → Bool) (segs : List TxPacket) :
    (s.resendPkt cfg t id offset length held segs).Msgs cfg := by
  obtain ⟨l, hcases⟩ := resendPkt_forced cfg hr offset length held segs (t := t)
  have h₀ := h.resendData id l
  have hr₀ : (s.resendData cfg id l).rpc id = some r := by simpa using hr
  have hinv₁ : MsgInv cfg (s.resendData cfg id l) id r →
      MsgInv cfg (s.resendData cfg id l) id { r with firstNotTx := (homaRpcTxEnd held r).2 } :=
    fun hm => hm.of_rpc rfl rfl rfl rfl rfl le_rfl hm.granted_le (hm.homaRpcTxEnd_snd_le held)
  rcases hcases with heq | ⟨stop, -, heq⟩ <;> rw [heq]
  · exact h₀.setRpc (t := t) hr₀ (Or.inl rfl) rfl rfl rfl rfl hinv₁
  · obtain ⟨g, hg⟩ := @homaResendGrant_eq ({ r with firstNotTx := (homaRpcTxEnd held r).2 }) stop
    refine h₀.setRpc hr₀ (Or.inr rfl) rfl rfl rfl rfl fun hm => ?_
    have hm₁ := hinv₁ hm
    obtain ⟨hup, hle⟩ := homaResendGrant_granted stop hm₁.granted_le
    rw [hg] at hup hle ⊢
    exact hm₁.of_rpc rfl rfl rfl rfl rfl hup hle hm₁.firstNotTx_le

theorem Msgs.rpcEnd (h : s.Msgs cfg) (id : ℕ) : (s.rpcEnd id).Msgs cfg := by
  rcases rpcEnd_cases s id with heq | ⟨r, hr, -, heq⟩ <;> rw [heq]
  · exact h
  · exact h.setRpc (t := 0) hr (Or.inl rfl) rfl rfl rfl rfl fun hm =>
      hm.of_rpc rfl rfl rfl rfl rfl le_rfl hm.granted_le hm.firstNotTx_le

end Regions

/-! ## Every run -/

section Runs

variable {s s' : TxSys}

theorem Init.msgs (h : s.Init) : s.Msgs cfg := fun id r hr => by
  rw [h.rpc_eq] at hr
  cases hr

theorem Step.msgs (h : s.Msgs cfg) (hw : s.Wf) (hs : Step cfg s s') : s'.Msgs cfg := by
  cases hs with
  | sendmsg hthread hfresh hpos hmax hplan => exact h.sendmsg hw hfresh hpos hmax hplan
  | run allocOk ht =>
    rename_i t pc
    cases pc with
    | fill id rest => exact h.fillStep hw ht allocOk
    | xmit id force ret => exact h.xmitStep ht
    | pacerTop => exact h.pacerTopStep
    | pacerSelect => exact h.pacerSelectStep
  | grant offset priority hthread hrpc => exact h.grantPkt hrpc offset priority
  | resend offset length held segs hthread hrpc => exact h.resendPkt hrpc offset length held segs
  | rpcEnd id => exact h.rpcEnd id
  | response hrpc hclient hout =>
    exact h.setRpc (t := 0) hrpc (Or.inl rfl) rfl rfl rfl rfl fun hm =>
      hm.of_rpc rfl rfl rfl rfl rfl le_rfl hm.granted_le hm.firstNotTx_le
  | pacerXmit =>
    rename_i t _
    rcases pacerXmit_cases (s := s) (t := t) with ⟨-, heq⟩ | ⟨-, heq⟩ <;> rw [heq]
    · exact h
    · exact h.frame rfl rfl rfl rfl le_rfl fun pc x rest ho hb => by cases ho; simp [TxPc.toBuild] at hb
  | tick d =>
    exact h.frame (t := 0) (o := s.thread 0) (by rw [Function.update_eq_self]) rfl rfl rfl le_rfl
      fun pc x rest ho hb => ⟨pc, ho, hb⟩

theorem Reachable.msgs (h : Reachable cfg s) : s.Msgs cfg := by
  induction h with
  | init hi => exact hi.msgs
  | step hr hs ih => exact hs.msgs ih hr.wf_throttleInv.1

end Runs

/-! ## Retransmissions -/

/-- Every segment `homa_resend_data` has sent for an RPC starts below its
`granted`; no segment is logged for an id without an RPC. -/
structure ResentInv (s : TxSys) : Prop where
  fresh : ∀ id, s.rpc id = none → s.resent id = []
  granted : ∀ id r, s.rpc id = some r → ∀ seg ∈ s.resent id, seg.offset < r.granted

section Resent

variable {s s' : TxSys} {t id : ℕ}

theorem ResentInv.update (h : s.ResentInv) (id : ℕ) {r' : TxRpc} {l : List TxPacket}
    (hresent : s'.resent = Function.update s.resent id (s.resent id ++ l))
    (hrpc : s'.rpc = Function.update s.rpc id (some r'))
    (hid : ∀ seg ∈ s.resent id ++ l, seg.offset < r'.granted) : s'.ResentInv where
  fresh x hx := by
    have hne : x ≠ id := by
      rintro rfl
      simp [hrpc] at hx
    rw [hrpc, Function.update_of_ne hne] at hx
    rw [hresent, Function.update_of_ne hne]
    exact h.fresh x hx
  granted x q hq seg hseg := by
    rw [hrpc] at hq
    rw [hresent] at hseg
    by_cases hx : x = id
    · subst hx
      rw [Function.update_self, Option.some.injEq] at hq
      subst hq
      rw [Function.update_self] at hseg
      exact hid seg hseg
    · rw [Function.update_of_ne hx] at hq hseg
      exact h.granted x q hq seg hseg

theorem ResentInv.setRpc (h : s.ResentInv) {r r' : TxRpc} (hr : s.rpc id = some r)
    (hrpc : s'.rpc = Function.update s.rpc id (some r')) (hresent : s'.resent = s.resent)
    (hg : r.granted ≤ r'.granted) : s'.ResentInv :=
  h.update id (l := []) (by rw [hresent, List.append_nil, Function.update_eq_self]) hrpc
    fun seg hseg => (h.granted id r hr seg (by simpa using hseg)).trans_le hg

theorem ResentInv.keep (h : s.ResentInv) (hresent : s'.resent = s.resent) (hrpc : s'.rpc = s.rpc) :
    s'.ResentInv where
  fresh x hx := by
    rw [hrpc] at hx
    rw [hresent]
    exact h.fresh x hx
  granted x r hr := by
    rw [hrpc] at hr
    rw [hresent]
    exact h.granted x r hr

theorem ResentInv.sendmsg (h : s.ResentInv) (hfresh : s.rpc id = none) (length unschedBytes : ℤ)
    (plan : List TxPacket) : (s.sendmsg t id length unschedBytes plan).ResentInv :=
  h.update id (l := []) (by simp [TxSys.sendmsg]) rfl fun seg hseg => by
    rw [h.fresh id hfresh] at hseg
    cases hseg

theorem ResentInv.rpcEnd (h : s.ResentInv) (id : ℕ) : (s.rpcEnd id).ResentInv := by
  rcases rpcEnd_cases s id with heq | ⟨r, hr, -, heq⟩ <;> rw [heq]
  · exact h
  · exact h.setRpc hr rfl rfl le_rfl

theorem ResentInv.fillStep (h : s.ResentInv) (allocOk : Bool) (rest : List TxPacket) :
    (s.fillStep cfg t id allocOk rest).ResentInv := by
  rcases @fillStep_cases cfg s t id allocOk rest with
    ⟨-, heq⟩ | ⟨-, -, -, -, heq⟩ | ⟨-, -, r, -, -, -, heq⟩ | ⟨skb, rest', r, -, hr, -, -, heq⟩ <;> rw [heq]
  · exact h.keep rfl rfl
  · exact h.keep rfl rfl
  · exact (h.rpcEnd id).keep rfl rfl
  · exact h.setRpc hr rfl rfl le_rfl

theorem ResentInv.xmitStep (h : s.ResentInv) (force : Bool) (ret : XmitReturn) :
    (s.xmitStep cfg t id force ret).ResentInv := by
  rcases @xmitStep_cases cfg s t id force ret with
    ⟨-, heq⟩ | ⟨r, r', p, skb, prio, hr, hb, heq⟩ | ⟨r, p, -, -, heq⟩ <;> rw [heq]
  · exact h.keep rfl rfl
  · obtain ⟨-, -, -, rfl, -, -⟩ := homaXmitDataBody_send hb
    exact h.setRpc hr rfl rfl le_rfl
  · cases ret with
    | leave => exact h.keep rfl rfl
    | fill rest => exact h.keep rfl rfl
    | pacer =>
      rw [xmitReturn_pacer]
      exact h.keep rfl rfl

theorem ResentInv.resendPkt (h : s.ResentInv) (hm : s.Msgs cfg) {r : TxRpc} (hr : s.rpc id = some r)
    (offset length : ℤ) (held : ℕ → Bool) {segs : List TxPacket}
    (hsegs : ∀ seg ∈ segs, seg.offset <
      min (homaResendEnd offset length (homaRpcTxEnd held r).1) (homaRpcTxEnd held r).1) :
    (s.resendPkt cfg t id offset length held segs).ResentInv := by
  have hend := (hm id r hr).homaRpcTxEnd_fst_le_length held
  have hold : ∀ seg ∈ s.resent id, seg.offset < r.granted := h.granted id r hr
  rcases resendPkt_cases cfg hr offset length held segs (t := t) with heq | ⟨hle, heq⟩ | ⟨hmore, heq⟩ <;>
    rw [heq]
  · exact h.setRpc hr rfl rfl le_rfl
  · refine h.update id (l := segs) (by simp [resendData_resent]) (by rw [setRpc_rpc, resendData_rpc])
      fun seg hseg => ?_
    rcases List.mem_append.mp hseg with hseg | hseg
    · exact hold seg hseg
    · have := lt_min_iff.mp (hsegs seg hseg)
      exact this.1.trans_le hle
  · -- the range ends past `granted`: the raise covers every segment sent
    refine h.update id (l := segs) (by simp [resendData_resent])
      (by rw [setThread_rpc, setRpc_rpc, resendData_rpc]) fun seg hseg => ?_
    have hraise : r.granted ≤ (homaResendGrant (homaResendEnd offset length (homaRpcTxEnd held r).1)
        { r with firstNotTx := (homaRpcTxEnd held r).2 }).granted :=
      (@homaResendGrant_granted { r with firstNotTx := (homaRpcTxEnd held r).2 } _ (hm id r hr).granted_le).1
    rcases List.mem_append.mp hseg with hseg | hseg
    · exact (hold seg hseg).trans_le hraise
    · have := lt_min_iff.mp (hsegs seg hseg)
      exact lt_homaResendGrant_granted hmore this.1 (this.2.trans_le hend)

theorem ResentInv.grantPkt (h : s.ResentInv) (hm : s.Msgs cfg) {r : TxRpc} (hr : s.rpc id = some r)
    (offset : ℤ) (priority : ℕ) : (s.grantPkt t id offset priority).ResentInv := by
  rcases grantPkt_cases hr offset priority (t := t) with ⟨-, heq⟩ | ⟨-, heq⟩ <;> rw [heq]
  · exact h.setRpc hr rfl rfl (homaGrantPktUpdate_granted offset priority (hm id r hr).granted_le).1
  · exact h

theorem Init.resentInv (h : s.Init) : s.ResentInv where
  fresh id _ := h.resent_eq id
  granted id r hr := by
    rw [h.rpc_eq] at hr
    cases hr

theorem Step.resentInv (h : s.ResentInv) (hm : s.Msgs cfg) (hs : Step cfg s s') : s'.ResentInv := by
  cases hs with
  | sendmsg hthread hfresh => exact h.sendmsg hfresh _ _ _
  | run allocOk ht =>
    rename_i t pc
    cases pc with
    | fill id rest => exact h.fillStep allocOk rest
    | xmit id force ret => exact h.xmitStep force ret
    | pacerTop =>
      show (s.pacerTopStep cfg t).ResentInv
      rcases pacerTopStep_cases cfg (s := s) (t := t) with ⟨-, heq⟩ | ⟨-, -, heq⟩ <;> rw [heq] <;>
        exact h.keep rfl rfl
    | pacerSelect =>
      show (s.pacerSelectStep cfg t).ResentInv
      rw [pacerSelectStep_eq]
      dsimp only
      split <;> exact h.keep rfl rfl
  | grant offset priority hthread hrpc => exact h.grantPkt hm hrpc offset priority
  | resend offset length held segs hthread hrpc hlive hsegs =>
    refine h.resendPkt hm hrpc offset length held fun seg hseg => ?_
    obtain ⟨p, -, -, -, -, -, hlt⟩ := hsegs seg hseg
    exact hlt
  | rpcEnd id => exact h.rpcEnd id
  | response hrpc => exact h.setRpc hrpc rfl rfl le_rfl
  | pacerXmit =>
    rename_i t _
    rcases pacerXmit_cases (s := s) (t := t) with ⟨-, heq⟩ | ⟨-, heq⟩ <;> rw [heq]
    · exact h
    · exact h.keep rfl rfl
  | tick d => exact h.keep rfl rfl

theorem Reachable.resentInv (h : Reachable cfg s) : s.ResentInv := by
  induction h with
  | init hi => exact hi.resentInv
  | step hr hs ih => exact hs.resentInv ih hr.msgs

end Resent

/-! ## What every run keeps of every message -/

/-- For every RPC, what `homa_xmit_data` has handed to the IP stack is, in
order and each once, the first packets of the message as
`homa_message_out_fill` cut it (packets that tile the message), and it
covers exactly `[0, next_xmit_offset)`. -/
theorem homaXmitData_sends_in_order {s : TxSys} {id : ℕ} {r : TxRpc} (h : Reachable cfg s)
    (hr : s.rpc id = some r) :
    Tiles TxPacket.offset TxPacket.stop 0 r.length (s.planned id) ∧
      (s.sent id).map Prod.fst <+: s.planned id ∧
      Tiles TxPacket.offset TxPacket.stop 0 r.nextXmitOffset ((s.sent id).map Prod.fst) := by
  have hm := h.msgs id r hr
  rw [hm.sent_eq]
  exact ⟨hm.plan_tiles, (List.take_prefix _ _).trans hm.built, hm.sent_tiles⟩

/-! ### A run that paces a message -/

section PacedRun

-- the threads' next regions are read off states whose offsets are `wrapInt` sums
attribute [local semireducible] wrapInt

/-- A link whose queue may be 2000 cycles long and a packet of 1100 bytes
on the wire that takes 2200 cycles. -/
def pacedCfg : TxConfig :=
  { maxNicQueueCycles := 2000, fifoFraction := 50, cyclesPerMbyte := 2000000, deferMinBytes := 1000
    dontThrottle := false, qdiscActive := false }

/-- A message of 3000 bytes cut into three packets. -/
def pacedPlan : List TxPacket := [⟨0, 1000, 1100⟩, ⟨1000, 1000, 1100⟩, ⟨2000, 1000, 1100⟩]

theorem pacedPlan_tiles : Tiles TxPacket.offset TxPacket.stop 0 3000 pacedPlan := by
  simp [pacedPlan, TxPacket.stop]

/-- The client RPC 2 sends the message with 1000 bytes unscheduled: the
first packet goes out as it is built, and when a GRANT for the rest comes
the queue is too long, so the RPC is throttled. -/
def pacedThrottled : TxSys :=
  (init 0).sendmsg 0 2 3000 1000 pacedPlan
    |>.runThread pacedCfg 0 (.fill 2 pacedPlan) true
    |>.runThread pacedCfg 0 (.xmit 2 false (.fill pacedPlan.tail)) true
    |>.runThread pacedCfg 0 (.xmit 2 false (.fill pacedPlan.tail)) true
    |>.runThread pacedCfg 0 (.fill 2 pacedPlan.tail) true
    |>.runThread pacedCfg 0 (.fill 2 (pacedPlan.drop 2)) true
    |>.runThread pacedCfg 0 (.fill 2 []) true
    |>.runThread pacedCfg 0 (.xmit 2 false .leave) true
    |>.grantPkt 1 2 3000 0
    |>.runThread pacedCfg 1 (.xmit 2 false .leave) true

theorem pacedThrottled_reachable : Reachable pacedCfg pacedThrottled :=
  Reachable.init (init_init 0)
    |>.step (@Step.sendmsg pacedCfg _ 0 2 3000 1000 pacedPlan rfl rfl (by decide) (by decide) pacedPlan_tiles)
    |>.step (@Step.run pacedCfg _ 0 _ true rfl)
    |>.step (@Step.run pacedCfg _ 0 _ true rfl)
    |>.step (@Step.run pacedCfg _ 0 _ true rfl)
    |>.step (@Step.run pacedCfg _ 0 _ true rfl)
    |>.step (@Step.run pacedCfg _ 0 _ true rfl)
    |>.step (@Step.run pacedCfg _ 0 _ true rfl)
    |>.step (@Step.run pacedCfg _ 0 _ true rfl)
    |>.step (@Step.grant pacedCfg _ 1 2 _ 3000 0 rfl rfl (by decide))
    |>.step (@Step.run pacedCfg _ 1 _ true rfl)

/-- A tick later the pacer finds the queue short, chooses the RPC and forces
the second packet out; two RESENDs for the first packet then have it forced
out twice more. -/
def pacedRun : TxSys :=
  { pacedThrottled.pacerXmit 2 with clock := 1000 }
    |>.runThread pacedCfg 2 .pacerTop true
    |>.runThread pacedCfg 2 .pacerSelect true
    |>.runThread pacedCfg 2 (.xmit 2 true .pacer) true
    |>.resendPkt pacedCfg 3 2 0 1000 (fun _ => false) [⟨0, 1000, 1100⟩]
    |>.resendPkt pacedCfg 3 2 0 1000 (fun _ => false) [⟨0, 1000, 1100⟩]

theorem pacedRun_reachable : Reachable pacedCfg pacedRun :=
  pacedThrottled_reachable
    |>.step (@Step.pacerXmit pacedCfg _ 2 rfl)
    |>.step (.tick 1000)
    |>.step (@Step.run pacedCfg _ 2 _ true rfl)
    |>.step (@Step.run pacedCfg _ 2 _ true rfl)
    |>.step (@Step.run pacedCfg _ 2 _ true rfl)
    |>.step (@Step.resend pacedCfg _ 3 2 _ 0 1000 (fun _ => false) [⟨0, 1000, 1100⟩] rfl rfl
      (by decide) (by decide))
    |>.step (@Step.resend pacedCfg _ 3 2 _ 0 1000 (fun _ => false) [⟨0, 1000, 1100⟩] rfl rfl
      (by decide) (by decide))

end PacedRun

/-- The RPC at the end of the run: two packets sent, the message built. -/
def pacedRpc : TxRpc :=
  { state := .outgoing, length := 3000, unscheduled := 1000, granted := 3000, schedPriority := 0
    packets := pacedPlan, nextXmit := 2, nextXmitOffset := 2000, firstNotTx := 2, initTime := 0 }

theorem pacedRun_rpc : pacedRun.rpc 2 = some pacedRpc := by decide +kernel

theorem homaXmitData_sends_in_order_pacedRun :
    (pacedRun.sent 2).length = 2 ∧
      Tiles TxPacket.offset TxPacket.stop 0 pacedRpc.length (pacedRun.planned 2) ∧
      (pacedRun.sent 2).map Prod.fst <+: pacedRun.planned 2 ∧
      Tiles TxPacket.offset TxPacket.stop 0 pacedRpc.nextXmitOffset ((pacedRun.sent 2).map Prod.fst) :=
  ⟨by decide +kernel, homaXmitData_sends_in_order pacedRun_reachable pacedRun_rpc⟩

/-- Every packet `homa_xmit_data` hands to the IP stack starts below
`granted`, which never passes the message length, and goes at the
unscheduled priority exactly when it starts below the unscheduled bytes;
every segment `homa_resend_data` retransmits starts below `granted` too. -/
theorem homaXmitData_within_grant {s : TxSys} {id : ℕ} {r : TxRpc} (h : Reachable cfg s)
    (hr : s.rpc id = some r) :
    r.granted ≤ r.length ∧
      (∀ e ∈ s.sent id, e.1.offset < r.granted ∧ (e.2 = .unsched ↔ e.1.offset < r.unscheduled)) ∧
      ∀ seg ∈ s.resent id, seg.offset < r.granted := by
  have hm := h.msgs id r hr
  exact ⟨hm.granted_le, fun e he => ⟨hm.sent_granted e he, hm.sent_priority e he⟩,
    h.resentInv.granted id r hr⟩

theorem homaXmitData_within_grant_pacedRun :
    (pacedRun.sent 2).length = 2 ∧ (pacedRun.resent 2).length = 2 ∧
      pacedRpc.granted ≤ pacedRpc.length ∧
      (∀ e ∈ pacedRun.sent 2, e.1.offset < pacedRpc.granted ∧
        (e.2 = .unsched ↔ e.1.offset < pacedRpc.unscheduled)) ∧
      ∀ seg ∈ pacedRun.resent 2, seg.offset < pacedRpc.granted :=
  ⟨by decide +kernel, by decide +kernel, homaXmitData_within_grant pacedRun_reachable pacedRun_rpc⟩

/-- `homa_rpc_tx_end` moves `first_not_tx` only over packets already passed
to the IP stack, and of a message built in full it reports no byte as
passed that `homa_xmit_data` has not passed. -/
theorem homaRpcTxEnd_within_sent {s : TxSys} {id : ℕ} {r : TxRpc} (h : Reachable cfg s)
    (hr : s.rpc id = some r) (held : ℕ → Bool) :
    (homaRpcTxEnd held r).2 ≤ r.nextXmit ∧
      (r.packets = s.planned id → (homaRpcTxEnd held r).1 ≤ r.nextXmitOffset) := by
  have hm := h.msgs id r hr
  exact ⟨hm.homaRpcTxEnd_snd_le held, fun hbuilt => hm.homaRpcTxEnd_fst_le hbuilt held⟩

theorem homaRpcTxEnd_within_sent_pacedRun :
    homaRpcTxEnd (fun _ => false) pacedRpc = (2000, 2) ∧ pacedRpc.packets = pacedRun.planned 2 ∧
      (homaRpcTxEnd (fun _ => false) pacedRpc).2 ≤ pacedRpc.nextXmit ∧
      (pacedRpc.packets = pacedRun.planned 2 →
        (homaRpcTxEnd (fun _ => false) pacedRpc).1 ≤ pacedRpc.nextXmitOffset) :=
  ⟨by decide +kernel, by decide +kernel, homaRpcTxEnd_within_sent pacedRun_reachable pacedRun_rpc _⟩

end TxSys

end Homa
