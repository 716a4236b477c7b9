import Homa.TxMessages

/-!
# What the pacer guarantees

Over every run of `TxSys`: the NIC queue stays within `max_nic_queue_cycles`
but for two packets' time; an RPC with a packet it may send is on the
throttled list or a thread works on it; the pacer's FIFO choices are
`fifo_fraction / 1000` of its choices to within one; and one thread at a
time runs `homa_pacer_xmit`.
-/

namespace Homa

open IntervalList MachineArith

namespace TxSys

variable {cfg : TxConfig}

/-! ## The NIC queue -/

/-- `link_idle_time` stays within `max_nic_queue_cycles` of the clock but for
two packets' time and the time of the segments `homa_resend_data` forced
out, and for one packet less while the pacer, having found the queue short,
has yet to force a packet out. -/
structure NicInv (cfg : TxConfig) (s : TxSys) : Prop where
  idle_le : (s.pacer.linkIdleTime : ℤ) ≤
    s.clock + cfg.maxNicQueueCycles + 2 * s.maxCycles + s.resentCycles
  pending_le : ∀ {t pc}, s.thread t = some pc → pc.pacerPending = true →
    (s.pacer.linkIdleTime : ℤ) ≤ s.clock + cfg.maxNicQueueCycles + s.maxCycles + s.resentCycles

section Nic

variable {s s' : TxSys} {t : ℕ}

theorem NicInv.frame (h : NicInv cfg s) (hidle : s'.pacer.linkIdleTime = s.pacer.linkIdleTime)
    (hclock : s.clock ≤ s'.clock) (hmax : s.maxCycles ≤ s'.maxCycles)
    (hres : s.resentCycles ≤ s'.resentCycles)
    (hpend : ∀ {t pc}, s'.thread t = some pc → pc.pacerPending = true →
      (∃ pc₀, s.thread t = some pc₀ ∧ pc₀.pacerPending = true) ∨
        (s'.pacer.linkIdleTime : ℤ) ≤
          s'.clock + cfg.maxNicQueueCycles + s'.maxCycles + s'.resentCycles) : NicInv cfg s' where
  idle_le := by
    have := h.idle_le
    rw [hidle]
    omega
  pending_le ht hp := by
    rcases hpend ht hp with ⟨pc₀, ht₀, hp₀⟩ | hle
    · have := h.pending_le ht₀ hp₀
      rw [hidle]
      omega
    · exact hle

theorem pending_of_update {o : Option TxPc} (hthread : s'.thread = Function.update s.thread t o)
    (ho : ∀ pc, o = some pc → pc.pacerPending = true → ∃ pc₀, s.thread t = some pc₀ ∧ pc₀.pacerPending = true)
    {t' : ℕ} {pc : TxPc} (ht' : s'.thread t' = some pc) (hp : pc.pacerPending = true) :
    ∃ pc₀, s.thread t' = some pc₀ ∧ pc₀.pacerPending = true := by
  rcases thread_of_update hthread ht' with ⟨rfl, ho'⟩ | ⟨-, hold⟩
  · exact ho pc ho' hp
  · exact ⟨pc, hold, hp⟩

theorem not_pending {o : Option TxPc} (ho : ∀ pc, o = some pc → pc.pacerPending = false) :
    ∀ pc, o = some pc → pc.pacerPending = true → ∃ pc₀, s.thread t = some pc₀ ∧ pc₀.pacerPending = true :=
  fun pc hpc hp => absurd hp (by rw [ho pc hpc]; exact Bool.false_ne_true)

theorem NicInv.update (h : NicInv cfg s) {o : Option TxPc}
    (hthread : s'.thread = Function.update s.thread t o)
    (hidle : s'.pacer.linkIdleTime = s.pacer.linkIdleTime) (hclock : s'.clock = s.clock)
    (hmax : s.maxCycles ≤ s'.maxCycles) (hres : s'.resentCycles = s.resentCycles)
    (ho : ∀ pc, o = some pc → pc.pacerPending = true → ∃ pc₀, s.thread t = some pc₀ ∧ pc₀.pacerPending = true) :
    NicInv cfg s' :=
  h.frame hidle hclock.ge hmax hres.ge fun ht hp => Or.inl (pending_of_update hthread ho ht hp)

theorem NicInv.fillStep (h : NicInv cfg s) {id : ℕ} (allocOk : Bool) (rest : List TxPacket) :
    NicInv cfg (s.fillStep cfg t id allocOk rest) := by
  rcases @fillStep_cases cfg s t id allocOk rest with
    ⟨-, heq⟩ | ⟨-, -, -, -, heq⟩ | ⟨-, -, r, -, -, -, heq⟩ | ⟨skb, rest', r, -, -, -, -, heq⟩ <;>
    rw [heq]
  · exact h.update rfl rfl rfl le_rfl rfl (not_pending fun pc ho => by cases ho; rfl)
  · exact h.update rfl rfl rfl le_rfl rfl (not_pending fun pc ho => by cases ho)
  · exact h.update (t := t) (o := none) (by simp) (by simp) (by simp) (by simp) (by simp)
      (not_pending fun pc ho => by cases ho)
  · exact h.update rfl rfl rfl (le_max_left _ _) rfl (not_pending fun pc ho => by cases ho; split_ifs <;> rfl)

theorem NicInv.pacerTopStep (h : NicInv cfg s) : NicInv cfg (s.pacerTopStep cfg t) := by
  rcases pacerTopStep_cases cfg (s := s) (t := t) with ⟨-, heq⟩ | ⟨hshort, -, heq⟩ <;> rw [heq]
  · exact h.update (t := t) (o := none) rfl rfl rfl le_rfl rfl (not_pending fun pc ho => by cases ho)
  · -- the queue is short: the pacer goes on to choose, and is pending
    refine h.frame rfl le_rfl le_rfl le_rfl fun {t' pc} ht' hp => ?_
    rcases thread_of_update rfl ht' with ⟨rfl, -⟩ | ⟨-, hold⟩
    · right
      simp only [setThread_pacer, setThread_clock, setThread_maxCycles, setThread_resentCycles]
      omega
    · exact Or.inl ⟨pc, hold, hp⟩

theorem NicInv.pacerSelectStep (h : NicInv cfg s) (ht : s.thread t = some .pacerSelect) :
    NicInv cfg (s.pacerSelectStep cfg t) := by
  rw [pacerSelectStep_eq]
  dsimp only
  split
  · exact h.update rfl (by simp) rfl le_rfl rfl (not_pending fun pc ho => by cases ho)
  · -- still pending: on to force a packet of the RPC chosen
    exact h.update rfl (by simp) rfl le_rfl rfl fun pc _ _ => ⟨.pacerSelect, ht, rfl⟩

theorem NicInv.startXmit (h : NicInv cfg s) {id : ℕ}
    (hthread : s'.thread = Function.update s.thread t (some (.xmit id false .leave)))
    (hidle : s'.pacer.linkIdleTime = s.pacer.linkIdleTime) (hclock : s'.clock = s.clock)
    (hmax : s'.maxCycles = s.maxCycles) (hres : s'.resentCycles = s.resentCycles) : NicInv cfg s' :=
  h.update hthread hidle hclock hmax.ge hres (not_pending fun pc ho => by cases ho; rfl)

theorem NicInv.keep (h : NicInv cfg s) (hthread : s'.thread = s.thread)
    (hidle : s'.pacer.linkIdleTime = s.pacer.linkIdleTime) (hclock : s.clock ≤ s'.clock)
    (hmax : s'.maxCycles = s.maxCycles) (hres : s'.resentCycles = s.resentCycles) : NicInv cfg s' :=
  h.frame hidle hclock hmax.ge hres.ge fun {t pc} ht hp => Or.inl ⟨pc, by rw [← hthread]; exact ht, hp⟩

variable (hq : 0 ≤ cfg.maxNicQueueCycles)
include hq

theorem Init.nicInv {s : TxSys} (h : s.Init) : NicInv cfg s where
  idle_le := by
    have := h.linkIdleTime_le
    omega
  pending_le ht := by
    rw [h.thread_eq] at ht
    cases ht

theorem NicInv.resendData (h : NicInv cfg s) (id : ℕ) (segs : List TxPacket) :
    NicInv cfg (s.resendData cfg id segs) where
  idle_le := by
    have : ((s.resendData cfg id segs).pacer.linkIdleTime : ℤ) ≤
        s.clock + (cfg.maxNicQueueCycles + 2 * s.maxCycles) + (s.resendData cfg id segs).resentCycles :=
      resendData_idle_le cfg (by omega) segs (by have := h.idle_le; omega)
    simp only [resendData_clock, resendData_maxCycles]
    omega
  pending_le ht hp := by
    rw [resendData_thread] at ht
    have : ((s.resendData cfg id segs).pacer.linkIdleTime : ℤ) ≤
        s.clock + (cfg.maxNicQueueCycles + s.maxCycles) + (s.resendData cfg id segs).resentCycles :=
      resendData_idle_le cfg (by omega) segs (by have := h.pending_le ht hp; omega)
    simp only [resendData_clock, resendData_maxCycles]
    omega

variable (hd : cfg.dontThrottle = false)
include hd

theorem NicInv.xmitStep (h : NicInv cfg s) (hw : s.Wf) (hm : s.Msgs cfg) {id : ℕ} {force : Bool}
    {ret : XmitReturn} (ht : s.thread t = some (.xmit id force ret)) :
    NicInv cfg (s.xmitStep cfg t id force ret) := by
  have hnot : ∀ pc, some (TxPc.xmit id false ret) = some pc → pc.pacerPending = false := by
    intro pc ho
    cases ho
    rfl
  rcases @xmitStep_cases cfg s t id force ret with
    ⟨-, heq⟩ | ⟨r, r', p, skb, prio, hr, hb, heq⟩ | ⟨r, p, hr, hb, heq⟩ <;> rw [heq]
  · exact h.update rfl rfl rfl le_rfl rfl (not_pending fun pc ho => by cases ho)
  · obtain ⟨hskb, -, -, rfl, ⟨idle, rfl, hidle⟩, rfl⟩ := homaXmitDataBody_send hb
    rcases hidle with rfl | hcheck
    · exact h.update rfl rfl rfl le_rfl rfl (not_pending hnot)
    · -- the packet goes out through `homa_pacer_check_nic_q`
      obtain ⟨rfl, hshort⟩ := homaPacerCheckNicQ_eq_some hcheck
      have hcyc : cyclesForPacket cfg skb.wireBytes ≤ s.maxCycles :=
        (hm id r hr).cycles_le skb (List.mem_of_getElem? hskb)
      cases force with
      | false =>
        -- unforced, the queue was short: the new idle time is at most one packet past the limit
        have hq' := hshort rfl hd
        have hnew : ((max s.pacer.linkIdleTime s.clock + cyclesForPacket cfg skb.wireBytes : ℕ) : ℤ) ≤
            s.clock + cfg.maxNicQueueCycles + s.maxCycles := by
          rcases max_cases s.pacer.linkIdleTime s.clock with ⟨he, -⟩ | ⟨he, -⟩ <;> rw [he] <;> omega
        refine ⟨?_, fun _ _ => ?_⟩ <;>
          simp only [setThread_pacer, setThread_clock, setThread_maxCycles, setThread_resentCycles,
            setRpc_clock, setRpc_maxCycles, setRpc_resentCycles] <;>
          omega
      | true =>
        -- forced by the pacer, which found the queue short; no other thread is pending
        have hq' := h.pending_le ht rfl
        have hnew : ((max s.pacer.linkIdleTime s.clock + cyclesForPacket cfg skb.wireBytes : ℕ) : ℤ) ≤
            s.clock + cfg.maxNicQueueCycles + 2 * s.maxCycles + s.resentCycles := by
          rcases max_cases s.pacer.linkIdleTime s.clock with ⟨he, -⟩ | ⟨he, -⟩ <;> rw [he] <;> omega
        have hin : (TxPc.xmit id true ret).inPacer = true := by rw [hw.force_pacer ht]; rfl
        refine ⟨?_, fun {t' pc} ht' hp => ?_⟩
        · simp only [setThread_pacer, setThread_clock, setThread_maxCycles, setThread_resentCycles,
            setRpc_clock, setRpc_maxCycles, setRpc_resentCycles]
          exact hnew
        · rcases thread_of_update rfl ht' with ⟨rfl, ho⟩ | ⟨hne, hold⟩
          · rw [hnot pc ho] at hp
            exact absurd hp Bool.false_ne_true
          · have hin' := TxPc.inPacer_of_pacerPending (fun _ _ he => hw.force_pacer (he ▸ hold)) hp
            exact absurd (hw.mutex.unique hold ht hin' hin) hne
  · -- the loop ends: the idle time stays
    have hidle : p.linkIdleTime = s.pacer.linkIdleTime := by
      rcases homaXmitDataBody_exit hb with ⟨-, rfl⟩ | ⟨-, -, -, -, -, -, -, rfl⟩ <;> simp
    cases ret with
    | leave => exact h.update rfl hidle rfl le_rfl rfl (not_pending fun pc ho => by cases ho)
    | fill rest => exact h.update rfl hidle rfl le_rfl rfl (not_pending fun pc ho => by cases ho; rfl)
    | pacer =>
      rw [xmitReturn_pacer]
      refine h.update rfl ?_ rfl le_rfl rfl (not_pending fun pc ho => by cases ho; rfl)
      split_ifs <;> simp [hidle]

theorem Step.nicInv (h : NicInv cfg s) (hw : s.Wf) (hm : s.Msgs cfg) (hs : Step cfg s s') :
    NicInv cfg s' := by
  cases hs with
  | sendmsg hthread =>
    exact h.update rfl rfl rfl le_rfl rfl (not_pending fun pc ho => by cases ho; rfl)
  | run allocOk ht =>
    rename_i t pc
    cases pc with
    | fill id rest => exact h.fillStep allocOk rest
    | xmit id force ret => exact h.xmitStep hq hd hw hm ht
    | pacerTop => exact h.pacerTopStep
    | pacerSelect => exact h.pacerSelectStep ht
  | @grant t id r offset priority hthread hrpc _ =>
    rcases grantPkt_cases hrpc offset priority (t := t) with ⟨-, heq⟩ | ⟨-, heq⟩ <;> rw [heq]
    · exact h.startXmit rfl rfl rfl rfl rfl
    · exact h
  | @resend t id r offset length held segs hthread hrpc _ _ =>
    -- the forced segments first, then the handler's own bookkeeping
    obtain ⟨l, heq | ⟨stop, -, heq⟩⟩ := resendPkt_forced cfg hrpc offset length held segs (t := t) <;>
      rw [heq] <;> have h₀ := h.resendData hq id l
    · exact h₀.keep rfl rfl le_rfl rfl rfl
    · exact h₀.startXmit rfl rfl rfl rfl rfl
  | rpcEnd id => exact h.keep (by simp) (by simp) (by simp) (by simp) (by simp)
  | response hrpc => exact h.keep rfl rfl le_rfl rfl rfl
  | pacerXmit =>
    rename_i t _
    rcases pacerXmit_cases (s := s) (t := t) with ⟨-, heq⟩ | ⟨-, heq⟩ <;> rw [heq]
    · exact h
    · exact h.update rfl rfl rfl le_rfl rfl (not_pending fun pc ho => by cases ho; rfl)
  | tick d => exact h.keep rfl rfl (Nat.le_add_right _ _) rfl rfl

theorem Reachable.nicInv (h : Reachable cfg s) : NicInv cfg s := by
  induction h with
  | init hi => exact hi.nicInv hq
  | step hr hs ih => exact hs.nicInv hq hd ih hr.wf_throttleInv.1 hr.msgs

end Nic

/-- With throttling on and a queue limit that is not negative, the NIC
queue the host builds, `link_idle_time` past the clock, never passes
`max_nic_queue_cycles` by more than the time of two of the largest packets
built (one let through by `homa_pacer_check_nic_q` while the queue was at
the limit, and one the pacer forces out after finding the queue short) and
the time of the segments `homa_resend_data` forced out. -/
theorem homaPacer_nic_queue_bounded (hd : cfg.dontThrottle = false) (hq : 0 ≤ cfg.maxNicQueueCycles)
    {s : TxSys} (h : Reachable cfg s) :
    (s.pacer.linkIdleTime : ℤ) ≤ s.clock + cfg.maxNicQueueCycles + 2 * s.maxCycles + s.resentCycles :=
  (h.nicInv hq hd).idle_le

/-- The run forces the first packet out twice more by RESENDs, past where
the queue bound without the forced time would allow. -/
theorem homaPacer_nic_queue_bounded_pacedRun :
    pacedRun.clock + pacedCfg.maxNicQueueCycles + 2 * pacedRun.maxCycles < (pacedRun.pacer.linkIdleTime : ℤ) ∧
      (pacedRun.pacer.linkIdleTime : ℤ) ≤
        pacedRun.clock + pacedCfg.maxNicQueueCycles + 2 * pacedRun.maxCycles + pacedRun.resentCycles :=
  ⟨by decide +kernel, homaPacer_nic_queue_bounded rfl (by decide) pacedRun_reachable⟩

/-! ## No RPC is stranded -/

/-- A live RPC with a packet built that it may send now. -/
def Sendable (r : TxRpc) : Prop :=
  r.state ≠ .dead ∧ r.nextXmit < r.packets.length ∧ r.nextXmitOffset < r.granted

instance : DecidablePred Sendable := fun r =>
  inferInstanceAs (Decidable (r.state ≠ .dead ∧ r.nextXmit < r.packets.length ∧ r.nextXmitOffset < r.granted))

/-- The RPC is on the pacer's list, or a thread works on it. -/
def Tended (s : TxSys) (id : ℕ) : Prop :=
  id ∈ s.pacer.throttled ∨ ∃ t pc, s.thread t = some pc ∧ pc.rpcId = some id

/-- No RPC with a packet it may send is left with nobody to send it. -/
def NoStranded (s : TxSys) : Prop :=
  ∀ id r, s.rpc id = some r → Sendable r → s.Tended id

section Stranded

variable {s s' : TxSys} {t : ℕ}

theorem Tended.move {x : ℕ} {o : Option TxPc} (h : s.Tended x)
    (hthread : s'.thread = Function.update s.thread t o)
    (ht : ∀ pc, s.thread t = some pc → pc.rpcId = some x → ∃ pc', o = some pc' ∧ pc'.rpcId = some x)
    (hlist : x ∈ s.pacer.throttled → x ∈ s'.pacer.throttled) : s'.Tended x := by
  rcases h with hmem | ⟨t', pc, ht', hid⟩
  · exact Or.inl (hlist hmem)
  · right
    by_cases htt : t' = t
    · subst htt
      obtain ⟨pc', ho, hid'⟩ := ht pc ht' hid
      exact ⟨t', pc', by rw [hthread, Function.update_self, ho], hid'⟩
    · exact ⟨t', pc, by rw [hthread, Function.update_of_ne htt, ht'], hid⟩

theorem Tended.of_thread {id : ℕ} {pc : TxPc} (ht : s.thread t = some pc) (hid : pc.rpcId = some id) :
    s.Tended id :=
  Or.inr ⟨t, pc, ht, hid⟩

theorem NoStranded.update (h : s.NoStranded) (id : ℕ) {o : Option TxPc}
    (hthread : s'.thread = Function.update s.thread t o)
    (hrpc : ∀ x, x ≠ id → s'.rpc x = s.rpc x)
    (ht : ∀ pc x, s.thread t = some pc → pc.rpcId = some x → x ≠ id →
      ∃ pc', o = some pc' ∧ pc'.rpcId = some x)
    (hlist : ∀ x, x ≠ id → x ∈ s.pacer.throttled → x ∈ s'.pacer.throttled)
    (hid : ∀ r, s'.rpc id = some r → Sendable r → s'.Tended id) : s'.NoStranded := by
  intro x r hr hs
  by_cases hx : x = id
  · subst hx
    exact hid r hr hs
  · rw [hrpc x hx] at hr
    exact (h x r hr hs).move hthread (fun pc hpc hw => ht pc x hpc hw hx) (hlist x hx)

theorem NoStranded.frame (h : s.NoStranded) {o : Option TxPc}
    (hthread : s'.thread = Function.update s.thread t o) (hrpc : s'.rpc = s.rpc)
    (ht : ∀ pc x, s.thread t = some pc → pc.rpcId = some x → ∃ pc', o = some pc' ∧ pc'.rpcId = some x)
    (hlist : ∀ x, x ∈ s.pacer.throttled → x ∈ s'.pacer.throttled) : s'.NoStranded := by
  intro x r hr hs
  rw [hrpc] at hr
  exact (h x r hr hs).move hthread (fun pc hpc hw => ht pc x hpc hw) (hlist x)

theorem same_work {o : Option TxPc} {pc₀ pc : TxPc} (ht : s.thread t = some pc₀) (ho : o = some pc)
    (hid : pc.rpcId = pc₀.rpcId) :
    ∀ pc' x, s.thread t = some pc' → pc'.rpcId = some x → ∃ pc'', o = some pc'' ∧ pc''.rpcId = some x := by
  intro pc' x ht' hx
  rw [ht, Option.some.injEq] at ht'
  subst ht'
  exact ⟨pc, ho, hid.trans hx⟩

theorem no_other_work {o : Option TxPc} {id : ℕ} {pc₀ : TxPc} (ht : s.thread t = some pc₀)
    (hid : pc₀.rpcId = none ∨ pc₀.rpcId = some id) :
    ∀ pc x, s.thread t = some pc → pc.rpcId = some x → x ≠ id → ∃ pc', o = some pc' ∧ pc'.rpcId = some x := by
  intro pc x ht' hx hne
  rw [ht, Option.some.injEq] at ht'
  subst ht'
  rcases hid with hid | hid <;> rw [hid] at hx
  · cases hx
  · exact absurd (Option.some.inj hx).symm hne

theorem NoStranded.fillStep (h : s.NoStranded) (hthr : s.ThrottleInv) {id : ℕ} {rest : List TxPacket}
    (ht : s.thread t = some (.fill id rest)) (allocOk : Bool) : (s.fillStep cfg t id allocOk rest).NoStranded := by
  rcases @fillStep_cases cfg s t id allocOk rest with
    ⟨-, heq⟩ | ⟨-, -, -, hr, heq⟩ | ⟨-, -, r, -, hr, -, heq⟩ | ⟨skb, rest', r, -, hr, -, -, heq⟩ <;>
    rw [heq]
  · exact h.frame rfl rfl (same_work ht rfl rfl) fun _ hx => hx
  · refine h.update id rfl (fun _ _ => rfl) (no_other_work ht (Or.inr rfl))
      (fun _ _ hx => hx) fun r' hr' => ?_
    simp [hr] at hr'
  · -- the fill fails: the RPC ends
    refine h.update id (t := t) (o := none) (by simp)
      (fun x hx => by simp [rpcEnd_rpc, Function.update_of_ne hx]) (no_other_work ht (Or.inr rfl))
      (fun x hx hmem => ?_) fun r' hr' hs => ?_
    · rcases rpcEnd_cases s id with heq' | ⟨r₀, -, -, heq'⟩ <;> simp only [setThread_pacer, heq']
      · exact hmem
      · exact (mem_homaPacerUnmanageRpc hthr.nodup).mpr ⟨hx, hmem⟩
    · simp only [setThread_rpc, rpcEnd_rpc, Function.update_self, hr, Option.map_some,
        Option.some.injEq] at hr'
      subst hr'
      exact absurd rfl hs.1
  · -- a packet is appended; the thread still works on the RPC
    refine h.update id rfl (fun x hx => Function.update_of_ne hx _ _) (no_other_work ht (Or.inr rfl))
      (fun _ _ hx => hx) fun _ _ _ => Tended.of_thread (Function.update_self ..) ?_
    split_ifs <;> rfl

theorem NoStranded.xmitStep (h : s.NoStranded) (hthr : s.ThrottleInv) {id : ℕ} {force : Bool}
    {ret : XmitReturn} (ht : s.thread t = some (.xmit id force ret)) :
    (s.xmitStep cfg t id force ret).NoStranded := by
  rcases @xmitStep_cases cfg s t id force ret with
    ⟨hr, heq⟩ | ⟨r, r', p, skb, prio, hr, hb, heq⟩ | ⟨r, p, hr, hb, heq⟩ <;> rw [heq]
  · refine h.update id rfl (fun _ _ => rfl) (no_other_work ht (Or.inr rfl)) (fun _ _ hx => hx)
      fun r' hr' => ?_
    simp [hr] at hr'
  · -- a packet goes out; the thread goes on with the RPC
    obtain ⟨-, -, -, -, ⟨idle, rfl, -⟩, -⟩ := homaXmitDataBody_send hb
    exact h.update id rfl (fun x hx => Function.update_of_ne hx _ _) (no_other_work ht (Or.inr rfl))
      (fun _ _ hx => hx) fun _ _ _ => Tended.of_thread (Function.update_self ..) rfl
  · -- the loop ends: the RPC has nothing it may send, or it is throttled
    have hlist : ∀ x, x ∈ s.pacer.throttled → x ∈ p.throttled := by
      rcases homaXmitDataBody_exit hb with ⟨-, rfl⟩ | ⟨-, -, -, -, -, -, -, rfl⟩
      · exact fun _ hx => hx
      · exact fun x hx => mem_homaPacerManageRpc.mpr (Or.inr hx)
    have hthrottled : Sendable r → id ∈ p.throttled := by
      intro hs
      rcases homaXmitDataBody_exit hb with ⟨hno, -⟩ | ⟨-, -, -, -, -, -, -, rfl⟩
      · rcases hno with hno | hno | hno
        · exact absurd hs.2.1 (not_lt.mpr hno)
        · exact absurd hno hs.1
        · exact absurd hs.2.2 (not_lt.mpr hno)
      · exact mem_homaPacerManageRpc.mpr (Or.inl rfl)
    cases ret with
    | leave =>
      exact h.update id rfl (fun _ _ => rfl) (no_other_work ht (Or.inr rfl)) (fun x _ hx => hlist x hx)
        fun r' hr' hs => by
          simp only [xmitReturn, setThread_rpc, hr, Option.some.injEq] at hr'
          subst hr'
          exact Or.inl (hthrottled hs)
    | fill rest =>
      exact h.update id rfl (fun _ _ => rfl) (no_other_work ht (Or.inr rfl)) (fun x _ hx => hlist x hx)
        fun _ _ _ => Tended.of_thread (Function.update_self ..) rfl
    | pacer =>
      rw [xmitReturn_pacer]
      have hnd : p.throttled.Nodup := by
        rcases homaXmitDataBody_exit hb with ⟨-, rfl⟩ | ⟨-, -, -, -, -, -, -, rfl⟩
        · exact hthr.nodup
        · exact nodup_homaPacerManageRpc hthr.nodup
      refine h.update id rfl (fun _ _ => rfl) (no_other_work ht (Or.inr rfl)) (fun x hx hmem => ?_)
        fun r' hr' hs => ?_
      · split_ifs
        · exact (mem_homaPacerUnmanageRpc hnd).mpr ⟨hx, hlist x hmem⟩
        · exact hlist x hmem
      · simp only [setThread_rpc, hr, Option.some.injEq] at hr'
        subst hr'
        left
        -- an RPC that may still send is not taken off the list
        have hkeep : ¬ (r.packets.length ≤ r.nextXmit ∨ r.granted ≤ r.nextXmitOffset) :=
          not_or.mpr ⟨not_le.mpr hs.2.1, not_le.mpr hs.2.2⟩
        simp only [setThread_pacer, hkeep, if_false]
        exact hthrottled hs

theorem NoStranded.pacerTopStep (h : s.NoStranded) (ht : s.thread t = some .pacerTop) :
    (s.pacerTopStep cfg t).NoStranded := by
  rcases pacerTopStep_cases cfg (s := s) (t := t) with ⟨-, heq⟩ | ⟨-, -, heq⟩ <;> rw [heq]
  · exact h.frame (t := t) (o := none) rfl rfl (fun pc x ht' hx => by
      rw [ht, Option.some.injEq] at ht'
      subst ht'
      cases hx) fun _ hx => hx
  · exact h.frame rfl rfl (same_work ht rfl rfl) fun _ hx => hx

theorem NoStranded.pacerSelectStep (h : s.NoStranded) (ht : s.thread t = some .pacerSelect) :
    (s.pacerSelectStep cfg t).NoStranded := by
  -- the pacer worked on no RPC before its choice
  have hnone : ∀ (o : Option TxPc) pc x, s.thread t = some pc → pc.rpcId = some x →
      ∃ pc', o = some pc' ∧ pc'.rpcId = some x := by
    intro o pc x ht' hx
    rw [ht, Option.some.injEq] at ht'
    subst ht'
    cases hx
  rw [pacerSelectStep_eq]
  dsimp only
  split
  · exact h.frame rfl rfl (hnone _) fun _ hx => by simpa using hx
  · exact h.frame rfl rfl (hnone _) fun _ hx => by simpa using hx

theorem NoStranded.handler (h : s.NoStranded) {id : ℕ} {r r' : TxRpc} (hr : s.rpc id = some r)
    (hthread : s.thread t = none)
    (hth : s'.thread = s.thread ∨ s'.thread = Function.update s.thread t (some (.xmit id false .leave)))
    (hrpc : s'.rpc = Function.update s.rpc id (some r')) (hlist : s'.pacer.throttled = s.pacer.throttled)
    (hr' : Sendable r' → s'.thread = s.thread → Sendable r) : s'.NoStranded := by
  obtain ⟨o, hth', ho⟩ : ∃ o : Option TxPc, s'.thread = Function.update s.thread t o ∧
      (s'.thread = s.thread → o = none) := by
    rcases hth with hth | hth
    · exact ⟨none, by rw [hth, ← hthread, Function.update_eq_self], fun _ => rfl⟩
    · exact ⟨_, hth, fun he => by
        have := congrFun (hth.symm.trans he) t
        rw [Function.update_self, hthread] at this
        cases this⟩
  refine h.update id hth' (fun x hx => by rw [hrpc, Function.update_of_ne hx])
    (fun pc x ht' => by rw [hthread] at ht'; cases ht') (fun x _ hx => by rw [hlist]; exact hx)
    fun r'' hr'' hs => ?_
  rw [hrpc, Function.update_self, Option.some.injEq] at hr''
  subst hr''
  rcases hth with hsame | hnew
  · -- no thread is started: the RPC was tended before, and still is
    have hold := h id r hr (hr' hs hsame)
    exact hold.move hth' (fun pc ht' => by rw [hthread] at ht'; cases ht') fun hx => by rw [hlist]; exact hx
  · exact Tended.of_thread (by rw [hnew, Function.update_self]) rfl

theorem Init.noStranded (h : s.Init) : s.NoStranded := fun id r hr => by
  rw [h.rpc_eq] at hr
  cases hr

theorem Step.noStranded (h : s.NoStranded) (hthr : s.ThrottleInv) (hs : Step cfg s s') : s'.NoStranded := by
  cases hs with
  | sendmsg hthread hfresh =>
    refine h.update _ rfl (fun x hx => Function.update_of_ne hx _ _) (fun pc x ht' => by
      rw [hthread] at ht'
      cases ht') (fun _ _ hx => hx) fun r hr hs => ?_
    simp only [TxSys.sendmsg, setThread_rpc, setRpc_rpc, Function.update_self, Option.some.injEq] at hr
    subst hr
    exact absurd hs.2.1 (by simp [txRpcInit])
  | run allocOk ht =>
    rename_i t pc
    cases pc with
    | fill id rest => exact h.fillStep hthr ht allocOk
    | xmit id force ret => exact h.xmitStep hthr ht
    | pacerTop => exact h.pacerTopStep ht
    | pacerSelect => exact h.pacerSelectStep ht
  | @grant t id r offset priority hthread hrpc _ =>
    rcases grantPkt_cases hrpc offset priority (t := t) with ⟨-, heq⟩ | ⟨-, heq⟩ <;> rw [heq]
    · exact h.handler hrpc hthread (Or.inr rfl) rfl rfl fun _ he => absurd (congrFun he t) (by
        rw [setThread_thread, Function.update_self, hthread]
        simp)
    · exact h
  | @resend t id r offset length held segs hthread hrpc _ _ =>
    obtain ⟨l, hcases⟩ := resendPkt_forced cfg hrpc offset length held segs (t := t)
    -- the forced segments touch nothing a stranded RPC is about
    have h₀ : (s.resendData cfg id l).NoStranded := by
      rw [resendData_eq]
      exact h
    have hr₀ : (s.resendData cfg id l).rpc id = some r := by simpa using hrpc
    have ht₀ : (s.resendData cfg id l).thread t = none := by simpa using hthread
    rcases hcases with heq | ⟨stop, -, heq⟩ <;> rw [heq]
    · exact h₀.handler hr₀ ht₀ (Or.inl rfl) rfl rfl fun hs _ => hs
    · exact h₀.handler hr₀ ht₀ (Or.inr rfl) rfl rfl fun _ he => absurd (congrFun he t) (by
        rw [setThread_thread, Function.update_self, ht₀]
        simp)
  | rpcEnd id =>
    rcases rpcEnd_cases s id with heq | ⟨r, hr, -, heq⟩ <;> rw [heq]
    · exact h
    · refine h.update id (t := 0) (o := s.thread 0) (by rw [Function.update_eq_self]; rfl)
        (fun x hx => Function.update_of_ne hx _ _) (fun pc x ht' hx _ => ⟨pc, ht', hx⟩)
        (fun x hx hmem => (mem_homaPacerUnmanageRpc hthr.nodup).mpr ⟨hx, hmem⟩) fun r' hr' hs => ?_
      simp only [setRpc_rpc, Function.update_self, Option.some.injEq] at hr'
      subst hr'
      exact absurd rfl hs.1
  | @response id r hrpc hclient hout =>
    refine h.update id (t := 0) (o := s.thread 0) (by rw [Function.update_eq_self]; rfl)
      (fun x hx => Function.update_of_ne hx _ _) (fun pc x ht' hx _ => ⟨pc, ht', hx⟩)
      (fun _ _ hx => hx) fun r' hr' hs => ?_
    simp only [setRpc_rpc, Function.update_self, Option.some.injEq] at hr'
    subst hr'
    -- still live: it was tended before and nothing else moved
    have hold := h id r hrpc ⟨by rw [hout]; simp, hs.2.1, hs.2.2⟩
    exact hold.move (t := 0) (o := s.thread 0) (by rw [Function.update_eq_self]; rfl)
      (fun pc ht' hx => ⟨pc, ht', hx⟩) fun hx => hx
  | pacerXmit =>
    rename_i t hthread
    rcases pacerXmit_cases (s := s) (t := t) with ⟨-, heq⟩ | ⟨-, heq⟩ <;> rw [heq]
    · exact h
    · exact h.frame rfl rfl (fun pc x ht' => by rw [hthread] at ht'; cases ht') fun _ hx => hx
  | tick d =>
    exact h.frame (t := 0) (o := s.thread 0) (by rw [Function.update_eq_self]) rfl
      (fun pc x ht' hx => ⟨pc, ht', hx⟩) fun _ hx => hx

theorem Reachable.noStranded (h : Reachable cfg s) : s.NoStranded := by
  induction h with
  | init hi => exact hi.noStranded
  | step hr hs ih => exact hs.noStranded ih hr.wf_throttleInv.2

end Stranded

/-- No RPC is ever stranded: every live RPC with a packet built that it may
send (below its grant) is on the pacer's throttled list, or some thread is
working on it (building its message, or in `homa_xmit_data` on it). -/
theorem homaPacer_no_stranded_rpc {s : TxSys} {id : ℕ} {r : TxRpc} (h : Reachable cfg s)
    (hr : s.rpc id = some r) (hs : Sendable r) :
    id ∈ s.pacer.throttled ∨ ∃ t pc, s.thread t = some pc ∧ pc.rpcId = some id :=
  h.noStranded id r hr hs

/-- A host with one message of 1000 bytes on the client RPC 2, built in
full and not yet sent. -/
def witnessCfg : TxConfig :=
  { maxNicQueueCycles := 2000, fifoFraction := 50, cyclesPerMbyte := 1000, deferMinBytes := 1000
    dontThrottle := false, qdiscActive := false }

def witnessPacket : TxPacket := ⟨0, 1000, 1100⟩

def witnessRpc : TxRpc :=
  { state := .outgoing, length := 1000, unscheduled := 500, granted := 500, schedPriority := 0
    packets := [witnessPacket], nextXmit := 0, nextXmitOffset := 0, firstNotTx := 0, initTime := 0 }

def witnessBuilt : TxSys :=
  ((init 0).sendmsg 0 2 1000 500 [witnessPacket]).runThread witnessCfg 0 (.fill 2 [witnessPacket]) true

theorem witnessPacket_tiles : Tiles TxPacket.offset TxPacket.stop 0 1000 [witnessPacket] := by
  simp [witnessPacket, TxPacket.stop]

theorem witnessBuilt_reachable : Reachable witnessCfg witnessBuilt :=
  .step (.step (.init (init_init 0)) (.sendmsg rfl rfl (by decide) (by decide) witnessPacket_tiles))
    (.run true rfl)

theorem witnessBuilt_rpc : witnessBuilt.rpc 2 = some witnessRpc := rfl

theorem homaPacer_no_stranded_rpc_witnessBuilt :
    2 ∈ witnessBuilt.pacer.throttled ∨ ∃ t pc, witnessBuilt.thread t = some pc ∧ pc.rpcId = some 2 :=
  homaPacer_no_stranded_rpc witnessBuilt_reachable witnessBuilt_rpc (by decide)

/-! ## The FIFO share -/

/-- Each choice of the pacer takes `fifo_fraction` off `fifo_count`, and each
FIFO choice puts 1000 back, which keeps `fifo_count` in `(0, 1000]`. -/
structure FifoInv (cfg : TxConfig) (s : TxSys) : Prop where
  count_pos : 0 < s.pacer.fifoCount
  count_le : s.pacer.fifoCount ≤ 1000
  ledger : s.pacer.fifoCount + cfg.fifoFraction * s.picks = 1000 + 1000 * s.fifoPicks

section Fifo

variable {s s' : TxSys} {t : ℕ}

theorem FifoInv.keep (h : FifoInv cfg s) (hcount : s'.pacer.fifoCount = s.pacer.fifoCount)
    (hpicks : s'.picks = s.picks) (hfifo : s'.fifoPicks = s.fifoPicks) : FifoInv cfg s' where
  count_pos := hcount ▸ h.count_pos
  count_le := hcount ▸ h.count_le
  ledger := by
    rw [hcount, hpicks, hfifo]
    exact h.ledger

theorem Init.fifoInv (h : s.Init) : FifoInv cfg s where
  count_pos := by rw [h.fifoCount_eq]; norm_num
  count_le := by rw [h.fifoCount_eq]
  ledger := by rw [h.fifoCount_eq, h.picks_eq, h.fifoPicks_eq]; simp

theorem Step.fifo_keep (hs : Step cfg s s') (hsel : ∀ t, s' ≠ s.pacerSelectStep cfg t) :
    s'.pacer.fifoCount = s.pacer.fifoCount ∧ s'.picks = s.picks ∧ s'.fifoPicks = s.fifoPicks := by
  cases hs with
  | run allocOk ht =>
    rename_i t pc
    cases pc with
    | fill id rest =>
      rcases @fillStep_cases cfg s t id allocOk rest with
        ⟨-, heq⟩ | ⟨_, _, -, -, heq⟩ | ⟨_, _, _, -, -, -, heq⟩ | ⟨_, _, _, -, -, -, -, heq⟩ <;>
        simp [runThread, heq]
    | xmit id force ret =>
      rcases @xmitStep_cases cfg s t id force ret with
        ⟨-, heq⟩ | ⟨r, r', p, skb, prio, -, hb, heq⟩ | ⟨r, p, -, hb, heq⟩ <;> simp only [runThread, heq]
      · exact ⟨rfl, rfl, rfl⟩
      · obtain ⟨-, -, -, -, ⟨idle, rfl, -⟩, -⟩ := homaXmitDataBody_send hb
        exact ⟨rfl, rfl, rfl⟩
      · have hp : p.fifoCount = s.pacer.fifoCount := by
          rcases homaXmitDataBody_exit hb with ⟨-, rfl⟩ | ⟨-, -, -, -, -, -, -, rfl⟩ <;> simp
        cases ret with
        | leave => exact ⟨hp, rfl, rfl⟩
        | fill rest => exact ⟨hp, rfl, rfl⟩
        | pacer =>
          rw [xmitReturn_pacer]
          refine ⟨?_, rfl, rfl⟩
          split_ifs <;> simp [hp]
    | pacerTop =>
      rcases pacerTopStep_cases cfg (s := s) (t := t) with ⟨-, heq⟩ | ⟨-, -, heq⟩ <;>
        simp only [runThread, heq] <;> exact ⟨rfl, rfl, rfl⟩
    | pacerSelect => exact absurd rfl (hsel t)
  | @grant t id r offset priority hthread hrpc _ =>
    rcases grantPkt_cases hrpc offset priority (t := t) with ⟨-, heq⟩ | ⟨-, heq⟩ <;> rw [heq] <;>
      exact ⟨rfl, rfl, rfl⟩
  | @resend t id r offset length held segs hthread hrpc _ _ =>
    obtain ⟨l, heq | ⟨stop, -, heq⟩⟩ := resendPkt_forced cfg hrpc offset length held segs (t := t) <;>
      rw [heq] <;> simp
  | rpcEnd id => simp
  | pacerXmit =>
    rename_i t _
    rcases pacerXmit_cases (s := s) (t := t) with ⟨-, heq⟩ | ⟨-, heq⟩ <;> rw [heq] <;> exact ⟨rfl, rfl, rfl⟩
  | sendmsg | response | tick => exact ⟨rfl, rfl, rfl⟩

variable (hf0 : 0 ≤ cfg.fifoFraction) (hf : cfg.fifoFraction ≤ 1000)
include hf0 hf

theorem FifoInv.pacerSelectStep (h : FifoInv cfg s) : FifoInv cfg (s.pacerSelectStep cfg t) := by
  obtain ⟨hcount, hpos, hle⟩ :=
    @homaPacerSelect_fifoCount cfg s.initTime s.pacer hf0 hf h.count_pos h.count_le
  have hledger := h.ledger
  -- `fifo_count` and the two counts move together; where the thread goes does not matter
  have hchoice : FifoInv cfg { s with
      pacer := (homaPacerSelect cfg s.initTime s.pacer).1
      picks := s.picks + 1
      fifoPicks := s.fifoPicks + if homaPacerSelectFifo cfg s.pacer then 1 else 0 } := by
    refine ⟨hpos, hle, ?_⟩
    dsimp only
    rw [hcount]
    split_ifs
    · push_cast
      linear_combination hledger
    · push_cast
      linear_combination hledger
  rw [pacerSelectStep_eq]
  dsimp only
  split
  · exact hchoice.keep rfl rfl rfl
  · exact hchoice.keep rfl rfl rfl

theorem Step.fifoInv (h : FifoInv cfg s) (hs : Step cfg s s') : FifoInv cfg s' := by
  by_cases hsel : ∃ t, s' = s.pacerSelectStep cfg t
  · obtain ⟨t, rfl⟩ := hsel
    exact h.pacerSelectStep hf0 hf
  · push Not at hsel
    obtain ⟨hcount, hpicks, hfifo⟩ := hs.fifo_keep hsel
    exact h.keep hcount hpicks hfifo

theorem Reachable.fifoInv (h : Reachable cfg s) : FifoInv cfg s := by
  induction h with
  | init hi => exact hi.fifoInv
  | step _ hs ih => exact hs.fifoInv hf0 hf ih

end Fifo

/-- With `fifo_fraction` within `[0, 1000]`, of the choices `homa_pacer_xmit`
has made, the FIFO ones (the oldest RPC instead of the one with the fewest
bytes left) are `fifo_fraction / 1000` of them, to within one choice. -/
theorem homaPacer_fifo_share (hf0 : 0 ≤ cfg.fifoFraction) (hf : cfg.fifoFraction ≤ 1000) {s : TxSys}
    (h : Reachable cfg s) :
    1000 * (s.fifoPicks : ℤ) ≤ cfg.fifoFraction * s.picks ∧
      cfg.fifoFraction * s.picks < 1000 * (s.fifoPicks : ℤ) + 1000 := by
  have hi := h.fifoInv hf0 hf
  have hledger := hi.ledger
  have hpos := hi.count_pos
  have hle := hi.count_le
  constructor <;> linarith

theorem homaPacer_fifo_share_pacedRun :
    pacedRun.picks = 1 ∧
      1000 * (pacedRun.fifoPicks : ℤ) ≤ pacedCfg.fifoFraction * pacedRun.picks ∧
      pacedCfg.fifoFraction * pacedRun.picks < 1000 * (pacedRun.fifoPicks : ℤ) + 1000 :=
  ⟨by decide +kernel, homaPacer_fifo_share (by decide) (by decide) pacedRun_reachable⟩

/-! ## The pacer's mutex and list -/

/-- `pacer->mutex` is held exactly while a thread runs `homa_pacer_xmit`, and
never by two threads: however the pacer thread and GRO completions
interleave, one at a time chooses RPCs and forces packets out. -/
theorem homaPacerXmit_exclusive {s : TxSys} (h : Reachable cfg s) :
    (s.pacerBusy = true ↔ ∃ t pc, s.thread t = some pc ∧ pc.inPacer = true) ∧
      ∀ t t' pc pc', s.thread t = some pc → s.thread t' = some pc' →
        pc.inPacer = true → pc'.inPacer = true → t = t' := by
  have hm := h.wf_throttleInv.1.mutex
  exact ⟨hm.busy_iff, fun _ _ _ _ ht ht' hin hin' => hm.unique ht ht' hin hin'⟩

theorem homaPacerXmit_exclusive_pacedRun :
    pacedRun.thread 2 = some (.xmit 2 false .pacer) ∧
      (pacedRun.pacerBusy = true ↔ ∃ t pc, pacedRun.thread t = some pc ∧ pc.inPacer = true) ∧
      ∀ t t' pc pc', pacedRun.thread t = some pc → pacedRun.thread t' = some pc' →
        pc.inPacer = true → pc'.inPacer = true → t = t' :=
  ⟨by decide +kernel, homaPacerXmit_exclusive pacedRun_reachable⟩

end TxSys

end Homa
