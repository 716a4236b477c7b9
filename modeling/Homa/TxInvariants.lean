import Homa.TxSystem

/-!
# What every run of the transmit path keeps

The invariants of `TxSys`, each proved for one step of every kind and then
for every reachable state.  `Wf` is the bookkeeping of the threads: which
RPC each works on, that one thread builds each message, that `pacer->mutex`
is held by the one thread in `homa_pacer_xmit`, and that the pacer's list
holds live RPCs once each.
-/

namespace Homa

open IntervalList MachineArith

namespace TxPc

theorem rpcId_of_toBuild {pc : TxPc} {id : ℕ} (h : (pc.toBuild id).isSome) :
    pc.rpcId = some id := by
  cases pc with
  | fill id' rest =>
    by_cases he : id' = id
    · rw [he]; rfl
    · simp [toBuild, he] at h
  | xmit id' force ret =>
    cases ret with
    | fill rest =>
      by_cases he : id' = id
      · rw [he]; rfl
      · simp [toBuild, he] at h
    | leave | pacer => simp [toBuild] at h
  | pacerTop | pacerSelect => simp [toBuild] at h

theorem eq_of_toBuild {pc : TxPc} {x y : ℕ} (hid : pc.rpcId = some y) (hb : (pc.toBuild x).isSome) :
    x = y := by
  have h := rpcId_of_toBuild hb
  rw [hid] at h
  exact (Option.some.inj h).symm

theorem inPacer_of_pacerPending {pc : TxPc} (hforce : ∀ id ret, pc = .xmit id true ret → ret = .pacer)
    (h : pc.pacerPending = true) : pc.inPacer = true := by
  cases pc with
  | xmit id force ret =>
    cases force with
    | false => simp [pacerPending] at h
    | true => rw [hforce id ret rfl]; rfl
  | fill | pacerTop | pacerSelect => simp_all [pacerPending, inPacer]

end TxPc

namespace TxSys

variable {cfg : TxConfig}

/-! ## The threads -/

/-- `pacer->mutex` is held exactly while a thread runs `homa_pacer_xmit`, and
only one thread does. -/
structure MutexInv (s : TxSys) : Prop where
  busy_iff : s.pacerBusy = true ↔ ∃ t pc, s.thread t = some pc ∧ pc.inPacer = true
  unique : ∀ {t t' pc pc'}, s.thread t = some pc → s.thread t' = some pc' →
    pc.inPacer = true → pc'.inPacer = true → t = t'

/-- The bookkeeping of the threads. -/
structure Wf (s : TxSys) : Prop where
  /-- A thread works on an RPC that exists. -/
  thread_rpc : ∀ {t pc id}, s.thread t = some pc → pc.rpcId = some id → (s.rpc id).isSome
  /-- One `homa_message_out_fill` builds each message. -/
  build_unique : ∀ {t t' pc pc' id}, s.thread t = some pc → s.thread t' = some pc' →
    (pc.toBuild id).isSome → (pc'.toBuild id).isSome → t = t'
  mutex : s.MutexInv
  /-- Only the pacer forces packets out. -/
  force_pacer : ∀ {t id ret}, s.thread t = some (.xmit id true ret) → ret = .pacer
  /-- Nothing is sent for an RPC before its message. -/
  sent_fresh : ∀ {id}, s.rpc id = none → s.sent id = []

/-- The throttled list holds live RPCs, each once. -/
structure ThrottleInv (s : TxSys) : Prop where
  nodup : s.pacer.throttled.Nodup
  live : ∀ id ∈ s.pacer.throttled, ∃ r, s.rpc id = some r ∧ r.state ≠ .dead

section Update

variable {s s' : TxSys} {t : ℕ} {o : Option TxPc}

theorem thread_of_update (hthread : s'.thread = Function.update s.thread t o) {t' : ℕ} {pc : TxPc}
    (h : s'.thread t' = some pc) : (t' = t ∧ o = some pc) ∨ (t' ≠ t ∧ s.thread t' = some pc) := by
  rw [hthread] at h
  by_cases htt : t' = t
  · subst htt
    rw [Function.update_self] at h
    exact Or.inl ⟨rfl, h⟩
  · rw [Function.update_of_ne htt] at h
    exact Or.inr ⟨htt, h⟩

theorem inPacer_of_update (hthread : s'.thread = Function.update s.thread t o)
    (hpacer : o.any TxPc.inPacer = true → (s.thread t).any TxPc.inPacer = true)
    {t' : ℕ} {pc : TxPc} (h : s'.thread t' = some pc) (hin : pc.inPacer = true) :
    ∃ pc₀, s.thread t' = some pc₀ ∧ pc₀.inPacer = true := by
  rcases thread_of_update hthread h with ⟨rfl, ho⟩ | ⟨-, h⟩
  · rw [ho, Option.any_some] at hpacer
    exact (Option.any_eq_true _ _).mp (hpacer hin)
  · exact ⟨pc, h, hin⟩

theorem MutexInv.update (h : s.MutexInv) (hthread : s'.thread = Function.update s.thread t o)
    (hbusy : s'.pacerBusy = s.pacerBusy)
    (hpacer : o.any TxPc.inPacer = (s.thread t).any TxPc.inPacer) : s'.MutexInv where
  busy_iff := by
    rw [hbusy, h.busy_iff]
    constructor
    · rintro ⟨t', pc, ht', hin⟩
      by_cases htt : t' = t
      · subst htt
        rw [ht', Option.any_some] at hpacer
        obtain ⟨pc', ho, hin'⟩ := (Option.any_eq_true _ _).mp (hpacer.trans hin)
        exact ⟨t', pc', by rw [hthread, Function.update_self, ho], hin'⟩
      · exact ⟨t', pc, by rw [hthread, Function.update_of_ne htt, ht'], hin⟩
    · rintro ⟨t', pc, ht', hin⟩
      obtain ⟨pc₀, h₀, hin₀⟩ := inPacer_of_update hthread (fun ho => hpacer.symm.trans ho) ht' hin
      exact ⟨t', pc₀, h₀, hin₀⟩
  unique := by
    intro t₁ t₂ pc₁ pc₂ h₁ h₂ hin₁ hin₂
    obtain ⟨_, h₁', hin₁'⟩ := inPacer_of_update hthread (fun ho => hpacer.symm.trans ho) h₁ hin₁
    obtain ⟨_, h₂', hin₂'⟩ := inPacer_of_update hthread (fun ho => hpacer.symm.trans ho) h₂ hin₂
    exact h.unique h₁' h₂' hin₁' hin₂'

theorem MutexInv.leave (h : s.MutexInv) (hthread : s'.thread = Function.update s.thread t o)
    {pc : TxPc} (ht : s.thread t = some pc) (hin : pc.inPacer = true)
    (hpacer : o.any TxPc.inPacer = false) (hbusy : s'.pacerBusy = false) : s'.MutexInv := by
  -- no thread is left in the pacer
  have hnone : ∀ {t' pc'}, s'.thread t' = some pc' → pc'.inPacer = true → False := by
    intro t' pc' ht' hin'
    rcases thread_of_update hthread ht' with ⟨-, ho⟩ | ⟨hne, hold⟩
    · rw [ho, Option.any_some, hin'] at hpacer
      exact absurd hpacer (by decide)
    · exact hne (h.unique hold ht hin' hin)
  refine ⟨?_, fun h₁ _ hin₁ _ => (hnone h₁ hin₁).elim⟩
  rw [hbusy]
  constructor
  · intro hf
    exact absurd hf Bool.false_ne_true
  · rintro ⟨t', pc', ht', hin'⟩
    exact (hnone ht' hin').elim

theorem MutexInv.enter (h : s.MutexInv) {pc : TxPc}
    (hthread : s'.thread = Function.update s.thread t (some pc)) (hin : pc.inPacer = true)
    (hfree : s.pacerBusy = false) (hbusy : s'.pacerBusy = true) : s'.MutexInv := by
  -- `t` is the only thread in the pacer
  have honly : ∀ {t' pc'}, s'.thread t' = some pc' → pc'.inPacer = true → t' = t := by
    intro t' pc' ht' hin'
    rcases thread_of_update hthread ht' with ⟨rfl, -⟩ | ⟨-, hold⟩
    · rfl
    · have hheld := h.busy_iff.mpr ⟨t', pc', hold, hin'⟩
      rw [hfree] at hheld
      exact absurd hheld Bool.false_ne_true
  refine ⟨⟨fun _ => ⟨t, pc, by rw [hthread, Function.update_self], hin⟩, fun _ => hbusy⟩, ?_⟩
  intro t₁ t₂ pc₁ pc₂ h₁ h₂ hin₁ hin₂
  rw [honly h₁ hin₁, honly h₂ hin₂]

theorem isSome_update {α : Type*} (f : ℕ → Option α) (i : ℕ) (a : α) {x : ℕ} (h : (f x).isSome) :
    (Function.update f i (some a) x).isSome := by
  by_cases hx : x = i
  · rw [hx, Function.update_self]
    rfl
  · rw [Function.update_of_ne hx]
    exact h

theorem Wf.builders (h : s.Wf) {pc₀ : TxPc} {x : ℕ} (ht : s.thread t = some pc₀)
    (hb : (pc₀.toBuild x).isSome) :
    ∀ t' pc', s.thread t' = some pc' → (pc'.toBuild x).isSome → t' = t :=
  fun _ _ h' hb' => h.build_unique h' ht hb' hb

theorem Wf.update (h : s.Wf) (hthread : s'.thread = Function.update s.thread t o)
    (hmutex : s'.MutexInv)
    (hrpc : ∀ x, (s.rpc x).isSome → (s'.rpc x).isSome)
    (hsent : ∀ x, s'.rpc x = none → s'.sent x = s.sent x)
    (hwork : ∀ pc x, o = some pc → pc.rpcId = some x → (s'.rpc x).isSome)
    (hbuild : ∀ pc x, o = some pc → (pc.toBuild x).isSome →
      ∀ t' pc', s.thread t' = some pc' → (pc'.toBuild x).isSome → t' = t)
    (hforce : ∀ x ret, o = some (.xmit x true ret) → ret = .pacer) : s'.Wf where
  thread_rpc := by
    intro t' pc x ht' hid
    rcases thread_of_update hthread ht' with ⟨-, ho⟩ | ⟨-, hold⟩
    · exact hwork pc x ho hid
    · exact hrpc x (h.thread_rpc hold hid)
  build_unique := by
    intro t₁ t₂ pc₁ pc₂ x h₁ h₂ hb₁ hb₂
    rcases thread_of_update hthread h₁ with ⟨rfl, ho₁⟩ | ⟨hne₁, hold₁⟩ <;>
      rcases thread_of_update hthread h₂ with ⟨rfl, ho₂⟩ | ⟨hne₂, hold₂⟩
    · rfl
    · exact (hne₂ (hbuild pc₁ x ho₁ hb₁ t₂ pc₂ hold₂ hb₂)).elim
    · exact (hne₁ (hbuild pc₂ x ho₂ hb₂ t₁ pc₁ hold₁ hb₁)).elim
    · exact h.build_unique hold₁ hold₂ hb₁ hb₂
  mutex := hmutex
  force_pacer := by
    intro t' x ret ht'
    rcases thread_of_update hthread ht' with ⟨-, ho⟩ | ⟨-, hold⟩
    · exact hforce x ret ho
    · exact h.force_pacer hold
  sent_fresh := by
    intro x hx
    rw [hsent x hx]
    apply h.sent_fresh
    cases hs : s.rpc x with
    | none => rfl
    | some r =>
      have := hrpc x (by rw [hs]; rfl)
      rw [hx] at this
      exact absurd this Bool.false_ne_true

theorem Wf.frame (h : s.Wf) (hthread : s'.thread = s.thread) (hbusy : s'.pacerBusy = s.pacerBusy)
    (hrpc : ∀ x, (s.rpc x).isSome → (s'.rpc x).isSome) (hsent : s'.sent = s.sent) : s'.Wf := by
  have hthread' : s'.thread = Function.update s.thread 0 (s.thread 0) := by
    rw [hthread, Function.update_eq_self]
  refine h.update hthread' (h.mutex.update hthread' hbusy rfl) hrpc (fun x _ => by rw [hsent])
    (fun pc x ho hid => hrpc x (h.thread_rpc ho hid)) ?_ (fun x ret ho => h.force_pacer ho)
  intro pc x ho hb
  exact h.builders ho hb

theorem Wf.continue (h : s.Wf) {pc₀ pc : TxPc} (ht : s.thread t = some pc₀)
    (hthread : s'.thread = Function.update s.thread t (some pc)) (hbusy : s'.pacerBusy = s.pacerBusy)
    (hrpc : ∀ x, (s.rpc x).isSome → (s'.rpc x).isSome)
    (hsent : ∀ x, s'.rpc x = none → s'.sent x = s.sent x)
    (hwork : ∀ x, pc.rpcId = some x → (s'.rpc x).isSome)
    (hbuild : ∀ x, (pc.toBuild x).isSome → (pc₀.toBuild x).isSome)
    (hpacer : pc.inPacer = pc₀.inPacer) (hforce : ∀ x ret, pc ≠ .xmit x true ret) : s'.Wf :=
  h.update hthread (h.mutex.update hthread hbusy (by rw [ht]; exact hpacer)) hrpc hsent
    (fun _ x ho hid => by cases ho; exact hwork x hid)
    (fun _ x ho hb => by cases ho; exact h.builders ht (hbuild x hb))
    (fun x ret ho => by cases ho; exact absurd rfl (hforce x ret))

theorem Wf.stop (h : s.Wf) {pc₀ : TxPc} (ht : s.thread t = some pc₀)
    (hthread : s'.thread = Function.update s.thread t none)
    (hbusy : s'.pacerBusy = if pc₀.inPacer then false else s.pacerBusy)
    (hrpc : ∀ x, (s.rpc x).isSome → (s'.rpc x).isSome) (hsent : s'.sent = s.sent) : s'.Wf := by
  have hmutex : s'.MutexInv := by
    cases hin : pc₀.inPacer
    · rw [hin] at hbusy
      exact h.mutex.update hthread hbusy (by rw [ht, Option.any_none, Option.any_some, hin])
    · rw [hin] at hbusy
      exact h.mutex.leave hthread ht hin rfl hbusy
  exact h.update hthread hmutex hrpc (fun _ _ => by rw [hsent]) (fun _ _ ho => by cases ho)
    (fun _ _ ho => by cases ho) (fun _ _ ho => by cases ho)

end Update

/-! ## `Wf` region by region -/

section Regions

variable {s : TxSys} {t id : ℕ}

theorem Wf.sendmsg (h : s.Wf) (hthread : s.thread t = none) (hfresh : s.rpc id = none)
    (length unschedBytes : ℤ) (plan : List TxPacket) :
    (s.sendmsg t id length unschedBytes plan).Wf := by
  have hth : (s.sendmsg t id length unschedBytes plan).thread =
      Function.update s.thread t (some (.fill id plan)) := rfl
  refine h.update hth (h.mutex.update hth rfl (by rw [hthread]; rfl))
    (fun x hx => isSome_update _ _ _ hx) (fun _ _ => rfl) ?_ ?_ (fun _ _ ho => by cases ho)
  · -- the new thread works on the new RPC
    rintro pc x ho hid
    cases ho
    cases hid
    rw [show (s.sendmsg t id length unschedBytes plan).rpc =
      Function.update s.rpc id (some (txRpcInit length unschedBytes s.clock)) from rfl, Function.update_self]
    rfl
  · -- nobody builds the fresh message yet
    rintro pc x ho hb t' pc' ht' hb'
    cases ho
    have hx := TxPc.rpcId_of_toBuild hb
    cases hx
    have hsome := h.thread_rpc ht' (TxPc.rpcId_of_toBuild hb')
    rw [hfresh] at hsome
    exact absurd hsome Bool.false_ne_true

theorem Wf.fillStep (h : s.Wf) {rest : List TxPacket} (ht : s.thread t = some (.fill id rest))
    (allocOk : Bool) : (s.fillStep cfg t id allocOk rest).Wf := by
  have hid : (s.rpc id).isSome := h.thread_rpc ht rfl
  rcases @fillStep_cases cfg s t id allocOk rest with
    ⟨-, heq⟩ | ⟨skb, rest', -, -, heq⟩ | ⟨skb, rest', r, -, -, -, heq⟩ |
      ⟨skb, rest', r, -, hr, -, -, heq⟩ <;> rw [heq]
  · -- the loop is over: on to `homa_xmit_data`
    exact h.continue ht rfl rfl (fun _ hx => hx) (fun _ _ => rfl)
      (fun x hx => by cases hx; exact hid) (fun _ hb => by simp [TxPc.toBuild] at hb) rfl
      (fun _ _ he => by cases he)
  · exact h.stop ht rfl rfl (fun _ hx => hx) rfl
  · -- the fill fails and the RPC ends
    refine h.stop ht (by simp) (by simp [TxPc.inPacer]) (fun x hx => ?_) (by simp)
    simp only [setThread_rpc, rpcEnd_rpc]
    by_cases hx' : x = id
    · subst hx'
      rw [Function.update_self]
      simpa using hx
    · rw [Function.update_of_ne hx']
      exact hx
  · -- a packet is appended, and maybe sent at once
    refine h.continue ht rfl rfl (fun x hx => isSome_update _ _ _ hx) (fun _ _ => rfl)
      (fun x hx => ?_) (fun x hb => ?_) (by split_ifs <;> rfl) (fun x ret => by split_ifs <;> simp)
    · have hx' : x = id := by split_ifs at hx <;> simpa [TxPc.rpcId] using hx.symm
      subst hx'
      simp
    · split_ifs at hb <;> simpa [TxPc.toBuild] using hb

theorem Wf.xmitStep (h : s.Wf) {force : Bool} {ret : XmitReturn}
    (ht : s.thread t = some (.xmit id force ret)) : (s.xmitStep cfg t id force ret).Wf := by
  have hid : (s.rpc id).isSome := h.thread_rpc ht rfl
  rcases @xmitStep_cases cfg s t id force ret with
    ⟨hr, -⟩ | ⟨r, r', p, skb, prio, hr, -, heq⟩ | ⟨r, p, hr, -, heq⟩
  · rw [hr] at hid
    exact absurd hid Bool.false_ne_true
  · -- a packet goes out and the loop goes on, unforced
    rw [heq]
    refine h.continue ht rfl rfl (fun x hx => isSome_update _ _ _ hx) (fun x hx => ?_)
      (fun x hx => by cases hx; simp) (fun _ hb => by cases ret <;> exact hb) (by cases ret <;> rfl)
      (fun _ _ he => by cases he)
    have hne : x ≠ id := by
      rintro rfl
      simp at hx
    simp [Function.update_of_ne hne]
  · -- the loop ends: back to the caller
    rw [heq]
    cases ret with
    | leave => exact h.stop ht rfl rfl (fun _ hx => hx) rfl
    | fill rest =>
      exact h.continue ht rfl rfl (fun _ hx => hx) (fun _ _ => rfl) (fun x hx => by cases hx; exact hid)
        (fun _ hb => hb) rfl (fun _ _ he => by cases he)
    | pacer =>
      rw [xmitReturn_pacer]
      exact h.continue ht rfl rfl (fun _ hx => hx) (fun _ _ => rfl) (fun _ hx => by cases hx)
        (fun _ hb => by simp [TxPc.toBuild] at hb) rfl (fun _ _ he => by cases he)

theorem Wf.pacerTopStep (h : s.Wf) (ht : s.thread t = some .pacerTop) : (s.pacerTopStep cfg t).Wf := by
  rcases pacerTopStep_cases cfg (s := s) (t := t) with ⟨-, heq⟩ | ⟨-, -, heq⟩ <;> rw [heq]
  · exact h.stop ht rfl rfl (fun _ hx => hx) rfl
  · exact h.continue ht rfl rfl (fun _ hx => hx) (fun _ _ => rfl) (fun _ hx => by cases hx)
      (fun _ hb => by simp [TxPc.toBuild] at hb) rfl (fun _ _ he => by cases he)

theorem Wf.pacerSelectStep (h : s.Wf) (hthr : s.ThrottleInv) (ht : s.thread t = some .pacerSelect) :
    (s.pacerSelectStep cfg t).Wf := by
  rw [pacerSelectStep_eq]
  dsimp only
  cases hc : (homaPacerSelect cfg s.initTime s.pacer).2 with
  | none => exact h.stop ht rfl rfl (fun _ hx => hx) rfl
  | some x =>
    -- the RPC chosen is on the list, so alive
    have hx : (s.rpc x).isSome := by
      obtain ⟨r, hr, -⟩ := hthr.live x (mem_of_homaPacerSelect hc)
      rw [hr]
      rfl
    have hth : (({ s with
        pacer := (homaPacerSelect cfg s.initTime s.pacer).1
        picks := s.picks + 1
        fifoPicks := s.fifoPicks + if homaPacerSelectFifo cfg s.pacer then 1 else 0 } : TxSys).setThread t
          (some (.xmit x true .pacer))).thread = Function.update s.thread t (some (.xmit x true .pacer)) := rfl
    refine h.update hth (h.mutex.update hth rfl (by rw [ht]; rfl)) (fun _ hy => hy) (fun _ _ => rfl)
      (fun pc y ho hid => ?_) (fun pc y ho hb => ?_) (fun y ret ho => ?_)
    · cases ho
      cases hid
      exact hx
    · cases ho
      simp [TxPc.toBuild] at hb
    · cases ho
      rfl

theorem Wf.startXmit {s' : TxSys} (h : s.Wf) (hthread : s.thread t = none)
    (hth : s'.thread = Function.update s.thread t (some (.xmit id false .leave)))
    (hbusy : s'.pacerBusy = s.pacerBusy) (hrpc : ∀ x, (s.rpc x).isSome → (s'.rpc x).isSome)
    (hsent : s'.sent = s.sent) (hid : (s'.rpc id).isSome) : s'.Wf :=
  h.update hth (h.mutex.update hth hbusy (by rw [hthread]; rfl)) hrpc (fun _ _ => by rw [hsent])
    (fun _ x ho hx => by cases ho; cases hx; exact hid) (fun _ _ ho hb => by cases ho; simp [TxPc.toBuild] at hb)
    (fun _ _ ho => by cases ho)

theorem Wf.grantPkt (h : s.Wf) {r : TxRpc} (hthread : s.thread t = none) (hr : s.rpc id = some r)
    (offset : ℤ) (priority : ℕ) : (s.grantPkt t id offset priority).Wf := by
  rcases grantPkt_cases hr offset priority (t := t) with ⟨-, heq⟩ | ⟨-, heq⟩ <;> rw [heq]
  · exact h.startXmit hthread rfl rfl (fun _ hx => isSome_update _ _ _ hx) rfl (by simp)
  · exact h

theorem Wf.resendPkt (h : s.Wf) {r : TxRpc} (hthread : s.thread t = none) (hr : s.rpc id = some r)
    (offset length : ℤ) (held : ℕ → Bool) (segs : List TxPacket) :
    (s.resendPkt cfg t id offset length held segs).Wf := by
  obtain ⟨l, heq | ⟨stop, -, heq⟩⟩ := resendPkt_forced cfg hr offset length held segs (t := t) <;>
    rw [heq] <;>
    -- the forced segments change nothing the bookkeeping reads
    have h₀ : (s.resendData cfg id l).Wf := h.frame (by simp) (by simp) (fun _ hx => by simpa using hx) (by simp)
  · exact h₀.frame rfl rfl (fun _ hx => isSome_update _ _ _ hx) rfl
  · exact h₀.startXmit (by simpa using hthread) rfl rfl (fun _ hx => isSome_update _ _ _ hx) rfl (by simp)

theorem Wf.rpcEnd (h : s.Wf) (id : ℕ) : (s.rpcEnd id).Wf := by
  refine h.frame (by simp) (by simp) (fun x hx => ?_) (by simp)
  rw [rpcEnd_rpc]
  by_cases hx' : x = id
  · subst hx'
    rw [Function.update_self]
    simpa using hx
  · rw [Function.update_of_ne hx']
    exact hx

theorem Wf.pacerXmit (h : s.Wf) : (s.pacerXmit t).Wf := by
  rcases pacerXmit_cases (s := s) (t := t) with ⟨-, heq⟩ | ⟨hfree, heq⟩ <;> rw [heq]
  · exact h
  · have hth : ({ s.setThread t (some .pacerTop) with pacerBusy := true } : TxSys).thread =
        Function.update s.thread t (some .pacerTop) := rfl
    exact h.update hth (h.mutex.enter hth rfl hfree rfl) (fun _ hx => hx) (fun _ _ => rfl)
      (fun _ _ ho hx => by cases ho; cases hx) (fun _ _ ho hb => by cases ho; simp [TxPc.toBuild] at hb)
      (fun _ _ ho => by cases ho)

end Regions

/-! ## The throttled list region by region -/

section Throttle

variable {s s' : TxSys} {t id : ℕ}

theorem ThrottleInv.frame (h : s.ThrottleInv) (hlist : s'.pacer.throttled = s.pacer.throttled)
    (hlive : ∀ x r, s.rpc x = some r → r.state ≠ .dead → ∃ r', s'.rpc x = some r' ∧ r'.state ≠ .dead) :
    s'.ThrottleInv where
  nodup := hlist ▸ h.nodup
  live x hx := by
    rw [hlist] at hx
    obtain ⟨r, hr, hl⟩ := h.live x hx
    exact hlive x r hr hl

theorem live_update {r' : TxRpc} (hstate : ∀ r, s.rpc id = some r → r.state ≠ .dead → r'.state ≠ .dead)
    (x : ℕ) (r : TxRpc) (hr : s.rpc x = some r) (hl : r.state ≠ .dead) :
    ∃ q, Function.update s.rpc id (some r') x = some q ∧ q.state ≠ .dead := by
  by_cases hx : x = id
  · subst hx
    exact ⟨r', Function.update_self .., hstate r hr hl⟩
  · exact ⟨r, by rw [Function.update_of_ne hx, hr], hl⟩

theorem ThrottleInv.rpcEnd (h : s.ThrottleInv) (id : ℕ) : (s.rpcEnd id).ThrottleInv := by
  rcases rpcEnd_cases s id with heq | ⟨r, hr, -, heq⟩ <;> rw [heq]
  · exact h
  · refine ⟨nodup_homaPacerUnmanageRpc h.nodup, fun x hx => ?_⟩
    obtain ⟨hne, hmem⟩ := (mem_homaPacerUnmanageRpc h.nodup).mp hx
    obtain ⟨q, hq, hl⟩ := h.live x hmem
    exact ⟨q, by simp [Function.update_of_ne hne, hq], hl⟩

theorem ThrottleInv.fillStep (h : s.ThrottleInv) (allocOk : Bool) (rest : List TxPacket) :
    (s.fillStep cfg t id allocOk rest).ThrottleInv := by
  rcases @fillStep_cases cfg s t id allocOk rest with
    ⟨-, heq⟩ | ⟨skb, rest', -, -, heq⟩ | ⟨skb, rest', r, -, -, -, heq⟩ |
      ⟨skb, rest', r, -, hr, -, -, heq⟩ <;> rw [heq]
  · exact ⟨h.nodup, h.live⟩
  · exact ⟨h.nodup, h.live⟩
  · have := h.rpcEnd id
    exact ⟨this.nodup, this.live⟩
  · refine h.frame rfl (fun x q hq hl => live_update (fun r₀ hr₀ hl₀ => ?_) x q hq hl)
    rw [hr, Option.some.injEq] at hr₀
    subst hr₀
    exact hl₀

theorem ThrottleInv.xmitStep (h : s.ThrottleInv) (force : Bool) (ret : XmitReturn) :
    (s.xmitStep cfg t id force ret).ThrottleInv := by
  rcases @xmitStep_cases cfg s t id force ret with
    ⟨-, heq⟩ | ⟨r, r', p, skb, prio, hr, hb, heq⟩ | ⟨r, p, hr, hb, heq⟩ <;> rw [heq]
  · exact ⟨h.nodup, h.live⟩
  · -- sending moves the idle time only
    obtain ⟨-, -, -, rfl, ⟨idle, rfl, -⟩, -⟩ := homaXmitDataBody_send hb
    refine h.frame rfl (fun x q hq hl => live_update (fun r₀ hr₀ hl₀ => ?_) x q hq hl)
    rw [hr, Option.some.injEq] at hr₀
    subst hr₀
    exact hl₀
  · -- the loop ends, maybe throttling the RPC, which is live
    have hp : ({ s with pacer := p } : TxSys).ThrottleInv := by
      rcases homaXmitDataBody_exit hb with ⟨-, rfl⟩ | ⟨skb, -, hlive, -, -, -, -, rfl⟩
      · exact h
      · refine ⟨nodup_homaPacerManageRpc h.nodup, fun x hx => ?_⟩
        rcases (mem_homaPacerManageRpc).mp hx with rfl | hmem
        · exact ⟨r, hr, hlive⟩
        · exact h.live x hmem
    cases ret with
    | leave => exact ⟨hp.nodup, hp.live⟩
    | fill rest => exact ⟨hp.nodup, hp.live⟩
    | pacer =>
      rw [xmitReturn_pacer]
      split_ifs
      · refine ⟨nodup_homaPacerUnmanageRpc hp.nodup, fun x hx => ?_⟩
        exact hp.live x ((mem_homaPacerUnmanageRpc hp.nodup).mp hx).2
      · exact ⟨hp.nodup, hp.live⟩

theorem ThrottleInv.pacerSelectStep (h : s.ThrottleInv) : (s.pacerSelectStep cfg t).ThrottleInv := by
  rw [pacerSelectStep_eq]
  dsimp only
  split
  · exact h.frame (by simp) (fun x r hr hl => ⟨r, hr, hl⟩)
  · exact h.frame (by simp) (fun x r hr hl => ⟨r, hr, hl⟩)

theorem ThrottleInv.grantPkt (h : s.ThrottleInv) {r : TxRpc} (hr : s.rpc id = some r)
    (offset : ℤ) (priority : ℕ) : (s.grantPkt t id offset priority).ThrottleInv := by
  rcases grantPkt_cases hr offset priority (t := t) with ⟨-, heq⟩ | ⟨-, heq⟩ <;> rw [heq]
  · obtain ⟨g, q, hg⟩ := @homaGrantPktUpdate_eq r offset priority
    refine h.frame rfl (fun x r₁ hr₁ hl₁ => live_update (fun r₀ hr₀ hl₀ => ?_) x r₁ hr₁ hl₁)
    rw [hr, Option.some.injEq] at hr₀
    subst hr₀
    rw [hg]
    exact hl₀
  · exact h

theorem ThrottleInv.resendPkt (h : s.ThrottleInv) {r : TxRpc} (hr : s.rpc id = some r)
    (offset length : ℤ) (held : ℕ → Bool) (segs : List TxPacket) :
    (s.resendPkt cfg t id offset length held segs).ThrottleInv := by
  obtain ⟨l, heq | ⟨stop, -, heq⟩⟩ := resendPkt_forced cfg hr offset length held segs (t := t) <;>
    rw [heq] <;>
    have h : (s.resendData cfg id l).ThrottleInv := h.frame (by simp) fun x r hr hl => ⟨r, by simpa using hr, hl⟩ <;>
    have hr : (s.resendData cfg id l).rpc id = some r := by simpa using hr
  · refine h.frame rfl (fun x r₁ hr₁ hl₁ => live_update (fun r₀ hr₀ hl₀ => ?_) x r₁ hr₁ hl₁)
    rw [hr, Option.some.injEq] at hr₀
    subst hr₀
    exact hl₀
  · obtain ⟨g, hg⟩ := @homaResendGrant_eq ({ r with firstNotTx := (homaRpcTxEnd held r).2 }) stop
    refine h.frame rfl (fun x r₁ hr₁ hl₁ => live_update (fun r₀ hr₀ hl₀ => ?_) x r₁ hr₁ hl₁)
    rw [hr, Option.some.injEq] at hr₀
    subst hr₀
    rw [hg]
    exact hl₀

end Throttle

/-! ## Every step, every run -/

section Runs

variable {s s' : TxSys}

theorem Init.wf (h : s.Init) : s.Wf where
  thread_rpc ht := by rw [h.thread_eq] at ht; cases ht
  build_unique ht := by rw [h.thread_eq] at ht; cases ht
  mutex := ⟨by simp [h.pacerBusy_eq, h.thread_eq], fun ht => by rw [h.thread_eq] at ht; cases ht⟩
  force_pacer ht := by rw [h.thread_eq] at ht; cases ht
  sent_fresh _ := h.sent_eq _

theorem Init.throttleInv (h : s.Init) : s.ThrottleInv where
  nodup := by rw [h.throttled_eq]; exact List.nodup_nil
  live x hx := by rw [h.throttled_eq] at hx; cases hx

theorem Step.wf (hw : s.Wf) (hthr : s.ThrottleInv) (hs : Step cfg s s') : s'.Wf := by
  cases hs with
  | sendmsg hthread hfresh => exact hw.sendmsg hthread hfresh _ _ _
  | run allocOk ht =>
    rename_i t pc
    cases pc with
    | fill id rest => exact hw.fillStep ht allocOk
    | xmit id force ret => exact hw.xmitStep ht
    | pacerTop => exact hw.pacerTopStep ht
    | pacerSelect => exact hw.pacerSelectStep hthr ht
  | grant offset priority hthread hrpc => exact hw.grantPkt hthread hrpc offset priority
  | resend offset length held segs hthread hrpc => exact hw.resendPkt hthread hrpc offset length held segs
  | rpcEnd id => exact hw.rpcEnd id
  | response hrpc => exact hw.frame rfl rfl (fun _ hx => isSome_update _ _ _ hx) rfl
  | pacerXmit => exact hw.pacerXmit
  | tick d => exact hw.frame rfl rfl (fun _ hx => hx) rfl

theorem Step.throttleInv (hthr : s.ThrottleInv) (hs : Step cfg s s') : s'.ThrottleInv := by
  cases hs with
  | sendmsg hthread hfresh =>
    refine hthr.frame rfl (fun x r hr hl => live_update (fun r₀ hr₀ _ => ?_) x r hr hl)
    rw [hfresh] at hr₀
    cases hr₀
  | run allocOk ht =>
    rename_i t pc
    cases pc with
    | fill id rest => exact hthr.fillStep allocOk rest
    | xmit id force ret => exact hthr.xmitStep force ret
    | pacerTop =>
      rcases pacerTopStep_cases cfg (s := s) (t := t) with ⟨-, heq⟩ | ⟨-, -, heq⟩ <;>
        rw [runThread, heq] <;> exact ⟨hthr.nodup, hthr.live⟩
    | pacerSelect => exact hthr.pacerSelectStep
  | grant offset priority hthread hrpc => exact hthr.grantPkt hrpc offset priority
  | resend offset length held segs hthread hrpc => exact hthr.resendPkt hrpc offset length held segs
  | rpcEnd id => exact hthr.rpcEnd id
  | response hrpc hclient hout =>
    refine hthr.frame rfl (fun x r hr hl => live_update (fun r₀ _ _ => ?_) x r hr hl)
    simp
  | pacerXmit =>
    rcases pacerXmit_cases (s := s) with ⟨-, heq⟩ | ⟨-, heq⟩ <;> rw [heq] <;>
      exact ⟨hthr.nodup, hthr.live⟩
  | tick d => exact ⟨hthr.nodup, hthr.live⟩

theorem Reachable.wf_throttleInv (h : Reachable cfg s) : s.Wf ∧ s.ThrottleInv := by
  induction h with
  | init hi => exact ⟨hi.wf, hi.throttleInv⟩
  | step _ hs ih => exact ⟨hs.wf ih.1 ih.2, hs.throttleInv ih.2⟩

end Runs

end TxSys

end Homa
