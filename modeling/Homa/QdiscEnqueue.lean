import Homa.QdiscTcp

/-!
# The order of TCP packets through a Homa qdisc

`homa_qdisc_enqueue` defers a non-Homa packet whenever its qdisc already has
deferred packets, to keep a stream in order.  The pacer, though, takes a
packet out under `defer_lock`, unlinking a qdisc it leaves empty, and only
later appends it under the qdisc's lock; a packet arriving in between finds
nothing deferred and overtakes it.  The transmit queues are the sequence of
appends; what `homa_qdisc_enqueue` reads of the rest of the device is an
input of the call.
-/

namespace Homa

/-- What the TCP path reads and does not change; `redirectQix` is `none` when
`homa_qdisc_redirect_skb` finds no Homa qdisc. -/
structure QdiscConfig where
  deferMinBytes : ℤ
  tcpCreditIncrement : ℤ
  pacerQix : ℕ
  redirectQix : Option ℕ

/-- The qdiscs of one `homa_qdisc_dev` on the TCP path: the deferral state,
the appends to the transmit queues, the packet the pacer holds, and the
packets handed in (`passed`). -/
structure QdiscSys where
  qdev : TcpQdiscDev
  appended : List (ℕ × TcpSkb)
  pacerSkb : Option (ℕ × TcpSkb)
  passed : List TcpSkb

/-- A call of `homa_qdisc_enqueue` with what it reads of the device; the part
of `homa_qdisc_xmit_deferred_tcp` under `defer_lock`; and its final append. -/
inductive QdiscOp where
  | enqueue (skb : TcpSkb) (homaDeferred linkIdle full : Bool)
  | pacerDequeue (fuel : ℕ)
  | pacerRequeue

/-- `homa_qdisc_any_deferred(qdev)`: Homa packets are deferred, or some qdisc
is on `tcp_qdiscs`. -/
def homaQdiscAnyDeferred (homaDeferred : Bool) (qdev : TcpQdiscDev) : Bool :=
  homaDeferred || !qdev.tcpQdiscs.isEmpty

namespace QdiscSys

/-- `qdisc_enqueue_tail` of a packet `homa_qdisc_enqueue` accepted, on the
queue `ix`. -/
def accept (s : QdiscSys) (ix : ℕ) (skb : TcpSkb) : QdiscSys :=
  { s with appended := s.appended ++ [(ix, skb)], passed := s.passed ++ [skb] }

/-- `homa_qdisc_defer_tcp(q, skb)` called from `homa_qdisc_enqueue`. -/
def deferTcp (s : QdiscSys) (skb : TcpSkb) : QdiscSys :=
  { s with qdev := homaQdiscDeferTcp skb.qdisc skb s.qdev, passed := s.passed ++ [skb] }

/-- The packets of qdisc `q` the pacer holds. -/
def pacerHolds (s : QdiscSys) (q : ℕ) : List TcpSkb :=
  match s.pacerSkb with
  | some (p, skb) => if p = q then [skb] else []
  | none => []

/-- The packets of qdisc `q` on the transmit queues, in the order they were
appended. -/
def appendedOf (s : QdiscSys) (q : ℕ) : List TcpSkb :=
  (s.appended.map Prod.snd).filter (·.qdisc = q)

/-- The packets handed in for qdisc `q` and not dropped, in order. -/
def passedOf (s : QdiscSys) (q : ℕ) : List TcpSkb :=
  s.passed.filter (·.qdisc = q)

end QdiscSys

/-- The `enqueue:` label of `homa_qdisc_enqueue`: the qdisc's own queue,
dropping the packet when it is at its limit; a packet of the pacer's queue
goes through `homa_qdisc_redirect_skb` instead. -/
def homaQdiscEnqueueLabel (cfg : QdiscConfig) (skb : TcpSkb) (full : Bool) (s : QdiscSys) :
    QdiscSys :=
  if skb.qdisc ≠ cfg.pacerQix then
    if full then s else s.accept skb.qdisc skb
  else
    match cfg.redirectQix with
    | some ix => s.accept ix skb
    | none => s

/-- The non-Homa branch of `homa_qdisc_enqueue(skb, sch)`. -/
def homaQdiscEnqueueTcp (cfg : QdiscConfig) (skb : TcpSkb) (homaDeferred linkIdle full : Bool)
    (s : QdiscSys) : QdiscSys :=
  if skb.qdisc ∈ s.qdev.tcpQdiscs then s.deferTcp skb
  else if (skb.len : ℤ) < cfg.deferMinBytes then homaQdiscEnqueueLabel cfg skb full s
  else if !homaQdiscAnyDeferred homaDeferred s.qdev && linkIdle then
    homaQdiscEnqueueLabel cfg skb full s
  else s.deferTcp skb

namespace QdiscSys

/-- One step.  `homa_qdisc_pacer` holds `pacer_mutex`, so the pacer takes a
packet only when it holds none. -/
def step (cfg : QdiscConfig) (s : QdiscSys) : QdiscOp → Option QdiscSys
  | .enqueue skb homaDeferred linkIdle full =>
      some (homaQdiscEnqueueTcp cfg skb homaDeferred linkIdle full s)
  | .pacerDequeue fuel =>
      match s.pacerSkb with
      | some _ => none
      | none =>
          match homaQdiscXmitDeferredTcp cfg.tcpCreditIncrement fuel s.qdev with
          | some .idle => some s
          | some (.sent q skb qdev) => some { s with qdev, pacerSkb := some (q, skb) }
          | none => none
  | .pacerRequeue =>
      match s.pacerSkb with
      | some (q, skb) => some { s with appended := s.appended ++ [(q, skb)], pacerSkb := none }
      | none => none

def exec (cfg : QdiscConfig) : List QdiscOp → QdiscSys → Option QdiscSys
  | [], s => some s
  | op :: ops, s => (s.step cfg op).bind (exec cfg ops)

structure Init (s : QdiscSys) : Prop where
  qdev_init : s.qdev.Init
  appended_nil : s.appended = []
  pacer_none : s.pacerSkb = none
  passed_nil : s.passed = []

inductive Reachable (cfg : QdiscConfig) (allowed : QdiscSys → QdiscOp → Prop) :
    QdiscSys → Prop where
  | init {s : QdiscSys} : s.Init → Reachable cfg allowed s
  | step {s s' : QdiscSys} {op : QdiscOp} : Reachable cfg allowed s → allowed s op →
      s.step cfg op = some s' → Reachable cfg allowed s'

/-- No packet of a qdisc is handed in while the pacer holds one of its
packets. -/
def WindowClosed (s : QdiscSys) : QdiscOp → Prop
  | .enqueue skb _ _ _ => s.pacerHolds skb.qdisc = []
  | _ => True

/-- Every qdisc's packets, appended, then in the pacer's hands, then
deferred, are the packets handed in for it, in order. -/
structure InOrder (s : QdiscSys) : Prop where
  linked : s.qdev.Linked
  deferred_qdisc : ∀ q, ∀ skb ∈ s.qdev.tcpDeferred q, skb.qdisc = q
  pacer_qdisc : ∀ q skb, s.pacerSkb = some (q, skb) → skb.qdisc = q
  order : ∀ q, s.appendedOf q ++ s.pacerHolds q ++ s.qdev.tcpDeferred q = s.passedOf q

variable {s : QdiscSys} {q : ℕ}

@[simp] theorem appendedOf_accept (ix : ℕ) (skb : TcpSkb) :
    (s.accept ix skb).appendedOf q = s.appendedOf q ++ if skb.qdisc = q then [skb] else [] := by
  simp [accept, appendedOf, List.filter_cons]

@[simp] theorem passedOf_accept (ix : ℕ) (skb : TcpSkb) :
    (s.accept ix skb).passedOf q = s.passedOf q ++ if skb.qdisc = q then [skb] else [] := by
  simp [accept, passedOf, List.filter_cons]

@[simp] theorem pacerHolds_accept (ix : ℕ) (skb : TcpSkb) :
    (s.accept ix skb).pacerHolds q = s.pacerHolds q := rfl

@[simp] theorem qdev_accept (ix : ℕ) (skb : TcpSkb) : (s.accept ix skb).qdev = s.qdev := rfl

@[simp] theorem appendedOf_deferTcp (skb : TcpSkb) :
    (s.deferTcp skb).appendedOf q = s.appendedOf q := rfl

@[simp] theorem passedOf_deferTcp (skb : TcpSkb) :
    (s.deferTcp skb).passedOf q = s.passedOf q ++ if skb.qdisc = q then [skb] else [] := by
  simp [deferTcp, passedOf, List.filter_cons]

@[simp] theorem pacerHolds_deferTcp (skb : TcpSkb) :
    (s.deferTcp skb).pacerHolds q = s.pacerHolds q := rfl

@[simp] theorem qdev_deferTcp (skb : TcpSkb) :
    (s.deferTcp skb).qdev = homaQdiscDeferTcp skb.qdisc skb s.qdev := rfl

theorem InOrder.deferTcp (h : s.InOrder) (skb : TcpSkb) : (s.deferTcp skb).InOrder := by
  refine ⟨h.linked.deferTcp skb.qdisc skb, fun p x hx => ?_, h.pacer_qdisc, fun p => ?_⟩
  · simp only [qdev_deferTcp, homaQdiscDeferTcp_tcpDeferred] at hx
    by_cases hp : p = skb.qdisc
    · subst hp
      rw [Function.update_self, List.mem_append, List.mem_singleton] at hx
      rcases hx with hx | rfl
      · exact h.deferred_qdisc _ x hx
      · rfl
    · rw [Function.update_of_ne hp] at hx
      exact h.deferred_qdisc p x hx
  · simp only [appendedOf_deferTcp, pacerHolds_deferTcp, qdev_deferTcp,
      homaQdiscDeferTcp_tcpDeferred, passedOf_deferTcp, ← h.order p]
    by_cases hp : p = skb.qdisc
    · subst hp
      simp
    · simp [Function.update_of_ne hp, Ne.symm hp]

theorem InOrder.accept (h : s.InOrder) {skb : TcpSkb} (hq : skb.qdisc ∉ s.qdev.tcpQdiscs)
    (hwin : s.pacerHolds skb.qdisc = []) (ix : ℕ) : (s.accept ix skb).InOrder := by
  refine ⟨h.linked, h.deferred_qdisc, h.pacer_qdisc, fun p => ?_⟩
  simp only [appendedOf_accept, pacerHolds_accept, qdev_accept, passedOf_accept, ← h.order p]
  by_cases hp : skb.qdisc = p
  · subst hp
    -- the qdisc is off the list, so it has no deferred packets
    have hnil : s.qdev.tcpDeferred skb.qdisc = [] := by
      by_contra hne
      exact hq ((h.linked.mem_iff _).mpr hne)
    simp [hnil, hwin]
  · simp [hp]

end QdiscSys

theorem homaQdiscEnqueueTcp_cases (cfg : QdiscConfig) (skb : TcpSkb)
    (homaDeferred linkIdle full : Bool) (s : QdiscSys) :
    homaQdiscEnqueueTcp cfg skb homaDeferred linkIdle full s = s.deferTcp skb ∨
      skb.qdisc ∉ s.qdev.tcpQdiscs ∧
        homaQdiscEnqueueTcp cfg skb homaDeferred linkIdle full s =
          homaQdiscEnqueueLabel cfg skb full s := by
  unfold homaQdiscEnqueueTcp
  split_ifs with hmem
  · exact .inl rfl
  · exact .inr ⟨hmem, rfl⟩
  · exact .inr ⟨hmem, rfl⟩
  · exact .inl rfl

theorem homaQdiscEnqueueLabel_cases (cfg : QdiscConfig) (skb : TcpSkb) (full : Bool)
    (s : QdiscSys) :
    homaQdiscEnqueueLabel cfg skb full s = s ∨
      ∃ ix, homaQdiscEnqueueLabel cfg skb full s = s.accept ix skb := by
  unfold homaQdiscEnqueueLabel
  split_ifs
  · exact .inl rfl
  · exact .inr ⟨_, rfl⟩
  · split
    · exact .inr ⟨_, rfl⟩
    · exact .inl rfl

namespace QdiscSys

variable {cfg : QdiscConfig} {s s' : QdiscSys} {op : QdiscOp}

theorem InOrder.enqueue (h : s.InOrder) {skb : TcpSkb} (hwin : s.pacerHolds skb.qdisc = [])
    (homaDeferred linkIdle full : Bool) :
    (homaQdiscEnqueueTcp cfg skb homaDeferred linkIdle full s).InOrder := by
  rcases homaQdiscEnqueueTcp_cases cfg skb homaDeferred linkIdle full s with hd | ⟨hq, hl⟩
  · exact hd ▸ h.deferTcp skb
  · rw [hl]
    rcases homaQdiscEnqueueLabel_cases cfg skb full s with hs | ⟨ix, ha⟩
    · rw [hs]
      exact h
    · rw [ha]
      exact h.accept hq hwin ix

theorem InOrder.pacerDequeue (h : s.InOrder) (hnone : s.pacerSkb = none) {fuel q : ℕ}
    {skb : TcpSkb} {qdev : TcpQdiscDev}
    (hx : homaQdiscXmitDeferredTcp cfg.tcpCreditIncrement fuel s.qdev = some (.sent q skb qdev)) :
    ({ s with qdev, pacerSkb := some (q, skb) } : QdiscSys).InOrder := by
  obtain ⟨rest, hq, hdef⟩ := homaQdiscXmitDeferredTcp_spec hx
  have hskb : skb.qdisc = q := h.deferred_qdisc q skb (by simp [hq])
  refine ⟨h.linked.xmit hx, fun p x hx' => ?_, fun p y hy => ?_, fun p => ?_⟩
  · simp only [hdef] at hx'
    by_cases hp : p = q
    · subst hp
      rw [Function.update_self] at hx'
      exact h.deferred_qdisc p x (by simp [hq, hx'])
    · rw [Function.update_of_ne hp] at hx'
      exact h.deferred_qdisc p x hx'
  · cases hy
    exact hskb
  · have horder := h.order p
    simp only [pacerHolds, hnone, List.append_nil] at horder
    simp only [appendedOf, passedOf, pacerHolds, hdef] at horder ⊢
    by_cases hp : q = p
    · subst hp
      rw [if_pos rfl, Function.update_self, ← horder, hq]
      simp
    · rw [if_neg hp, Function.update_of_ne (Ne.symm hp), List.append_nil, horder]

theorem InOrder.pacerRequeue (h : s.InOrder) {q : ℕ} {skb : TcpSkb}
    (hsome : s.pacerSkb = some (q, skb)) :
    ({ s with appended := s.appended ++ [(q, skb)], pacerSkb := none } : QdiscSys).InOrder := by
  have hskb : skb.qdisc = q := h.pacer_qdisc q skb hsome
  refine ⟨h.linked, h.deferred_qdisc, fun p y hy => by simp at hy, fun p => ?_⟩
  have horder := h.order p
  simp only [pacerHolds, hsome] at horder
  simp only [appendedOf, passedOf, pacerHolds, List.map_append, List.filter_append] at horder ⊢
  by_cases hp : q = p
  · subst hp
    rw [if_pos rfl] at horder
    simp [← horder, hskb]
  · rw [if_neg hp] at horder
    simp [← horder, hskb, hp]

theorem InOrder.step (h : s.InOrder) (hop : s.WindowClosed op) (hs : s.step cfg op = some s') :
    s'.InOrder := by
  cases op with
  | enqueue skb homaDeferred linkIdle full =>
      cases hs
      exact h.enqueue hop homaDeferred linkIdle full
  | pacerDequeue fuel =>
      simp only [step] at hs
      split at hs
      · cases hs
      · rename_i hnone
        split at hs
        · cases hs
          exact h
        · rename_i q skb qdev hx
          cases hs
          exact h.pacerDequeue hnone hx
        · cases hs
  | pacerRequeue =>
      simp only [step] at hs
      split at hs
      · rename_i q skb hsome
        cases hs
        exact h.pacerRequeue hsome
      · cases hs

theorem Init.inOrder (h : s.Init) : s.InOrder := by
  have hq := h.qdev_init
  refine ⟨hq.inv.linked, fun q skb hskb => ?_, fun q skb hp => ?_, fun q => ?_⟩
  · simp [hq.deferred_nil q] at hskb
  · simp [h.pacer_none] at hp
  · simp [appendedOf, passedOf, pacerHolds, h.appended_nil, h.pacer_none, h.passed_nil,
      hq.deferred_nil q]

theorem Reachable.inOrder (h : s.Reachable cfg WindowClosed) : s.InOrder := by
  induction h with
  | init hi => exact hi.inOrder
  | step _ hop hs ih => exact ih.step hop hs

theorem Reachable.exec {allowed : QdiscSys → QdiscOp → Prop} {ops : List QdiscOp}
    (h : s.Reachable cfg allowed) (hok : ∀ s₁ op, op ∈ ops → allowed s₁ op)
    (hexec : QdiscSys.exec cfg ops s = some s') : s'.Reachable cfg allowed := by
  induction ops generalizing s with
  | nil =>
    cases hexec
    exact h
  | cons op ops ih =>
    obtain ⟨s₁, hs₁, hrest⟩ := Option.bind_eq_some_iff.1 hexec
    exact ih (h.step (hok s op List.mem_cons_self) hs₁)
      (fun s₂ op' hop => hok s₂ op' (List.mem_cons_of_mem op hop)) hrest

/-- Over every interleaving in which no packet of a qdisc is handed in while
the pacer holds one of its packets, each qdisc's packets are appended to the
transmit queues in the order they were handed to `homa_qdisc_enqueue`. -/
theorem Reachable.appended_prefix (h : s.Reachable cfg WindowClosed) (q : ℕ) :
    s.appendedOf q <+: s.passedOf q := by
  rw [← h.inOrder.order q, List.append_assoc]
  exact List.prefix_append _ _

end QdiscSys

/-- A device with nothing deferred, nothing appended and the pacer idle. -/
def qdiscSysInit : QdiscSys := ⟨tcpQdiscDevInit, [], none, []⟩

theorem qdiscSysInit_init : qdiscSysInit.Init := ⟨tcpQdiscDevInit_init, rfl, rfl, rfl⟩

theorem QdiscSys.Reachable.appended_prefix_pacerRequeue :
    ∃ s : QdiscSys, s.Reachable ⟨1000, 20000, 1, some 1⟩ QdiscSys.WindowClosed ∧
      s.appendedOf 0 = [⟨0, 0, 1500⟩] ∧ s.passedOf 0 = [⟨0, 0, 1500⟩, ⟨0, 1, 100⟩] ∧
      s.appendedOf 0 <+: s.passedOf 0 := by
  -- both packets are handed in before the pacer holds any
  have hdeferred : (qdiscSysInit.deferTcp ⟨0, 0, 1500⟩ |>.deferTcp ⟨0, 1, 100⟩).Reachable
      ⟨1000, 20000, 1, some 1⟩ QdiscSys.WindowClosed :=
    .step (.step (.init qdiscSysInit_init)
      (show qdiscSysInit.WindowClosed (.enqueue ⟨0, 0, 1500⟩ false false false) from rfl) rfl)
      (show (qdiscSysInit.deferTcp ⟨0, 0, 1500⟩).WindowClosed
        (.enqueue ⟨0, 1, 100⟩ false true false) from rfl) rfl
  have hpacer : (QdiscSys.exec ⟨1000, 20000, 1, some 1⟩ [.pacerDequeue 1, .pacerRequeue]
      (qdiscSysInit.deferTcp ⟨0, 0, 1500⟩ |>.deferTcp ⟨0, 1, 100⟩)).map
        (fun s => (s.appendedOf 0, s.passedOf 0)) =
      some ([⟨0, 0, 1500⟩], [⟨0, 0, 1500⟩, ⟨0, 1, 100⟩]) := by
    decide +kernel
  obtain ⟨s, hs, hval⟩ := Option.map_eq_some_iff.1 hpacer
  simp only [Prod.mk.injEq] at hval
  have hreach : s.Reachable ⟨1000, 20000, 1, some 1⟩ QdiscSys.WindowClosed :=
    hdeferred.exec (fun _ op hop => by
      simp only [List.mem_cons, List.not_mem_nil, or_false] at hop
      rcases hop with rfl | rfl <;> trivial) hs
  exact ⟨s, hreach, hval.1, hval.2, hreach.appended_prefix 0⟩

theorem homaQdiscEnqueue_tcp_reorders :
    ∃ s, QdiscSys.exec ⟨1000, 20000, 1, some 1⟩
        [.enqueue ⟨0, 0, 1500⟩ false false false, .pacerDequeue 1,
          .enqueue ⟨0, 1, 100⟩ false true false, .pacerRequeue] qdiscSysInit = some s ∧
      s.passedOf 0 = [⟨0, 0, 1500⟩, ⟨0, 1, 100⟩] ∧
      s.appendedOf 0 = [⟨0, 1, 100⟩, ⟨0, 0, 1500⟩] := by
  have hwrap : MachineArith.wrapInt 32 20000 = 20000 :=
    MachineArith.wrapInt_32_of_mem (by norm_num) (by norm_num)
  simp [QdiscSys.exec, QdiscSys.step, homaQdiscEnqueueTcp, QdiscSys.deferTcp, qdiscSysInit,
    tcpQdiscDevInit, homaQdiscDeferTcp, homaQdiscXmitDeferredTcp, homaQdiscTcpStart,
    FuelLoop.run, homaQdiscCreditBody, TcpQdiscDev.addCredit_credit, hwrap, homaQdiscDequeueTcp,
    homaQdiscEnqueueLabel, QdiscSys.accept, QdiscSys.appendedOf, QdiscSys.passedOf]

end Homa
