import Mathlib.Data.List.Cycle
import Mathlib.Algebra.BigOperators.Group.Finset.Basic
import Homa.FuelLoop
import Homa.MachineArith

/-!
# Deferred TCP packets and the credit round robin

`homa_qdisc_defer_tcp` queues a packet on its qdisc's `tcp_deferred`, and a
qdisc that had none joins `qdev->tcp_qdiscs` with zero credit.
`homa_qdisc_xmit_deferred_tcp` walks the list circularly from
`cur_tcp_qdisc`, adding `tcp_credit_increment` to each qdisc it steps onto,
until one has positive credit, and sends its oldest packet.

A qdisc is on the list exactly when it has deferred packets.  The cursor
needs more: `homa_qdisc_destroy` unlinks a qdisc without moving the cursor
off it, and the loop ends only for a positive increment, which
`homa_qdisc_dointvec` never checks.
-/

namespace Homa

open MachineArith FuelLoop

/-- A non-Homa packet: the qdisc it was handed to, its identity, and
`qdisc_pkt_len`. -/
structure TcpSkb where
  qdisc : ℕ
  id : ℕ
  len : ℕ
  deriving DecidableEq, Repr

/-- The TCP deferral fields of a `homa_qdisc_dev` and its qdiscs, numbered;
`q->defer_links` is non-empty exactly when `q` is on `tcpQdiscs`. -/
structure TcpQdiscDev where
  tcpDeferred : ℕ → List TcpSkb
  credit : ℕ → ℤ
  tcpQdiscs : List ℕ
  curTcpQdisc : Option ℕ

namespace TcpQdiscDev

def setDeferred (qdev : TcpQdiscDev) (q : ℕ) (skbs : List TcpSkb) : TcpQdiscDev :=
  { qdev with tcpDeferred := Function.update qdev.tcpDeferred q skbs }

def setCredit (qdev : TcpQdiscDev) (q : ℕ) (c : ℤ) : TcpQdiscDev :=
  { qdev with credit := Function.update qdev.credit q c }

/-- `q->credit += qshared->tcp_credit_increment`, an `int` sum. -/
def addCredit (qdev : TcpQdiscDev) (inc : ℤ) (q : ℕ) : TcpQdiscDev :=
  qdev.setCredit q (wrapInt 32 (qdev.credit q + inc))

variable (qdev : TcpQdiscDev) (q : ℕ)

@[simp] theorem setDeferred_tcpDeferred (skbs : List TcpSkb) :
    (qdev.setDeferred q skbs).tcpDeferred = Function.update qdev.tcpDeferred q skbs := rfl

@[simp] theorem setDeferred_credit (skbs : List TcpSkb) :
    (qdev.setDeferred q skbs).credit = qdev.credit := rfl

@[simp] theorem setDeferred_tcpQdiscs (skbs : List TcpSkb) :
    (qdev.setDeferred q skbs).tcpQdiscs = qdev.tcpQdiscs := rfl

@[simp] theorem setDeferred_curTcpQdisc (skbs : List TcpSkb) :
    (qdev.setDeferred q skbs).curTcpQdisc = qdev.curTcpQdisc := rfl

@[simp] theorem setCredit_credit (c : ℤ) :
    (qdev.setCredit q c).credit = Function.update qdev.credit q c := rfl

@[simp] theorem setCredit_tcpDeferred (c : ℤ) :
    (qdev.setCredit q c).tcpDeferred = qdev.tcpDeferred := rfl

@[simp] theorem setCredit_tcpQdiscs (c : ℤ) :
    (qdev.setCredit q c).tcpQdiscs = qdev.tcpQdiscs := rfl

@[simp] theorem setCredit_curTcpQdisc (c : ℤ) :
    (qdev.setCredit q c).curTcpQdisc = qdev.curTcpQdisc := rfl

@[simp] theorem addCredit_tcpDeferred (inc : ℤ) :
    (qdev.addCredit inc q).tcpDeferred = qdev.tcpDeferred := rfl

@[simp] theorem addCredit_tcpQdiscs (inc : ℤ) :
    (qdev.addCredit inc q).tcpQdiscs = qdev.tcpQdiscs := rfl

@[simp] theorem addCredit_curTcpQdisc (inc : ℤ) :
    (qdev.addCredit inc q).curTcpQdisc = qdev.curTcpQdisc := rfl

theorem addCredit_credit (inc : ℤ) :
    (qdev.addCredit inc q).credit =
      Function.update qdev.credit q (wrapInt 32 (qdev.credit q + inc)) := rfl

end TcpQdiscDev

/-- `list_next_entry_circular(q, &qdev->tcp_qdiscs, defer_links)`: the qdisc
after `q`, and the first one after the last.  A qdisc off the list has its
`defer_links` pointing at itself, so from there the step stays put. -/
def listNextEntryCircular (l : List ℕ) (q : ℕ) : ℕ :=
  if h : q ∈ l then l.next q h else q

/-- `homa_qdisc_defer_tcp(q, skb)`: queue the packet; a qdisc that was not
on `tcp_qdiscs` joins its tail with zero credit. -/
def homaQdiscDeferTcp (q : ℕ) (skb : TcpSkb) (qdev : TcpQdiscDev) : TcpQdiscDev :=
  let qdev := qdev.setDeferred q (qdev.tcpDeferred q ++ [skb])
  if q ∈ qdev.tcpQdiscs then qdev
  else { qdev.setCredit q 0 with tcpQdiscs := qdev.tcpQdiscs ++ [q] }

/-- What `homa_qdisc_destroy(qdisc)` does to the deferral state: purge
`tcp_deferred` and unlink the qdisc; `cur_tcp_qdisc` is not touched. -/
def homaQdiscDestroy (q : ℕ) (qdev : TcpQdiscDev) : TcpQdiscDev :=
  { qdev.setDeferred q [] with tcpQdiscs := qdev.tcpQdiscs.erase q }

/-- Where the credit loop of `homa_qdisc_xmit_deferred_tcp` starts: on the
cursor, or, when it is `NULL`, on the first qdisc of the list, which is
credited and becomes the cursor. -/
def homaQdiscTcpStart (inc : ℤ) (first : ℕ) (qdev : TcpQdiscDev) : ℕ × TcpQdiscDev :=
  match qdev.curTcpQdisc with
  | some q => (q, qdev)
  | none => (first, { qdev.addCredit inc first with curTcpQdisc := some first })

/-- The cursor step in the credit loop: on to the next qdisc, which becomes
the cursor and is credited. -/
def homaQdiscCreditAdvance (inc : ℤ) (st : ℕ × TcpQdiscDev) : ℕ × TcpQdiscDev :=
  let q := listNextEntryCircular st.2.tcpQdiscs st.1
  (q, { st.2.addCredit inc q with curTcpQdisc := some q })

/-- One pass of `while (q->credit <= 0)`. -/
def homaQdiscCreditBody (inc : ℤ) (st : ℕ × TcpQdiscDev) :
    Option (Step (ℕ × TcpQdiscDev) (ℕ × TcpQdiscDev)) :=
  if st.2.credit st.1 ≤ 0 then some (.next (homaQdiscCreditAdvance inc st))
  else some (.done st)

/-- The dequeue after the credit loop; a qdisc left empty is unlinked and the
cursor moves on.  `none` is an empty queue, where the source dequeues
`NULL`. -/
def homaQdiscDequeueTcp (q : ℕ) (qdev : TcpQdiscDev) : Option (TcpSkb × TcpQdiscDev) :=
  match qdev.tcpDeferred q with
  | [] => none
  | skb :: rest =>
      let qdev' := (qdev.setDeferred q rest).setCredit q (wrapInt 32 (qdev.credit q - skb.len))
      if rest = [] then
        let tcpQdiscs := qdev.tcpQdiscs.erase q
        let curTcpQdisc :=
          if tcpQdiscs = [] then none else some (listNextEntryCircular qdev.tcpQdiscs q)
        some (skb, { qdev' with tcpQdiscs, curTcpQdisc })
      else some (skb, qdev')

/-- What a call of `homa_qdisc_xmit_deferred_tcp` did: nothing, when no
qdisc had deferred packets (it returns 0), or send `skb` from qdisc `q`,
leaving the deferral state `qdev`. -/
inductive TcpXmit where
  | idle
  | sent (q : ℕ) (skb : TcpSkb) (qdev : TcpQdiscDev)

/-- The part of `homa_qdisc_xmit_deferred_tcp(qdev)` under `defer_lock`, with
the credit loop run on `fuel`; `none` when the loop has not stopped within
`fuel` passes, or when the dequeue finds no packet. -/
def homaQdiscXmitDeferredTcp (inc : ℤ) (fuel : ℕ) (qdev : TcpQdiscDev) : Option TcpXmit :=
  match qdev.tcpQdiscs with
  | [] => some .idle
  | first :: _ =>
      match run (homaQdiscCreditBody inc) fuel (homaQdiscTcpStart inc first qdev) with
      | none => none
      | some (q, qdev') => (homaQdiscDequeueTcp q qdev').map fun r => .sent q r.1 r.2

/-- A call on the TCP deferral state of one `homa_qdisc_dev`. -/
inductive TcpDeferralOp where
  | defer (q : ℕ) (skb : TcpSkb)
  | xmit (fuel : ℕ)
  | destroy (q : ℕ)

namespace TcpQdiscDev

/-- The state after a call of `homa_qdisc_xmit_deferred_tcp`, if it returned. -/
def afterXmit (qdev : TcpQdiscDev) : Option TcpXmit → Option TcpQdiscDev
  | some .idle => some qdev
  | some (.sent _ _ qdev') => some qdev'
  | none => none

def step (inc : ℤ) (qdev : TcpQdiscDev) : TcpDeferralOp → Option TcpQdiscDev
  | .defer q skb => some (homaQdiscDeferTcp q skb qdev)
  | .xmit fuel => qdev.afterXmit (homaQdiscXmitDeferredTcp inc fuel qdev)
  | .destroy q => some (homaQdiscDestroy q qdev)

/-- A sequence of calls; `none` once one of them does not return. -/
def exec (inc : ℤ) : List TcpDeferralOp → TcpQdiscDev → Option TcpQdiscDev
  | [], qdev => some qdev
  | op :: ops, qdev => (qdev.step inc op).bind (exec inc ops)

/-- A device without deferred TCP packets, as `homa_qdisc_qdev_get` makes
it; the qdiscs' credits are whatever they hold. -/
structure Init (qdev : TcpQdiscDev) : Prop where
  deferred_nil : ∀ q, qdev.tcpDeferred q = []
  tcpQdiscs_nil : qdev.tcpQdiscs = []
  cur_none : qdev.curTcpQdisc = none

/-- The states reached from an initial one by calls that `allowed` lets
through, at credit increment `inc`. -/
inductive Reachable (inc : ℤ) (allowed : TcpQdiscDev → TcpDeferralOp → Prop) :
    TcpQdiscDev → Prop where
  | init {qdev : TcpQdiscDev} : qdev.Init → Reachable inc allowed qdev
  | step {qdev qdev' : TcpQdiscDev} {op : TcpDeferralOp} : Reachable inc allowed qdev →
      allowed qdev op → qdev.step inc op = some qdev' → Reachable inc allowed qdev'

/-- A call that leaves the cursor on the list: anything but destroying the
qdisc the cursor points at. -/
def KeepsCursor (qdev : TcpQdiscDev) : TcpDeferralOp → Prop
  | .destroy q => qdev.curTcpQdisc ≠ some q
  | _ => True

/-- A qdisc is on `tcp_qdiscs`, once, exactly when it has deferred packets. -/
structure Linked (qdev : TcpQdiscDev) : Prop where
  mem_iff : ∀ q, q ∈ qdev.tcpQdiscs ↔ qdev.tcpDeferred q ≠ []
  nodup : qdev.tcpQdiscs.Nodup

/-- `cur_tcp_qdisc` is `NULL` or on `tcp_qdiscs`, so `NULL` when the list is
empty. -/
def CursorOnList (qdev : TcpQdiscDev) : Prop :=
  ∀ q, qdev.curTcpQdisc = some q → q ∈ qdev.tcpQdiscs

/-- Every listed qdisc but the cursor's has spent its credit, and no listed
credit is below `INT_MIN`. -/
structure Credits (qdev : TcpQdiscDev) : Prop where
  le_zero : ∀ q ∈ qdev.tcpQdiscs, qdev.curTcpQdisc ≠ some q → qdev.credit q ≤ 0
  ge_min : ∀ q ∈ qdev.tcpQdiscs, -2 ^ 31 ≤ qdev.credit q

structure Inv (qdev : TcpQdiscDev) : Prop where
  linked : qdev.Linked
  cursor : qdev.CursorOnList
  credits : qdev.Credits

end TcpQdiscDev

/-- What a returned call promises: `idle` only when nothing is deferred, else
the oldest packet of the qdisc it names, leaving no other queue changed. -/
def XmitSpec (qdev : TcpQdiscDev) : TcpXmit → Prop
  | .idle => qdev.tcpQdiscs = []
  | .sent q skb qdev' => ∃ rest, qdev.tcpDeferred q = skb :: rest ∧
      qdev'.tcpDeferred = Function.update qdev.tcpDeferred q rest

/-- The passes of the credit loop a qdisc with credit `c` waits for before
its credit is positive, at increment `inc`. -/
def creditNeed (inc c : ℤ) : ℕ :=
  if 0 < c then 0 else (-c / inc).toNat + 1

/-- The passes the credit loop can still make: the sum of what the listed
qdiscs wait for. -/
def creditMeasure (inc : ℤ) (qdev : TcpQdiscDev) : ℕ :=
  ∑ p ∈ qdev.tcpQdiscs.toFinset, creditNeed inc (qdev.credit p)

/-! ## The circular cursor -/

theorem listNextEntryCircular_mem {l : List ℕ} {q : ℕ} (hq : q ∈ l) :
    listNextEntryCircular l q ∈ l := by
  rw [listNextEntryCircular, dif_pos hq]
  exact List.next_mem _ _ hq

theorem listNextEntryCircular_ne {l : List ℕ} {q : ℕ} (hl : l.Nodup) (hq : q ∈ l)
    (hne : l.erase q ≠ []) : listNextEntryCircular l q ≠ q := by
  rw [listNextEntryCircular, dif_pos hq, List.next_eq_getElem hq]
  intro heq
  have hi := List.idxOf_lt_length_of_mem hq
  -- equal entries of a list without duplicates sit at equal positions
  have hidx : (l.idxOf q + 1) % l.length = l.idxOf q :=
    hl.getElem_inj_iff.mp (heq.trans (List.getElem_idxOf hi).symm)
  have hlen : 2 ≤ l.length := by
    have herase := List.length_erase_of_mem hq
    have hpos : (l.erase q).length ≠ 0 := by simpa using hne
    omega
  rcases Nat.lt_or_ge (l.idxOf q + 1) l.length with hlt | hge
  · rw [Nat.mod_eq_of_lt hlt] at hidx
    omega
  · have hlast : l.idxOf q + 1 = l.length := by omega
    rw [hlast, Nat.mod_self] at hidx
    omega

theorem listNextEntryCircular_mem_erase {l : List ℕ} {q : ℕ} (hl : l.Nodup) (hq : q ∈ l)
    (hne : l.erase q ≠ []) : listNextEntryCircular l q ∈ l.erase q :=
  (List.mem_erase_of_ne (listNextEntryCircular_ne hl hq hne)).mpr (listNextEntryCircular_mem hq)

/-! ## The credit measure -/

theorem creditNeed_add {inc c : ℤ} (hinc : 0 < inc) (hc : c ≤ 0) :
    creditNeed inc (c + inc) + 1 = creditNeed inc c := by
  have hnpos : ¬ 0 < c := by omega
  by_cases hpos : 0 < c + inc
  · -- one increment is enough: `-c < inc`
    have hdiv : -c / inc = 0 := Int.ediv_eq_zero_of_lt (by omega) (by omega)
    simp [creditNeed, hpos, hnpos, hdiv]
  · have hdiv : -(c + inc) / inc = -c / inc - 1 := by
      have hshift := Int.add_mul_ediv_right (-c) (-1) (ne_of_gt hinc)
      rw [show -c + -1 * inc = -(c + inc) by ring] at hshift
      omega
    have hge : 1 ≤ -c / inc := Int.le_ediv_of_mul_le hinc (by omega)
    simp only [creditNeed, if_neg hpos, if_neg hnpos, hdiv]
    omega

theorem sum_creditNeed_addCredit {inc : ℤ} (hinc : 0 < inc) (hinc' : inc < 2 ^ 31)
    {s : Finset ℕ} {qdev : TcpQdiscDev} {q : ℕ} (hq : q ∈ s) (hc : qdev.credit q ≤ 0)
    (hge : -2 ^ 31 ≤ qdev.credit q) :
    ∑ p ∈ s, creditNeed inc ((qdev.addCredit inc q).credit p) + 1 =
      ∑ p ∈ s, creditNeed inc (qdev.credit p) := by
  have hwrap : wrapInt 32 (qdev.credit q + inc) = qdev.credit q + inc :=
    wrapInt_32_of_mem (by omega) (by omega)
  have hrest : ∑ p ∈ s.erase q, creditNeed inc ((qdev.addCredit inc q).credit p) =
      ∑ p ∈ s.erase q, creditNeed inc (qdev.credit p) := by
    apply Finset.sum_congr rfl
    intro p hp
    simp [TcpQdiscDev.addCredit_credit, Finset.ne_of_mem_erase hp]
  rw [← Finset.add_sum_erase s _ hq, ← Finset.add_sum_erase s _ hq, hrest,
    ← creditNeed_add hinc hc]
  simp only [TcpQdiscDev.addCredit_credit, Function.update_self, hwrap]
  omega

/-! ## Deferring and destroying -/

section Calls

variable {qdev : TcpQdiscDev}

theorem homaQdiscDeferTcp_of_mem {q : ℕ} (skb : TcpSkb) (hq : q ∈ qdev.tcpQdiscs) :
    homaQdiscDeferTcp q skb qdev = qdev.setDeferred q (qdev.tcpDeferred q ++ [skb]) := by
  simp [homaQdiscDeferTcp, hq]

theorem homaQdiscDeferTcp_of_not_mem {q : ℕ} (skb : TcpSkb) (hq : q ∉ qdev.tcpQdiscs) :
    homaQdiscDeferTcp q skb qdev =
      { (qdev.setDeferred q (qdev.tcpDeferred q ++ [skb])).setCredit q 0 with
        tcpQdiscs := qdev.tcpQdiscs ++ [q] } := by
  simp [homaQdiscDeferTcp, hq]

@[simp] theorem homaQdiscDeferTcp_tcpDeferred (q : ℕ) (skb : TcpSkb) :
    (homaQdiscDeferTcp q skb qdev).tcpDeferred =
      Function.update qdev.tcpDeferred q (qdev.tcpDeferred q ++ [skb]) := by
  by_cases hq : q ∈ qdev.tcpQdiscs
  · rw [homaQdiscDeferTcp_of_mem skb hq, TcpQdiscDev.setDeferred_tcpDeferred]
  · rw [homaQdiscDeferTcp_of_not_mem skb hq]
    rfl

namespace TcpQdiscDev

theorem Linked.deferTcp (h : qdev.Linked) (q : ℕ) (skb : TcpSkb) :
    (homaQdiscDeferTcp q skb qdev).Linked := by
  by_cases hq : q ∈ qdev.tcpQdiscs
  · rw [homaQdiscDeferTcp_of_mem skb hq]
    refine ⟨fun p => ?_, h.nodup⟩
    by_cases hp : p = q
    · subst hp
      simp [hq]
    · simp [hp, h.mem_iff p]
  · rw [homaQdiscDeferTcp_of_not_mem skb hq]
    refine ⟨fun p => ?_, h.nodup.append (List.nodup_singleton q) (by simpa using hq)⟩
    by_cases hp : p = q
    · subst hp
      simp
    · simp [hp, h.mem_iff p]

theorem CursorOnList.deferTcp (h : qdev.CursorOnList) (q : ℕ) (skb : TcpSkb) :
    (homaQdiscDeferTcp q skb qdev).CursorOnList := by
  intro p hp
  by_cases hq : q ∈ qdev.tcpQdiscs
  · rw [homaQdiscDeferTcp_of_mem skb hq] at hp ⊢
    exact h p hp
  · rw [homaQdiscDeferTcp_of_not_mem skb hq] at hp ⊢
    exact List.mem_append_left _ (h p hp)

theorem Credits.deferTcp (h : qdev.Credits) (q : ℕ) (skb : TcpSkb) :
    (homaQdiscDeferTcp q skb qdev).Credits := by
  by_cases hq : q ∈ qdev.tcpQdiscs
  · rw [homaQdiscDeferTcp_of_mem skb hq]
    exact ⟨h.le_zero, h.ge_min⟩
  · rw [homaQdiscDeferTcp_of_not_mem skb hq]
    constructor
    · intro p hp hcur
      by_cases hpq : p = q
      · subst hpq
        simp
      · simp only [List.mem_append, List.mem_singleton, hpq, or_false] at hp
        simpa [hpq] using h.le_zero p hp hcur
    · intro p hp
      by_cases hpq : p = q
      · subst hpq
        simp
      · simp only [List.mem_append, List.mem_singleton, hpq, or_false] at hp
        simpa [hpq] using h.ge_min p hp

theorem Linked.destroy (h : qdev.Linked) (q : ℕ) : (homaQdiscDestroy q qdev).Linked := by
  refine ⟨fun p => ?_, h.nodup.erase q⟩
  by_cases hp : p = q
  · subst hp
    simp [homaQdiscDestroy, h.nodup.not_mem_erase]
  · simp [homaQdiscDestroy, hp, List.mem_erase_of_ne hp, h.mem_iff p]

theorem CursorOnList.destroy (h : qdev.CursorOnList) {q : ℕ} (hcur : qdev.curTcpQdisc ≠ some q) :
    (homaQdiscDestroy q qdev).CursorOnList := by
  intro p hp
  have hpq : p ≠ q := by
    rintro rfl
    exact hcur hp
  exact (List.mem_erase_of_ne hpq).mpr (h p hp)

theorem Credits.destroy (h : qdev.Credits) (q : ℕ) : (homaQdiscDestroy q qdev).Credits :=
  ⟨fun p hp => h.le_zero p (List.mem_of_mem_erase hp),
    fun p hp => h.ge_min p (List.mem_of_mem_erase hp)⟩

end TcpQdiscDev

/-! ## The dequeue -/

theorem homaQdiscDequeueTcp_cases {q : ℕ} {skb : TcpSkb} {qdev' : TcpQdiscDev}
    (h : homaQdiscDequeueTcp q qdev = some (skb, qdev')) :
    ∃ rest, qdev.tcpDeferred q = skb :: rest ∧
      qdev'.tcpDeferred = Function.update qdev.tcpDeferred q rest ∧
      qdev'.credit = Function.update qdev.credit q (wrapInt 32 (qdev.credit q - skb.len)) ∧
      (rest ≠ [] ∧ qdev'.tcpQdiscs = qdev.tcpQdiscs ∧ qdev'.curTcpQdisc = qdev.curTcpQdisc ∨
        rest = [] ∧ qdev'.tcpQdiscs = qdev.tcpQdiscs.erase q ∧
          qdev'.curTcpQdisc = if qdev.tcpQdiscs.erase q = [] then none
            else some (listNextEntryCircular qdev.tcpQdiscs q)) := by
  unfold homaQdiscDequeueTcp at h
  split at h
  · cases h
  · rename_i skb₀ rest hq
    refine ⟨rest, ?_⟩
    by_cases hrest : rest = []
    · rw [if_pos hrest] at h
      cases h
      exact ⟨hq, rfl, rfl, .inr ⟨hrest, rfl, rfl⟩⟩
    · rw [if_neg hrest] at h
      cases h
      exact ⟨hq, rfl, rfl, .inl ⟨hrest, rfl, rfl⟩⟩

theorem homaQdiscDequeueTcp_of_cons {q : ℕ} {skb : TcpSkb} {rest : List TcpSkb}
    (h : qdev.tcpDeferred q = skb :: rest) : ∃ qdev', homaQdiscDequeueTcp q qdev = some (skb, qdev') := by
  simp only [homaQdiscDequeueTcp, h]
  split_ifs <;> exact ⟨_, rfl⟩

namespace TcpQdiscDev

theorem Linked.dequeue (h : qdev.Linked) {q : ℕ} {skb : TcpSkb} {qdev' : TcpQdiscDev}
    (hd : homaQdiscDequeueTcp q qdev = some (skb, qdev')) : qdev'.Linked := by
  obtain ⟨rest, hq, hdef, -, hlist⟩ := homaQdiscDequeueTcp_cases hd
  have hqmem : q ∈ qdev.tcpQdiscs := (h.mem_iff q).mpr (by simp [hq])
  rcases hlist with ⟨hrest, hl, -⟩ | ⟨hrest, hl, -⟩
  · refine ⟨fun p => ?_, hl ▸ h.nodup⟩
    rw [hl, hdef]
    by_cases hp : p = q
    · subst hp
      simp [hqmem, hrest]
    · simp [hp, h.mem_iff p]
  · refine ⟨fun p => ?_, hl ▸ h.nodup.erase q⟩
    rw [hl, hdef]
    by_cases hp : p = q
    · subst hp
      simp [h.nodup.not_mem_erase, hrest]
    · simp [hp, List.mem_erase_of_ne hp, h.mem_iff p]

theorem Inv.dequeue (h : qdev.Inv) {q : ℕ} (hcur : qdev.curTcpQdisc = some q) {skb : TcpSkb}
    {qdev' : TcpQdiscDev} (hd : homaQdiscDequeueTcp q qdev = some (skb, qdev')) : qdev'.Inv := by
  obtain ⟨rest, -, -, hcredit, hlist⟩ := homaQdiscDequeueTcp_cases hd
  have hqmem : q ∈ qdev.tcpQdiscs := h.cursor q hcur
  have hmin : -2 ^ 31 ≤ qdev'.credit q := by
    rw [hcredit, Function.update_self]
    exact neg_le_wrapInt_32 _
  -- every other qdisc keeps its credit
  have hother : ∀ p, p ≠ q → qdev'.credit p = qdev.credit p := fun p hp => by
    rw [hcredit, Function.update_of_ne hp]
  refine ⟨h.linked.dequeue hd, ?_, ?_⟩
  · rcases hlist with ⟨-, hl, hc⟩ | ⟨-, hl, hc⟩
    · intro p hp
      rw [hc, hcur] at hp
      cases hp
      exact hl ▸ hqmem
    · intro p hp
      rw [hc] at hp
      split_ifs at hp with hnil
      cases hp
      exact hl ▸ listNextEntryCircular_mem_erase h.linked.nodup hqmem hnil
  · rcases hlist with ⟨-, hl, hc⟩ | ⟨-, hl, hc⟩
    · refine ⟨fun p hp hpcur => ?_, fun p hp => ?_⟩
      · have hpq : p ≠ q := by
          rintro rfl
          exact hpcur (hc.trans hcur)
        rw [hother p hpq]
        exact h.credits.le_zero p (hl ▸ hp) (fun hp' => hpq (Option.some_injective _
          (hp'.symm.trans hcur)))
      · by_cases hpq : p = q
        · exact hpq ▸ hmin
        · rw [hother p hpq]
          exact h.credits.ge_min p (hl ▸ hp)
    · refine ⟨fun p hp _ => ?_, fun p hp => ?_⟩
      · rw [hl] at hp
        have hpq : p ≠ q := fun hpq => h.linked.nodup.not_mem_erase (hpq ▸ hp)
        rw [hother p hpq]
        exact h.credits.le_zero p (List.mem_of_mem_erase hp)
          (fun hp' => hpq (Option.some_injective _ (hp'.symm.trans hcur)))
      · rw [hl] at hp
        have hpq : p ≠ q := fun hpq => h.linked.nodup.not_mem_erase (hpq ▸ hp)
        rw [hother p hpq]
        exact h.credits.ge_min p (List.mem_of_mem_erase hp)

end TcpQdiscDev

/-! ## The credit loop -/

namespace TcpQdiscDev

/-- What the credit loop started on `qdev` leaves alone: the queues and the
list. -/
structure LoopFrame (qdev : TcpQdiscDev) (st : ℕ × TcpQdiscDev) : Prop where
  deferred_eq : st.2.tcpDeferred = qdev.tcpDeferred
  tcpQdiscs_eq : st.2.tcpQdiscs = qdev.tcpQdiscs

/-- The credit loop's invariant: it stands on a listed qdisc the cursor
points at, every other listed qdisc has spent its credit, and no listed
credit is below `INT_MIN`. -/
structure LoopInv (qdev : TcpQdiscDev) (st : ℕ × TcpQdiscDev) : Prop
    extends LoopFrame qdev st where
  mem : st.1 ∈ qdev.tcpQdiscs
  cur_eq : st.2.curTcpQdisc = some st.1
  le_zero : ∀ p ∈ qdev.tcpQdiscs, p ≠ st.1 → st.2.credit p ≤ 0
  ge_min : ∀ p ∈ qdev.tcpQdiscs, -2 ^ 31 ≤ st.2.credit p

/-- The invariant of a credit loop that never stops: it stands on a listed
qdisc, and no listed qdisc has credit. -/
structure Spent (qdev : TcpQdiscDev) (st : ℕ × TcpQdiscDev) : Prop where
  tcpQdiscs_eq : st.2.tcpQdiscs = qdev.tcpQdiscs
  mem : st.1 ∈ qdev.tcpQdiscs
  le_zero : ∀ p ∈ qdev.tcpQdiscs, st.2.credit p ≤ 0
  ge_min : ∀ p ∈ qdev.tcpQdiscs, -2 ^ 31 ≤ st.2.credit p

variable {inc : ℤ} {st : ℕ × TcpQdiscDev}

theorem LoopFrame.advance (h : qdev.LoopFrame st) :
    qdev.LoopFrame (homaQdiscCreditAdvance inc st) :=
  ⟨h.deferred_eq, h.tcpQdiscs_eq⟩

theorem LoopFrame.start (first : ℕ) : qdev.LoopFrame (homaQdiscTcpStart inc first qdev) := by
  unfold homaQdiscTcpStart
  split <;> exact ⟨rfl, rfl⟩

theorem advance_mem (htl : st.2.tcpQdiscs = qdev.tcpQdiscs) (hmem : st.1 ∈ qdev.tcpQdiscs) :
    (homaQdiscCreditAdvance inc st).1 ∈ qdev.tcpQdiscs := by
  rw [← htl] at hmem ⊢
  exact listNextEntryCircular_mem hmem

theorem advance_credit_of_ne {p : ℕ} (hp : p ≠ (homaQdiscCreditAdvance inc st).1) :
    (homaQdiscCreditAdvance inc st).2.credit p = st.2.credit p := by
  simp only [homaQdiscCreditAdvance] at hp ⊢
  rw [addCredit_credit, Function.update_of_ne hp]

theorem advance_credit_self :
    (homaQdiscCreditAdvance inc st).2.credit (homaQdiscCreditAdvance inc st).1 =
      wrapInt 32 (st.2.credit (homaQdiscCreditAdvance inc st).1 + inc) := by
  simp [homaQdiscCreditAdvance, addCredit_credit]

theorem LoopInv.advance (h : qdev.LoopInv st) (hc : st.2.credit st.1 ≤ 0) :
    qdev.LoopInv (homaQdiscCreditAdvance inc st) := by
  refine ⟨h.toLoopFrame.advance, advance_mem h.tcpQdiscs_eq h.mem, rfl, ?_, ?_⟩
  · intro p hp hpq
    rw [advance_credit_of_ne hpq]
    by_cases hp1 : p = st.1
    · exact hp1 ▸ hc
    · exact h.le_zero p hp hp1
  · intro p hp
    by_cases hpq : p = (homaQdiscCreditAdvance inc st).1
    · rw [hpq, advance_credit_self]
      exact neg_le_wrapInt_32 _
    · rw [advance_credit_of_ne hpq]
      exact h.ge_min p hp

theorem creditBody_holds (h : qdev.LoopInv st) (t : Step (ℕ × TcpQdiscDev) (ℕ × TcpQdiscDev))
    (ht : homaQdiscCreditBody inc st = some t) :
    t.Holds qdev.LoopInv (fun st => qdev.LoopInv st ∧ 0 < st.2.credit st.1) := by
  unfold homaQdiscCreditBody at ht
  split_ifs at ht with hc
  · cases ht
    exact h.advance hc
  · cases ht
    exact ⟨h, by omega⟩

theorem creditBody_frame (h : qdev.LoopFrame st) (t : Step (ℕ × TcpQdiscDev) (ℕ × TcpQdiscDev))
    (ht : homaQdiscCreditBody inc st = some t) : t.Holds qdev.LoopFrame qdev.LoopFrame := by
  unfold homaQdiscCreditBody at ht
  split_ifs at ht
  · cases ht
    exact h.advance
  · cases ht
    exact h

theorem creditMeasure_advance (hinc : 0 < inc) (hinc' : inc < 2 ^ 31) (h : qdev.LoopInv st)
    (hc : st.2.credit st.1 ≤ 0) :
    creditMeasure inc (homaQdiscCreditAdvance inc st).2 < creditMeasure inc st.2 := by
  set q' := (homaQdiscCreditAdvance inc st).1 with hq'
  have hmem : q' ∈ qdev.tcpQdiscs := advance_mem h.tcpQdiscs_eq h.mem
  -- the qdisc the step lands on has spent its credit too
  have hspent : st.2.credit q' ≤ 0 := by
    by_cases hq1 : q' = st.1
    · exact hq1 ▸ hc
    · exact h.le_zero q' hmem hq1
  have hsum := sum_creditNeed_addCredit hinc hinc' (s := qdev.tcpQdiscs.toFinset)
    (List.mem_toFinset.mpr hmem) hspent (h.ge_min q' hmem)
  have hcredit : (homaQdiscCreditAdvance inc st).2.credit = (st.2.addCredit inc q').credit := rfl
  have hlist : (homaQdiscCreditAdvance inc st).2.tcpQdiscs = qdev.tcpQdiscs := h.tcpQdiscs_eq
  unfold creditMeasure
  rw [hcredit, hlist, h.tcpQdiscs_eq]
  omega

theorem creditBody_terminates (hinc : 0 < inc) (hinc' : inc < 2 ^ 31) (h : qdev.LoopInv st)
    (t : Step (ℕ × TcpQdiscDev) (ℕ × TcpQdiscDev)) (ht : homaQdiscCreditBody inc st = some t) :
    t.Holds qdev.LoopInv (fun st => qdev.LoopInv st ∧ 0 < st.2.credit st.1) ∧
      ∀ st', t = .next st' → creditMeasure inc st'.2 < creditMeasure inc st.2 := by
  refine ⟨creditBody_holds h t ht, fun st' hst' => ?_⟩
  unfold homaQdiscCreditBody at ht
  split_ifs at ht with hc
  · cases ht
    cases hst'
    exact creditMeasure_advance hinc hinc' h hc
  · cases ht
    cases hst'

theorem wrapInt_add_zero {c : ℤ} (hlo : -2 ^ 31 ≤ c) (hhi : c ≤ 0) : wrapInt 32 (c + 0) = c := by
  rw [add_zero]
  exact wrapInt_32_of_mem hlo (by omega)

theorem Spent.advance_credit (h : qdev.Spent st) {p : ℕ} (hp : p ∈ qdev.tcpQdiscs) :
    (homaQdiscCreditAdvance 0 st).2.credit p = st.2.credit p := by
  by_cases hpq : p = (homaQdiscCreditAdvance 0 st).1
  · rw [hpq, advance_credit_self, ← hpq]
    exact wrapInt_add_zero (h.ge_min p hp) (h.le_zero p hp)
  · exact advance_credit_of_ne hpq

theorem Spent.advance (h : qdev.Spent st) : qdev.Spent (homaQdiscCreditAdvance 0 st) :=
  ⟨h.tcpQdiscs_eq, advance_mem h.tcpQdiscs_eq h.mem,
    fun p hp => h.advance_credit hp ▸ h.le_zero p hp,
    fun p hp => h.advance_credit hp ▸ h.ge_min p hp⟩

/-! ## The credit loop as a whole -/

theorem creditLoop_frame : ∀ fuel st r, qdev.LoopFrame st →
    run (homaQdiscCreditBody inc) fuel st = some r → qdev.LoopFrame r :=
  run_invariant fun _ hst t ht => creditBody_frame hst t ht

theorem creditLoop_holds : ∀ fuel st r, qdev.LoopInv st →
    run (homaQdiscCreditBody inc) fuel st = some r → qdev.LoopInv r ∧ 0 < r.2.credit r.1 :=
  run_invariant fun _ hst t ht => creditBody_holds hst t ht

theorem creditLoop_terminates (hinc : 0 < inc) (hinc' : inc < 2 ^ 31) :
    ∀ fuel st, qdev.LoopInv st → creditMeasure inc st.2 < fuel →
      ∃ r, run (homaQdiscCreditBody inc) fuel st = some r ∧
        (qdev.LoopInv r ∧ 0 < r.2.credit r.1) :=
  @run_terminates _ _ (homaQdiscCreditBody inc) qdev.LoopInv
    (fun st => qdev.LoopInv st ∧ 0 < st.2.credit st.1) (fun st => creditMeasure inc st.2)
    (fun _ hst t ht => creditBody_terminates hinc hinc' hst t ht)
    (fun st _ => by unfold homaQdiscCreditBody; split_ifs <;> exact ⟨_, rfl⟩)

theorem creditLoop_spins : ∀ fuel st, qdev.Spent st → run (homaQdiscCreditBody 0) fuel st = none :=
  run_diverges fun st hst =>
    ⟨_, by simp [homaQdiscCreditBody, hst.le_zero st.1 hst.mem], hst.advance⟩

/-! ## The invariant -/

theorem Linked.of_frame (h : qdev.Linked) (hf : qdev.LoopFrame st) : st.2.Linked :=
  ⟨fun p => by rw [hf.deferred_eq, hf.tcpQdiscs_eq]; exact h.mem_iff p,
    hf.tcpQdiscs_eq ▸ h.nodup⟩

theorem LoopInv.inv (h : qdev.LoopInv st) (hl : qdev.Linked) : st.2.Inv := by
  refine ⟨hl.of_frame h.toLoopFrame, fun p hp => ?_, ⟨fun p hp hpcur => ?_, fun p hp => ?_⟩⟩
  · rw [h.cur_eq] at hp
    cases hp
    exact h.tcpQdiscs_eq ▸ h.mem
  · rw [h.tcpQdiscs_eq] at hp
    refine h.le_zero p hp fun hp1 => hpcur ?_
    rw [h.cur_eq, hp1]
  · rw [h.tcpQdiscs_eq] at hp
    exact h.ge_min p hp

theorem LoopInv.start (h : qdev.Inv) {first : ℕ} {rest : List ℕ}
    (hl : qdev.tcpQdiscs = first :: rest) : qdev.LoopInv (homaQdiscTcpStart inc first qdev) := by
  unfold homaQdiscTcpStart
  split
  · rename_i q hcur
    refine ⟨⟨rfl, rfl⟩, h.cursor q hcur, hcur, fun p hp hpq => ?_, h.credits.ge_min⟩
    exact h.credits.le_zero p hp (by rw [hcur]; simpa using Ne.symm hpq)
  · rename_i hcur
    have hfirst : first ∈ qdev.tcpQdiscs := by simp [hl]
    refine ⟨⟨rfl, rfl⟩, hfirst, rfl, fun p hp hpq => ?_, fun p hp => ?_⟩
    · simp only [addCredit_credit, Function.update_of_ne hpq]
      exact h.credits.le_zero p hp (by simp [hcur])
    · by_cases hpq : p = first
      · subst hpq
        simpa [addCredit_credit] using neg_le_wrapInt_32 _
      · simp only [addCredit_credit, Function.update_of_ne hpq]
        exact h.credits.ge_min p hp

theorem creditMeasure_start_le (hinc : 0 < inc) (hinc' : inc < 2 ^ 31) (h : qdev.Inv)
    {first : ℕ} {rest : List ℕ} (hl : qdev.tcpQdiscs = first :: rest) :
    creditMeasure inc (homaQdiscTcpStart inc first qdev).2 ≤ creditMeasure inc qdev := by
  unfold homaQdiscTcpStart
  split
  · exact le_rfl
  · rename_i hcur
    have hfirst : first ∈ qdev.tcpQdiscs := by simp [hl]
    have hsum := sum_creditNeed_addCredit hinc hinc' (s := qdev.tcpQdiscs.toFinset)
      (List.mem_toFinset.mpr hfirst) (h.credits.le_zero first hfirst (by simp [hcur]))
      (h.credits.ge_min first hfirst)
    simp only [creditMeasure, addCredit_tcpQdiscs]
    omega

theorem Spent.start (h : qdev.Inv) (hcur : ∀ q, qdev.curTcpQdisc = some q → qdev.credit q ≤ 0)
    {first : ℕ} {rest : List ℕ} (hl : qdev.tcpQdiscs = first :: rest) :
    qdev.Spent (homaQdiscTcpStart 0 first qdev) := by
  -- no listed qdisc has credit, the cursor's included
  have hspent : ∀ p ∈ qdev.tcpQdiscs, qdev.credit p ≤ 0 := fun p hp => by
    by_cases hp1 : qdev.curTcpQdisc = some p
    · exact hcur p hp1
    · exact h.credits.le_zero p hp hp1
  unfold homaQdiscTcpStart
  split
  · rename_i q hq
    exact ⟨rfl, h.cursor q hq, hspent, h.credits.ge_min⟩
  · have hfirst : first ∈ qdev.tcpQdiscs := by simp [hl]
    have hwrap : wrapInt 32 (qdev.credit first + 0) = qdev.credit first :=
      wrapInt_add_zero (h.credits.ge_min first hfirst) (hspent first hfirst)
    have hcredit : (qdev.addCredit 0 first).credit = qdev.credit := by
      rw [addCredit_credit, hwrap, Function.update_eq_self]
    exact ⟨rfl, hfirst, fun p hp => by simpa [hcredit] using hspent p hp,
      fun p hp => by simpa [hcredit] using h.credits.ge_min p hp⟩

end TcpQdiscDev

end Calls

/-! ## A call of `homa_qdisc_xmit_deferred_tcp` -/

section Xmit

open TcpQdiscDev

variable {inc : ℤ} {fuel : ℕ} {qdev : TcpQdiscDev}

theorem homaQdiscXmitDeferredTcp_cases {r : TcpXmit}
    (h : homaQdiscXmitDeferredTcp inc fuel qdev = some r) :
    qdev.tcpQdiscs = [] ∧ r = .idle ∨
      ∃ first rest q d skb qdev', qdev.tcpQdiscs = first :: rest ∧
        run (homaQdiscCreditBody inc) fuel (homaQdiscTcpStart inc first qdev) = some (q, d) ∧
        homaQdiscDequeueTcp q d = some (skb, qdev') ∧ r = .sent q skb qdev' := by
  unfold homaQdiscXmitDeferredTcp at h
  split at h
  · rename_i hl
    cases h
    exact .inl ⟨hl, rfl⟩
  · rename_i first rest hl
    split at h
    · cases h
    · rename_i q d hrun
      obtain ⟨⟨skb, qdev'⟩, hd, rfl⟩ := Option.map_eq_some_iff.mp h
      exact .inr ⟨first, rest, q, d, skb, qdev', hl, hrun, hd, rfl⟩

theorem homaQdiscXmitDeferredTcp_spec {r : TcpXmit}
    (h : homaQdiscXmitDeferredTcp inc fuel qdev = some r) : XmitSpec qdev r := by
  rcases homaQdiscXmitDeferredTcp_cases h with ⟨hl, rfl⟩ | ⟨first, -, q, d, skb, qdev', -, hrun, hd, rfl⟩
  · exact hl
  · have hframe := creditLoop_frame fuel _ (q, d) (LoopFrame.start first) hrun
    obtain ⟨rest, hq, hdef, -⟩ := homaQdiscDequeueTcp_cases hd
    exact ⟨rest, hframe.deferred_eq ▸ hq, hframe.deferred_eq ▸ hdef⟩

namespace TcpQdiscDev

theorem Linked.xmit (h : qdev.Linked) {q : ℕ} {skb : TcpSkb} {qdev' : TcpQdiscDev}
    (hx : homaQdiscXmitDeferredTcp inc fuel qdev = some (.sent q skb qdev')) : qdev'.Linked := by
  rcases homaQdiscXmitDeferredTcp_cases hx with ⟨-, hr⟩ | ⟨first, -, q, d, skb, qdev'', -, hrun, hd, hr⟩
  · cases hr
  · cases hr
    have hframe := creditLoop_frame fuel _ (q, d) (LoopFrame.start first) hrun
    exact (h.of_frame hframe).dequeue hd

theorem Inv.xmit (h : qdev.Inv) {q : ℕ} {skb : TcpSkb} {qdev' : TcpQdiscDev}
    (hx : homaQdiscXmitDeferredTcp inc fuel qdev = some (.sent q skb qdev')) : qdev'.Inv := by
  rcases homaQdiscXmitDeferredTcp_cases hx with ⟨-, hr⟩ | ⟨first, rest, q, d, skb, qdev'', hl, hrun, hd, hr⟩
  · cases hr
  · cases hr
    obtain ⟨hloop, -⟩ := creditLoop_holds fuel _ (q, d) (LoopInv.start h hl) hrun
    exact (hloop.inv h.linked).dequeue hloop.cur_eq hd

end TcpQdiscDev

/-- Total correctness: with a positive `int` increment, from a state of the
invariant, a budget above the credit measure is enough for the call to
return. -/
theorem homaQdiscXmitDeferredTcp_sends (hinc : 0 < inc) (hinc' : inc < 2 ^ 31) (h : qdev.Inv)
    (hfuel : creditMeasure inc qdev < fuel) :
    ∃ r, homaQdiscXmitDeferredTcp inc fuel qdev = some r ∧ XmitSpec qdev r := by
  cases hl : qdev.tcpQdiscs with
  | nil => exact ⟨.idle, by simp [homaQdiscXmitDeferredTcp, hl], hl⟩
  | cons first rest =>
      have hmeas := creditMeasure_start_le hinc hinc' h hl
      obtain ⟨⟨q, d⟩, hrun, hloop, -⟩ := creditLoop_terminates hinc hinc' fuel
        (homaQdiscTcpStart inc first qdev) (LoopInv.start h hl) (by omega)
      -- the qdisc the loop stops on is listed, so it has a packet
      have hne : d.tcpDeferred q ≠ [] := by
        rw [hloop.deferred_eq]
        exact (h.linked.mem_iff q).mp hloop.mem
      obtain ⟨skb, rest', hq⟩ := List.exists_cons_of_ne_nil hne
      obtain ⟨qdev', hd⟩ := homaQdiscDequeueTcp_of_cons hq
      have hx : homaQdiscXmitDeferredTcp inc fuel qdev = some (.sent q skb qdev') := by
        simp [homaQdiscXmitDeferredTcp, hl, hrun, hd]
      exact ⟨_, hx, homaQdiscXmitDeferredTcp_spec hx⟩

theorem homaQdiscXmitDeferredTcp_spins (h : qdev.Inv) (hne : qdev.tcpQdiscs ≠ [])
    (hcur : ∀ q, qdev.curTcpQdisc = some q → qdev.credit q ≤ 0) (fuel : ℕ) :
    homaQdiscXmitDeferredTcp 0 fuel qdev = none := by
  obtain ⟨first, rest, hl⟩ := List.exists_cons_of_ne_nil hne
  have hrun := creditLoop_spins fuel _ (Spent.start h hcur hl)
  simp [homaQdiscXmitDeferredTcp, hl, hrun]

end Xmit

/-! ## Runs of calls -/

namespace TcpQdiscDev

variable {inc : ℤ} {qdev qdev' : TcpQdiscDev} {op : TcpDeferralOp}

theorem afterXmit_cases {x : Option TcpXmit} (h : qdev.afterXmit x = some qdev') :
    x = some .idle ∧ qdev' = qdev ∨ ∃ q skb, x = some (.sent q skb qdev') := by
  unfold afterXmit at h
  split at h
  · cases h
    exact .inl ⟨rfl, rfl⟩
  · cases h
    exact .inr ⟨_, _, rfl⟩
  · cases h

theorem Linked.step (h : qdev.Linked) (hs : qdev.step inc op = some qdev') : qdev'.Linked := by
  cases op with
  | defer q skb =>
      cases hs
      exact h.deferTcp q skb
  | xmit fuel =>
      rcases afterXmit_cases hs with ⟨-, rfl⟩ | ⟨q, skb, hx⟩
      · exact h
      · exact h.xmit hx
  | destroy q =>
      cases hs
      exact h.destroy q

theorem Inv.step (h : qdev.Inv) (hop : qdev.KeepsCursor op) (hs : qdev.step inc op = some qdev') :
    qdev'.Inv := by
  cases op with
  | defer q skb =>
      cases hs
      exact ⟨h.linked.deferTcp q skb, h.cursor.deferTcp q skb, h.credits.deferTcp q skb⟩
  | xmit fuel =>
      rcases afterXmit_cases hs with ⟨-, rfl⟩ | ⟨q, skb, hx⟩
      · exact h
      · exact h.xmit hx
  | destroy q =>
      cases hs
      exact ⟨h.linked.destroy q, h.cursor.destroy hop, h.credits.destroy q⟩

theorem Init.inv (h : qdev.Init) : qdev.Inv := by
  refine ⟨⟨fun q => ?_, ?_⟩, fun q hq => ?_, ⟨fun q hq => ?_, fun q hq => ?_⟩⟩
  all_goals simp_all [h.tcpQdiscs_nil, h.deferred_nil, h.cur_none]

variable {allowed : TcpQdiscDev → TcpDeferralOp → Prop}

theorem Reachable.linked (h : qdev.Reachable inc allowed) : qdev.Linked := by
  induction h with
  | init hi => exact hi.inv.linked
  | step _ _ hs ih => exact ih.step hs

theorem Reachable.inv (h : qdev.Reachable inc KeepsCursor) : qdev.Inv := by
  induction h with
  | init hi => exact hi.inv
  | step _ hop hs ih => exact ih.step hop hs

end TcpQdiscDev

/-- The round robin over runs that keep the cursor on the list: each qdisc is
listed exactly when it has deferred packets, the cursor is `NULL` or listed,
and at a positive `int` increment every call returns, within the credit
measure, the oldest packet of some qdisc or `idle` when none is deferred. -/
theorem homaQdiscTcp_round_robin {inc : ℤ} (hinc : 0 < inc) (hinc' : inc < 2 ^ 31)
    {qdev : TcpQdiscDev} (h : qdev.Reachable inc TcpQdiscDev.KeepsCursor) :
    (∀ q, q ∈ qdev.tcpQdiscs ↔ qdev.tcpDeferred q ≠ []) ∧ qdev.CursorOnList ∧
      ∀ fuel, creditMeasure inc qdev < fuel →
        ∃ r, homaQdiscXmitDeferredTcp inc fuel qdev = some r ∧ XmitSpec qdev r := by
  have hinv := h.inv
  exact ⟨hinv.linked.mem_iff, hinv.cursor,
    fun _ hfuel => homaQdiscXmitDeferredTcp_sends hinc hinc' hinv hfuel⟩

/-- A device with nothing deferred and every credit zero. -/
def tcpQdiscDevInit : TcpQdiscDev := ⟨fun _ => [], fun _ => 0, [], none⟩

theorem tcpQdiscDevInit_init : tcpQdiscDevInit.Init := ⟨fun _ => rfl, rfl, rfl⟩

/-- Two qdiscs with a deferred packet each. -/
def twoTcpDeferred : TcpQdiscDev :=
  homaQdiscDeferTcp 1 ⟨1, 0, 1500⟩ (homaQdiscDeferTcp 0 ⟨0, 0, 1500⟩ tcpQdiscDevInit)

theorem homaQdiscTcp_round_robin_twoDeferred :
    twoTcpDeferred.Reachable 1500 TcpQdiscDev.KeepsCursor ∧
      (∀ q, q ∈ twoTcpDeferred.tcpQdiscs ↔ twoTcpDeferred.tcpDeferred q ≠ []) ∧
      twoTcpDeferred.CursorOnList ∧
      ∀ fuel, creditMeasure 1500 twoTcpDeferred < fuel →
        ∃ r, homaQdiscXmitDeferredTcp 1500 fuel twoTcpDeferred = some r ∧ XmitSpec twoTcpDeferred r := by
  have hone : (homaQdiscDeferTcp 0 ⟨0, 0, 1500⟩ tcpQdiscDevInit).Reachable 1500
      TcpQdiscDev.KeepsCursor :=
    .step (.init tcpQdiscDevInit_init)
      (show tcpQdiscDevInit.KeepsCursor (.defer 0 ⟨0, 0, 1500⟩) from trivial) rfl
  have hreach : twoTcpDeferred.Reachable 1500 TcpQdiscDev.KeepsCursor :=
    .step hone (show (homaQdiscDeferTcp 0 ⟨0, 0, 1500⟩ tcpQdiscDevInit).KeepsCursor
      (.defer 1 ⟨1, 0, 1500⟩) from trivial) rfl
  exact ⟨hreach, homaQdiscTcp_round_robin (by norm_num) (by norm_num) hreach⟩

theorem homaQdiscTcp_cursor_dangles_and_loop_spins :
    (∃ qdev, TcpQdiscDev.exec 20000
        [.defer 0 ⟨0, 0, 1500⟩, .defer 0 ⟨0, 1, 1500⟩, .xmit 1, .destroy 0] tcpQdiscDevInit =
          some qdev ∧ qdev.tcpQdiscs = [] ∧ qdev.curTcpQdisc = some 0) ∧
    ∀ fuel, homaQdiscXmitDeferredTcp 0 fuel (homaQdiscDeferTcp 0 ⟨0, 0, 1500⟩ tcpQdiscDevInit) =
      none := by
  constructor
  · have hwrap : wrapInt 32 20000 = 20000 := wrapInt_32_of_mem (by norm_num) (by norm_num)
    simp [TcpQdiscDev.exec, TcpQdiscDev.step, homaQdiscDeferTcp, tcpQdiscDevInit,
      homaQdiscXmitDeferredTcp, homaQdiscTcpStart, run, homaQdiscCreditBody,
      TcpQdiscDev.addCredit_credit, hwrap, homaQdiscDequeueTcp, TcpQdiscDev.afterXmit,
      homaQdiscDestroy]
  · intro fuel
    have hreach : (homaQdiscDeferTcp 0 ⟨0, 0, 1500⟩ tcpQdiscDevInit).Reachable 0
        TcpQdiscDev.KeepsCursor :=
      .step (.init tcpQdiscDevInit_init)
        (show tcpQdiscDevInit.KeepsCursor (.defer 0 ⟨0, 0, 1500⟩) from trivial) rfl
    exact homaQdiscXmitDeferredTcp_spins hreach.inv (by simp [homaQdiscDeferTcp, tcpQdiscDevInit])
      (by simp [homaQdiscDeferTcp, tcpQdiscDevInit]) fuel

end Homa
