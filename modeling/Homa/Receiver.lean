import Homa.Pool
import Homa.Socket

/-!
# Handing receive buffers to the application

`homa_recvmsg` gives the application the bpages of the message it returns
and takes back those passed in on the next call; `homa::receiver` makes
those calls (`receive`, and `release`, also run by the destructor).

The ledger of a run is `handed`, every offset handed out, and `returned`,
every offset passed to `homa_pool_release_buffers`; while the receiver keeps
what it was handed, `handed` is `returned` plus what it holds
(`ReceiverSys.Balanced`).  Two paths lose offsets: `receive` zeroes
`num_bpages` when `recvmsg` fails even though an RPC that completed with an
error hands over its bpages, and the nonblocking `recvmsg` of `release` may
receive a new message whose bpages `release` then forgets.
-/

namespace Homa

/-- `HOMA_MAX_BPAGES`: the bpages of the longest message. -/
def homaMaxBpages : ℕ :=
  (homaMaxMessageLength.toNat + homaBpageSize - 1) >>> homaBpageShift

/-- The fields of `struct homa_recvmsg_args` that `homa_recvmsg` reads or
writes for buffers; `bpageOffsets` is the array, zero past its end. -/
structure RecvmsgArgs where
  id : ℕ
  numBpages : ℕ
  reserved : ℕ
  bpageOffsets : List ℕ
  deriving DecidableEq, Repr

/-- `bpage_offsets[0 .. num_bpages)`: what the application holds, and what
`homa_recvmsg` gives back to the pool. -/
def RecvmsgArgs.owned (control : RecvmsgArgs) : List ℕ :=
  (List.range control.numBpages).map fun i => control.bpageOffsets.getD i 0

/-- What the wait of `homa_recvmsg` produces. -/
inductive RecvWait where
  /-- `homa_rpc_find_client` found no RPC with the private id. -/
  | notFound
  /-- `homa_wait_private` or `homa_wait_shared` failed, e.g. with `-EAGAIN`
  when nothing is ready for a nonblocking call. -/
  | failed (err : ℤ)
  /-- The RPC `id` is ready, with its `error`, its `msgin.length` and
  `msgin.bpage_offsets[0 .. msgin.num_bpages)`. -/
  | ready (id : ℕ) (error length : ℤ) (bpageOffsets : List ℕ)
  deriving DecidableEq, Repr

/-- The offsets `homa_recvmsg` copies into `control` from the RPC it
returns: those of a message whose `msgin` is set up. -/
def RecvWait.hands : RecvWait → List ℕ
  | .ready _ _ length offsets => if 0 ≤ length then offsets else []
  | _ => []

/-- One `homa_recvmsg` call: its result, the `control` it copies back, the
pool, and the offsets it passed to `homa_pool_release_buffers` and those it
handed over. -/
structure RecvmsgOut where
  result : ℤ
  control : RecvmsgArgs
  pool : Pool
  released : List ℕ
  handed : List ℕ

/-- The end of `homa_recvmsg`, once the bpages passed in (`released`) are
back in the pool: the wait for an RPC and the hand-over of its bpages, after
which its `msgin.num_bpages` is cleared. -/
def homaRecvmsgWait (control : RecvmsgArgs) (wait : RecvWait) (pool : Pool)
    (released : List ℕ) : RecvmsgOut :=
  match wait with
  | .notFound => ⟨-einval, control, pool, released, []⟩
  | .failed err => ⟨err, { control with id := 0 }, pool, released, []⟩
  | .ready id error length offsets =>
      let result := if error ≠ 0 then error else length
      if 0 ≤ length then
        ⟨result, { control with id, numBpages := offsets.length, bpageOffsets := offsets }, pool,
          released, offsets⟩
      else ⟨result, { control with id }, pool, released, []⟩

/-- `homa_recvmsg` on the socket's pool, with `wait` what its wait for an
RPC produces. -/
def homaRecvmsg (control : RecvmsgArgs) (wait : RecvWait) (pool : Pool) : RecvmsgOut :=
  if control.numBpages > homaMaxBpages then ⟨-einval, control, pool, [], []⟩
  else if control.reserved ≠ 0 then ⟨-einval, control, pool, [], []⟩
  else
    let released := control.owned
    let release := homaPoolReleaseBuffers released pool
    let control := { control with numBpages := 0 }
    if release.1 ≠ 0 then ⟨release.1, control, release.2, released, []⟩
    else homaRecvmsgWait control wait release.2 released

/-- The state of a `homa::receiver`: its `control` and `msg_length`. -/
structure Receiver where
  control : RecvmsgArgs
  msgLength : ℤ

/-- A receiver as its constructor leaves it. -/
def Receiver.init : Receiver :=
  ⟨⟨0, 0, 0, []⟩, -1⟩

/-- `homa::receiver::receive(flags, id)`; the system call returns `-1` for a
negative result. -/
def homaReceiverReceive (id : ℕ) (wait : RecvWait) (r : Receiver) (pool : Pool) :
    Receiver × RecvmsgOut :=
  let out := homaRecvmsg { r.control with id } wait pool
  let msgLength := if out.result < 0 then -1 else out.result
  (⟨if msgLength < 0 then { out.control with numBpages := 0 } else out.control, msgLength⟩, out)

/-- `homa::receiver::release()`, also run by the destructor; its `recvmsg`
is nonblocking with `id` 0, so `wait` is `-EAGAIN` or any shared RPC that is
ready. -/
def homaReceiverRelease (wait : RecvWait) (r : Receiver) (pool : Pool) :
    Receiver × Option RecvmsgOut :=
  if r.control.numBpages = 0 then (r, none)
  else
    let out := homaRecvmsg { r.control with id := 0 } wait pool
    (⟨{ out.control with numBpages := 0 }, -1⟩, some out)

/-! ## Runs of a receiver -/

/-- A receiver with the socket's pool and the ledger of its run. -/
structure ReceiverSys where
  receiver : Receiver
  pool : Pool
  handed : List ℕ
  returned : List ℕ

/-- A call on the receiver, with what its `recvmsg` waits for. -/
inductive ReceiverOp where
  | receive (id : ℕ) (wait : RecvWait)
  | release (wait : RecvWait)

/-- The ledger after one `homa_recvmsg`. -/
def ReceiverSys.record (s : ReceiverSys) (r : Receiver) (out : RecvmsgOut) : ReceiverSys :=
  ⟨r, out.pool, s.handed ++ out.handed, s.returned ++ out.released⟩

def ReceiverSys.step (s : ReceiverSys) : ReceiverOp → ReceiverSys
  | .receive id wait =>
      let (r, out) := homaReceiverReceive id wait s.receiver s.pool
      s.record r out
  | .release wait =>
      match homaReceiverRelease wait s.receiver s.pool with
      | (r, none) => { s with receiver := r }
      | (r, some out) => s.record r out

def ReceiverSys.run (s : ReceiverSys) (ops : List ReceiverOp) : ReceiverSys :=
  ops.foldl ReceiverSys.step s

/-- A fresh receiver on `pool` with an empty ledger. -/
def ReceiverSys.init (pool : Pool) : ReceiverSys :=
  ⟨Receiver.init, pool, [], []⟩

/-- The ledger balances: every offset handed out was returned or is held by
the receiver, as often as it was handed out; and the receiver's `control`
passes the checks of `homa_recvmsg`. -/
structure ReceiverSys.Balanced (s : ReceiverSys) : Prop where
  ledger : s.handed.Perm (s.returned ++ s.receiver.control.owned)
  numBpages_le : s.receiver.control.numBpages ≤ homaMaxBpages
  reserved_eq : s.receiver.control.reserved = 0

/-- A wait that keeps the ledger: the message it returns fits in
`HOMA_MAX_BPAGES`, and it hands over nothing when it fails or, for a
`release`, at all. -/
def RecvWait.Keeps (wait : RecvWait) (inRelease : Bool) : Prop :=
  match wait with
  | .ready _ error _ offsets =>
      offsets.length ≤ homaMaxBpages ∧ ((error ≠ 0 ∨ inRelease) → wait.hands = [])
  | _ => True

def ReceiverOp.Keeps : ReceiverOp → Prop
  | .receive _ wait => wait.Keeps false
  | .release wait => wait.Keeps true

section Owned

theorem RecvmsgArgs.owned_of_zero {control : RecvmsgArgs} (h : control.numBpages = 0) :
    control.owned = [] := by
  simp [RecvmsgArgs.owned, h]

theorem RecvmsgArgs.owned_of_length {control : RecvmsgArgs}
    (h : control.numBpages = control.bpageOffsets.length) :
    control.owned = control.bpageOffsets := by
  apply List.ext_getElem
  · simp [RecvmsgArgs.owned, h]
  · intro i h₁ h₂
    simp [RecvmsgArgs.owned, List.getD_eq_getElem?_getD, List.getElem?_eq_getElem h₂]

end Owned

/-! ## One call of `homa_recvmsg` -/

section Recvmsg

variable {control : RecvmsgArgs} {wait : RecvWait} {pool : Pool} {released : List ℕ}

theorem homaRecvmsgWait_spec (control : RecvmsgArgs) (wait : RecvWait) (pool : Pool)
    (released : List ℕ) (hzero : control.numBpages = 0) :
    (homaRecvmsgWait control wait pool released).released = released ∧
      (homaRecvmsgWait control wait pool released).handed = wait.hands ∧
      (homaRecvmsgWait control wait pool released).control.owned = wait.hands ∧
      (homaRecvmsgWait control wait pool released).control.reserved = control.reserved := by
  cases wait with
  | notFound => exact ⟨rfl, rfl, RecvmsgArgs.owned_of_zero hzero, rfl⟩
  | failed err => exact ⟨rfl, rfl, RecvmsgArgs.owned_of_zero hzero, rfl⟩
  | ready id error length offsets =>
    by_cases hlen : 0 ≤ length
    · simp only [homaRecvmsgWait, if_pos hlen, RecvWait.hands, true_and, and_true]
      exact RecvmsgArgs.owned_of_length rfl
    · simp only [homaRecvmsgWait, if_neg hlen, RecvWait.hands, true_and, and_true]
      exact RecvmsgArgs.owned_of_zero hzero

theorem homaRecvmsgWait_result_neg (h : (homaRecvmsgWait control wait pool released).result < 0) :
    wait.hands = [] ∨ ∃ id error length offsets, wait = .ready id error length offsets ∧ error ≠ 0 := by
  cases wait with
  | notFound => exact .inl rfl
  | failed err => exact .inl rfl
  | ready id error length offsets =>
    by_cases herr : error = 0
    · -- with no error the result is the length, which is then not negative
      left
      by_cases hlen : 0 ≤ length
      · simp only [homaRecvmsgWait, if_pos hlen, herr, ne_eq, not_true_eq_false, if_false] at h
        omega
      · simp [RecvWait.hands, hlen]
    · exact .inr ⟨id, error, length, offsets, rfl, herr⟩

theorem homaRecvmsgWait_numBpages_le
    (hwait : ∀ id error length offsets, wait = .ready id error length offsets →
      offsets.length ≤ homaMaxBpages) (hnum : control.numBpages ≤ homaMaxBpages) :
    (homaRecvmsgWait control wait pool released).control.numBpages ≤ homaMaxBpages := by
  cases wait with
  | notFound => exact hnum
  | failed err => exact hnum
  | ready id error length offsets =>
    by_cases hlen : 0 ≤ length
    · simp only [homaRecvmsgWait, if_pos hlen]
      exact hwait id error length offsets rfl
    · simp only [homaRecvmsgWait, if_neg hlen]
      exact hnum

theorem homaRecvmsg_eq (control : RecvmsgArgs) (wait : RecvWait) (pool : Pool)
    (hnum : control.numBpages ≤ homaMaxBpages) (hres : control.reserved = 0) :
    let release := homaPoolReleaseBuffers control.owned pool
    (release.1 ≠ 0 ∧ homaRecvmsg control wait pool =
        ⟨release.1, { control with numBpages := 0 }, release.2, control.owned, []⟩) ∨
      homaRecvmsg control wait pool =
        homaRecvmsgWait { control with numBpages := 0 } wait release.2 control.owned := by
  have hgt : ¬ control.numBpages > homaMaxBpages := by omega
  simp only [homaRecvmsg, if_neg hgt, hres, ne_eq, not_true_eq_false, if_false]
  split_ifs with hfail
  · exact .inr rfl
  · exact .inl ⟨hfail, rfl⟩

/-- The facts of one `homa_recvmsg` past its checks the ledger needs: it
gives back what `control` held, the `control` it returns holds what it
handed over, which is nothing or what the wait hands, and a negative result
hands nothing unless the RPC failed. -/
theorem homaRecvmsg_spec (control : RecvmsgArgs) (wait : RecvWait) (pool : Pool)
    (hnum : control.numBpages ≤ homaMaxBpages)
    (hres : control.reserved = 0)
    (hwait : ∀ id error length offsets, wait = .ready id error length offsets →
      offsets.length ≤ homaMaxBpages) :
    (homaRecvmsg control wait pool).released = control.owned ∧
      (homaRecvmsg control wait pool).control.owned = (homaRecvmsg control wait pool).handed ∧
      (homaRecvmsg control wait pool).control.reserved = 0 ∧
      (homaRecvmsg control wait pool).control.numBpages ≤ homaMaxBpages ∧
      ((homaRecvmsg control wait pool).handed = [] ∨
        (homaRecvmsg control wait pool).handed = wait.hands) ∧
      ((homaRecvmsg control wait pool).result < 0 → (homaRecvmsg control wait pool).handed = [] ∨
        ∃ id error length offsets, wait = .ready id error length offsets ∧ error ≠ 0) := by
  rcases homaRecvmsg_eq control wait pool hnum hres with ⟨-, heq⟩ | heq <;> rw [heq]
  · exact ⟨rfl, RecvmsgArgs.owned_of_zero rfl, hres, Nat.zero_le _, .inl rfl, fun _ => .inl rfl⟩
  · obtain ⟨hrel, hhand, howned, hres'⟩ :=
      homaRecvmsgWait_spec { control with numBpages := 0 } wait
        (homaPoolReleaseBuffers control.owned pool).2 control.owned rfl
    refine ⟨hrel, howned.trans hhand.symm, hres'.trans hres,
      homaRecvmsgWait_numBpages_le hwait (Nat.zero_le _), .inr hhand, fun hneg => ?_⟩
    rw [hhand]
    exact homaRecvmsgWait_result_neg hneg

end Recvmsg

/-! ## The ledger over a run -/

section Ledger

variable {s : ReceiverSys} {wait : RecvWait}

theorem RecvWait.hands_of_keeps_release (h : wait.Keeps true) : wait.hands = [] := by
  cases wait with
  | ready id error length offsets => exact h.2 (.inr rfl)
  | notFound => rfl
  | failed err => rfl

theorem RecvWait.length_le_of_keeps {inRelease : Bool} (h : wait.Keeps inRelease) :
    ∀ id error length offsets, wait = .ready id error length offsets →
      offsets.length ≤ homaMaxBpages := by
  rintro id error length offsets rfl
  exact h.1

theorem ReceiverSys.ledger_record {r : Receiver} {out : RecvmsgOut} (hs : s.Balanced)
    (hrel : out.released = s.receiver.control.owned)
    (howned : r.control.owned = out.handed) :
    (s.record r out).handed.Perm ((s.record r out).returned ++ (s.record r out).receiver.control.owned) := by
  simp only [ReceiverSys.record, howned, hrel, List.append_assoc]
  rw [← List.append_assoc]
  exact hs.ledger.append_right out.handed

theorem recvmsg_result_neg_iff (result : ℤ) :
    (if result < 0 then (-1 : ℤ) else result) < 0 ↔ result < 0 := by
  split_ifs with h <;> omega

theorem ReceiverSys.receive_balanced {id : ℕ} (hs : s.Balanced) (hw : wait.Keeps false) :
    (s.step (.receive id wait)).Balanced := by
  obtain ⟨hrel, howned, hres, hnum, -, hneg⟩ := homaRecvmsg_spec { s.receiver.control with id } wait s.pool
    hs.numBpages_le hs.reserved_eq
    (RecvWait.length_le_of_keeps hw)
  simp only [ReceiverSys.step, homaReceiverReceive, recvmsg_result_neg_iff]
  split_ifs with hres_neg
  · -- a negative result: the receiver drops its offsets, so nothing may have been handed
    have hnil : (homaRecvmsg { s.receiver.control with id } wait s.pool).handed = [] := by
      rcases hneg hres_neg with hnil | ⟨id', error, length, offsets, rfl, herr⟩
      · exact hnil
      · obtain ⟨-, -, -, -, hnil | hh, -⟩ := homaRecvmsg_spec { s.receiver.control with id }
          (.ready id' error length offsets) s.pool hs.numBpages_le
          hs.reserved_eq (RecvWait.length_le_of_keeps hw)
        · exact hnil
        · exact hh.trans (hw.2 (.inl herr))
    exact ⟨ReceiverSys.ledger_record hs hrel (by simp [hnil, RecvmsgArgs.owned_of_zero]),
      by simp [ReceiverSys.record], by simpa [ReceiverSys.record] using hres⟩
  · exact ⟨ReceiverSys.ledger_record hs hrel howned, hnum, hres⟩

theorem ReceiverSys.release_balanced (hs : s.Balanced) (hw : wait.Keeps true) :
    (s.step (.release wait)).Balanced := by
  unfold ReceiverSys.step homaReceiverRelease
  split_ifs with hzero
  · exact hs
  · obtain ⟨hrel, -, hres, -, hhand, -⟩ := homaRecvmsg_spec { s.receiver.control with id := 0 } wait s.pool
      hs.numBpages_le hs.reserved_eq
      (RecvWait.length_le_of_keeps hw)
    have hnil : (homaRecvmsg { s.receiver.control with id := 0 } wait s.pool).handed = [] := by
      rcases hhand with hnil | hh
      · exact hnil
      · exact hh.trans (RecvWait.hands_of_keeps_release hw)
    exact ⟨ReceiverSys.ledger_record hs hrel (by simp [hnil, RecvmsgArgs.owned_of_zero]),
      by simp [ReceiverSys.record], by simpa [ReceiverSys.record] using hres⟩

theorem ReceiverSys.step_balanced {op : ReceiverOp} (hs : s.Balanced) (hop : op.Keeps) :
    (s.step op).Balanced := by
  cases op with
  | receive id wait => exact ReceiverSys.receive_balanced hs hop
  | release wait => exact ReceiverSys.release_balanced hs hop

theorem ReceiverSys.run_balanced (hs : s.Balanced) (ops : List ReceiverOp)
    (hops : ∀ op ∈ ops, op.Keeps) : (s.run ops).Balanced := by
  induction ops generalizing s with
  | nil => exact hs
  | cons op ops ih =>
    exact ih (ReceiverSys.step_balanced hs (hops op (by simp)))
      fun op' hop' => hops op' (by simp [hop'])

theorem ReceiverSys.init_balanced (pool : Pool) : (ReceiverSys.init pool).Balanced :=
  ⟨by simp [ReceiverSys.init, Receiver.init, RecvmsgArgs.owned], by simp [ReceiverSys.init,
    Receiver.init], rfl⟩

theorem ReceiverSys.release_numBpages (s : ReceiverSys) (wait : RecvWait) :
    (s.step (.release wait)).receiver.control.numBpages = 0 := by
  unfold ReceiverSys.step homaReceiverRelease
  split_ifs with hzero
  · exact hzero
  · rfl

/-- A receiver whose waits keep the ledger gives back, by the time its
destructor has run, every offset it was handed, each as often as it was
handed. -/
theorem ReceiverSys.run_returns_all (pool : Pool) (ops : List ReceiverOp)
    (hops : ∀ op ∈ ops, op.Keeps) (wait : RecvWait) (hwait : wait.Keeps true) :
    ((ReceiverSys.init pool).run (ops ++ [.release wait])).handed.Perm
      ((ReceiverSys.init pool).run (ops ++ [.release wait])).returned := by
  have hbal : ((ReceiverSys.init pool).run ops).Balanced :=
    ReceiverSys.run_balanced (ReceiverSys.init_balanced pool) ops hops
  have hfinal := ReceiverSys.release_balanced hbal hwait
  have hzero := ReceiverSys.release_numBpages ((ReceiverSys.init pool).run ops) wait
  simp only [ReceiverSys.run, List.foldl_append, List.foldl_cons, List.foldl_nil] at hfinal hzero ⊢
  simpa [RecvmsgArgs.owned_of_zero hzero] using hfinal.ledger

/-- A pool of four bpages, each held once. -/
def fourBpagePool : Pool :=
  ⟨true, 4, fun _ => ⟨1, -1, 0⟩, 0, intMax, fun _ => ⟨0, 0, 0⟩, []⟩

/-- Two messages received in turn: one in bpage 0, then one of two bpages. -/
def twoReceives : List ReceiverOp :=
  [.receive 1 (.ready 5 0 1400 [0]), .receive 2 (.ready 6 0 70000 [65536, 131072])]

theorem twoReceives_keep : ∀ op ∈ twoReceives, op.Keeps := by
  intro op hop
  simp only [twoReceives, List.mem_cons, List.not_mem_nil, or_false] at hop
  rcases hop with rfl | rfl <;>
    simp [ReceiverOp.Keeps, RecvWait.Keeps, RecvWait.hands, homaMaxBpages] <;> decide

theorem ReceiverSys.run_returns_all_twoReceives :
    (∀ op ∈ twoReceives, op.Keeps) ∧ (RecvWait.failed (-eagain)).Keeps true ∧
      ((ReceiverSys.init fourBpagePool).run (twoReceives ++ [.release (.failed (-eagain))])).handed.Perm
        ((ReceiverSys.init fourBpagePool).run
          (twoReceives ++ [.release (.failed (-eagain))])).returned :=
  ⟨twoReceives_keep, trivial,
    ReceiverSys.run_returns_all fourBpagePool twoReceives twoReceives_keep _ trivial⟩

end Ledger

/-! ## Where offsets are lost -/

/-- A client RPC that fails (say with `-ETIMEDOUT`) after part of its
response has arrived still has its bpages, and `homa_recvmsg` hands them to
the receiver with the error; `receive` sees a negative result and zeroes
`control.num_bpages`, so whatever the receiver does next gives none of them
back. -/
theorem receiver_error_leaks_bpages (pool : Pool) (id id' : ℕ) (error length : ℤ)
    (offsets : List ℕ) (wait : RecvWait) (herr : error < 0) (hlen : 0 ≤ length)
    (hne : offsets ≠ []) :
    ((ReceiverSys.init pool).run [.receive id (.ready id' error length offsets), .release wait]).handed
        = offsets ∧
      ((ReceiverSys.init pool).run
        [.receive id (.ready id' error length offsets), .release wait]).returned = [] ∧
      ¬ ((ReceiverSys.init pool).run
        [.receive id (.ready id' error length offsets), .release wait]).handed.Perm
        ((ReceiverSys.init pool).run
          [.receive id (.ready id' error length offsets), .release wait]).returned := by
  have hrel : homaPoolReleaseBuffers [] pool = (0, pool) := by
    unfold homaPoolReleaseBuffers
    split_ifs <;> rfl
  have herr' : error ≠ 0 := by omega
  have hgoal : ((ReceiverSys.init pool).run
      [.receive id (.ready id' error length offsets), .release wait]).handed = offsets ∧
      ((ReceiverSys.init pool).run
        [.receive id (.ready id' error length offsets), .release wait]).returned = [] := by
    simp [ReceiverSys.run, ReceiverSys.init, Receiver.init, ReceiverSys.step, homaReceiverReceive,
      homaReceiverRelease, homaRecvmsg, homaRecvmsgWait, RecvmsgArgs.owned, ReceiverSys.record,
      hrel, herr', hlen, herr]
  refine ⟨hgoal.1, hgoal.2, ?_⟩
  rw [hgoal.1, hgoal.2]
  intro hperm
  exact hne (List.Perm.nil_eq hperm.symm).symm

/-- A client RPC on which `homa_timer` gave up with `-ETIMEDOUT` after the
first 1400 bytes of its response arrived in bpage 0: the receiver is handed
offset 0 and never gives it back, whatever the pool and whatever its
destructor's `recvmsg` finds. -/
theorem homaReceiver_timeout_leaks_bpages (pool : Pool) (wait : RecvWait) :
    ((ReceiverSys.init pool).run [.receive 0 (.ready 7 (-etimedout) 1400 [0]), .release wait]).handed
        = [0] ∧
      ((ReceiverSys.init pool).run
        [.receive 0 (.ready 7 (-etimedout) 1400 [0]), .release wait]).returned = [] ∧
      ¬ ((ReceiverSys.init pool).run
        [.receive 0 (.ready 7 (-etimedout) 1400 [0]), .release wait]).handed.Perm
        ((ReceiverSys.init pool).run
          [.receive 0 (.ready 7 (-etimedout) 1400 [0]), .release wait]).returned :=
  receiver_error_leaks_bpages pool 0 7 (-etimedout) 1400 [0] wait (by decide) (by decide)
    (by decide)

end Homa
