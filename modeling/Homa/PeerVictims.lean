import Homa.BestK
import Homa.MachineArith

/-!
# Picking the peers to evict

`homa_peer_pick_victims` scans up to `2 * max_victims` peers of a walk of
the hash table, which may repeat a peer, skips those not idle long enough,
and sorts the others into `victims[]` by `homa_peer_prefer_evict` (peers of
a namespace over its limit, then the longest idle), carrying each displaced
victim down the array: `BestK.step` over a key (`homaPeerPreferEvict_eq`).
-/

namespace Homa

open MachineArith

/-- What `homa_peer_pick_victims` reads of the peer table: `net_max`, and
`idle_jiffies_min` and `idle_jiffies_max`, which are `unsigned long`. -/
structure PeerTabView where
  netMax : ℤ
  idleJiffiesMin : ℕ
  idleJiffiesMax : ℕ
  deriving DecidableEq, Repr

/-- What it reads of a peer: `access_jiffies`, and `num_peers` of the peer's
namespace. -/
structure PeerView where
  accessJiffies : ℕ
  netNumPeers : ℤ
  deriving DecidableEq, Repr

def homaPeerPreferEvict (netMax : ℤ) (peer1 peer2 : PeerView) : Bool :=
  if peer1.netNumPeers > netMax then
    if peer2.netNumPeers ≤ netMax then true
    else decide (peer1.accessJiffies < peer2.accessJiffies)
  else if peer2.netNumPeers > netMax then false
  else decide (peer1.accessJiffies < peer2.accessJiffies)

/-- An `int` converted to `unsigned long`. -/
def toULong (x : ℤ) : ℕ := (x % 2 ^ 64).toNat

/-- `idle = jiffies - peer->access_jiffies`: the `unsigned long` difference
stored in an `int`. -/
def peerIdle (jiffies accessJiffies : ℕ) : ℤ :=
  wrapInt 32 (((jiffies : ℤ) - accessJiffies) % 2 ^ 64)

/-- The two tests that skip a peer; `idle` is compared with the `unsigned
long` bounds as an `unsigned long`. -/
def homaPeerEligible (pt : PeerTabView) (jiffies : ℕ) (peer : PeerView) : Bool :=
  let idle := peerIdle jiffies peer.accessJiffies
  if toULong idle < pt.idleJiffiesMin then false
  else if toULong idle < pt.idleJiffiesMax ∧ peer.netNumPeers ≤ pt.netMax then false
  else true

variable {α : Type*} [DecidableEq α]

/-- One pass of the scan, on the peer `p`: skipped, or sorted into the
victims. -/
def homaPeerPickVictimsStep (pt : PeerTabView) (jiffies : ℕ) (peer : α → PeerView)
    (maxVictims : ℕ) (victims : List α) (p : α) : List α :=
  if homaPeerEligible pt jiffies (peer p) then
    BestK.step (fun a b => homaPeerPreferEvict pt.netMax (peer a) (peer b)) maxVictims victims p
  else victims

/-- `homa_peer_pick_victims(peertab, victims, max_victims)` on the peers the
hash-table walk returns (`walk`); the result is `victims[0 .. num_victims)`. -/
def homaPeerPickVictims (pt : PeerTabView) (jiffies : ℕ) (peer : α → PeerView)
    (maxVictims : ℕ) (walk : List α) : List α :=
  (walk.take (2 * maxVictims)).foldl (homaPeerPickVictimsStep pt jiffies peer maxVictims) []

/-! ## The order of eviction -/

/-- What `homa_peer_prefer_evict` compares: whether the namespace is within
its limit, then the access time. -/
def evictKey (netMax : ℤ) (peer : PeerView) : ℕ ×ₗ ℕ :=
  toLex (if peer.netNumPeers > netMax then 0 else 1, peer.accessJiffies)

theorem homaPeerPreferEvict_eq (netMax : ℤ) (peer1 peer2 : PeerView) :
    homaPeerPreferEvict netMax peer1 peer2 =
      decide (evictKey netMax peer1 < evictKey netMax peer2) := by
  unfold homaPeerPreferEvict evictKey
  simp only [Prod.Lex.toLex_lt_toLex]
  -- one case for each side of the limit of each namespace
  rcases lt_or_ge netMax peer1.netNumPeers with h1 | h1 <;>
    rcases lt_or_ge netMax peer2.netNumPeers with h2 | h2
  · simp [h1, h2, not_le.mpr h2]
  · simp [h1, h2, not_lt.mpr h2]
  · simp [h2, not_lt.mpr h1]
  · simp [not_lt.mpr h1, not_lt.mpr h2]

theorem foldl_homaPeerPickVictimsStep (pt : PeerTabView) (jiffies : ℕ) (peer : α → PeerView)
    (maxVictims : ℕ) (xs : List α) :
    ∀ victims, xs.foldl (homaPeerPickVictimsStep pt jiffies peer maxVictims) victims =
      (xs.filter fun p => homaPeerEligible pt jiffies (peer p)).foldl
        (BestK.step (BestK.better fun a => evictKey pt.netMax (peer a)) maxVictims) victims := by
  have hbetter : (fun a b => homaPeerPreferEvict pt.netMax (peer a) (peer b)) =
      BestK.better fun a => evictKey pt.netMax (peer a) := by
    funext a b
    rw [homaPeerPreferEvict_eq]
    rfl
  induction xs with
  | nil => intro victims; rfl
  | cons p xs ih =>
    intro victims
    by_cases hp : homaPeerEligible pt jiffies (peer p) = true
    · simp only [List.foldl_cons, homaPeerPickVictimsStep, List.filter_cons, hp, if_true,
        hbetter, ih]
    · simp only [List.foldl_cons, homaPeerPickVictimsStep, List.filter_cons, hp, ih]
      rfl

/-- For every table, time and walk of the hash table, with no peer changing
during the call: the victims are distinct scanned peers that pass the
tests, as many as there are distinct such peers up to `max_victims`; none
is preferred for eviction over one before it; and no peer that passes the
tests and is left out is preferred over the last victim. -/
theorem homaPeerPickVictims_best (pt : PeerTabView) (jiffies : ℕ) (peer : α → PeerView)
    (maxVictims : ℕ) (walk : List α) :
    (homaPeerPickVictims pt jiffies peer maxVictims walk).length =
        min maxVictims ((walk.take (2 * maxVictims)).filter
          fun p => homaPeerEligible pt jiffies (peer p)).toFinset.card ∧
      (homaPeerPickVictims pt jiffies peer maxVictims walk).Nodup ∧
      (∀ v ∈ homaPeerPickVictims pt jiffies peer maxVictims walk,
        v ∈ walk.take (2 * maxVictims) ∧ homaPeerEligible pt jiffies (peer v) = true) ∧
      (homaPeerPickVictims pt jiffies peer maxVictims walk).Pairwise
        (fun a b => homaPeerPreferEvict pt.netMax (peer b) (peer a) = false) ∧
      ∀ c ∈ (walk.take (2 * maxVictims)).filter fun p => homaPeerEligible pt jiffies (peer p),
        c ∉ homaPeerPickVictims pt jiffies peer maxVictims walk →
        ∀ v ∈ (homaPeerPickVictims pt jiffies peer maxVictims walk).getLast?,
          homaPeerPreferEvict pt.netMax (peer c) (peer v) = false := by
  -- the scan is the top-`max_victims` insertion over the peers that pass the tests
  have hkept : BestK.Kept (fun a => evictKey pt.netMax (peer a)) maxVictims
      ([] ++ (walk.take (2 * maxVictims)).filter fun p => homaPeerEligible pt jiffies (peer p))
      (((walk.take (2 * maxVictims)).filter fun p => homaPeerEligible pt jiffies (peer p)).foldl
        (BestK.step (BestK.better fun a => evictKey pt.netMax (peer a)) maxVictims) []) :=
    BestK.kept_foldl _ (BestK.kept_nil maxVictims)
  rw [List.nil_append, ← foldl_homaPeerPickVictimsStep] at hkept
  refine ⟨hkept.length_eq, hkept.nodup, fun v hv => ?_, ?_, fun c hc hcv v hv => ?_⟩
  · have hmem := hkept.mem_seen v hv
    exact ⟨List.mem_of_mem_filter hmem, by simpa using (List.mem_filter.mp hmem).2⟩
  · -- sorted by the key: no later victim has a smaller key
    refine hkept.bestFirst.imp fun {a b} hab => ?_
    rw [homaPeerPreferEvict_eq]
    simpa using hab
  · rw [homaPeerPreferEvict_eq]
    simpa using (hkept.left_out c hc hcv).2 v (List.mem_of_getLast? hv)

/-- Peers last used at times 300, 400, 500, 200, 350 and 600, all idle long
enough: the three longest idle are picked, the longest first. -/
example :
    homaPeerPickVictims ⟨6, 100, 1000⟩ 2000
      (fun i : Fin 6 => ⟨[300, 400, 500, 200, 350, 600][i], 6⟩) 3 [0, 1, 2, 3, 4, 5] =
      [3, 0, 4] := by
  decide +kernel

end Homa
