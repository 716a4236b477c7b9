import Homa.Socket
import Homa.MessageOutFill

/-!
# The socket table and default ports

All Homa sockets sit in one hash table, each in the bucket
`homa_socktab_bucket(hnet, port)`.  `homa_sock_init` gives a new socket a
default port by advancing the namespace's `prev_default_port`, a `u16` that
wraps and is then raised to `HOMA_MIN_DEFAULT_PORT`, until no socket holds
the port, giving up when it is back where it started.  `homa_sock_bind`
moves a socket to a server port and `homa_sock_shutdown` unlinks it.

`SockTab.Inv` (every linked socket in its bucket, no shared port within a
namespace, ports in their ranges, the cursor in range) holds in every
reachable state; from it the search visits every default port once.
-/

namespace Homa

/-- `HOMA_MIN_DEFAULT_PORT`: ports from here on are assigned by
`homa_sock_init`, those below by `homa_sock_bind`. -/
def homaMinDefaultPort : ℕ := 0x8000

def homaSocktabBucketBits : ℕ := 10

def eaddrinuse : ℤ := 98
def eaddrnotavail : ℤ := 99

/-- `hash_32(val, bits)`: the top `bits` bits of the 32-bit product with
`GOLDEN_RATIO_32`. -/
def hash32 (val bits : ℕ) : ℕ :=
  val % 2 ^ 32 * 0x61C88647 % 2 ^ 32 / 2 ^ (32 - bits)

/-- `homa_socktab_bucket(hnet, port)`, for the namespace at address `hnet`. -/
def homaSocktabBucket (hnet port : ℕ) : ℕ :=
  hash32 (hnet ^^^ port) homaSocktabBucketBits

/-- What the socket table code reads and writes of a `homa_sock`: `port`,
`hnet`, `shutdown`, whether `homa` is set, `is_server` and `error_msg`. -/
structure SockEntry where
  port : ℕ
  hnet : ℕ
  shutdown : Bool
  homa : Bool
  isServer : Bool
  errorMsg : String
  deriving DecidableEq, Repr

/-- The sockets by address, `socktab->buckets`, and `prev_default_port` of
each namespace. -/
structure SockTab where
  socks : ℕ → SockEntry
  buckets : ℕ → List ℕ
  prevDefaultPort : ℕ → ℕ

namespace SockTab

/-- The table before any socket: `homa_net_init` sets `prev_default_port`
to `HOMA_MIN_DEFAULT_PORT - 1`. -/
def empty : SockTab where
  socks := fun _ => ⟨0, 0, false, false, false, ""⟩
  buckets := fun _ => []
  prevDefaultPort := fun _ => homaMinDefaultPort - 1

def setSock (t : SockTab) (hsk : ℕ) (e : SockEntry) : SockTab :=
  { t with socks := Function.update t.socks hsk e }

def setPrev (t : SockTab) (hnet port : ℕ) : SockTab :=
  { t with prevDefaultPort := Function.update t.prevDefaultPort hnet port }

/-- `hlist_add_head_rcu` onto the bucket of `port` in `hnet`. -/
def link (t : SockTab) (hsk hnet port : ℕ) : SockTab :=
  let b := homaSocktabBucket hnet port
  { t with buckets := Function.update t.buckets b (hsk :: t.buckets b) }

/-- `hlist_del_rcu`. -/
def unlink (t : SockTab) (hsk : ℕ) : SockTab :=
  { t with buckets := fun b => (t.buckets b).erase hsk }

def Linked (t : SockTab) (hsk : ℕ) : Prop := ∃ b, hsk ∈ t.buckets b

end SockTab

open SockTab

/-- `homa_sock_find(hnet, port)`: the first socket of the port's bucket
with that port and namespace. -/
def homaSockFind (t : SockTab) (hnet port : ℕ) : Option ℕ :=
  (t.buckets (homaSocktabBucket hnet port)).find? fun hsk =>
    (t.socks hsk).port == port && (t.socks hsk).hnet == hnet

/-- `prev_default_port++` on the `u16`, raised to the default range. -/
def nextDefaultPort (prev : ℕ) : ℕ :=
  let prev := (prev + 1) % 2 ^ 16
  if prev < homaMinDefaultPort then homaMinDefaultPort else prev

/-- The search of `homa_sock_init` from `prev`, for at most `fuel` ports:
the first free port and `true`, or `startingPort` and `false` when the
search comes back to it. -/
def homaSockInitSearch (t : SockTab) (hnet startingPort : ℕ) : ℕ → ℕ → Option (ℕ × Bool)
  | 0, _ => none
  | fuel + 1, prev =>
    let prev := nextDefaultPort prev
    match homaSockFind t hnet prev with
    | none => some (prev, true)
    | some _ =>
        if prev = startingPort then some (prev, false)
        else homaSockInitSearch t hnet startingPort fuel prev

/-- `homa_sock_init(hsk)` for a socket of the namespace `hnet`; `poolOk` is
whether `homa_pool_alloc` succeeds.  The search is given `2 ^ 16` ports,
more than it ever needs (`homaSockTab_ports_unique`). -/
def homaSockInit (hnet hsk : ℕ) (poolOk : Bool) (t : SockTab) : Option (SockTab × ℤ) :=
  if !poolOk then some (t, -enomem)
  else
    let e := t.socks hsk
    let t := t.setSock hsk
      { e with hnet := hnet, isServer := false, shutdown := false, homa := true }
    let startingPort := t.prevDefaultPort hnet
    match homaSockInitSearch t hnet startingPort (2 ^ 16) startingPort with
    | none => none
    | some (prev, true) =>
        let t := t.setPrev hnet prev
        some ((t.setSock hsk { t.socks hsk with port := prev }).link hsk hnet prev, 0)
    | some (prev, false) =>
        let t := t.setPrev hnet prev
        some (t.setSock hsk { t.socks hsk with shutdown := true, homa := false }, -eaddrnotavail)

def homaSockBind (hsk port : ℕ) (t : SockTab) : SockTab × ℤ :=
  let hnet := (t.socks hsk).hnet
  let fail (msg : String) (err : ℤ) := (t.setSock hsk { t.socks hsk with errorMsg := msg }, -err)
  if port = 0 then (t, 0)
  else if port ≥ homaMinDefaultPort then
    fail "port number invalid: in the automatically assigned range" einval
  else if (t.socks hsk).shutdown then fail "socket has been shut down" eshutdown
  else
    match homaSockFind t hnet port with
    | some owner =>
        if owner ≠ hsk then fail "requested port number is already in use" eaddrinuse
        else (t, 0)
    | none =>
        let t := t.unlink hsk
        let t := t.setSock hsk { t.socks hsk with port, isServer := true }
        (t.link hsk hnet port, 0)

/-- The part of `homa_sock_shutdown(hsk)` on the table: once, it marks the
socket shut down and unlinks it. -/
def homaSockShutdown (hsk : ℕ) (t : SockTab) : SockTab :=
  if (t.socks hsk).shutdown || !(t.socks hsk).homa then t
  else (t.setSock hsk { t.socks hsk with shutdown := true }).unlink hsk

/-! ## The table operations -/

namespace SockTab

variable (t : SockTab)

@[simp] theorem setSock_buckets (hsk : ℕ) (e : SockEntry) : (t.setSock hsk e).buckets = t.buckets :=
  rfl

@[simp] theorem setSock_prevDefaultPort (hsk : ℕ) (e : SockEntry) :
    (t.setSock hsk e).prevDefaultPort = t.prevDefaultPort := rfl

@[simp] theorem setSock_socks_self (hsk : ℕ) (e : SockEntry) : (t.setSock hsk e).socks hsk = e :=
  Function.update_self _ _ _

theorem setSock_socks_of_ne {hsk h : ℕ} (hne : h ≠ hsk) (e : SockEntry) :
    (t.setSock hsk e).socks h = t.socks h :=
  Function.update_of_ne hne _ _

@[simp] theorem setPrev_socks (hnet port : ℕ) : (t.setPrev hnet port).socks = t.socks := rfl

@[simp] theorem setPrev_buckets (hnet port : ℕ) : (t.setPrev hnet port).buckets = t.buckets := rfl

@[simp] theorem link_socks (hsk hnet port : ℕ) : (t.link hsk hnet port).socks = t.socks := rfl

@[simp] theorem link_prevDefaultPort (hsk hnet port : ℕ) :
    (t.link hsk hnet port).prevDefaultPort = t.prevDefaultPort := rfl

@[simp] theorem unlink_socks (hsk : ℕ) : (t.unlink hsk).socks = t.socks := rfl

@[simp] theorem unlink_prevDefaultPort (hsk : ℕ) :
    (t.unlink hsk).prevDefaultPort = t.prevDefaultPort := rfl

@[simp] theorem unlink_buckets (hsk b : ℕ) : (t.unlink hsk).buckets b = (t.buckets b).erase hsk :=
  rfl

theorem link_buckets (hsk hnet port b : ℕ) :
    (t.link hsk hnet port).buckets b =
      if b = homaSocktabBucket hnet port then hsk :: t.buckets b else t.buckets b := by
  unfold link
  split_ifs with hb
  · subst hb
    exact Function.update_self _ _ _
  · exact Function.update_of_ne hb _ _

theorem setPrev_self (hnet : ℕ) : t.setPrev hnet (t.prevDefaultPort hnet) = t := by
  simp [setPrev]

theorem linked_link {hsk hnet port h : ℕ} : (t.link hsk hnet port).Linked h ↔ h = hsk ∨ t.Linked h := by
  constructor
  · rintro ⟨b, hb⟩
    rw [link_buckets] at hb
    split_ifs at hb
    · rcases List.mem_cons.mp hb with rfl | hb
      · exact .inl rfl
      · exact .inr ⟨b, hb⟩
    · exact .inr ⟨b, hb⟩
  · rintro (rfl | ⟨b, hb⟩)
    · exact ⟨homaSocktabBucket hnet port, by simp [link_buckets]⟩
    · refine ⟨b, ?_⟩
      rw [link_buckets]
      split_ifs
      · exact List.mem_cons_of_mem _ hb
      · exact hb

theorem linked_unlink {hsk h : ℕ} (hnd : ∀ b, (t.buckets b).Nodup) :
    (t.unlink hsk).Linked h ↔ h ≠ hsk ∧ t.Linked h := by
  simp only [Linked, unlink_buckets]
  constructor
  · rintro ⟨b, hb⟩
    rw [(hnd b).mem_erase_iff] at hb
    exact ⟨hb.1, b, hb.2⟩
  · rintro ⟨hne, b, hb⟩
    exact ⟨b, (List.mem_erase_of_ne hne).mpr hb⟩

/-! ## The invariant -/

/-- The table between calls: every linked socket in its bucket once, no
shared port within a namespace, ports in their ranges, and the search
cursor a `u16` at or above `HOMA_MIN_DEFAULT_PORT - 1`. -/
structure Inv (t : SockTab) : Prop where
  bucketed : ∀ b hsk, hsk ∈ t.buckets b →
    b = homaSocktabBucket (t.socks hsk).hnet (t.socks hsk).port
  nodup : ∀ b, (t.buckets b).Nodup
  unique : ∀ h1 h2, t.Linked h1 → t.Linked h2 → (t.socks h1).hnet = (t.socks h2).hnet →
    (t.socks h1).port = (t.socks h2).port → h1 = h2
  serverPort : ∀ hsk, t.Linked hsk → (t.socks hsk).isServer = true →
    1 ≤ (t.socks hsk).port ∧ (t.socks hsk).port < homaMinDefaultPort
  defaultPort : ∀ hsk, t.Linked hsk → (t.socks hsk).isServer = false →
    homaMinDefaultPort ≤ (t.socks hsk).port ∧ (t.socks hsk).port < 2 ^ 16
  prevRange : ∀ hnet, homaMinDefaultPort - 1 ≤ t.prevDefaultPort hnet ∧
    t.prevDefaultPort hnet < 2 ^ 16
  prevFresh : ∀ hnet, t.prevDefaultPort hnet = homaMinDefaultPort - 1 →
    ∀ hsk, t.Linked hsk → (t.socks hsk).hnet = hnet → (t.socks hsk).port < homaMinDefaultPort

theorem inv_empty : empty.Inv where
  bucketed := by simp [empty]
  nodup := by simp [empty]
  unique := by simp [empty, Linked]
  serverPort := by simp [empty, Linked]
  defaultPort := by simp [empty, Linked]
  prevRange := by simp [empty, homaMinDefaultPort]
  prevFresh := by simp [empty, Linked]

end SockTab

/-! ## Looking a port up -/

theorem homaSockFind_some {t : SockTab} {hnet port hsk : ℕ}
    (h : homaSockFind t hnet port = some hsk) :
    t.Linked hsk ∧ (t.socks hsk).hnet = hnet ∧ (t.socks hsk).port = port := by
  unfold homaSockFind at h
  have hmatch := List.find?_some h
  simp only [Bool.and_eq_true, beq_iff_eq] at hmatch
  exact ⟨⟨_, List.mem_of_find?_eq_some h⟩, hmatch.2, hmatch.1⟩

theorem homaSockFind_eq_none_iff {t : SockTab} (hinv : t.Inv) {hnet port : ℕ} :
    homaSockFind t hnet port = none ↔
      ∀ hsk, t.Linked hsk → (t.socks hsk).hnet = hnet → (t.socks hsk).port ≠ port := by
  unfold homaSockFind
  rw [List.find?_eq_none]
  constructor
  · rintro hnone hsk ⟨b, hb⟩ hnet' hport
    have hbucket := hinv.bucketed b hsk hb
    rw [hnet', hport] at hbucket
    subst hbucket
    exact hnone hsk hb (by simp [hnet', hport])
  · intro hfree hsk hb hmatch
    simp only [Bool.and_eq_true, beq_iff_eq] at hmatch
    exact hfree hsk ⟨_, hb⟩ hmatch.2 hmatch.1

/-! ## The search for a default port -/

theorem nextDefaultPort_mem (prev : ℕ) :
    homaMinDefaultPort ≤ nextDefaultPort prev ∧ nextDefaultPort prev < 2 ^ 16 := by
  unfold nextDefaultPort homaMinDefaultPort
  dsimp only
  split_ifs <;> omega

theorem nextDefaultPort_eq {prev : ℕ} (hlo : homaMinDefaultPort - 1 ≤ prev) (hhi : prev < 2 ^ 16) :
    nextDefaultPort prev = homaMinDefaultPort + (prev + 1 - homaMinDefaultPort) % homaMinDefaultPort := by
  unfold nextDefaultPort homaMinDefaultPort at *
  dsimp only
  split_ifs <;> omega

theorem nextDefaultPort_iterate {prev : ℕ} (hlo : homaMinDefaultPort - 1 ≤ prev)
    (hhi : prev < 2 ^ 16) :
    ∀ k, 1 ≤ k → nextDefaultPort^[k] prev =
      homaMinDefaultPort + (prev + k - homaMinDefaultPort) % homaMinDefaultPort := by
  intro k hk
  induction k with
  | zero => omega
  | succ k ih =>
    rw [Function.iterate_succ_apply']
    rcases Nat.eq_zero_or_pos k with rfl | hpos
    · simpa using nextDefaultPort_eq hlo hhi
    · rw [ih hpos, nextDefaultPort_eq] <;> unfold homaMinDefaultPort at * <;> omega

theorem exists_nextDefaultPort_iterate_eq {prev : ℕ} (hlo : homaMinDefaultPort - 1 ≤ prev)
    (hhi : prev < 2 ^ 16) {port : ℕ} (hport : homaMinDefaultPort ≤ port ∧ port < 2 ^ 16) :
    ∃ i, 1 ≤ i ∧ i ≤ homaMinDefaultPort ∧ nextDefaultPort^[i] prev = port := by
  refine ⟨(port + homaMinDefaultPort - (prev + 1)) % homaMinDefaultPort + 1, by omega, ?_, ?_⟩
  · unfold homaMinDefaultPort
    omega
  · rw [nextDefaultPort_iterate hlo hhi _ (by omega)]
    unfold homaMinDefaultPort at *
    omega

theorem le_of_nextDefaultPort_iterate_eq {prev : ℕ} (hlo : homaMinDefaultPort ≤ prev)
    (hhi : prev < 2 ^ 16) {k : ℕ} (hk : 1 ≤ k) (heq : nextDefaultPort^[k] prev = prev) :
    homaMinDefaultPort ≤ k := by
  rw [nextDefaultPort_iterate (by omega) hhi k hk] at heq
  unfold homaMinDefaultPort at *
  omega

section Search

variable {t : SockTab} {hnet startingPort : ℕ}

theorem homaSockInitSearch_found {p : ℕ} :
    ∀ {fuel prev}, homaSockInitSearch t hnet startingPort fuel prev = some (p, true) →
      homaSockFind t hnet p = none ∧ homaMinDefaultPort ≤ p ∧ p < 2 ^ 16 := by
  intro fuel
  induction fuel with
  | zero => simp [homaSockInitSearch]
  | succ fuel ih =>
    intro prev h
    unfold homaSockInitSearch at h
    cases hfind : homaSockFind t hnet (nextDefaultPort prev) with
    | none =>
      simp only [hfind, Option.some.injEq, Prod.mk.injEq, and_true] at h
      subst h
      exact ⟨hfind, nextDefaultPort_mem prev⟩
    | some owner =>
      simp only [hfind] at h
      split_ifs at h
      · simp at h
      · exact ih h

theorem homaSockInitSearch_full {p : ℕ} :
    ∀ {fuel prev}, homaSockInitSearch t hnet startingPort fuel prev = some (p, false) →
      p = startingPort ∧ ∃ k, 1 ≤ k ∧ nextDefaultPort^[k] prev = startingPort ∧
        ∀ i, 1 ≤ i → i ≤ k → (homaSockFind t hnet (nextDefaultPort^[i] prev)).isSome := by
  intro fuel
  induction fuel with
  | zero => simp [homaSockInitSearch]
  | succ fuel ih =>
    intro prev h
    unfold homaSockInitSearch at h
    cases hfind : homaSockFind t hnet (nextDefaultPort prev) with
    | none => simp [hfind] at h
    | some owner =>
      simp only [hfind] at h
      split_ifs at h with hstart
      · -- back at the start after one step
        simp only [Option.some.injEq, Prod.mk.injEq, and_true] at h
        refine ⟨h ▸ hstart, 1, le_refl 1, hstart, fun i hi hi1 => ?_⟩
        obtain rfl : i = 1 := by omega
        simp [hfind]
      · obtain ⟨hp, k, hk, hback, hheld⟩ := ih h
        refine ⟨hp, k + 1, by omega, by rwa [Function.iterate_succ_apply], fun i hi hik => ?_⟩
        rcases Nat.lt_or_ge i 2 with hi2 | hi2
        · obtain rfl : i = 1 := by omega
          simp [hfind]
        · obtain ⟨j, rfl⟩ : ∃ j, i = j + 1 := ⟨i - 1, by omega⟩
          rw [Function.iterate_succ_apply]
          exact hheld j (by omega) (by omega)

theorem homaSockInitSearch_none :
    ∀ {fuel prev}, homaSockInitSearch t hnet startingPort fuel prev = none →
      ∀ i, 1 ≤ i → i ≤ fuel → (homaSockFind t hnet (nextDefaultPort^[i] prev)).isSome ∧
        nextDefaultPort^[i] prev ≠ startingPort := by
  intro fuel
  induction fuel with
  | zero => intro prev _ i hi hi0; omega
  | succ fuel ih =>
    intro prev h i hi hif
    unfold homaSockInitSearch at h
    cases hfind : homaSockFind t hnet (nextDefaultPort prev) with
    | none => simp [hfind] at h
    | some owner =>
      simp only [hfind] at h
      split_ifs at h with hstart
      rcases Nat.lt_or_ge i 2 with hi2 | hi2
      · obtain rfl : i = 1 := by omega
        exact ⟨by simp [hfind], hstart⟩
      · obtain ⟨j, rfl⟩ : ∃ j, i = j + 1 := ⟨i - 1, by omega⟩
        rw [Function.iterate_succ_apply]
        exact ih h j (by omega) (by omega)

/-- From the cursor of a table that keeps the invariant, `2 ^ 16` tries
never run out: before that the search settles on a port or comes back to
where it started. -/
theorem SockTab.Inv.homaSockInitSearch_ne_none (hinv : t.Inv) (hnet : ℕ) :
    homaSockInitSearch t hnet (t.prevDefaultPort hnet) (2 ^ 16) (t.prevDefaultPort hnet) ≠
      none := by
  intro hsearch
  have hall := homaSockInitSearch_none hsearch
  have hrange := hinv.prevRange hnet
  rcases Nat.lt_or_ge (t.prevDefaultPort hnet) homaMinDefaultPort with hlow | hhigh
  · -- from the initial cursor the first default port is still free
    have hfresh := hinv.prevFresh hnet (by omega)
    obtain ⟨h, hfind⟩ := Option.isSome_iff_exists.mp (hall 1 le_rfl (by norm_num)).1
    obtain ⟨hlh, hn, hp⟩ := homaSockFind_some hfind
    have hfirst : nextDefaultPort^[1] (t.prevDefaultPort hnet) = homaMinDefaultPort := by
      rw [nextDefaultPort_iterate hrange.1 hrange.2 1 le_rfl]
      unfold homaMinDefaultPort at *
      omega
    rw [hfirst] at hp
    exact absurd (hfresh h hlh hn) (by omega)
  · -- from a default port the search comes back to it
    have hback : nextDefaultPort^[homaMinDefaultPort] (t.prevDefaultPort hnet) =
        t.prevDefaultPort hnet := by
      rw [nextDefaultPort_iterate hrange.1 hrange.2 _ (by unfold homaMinDefaultPort; omega)]
      unfold homaMinDefaultPort at *
      omega
    exact (hall homaMinDefaultPort (by unfold homaMinDefaultPort; omega)
      (by unfold homaMinDefaultPort; omega)).2 hback

theorem SockTab.Inv.homaSockFind_isSome_of_search_full (hinv : t.Inv) {fuel p : ℕ}
    (hsearch : homaSockInitSearch t hnet (t.prevDefaultPort hnet) fuel (t.prevDefaultPort hnet) =
      some (p, false)) :
    ∀ port, homaMinDefaultPort ≤ port → port ≤ 0xFFFF → (homaSockFind t hnet port).isSome := by
  intro port hlo hhi
  have hrange := hinv.prevRange hnet
  obtain ⟨-, k, hk, hback, hheldK⟩ := homaSockInitSearch_full hsearch
  -- the search came back to a default port, so went round all of them
  have hstart : homaMinDefaultPort ≤ t.prevDefaultPort hnet := by
    obtain ⟨j, hj⟩ : ∃ j, k = j + 1 := ⟨k - 1, by omega⟩
    have hlast := nextDefaultPort_mem (nextDefaultPort^[j] (t.prevDefaultPort hnet))
    rw [← Function.iterate_succ_apply' nextDefaultPort j, Nat.succ_eq_add_one, ← hj,
      hback] at hlast
    exact hlast.1
  have hround := le_of_nextDefaultPort_iterate_eq hstart hrange.2 hk hback
  obtain ⟨i, hi, hiM, hiport⟩ :=
    exists_nextDefaultPort_iterate_eq hrange.1 hrange.2 ⟨hlo, by omega⟩
  rw [← hiport]
  exact hheldK i hi (hiM.trans hround)

end Search

/-! ## What each change of the table keeps -/

namespace SockTab.Inv

variable {t : SockTab}

theorem setSock (hinv : t.Inv) {hsk : ℕ} {e : SockEntry}
    (he : t.Linked hsk → e.port = (t.socks hsk).port ∧ e.hnet = (t.socks hsk).hnet ∧
      e.isServer = (t.socks hsk).isServer) :
    (t.setSock hsk e).Inv := by
  -- the linked sockets read the same
  have hsame : ∀ h, t.Linked h → ((t.setSock hsk e).socks h).port = (t.socks h).port ∧
      ((t.setSock hsk e).socks h).hnet = (t.socks h).hnet ∧
      ((t.setSock hsk e).socks h).isServer = (t.socks h).isServer := by
    intro h hl
    by_cases hh : h = hsk
    · subst hh
      simpa using he hl
    · simp [setSock_socks_of_ne _ hh]
  refine ⟨fun b h hb => ?_, hinv.nodup, fun h1 h2 hl1 hl2 hn hp => ?_, fun h hl hs => ?_,
    fun h hl hs => ?_, hinv.prevRange, fun hnet hprev h hl hn => ?_⟩
  · obtain ⟨hp, hn, -⟩ := hsame h ⟨b, hb⟩
    rw [hp, hn]
    exact hinv.bucketed b h hb
  · obtain ⟨hp1, hn1, -⟩ := hsame h1 hl1
    obtain ⟨hp2, hn2, -⟩ := hsame h2 hl2
    exact hinv.unique h1 h2 hl1 hl2 (by rw [← hn1, ← hn2]; exact hn) (by rw [← hp1, ← hp2]; exact hp)
  · obtain ⟨hp, -, hs'⟩ := hsame h hl
    rw [hp]
    exact hinv.serverPort h hl (hs' ▸ hs)
  · obtain ⟨hp, -, hs'⟩ := hsame h hl
    rw [hp]
    exact hinv.defaultPort h hl (hs' ▸ hs)
  · obtain ⟨hp, hn', -⟩ := hsame h hl
    rw [hp]
    exact hinv.prevFresh hnet hprev h hl (hn' ▸ hn)

theorem setSock_of_not_linked (hinv : t.Inv) {hsk : ℕ} (hl : ¬t.Linked hsk) (e : SockEntry) :
    (t.setSock hsk e).Inv :=
  hinv.setSock fun h => absurd h hl

theorem unlink (hinv : t.Inv) (hsk : ℕ) : (t.unlink hsk).Inv := by
  have hlinked : ∀ h, (t.unlink hsk).Linked h → t.Linked h := fun h hl =>
    ((t.linked_unlink hinv.nodup).mp hl).2
  exact ⟨fun b h hb => hinv.bucketed b h (List.mem_of_mem_erase hb),
    fun b => (hinv.nodup b).erase hsk,
    fun h1 h2 hl1 hl2 => hinv.unique h1 h2 (hlinked h1 hl1) (hlinked h2 hl2),
    fun h hl => hinv.serverPort h (hlinked h hl), fun h hl => hinv.defaultPort h (hlinked h hl),
    hinv.prevRange, fun hnet hprev h hl => hinv.prevFresh hnet hprev h (hlinked h hl)⟩

theorem setPrev (hinv : t.Inv) (hnet : ℕ) {port : ℕ}
    (hport : homaMinDefaultPort ≤ port ∧ port < 2 ^ 16) : (t.setPrev hnet port).Inv := by
  refine ⟨hinv.bucketed, hinv.nodup, hinv.unique, hinv.serverPort, hinv.defaultPort,
    fun hnet' => ?_, fun hnet' hprev => ?_⟩
  · by_cases hh : hnet' = hnet
    · subst hh
      simp only [SockTab.setPrev, Function.update_self]
      omega
    · simpa [SockTab.setPrev, Function.update_of_ne hh] using hinv.prevRange hnet'
  · by_cases hh : hnet' = hnet
    · subst hh
      simp only [SockTab.setPrev, Function.update_self] at hprev
      unfold homaMinDefaultPort at hport hprev
      omega
    · simp only [SockTab.setPrev, Function.update_of_ne hh] at hprev
      exact hinv.prevFresh hnet' hprev

theorem link (hinv : t.Inv) {hsk : ℕ} (hl : ¬t.Linked hsk)
    (hfree : ∀ h, t.Linked h → (t.socks h).hnet = (t.socks hsk).hnet →
      (t.socks h).port ≠ (t.socks hsk).port)
    (hserver : (t.socks hsk).isServer = true →
      1 ≤ (t.socks hsk).port ∧ (t.socks hsk).port < homaMinDefaultPort)
    (hdefault : (t.socks hsk).isServer = false →
      homaMinDefaultPort ≤ (t.socks hsk).port ∧ (t.socks hsk).port < 2 ^ 16)
    (hfresh : t.prevDefaultPort (t.socks hsk).hnet = homaMinDefaultPort - 1 →
      (t.socks hsk).port < homaMinDefaultPort) :
    (t.link hsk (t.socks hsk).hnet (t.socks hsk).port).Inv := by
  refine ⟨fun b h hb => ?_, fun b => ?_, fun h1 h2 hl1 hl2 hn hp => ?_, fun h hl hs => ?_,
    fun h hl hs => ?_, hinv.prevRange, fun hnet hprev h hl hn => ?_⟩
  · rw [SockTab.link_buckets] at hb
    split_ifs at hb with hbk
    · rcases List.mem_cons.mp hb with rfl | hb
      · exact hbk
      · exact hinv.bucketed b h hb
    · exact hinv.bucketed b h hb
  · rw [SockTab.link_buckets]
    split_ifs
    · exact List.nodup_cons.mpr ⟨fun hb => hl ⟨b, hb⟩, hinv.nodup b⟩
    · exact hinv.nodup b
  · rcases (t.linked_link).mp hl1 with rfl | hold1 <;>
      rcases (t.linked_link).mp hl2 with rfl | hold2
    · rfl
    · exact absurd hp.symm (hfree h2 hold2 hn.symm)
    · exact absurd hp (hfree h1 hold1 hn)
    · exact hinv.unique h1 h2 hold1 hold2 hn hp
  · rcases (t.linked_link).mp hl with rfl | hl
    · exact hserver hs
    · exact hinv.serverPort h hl hs
  · rcases (t.linked_link).mp hl with rfl | hl
    · exact hdefault hs
    · exact hinv.defaultPort h hl hs
  · rcases (t.linked_link).mp hl with rfl | hl
    · exact hfresh (hn ▸ hprev)
    · exact hinv.prevFresh hnet hprev h hl hn

end SockTab.Inv

/-! ## The calls -/

section Calls

variable {t : SockTab}

theorem homaSockInit_eq_search (hnet hsk : ℕ) {t1 : SockTab}
    (ht1 : t1 = t.setSock hsk
      { t.socks hsk with hnet := hnet, isServer := false, shutdown := false, homa := true }) :
    homaSockInit hnet hsk true t =
      match homaSockInitSearch t1 hnet (t.prevDefaultPort hnet) (2 ^ 16)
          (t.prevDefaultPort hnet) with
      | none => none
      | some (prev, true) =>
          some (((t1.setPrev hnet prev).setSock hsk
            { (t1.setPrev hnet prev).socks hsk with port := prev }).link hsk hnet prev, 0)
      | some (prev, false) =>
          some ((t1.setPrev hnet prev).setSock hsk
            { (t1.setPrev hnet prev).socks hsk with shutdown := true, homa := false },
            -eaddrnotavail) := by
  subst ht1
  rfl

theorem SockTab.Inv.homaSockInit (hinv : t.Inv) {hnet hsk : ℕ} {poolOk : Bool} {t' : SockTab}
    {result : ℤ} (hl : ¬t.Linked hsk) (h : homaSockInit hnet hsk poolOk t = some (t', result)) :
    t'.Inv := by
  cases poolOk with
  | false =>
    simp only [Homa.homaSockInit, Bool.not_false, if_true, Option.some.injEq, Prod.mk.injEq] at h
    exact h.1 ▸ hinv
  | true =>
    obtain ⟨t1, ht1⟩ : ∃ t1, t1 = t.setSock hsk
        { t.socks hsk with hnet := hnet, isServer := false, shutdown := false, homa := true } :=
      ⟨_, rfl⟩
    rw [homaSockInit_eq_search hnet hsk ht1] at h
    have hinv1 : t1.Inv := ht1 ▸ hinv.setSock_of_not_linked hl _
    have hl1 : ¬t1.Linked hsk := by rw [ht1]; exact hl
    have hprev1 : t1.prevDefaultPort = t.prevDefaultPort := by rw [ht1]; rfl
    have hhnet1 : (t1.socks hsk).hnet = hnet := by rw [ht1]; simp
    have hserver1 : (t1.socks hsk).isServer = false := by rw [ht1]; simp
    cases hsearch : homaSockInitSearch t1 hnet (t.prevDefaultPort hnet) (2 ^ 16)
        (t.prevDefaultPort hnet) with
    | none =>
      rw [hsearch] at h
      exact absurd h (by simp)
    | some res =>
      obtain ⟨p, found⟩ := res
      cases found with
      | false =>
        -- gave up: the cursor is back where it was, and the socket is marked
        obtain ⟨hp, -⟩ := homaSockInitSearch_full hsearch
        simp only [hsearch, Option.some.injEq, Prod.mk.injEq] at h
        rw [← h.1, hp, ← hprev1, SockTab.setPrev_self]
        exact hinv1.setSock_of_not_linked hl1 _
      | true =>
        obtain ⟨hfree, hpD⟩ := homaSockInitSearch_found hsearch
        simp only [hsearch, Option.some.injEq, Prod.mk.injEq] at h
        rw [← h.1]
        have hinv3 := (hinv1.setPrev hnet hpD).setSock_of_not_linked hl1
          { (t1.setPrev hnet p).socks hsk with port := p }
        have hfree1 := (homaSockFind_eq_none_iff hinv1).mp hfree
        -- the port is free for every other socket of the namespace
        have hlink := hinv3.link hl1 (fun h' hl' hn => by
            have hne : h' ≠ hsk := fun he => hl1 (he ▸ hl')
            simp only [SockTab.setSock_socks_of_ne _ hne, SockTab.setSock_socks_self,
              SockTab.setPrev_socks] at hn ⊢
            exact hfree1 h' hl' (hn.trans hhnet1))
          (by simp [hserver1]) (fun _ => by simpa using hpD)
          (by
            simp only [SockTab.setSock_prevDefaultPort, SockTab.setSock_socks_self,
              SockTab.setPrev, hhnet1, Function.update_self]
            unfold homaMinDefaultPort at hpD ⊢
            omega)
        simpa [hhnet1] using hlink

theorem SockTab.Inv.homaSockBind (hinv : t.Inv) (hsk port : ℕ) :
    (Homa.homaSockBind hsk port t).1.Inv := by
  unfold Homa.homaSockBind
  dsimp only
  split_ifs with h0 hdef hshut
  · exact hinv
  · exact hinv.setSock fun _ => by simp
  · exact hinv.setSock fun _ => by simp
  · cases hfind : homaSockFind t (t.socks hsk).hnet port with
    | some owner =>
      dsimp only
      split_ifs
      · exact hinv.setSock fun _ => by simp
      · exact hinv
    | none =>
      dsimp only
      -- out of its bucket, onto the port's
      have hinv1 := hinv.unlink hsk
      have hl1 : ¬(t.unlink hsk).Linked hsk := fun h => ((t.linked_unlink hinv.nodup).mp h).1 rfl
      have hinv2 := hinv1.setSock_of_not_linked hl1
        { (t.unlink hsk).socks hsk with port := port, isServer := true }
      have hfree := (homaSockFind_eq_none_iff hinv).mp hfind
      have hlink := hinv2.link hl1 (fun h' hl' hn => by
          have hold := (t.linked_unlink hinv.nodup).mp hl'
          simpa [SockTab.setSock_socks_of_ne _ hold.1] using hfree h' hold.2 (by
            simpa [SockTab.setSock_socks_of_ne _ hold.1] using hn))
        (fun _ => by simp; omega) (by simp) (fun _ => by simpa using hdef)
      simpa using hlink

theorem SockTab.Inv.homaSockShutdown (hinv : t.Inv) (hsk : ℕ) :
    (Homa.homaSockShutdown hsk t).Inv := by
  unfold Homa.homaSockShutdown
  split_ifs
  · exact hinv
  · exact (hinv.setSock fun _ => by simp).unlink hsk

/-- Where `homa_sock_init` ends on a table that keeps the invariant, for a
socket not in it: it always ends; a port it assigns is a default port;
and it fails with `-EADDRNOTAVAIL` exactly when every default port is
held by a linked socket of the namespace. -/
theorem homaSockInit_outcome (hinv : t.Inv) (hnet hsk : ℕ) (poolOk : Bool) (hl : ¬t.Linked hsk) :
    ∃ t' result, homaSockInit hnet hsk poolOk t = some (t', result) ∧
      (result = 0 → t'.Linked hsk ∧ homaMinDefaultPort ≤ (t'.socks hsk).port ∧
        (t'.socks hsk).port ≤ 0xFFFF) ∧
      (result = -eaddrnotavail ↔ poolOk = true ∧ ∀ port, homaMinDefaultPort ≤ port →
        port ≤ 0xFFFF → ∃ h, t.Linked h ∧ (t.socks h).hnet = hnet ∧ (t.socks h).port = port) := by
  cases poolOk with
  | false =>
    refine ⟨t, -enomem, by simp [Homa.homaSockInit], fun h => ?_, ?_⟩
    · simp [enomem] at h
    · simp [enomem, eaddrnotavail]
  | true =>
    obtain ⟨t1, ht1⟩ : ∃ t1, t1 = t.setSock hsk
        { t.socks hsk with hnet := hnet, isServer := false, shutdown := false, homa := true } :=
      ⟨_, rfl⟩
    rw [homaSockInit_eq_search hnet hsk ht1]
    have hinv1 : t1.Inv := ht1 ▸ hinv.setSock_of_not_linked hl _
    have hl1 : ¬t1.Linked hsk := by rw [ht1]; exact hl
    have hprev1 : t1.prevDefaultPort = t.prevDefaultPort := by rw [ht1]; rfl
    -- the linked sockets of `t1` are those of `t`, unchanged
    have hheld : ∀ port, (homaSockFind t1 hnet port).isSome →
        ∃ h, t.Linked h ∧ (t.socks h).hnet = hnet ∧ (t.socks h).port = port := by
      intro port hsome
      obtain ⟨h, hfind⟩ := Option.isSome_iff_exists.mp hsome
      obtain ⟨hlh, hn, hp⟩ := homaSockFind_some hfind
      have hne : h ≠ hsk := fun he => hl1 (he ▸ hlh)
      rw [ht1, SockTab.setSock_socks_of_ne _ hne] at hn hp
      exact ⟨h, by rw [ht1] at hlh; exact hlh, hn, hp⟩
    have hsome := hinv1.homaSockInitSearch_ne_none hnet
    rw [hprev1] at hsome
    cases hsearch : homaSockInitSearch t1 hnet (t.prevDefaultPort hnet) (2 ^ 16)
        (t.prevDefaultPort hnet) with
    | none => exact absurd hsearch hsome
    | some res =>
      obtain ⟨p, found⟩ := res
      cases found with
      | true =>
        obtain ⟨hfree, hpD⟩ := homaSockInitSearch_found hsearch
        refine ⟨_, 0, rfl, fun _ => ⟨(SockTab.linked_link _).mpr (.inl rfl), by simp; omega⟩,
          ⟨fun h => by simp [eaddrnotavail] at h, fun ⟨_, hall⟩ => ?_⟩⟩
        -- the port found is free, so not every port is held
        obtain ⟨h, hlh, hn, hp⟩ := hall p hpD.1 (by omega)
        have hne : h ≠ hsk := fun he => hl (he ▸ hlh)
        exfalso
        refine (homaSockFind_eq_none_iff hinv1).mp hfree h (by rw [ht1]; exact hlh) ?_ ?_
        · rw [ht1, SockTab.setSock_socks_of_ne _ hne]
          exact hn
        · rw [ht1, SockTab.setSock_socks_of_ne _ hne]
          exact hp
      | false =>
        rw [← hprev1] at hsearch
        have hfull := hinv1.homaSockFind_isSome_of_search_full hsearch
        refine ⟨_, -eaddrnotavail, rfl, fun h => by simp [eaddrnotavail] at h,
          ⟨fun _ => ⟨rfl, fun port hlo hhi => hheld port (hfull port hlo hhi)⟩, fun _ => rfl⟩⟩

end Calls

/-! ## Every reachable table -/

/-- The calls the kernel makes on the table: `homa_sock_init` on a socket
not in it, `homa_sock_bind` and `homa_sock_shutdown`, of any namespaces,
one after the other. -/
inductive SockTab.Step : SockTab → SockTab → Prop
  | init {t t' : SockTab} {hnet hsk : ℕ} {poolOk : Bool} {result : ℤ} :
      ¬t.Linked hsk → homaSockInit hnet hsk poolOk t = some (t', result) → SockTab.Step t t'
  | bind (t : SockTab) (hsk port : ℕ) : SockTab.Step t (homaSockBind hsk port t).1
  | shutdown (t : SockTab) (hsk : ℕ) : SockTab.Step t (homaSockShutdown hsk t)

/-- The tables that calls lead to from the empty one. -/
def SockTab.Reachable (t : SockTab) : Prop :=
  Relation.ReflTransGen SockTab.Step SockTab.empty t

theorem SockTab.Inv.step {t t' : SockTab} (hinv : t.Inv) (hstep : SockTab.Step t t') : t'.Inv := by
  cases hstep with
  | init hl h => exact hinv.homaSockInit hl h
  | bind hsk port => exact hinv.homaSockBind hsk port
  | shutdown hsk => exact hinv.homaSockShutdown hsk

theorem SockTab.Reachable.inv {t : SockTab} (ht : t.Reachable) : t.Inv := by
  induction ht with
  | refl => exact SockTab.inv_empty
  | tail _ hstep ih => exact ih.step hstep

theorem homaSockBind_ok {t : SockTab} {hsk port : ℕ} (h0 : (homaSockBind hsk port t).2 = 0)
    (hport : port ≠ 0) :
    (homaSockBind hsk port t).1.Linked hsk ∧ ((homaSockBind hsk port t).1.socks hsk).port = port ∧
      1 ≤ port ∧ port < homaMinDefaultPort := by
  unfold homaSockBind at h0 ⊢
  dsimp only at h0 ⊢
  split_ifs at h0 ⊢ with h00 hdef hshut
  · exact absurd h00 hport
  · simp [einval] at h0
  · simp [eshutdown] at h0
  · cases hfind : homaSockFind t (t.socks hsk).hnet port with
    | some owner =>
      rw [hfind] at h0
      dsimp only at h0 ⊢
      split_ifs at h0 ⊢ with howner
      · simp [eaddrinuse] at h0
      · -- the socket already holds the port
        obtain rfl : owner = hsk := by simpa using howner
        obtain ⟨hl, -, hp⟩ := homaSockFind_some hfind
        exact ⟨hl, hp, by omega, by omega⟩
    | none =>
      exact ⟨(SockTab.linked_link _).mpr (.inl rfl), by simp, by omega, by omega⟩

/-- In every table the calls lead to, from the empty one and in any order
and any namespaces: no two linked sockets of a namespace share a port;
`homa_sock_init` on a new socket always ends, assigns a port in
`[HOMA_MIN_DEFAULT_PORT, 0xFFFF]`, and fails with `-EADDRNOTAVAIL` exactly
when all those ports are held by linked sockets of its namespace; and a
port `homa_sock_bind` accepts lies in `[1, HOMA_MIN_DEFAULT_PORT)`. -/
theorem homaSockTab_ports_unique {t : SockTab} (ht : t.Reachable) :
    (∀ h1 h2, t.Linked h1 → t.Linked h2 → (t.socks h1).hnet = (t.socks h2).hnet →
      (t.socks h1).port = (t.socks h2).port → h1 = h2) ∧
    (∀ hnet hsk poolOk, ¬t.Linked hsk → ∃ t' result,
      homaSockInit hnet hsk poolOk t = some (t', result) ∧
      (result = 0 → t'.Linked hsk ∧ homaMinDefaultPort ≤ (t'.socks hsk).port ∧
        (t'.socks hsk).port ≤ 0xFFFF) ∧
      (result = -eaddrnotavail ↔ poolOk = true ∧ ∀ port, homaMinDefaultPort ≤ port →
        port ≤ 0xFFFF → ∃ h, t.Linked h ∧ (t.socks h).hnet = hnet ∧ (t.socks h).port = port)) ∧
    (∀ hsk port, (homaSockBind hsk port t).2 = 0 → port ≠ 0 →
      (homaSockBind hsk port t).1.Linked hsk ∧ ((homaSockBind hsk port t).1.socks hsk).port = port ∧
        1 ≤ port ∧ port < homaMinDefaultPort) := by
  have hinv := ht.inv
  exact ⟨hinv.unique, fun hnet hsk poolOk hl => homaSockInit_outcome hinv hnet hsk poolOk hl,
    fun hsk port h0 hport => homaSockBind_ok h0 hport⟩

/-- `homa_sock_init` for a socket of namespace 1 that succeeds, as the table
it leaves. -/
def initInOne (hsk : ℕ) (t : SockTab) : SockTab :=
  ((homaSockInit 1 hsk true t).map Prod.fst).getD t

/-- Sockets 5 and 6 of namespace 1 after `homa_sock_init`, and socket 5
then bound to port 80. -/
def boundPair : SockTab :=
  (homaSockBind 5 80 (initInOne 6 (initInOne 5 SockTab.empty))).1

theorem boundPair_reachable : boundPair.Reachable := by
  have h₁ : homaSockInit 1 5 true SockTab.empty = some (initInOne 5 SockTab.empty, 0) := rfl
  have h₂ : homaSockInit 1 6 true (initInOne 5 SockTab.empty) =
      some (initInOne 6 (initInOne 5 SockTab.empty), 0) := rfl
  have hl₁ : ¬SockTab.empty.Linked 5 := by
    rintro ⟨b, hb⟩
    simp [SockTab.empty] at hb
  -- after the first call only socket 5 is in a bucket
  have hl₂ : ¬(initInOne 5 SockTab.empty).Linked 6 := by
    have hbuckets : (initInOne 5 SockTab.empty).buckets =
        Function.update (fun _ => []) (homaSocktabBucket 1 0x8000) [5] := rfl
    rintro ⟨b, hb⟩
    rw [hbuckets, Function.update_apply] at hb
    split_ifs at hb <;> simp at hb
  exact .tail (.tail (.tail .refl (.init hl₁ h₁)) (.init hl₂ h₂)) (.bind _ 5 80)

/-- In `boundPair` sockets 5 and 6 are linked in one namespace, at port 80
and at the second default port. -/
theorem homaSockTab_ports_unique_boundPair :
    boundPair.Linked 5 ∧ boundPair.Linked 6 ∧ (boundPair.socks 5).hnet = (boundPair.socks 6).hnet ∧
      (boundPair.socks 5).port = 80 ∧ (boundPair.socks 6).port = 0x8001 ∧
      (∀ h1 h2, boundPair.Linked h1 → boundPair.Linked h2 →
        (boundPair.socks h1).hnet = (boundPair.socks h2).hnet →
        (boundPair.socks h1).port = (boundPair.socks h2).port → h1 = h2) ∧
      (∀ hnet hsk poolOk, ¬boundPair.Linked hsk → ∃ t' result,
        homaSockInit hnet hsk poolOk boundPair = some (t', result) ∧
        (result = 0 → t'.Linked hsk ∧ homaMinDefaultPort ≤ (t'.socks hsk).port ∧
          (t'.socks hsk).port ≤ 0xFFFF) ∧
        (result = -eaddrnotavail ↔ poolOk = true ∧ ∀ port, homaMinDefaultPort ≤ port →
          port ≤ 0xFFFF → ∃ h, boundPair.Linked h ∧ (boundPair.socks h).hnet = hnet ∧
            (boundPair.socks h).port = port)) ∧
      (∀ hsk port, (homaSockBind hsk port boundPair).2 = 0 → port ≠ 0 →
        (homaSockBind hsk port boundPair).1.Linked hsk ∧
          ((homaSockBind hsk port boundPair).1.socks hsk).port = port ∧
          1 ≤ port ∧ port < homaMinDefaultPort) :=
  ⟨⟨homaSocktabBucket 1 80, by decide⟩, ⟨homaSocktabBucket 1 0x8001, by decide⟩, by decide, by decide,
    by decide, homaSockTab_ports_unique boundPair_reachable⟩

/-- Two sockets of one namespace get the first two default ports, and a
third, after the first binds to port 80, the next. -/
example :
    ((homaSockInit 1 5 true SockTab.empty).bind fun r => (homaSockInit 1 6 true r.1).bind
      fun r => homaSockInit 1 7 true (homaSockBind 5 80 r.1).1).map
        (fun r => ((r.1.socks 5).port, (r.1.socks 6).port, (r.1.socks 7).port)) =
      some (80, 0x8001, 0x8002) := by
  decide

end Homa
