import Homa.SocketSystem

/-!
# Ready RPCs and waiting threads

In every reachable state of a socket (`ReadyInv`), a thread waits in
`homa_wait_shared` only while `ready_rpcs` is empty, every RPC on
`ready_rpcs` is there once with its `ready_links` in the list, and an
interest on `hsk->interests` belongs to a waiting thread and has been handed
nothing.  A handoff of a live shared RPC then reaches exactly one waiting
thread or `ready_rpcs`, except on a shut-down socket.
-/

namespace Homa

/-- The thread is in `homa_interest_wait` of `homa_wait_shared`, or back from
it with an error. -/
def ThreadPc.SharedWait : ThreadPc → Prop
  | .sharedWaiting | .sharedWoken _ => True
  | _ => False

/-- The thread is in `homa_interest_wait` of `homa_wait_private` on `id`, or
back from it before relocking `id`. -/
def ThreadPc.PrivateWait (id : ℕ) : ThreadPc → Prop
  | .privateWaiting id' | .privateWoken id' _ => id' = id
  | _ => False

def Sys.pc (s : Sys) (t : ℕ) : Option ThreadPc :=
  (s.thread t).map Thread.pc

@[simp] theorem Sys.pc_withSock (s : Sys) (sock : Sock) :
    ({ s with sock := sock } : Sys).pc = s.pc := rfl

@[simp] theorem Sys.pc_update (s : Sys) (sock : Sock) (t : ℕ) (th : Option Thread) (u : ℕ) :
    ({ sock, thread := Function.update s.thread t th } : Sys).pc u =
      if u = t then th.map Thread.pc else s.pc u := by
  by_cases hu : u = t
  · subst hu
    simp [Sys.pc]
  · simp [Sys.pc, hu]

/-- The invariant of the ready queue and the interests. -/
structure Sys.ReadyInv (s : Sys) : Prop where
  exclusive : s.sock.interests ≠ [] → s.sock.readyRpcs = []
  readyRpcs_nodup : s.sock.readyRpcs.Nodup
  mem_readyRpcs : ∀ id, id ∈ s.sock.readyRpcs ↔ (s.sock.rpc id).readyLinks = .queued
  stale_dead : ∀ id, (s.sock.rpc id).readyLinks = .stale → (s.sock.rpc id).state = .dead
  dead_server : ∀ id, (s.sock.rpc id).state = .dead → homaIsClient id = false →
    (s.sock.rpc id).error = -einval
  interests_nodup : s.sock.interests.Nodup
  linked : ∀ t ∈ s.sock.interests,
    s.sock.interest t = ⟨none, false⟩ ∧ ∃ p, s.pc t = some p ∧ p.SharedWait
  woken : ∀ t p, s.pc t = some p → p.SharedWait → t ∉ s.sock.interests →
    (s.sock.interest t).ready = true
  privateOwner : ∀ id t, (s.sock.rpc id).privateInterest = some t →
    ∃ p, s.pc t = some p ∧ p.PrivateWait id

namespace Sys.ReadyInv

variable {s : Sys}

theorem init (hs : s.Init) : s.ReadyInv where
  exclusive _ := hs.readyRpcs_eq
  readyRpcs_nodup := by rw [hs.readyRpcs_eq]; exact List.nodup_nil
  mem_readyRpcs id := by simp [hs.readyRpcs_eq, hs.unlinked id]
  stale_dead id h := by simp [hs.unlinked id] at h
  dead_server id h := absurd h (hs.live id)
  interests_nodup := by rw [hs.interests_eq]; exact List.nodup_nil
  linked t ht := by simp [hs.interests_eq] at ht
  woken t p hp := by simp [Sys.pc, hs.thread_eq t] at hp
  privateOwner id t h := by simp [hs.privateInterest_eq id] at h

theorem not_mem_interests (hs : s.ReadyInv) {t : ℕ} {p : ThreadPc} (hp : s.pc t = some p)
    (hwait : ¬ p.SharedWait) : t ∉ s.sock.interests := by
  intro ht
  obtain ⟨-, p', hp', hwait'⟩ := hs.linked t ht
  rw [hp] at hp'
  cases hp'
  exact hwait hwait'

/-! ## Steps that change neither the lists nor what the invariant reads -/

theorem of_frame (hs : s.ReadyInv) {s' : Sys}
    (hinterests : s'.sock.interests = s.sock.interests)
    (hready : s'.sock.readyRpcs = s.sock.readyRpcs)
    (hinterest : s'.sock.interest = s.sock.interest)
    (hpc : s'.pc = s.pc)
    (hlinks : ∀ id, (s'.sock.rpc id).readyLinks = (s.sock.rpc id).readyLinks)
    (hstate : ∀ id, (s'.sock.rpc id).state = (s.sock.rpc id).state)
    (hpriv : ∀ id, (s'.sock.rpc id).privateInterest = (s.sock.rpc id).privateInterest)
    (herror : ∀ id, (s.sock.rpc id).state = .dead → homaIsClient id = false →
      (s'.sock.rpc id).error = (s.sock.rpc id).error) :
    s'.ReadyInv where
  exclusive h := by
    rw [hinterests] at h
    rw [hready]
    exact hs.exclusive h
  readyRpcs_nodup := hready ▸ hs.readyRpcs_nodup
  mem_readyRpcs id := by rw [hready, hlinks]; exact hs.mem_readyRpcs id
  stale_dead id h := by
    rw [hlinks] at h
    rw [hstate]
    exact hs.stale_dead id h
  dead_server id h hc := by
    rw [hstate] at h
    rw [herror id h hc]
    exact hs.dead_server id h hc
  interests_nodup := hinterests ▸ hs.interests_nodup
  linked t ht := by
    rw [hinterests] at ht
    rw [hinterest, hpc]
    exact hs.linked t ht
  woken t p hp hwait ht := by
    rw [hpc] at hp
    rw [hinterests] at ht
    rw [hinterest]
    exact hs.woken t p hp hwait ht
  privateOwner id t h := by
    rw [hpriv] at h
    rw [hpc]
    exact hs.privateOwner id t h

theorem updateRpc (hs : s.ReadyInv) (id : ℕ) (f : Rpc → Rpc)
    (hlinks : (f (s.sock.rpc id)).readyLinks = (s.sock.rpc id).readyLinks)
    (hstate : (f (s.sock.rpc id)).state = (s.sock.rpc id).state)
    (hpriv : (f (s.sock.rpc id)).privateInterest = (s.sock.rpc id).privateInterest)
    (herror : (s.sock.rpc id).state = .dead → homaIsClient id = false →
      (f (s.sock.rpc id)).error = (s.sock.rpc id).error) :
    ({ s with sock := s.sock.updateRpc id f } : Sys).ReadyInv := by
  refine hs.of_frame rfl rfl rfl rfl ?_ ?_ ?_ ?_
  · intro r
    by_cases hr : r = id
    · subst hr
      simpa using hlinks
    · simp [hr]
  · intro r
    by_cases hr : r = id
    · subst hr
      simpa using hstate
    · simp [hr]
  · intro r
    by_cases hr : r = id
    · subst hr
      simpa using hpriv
    · simp [hr]
  · intro r hdead hc
    by_cases hr : r = id
    · subst hr
      simpa using herror hdead hc
    · simp [hr]

theorem hold (hs : s.ReadyInv) (id : ℕ) :
    ({ s with sock := homaRpcHold id s.sock } : Sys).ReadyInv :=
  hs.updateRpc id _ rfl rfl rfl fun _ _ => rfl

theorem put (hs : s.ReadyInv) (id : ℕ) :
    ({ s with sock := homaRpcPut id s.sock } : Sys).ReadyInv :=
  hs.updateRpc id _ rfl rfl rfl fun _ _ => rfl

theorem copyOut (hs : s.ReadyInv) (env : Env) (id : ℕ) :
    ({ s with sock := homaCopyOut env id s.sock } : Sys).ReadyInv := by
  unfold homaCopyOut
  split_ifs with herr
  · refine hs.updateRpc id _ rfl rfl rfl fun hdead hc => ?_
    have := hs.dead_server id hdead hc
    rw [this] at herr
    simp [einval] at herr
  · exact hs

/-! ## The handoff, the end of an RPC, and the scans -/

theorem notifyPrivate (hs : s.ReadyInv) (id : ℕ) :
    ({ s with sock := homaInterestNotifyPrivate id s.sock } : Sys).ReadyInv where
  exclusive h := by simpa using hs.exclusive (by simpa using h)
  readyRpcs_nodup := by simpa using hs.readyRpcs_nodup
  mem_readyRpcs id := by simpa using hs.mem_readyRpcs id
  stale_dead id h := by simpa using hs.stale_dead id (by simpa using h)
  dead_server id h hc := by simpa using hs.dead_server id (by simpa using h) hc
  interests_nodup := by simpa using hs.interests_nodup
  linked t ht := by
    simp only [homaInterestNotifyPrivate_interests] at ht
    obtain ⟨hi, p, hp, hwait⟩ := hs.linked t ht
    refine ⟨?_, p, hp, hwait⟩
    rw [homaInterestNotifyPrivate_interest]
    split_ifs with howner
    · -- the private interest's thread waits privately, so it is not linked
      obtain ⟨q, hq, hpriv⟩ := hs.privateOwner id t howner
      rw [hp] at hq
      cases hq
      cases p <;> simp_all [ThreadPc.SharedWait, ThreadPc.PrivateWait]
    · exact hi
  woken t p hp hwait ht := by
    simp only [homaInterestNotifyPrivate_interests] at ht
    rw [homaInterestNotifyPrivate_interest]
    split_ifs
    · rfl
    · exact hs.woken t p hp hwait ht
  privateOwner id t h := hs.privateOwner id t (by simpa using h)

/-- With no thread waiting, an RPC whose links are empty goes on
`ready_rpcs`, once. -/
theorem queue (hs : s.ReadyInv) {id : ℕ} (hnil : s.sock.interests = [])
    (hunlinked : (s.sock.rpc id).readyLinks = .unlinked) :
    ({ s with sock := ({ s.sock with readyRpcs := s.sock.readyRpcs ++ [id] }.updateRpc id
        fun rpc => { rpc with readyLinks := .queued }) } : Sys).ReadyInv where
  exclusive h := by simp [hnil] at h
  readyRpcs_nodup := by
    have hnotin : id ∉ s.sock.readyRpcs := by
      rw [hs.mem_readyRpcs id, hunlinked]
      simp
    simpa using hs.readyRpcs_nodup.append (List.nodup_singleton id)
      (List.disjoint_singleton.mpr hnotin)
  mem_readyRpcs r := by
    by_cases hr : r = id
    · subst hr
      simp
    · simpa [hr] using hs.mem_readyRpcs r
  stale_dead r h := by
    by_cases hr : r = id
    · subst hr
      simp at h
    · simp only [Sock.updateRpc_rpc, hr, ↓reduceIte] at h ⊢
      exact hs.stale_dead r h
  -- only the links of an RPC change, so its state and error are as they were
  dead_server r h hc := by
    simp only [Sock.updateRpc_rpc] at h ⊢
    split_ifs at h ⊢ with hr
    · subst hr
      exact hs.dead_server r h hc
    · exact hs.dead_server r h hc
  interests_nodup := by simpa using hs.interests_nodup
  linked t ht := by simp [hnil] at ht
  woken t p hp hwait _ := hs.woken t p hp hwait (by simp [hnil])
  privateOwner r t h := by
    by_cases hr : r = id
    · subst hr
      exact hs.privateOwner r t (by simpa using h)
    · exact hs.privateOwner r t (by simpa [hr] using h)

theorem handoff (hs : s.ReadyInv) (idle : ℕ → Bool) (id : ℕ) :
    ({ s with sock := homaRpcHandoff idle id s.sock } : Sys).ReadyInv := by
  cases hpriv : (s.sock.rpc id).isPrivate with
  | true =>
      rw [homaRpcHandoff_of_private idle id s.sock hpriv]
      exact hs.notifyPrivate id
  | false =>
  cases hshut : s.sock.shutdown with
  | true =>
      rw [homaRpcHandoff_of_shutdown idle id s.sock hpriv hshut]
      exact hs
  | false =>
  by_cases hnil : s.sock.interests = []
  · -- no waiting thread: the RPC is queued if its links are empty
    rw [homaRpcHandoff_of_nil idle id s.sock hpriv hshut hnil]
    split_ifs with hunlinked
    · exact hs.queue hnil hunlinked
    · exact hs
  · -- a waiting thread gets the RPC
    obtain ⟨t, ht, heq⟩ := homaRpcHandoff_of_ne_nil idle id s.sock hpriv hshut hnil
    rw [heq]
    have hready := hs.exclusive hnil
    refine Sys.ReadyInv.hold (s := { s with sock :=
      { s.sock with interests := s.sock.interests.erase t }.setInterest t ⟨some id, true⟩ }) ?_ id
    exact {
      exclusive := fun _ => by simpa using hready
      readyRpcs_nodup := by simpa using hs.readyRpcs_nodup
      mem_readyRpcs := fun r => by simpa using hs.mem_readyRpcs r
      stale_dead := fun r h => hs.stale_dead r (by simpa using h)
      dead_server := fun r h hc => hs.dead_server r (by simpa using h) hc
      interests_nodup := by simpa using hs.interests_nodup.erase t
      linked := fun u hu => by
        simp only [Sock.setInterest_interests] at hu
        have hut : u ≠ t := fun h => by
          subst h
          exact (hs.interests_nodup.mem_erase_iff.mp hu).1 rfl
        have hu' := (List.mem_erase_of_ne hut).mp hu
        simpa [hut] using hs.linked u hu'
      woken := fun u p hp hwait hu => by
        by_cases hut : u = t
        · subst hut
          simp
        · simp only [Sock.setInterest_interests] at hu
          simpa [hut] using hs.woken u p hp hwait (fun h => hu ((List.mem_erase_of_ne hut).mpr h))
      privateOwner := fun r u h => hs.privateOwner r u (by simpa using h) }

theorem rpcEnd (hs : s.ReadyInv) (id : ℕ) :
    ({ s with sock := homaRpcEnd id s.sock } : Sys).ReadyInv := by
  by_cases hdead : (s.sock.rpc id).state = .dead
  · rw [homaRpcEnd_of_dead id s.sock hdead]
    exact hs
  rw [homaRpcEnd_of_live id s.sock hdead]
  refine Sys.ReadyInv.notifyPrivate (s := { s with sock :=
    { s.sock.updateRpc id (fun rpc =>
        { rpc with state := .dead, error := -einval, readyLinks := rpc.readyLinks.delEntry }) with
      active := s.sock.active.erase id
      dead := s.sock.dead ++ [id]
      readyRpcs := if (s.sock.rpc id).readyLinks = .queued then s.sock.readyRpcs.erase id
        else s.sock.readyRpcs } }) ?_ id
  -- the RPC leaves `ready_rpcs` exactly when it was on it
  have hready : ∀ r, r ∈ (if (s.sock.rpc id).readyLinks = .queued then
      s.sock.readyRpcs.erase id else s.sock.readyRpcs) ↔
      r ≠ id ∧ (s.sock.rpc r).readyLinks = .queued := by
    intro r
    split_ifs with hq
    · rw [hs.readyRpcs_nodup.mem_erase_iff, hs.mem_readyRpcs]
    · rw [hs.mem_readyRpcs]
      constructor
      · intro h
        exact ⟨fun hr => hq (hr ▸ h), h⟩
      · exact fun h => h.2
  exact {
    exclusive := fun h => by
      have := hs.exclusive (by simpa using h)
      split_ifs <;> simp [this]
    readyRpcs_nodup := by
      split_ifs
      · exact hs.readyRpcs_nodup.erase id
      · exact hs.readyRpcs_nodup
    mem_readyRpcs := fun r => by
      rw [hready r]
      by_cases hr : r = id
      · subst hr
        cases hlinks : (s.sock.rpc r).readyLinks <;> simp [hlinks, ReadyLinks.delEntry]
      · simp [hr]
    stale_dead := fun r h => by
      by_cases hr : r = id
      · subst hr
        simp
      · simp only [Sock.updateRpc_rpc, hr, ↓reduceIte] at h ⊢
        exact hs.stale_dead r h
    dead_server := fun r h hc => by
      by_cases hr : r = id
      · subst hr
        simp
      · simp only [Sock.updateRpc_rpc, hr, ↓reduceIte] at h ⊢
        exact hs.dead_server r h hc
    interests_nodup := hs.interests_nodup
    linked := hs.linked
    woken := hs.woken
    privateOwner := fun r t h => by
      by_cases hr : r = id
      · subst hr
        exact hs.privateOwner r t (by simpa using h)
      · exact hs.privateOwner r t (by simpa [hr] using h) }

theorem abort (hs : s.ReadyInv) (idle : ℕ → Bool) (id : ℕ) (error : ℤ) :
    ({ s with sock := homaRpcAbort idle id error s.sock } : Sys).ReadyInv := by
  unfold homaRpcAbort
  split_ifs with hserver
  · exact hs.rpcEnd id
  · have hc : homaIsClient id = true := by simpa using hserver
    have herr := hs.updateRpc id (fun rpc => { rpc with error }) rfl rfl rfl
      fun _ h => absurd hc (by simp [h])
    exact herr.handoff idle id

theorem timerCheck (hs : s.ReadyInv) (idle : ℕ → Bool) (resendTicks timeoutTicks : ℕ)
    (quiet : Bool) (id : ℕ) :
    ({ s with sock := homaTimerCheckRpc idle resendTicks timeoutTicks quiet id s.sock } :
      Sys).ReadyInv := by
  unfold homaTimerCheckRpc
  dsimp only
  split_ifs
  all_goals first
    | exact hs
    | exact hs.abort idle id _
    | exact hs.updateRpc id _ rfl rfl rfl fun _ _ => rfl

theorem scanRpc (hs : s.ReadyInv) (env : Env) (kind : ScanKind) (id : ℕ) :
    ({ s with sock := homaScanRpc env kind id s.sock } : Sys).ReadyInv := by
  unfold homaScanRpc
  cases kind with
  | timer =>
      dsimp only
      split_ifs
      · exact hs.updateRpc id _ rfl rfl rfl fun _ _ => rfl
      · exact (hs.updateRpc id (fun rpc => { rpc with silentTicks := rpc.silentTicks + 1 })
          rfl rfl rfl fun _ _ => rfl).timerCheck _ _ _ _ id
  | abortRpcs addr port error =>
      dsimp only
      split_ifs
      · exact hs
      · exact hs
      · exact hs.abort _ id error
  | abortSockRpcs error =>
      dsimp only
      split_ifs
      · exact hs
      · exact hs
      · exact hs.abort _ id error
      · exact hs.rpcEnd id

theorem recvmsgFinish (hs : s.ReadyInv) (id : ℕ) :
    ({ s with sock := homaRecvmsgFinish id s.sock } : Sys).ReadyInv := by
  unfold homaRecvmsgFinish
  dsimp only
  split_ifs with hc herr
  · exact (hs.rpcEnd id).put id
  · exact (hs.rpcEnd id).put id
  · have hlive : (s.sock.rpc id).state ≠ .dead := fun hdead => by
      have := hs.dead_server id hdead (by simpa using hc)
      rw [this] at herr
      simp [einval] at herr
    have hnotstale : (s.sock.rpc id).readyLinks ≠ .stale := fun h => hlive (hs.stale_dead id h)
    refine Sys.ReadyInv.put (s := { s with sock :=
      (s.sock.updateRpc id fun rpc => { rpc with state := .inService }) }) ?_ id
    exact {
      exclusive := hs.exclusive
      readyRpcs_nodup := hs.readyRpcs_nodup
      mem_readyRpcs := fun r => by
        by_cases hr : r = id
        · subst hr
          simpa using hs.mem_readyRpcs r
        · simpa [hr] using hs.mem_readyRpcs r
      stale_dead := fun r h => by
        by_cases hr : r = id
        · subst hr
          simp only [Sock.updateRpc_rpc, ↓reduceIte] at h
          exact absurd h hnotstale
        · simp only [Sock.updateRpc_rpc, hr, ↓reduceIte] at h ⊢
          exact hs.stale_dead r h
      dead_server := fun r h hc' => by
        by_cases hr : r = id
        · subst hr
          simp at h
        · simp only [Sock.updateRpc_rpc, hr, ↓reduceIte] at h ⊢
          exact hs.dead_server r h hc'
      interests_nodup := hs.interests_nodup
      linked := hs.linked
      woken := hs.woken
      privateOwner := fun r t h => by
        by_cases hr : r = id
        · subst hr
          exact hs.privateOwner r t (by simpa using h)
        · exact hs.privateOwner r t (by simpa [hr] using h) }

/-! ## Threads moving on -/

theorem not_privateOwner (hs : s.ReadyInv) {t : ℕ} (hp : ∀ p, s.pc t = some p → ∀ id, ¬ p.PrivateWait id)
    (id : ℕ) : (s.sock.rpc id).privateInterest ≠ some t := by
  intro h
  obtain ⟨p, hpt, hwait⟩ := hs.privateOwner id t h
  exact hp p hpt id hwait

theorem move (hs : s.ReadyInv) (t : ℕ) (th : Option Thread)
    (hlinked : t ∈ s.sock.interests → ∃ p, th.map Thread.pc = some p ∧ p.SharedWait)
    (hwoken : ∀ p, th.map Thread.pc = some p → p.SharedWait → t ∉ s.sock.interests →
      (s.sock.interest t).ready = true)
    (hpriv : ∀ id, (s.sock.rpc id).privateInterest = some t →
      ∃ p, th.map Thread.pc = some p ∧ p.PrivateWait id) :
    ({ s with thread := Function.update s.thread t th } : Sys).ReadyInv where
  exclusive := hs.exclusive
  readyRpcs_nodup := hs.readyRpcs_nodup
  mem_readyRpcs := hs.mem_readyRpcs
  stale_dead := hs.stale_dead
  dead_server := hs.dead_server
  interests_nodup := hs.interests_nodup
  linked u hu := by
    refine ⟨(hs.linked u hu).1, ?_⟩
    by_cases hut : u = t
    · subst hut
      simpa using hlinked hu
    · simpa [hut] using (hs.linked u hu).2
  woken u p hp hwait hu := by
    by_cases hut : u = t
    · subst hut
      exact hwoken p (by simpa using hp) hwait hu
    · exact hs.woken u p (by simpa [hut] using hp) hwait hu
  privateOwner id u h := by
    by_cases hut : u = t
    · subst hut
      simpa using hpriv id h
    · simpa [hut] using hs.privateOwner id u h

theorem move_quiet (hs : s.ReadyInv) {t : ℕ} {p : ThreadPc} (hp : s.pc t = some p)
    (hshared : ¬ p.SharedWait) (hprivate : ∀ id, ¬ p.PrivateWait id) (th : Option Thread)
    (hth : ∀ q, th.map Thread.pc = some q → ¬ q.SharedWait ∧ ∀ id, ¬ q.PrivateWait id) :
    ({ s with thread := Function.update s.thread t th } : Sys).ReadyInv :=
  hs.move t th (fun ht => absurd ht (hs.not_mem_interests hp hshared))
    (fun q hq hwait _ => absurd hwait (hth q hq).1)
    (fun id h => absurd h (hs.not_privateOwner (fun q hq => by
      rw [hp] at hq
      cases hq
      exact hprivate) id))

theorem start (hs : s.ReadyInv) {t : ℕ} (hnone : s.thread t = none) (th : Option Thread)
    (hth : ∀ q, th.map Thread.pc = some q → ¬ q.SharedWait ∧ ∀ id, ¬ q.PrivateWait id) :
    ({ s with thread := Function.update s.thread t th } : Sys).ReadyInv := by
  have hpc : s.pc t = none := by simp [Sys.pc, hnone]
  refine hs.move t th (fun ht => ?_) (fun q hq hwait _ => absurd hwait (hth q hq).1)
    (fun id h => ?_)
  · obtain ⟨-, p, hp, -⟩ := hs.linked t ht
    rw [hpc] at hp
    cases hp
  · obtain ⟨p, hp, -⟩ := hs.privateOwner id t h
    rw [hpc] at hp
    cases hp

/-! ## The regions of `homa_wait_shared` -/

theorem shared_not_private {t : ℕ} {p : ThreadPc} (hp : s.pc t = some p)
    (hprivate : ∀ id, ¬ p.PrivateWait id) :
    ∀ q, s.pc t = some q → ∀ id, ¬ q.PrivateWait id := by
  intro q hq
  rw [hp] at hq
  cases hq
  exact hprivate

theorem takeReady (hs : s.ReadyInv) {id : ℕ} {rest : List ℕ}
    (hready : s.sock.readyRpcs = id :: rest) :
    ({ s with sock := ((homaRpcHold id { s.sock with readyRpcs := rest }).updateRpc id
        fun rpc => { rpc with readyLinks := .unlinked }) } : Sys).ReadyInv := by
  have hnodup := hs.readyRpcs_nodup
  rw [hready] at hnodup
  have hnotin : id ∉ rest := (List.nodup_cons.mp hnodup).1
  exact {
    exclusive := fun h => absurd (hs.exclusive (by simpa [homaRpcHold] using h)) (by simp [hready])
    readyRpcs_nodup := by simpa [homaRpcHold] using (List.nodup_cons.mp hnodup).2
    mem_readyRpcs := fun r => by
      by_cases hr : r = id
      · subst hr
        simp [homaRpcHold, hnotin]
      · have := hs.mem_readyRpcs r
        rw [hready] at this
        simpa [homaRpcHold, hr] using this
    stale_dead := fun r h => by
      by_cases hr : r = id
      · subst hr
        simp [homaRpcHold] at h
      · simp only [homaRpcHold, Sock.updateRpc_rpc, hr, ↓reduceIte] at h ⊢
        exact hs.stale_dead r h
    dead_server := fun r h hc => by
      by_cases hr : r = id
      · subst hr
        simp only [homaRpcHold, Sock.updateRpc_rpc, ↓reduceIte] at h ⊢
        exact hs.dead_server r h hc
      · simp only [homaRpcHold, Sock.updateRpc_rpc, hr, ↓reduceIte] at h ⊢
        exact hs.dead_server r h hc
    interests_nodup := hs.interests_nodup
    linked := fun u hu => hs.linked u hu
    woken := hs.woken
    privateOwner := fun r u h => by
      by_cases hr : r = id
      · subst hr
        exact hs.privateOwner r u (by simpa [homaRpcHold] using h)
      · exact hs.privateOwner r u (by simpa [homaRpcHold, hr] using h) }

theorem initShared (hs : s.ReadyInv) {t : ℕ} (hp : s.pc t = some .sharedLoop)
    (hnil : s.sock.readyRpcs = []) (nb : Bool) :
    ({ sock := homaInterestInitShared t s.sock
       thread := Function.update s.thread t (some ⟨.sharedWaiting, nb⟩) } : Sys).ReadyInv := by
  have hnot : t ∉ s.sock.interests := hs.not_mem_interests hp (by simp [ThreadPc.SharedWait])
  have hnopriv := hs.not_privateOwner
    (shared_not_private hp (by simp [ThreadPc.PrivateWait]))
  exact {
    exclusive := fun _ => by simpa [homaInterestInitShared] using hnil
    readyRpcs_nodup := by simpa [homaInterestInitShared] using hs.readyRpcs_nodup
    mem_readyRpcs := fun r => by simpa [homaInterestInitShared] using hs.mem_readyRpcs r
    stale_dead := fun r h => hs.stale_dead r (by simpa [homaInterestInitShared] using h)
    dead_server := fun r h hc => hs.dead_server r (by simpa [homaInterestInitShared] using h) hc
    interests_nodup := by
      simpa [homaInterestInitShared] using List.nodup_cons.mpr ⟨hnot, hs.interests_nodup⟩
    linked := fun u hu => by
      by_cases hut : u = t
      · subst hut
        simp [homaInterestInitShared, ThreadPc.SharedWait]
      · have hu' : u ∈ s.sock.interests := by simpa [homaInterestInitShared, hut] using hu
        simpa [homaInterestInitShared, hut] using hs.linked u hu'
    woken := fun u p hp' hwait hu => by
      by_cases hut : u = t
      · subst hut
        simp [homaInterestInitShared] at hu
      · simp only [homaInterestInitShared, List.mem_cons, hut, false_or] at hu
        simpa [homaInterestInitShared, hut] using
          hs.woken u p (by simpa [hut] using hp') hwait hu
    privateOwner := fun r u h => by
      have hu : u ≠ t := fun hut => hnopriv r (hut ▸ by simpa [homaInterestInitShared] using h)
      simpa [hu] using hs.privateOwner r u (by simpa [homaInterestInitShared] using h) }

theorem waitSharedLoop (hs : s.ReadyInv) {t : ℕ} (hp : s.pc t = some .sharedLoop) (nb : Bool) :
    ({ sock := (homaWaitSharedLoop t nb s.sock).1
       thread := Function.update s.thread t (homaWaitSharedLoop t nb s.sock).2 } :
      Sys).ReadyInv := by
  have hquiet := hs.move_quiet hp (by simp [ThreadPc.SharedWait]) (by simp [ThreadPc.PrivateWait])
  unfold homaWaitSharedLoop
  by_cases hshut : s.sock.shutdown = true
  · rw [if_pos hshut]
    exact hquiet none (by simp)
  rw [if_neg hshut]
  cases hready : s.sock.readyRpcs with
  | cons id rest =>
      exact (hquiet (some ⟨.sharedCopy id, nb⟩)
        (by simp [ThreadPc.SharedWait, ThreadPc.PrivateWait])).takeReady hready
  | nil =>
      cases nb with
      | true => exact hquiet none (by simp)
      | false => exact hs.initShared hp hready false

theorem interestWait (hs : s.ReadyInv) {t : ℕ} {th : Thread} (hth : s.thread t = some th)
    (hp : th.pc = .sharedWaiting) (env : Env) {result : ℤ}
    (hwait : homaInterestWait env (s.sock.interest t).ready = some result) :
    ({ s with thread := (Function.update s.thread t
        (if result ≠ 0 then some ⟨.sharedWoken result, th.nonblocking⟩
          else some ⟨.sharedHanded, th.nonblocking⟩)) } : Sys).ReadyInv := by
  have hpc : s.pc t = some .sharedWaiting := by simp [Sys.pc, hth, hp]
  have hnopriv := hs.not_privateOwner (shared_not_private hpc (by simp [ThreadPc.PrivateWait]))
  split_ifs with hres
  · refine hs.move t _ (fun _ => ⟨_, rfl, trivial⟩) (fun q hq hq' ht => ?_)
      (fun id h => absurd h (hnopriv id))
    exact hs.woken t _ hpc trivial ht
  · -- a zero result means the interest was ready, so it is not linked
    have hready : (s.sock.interest t).ready = true := by
      unfold homaInterestWait at hwait
      split_ifs at hwait with hint hrd
      · simp [eintr] at hwait
        omega
      · exact hrd
    refine hs.move t _ (fun ht => ?_) (fun q hq hwait _ => ?_) (fun id h => absurd h (hnopriv id))
    · have := (hs.linked t ht).1
      rw [this] at hready
      cases hready
    · simp only [Option.map_some, Option.some.injEq] at hq
      subst hq
      exact hwait.elim

theorem sockFields (hs : s.ReadyInv) (sock : Sock) (hrpc : sock.rpc = s.sock.rpc)
    (hinterests : sock.interests = s.sock.interests) (hready : sock.readyRpcs = s.sock.readyRpcs)
    (hinterest : sock.interest = s.sock.interest) : ({ s with sock } : Sys).ReadyInv :=
  hs.of_frame hinterests hready hinterest rfl (fun _ => by rw [hrpc]) (fun _ => by rw [hrpc])
    (fun _ => by rw [hrpc]) (fun _ _ _ => by rw [hrpc])

theorem unlinkShared (hs : s.ReadyInv) {t : ℕ} {p : ThreadPc} (hp : s.pc t = some p)
    (hprivate : ∀ id, ¬ p.PrivateWait id) (th : Option Thread)
    (hth : ∀ q, th.map Thread.pc = some q → ¬ q.SharedWait ∧ ∀ id, ¬ q.PrivateWait id) :
    ({ sock := homaInterestUnlinkShared t s.sock
       thread := Function.update s.thread t th } : Sys).ReadyInv := by
  have hnopriv := hs.not_privateOwner (shared_not_private hp hprivate)
  exact {
    exclusive := fun h => hs.exclusive fun hnil => h (by simp [homaInterestUnlinkShared, hnil])
    readyRpcs_nodup := hs.readyRpcs_nodup
    mem_readyRpcs := hs.mem_readyRpcs
    stale_dead := hs.stale_dead
    dead_server := hs.dead_server
    interests_nodup := hs.interests_nodup.erase t
    linked := fun u hu => by
      have hut : u ≠ t := fun h => by
        subst h
        exact (hs.interests_nodup.mem_erase_iff.mp hu).1 rfl
      have hu' := (List.mem_erase_of_ne hut).mp hu
      simpa [hut, homaInterestUnlinkShared] using hs.linked u hu'
    woken := fun u q hq hwait hu => by
      by_cases hut : u = t
      · subst hut
        simp only [Sys.pc_update, ↓reduceIte] at hq
        exact absurd hwait (hth q hq).1
      · exact hs.woken u q (by simpa [hut] using hq) hwait
          (fun h => hu ((List.mem_erase_of_ne hut).mpr h))
    privateOwner := fun r u h => by
      have hut : u ≠ t := fun hut => hnopriv r (hut ▸ h)
      simpa [hut] using hs.privateOwner r u h }

theorem waitSharedUnlink (hs : s.ReadyInv) {t : ℕ} {result : ℤ}
    (hp : s.pc t = some (.sharedWoken result)) (nb : Bool) :
    ({ sock := (homaWaitSharedUnlink t nb s.sock).1
       thread := Function.update s.thread t (homaWaitSharedUnlink t nb s.sock).2 } :
      Sys).ReadyInv := by
  unfold homaWaitSharedUnlink
  dsimp only
  split_ifs
  · exact hs.unlinkShared hp (by simp [ThreadPc.PrivateWait]) none (by simp)
  · exact hs.unlinkShared hp (by simp [ThreadPc.PrivateWait]) _
      (by simp [ThreadPc.SharedWait, ThreadPc.PrivateWait])

theorem waitSharedHanded (hs : s.ReadyInv) {t : ℕ} (hp : s.pc t = some .sharedHanded)
    (nb : Bool) :
    ({ sock := (homaWaitSharedHanded t nb s.sock).1
       thread := Function.update s.thread t (homaWaitSharedHanded t nb s.sock).2 } :
      Sys).ReadyInv := by
  have hquiet := hs.move_quiet hp (by simp [ThreadPc.SharedWait]) (by simp [ThreadPc.PrivateWait])
  unfold homaWaitSharedHanded
  split
  · exact hquiet none (by simp)
  · exact hquiet _ (by simp [ThreadPc.SharedWait, ThreadPc.PrivateWait])

theorem waitSharedCopy (hs : s.ReadyInv) {t id : ℕ} (hp : s.pc t = some (.sharedCopy id))
    (env : Env) (nb : Bool) :
    ({ sock := (homaWaitSharedCopy env id nb s.sock).1
       thread := Function.update s.thread t (homaWaitSharedCopy env id nb s.sock).2 } :
      Sys).ReadyInv := by
  have hquiet := hs.move_quiet hp (by simp [ThreadPc.SharedWait]) (by simp [ThreadPc.PrivateWait])
  have hok : ∀ pc, pc = .received id ∨ pc = .sharedLoop →
      ∀ q, (some (⟨pc, nb⟩ : Thread)).map Thread.pc = some q →
        ¬ q.SharedWait ∧ ∀ id, ¬ q.PrivateWait id := by
    rintro pc (rfl | rfl) q hq <;> cases hq <;> simp [ThreadPc.SharedWait, ThreadPc.PrivateWait]
  unfold homaWaitSharedCopy
  dsimp only
  split_ifs
  · exact (hquiet _ (hok _ (.inl rfl))).copyOut env id
  · exact ((hquiet _ (hok _ (.inr rfl))).copyOut env id).put id
  · exact (hquiet _ (hok _ (.inl rfl))).copyOut env id
  · exact ((hquiet _ (hok _ (.inr rfl))).copyOut env id).put id

/-! ## The regions of `homa_wait_private` -/

theorem initPrivate (hs : s.ReadyInv) {t id : ℕ} (hp : s.pc t = some (.privateLoop id))
    (hnone : (s.sock.rpc id).privateInterest = none) (nb : Bool) :
    ({ sock := (s.sock.updateRpc id fun rpc => { rpc with privateInterest := some t }).setInterest
          t ⟨some id, false⟩
       thread := Function.update s.thread t (some ⟨.privateWaiting id, nb⟩) } :
      Sys).ReadyInv := by
  have hnot : t ∉ s.sock.interests := hs.not_mem_interests hp (by simp [ThreadPc.SharedWait])
  have hnopriv := hs.not_privateOwner (shared_not_private hp (by simp [ThreadPc.PrivateWait]))
  exact {
    exclusive := hs.exclusive
    readyRpcs_nodup := hs.readyRpcs_nodup
    mem_readyRpcs := fun r => by
      by_cases hr : r = id
      · subst hr
        simpa using hs.mem_readyRpcs r
      · simpa [hr] using hs.mem_readyRpcs r
    stale_dead := fun r h => by
      by_cases hr : r = id
      · subst hr
        simpa using hs.stale_dead r (by simpa using h)
      · simpa [hr] using hs.stale_dead r (by simpa [hr] using h)
    dead_server := fun r h hc => by
      by_cases hr : r = id
      · subst hr
        simpa using hs.dead_server r (by simpa using h) hc
      · simpa [hr] using hs.dead_server r (by simpa [hr] using h) hc
    interests_nodup := hs.interests_nodup
    linked := fun u hu => by
      have hut : u ≠ t := fun h => hnot (h ▸ hu)
      simpa [hut] using hs.linked u hu
    woken := fun u q hq hwait hu => by
      by_cases hut : u = t
      · subst hut
        simp only [Sys.pc_update, ↓reduceIte, Option.map_some, Option.some.injEq] at hq
        subst hq
        exact hwait.elim
      · simpa [hut] using hs.woken u q (by simpa [hut] using hq) hwait hu
    privateOwner := fun r u h => by
      by_cases hr : r = id
      · subst hr
        simp only [Sock.setInterest_rpc, Sock.updateRpc_rpc, ↓reduceIte, Option.some.injEq] at h
        subst h
        simp [ThreadPc.PrivateWait]
      · have h' : (s.sock.rpc r).privateInterest = some u := by simpa [hr] using h
        have hut : u ≠ t := fun hut => hnopriv r (hut ▸ h')
        simpa [hut] using hs.privateOwner r u h' }

theorem waitPrivateLoop (hs : s.ReadyInv) {t id : ℕ} (hp : s.pc t = some (.privateLoop id))
    (env : Env) (nb : Bool) :
    ({ sock := (homaWaitPrivateLoop env t id nb s.sock).1
       thread := Function.update s.thread t (homaWaitPrivateLoop env t id nb s.sock).2 } :
      Sys).ReadyInv := by
  have hquiet := hs.move_quiet hp (by simp [ThreadPc.SharedWait]) (by simp [ThreadPc.PrivateWait])
  unfold homaWaitPrivateLoop
  dsimp only
  split_ifs
  · exact ((hquiet none (by simp)).copyOut env id).put id
  · exact (hquiet _ (by simp [ThreadPc.SharedWait, ThreadPc.PrivateWait])).copyOut env id
  · exact ((hquiet none (by simp)).copyOut env id).put id
  · split
    · exact ((hquiet none (by simp)).copyOut env id).put id
    · rename_i hnone
      exact (hs.copyOut env id).initPrivate (by simpa using hp) hnone nb

theorem privateInterestWait (hs : s.ReadyInv) {t id : ℕ} (hp : s.pc t = some (.privateWaiting id))
    (result : ℤ) (nb : Bool) :
    ({ s with thread := (Function.update s.thread t (some ⟨.privateWoken id result, nb⟩)) } :
      Sys).ReadyInv := by
  refine hs.move t _ (fun ht => absurd ht (hs.not_mem_interests hp (by simp [ThreadPc.SharedWait])))
    (fun q hq hwait _ => ?_) (fun r h => ?_)
  · simp only [Option.map_some, Option.some.injEq] at hq
    subst hq
    exact hwait.elim
  · obtain ⟨q, hq, hwait⟩ := hs.privateOwner r t h
    rw [hp] at hq
    cases hq
    exact ⟨_, rfl, hwait⟩

theorem clearPrivate (hs : s.ReadyInv) (id : ℕ) :
    ({ s with sock := s.sock.updateRpc id fun rpc => { rpc with privateInterest := none } } :
      Sys).ReadyInv where
  exclusive := hs.exclusive
  readyRpcs_nodup := hs.readyRpcs_nodup
  mem_readyRpcs r := by
    by_cases hr : r = id
    · subst hr
      simpa using hs.mem_readyRpcs r
    · simpa [hr] using hs.mem_readyRpcs r
  stale_dead r h := by
    by_cases hr : r = id
    · subst hr
      simpa using hs.stale_dead r (by simpa using h)
    · simpa [hr] using hs.stale_dead r (by simpa [hr] using h)
  dead_server r h hc := by
    by_cases hr : r = id
    · subst hr
      simpa using hs.dead_server r (by simpa using h) hc
    · simpa [hr] using hs.dead_server r (by simpa [hr] using h) hc
  interests_nodup := hs.interests_nodup
  linked := hs.linked
  woken := hs.woken
  privateOwner r u h := by
    by_cases hr : r = id
    · subst hr
      simp at h
    · exact hs.privateOwner r u (by simpa [hr] using h)

theorem move_free (hs : s.ReadyInv) {t : ℕ} (hnot : t ∉ s.sock.interests)
    (hfree : ∀ id, (s.sock.rpc id).privateInterest ≠ some t) (th : Option Thread)
    (hth : ∀ q, th.map Thread.pc = some q → ¬ q.SharedWait ∧ ∀ id, ¬ q.PrivateWait id) :
    ({ s with thread := Function.update s.thread t th } : Sys).ReadyInv :=
  hs.move t th (fun ht => absurd ht hnot) (fun q hq hwait _ => absurd hwait (hth q hq).1)
    (fun id h => absurd h (hfree id))

theorem waitPrivateWoken (hs : s.ReadyInv) {t id : ℕ} {result : ℤ}
    (hp : s.pc t = some (.privateWoken id result)) (nb : Bool) :
    ({ sock := (homaWaitPrivateWoken t id result nb s.sock).1
       thread := Function.update s.thread t (homaWaitPrivateWoken t id result nb s.sock).2 } :
      Sys).ReadyInv := by
  have hnot : t ∉ s.sock.interests := hs.not_mem_interests hp (by simp [ThreadPc.SharedWait])
  -- only `id` can name the thread, and the unlink clears it there
  have hothers : ∀ r, r ≠ id → (s.sock.rpc r).privateInterest ≠ some t := by
    intro r hr h
    obtain ⟨q, hq, hwait⟩ := hs.privateOwner r t h
    rw [hp] at hq
    cases hq
    exact hr hwait.symm
  have hquiet : ∀ pc, pc = none ∨ pc = some ⟨.privateLoop id, nb⟩ →
      ∀ q, pc.map Thread.pc = some q → ¬ q.SharedWait ∧ ∀ id, ¬ q.PrivateWait id := by
    rintro pc (rfl | rfl) q hq
    · cases hq
    · cases hq
      simp [ThreadPc.SharedWait, ThreadPc.PrivateWait]
  unfold homaWaitPrivateWoken
  dsimp only
  by_cases howner : (s.sock.rpc id).privateInterest = some t
  · have hfree : ∀ r, ((s.sock.updateRpc id fun rpc => { rpc with privateInterest := none }).rpc
        r).privateInterest ≠ some t := by
      intro r
      by_cases hr : r = id
      · subst hr
        simp
      · simpa [hr] using hothers r hr
    have hclear := hs.clearPrivate id
    simp only [howner, ↓reduceIte]
    split_ifs
    · exact (hclear.move_free hnot hfree none (hquiet _ (.inl rfl))).put id
    · exact hclear.move_free hnot hfree _ (hquiet _ (.inr rfl))
  · have hfree : ∀ r, (s.sock.rpc r).privateInterest ≠ some t := by
      intro r
      by_cases hr : r = id
      · subst hr
        exact howner
      · exact hothers r hr
    simp only [howner, ↓reduceIte]
    split_ifs
    · exact (hs.move_free hnot hfree none (hquiet _ (.inl rfl))).put id
    · exact hs.move_free hnot hfree _ (hquiet _ (.inr rfl))

/-! ## The rest of `homa_recvmsg`, shutdown and the scans -/

theorem recvmsgReceived (hs : s.ReadyInv) {t id : ℕ} (hp : s.pc t = some (.received id)) :
    ({ sock := homaRecvmsgFinish id s.sock, thread := Function.update s.thread t none } :
      Sys).ReadyInv :=
  (hs.move_quiet hp (by simp [ThreadPc.SharedWait]) (by simp [ThreadPc.PrivateWait]) none
    (by simp)).recvmsgFinish id

theorem wake (hs : s.ReadyInv) :
    ({ s with sock := homaSockWakeInterests s.sock s.sock.interests } : Sys).ReadyInv where
  exclusive h := absurd (homaSockWakeInterests_interests _ _) h
  readyRpcs_nodup := by simpa using hs.readyRpcs_nodup
  mem_readyRpcs r := by simpa using hs.mem_readyRpcs r
  stale_dead r h := by simpa using hs.stale_dead r (by simpa using h)
  dead_server r h hc := by simpa using hs.dead_server r (by simpa using h) hc
  interests_nodup := by
    rw [homaSockWakeInterests_interests]
    exact List.nodup_nil
  linked u hu := by simp [homaSockWakeInterests_interests] at hu
  woken u p hp hwait _ := by
    rw [homaSockWakeInterests_interest]
    split_ifs with hu
    · rfl
    · exact hs.woken u p hp hwait hu
  privateOwner r u h := hs.privateOwner r u (by simpa using h)

theorem shutdownNext (hs : s.ReadyInv) {t : ℕ} (hp : s.pc t = some .closing) :
    ({ sock := (homaSockShutdownNext s.sock).1
       thread := Function.update s.thread t (homaSockShutdownNext s.sock).2 } :
      Sys).ReadyInv := by
  have hquiet := hs.move_quiet hp (by simp [ThreadPc.SharedWait]) (by simp [ThreadPc.PrivateWait])
  unfold homaSockShutdownNext
  split
  · rename_i id rest _
    exact (hquiet _ (by simp [ThreadPc.SharedWait, ThreadPc.PrivateWait])).rpcEnd id
  · exact (hquiet none (by simp)).wake

theorem scanNext (hs : s.ReadyInv) {t : ℕ} {kind : ScanKind} (hp : s.pc t = some (.scanning kind))
    (target : Option ℕ) {r : Sock × Option Thread}
    (hr : (match target with
      | some id => if id ∈ s.sock.active then some (s.sock, some ⟨.scanned kind id, false⟩) else none
      | none => some ({ s.sock with protectCount := s.sock.protectCount - 1 }, none)) = some r) :
    ({ sock := r.1, thread := Function.update s.thread t r.2 } : Sys).ReadyInv := by
  have hquiet := hs.move_quiet hp (by simp [ThreadPc.SharedWait]) (by simp [ThreadPc.PrivateWait])
  cases target with
  | some id =>
      simp only at hr
      split_ifs at hr
      cases hr
      exact hquiet _ (by simp [ThreadPc.SharedWait, ThreadPc.PrivateWait])
  | none =>
      simp only [Option.some.injEq] at hr
      subst hr
      exact (hquiet none (by simp)).sockFields _ rfl rfl rfl rfl

theorem scanLocked (hs : s.ReadyInv) {t id : ℕ} {kind : ScanKind}
    (hp : s.pc t = some (.scanned kind id)) (env : Env) :
    ({ sock := homaScanRpc env kind id s.sock
       thread := Function.update s.thread t (some ⟨.scanning kind, false⟩) } : Sys).ReadyInv :=
  (hs.move_quiet hp (by simp [ThreadPc.SharedWait]) (by simp [ThreadPc.PrivateWait]) _
    (by simp [ThreadPc.SharedWait, ThreadPc.PrivateWait])).scanRpc env kind id

/-! ## Every step -/

theorem threadStep (hs : s.ReadyInv) {t : ℕ} {th : Thread} (hth : s.thread t = some th)
    (env : Env) {r : Sock × Option Thread} (hr : th.step env t s.sock = some r) :
    ({ sock := r.1, thread := Function.update s.thread t r.2 } : Sys).ReadyInv := by
  have hpc : s.pc t = some th.pc := by simp [Sys.pc, hth]
  unfold Thread.step at hr
  split at hr
  · rename_i hp
    cases hr
    exact hs.waitSharedLoop (hp ▸ hpc) th.nonblocking
  · rename_i hp
    obtain ⟨result, hwait, rfl⟩ := Option.map_eq_some_iff.1 hr
    have := hs.interestWait hth hp env hwait
    split_ifs at this ⊢ <;> exact this
  · rename_i result hp
    cases hr
    exact hs.waitSharedUnlink (hp ▸ hpc) th.nonblocking
  · rename_i hp
    cases hr
    exact hs.waitSharedHanded (hp ▸ hpc) th.nonblocking
  · rename_i id hp
    cases hr
    exact hs.waitSharedCopy (hp ▸ hpc) env th.nonblocking
  · rename_i id hp
    cases hr
    exact hs.waitPrivateLoop (hp ▸ hpc) env th.nonblocking
  · rename_i id hp
    obtain ⟨result, -, rfl⟩ := Option.map_eq_some_iff.1 hr
    exact hs.privateInterestWait (hp ▸ hpc) result th.nonblocking
  · rename_i id result hp
    cases hr
    exact hs.waitPrivateWoken (hp ▸ hpc) th.nonblocking
  · rename_i id hp
    cases hr
    exact hs.recvmsgReceived (hp ▸ hpc)
  · rename_i hp
    cases hr
    exact hs.shutdownNext (hp ▸ hpc)
  · rename_i kind hp
    exact hs.scanNext (hp ▸ hpc) env.target hr
  · rename_i kind id hp
    cases hr
    exact hs.scanLocked (hp ▸ hpc) env

theorem recvmsgStart (hs : s.ReadyInv) {t : ℕ} (hnone : s.thread t = none) (id : ℕ) (nb : Bool) :
    ({ sock := (homaRecvmsgStart id nb s.sock).1
       thread := Function.update s.thread t (homaRecvmsgStart id nb s.sock).2 } :
      Sys).ReadyInv := by
  have hstart := hs.start hnone
  unfold homaRecvmsgStart
  dsimp only
  split_ifs
  · exact ((hstart none (by simp)).hold id).put id
  · exact ((hstart _ (by simp [ThreadPc.SharedWait, ThreadPc.PrivateWait])).hold id).hold id
  · exact hstart none (by simp)
  · exact hstart _ (by simp [ThreadPc.SharedWait, ThreadPc.PrivateWait])

theorem step (hs : s.ReadyInv) {a : Action} {s' : Sys} (h : s.step a = some s') :
    s'.ReadyInv := by
  -- the three ways a thread enters the modelled code
  have hstart : ∀ t (f : Sock → Sock × Option Thread), s.start t f = some s' →
      (s.thread t = none →
        ({ sock := (f s.sock).1, thread := Function.update s.thread t (f s.sock).2 } :
          Sys).ReadyInv) → s'.ReadyInv := by
    intro t f hf hk
    unfold Sys.start at hf
    split at hf
    · cases hf
    · rename_i hnone
      cases hf
      exact hk hnone
  cases a with
  | recvmsg t id nb =>
      exact hstart t _ h fun hnone => hs.recvmsgStart hnone id nb
  | shutdown t =>
      refine hstart t _ h fun hnone => ?_
      unfold homaSockShutdownStart
      split_ifs
      · exact hs.start hnone none (by simp)
      · exact (hs.start hnone _ (by simp [ThreadPc.SharedWait, ThreadPc.PrivateWait])).sockFields
          _ rfl rfl rfl rfl
  | scan t kind =>
      refine hstart t _ h fun hnone => ?_
      unfold homaScanStart
      split_ifs
      · exact hs.start hnone none (by simp)
      · exact hs.start hnone none (by simp)
      · exact (hs.start hnone _ (by simp [ThreadPc.SharedWait, ThreadPc.PrivateWait])).sockFields
          _ rfl rfl rfl rfl
  | run t env =>
      simp only [Sys.step] at h
      split at h
      · cases h
      · rename_i th hth
        cases hr : th.step env t s.sock with
        | none => simp [hr] at h
        | some r =>
            simp only [hr, Option.map_some, Option.some.injEq] at h
            exact h ▸ hs.threadStep hth env hr
  | dataReady id idle =>
      simp only [Sys.step] at h
      split_ifs at h
      cases h
      exact hs.handoff idle id
  | rpcEnd id =>
      simp only [Sys.step] at h
      split_ifs at h
      cases h
      exact hs.rpcEnd id
  | reap id =>
      simp only [Sys.step] at h
      split_ifs at h
      cases h
      exact hs.sockFields _ rfl rfl rfl rfl

end Sys.ReadyInv

theorem Sys.Reachable.readyInv {s : Sys} (h : s.Reachable) : s.ReadyInv := by
  induction h with
  | init hinit => exact Sys.ReadyInv.init hinit
  | step _ hstep ih => exact ih.step hstep

/-! ## What a handoff does -/

/-- A handoff of `id` from `s` to `s'` gives the RPC, with one more
reference, to exactly one waiting interest, which leaves `interests` ready;
or leaves the RPC on `ready_rpcs` exactly once. -/
def HandoffDelivers (s s' : Sock) (id : ℕ) : Prop :=
  (∃ t ∈ s.interests,
    s'.interests = s.interests.erase t ∧ t ∉ s'.interests ∧ s'.interest t = ⟨some id, true⟩ ∧
    (∀ u, u ≠ t → s'.interest u = s.interest u) ∧
    (s'.rpc id).refs = (s.rpc id).refs + 1 ∧ s'.readyRpcs = s.readyRpcs) ∨
  (s'.interests = s.interests ∧ s'.interest = s.interest ∧ s'.readyRpcs.count id = 1)

namespace Sys.ReadyInv

variable {s : Sys}

theorem handoff_delivers (hs : s.ReadyInv) (idle : ℕ → Bool) {id : ℕ}
    (hpriv : (s.sock.rpc id).isPrivate = false) (hlive : (s.sock.rpc id).state ≠ .dead)
    (hshut : s.sock.shutdown = false) :
    HandoffDelivers s.sock (homaRpcHandoff idle id s.sock) id := by
  by_cases hnil : s.sock.interests = []
  · right
    rw [homaRpcHandoff_of_nil idle id s.sock hpriv hshut hnil]
    split_ifs with hunlinked
    · have hnotin : id ∉ s.sock.readyRpcs := by
        rw [hs.mem_readyRpcs id, hunlinked]
        simp
      refine ⟨rfl, rfl, ?_⟩
      simp [List.count_append, List.count_eq_zero_of_not_mem hnotin]
    · -- links that are not empty on a live RPC are in `ready_rpcs`
      have hqueued : (s.sock.rpc id).readyLinks = .queued := by
        cases hlinks : (s.sock.rpc id).readyLinks with
        | unlinked => exact absurd hlinks hunlinked
        | queued => rfl
        | stale => exact absurd (hs.stale_dead id hlinks) hlive
      exact ⟨rfl, rfl, List.count_eq_one_of_mem hs.readyRpcs_nodup
        ((hs.mem_readyRpcs id).mpr hqueued)⟩
  · left
    obtain ⟨t, ht, heq⟩ := homaRpcHandoff_of_ne_nil idle id s.sock hpriv hshut hnil
    rw [heq]
    refine ⟨t, ht, rfl, ?_, by simp [homaRpcHold], fun u hu => by simp [homaRpcHold, hu],
      by simp [homaRpcHold], rfl⟩
    exact fun h => (hs.interests_nodup.mem_erase_iff.mp h).1 rfl

theorem woken_unlink (hs : s.ReadyInv) {t : ℕ} {th : Thread} {result : ℤ}
    (hth : s.thread t = some th) (hp : th.pc = .sharedWoken result) :
    ((homaWaitSharedUnlink t th.nonblocking s.sock).2 = none ∧ (s.sock.interest t).rpc = none) ∨
      (homaWaitSharedUnlink t th.nonblocking s.sock).2 = some ⟨.sharedHanded, th.nonblocking⟩ := by
  have hpc : s.pc t = some (.sharedWoken result) := by simp [Sys.pc, hth, hp]
  unfold homaWaitSharedUnlink
  by_cases ht : t ∈ s.sock.interests
  · have hlinked := (hs.linked t ht).1
    left
    simp [homaInterestUnlinkShared, hlinked]
  · have hready := hs.woken t _ hpc trivial ht
    right
    simp [homaInterestUnlinkShared, hready]

end Sys.ReadyInv

/-- In every reachable state of a socket: no thread waits while an RPC is
ready; a handoff of a live shared RPC on a socket that is not shut down
delivers it to exactly one waiting thread or to `ready_rpcs`; and a thread
whose `homa_interest_wait` fails returns the error only if its interest was
handed no RPC, going on to process the RPC otherwise. -/
theorem homaRpcHandoff_ready_or_handed {s : Sys} (hs : s.Reachable) :
    (s.sock.interests ≠ [] → s.sock.readyRpcs = []) ∧
    (∀ (idle : ℕ → Bool) (id : ℕ), (s.sock.rpc id).isPrivate = false →
      (s.sock.rpc id).state ≠ .dead → s.sock.shutdown = false →
      HandoffDelivers s.sock (homaRpcHandoff idle id s.sock) id) ∧
    (∀ t th result, s.thread t = some th → th.pc = .sharedWoken result →
      ((homaWaitSharedUnlink t th.nonblocking s.sock).2 = none ∧ (s.sock.interest t).rpc = none) ∨
        (homaWaitSharedUnlink t th.nonblocking s.sock).2 =
          some ⟨.sharedHanded, th.nonblocking⟩) := by
  have hinv := hs.readyInv
  exact ⟨hinv.exclusive, fun idle _ hpriv hlive hshut => hinv.handoff_delivers idle hpriv hlive hshut,
    fun _ _ _ hth hp => hinv.woken_unlink hth hp⟩

/-- Threads 0 and 1 wait on the socket; a handoff gives RPC 2 to thread 1,
and a signal then wakes thread 1 with `-EINTR`. -/
def handedTrace : List Action :=
  [.recvmsg 0 0 false, .run 0 (testEnv none), .recvmsg 1 0 false, .run 1 (testEnv none),
    .dataReady 2 fun _ => true, .run 1 { testEnv none with interrupted := true }]

/-- After `handedTrace` thread 0 still waits, and thread 1, woken by the
signal, holds the RPC it was handed and goes on to process it. -/
theorem homaRpcHandoff_ready_or_handed_signalled :
    ∃ s : Sys, (Sys.ofRpcs [2] fun _ => testRpc false).run handedTrace = some s ∧
      s.sock.interests = [0] ∧ s.thread 1 = some ⟨.sharedWoken (-eintr), false⟩ ∧
      (s.sock.interest 1).rpc = some 2 ∧
      (s.sock.interests ≠ [] → s.sock.readyRpcs = []) ∧
      (∀ (idle : ℕ → Bool) (id : ℕ), (s.sock.rpc id).isPrivate = false →
        (s.sock.rpc id).state ≠ .dead → s.sock.shutdown = false →
        HandoffDelivers s.sock (homaRpcHandoff idle id s.sock) id) ∧
      (∀ t th result, s.thread t = some th → th.pc = .sharedWoken result →
        ((homaWaitSharedUnlink t th.nonblocking s.sock).2 = none ∧ (s.sock.interest t).rpc = none) ∨
          (homaWaitSharedUnlink t th.nonblocking s.sock).2 =
            some ⟨.sharedHanded, th.nonblocking⟩) :=
  ⟨_, rfl, rfl, rfl, rfl,
    homaRpcHandoff_ready_or_handed ((Sys.Reachable.init (testSys_init false)).run (l := handedTrace) rfl)⟩

/-- Once `homa_sock_shutdown` has set `shutdown`, a handoff of a live shared
RPC neither gives it to a thread nor queues it. -/
theorem homaRpcHandoff_after_shutdown :
    ∃ s : Sys, s.Reachable ∧ s.sock.shutdown = true ∧ (s.sock.rpc 2).state ≠ .dead ∧
      (s.sock.rpc 2).isPrivate = false ∧
      ¬ HandoffDelivers s.sock (homaRpcHandoff (fun _ => true) 2 s.sock) 2 := by
  refine ⟨_, (Sys.Reachable.init (testSys_init false)).run (l := [.shutdown 0]) rfl, rfl,
    by simp [homaSockShutdownStart, Sys.ofRpcs, testRpc], rfl, ?_⟩
  -- the socket is left as it was: no interest to take the RPC, none queued
  rw [homaRpcHandoff_of_shutdown _ _ _ rfl rfl]
  rintro (⟨t, ht, -⟩ | ⟨-, -, hcount⟩)
  · simp [homaSockShutdownStart, Sys.ofRpcs] at ht
  · simp [homaSockShutdownStart, Sys.ofRpcs] at hcount

end Homa
