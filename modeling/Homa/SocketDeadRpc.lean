import Homa.SocketReady

/-!
# Dead RPCs on the ready queue

`homa_rpc_end` takes an RPC off `active_rpcs`, so the RPCs there are live
(`Sock.LiveInv`), and `homa_data_pkt` hands off only RPCs it found there.
But `homa_timer` and `homa_abort_rpcs` lock an RPC fetched from the RCU list
earlier and call `homa_rpc_abort` without looking at its state again, so
they can link an RPC ended in between into `ready_rpcs`, where
`homa_rpc_reap` then frees it.
-/

namespace Homa

/-! ## Changes that end no RPC and queue none -/

/-- A change of a socket that keeps `active_rpcs` and the state of every RPC,
and only takes RPCs off `ready_rpcs`. -/
structure Sock.Quiet (s s' : Sock) : Prop where
  active_eq : s'.active = s.active
  state_eq : ∀ x, (s'.rpc x).state = (s.rpc x).state
  readyRpcs_subset : s'.readyRpcs ⊆ s.readyRpcs

namespace Sock.Quiet

variable {s s₁ s₂ : Sock}

theorem refl (s : Sock) : s.Quiet s := ⟨rfl, fun _ => rfl, List.Subset.refl _⟩

theorem trans (h₁ : s.Quiet s₁) (h₂ : s₁.Quiet s₂) : s.Quiet s₂ where
  active_eq := h₂.active_eq.trans h₁.active_eq
  state_eq x := (h₂.state_eq x).trans (h₁.state_eq x)
  readyRpcs_subset := List.Subset.trans h₂.readyRpcs_subset h₁.readyRpcs_subset

theorem updateRpc (s : Sock) (id : ℕ) {f : Rpc → Rpc}
    (hf : (f (s.rpc id)).state = (s.rpc id).state) : s.Quiet (s.updateRpc id f) where
  active_eq := rfl
  state_eq x := by
    by_cases hx : x = id
    · subst hx
      simpa using hf
    · simp [hx]
  readyRpcs_subset := List.Subset.refl _

theorem setInterest (s : Sock) (t : ℕ) (i : Interest) : s.Quiet (s.setInterest t i) :=
  ⟨rfl, fun _ => rfl, List.Subset.refl _⟩

theorem withInterests (s : Sock) (l : List ℕ) : s.Quiet { s with interests := l } :=
  ⟨rfl, fun _ => rfl, List.Subset.refl _⟩

theorem queues {s' : Sock} (hq : s.Quiet s') (id : ℕ) :
    s'.active = s.active ∧ (∀ x, (s'.rpc x).state = (s.rpc x).state) ∧
      ∀ y ∈ s'.readyRpcs, y ∈ s.readyRpcs ∨ y = id :=
  ⟨hq.active_eq, hq.state_eq, fun _ hy => Or.inl (hq.readyRpcs_subset hy)⟩

theorem of_lists {s' : Sock} (hrpc : s'.rpc = s.rpc) (hactive : s'.active = s.active)
    (hready : s'.readyRpcs ⊆ s.readyRpcs) : s.Quiet s' :=
  ⟨hactive, fun x => by rw [hrpc], hready⟩

end Sock.Quiet

section QuietOperations

variable (id t : ℕ) (s : Sock)

theorem homaRpcHold_quiet : s.Quiet (homaRpcHold id s) := Sock.Quiet.updateRpc s id rfl

theorem homaRpcPut_quiet : s.Quiet (homaRpcPut id s) := Sock.Quiet.updateRpc s id rfl

theorem homaCopyOut_quiet (env : Env) : s.Quiet (homaCopyOut env id s) := by
  unfold homaCopyOut
  split_ifs
  · exact Sock.Quiet.updateRpc s id rfl
  · exact Sock.Quiet.refl s

theorem homaInterestNotifyPrivate_quiet : s.Quiet (homaInterestNotifyPrivate id s) := by
  unfold homaInterestNotifyPrivate
  split
  · exact Sock.Quiet.refl s
  · exact Sock.Quiet.of_lists rfl rfl (List.Subset.refl _)

theorem homaSockWakeInterests_quiet (l : List ℕ) : s.Quiet (homaSockWakeInterests s l) := by
  rw [homaSockWakeInterests_eq]
  exact Sock.Quiet.of_lists rfl rfl (List.Subset.refl _)

end QuietOperations

/-! ## The regions that end no RPC and queue none -/

section QuietRegions

variable (env : Env) (t id : ℕ) (nb : Bool) (s : Sock)

theorem homaRecvmsgStart_quiet : s.Quiet (homaRecvmsgStart id nb s).1 := by
  unfold homaRecvmsgStart
  dsimp only
  split_ifs
  · exact (homaRpcHold_quiet id s).trans (homaRpcPut_quiet id _)
  · exact (homaRpcHold_quiet id s).trans (homaRpcHold_quiet id _)
  · exact Sock.Quiet.refl s
  · exact Sock.Quiet.refl s

theorem homaWaitSharedLoop_quiet : s.Quiet (homaWaitSharedLoop t nb s).1 := by
  unfold homaWaitSharedLoop
  split
  · exact Sock.Quiet.refl s
  · split
    · -- the RPC at the head of `ready_rpcs` leaves it
      rename_i rid rest hready
      dsimp only
      have hpop : s.Quiet { s with readyRpcs := rest } :=
        Sock.Quiet.of_lists rfl rfl (by rw [hready]; exact List.subset_cons_self rid rest)
      exact (hpop.trans (homaRpcHold_quiet rid _)).trans (Sock.Quiet.updateRpc _ rid rfl)
    · split
      · exact Sock.Quiet.refl s
      · exact Sock.Quiet.of_lists rfl rfl (List.Subset.refl _)

theorem homaWaitSharedUnlink_quiet : s.Quiet (homaWaitSharedUnlink t nb s).1 := by
  unfold homaWaitSharedUnlink
  dsimp only
  split_ifs <;> exact Sock.Quiet.of_lists rfl rfl (List.Subset.refl _)

theorem homaWaitSharedHanded_quiet : s.Quiet (homaWaitSharedHanded t nb s).1 := by
  unfold homaWaitSharedHanded
  split <;> exact Sock.Quiet.refl s

theorem homaWaitSharedCopy_quiet : s.Quiet (homaWaitSharedCopy env id nb s).1 := by
  unfold homaWaitSharedCopy
  dsimp only
  have hcopy := homaCopyOut_quiet id s env
  split_ifs
  · exact hcopy
  · exact hcopy.trans (homaRpcPut_quiet id _)
  · exact hcopy
  · exact hcopy.trans (homaRpcPut_quiet id _)

theorem homaWaitPrivateLoop_quiet : s.Quiet (homaWaitPrivateLoop env t id nb s).1 := by
  unfold homaWaitPrivateLoop
  dsimp only
  have hcopy := homaCopyOut_quiet id s env
  split_ifs
  · exact hcopy.trans (homaRpcPut_quiet id _)
  · exact hcopy
  · exact hcopy.trans (homaRpcPut_quiet id _)
  · split
    · exact hcopy.trans (homaRpcPut_quiet id _)
    · exact (hcopy.trans (Sock.Quiet.updateRpc _ id rfl)).trans (Sock.Quiet.setInterest _ t _)

theorem homaWaitPrivateWoken_quiet (result : ℤ) :
    s.Quiet (homaWaitPrivateWoken t id result nb s).1 := by
  unfold homaWaitPrivateWoken
  dsimp only
  -- the private interest is cleared or not, and the reference dropped or not
  split_ifs <;> dsimp only <;> first
    | exact (Sock.Quiet.updateRpc s id rfl).trans (homaRpcPut_quiet id _)
    | exact Sock.Quiet.updateRpc s id rfl
    | exact homaRpcPut_quiet id s
    | exact Sock.Quiet.refl s

theorem homaSockShutdownStart_quiet : s.Quiet (homaSockShutdownStart s).1 := by
  unfold homaSockShutdownStart
  split_ifs
  · exact Sock.Quiet.refl s
  · exact Sock.Quiet.of_lists rfl rfl (List.Subset.refl _)

theorem homaScanStart_quiet (kind : ScanKind) : s.Quiet (homaScanStart kind s).1 := by
  unfold homaScanStart
  split_ifs
  · exact Sock.Quiet.refl s
  · exact Sock.Quiet.refl s
  · exact Sock.Quiet.of_lists rfl rfl (List.Subset.refl _)

end QuietRegions

/-! ## The operations that end or queue an RPC -/

section Lives

variable (idle : ℕ → Bool) (id : ℕ) (s : Sock)

theorem homaRpcHandoff_quiet :
    (homaRpcHandoff idle id s).active = s.active ∧
      (∀ x, ((homaRpcHandoff idle id s).rpc x).state = (s.rpc x).state) ∧
      ∀ y ∈ (homaRpcHandoff idle id s).readyRpcs, y ∈ s.readyRpcs ∨ y = id := by
  unfold homaRpcHandoff
  split
  · exact (homaInterestNotifyPrivate_quiet id s).queues id
  · split
    · exact (Sock.Quiet.refl s).queues id
    · split
      · dsimp only
        exact (((Sock.Quiet.withInterests s _).trans (Sock.Quiet.setInterest _ _ _)).trans
          (homaRpcHold_quiet id _)).queues id
      · split
        · -- queued at the tail of `ready_rpcs`
          have hq := Sock.Quiet.updateRpc { s with readyRpcs := s.readyRpcs ++ [id] } id
            (f := fun rpc => { rpc with readyLinks := .queued }) rfl
          refine ⟨hq.active_eq, hq.state_eq, fun y hy => ?_⟩
          simpa using hq.readyRpcs_subset hy
        · exact (Sock.Quiet.refl s).queues id

theorem homaRpcEnd_readyRpcs_subset : (homaRpcEnd id s).readyRpcs ⊆ s.readyRpcs := by
  unfold homaRpcEnd
  split_ifs with hdead hqueued
  · exact List.Subset.refl _
  · rw [homaInterestNotifyPrivate_readyRpcs]
    exact List.erase_subset
  · rw [homaInterestNotifyPrivate_readyRpcs]
    exact List.Subset.refl _

theorem homaRpcAbort_readyRpcs_mem (error : ℤ) {y : ℕ}
    (hy : y ∈ (homaRpcAbort idle id error s).readyRpcs) :
    y ∈ s.readyRpcs ∨ (y = id ∧ ((homaRpcAbort idle id error s).rpc id).state = (s.rpc id).state) := by
  unfold homaRpcAbort at hy ⊢
  split_ifs at hy ⊢
  · exact Or.inl (homaRpcEnd_readyRpcs_subset id s hy)
  · -- a client RPC: the error is set, then the RPC is handed off
    have herr := Sock.Quiet.updateRpc s id (f := fun rpc => { rpc with error }) rfl
    obtain ⟨-, hstate, hready⟩ := homaRpcHandoff_quiet idle id
      (s.updateRpc id fun rpc => { rpc with error })
    rcases hready y hy with hold | rfl
    · exact Or.inl (herr.readyRpcs_subset hold)
    · exact Or.inr ⟨rfl, (hstate y).trans (herr.state_eq y)⟩

theorem homaTimerCheckRpc_readyRpcs_mem (resendTicks timeoutTicks : ℕ) (quiet : Bool) {y : ℕ}
    (hy : y ∈ (homaTimerCheckRpc idle resendTicks timeoutTicks quiet id s).readyRpcs) :
    y ∈ s.readyRpcs ∨
      (y = id ∧
        ((homaTimerCheckRpc idle resendTicks timeoutTicks quiet id s).rpc id).state =
          (s.rpc id).state) := by
  unfold homaTimerCheckRpc at hy ⊢
  dsimp only at hy ⊢
  split_ifs at hy ⊢ <;> first
    | exact Or.inl hy
    | exact homaRpcAbort_readyRpcs_mem idle id s _ hy

theorem homaScanRpc_readyRpcs_mem (env : Env) (kind : ScanKind) {y : ℕ}
    (hy : y ∈ (homaScanRpc env kind id s).readyRpcs) :
    y ∈ s.readyRpcs ∨
      (y = id ∧ ((homaScanRpc env kind id s).rpc id).state = (s.rpc id).state ∧
        ∀ error, kind = .abortSockRpcs error → (s.rpc id).state ≠ .dead) := by
  unfold homaScanRpc at hy ⊢
  cases kind with
  | timer =>
      dsimp only at hy ⊢
      split_ifs at hy ⊢
      · exact Or.inl hy
      · -- `silent_ticks` is counted before the check
        have hsilent := Sock.Quiet.updateRpc s id
          (f := fun rpc => { rpc with silentTicks := rpc.silentTicks + 1 }) rfl
        rcases homaTimerCheckRpc_readyRpcs_mem env.idle id _ _ _ _ hy with hold | ⟨rfl, hstate⟩
        · exact Or.inl (hsilent.readyRpcs_subset hold)
        · exact Or.inr ⟨rfl, hstate.trans (hsilent.state_eq y), fun _ h => nomatch h⟩
  | abortRpcs addr port error =>
      dsimp only at hy ⊢
      split_ifs at hy ⊢
      · exact Or.inl hy
      · exact Or.inl hy
      · rcases homaRpcAbort_readyRpcs_mem env.idle id s error hy with hold | ⟨rfl, hstate⟩
        · exact Or.inl hold
        · exact Or.inr ⟨rfl, hstate, fun _ h => nomatch h⟩
  | abortSockRpcs error =>
      dsimp only at hy ⊢
      split_ifs at hy ⊢ with hclient hdead
      · exact Or.inl hy
      · exact Or.inl hy
      · rcases homaRpcAbort_readyRpcs_mem env.idle id s error hy with hold | ⟨rfl, hstate⟩
        · exact Or.inl hold
        · exact Or.inr ⟨rfl, hstate, fun _ _ => hdead⟩
      · exact Or.inl (homaRpcEnd_readyRpcs_subset id s hy)

theorem homaRecvmsgFinish_readyRpcs_subset : (homaRecvmsgFinish id s).readyRpcs ⊆ s.readyRpcs := by
  unfold homaRecvmsgFinish
  dsimp only
  refine List.Subset.trans (homaRpcPut_quiet id _).readyRpcs_subset ?_
  split_ifs
  · exact homaRpcEnd_readyRpcs_subset id s
  · exact homaRpcEnd_readyRpcs_subset id s
  · exact List.Subset.refl _

theorem homaSockShutdownNext_readyRpcs_subset : (homaSockShutdownNext s).1.readyRpcs ⊆ s.readyRpcs := by
  unfold homaSockShutdownNext
  split
  · exact homaRpcEnd_readyRpcs_subset _ s
  · exact (homaSockWakeInterests_quiet s _).readyRpcs_subset

end Lives

/-! ## Every RPC on `active_rpcs` is live -/

/-- The RPCs on `active_rpcs` are distinct and none of them is dead. -/
structure Sock.LiveInv (s : Sock) : Prop where
  active_nodup : s.active.Nodup
  active_live : ∀ x ∈ s.active, (s.rpc x).state ≠ .dead

namespace Sock.LiveInv

variable {s : Sock}

theorem of_states (h : s.LiveInv) {s' : Sock} (hactive : s'.active = s.active)
    (hstate : ∀ x, (s'.rpc x).state = (s.rpc x).state) : s'.LiveInv where
  active_nodup := hactive ▸ h.active_nodup
  active_live x hx := by
    rw [hstate]
    exact h.active_live x (hactive ▸ hx)

theorem quiet (h : s.LiveInv) {s' : Sock} (hq : s.Quiet s') : s'.LiveInv :=
  h.of_states hq.active_eq hq.state_eq

theorem rpcEnd (h : s.LiveInv) (id : ℕ) : (homaRpcEnd id s).LiveInv := by
  by_cases hdead : (s.rpc id).state = .dead
  · rw [homaRpcEnd_of_dead id s hdead]
    exact h
  · rw [homaRpcEnd_of_live id s hdead]
    -- only `id` dies, and it leaves `active_rpcs`
    have hq := homaInterestNotifyPrivate_quiet id
      { s.updateRpc id (fun rpc =>
          { rpc with state := .dead, error := -einval, readyLinks := rpc.readyLinks.delEntry }) with
        active := s.active.erase id
        dead := s.dead ++ [id]
        readyRpcs := if (s.rpc id).readyLinks = .queued then s.readyRpcs.erase id else s.readyRpcs }
    refine ⟨hq.active_eq ▸ h.active_nodup.erase id, fun x hx => ?_⟩
    rw [hq.active_eq] at hx
    rw [hq.state_eq]
    have hne : x ≠ id := fun hxid => h.active_nodup.not_mem_erase (hxid ▸ hx)
    simpa [hne] using h.active_live x (List.mem_of_mem_erase hx)

theorem handoff (h : s.LiveInv) (idle : ℕ → Bool) (id : ℕ) :
    (homaRpcHandoff idle id s).LiveInv :=
  h.of_states (homaRpcHandoff_quiet idle id s).1 (homaRpcHandoff_quiet idle id s).2.1

theorem abort (h : s.LiveInv) (idle : ℕ → Bool) (id : ℕ) (error : ℤ) :
    (homaRpcAbort idle id error s).LiveInv := by
  unfold homaRpcAbort
  split_ifs
  · exact h.rpcEnd id
  · exact (h.quiet (Sock.Quiet.updateRpc s id rfl)).handoff idle id

theorem timerCheck (h : s.LiveInv) (idle : ℕ → Bool) (resendTicks timeoutTicks : ℕ)
    (quiet : Bool) (id : ℕ) :
    (homaTimerCheckRpc idle resendTicks timeoutTicks quiet id s).LiveInv := by
  unfold homaTimerCheckRpc
  dsimp only
  split_ifs <;> first
    | exact h.quiet (Sock.Quiet.updateRpc s id rfl)
    | exact h
    | exact h.abort idle id _

theorem scanRpc (h : s.LiveInv) (env : Env) (kind : ScanKind) (id : ℕ) :
    (homaScanRpc env kind id s).LiveInv := by
  unfold homaScanRpc
  cases kind with
  | timer =>
      dsimp only
      split_ifs
      · exact h.quiet (Sock.Quiet.updateRpc s id rfl)
      · exact (h.quiet (Sock.Quiet.updateRpc s id rfl)).timerCheck _ _ _ _ id
  | abortRpcs addr port error =>
      dsimp only
      split_ifs
      · exact h
      · exact h
      · exact h.abort _ id error
  | abortSockRpcs error =>
      dsimp only
      split_ifs
      · exact h
      · exact h
      · exact h.abort _ id error
      · exact h.rpcEnd id

theorem recvmsgFinish (h : s.LiveInv) (id : ℕ) : (homaRecvmsgFinish id s).LiveInv := by
  unfold homaRecvmsgFinish
  dsimp only
  refine LiveInv.quiet ?_ (homaRpcPut_quiet id _)
  split_ifs
  · exact h.rpcEnd id
  · exact h.rpcEnd id
  · -- a server RPC put in service stays live
    refine ⟨h.active_nodup, fun x hx => ?_⟩
    by_cases hx' : x = id
    · subst hx'
      simp
    · simpa [hx'] using h.active_live x hx

theorem shutdownNext (h : s.LiveInv) : (homaSockShutdownNext s).1.LiveInv := by
  unfold homaSockShutdownNext
  split
  · exact h.rpcEnd _
  · exact h.quiet (homaSockWakeInterests_quiet s _)

theorem threadStep (h : s.LiveInv) {env : Env} {t : ℕ} {th : Thread}
    {r : Sock × Option Thread} (hr : th.step env t s = some r) : r.1.LiveInv := by
  unfold Thread.step at hr
  split at hr
  · cases hr
    exact h.quiet (homaWaitSharedLoop_quiet t th.nonblocking s)
  · obtain ⟨result, -, rfl⟩ := Option.map_eq_some_iff.1 hr
    split_ifs <;> exact h
  · cases hr
    exact h.quiet (homaWaitSharedUnlink_quiet t th.nonblocking s)
  · cases hr
    exact h.quiet (homaWaitSharedHanded_quiet t th.nonblocking s)
  · cases hr
    exact h.quiet (homaWaitSharedCopy_quiet env _ th.nonblocking s)
  · cases hr
    exact h.quiet (homaWaitPrivateLoop_quiet env t _ th.nonblocking s)
  · obtain ⟨result, -, rfl⟩ := Option.map_eq_some_iff.1 hr
    exact h
  · cases hr
    exact h.quiet (homaWaitPrivateWoken_quiet t _ th.nonblocking s _)
  · cases hr
    exact h.recvmsgFinish _
  · cases hr
    exact h.shutdownNext
  · split at hr
    · split_ifs at hr
      cases hr
      exact h
    · cases hr
      exact h.of_states rfl fun _ => rfl
  · cases hr
    exact h.scanRpc env _ _

end Sock.LiveInv

theorem Sys.step_liveInv {s s' : Sys} {a : Action} (hs : s.sock.LiveInv)
    (h : s.step a = some s') : s'.sock.LiveInv := by
  cases a with
  | recvmsg t id nb =>
      obtain ⟨-, rfl⟩ := Sys.start_eq_some h
      exact hs.quiet (homaRecvmsgStart_quiet id nb s.sock)
  | shutdown t =>
      obtain ⟨-, rfl⟩ := Sys.start_eq_some h
      exact hs.quiet (homaSockShutdownStart_quiet s.sock)
  | scan t kind =>
      obtain ⟨-, rfl⟩ := Sys.start_eq_some h
      exact hs.quiet (homaScanStart_quiet s.sock kind)
  | run t env =>
      obtain ⟨th, r, -, hr, rfl⟩ := Sys.step_run_eq_some h
      exact hs.threadStep hr
  | dataReady id idle =>
      simp only [Sys.step] at h
      split_ifs at h
      cases h
      exact hs.handoff idle id
  | rpcEnd id =>
      simp only [Sys.step] at h
      split_ifs at h
      cases h
      exact hs.rpcEnd id
  | reap id =>
      simp only [Sys.step] at h
      split_ifs at h
      cases h
      exact hs.of_states rfl fun _ => rfl

theorem Sys.Reachable.liveInv {s : Sys} (h : s.Reachable) : s.sock.LiveInv := by
  induction h with
  | init hinit => exact ⟨hinit.active_nodup, fun x _ => hinit.live x⟩
  | step _ hstep ih => exact Sys.step_liveInv ih hstep

/-! ## Which step links a dead RPC into `ready_rpcs` -/

theorem Thread.step_readyRpcs_mem {env : Env} {t : ℕ} {th : Thread} {s : Sock}
    {r : Sock × Option Thread} (hr : th.step env t s = some r) {y : ℕ}
    (hy : y ∈ r.1.readyRpcs) :
    y ∈ s.readyRpcs ∨
      ∃ kind, th.pc = .scanned kind y ∧ (r.1.rpc y).state = (s.rpc y).state ∧
        ∀ error, kind = .abortSockRpcs error → (s.rpc y).state ≠ .dead := by
  unfold Thread.step at hr
  split at hr
  · cases hr
    exact Or.inl ((homaWaitSharedLoop_quiet t th.nonblocking s).readyRpcs_subset hy)
  · obtain ⟨result, -, rfl⟩ := Option.map_eq_some_iff.1 hr
    left
    split_ifs at hy <;> exact hy
  · cases hr
    exact Or.inl ((homaWaitSharedUnlink_quiet t th.nonblocking s).readyRpcs_subset hy)
  · cases hr
    exact Or.inl ((homaWaitSharedHanded_quiet t th.nonblocking s).readyRpcs_subset hy)
  · cases hr
    exact Or.inl ((homaWaitSharedCopy_quiet env _ th.nonblocking s).readyRpcs_subset hy)
  · cases hr
    exact Or.inl ((homaWaitPrivateLoop_quiet env t _ th.nonblocking s).readyRpcs_subset hy)
  · obtain ⟨result, -, rfl⟩ := Option.map_eq_some_iff.1 hr
    exact Or.inl hy
  · cases hr
    exact Or.inl ((homaWaitPrivateWoken_quiet t _ th.nonblocking s _).readyRpcs_subset hy)
  · cases hr
    exact Or.inl (homaRecvmsgFinish_readyRpcs_subset _ s hy)
  · cases hr
    exact Or.inl (homaSockShutdownNext_readyRpcs_subset s hy)
  · split at hr
    · split_ifs at hr
      cases hr
      exact Or.inl hy
    · cases hr
      exact Or.inl hy
  · rename_i kind id hp
    cases hr
    rcases homaScanRpc_readyRpcs_mem id s env kind hy with hold | ⟨rfl, hstate, hcheck⟩
    · exact Or.inl hold
    · exact Or.inr ⟨kind, hp, hstate, hcheck⟩

/-- In a reachable state, a step that links a dead RPC into `ready_rpcs` is
the locked region of a scan of `homa_timer` or `homa_abort_rpcs` on the RPC
it fetched, which was already dead, and off `active_rpcs`, when the scan
locked it. -/
theorem Sys.step_links_dead_rpc {s s' : Sys} {a : Action} {id : ℕ} (hs : s.Reachable)
    (h : s.step a = some s') (hnew : id ∉ s.sock.readyRpcs) (hin : id ∈ s'.sock.readyRpcs)
    (hdead : (s'.sock.rpc id).state = .dead) :
    (s.sock.rpc id).state = .dead ∧ id ∉ s.sock.active ∧
      ∃ t env kind, a = .run t env ∧ s.pc t = some (.scanned kind id) ∧
        ∀ error, kind ≠ .abortSockRpcs error := by
  have hlive := hs.liveInv
  cases a with
  | recvmsg t id' nb =>
      obtain ⟨-, rfl⟩ := Sys.start_eq_some h
      exact absurd ((homaRecvmsgStart_quiet id' nb s.sock).readyRpcs_subset hin) hnew
  | shutdown t =>
      obtain ⟨-, rfl⟩ := Sys.start_eq_some h
      exact absurd ((homaSockShutdownStart_quiet s.sock).readyRpcs_subset hin) hnew
  | scan t kind =>
      obtain ⟨-, rfl⟩ := Sys.start_eq_some h
      exact absurd ((homaScanStart_quiet s.sock kind).readyRpcs_subset hin) hnew
  | run t env =>
      obtain ⟨th, r, hth, hr, rfl⟩ := Sys.step_run_eq_some h
      rcases Thread.step_readyRpcs_mem hr hin with hold | ⟨kind, hp, hstate, hcheck⟩
      · exact absurd hold hnew
      · -- the scan's region leaves the state: the RPC was dead when it was locked
        have hdead₀ : (s.sock.rpc id).state = .dead := hstate ▸ hdead
        refine ⟨hdead₀, fun hact => hlive.active_live id hact hdead₀, t, env, kind, rfl,
          by simp [Sys.pc, hth, hp], fun error hk => hcheck error hk hdead₀⟩
  | dataReady id' idle =>
      simp only [Sys.step] at h
      split_ifs at h with hact
      cases h
      obtain ⟨-, hstate, hready⟩ := homaRpcHandoff_quiet idle id' s.sock
      rcases hready id hin with hold | rfl
      · exact absurd hold hnew
      · -- `homa_data_pkt` hands off only an RPC it found on `active_rpcs`
        exact absurd ((hstate id).symm.trans hdead) (hlive.active_live id hact)
  | rpcEnd id' =>
      simp only [Sys.step] at h
      split_ifs at h
      cases h
      exact absurd (homaRpcEnd_readyRpcs_subset id' s.sock hin) hnew
  | reap id' =>
      simp only [Sys.step] at h
      split_ifs at h
      cases h
      exact absurd hin hnew

/-- `homa_abort_rpcs` fetches the client RPC 2 from `active_rpcs`; an ack
ends the RPC before the scan locks it; the scan then aborts it and finishes;
`homa_rpc_reap` runs. -/
def abortEndTrace : List Action :=
  [.scan 0 (.abortRpcs 7 0 (-etimedout)), .run 0 (testEnv (some 2)), .rpcEnd 2,
    .run 0 (testEnv none), .run 0 (testEnv none), .reap 2]

/-- After `abortEndTrace` the dead RPC 2 is on `ready_rpcs`, and
`homa_rpc_reap` has freed it there. -/
theorem homaAbortRpcs_reaps_ready_rpc :
    ∃ s : Sys, (Sys.ofRpcs [2] fun _ => testRpc false).run abortEndTrace = some s ∧
      s.Reachable ∧ (s.sock.rpc 2).state = .dead ∧ 2 ∈ s.sock.readyRpcs ∧
      2 ∉ s.sock.active ∧ 2 ∉ s.sock.dead := by
  refine ⟨_, rfl, (Sys.Reachable.init (testSys_init false)).run (l := abortEndTrace) rfl, ?_⟩
  decide

theorem Sys.step_links_dead_rpc_abortEnd :
    ∃ s s' : Sys, (Sys.ofRpcs [2] fun _ => testRpc false).run (abortEndTrace.take 3) = some s ∧
      s.step (.run 0 (testEnv none)) = some s' ∧ 2 ∉ s.sock.readyRpcs ∧
      2 ∈ s'.sock.readyRpcs ∧ (s'.sock.rpc 2).state = .dead ∧
      (s.sock.rpc 2).state = .dead ∧ 2 ∉ s.sock.active ∧
      ∃ t env kind, Action.run 0 (testEnv none) = .run t env ∧ s.pc t = some (.scanned kind 2) ∧
        ∀ error, kind ≠ .abortSockRpcs error := by
  refine ⟨_, _, rfl, rfl, ?hnew, ?hin, ?hdead, Sys.step_links_dead_rpc
    ((Sys.Reachable.init (testSys_init false)).run (l := abortEndTrace.take 3) rfl) rfl
    ?hnew ?hin ?hdead⟩
  all_goals decide

end Homa
