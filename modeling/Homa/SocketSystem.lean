import Homa.Socket

/-!
# Threads on a socket

The threads that touch a socket's RPCs interleave between their locked
regions, and `Sys.step` takes one region as one atomic step: of
`homa_recvmsg` and its waits, `homa_sock_shutdown`, a scan of `active_rpcs`
(`homa_timer`, `homa_abort_rpcs`, `homa_abort_sock_rpcs`), or the softirq
side.  A thread's place in its code is a `ThreadPc`; what the code reads from
outside the model comes with the step as an `Env`.
-/

namespace Homa

/-- A scan of `hsk->active_rpcs` under `homa_protect_rpcs`. -/
inductive ScanKind where
  /-- The RPC loop of `homa_timer`. -/
  | timer
  /-- `homa_abort_rpcs(homa, addr, port, error)` on this socket. -/
  | abortRpcs (addr port : ℕ) (error : ℤ)
  /-- `homa_abort_sock_rpcs(hsk, error)`. -/
  | abortSockRpcs (error : ℤ)
  deriving DecidableEq, Repr

inductive ThreadPc where
  /-- `homa_wait_shared`, at the top of its loop. -/
  | sharedLoop
  /-- `homa_wait_shared`, in `homa_interest_wait`. -/
  | sharedWaiting
  /-- `homa_interest_wait` returned the error `result`. -/
  | sharedWoken (result : ℤ)
  /-- The interest is ready: next, take `interest.rpc`. -/
  | sharedHanded
  /-- Holds a reference on `id`: next, lock it and copy its packets out. -/
  | sharedCopy (id : ℕ)
  /-- `homa_wait_private` on `id`, at the top of its loop, with `id` locked. -/
  | privateLoop (id : ℕ)
  /-- `homa_wait_private`, in `homa_interest_wait`. -/
  | privateWaiting (id : ℕ)
  /-- `homa_interest_wait` returned `result`: next, relock `id`. -/
  | privateWoken (id : ℕ) (result : ℤ)
  /-- The wait returned `id`, locked and referenced: the rest of
  `homa_recvmsg`. -/
  | received (id : ℕ)
  /-- `homa_sock_shutdown` after setting `shutdown`. -/
  | closing
  /-- A scan, between two RPCs. -/
  | scanning (kind : ScanKind)
  /-- A scan that fetched `id` from the RCU list and is about to lock it. -/
  | scanned (kind : ScanKind) (id : ℕ)
  deriving DecidableEq, Repr

structure Thread where
  pc : ThreadPc
  nonblocking : Bool
  deriving DecidableEq, Repr

/-- What a step reads from outside the model. -/
structure Env where
  /-- Which interests' cores are not busy, for `homa_choose_interest`. -/
  idle : ℕ → Bool
  /-- `homa_interest_wait` returns `-EINTR`. -/
  interrupted : Bool
  /-- The result of `homa_copy_to_pool` (or `homa_deliver_skbs`). -/
  copyError : ℤ
  /-- The incoming message is complete and all of it has been copied. -/
  complete : Bool
  /-- The RPC a scan fetches next, or `none` when it leaves the list. -/
  target : Option ℕ
  /-- The progress tests of `homa_timer_check_rpc` (see `homaTimerCheckRpc`). -/
  quiet : Bool
  resendTicks : ℕ
  timeoutTicks : ℕ

/-- The socket and the threads working on it; `thread t = none` when thread
`t` runs none of the modelled code. -/
structure Sys where
  sock : Sock
  thread : ℕ → Option Thread

/-- What one step does. -/
inductive Action where
  /-- Thread `t` enters `homa_recvmsg` with `control.id = id`. -/
  | recvmsg (t id : ℕ) (nonblocking : Bool)
  /-- Thread `t` enters `homa_sock_shutdown`. -/
  | shutdown (t : ℕ)
  /-- Thread `t` starts a scan. -/
  | scan (t : ℕ) (kind : ScanKind)
  /-- Thread `t` runs its next region. -/
  | run (t : ℕ) (env : Env)
  /-- `homa_data_pkt` on a live RPC queues its first packet and hands it off. -/
  | dataReady (id : ℕ) (idle : ℕ → Bool)
  /-- `homa_rpc_end` on a live RPC found by a lookup (an ack, an unknown-RPC
  packet). -/
  | rpcEnd (id : ℕ)
  /-- `homa_rpc_reap` frees a dead RPC. -/
  | reap (id : ℕ)

/-! ## The regions of `homa_recvmsg` -/

/-- The start of `homa_recvmsg` up to the first wait, with the RPC locked:
for a nonzero `control.id`, the lookup, hold and `homa_wait_private`. -/
def homaRecvmsgStart (id : ℕ) (nonblocking : Bool) (s : Sock) : Sock × Option Thread :=
  if id ≠ 0 then
    if homaIsClient id ∧ id ∈ s.active then
      let s := homaRpcHold id s
      if !(s.rpc id).isPrivate then (homaRpcPut id s, none)
      else (homaRpcHold id s, some ⟨.privateLoop id, nonblocking⟩)
    else (s, none)
  else (s, some ⟨.sharedLoop, nonblocking⟩)

/-- The top of the loop of `homa_wait_shared`, under the socket lock. -/
def homaWaitSharedLoop (t : ℕ) (nonblocking : Bool) (s : Sock) : Sock × Option Thread :=
  if s.shutdown then (s, none)
  else
    match s.readyRpcs with
    | id :: rest =>
        let s := homaRpcHold id { s with readyRpcs := rest }
        (s.updateRpc id (fun rpc => { rpc with readyLinks := .unlinked }),
          some ⟨.sharedCopy id, nonblocking⟩)
    | [] =>
        if nonblocking then (s, none)
        else (homaInterestInitShared t s, some ⟨.sharedWaiting, nonblocking⟩)

/-- `homa_interest_wait` returns: with 0 only once the interest is ready,
with `-EINTR` at any time. -/
def homaInterestWait (env : Env) (ready : Bool) : Option ℤ :=
  if env.interrupted then some (-eintr)
  else if ready then some 0
  else none

/-- After an error from `homa_interest_wait`: unlink the interest under the
socket lock and check whether a handoff came in meanwhile. -/
def homaWaitSharedUnlink (t : ℕ) (nonblocking : Bool) (s : Sock) : Sock × Option Thread :=
  let s := homaInterestUnlinkShared t s
  if !(s.interest t).ready then (s, none)
  else (s, some ⟨.sharedHanded, nonblocking⟩)

/-- `rpc = interest.rpc`: an interest woken without an RPC was woken by
`homa_sock_shutdown`. -/
def homaWaitSharedHanded (t : ℕ) (nonblocking : Bool) (s : Sock) : Sock × Option Thread :=
  match (s.interest t).rpc with
  | none => (s, none)
  | some id => (s, some ⟨.sharedCopy id, nonblocking⟩)

/-- `homa_copy_to_pool` (or `homa_deliver_skbs`) on an RPC without an error. -/
def homaCopyOut (env : Env) (id : ℕ) (s : Sock) : Sock :=
  if (s.rpc id).error = 0 then s.updateRpc id fun rpc => { rpc with error := env.copyError }
  else s

/-- The rest of the loop of `homa_wait_shared`, with `id` locked: return it,
or drop the reference and go round again. -/
def homaWaitSharedCopy (env : Env) (id : ℕ) (nonblocking : Bool) (s : Sock) :
    Sock × Option Thread :=
  let s := homaCopyOut env id s
  if (s.rpc id).error ≠ 0 then
    if (s.rpc id).state ≠ .dead then (s, some ⟨.received id, nonblocking⟩)
    else (homaRpcPut id s, some ⟨.sharedLoop, nonblocking⟩)
  else if env.complete then (s, some ⟨.received id, nonblocking⟩)
  else (homaRpcPut id s, some ⟨.sharedLoop, nonblocking⟩)

/-- The top of the loop of `homa_wait_private`, with `id` locked; leaving
with an error goes to the end of `homa_recvmsg`, which drops its reference. -/
def homaWaitPrivateLoop (env : Env) (t id : ℕ) (nonblocking : Bool) (s : Sock) :
    Sock × Option Thread :=
  let s := homaCopyOut env id s
  if (s.rpc id).error ≠ 0 then (homaRpcPut id s, none)
  else if env.complete then (s, some ⟨.received id, nonblocking⟩)
  else if nonblocking then (homaRpcPut id s, none)
  else
    match (s.rpc id).privateInterest with
    | some _ => (homaRpcPut id s, none)
    | none =>
        ((s.updateRpc id fun rpc => { rpc with privateInterest := some t }).setInterest t
            ⟨some id, false⟩,
          some ⟨.privateWaiting id, nonblocking⟩)

/-- After `homa_interest_wait` in `homa_wait_private`: relock `id`, unlink
the interest, and give up on an error unless the interest became ready. -/
def homaWaitPrivateWoken (t id : ℕ) (result : ℤ) (nonblocking : Bool) (s : Sock) :
    Sock × Option Thread :=
  let s := if (s.rpc id).privateInterest = some t then
      s.updateRpc id fun rpc => { rpc with privateInterest := none }
    else s
  if result ≠ 0 ∧ !(s.interest t).ready then (homaRpcPut id s, none)
  else (s, some ⟨.privateLoop id, nonblocking⟩)

/-- The end of `homa_recvmsg` for the RPC the wait returned: a client RPC
is ended, a server RPC is ended on an error and otherwise put in service;
then the reference is dropped. -/
def homaRecvmsgFinish (id : ℕ) (s : Sock) : Sock :=
  let s := if homaIsClient id then homaRpcEnd id s
    else if (s.rpc id).error < 0 then homaRpcEnd id s
    else s.updateRpc id fun rpc => { rpc with state := .inService }
  homaRpcPut id s

/-! ## The regions of `homa_sock_shutdown` and of the scans -/

/-- The first region of `homa_sock_shutdown`. -/
def homaSockShutdownStart (s : Sock) : Sock × Option Thread :=
  if s.shutdown then (s, none)
  else ({ s with shutdown := true }, some ⟨.closing, false⟩)

/-- The rest of `homa_sock_shutdown`: end the RPCs of `active_rpcs` one by
one, then wake every waiting interest. -/
def homaSockShutdownNext (s : Sock) : Sock × Option Thread :=
  match s.active with
  | id :: _ => (homaRpcEnd id s, some ⟨.closing, false⟩)
  | [] => (homaSockWakeInterests s s.interests, none)

/-- The start of a scan: skip an empty `active_rpcs`, then
`homa_protect_rpcs`, which fails on a shut-down socket. -/
def homaScanStart (kind : ScanKind) (s : Sock) : Sock × Option Thread :=
  if s.active = [] then (s, none)
  else if s.shutdown then (s, none)
  else ({ s with protectCount := s.protectCount + 1 }, some ⟨.scanning kind, false⟩)

/-- The locked region of a scan on the RPC `id`. -/
def homaScanRpc (env : Env) (kind : ScanKind) (id : ℕ) (s : Sock) : Sock :=
  match kind with
  | .timer =>
      if (s.rpc id).state = .inService then
        s.updateRpc id fun rpc => { rpc with silentTicks := 0 }
      else
        homaTimerCheckRpc env.idle env.resendTicks env.timeoutTicks env.quiet id
          (s.updateRpc id fun rpc => { rpc with silentTicks := rpc.silentTicks + 1 })
  | .abortRpcs addr port error =>
      if (s.rpc id).peer ≠ addr then s
      else if port ≠ 0 ∧ (s.rpc id).dport ≠ port then s
      else homaRpcAbort env.idle id error s
  | .abortSockRpcs error =>
      if !homaIsClient id then s
      else if (s.rpc id).state = .dead then s
      else if error ≠ 0 then homaRpcAbort env.idle id error s
      else homaRpcEnd id s

/-! ## One step -/

/-- The next region of a thread. -/
def Thread.step (env : Env) (t : ℕ) (th : Thread) (s : Sock) : Option (Sock × Option Thread) :=
  match th.pc with
  | .sharedLoop => some (homaWaitSharedLoop t th.nonblocking s)
  | .sharedWaiting =>
      (homaInterestWait env (s.interest t).ready).map fun result =>
        if result ≠ 0 then (s, some ⟨.sharedWoken result, th.nonblocking⟩)
        else (s, some ⟨.sharedHanded, th.nonblocking⟩)
  | .sharedWoken _ => some (homaWaitSharedUnlink t th.nonblocking s)
  | .sharedHanded => some (homaWaitSharedHanded t th.nonblocking s)
  | .sharedCopy id => some (homaWaitSharedCopy env id th.nonblocking s)
  | .privateLoop id => some (homaWaitPrivateLoop env t id th.nonblocking s)
  | .privateWaiting id =>
      (homaInterestWait env (s.interest t).ready).map fun result =>
        (s, some ⟨.privateWoken id result, th.nonblocking⟩)
  | .privateWoken id result => some (homaWaitPrivateWoken t id result th.nonblocking s)
  | .received id => some (homaRecvmsgFinish id s, none)
  | .closing => some (homaSockShutdownNext s)
  | .scanning kind =>
      match env.target with
      | some id =>
          if id ∈ s.active then some (s, some ⟨.scanned kind id, false⟩) else none
      | none => some ({ s with protectCount := s.protectCount - 1 }, none)
  | .scanned kind id => some (homaScanRpc env kind id s, some ⟨.scanning kind, false⟩)

/-- Start a thread that runs none of the modelled code. -/
def Sys.start (s : Sys) (t : ℕ) (f : Sock → Sock × Option Thread) : Option Sys :=
  match s.thread t with
  | some _ => none
  | none =>
      let r := f s.sock
      some { sock := r.1, thread := Function.update s.thread t r.2 }

/-- One step of the system, or `none` when the action cannot be taken. -/
def Sys.step (s : Sys) : Action → Option Sys
  | .recvmsg t id nonblocking => s.start t (homaRecvmsgStart id nonblocking)
  | .shutdown t => s.start t homaSockShutdownStart
  | .scan t kind => s.start t (homaScanStart kind)
  | .run t env =>
      match s.thread t with
      | none => none
      | some th =>
          (th.step env t s.sock).map fun r =>
            { sock := r.1, thread := Function.update s.thread t r.2 }
  | .dataReady id idle =>
      if id ∈ s.sock.active then some { s with sock := homaRpcHandoff idle id s.sock } else none
  | .rpcEnd id =>
      if id ∈ s.sock.active then some { s with sock := homaRpcEnd id s.sock } else none
  | .reap id =>
      if s.sock.protectCount = 0 ∧ id ∈ s.sock.dead ∧ (s.sock.rpc id).refs ≤ 1 then
        some { s with sock := { s.sock with dead := s.sock.dead.erase id } }
      else none

theorem Sys.start_eq_some {s s' : Sys} {t : ℕ} {f : Sock → Sock × Option Thread}
    (h : s.start t f = some s') :
    s.thread t = none ∧
      s' = { sock := (f s.sock).1, thread := Function.update s.thread t (f s.sock).2 } := by
  unfold Sys.start at h
  split at h
  · cases h
  · rename_i hnone
    cases h
    exact ⟨hnone, rfl⟩

theorem Sys.step_run_eq_some {s s' : Sys} {t : ℕ} {env : Env}
    (h : s.step (.run t env) = some s') :
    ∃ th r, s.thread t = some th ∧ th.step env t s.sock = some r ∧
      s' = { sock := r.1, thread := Function.update s.thread t r.2 } := by
  simp only [Sys.step] at h
  split at h
  · cases h
  · rename_i th hth
    cases hr : th.step env t s.sock with
    | none => simp [hr] at h
    | some r =>
        simp only [hr, Option.map_some, Option.some.injEq] at h
        exact ⟨th, r, hth, hr, h.symm⟩

/-- A socket before any of the modelled code has run on it: live RPCs with
empty `ready_links` and no private interest, and no thread, interest or
scan. -/
structure Sys.Init (s : Sys) : Prop where
  shutdown_eq : s.sock.shutdown = false
  protectCount_eq : s.sock.protectCount = 0
  dead_eq : s.sock.dead = []
  readyRpcs_eq : s.sock.readyRpcs = []
  interests_eq : s.sock.interests = []
  thread_eq : ∀ t, s.thread t = none
  active_nodup : s.sock.active.Nodup
  live : ∀ id, (s.sock.rpc id).state ≠ .dead
  unlinked : ∀ id, (s.sock.rpc id).readyLinks = .unlinked
  privateInterest_eq : ∀ id, (s.sock.rpc id).privateInterest = none

/-- A socket with the RPCs `active`, each as `rpc` gives it, before any of
the modelled code has run. -/
def Sys.ofRpcs (active : List ℕ) (rpc : ℕ → Rpc) : Sys :=
  { sock :=
      { shutdown := false, protectCount := 0, rpc, active, dead := [], readyRpcs := []
        interests := [], interest := fun _ => ⟨none, false⟩ }
    thread := fun _ => none }

theorem Sys.ofRpcs_init {active : List ℕ} {rpc : ℕ → Rpc} (hnodup : active.Nodup)
    (hlive : ∀ id, (rpc id).state ≠ .dead) (hunlinked : ∀ id, (rpc id).readyLinks = .unlinked)
    (hpriv : ∀ id, (rpc id).privateInterest = none) : (Sys.ofRpcs active rpc).Init where
  shutdown_eq := rfl
  protectCount_eq := rfl
  dead_eq := rfl
  readyRpcs_eq := rfl
  interests_eq := rfl
  thread_eq _ := rfl
  active_nodup := hnodup
  live := hlive
  unlinked := hunlinked
  privateInterest_eq := hpriv

/-- A live RPC of the unit tests' client: id 2, peer 7, port 99. -/
def testRpc (isPrivate : Bool) : Rpc :=
  { state := .outgoing, error := 0, isPrivate, refs := 1, readyLinks := .unlinked
    privateInterest := none, peer := 7, dport := 99, silentTicks := 0 }

theorem testSys_init (isPrivate : Bool) :
    (Sys.ofRpcs [2] fun _ => testRpc isPrivate).Init :=
  Sys.ofRpcs_init (List.nodup_singleton 2) (fun _ => by simp [testRpc])
    (fun _ => rfl) (fun _ => rfl)

/-- Every core idle, no signal, and copies that succeed and finish the
message; `target` is the RPC a scan fetches next. -/
def testEnv (target : Option ℕ) : Env :=
  { idle := fun _ => true, interrupted := false, copyError := 0, complete := true, target
    quiet := false, resendTicks := 0, timeoutTicks := 0 }

/-- The states a socket reaches from an initial one. -/
inductive Sys.Reachable : Sys → Prop where
  | init {s : Sys} : s.Init → Sys.Reachable s
  | step {s s' : Sys} {a : Action} : Sys.Reachable s → s.step a = some s' → Sys.Reachable s'

def Sys.run : Sys → List Action → Option Sys
  | s, [] => some s
  | s, a :: rest => (s.step a).bind (·.run rest)

theorem Sys.Reachable.run {s s' : Sys} {l : List Action} (hs : s.Reachable)
    (hrun : s.run l = some s') : s'.Reachable := by
  induction l generalizing s with
  | nil =>
      simp only [Sys.run, Option.some.injEq] at hrun
      exact hrun ▸ hs
  | cons a rest ih =>
      simp only [Sys.run] at hrun
      cases hstep : s.step a with
      | none => simp [hstep] at hrun
      | some s₁ =>
          rw [hstep, Option.bind_some] at hrun
          exact ih (hs.step hstep) hrun

end Homa
