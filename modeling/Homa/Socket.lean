import Mathlib
import Homa.MessageIn

/-!
# A socket's RPCs, interests and ready queue

The state `homa_rpc_handoff`, `homa_rpc_end`, `homa_rpc_abort`,
`homa_sock_shutdown` and the waits of `homa_recvmsg` share.  RPCs are named
by their ids and a thread's `homa_interest` by the thread.  `ready_links` is
modelled by where it points: `list_del_init` links it to itself, while
`__list_del_entry`, which `homa_rpc_end` uses, leaves it at its old
neighbours, where `list_empty` is false.
-/

namespace Homa

def eintr : ℤ := 4
def eagain : ℤ := 11
def eshutdown : ℤ := 108
def etimedout : ℤ := 110

inductive RpcState where
  | outgoing
  | incoming
  | inService
  | dead
  deriving DecidableEq, Repr

/-- Where `rpc->ready_links` points. -/
inductive ReadyLinks where
  /-- At itself: `list_empty(&rpc->ready_links)` holds. -/
  | unlinked
  /-- Into `hsk->ready_rpcs`. -/
  | queued
  /-- At the neighbours it had on `ready_rpcs` before `__list_del_entry`. -/
  | stale
  deriving DecidableEq, Repr

/-- The fields of `struct homa_rpc` that the handoff, the waits and the scans
read or write. -/
structure Rpc where
  state : RpcState
  error : ℤ
  isPrivate : Bool
  refs : ℕ
  readyLinks : ReadyLinks
  privateInterest : Option ℕ
  peer : ℕ
  dport : ℕ
  silentTicks : ℕ
  deriving DecidableEq, Repr

/-- `struct homa_interest`: the RPC it holds and its `ready` flag. -/
structure Interest where
  rpc : Option ℕ
  ready : Bool
  deriving DecidableEq, Repr

/-- `struct homa_sock`, with the RPCs it owns. -/
structure Sock where
  shutdown : Bool
  protectCount : ℕ
  rpc : ℕ → Rpc
  active : List ℕ
  dead : List ℕ
  readyRpcs : List ℕ
  interests : List ℕ
  interest : ℕ → Interest

def homaIsClient (id : ℕ) : Bool :=
  id &&& 1 == 0

namespace Sock

def updateRpc (s : Sock) (id : ℕ) (f : Rpc → Rpc) : Sock :=
  { s with rpc := Function.update s.rpc id (f (s.rpc id)) }

def setInterest (s : Sock) (t : ℕ) (i : Interest) : Sock :=
  { s with interest := Function.update s.interest t i }

variable (s : Sock) (id : ℕ) (f : Rpc → Rpc) (t : ℕ) (i : Interest)

@[simp] theorem updateRpc_rpc (r : ℕ) :
    (s.updateRpc id f).rpc r = if r = id then f (s.rpc id) else s.rpc r := by
  by_cases h : r = id
  · subst h
    simp [updateRpc]
  · simp [updateRpc, h]

@[simp] theorem updateRpc_shutdown : (s.updateRpc id f).shutdown = s.shutdown := rfl
@[simp] theorem updateRpc_protectCount : (s.updateRpc id f).protectCount = s.protectCount := rfl
@[simp] theorem updateRpc_active : (s.updateRpc id f).active = s.active := rfl
@[simp] theorem updateRpc_dead : (s.updateRpc id f).dead = s.dead := rfl
@[simp] theorem updateRpc_readyRpcs : (s.updateRpc id f).readyRpcs = s.readyRpcs := rfl
@[simp] theorem updateRpc_interests : (s.updateRpc id f).interests = s.interests := rfl
@[simp] theorem updateRpc_interest : (s.updateRpc id f).interest = s.interest := rfl

@[simp] theorem setInterest_interest (u : ℕ) :
    (s.setInterest t i).interest u = if u = t then i else s.interest u := by
  by_cases h : u = t
  · subst h
    simp [setInterest]
  · simp [setInterest, h]

@[simp] theorem setInterest_shutdown : (s.setInterest t i).shutdown = s.shutdown := rfl
@[simp] theorem setInterest_protectCount :
    (s.setInterest t i).protectCount = s.protectCount := rfl
@[simp] theorem setInterest_rpc : (s.setInterest t i).rpc = s.rpc := rfl
@[simp] theorem setInterest_active : (s.setInterest t i).active = s.active := rfl
@[simp] theorem setInterest_dead : (s.setInterest t i).dead = s.dead := rfl
@[simp] theorem setInterest_readyRpcs : (s.setInterest t i).readyRpcs = s.readyRpcs := rfl
@[simp] theorem setInterest_interests : (s.setInterest t i).interests = s.interests := rfl

end Sock

/-! ## The operations -/

def homaRpcHold (id : ℕ) (s : Sock) : Sock :=
  s.updateRpc id fun rpc => { rpc with refs := rpc.refs + 1 }

def homaRpcPut (id : ℕ) (s : Sock) : Sock :=
  s.updateRpc id fun rpc => { rpc with refs := rpc.refs - 1 }

/-- `homa_interest_init_shared`: `list_add` puts the interest first. -/
def homaInterestInitShared (t : ℕ) (s : Sock) : Sock :=
  { s.setInterest t ⟨none, false⟩ with interests := t :: s.interests }

def homaInterestUnlinkShared (t : ℕ) (s : Sock) : Sock :=
  { s with interests := s.interests.erase t }

/-- `homa_choose_interest`: the first interest whose core is not busy
(`idle`, which reads the per-core clocks), else the first. -/
def homaChooseInterest (idle : ℕ → Bool) (first : ℕ) (rest : List ℕ) : ℕ :=
  ((first :: rest).find? idle).getD first

def homaInterestNotifyPrivate (id : ℕ) (s : Sock) : Sock :=
  match (s.rpc id).privateInterest with
  | none => s
  | some t => s.setInterest t { s.interest t with ready := true }

/-- `homa_rpc_handoff`: hand a shared RPC to a waiting thread, or else queue
it on `ready_rpcs` unless its `ready_links` are not empty. -/
def homaRpcHandoff (idle : ℕ → Bool) (id : ℕ) (s : Sock) : Sock :=
  if (s.rpc id).isPrivate then homaInterestNotifyPrivate id s
  else if s.shutdown then s
  else
    match s.interests with
    | first :: rest =>
        let t := homaChooseInterest idle first rest
        homaRpcHold id ({ s with interests := s.interests.erase t }.setInterest t ⟨some id, true⟩)
    | [] =>
        if (s.rpc id).readyLinks = .unlinked then
          { s with readyRpcs := s.readyRpcs ++ [id] }.updateRpc id fun rpc =>
            { rpc with readyLinks := .queued }
        else s

/-- `__list_del_entry(&rpc->ready_links)`, as seen from the RPC. -/
def ReadyLinks.delEntry : ReadyLinks → ReadyLinks
  | .queued => .stale
  | links => links

/-- `homa_rpc_end`: mark the RPC dead and unlink it from the socket's lists. -/
def homaRpcEnd (id : ℕ) (s : Sock) : Sock :=
  if (s.rpc id).state = .dead then s
  else
    homaInterestNotifyPrivate id
      { s.updateRpc id (fun rpc =>
          { rpc with state := .dead, error := -einval, readyLinks := rpc.readyLinks.delEntry }) with
        active := s.active.erase id
        dead := s.dead ++ [id]
        readyRpcs :=
          if (s.rpc id).readyLinks = .queued then s.readyRpcs.erase id else s.readyRpcs }

/-- `homa_rpc_abort`: a server RPC is ended; a client RPC gets the error and
is handed to the application. -/
def homaRpcAbort (idle : ℕ → Bool) (id : ℕ) (error : ℤ) (s : Sock) : Sock :=
  if !homaIsClient id then homaRpcEnd id s
  else homaRpcHandoff idle id (s.updateRpc id fun rpc => { rpc with error })

/-- The loop at the end of `homa_sock_shutdown` that wakes every waiting
interest. -/
def homaSockWakeInterests (s : Sock) : List ℕ → Sock
  | [] => { s with interests := [] }
  | t :: rest => homaSockWakeInterests (s.setInterest t { s.interest t with ready := true }) rest

/-- How the timer decides for the RPC it has locked; `quiet` stands for the
tests of `homa_timer_check_rpc` on the messages' progress. -/
def homaTimerCheckRpc (idle : ℕ → Bool) (resendTicks timeoutTicks : ℕ) (quiet : Bool)
    (id : ℕ) (s : Sock) : Sock :=
  let rpc := s.rpc id
  let silence := s.updateRpc id fun rpc => { rpc with silentTicks := 0 }
  if rpc.state = .incoming ∧ quiet then silence
  else if rpc.state ≠ .incoming ∧ !homaIsClient id then silence
  else if rpc.state = .outgoing ∧ quiet then silence
  else if rpc.silentTicks < resendTicks then s
  else if rpc.silentTicks ≥ timeoutTicks then homaRpcAbort idle id (-etimedout) s
  else s

/-! ## What the operations change -/

section Spec

variable (idle : ℕ → Bool) (id : ℕ) (s : Sock)

theorem homaChooseInterest_mem (first : ℕ) (rest : List ℕ) :
    homaChooseInterest idle first rest ∈ first :: rest := by
  unfold homaChooseInterest
  cases h : (first :: rest).find? idle with
  | none => exact List.mem_cons_self
  | some t => exact List.mem_of_find?_eq_some h

theorem homaRpcHandoff_of_ne_nil (hpriv : (s.rpc id).isPrivate = false)
    (hshut : s.shutdown = false) (hne : s.interests ≠ []) :
    ∃ t ∈ s.interests, homaRpcHandoff idle id s =
      homaRpcHold id ({ s with interests := s.interests.erase t }.setInterest t ⟨some id, true⟩) := by
  obtain ⟨first, rest, hcons⟩ := List.exists_cons_of_ne_nil hne
  refine ⟨homaChooseInterest idle first rest, hcons ▸ homaChooseInterest_mem idle first rest, ?_⟩
  unfold homaRpcHandoff
  rw [if_neg (by simp [hpriv]), if_neg (by simp [hshut])]
  split
  · rename_i first' rest' hcons'
    rw [hcons] at hcons'
    cases hcons'
    rfl
  · rename_i hnil
    exact absurd hnil hne

theorem homaRpcHandoff_of_nil (hpriv : (s.rpc id).isPrivate = false)
    (hshut : s.shutdown = false) (hnil : s.interests = []) :
    homaRpcHandoff idle id s =
      if (s.rpc id).readyLinks = .unlinked then
        { s with readyRpcs := s.readyRpcs ++ [id] }.updateRpc id fun rpc =>
          { rpc with readyLinks := .queued }
      else s := by
  unfold homaRpcHandoff
  rw [if_neg (by simp [hpriv]), if_neg (by simp [hshut]), hnil]

theorem homaRpcHandoff_of_private (hpriv : (s.rpc id).isPrivate = true) :
    homaRpcHandoff idle id s = homaInterestNotifyPrivate id s := by
  unfold homaRpcHandoff
  rw [if_pos hpriv]

theorem homaRpcHandoff_of_shutdown (hpriv : (s.rpc id).isPrivate = false)
    (hshut : s.shutdown = true) : homaRpcHandoff idle id s = s := by
  unfold homaRpcHandoff
  rw [if_neg (by simp [hpriv]), if_pos hshut]

theorem homaRpcEnd_of_dead (hdead : (s.rpc id).state = .dead) : homaRpcEnd id s = s := by
  unfold homaRpcEnd
  rw [if_pos hdead]

theorem homaRpcEnd_of_live (hlive : (s.rpc id).state ≠ .dead) :
    homaRpcEnd id s =
      homaInterestNotifyPrivate id
        { s.updateRpc id (fun rpc =>
            { rpc with state := .dead, error := -einval, readyLinks := rpc.readyLinks.delEntry }) with
          active := s.active.erase id
          dead := s.dead ++ [id]
          readyRpcs :=
            if (s.rpc id).readyLinks = .queued then s.readyRpcs.erase id else s.readyRpcs } := by
  unfold homaRpcEnd
  rw [if_neg hlive]

@[simp] theorem homaInterestNotifyPrivate_rpc : (homaInterestNotifyPrivate id s).rpc = s.rpc := by
  unfold homaInterestNotifyPrivate
  split <;> rfl

@[simp] theorem homaInterestNotifyPrivate_readyRpcs :
    (homaInterestNotifyPrivate id s).readyRpcs = s.readyRpcs := by
  unfold homaInterestNotifyPrivate
  split <;> rfl

@[simp] theorem homaInterestNotifyPrivate_interests :
    (homaInterestNotifyPrivate id s).interests = s.interests := by
  unfold homaInterestNotifyPrivate
  split <;> rfl

@[simp] theorem homaInterestNotifyPrivate_shutdown :
    (homaInterestNotifyPrivate id s).shutdown = s.shutdown := by
  unfold homaInterestNotifyPrivate
  split <;> rfl

theorem homaInterestNotifyPrivate_interest (u : ℕ) :
    (homaInterestNotifyPrivate id s).interest u =
      if (s.rpc id).privateInterest = some u then { s.interest u with ready := true }
      else s.interest u := by
  unfold homaInterestNotifyPrivate
  split
  · rename_i h
    simp [h]
  · rename_i t h
    by_cases hu : u = t
    · subst hu
      simp [h]
    · simp [h, hu, Ne.symm hu]

/-- Waking the interests of `l` marks each of them ready and empties
`interests`; nothing else changes. -/
theorem homaSockWakeInterests_eq (l : List ℕ) :
    homaSockWakeInterests s l =
      { s with
        interests := []
        interest := fun u =>
          if u ∈ l then { s.interest u with ready := true } else s.interest u } := by
  induction l generalizing s with
  | nil => simp [homaSockWakeInterests]
  | cons t rest ih =>
      rw [homaSockWakeInterests, ih]
      simp only [Sock.setInterest, Sock.mk.injEq, true_and]
      funext u
      by_cases hu : u = t
      · subst hu
        by_cases hrest : u ∈ rest <;> simp [hrest]
      · simp [hu]

theorem homaSockWakeInterests_interests (l : List ℕ) :
    (homaSockWakeInterests s l).interests = [] := by
  rw [homaSockWakeInterests_eq]

theorem homaSockWakeInterests_interest (l : List ℕ) (u : ℕ) :
    (homaSockWakeInterests s l).interest u =
      if u ∈ l then { s.interest u with ready := true } else s.interest u := by
  rw [homaSockWakeInterests_eq]

@[simp] theorem homaSockWakeInterests_rpc (l : List ℕ) :
    (homaSockWakeInterests s l).rpc = s.rpc := by
  rw [homaSockWakeInterests_eq]

@[simp] theorem homaSockWakeInterests_readyRpcs (l : List ℕ) :
    (homaSockWakeInterests s l).readyRpcs = s.readyRpcs := by
  rw [homaSockWakeInterests_eq]

@[simp] theorem homaSockWakeInterests_shutdown (l : List ℕ) :
    (homaSockWakeInterests s l).shutdown = s.shutdown := by
  rw [homaSockWakeInterests_eq]

end Spec

end Homa
