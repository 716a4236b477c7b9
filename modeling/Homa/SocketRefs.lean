import Homa.SocketDeadRpc

/-!
# References on an RPC across `homa_recvmsg`

`homa_recvmsg` takes a reference on the RPC it reads with `control.id`
nonzero, and `homa_wait_private` takes a second one that nothing drops: the
only `homa_rpc_put` on that path is the one at the end of `homa_recvmsg`.
-/

namespace Homa

/-- `homa_recvmsg` on the private client RPC 2, whose response has arrived
whole: the wait copies it out and returns it, and `homa_recvmsg` ends it. -/
def privateRecvTrace : List Action :=
  [.recvmsg 0 2 false, .run 0 (testEnv none), .run 0 (testEnv none)]

/-- After `privateRecvTrace` no thread is in the modelled code and the RPC is
dead, but it still has two references, so `homa_rpc_reap` cannot free it. -/
theorem homaRecvmsg_private_keeps_reference :
    ∃ s : Sys, (Sys.ofRpcs [2] fun _ => testRpc true).run privateRecvTrace = some s ∧
      s.Reachable ∧ (∀ t, s.thread t = none) ∧ (s.sock.rpc 2).state = .dead ∧
      2 ∈ s.sock.dead ∧ (s.sock.rpc 2).refs = 2 ∧ s.step (.reap 2) = none := by
  refine ⟨_, rfl, (Sys.Reachable.init (testSys_init true)).run (l := privateRecvTrace) rfl,
    fun t => ?_, by decide⟩
  by_cases ht : t = 0
  · subst ht
    rfl
  · simp [ht, Sys.ofRpcs]

end Homa
