import Homa.ProtocolAcks

/-!
# A request reaches the server application once per RPC the server creates

protocol.md states at-most-once semantics: a retransmitted request finds the
server's RPC and is not executed again.  What the code guarantees, over
every run of the two hosts, is weaker: the server application receives a
request a second time only if the server created the RPC again after having
ended it, which needs a request packet arriving after the end.

Such a packet needs no fault beyond delay.  In `redelivery` the request's
packet is held up; the client's RESEND meets no server RPC, is answered
RPC_UNKNOWN, and the client sends the request again, which is served and
acked.  The delayed original then arrives and `homa_rpc_alloc_server`
creates the RPC again.
-/

namespace Homa

namespace Protocol

namespace ServerHost

variable {h h' : ServerHost}

/-- No RPC goes back to receiving its request. -/
def NoRewind (h h' : ServerHost) : Prop :=
  ∀ x r r', h.rpcs x = some r → r.state ≠ .incoming → h'.rpcs x = some r' →
    r'.state ≠ .incoming

theorem Evolves.noRewind {id : ℕ} (he : Evolves id h h') : NoRewind h h' := by
  intro x r r' hr hinc hr'
  rcases he x r' hr' with ⟨r₀, hr₀, hs, -⟩ | ⟨hnone, -, -⟩
  · rw [hr, Option.some.injEq] at hr₀
    subst hr₀
    rw [hs]
    exact hinc
  · rw [hr] at hnone
    cases hnone

theorem noRewind_setRpc {id : ℕ} {r' : ServerRpc} (hr' : r'.state ≠ .incoming) (h : ServerHost) :
    NoRewind h (h.setRpc id (some r')) := by
  intro x r r₁ hr hinc hr₁
  by_cases hxid : x = id
  · subst hxid
    rw [setRpc_rpcs, Function.update_self, Option.some.injEq] at hr₁
    subst hr₁
    exact hr'
  · rw [setRpc_rpcs, Function.update_of_ne hxid, hr, Option.some.injEq] at hr₁
    subst hr₁
    exact hinc

end ServerHost

namespace RpcSys

variable {s s' : RpcSys}

/-- The server's history: a request handed to the application a second time
needed the RPC to be created again. -/
structure OnceInv (s : RpcSys) : Prop where
  served : ∀ id, 1 ≤ s.handed id →
    s.ended id = true ∨ ∃ r, s.server.rpcs id = some r ∧ r.state ≠ .incoming
  twice : ∀ id, 2 ≤ s.handed id → s.recreated id = true
  again : ∀ id, s.ended id = true → s.server.rpcs id ≠ none → s.recreated id = true

theorem OnceInv.init (hs : Init s) : OnceInv s := by
  refine ⟨fun id hid => ?_, fun id hid => ?_, fun id hend => ?_⟩
  · rw [hs.handed_eq id] at hid
    cases hid
  · rw [hs.handed_eq id] at hid
    cases hid
  · rw [hs.ended_eq id] at hend
    cases hend

theorem OnceInv.frame (hinv : OnceInv s) (hserver : s'.server = s.server)
    (hhanded : s'.handed = s.handed) (hended : s'.ended = s.ended)
    (hrecreated : s'.recreated = s.recreated) : OnceInv s' := by
  refine ⟨fun id hid => ?_, fun id hid => ?_, fun id hend hlive => ?_⟩
  · rw [hserver, hended]
    exact hinv.served id (hhanded ▸ hid)
  · rw [hrecreated]
    exact hinv.twice id (hhanded ▸ hid)
  · rw [hrecreated]
    exact hinv.again id (hended ▸ hend) (hserver ▸ hlive)

theorem OnceInv.withServer (hinv : OnceInv s) {h : ServerHost} (hnr : s.server.NoRewind h) :
    OnceInv (s.withServer h) := by
  refine ⟨fun x hx => ?_, fun x hx => ?_, fun x hend hlive => ?_⟩
  · rcases hinv.served x hx with hend | ⟨r, hr, hinc⟩
    · exact .inl (by simp [hend])
    · cases hh : h.rpcs x with
      | none => exact .inl (by simp [hr, hh])
      | some r' => exact .inr ⟨r', hh, hnr x r r' hr hinc hh⟩
  · simp [hinv.twice x hx]
  · -- an RPC the new table holds was not ended by this step
    have hlive' : h.rpcs x ≠ none := hlive
    have hend' : s.ended x = true := by
      simp only [withServer_ended, Bool.or_eq_true, Bool.and_eq_true,
        Option.isNone_iff_eq_none] at hend
      exact hend.resolve_right fun hgone => hlive' hgone.2
    cases hs : s.server.rpcs x with
    | none => simp [hend', hs, Option.ne_none_iff_isSome.mp hlive']
    | some r => simp [hinv.again x hend' (by simp [hs])]

theorem OnceInv.serverRecvmsg (hinv : OnceInv s) {id : ℕ} {r : ServerRpc}
    (hr : s.server.rpcs id = some r) (hstate : r.state = .incoming) :
    OnceInv { s.withServer (s.server.setRpc id (some { r with state := .inService })) with
      handed := Function.update s.handed id (s.handed id + 1) } := by
  have hw := hinv.withServer
    (@ServerHost.noRewind_setRpc id { r with state := .inService } (by simp) s.server)
  refine ⟨fun x hx => ?_, fun x hx => ?_, hw.again⟩
  · change 1 ≤ Function.update s.handed id (s.handed id + 1) x at hx
    by_cases hxid : x = id
    · subst hxid
      exact .inr ⟨{ r with state := .inService }, by simp, by simp⟩
    · rw [Function.update_of_ne hxid] at hx
      exact hw.served x hx
  · change 2 ≤ Function.update s.handed id (s.handed id + 1) x at hx
    by_cases hxid : x = id
    · subst hxid
      rw [Function.update_self] at hx
      -- the RPC is receiving its request, so the first delivery came from
      -- an RPC the server ended, and this one was created again
      have hend : s.ended x = true := by
        rcases hinv.served x (by omega) with hend | ⟨r₀, hr₀, hinc⟩
        · exact hend
        · rw [hr, Option.some.injEq] at hr₀
          subst hr₀
          exact absurd hstate hinc
      have hagain := hinv.again x hend (by simp [hr])
      simp [hagain]
    · rw [Function.update_of_ne hxid] at hx
      exact hw.twice x hx

variable (dport : ℕ)

theorem OnceInv.step (hinv : OnceInv s) (hstep : Step dport s s') : OnceInv s' := by
  cases hstep with
  | serverRecvmsg hr hstate hready => exact hinv.serverRecvmsg hr hstate
  | serverReply length hr hstate hlength =>
    exact hinv.withServer (ServerHost.noRewind_setRpc (by simp) _)
  | serverEnd id => exact hinv.withServer ((ServerHost.keeps_homaRpcEnd id _).evolves 0).noRewind
  | toServer l₁ l₂ p hnet poolErr bufs allocOk =>
    exact (hinv.withServer
      (ServerHost.homaDispatchPkt_evolves dport poolErr bufs allocOk s.server p).noRewind).frame
        rfl rfl rfl rfl
  | sendmsg | recvmsg | cancel | abort | clientXmit | clientResend | serverXmit
  | serverNeedAck | serverResend | toClient | dropToServer | dropToClient | dupToServer
  | dupToClient => exact hinv.frame rfl rfl rfl rfl

/-- The client RPC once it holds the response. -/
def witnessDoneRpc : ClientRpc :=
  { witnessClientRpc with state := .incoming, msgin := homaAddPacket ⟨1, [], [], 0, 1⟩ witnessSeg true }

end RpcSys

end Protocol

end Homa
