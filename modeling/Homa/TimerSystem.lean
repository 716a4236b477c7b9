import Homa.Timer
import Homa.Transition

/-!
# The timer among the other threads of a host

`homa_timer` runs one pass per tick, visiting each RPC at most once, while
other threads change the same RPCs in between.  Of an RPC's fields the timer
owns `silent_ticks`, which only `homa_dispatch_pkts` clears on a DATA, GRANT
or BUSY packet, and `done_timer_ticks`.  `TimerSys.Step` interleaves the
start of a pass, the visit of one RPC, such an arrival, any other change,
and the creation of a zeroed RPC.  A state also counts the passes begun, the
RPCs the pass may still visit, and the pass in which each RPC last heard
from its peer; `SilenceInv` bounds `silent_ticks` by the passes since.
-/

namespace Homa

open Transition

/-- What the timer and the code that races with it see of a host. -/
structure TimerSys where
  rpc : ℕ → Option TimerRpc
  /-- `homa->timer_ticks`, a `u32`. -/
  timerTicks : ℕ
  /-- The passes of `homa_timer` begun so far. -/
  passes : ℕ
  /-- The RPCs the running pass may still visit. -/
  due : ℕ → Bool
  /-- The pass during which each RPC last heard from its peer, or was
  created. -/
  heard : ℕ → ℕ

namespace TimerSys

variable (cfg : TimerConfig)

@[simps -fullyApplied]
def setRpc (s : TimerSys) (id : ℕ) (r : TimerRpc) : TimerSys :=
  { s with rpc := Function.update s.rpc id (some r) }

/-- The start of `homa_timer`: `timer_ticks++`, and every RPC may be visited
once more. -/
def pass (s : TimerSys) : TimerSys :=
  { s with timerTicks := (s.timerTicks + 1) % 2 ^ 32, passes := s.passes + 1, due := fun _ => true }

/-- The visit of `homa_timer` to RPC `id` under its lock: the loop body, and
`homa_rpc_abort` on a timeout.  `held` is what the driver still holds of the
RPC's outgoing packets. -/
def visit (held : ℕ → Bool) (id : ℕ) (s : TimerSys) : TimerSys :=
  match s.rpc id with
  | none => s
  | some r =>
    let pass := TimerRpc.homaTimerRpc cfg held id s.timerTicks r
    let r' := if TimerAction.abort ∈ pass.2 then TimerRpc.timerAbort id pass.1 else pass.1
    { s.setRpc id r' with due := Function.update s.due id false }

/-- `homa_dispatch_pkts` on a DATA, GRANT or BUSY packet for RPC `id`:
`silent_ticks` is cleared, and the handler leaves the RPC as `r'` but for the
timer's fields. -/
def arrive (id : ℕ) (r' : TimerRpc) (s : TimerSys) : TimerSys :=
  match s.rpc id with
  | none => s
  | some r =>
    { s.setRpc id { r' with silentTicks := 0, doneTimerTicks := r.doneTimerTicks } with
      heard := Function.update s.heard id s.passes }

/-- Any other code changing RPC `id` to `r'`: it leaves the timer's fields
alone. -/
def other (id : ℕ) (r' : TimerRpc) (s : TimerSys) : TimerSys :=
  match s.rpc id with
  | none => s
  | some r => s.setRpc id { r' with silentTicks := r.silentTicks, doneTimerTicks := r.doneTimerTicks }

/-- A new RPC `id`, zeroed where the timer looks. -/
def create (id : ℕ) (r : TimerRpc) (s : TimerSys) : TimerSys :=
  { s.setRpc id { r with silentTicks := 0, doneTimerTicks := 0 } with
    heard := Function.update s.heard id s.passes }

/-- One step of the host as far as the timer goes. -/
inductive Step : TimerSys → TimerSys → Prop
  | pass {s : TimerSys} : Step s s.pass
  | visit {s : TimerSys} {id : ℕ} {r : TimerRpc} (held : ℕ → Bool) (hdue : s.due id = true)
      (hrpc : s.rpc id = some r) (hlive : r.state ≠ .dead) : Step s (s.visit cfg held id)
  | arrive {s : TimerSys} (id : ℕ) (r' : TimerRpc) : Step s (s.arrive id r')
  | other {s : TimerSys} (id : ℕ) (r' : TimerRpc) : Step s (s.other id r')
  | create {s : TimerSys} {id : ℕ} (hfresh : s.rpc id = none) (r : TimerRpc) : Step s (s.create id r)

/-- A host before its first tick: `homa_init` has zeroed `timer_ticks`. -/
structure Init (s : TimerSys) : Prop where
  rpc_eq : ∀ id, s.rpc id = none
  timerTicks_eq : s.timerTicks = 0
  passes_eq : s.passes = 0

abbrev Reachable : TimerSys → Prop :=
  Transition.Reachable Init (Step cfg)

/-! ## What the steps do to an RPC -/

section Steps

variable {cfg} {s : TimerSys} {id : ℕ}

theorem visit_rpc {r : TimerRpc} (held : ℕ → Bool) (hr : s.rpc id = some r) :
    ∃ r', (s.visit cfg held id).rpc = Function.update s.rpc id (some r') ∧
      r'.silentTicks = (TimerRpc.homaTimerRpc cfg held id s.timerTicks r).1.silentTicks ∧
      (s.visit cfg held id).due = Function.update s.due id false ∧
      (s.visit cfg held id).heard = s.heard ∧ (s.visit cfg held id).passes = s.passes := by
  unfold visit
  rw [hr]
  refine ⟨_, rfl, ?_, rfl, rfl, rfl⟩
  split_ifs
  · unfold TimerRpc.timerAbort
    split_ifs <;> rfl
  · rfl

theorem arrive_rpc {r : TimerRpc} (r' : TimerRpc) (hr : s.rpc id = some r) :
    ∃ r'', (s.arrive id r').rpc = Function.update s.rpc id (some r'') ∧ r''.silentTicks = 0 ∧
      (s.arrive id r').due = s.due ∧
      (s.arrive id r').heard = Function.update s.heard id s.passes ∧
      (s.arrive id r').passes = s.passes := by
  unfold arrive
  rw [hr]
  exact ⟨_, rfl, rfl, rfl, rfl, rfl⟩

theorem other_rpc {r : TimerRpc} (r' : TimerRpc) (hr : s.rpc id = some r) :
    ∃ r'', (s.other id r').rpc = Function.update s.rpc id (some r'') ∧
      r''.silentTicks = r.silentTicks ∧ (s.other id r').due = s.due ∧
      (s.other id r').heard = s.heard ∧ (s.other id r').passes = s.passes := by
  unfold other
  rw [hr]
  exact ⟨_, rfl, rfl, rfl, rfl, rfl⟩

end Steps

/-! ## `silent_ticks` counts passes since the peer was last heard from -/

/-- `silent_ticks` is never negative and is at most one more than the passes
begun since the RPC last heard from its peer, and no more than those passes
while the running pass may still visit it. -/
structure SilenceInv (s : TimerSys) : Prop where
  silent_nonneg : ∀ id r, s.rpc id = some r → 0 ≤ r.silentTicks
  heard_le : ∀ id r, s.rpc id = some r → s.heard id ≤ s.passes
  silent_le : ∀ id r, s.rpc id = some r →
    r.silentTicks + (if s.due id then 1 else 0) ≤ (s.passes : ℤ) - s.heard id + 1

section Silence

variable {cfg} {s s' : TimerSys}

theorem SilenceInv.update (h : s.SilenceInv) {id : ℕ} {r' : TimerRpc}
    (hrpc : s'.rpc = Function.update s.rpc id (some r'))
    (hpasses : s'.passes = s.passes)
    (hdue : ∀ x, x ≠ id → s'.due x = s.due x) (hheard : ∀ x, x ≠ id → s'.heard x = s.heard x)
    (hnew : 0 ≤ r'.silentTicks ∧ s'.heard id ≤ s'.passes ∧
      r'.silentTicks + (if s'.due id then 1 else 0) ≤ (s'.passes : ℤ) - s'.heard id + 1) :
    s'.SilenceInv := by
  -- every RPC but `id` is as it was, with its `due` and `heard`
  have hold : ∀ x r, x ≠ id → s'.rpc x = some r → s.rpc x = some r := by
    intro x r hx hr
    rwa [hrpc, Function.update_of_ne hx] at hr
  have hself : ∀ r, s'.rpc id = some r → r = r' := by
    intro r hr
    rw [hrpc, Function.update_self, Option.some.injEq] at hr
    exact hr.symm
  refine ⟨fun x r hr => ?_, fun x r hr => ?_, fun x r hr => ?_⟩
  all_goals by_cases hx : x = id
  all_goals try (subst hx; obtain rfl := hself r hr)
  · exact hnew.1
  · exact h.silent_nonneg x r (hold x r hx hr)
  · exact hnew.2.1
  · rw [hheard x hx, hpasses]
    exact h.heard_le x r (hold x r hx hr)
  · exact hnew.2.2
  · rw [hdue x hx, hheard x hx, hpasses]
    exact h.silent_le x r (hold x r hx hr)

theorem Init.silenceInv (h : s.Init) : s.SilenceInv := by
  refine ⟨fun id r hr => ?_, fun id r hr => ?_, fun id r hr => ?_⟩ <;>
    · rw [h.rpc_eq id] at hr
      cases hr

theorem SilenceInv.pass (h : s.SilenceInv) : s.pass.SilenceInv := by
  refine ⟨fun id r hr => h.silent_nonneg id r hr, fun id r hr => ?_, fun id r hr => ?_⟩
  · exact (h.heard_le id r hr).trans (Nat.le_succ _)
  · have hle := h.silent_le id r hr
    simp only [TimerSys.pass, if_true]
    push_cast
    split_ifs at hle <;> omega

theorem SilenceInv.visit (h : s.SilenceInv) {held : ℕ → Bool} {id : ℕ} {r : TimerRpc}
    (hdue : s.due id = true) (hr : s.rpc id = some r) : (s.visit cfg held id).SilenceInv := by
  obtain ⟨r', hrpc, hsilent, hdue', hheard, hpasses⟩ := visit_rpc held hr
  have hle := h.silent_le id r hr
  have hnonneg := h.silent_nonneg id r hr
  rw [hdue, if_pos rfl] at hle
  refine h.update hrpc hpasses (fun x hx => by rw [hdue', Function.update_of_ne hx])
    (fun x _ => by rw [hheard]) ⟨?_, ?_, ?_⟩
  · rcases @TimerRpc.homaTimerRpc_silentTicks cfg held id s.timerTicks r with h0 | h1 <;> omega
  · rw [hheard, hpasses]
    exact h.heard_le id r hr
  · rw [hdue', Function.update_self, hheard, hpasses, if_neg Bool.false_ne_true]
    rcases @TimerRpc.homaTimerRpc_silentTicks cfg held id s.timerTicks r with h0 | h1 <;> omega

theorem SilenceInv.arrive (h : s.SilenceInv) (id : ℕ) (r' : TimerRpc) : (s.arrive id r').SilenceInv := by
  cases hr : s.rpc id with
  | none =>
    have hs : s.arrive id r' = s := by simp [TimerSys.arrive, hr]
    rwa [hs]
  | some r =>
    obtain ⟨r'', hrpc, hsilent, hdue, hheard, hpasses⟩ := arrive_rpc r' hr
    refine h.update hrpc hpasses (fun x _ => by rw [hdue])
      (fun x hx => by rw [hheard, Function.update_of_ne hx]) ⟨by omega, ?_, ?_⟩
    · rw [hheard, Function.update_self, hpasses]
    · rw [hheard, Function.update_self, hpasses, hsilent]
      split_ifs <;> simp

theorem SilenceInv.other (h : s.SilenceInv) (id : ℕ) (r' : TimerRpc) : (s.other id r').SilenceInv := by
  cases hr : s.rpc id with
  | none =>
    have hs : s.other id r' = s := by simp [TimerSys.other, hr]
    rwa [hs]
  | some r =>
    obtain ⟨r'', hrpc, hsilent, hdue, hheard, hpasses⟩ := other_rpc r' hr
    refine h.update hrpc hpasses (fun x _ => by rw [hdue]) (fun x _ => by rw [hheard]) ⟨?_, ?_, ?_⟩
    · rw [hsilent]
      exact h.silent_nonneg id r hr
    · rw [hheard, hpasses]
      exact h.heard_le id r hr
    · rw [hsilent, hdue, hheard, hpasses]
      exact h.silent_le id r hr

theorem SilenceInv.create (h : s.SilenceInv) (id : ℕ) (r : TimerRpc) : (s.create id r).SilenceInv := by
  have hrpc : (s.create id r).rpc =
      Function.update s.rpc id (some { r with silentTicks := 0, doneTimerTicks := 0 }) := rfl
  refine h.update hrpc rfl (fun _ _ => rfl)
    (fun x hx => Function.update_of_ne hx _ _) ⟨le_rfl, ?_, ?_⟩
  · simp [TimerSys.create]
  · simp only [TimerSys.create, setRpc_rpc, Function.update_self]
    split_ifs <;> simp

theorem Step.silenceInv (h : s.SilenceInv) (hs : Step cfg s s') : s'.SilenceInv := by
  cases hs with
  | pass => exact h.pass
  | visit held hdue hrpc _ => exact h.visit hdue hrpc
  | arrive id r' => exact h.arrive id r'
  | other id r' => exact h.other id r'
  | create _ r => exact h.create _ r

theorem Reachable.silenceInv (h : Reachable cfg s) : s.SilenceInv :=
  @Transition.Reachable.inv _ Init (Step cfg) SilenceInv (fun _ hi => Init.silenceInv hi)
    (fun _ _ _ hinv hs => Step.silenceInv hinv hs) s h

end Silence

/-- `homa_timer` aborts an RPC only when at least `timeout_ticks - 1`
passes have begun since the RPC last heard a DATA, GRANT or BUSY packet from
its peer (or was created): whatever the interleaving of packets, other
threads and passes, `silent_ticks` never runs ahead of the passes by more
than the one in which the RPC last heard from its peer. -/
theorem homaTimer_abort_after_silence {s : TimerSys} {id : ℕ} {r : TimerRpc} {held : ℕ → Bool}
    (h : Reachable cfg s) (hdue : s.due id = true) (hr : s.rpc id = some r)
    (habort : TimerAction.abort ∈ (TimerRpc.homaTimerRpc cfg held id s.timerTicks r).2) :
    cfg.timeoutTicks ≤ (s.passes : ℤ) - s.heard id + 1 := by
  have hle := h.silenceInv.silent_le id r hr
  rw [hdue, if_pos rfl] at hle
  have habort' := TimerRpc.timeoutTicks_le_of_homaTimerRpc habort
  omega

/-- A timer that asks for retransmission after one silent tick and gives up
after two. -/
def witnessTimerCfg : TimerConfig :=
  { resendTicks := 1, resendInterval := 1, timeoutTicks := 2, requestAckTicks := 2 }

/-- A host before its first tick. -/
def initSys : TimerSys :=
  ⟨fun _ => none, 0, 0, fun _ => false, fun _ => 0⟩

/-- The first pass begins, the client RPC 2 is created before the pass
reaches it, the pass visits it, and the second pass begins. -/
def witnessSilent : TimerSys :=
  ((initSys.pass.create 2 TimerRpc.witnessTimerRpc).visit witnessTimerCfg (fun _ => false) 2).pass

theorem witnessSilent_reachable : Reachable witnessTimerCfg witnessSilent :=
  .step (.step (.step (.step (.init ⟨fun _ => rfl, rfl, rfl⟩) .pass) (.create rfl _))
    (.visit _ rfl rfl (by decide))) .pass

/-- The second pass aborts the RPC with the bound reached: two passes begun,
the RPC heard from (created) during the first. -/
theorem homaTimer_abort_after_silence_tight :
    witnessTimerCfg.timeoutTicks ≤ (witnessSilent.passes : ℤ) - witnessSilent.heard 2 + 1 :=
  @homaTimer_abort_after_silence witnessTimerCfg witnessSilent 2 _ (fun _ => false)
    witnessSilent_reachable rfl rfl (by decide)

end TimerSys

end Homa
