import Homa.LinkHeap
import Mathlib.Data.List.Perm.Basic

/-!
# How `homa_softirq` splits a GRO batch

`homa_gro_receive` hangs the packets of a flow on the `frag_list` of a held
skb.  `homa_softirq` takes the batch apart by pointer-to-pointer surgery on
the `next` fields: a first pass frees what it cannot use and dispatches
control packets and short messages; a second repeatedly takes the first
packet left and splits the rest into the packets of its RPC and the others.

The skbs are nodes of a `LinkHeap.Heap`, the pointer variables `SkbVar`,
and the loops run on fuel.  What the code is to do is `softirqOutcomes`, a
function of the list of packets, and `homaSoftirq_eq` shows the pointer code
computes it for every batch `homa_gro_receive` builds.
-/

/-! ## Grouping by the key of the first entry -/

section GroupByFirst

variable {α κ : Type*} [DecidableEq κ] (key : α → κ)

/-- The entries with the key of the first, in order, then the same for the
entries left. -/
def groupByFirst : List α → List (List α)
  | [] => []
  | a :: rest =>
      (a :: rest.filter (key · = key a)) :: groupByFirst (rest.filter (key · ≠ key a))
termination_by l => l.length
decreasing_by exact Nat.lt_succ_of_le (by simpa using List.length_filter_le _ rest.attach)

theorem groupByFirst_cons (a : α) (rest : List α) :
    groupByFirst key (a :: rest) =
      (a :: rest.filter (key · = key a)) :: groupByFirst key (rest.filter (key · ≠ key a)) := by
  rw [groupByFirst]

theorem length_filter_lt_succ (p : α → Bool) (a : α) (rest : List α) :
    (rest.filter p).length < (a :: rest).length :=
  Nat.lt_succ_of_le (List.length_filter_le _ _)

theorem groupByFirst_perm (l : List α) : (groupByFirst key l).flatten.Perm l := by
  -- on the length, since the recursion is on the entries left over
  induction hn : l.length using Nat.strongRecOn generalizing l with
  | _ n ih =>
    cases l with
    | nil => simp [groupByFirst]
    | cons a rest =>
      subst hn
      rw [groupByFirst_cons, List.flatten_cons, List.cons_append]
      refine List.Perm.cons a ?_
      -- the group of `a`, then the others, is a split of `rest`
      refine ((ih _ (length_filter_lt_succ _ a rest) _ rfl).append_left _).trans ?_
      have hsplit := List.filter_append_perm (fun b => decide (key b = key a)) rest
      simpa [Bool.not_eq_true', decide_not] using hsplit

theorem mem_groupByFirst {l g : List α} (hg : g ∈ groupByFirst key l) :
    ∃ a ∈ l, g = l.filter (key · = key a) := by
  induction hn : l.length using Nat.strongRecOn generalizing l with
  | _ n ih =>
    cases l with
    | nil => simp [groupByFirst] at hg
    | cons a rest =>
      subst hn
      rw [groupByFirst_cons, List.mem_cons] at hg
      rcases hg with rfl | hg
      · exact ⟨a, List.mem_cons_self, by simp⟩
      · obtain ⟨b, hb, rfl⟩ := ih _ (length_filter_lt_succ _ a rest) hg rfl
        have hba : key b ≠ key a := by simpa using (List.mem_filter.mp hb).2
        refine ⟨b, List.mem_cons_of_mem a (List.mem_of_mem_filter hb), ?_⟩
        -- `a` is not of `b`'s key, so only the others count
        rw [List.filter_filter, List.filter_cons_of_neg (by simpa using hba.symm)]
        refine List.filter_congr fun c _ => ?_
        by_cases hc : key c = key b <;> simp [hc, hba]

end GroupByFirst

namespace Homa

open LinkHeap

/-! ## The packets -/

/-- `DATA`, the first packet type. -/
def homaDataType : ℕ := 0x10

def homaFreezeType : ℕ := 0x16

/-- `MAX_OP`, the last packet type. -/
def homaMaxOp : ℕ := 0x18

/-- `sizeof(struct homa_common_hdr)`. -/
def homaCommonHdrSize : ℕ := 28

/-- `header_lengths[]`: the header size of each packet type from `DATA` on,
`sizeof` of its header struct. -/
def headerLengths : List ℕ := [56, 33, 37, 28, 28, 62, 28, 28, 80]

/-- What `homa_softirq` reads of one packet: whether `homa_make_header_avl`
succeeds, `skb->len` once the Homa header is at `skb->data`, the type,
`message_length` of a DATA header, `sender_id` and the source address. -/
structure SoftirqPkt where
  headerAvl : Bool
  len : ℕ
  type : ℕ
  messageLength : ℕ
  senderId : ℕ
  saddr : ℕ
  deriving DecidableEq, Repr

/-- The `skb_drop_reason`s `homa_softirq` frees packets with. -/
inductive DropReason where
  | hdrTrunc
  | pktTooSmall
  | consumed
  deriving DecidableEq, Repr

/-- What the first pass does with a packet. -/
inductive SoftirqVerdict where
  | discard (reason : DropReason)
  | shortcut
  | keep
  deriving DecidableEq, Repr

/-- The tests of the first pass of `homa_softirq`, in its order: a header
it cannot reach, a packet too short or of no known type, a FREEZE request,
a control packet or a whole short message. -/
def softirqVerdict (p : SoftirqPkt) : SoftirqVerdict :=
  if !p.headerAvl then .discard .hdrTrunc
  else if p.len < homaCommonHdrSize ∨ p.type < homaDataType ∨ p.type > homaMaxOp ∨
      p.len < headerLengths.getD (p.type - homaDataType) 0 then .discard .pktTooSmall
  else if p.type = homaFreezeType then .discard .consumed
  else if p.type ≠ homaDataType ∨ p.messageLength < 1400 then .shortcut
  else .keep

def SoftirqVerdict.isKeep : SoftirqVerdict → Bool
  | .keep => true
  | _ => false

/-- What becomes of packets: freed with a reason, or handed to
`homa_dispatch_pkts` as a list. -/
inductive Outcome (α : Type*) where
  | freed (a : α) (reason : DropReason)
  | dispatched (pkts : List α)
  deriving DecidableEq, Repr

/-- The packets an outcome disposes of. -/
def Outcome.pkts {α : Type*} : Outcome α → List α
  | .freed a _ => [a]
  | .dispatched pkts => pkts

/-- The pointer variables: `skb_shinfo(held)->frag_list`, `packets` and
`other_pkts`. -/
inductive SkbVar where
  | fragList
  | packets
  | otherPkts
  deriving DecidableEq

/-- The skbs of a batch with their `next` fields, and the pointer variables. -/
abbrev SkbHeap (α : Type*) := Heap SkbVar α

variable {α : Type*} [DecidableEq α]

/-! ## Building the batch -/

/-- The held skb of a GRO flow, with `NAPI_GRO_CB(held)->last`; the chain
hangs from `frag_list`. -/
structure GroBatch (α : Type*) where
  heap : SkbHeap α
  held : α
  last : α

/-- A skb as it becomes the held one: nothing on its `frag_list`, and
itself as `last`. -/
def GroBatch.start (h : SkbHeap α) (held : α) : GroBatch α :=
  { heap := h.write (.var .fragList) none, held, last := held }

/-- `homa_gro_receive` aggregating `skb` into the held skb: onto
`frag_list` if nothing is there yet, else after `last`. -/
def homaGroAppend (g : GroBatch α) (skb : α) : GroBatch α :=
  let link : Loc SkbVar α := if g.last = g.held then .var .fragList else .next g.last
  { g with heap := (g.heap.write link (some skb)).write (.next skb) none, last := skb }

/-! ## `homa_softirq` -/

variable (pkt : α → SoftirqPkt)

/-- The first pass of `homa_softirq`, for at most `fuel` packets: each packet
it does not keep is unlinked through `prev_link` and freed, or dispatched on
its own; `n` bounds the walk of `homa_dispatch_pkts`. -/
def softirqPass1 (n : ℕ) :
    ℕ → SkbHeap α → Loc SkbVar α → Option α → List (Outcome α) →
      Option (SkbHeap α × List (Outcome α))
  | _, h, _, none, out => some (h, out)
  | 0, _, _, some _, _ => none
  | fuel + 1, h, prevLink, some skb, out =>
      let next := h.next skb
      match softirqVerdict (pkt skb) with
      | .discard reason =>
          softirqPass1 n fuel (h.write prevLink next) prevLink next (out ++ [.freed skb reason])
      | .shortcut =>
          let h := (h.write prevLink next).write (.next skb) none
          match h.walk n (some skb) with
          | some pkts => softirqPass1 n fuel h prevLink next (out ++ [.dispatched pkts])
          | none => none
      | .keep => softirqPass1 n fuel h (.next skb) next out

/-- The inner loop of the second pass, for at most `fuel` packets: `skb2`
runs over the packets behind `skb`, linking those of `skb`'s RPC after
`prev_link` and the others after `other_link`. -/
def softirqSplit (skb : α) :
    ℕ → SkbHeap α → Loc SkbVar α → Loc SkbVar α → Option α →
      Option (SkbHeap α × Loc SkbVar α × Loc SkbVar α)
  | _, h, prevLink, otherLink, none => some (h, prevLink, otherLink)
  | 0, _, _, _, some _ => none
  | fuel + 1, h, prevLink, otherLink, some skb2 =>
      let next := h.next skb2
      if (pkt skb2).senderId = (pkt skb).senderId ∧ (pkt skb2).saddr = (pkt skb).saddr then
        softirqSplit skb fuel (h.write prevLink (some skb2)) (.next skb2) otherLink next
      else softirqSplit skb fuel (h.write otherLink (some skb2)) prevLink (.next skb2) next

/-- The second pass, for at most `fuel` RPCs: while `packets` is not
empty, dispatch the packets of its first packet's RPC and go on with the
others. -/
def softirqPass2 (n : ℕ) : ℕ → SkbHeap α → List (Outcome α) → Option (List (Outcome α))
  | fuel, h, out =>
    match h.vars .packets, fuel with
    | none, _ => some out
    | some _, 0 => none
    | some skb, fuel + 1 =>
        let h := h.write (.var .otherPkts) none
        match softirqSplit pkt skb n h (.next skb) (.var .otherPkts) (h.next skb) with
        | none => none
        | some (h, prevLink, otherLink) =>
            let h := (h.write prevLink none).write otherLink none
            match h.walk n (h.vars .packets) with
            | none => none
            | some pkts =>
                softirqPass2 n fuel (h.write (.var .packets) (h.vars .otherPkts))
                  (out ++ [.dispatched pkts])

/-- `homa_softirq(skb)` on the held skb of a GRO batch: the chain on
`frag_list` goes behind `skb`, and the two passes run; `n` bounds every loop
and walk. -/
def homaSoftirq (n : ℕ) (h : SkbHeap α) (skb : α) : Option (List (Outcome α)) :=
  let h := h.write (.next skb) (h.vars .fragList)
  let h := h.write (.var .fragList) none
  let h := h.write (.var .packets) (some skb)
  match softirqPass1 pkt n n h (.var .packets) (some skb) [] with
  | none => none
  | some (h, out) => softirqPass2 pkt n n h out

/-! ## What it is to do -/

/-- The outcome of the first pass for a packet it does not keep. -/
def pass1Outcome (a : α) : Option (Outcome α) :=
  match softirqVerdict (pkt a) with
  | .discard reason => some (.freed a reason)
  | .shortcut => some (.dispatched [a])
  | .keep => none

/-- The RPC of a packet as the second pass compares them. -/
def rpcKey (a : α) : ℕ × ℕ := ((pkt a).senderId, (pkt a).saddr)

/-- The packets of `B` the first pass keeps. -/
def longPkts (B : List α) : List α :=
  B.filter fun a => (softirqVerdict (pkt a)).isKeep

/-- What `homa_softirq` is to do with the batch `B`: the first pass's
outcomes in order, then one dispatch for each RPC of the long packets. -/
def softirqOutcomes (B : List α) : List (Outcome α) :=
  B.filterMap (pass1Outcome pkt) ++ (groupByFirst (rpcKey pkt) (longPkts pkt B)).map .dispatched

/-! ## The batch `homa_gro_receive` builds -/

/-- The held skb has the packets `A` behind it: they hang from `frag_list`
in order, and `last` is the last of them. -/
structure GroBatch.Holds (g : GroBatch α) (A : List α) : Prop where
  chain : g.heap.IsList (.var .fragList) A
  last_eq : g.last = A.getLastD g.held

theorem GroBatch.holds_start (h : SkbHeap α) (held : α) : (GroBatch.start h held).Holds [] :=
  ⟨Heap.read_write_self h (.var .fragList) none, rfl⟩

theorem homaGroAppend_holds {g : GroBatch α} {A : List α} (hg : g.Holds A)
    (hnd : (g.held :: A).Nodup) {skb : α} (hskb : skb ∉ g.held :: A) :
    (homaGroAppend g skb).Holds (A ++ [skb]) := by
  refine ⟨?_, by simp [homaGroAppend]⟩
  have hheld : g.held ∉ A := (List.nodup_cons.mp hnd).1
  -- `last` names the link that ends the chain: `frag_list` while it is empty
  have hpath : g.heap.Path (.var .fragList) A
      (if g.last = g.held then .var .fragList else .next g.last) := by
    rcases List.eq_nil_or_concat' A with rfl | ⟨A', a, rfl⟩
    · simp [hg.last_eq, Heap.Path]
    · have hah : a ≠ g.held := fun h' => hheld (by simp [h'])
      rw [hg.last_eq, List.getLastD_concat, if_neg hah]
      exact hg.chain.path_last.1
  exact hpath.isList_write_end (List.nodup_cons.mp hnd).2 (by simp)
    (fun h' => hskb (List.mem_cons_of_mem _ h')) (by simp)

theorem homaGroAppend_run (A : List α) :
    ∀ {g : GroBatch α} {P : List α}, g.Holds P → (g.held :: (P ++ A)).Nodup →
      (A.foldl homaGroAppend g).Holds (P ++ A) ∧ (A.foldl homaGroAppend g).held = g.held := by
  induction A with
  | nil =>
    intro g P hg _
    simpa using hg
  | cons a A ih =>
    intro g P hg hnd
    have hnd' : (g.held :: (P ++ [a] ++ A)).Nodup := by simpa using hnd
    have hstep : (homaGroAppend g a).Holds (P ++ [a]) :=
      homaGroAppend_holds hg (hnd'.sublist (by simp)) fun ha => by
        have := (List.nodup_append.mp (by simpa using hnd' : (g.held :: P ++ ([a] ++ A)).Nodup))
        exact this.2.2 a ha a (by simp) rfl
    have hrun := ih hstep hnd'
    rw [List.append_assoc, List.singleton_append] at hrun
    exact hrun

/-! ## The first pass -/

/-- The first pass keeps `packets` pointing through the packets it kept so
far to `prev_link`, which points at the packet it looks at; the packets from
there on are still chained as in the batch.  It ends with `packets` holding
the long packets, having freed or dispatched the others in order. -/
theorem softirqPass1_spec {n : ℕ} (hn : 1 < n) (R : List α) :
    ∀ {fuel : ℕ} {h : SkbHeap α} {prevLink : Loc SkbVar α} {skb : Option α} {K : List α}
      (out : List (Outcome α)), R.length ≤ fuel → h.Path (.var .packets) K prevLink →
      h.read prevLink = skb → h.Chain skb R → (K ++ R).Nodup →
      ∃ h', softirqPass1 pkt n fuel h prevLink skb out =
          some (h', out ++ R.filterMap (pass1Outcome pkt)) ∧
        h'.IsList (.var .packets) (K ++ longPkts pkt R) := by
  induction R with
  | nil =>
    intro fuel h prevLink skb K out _ hpath hread hchain _
    obtain rfl : skb = none := hchain
    refine ⟨h, by cases fuel <;> simp [softirqPass1], ?_⟩
    simpa [longPkts] using hpath.isList hread
  | cons a R ih =>
    intro fuel h prevLink skb K out hfuel hpath hread hchain hnd
    obtain ⟨rfl, hchain⟩ := hchain
    obtain ⟨fuel, rfl⟩ : ∃ f, fuel = f + 1 := ⟨fuel - 1, by simp at hfuel; omega⟩
    have hfuel' : R.length ≤ fuel := by simpa using hfuel
    have hK : K.Nodup := (List.nodup_append.mp hnd).1
    have haK : a ∉ K := fun ha => (List.nodup_append.mp hnd).2.2 a ha a List.mem_cons_self rfl
    have hRK : ∀ b ∈ R, b ∉ K := fun b hb hbK =>
      (List.nodup_append.mp hnd).2.2 b hbK b (List.mem_cons_of_mem a hb) rfl
    have haR : a ∉ R := (List.nodup_cons.mp (List.nodup_append.mp hnd).2.1).1
    have hnd' : (K ++ R).Nodup := hnd.sublist ((List.sublist_cons_self a R).append_left K)
    -- `prev_link` is `packets` or the `next` field of a kept packet
    have hprev : ∀ b, b ∉ K → prevLink ≠ .next b := fun b hb =>
      hpath.end_ne (by simp) fun c hc hbc => hb (Loc.next.inj hbc ▸ hc)
    have hprevNot : prevLink ∉ Heap.pathLocs (.var .packets) K :=
      hpath.end_not_mem_pathLocs hK (by simp)
    cases hv : softirqVerdict (pkt a) with
    | discard reason =>
      obtain ⟨h', hrun, hlist⟩ := ih (out ++ [.freed a reason]) hfuel' (hpath.write hprevNot _)
        (Heap.read_write_self _ _ _) (hchain.write (fun b hb => hprev b (hRK b hb)) _) hnd'
      refine ⟨h', ?_, ?_⟩
      · simp only [softirqPass1, hv, hrun, List.filterMap_cons, pass1Outcome, List.append_assoc,
          List.singleton_append]
      · simpa [longPkts, hv, SoftirqVerdict.isKeep] using hlist
    | shortcut =>
      -- unlinked from the kept packets, and cut off from the rest
      have hnotA : (Loc.next a : Loc SkbVar α) ∉ Heap.pathLocs (.var .packets) K :=
        Heap.not_mem_pathLocs (by simp) fun c hc hac => haK (Loc.next.inj hac ▸ hc)
      have hh : ((h.write prevLink (h.next a)).write (.next a) none).read prevLink = h.next a := by
        rw [Heap.read_write_of_ne _ (hprev a haK), Heap.read_write_self]
      have hwalk : ((h.write prevLink (h.next a)).write (.next a) none).walk n (some a) =
          some [a] :=
        Heap.Chain.walk (show Heap.Chain ((h.write prevLink (h.next a)).write (.next a) none)
          (some a) [a] from ⟨rfl, Heap.read_write_self _ (.next a) none⟩) (by simpa)
      obtain ⟨h', hrun, hlist⟩ := ih (out ++ [.dispatched [a]]) hfuel'
        ((hpath.write hprevNot _).write hnotA _) hh
        ((hchain.write (fun b hb => hprev b (hRK b hb)) _).write
          (fun b hb hab => haR (by rw [Loc.next.inj hab]; exact hb)) _) hnd'
      refine ⟨h', ?_, ?_⟩
      · simp only [softirqPass1, hv, hwalk, hrun, List.filterMap_cons, pass1Outcome,
          List.append_assoc, List.singleton_append]
      · simpa [longPkts, hv, SoftirqVerdict.isKeep] using hlist
    | keep =>
      obtain ⟨h', hrun, hlist⟩ := ih (K := K ++ [a]) out hfuel' (hpath.snoc hread) rfl hchain
        (by simpa using hnd)
      refine ⟨h', ?_, ?_⟩
      · simp only [softirqPass1, hv, List.filterMap_cons, pass1Outcome]
        exact hrun
      · simpa [longPkts, hv, SoftirqVerdict.isKeep] using hlist

/-! ## The second pass -/

omit [DecidableEq α] in
theorem sameRpc_iff (a b : α) :
    ((pkt b).senderId = (pkt a).senderId ∧ (pkt b).saddr = (pkt a).saddr) ↔
      rpcKey pkt b = rpcKey pkt a := by
  simp [rpcKey]

theorem perm_move_to_first {β : Type*} [DecidableEq β] (S O R : List β) (b : β) :
    (S ++ [b] ++ O ++ R).Perm (S ++ O ++ b :: R) := by
  rw [List.perm_iff_count]
  intro x
  simp only [List.count_append, List.count_cons, List.count_nil]
  omega

theorem perm_move_to_second {β : Type*} [DecidableEq β] (S O R : List β) (b : β) :
    (S ++ (O ++ [b]) ++ R).Perm (S ++ O ++ b :: R) := by
  rw [List.perm_iff_count]
  intro x
  simp only [List.count_append, List.count_cons, List.count_nil]
  omega

/-- Where the two lists of the inner loop end: `prev_link` at `skb`'s or an
RPC packet's `next`, `other_link` at `other_pkts` or another packet's. -/
structure SplitEnds (a : α) (S O : List α) (pl ol : Loc SkbVar α) : Prop where
  prev_ne_next : ∀ c, c ≠ a → c ∉ S → pl ≠ .next c
  other_ne_next : ∀ c, c ∉ O → ol ≠ .next c
  prev_ne_var : ∀ v, pl ≠ .var v
  other_ne_packets : ol ≠ .var .packets
  prev_ne_other : pl ≠ ol
  prev_not_mem_S : pl ∉ Heap.pathLocs (.next a) S
  prev_not_mem_O : pl ∉ Heap.pathLocs (.var .otherPkts) O
  other_not_mem_S : ol ∉ Heap.pathLocs (.next a) S
  other_not_mem_O : ol ∉ Heap.pathLocs (.var .otherPkts) O

omit [DecidableEq α] in
theorem splitEnds {h : SkbHeap α} {a : α} {S O : List α} {pl ol : Loc SkbVar α}
    (hS : h.Path (.next a) S pl) (hO : h.Path (.var .otherPkts) O ol)
    (hnd : (a :: (S ++ O)).Nodup) : SplitEnds a S O pl ol := by
  have haSO := (List.nodup_cons.mp hnd).1
  obtain ⟨hSnd, hOnd, hdisj⟩ := List.nodup_append.mp (List.nodup_cons.mp hnd).2
  have haS : a ∉ S := fun ha => haSO (List.mem_append_left O ha)
  have haO : a ∉ O := fun ha => haSO (List.mem_append_right S ha)
  have hpl : ∀ c, c ≠ a → c ∉ S → pl ≠ .next c := fun c hc hcS =>
    hS.end_ne (fun h' => hc (Loc.next.inj h')) fun d hd hcd => hcS (Loc.next.inj hcd ▸ hd)
  have hol : ∀ c, c ∉ O → ol ≠ .next c := fun c hcO =>
    hO.end_ne (by simp) fun d hd hcd => hcO (Loc.next.inj hcd ▸ hd)
  have hplVar : ∀ v, pl ≠ .var v := fun v => hS.end_ne (by simp) (by simp)
  refine ⟨hpl, hol, hplVar, hO.end_ne (by simp) (by simp), ?_, ?_, ?_, ?_,
    hO.end_not_mem_pathLocs hOnd (by simp)⟩
  · -- the two lists share no link
    rcases hO.end_mem with rfl | ⟨o, ho, rfl⟩
    · exact hplVar _
    · exact hpl o (fun h' => haO (h' ▸ ho)) fun hoS => hdisj o hoS o ho rfl
  · exact hS.end_not_mem_pathLocs hSnd fun d hd h' => haS (Loc.next.inj h' ▸ hd)
  · exact Heap.not_mem_pathLocs (hplVar _) fun d hd =>
      hpl d (fun h' => haO (h' ▸ hd)) fun hdS => hdisj d hdS d hd rfl
  · exact Heap.not_mem_pathLocs (hol a haO) fun d hd => hol d fun hdO => hdisj d hd d hdO rfl

/-- The inner loop keeps two paths, from `skb`'s `next` field through the
packets of its RPC to `prev_link`, and from `other_pkts` through the others
to `other_link`; the packets still to look at are chained as before.  It
writes only `next` fields and `other_pkts`. -/
theorem softirqSplit_spec (skb : α) (R : List α) :
    ∀ {fuel : ℕ} {h : SkbHeap α} {prevLink otherLink : Loc SkbVar α} {skb2 : Option α}
      {S O : List α}, R.length ≤ fuel → h.Path (.next skb) S prevLink →
      h.Path (.var .otherPkts) O otherLink → h.Chain skb2 R → (skb :: (S ++ O ++ R)).Nodup →
      ∃ h' pl ol, softirqSplit pkt skb fuel h prevLink otherLink skb2 = some (h', pl, ol) ∧
        h'.Path (.next skb) (S ++ R.filter (rpcKey pkt · = rpcKey pkt skb)) pl ∧
        h'.Path (.var .otherPkts) (O ++ R.filter (rpcKey pkt · ≠ rpcKey pkt skb)) ol ∧
        h'.vars .packets = h.vars .packets := by
  induction R with
  | nil =>
    intro fuel h prevLink otherLink skb2 S O _ hS hO hchain _
    obtain rfl : skb2 = none := hchain
    exact ⟨h, prevLink, otherLink, by cases fuel <;> simp [softirqSplit], by simpa using hS,
      by simpa using hO, rfl⟩
  | cons b R ih =>
    intro fuel h prevLink otherLink skb2 S O hfuel hS hO hchain hnd
    obtain ⟨rfl, hchain⟩ := hchain
    obtain ⟨fuel, rfl⟩ : ∃ f, fuel = f + 1 := ⟨fuel - 1, by simp at hfuel; omega⟩
    have hfuel' : R.length ≤ fuel := by simpa using hfuel
    -- which packets are distinct from which
    have hskb := (List.nodup_cons.mp hnd).1
    have hdisj := (List.nodup_append.mp (List.nodup_cons.mp hnd).2).2.2
    have hRS : ∀ c ∈ R, c ∉ S := fun c hc hcS =>
      hdisj c (by simp [hcS]) c (List.mem_cons_of_mem b hc) rfl
    have hRO : ∀ c ∈ R, c ∉ O := fun c hc hcO =>
      hdisj c (by simp [hcO]) c (List.mem_cons_of_mem b hc) rfl
    have hends := splitEnds hS hO (hnd.sublist ((List.sublist_append_left (S ++ O) _).cons_cons skb))
    by_cases hsame : (pkt b).senderId = (pkt skb).senderId ∧ (pkt b).saddr = (pkt skb).saddr
    · -- `b` is of `skb`'s RPC: it goes behind `prev_link`
      have hkey : rpcKey pkt b = rpcKey pkt skb := (sameRpc_iff pkt skb b).mp hsame
      obtain ⟨h', pl, ol, hrun, hS', hO', hpk⟩ := ih hfuel'
        ((hS.write hends.prev_not_mem_S _).snoc (Heap.read_write_self _ _ _))
        (hO.write hends.prev_not_mem_O _)
        (hchain.write (fun c hc => hends.prev_ne_next c (fun h' => hskb (by simp [← h', hc]))
          (hRS c hc)) _)
        ((perm_move_to_first S O R b).cons skb |>.nodup_iff.mpr hnd)
      refine ⟨h', pl, ol, ?_, by simpa [hkey] using hS', by simpa [hkey] using hO', ?_⟩
      · simp only [softirqSplit, if_pos hsame]
        exact hrun
      · rw [hpk]
        exact Heap.read_write_of_ne h (Ne.symm (hends.prev_ne_var _)) _
    · -- `b` is of another RPC: it goes behind `other_link`
      have hkey : rpcKey pkt b ≠ rpcKey pkt skb := fun h' => hsame ((sameRpc_iff pkt skb b).mpr h')
      obtain ⟨h', pl, ol, hrun, hS', hO', hpk⟩ := ih hfuel' (hS.write hends.other_not_mem_S _)
        ((hO.write hends.other_not_mem_O _).snoc (Heap.read_write_self _ _ _))
        (hchain.write (fun c hc => hends.other_ne_next c (hRO c hc)) _)
        ((perm_move_to_second S O R b).cons skb |>.nodup_iff.mpr hnd)
      refine ⟨h', pl, ol, ?_, by simpa [hkey] using hS', by simpa [hkey] using hO', ?_⟩
      · simp only [softirqSplit, if_neg hsame]
        exact hrun
      · rw [hpk]
        exact Heap.read_write_of_ne h (Ne.symm hends.other_ne_packets) _

theorem softirqSplit_close {h : SkbHeap α} {a : α} {S O : List α} {pl ol : Loc SkbVar α}
    (hS : h.Path (.next a) S pl) (hO : h.Path (.var .otherPkts) O ol) (hnd : (a :: (S ++ O)).Nodup) :
    ((h.write pl none).write ol none).Chain (((h.write pl none).write ol none).next a) S ∧
      ((h.write pl none).write ol none).IsList (.var .otherPkts) O ∧
      pl ≠ .var .packets ∧ ol ≠ .var .packets := by
  have hends := splitEnds hS hO hnd
  refine ⟨((hS.write hends.prev_not_mem_S _).write hends.other_not_mem_S _).isList ?_,
    ((hO.write hends.prev_not_mem_O _).write hends.other_not_mem_O _).isList
      (Heap.read_write_self _ _ _), hends.prev_ne_var _, hends.other_ne_packets⟩
  rw [Heap.read_write_of_ne _ hends.prev_ne_other, Heap.read_write_self]

theorem softirqPass2_spec {n : ℕ} (fuel : ℕ) :
    ∀ {L : List α} {h : SkbHeap α} (out : List (Outcome α)), L.length < n → L.length ≤ fuel →
      h.IsList (.var .packets) L → L.Nodup →
      softirqPass2 pkt n fuel h out =
        some (out ++ (groupByFirst (rpcKey pkt) L).map .dispatched) := by
  induction fuel with
  | zero =>
    intro L h out _ hfuel hL _
    obtain rfl : L = [] := List.eq_nil_of_length_eq_zero (by omega)
    have hnone : h.vars .packets = none := hL
    simp [softirqPass2, hnone, groupByFirst]
  | succ fuel ih =>
    intro L h out hn hfuel hL hnd
    cases L with
    | nil =>
      have hnone : h.vars .packets = none := hL
      simp [softirqPass2, hnone, groupByFirst]
    | cons a rest =>
      have hpk : h.vars .packets = some a := hL.1
      have hlen : rest.length < n := by simp at hn; omega
      -- the inner loop splits the packets behind `a`
      obtain ⟨h2, pl, ol, hsplit, hS, hO, hpk2⟩ := softirqSplit_spec pkt a rest
        (show rest.length ≤ n from Nat.le_of_lt hlen) (S := []) (O := []) rfl rfl
        (show (h.write (.var .otherPkts) none).Chain ((h.write (.var .otherPkts) none).next a) rest
          from hL.2.of_next fun _ _ => rfl) (by simpa using hnd)
      rw [List.nil_append] at hS hO
      have hperm := List.filter_append_perm (fun b => decide (rpcKey pkt b = rpcKey pkt a)) rest
      have hndSO : (a :: (rest.filter (rpcKey pkt · = rpcKey pkt a) ++
          rest.filter (rpcKey pkt · ≠ rpcKey pkt a))).Nodup :=
        (List.Perm.cons a (by simpa using hperm)).nodup_iff.mpr hnd
      obtain ⟨hSl, hOl, hplPk, holPk⟩ := softirqSplit_close hS hO hndSO
      -- `packets` still points at `a`
      have hpk3 : ((h2.write pl none).write ol none).vars .packets = some a := by
        rw [← Heap.read_var, Heap.read_write_of_ne _ (Ne.symm holPk),
          Heap.read_write_of_ne _ (Ne.symm hplPk), Heap.read_var, hpk2, ← Heap.read_var,
          Heap.read_write_of_ne _ (by simp)]
        exact hpk
      have hgroup : (a :: rest.filter (rpcKey pkt · = rpcKey pkt a)).length < n :=
        Nat.lt_of_le_of_lt (Nat.succ_le_succ (List.length_filter_le _ rest)) hn
      have hwalk : ((h2.write pl none).write ol none).walk n
          (((h2.write pl none).write ol none).vars .packets) =
            some (a :: rest.filter (rpcKey pkt · = rpcKey pkt a)) := by
        rw [hpk3]
        exact Heap.Chain.walk (show Heap.Chain _ (some a) (a :: _) from ⟨rfl, hSl⟩) hgroup
      have hnext := ih (L := rest.filter (rpcKey pkt · ≠ rpcKey pkt a))
        (out ++ [.dispatched (a :: rest.filter (rpcKey pkt · = rpcKey pkt a))])
        (Nat.lt_of_le_of_lt (List.length_filter_le _ rest) hlen)
        (by simp at hfuel; exact Nat.le_trans (List.length_filter_le _ rest) (by omega))
        (show Heap.IsList (((h2.write pl none).write ol none).write (.var .packets)
            (((h2.write pl none).write ol none).vars .otherPkts)) (.var SkbVar.packets) _ by
          unfold Heap.IsList
          rw [Heap.read_write_self]
          exact hOl.of_next fun _ _ => rfl)
        (hnd.sublist (List.filter_sublist.trans (List.sublist_cons_self a rest)))
      unfold softirqPass2
      simp only [hpk, hsplit, hwalk, hnext, groupByFirst_cons, List.map_cons, List.append_assoc,
        List.singleton_append]

/-! ## The whole of `homa_softirq` -/

theorem homaSoftirq_eq {h : SkbHeap α} {held : α} {A : List α}
    (hA : h.IsList (.var .fragList) A) (hnd : (held :: A).Nodup) {n : ℕ} (hn : A.length + 1 < n) :
    homaSoftirq pkt n h held = some (softirqOutcomes pkt (held :: A)) := by
  have hheld : held ∉ A := (List.nodup_cons.mp hnd).1
  -- `skb->next = frag_list`: the batch is chained from the held skb
  have hchain : ((((h.write (.next held) (h.vars .fragList)).write (.var .fragList) none).write
      (.var .packets) (some held))).Chain (some held) (held :: A) := by
    refine ⟨rfl, ?_⟩
    simp only [Heap.write_var_next]
    rw [← Heap.read_next, Heap.read_write_self]
    exact hA.of_next fun b hb => by
      have hb' : (Loc.next b : Loc SkbVar α) ≠ .next held := fun h' => hheld (Loc.next.inj h' ▸ hb)
      simp only [Heap.write_var_next]
      rw [← Heap.read_next, Heap.read_write_of_ne _ hb', Heap.read_next]
  obtain ⟨h', hrun1, hlist⟩ := softirqPass1_spec pkt (show 1 < n by omega) (held :: A) (K := [])
    [] (show (held :: A).length ≤ n by simp; omega) rfl (Heap.read_write_self _ _ _) hchain
    (by simpa using hnd)
  have hlong : (longPkts pkt (held :: A)).Sublist (held :: A) := List.filter_sublist
  have hrun2 := softirqPass2_spec pkt n ((held :: A).filterMap (pass1Outcome pkt))
    (Nat.lt_of_le_of_lt hlong.length_le (by simpa using hn))
    (Nat.le_trans hlong.length_le (by simp; omega)) (by simpa using hlist) (hnd.sublist hlong)
  rw [List.nil_append] at hrun1
  simp only [homaSoftirq, hrun1, hrun2, softirqOutcomes]

/-! ## What the outcomes are -/

omit [DecidableEq α] in
theorem flatMap_pass1Outcome (B : List α) :
    (B.filterMap (pass1Outcome pkt)).flatMap Outcome.pkts =
      B.filter fun a => !(softirqVerdict (pkt a)).isKeep := by
  induction B with
  | nil => rfl
  | cons a B ih =>
    cases hv : softirqVerdict (pkt a) <;>
      simp [pass1Outcome, hv, ih, Outcome.pkts, SoftirqVerdict.isKeep]

omit [DecidableEq α] in
theorem softirqOutcomes_pkts_perm (B : List α) :
    ((softirqOutcomes pkt B).flatMap Outcome.pkts).Perm B := by
  have hgroups : ((groupByFirst (rpcKey pkt) (longPkts pkt B)).map Outcome.dispatched).flatMap
      Outcome.pkts = (groupByFirst (rpcKey pkt) (longPkts pkt B)).flatten := by
    simp [List.flatMap_map, Outcome.pkts, List.flatMap_id']
  rw [softirqOutcomes, List.flatMap_append, flatMap_pass1Outcome, hgroups]
  calc List.Perm _ (B.filter (fun a => !(softirqVerdict (pkt a)).isKeep) ++ longPkts pkt B) :=
        (groupByFirst_perm _ _).append_left _
    List.Perm _ B := by
        have hsplit := List.filter_append_perm (fun a => (softirqVerdict (pkt a)).isKeep) B
        exact List.perm_append_comm.trans hsplit

omit [DecidableEq α] in
theorem mem_softirqOutcomes_of_pass1 {B : List α} {a : α} (ha : a ∈ B) {o : Outcome α}
    (ho : pass1Outcome pkt a = some o) : o ∈ softirqOutcomes pkt B :=
  List.mem_append_left _ (List.mem_filterMap.mpr ⟨a, ha, ho⟩)

omit [DecidableEq α] in
theorem dispatched_mem_softirqOutcomes {B l : List α}
    (hl : Outcome.dispatched l ∈ softirqOutcomes pkt B) :
    (∃ a ∈ B, softirqVerdict (pkt a) = .shortcut ∧ l = [a]) ∨
      ∃ a ∈ longPkts pkt B, l = (longPkts pkt B).filter (rpcKey pkt · = rpcKey pkt a) := by
  rcases List.mem_append.mp hl with hl | hl
  · -- from the first pass: a packet taken by the shortcut
    obtain ⟨a, ha, ho⟩ := List.mem_filterMap.mp hl
    refine .inl ⟨a, ha, ?_⟩
    cases hv : softirqVerdict (pkt a) <;> simp_all [pass1Outcome]
  · obtain ⟨g, hg, hgl⟩ := List.mem_map.mp hl
    obtain rfl := Outcome.dispatched.inj hgl
    exact .inr (mem_groupByFirst _ hg)

omit [DecidableEq α] in
theorem sublist_of_dispatched_mem {B l : List α}
    (hl : Outcome.dispatched l ∈ softirqOutcomes pkt B) : l.Sublist B := by
  rcases dispatched_mem_softirqOutcomes pkt hl with ⟨a, ha, -, rfl⟩ | ⟨a, -, rfl⟩
  · exact List.singleton_sublist.mpr ha
  · exact List.filter_sublist.trans List.filter_sublist

/-- `homa_softirq` on any batch `homa_gro_receive` builds from distinct
packets: each packet is freed or dispatched, exactly once; the packets the
checks reject and FREEZE requests are freed, the other control packets and
whole short messages are dispatched alone, and every other dispatch is of
all the long DATA packets of one RPC, in their order in the batch. -/
theorem homaSoftirq_dispatches_once (heap : SkbHeap α) (held : α) (A : List α)
    (hnd : (held :: A).Nodup) (n : ℕ) (hn : A.length + 1 < n) :
    ∃ O, homaSoftirq pkt n (A.foldl homaGroAppend (GroBatch.start heap held)).heap held = some O ∧
      (O.flatMap Outcome.pkts).Perm (held :: A) ∧
      (∀ a ∈ held :: A, ∀ r, softirqVerdict (pkt a) = .discard r → Outcome.freed a r ∈ O) ∧
      (∀ a ∈ held :: A, softirqVerdict (pkt a) = .shortcut → Outcome.dispatched [a] ∈ O) ∧
      (∀ l, Outcome.dispatched l ∈ O →
        (∃ a ∈ held :: A, softirqVerdict (pkt a) = .shortcut ∧ l = [a]) ∨
          ∃ a ∈ longPkts pkt (held :: A),
            l = (longPkts pkt (held :: A)).filter (rpcKey pkt · = rpcKey pkt a)) ∧
      ∀ l, Outcome.dispatched l ∈ O → l.Sublist (held :: A) := by
  obtain ⟨hg, -⟩ := homaGroAppend_run A (GroBatch.holds_start heap held)
    (by simpa [GroBatch.start] using hnd)
  have hA : (A.foldl homaGroAppend (GroBatch.start heap held)).heap.IsList (.var .fragList) A := by
    simpa using hg.chain
  refine ⟨_, homaSoftirq_eq pkt hA hnd hn, softirqOutcomes_pkts_perm pkt _,
    fun a ha r hr => mem_softirqOutcomes_of_pass1 pkt ha (by simp [pass1Outcome, hr]),
    fun a ha hs => mem_softirqOutcomes_of_pass1 pkt ha (by simp [pass1Outcome, hs]),
    fun l hl => dispatched_mem_softirqOutcomes pkt hl, fun l hl => sublist_of_dispatched_mem pkt hl⟩

/-- A batch of five: two long DATA packets of one RPC around one of another,
a GRANT and a packet too short for its header. -/
def mixedBatchPkt : ℕ → SoftirqPkt
  | 0 => ⟨true, 1500, homaDataType, 5000, 1, 7⟩
  | 1 => ⟨true, 33, 0x11, 0, 2, 7⟩
  | 2 => ⟨true, 1500, homaDataType, 5000, 2, 7⟩
  | 3 => ⟨true, 1500, homaDataType, 5000, 1, 7⟩
  | _ => ⟨true, 20, homaDataType, 0, 3, 7⟩

theorem homaSoftirq_dispatches_once_mixed :
    ((0 :: [1, 2, 3, 4]).Nodup ∧ [1, 2, 3, 4].length + 1 < 6) ∧
      ∃ O, homaSoftirq mixedBatchPkt 6 ([1, 2, 3, 4].foldl homaGroAppend
          (GroBatch.start ⟨fun _ => none, fun _ => none⟩ 0)).heap 0 = some O ∧
        (O.flatMap Outcome.pkts).Perm (0 :: [1, 2, 3, 4]) ∧
        (∀ a ∈ 0 :: [1, 2, 3, 4], ∀ r, softirqVerdict (mixedBatchPkt a) = .discard r →
          Outcome.freed a r ∈ O) ∧
        (∀ a ∈ 0 :: [1, 2, 3, 4], softirqVerdict (mixedBatchPkt a) = .shortcut →
          Outcome.dispatched [a] ∈ O) ∧
        (∀ l, Outcome.dispatched l ∈ O →
          (∃ a ∈ 0 :: [1, 2, 3, 4], softirqVerdict (mixedBatchPkt a) = .shortcut ∧ l = [a]) ∨
            ∃ a ∈ longPkts mixedBatchPkt (0 :: [1, 2, 3, 4]),
              l = (longPkts mixedBatchPkt (0 :: [1, 2, 3, 4])).filter
                (rpcKey mixedBatchPkt · = rpcKey mixedBatchPkt a)) ∧
        ∀ l, Outcome.dispatched l ∈ O → l.Sublist (0 :: [1, 2, 3, 4]) :=
  ⟨⟨by decide, by decide⟩, homaSoftirq_dispatches_once mixedBatchPkt _ 0 [1, 2, 3, 4] (by decide) 6
    (by decide)⟩

example : homaSoftirq mixedBatchPkt 6 ([1, 2, 3, 4].foldl homaGroAppend
    (GroBatch.start ⟨fun _ => none, fun _ => none⟩ 0)).heap 0 =
      some [.dispatched [1], .freed 4 .pktTooSmall, .dispatched [0, 3], .dispatched [2]] := by
  decide

/-- A FREEZE request is a well-formed control packet, but `homa_softirq`
frees it (with `SKB_CONSUMED`) rather than dispatching it. -/
theorem homaSoftirq_frees_freeze :
    homaFreezeType ≠ homaDataType ∧
      homaSoftirq (fun _ => ⟨true, 28, homaFreezeType, 0, 1, 7⟩) 2
        (GroBatch.start (⟨fun _ => none, fun _ => none⟩ : SkbHeap ℕ) 0).heap 0 =
        some [.freed 0 .consumed] := by
  decide

end Homa
