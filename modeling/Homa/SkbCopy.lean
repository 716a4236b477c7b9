import Homa.FuelLoop
import Homa.MessageOutFill
import Homa.ScatterGather

/-!
# Copying the data of an sk_buff

`homa_skb_get` copies bytes of a packet out, from its linear part after the
transport header and then from its frags.  `homa_skb_append_from_skb` walks
the same way but appends to another sk_buff: linear bytes go into new frag
space from the core's page (`homa_skb_append_to_frag`,
`homa_skb_extend_frags`), and each source frag the range meets is referenced
by a new frag of the destination.

An sk_buff's data is its linear bytes followed by the bytes of its frags
(`Skb.bytes`), over pages of bytes (`ScatterGather`).  The page space the
core hands out is referenced by no frag (`SkbCore.Fresh`).  `MAX_SKB_FRAGS`
is a parameter: the frag loop stops at it, but `homa_skb_extend_frags`
writes `frags[nr_frags]` with no such test, and the model answers `none` for
that write past the array.
-/

namespace Homa

open ScatterGather FuelLoop

variable {π β : Type*}

def smpCacheBytes : ℕ := 64

/-- `ALIGN(x, a)`: `x` rounded up to a multiple of `a`. -/
def alignUp (x a : ℕ) : ℕ := (x + a - 1) / a * a

/-- An `skb_frag_t`: `size` bytes of `page` from `offset`. -/
structure SkbFrag (π : Type*) where
  page : π
  offset : ℕ
  size : ℕ
deriving DecidableEq, Repr

/-- What the copies read and change of an sk_buff: its linear bytes from the
transport header to the tail, and its frags. -/
structure Skb (π β : Type*) where
  head : List β
  frags : List (SkbFrag π)
deriving DecidableEq, Repr

/-- The bytes a frag refers to. -/
def SkbFrag.bytes (mem : π → ℕ → β) (frag : SkbFrag π) : List β :=
  read mem frag.page frag.offset frag.size

/-- The bytes of a list of frags, in order. -/
def fragBytes (mem : π → ℕ → β) (frags : List (SkbFrag π)) : List β :=
  frags.flatMap (SkbFrag.bytes mem)

/-- An sk_buff's data from its transport header on. -/
def Skb.bytes (mem : π → ℕ → β) (skb : Skb π β) : List β :=
  skb.head ++ fragBytes mem skb.frags

/-! ## Frag space on the core's page -/

/-- The page a core carves frag space from: `skb_page`, `page_size` and
`page_inuse` of its `homa_skb_core`. -/
structure CorePage (π : Type*) where
  page : π
  size : ℕ
  inuse : ℕ
deriving DecidableEq, Repr

/-- A page `homa_skb_page_alloc` can hand out, with its size. -/
structure FreePage (π : Type*) where
  page : π
  size : ℕ
  size_pos : 0 < size

/-- The `homa_skb_core` of the running core: its page (`none` while
`skb_page` is `NULL`, when `page_size` and `page_inuse` are 0), and the pages
`homa_skb_page_alloc` will hand out, in order. -/
structure SkbCore (π : Type*) where
  page : Option (CorePage π)
  freePages : List (FreePage π)

/-- `homa_skb_page_alloc(homa, skb_core)`: the next page it can hand out
becomes the core's page, with nothing in use; it fails with none left. -/
def homaSkbPageAlloc : List (FreePage π) → Option (CorePage π × List (FreePage π))
  | [] => none
  | fp :: rest => some (⟨fp.page, fp.size, 0⟩, rest)

/-- The page a new frag goes on: the core's page from `page_inuse` aligned to
a cache line, or a new one when that page has no room. -/
def homaSkbFragRoom (core : SkbCore π) : Option (CorePage π × List (FreePage π)) :=
  match core.page with
  | some cp =>
      let cp := { cp with inuse := alignUp cp.inuse smpCacheBytes }
      if cp.size ≤ cp.inuse then homaSkbPageAlloc core.freePages
      else some (cp, core.freePages)
  | none => homaSkbPageAlloc core.freePages

/-- The part of `homa_skb_extend_frags` that adds a new frag at
`frags[nr_frags]`, with no test against `MAX_SKB_FRAGS`; `none` is that
write past the array. -/
def homaSkbExtendFragsNew (maxSkbFrags : ℕ) (core : SkbCore π) (skb : Skb π β) (length : ℕ) :
    Option (SkbCore π × Skb π β × Option (π × ℕ × ℕ)) :=
  match homaSkbFragRoom core with
  | none => some (⟨none, core.freePages⟩, skb, none)
  | some (cp, freePages) =>
      if maxSkbFrags ≤ skb.frags.length then none
      else
        let actualSize := if cp.size - cp.inuse < length then cp.size - cp.inuse else length
        some (⟨some { cp with inuse := cp.inuse + actualSize }, freePages⟩,
          { skb with frags := skb.frags ++ [⟨cp.page, cp.inuse, actualSize⟩] },
          some (cp.page, cp.inuse, actualSize))

/-- `homa_skb_extend_frags(homa, skb, &length)`: the last frag grows when it
ends where the core's page is in use and the page has room, otherwise a new
frag is added; the space is `none` for `NULL`. -/
def homaSkbExtendFrags [DecidableEq π] (maxSkbFrags : ℕ) (core : SkbCore π) (skb : Skb π β)
    (length : ℕ) : Option (SkbCore π × Skb π β × Option (π × ℕ × ℕ)) :=
  match core.page, skb.frags.getLast? with
  | some cp, some frag =>
      if frag.page = cp.page ∧ cp.inuse < cp.size ∧ frag.offset + frag.size = cp.inuse then
        let actualSize := if cp.size - cp.inuse < length then cp.size - cp.inuse else length
        some (⟨some { cp with inuse := cp.inuse + actualSize }, core.freePages⟩,
          { skb with frags := skb.frags.dropLast ++ [{ frag with size := frag.size + actualSize }] },
          some (cp.page, cp.inuse, actualSize))
      else homaSkbExtendFragsNew maxSkbFrags core skb length
  | _, _ => homaSkbExtendFragsNew maxSkbFrags core skb length

/-- The state `homa_skb_append_to_frag` works on: the core, memory, the
sk_buff, and the bytes still to copy (`src` and `length`). -/
structure AppendToFragState (π β : Type*) where
  core : SkbCore π
  mem : π → ℕ → β
  skb : Skb π β
  src : List β

/-- One pass of the loop of `homa_skb_append_to_frag`: new frag space, and
the next bytes copied into it; `none` when the frag is written past the
array. -/
def homaSkbAppendToFragBody [DecidableEq π] (maxSkbFrags : ℕ) (s : AppendToFragState π β) :
    Option (Step (AppendToFragState π β) (ℤ × AppendToFragState π β)) :=
  if 0 < s.src.length then
    match homaSkbExtendFrags maxSkbFrags s.core s.skb s.src.length with
    | none => none
    | some (core, skb, none) => some (.done (-enomem, { s with core, skb }))
    | some (core, skb, some (page, addr, chunkLength)) =>
        some (.next ⟨core, write s.mem page addr (s.src.take chunkLength), skb,
          s.src.drop chunkLength⟩)
  else some (.done (0, s))

/-- `homa_skb_append_to_frag(homa, skb, buf, length)` for the bytes `buf`;
each pass copies at least one byte, so `length + 1` passes are enough. -/
def homaSkbAppendToFrag [DecidableEq π] (maxSkbFrags : ℕ) (core : SkbCore π) (mem : π → ℕ → β)
    (skb : Skb π β) (buf : List β) : Option (ℤ × AppendToFragState π β) :=
  run (homaSkbAppendToFragBody maxSkbFrags) (buf.length + 1) ⟨core, mem, skb, buf⟩

/-! ## The two walks -/

/-- The frag loop of `homa_skb_get`: the bytes from `offset`, `length` of
them at most, of the frags `frags`, the first of which starts at
`frag_offset`. -/
def homaSkbGetFrags (mem : π → ℕ → β) : List (SkbFrag π) → ℕ → ℕ → ℕ → List β
  | [], _, _, _ => []
  | frag :: frags, offset, length, fragOffset =>
      if length = 0 then []
      else if fragOffset + frag.size ≤ offset then
        homaSkbGetFrags mem frags offset length (fragOffset + frag.size)
      else
        let chunkSize := frag.size - (offset - fragOffset)
        let chunkSize := if chunkSize > length then length else chunkSize
        read mem frag.page (frag.offset + (offset - fragOffset)) chunkSize ++
          homaSkbGetFrags mem frags (offset + chunkSize) (length - chunkSize)
            (fragOffset + frag.size)

/-- `homa_skb_get(skb, dest, offset, length)`: the bytes it copies to
`dest`.  `offset` and `length` are the `int`s of the source, which callers
pass nonnegative. -/
def homaSkbGet (mem : π → ℕ → β) (skb : Skb π β) (offset length : ℕ) : List β :=
  let headLen := skb.head.length
  if offset < headLen then
    let chunkSize := if length > headLen - offset then headLen - offset else length
    (skb.head.drop offset).take chunkSize ++
      homaSkbGetFrags mem skb.frags (offset + chunkSize) (length - chunkSize) headLen
  else homaSkbGetFrags mem skb.frags offset length headLen

/-- The frag loop of `homa_skb_append_from_skb`: each source frag the range
meets becomes a new frag of `dst` on the same page, until `dst` has
`HOMA_MAX_SKB_FRAGS` frags. -/
def homaSkbAppendFromSkbFrags (maxSkbFrags : ℕ) (dst : Skb π β) :
    List (SkbFrag π) → ℕ → ℕ → ℕ → ℤ × Skb π β
  | [], _, _, _ => (0, dst)
  | srcFrag :: srcFrags, offset, length, srcFragOffset =>
      if length = 0 then (0, dst)
      else if srcFragOffset + srcFrag.size ≤ offset then
        homaSkbAppendFromSkbFrags maxSkbFrags dst srcFrags offset length (srcFragOffset + srcFrag.size)
      else
        let chunkSize := srcFrag.size - (offset - srcFragOffset)
        let chunkSize := if chunkSize > length then length else chunkSize
        if dst.frags.length = maxSkbFrags then (-einval, dst)
        else
          let dstFrag : SkbFrag π :=
            ⟨srcFrag.page, srcFrag.offset + (offset - srcFragOffset), chunkSize⟩
          homaSkbAppendFromSkbFrags maxSkbFrags { dst with frags := dst.frags ++ [dstFrag] } srcFrags
            (offset + chunkSize) (length - chunkSize) (srcFragOffset + srcFrag.size)

/-- `homa_skb_append_from_skb(homa, dst_skb, src_skb, offset, length)`: the
result, and the core, memory and `dst_skb` after; `none` when a frag is
written past the array. -/
def homaSkbAppendFromSkb [DecidableEq π] (maxSkbFrags : ℕ) (core : SkbCore π) (mem : π → ℕ → β)
    (dst src : Skb π β) (offset length : ℕ) :
    Option (ℤ × SkbCore π × (π → ℕ → β) × Skb π β) :=
  let headLen := src.head.length
  if offset < headLen then
    let chunkSize := if length > headLen - offset then headLen - offset else length
    match homaSkbAppendToFrag maxSkbFrags core mem dst ((src.head.drop offset).take chunkSize) with
    | none => none
    | some (err, s) =>
        if err ≠ 0 then some (err, s.core, s.mem, s.skb)
        else
          let r := homaSkbAppendFromSkbFrags maxSkbFrags s.skb src.frags (offset + chunkSize)
            (length - chunkSize) headLen
          some (r.1, s.core, s.mem, r.2)
  else
    let r := homaSkbAppendFromSkbFrags maxSkbFrags dst src.frags offset length headLen
    some (r.1, core, mem, r.2)

/-! ## Frags and their bytes -/

@[simp] theorem fragBytes_nil (mem : π → ℕ → β) : fragBytes mem ([] : List (SkbFrag π)) = [] :=
  rfl

@[simp] theorem fragBytes_cons (mem : π → ℕ → β) (frag : SkbFrag π) (frags : List (SkbFrag π)) :
    fragBytes mem (frag :: frags) = frag.bytes mem ++ fragBytes mem frags :=
  List.flatMap_cons

@[simp] theorem fragBytes_append (mem : π → ℕ → β) (fs gs : List (SkbFrag π)) :
    fragBytes mem (fs ++ gs) = fragBytes mem fs ++ fragBytes mem gs :=
  List.flatMap_append

@[simp] theorem length_bytes (mem : π → ℕ → β) (frag : SkbFrag π) :
    (frag.bytes mem).length = frag.size :=
  length_read _ _ _ _

theorem fragBytes_write_of_disjoint [DecidableEq π] (mem : π → ℕ → β) {page : π} {addr : ℕ}
    (bs : List β) {fs : List (SkbFrag π)}
    (h : ∀ f ∈ fs, f.page ≠ page ∨ f.offset + f.size ≤ addr) :
    fragBytes (write mem page addr bs) fs = fragBytes mem fs := by
  apply List.flatMap_congr
  intro f hf
  exact read_write_of_disjoint mem ((h f hf).imp id Or.inl)

/-- `f` refers to bytes inside those `g` refers to. -/
def SkbFrag.Within (f g : SkbFrag π) : Prop :=
  f.page = g.page ∧ g.offset ≤ f.offset ∧ f.offset + f.size ≤ g.offset + g.size

theorem SkbFrag.Within.refl (f : SkbFrag π) : f.Within f :=
  ⟨rfl, le_rfl, le_rfl⟩

/-! ## The two walks copy a window -/

theorem window_fragBytes_cons_of_le (mem : π → ℕ → β) (frag : SkbFrag π)
    (frags : List (SkbFrag π)) {offset fragOffset : ℕ} (length : ℕ)
    (hskip : fragOffset + frag.size ≤ offset) :
    window (fragBytes mem (frag :: frags)) (offset - fragOffset) length =
      window (fragBytes mem frags) (offset - (fragOffset + frag.size)) length := by
  rw [fragBytes_cons, window_append_of_le _ _ _ (by rw [length_bytes]; omega), length_bytes]
  congr 1
  omega

theorem window_fragBytes_cons (mem : π → ℕ → β) (frag : SkbFrag π) (frags : List (SkbFrag π))
    {offset length fragOffset chunkSize : ℕ} (hbase : fragOffset ≤ offset)
    (hin : offset < fragOffset + frag.size)
    (hchunk : chunkSize = if frag.size - (offset - fragOffset) > length then length
      else frag.size - (offset - fragOffset)) :
    window (fragBytes mem (frag :: frags)) (offset - fragOffset) length =
      read mem frag.page (frag.offset + (offset - fragOffset)) chunkSize ++
        window (fragBytes mem frags) (offset + chunkSize - (fragOffset + frag.size))
          (length - chunkSize) := by
  have hmin : chunkSize = min ((frag.bytes mem).length - (offset - fragOffset)) length := by
    rw [length_bytes, hchunk]
    split_ifs <;> omega
  have hlt : offset - fragOffset < (frag.bytes mem).length := by
    rw [length_bytes]
    omega
  rw [fragBytes_cons, window_append_of_lt (frag.bytes mem) (fragBytes mem frags) hlt hmin,
    length_bytes, SkbFrag.bytes, window_read _ _ _ (by omega)]
  congr 2
  · rw [length_bytes] at hmin
    omega
  · omega

theorem homaSkbGetFrags_eq_window (mem : π → ℕ → β) (frags : List (SkbFrag π)) :
    ∀ offset length fragOffset, (fragOffset ≤ offset ∨ length = 0) →
      homaSkbGetFrags mem frags offset length fragOffset =
        window (fragBytes mem frags) (offset - fragOffset) length := by
  induction frags with
  | nil =>
    intro offset length fragOffset _
    simp [homaSkbGetFrags, window]
  | cons frag frags ih =>
    intro offset length fragOffset hbase
    by_cases hlen : length = 0
    · simp [homaSkbGetFrags, hlen]
    have hle : fragOffset ≤ offset := hbase.resolve_right hlen
    by_cases hskip : fragOffset + frag.size ≤ offset
    · rw [homaSkbGetFrags, if_neg hlen, if_pos hskip, ih _ _ _ (Or.inl hskip),
        window_fragBytes_cons_of_le _ _ _ _ hskip]
    · rw [homaSkbGetFrags, if_neg hlen, if_neg hskip,
        window_fragBytes_cons mem frag frags hle (by omega) rfl]
      dsimp only
      -- either the piece was the rest of the frag, or the last bytes wanted
      rw [ih _ _ _ (by split_ifs <;> omega)]

theorem homaSkbGet_eq_window (mem : π → ℕ → β) (skb : Skb π β) (offset length : ℕ) :
    homaSkbGet mem skb offset length = window (skb.bytes mem) offset length := by
  unfold homaSkbGet Skb.bytes
  dsimp only
  by_cases hhead : offset < skb.head.length
  · -- the linear bytes first, then the frags from where they end
    have hmin : (if length > skb.head.length - offset then skb.head.length - offset else length) =
        min (skb.head.length - offset) length := by
      rw [Nat.min_def]
      split_ifs <;> omega
    rw [if_pos hhead, window_append_of_lt skb.head (fragBytes mem skb.frags) hhead hmin,
      window_eq_take skb.head hmin, homaSkbGetFrags_eq_window]
    split_ifs <;> omega
  · have hle : skb.head.length ≤ offset := Nat.le_of_not_lt hhead
    rw [if_neg hhead, window_append_of_le skb.head (fragBytes mem skb.frags) length hle,
      homaSkbGetFrags_eq_window mem skb.frags offset length _ (Or.inl hle)]

/-- The frag loop of `homa_skb_append_from_skb` adds to `dst` frags inside
the source frags, never past `HOMA_MAX_SKB_FRAGS` of them; their bytes are
the window of the source frags' bytes when it returns 0, and a prefix of it
when it stops because `dst` is full. -/
theorem homaSkbAppendFromSkbFrags_spec (mem : π → ℕ → β) (maxSkbFrags : ℕ)
    (srcFrags : List (SkbFrag π)) :
    ∀ (dst : Skb π β) (offset length srcFragOffset : ℕ) (err : ℤ) (dst' : Skb π β),
      (srcFragOffset ≤ offset ∨ length = 0) → dst.frags.length ≤ maxSkbFrags →
      homaSkbAppendFromSkbFrags maxSkbFrags dst srcFrags offset length srcFragOffset =
        (err, dst') →
      (err = 0 ∨ err = -einval) ∧
      ∃ added, dst' = { dst with frags := dst.frags ++ added } ∧
        (dst.frags ++ added).length ≤ maxSkbFrags ∧
        (∀ f ∈ added, ∃ g ∈ srcFrags, f.Within g) ∧
        fragBytes mem added <+: window (fragBytes mem srcFrags) (offset - srcFragOffset) length ∧
        (err = 0 →
          fragBytes mem added = window (fragBytes mem srcFrags) (offset - srcFragOffset) length) := by
  induction srcFrags with
  | nil =>
    intro dst offset length srcFragOffset err dst' _ hmax h
    rw [homaSkbAppendFromSkbFrags, Prod.mk.injEq] at h
    obtain ⟨rfl, rfl⟩ := h
    exact ⟨Or.inl rfl, [], by simp, by simpa using hmax, by simp, by simp [window],
      fun _ => by simp [window]⟩
  | cons srcFrag srcFrags ih =>
    intro dst offset length srcFragOffset err dst' hbase hmax h
    by_cases hlen : length = 0
    · rw [homaSkbAppendFromSkbFrags, if_pos hlen, Prod.mk.injEq] at h
      obtain ⟨rfl, rfl⟩ := h
      exact ⟨Or.inl rfl, [], by simp, by simpa using hmax, by simp, by simp [hlen],
        fun _ => by simp [hlen]⟩
    have hle : srcFragOffset ≤ offset := hbase.resolve_right hlen
    by_cases hskip : srcFragOffset + srcFrag.size ≤ offset
    · -- the frag ends before the range starts
      rw [homaSkbAppendFromSkbFrags, if_neg hlen, if_pos hskip] at h
      obtain ⟨herr, added, rfl, hmax', hin, hpre, heq⟩ := ih _ _ _ _ _ _ (Or.inl hskip) hmax h
      rw [window_fragBytes_cons_of_le mem srcFrag srcFrags length hskip]
      refine ⟨herr, added, rfl, hmax', fun f hf => ?_, hpre, heq⟩
      obtain ⟨g, hg, hfg⟩ := hin f hf
      exact ⟨g, List.mem_cons_of_mem _ hg, hfg⟩
    rw [homaSkbAppendFromSkbFrags, if_neg hlen, if_neg hskip] at h
    dsimp only at h
    obtain ⟨chunk, hchunk⟩ : ∃ c, c = if srcFrag.size - (offset - srcFragOffset) > length then length
        else srcFrag.size - (offset - srcFragOffset) := ⟨_, rfl⟩
    rw [← hchunk] at h
    rw [window_fragBytes_cons mem srcFrag srcFrags hle (by omega) hchunk]
    by_cases hfull : dst.frags.length = maxSkbFrags
    · -- `dst` is full: `-EINVAL`, with nothing added
      rw [if_pos hfull, Prod.mk.injEq] at h
      obtain ⟨rfl, rfl⟩ := h
      exact ⟨Or.inr rfl, [], by simp, by simpa using hmax, by simp, by simp,
        fun h0 => absurd h0 (by decide)⟩
    · -- the piece becomes a frag of `dst` on the source frag's page, below the bound
      rw [if_neg hfull] at h
      have hmax1 : (dst.frags ++ [(⟨srcFrag.page, srcFrag.offset + (offset - srcFragOffset),
          chunk⟩ : SkbFrag π)]).length ≤ maxSkbFrags := by
        rw [List.length_append, List.length_singleton]
        omega
      obtain ⟨herr, added, rfl, hmax', hin, hpre, heq⟩ :=
        ih _ _ _ _ _ _ (by split_ifs at hchunk <;> omega) hmax1 h
      refine ⟨herr, ⟨srcFrag.page, srcFrag.offset + (offset - srcFragOffset), chunk⟩ :: added,
        by simp, by simpa using hmax', fun f hf => ?_, ?_, fun h0 => ?_⟩
      · rcases List.mem_cons.mp hf with rfl | hf
        · refine ⟨srcFrag, List.mem_cons_self, rfl, by simp, ?_⟩
          dsimp only
          split_ifs at hchunk <;> omega
        · obtain ⟨g, hg, hfg⟩ := hin f hf
          exact ⟨g, List.mem_cons_of_mem _ hg, hfg⟩
      · exact (List.prefix_append_right_inj _).mpr hpre
      · rw [fragBytes_cons, heq h0]
        rfl

/-! ## The page allocator's invariant -/

/-- The page allocator's invariant for the frags `fs`: none reaches past
`page_inuse` on the core's page or lies on a page still to be handed out. -/
structure SkbCore.Fresh (core : SkbCore π) (fs : List (SkbFrag π)) : Prop where
  below_inuse : ∀ cp, core.page = some cp → ∀ f ∈ fs, f.page = cp.page →
    f.offset + f.size ≤ cp.inuse
  not_free : ∀ fp ∈ core.freePages, ∀ f ∈ fs, f.page ≠ fp.page
  free_ne_page : ∀ cp, core.page = some cp → ∀ fp ∈ core.freePages, fp.page ≠ cp.page
  free_nodup : (core.freePages.map FreePage.page).Nodup

theorem le_alignUp (x : ℕ) {a : ℕ} (ha : 0 < a) : x ≤ alignUp x a := by
  have hdiv := Nat.div_add_mod' (x + a - 1) a
  have hmod := Nat.mod_lt (x + a - 1) ha
  unfold alignUp
  omega

namespace SkbCore.Fresh

variable {core : SkbCore π} {fs : List (SkbFrag π)}

theorem disjoint (h : core.Fresh fs) {cp : CorePage π} (hcp : core.page = some cp) :
    ∀ f ∈ fs, f.page ≠ cp.page ∨ f.offset + f.size ≤ cp.inuse := by
  intro f hf
  by_cases hpage : f.page = cp.page
  · exact Or.inr (h.below_inuse cp hcp f hf hpage)
  · exact Or.inl hpage

theorem mono (h : core.Fresh fs) {fs' : List (SkbFrag π)}
    (hsub : ∀ f ∈ fs', ∃ g ∈ fs, f.Within g) : core.Fresh fs' where
  below_inuse cp hcp f hf hpage := by
    obtain ⟨g, hg, hpg, _, hend⟩ := hsub f hf
    have hg_end := h.below_inuse cp hcp g hg (hpg ▸ hpage)
    omega
  not_free fp hfp f hf := by
    obtain ⟨g, hg, hpg, -⟩ := hsub f hf
    rw [hpg]
    exact h.not_free fp hfp g hg
  free_ne_page := h.free_ne_page
  free_nodup := h.free_nodup

theorem append_within {src dst added : List (SkbFrag π)} (h : core.Fresh (src ++ dst))
    (hin : ∀ f ∈ added, ∃ g ∈ src, f.Within g) : core.Fresh (src ++ (dst ++ added)) := by
  refine h.mono fun f hf => ?_
  rw [← List.append_assoc, List.mem_append] at hf
  rcases hf with hf | hf
  · exact ⟨f, hf, SkbFrag.Within.refl f⟩
  · obtain ⟨g, hg, hfg⟩ := hin f hf
    exact ⟨g, List.mem_append_left _ hg, hfg⟩

theorem carve (h : core.Fresh fs) {cp : CorePage π} (hcp : core.page = some cp)
    {fs' : List (SkbFrag π)} {actual : ℕ} (g : SkbFrag π) (hg : g.page = cp.page)
    (hend : g.offset + g.size = cp.inuse + actual) (hfs' : ∀ f ∈ fs', f ∈ fs ∨ f = g) :
    (⟨some { cp with inuse := cp.inuse + actual }, core.freePages⟩ : SkbCore π).Fresh fs' where
  below_inuse cp' hcp' f hf hpage := by
    cases hcp'
    show f.offset + f.size ≤ cp.inuse + actual
    rcases hfs' f hf with hf | rfl
    · have hf_end := h.below_inuse cp hcp f hf hpage
      omega
    · exact hend.le
  not_free fp hfp f hf := by
    rcases hfs' f hf with hf | rfl
    · exact h.not_free fp hfp f hf
    · rw [hg]
      exact (h.free_ne_page cp hcp fp hfp).symm
  free_ne_page cp' hcp' fp hfp := by
    cases hcp'
    exact h.free_ne_page cp hcp fp hfp
  free_nodup := h.free_nodup

theorem pageAlloc (h : core.Fresh fs) {cp : CorePage π} {free : List (FreePage π)}
    (halloc : homaSkbPageAlloc core.freePages = some (cp, free)) :
    (⟨some cp, free⟩ : SkbCore π).Fresh fs ∧ cp.inuse < cp.size := by
  cases hfree : core.freePages with
  | nil => simp [hfree, homaSkbPageAlloc] at halloc
  | cons fp rest =>
    rw [hfree, homaSkbPageAlloc, Option.some.injEq, Prod.mk.injEq] at halloc
    obtain ⟨rfl, rfl⟩ := halloc
    have hnodup := h.free_nodup
    rw [hfree, List.map_cons, List.nodup_cons] at hnodup
    have hfp_free : ∀ f ∈ fs, f.page ≠ fp.page := h.not_free fp (by simp [hfree])
    refine ⟨⟨?_, ?_, ?_, hnodup.2⟩, fp.size_pos⟩
    · intro cp' hcp' f hf hpage
      cases hcp'
      exact absurd hpage (hfp_free f hf)
    · intro fp' hfp' f hf
      exact h.not_free fp' (by simp [hfree, hfp']) f hf
    · intro cp' hcp' fp' hfp' hpage
      cases hcp'
      have hmem : fp'.page ∈ rest.map FreePage.page := List.mem_map_of_mem hfp'
      rw [hpage] at hmem
      exact hnodup.1 hmem

theorem fragRoom (h : core.Fresh fs) {cp : CorePage π} {free : List (FreePage π)}
    (hroom : homaSkbFragRoom core = some (cp, free)) :
    (⟨some cp, free⟩ : SkbCore π).Fresh fs ∧ cp.inuse < cp.size := by
  unfold homaSkbFragRoom at hroom
  split at hroom
  · rename_i cp0 hcp0
    dsimp only at hroom
    split_ifs at hroom with hfull
    · exact h.pageAlloc hroom
    · -- the core's page, its use rounded up to a cache line
      rw [Option.some.injEq, Prod.mk.injEq] at hroom
      obtain ⟨rfl, rfl⟩ := hroom
      have hup := le_alignUp cp0.inuse (show 0 < smpCacheBytes by decide)
      refine ⟨⟨?_, h.not_free, ?_, h.free_nodup⟩, Nat.lt_of_not_le hfull⟩
      · intro cp' hcp' f hf hpage
        cases hcp'
        have hf_end := h.below_inuse cp0 hcp0 f hf hpage
        show f.offset + f.size ≤ alignUp cp0.inuse smpCacheBytes
        omega
      · intro cp' hcp' fp hfp
        cases hcp'
        exact h.free_ne_page cp0 hcp0 fp hfp
  · exact h.pageAlloc hroom

end SkbCore.Fresh

/-! ## Extending the frags -/

/-- What a successful `homa_skb_extend_frags` gives: `chunk` bytes of `page`
at the end of the frags, in space no frag of `others` or `skb` reaches. -/
structure FragSpace (others : List (SkbFrag π)) (core' : SkbCore π) (skb skb' : Skb π β)
    (length : ℕ) (page : π) (addr chunk : ℕ) : Prop where
  head_eq : skb'.head = skb.head
  chunk_pos : 0 < chunk
  chunk_le : chunk ≤ length
  disjoint : ∀ f ∈ others ++ skb.frags, f.page ≠ page ∨ f.offset + f.size ≤ addr
  bytes_eq : ∀ mem : π → ℕ → β,
    fragBytes mem skb'.frags = fragBytes mem skb.frags ++ read mem page addr chunk
  fresh : core'.Fresh (others ++ skb'.frags)

section Extend

variable {others : List (SkbFrag π)} {core core' : SkbCore π} {skb skb' : Skb π β} {length : ℕ}
  {maxSkbFrags : ℕ}

theorem mem_append_concat {fs : List (SkbFrag π)} {g f : SkbFrag π}
    (hf : f ∈ others ++ (fs ++ [g])) : f ∈ others ++ fs ∨ f = g := by
  rwa [← List.append_assoc, List.mem_append, List.mem_singleton] at hf

theorem homaSkbExtendFragsNew_null (hfresh : core.Fresh (others ++ skb.frags))
    (h : homaSkbExtendFragsNew maxSkbFrags core skb length = some (core', skb', none)) :
    skb' = skb ∧ core'.Fresh (others ++ skb.frags) := by
  unfold homaSkbExtendFragsNew at h
  split at h
  · simp only [Option.some.injEq, Prod.mk.injEq] at h
    obtain ⟨rfl, rfl, -⟩ := h
    -- no page: only the pages still to hand out are left to keep apart
    exact ⟨rfl, ⟨fun _ hcp => (by cases hcp), hfresh.not_free, fun _ hcp => (by cases hcp),
      hfresh.free_nodup⟩⟩
  · split_ifs at h <;> simp at h

theorem homaSkbExtendFragsNew_space {page : π} {addr chunk : ℕ}
    (hfresh : core.Fresh (others ++ skb.frags)) (hlen : 0 < length)
    (h : homaSkbExtendFragsNew maxSkbFrags core skb length =
      some (core', skb', some (page, addr, chunk))) :
    FragSpace others core' skb skb' length page addr chunk := by
  unfold homaSkbExtendFragsNew at h
  split at h
  · simp at h
  · rename_i cp free hroom
    have hfull : ¬maxSkbFrags ≤ skb.frags.length := fun hfull => by
      rw [if_pos hfull] at h
      cases h
    rw [if_neg hfull] at h
    simp only [Option.some.injEq, Prod.mk.injEq] at h
    obtain ⟨rfl, rfl, rfl, rfl, rfl⟩ := h
    obtain ⟨hfresh', hroomlt⟩ := hfresh.fragRoom hroom
    exact {
      head_eq := rfl
      chunk_pos := by split_ifs <;> omega
      chunk_le := by split_ifs <;> omega
      disjoint := hfresh'.disjoint rfl
      bytes_eq := fun mem => by simp [SkbFrag.bytes]
      fresh := hfresh'.carve rfl _ rfl rfl fun f hf => mem_append_concat hf }

theorem homaSkbExtendFragsNew_fault
    (h : homaSkbExtendFragsNew maxSkbFrags core skb length = none) :
    maxSkbFrags ≤ skb.frags.length := by
  unfold homaSkbExtendFragsNew at h
  split at h
  · cases h
  · by_contra hfull
    rw [if_neg hfull] at h
    cases h

theorem homaSkbExtendFragsNew_length_le {r : Option (π × ℕ × ℕ)}
    (hmax : skb.frags.length ≤ maxSkbFrags)
    (h : homaSkbExtendFragsNew maxSkbFrags core skb length = some (core', skb', r)) :
    skb'.frags.length ≤ maxSkbFrags := by
  unfold homaSkbExtendFragsNew at h
  split at h
  · simp only [Option.some.injEq, Prod.mk.injEq] at h
    obtain ⟨-, rfl, -⟩ := h
    exact hmax
  · have hfull : ¬maxSkbFrags ≤ skb.frags.length := fun hfull => by
      rw [if_pos hfull] at h
      cases h
    rw [if_neg hfull] at h
    simp only [Option.some.injEq, Prod.mk.injEq] at h
    obtain ⟨-, rfl, -⟩ := h
    rw [List.length_append, List.length_singleton]
    omega

theorem homaSkbExtendFrags_null [DecidableEq π] (hfresh : core.Fresh (others ++ skb.frags))
    (h : homaSkbExtendFrags maxSkbFrags core skb length = some (core', skb', none)) :
    skb' = skb ∧ core'.Fresh (others ++ skb.frags) := by
  unfold homaSkbExtendFrags at h
  split at h
  · rename_i cp frag _ _
    by_cases hgrow : frag.page = cp.page ∧ cp.inuse < cp.size ∧ frag.offset + frag.size = cp.inuse
    · rw [if_pos hgrow] at h
      simp at h
    · rw [if_neg hgrow] at h
      exact homaSkbExtendFragsNew_null hfresh h
  · exact homaSkbExtendFragsNew_null hfresh h

theorem homaSkbExtendFrags_space [DecidableEq π] {page : π} {addr chunk : ℕ}
    (hfresh : core.Fresh (others ++ skb.frags)) (hlen : 0 < length)
    (h : homaSkbExtendFrags maxSkbFrags core skb length =
      some (core', skb', some (page, addr, chunk))) :
    FragSpace others core' skb skb' length page addr chunk := by
  unfold homaSkbExtendFrags at h
  split at h
  · rename_i cp frag hcp hlast
    by_cases hgrow : frag.page = cp.page ∧ cp.inuse < cp.size ∧ frag.offset + frag.size = cp.inuse
    · -- the last frag grows into the space after it
      rw [if_pos hgrow] at h
      dsimp only at h
      obtain ⟨actual, hactual⟩ : ∃ a, a = if cp.size - cp.inuse < length then cp.size - cp.inuse
          else length := ⟨_, rfl⟩
      rw [← hactual] at h
      simp only [Prod.mk.injEq, Option.some.injEq] at h
      obtain ⟨rfl, rfl, rfl, rfl, rfl⟩ := h
      obtain ⟨hpage, hroom, hend⟩ := hgrow
      obtain ⟨init, hinit⟩ := List.getLast?_eq_some_iff.mp hlast
      have hdrop : skb.frags.dropLast = init := by rw [hinit, List.dropLast_concat]
      exact {
        head_eq := rfl
        chunk_pos := by split_ifs at hactual <;> omega
        chunk_le := by split_ifs at hactual <;> omega
        disjoint := hfresh.disjoint hcp
        bytes_eq := fun mem => by
          rw [hdrop, hinit]
          simp only [fragBytes_append, fragBytes_cons, fragBytes_nil, List.append_nil,
            SkbFrag.bytes, read_add, hend, hpage, List.append_assoc]
        fresh := hfresh.carve hcp { frag with size := frag.size + actual } hpage
            (by dsimp only; omega) fun f hf => by
          rcases mem_append_concat hf with hf | rfl
          · rw [hdrop, List.mem_append] at hf
            rw [hinit, List.mem_append, List.mem_append]
            tauto
          · exact Or.inr rfl }
    · rw [if_neg hgrow] at h
      exact homaSkbExtendFragsNew_space hfresh hlen h
  · exact homaSkbExtendFragsNew_space hfresh hlen h

theorem homaSkbExtendFrags_fault [DecidableEq π]
    (h : homaSkbExtendFrags maxSkbFrags core skb length = none) :
    maxSkbFrags ≤ skb.frags.length := by
  unfold homaSkbExtendFrags at h
  split at h
  · rename_i cp frag _ _
    by_cases hgrow : frag.page = cp.page ∧ cp.inuse < cp.size ∧ frag.offset + frag.size = cp.inuse
    · rw [if_pos hgrow] at h
      cases h
    · rw [if_neg hgrow] at h
      exact homaSkbExtendFragsNew_fault h
  · exact homaSkbExtendFragsNew_fault h

theorem homaSkbExtendFrags_length_le [DecidableEq π] {r : Option (π × ℕ × ℕ)}
    (hmax : skb.frags.length ≤ maxSkbFrags)
    (h : homaSkbExtendFrags maxSkbFrags core skb length = some (core', skb', r)) :
    skb'.frags.length ≤ maxSkbFrags := by
  unfold homaSkbExtendFrags at h
  split at h
  · rename_i cp frag _ hlast
    by_cases hgrow : frag.page = cp.page ∧ cp.inuse < cp.size ∧ frag.offset + frag.size = cp.inuse
    · -- growing the last frag keeps their number
      rw [if_pos hgrow] at h
      simp only [Option.some.injEq, Prod.mk.injEq] at h
      obtain ⟨-, rfl, -⟩ := h
      obtain ⟨init, hinit⟩ := List.getLast?_eq_some_iff.mp hlast
      rw [hinit] at hmax
      simpa [hinit] using hmax
    · rw [if_neg hgrow] at h
      exact homaSkbExtendFragsNew_length_le hmax h
  · exact homaSkbExtendFragsNew_length_le hmax h

end Extend

/-! ## Copying the linear bytes -/

/-- The invariant of `homa_skb_append_to_frag`: the allocator's invariant, the
bytes of `others` unchanged, the frags holding their old bytes followed by
the part of `buf` copied so far, within `MAX_SKB_FRAGS`. -/
structure AppendToFragState.Inv (maxSkbFrags : ℕ) (others : List (SkbFrag π))
    (mem : π → ℕ → β) (skb : Skb π β) (buf : List β) (s : AppendToFragState π β) : Prop where
  fresh : s.core.Fresh (others ++ s.skb.frags)
  head_eq : s.skb.head = skb.head
  others_eq : fragBytes s.mem others = fragBytes mem others
  copied : ∃ written, fragBytes s.mem s.skb.frags = fragBytes mem skb.frags ++ written ∧
    written ++ s.src = buf
  frags_le : s.skb.frags.length ≤ maxSkbFrags

section AppendToFrag

variable [DecidableEq π] {maxSkbFrags : ℕ} {others : List (SkbFrag π)} {mem : π → ℕ → β}
  {skb : Skb π β} {buf : List β}

/-- What `homa_skb_append_to_frag` returns: 0 with all of `buf` copied, or
`-ENOMEM`. -/
def AppendToFragState.Done (maxSkbFrags : ℕ) (others : List (SkbFrag π)) (mem : π → ℕ → β)
    (skb : Skb π β) (buf : List β) (r : ℤ × AppendToFragState π β) : Prop :=
  r.2.Inv maxSkbFrags others mem skb buf ∧ (r.1 = 0 ∧ r.2.src = [] ∨ r.1 = -enomem)

theorem AppendToFragState.Inv.copy {s : AppendToFragState π β}
    (hinv : s.Inv maxSkbFrags others mem skb buf) {core' : SkbCore π} {skb' : Skb π β}
    {page : π} {addr chunk : ℕ}
    (hspace : FragSpace others core' s.skb skb' s.src.length page addr chunk)
    (hmax : skb'.frags.length ≤ maxSkbFrags) :
    (⟨core', write s.mem page addr (s.src.take chunk), skb', s.src.drop chunk⟩ :
      AppendToFragState π β).Inv maxSkbFrags others mem skb buf where
  fresh := hspace.fresh
  head_eq := hspace.head_eq.trans hinv.head_eq
  others_eq := by
    rw [fragBytes_write_of_disjoint _ _ fun f hf => hspace.disjoint f (List.mem_append_left _ hf)]
    exact hinv.others_eq
  copied := by
    obtain ⟨written, hw, hbuf⟩ := hinv.copied
    have htake : (s.src.take chunk).length = chunk := by
      rw [List.length_take]
      exact Nat.min_eq_left hspace.chunk_le
    have hread : read (write s.mem page addr (s.src.take chunk)) page addr chunk =
        s.src.take chunk := by
      have hself := read_write_self s.mem page addr (s.src.take chunk)
      rwa [htake] at hself
    refine ⟨written ++ s.src.take chunk, ?_, ?_⟩
    · dsimp only
      rw [hspace.bytes_eq, fragBytes_write_of_disjoint _ _
        fun f hf => hspace.disjoint f (List.mem_append_right _ hf), hw, hread, List.append_assoc]
    · dsimp only
      rw [List.append_assoc, List.take_append_drop, hbuf]
  frags_le := hmax

theorem AppendToFragState.Inv.step {s : AppendToFragState π β}
    (hinv : s.Inv maxSkbFrags others mem skb buf)
    {t : Step (AppendToFragState π β) (ℤ × AppendToFragState π β)}
    (hbody : homaSkbAppendToFragBody maxSkbFrags s = some t) :
    t.Holds (AppendToFragState.Inv maxSkbFrags others mem skb buf)
        (AppendToFragState.Done maxSkbFrags others mem skb buf) ∧
      ∀ s', t = .next s' → s'.src.length < s.src.length := by
  unfold homaSkbAppendToFragBody at hbody
  split_ifs at hbody with hlen
  · split at hbody
    · cases hbody
    · -- no page could be had: `-ENOMEM`, with the sk_buff as it was
      rename_i core' skb' hext
      cases hbody
      obtain ⟨rfl, hfresh'⟩ := homaSkbExtendFrags_null hinv.fresh hext
      exact ⟨⟨{ hinv with fresh := hfresh' }, Or.inr rfl⟩, fun _ h => by cases h⟩
    · rename_i core' skb' page addr chunk hext
      cases hbody
      have hspace := homaSkbExtendFrags_space hinv.fresh hlen hext
      refine ⟨hinv.copy hspace (homaSkbExtendFrags_length_le hinv.frags_le hext), fun s' h => ?_⟩
      cases h
      have hpos := hspace.chunk_pos
      simp only [List.length_drop]
      omega
  · -- nothing left to copy
    cases hbody
    exact ⟨⟨hinv, Or.inl ⟨rfl, List.eq_nil_of_length_eq_zero (Nat.eq_zero_of_not_pos hlen)⟩⟩,
      fun _ h => by cases h⟩

theorem homaSkbAppendToFragBody_fault {s : AppendToFragState π β}
    (h : homaSkbAppendToFragBody maxSkbFrags s = none) :
    0 < s.src.length ∧ maxSkbFrags ≤ s.skb.frags.length := by
  unfold homaSkbAppendToFragBody at h
  split_ifs at h with hlen
  · split at h
    · rename_i hext
      exact ⟨hlen, homaSkbExtendFrags_fault hext⟩
    · cases h
    · cases h

/-- `homa_skb_append_to_frag` returns, with 0 and all of `buf` copied after
what the sk_buff held, or with `-ENOMEM` and part of it copied; the frags of
`others` read as they did.  Or it writes a new frag past the array, with
`MAX_SKB_FRAGS` frags in the sk_buff and bytes left to copy. -/
theorem homaSkbAppendToFrag_spec (buf : List β) {core : SkbCore π}
    (hfresh : core.Fresh (others ++ skb.frags)) (hmax : skb.frags.length ≤ maxSkbFrags) :
    (∃ err s, homaSkbAppendToFrag maxSkbFrags core mem skb buf = some (err, s) ∧
        AppendToFragState.Done maxSkbFrags others mem skb buf (err, s)) ∨
      (homaSkbAppendToFrag maxSkbFrags core mem skb buf = none ∧
        ∃ s : AppendToFragState π β, s.Inv maxSkbFrags others mem skb buf ∧
          0 < s.src.length ∧ s.skb.frags.length = maxSkbFrags) := by
  have hinit : (⟨core, mem, skb, buf⟩ : AppendToFragState π β).Inv maxSkbFrags others mem skb buf :=
    ⟨hfresh, rfl, rfl, ⟨[], by simp, by simp⟩, hmax⟩
  -- each pass copies a byte, so the bytes left bound the passes
  rcases run_terminates_or_faults (fun s : AppendToFragState π β => s.src.length)
      (fun _ hs _ ht => hs.step ht) (buf.length + 1) _ hinit (Nat.lt_succ_self _) with
    ⟨⟨err, s⟩, hrun, hdone⟩ | ⟨hrun, s, hs, hfault⟩
  · exact Or.inl ⟨err, s, hrun, hdone⟩
  · obtain ⟨hlen, hfull⟩ := homaSkbAppendToFragBody_fault hfault
    exact Or.inr ⟨hrun, s, hs, hlen, le_antisymm hs.frags_le hfull⟩

end AppendToFrag

/-! ## Appending from another sk_buff -/

/-- What `homa_skb_append_from_skb` leaves when it returns: a result of 0,
`-ENOMEM` or `-EINVAL`, the source unchanged, and the destination holding
its old bytes followed by a prefix of `want`, all of it on 0. -/
structure AppendsPrefix (maxSkbFrags : ℕ) (mem : π → ℕ → β) (dst src : Skb π β)
    (want : List β) (err : ℤ) (core' : SkbCore π) (mem' : π → ℕ → β) (dst' : Skb π β) :
    Prop where
  err_cases : err = 0 ∨ err = -enomem ∨ err = -einval
  src_eq : src.bytes mem' = src.bytes mem
  appended : ∃ appended, dst'.bytes mem' = dst.bytes mem ++ appended ∧ appended <+: want ∧
    (err = 0 → appended = want)
  frags_le : dst'.frags.length ≤ maxSkbFrags
  fresh : core'.Fresh (src.frags ++ dst'.frags)

/-- Where `homa_skb_append_from_skb` writes a frag past the array: the
destination then holds `MAX_SKB_FRAGS` frags, and what it held followed by
part of `want`, short of all of it. -/
structure OverrunsFrags (maxSkbFrags : ℕ) (mem : π → ℕ → β) (dst : Skb π β) (want : List β)
    (mem' : π → ℕ → β) (dst' : Skb π β) : Prop where
  full : dst'.frags.length = maxSkbFrags
  appended : ∃ appended, dst'.bytes mem' = dst.bytes mem ++ appended ∧ appended <+: want ∧
    appended.length < want.length

/-- What `homa_skb_append_from_skb` does, against the bytes `want`: it
returns with `AppendsPrefix`, or it writes a frag past the array. -/
def AppendFromSkbSpec (maxSkbFrags : ℕ) (mem : π → ℕ → β) (dst src : Skb π β) (want : List β) :
    Option (ℤ × SkbCore π × (π → ℕ → β) × Skb π β) → Prop
  | some (err, core', mem', dst') => AppendsPrefix maxSkbFrags mem dst src want err core' mem' dst'
  | none => ∃ mem' dst', OverrunsFrags maxSkbFrags mem dst want mem' dst'

section AppendFromSkb

variable [DecidableEq π] {maxSkbFrags : ℕ} {core : SkbCore π} {dst src : Skb π β}

theorem homaSkbAppendFromSkb_of_le (mem : π → ℕ → β) (offset length : ℕ)
    (hfresh : core.Fresh (src.frags ++ dst.frags)) (hmax : dst.frags.length ≤ maxSkbFrags)
    (hle : src.head.length ≤ offset) :
    AppendFromSkbSpec maxSkbFrags mem dst src (homaSkbGet mem src offset length)
      (homaSkbAppendFromSkb maxSkbFrags core mem dst src offset length) := by
  obtain ⟨⟨err, dst'⟩, hr⟩ : ∃ r, homaSkbAppendFromSkbFrags maxSkbFrags dst src.frags offset
      length src.head.length = r := ⟨_, rfl⟩
  obtain ⟨herr, added, rfl, hmax', hin, hpre, heq⟩ := homaSkbAppendFromSkbFrags_spec mem
    maxSkbFrags src.frags dst offset length _ err _ (Or.inl hle) hmax hr
  have hget : homaSkbGet mem src offset length =
      window (fragBytes mem src.frags) (offset - src.head.length) length := by
    simp only [homaSkbGet, if_neg (Nat.not_lt.mpr hle)]
    exact homaSkbGetFrags_eq_window _ _ _ _ _ (Or.inl hle)
  have hrun : homaSkbAppendFromSkb maxSkbFrags core mem dst src offset length =
      some (err, core, mem, { dst with frags := dst.frags ++ added }) := by
    simp only [homaSkbAppendFromSkb, if_neg (Nat.not_lt.mpr hle), hr]
  rw [hrun]
  exact ⟨herr.imp_right Or.inr, rfl, ⟨fragBytes mem added, by simp [Skb.bytes], hget ▸ hpre,
    fun h0 => hget ▸ heq h0⟩, hmax', hfresh.append_within hin⟩

theorem homaSkbAppendFromSkb_of_lt (mem : π → ℕ → β) (offset length : ℕ)
    (hfresh : core.Fresh (src.frags ++ dst.frags)) (hmax : dst.frags.length ≤ maxSkbFrags)
    (hhead : offset < src.head.length) :
    AppendFromSkbSpec maxSkbFrags mem dst src (homaSkbGet mem src offset length)
      (homaSkbAppendFromSkb maxSkbFrags core mem dst src offset length) := by
  obtain ⟨chunk, hchunk⟩ : ∃ c, c = if length > src.head.length - offset
      then src.head.length - offset else length := ⟨_, rfl⟩
  have hget : homaSkbGet mem src offset length = (src.head.drop offset).take chunk ++
      window (fragBytes mem src.frags) (offset + chunk - src.head.length) (length - chunk) := by
    simp only [homaSkbGet, if_pos hhead, ← hchunk]
    rw [homaSkbGetFrags_eq_window]
    split_ifs at hchunk <;> omega
  rcases homaSkbAppendToFrag_spec ((src.head.drop offset).take chunk) hfresh hmax with
    ⟨err1, s, hcopy, hinv, hcases⟩ | ⟨hcopy, s, hinv, hleft, hfull⟩
  · obtain ⟨written, hw, hbuf⟩ := hinv.copied
    have hsrc : src.bytes s.mem = src.bytes mem := by
      rw [Skb.bytes, Skb.bytes, hinv.others_eq]
    rcases hcases with ⟨rfl, hnil⟩ | rfl
    · -- all the linear bytes copied: the frag loop goes on from there
      rw [hnil, List.append_nil] at hbuf
      subst hbuf
      obtain ⟨⟨err, dst'⟩, hr⟩ : ∃ r, homaSkbAppendFromSkbFrags maxSkbFrags s.skb src.frags
          (offset + chunk) (length - chunk) src.head.length = r := ⟨_, rfl⟩
      obtain ⟨herr, added, rfl, hmax', hin, hpre, heq⟩ := homaSkbAppendFromSkbFrags_spec s.mem
        maxSkbFrags src.frags s.skb _ _ _ err dst' (by split_ifs at hchunk <;> omega)
        hinv.frags_le hr
      -- the frags are read after the copy, which left the source's bytes alone
      rw [hinv.others_eq] at hpre heq
      have hrun : homaSkbAppendFromSkb maxSkbFrags core mem dst src offset length =
          some (err, s.core, s.mem, { s.skb with frags := s.skb.frags ++ added }) := by
        simp [homaSkbAppendFromSkb, hhead, ← hchunk, hcopy, hr]
      rw [hrun]
      refine ⟨herr.imp_right Or.inr, hsrc,
        ⟨(src.head.drop offset).take chunk ++ fragBytes s.mem added, ?_, ?_, fun h0 => ?_⟩,
        hmax', hinv.fresh.append_within hin⟩
      · simp only [Skb.bytes, fragBytes_append, hw, List.append_assoc]
        rw [show s.skb.head = dst.head from hinv.head_eq]
      · rw [hget]
        exact (List.prefix_append_right_inj _).mpr hpre
      · rw [hget, heq h0]
    · -- no page could be had: `-ENOMEM`, with part of the linear bytes copied
      have hrun : homaSkbAppendFromSkb maxSkbFrags core mem dst src offset length =
          some (-enomem, s.core, s.mem, s.skb) := by
        simp [homaSkbAppendFromSkb, hhead, ← hchunk, hcopy, enomem]
      rw [hrun]
      refine ⟨Or.inr (Or.inl rfl), hsrc, ⟨written, ?_, ?_, fun h0 => absurd h0 (by decide)⟩,
        hinv.frags_le, hinv.fresh⟩
      · rw [Skb.bytes, Skb.bytes, hw, hinv.head_eq, List.append_assoc]
      · rw [hget]
        exact List.IsPrefix.trans ⟨s.src, hbuf⟩ (List.prefix_append _ _)
  · -- a new frag for the linear bytes goes past the array, with bytes still to copy
    obtain ⟨written, hw, hbuf⟩ := hinv.copied
    have hrun : homaSkbAppendFromSkb maxSkbFrags core mem dst src offset length = none := by
      simp [homaSkbAppendFromSkb, hhead, ← hchunk, hcopy]
    have hshort : written.length < ((src.head.drop offset).take chunk).length := by
      rw [← hbuf, List.length_append]
      omega
    rw [hrun]
    refine ⟨s.mem, s.skb, hfull, written, ?_, ?_, ?_⟩
    · rw [Skb.bytes, Skb.bytes, hw, hinv.head_eq, List.append_assoc]
    · rw [hget]
      exact List.IsPrefix.trans ⟨s.src, hbuf⟩ (List.prefix_append _ _)
    · rw [hget, List.length_append]
      omega

end AppendFromSkb

/-- For every pair of sk_buffs with at most `MAX_SKB_FRAGS` frags in the
destination, every memory, every state of the core's page that the
allocator's invariant holds of, and every `offset` and `length`:
`homa_skb_get` copies the source's bytes `[offset, min (offset + length,
total))` from the transport header, and `homa_skb_append_from_skb` either
returns with `AppendsPrefix` of those bytes or, copying the linear bytes into
a destination that already holds `MAX_SKB_FRAGS` frags, writes a frag past
the array having appended part of them. -/
theorem homaSkbAppendFromSkb_copies [DecidableEq π] (maxSkbFrags : ℕ) (core : SkbCore π)
    (mem : π → ℕ → β) (dst src : Skb π β) (offset length : ℕ)
    (hfresh : core.Fresh (src.frags ++ dst.frags)) (hmax : dst.frags.length ≤ maxSkbFrags) :
    homaSkbGet mem src offset length = window (src.bytes mem) offset length ∧
      AppendFromSkbSpec maxSkbFrags mem dst src (homaSkbGet mem src offset length)
        (homaSkbAppendFromSkb maxSkbFrags core mem dst src offset length) := by
  refine ⟨homaSkbGet_eq_window mem src offset length, ?_⟩
  -- the linear bytes are copied only when the range starts among them
  by_cases hhead : offset < src.head.length
  · exact homaSkbAppendFromSkb_of_lt mem offset length hfresh hmax hhead
  · exact homaSkbAppendFromSkb_of_le mem offset length hfresh hmax (Nat.le_of_not_lt hhead)

/-- Page `p` holds byte `100 * p + i` at position `i`. -/
def pagedMem (p i : ℕ) : ℕ := 100 * p + i

/-- Three linear bytes after the transport header, then frags of three and
two bytes. -/
def linearAndFragsSkb : Skb ℕ ℕ := ⟨[10, 11, 12], [⟨5, 0, 3⟩, ⟨6, 2, 2⟩]⟩

/-- No page yet, and two one- and two-byte pages to hand out. -/
def twoPageCore : SkbCore ℕ := ⟨none, [⟨7, 1, Nat.one_pos⟩, ⟨8, 2, Nat.two_pos⟩]⟩

theorem homaSkbAppendFromSkb_copies_linearAndFrags :
    twoPageCore.Fresh (linearAndFragsSkb.frags ++ []) ∧ ([] : List (SkbFrag ℕ)).length ≤ 17 ∧
      (homaSkbGet pagedMem linearAndFragsSkb 1 6 =
          window (linearAndFragsSkb.bytes pagedMem) 1 6 ∧
        AppendFromSkbSpec 17 pagedMem ⟨[], []⟩ linearAndFragsSkb
          (homaSkbGet pagedMem linearAndFragsSkb 1 6)
          (homaSkbAppendFromSkb 17 twoPageCore pagedMem ⟨[], []⟩ linearAndFragsSkb 1 6)) := by
  have hfresh : twoPageCore.Fresh (linearAndFragsSkb.frags ++ []) :=
    ⟨fun _ hcp => (by cases hcp), by decide, fun _ hcp => (by cases hcp), by decide⟩
  exact ⟨hfresh, by decide, homaSkbAppendFromSkb_copies 17 twoPageCore pagedMem ⟨[], []⟩
    linearAndFragsSkb 1 6 hfresh (by decide)⟩

/-- The linear bytes go to a one-byte page and then a second page; the two
frags are referenced, the second in part. -/
example :
    (homaSkbAppendFromSkb 17 twoPageCore pagedMem ⟨[], []⟩ linearAndFragsSkb 1 6).map
        (fun r => (r.1, r.2.2.2.bytes r.2.2.1, r.2.2.2.frags)) =
      some (0, [11, 12, 500, 501, 502, 602], [⟨7, 0, 1⟩, ⟨8, 0, 1⟩, ⟨5, 0, 3⟩, ⟨6, 2, 1⟩]) := by
  decide +kernel

end Homa
