import RtThread.Mem.SmallMemBlocks

/-!
# The small memory heap over whole runs

From its initialisation on the heap is a list of blocks without two free
neighbours, `used_mem` is what the blocks in use span, and `lfree` is a free
block.  Allocation, release and reallocation keep this and only write headers,
so the bytes of live payloads stay.
-/

namespace RtThread.Mem.SmallMem

open Kernel ByteMemory Tiling Transition

/-- What a block counts for in `used_mem`. -/
def usedSpan (b : Block) : Nat := if b.used then b.stop - b.start else 0

/-- The heap is the list of blocks `l`. -/
structure Consistent (c : Config) (h : Heap) (l : List Block) : Prop where
  shape : Shape c h l
  stamped : Stamped h l
  plugged : NoTwoFree l
  usedMem : h.usedMem = total usedSpan l
  inside : forall b, b ∈ l -> b.used = true ->
    b.start + c.sizeofStructMem < h.heapEnd c
  lfree : FreeAt (h.heapEnd c) l h.lfree

structure Evolves (c : Config) (h : Heap) (l : List Block) (h' : Heap)
    (l' : List Block) : Prop where
  heapPtr : h'.heapPtr = h.heapPtr
  memSizeAligned : h'.memSizeAligned = h.memSizeAligned
  consistent : Consistent c h' l'
  bytes : HeadersOnly c.sizeofStructMem 0 (h.heapEnd c) l l' h.mem h'.mem

/-- `lfree` is the lowest free block. -/
def Lowest (c : Config) (h : Heap) (l : List Block) : Prop :=
  h.lfree = lowestFree (h.heapEnd c) l

section Consistent

variable {c : Config} {h h' : Heap} {l l' s t : List Block} {b d : Block}
  {p q : Option Block}

theorem Evolves.heapEnd (he : Evolves c h l h' l') : h'.heapEnd c = h.heapEnd c := by
  unfold Heap.heapEnd
  rw [he.memSizeAligned]

theorem usedSpan_free (hb : b.used = false) : usedSpan b = 0 := by
  simp [usedSpan, hb]

theorem usedSpan_le : usedSpan b ≤ b.stop - b.start := by
  unfold usedSpan
  split
  · exact Nat.le_refl _
  · exact Nat.zero_le _

theorem Shape.used_le (hs : Shape c h l) : total usedSpan l ≤ h.heapEnd c := by
  have hle := hs.tiles.total_le (w := usedSpan) fun b => usedSpan_le
  omega

/-!
## Where `lfree` goes
-/

theorem plugged_freeAt {e x : Nat} (hj : Join l l' p q s t) (hb : b.used = false)
    (hx : FreeAt e (l ++ b :: l') x) :
    FreeAt e (s ++ joined p b q :: t) (backwardLfree (forwardLfree x b q) p b) := by
  unfold backwardLfree
  split
  · exact Join.freeAt_joined
  · rename_i hback
    unfold forwardLfree at hback ⊢
    split at hback
    · exact absurd rfl hback
    · rename_i hforward
      rw [if_neg hforward]
      rcases hx with hend | ⟨d, hd, hused, hstart⟩
      · exact Or.inl hend
      · rw [hj.left, hj.right] at hd
        simp only [List.mem_append, List.mem_cons, Option.mem_toList] at hd
        rcases hd with (hd | hp) | heq | hq | hd
        · exact Or.inr ⟨d, by simp [hd], hused, hstart⟩
        · subst hp
          exact Or.inr ⟨joined (some d) b q, by simp, rfl, hstart⟩
        · subst heq
          exact absurd hstart.symm hback
        · subst hq
          exact absurd (congrArg some hstart) hforward
        · exact Or.inr ⟨d, by simp [hd], hused, hstart⟩

theorem backwardLfree_none {x : Nat} : backwardLfree x none b = x := by
  unfold backwardLfree
  split
  · rename_i heq
    exact heq.symm
  · rfl

theorem plugged_lowest {gap a e : Nat} (hj : Join l l' p q s t)
    (hgap : 0 < gap) (hb : b.used = false)
    (ht : Tiles gap a (l ++ b :: l') e) :
    backwardLfree (forwardLfree (lowestFree e (l ++ b :: l')) b q) p b =
      lowestFree e (l ++ b :: l') := by
  have hle := ht.lowestFree_le (e := e) (b := b) (by simp) hb
  have hforward : forwardLfree (lowestFree e (l ++ b :: l')) b q = lowestFree e (l ++ b :: l') := by
    unfold forwardLfree
    apply if_neg
    intro hq
    rw [Option.map_eq_some_iff] at hq
    rcases hq with ⟨x, hx, hstart⟩
    subst hx
    have hbd := ht.bounds (b := b) (by simp)
    have hright := ht.around.right x (by simp [hj.right])
    omega
  rw [hforward]
  unfold backwardLfree
  split
  · rename_i heq
    cases p with
    | none => exact heq.symm
    | some x =>
      have hx : x ∈ l := by simp [hj.left]
      have hxle := ht.lowestFree_le (e := e) (b := x) (by simp [hx]) (hj.leftFree x rfl)
      have hbd := ht.bounds (b := x) (by simp [hx])
      have hleft := ht.around.left x hx
      omega
  · rfl

/-!
## Release
-/

theorem Consistent.release (hc : Consistent c h (l ++ b :: l')) (hb : b.used = true) {h1 : Heap}
    (hmem : SameMem ((h.put b.start Field.used 0).put b.start Field.magic 0) h1)
    (hused : h1.usedMem = h.usedMem - (b.stop - b.start))
    (hlfree : h1.lfree = if b.start < h.lfree then b.start else h.lfree) :
    exists h' r, plugHoles c h1 b.start = some h' ∧
      Evolves c h (l ++ b :: l') h' r ∧ OneMore r (l ++ b :: l') b ∧
      (Lowest c h (l ++ b :: l') -> Lowest c h' r) := by
  have hhdr := c.le_sizeof
  have hs := hc.shape
  have ht := hs.tiles
  have hbm : b ∈ l ++ b :: l' := by simp
  have hmark := (hs.mark (v := 0) (w := 0) (by decide) (by decide)
    (fun hne => absurd rfl hne)).sameMem hmem
  simp only [ne_eq, not_true_eq_false, decide_false] at hmark
  have hfree : ({ b with used := false } : Block).used = false := rfl
  rcases plugHoles_spec hmark.shape hfree with
    ⟨h', p, q, s, t, hplug, hj, he, hlf, hum⟩
  have hsame := hj.sameUsed (b := { b with used := false }) rfl
  have hone := ht.oneMore_mark (by omega) hb
  have hfreeAt : FreeAt (h.heapEnd c) (l ++ { b with used := false } :: l')
      h1.lfree := by
    rw [hlfree]
    split
    · exact Or.inr ⟨{ b with used := false }, by simp, rfl, rfl⟩
    · rcases hc.lfree with hend | ⟨d, hd, hfree, hstart⟩
      · exact Or.inl hend
      · refine Or.inr ⟨d, ?_, hfree, hstart⟩
        simp only [List.mem_append, List.mem_cons] at hd ⊢
        rcases hd with hd | heq | hd
        · exact Or.inl hd
        · rw [heq, hb] at hfree
          cases hfree
        · exact Or.inr (Or.inr hd)
  have hplugged := noTwoFree_append.mp hc.plugged
  have hedit : Edit c h (l ++ b :: l') h' (s ++ joined p { b with used := false } q :: t) := by
    apply hmark.trans he
    intro d hd
    simp only [List.mem_append, List.mem_cons] at hd
    rcases hd with hd | heq | hd
    · exact ⟨d, by simp [hd], rfl⟩
    · subst heq
      exact ⟨b, by simp, rfl⟩
    · exact ⟨d, by simp [hd], rfl⟩
  refine ⟨h', _, hplug, ⟨hedit.heapPtr, hedit.memSizeAligned, ?_, hedit.bytes⟩,
    hone.of_same hsame, ?_⟩
  · constructor
    · exact hedit.shape
    · exact hedit.stamped hc.stamped
    · exact hj.noTwoFree hplugged.left hplugged.right.right.right
    · rw [hum, hused, hc.usedMem, hj.total_eq (w := usedSpan) rfl fun d hd => usedSpan_free hd]
      have hspan : usedSpan b = b.stop - b.start := by simp [usedSpan, hb]
      have hzero : usedSpan { b with used := false } = 0 := rfl
      simp only [total_append, total_cons, hspan, hzero]
      omega
    · intro d hd hd'
      rw [hedit.heapEnd]
      exact hc.inside d (((hone.of_same hsame).right.right d hd').mpr (Or.inl hd)) hd'
    · rw [hedit.heapEnd, hlf]
      exact plugged_freeAt hj rfl hfreeAt
  · intro hlow
    unfold Lowest at hlow ⊢
    have hend : h1.heapEnd c = h.heapEnd c := hmark.heapEnd
    have htm := hmark.shape.tiles
    rw [hend] at htm
    have hlow1 : h1.lfree = lowestFree (h.heapEnd c) (l ++ { b with used := false } :: l') := by
      rw [hlfree, hlow, lowestFree_append, lowestFree_append]
      have hcons : lowestFree (h.heapEnd c) (b :: l') =
          lowestFree (h.heapEnd c) l' := by simp [lowestFree, hb]
      have hcons' : lowestFree (h.heapEnd c) ({ b with used := false } :: l') =
          b.start := rfl
      rw [hcons, hcons']
      have hbd := ht.bounds hbm
      rcases lowestFree_cases l with ⟨_, hall⟩ | ⟨d, hd, _, hall⟩
      · rw [hall, hall]
        apply if_pos
        rcases lowestFree_freeAt (e := h.heapEnd c) (l := l') with
          hE | ⟨d, hd, _, hstart⟩
        · omega
        · have hright := ht.around.right d hd
          omega
      · rw [hall, hall]
        apply if_neg
        have hleft := ht.around.left d hd
        have hdb := ht.bounds (b := d) (by simp [hd])
        omega
    rw [hedit.heapEnd, hlf, hlow1,
      plugged_lowest hj (Nat.lt_of_lt_of_le (by decide) hhdr) rfl htm, hj.lowestFree_eq rfl]

theorem Consistent.align_payload (hs : Shape c h l) (hb : b ∈ l) :
    payload h.heapPtr c.sizeofStructMem b % c.alignSize = 0 := by
  have h1 := Nat.dvd_of_mod_eq_zero hs.base
  have h2 := Nat.dvd_of_mod_eq_zero (hs.aligned b hb)
  have h3 := Nat.dvd_of_mod_eq_zero c.sizeof_mod
  exact Nat.mod_eq_zero_of_dvd (Nat.dvd_add (Nat.dvd_add h1 h2) h3)

theorem Shape.span (hs : Shape c h l) (hb : b ∈ l) :
    sub32 (h.get b.start Field.next) b.start = b.stop - b.start := by
  have hbd := hs.tiles.bounds hb
  rw [hs.next_eq hb, sub32_of_le (by omega) (hs.stop_lt hb).right]

theorem header_of_payload : payload h.heapPtr c.sizeofStructMem b - c.sizeofStructMem - h.heapPtr =
      b.start := by
  unfold payload
  omega

theorem rtFree_spec (hc : Consistent c h l) (hb : b ∈ l) (hused : b.used = true) :
    exists h' r, rtFree c h (some (payload h.heapPtr c.sizeofStructMem b)) = some h' ∧
      Evolves c h l h' r ∧ OneMore r l b ∧ (Lowest c h l -> Lowest c h' r) := by
  have hin := hc.inside b hb hused
  have halign := Consistent.align_payload hc.shape hb
  have hmagic := hc.stamped b hb hused
  have hne := (hc.shape.used_iff hb).mpr hused
  have hspan := hc.shape.span hb
  have hle := hc.shape.used_le
  have hsmall := hc.shape.small
  have hbd := hc.shape.tiles.bounds hb
  have hnext := hc.shape.next_eq hb
  have hstop := hc.shape.stop_lt hb
  simp only [rtFree]
  rw [if_pos ⟨halign, by unfold payload; omega, by unfold payload; omega⟩,
    header_of_payload, if_pos ⟨hne, hmagic⟩]
  rcases List.append_of_mem hb with ⟨s, t, hl⟩
  subst hl
  apply hc.release hused
  · exact ⟨rfl, rfl, rfl⟩
  · have hget : forall x : Nat, ({ (h.put b.start Field.used 0).put b.start
        Field.magic 0 with lfree := x } : Heap).get b.start Field.next =
          b.stop := by
      intro x
      show ((h.put b.start Field.used 0).put b.start Field.magic 0).get b.start Field.next = b.stop
      rw [Heap.get_put_field (by decide), Heap.get_put_field (by decide)]
      exact hnext
    simp only [hget]
    rw [sub32_of_le (by omega) hstop.right]
    apply sub32_of_le
    · show b.stop - b.start ≤ h.usedMem
      rw [hc.usedMem, total_append, total_cons]
      have hb' : usedSpan b = b.stop - b.start := by simp [usedSpan, hused]
      omega
    · show h.usedMem < 2 ^ 32
      rw [hc.usedMem]
      omega
  · rfl

/-!
## Allocation
-/

variable {size fuel ptr : Nat} {r : List Block}

theorem Shape.fits_iff (hs : Shape c h l) (hb : b ∈ l) : fits c h size b.start = true <->
      b.used = false ∧ b.start + c.sizeofStructMem + size ≤ b.stop := by
  have hbd := hs.tiles.bounds hb
  have hstop := hs.stop_lt hb
  unfold fits
  rw [decide_eq_true_iff, hs.free_iff hb, hs.next_eq hb, sub32_of_le (by omega) hstop.right]
  constructor
  · rintro ⟨hfree, hle⟩
    exact ⟨hfree, by omega⟩
  · rintro ⟨hfree, hle⟩
    exact ⟨hfree, by omega⟩

theorem search_sound {mem : Nat} (hs : Shape c h l)
    (hptr : ptr = h.heapEnd c ∨ exists d, d ∈ l ∧ d.start = ptr)
    (hsearch : search c h size fuel ptr = some (some mem)) :
    exists d, d ∈ l ∧ d.start = mem ∧ d.used = false ∧
      d.start + c.sizeofStructMem + size ≤ d.stop := by
  induction fuel generalizing ptr with
  | zero => cases hsearch
  | succ fuel ih =>
    rw [search] at hsearch
    split at hsearch
    · split at hsearch
      · rename_i hfits
        cases hsearch
        rcases hptr with hend | ⟨d, hd, hstart⟩
        · unfold fits at hfits
          rw [decide_eq_true_iff, hend] at hfits
          exact absurd hfits.left hs.endUsed
        · rw [← hstart] at hfits
          exact ⟨d, hd, hstart, (hs.fits_iff hd).mp hfits⟩
      · apply ih _ hsearch
        rcases hptr with hend | ⟨d, hd, hstart⟩
        · rw [hend]
          exact Or.inl hs.endNext
        · rw [← hstart, hs.next_eq hd]
          exact hs.stop_cases hd
    · cases hsearch

/-- What the loop of `rt_malloc` looks for. -/
def candidate (c : Config) (h : Heap) (size : Nat) (b : Block) : Bool :=
  b.used = false ∧ b.start + c.sizeofStructMem + size ≤ b.stop ∧
    b.start < h.memSizeAligned - size

theorem search_eq (hs : Shape c h l) (ht : Tiles c.sizeofStructMem ptr s (h.heapEnd c))
    (hsub : forall d, d ∈ s -> d ∈ l) (hsize : size ≤ h.memSizeAligned)
    (hfuel : s.length < fuel) :
    search c h size fuel ptr = some ((s.find? (candidate c h size)).map Block.start) := by
  have hhdr := c.le_sizeof
  have hmsa : h.memSizeAligned < 2 ^ 32 := by
    have hsmall := hs.small
    unfold Heap.heapEnd at hsmall
    omega
  induction s generalizing ptr fuel with
  | nil =>
    cases fuel with
    | zero => cases hfuel
    | succ fuel =>
      have hptr : ptr = h.heapEnd c := ht
      unfold Heap.heapEnd at hptr
      rw [search, sub32_of_le hsize hmsa, if_neg (by omega)]
      rfl
  | cons d s ih =>
    cases fuel with
    | zero => cases hfuel
    | succ fuel =>
      have hd := hsub d (by simp)
      rcases ht with ⟨hstart, hroom, hrest⟩
      rw [search, sub32_of_le hsize hmsa]
      by_cases hlt : ptr < h.memSizeAligned - size
      · rw [if_pos hlt]
        by_cases hfits : fits c h size ptr = true
        · rw [if_pos hfits]
          rw [← hstart] at hfits hlt
          have hcand : candidate c h size d = true := by
            have hiff := (hs.fits_iff hd).mp hfits
            unfold candidate
            rw [decide_eq_true_iff]
            exact ⟨hiff.left, hiff.right, hlt⟩
          rw [List.find?_cons_of_pos hcand, Option.map_some, hstart]
        · rw [if_neg hfits]
          have hcand : ¬ candidate c h size d = true := by
            intro hcand
            unfold candidate at hcand
            rw [decide_eq_true_iff] at hcand
            apply hfits
            rw [← hstart]
            exact (hs.fits_iff hd).mpr ⟨hcand.left, hcand.right.left⟩
          rw [List.find?_cons_of_neg hcand, ← hstart, hs.next_eq hd]
          apply ih hrest (fun x hx => hsub x (by simp [hx]))
          rw [List.length_cons] at hfuel
          omega
      · -- from here on every block starts too high
        rw [if_neg hlt]
        have hnone : (d :: s).find? (candidate c h size) = none := by
          rw [List.find?_eq_none]
          intro x hx hcand
          unfold candidate at hcand
          rw [decide_eq_true_iff] at hcand
          have hbd := Tiles.bounds (a := ptr) (l := d :: s) ⟨hstart, hroom, hrest⟩ hx
          omega
        rw [hnone]
        rfl

theorem nextFree_eq (hs : Shape c h l) (ht : Tiles c.sizeofStructMem ptr s (h.heapEnd c))
    (hsub : forall d, d ∈ s -> d ∈ l) (hfuel : s.length < fuel) :
    nextFree c h fuel ptr = some (lowestFree (h.heapEnd c) s) := by
  have hhdr := c.le_sizeof
  induction s generalizing ptr fuel with
  | nil =>
    cases fuel with
    | zero => cases hfuel
    | succ fuel =>
      have hptr : ptr = h.heapEnd c := ht
      rw [nextFree, if_neg (by simp [hptr]), hptr]
      rfl
  | cons d s ih =>
    cases fuel with
    | zero => cases hfuel
    | succ fuel =>
      have hd := hsub d (by simp)
      rcases ht with ⟨hstart, hroom, hrest⟩
      have hle := hrest.le
      rw [nextFree, ← hstart, lowestFree]
      cases hused : d.used with
      | true =>
        rw [if_pos ⟨(hs.used_iff hd).mpr hused, by omega⟩, hs.next_eq hd]
        rw [List.length_cons] at hfuel
        exact ih hrest (fun x hx => hsub x (by simp [hx])) (by omega)
      | false =>
        rw [if_neg (by simp [(hs.free_iff hd).mpr hused])]
        rfl

/-- A block in use, followed by what is left of a free one. -/
structure Taken (c : Config) (h : Heap) (l : List Block) (b : Block)
    (l' : List Block) (size : Nat) (h' : Heap) (d : Block) (r : List Block) :
    Prop where
  start : d.start = b.start
  used : d.used = true
  room : d.start + c.sizeofStructMem + size ≤ d.stop
  le : d.stop ≤ b.stop
  rest : forall x, x ∈ r -> x.used = false
  edit : Edit c h (l ++ b :: l') h' (l ++ d :: (r ++ l'))
  plugged : NoTwoFree (l ++ d :: (r ++ l'))
  usedMem : h'.usedMem = h.usedMem + (d.stop - d.start)
  lfree : h'.lfree = h.lfree

theorem Consistent.used_lt (hc : Consistent c h (l ++ b :: l')) (hb : b.used = false) :
    h.usedMem + (b.stop - b.start) < 2 ^ 32 := by
  have hs := hc.shape
  -- with the block marked as used, the sum still fits in the heap
  have ht : Tiles c.sizeofStructMem 0 (l ++ { b with used := true } :: l') (h.heapEnd c) := by
    have hsplit := tiles_append.mp hs.tiles
    exact tiles_append.mpr hsplit
  have hle := ht.total_le (w := usedSpan) fun _ => usedSpan_le
  have hspan : usedSpan { b with used := true } = b.stop - b.start := rfl
  have hsmall := hs.small
  rw [hc.usedMem]
  simp only [total_append, total_cons, hspan, usedSpan_free hb] at hle ⊢
  omega

theorem Edit.taken (size : Nat) {h1 : Heap} (he : Edit c h (l ++ b :: l') h1 (l ++ d :: (r ++ l')))
    (hstart : d.start = b.start) (hle : d.stop ≤ b.stop)
    (hroom : d.start + c.sizeofStructMem + size ≤ d.stop)
    (hrest : forall x, x ∈ r -> x.used = false)
    (hl : NoTwoFree l) (hr : NoTwoFree (r ++ l'))
    (hused : h1.usedMem = h.usedMem) (hlfree : h1.lfree = h.lfree)
    (hfits : h.usedMem + (d.stop - d.start) < 2 ^ 32) :
    Taken c h l b l' size (((h1.put d.start Field.used 1).account (d.stop - d.start)).put d.start
        Field.magic heapMagic) { d with used := true } r := by
  have hmark := he.shape.mark (v := 1) (w := heapMagic) (by decide) (by decide) (fun _ => rfl)
  constructor
  · exact hstart
  · rfl
  · exact hroom
  · exact hle
  · exact hrest
  · have hedit := he.trans hmark (by
      intro x hx
      simp only [List.mem_append, List.mem_cons] at hx
      rcases hx with hx | heq | hx | hx
      · exact ⟨x, by simp [hx], rfl⟩
      · exact ⟨{ d with used := true }, by simp, by rw [heq]⟩
      · exact ⟨x, by simp [hx], rfl⟩
      · exact ⟨x, by simp [hx], rfl⟩)
    exact hedit.sameMem ⟨rfl, rfl, rfl⟩
  · exact noTwoFree_append.mpr ⟨hl, fun _ _ => Or.inr rfl, fun _ _ => Or.inl rfl, hr⟩
  · show add32 h1.usedMem _ = h.usedMem + (d.stop - d.start)
    rw [hused, add32_of_lt hfits]
  · exact hlfree

theorem Consistent.take (hc : Consistent c h (l ++ b :: l'))
    (hb : b.used = false) (halign : size % c.alignSize = 0)
    (hroom : b.start + c.sizeofStructMem + size ≤ b.stop) :
    exists d r, Taken c h l b l' size
      ((takeBlock c h size b.start).put b.start Field.magic heapMagic) d r := by
  have hhdr := c.le_sizeof
  have hs := hc.shape
  have hbm : b ∈ l ++ b :: l' := by simp
  have hstop := hs.stop_lt hbm
  have hnext := hs.next_eq hbm
  have hlt := hc.used_lt hb
  rcases noTwoFree_append.mp hc.plugged with ⟨hpl, _, hphead, hpl'⟩
  have hhead : forall x, x ∈ l'.head? -> x.used = true := by
    intro x hx
    simpa [hb] using hphead x hx
  unfold takeBlock
  rw [hnext, sub32_of_le (by omega) hstop.right, c.minSizeAligned_eq]
  split
  · -- the rest of the block becomes a free block
    rename_i hlarge
    have hcutmod : (b.start + c.sizeofStructMem + size) % c.alignSize = 0 := by
      have h1 := Nat.dvd_of_mod_eq_zero (hs.aligned b hbm)
      have h2 := Nat.dvd_of_mod_eq_zero c.sizeof_mod
      have h3 := Nat.dvd_of_mod_eq_zero halign
      exact Nat.mod_eq_zero_of_dvd (Nat.dvd_add (Nat.dvd_add h1 h2) h3)
    have hsplit := (hs.cut (b.start + c.sizeofStructMem + size)
      (by omega) (by omega)).edit hs (by omega) (by omega) hcutmod
    have hapart : heapMem.Apart b.start (b.start + c.sizeofStructMem + size) :=
      Or.inl (by show _ + 12 ≤ _; omega)
    have hnew := (linkBehind_new (h := h) hapart hstop.left).right.left
    have htaken := hsplit.taken size
      (r := [⟨b.start + c.sizeofStructMem + size, b.stop, false⟩]) rfl
      (by show b.start + c.sizeofStructMem + size ≤ b.stop; omega)
      (Nat.le_refl _) (by simp) hpl
      (List.isChain_cons.mpr ⟨fun x hx => Or.inr (hhead x hx), hpl'⟩)
      (linkBack_lfree _).right (linkBack_lfree _).left
      (by
        show h.usedMem + (b.start + c.sizeofStructMem + size - b.start) < 2 ^ 32
        omega)
    have hspan : b.start + c.sizeofStructMem + size - b.start = size + c.sizeofStructMem := by omega
    simp only at htaken ⊢
    rw [hspan] at htaken
    rw [linkBack_put hapart (by
      rw [hnew, hnext]
      exact Or.inl (by show _ + 12 ≤ _; omega))]
    exact ⟨_, _, htaken⟩
  · -- the whole block is taken
    have htaken := (Edit.refl hs).taken size (r := []) rfl
      (Nat.le_refl _) hroom (by simp) hpl hpl' rfl rfl hlt
    simp only
    rw [Heap.get_put_field (by decide), hnext, sub32_of_le (by omega) hstop.right]
    exact ⟨_, _, htaken⟩

theorem Taken.consistent {h2 h3 : Heap} (hc : Consistent c h (l ++ b :: l')) (hsize : 0 < size)
    (htk : Taken c h l b l' size h2 d r) (hm : SameMem h2 h3)
    (hused : h3.usedMem = h2.usedMem) (hb : b.used = false)
    (hlfree : FreeAt (h.heapEnd c) (l ++ d :: (r ++ l')) h3.lfree) :
    Evolves c h (l ++ b :: l') h3 (l ++ d :: (r ++ l')) := by
  have he := htk.edit.sameMem hm
  refine ⟨he.heapPtr, he.memSizeAligned, ?_, he.bytes⟩
  constructor
  · exact he.shape
  · exact he.stamped hc.stamped
  · exact htk.plugged
  · have hd : usedSpan d = d.stop - d.start := by simp [usedSpan, htk.used]
    have hr : total usedSpan r = 0 :=
      total_eq_zero fun x hx => usedSpan_free (htk.rest x hx)
    rw [hused, htk.usedMem, hc.usedMem]
    simp only [total_append, total_cons, hd, hr, usedSpan_free hb]
    omega
  · intro x hx hxu
    rw [he.heapEnd]
    simp only [List.mem_append, List.mem_cons] at hx
    rcases hx with hx | heq | hx | hx
    · exact hc.inside x (by simp [hx]) hxu
    · have hbd := hc.shape.tiles.bounds (b := b) (by simp)
      have hroom := htk.room
      have hle := htk.le
      rw [heq]
      omega
    · rw [htk.rest x hx] at hxu
      cases hxu
    · exact hc.inside x (by simp [hx]) hxu
  · rw [he.heapEnd]
    exact hlfree

theorem Taken.advance {h2 : Heap} (hc : Consistent c h (l ++ b :: l')) (hb : b.used = false)
    (hsize : 0 < size) (htk : Taken c h l b l' size h2 d r) :
    exists h3, advance c h2 b.start = some h3 ∧
      Evolves c h (l ++ b :: l') h3 (l ++ d :: (r ++ l')) ∧
      (Lowest c h (l ++ b :: l') -> Lowest c h3 (l ++ d :: (r ++ l'))) := by
  have hhdr := c.le_sizeof
  have hs2 := htk.edit.shape
  have hend := htk.edit.heapEnd
  have ht := hc.shape.tiles
  have hcons : lowestFree (h.heapEnd c) (b :: l') = b.start := by
    simp [lowestFree, hb]
  have hold : lowestFree (h.heapEnd c) (l ++ b :: l') =
      lowestFree b.start l := by rw [lowestFree_append, hcons]
  have hbelow : forall x, x ∈ l -> x.start < b.start := by
    intro x hx
    have hleft := ht.around.left x hx
    have hbd := ht.bounds (b := x) (by simp [hx])
    omega
  unfold SmallMem.advance
  split
  · rename_i hat
    have hsuffix : Tiles c.sizeofStructMem h2.lfree (d :: (r ++ l')) (h2.heapEnd c) := by
      rw [← hat, ← htk.start]
      have hsplit := tiles_append.mp hs2.tiles
      exact ⟨rfl, hsplit.right⟩
    have hlen := hsuffix.length_le (by omega)
    rw [nextFree_eq hs2 hsuffix (by simp; tauto) (by unfold Heap.turns; omega), Option.map_some]
    refine ⟨_, rfl, ?_, ?_⟩
    · refine htk.consistent hc hsize ?_ ?_ hb ?_
      · exact ⟨rfl, rfl, rfl⟩
      · rfl
      show FreeAt _ _ (lowestFree (h2.heapEnd c) (d :: (r ++ l')))
      rw [hend]
      rcases lowestFree_freeAt (e := h.heapEnd c) (l := d :: (r ++ l')) with
        heq | ⟨x, hx, hfree, hstart⟩
      · exact Or.inl heq
      · exact Or.inr ⟨x, List.mem_append_right l hx, hfree, hstart⟩
    · intro hlow
      unfold Lowest at hlow ⊢
      show lowestFree (h2.heapEnd c) (d :: (r ++ l')) =
        lowestFree (h2.heapEnd c) (l ++ d :: (r ++ l'))
      rw [lowestFree_append]
      rcases lowestFree_cases l with ⟨_, hall⟩ | ⟨x, hx, _, hall⟩
      · rw [hall]
      · have hlt := hbelow x hx
        rw [htk.lfree] at hat
        rw [hold, hall] at hlow
        omega
  · rename_i hat
    rw [htk.lfree] at hat
    refine ⟨h2, rfl, ?_, ?_⟩
    · apply htk.consistent hc hsize ⟨rfl, rfl, rfl⟩ rfl hb
      rw [htk.lfree]
      rcases hc.lfree with heq | ⟨x, hx, hfree, hstart⟩
      · exact Or.inl heq
      · refine Or.inr ⟨x, ?_, hfree, hstart⟩
        simp only [List.mem_append, List.mem_cons] at hx ⊢
        rcases hx with hx | heq | hx
        · exact Or.inl hx
        · rw [heq] at hstart
          exact absurd hstart hat
        · exact Or.inr (Or.inr (Or.inr hx))
    · intro hlow
      unfold Lowest at hlow ⊢
      rw [hold] at hlow
      rw [htk.lfree, hlow, lowestFree_append]
      rcases lowestFree_cases l with ⟨_, hall⟩ | ⟨x, _, _, hall⟩
      · rw [hall] at hlow
        exact absurd hlow.symm hat
      · rw [hall, hall]

/-- What an allocation of `size` bytes did. -/
structure Allocated (c : Config) (h : Heap) (l : List Block) (size : Nat)
    (h' : Heap) (l' : List Block) (d : Block) : Prop where
  evolves : Evolves c h l h' l'
  more : OneMore l l' d
  place : exists b, b ∈ l ∧ b.used = false ∧ b.start = d.start ∧ d.stop ≤ b.stop
  room : d.start + c.sizeofStructMem + size ≤ d.stop
  lowest : Lowest c h l -> Lowest c h' l'

theorem allocate_spec (hc : Consistent c h l) (hb : b ∈ l)
    (hfree : b.used = false) (hsize : 0 < size)
    (halign : size % c.alignSize = 0)
    (hroom : b.start + c.sizeofStructMem + size ≤ b.stop) :
    exists h' l' d, allocate c h size b.start =
        some (h', some (payload h.heapPtr c.sizeofStructMem d)) ∧
      Allocated c h l size h' l' d := by
  have hhdr := c.le_sizeof
  have hbd := hc.shape.tiles.bounds hb
  rcases List.append_of_mem hb with ⟨s, t, hl⟩
  subst hl
  rcases hc.take hfree halign hroom with ⟨d, r, htk⟩
  rcases htk.advance hc hfree hsize with ⟨h3, hadv, hev, hlow⟩
  have hmod := Consistent.align_payload hc.shape hb
  have hbase : (h.heapPtr + b.start) % c.alignSize = 0 :=
    Nat.mod_eq_zero_of_dvd (Nat.dvd_add (Nat.dvd_of_mod_eq_zero hc.shape.base)
      (Nat.dvd_of_mod_eq_zero (hc.shape.aligned b hb)))
  refine ⟨h3, s ++ d :: (r ++ t), d, ?_, hev, ?_, ⟨b, hb, hfree, htk.start.symm,
    htk.le⟩, htk.room, hlow⟩
  · simp only [allocate, hadv]
    rw [hev.heapEnd, hev.heapPtr, if_pos ⟨by omega, hmod, hbase⟩]
    unfold payload
    rw [htk.start]
  · have hmore := hc.shape.tiles.oneMore_replace (by omega) htk.used htk.start htk.rest
    have hmark : ({ b with used := false } : Block) = b := by
      rw [← hfree]
    rwa [hmark] at hmore

theorem Consistent.from_lfree (hc : Consistent c h l) :
    exists s, Tiles c.sizeofStructMem h.lfree s (h.heapEnd c) ∧
      forall d, d ∈ s <-> d ∈ l ∧ h.lfree ≤ d.start := by
  have hhdr := c.le_sizeof
  have ht := hc.shape.tiles
  rcases hc.lfree with hend | ⟨b, hb, _, hstart⟩
  · refine ⟨[], hend, ?_⟩
    intro d
    constructor
    · intro hd
      cases hd
    · rintro ⟨hd, hle⟩
      have hbd := ht.bounds hd
      omega
  · rcases List.append_of_mem hb with ⟨s, t, hl⟩
    subst hl
    have hbehind := (tiles_append.mp ht).right
    refine ⟨b :: t, ⟨hstart, hstart ▸ hbehind.left, hbehind.right⟩, ?_⟩
    intro d
    constructor
    · intro hd
      refine ⟨List.mem_append_right s hd, ?_⟩
      rw [← hstart]
      exact (Tiles.bounds (a := b.start) (l := b :: t) ⟨rfl, hbehind⟩ hd).left
    · rintro ⟨hd, hle⟩
      rcases List.mem_append.mp hd with hfront | hback
      · have hleft := ht.around.left d hfront
        have hbd := ht.bounds hd
        omega
      · exact hback

theorem Shape.le_rtAlign (hs : Shape c h l)
    (hsize : size ≤ h.memSizeAligned) : size ≤ rtAlign size c.alignSize := by
  have hsmall := hs.small
  have hal := c.alignSize_le_sizeof
  unfold Heap.heapEnd at hsmall
  exact Kernel.le_rtAlign c.alignSize_pos (by omega)

theorem rtMalloc_spec {res : Option Nat} (hc : Consistent c h l)
    (hm : rtMalloc c h size = some (h', res)) :
    (res = none ∧ h' = h) ∨ exists l' d, res = some (payload h.heapPtr c.sizeofStructMem d) ∧
        Allocated c h l (c.dataSize (rtAlign size c.alignSize)) h' l' d := by
  have hhdr := c.le_sizeof
  unfold rtMalloc at hm
  split at hm
  · cases hm
    exact Or.inl ⟨rfl, rfl⟩
  · simp only at hm
    split at hm
    · cases hm
      exact Or.inl ⟨rfl, rfl⟩
    · split at hm
      · cases hm
      · cases hm
        exact Or.inl ⟨rfl, rfl⟩
      · rename_i mem hsearch
        have hptr : h.lfree = h.heapEnd c ∨ exists d, d ∈ l ∧ d.start = h.lfree := by
          rcases hc.lfree with hend | ⟨d, hd, _, hstart⟩
          · exact Or.inl hend
          · exact Or.inr ⟨d, hd, hstart⟩
        rcases search_sound hc.shape hptr hsearch with
          ⟨b, hb, hstart, hfree, hroom⟩
        have hpos := c.le_dataSize (rtAlign size c.alignSize)
        rcases allocate_spec hc hb hfree (by omega)
          (Config.dataSize_mod (rtAlign_mod _ _)) hroom with
          ⟨h3, l3, d, heq, hal⟩
        rw [← hstart, heq] at hm
        cases hm
        exact Or.inr ⟨l3, d, rfl, hal⟩

theorem rtMalloc_returns (size : Nat) (hc : Consistent c h l)
    (hmin : c.minSizeAligned ≤ h.memSizeAligned) :
    exists r, rtMalloc c h size = some r := by
  have hhdr := c.le_sizeof
  unfold rtMalloc
  split
  · exact ⟨_, rfl⟩
  · simp only
    split
    · exact ⟨_, rfl⟩
    · rename_i hle
      have hsize : c.dataSize (rtAlign size c.alignSize) ≤ h.memSizeAligned := by
        unfold Config.dataSize
        split
        · exact hmin
        · omega
      rcases hc.from_lfree with ⟨s, ht, hmem⟩
      have hsub : forall d, d ∈ s -> d ∈ l := fun d hd => ((hmem d).mp hd).left
      have hlen := ht.length_le (by omega)
      rw [search_eq hc.shape ht hsub hsize (by unfold Heap.turns; omega)]
      cases hfind : s.find? (candidate c h (c.dataSize (rtAlign size c.alignSize))) with
      | none => exact ⟨_, rfl⟩
      | some b =>
        have hcand := List.find?_some hfind
        unfold candidate at hcand
        rw [decide_eq_true_iff] at hcand
        have hpos := c.le_dataSize (rtAlign size c.alignSize)
        rcases allocate_spec hc (hsub b (List.mem_of_find?_eq_some hfind))
          hcand.left (by omega) (Config.dataSize_mod (rtAlign_mod _ _))
          hcand.right.left with ⟨h3, l3, d, heq, _⟩
        exact ⟨_, heq⟩

/-!
## Reallocation in place
-/

/-- The block is cut off at `cut` and the end is free. -/
structure Shrunk (c : Config) (h : Heap) (l : List Block) (b : Block)
    (l' : List Block) (cut : Nat) (h' : Heap) (r : List Block) : Prop where
  evolves : Evolves c h (l ++ b :: l') h' r
  before : OneMore (l ++ { b with used := false } :: l') (l ++ b :: l') b
  after : OneMore (l ++ { b with used := false } :: l') r { b with stop := cut }
  lowest : Lowest c h (l ++ b :: l') -> (Lowest c h' r <->
    ¬ (b.start < h.lfree ∧ h.get b.stop Field.used ≠ 0))

/-- `lfree` misses the cut-off end exactly when it would become the lowest free
block and is not joined with the block at `lfree`. -/
theorem Shape.shrink_lowest {cut : Nat} (hs : Shape c h (l ++ b :: l'))
    (hb : b.used = true) (hcut : b.start < cut) (hstop : cut < b.stop)
    (hlow : h.lfree = lowestFree (h.heapEnd c) (l ++ b :: l'))
    (hl' : l' = q.toList ++ t) (hfree : forall x, x ∈ q -> x.used = false)
    (hend : q = none -> forall x, x ∈ t.head? -> x.used = true) :
    forwardLfree h.lfree ⟨cut, b.stop, false⟩ q = lowestFree cut l <->
      ¬ (b.start < h.lfree ∧ h.get b.stop Field.used ≠ 0) := by
  have hhdr := c.le_sizeof
  have ht := hs.tiles
  have hcons : lowestFree (h.heapEnd c) (b :: l') =
      lowestFree (h.heapEnd c) l' := by simp [lowestFree, hb]
  rw [lowestFree_append, hcons] at hlow
  have hbd := ht.bounds (b := b) (by simp)
  rcases lowestFree_cases l with ⟨_, hall⟩ | ⟨x, hx, hxfree, hall⟩
  · -- the end is lower than every free block
    rw [hall] at hlow ⊢
    have habove : b.stop ≤ h.lfree := by
      rw [hlow]
      rcases lowestFree_freeAt (e := h.heapEnd c) (l := l') with
        heq | ⟨d, hd, _, hstart⟩
      · omega
      · have hright := ht.around.right d hd
        omega
    cases q with
    | none =>
      have hused : h.get b.stop Field.used ≠ 0 := by
        rcases ht.next with ⟨hnil, hE⟩ | ⟨d, t', hcons', hstart⟩
        · rw [hE]
          exact hs.endUsed
        · rw [hcons', Option.toList_none, List.nil_append] at hl'
          have hd := hend rfl d (by rw [← hl']; rfl)
          rw [← hstart]
          exact (hs.used_iff (by simp [hcons'])).mpr hd
      constructor
      · intro heq
        have heq' : h.lfree = cut := heq
        omega
      · intro hnot
        exact absurd ⟨by omega, hused⟩ hnot
    | some x =>
      have hx : x ∈ l ++ b :: l' := by simp [hl']
      have hxfree := hfree x rfl
      rw [hl'] at ht
      have hxstart : x.start = b.stop := (tiles_append.mp ht).right.right.left
      have hlfree : h.lfree = x.start := by
        rw [hlow, hl']
        simp [lowestFree, hxfree]
      have hzero := (hs.free_iff hx).mpr hxfree
      rw [hxstart] at hzero
      constructor
      · rintro _ ⟨_, hne⟩
        exact hne hzero
      · intro _
        unfold forwardLfree
        rw [if_pos (by rw [hlfree]; rfl)]
  · -- a lower block is free
    rw [hall] at hlow ⊢
    have hleft := ht.around.left x hx
    have hxb := ht.bounds (b := x) (by simp [hx])
    have hforward : forwardLfree h.lfree ⟨cut, b.stop, false⟩ q = h.lfree := by
      unfold forwardLfree
      apply if_neg
      intro hq
      rw [Option.map_eq_some_iff] at hq
      rcases hq with ⟨y, hy, hstart⟩
      subst hy
      have hright := ht.around.right y (by simp [hl'])
      omega
    rw [hforward]
    constructor
    · rintro _ ⟨hlt, _⟩
      omega
    · intro _
      exact hlow

theorem shrink_edit {n : Nat} (hs : Shape c h (l ++ b :: l'))
    (hb : b.used = true) (halign : n % c.alignSize = 0)
    (hroom : n + c.sizeofStructMem + minSize < b.stop - b.start - c.sizeofStructMem) :
    exists h' q t, shrink c h b.start (b.stop - b.start - c.sizeofStructMem) n = some h' ∧
      Join (l ++ [{ b with stop := b.start + c.sizeofStructMem + n }]) l' none q
        (l ++ [{ b with stop := b.start + c.sizeofStructMem + n }]) t ∧
      Edit c h (l ++ b :: l') h' (l ++ { b with stop := b.start + c.sizeofStructMem + n } ::
          joined none ⟨b.start + c.sizeofStructMem + n, b.stop, false⟩ q :: t) ∧
      h'.lfree = forwardLfree h.lfree ⟨b.start + c.sizeofStructMem + n, b.stop, false⟩ q ∧
      h'.usedMem = sub32 h.usedMem (sub32 (b.stop - b.start - c.sizeofStructMem) n) := by
  have hhdr := c.le_sizeof
  have hbm : b ∈ l ++ b :: l' := by simp
  have hcutmod : (b.start + c.sizeofStructMem + n) % c.alignSize = 0 := by
    have h1 := Nat.dvd_of_mod_eq_zero (hs.aligned b hbm)
    have h2 := Nat.dvd_of_mod_eq_zero c.sizeof_mod
    have h3 := Nat.dvd_of_mod_eq_zero halign
    exact Nat.mod_eq_zero_of_dvd (Nat.dvd_add (Nat.dvd_add h1 h2) h3)
  generalize hcut : b.start + c.sizeofStructMem + n = cut at hcutmod ⊢
  have hlow : b.start + c.sizeofStructMem ≤ cut := by omega
  have hhigh : cut + c.sizeofStructMem ≤ b.stop := by omega
  -- the magic number of the new header lies in the old payload
  let h0 : Heap := { h with
    usedMem := sub32 h.usedMem (sub32 (b.stop - b.start - c.sizeofStructMem) n) }
  let h1 : Heap := h0.put cut Field.magic heapMagic
  have hout : forall y, (y < cut ∨ cut + c.sizeofStructMem ≤ y) -> h1.mem y = h.mem y := by
    intro y hy
    exact Heap.put_outside (h := h0) (by omega)
  have hsame : forall y, InHeader c.sizeofStructMem (l ++ b :: l') 0
      (h.heapEnd c) y -> h1.mem y = h.mem y := by
    intro y hy
    exact hout y (Tiles.header_apart hs.tiles hbm hlow hhigh hy)
  have hs1 : Shape c h1 (l ++ b :: l') := hs.of_headers rfl rfl hsame
  have hsplit := (hs1.cut cut hlow hhigh).edit hs1 hlow hhigh hcutmod
  have hfields := linkBack_lfree (c := c) (h := linkBehind h1 b.start cut) cut
  have hstart : shrink c h b.start (b.stop - b.start - c.sizeofStructMem) n =
      plugHoles c (linkBack c (linkBehind h1 b.start cut) cut) cut := by
    simp only [shrink, hcut]
    rfl
  generalize linkBack c (linkBehind h1 b.start cut) cut = h2 at hsplit hfields hstart
  have hlist : l ++ { b with stop := cut } :: ⟨cut, b.stop, false⟩ :: l' =
      (l ++ [{ b with stop := cut }]) ++ ⟨cut, b.stop, false⟩ :: l' := by simp
  rw [hlist] at hsplit
  rcases plugHoles_spec hsplit.shape rfl with
    ⟨h', p, q, s, t, hplug, hj, he, hlf, hum⟩
  -- the block before the new one is in use
  have hp : p = none ∧ s = l ++ [{ b with stop := cut }] := by
    cases p with
    | none => exact ⟨rfl, by simpa using hj.left.symm⟩
    | some x =>
      have heq := hj.left
      rw [Option.toList_some] at heq
      have hx := (List.append_inj' heq rfl).right
      have hfree := hj.leftFree x rfl
      rw [← (List.cons.inj hx).left, hb] at hfree
      cases hfree
  rcases hp with ⟨hp, hsl⟩
  subst hp hsl
  have hedit := hsplit.trans he (by
    intro d hd
    simp only [List.append_assoc, List.singleton_append, List.mem_append, List.mem_cons] at hd
    rcases hd with hd | heq | heq | hd
    · exact ⟨d, by simp [hd], rfl⟩
    · exact ⟨b, by simp, by rw [heq]⟩
    · exact ⟨joined none ⟨cut, b.stop, false⟩ q, by simp, by rw [heq]; rfl⟩
    · exact ⟨d, by simp [hd], rfl⟩)
  refine ⟨h', q, t, hstart.trans hplug, hj, ?_, ?_, ?_⟩
  · have hfinal : (l ++ [{ b with stop := cut }]) ++ joined none ⟨cut, b.stop, false⟩ q :: t =
        l ++ { b with stop := cut } :: joined none ⟨cut, b.stop, false⟩ q :: t := by simp
    rw [hfinal] at hedit
    refine ⟨hedit.heapPtr, hedit.memSizeAligned, hedit.shape, ?_, ?_⟩
    · intro x hx hx'
      have hxcut : x < cut ∨ cut + c.sizeofStructMem ≤ x := by
        by_contra hin
        exact hx' (Or.inl ⟨joined none ⟨cut, b.stop, false⟩ q, by simp,
          by show cut ≤ x; omega, by show x < cut + c.sizeofStructMem; omega⟩)
      rw [hedit.bytes x hx hx']
      exact hout x hxcut
    · intro hst
      exact hedit.stamped (hst.of_headers hsame)
  · rw [hlf, hfields.left, backwardLfree_none]
    rfl
  · rw [hum, hfields.right]
    rfl

theorem shrink_spec {n : Nat} (hc : Consistent c h (l ++ b :: l'))
    (hb : b.used = true) (halign : n % c.alignSize = 0)
    (hroom : n + c.sizeofStructMem + minSize < b.stop - b.start - c.sizeofStructMem) :
    exists h' r, shrink c h b.start (b.stop - b.start - c.sizeofStructMem) n = some h' ∧
      Shrunk c h l b l' (b.start + c.sizeofStructMem + n) h' r := by
  have hhdr := c.le_sizeof
  have hs := hc.shape
  have hbm : b ∈ l ++ b :: l' := by simp
  have hbd := hs.tiles.bounds hbm
  have hstop := hs.stop_lt hbm
  have hsmall := hs.small
  have hule := hs.used_le
  have hspan : usedSpan b = b.stop - b.start := by simp [usedSpan, hb]
  rcases shrink_edit hs hb halign hroom with
    ⟨h', q, t, hshrink, hj, hedit, hlf, hum⟩
  generalize hcut : b.start + c.sizeofStructMem + n = cut at hj hedit hlf ⊢
  have hspan' : usedSpan { b with stop := cut } = cut - b.start := by
    simp [usedSpan, hb]
  have hp := noTwoFree_append.mp hc.plugged
  have hone := hs.tiles.oneMore_mark (by omega) hb
  -- joining the end with the block behind it changes no block in use
  have hsame : SameUsed (l ++ { b with stop := cut } ::
      ([⟨cut, b.stop, false⟩] ++ l')) (l ++ { b with stop := cut } ::
        joined none ⟨cut, b.stop, false⟩ q :: t) := by
    have hsu := hj.sameUsed (b := ⟨cut, b.stop, false⟩) rfl
    simpa using hsu
  have hafter := (hs.tiles.oneMore_replace (d := { b with stop := cut })
    (r := [⟨cut, b.stop, false⟩]) (by omega) hb rfl (by simp)).then_same hsame
  refine ⟨h', _, hshrink, ⟨hedit.heapPtr, hedit.memSizeAligned, ?_, hedit.bytes⟩, hone,
    hafter, ?_⟩
  · constructor
    · exact hedit.shape
    · exact hedit.stamped hc.stamped
    · have hleft : NoTwoFree (l ++ [{ b with stop := cut }]) :=
        noTwoFree_append.mpr ⟨hp.left, fun _ _ => Or.inr hb, by simp, List.IsChain.nil⟩
      have hno := hj.noTwoFree (b := ⟨cut, b.stop, false⟩) hleft hp.right.right.right
      simpa using hno
    · have htot := hj.total_eq (w := usedSpan) (b := ⟨cut, b.stop, false⟩) rfl
        fun d hd => usedSpan_free hd
      have hzero : usedSpan ⟨cut, b.stop, false⟩ = 0 := rfl
      simp only [List.append_assoc, List.singleton_append] at htot
      rw [htot, hum, hc.usedMem]
      rw [total_append, total_cons] at hule
      simp only [total_append, total_cons, hspan, hspan', hzero] at hule ⊢
      rw [sub32_of_le (b := n) (by omega) (by omega), sub32_of_le (by omega) (by omega)]
      omega
    · intro d hd hdu
      rw [hedit.heapEnd]
      rcases (hafter.right.right d hdu).mp hd with hold | heq
      · exact hc.inside d ((hone.right.right d hdu).mpr (Or.inl hold)) hdu
      · rw [heq]
        show b.start + c.sizeofStructMem < h.heapEnd c
        omega
    · rw [hedit.heapEnd, hlf]
      have hold : FreeAt (h.heapEnd c) ((l ++ [{ b with stop := cut }]) ++
          ⟨cut, b.stop, false⟩ :: l') h.lfree := by
        rcases hc.lfree with hend | ⟨d, hd, hfree, hstart⟩
        · exact Or.inl hend
        · refine Or.inr ⟨d, ?_, hfree, hstart⟩
          simp only [List.mem_append, List.mem_cons] at hd ⊢
          rcases hd with hd | heq | hd
          · exact Or.inl (Or.inl hd)
          · rw [heq, hb] at hfree
            cases hfree
          · exact Or.inr (Or.inr hd)
      have hfree := plugged_freeAt hj rfl hold
      rw [backwardLfree_none] at hfree
      simpa using hfree
  · intro hlow
    have hnew : lowestFree (h.heapEnd c) (l ++ { b with stop := cut } ::
        joined none ⟨cut, b.stop, false⟩ q :: t) = lowestFree cut l := by
      rw [lowestFree_append]
      simp [lowestFree, hb, joined]
    unfold Lowest at hlow ⊢
    rw [hedit.heapEnd, hlf, hnew]
    exact hs.shrink_lowest hb (by omega) (by omega) hlow hj.right hj.rightFree hj.rightEnd

end Consistent

end RtThread.Mem.SmallMem
