import RtThread.Mem.MemHeapResize

/-!
# Reallocation as an exchange of blocks

What `rt_memheap_realloc` of a block in use comes to: it declines, or the block is exchanged for
another that may be the same one, with the bytes that both have room for. A size that wraps around
can cut the block too short, or link it with an item inside its own header.
-/

namespace RtThread.Mem.MemHeap

open Kernel ByteMemory Tiling LinkRing

/-- The item behind is free and, by the test of `rt_memheap_realloc`, large enough to
extend the block to `n` bytes. -/
def Extends (c : Config) (h : RtMemheap) (ptr n : Nat) : Prop :=
  let header := ptr - c.memheapSize
  let next := h.get header Field.next
  isUsed h next = false ∧ add32 n memheapMinialloc <
    add32 (memitemSize c h next) (memitemSize c h header)

/-- The sum in the test wraps around, and the test passes. -/
def Wraps (c : Config) (h : RtMemheap) (ptr newsize : Nat) : Prop :=
  memitemSize c h (ptr - c.memheapSize) < c.allocSize newsize ∧
    Extends c h ptr (c.allocSize newsize) ∧
    2 ^ 32 ≤ c.allocSize newsize + memheapMinialloc

/-- The aligned size is less than the request, and the block is cut down to it. -/
def Cuts (c : Config) (h : RtMemheap) (ptr newsize : Nat) : Prop :=
  c.allocSize newsize + c.memheapSize + memheapMinialloc <
      memitemSize c h (ptr - c.memheapSize) ∧
    c.allocSize newsize < newsize

/-- The block is too small, cannot be extended, and the heap has no other. -/
def Declines (c : Config) (h : RtMemheap) (l : List Block) (ptr newsize : Nat) : Prop :=
  memitemSize c h (ptr - c.memheapSize) < c.allocSize newsize ∧
    ¬ Extends c h ptr (c.allocSize newsize) ∧ ¬ Serves c h l (c.allocSize newsize)

instance (c : Config) (h : RtMemheap) (ptr n : Nat) : Decidable (Extends c h ptr n) :=
  inferInstanceAs (Decidable (_ ∧ _))

instance (c : Config) (h : RtMemheap) (ptr newsize : Nat) :
    Decidable (Wraps c h ptr newsize) :=
  inferInstanceAs (Decidable (_ ∧ _))

/-- What a reallocation of `b` did that returned the block `d`. -/
structure Exchanged (c : Config) (h : RtMemheap) (l : List Block) (b : Block)
    (newsize : Nat) (h' : RtMemheap) (l' : List Block) (d : Block) : Prop where
  core : SameCore h h'
  consistent : Consistent c h' l'
  confined : forall x, ¬ Extent h x -> h'.mem x = h.mem x
  swapped : Swapped l l' b d
  size : d.start + c.memheapSize + c.allocSize newsize ≤ d.stop
  room : d.start + c.memheapSize + min (b.stop - b.start - c.memheapSize) newsize ≤ d.stop <->
    ¬ Cuts c h (payload 0 c.memheapSize b) newsize
  others : forall x, x ∈ l -> x.used = true -> x ≠ b ->
    forall y, x.start + c.memheapSize ≤ y -> y < x.stop -> h'.mem y = h.mem y
  bytes : forall i, i < newsize -> b.start + c.memheapSize + i < b.stop ->
    d.start + c.memheapSize + i < d.stop ->
      h'.mem (d.start + c.memheapSize + i) = h.mem (b.start + c.memheapSize + i)

section Exchange

variable {c : Config} {h h' g : RtMemheap} {l l' l1 l2 r : List Block} {b d : Block}
  {newsize n cut x new : Nat}

/-!
## The four ways to reallocate
-/

theorem Shape.extends_iff (hs : Shape c h l) (hb : b ∈ l) :
    Extends c h (payload 0 c.memheapSize b) n <-> isUsed h b.stop = false ∧
      add32 n memheapMinialloc <
        add32 (memitemSize c h b.stop) (b.stop - b.start - c.memheapSize) := by
  unfold Extends
  simp only [header_of_payload, hs.next_eq hb, hs.memitemSize_eq hb]

theorem not_cuts_of_le (hs : Shape c h l) (hb : b ∈ l) (hle : b.stop - b.start - c.memheapSize ≤
      c.allocSize newsize + c.memheapSize + memheapMinialloc) :
    ¬ Cuts c h (payload 0 c.memheapSize b) newsize := by
  rintro ⟨hlt, _⟩
  rw [header_of_payload, hs.memitemSize_eq hb] at hlt
  omega

theorem Consistent.exchanged_keep (hc : Consistent c h l) (hb : b ∈ l)
    (hused : b.used = true) (hge : c.allocSize newsize ≤ b.stop - b.start - c.memheapSize)
    (hle : b.stop - b.start - c.memheapSize ≤
      c.allocSize newsize + c.memheapSize + memheapMinialloc) :
    Exchanged c h l b newsize h l b := by
  have hbd := hc.shape.tiles.bounds hb
  refine ⟨SameCore.refl, hc, fun _ _ => rfl, Swapped.refl hused hb, by omega, ?_,
    fun _ _ _ _ _ _ _ => rfl, fun _ _ _ _ => rfl⟩
  apply iff_of_true
  · omega
  · exact not_cuts_of_le hc.shape hb hle

theorem Resized.exchanged (hr : Resized c h l1 b l2 cut h' r) (hs : Shape c h (l1 ++ b :: l2))
    (hsize : b.start + c.memheapSize + c.allocSize newsize ≤ cut)
    (hroom : b.start + c.memheapSize + min (b.stop - b.start - c.memheapSize) newsize ≤ cut <->
      ¬ Cuts c h (payload 0 c.memheapSize b) newsize) :
    Exchanged c h (l1 ++ b :: l2) b newsize h' r { b with stop := cut } := by
  have hedit := hr.evolves.edit
  have hd : ({ b with stop := cut } : Block) ∈ r :=
    (hr.after.right.right _ hr.after.left).mpr (Or.inr rfl)
  have hswap : Swapped (l1 ++ b :: l2) r b { b with stop := cut } :=
    Swapped.of_oneMore hr.before hr.after
  refine ⟨hedit.core, hr.evolves.consistent, hedit.confined, hswap, hsize, hroom, ?_, ?_⟩
  · intro x hx hxu hne y hle hlt
    have hxr : x ∈ r := (hswap.right x hxu).mpr (Or.inl ⟨hx, hne⟩)
    exact hedit.bytes y (Tiles.payload_not_header hs.tiles hx hle hlt)
      (Tiles.payload_not_header hr.evolves.tiles hxr hle hlt)
  · intro i _ hold hnew
    exact hedit.bytes _
      (Tiles.payload_not_header hs.tiles (b := b) (by simp) (Nat.le_add_right _ _) hold)
      (Tiles.payload_not_header hr.evolves.tiles hd (Nat.le_add_right _ _) hnew)

theorem Allocated.exchanged (hc : Consistent c h l) (hb : b ∈ l) (hused : b.used = true)
    (ha : Allocated c h l n g l' d) (hlt : b.stop - b.start - c.memheapSize < n)
    (hn : c.allocSize newsize ≤ n) (hsize : b.stop - b.start - c.memheapSize <
      c.allocSize newsize) :
    exists h' r, rtMemheapFree c (rtMemcpy g (payload 0 c.memheapSize d)
        (payload 0 c.memheapSize b) (b.stop - b.start - c.memheapSize))
        (some (payload 0 c.memheapSize b)) = some h' ∧
      Exchanged c h l b newsize h' r d := by
  have hhdr := c.le_memheapSize
  have hev := ha.evolves
  have hroom := ha.room
  have ht := hc.shape.tiles
  have ht' := hev.tiles
  have htg := hev.consistent.shape.tiles
  have hbd := ht.bounds hb
  have hd : d ∈ l' := (ha.more.right.right d ha.more.left).mpr (Or.inr rfl)
  have hb' : b ∈ l' := (ha.more.right.right b hused).mpr (Or.inl hb)
  have hdst : payload 0 c.memheapSize d = d.start + c.memheapSize := by simp [payload]
  have hsrc : payload 0 c.memheapSize b = b.start + c.memheapSize := by simp [payload]
  have hapart : forall x, x ∈ l -> x.used = true -> x ∈ l' ∧
      (x.stop ≤ d.start ∨ d.stop ≤ x.start) := by
    intro x hx hxu
    have hx' := (ha.more.right.right x hxu).mpr (Or.inl hx)
    rcases htg.eq_or_apart hx' hd with heq | hapart
    · exact absurd (congrArg Block.start heq) (ha.more.right.left x hx hxu)
    · exact ⟨hx', hapart⟩
  -- the heap with the copied bytes
  have hcopied : Consistent c (rtMemcpy g (payload 0 c.memheapSize d)
      (payload 0 c.memheapSize b) (b.stop - b.start - c.memheapSize)) l' := by
    apply hev.consistent.scribble
    intro y hy
    rw [hdst]
    exact Tiles.copy_header htg hd (by omega) hy
  rcases List.append_of_mem hb' with ⟨l1, l2, hl'⟩
  rw [hl'] at hcopied
  rcases hcopied.release hused with ⟨h', r, hfree, hev', hless⟩
  rw [← hl'] at hev' hless
  have hcore : SameCore h (rtMemcpy g (payload 0 c.memheapSize d)
      (payload 0 c.memheapSize b) (b.stop - b.start - c.memheapSize)) :=
    hev.edit.core.trans ⟨rfl, rfl, rfl, rfl⟩
  have hswap : Swapped l r b d := Swapped.of_taken ha.more hless hb
  have hdr : d ∈ r := (hswap.right d hswap.left).mpr (Or.inr rfl)
  have hdb := htg.bounds hd
  have htail := hev.consistent.shape.tail_add
  refine ⟨h', r, hfree, hcore.trans hev'.edit.core, hev'.consistent, ?_, hswap, by omega,
    ?_, ?_, ?_⟩
  · intro x hx
    have hxg : ¬ Extent g x := fun hin => hx (hev.edit.core.extent.mp hin)
    rw [hev'.edit.confined x hxg, ← hev.edit.confined x hx]
    show copy g.mem _ _ _ x = g.mem x
    apply copy_outside
    by_contra hin
    exact hxg (Or.inl ⟨by omega, by omega⟩)
  · apply iff_of_true
    · omega
    · exact not_cuts_of_le hc.shape hb (by omega)
  · intro x hx hxu hne y hle hlt
    rcases hapart x hx hxu with ⟨hx', hxd⟩
    have hxr : x ∈ r := (hswap.right x hxu).mpr (Or.inl ⟨hx, hne⟩)
    have hbyte := hev'.edit.bytes y (Tiles.payload_not_header htg hx' hle hlt)
      (Tiles.payload_not_header hev'.tiles hxr hle hlt)
    rw [hbyte]
    show copy g.mem _ _ _ y = _
    rw [hdst, copy_outside (by omega)]
    exact hev.edit.bytes y (Tiles.payload_not_header ht hx hle hlt)
      (Tiles.payload_not_header ht' hx' hle hlt)
  · intro i _ hold hnew
    have hbd' := (hapart b hb hused).right
    have hbyte := hev'.edit.bytes (d.start + c.memheapSize + i)
      (Tiles.payload_not_header htg hd (by omega) hnew)
      (Tiles.payload_not_header hev'.tiles hdr (by omega) hnew)
    rw [hbyte]
    show copy g.mem _ _ _ _ = _
    rw [hdst, hsrc, copy_inside (by omega) (by omega)]
    exact hev.edit.bytes _ (Tiles.payload_not_header ht hb (by omega) hold)
      (Tiles.payload_not_header ht' hb' (by omega) hold)

theorem Consistent.exchanged_grow (hc : Consistent c h (l1 ++ b :: l2)) (hused : b.used = true)
    (hlt : b.stop - b.start - c.memheapSize < c.allocSize newsize)
    (hext : Extends c h (payload 0 c.memheapSize b) (c.allocSize newsize))
    (hok : c.allocSize newsize + memheapMinialloc < 2 ^ 32) :
    exists r, Exchanged c h (l1 ++ b :: l2) b newsize
      (growBlock h (payload 0 c.memheapSize b) b.start b.stop
        (b.stop - b.start - c.memheapSize) (c.allocSize newsize)) r
      { b with stop := b.start + c.memheapSize + c.allocSize newsize } := by
  have hs := hc.shape
  have hbd := hs.tiles.bounds (b := b) (by simp)
  have hmini : memheapMinialloc = 12 := rfl
  rcases (hs.extends_iff (by simp)).mp hext with ⟨hfree, hfits⟩
  rcases hs.behind_free hfree with ⟨d, t, hcons, hd, hstart⟩
  subst hcons
  have hdm : d ∈ l1 ++ b :: d :: t := by simp
  have hdb := hs.tiles.bounds hdm
  have htail := hs.tail_add
  have hpool := hs.pool_lt
  have hsize := hs.memitemSize_eq hdm
  rw [hstart] at hsize
  rw [hsize, add32_of_lt hok, add32_of_lt (by omega), ← hstart] at hfits
  rcases hc.grow hused hd hlt (by omega) with ⟨r, hgrow⟩
  rw [hstart] at hgrow
  refine ⟨r, hgrow.exchanged hs (Nat.le_refl _) ?_⟩
  apply iff_of_true
  · omega
  · exact not_cuts_of_le hs (by simp) (by omega)

theorem Consistent.exchanged_shrink (hc : Consistent c h (l1 ++ b :: l2))
    (hused : b.used = true) (hroom : c.allocSize newsize + c.memheapSize + memheapMinialloc <
      b.stop - b.start - c.memheapSize) :
    exists r, Exchanged c h (l1 ++ b :: l2) b newsize
      (shrinkBlock c h b.start (c.allocSize newsize)) r
      { b with stop := b.start + c.allocSize newsize + c.memheapSize } := by
  have hs := hc.shape
  have hsize := hs.memitemSize_eq (b := b) (by simp)
  rcases hc.shrink hused hroom with ⟨r, hshrink⟩
  refine ⟨r, hshrink.exchanged hs (by omega) ?_⟩
  unfold Cuts
  rw [header_of_payload, hsize]
  constructor
  · rintro hle ⟨_, hcut⟩
    omega
  · intro hcut
    have hle : newsize ≤ c.allocSize newsize := by
      by_contra hlt
      exact hcut ⟨hroom, by omega⟩
    omega

theorem Consistent.realloc_cases (hc : Consistent c h l) (hb : b ∈ l) (hused : b.used = true)
    (hpos : newsize ≠ 0) (hok : ¬ Wraps c h (payload 0 c.memheapSize b) newsize) :
    (rtMemheapRealloc c h (some (payload 0 c.memheapSize b)) newsize = some (h, none) ∧
        Declines c h l (payload 0 c.memheapSize b) newsize) ∨
      ¬ Declines c h l (payload 0 c.memheapSize b) newsize ∧ exists h' l' d,
        rtMemheapRealloc c h (some (payload 0 c.memheapSize b)) newsize =
            some (h', some (payload 0 c.memheapSize d)) ∧
          Exchanged c h l b newsize h' l' d := by
  have hhdr := c.le_memheapSize
  have hs := hc.shape
  have hbd := hs.tiles.bounds hb
  have hsize := hs.memitemSize_eq hb
  have hnext := hs.next_eq hb
  unfold Wraps at hok
  unfold Declines
  rw [header_of_payload, hsize] at hok ⊢
  simp only [rtMemheapRealloc, if_neg hpos, header_of_payload, hsize, hnext]
  by_cases hlt : b.stop - b.start - c.memheapSize < c.allocSize newsize
  · rw [if_pos hlt, if_pos (show b.start < b.stop by omega)]
    rw [hs.extends_iff hb] at hok ⊢
    by_cases hext : isUsed h b.stop = false ∧ add32 (c.allocSize newsize) memheapMinialloc <
          add32 (memitemSize c h b.stop) (b.stop - b.start - c.memheapSize)
    · have hnowrap : c.allocSize newsize + memheapMinialloc < 2 ^ 32 := by
        by_contra hge
        exact hok ⟨hlt, hext, by omega⟩
      rcases List.append_of_mem hb with ⟨l1, l2, hl⟩
      subst hl
      rcases hc.exchanged_grow hused hlt ((hs.extends_iff hb).mpr hext) hnowrap with
        ⟨r, hgrow⟩
      refine Or.inr ⟨fun hdecl => hdecl.right.left hext, _, r, _, ?_, hgrow⟩
      rw [if_pos ⟨by simp [hext.left], hext.right⟩]
      rfl
    · rw [if_neg (fun htest => hext ⟨by simpa using htest.left, htest.right⟩)]
      unfold moveBlock
      rcases hc.alloc_cases (c.allocSize newsize) with
        ⟨hnull, hserves⟩ | ⟨hserves, g, l', d, hsome, ha⟩
      · rw [hnull]
        exact Or.inl ⟨rfl, hlt, hext, hserves⟩
      · have hagain := c.allocSize_le_again newsize
        rcases ha.exchanged hc hb hused (by omega) hagain hlt with ⟨h', r, hfree, hex⟩
        refine Or.inr ⟨fun hdecl => hdecl.right.right hserves, h', r, d, ?_, hex⟩
        rw [hsome]
        simp only [if_pos hlt, hfree, Option.map_some]
  · rw [if_neg hlt]
    refine Or.inr ⟨fun hdecl => hlt hdecl.left, ?_⟩
    by_cases hle : b.stop - b.start - c.memheapSize ≤
        c.allocSize newsize + c.memheapSize + memheapMinialloc
    · rw [if_pos hle]
      exact ⟨h, l, b, rfl, hc.exchanged_keep hb hused (by omega) hle⟩
    · rw [if_neg hle]
      rcases List.append_of_mem hb with ⟨l1, l2, hl⟩
      subst hl
      rcases hc.exchanged_shrink hused (Nat.lt_of_not_le hle) with ⟨r, hshrink⟩
      exact ⟨_, r, { b with stop := b.start + c.allocSize newsize + c.memheapSize }, rfl,
        hshrink⟩

/-!
## A sum that wraps around
-/

theorem next_put_behind {a v : Nat} {f : Field} (hle : a + 12 ≤ x) :
    (h.put x f v).get a Field.next = h.get a Field.next := by
  show readNumber (writeNumber h.mem (x + 4 * f.word) 4 v) (a + 8) 4 = readNumber h.mem (a + 8) 4
  exact readNumber_writeNumber_apart (Or.inl (by omega))

theorem Shape.insert_inside {P : Nat -> Prop} (hs : Shape c g (l1 ++ b :: l2))
    (hfree : FreeSet g P) (hw : forall x, P x -> exists d, d ∈ l1 ++ b :: l2 ∧ d.start = x)
    (hlow : b.start + 12 ≤ new) (hhigh : new + 24 ≤ b.stop) :
    (freeInsert (splitBlock g b.start new) new).get b.start Field.next = new := by
  have hhdr := c.le_memheapSize
  have htail := hs.tail_add
  have hsmall := hs.small
  have hbd := hs.tiles.bounds (b := b) (by simp)
  have hnew32 : new < 2 ^ 32 := by omega
  have hbe : Entry c g (l1 ++ b :: l2) b.start := Entry.of_mem (by simp)
  have hle : Entry c g (l1 ++ b :: l2) g.freeList := Or.inl rfl
  have hstop : Entry c g (l1 ++ b :: l2) b.stop := by
    rcases hs.around.right.right with ⟨d, r, hright, hstart, _⟩
    refine Or.inr ⟨d, ?_, hstart⟩
    rw [List.append_assoc, List.cons_append, hright]
    simp
  have hapart : memheapItem.Apart new g.freeList :=
    (hs.clear_list (by omega) (by omega)).symm
  have hhead : Entry c g (l1 ++ b :: l2) (g.get g.freeList Field.nextFree) := by
    rcases hfree with ⟨fl, hr, hfl⟩
    exact Within.entry (fun x hx => hw x ((hfl x).mp hx)) hr.head_mem
  have hlist : (splitBlock g b.start new).freeList = g.freeList := splitBlock_core.freeList
  have hread : forall (k : RtMemheap) f v,
      (k.put new f v).get b.start Field.next = k.get b.start Field.next :=
    fun _ _ _ => next_put_behind hlow
  have hsplit := splitBlock_eq_of (h := g) hread
  rw [hs.header.left] at hsplit
  -- the links that the insertion and the caller read
  have hnext : (splitBlock g b.start new).get b.start Field.next = new := by
    rw [hsplit, get_put_same hnew32]
  have hfirst : (splitBlock g b.start new).get g.freeList Field.nextFree =
      g.get g.freeList Field.nextFree := by
    rw [hsplit, get_put_other (hs.entry_clear hbe hle) (by decide),
      get_put_other (hs.entry_clear hstop hle) (by decide), get_put_apart hapart,
      get_put_apart hapart, get_put_apart hapart, get_put_apart hapart]
  rw [freeInsert_eq (by rw [hlist]; exact Or.inr hapart)
    (by rw [hlist]; exact apart_ne hapart), hlist, hfirst,
    get_put_other (hs.entry_clear hle hbe) (by decide),
    get_put_other (hs.entry_clear hhead hbe) (by decide), next_put_behind hlow,
    next_put_behind hlow, hnext]

theorem noteUsed_core {available : Nat} :
    SameCore h { h with availableSize := available }.noteUsed :=
  ⟨rfl, rfl, rfl, rfl⟩

theorem freeRemove_core : SameCore h (freeRemove h x) := by
  unfold freeRemove
  exact put_core.put

theorem growBlock_core {ptr header next oldsize : Nat} :
    SameCore h (growBlock h ptr header next oldsize n) := by
  unfold growBlock
  exact ((((noteUsed_core.trans freeRemove_core).put).put).trans splitBlock_core).trans
    freeInsert_core

theorem Consistent.wraps_next (hc : Consistent c h (l1 ++ b :: l2))
    (hext : Extends c h (payload 0 c.memheapSize b) n) (hn : n < 2 ^ 32)
    (hwrap : 2 ^ 32 ≤ n + memheapMinialloc) :
    (growBlock h (payload 0 c.memheapSize b) b.start b.stop
        (b.stop - b.start - c.memheapSize) n).get b.start Field.next <
      payload 0 c.memheapSize b := by
  have hmini : memheapMinialloc = 12 := rfl
  have hhdr := c.le_memheapSize
  have hs := hc.shape
  have hbd := hs.tiles.bounds (b := b) (by simp)
  have htail := hs.tail_add
  have hsmall := hs.small
  rcases hs.behind_free ((hs.extends_iff (by simp)).mp hext).left with
    ⟨d, t, hcons, hd, hstart⟩
  subst hcons
  have hdm : d ∈ l1 ++ b :: d :: t := by simp
  have hdb := hs.tiles.bounds hdm
  have hpayload : payload 0 c.memheapSize b = b.start + c.memheapSize := by simp [payload]
  have hnew : add32 (payload 0 c.memheapSize b) n = b.start + c.memheapSize + n - 2 ^ 32 := by
    rw [hpayload]
    unfold add32
    omega
  simp only [growBlock, hnew, ← hstart]
  generalize sub32 h.availableSize (sub32 n (d.start - b.start - c.memheapSize)) = available
  have hcount := hc.reached.noteUsed available
  generalize ({ h with availableSize := available } : RtMemheap).noteUsed = g at *
  have hremove := hcount.remove (x := d.start) ⟨d, hdm, hd, rfl⟩
  rw [unlink_eq_joinBlocks hremove.shape]
  have hjoin := hremove.join ⟨d, hdm, rfl⟩ (fun hin => hin.right rfl)
  have hlow : b.start + 12 ≤ b.start + c.memheapSize + n - 2 ^ 32 := by omega
  have hhigh : b.start + c.memheapSize + n - 2 ^ 32 + 24 ≤ d.stop := by omega
  have hinside : (freeInsert (splitBlock (joinBlocks (freeRemove g d.start) b.start d.stop)
      b.start (b.start + c.memheapSize + n - 2 ^ 32))
        (b.start + c.memheapSize + n - 2 ^ 32)).get b.start Field.next =
      b.start + c.memheapSize + n - 2 ^ 32 :=
    hjoin.shape.insert_inside hjoin.free hjoin.within hlow hhigh
  rw [hinside, hpayload]
  omega

theorem Consistent.realloc_wraps (hc : Consistent c h l) (hb : b ∈ l)
    (hpos : newsize ≠ 0) (hwraps : Wraps c h (payload 0 c.memheapSize b) newsize) :
    exists h', rtMemheapRealloc c h (some (payload 0 c.memheapSize b)) newsize =
        some (h', some (payload 0 c.memheapSize b)) ∧
      SameCore h h' ∧ h'.get b.start Field.next < payload 0 c.memheapSize b := by
  have hhdr := c.le_memheapSize
  have hs := hc.shape
  have hbd := hs.tiles.bounds hb
  rcases hwraps with ⟨hlt, hext, hwrap⟩
  have htest := (hs.extends_iff hb).mp hext
  rw [header_of_payload, hs.memitemSize_eq hb] at hlt
  rcases List.append_of_mem hb with ⟨l1, l2, hl⟩
  subst hl
  refine ⟨_, ?_, growBlock_core, hc.wraps_next hext (c.allocSize_lt newsize) hwrap⟩
  simp only [rtMemheapRealloc, if_neg hpos, header_of_payload, hs.memitemSize_eq hb, hs.next_eq hb]
  rw [if_pos hlt, if_pos (show b.start < b.stop by omega),
    if_pos ⟨by simp [htest.left], htest.right⟩]

end Exchange

end RtThread.Mem.MemHeap
