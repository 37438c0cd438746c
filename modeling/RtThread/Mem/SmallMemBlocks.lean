import RtThread.Mem.SmallMem

/-!
# The blocks of the small memory heap

What the pointer assignments of `mem.c` do to the list of blocks: a block is
marked, split in two or joined with the next one, the headers describe the new
list, and no byte outside of headers changes.
-/

namespace RtThread.Mem

open Kernel ByteMemory Tiling

/-!
## Sizes
-/

section Sizes

variable {c : Config}

theorem Config.sizeof_mod : c.sizeofStructMem % c.alignSize = 0 :=
  rtAlign_mod _ _

theorem Config.le_sizeof : 12 ≤ c.sizeofStructMem := by
  have hle := c.alignSize_le
  exact le_rtAlign c.alignSize_pos (by show 12 + c.alignSize ≤ 2 ^ 32; omega)

theorem Config.minSizeAligned_eq : c.minSizeAligned = c.sizeofStructMem := rfl

theorem Config.le_dataSize (size : Nat) :
    size ≤ c.dataSize size ∧ c.sizeofStructMem ≤ c.dataSize size := by
  unfold Config.dataSize
  rw [c.minSizeAligned_eq]
  split
  · omega
  · omega

theorem Config.dataSize_mod {size : Nat} (hsize : size % c.alignSize = 0) :
    c.dataSize size % c.alignSize = 0 := by
  unfold Config.dataSize
  split
  · exact rtAlign_mod _ _
  · exact hsize

theorem Config.alignSize_le_sizeof : c.alignSize ≤ c.sizeofStructMem := by
  have hhdr := c.le_sizeof
  exact Nat.le_of_dvd (by omega) (Nat.dvd_of_mod_eq_zero c.sizeof_mod)

end Sizes

namespace SmallMem

/-!
## Reading fields back
-/

section Fields

variable {c : Config} {h : Heap} {a b v : Nat} {f g : Field}

theorem Heap.get_put_same (hv : v < 256 ^ heapMem.width f) : (h.put a f v).get a f = v :=
  Layout.get_put_same hv

theorem Heap.get_put_field (hne : g ≠ f) : (h.put a f v).get a g = h.get a g :=
  Layout.get_put_field hne

theorem Heap.get_put_apart (hapart : heapMem.Apart a b) : (h.put a f v).get b g = h.get b g :=
  Layout.get_put_apart hapart

theorem Heap.get_next_lt : h.get a Field.next < 2 ^ 32 := by
  show heapMem.get h.mem a Field.next < 256 ^ heapMem.width Field.next
  exact Layout.get_lt

theorem Heap.put_outside {x : Nat} (hx : x < a ∨ a + 12 ≤ x) :
    (h.put a f v).mem x = h.mem x := by
  show heapMem.put h.mem a f v x = h.mem x
  exact Layout.put_outside hx

end Fields

def links (h : Heap) : Links where
  next p := h.get p Field.next
  prev p := h.get p Field.prev
  used p := decide (h.get p Field.used ≠ 0)

theorem agree_of_get {h h' : Heap} {x : Nat} (hsame : forall f, h'.get x f = h.get x f) :
    Agree (links h) (links h') x := by
  refine ⟨hsame Field.next, ?_, hsame Field.prev⟩
  show decide (h'.get x Field.used ≠ 0) = decide (h.get x Field.used ≠ 0)
  rw [hsame Field.used]

/-!
## The headers describe a list of blocks
-/

structure Shape (c : Config) (h : Heap) (l : List Block) : Prop where
  base : h.heapPtr % c.alignSize = 0
  size : h.memSizeAligned % c.alignSize = 0
  small : h.heapPtr + h.heapEnd c + c.sizeofStructMem < 2 ^ 32
  tiles : Tiles c.sizeofStructMem 0 l (h.heapEnd c)
  aligned : forall b, b ∈ l -> b.start % c.alignSize = 0
  headers : Headers (links h) 0 l
  endUsed : h.get (h.heapEnd c) Field.used ≠ 0
  endNext : h.get (h.heapEnd c) Field.next = h.heapEnd c

section Shape

variable {c : Config} {h h' : Heap} {l l' : List Block} {b b' d : Block}

theorem Shape.apart (hs : Shape c h l) (hb : b ∈ l) (hd : d ∈ l)
    (hne : b.start ≠ d.start) : heapMem.Apart b.start d.start := by
  have hhdr := c.le_sizeof
  have hb' := hs.tiles.bounds hb
  have hd' := hs.tiles.bounds hd
  rcases hs.tiles.eq_or_apart hb hd with heq | hle | hle
  · rw [heq] at hne
    exact absurd rfl hne
  · exact Or.inl (by show _ + 12 ≤ _; omega)
  · exact Or.inr (by show _ + 12 ≤ _; omega)

theorem Shape.apart_end (hs : Shape c h l) (hb : b ∈ l) :
    heapMem.Apart b.start (h.heapEnd c) := by
  have hhdr := c.le_sizeof
  have hb' := hs.tiles.bounds hb
  exact Or.inl (by show _ + 12 ≤ _; omega)

theorem Shape.next_eq (hs : Shape c h l) (hb : b ∈ l) : h.get b.start Field.next = b.stop :=
  (hs.headers.of_mem hb).left

theorem Shape.used_iff (hs : Shape c h l) (hb : b ∈ l) :
    h.get b.start Field.used ≠ 0 <-> b.used = true := by
  have hused : decide (h.get b.start Field.used ≠ 0) = b.used :=
    (hs.headers.of_mem hb).right
  rw [← hused, decide_eq_true_iff]

theorem Shape.free_iff (hs : Shape c h l) (hb : b ∈ l) :
    h.get b.start Field.used = 0 <-> b.used = false := by
  have hiff := hs.used_iff hb
  rw [← not_iff_not, Bool.not_eq_false]
  exact hiff

theorem Shape.stop_cases (hs : Shape c h l) (hb : b ∈ l) :
    b.stop = h.heapEnd c ∨ exists d, d ∈ l ∧ d.start = b.stop := by
  rcases List.append_of_mem hb with ⟨s, t, hl⟩
  subst hl
  rcases hs.tiles.next with ⟨_, hstop⟩ | ⟨d, t', ht, hd⟩
  · exact Or.inl hstop
  · exact Or.inr ⟨d, by simp [ht], hd⟩

theorem Shape.stop_lt (hs : Shape c h l) (hb : b ∈ l) : b.start < 2 ^ 32 ∧ b.stop < 2 ^ 32 := by
  have hb' := hs.tiles.bounds hb
  have hsmall := hs.small
  omega

end Shape

/-!
## Editing the list
-/

def Stamped (h : Heap) (l : List Block) : Prop :=
  forall b, b ∈ l -> b.used = true -> h.get b.start Field.magic = heapMagic

/-- The list of blocks changed, and with it nothing but headers. -/
structure Edit (c : Config) (h : Heap) (l : List Block) (h' : Heap)
    (l' : List Block) : Prop where
  heapPtr : h'.heapPtr = h.heapPtr
  memSizeAligned : h'.memSizeAligned = h.memSizeAligned
  shape : Shape c h' l'
  bytes : HeadersOnly c.sizeofStructMem 0 (h.heapEnd c) l l' h.mem h'.mem
  stamped : Stamped h l -> Stamped h' l'

/-- Two heaps that differ in `lfree` and the statistics only. -/
def SameMem (h h' : Heap) : Prop :=
  h'.heapPtr = h.heapPtr ∧ h'.memSizeAligned = h.memSizeAligned ∧
    h'.mem = h.mem

theorem SameMem.get {h h' : Heap} {x : Nat} {f : Field} (hm : SameMem h h') :
    h'.get x f = h.get x f := by
  unfold Heap.get
  rw [hm.right.right]

theorem Shape.get_of_headers {c : Config} {h h' : Heap} {l : List Block} {x : Nat} {f : Field}
    (hsame : forall y, InHeader c.sizeofStructMem l 0 (h.heapEnd c) y -> h'.mem y = h.mem y)
    (hx : x = h.heapEnd c ∨ exists d, d ∈ l ∧ d.start = x) :
    h'.get x f = h.get x f := by
  have hhdr := c.le_sizeof
  apply Layout.get_congr
  intro y hle hlt
  have hlt' : y < x + 12 := hlt
  apply hsame
  rcases hx with hend | ⟨d, hd, hstart⟩
  · exact Or.inr (by omega)
  · exact Or.inl ⟨d, hd, by omega, by omega⟩

theorem Shape.of_headers {c : Config} {h h' : Heap} {l : List Block}
    (hs : Shape c h l) (hptr : h'.heapPtr = h.heapPtr)
    (hsize : h'.memSizeAligned = h.memSizeAligned)
    (hsame : forall y, InHeader c.sizeofStructMem l 0 (h.heapEnd c) y ->
      h'.mem y = h.mem y) : Shape c h' l := by
  have hend : h'.heapEnd c = h.heapEnd c := by
    unfold Heap.heapEnd
    rw [hsize]
  constructor
  · rw [hptr]
    exact hs.base
  · rw [hsize]
    exact hs.size
  · rw [hptr, hend]
    exact hs.small
  · rw [hend]
    exact hs.tiles
  · exact hs.aligned
  · exact hs.headers.congr fun d hd => agree_of_get fun f =>
      Shape.get_of_headers hsame (Or.inr ⟨d, hd, rfl⟩)
  · rw [hend, Shape.get_of_headers hsame (Or.inl rfl)]
    exact hs.endUsed
  · rw [hend, Shape.get_of_headers hsame (Or.inl rfl)]
    exact hs.endNext

theorem Shape.of_sameMem {c : Config} {h h' : Heap} {l : List Block}
    (hs : Shape c h l) (hm : SameMem h h') : Shape c h' l :=
  hs.of_headers hm.left hm.right.left fun _ _ => by rw [hm.right.right]

theorem Stamped.of_headers {c : Config} {h h' : Heap} {l : List Block} (hst : Stamped h l)
    (hsame : forall y, InHeader c.sizeofStructMem l 0 (h.heapEnd c) y ->
      h'.mem y = h.mem y) : Stamped h' l := by
  intro d hd hused
  rw [Shape.get_of_headers hsame (Or.inr ⟨d, hd, rfl⟩)]
  exact hst d hd hused

section Edit

variable {c : Config} {h h' h2 : Heap} {l l' l2 : List Block} {b b' d : Block}

theorem Edit.refl (hs : Shape c h l) : Edit c h l h l :=
  ⟨rfl, rfl, hs, fun _ _ _ => rfl, fun hst => hst⟩

theorem Edit.heapEnd (he : Edit c h l h' l') : h'.heapEnd c = h.heapEnd c := by
  unfold Heap.heapEnd
  rw [he.memSizeAligned]

theorem Edit.sameMem (he : Edit c h l h' l') (hm : SameMem h' h2) : Edit c h l h2 l' := by
  refine ⟨hm.left.trans he.heapPtr, hm.right.left.trans he.memSizeAligned,
    he.shape.of_sameMem hm, ?_, ?_⟩
  · rw [hm.right.right]
    exact he.bytes
  · intro hst d hd hused
    rw [hm.get]
    exact he.stamped hst d hd hused

theorem Edit.trans (he : Edit c h l h' l') (he' : Edit c h' l' h2 l2)
    (hmid : forall d, d ∈ l' -> exists d', (d' ∈ l ∨ d' ∈ l2) ∧
      d'.start = d.start) : Edit c h l h2 l2 := by
  refine ⟨he'.heapPtr.trans he.heapPtr, he'.memSizeAligned.trans he.memSizeAligned, he'.shape, ?_,
    fun hst => he'.stamped (he.stamped hst)⟩
  intro x hx hx2
  have hx' : ¬ InHeader c.sizeofStructMem l' 0 (h.heapEnd c) x := by
    rintro (⟨d, hd, hle, hlt⟩ | hend)
    · rcases hmid d hd with ⟨d', hd' | hd', hstart⟩
      · exact hx (Or.inl ⟨d', hd', by omega, by omega⟩)
      · exact hx2 (Or.inl ⟨d', hd', by omega, by omega⟩)
    · exact hx (Or.inr hend)
  have hbytes' := he'.bytes
  rw [he.heapEnd] at hbytes'
  rw [hbytes' x hx' hx2, he.bytes x hx hx']

variable {x mem mem2 : Nat}

theorem outside_of_not_header {a e : Nat} (hb : b ∈ l)
    (hx : ¬ InHeader c.sizeofStructMem l a e x) :
    x < b.start ∨ b.start + 12 ≤ x := by
  have hhdr := c.le_sizeof
  by_contra hin
  exact hx (Or.inl ⟨b, hb, by omega, by omega⟩)

theorem Shape.mark {v w : Nat} (hs : Shape c h (l ++ b :: l'))
    (hv : v < 65536) (hw : w < 65536) (hstamp : v ≠ 0 -> w = heapMagic) :
    Edit c h (l ++ b :: l') ((h.put b.start Field.used v).put b.start Field.magic w)
      (l ++ { b with used := decide (v ≠ 0) } :: l') := by
  have hb : b ∈ l ++ b :: l' := by simp
  have ht := tiles_append.mp hs.tiles
  have hhead := headers_append.mp hs.headers
  have haround := hs.tiles.around
  have hhdr := c.le_sizeof
  have hne : forall d, d ∈ l ∨ d ∈ l' -> b.start ≠ d.start := by
    intro d hd
    rcases hd with hd | hd
    · have hle := haround.left d hd
      have hbd := ht.left.bounds hd
      omega
    · have hle := haround.right d hd
      omega
  have hother : forall d, d ∈ l ∨ d ∈ l' -> forall f,
      ((h.put b.start Field.used v).put b.start Field.magic w).get d.start f = h.get d.start f := by
    intro d hd f
    have hapart : heapMem.Apart b.start d.start :=
      hs.apart hb (by simp; tauto) (hne d hd)
    rw [Heap.get_put_apart hapart, Heap.get_put_apart hapart]
  have hend : forall f, ((h.put b.start Field.used v).put b.start Field.magic w).get
        (h.heapEnd c) f = h.get (h.heapEnd c) f := by
    intro f
    rw [Heap.get_put_apart (hs.apart_end hb), Heap.get_put_apart (hs.apart_end hb)]
  refine ⟨rfl, rfl, ⟨hs.base, hs.size, hs.small, ?_, ?_, ?_, ?_, ?_⟩, ?_, ?_⟩
  · exact tiles_append.mpr ht
  · have halign := hs.aligned
    simp only [List.forall_mem_append, List.forall_mem_cons] at halign ⊢
    exact halign
  · rw [headers_append]
    refine ⟨?_, ?_, ?_, ?_, ?_⟩
    · exact hhead.left.congr fun d hd => agree_of_get (hother d (Or.inl hd))
    · show ((h.put b.start Field.used v).put b.start Field.magic w).get b.start Field.next = b.stop
      rw [Heap.get_put_field (by decide), Heap.get_put_field (by decide)]
      exact hhead.right.left
    · show decide (((h.put b.start Field.used v).put b.start Field.magic w).get
        b.start Field.used ≠ 0) = decide (v ≠ 0)
      rw [Heap.get_put_field (by decide), Heap.get_put_same hv]
    · show ((h.put b.start Field.used v).put b.start Field.magic w).get b.start
        Field.prev = lastStart 0 l
      rw [Heap.get_put_field (by decide), Heap.get_put_field (by decide)]
      exact hhead.right.right.right.left
    · exact hhead.right.right.right.right.congr fun d hd =>
        agree_of_get (hother d (Or.inr hd))
  · show ((h.put b.start Field.used v).put b.start Field.magic w).get
      (h.heapEnd c) Field.used ≠ 0
    rw [hend]
    exact hs.endUsed
  · show ((h.put b.start Field.used v).put b.start Field.magic w).get
      (h.heapEnd c) Field.next = h.heapEnd c
    rw [hend]
    exact hs.endNext
  · intro x hx _
    have hout := outside_of_not_header hb hx
    rw [Heap.put_outside hout, Heap.put_outside hout]
  · intro hst
    refine List.forall_mem_append.mpr ⟨?_, List.forall_mem_cons.mpr ⟨?_, ?_⟩⟩
    · intro d hd hused
      rw [hother d (Or.inl hd)]
      exact hst d (by simp [hd]) hused
    · intro hused
      rw [decide_eq_true_iff] at hused
      show ((h.put b.start Field.used v).put b.start Field.magic w).get b.start
        Field.magic = heapMagic
      rw [Heap.get_put_same hw]
      exact hstamp hused
    · intro d hd hused
      rw [hother d (Or.inr hd)]
      exact hst d (by simp [hd]) hused

theorem relinked_put_prev {a e q : Nat} (ht : Tiles c.sizeofStructMem a l e) (hq : q < 2 ^ 32) :
    Relinked (links h) (links (h.put a Field.prev q)) q l := by
  cases l with
  | nil => trivial
  | cons b l =>
    rcases ht with ⟨hstart, hroom, hrest⟩
    subst hstart
    refine ⟨Heap.get_put_field (by decide), ?_, Heap.get_put_same hq, ?_⟩
    · show decide ((h.put b.start Field.prev q).get b.start Field.used ≠ 0) =
        decide (h.get b.start Field.used ≠ 0)
      rw [Heap.get_put_field (by decide)]
    · intro d hd
      apply agree_of_get
      intro f
      have hhdr := c.le_sizeof
      have hbd := hrest.bounds hd
      exact Heap.get_put_apart (Or.inl (by show _ + 12 ≤ _; omega))

theorem Shape.merge (hs : Shape c h (l ++ b :: b' :: l')) : Edit c h (l ++ b :: b' :: l')
      ((h.put b.start Field.next b'.stop).put b'.stop Field.prev b.start)
      (l ++ { b with stop := b'.stop } :: l') := by
  have hhdr := c.le_sizeof
  have hb : b ∈ l ++ b :: b' :: l' := by simp
  have hb' : b' ∈ l ++ b :: b' :: l' := by simp
  have ht := tiles_append.mp hs.tiles
  have hhead := headers_append.mp hs.headers
  rcases ht with ⟨htl, hroom, hstart, hroom', htl'⟩
  rcases hhead with ⟨hhl, hnext, hused, hprev, hhr⟩
  have hstop := hs.stop_lt hb'
  have hlow := hs.stop_lt hb
  have hapart : heapMem.Apart b.start b'.stop :=
    Or.inl (by show _ + 12 ≤ _; omega)
  have hleft : forall d, d ∈ l -> forall f,
      ((h.put b.start Field.next b'.stop).put b'.stop Field.prev b.start).get
        d.start f = h.get d.start f := by
    intro d hd f
    have hbd := htl.bounds hd
    rw [Heap.get_put_apart (Or.inr (by show _ + 12 ≤ _; omega)),
      Heap.get_put_apart (Or.inr (by show _ + 12 ≤ _; omega))]
  have hend : forall f, f ≠ Field.prev ->
      ((h.put b.start Field.next b'.stop).put b'.stop Field.prev b.start).get
        (h.heapEnd c) f = h.get (h.heapEnd c) f := by
    intro f hf
    rw [← Heap.get_put_apart (h := h) (f := Field.next) (v := b'.stop) (hs.apart_end hb)]
    have hle := htl'.le
    rcases hs.stop_cases hb' with heq | ⟨d, hd, heq⟩
    · rw [heq]
      exact Heap.get_put_field hf
    · rw [← heq]
      exact Heap.get_put_apart (hs.apart_end hd)
  refine ⟨rfl, rfl, ⟨hs.base, hs.size, hs.small, ?_, ?_, ?_, ?_, ?_⟩, ?_, ?_⟩
  · exact tiles_append.mpr ⟨htl, by show b.start + c.sizeofStructMem ≤ b'.stop; omega, htl'⟩
  · have halign := hs.aligned
    simp only [List.forall_mem_append, List.forall_mem_cons] at halign ⊢
    exact ⟨halign.left, halign.right.left, halign.right.right.right⟩
  · rw [headers_append]
    refine ⟨?_, ?_, ?_, ?_, ?_⟩
    · exact hhl.congr fun d hd => agree_of_get (hleft d hd)
    · show ((h.put b.start Field.next b'.stop).put b'.stop Field.prev
        b.start).get b.start Field.next = b'.stop
      rw [Heap.get_put_apart hapart.symm, Heap.get_put_same hstop.right]
    · show decide (((h.put b.start Field.next b'.stop).put b'.stop Field.prev
        b.start).get b.start Field.used ≠ 0) = b.used
      rw [Heap.get_put_apart hapart.symm, Heap.get_put_field (by decide)]
      exact hused
    · show ((h.put b.start Field.next b'.stop).put b'.stop Field.prev
        b.start).get b.start Field.prev = lastStart 0 l
      rw [Heap.get_put_apart hapart.symm, Heap.get_put_field (by decide)]
      exact hprev
    · have hmid : Headers (links (h.put b.start Field.next b'.stop)) b'.start
          l' := by
        apply hhr.right.right.right.congr
        intro d hd
        apply agree_of_get
        intro f
        have hbd := htl'.bounds hd
        exact Heap.get_put_apart (Or.inl (by show _ + 12 ≤ _; omega))
      exact hmid.relink (relinked_put_prev htl' hlow.left)
  · intro hzero
    exact hs.endUsed ((hend Field.used (by decide)).symm.trans hzero)
  · exact (hend Field.next (by decide)).trans hs.endNext
  · intro x hx _
    have hout := outside_of_not_header hb hx
    have hout' : x < b'.stop ∨ b'.stop + 12 ≤ x := by
      rcases hs.stop_cases hb' with heq | ⟨d, hd, heq⟩
      · by_contra hin
        exact hx (Or.inr (by omega))
      · rw [← heq]
        exact outside_of_not_header hd hx
    rw [Heap.put_outside hout', Heap.put_outside hout]
  · intro hst
    have hmagic : forall d, d ∈ l' -> ((h.put b.start Field.next b'.stop).put
        b'.stop Field.prev b.start).get d.start Field.magic = h.get d.start Field.magic := by
      intro d hd
      have hbd := htl'.bounds hd
      rw [← Heap.get_put_apart (h := h) (a := b.start) (f := Field.next)
        (v := b'.stop) (Or.inl (by show _ + 12 ≤ _; omega))]
      by_cases heq : d.start = b'.stop
      · rw [heq]
        exact Heap.get_put_field (by decide)
      · have hmem : d ∈ l ++ b :: b' :: l' := by simp [hd]
        rcases hs.stop_cases hb' with hstop | ⟨d', hd', hstart'⟩
        · exact absurd hstop (by omega)
        · rw [← hstart'] at heq ⊢
          exact Heap.get_put_apart (hs.apart hd' hmem (Ne.symm heq))
    refine List.forall_mem_append.mpr ⟨?_, List.forall_mem_cons.mpr ⟨?_, ?_⟩⟩
    · intro d hd hu
      rw [hleft d hd]
      exact hst d (by simp [hd]) hu
    · intro hu
      show ((h.put b.start Field.next b'.stop).put b'.stop Field.prev
        b.start).get b.start Field.magic = heapMagic
      rw [Heap.get_put_apart hapart.symm, Heap.get_put_field (by decide)]
      exact hst b hb hu
    · intro d hd hu
      rw [hmagic d hd]
      exact hst d (by simp [hd]) hu

/-!
## Splitting a block
-/

theorem linkBehind_new (hapart : heapMem.Apart mem mem2) (hmem : mem < 2 ^ 32) :
    (linkBehind h mem mem2).get mem2 Field.used = 0 ∧
      (linkBehind h mem mem2).get mem2 Field.next = h.get mem Field.next ∧
      (linkBehind h mem mem2).get mem2 Field.prev = mem := by
  unfold linkBehind
  refine ⟨?_, ?_, ?_⟩
  · rw [Heap.get_put_apart hapart, Heap.get_put_field (by decide),
      Heap.get_put_field (by decide), Heap.get_put_same (by decide)]
  · rw [Heap.get_put_apart hapart, Heap.get_put_field (by decide),
      Heap.get_put_same Heap.get_next_lt, Heap.get_put_apart hapart.symm]
  · rw [Heap.get_put_apart hapart, Heap.get_put_same hmem]

theorem linkBehind_old (hapart : heapMem.Apart mem mem2) (hmem2 : mem2 < 2 ^ 32) :
    (linkBehind h mem mem2).get mem Field.next = mem2 ∧ forall f, f ≠ Field.next ->
        (linkBehind h mem mem2).get mem f = h.get mem f := by
  unfold linkBehind
  constructor
  · rw [Heap.get_put_same hmem2]
  · intro f hf
    rw [Heap.get_put_field hf, Heap.get_put_apart hapart.symm,
      Heap.get_put_apart hapart.symm, Heap.get_put_apart hapart.symm]

theorem linkBehind_apart {f : Field} (hx : heapMem.Apart mem x) (hx2 : heapMem.Apart mem2 x) :
    (linkBehind h mem mem2).get x f = h.get x f := by
  unfold linkBehind
  rw [Heap.get_put_apart hx, Heap.get_put_apart hx2, Heap.get_put_apart hx2, Heap.get_put_apart hx2]

theorem linkBehind_outside (hx : x < mem ∨ mem + 12 ≤ x) (hx2 : x < mem2 ∨ mem2 + 12 ≤ x) :
    (linkBehind h mem mem2).mem x = h.mem x := by
  unfold linkBehind
  rw [Heap.put_outside hx, Heap.put_outside hx2, Heap.put_outside hx2, Heap.put_outside hx2]

theorem linkBack_apart {f : Field} (hx : heapMem.Apart (h.get mem2 Field.next) x) :
    (linkBack c h mem2).get x f = h.get x f := by
  unfold linkBack
  split
  · exact Heap.get_put_apart hx
  · rfl

theorem linkBack_field {f : Field} (hf : f ≠ Field.prev) :
    (linkBack c h mem2).get (h.get mem2 Field.next) f = h.get (h.get mem2 Field.next) f := by
  unfold linkBack
  split
  · exact Heap.get_put_field hf
  · rfl

theorem linkBack_outside (hx : x < h.get mem2 Field.next ∨ h.get mem2 Field.next + 12 ≤ x) :
    (linkBack c h mem2).mem x = h.mem x := by
  unfold linkBack
  split
  · exact Heap.put_outside hx
  · rfl

theorem linkBack_relinked (hmem2 : mem2 < 2 ^ 32)
    (ht : Tiles c.sizeofStructMem (h.get mem2 Field.next) l (h.heapEnd c)) :
    Relinked (links h) (links (linkBack c h mem2)) mem2 l := by
  cases l with
  | nil => trivial
  | cons b l =>
    have hhdr := c.le_sizeof
    have hle := ht.right.right.le
    have hne : h.get mem2 Field.next ≠ h.memSizeAligned + c.sizeofStructMem := by
      have hroom := ht.right.left
      show h.get mem2 Field.next ≠ h.heapEnd c
      omega
    unfold linkBack
    rw [if_pos hne]
    exact relinked_put_prev ht hmem2

theorem linkBack_heapPtr : (linkBack c h mem2).heapPtr = h.heapPtr := by
  unfold linkBack
  split <;> rfl

theorem linkBack_memSizeAligned : (linkBack c h mem2).memSizeAligned = h.memSizeAligned := by
  unfold linkBack
  split <;> rfl

theorem linkBack_put {v : Nat} {f : Field} (hmem2 : heapMem.Apart mem mem2)
    (hnext : heapMem.Apart mem (h.get mem2 Field.next)) :
    linkBack c (h.put mem f v) mem2 = (linkBack c h mem2).put mem f v := by
  unfold linkBack
  rw [Heap.get_put_apart hmem2]
  show (if h.get mem2 Field.next ≠ h.memSizeAligned + c.sizeofStructMem then
    (h.put mem f v).put (h.get mem2 Field.next) Field.prev mem2
    else h.put mem f v) = _
  split
  · unfold Heap.put
    rw [Layout.put_comm hnext]
  · rfl

theorem linkBack_lfree (mem2 : Nat) : (linkBack c h mem2).lfree = h.lfree ∧
      (linkBack c h mem2).usedMem = h.usedMem := by
  unfold linkBack
  split <;> exact ⟨rfl, rfl⟩

structure Cut (c : Config) (h : Heap) (l : List Block) (b : Block)
    (l' : List Block) (cut : Nat) (h' : Heap) : Prop where
  heapPtr : h'.heapPtr = h.heapPtr
  memSizeAligned : h'.memSizeAligned = h.memSizeAligned
  before : forall d, d ∈ l -> forall f, h'.get d.start f = h.get d.start f
  next : h'.get b.start Field.next = cut
  fields : forall f, f ≠ Field.next -> h'.get b.start f = h.get b.start f
  newUsed : h'.get cut Field.used = 0
  newNext : h'.get cut Field.next = b.stop
  newPrev : h'.get cut Field.prev = b.start
  behind : forall x, (x = h.heapEnd c ∨ exists d, d ∈ l' ∧ d.start = x) ->
    forall f, f ≠ Field.prev -> h'.get x f = h.get x f
  relinked : Headers (links h') cut l'
  bytes : forall x, (x < b.start ∨ b.start + 12 ≤ x) ->
    (x < cut ∨ cut + 12 ≤ x) -> (x < b.stop ∨ b.stop + 12 ≤ x) ->
    h'.mem x = h.mem x

theorem Shape.behind (hs : Shape c h (l ++ b :: l'))
    (hx : x = h.heapEnd c ∨ exists d, d ∈ l' ∧ d.start = x) :
    x = b.stop ∨ b.stop + 12 ≤ x := by
  have hhdr := c.le_sizeof
  rcases hs.tiles.next with ⟨hnil, hstop⟩ | ⟨d', t, hcons, hstart⟩
  · rcases hx with heq | ⟨d, hd, _⟩
    · exact Or.inl (heq.trans hstop.symm)
    · rw [hnil] at hd
      cases hd
  · subst hcons
    have htl' := (tiles_append.mp hs.tiles).right.right
    have hroom := htl'.right.left
    rcases hx with heq | ⟨d, hd, heq⟩
    · have hle := htl'.right.right.le
      exact Or.inr (by omega)
    · rcases List.mem_cons.mp hd with hsame | htail
      · subst hsame
        exact Or.inl (heq.symm.trans hstart)
      · have hbd := htl'.right.right.bounds htail
        exact Or.inr (by omega)

theorem Shape.cut (hs : Shape c h (l ++ b :: l')) (cut : Nat)
    (hlow : b.start + c.sizeofStructMem ≤ cut)
    (hhigh : cut + c.sizeofStructMem ≤ b.stop) :
    Cut c h l b l' cut (linkBack c (linkBehind h b.start cut) cut) := by
  have hhdr := c.le_sizeof
  have hb : b ∈ l ++ b :: l' := by simp
  rcases tiles_append.mp hs.tiles with ⟨htl, hroom, htl'⟩
  rcases headers_append.mp hs.headers with ⟨_, hnext, _, _, hhr⟩
  have hstop := hs.stop_lt hb
  have hcut : heapMem.Apart b.start cut := Or.inl (by show _ + 12 ≤ _; omega)
  have hcut32 : cut < 2 ^ 32 := by omega
  rcases linkBehind_new (h := h) hcut hstop.left with ⟨hnu, hnn, hnp⟩
  rcases linkBehind_old (h := h) hcut hcut32 with ⟨hon, hof⟩
  have hnn' : (linkBehind h b.start cut).get cut Field.next = b.stop :=
    hnn.trans hnext
  have hright : forall x, b.stop ≤ x -> forall f,
      (linkBehind h b.start cut).get x f = h.get x f := by
    intro x hx f
    exact linkBehind_apart (Or.inl (by show _ + 12 ≤ _; omega))
      (Or.inl (by show _ + 12 ≤ _; omega))
  have hlower : forall x, x + 12 ≤ b.stop -> forall f,
      (linkBack c (linkBehind h b.start cut) cut).get x f = (linkBehind h b.start cut).get x f := by
    intro x hx f
    apply linkBack_apart
    rw [hnn']
    exact Or.inr hx
  constructor
  · exact linkBack_heapPtr
  · exact linkBack_memSizeAligned
  · intro d hd f
    have hbd := htl.bounds hd
    rw [hlower d.start (by omega)]
    exact linkBehind_apart (Or.inr (by show _ + 12 ≤ _; omega))
      (Or.inr (by show _ + 12 ≤ _; omega))
  · rw [hlower b.start (by omega), hon]
  · intro f hf
    rw [hlower b.start (by omega), hof f hf]
  · rw [hlower cut (by omega), hnu]
  · rw [hlower cut (by omega), hnn']
  · rw [hlower cut (by omega), hnp]
  · intro x hx f hf
    have hle := hs.behind hx
    rw [← hright x (by omega) f]
    rcases hle with heq | hfar
    · rw [heq, ← hnn']
      exact linkBack_field hf
    · apply linkBack_apart
      rw [hnn']
      exact Or.inl hfar
  · have hmid : Headers (links (linkBehind h b.start cut)) b.start l' :=
      hhr.congr fun d hd => agree_of_get (hright d.start (htl'.bounds hd).left)
    apply hmid.relink
    apply linkBack_relinked hcut32
    rw [hnn']
    exact htl'
  · intro x hx hxcut hxstop
    rw [linkBack_outside (by rw [hnn']; exact hxstop), linkBehind_outside hx hxcut]

theorem Cut.edit {cut : Nat} (hc : Cut c h l b l' cut h') (hs : Shape c h (l ++ b :: l'))
    (hlow : b.start + c.sizeofStructMem ≤ cut)
    (hhigh : cut + c.sizeofStructMem ≤ b.stop)
    (halign : cut % c.alignSize = 0) :
    Edit c h (l ++ b :: l') h' (l ++ { b with stop := cut } :: ⟨cut, b.stop, false⟩ :: l') := by
  have hb : b ∈ l ++ b :: l' := by simp
  rcases tiles_append.mp hs.tiles with ⟨htl, hroom, htl'⟩
  rcases headers_append.mp hs.headers with ⟨hhl, _, hused, hprev, _⟩
  have hend : h'.heapEnd c = h.heapEnd c := by
    unfold Heap.heapEnd
    rw [hc.memSizeAligned]
  refine ⟨hc.heapPtr, hc.memSizeAligned, ?_, ?_, ?_⟩
  · constructor
    · rw [hc.heapPtr]
      exact hs.base
    · rw [hc.memSizeAligned]
      exact hs.size
    · rw [hc.heapPtr, hend]
      exact hs.small
    · rw [hend]
      exact tiles_append.mpr ⟨htl, hlow, rfl, hhigh, htl'⟩
    · have hal := hs.aligned
      simp only [List.forall_mem_append, List.forall_mem_cons] at hal ⊢
      exact ⟨hal.left, hal.right.left, halign, hal.right.right⟩
    · rw [headers_append]
      refine ⟨?_, hc.next, ?_, ?_, hc.newNext, ?_, hc.newPrev, hc.relinked⟩
      · exact hhl.congr fun d hd => agree_of_get (hc.before d hd)
      · show decide (h'.get b.start Field.used ≠ 0) = b.used
        rw [hc.fields _ (by decide)]
        exact hused
      · show h'.get b.start Field.prev = lastStart 0 l
        rw [hc.fields _ (by decide)]
        exact hprev
      · show decide (h'.get cut Field.used ≠ 0) = false
        rw [hc.newUsed]
        rfl
    · rw [hend, hc.behind _ (Or.inl rfl) _ (by decide)]
      exact hs.endUsed
    · rw [hend, hc.behind _ (Or.inl rfl) _ (by decide)]
      exact hs.endNext
  · intro x hx hx2
    apply hc.bytes x (outside_of_not_header hb hx)
    · exact outside_of_not_header (b := ⟨cut, b.stop, false⟩) (by simp) hx2
    · rcases hs.stop_cases hb with heq | ⟨d, hd, heq⟩
      · by_contra hin
        exact hx (Or.inr (by omega))
      · rw [← heq]
        exact outside_of_not_header hd hx
  · intro hst
    refine List.forall_mem_append.mpr ⟨?_, List.forall_mem_cons.mpr
      ⟨?_, List.forall_mem_cons.mpr ⟨?_, ?_⟩⟩⟩
    · intro d hd hu
      rw [hc.before d hd]
      exact hst d (by simp [hd]) hu
    · intro hu
      show h'.get b.start Field.magic = heapMagic
      rw [hc.fields _ (by decide)]
      exact hst b hb hu
    · intro hu
      cases hu
    · intro d hd hu
      rw [hc.behind _ (Or.inr ⟨d, hd, rfl⟩) _ (by decide)]
      exact hst d (by simp [hd]) hu

/-!
## Plugging holes
-/

theorem joined_none (hb : b.used = false) : joined none b none = b := by
  cases b
  cases hb
  rfl

/-- `lfree` after the first half of `plug_holes`. -/
def forwardLfree (lfree : Nat) (b : Block) (q : Option Block) : Nat :=
  if q.map Block.start = some lfree then b.start else lfree

/-- `lfree` after the second half. -/
def backwardLfree (lfree : Nat) (p : Option Block) (b : Block) : Nat :=
  if lfree = b.start then (p.getD b).start else lfree

theorem plugForward_spec (hs : Shape c h (l ++ b :: l')) (hb : b.used = false) :
    exists q t, l' = q.toList ++ t ∧ (forall x, x ∈ q -> x.used = false) ∧
      (q = none -> forall x, x ∈ t.head? -> x.used = true) ∧
      Edit c h (l ++ b :: l') (plugForward c h b.start) (l ++ joined none b q :: t) ∧
      (plugForward c h b.start).lfree = forwardLfree h.lfree b q ∧
      (plugForward c h b.start).usedMem = h.usedMem := by
  have hmem : b ∈ l ++ b :: l' := by simp
  have hhdr := c.le_sizeof
  have hbd := hs.tiles.bounds hmem
  unfold plugForward
  rw [hs.next_eq hmem]
  rcases hs.tiles.next with ⟨hnil, hstop⟩ | ⟨d, t, hcons, hstart⟩
  · -- the last entry is never free
    refine ⟨none, [], hnil, by simp, by simp, ?_⟩
    rw [if_neg (by rw [hstop]; simp), joined_none hb, hnil]
    exact ⟨Edit.refl (hnil ▸ hs), rfl, rfl⟩
  · subst hcons
    have hd : d ∈ l ++ b :: d :: t := by simp
    have hdb := hs.tiles.bounds hd
    cases hused : d.used with
    | true =>
      refine ⟨none, d :: t, rfl, by simp, by simpa using hused, ?_⟩
      have hne : h.get b.stop Field.used ≠ 0 := by
        rw [← hstart]
        exact (hs.used_iff hd).mpr hused
      rw [if_neg (by simp [hne]), joined_none hb]
      exact ⟨Edit.refl hs, rfl, rfl⟩
    | false =>
      refine ⟨some d, t, rfl, by simpa using hused, by simp, ?_⟩
      have hzero : h.get b.stop Field.used = 0 := by
        rw [← hstart]
        exact (hs.free_iff hd).mpr hused
      have hnext : h.get b.stop Field.next = d.stop := by
        rw [← hstart]
        exact hs.next_eq hd
      rw [if_pos ⟨by omega, hzero, by omega⟩]
      have hnext1 : forall x : Nat, ({ h with lfree := x } : Heap).get b.stop
          Field.next = d.stop := fun x => hnext
      have hnext2 : forall x : Nat, (({ h with lfree := x } : Heap).put b.start
          Field.next d.stop).get b.stop Field.next = d.stop := by
        intro x
        rw [Heap.get_put_apart (Or.inl (by show _ + 12 ≤ _; omega))]
        exact hnext1 x
      simp only [hnext1, hnext2]
      refine ⟨?_, ?_, rfl⟩
      · have hblock : joined none b (some d) = { b with stop := d.stop } := by
          rw [hb]
          rfl
        rw [hblock]
        exact hs.merge.sameMem ⟨rfl, rfl, rfl⟩
      · show (if h.lfree = b.stop then b.start else h.lfree) = _
        unfold forwardLfree
        simp only [Option.map_some, Option.some.injEq, hstart, eq_comm]

theorem plugBackward_spec (hs : Shape c h (l ++ b :: l')) (hb : b.used = false) :
    exists p s, l = s ++ p.toList ∧ (forall x, x ∈ p -> x.used = false) ∧
      (p = none -> forall x, x ∈ s.getLast? -> x.used = true) ∧
      Edit c h (l ++ b :: l') (plugBackward h b.start) (s ++ joined p b none :: l') ∧
      (plugBackward h b.start).lfree = backwardLfree h.lfree p b ∧
      (plugBackward h b.start).usedMem = h.usedMem := by
  have hmem : b ∈ l ++ b :: l' := by simp
  have hhdr := c.le_sizeof
  have hprev : h.get b.start Field.prev = lastStart 0 l :=
    (headers_append.mp hs.headers).right.right.right.left
  unfold plugBackward
  rw [hprev]
  rcases List.eq_nil_or_concat' l with hnil | ⟨s, d, hcons⟩
  · subst hnil
    refine ⟨none, [], rfl, by simp, by simp, ?_⟩
    have hstart : b.start = 0 := hs.tiles.left
    rw [if_neg (by rw [hstart]; simp [lastStart]), joined_none hb]
    refine ⟨Edit.refl hs, ?_, rfl⟩
    unfold backwardLfree
    split <;> simp_all
  · subst hcons
    have hd : d ∈ s ++ [d] ++ b :: l' := by simp
    have hstop : d.stop = b.start := by
      have ht := hs.tiles
      rw [List.append_assoc] at ht
      exact (tiles_append.mp ht).right.right.left.symm
    have hdb := hs.tiles.bounds hd
    rw [lastStart_concat]
    cases hused : d.used with
    | true =>
      refine ⟨none, s ++ [d], by simp, by simp, by simpa using hused, ?_⟩
      have hne : h.get d.start Field.used ≠ 0 := (hs.used_iff hd).mpr hused
      rw [if_neg (by simp [hne]), joined_none hb]
      refine ⟨Edit.refl hs, ?_, rfl⟩
      unfold backwardLfree
      split <;> simp_all
    | false =>
      refine ⟨some d, s, rfl, by simpa using hused, by simp, ?_⟩
      have hzero : h.get d.start Field.used = 0 := (hs.free_iff hd).mpr hused
      have hnext := hs.next_eq hmem
      rw [if_pos ⟨by omega, hzero⟩]
      have hnext1 : forall x : Nat, ({ h with lfree := x } : Heap).get b.start
          Field.next = b.stop := fun x => hnext
      have hnext2 : forall x : Nat, (({ h with lfree := x } : Heap).put d.start
          Field.next b.stop).get b.start Field.next = b.stop := by
        intro x
        rw [Heap.get_put_apart (Or.inl (by show _ + 12 ≤ _; omega))]
        exact hnext1 x
      simp only [hnext1, hnext2]
      refine ⟨?_, rfl, rfl⟩
      have hblock : joined (some d) b none = { d with stop := b.stop } := by
        rw [hused]
        rfl
      have hlist : s ++ [d] ++ b :: l' = s ++ d :: b :: l' := by simp
      rw [hblock, hlist]
      rw [hlist] at hs
      exact hs.merge.sameMem ⟨rfl, rfl, rfl⟩

theorem plugHoles_spec (hs : Shape c h (l ++ b :: l')) (hb : b.used = false) :
    exists h' p q s t, plugHoles c h b.start = some h' ∧ Join l l' p q s t ∧
      Edit c h (l ++ b :: l') h' (s ++ joined p b q :: t) ∧
      h'.lfree = backwardLfree (forwardLfree h.lfree b q) p b ∧
      h'.usedMem = h.usedMem := by
  have hmem : b ∈ l ++ b :: l' := by simp
  have hhdr := c.le_sizeof
  have hbd := hs.tiles.bounds hmem
  have hzero := (hs.free_iff hmem).mpr hb
  rcases plugForward_spec hs hb with ⟨q, t, hl', hqfree, hqend, he, hlf, hum⟩
  have hjb : (joined none b q).used = false := rfl
  rcases plugBackward_spec he.shape hjb with
    ⟨p, s, hl, hpfree, hpend, he', hlf', hum'⟩
  have hj : Join l l' p q s t := ⟨hl, hl', hpfree, hqfree, hpend, hqend⟩
  have hblock : joined p (joined none b q) none = joined p b q := by
    cases p with
    | none => rfl
    | some p => rfl
  rw [hblock] at he'
  refine ⟨plugBackward (plugForward c h b.start) b.start, p, q, s, t, ?_, hj,
    ?_, ?_, hum'.trans hum⟩
  · unfold plugHoles
    rw [if_pos ⟨by omega, hzero⟩]
  · apply he.trans he'
    intro d hd
    simp only [List.mem_append, List.mem_cons] at hd
    rcases hd with hd | heq | hd
    · exact ⟨d, by simp [hd], rfl⟩
    · subst heq
      exact ⟨b, by simp, rfl⟩
    · exact ⟨d, by simp [hl', hd], rfl⟩
  · refine hlf'.trans ?_
    rw [hlf]
    cases p with
    | none => rfl
    | some p => rfl

end Edit

end SmallMem
end RtThread.Mem
