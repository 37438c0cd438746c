import RtThread.Mem.MemHeapBlocks

/-!
# Editing the lists of a memory heap

The assignments of `memheap.c` come in groups: a block is marked, split or joined with its
neighbour, and an item enters or leaves the free list. Each takes a heap that is a list of blocks
to another such heap and writes to nothing but headers; a group changes the block list or the free
list, never both.
-/

namespace RtThread.Mem

open Kernel ByteMemory Tiling LinkRing

namespace MemHeap

/-- The items of the heap: the header of the free list, the blocks and the
tailer. -/
def Entry (c : Config) (h : RtMemheap) (l : List Block) (a : Nat) : Prop :=
  a = h.freeList ∨ exists b, b ∈ l ++ [tailer c h] ∧ b.start = a

/-- The bytes of the pool and of the header of the free list. -/
def Extent (h : RtMemheap) (x : Nat) : Prop :=
  (h.startAddr ≤ x ∧ x < h.startAddr + h.poolSize) ∨
    (h.freeList ≤ x ∧ x < h.freeList + 24)

/-- The list of blocks changed, and with it nothing but headers. -/
structure Edit (c : Config) (h : RtMemheap) (l : List Block) (h' : RtMemheap)
    (l' : List Block) : Prop where
  core : SameCore h h'
  shape : Shape c h' l'
  bytes : HeadersOnly c.memheapSize h.startAddr (tail c h) l l' h.mem h'.mem
  confined : forall x, ¬ Extent h x -> h'.mem x = h.mem x

section Entries

variable {c : Config} {h h' h2 : RtMemheap} {l l' l2 : List Block} {b d : Block}
  {a x : Nat}

theorem Entry.of_mem (hb : b ∈ l) : Entry c h l b.start :=
  Or.inr ⟨b, List.mem_append_left _ hb, rfl⟩

theorem Entry.of_core (hc : SameCore h h') (ha : Entry c h l a) : Entry c h' l a := by
  unfold Entry
  rw [hc.freeList, hc.tailer_eq]
  exact ha

theorem SameCore.refl : SameCore h h :=
  ⟨rfl, rfl, rfl, rfl⟩

theorem put_core {f : Field} {v : Nat} : SameCore h (h.put a f v) :=
  ⟨rfl, rfl, rfl, rfl⟩

theorem SameCore.put {f : Field} {v : Nat} (hc : SameCore h h') : SameCore h (h'.put a f v) :=
  hc.trans put_core

theorem apart_ne {a b : Nat} (hapart : memheapItem.Apart a b) : a ≠ b := by
  rintro rfl
  rcases hapart with hle | hle
  · have hle' : a + 24 ≤ a := hle
    omega
  · have hle' : a + 24 ≤ a := hle
    omega

theorem Shape.entry_apart_list (hs : Shape c h l) (hb : b ∈ l ++ [tailer c h]) :
    memheapItem.Apart h.freeList b.start := by
  have hbd := hs.entry_bounds hb
  exact hs.clear_list hbd.left hbd.right

theorem Shape.entry_clear {a' : Nat} (hs : Shape c h l) (ha : Entry c h l a)
    (ha' : Entry c h l a') : Clear a a' := by
  rcases ha with ha | ⟨b, hb, ha⟩
  · rcases ha' with ha' | ⟨d, hd, ha'⟩
    · exact Or.inl (ha.trans ha'.symm)
    · rw [ha, ← ha']
      exact Or.inr (hs.entry_apart_list hd)
  · rcases ha' with ha' | ⟨d, hd, ha'⟩
    · rw [ha', ← ha]
      exact Or.inr (hs.entry_apart_list hb).symm
    · rw [← ha, ← ha']
      exact hs.clear hb hd

theorem Shape.entry_lt (hs : Shape c h l) (ha : Entry c h l a) : a < 2 ^ 32 := by
  rcases ha with ha | ⟨b, hb, ha⟩
  · rw [ha]
    exact hs.list32
  · rw [← ha]
    exact hs.start_lt hb

theorem Shape.outside (hs : Shape c h l) (ha : Entry c h l a)
    (hx : ¬ InHeader c.memheapSize l h.startAddr (tail c h) x) :
    x < a ∨ a + 24 ≤ x := by
  have hhdr := c.le_memheapSize
  have hadd := hs.tail_add
  have hin : h.startAddr ≤ x ∧ x < tail c h := by
    constructor
    · by_contra hlt
      exact hx (Or.inr (by omega))
    · by_contra hlt
      exact hx (Or.inr (by omega))
  rcases ha with ha | ⟨b, hb, ha⟩
  · have haway := hs.away
    omega
  · rcases List.mem_append.mp hb with hb | hb
    · by_contra hcon
      exact hx (Or.inl ⟨b, hb, by omega, by omega⟩)
    · rw [List.mem_singleton] at hb
      have htail : b.start = tail c h := by rw [hb]; rfl
      omega

theorem SameCore.extent (hc : SameCore h h') : Extent h' x <-> Extent h x := by
  unfold Extent
  rw [hc.startAddr, hc.poolSize, hc.freeList]

theorem Shape.entry_extent (hs : Shape c h l) (ha : Entry c h l a) (hle : a ≤ x)
    (hlt : x < a + 24) : Extent h x := by
  have hhdr := c.le_memheapSize
  have hadd := hs.tail_add
  rcases ha with ha | ⟨b, hb, ha⟩
  · rw [ha] at hle hlt
    exact Or.inr ⟨hle, hlt⟩
  · have hbd := hs.entry_bounds hb
    exact Or.inl ⟨by omega, by omega⟩

theorem Shape.confined (hs : Shape c h l) (ha : Entry c h l a) (hx : ¬ Extent h x) :
    x < a ∨ a + 24 ≤ x := by
  by_contra hin
  exact hx (hs.entry_extent ha (by omega) (by omega))

theorem Shape.cut_apart {cut : Nat} (hs : Shape c h l) (hb : b ∈ l)
    (hlow : b.start + c.memheapSize ≤ cut) (hhigh : cut + c.memheapSize ≤ b.stop)
    (ha : Entry c h l a) : memheapItem.Apart cut a := by
  have hhdr := c.le_memheapSize
  have hbd := hs.tiles.bounds hb
  have hadd := hs.tail_add
  rcases ha with ha | ⟨d, hd, ha⟩
  · rw [ha]
    exact (hs.clear_list (by omega) (by omega)).symm
  · rw [← ha]
    rcases List.mem_append.mp hd with hd | hd
    · have hdb := hs.tiles.bounds hd
      rcases hs.tiles.eq_or_apart hb hd with heq | hle | hle
      · subst heq
        exact Or.inr (by show _ + 24 ≤ _; omega)
      · exact Or.inl (by show _ + 24 ≤ _; omega)
      · exact Or.inr (by show _ + 24 ≤ _; omega)
    · rw [List.mem_singleton] at hd
      have htail : d.start = tail c h := by rw [hd]; rfl
      exact Or.inl (by show _ + 24 ≤ _; omega)

/-!
## Edits
-/

theorem Edit.refl (hs : Shape c h l) : Edit c h l h l :=
  ⟨⟨rfl, rfl, rfl, rfl⟩, hs, fun _ _ _ => rfl, fun _ _ => rfl⟩

theorem Edit.trans (he : Edit c h l h' l') (he' : Edit c h' l' h2 l2)
    (hmid : forall d, d ∈ l' -> exists d', (d' ∈ l ∨ d' ∈ l2) ∧
      d'.start = d.start) : Edit c h l h2 l2 := by
  refine ⟨he.core.trans he'.core, he'.shape, ?_, fun x hx =>
    (he'.confined x (fun hin => hx (he.core.extent.mp hin))).trans (he.confined x hx)⟩
  intro x hx hx2
  have hx' : ¬ InHeader c.memheapSize l' h.startAddr (tail c h) x := by
    rintro (⟨d, hd, hle, hlt⟩ | hend)
    · rcases hmid d hd with ⟨d', hd' | hd', hstart⟩
      · exact hx (Or.inl ⟨d', hd', by omega, by omega⟩)
      · exact hx2 (Or.inl ⟨d', hd', by omega, by omega⟩)
    · exact hx (Or.inr hend)
  have hbytes := he'.bytes
  rw [he.core.startAddr, he.core.tail_eq] at hbytes
  rw [hbytes x hx' hx2, he.bytes x hx hx']

theorem Edit.then_same (he : Edit c h l h' l') (he' : Edit c h' l' h2 l') : Edit c h l h2 l' :=
  he.trans he' fun d hd => ⟨d, Or.inr hd, rfl⟩

theorem Edit.counted (he : Edit c h l h' l') (available most : Nat) :
    Edit c h l { h' with availableSize := available, maxUsedSize := most } l' :=
  ⟨he.core.trans ⟨rfl, rfl, rfl, rfl⟩,
    he.shape.of_fields ⟨rfl, rfl, rfl, rfl⟩ fun _ _ _ _ _ => rfl, he.bytes, he.confined⟩

theorem Edit.put_link {f : Field} {v : Nat} (he : Edit c h l h' l')
    (ha : Entry c h l' a) (hf : f = Field.nextFree ∨ f = Field.prevFree) :
    Edit c h l (h'.put a f v) l' := by
  have ha' := ha.of_core he.core
  apply he.then_same
  refine ⟨put_core, ?_, ?_, fun x hx => put_outside (he.shape.confined ha' hx)⟩
  · apply he.shape.of_fields put_core
    intro b hb g hnext hprev
    have hne : g ≠ f := by
      rcases hf with hf | hf
      · rw [hf]
        exact hnext
      · rw [hf]
        exact hprev
    exact get_put_other (he.shape.entry_clear ha' (Or.inr ⟨b, hb, rfl⟩)) hne
  · intro x hx _
    exact put_outside (he.shape.outside ha' hx)

end Entries

/-!
## The free list
-/

def Within (l : List Block) (fl : List Nat) : Prop :=
  forall x, x ∈ fl -> exists b, b ∈ l ∧ b.start = x

section FreeList

variable {c : Config} {h : RtMemheap} {l : List Block} {b : Block}
  {fl xs ys : List Nat} {x a v : Nat} {f : Field}

theorem Within.entry (hw : Within l fl) (hx : x ∈ h.freeList :: fl) : Entry c h l x := by
  rcases List.mem_cons.mp hx with hx | hx
  · exact Or.inl hx
  · rcases hw x hx with ⟨b, hb, hstart⟩
    rw [← hstart]
    exact Entry.of_mem hb

theorem FreeRing.put (hr : FreeRing h fl) (hclear : forall y, y ∈ h.freeList :: fl -> Clear a y)
    (hf : (f ≠ Field.nextFree ∧ f ≠ Field.prevFree) ∨ a ∉ h.freeList :: fl) :
    FreeRing (h.put a f v) fl := by
  refine hr.congr rfl ?_
  intro y hy g hg
  rcases hf with hf | hout
  · apply get_put_other (hclear y hy)
    rcases hg with hg | hg
    · rw [hg]
      exact hf.left.symm
    · rw [hg]
      exact hf.right.symm
  · rcases hclear y hy with heq | hapart
    · rw [heq] at hout
      exact absurd hy hout
    · exact get_put_apart hapart

theorem freeInsert_core : SameCore h (freeInsert h x) := by
  unfold freeInsert
  exact put_core.put.put.put

theorem Shape.insert (hs : Shape c h l) (hr : FreeRing h fl) (hw : Within l fl)
    (hb : b ∈ l) (hnew : b.start ∉ fl) :
    Edit c h l (freeInsert h b.start) l ∧ FreeRing (freeInsert h b.start) (b.start :: fl) := by
  have hbe : Entry c h l b.start := Entry.of_mem hb
  have hle : Entry c h l h.freeList := Or.inl rfl
  have hne : b.start ≠ h.freeList :=
    (apart_ne (hs.entry_apart_list (List.mem_append_left _ hb))).symm
  have hentry : forall y, y ∈ b.start :: h.freeList :: fl -> Entry c h l y := by
    intro y hy
    rcases List.mem_cons.mp hy with hy | hy
    · rw [hy]
      exact hbe
    · exact hw.entry hy
  constructor
  · rw [freeInsert_eq (hs.entry_clear hbe hle) hne]
    exact ((((Edit.refl hs).put_link hbe (Or.inl rfl)).put_link hbe
      (Or.inr rfl)).put_link (hw.entry hr.head_mem) (Or.inr rfl)).put_link hle (Or.inl rfl)
  · apply hr.insert
    · intro a ha y hy
      exact hs.entry_clear (hentry a ha) (hentry y hy)
    · rw [List.mem_cons, not_or]
      exact ⟨hne, hnew⟩
    · exact hs.entry_lt hbe
    · exact hs.list32

/-- An item leaves the free list.  It need not be in the list of blocks any more,
if it does not overlap those that are. -/
theorem Shape.remove (hs : Shape c h l) (hr : FreeRing h (xs ++ x :: ys))
    (hw : Within l (xs ++ ys)) (hx : forall a, Entry c h l a -> Clear x a) :
    Edit c h l (freeRemove h x) l ∧ FreeRing (freeRemove h x) (xs ++ ys) := by
  have hmem := hr.next_mem
  have hn : Entry c h l (h.get x Field.nextFree) := hw.entry hmem.left
  have hp : Entry c h l (h.get x Field.prevFree) := hw.entry hmem.right
  have hcases : forall y, y ∈ h.freeList :: (xs ++ x :: ys) -> y = x ∨ Entry c h l y := by
    intro y hy
    have hy' : y = x ∨ y ∈ h.freeList :: (xs ++ ys) := by
      simp only [List.mem_cons, List.mem_append] at hy ⊢
      tauto
    exact hy'.imp id fun hy' => hw.entry hy'
  constructor
  · have hne : h.get x Field.nextFree ≠ x := by
      intro heq
      rw [heq] at hmem
      exact hr.not_mem hmem.left
    rw [freeRemove_eq (hx _ hn).symm hne]
    exact ((Edit.refl hs).put_link hn (Or.inr rfl)).put_link hp (Or.inl rfl)
  · apply hr.remove
    intro a ha y hy
    rcases hcases a ha with ha | ha
    · rcases hcases y hy with hy | hy
      · exact Or.inl (ha.trans hy.symm)
      · rw [ha]
        exact hx y hy
    · rcases hcases y hy with hy | hy
      · rw [hy]
        exact (hx a ha).symm
      · exact hs.entry_clear ha hy

theorem Shape.take (hs : Shape c h l) (hr : FreeRing h (xs ++ x :: ys))
    (hw : Within l (xs ++ ys)) (hx : Entry c h l x) :
    Edit c h l (freeTake h x) l ∧ FreeRing (freeTake h x) (xs ++ ys) := by
  have hout := hr.not_mem
  have hclear : forall y, y ∈ h.freeList :: (xs ++ ys) -> Clear x y :=
    fun y hy => hs.entry_clear hx (hw.entry hy)
  rcases hs.remove hr hw fun a ha => hs.entry_clear hx ha with ⟨hedit, hring⟩
  constructor
  · exact (hedit.put_link hx (Or.inl rfl)).put_link hx (Or.inr rfl)
  · exact (hring.put hclear (Or.inr hout)).put hclear (Or.inr hout)

end FreeList

/-!
## The block list
-/

section BlockList

variable {c : Config} {h h' : RtMemheap} {l l' s t r : List Block} {b d : Block}
  {fl : List Nat}

theorem put_comm {a e v w : Nat} {f g : Field} (hapart : memheapItem.Apart a e) :
    (h.put a f v).put e g w = (h.put e g w).put a f v := by
  unfold RtMemheap.put
  congr 1
  exact Layout.put_comm hapart

/-- A stretch of the list is replaced by another, and the entry behind it is
linked back to the new one. -/
theorem Shape.edit (hs : Shape c h (l ++ (s ++ l'))) (hc : SameCore h h')
    (ht : Tiles c.memheapSize h.startAddr (l ++ (t ++ l')) (tail c h))
    (hleft : forall b, b ∈ l -> SameItem h h' b.start)
    (hmid : Headers (links h') (lastStart (tail c h) l) t)
    (hstamp : forall b, b ∈ t -> h'.get b.start Field.magic = magicOf b.used ∧
      h'.get b.start Field.poolPtr = h.self)
    (hright : l' ++ [tailer c h] = d :: r)
    (hd : forall f, f ≠ Field.nextFree -> f ≠ Field.prevFree -> f ≠ Field.prev ->
      h'.get d.start f = h.get d.start f)
    (hprev : h'.get d.start Field.prev = lastStart (lastStart (tail c h) l) t)
    (hr : forall b, b ∈ r -> SameItem h h' b.start) :
    Shape c h' (l ++ (t ++ l')) := by
  have hold : (l ++ (s ++ l')) ++ [tailer c h] = l ++ (s ++ d :: r) := by
    rw [List.append_assoc, List.append_assoc, hright]
  have hnew : (l ++ (t ++ l')) ++ [tailer c h] = l ++ (t ++ d :: r) := by
    rw [List.append_assoc, List.append_assoc, hright]
  have hheaders := hs.headers
  rw [hold, headers_append_iff, headers_append_iff] at hheaders
  rcases hheaders with ⟨hhl, _, hhr⟩
  have hstamped := hs.stamped
  rw [hold] at hstamped
  apply hs.rebuild hc ht
  · rw [hnew, headers_append_iff, headers_append_iff]
    refine ⟨hhl.congr fun b hb => (hleft b hb).agree, hmid, ?_⟩
    apply hhr.relink
    refine ⟨hd _ (by decide) (by decide) (by decide), ?_, hprev, fun b hb => (hr b hb).agree⟩
    show isUsed h' d.start = isUsed h d.start
    unfold isUsed
    rw [hd _ (by decide) (by decide) (by decide)]
  · rw [hnew]
    intro b hb
    rcases List.mem_append.mp hb with hb | hb
    · rw [hleft b hb _ (by decide) (by decide)]
      exact hstamped b (List.mem_append_left _ hb)
    · rcases List.mem_append.mp hb with hb | hb
      · exact (hstamp b hb).left
      · have hb' := hstamped b (List.mem_append_right _ (List.mem_append_right _ hb))
        rcases List.mem_cons.mp hb with heq | hb
        · rw [heq, hd _ (by decide) (by decide) (by decide), ← heq]
          exact hb'
        · rw [hr b hb _ (by decide) (by decide)]
          exact hb'
  · intro b hb
    rcases List.mem_append.mp hb with hb | hb
    · rw [hleft b hb _ (by decide) (by decide)]
      exact hs.owned b (List.mem_append_left _ hb)
    · rcases List.mem_append.mp hb with hb | hb
      · exact (hstamp b hb).right
      · have howned := hs.owned b (List.mem_append_right _ (List.mem_append_right _ hb))
        have hmem : b ∈ d :: r := by
          rw [← hright]
          exact List.mem_append_left _ hb
        rcases List.mem_cons.mp hmem with heq | hmem
        · rw [heq, hd _ (by decide) (by decide) (by decide), ← heq]
          exact howned
        · rw [hr b hmem _ (by decide) (by decide)]
          exact howned

theorem Shape.around (hs : Shape c h (l ++ b :: l')) :
    (forall x, x ∈ l -> x.start + c.memheapSize ≤ b.start) ∧
      b.start + c.memheapSize ≤ b.stop ∧
      exists d r, l' ++ [tailer c h] = d :: r ∧ d.start = b.stop ∧
        forall x, x ∈ r -> d.start + c.memheapSize ≤ x.start := by
  refine ⟨?_, (hs.tiles.bounds (b := b) (by simp)).right.left, hs.nextEntry⟩
  intro x hx
  have hxb := hs.tiles.bounds (b := x) (by simp [hx])
  have hstop := hs.tiles.around.left x hx
  omega

theorem Shape.header (hs : Shape c h (l ++ b :: l')) : h.get b.start Field.next = b.stop ∧
      h.get b.start Field.magic = magicOf b.used ∧
      h.get b.start Field.prev = lastStart (tail c h) l ∧
      h.get b.start Field.poolPtr = h.self := by
  have hheaders := hs.headers
  rw [List.append_assoc, List.cons_append, headers_append] at hheaders
  exact ⟨hheaders.right.left, hs.stamped b (by simp),
    hheaders.right.right.right.left, hs.owned b (by simp)⟩

theorem sameItem_of_apart {a x v : Nat} {f : Field} (hx : memheapItem.Apart a x) :
    SameItem h (h.put a f v) x :=
  fun _ _ _ => get_put_apart hx

theorem SameItem.trans {h2 : RtMemheap} {x : Nat} (hx : SameItem h h' x)
    (hx' : SameItem h' h2 x) : SameItem h h2 x :=
  fun f hn hp => (hx' f hn hp).trans (hx f hn hp)

theorem magicOf_lt (u : Bool) : magicOf u < 2 ^ 32 := by
  cases u <;> decide

theorem Shape.mark (u : Bool) (hs : Shape c h (l ++ b :: l')) :
    Edit c h (l ++ b :: l') (h.put b.start Field.magic (magicOf u))
      (l ++ { b with used := u } :: l') := by
  rcases hs.around with ⟨hbefore, hroom, d, r, hright, hstart, hbehind⟩
  rcases hs.header with ⟨hnext, _, hprev, howned⟩
  have ht := tiles_append.mp hs.tiles
  have hd : memheapItem.Apart b.start d.start :=
    Shape.apart_of_le (c := c) (by omega)
  have hheaders := hs.headers
  rw [List.append_assoc, List.cons_append, hright, headers_append] at hheaders
  refine ⟨put_core, ?_, ?_, fun x hx =>
    put_outside (hs.confined (Entry.of_mem (b := b) (by simp)) hx)⟩
  · refine Shape.edit (s := [b]) (t := [{ b with used := u }]) hs put_core
      (tiles_append.mpr ht) ?_ ?_ ?_ hright ?_ ?_ ?_
    · intro x hx
      exact sameItem_of_apart (Shape.apart_of_le (c := c) (hbefore x hx)).symm
    · refine ⟨?_, ?_, ?_, trivial⟩
      · exact (get_put_field (by decide)).trans hnext
      · exact isUsed_of_magic (get_put_same (magicOf_lt u))
      · exact (get_put_field (by decide)).trans hprev
    · intro x hx
      rw [List.mem_singleton] at hx
      subst hx
      exact ⟨get_put_same (magicOf_lt u), (get_put_field (by decide)).trans howned⟩
    · intro f _ _ _
      exact get_put_apart hd
    · rw [get_put_apart hd]
      exact hheaders.right.right.right.right.right.right.left
    · intro x hx
      have hx' := hbehind x hx
      exact sameItem_of_apart (Shape.apart_of_le (c := c) (by omega))
  · intro x hx _
    exact put_outside (hs.outside (Entry.of_mem (by simp)) hx)

/-!
### Splitting
-/

theorem splitBlock_eq_of {header new : Nat} (hread : forall (g : RtMemheap) f v,
      (g.put new f v).get header Field.next = g.get header Field.next) :
    splitBlock h header new = (((((h.put new Field.magic memheapMagic).put new
      Field.poolPtr h.self).put new Field.prev header).put new Field.next
      (h.get header Field.next)).put (h.get header Field.next) Field.prev new).put
      header Field.next new := by
  have hread3 : (((h.put new Field.magic memheapMagic).put new Field.poolPtr
      h.self).put new Field.prev header).get header Field.next =
      h.get header Field.next := by
    rw [hread, hread, hread]
  have hread4 : ((((h.put new Field.magic memheapMagic).put new Field.poolPtr
      h.self).put new Field.prev header).put new Field.next
        (h.get header Field.next)).get header Field.next =
      h.get header Field.next := by
    rw [hread, hread3]
  show (((((h.put new Field.magic memheapMagic).put new Field.poolPtr
    h.self).put new Field.prev header).put new Field.next
      ((((h.put new Field.magic memheapMagic).put new Field.poolPtr
        h.self).put new Field.prev header).get header Field.next)).put
    (((((h.put new Field.magic memheapMagic).put new Field.poolPtr
      h.self).put new Field.prev header).put new Field.next
        ((((h.put new Field.magic memheapMagic).put new Field.poolPtr
          h.self).put new Field.prev header).get header Field.next)).get header
            Field.next) Field.prev new).put header Field.next new = _
  rw [hread3, hread4]

theorem splitBlock_eq {header new : Nat} (hapart : memheapItem.Apart new header) :
    splitBlock h header new = (((((h.put new Field.magic memheapMagic).put new
      Field.poolPtr h.self).put new Field.prev header).put new Field.next
      (h.get header Field.next)).put (h.get header Field.next) Field.prev new).put
      header Field.next new :=
  splitBlock_eq_of fun _ _ _ => get_put_apart hapart

theorem splitBlock_core {header new : Nat} : SameCore h (splitBlock h header new) := by
  unfold splitBlock
  exact put_core.put.put.put.put.put

theorem splitBlock_new {header new : Nat} (hapart : memheapItem.Apart new header)
    (hnext : memheapItem.Apart new (h.get header Field.next))
    (hself : h.self < 2 ^ 32) (hheader : header < 2 ^ 32) :
    (splitBlock h header new).get new Field.magic = memheapMagic ∧
      (splitBlock h header new).get new Field.poolPtr = h.self ∧
      (splitBlock h header new).get new Field.prev = header ∧
      (splitBlock h header new).get new Field.next = h.get header Field.next := by
  rw [splitBlock_eq hapart]
  refine ⟨?_, ?_, ?_, ?_⟩
  · rw [get_put_apart hapart.symm, get_put_apart hnext.symm,
      get_put_field (by decide), get_put_field (by decide),
      get_put_field (by decide), get_put_same (by decide)]
  · rw [get_put_apart hapart.symm, get_put_apart hnext.symm,
      get_put_field (by decide), get_put_field (by decide), get_put_same hself]
  · rw [get_put_apart hapart.symm, get_put_apart hnext.symm,
      get_put_field (by decide), get_put_same hheader]
  · rw [get_put_apart hapart.symm, get_put_apart hnext.symm, get_put_same get_lt]

theorem splitBlock_get {header new g : Nat} {f : Field}
    (hapart : memheapItem.Apart new header) (hg : memheapItem.Apart new g)
    (hheader : Clear header g) (hnext : Clear (h.get header Field.next) g)
    (hnew : new < 2 ^ 32) :
    (splitBlock h header new).get g f =
      if g = header ∧ f = Field.next then new
      else if g = h.get header Field.next ∧ f = Field.prev then new
      else h.get g f := by
  rw [splitBlock_eq hapart, get_put hheader hnew, get_put hnext hnew,
    get_put_apart hg, get_put_apart hg, get_put_apart hg, get_put_apart hg]

theorem Shape.split {cut : Nat} (hs : Shape c h (l ++ b :: l'))
    (hlow : b.start + c.memheapSize ≤ cut) (hhigh : cut + c.memheapSize ≤ b.stop) :
    Edit c h (l ++ b :: l') (splitBlock h b.start cut)
      (l ++ { b with stop := cut } :: ⟨cut, b.stop, false⟩ :: l') := by
  have hhdr := c.le_memheapSize
  have hb : b ∈ l ++ b :: l' := by simp
  rcases hs.around with ⟨hbefore, hroom, d, r, hright, hstart, hbehind⟩
  rcases hs.header with ⟨hnext, hmagic, hprev, howned⟩
  have hbe : Entry c h (l ++ b :: l') b.start := Entry.of_mem hb
  have hmem : forall x, x ∈ l ∨ x ∈ d :: r -> x ∈ (l ++ b :: l') ++ [tailer c h] := by
    intro x hx
    rw [List.append_assoc, List.cons_append, hright]
    simp only [List.mem_append, List.mem_cons] at hx ⊢
    tauto
  have hde : Entry c h (l ++ b :: l') d.start :=
    Or.inr ⟨d, hmem d (by simp), rfl⟩
  have hcut : forall {a}, Entry c h (l ++ b :: l') a -> memheapItem.Apart cut a :=
    fun ha => hs.cut_apart hb hlow hhigh ha
  have hcut32 : cut < 2 ^ 32 := by
    have hlt := hs.entry_lt hde
    omega
  have hne : b.start ≠ d.start := by omega
  have hget : forall a f, Entry c h (l ++ b :: l') a -> (splitBlock h b.start cut).get a f =
        if a = b.start ∧ f = Field.next then cut
        else if a = d.start ∧ f = Field.prev then cut
        else h.get a f := by
    intro a f ha
    rw [splitBlock_get (hcut hbe) (hcut ha) (hs.entry_clear hbe ha)
      (by rw [hnext, ← hstart]; exact hs.entry_clear hde ha) hcut32, hnext, hstart]
  have hother : forall x, x ∈ l ∨ x ∈ r -> x.start ≠ b.start ->
      x.start ≠ d.start -> SameItem h (splitBlock h b.start cut) x.start := by
    intro x hx hxb hxd f _ _
    have hxe : x ∈ (l ++ b :: l') ++ [tailer c h] :=
      hmem x (hx.imp id (List.mem_cons_of_mem d))
    rw [hget _ _ (Or.inr ⟨x, hxe, rfl⟩), if_neg (fun hcond => hxb hcond.left),
      if_neg (fun hcond => hxd hcond.left)]
  have hnewItem := splitBlock_new (h := h) (hcut hbe)
    (by rw [hnext, ← hstart]; exact hcut hde) hs.self32 (hs.entry_lt hbe)
  rcases hnewItem with ⟨hcmagic, hcowned, hcprev, hcnext⟩
  have hbmagic : (splitBlock h b.start cut).get b.start Field.magic = magicOf b.used := by
    rw [hget _ _ hbe]
    simpa using hmagic
  refine ⟨splitBlock_core, ?_, ?_, ?_⟩
  · refine Shape.edit (s := [b]) (t := [{ b with stop := cut },
      ⟨cut, b.stop, false⟩]) hs splitBlock_core ?_ ?_ ?_ ?_ hright ?_ ?_ ?_
    · have ht := tiles_append.mp hs.tiles
      exact tiles_append.mpr ⟨ht.left, hlow, rfl, hhigh, ht.right.right⟩
    · intro x hx
      have hle := hbefore x hx
      exact hother x (Or.inl hx) (by omega) (by omega)
    · refine ⟨?_, isUsed_of_magic hbmagic, ?_, ?_, isUsed_of_magic hcmagic, hcprev, trivial⟩
      · show (splitBlock h b.start cut).get b.start Field.next = cut
        rw [hget _ _ hbe, if_pos ⟨rfl, rfl⟩]
      · show (splitBlock h b.start cut).get b.start Field.prev = _
        rw [hget _ _ hbe]
        simpa [hne] using hprev
      · show (splitBlock h b.start cut).get cut Field.next = b.stop
        rw [hcnext, hnext]
    · intro x hx
      simp only [List.mem_cons, List.not_mem_nil, or_false] at hx
      rcases hx with hx | hx
      · subst hx
        refine ⟨hbmagic, ?_⟩
        show (splitBlock h b.start cut).get b.start Field.poolPtr = _
        rw [hget _ _ hbe]
        simpa using howned
      · subst hx
        exact ⟨hcmagic, hcowned⟩
    · intro f _ _ hf
      rw [hget _ _ hde, if_neg (fun hcond => hne hcond.left.symm),
        if_neg (fun hcond => hf hcond.right)]
    · rw [hget _ _ hde, if_neg (fun hcond => hne hcond.left.symm), if_pos ⟨rfl, rfl⟩]
      rfl
    · intro x hx
      have hle := hbehind x hx
      exact hother x (Or.inr hx) (by omega) (by omega)
  · intro x hx hx'
    have hxc : x < cut ∨ cut + 24 ≤ x := by
      by_contra hin
      exact hx' (Or.inl ⟨⟨cut, b.stop, false⟩, by simp, by show cut ≤ x; omega,
        by show x < cut + _; omega⟩)
    rw [splitBlock_eq (hcut hbe), hnext, ← hstart, put_outside (hs.outside hbe hx),
      put_outside (hs.outside hde hx), put_outside hxc, put_outside hxc,
      put_outside hxc, put_outside hxc]
  · intro x hx
    have hbd := hs.tiles.bounds hb
    have hadd := hs.tail_add
    have hxc : x < cut ∨ cut + 24 ≤ x := by
      by_contra hin
      exact hx (Or.inl ⟨by omega, by omega⟩)
    rw [splitBlock_eq (hcut hbe), hnext, ← hstart, put_outside (hs.confined hbe hx),
      put_outside (hs.confined hde hx), put_outside hxc, put_outside hxc,
      put_outside hxc, put_outside hxc]

theorem FreeRing.split {cut : Nat} (hs : Shape c h (l ++ b :: l'))
    (hlow : b.start + c.memheapSize ≤ cut) (hhigh : cut + c.memheapSize ≤ b.stop)
    (hr : FreeRing h fl) (hw : Within (l ++ b :: l') fl) :
    FreeRing (splitBlock h b.start cut) fl := by
  have hb : b ∈ l ++ b :: l' := by simp
  have hbe : Entry c h (l ++ b :: l') b.start := Entry.of_mem hb
  have hde : Entry c h (l ++ b :: l') (h.get b.start Field.next) := by
    rcases hs.around with ⟨_, _, d, r, hright, hstart, _⟩
    rw [hs.header.left, ← hstart]
    refine Or.inr ⟨d, ?_, rfl⟩
    rw [List.append_assoc, List.cons_append, hright]
    simp
  have hcut32 : cut < 2 ^ 32 := by
    have hhdr := c.le_memheapSize
    have hlt := hs.entry_lt hde
    rw [hs.header.left] at hlt
    omega
  refine hr.congr splitBlock_core.freeList ?_
  intro y hy f hf
  have hye : Entry c h (l ++ b :: l') y := hw.entry hy
  rw [splitBlock_get (hs.cut_apart hb hlow hhigh hbe)
    (hs.cut_apart hb hlow hhigh hye) (hs.entry_clear hbe hye)
    (hs.entry_clear hde hye) hcut32]
  rcases hf with hf | hf
  · simp [hf]
  · simp [hf]

/-!
### Joining
-/

/-- Link a block with the entry at `e`, over the block in between. -/
def joinBlocks (h : RtMemheap) (header e : Nat) : RtMemheap :=
  (h.put e Field.prev header).put header Field.next e

theorem joinBlocks_core {header e : Nat} : SameCore h (joinBlocks h header e) :=
  put_core.put

theorem joinBlocks_comm {header e : Nat} (hapart : memheapItem.Apart header e) :
    (h.put header Field.next e).put e Field.prev header = joinBlocks h header e :=
  put_comm hapart

theorem joinBlocks_get {header e g : Nat} {f : Field} (hheader : Clear header g)
    (he : Clear e g) (hheader32 : header < 2 ^ 32) (he32 : e < 2 ^ 32) :
    (joinBlocks h header e).get g f =
      if g = header ∧ f = Field.next then e
      else if g = e ∧ f = Field.prev then header
      else h.get g f := by
  unfold joinBlocks
  rw [get_put hheader he32, get_put he hheader32]

theorem Shape.behind (hs : Shape c h (l ++ b :: d :: l')) :
    b.start + c.memheapSize ≤ d.start ∧ b.stop = d.start ∧
      d.start + c.memheapSize ≤ d.stop ∧
      Entry c h (l ++ b :: d :: l') d.stop ∧
      exists e r, l' ++ [tailer c h] = e :: r ∧ e.start = d.stop ∧
        forall x, x ∈ r -> e.start + c.memheapSize ≤ x.start := by
  have hs' : Shape c h ((l ++ [b]) ++ d :: l') := by simpa using hs
  rcases hs'.around with ⟨hbefore, hroom, e, r, hright, hstart, hbehind⟩
  have ht := (tiles_append.mp hs.tiles).right.right
  refine ⟨hbefore b (by simp), ht.left.symm, hroom, ?_, e, r, hright, hstart, hbehind⟩
  refine Or.inr ⟨e, ?_, hstart⟩
  rw [List.append_assoc, List.cons_append, List.cons_append, hright]
  simp

theorem Shape.join (hs : Shape c h (l ++ b :: d :: l')) :
    Edit c h (l ++ b :: d :: l') (joinBlocks h b.start d.stop)
      (l ++ { b with stop := d.stop } :: l') := by
  have hhdr := c.le_memheapSize
  have hb : b ∈ l ++ b :: d :: l' := by simp
  rcases hs.behind with ⟨hroom, hbd, hroom', hee, e, r, hright, hstart, hbehind⟩
  rcases hs.header with ⟨hnext, hmagic, hprev, howned⟩
  have hbefore := hs.around.left
  have hbe : Entry c h (l ++ b :: d :: l') b.start := Entry.of_mem hb
  have hne : d.stop ≠ b.start := by omega
  have hget : forall a f, Entry c h (l ++ b :: d :: l') a -> (joinBlocks h b.start d.stop).get a f =
        if a = b.start ∧ f = Field.next then d.stop
        else if a = d.stop ∧ f = Field.prev then b.start
        else h.get a f := by
    intro a f ha
    exact joinBlocks_get (hs.entry_clear hbe ha) (hs.entry_clear hee ha)
      (hs.entry_lt hbe) (hs.entry_lt hee)
  have hother : forall x, x ∈ l ∨ x ∈ r -> x.start ≠ b.start ->
      x.start ≠ d.stop -> SameItem h (joinBlocks h b.start d.stop) x.start := by
    intro x hx hxb hxd f _ _
    have hxe : x ∈ (l ++ b :: d :: l') ++ [tailer c h] := by
      rw [List.append_assoc, List.cons_append, List.cons_append, hright]
      simp only [List.mem_append, List.mem_cons]
      tauto
    rw [hget _ _ (Or.inr ⟨x, hxe, rfl⟩), if_neg (fun hcond => hxb hcond.left),
      if_neg (fun hcond => hxd hcond.left)]
  have hbmagic : (joinBlocks h b.start d.stop).get b.start Field.magic = magicOf b.used := by
    rw [hget _ _ hbe]
    simpa using hmagic
  refine ⟨joinBlocks_core, ?_, ?_, ?_⟩
  · refine Shape.edit (s := [b, d]) (t := [{ b with stop := d.stop }]) hs
      joinBlocks_core ?_ ?_ ?_ ?_ hright ?_ ?_ ?_
    · have ht := tiles_append.mp hs.tiles
      exact tiles_append.mpr ⟨ht.left, by show b.start + _ ≤ d.stop; omega,
        ht.right.right.right.right⟩
    · intro x hx
      have hle := hbefore x hx
      exact hother x (Or.inl hx) (by omega) (by omega)
    · refine ⟨?_, isUsed_of_magic hbmagic, ?_, trivial⟩
      · show (joinBlocks h b.start d.stop).get b.start Field.next = d.stop
        rw [hget _ _ hbe, if_pos ⟨rfl, rfl⟩]
      · show (joinBlocks h b.start d.stop).get b.start Field.prev = _
        rw [hget _ _ hbe]
        simpa [hne.symm] using hprev
    · intro x hx
      rw [List.mem_singleton] at hx
      subst hx
      refine ⟨hbmagic, ?_⟩
      show (joinBlocks h b.start d.stop).get b.start Field.poolPtr = _
      rw [hget _ _ hbe]
      simpa using howned
    · intro f _ _ hf
      rw [hstart, hget _ _ hee, if_neg (fun hcond => hne hcond.left),
        if_neg (fun hcond => hf hcond.right)]
    · rw [hstart, hget _ _ hee, if_neg (fun hcond => hne hcond.left), if_pos ⟨rfl, rfl⟩]
      rfl
    · intro x hx
      have hle := hbehind x hx
      exact hother x (Or.inr hx) (by omega) (by omega)
  · intro x hx _
    unfold joinBlocks
    rw [put_outside (hs.outside hbe hx), put_outside (hs.outside hee hx)]
  · intro x hx
    unfold joinBlocks
    rw [put_outside (hs.confined hbe hx), put_outside (hs.confined hee hx)]

theorem FreeRing.join (hs : Shape c h (l ++ b :: d :: l')) (hr : FreeRing h fl)
    (hw : Within (l ++ b :: d :: l') fl) :
    FreeRing (joinBlocks h b.start d.stop) fl := by
  have hbe : Entry c h (l ++ b :: d :: l') b.start := Entry.of_mem (by simp)
  have hee := hs.behind.right.right.right.left
  refine hr.congr joinBlocks_core.freeList ?_
  intro y hy f hf
  have hye : Entry c h (l ++ b :: d :: l') y := hw.entry hy
  rw [joinBlocks_get (hs.entry_clear hbe hye) (hs.entry_clear hee hye)
    (hs.entry_lt hbe) (hs.entry_lt hee)]
  rcases hf with hf | hf
  · simp [hf]
  · simp [hf]

end BlockList

/-!
## Both lists
-/

def FreeSet (h : RtMemheap) (P : Nat -> Prop) : Prop :=
  exists fl, FreeRing h fl ∧ forall x, x ∈ fl <-> P x

/-- Some assignments after the heap `h0` of blocks `l0`, the heap has the blocks
`l`, and the members of its free list are those of `P`. -/
structure Reached (c : Config) (h0 : RtMemheap) (l0 : List Block) (h : RtMemheap)
    (l : List Block) (P : Nat -> Prop) : Prop where
  edit : Edit c h0 l0 h l
  free : FreeSet h P
  within : forall x, P x -> exists b, b ∈ l ∧ b.start = x

section Reached

variable {c : Config} {h0 h : RtMemheap} {l0 l l' : List Block} {b d : Block}
  {P Q : Nat -> Prop} {x : Nat}

theorem FreeSet.congr (hf : FreeSet h P) (hiff : forall x, P x <-> Q x) : FreeSet h Q := by
  rcases hf with ⟨fl, hr, hfl⟩
  exact ⟨fl, hr, fun x => (hfl x).trans (hiff x)⟩

theorem Reached.refl (hs : Shape c h l) (hf : FreeSet h P)
    (hw : forall x, P x -> exists b, b ∈ l ∧ b.start = x) : Reached c h l h l P :=
  ⟨Edit.refl hs, hf, hw⟩

theorem Reached.shape (hr : Reached c h0 l0 h l P) : Shape c h l := hr.edit.shape

theorem FreeSet.at (hf : FreeSet h P) (hx : P x) : exists xs ys, FreeRing h (xs ++ x :: ys) ∧
      forall y, y ∈ xs ++ ys <-> P y ∧ y ≠ x := by
  rcases hf with ⟨fl, hr, hfl⟩
  rcases List.append_of_mem ((hfl x).mpr hx) with ⟨xs, ys, heq⟩
  subst heq
  refine ⟨xs, ys, hr, ?_⟩
  have hout : x ∉ xs ++ ys := fun hin => hr.not_mem (List.mem_cons_of_mem _ hin)
  intro y
  rw [← hfl y]
  simp only [List.mem_append, List.mem_cons] at hout ⊢
  constructor
  · intro hy
    refine ⟨by tauto, ?_⟩
    rintro rfl
    exact hout hy
  · rintro ⟨hy, hne⟩
    tauto

theorem Reached.counted (hr : Reached c h0 l0 h l P) (available most : Nat) :
    Reached c h0 l0 { h with availableSize := available, maxUsedSize := most } l
      P := by
  refine ⟨hr.edit.counted available most, ?_, hr.within⟩
  rcases hr.free with ⟨fl, hring, hfl⟩
  exact ⟨fl, hring.congr rfl fun _ _ _ _ => rfl, hfl⟩

theorem Reached.insert (hr : Reached c h0 l0 h l P) (hb : b ∈ l) (hnew : ¬ P b.start) :
    Reached c h0 l0 (freeInsert h b.start) l (fun x => x = b.start ∨ P x) := by
  rcases hr.free with ⟨fl, hring, hfl⟩
  have hw : Within l fl := fun x hx => hr.within x ((hfl x).mp hx)
  have hout : b.start ∉ fl := fun hin => hnew ((hfl _).mp hin)
  rcases hr.shape.insert hring hw hb hout with ⟨hedit, hring'⟩
  refine ⟨hr.edit.then_same hedit, ⟨b.start :: fl, hring', ?_⟩, ?_⟩
  · intro x
    rw [List.mem_cons, hfl x]
  · rintro x (hx | hx)
    · exact ⟨b, hb, hx.symm⟩
    · exact hr.within x hx

theorem Reached.remove (hr : Reached c h0 l0 h l P) (hx : P x) :
    Reached c h0 l0 (freeRemove h x) l (fun y => P y ∧ y ≠ x) := by
  rcases hr.free.at hx with ⟨xs, ys, hring, hfl⟩
  have hw : Within l (xs ++ ys) := fun y hy => hr.within y ((hfl y).mp hy).left
  have hxe : Entry c h l x := by
    rcases hr.within x hx with ⟨b, hb, hstart⟩
    rw [← hstart]
    exact Entry.of_mem hb
  rcases hr.shape.remove hring hw fun a ha => hr.shape.entry_clear hxe ha with
    ⟨hedit, hring'⟩
  exact ⟨hr.edit.then_same hedit, ⟨xs ++ ys, hring', hfl⟩, fun y hy => hr.within y hy.left⟩

theorem Reached.take (hr : Reached c h0 l0 h l P) (hx : P x) :
    Reached c h0 l0 (freeTake h x) l (fun y => P y ∧ y ≠ x) := by
  rcases hr.free.at hx with ⟨xs, ys, hring, hfl⟩
  have hw : Within l (xs ++ ys) := fun y hy => hr.within y ((hfl y).mp hy).left
  have hxe : Entry c h l x := by
    rcases hr.within x hx with ⟨b, hb, hstart⟩
    rw [← hstart]
    exact Entry.of_mem hb
  rcases hr.shape.take hring hw hxe with ⟨hedit, hring'⟩
  exact ⟨hr.edit.then_same hedit, ⟨xs ++ ys, hring', hfl⟩, fun y hy => hr.within y hy.left⟩

theorem Reached.mark (u : Bool) (hr : Reached c h0 l0 h (l ++ b :: l') P) :
    Reached c h0 l0 (h.put b.start Field.magic (magicOf u))
      (l ++ { b with used := u } :: l') P := by
  have hs := hr.shape
  have hstarts : forall d, d ∈ l ++ b :: l' ->
      exists d', d' ∈ l ++ { b with used := u } :: l' ∧ d'.start = d.start := by
    intro d hd
    simp only [List.mem_append, List.mem_cons] at hd ⊢
    rcases hd with hd | hd | hd
    · exact ⟨d, Or.inl hd, rfl⟩
    · exact ⟨{ b with used := u }, Or.inr (Or.inl rfl), by rw [hd]⟩
    · exact ⟨d, Or.inr (Or.inr hd), rfl⟩
  refine ⟨hr.edit.trans (hs.mark u) ?_, ?_, ?_⟩
  · intro d hd
    rcases hstarts d hd with ⟨d', hd', hstart⟩
    exact ⟨d', Or.inr hd', hstart⟩
  · rcases hr.free with ⟨fl, hring, hfl⟩
    refine ⟨fl, hring.put ?_ (Or.inl (by decide)), hfl⟩
    intro y hy
    have hw : Within (l ++ b :: l') fl := fun x hx => hr.within x ((hfl x).mp hx)
    exact hs.entry_clear (Entry.of_mem (by simp)) (hw.entry hy)
  · intro x hx
    rcases hr.within x hx with ⟨d, hd, hstart⟩
    rcases hstarts d hd with ⟨d', hd', hstart'⟩
    exact ⟨d', hd', hstart'.trans hstart⟩

theorem Reached.split {cut : Nat} (hr : Reached c h0 l0 h (l ++ b :: l') P)
    (hlow : b.start + c.memheapSize ≤ cut) (hhigh : cut + c.memheapSize ≤ b.stop) :
    Reached c h0 l0 (splitBlock h b.start cut)
      (l ++ { b with stop := cut } :: ⟨cut, b.stop, false⟩ :: l') P := by
  have hs := hr.shape
  have hstarts : forall d, d ∈ l ++ b :: l' ->
      exists d', d' ∈ l ++ { b with stop := cut } :: ⟨cut, b.stop, false⟩ :: l' ∧
        d'.start = d.start := by
    intro d hd
    simp only [List.mem_append, List.mem_cons] at hd ⊢
    rcases hd with hd | hd | hd
    · exact ⟨d, Or.inl hd, rfl⟩
    · exact ⟨{ b with stop := cut }, Or.inr (Or.inl rfl), by rw [hd]⟩
    · exact ⟨d, Or.inr (Or.inr (Or.inr hd)), rfl⟩
  refine ⟨hr.edit.trans (hs.split hlow hhigh) ?_, ?_, ?_⟩
  · intro d hd
    rcases hstarts d hd with ⟨d', hd', hstart⟩
    exact ⟨d', Or.inr hd', hstart⟩
  · rcases hr.free with ⟨fl, hring, hfl⟩
    have hw : Within (l ++ b :: l') fl := fun x hx => hr.within x ((hfl x).mp hx)
    exact ⟨fl, hring.split hs hlow hhigh hw, hfl⟩
  · intro x hx
    rcases hr.within x hx with ⟨d, hd, hstart⟩
    rcases hstarts d hd with ⟨d', hd', hstart'⟩
    exact ⟨d', hd', hstart'.trans hstart⟩

theorem joined_start {x : Block} (hx : x ∈ l ++ b :: d :: l') (hne : x.start ≠ d.start) :
    exists x', x' ∈ l ++ { b with stop := d.stop } :: l' ∧ x'.start = x.start := by
  simp only [List.mem_append, List.mem_cons] at hx ⊢
  rcases hx with hx | hx | hx | hx
  · exact ⟨x, Or.inl hx, rfl⟩
  · exact ⟨{ b with stop := d.stop }, Or.inr (Or.inl rfl), by rw [hx]⟩
  · rw [hx] at hne
    exact absurd rfl hne
  · exact ⟨x, Or.inr (Or.inr hx), rfl⟩

theorem Edit.join (he : Edit c h0 l0 h (l ++ b :: d :: l'))
    (hd : exists d', d' ∈ l0 ∧ d'.start = d.start) :
    Edit c h0 l0 (joinBlocks h b.start d.stop) (l ++ { b with stop := d.stop } :: l') := by
  apply he.trans he.shape.join
  intro x hx
  by_cases hxd : x.start = d.start
  · rcases hd with ⟨d', hd', hstart⟩
    exact ⟨d', Or.inl hd', hstart.trans hxd.symm⟩
  · rcases joined_start hx hxd with ⟨x', hx', hstart⟩
    exact ⟨x', Or.inr hx', hstart⟩

theorem Reached.join (hr : Reached c h0 l0 h (l ++ b :: d :: l') P)
    (hd : exists d', d' ∈ l0 ∧ d'.start = d.start) (hout : ¬ P d.start) :
    Reached c h0 l0 (joinBlocks h b.start d.stop) (l ++ { b with stop := d.stop } :: l') P := by
  refine ⟨hr.edit.join hd, ?_, ?_⟩
  · rcases hr.free with ⟨fl, hring, hfl⟩
    have hw : Within (l ++ b :: d :: l') fl :=
      fun x hx => hr.within x ((hfl x).mp hx)
    exact ⟨fl, hring.join hr.shape hw, hfl⟩
  · intro x hx
    rcases hr.within x hx with ⟨y, hy, hstart⟩
    have hne : y.start ≠ d.start := by
      intro heq
      rw [← heq, hstart] at hout
      exact hout hx
    rcases joined_start hy hne with ⟨y', hy', hstart'⟩
    exact ⟨y', hy', hstart'.trans hstart⟩

theorem Reached.absorb (hr : Reached c h0 l0 h (l ++ b :: d :: l') P)
    (hd : exists d', d' ∈ l0 ∧ d'.start = d.start) (hin : P d.start) :
    Reached c h0 l0 (freeRemove (joinBlocks h b.start d.stop) d.start)
      (l ++ { b with stop := d.stop } :: l') (fun y => P y ∧ y ≠ d.start) := by
  have hs := hr.shape
  have hedit := hr.edit.join hd
  rcases hs.behind with ⟨hroom, hstop, hroom', _⟩
  have hwithin : forall y, P y ∧ y ≠ d.start ->
      exists x, x ∈ l ++ { b with stop := d.stop } :: l' ∧ x.start = y := by
    rintro y ⟨hy, hne⟩
    rcases hr.within y hy with ⟨x, hx, hstart⟩
    rw [← hstart] at hne
    rcases joined_start hx hne with ⟨x', hx', hstart'⟩
    exact ⟨x', hx', hstart'.trans hstart⟩
  have hfree : FreeSet (joinBlocks h b.start d.stop) P := by
    rcases hr.free with ⟨fl, hring, hfl⟩
    have hw : Within (l ++ b :: d :: l') fl :=
      fun x hx => hr.within x ((hfl x).mp hx)
    exact ⟨fl, hring.join hs hw, hfl⟩
  rcases hfree.at hin with ⟨xs, ys, hring, hfl⟩
  have hcut : forall a, Entry c (joinBlocks h b.start d.stop)
      (l ++ { b with stop := d.stop } :: l') a -> Clear d.start a := by
    intro a ha
    exact Or.inr (hedit.shape.cut_apart (b := { b with stop := d.stop }) (by simp) hroom hroom' ha)
  rcases hedit.shape.remove hring (fun y hy => hwithin y ((hfl y).mp hy)) hcut with
    ⟨hremove, hring'⟩
  exact ⟨hedit.then_same hremove, ⟨xs ++ ys, hring', hfl⟩, hwithin⟩

end Reached

end MemHeap
end RtThread.Mem
