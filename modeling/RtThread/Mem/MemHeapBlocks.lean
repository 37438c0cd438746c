import RtThread.Library.LinkRing
import RtThread.Mem.MemHeap

/-!
# The two lists of a memory heap

What the pointer assignments of `memheap.c` do: the block list is split and
merged, the free list is a ring that items are linked into and out of, and
neither touches the fields of the other.
-/

namespace RtThread.Mem

open Kernel ByteMemory Tiling LinkRing

/-!
## Sizes
-/

section Sizes

variable {c : Config}

theorem Config.le_memheapSize : 24 ≤ c.memheapSize := by
  have hle := c.alignSize_le
  exact le_rtAlign c.alignSize_pos (by show 24 + c.alignSize ≤ 2 ^ 32; omega)

theorem Config.le_allocSize (size : Nat) :
    12 ≤ c.allocSize size ∧ rtAlign size c.alignSize ≤ c.allocSize size := by
  have hmini : MemHeap.memheapMinialloc = 12 := rfl
  unfold Config.allocSize
  simp only [hmini]
  split
  · omega
  · omega

theorem Config.allocSize_lt (size : Nat) : c.allocSize size < 2 ^ 32 := by
  have hlt := rtAlign_lt size c.alignSize
  have hmini : MemHeap.memheapMinialloc = 12 := rfl
  unfold Config.allocSize
  simp only [hmini]
  split
  · decide
  · exact hlt

theorem Config.alignSize_dvd : c.alignSize ∣ 2 ^ 32 := by
  rcases c.power with ⟨k, hle, hk⟩
  rw [hk]
  exact Nat.pow_dvd_pow 2 (by omega)

theorem Config.allocSize_le_again (size : Nat) :
    c.allocSize size ≤ c.allocSize (c.allocSize size) := by
  have hmini : MemHeap.memheapMinialloc = 12 := rfl
  rcases Nat.lt_or_ge (rtAlign size c.alignSize) 12 with hlt | hge
  · have hsize : c.allocSize size = 12 := by
      unfold Config.allocSize
      simp only [hmini, if_pos hlt]
    rw [hsize]
    exact (c.le_allocSize 12).left
  · have hsize : c.allocSize size = rtAlign size c.alignSize := by
      unfold Config.allocSize
      simp only [hmini, if_neg (Nat.not_lt.mpr hge)]
    have hdvd := Nat.dvd_of_mod_eq_zero (rtAlign_mod size c.alignSize)
    have hlt := rtAlign_lt size c.alignSize
    have hroom : c.alignSize ≤ 2 ^ 32 - rtAlign size c.alignSize :=
      Nat.le_of_dvd (by omega) (Nat.dvd_sub c.alignSize_dvd hdvd)
    rw [hsize]
    calc rtAlign size c.alignSize ≤ rtAlign (rtAlign size c.alignSize) c.alignSize :=
          le_rtAlign c.alignSize_pos (by omega)
      _ ≤ c.allocSize (rtAlign size c.alignSize) :=
          (c.le_allocSize (rtAlign size c.alignSize)).right

end Sizes

namespace MemHeap

/-!
## Reading fields back
-/

section Fields

variable {h : RtMemheap} {a b v : Nat} {f g : Field}

theorem get_put_same (hv : v < 2 ^ 32) : (h.put a f v).get a f = v := by
  exact Layout.get_put_same hv

theorem get_put_field (hne : g ≠ f) : (h.put a f v).get a g = h.get a g :=
  Layout.get_put_field hne

theorem get_put_apart (hapart : memheapItem.Apart a b) : (h.put a f v).get b g = h.get b g :=
  Layout.get_put_apart hapart

theorem get_lt : h.get a f < 2 ^ 32 := by
  exact Layout.get_lt

theorem put_outside {x : Nat} (hx : x < a ∨ a + 24 ≤ x) : (h.put a f v).mem x = h.mem x := by
  exact Layout.put_outside hx

/-- The items at two addresses are the same or lie apart. -/
def Clear (a b : Nat) : Prop := a = b ∨ memheapItem.Apart a b

theorem Clear.symm (hc : Clear a b) : Clear b a :=
  hc.imp Eq.symm Layout.Apart.symm

theorem get_put (hc : Clear a b) (hv : v < 2 ^ 32) :
    (h.put a f v).get b g = if b = a ∧ g = f then v else h.get b g := by
  rcases hc with heq | hapart
  · subst heq
    by_cases hg : g = f
    · subst hg
      rw [if_pos ⟨rfl, rfl⟩, get_put_same hv]
    · rw [if_neg (fun hcond => hg hcond.right), get_put_field hg]
  · have hne : b ≠ a := by
      rintro rfl
      rcases hapart with hle | hle
      · have hle' : b + 24 ≤ b := hle
        omega
      · have hle' : b + 24 ≤ b := hle
        omega
    rw [if_neg (fun hcond => hne hcond.left), get_put_apart hapart]

theorem get_put_other (hc : Clear a b) (hne : g ≠ f) : (h.put a f v).get b g = h.get b g := by
  rcases hc with heq | hapart
  · subst heq
    exact get_put_field hne
  · exact get_put_apart hapart

end Fields

/-!
## The free list
-/

def FreeRing (h : RtMemheap) (fl : List Nat) : Prop :=
  Ring (fun x => h.get x Field.nextFree) (fun x => h.get x Field.prevFree)
    h.freeList fl

section FreeList

variable {h : RtMemheap} {x y : Nat} {xs ys fl : List Nat} {f : Field}

theorem FreeRing.congr {h' : RtMemheap} (hr : FreeRing h fl) (hlist : h'.freeList = h.freeList)
    (hsame : forall y, y ∈ h.freeList :: fl -> forall f,
      (f = Field.nextFree ∨ f = Field.prevFree) -> h'.get y f = h.get y f) :
    FreeRing h' fl := by
  unfold FreeRing
  rw [hlist]
  apply Ring.congr hr
  · intro y hy
    exact hsame y hy _ (Or.inl rfl)
  · intro y hy
    exact hsame y hy _ (Or.inr rfl)

theorem FreeRing.head_mem (hr : FreeRing h fl) :
    h.get h.freeList Field.nextFree ∈ h.freeList :: fl := by
  have hhead := hr.next_head
  rw [hhead]
  have hmem := List.head_mem (l := fl ++ [h.freeList]) (by simp)
  simp only [List.mem_append, List.mem_singleton] at hmem
  rw [List.mem_cons]
  exact hmem.symm

theorem FreeRing.next_mem (hr : FreeRing h (xs ++ x :: ys)) :
    h.get x Field.nextFree ∈ h.freeList :: (xs ++ ys) ∧
      h.get x Field.prevFree ∈ h.freeList :: (xs ++ ys) := by
  have hn := hr.neighbours
  rw [hn.left, hn.right]
  constructor
  · have hmem := List.head_mem (l := ys ++ [h.freeList]) (by simp)
    simp only [List.mem_append, List.mem_singleton] at hmem
    simp only [List.mem_cons, List.mem_append]
    tauto
  · have hmem := List.getLast_mem (l := h.freeList :: xs) (by simp)
    simp only [List.mem_cons] at hmem
    simp only [List.mem_cons, List.mem_append]
    tauto

theorem FreeRing.not_mem (hr : FreeRing h (xs ++ x :: ys)) : x ∉ h.freeList :: (xs ++ ys) := by
  have hperm : (h.freeList :: (xs ++ x :: ys)).Perm (x :: h.freeList :: (xs ++ ys)) :=
    (List.Perm.cons _ List.perm_middle).trans (List.Perm.swap _ _ _)
  exact (List.nodup_cons.mp (hperm.nodup_iff.mp hr.nodup)).left

theorem freeInsert_eq (hxl : Clear x h.freeList) (hne : x ≠ h.freeList) :
    freeInsert h x = (((h.put x Field.nextFree
      (h.get h.freeList Field.nextFree)).put x Field.prevFree h.freeList).put
      (h.get h.freeList Field.nextFree) Field.prevFree x).put h.freeList
      Field.nextFree x := by
  have hread : ((h.put x Field.nextFree (h.get h.freeList Field.nextFree)).put x
      Field.prevFree h.freeList).get h.freeList Field.nextFree =
      h.get h.freeList Field.nextFree := by
    rw [get_put_other hxl (by decide), get_put hxl get_lt,
      if_neg (fun hcond => hne hcond.left.symm)]
  show (((h.put x Field.nextFree (h.get h.freeList Field.nextFree)).put x
    Field.prevFree h.freeList).put (((h.put x Field.nextFree
      (h.get h.freeList Field.nextFree)).put x Field.prevFree h.freeList).get
      h.freeList Field.nextFree) Field.prevFree x).put h.freeList
      Field.nextFree x = _
  rw [hread]

theorem freeInsert_get {g : Nat}
    (hx : Clear x g) (hl : Clear h.freeList g) (hxl : Clear x h.freeList)
    (hh : Clear (h.get h.freeList Field.nextFree) g)
    (hne : x ≠ h.freeList) (hx32 : x < 2 ^ 32) (hl32 : h.freeList < 2 ^ 32) :
    (freeInsert h x).get g f =
      if g = h.freeList ∧ f = Field.nextFree then x
      else if g = h.get h.freeList Field.nextFree ∧ f = Field.prevFree then x
      else if g = x ∧ f = Field.prevFree then h.freeList
      else if g = x ∧ f = Field.nextFree then h.get h.freeList Field.nextFree
      else h.get g f := by
  rw [freeInsert_eq hxl hne, get_put hl hx32, get_put hh hx32, get_put hx hl32, get_put hx get_lt]

theorem freeRemove_eq (hx : Clear (h.get x Field.nextFree) x) (hne : h.get x Field.nextFree ≠ x) :
    freeRemove h x = (h.put (h.get x Field.nextFree) Field.prevFree
      (h.get x Field.prevFree)).put (h.get x Field.prevFree) Field.nextFree
      (h.get x Field.nextFree) := by
  have hread : (h.put (h.get x Field.nextFree) Field.prevFree
      (h.get x Field.prevFree)).get x Field.prevFree =
      h.get x Field.prevFree := by
    rw [get_put hx get_lt, if_neg (fun hcond => hne hcond.left.symm)]
  have hread' : (h.put (h.get x Field.nextFree) Field.prevFree
      (h.get x Field.prevFree)).get x Field.nextFree =
      h.get x Field.nextFree := get_put_other hx (by decide)
  simp only [freeRemove, hread, hread']

theorem freeRemove_get {g : Nat} (hx : Clear (h.get x Field.nextFree) x)
    (hn : Clear (h.get x Field.nextFree) g)
    (hp : Clear (h.get x Field.prevFree) g)
    (hne : h.get x Field.nextFree ≠ x) :
    (freeRemove h x).get g f =
      if g = h.get x Field.prevFree ∧ f = Field.nextFree then
        h.get x Field.nextFree
      else if g = h.get x Field.nextFree ∧ f = Field.prevFree then
        h.get x Field.prevFree
      else h.get g f := by
  rw [freeRemove_eq hx hne, get_put hp get_lt, get_put hn get_lt]

theorem FreeRing.insert (hr : FreeRing h fl)
    (hclear : forall a, a ∈ x :: h.freeList :: fl -> forall b,
      b ∈ x :: h.freeList :: fl -> Clear a b)
    (hx : x ∉ h.freeList :: fl) (hx32 : x < 2 ^ 32)
    (hl32 : h.freeList < 2 ^ 32) : FreeRing (freeInsert h x) (x :: fl) := by
  have hne : x ≠ h.freeList := fun heq => hx (by simp [heq])
  have hhead : h.get h.freeList Field.nextFree = (fl ++ [h.freeList]).head (by simp) := hr.next_head
  have hmem := hr.head_mem
  have hxh : x ≠ h.get h.freeList Field.nextFree := by
    intro heq
    rw [← heq] at hmem
    exact hx hmem
  have hget : forall g f, g ∈ x :: h.freeList :: fl -> (freeInsert h x).get g f =
        if g = h.freeList ∧ f = Field.nextFree then x
        else if g = h.get h.freeList Field.nextFree ∧ f = Field.prevFree then x
        else if g = x ∧ f = Field.prevFree then h.freeList
        else if g = x ∧ f = Field.nextFree then h.get h.freeList Field.nextFree
        else h.get g f := by
    intro g f hg
    exact freeInsert_get (hclear _ (by simp) _ hg) (hclear _ (by simp) _ hg)
      (hclear _ (by simp) _ (by simp))
      (hclear _ (List.mem_cons_of_mem x hmem) _ hg) hne hx32 hl32
  have hring : Ring (fun y => (freeInsert h x).get y Field.nextFree)
      (fun y => (freeInsert h x).get y Field.prevFree) h.freeList
      ([] ++ x :: fl) := by
    have hr' : Ring (fun y => h.get y Field.nextFree)
        (fun y => h.get y Field.prevFree) h.freeList ([] ++ fl) := hr
    apply hr'.splice hx
    · show (freeInsert h x).get h.freeList Field.nextFree = x
      rw [hget _ _ (by simp), if_pos ⟨rfl, rfl⟩]
    · show (freeInsert h x).get x Field.nextFree = _
      rw [hget _ _ (by simp)]
      simp [hne, ← hhead]
    · show (freeInsert h x).get x Field.prevFree = h.freeList
      rw [hget _ _ (by simp)]
      simp [hxh]
    · show (freeInsert h x).get ((fl ++ [h.freeList]).head _) Field.prevFree = x
      rw [← hhead, hget _ _ (List.mem_cons_of_mem x hmem)]
      simp
    · intro y hy hny
      have hyl : y ≠ h.freeList := by simpa using hny
      have hyx : y ≠ x := by
        rintro rfl
        exact hx hy
      rw [hget _ _ (List.mem_cons_of_mem x hy)]
      simp [hyl, hyx]
    · intro y hy hny
      have hyh : y ≠ h.get h.freeList Field.nextFree := by
        rw [hhead]
        exact hny
      have hyx : y ≠ x := by
        rintro rfl
        exact hx hy
      rw [hget _ _ (List.mem_cons_of_mem x hy)]
      simp [hyh, hyx]
  exact hring

theorem FreeRing.remove (hr : FreeRing h (xs ++ x :: ys))
    (hclear : forall a, a ∈ h.freeList :: (xs ++ x :: ys) -> forall b,
      b ∈ h.freeList :: (xs ++ x :: ys) -> Clear a b) :
    FreeRing (freeRemove h x) (xs ++ ys) := by
  have hn := hr.neighbours
  have hnext : h.get x Field.nextFree = (ys ++ [h.freeList]).head (by simp) :=
    hn.left
  have hprev : h.get x Field.prevFree = (h.freeList :: xs).getLast (by simp) :=
    hn.right
  have hmem := hr.next_mem
  have hsub : forall y, y ∈ h.freeList :: (xs ++ ys) -> y ∈ h.freeList :: (xs ++ x :: ys) := by
    intro y hy
    simp only [List.mem_cons, List.mem_append] at hy ⊢
    tauto
  have hxmem : x ∈ h.freeList :: (xs ++ x :: ys) := by simp
  have hout := hr.not_mem
  have hne : h.get x Field.nextFree ≠ x := by
    intro heq
    rw [heq] at hmem
    exact hout hmem.left
  have hget : forall g f, g ∈ h.freeList :: (xs ++ ys) -> (freeRemove h x).get g f =
        if g = h.get x Field.prevFree ∧ f = Field.nextFree then
          h.get x Field.nextFree
        else if g = h.get x Field.nextFree ∧ f = Field.prevFree then
          h.get x Field.prevFree
        else h.get g f := by
    intro g f hg
    exact freeRemove_get (hclear _ (hsub _ hmem.left) _ hxmem)
      (hclear _ (hsub _ hmem.left) _ (hsub _ hg))
      (hclear _ (hsub _ hmem.right) _ (hsub _ hg)) hne
  apply Ring.unlink hr
  · show (freeRemove h x).get ((h.freeList :: xs).getLast _) Field.nextFree = _
    rw [← hprev, hget _ _ hmem.right, if_pos ⟨rfl, rfl⟩, hnext]
  · show (freeRemove h x).get ((ys ++ [h.freeList]).head _) Field.prevFree = _
    rw [← hnext, hget _ _ hmem.left]
    simp [hprev]
  · intro y hy hny
    have hyp : y ≠ h.get x Field.prevFree := by
      rw [hprev]
      exact hny
    rw [hget _ _ hy]
    simp [hyp]
  · intro y hy hny
    have hyn : y ≠ h.get x Field.nextFree := by
      rw [hnext]
      exact hny
    rw [hget _ _ hy]
    simp [hyn]

end FreeList

/-!
## The block list
-/

def links (h : RtMemheap) : Links where
  next p := h.get p Field.next
  prev p := h.get p Field.prev
  used p := isUsed h p

def tail (c : Config) (h : RtMemheap) : Nat :=
  h.startAddr + h.poolSize - c.memheapSize

/-- The tailer closes the ring: it is always used and its next item is the
first one. -/
def tailer (c : Config) (h : RtMemheap) : Block := ⟨tail c h, h.startAddr, true⟩

def magicOf (used : Bool) : Nat :=
  if used then memheapMagic ||| memheapUsed else memheapMagic

structure Shape (c : Config) (h : RtMemheap) (l : List Block) : Prop where
  room : 2 * c.memheapSize ≤ h.poolSize
  small : h.startAddr + h.poolSize ≤ 2 ^ 32
  self32 : h.self < 2 ^ 32
  list32 : h.freeList < 2 ^ 32
  away : h.freeList + 24 ≤ h.startAddr ∨
    h.startAddr + h.poolSize ≤ h.freeList
  tiles : Tiles c.memheapSize h.startAddr l (tail c h)
  headers : Headers (links h) (tail c h) (l ++ [tailer c h])
  stamped : forall b, b ∈ l ++ [tailer c h] ->
    h.get b.start Field.magic = magicOf b.used
  owned : forall b, b ∈ l -> h.get b.start Field.poolPtr = h.self

structure SameCore (h h' : RtMemheap) : Prop where
  self : h'.self = h.self
  startAddr : h'.startAddr = h.startAddr
  poolSize : h'.poolSize = h.poolSize
  freeList : h'.freeList = h.freeList

section Shape

variable {c : Config} {h h' : RtMemheap} {l l' : List Block} {b d : Block}

theorem SameCore.trans {h2 : RtMemheap} (hc : SameCore h h') (hc' : SameCore h' h2) :
    SameCore h h2 :=
  ⟨hc'.self.trans hc.self, hc'.startAddr.trans hc.startAddr,
    hc'.poolSize.trans hc.poolSize, hc'.freeList.trans hc.freeList⟩

theorem SameCore.tail_eq (hc : SameCore h h') : tail c h' = tail c h := by
  unfold tail
  rw [hc.startAddr, hc.poolSize]

theorem SameCore.tailer_eq (hc : SameCore h h') : tailer c h' = tailer c h := by
  unfold tailer
  rw [hc.tail_eq, hc.startAddr]

theorem isUsed_of_magic {x : Nat} {u : Bool}
    (hm : h.get x Field.magic = magicOf u) : isUsed h x = u := by
  unfold isUsed
  rw [hm]
  cases u <;> decide

theorem Shape.entry_bounds (hs : Shape c h l) (hb : b ∈ l ++ [tailer c h]) :
    h.startAddr ≤ b.start ∧ b.start ≤ tail c h := by
  have hle := hs.tiles.le
  rcases List.mem_append.mp hb with hb | hb
  · have hbd := hs.tiles.bounds hb
    omega
  · rw [List.mem_singleton] at hb
    subst hb
    exact ⟨hle, Nat.le_refl _⟩

theorem Shape.tail_add (hs : Shape c h l) :
    tail c h + c.memheapSize = h.startAddr + h.poolSize := by
  have hroom := hs.room
  unfold tail
  omega

theorem Shape.apart_of_le (hle : b.start + c.memheapSize ≤ d.start) :
    memheapItem.Apart b.start d.start := by
  have hhdr := c.le_memheapSize
  exact Or.inl (by show _ + 24 ≤ _; omega)

theorem Shape.clear (hs : Shape c h l) (hb : b ∈ l ++ [tailer c h])
    (hd : d ∈ l ++ [tailer c h]) : Clear b.start d.start := by
  have hlast : forall x, x ∈ l -> memheapItem.Apart x.start (tailer c h).start := by
    intro x hx
    have hbd := hs.tiles.bounds hx
    exact Shape.apart_of_le (c := c) (by show _ ≤ tail c h; omega)
  rcases List.mem_append.mp hb with hb | hb
  · rcases List.mem_append.mp hd with hd | hd
    · have hbb := hs.tiles.bounds hb
      have hdb := hs.tiles.bounds hd
      rcases hs.tiles.eq_or_apart hb hd with heq | hle | hle
      · exact Or.inl (by rw [heq])
      · exact Or.inr (Shape.apart_of_le (c := c) (by omega))
      · exact Or.inr (Shape.apart_of_le (c := c) (by omega)).symm
    · rw [List.mem_singleton] at hd
      subst hd
      exact Or.inr (hlast b hb)
  · rw [List.mem_singleton] at hb
    subst hb
    rcases List.mem_append.mp hd with hd | hd
    · exact Or.inr (hlast d hd).symm
    · rw [List.mem_singleton] at hd
      subst hd
      exact Or.inl rfl

theorem Shape.clear_list (hs : Shape c h l) {x : Nat} (hlow : h.startAddr ≤ x)
    (hhigh : x ≤ tail c h) : memheapItem.Apart h.freeList x := by
  have hhdr := c.le_memheapSize
  have hadd := hs.tail_add
  rcases hs.away with hle | hle
  · exact Or.inl (by show _ + 24 ≤ _; omega)
  · exact Or.inr (by show _ + 24 ≤ _; omega)

theorem Shape.start_lt (hs : Shape c h l) (hb : b ∈ l ++ [tailer c h]) : b.start < 2 ^ 32 := by
  have hhdr := c.le_memheapSize
  have hbd := hs.entry_bounds hb
  have hadd := hs.tail_add
  have hsmall := hs.small
  omega

theorem Shape.next_eq (hs : Shape c h l) (hb : b ∈ l) : h.get b.start Field.next = b.stop :=
  (hs.headers.of_mem (List.mem_append_left _ hb)).left

theorem Shape.isUsed_eq (hs : Shape c h l) (hb : b ∈ l ++ [tailer c h]) :
    isUsed h b.start = b.used :=
  isUsed_of_magic (hs.stamped b hb)

theorem Shape.rebuild (hs : Shape c h l) (hc : SameCore h h')
    (htiles : Tiles c.memheapSize h.startAddr l' (tail c h))
    (hheaders : Headers (links h') (tail c h) (l' ++ [tailer c h]))
    (hstamped : forall b, b ∈ l' ++ [tailer c h] -> h'.get b.start Field.magic = magicOf b.used)
    (howned : forall b, b ∈ l' -> h'.get b.start Field.poolPtr = h.self) :
    Shape c h' l' := by
  constructor
  · rw [hc.poolSize]
    exact hs.room
  · rw [hc.startAddr, hc.poolSize]
    exact hs.small
  · rw [hc.self]
    exact hs.self32
  · rw [hc.freeList]
    exact hs.list32
  · rw [hc.freeList, hc.startAddr, hc.poolSize]
    exact hs.away
  · rw [hc.startAddr, hc.tail_eq]
    exact htiles
  · rw [hc.tail_eq, hc.tailer_eq]
    exact hheaders
  · rw [hc.tailer_eq]
    exact hstamped
  · rw [hc.self]
    exact howned

/-- The fields of the block list at an item are the same. -/
def SameItem (h h' : RtMemheap) (x : Nat) : Prop :=
  forall f, f ≠ Field.nextFree -> f ≠ Field.prevFree -> h'.get x f = h.get x f

theorem SameItem.agree {x : Nat} (hx : SameItem h h' x) : Agree (links h) (links h') x := by
  refine ⟨hx _ (by decide) (by decide), ?_, hx _ (by decide) (by decide)⟩
  show isUsed h' x = isUsed h x
  unfold isUsed
  rw [hx _ (by decide) (by decide)]

theorem Shape.of_fields (hs : Shape c h l) (hc : SameCore h h')
    (hsame : forall b, b ∈ l ++ [tailer c h] -> SameItem h h' b.start) :
    Shape c h' l := by
  apply hs.rebuild hc hs.tiles
  · exact hs.headers.congr fun b hb => (hsame b hb).agree
  · intro b hb
    rw [hsame b hb _ (by decide) (by decide)]
    exact hs.stamped b hb
  · intro b hb
    rw [hsame b (List.mem_append_left _ hb) _ (by decide) (by decide)]
    exact hs.owned b hb

theorem Shape.nextEntry (hs : Shape c h (l ++ b :: l')) :
    exists d r, l' ++ [tailer c h] = d :: r ∧ d.start = b.stop ∧
      forall x, x ∈ r -> d.start + c.memheapSize ≤ x.start := by
  rcases hs.tiles.next with ⟨hnil, hstop⟩ | ⟨d, t, hcons, hstart⟩
  · exact ⟨tailer c h, [], by rw [hnil]; rfl, hstop.symm, by simp⟩
  · refine ⟨d, t ++ [tailer c h], by rw [hcons]; rfl, hstart, ?_⟩
    have ht := hs.tiles
    rw [hcons] at ht
    have hrest := (tiles_append.mp ht).right.right
    have hroom := hrest.right.left
    intro x hx
    rcases List.mem_append.mp hx with hx | hx
    · have hxb := hrest.right.right.bounds hx
      omega
    · rw [List.mem_singleton] at hx
      subst hx
      have hle := hrest.right.right.le
      show d.start + c.memheapSize ≤ tail c h
      omega

end Shape

end MemHeap
end RtThread.Mem
