import RtThread.Finsh.HeapLists
import RtThread.Library.Tiling
import RtThread.Library.Transition

/-!
# The blocks of the finsh heap

The blocks tile the heap, and the two lists name the free and the allocated ones in order. An
allocation always leaves a free block behind the one that it hands out; so the last block of the
heap is free, and a released block never comes last in the free list.
-/

namespace RtThread.Finsh

open Chain Tiling Transition
open Function (update update_eq_self update_of_ne update_self)

/-- The headers of the blocks that are in use, or of those that are not. -/
def starts (used : Bool) (l : List Block) : List Nat :=
  (l.filter fun b => b.used == used).map Block.start

section Starts

variable {u : Bool} {l l' : List Block} {b : Block} {x a e : Nat}

@[simp]
theorem starts_nil : starts u [] = [] := rfl

@[simp]
theorem starts_append : starts u (l ++ l') = starts u l ++ starts u l' := by
  simp [starts]

theorem starts_cons :
    starts u (b :: l) = if b.used = u then b.start :: starts u l else starts u l := by
  unfold starts
  rw [List.filter_cons]
  by_cases hb : b.used = u <;> simp [hb]

theorem mem_starts : x ∈ starts u l <-> exists b, b ∈ l ∧ b.used = u ∧ b.start = x := by
  simp [starts, and_assoc]

theorem length_starts_le : (starts u l).length ≤ l.length := by
  unfold starts
  rw [List.length_map]
  exact List.length_filter_le _ _

theorem starts_around (ht : Tiles headerSize a (l ++ b :: l') e) :
    (forall c, c ∈ starts u l -> c < b.start) ∧ forall c, c ∈ starts u l' -> b.start < c := by
  have haround := ht.around
  have hroom := (ht.bounds (b := b) (by simp)).right.left
  constructor
  · intro c hc
    rcases mem_starts.mp hc with ⟨d, hd, _, heq⟩
    have hbefore := haround.left d hd
    have hbound := (ht.bounds (b := d) (by simp [hd])).right.left
    unfold headerSize at hbound
    omega
  · intro c hc
    rcases mem_starts.mp hc with ⟨d, hd, _, heq⟩
    have hbehind := haround.right d hd
    unfold headerSize at hroom
    omega

theorem starts_sorted (ht : Tiles headerSize a l e) : (starts u l).Pairwise fun x y => x < y := by
  induction l generalizing a with
  | nil => exact List.Pairwise.nil
  | cons b l ih =>
    have hbehind : forall c, c ∈ starts u l -> b.start < c :=
      (starts_around (l := []) ht).right
    rw [starts_cons]
    split
    · exact List.pairwise_cons.mpr ⟨hbehind, ih ht.right.right⟩
    · exact ih ht.right.right

theorem starts_nodup (ht : Tiles headerSize a l e) : (starts u l).Nodup :=
  (starts_sorted ht).imp Nat.ne_of_lt

theorem starts_disjoint (ht : Tiles headerSize a l e) (hx : x ∈ starts u l) :
    x ∉ starts (!u) l := by
  intro hx'
  rcases mem_starts.mp hx with ⟨b, hb, hbu, hbx⟩
  rcases mem_starts.mp hx' with ⟨d, hd, hdu, hdx⟩
  have hsame := ht.eq_of_start (by decide) hb hd (hbx.trans hdx.symm)
  rw [hsame, hdu] at hbu
  cases u <;> cases hbu

end Starts

/-- The two lists describe the blocks, of which the last is free. -/
structure Heaped (heap : Nat) (h : FinshHeap) (l : List Block) : Prop where
  tiles : Tiles headerSize heap l (heap + finshHeapMax)
  gaps : NoTwoFree l
  top : exists b, b ∈ l.getLast? ∧ b.used = false
  lengths : forall b, b ∈ l -> b.start + headerSize + h.length b.start = b.stop
  free : Linked h.next h.freeList (starts false l)
  allocate : Linked h.next h.allocateList (starts true l)

section Heaped

variable {heap size : Nat} {h h' : FinshHeap} {l l' s t : List Block} {b : Block}
  {p q : Option Block} {list : ListId} {u : Bool}

theorem Heaped.init : Heaped heap (finshHeapInit heap)
    [⟨heap, heap + finshHeapMax, false⟩] := by
  refine ⟨⟨rfl, by simp [headerSize, finshHeapMax], rfl⟩, List.isChain_singleton _,
    ⟨_, rfl, rfl⟩, ?_, ⟨rfl, rfl⟩, rfl⟩
  intro b hb
  rw [List.mem_singleton.mp hb]
  simp [finshHeapInit, headerSize, finshHeapMax]

theorem Heaped.length_lt (hh : Heaped heap h l) : l.length < finshHeapMax := by
  have hlen := hh.tiles.mul_length_le
  unfold headerSize finshHeapMax at *
  omega

theorem Heaped.starts_lt (hh : Heaped heap h l) : (starts u l).length < finshHeapMax :=
  Nat.lt_of_le_of_lt length_starts_le hh.length_lt

theorem Heaped.free_behind (hh : Heaped heap h (l ++ b :: l')) (hb : b.used = true) :
    starts false l' ≠ [] := by
  rcases hh.top with ⟨d, hd, hfree⟩
  rcases List.eq_nil_or_concat l' with hnil | ⟨k, y, hcat⟩
  · subst hnil
    simp only [List.getLast?_append_cons, List.getLast?_singleton, Option.mem_some_iff] at hd
    rw [hd, hfree] at hb
    cases hb
  · rw [List.concat_eq_append] at hcat
    subst hcat
    rw [show l ++ b :: (k ++ [y]) = l ++ b :: k ++ [y] by simp, List.getLast?_concat,
      Option.mem_some_iff] at hd
    rw [starts_append, starts_cons, hd, if_pos hfree]
    simp

/-!
## Allocation
-/

/-- The block that is handed out, and the rest of the free block behind it. -/
def splitAt (b : Block) (size : Nat) : List Block :=
  [⟨b.start, b.start + headerSize + size, true⟩,
    ⟨b.start + headerSize + size, b.stop, false⟩]

theorem tiles_split (ht : Tiles headerSize heap (l ++ b :: l') (heap + finshHeapMax))
    (hroom : b.start + headerSize + size + headerSize ≤ b.stop) :
    Tiles headerSize heap (l ++ splitAt b size ++ l') (heap + finshHeapMax) := by
  have hsplit := tiles_append.mp ht
  rw [List.append_assoc]
  refine tiles_append.mpr ⟨hsplit.left, Nat.le_add_right _ _, ?_⟩
  exact ⟨rfl, hroom, hsplit.right.right⟩

theorem noTwoFree_split (hn : NoTwoFree (l ++ b :: l')) (hb : b.used = false) :
    NoTwoFree (l ++ splitAt b size ++ l') := by
  rcases noTwoFree_append.mp hn with ⟨hl, _, hbehind, hl'⟩
  rw [List.append_assoc]
  refine noTwoFree_append.mpr ⟨hl, fun _ _ => Or.inr rfl, ?_, ?_⟩
  · intro y hy
    exact Or.inl rfl
  · have hrest : NoTwoFree ([] ++ ⟨b.start + headerSize + size, b.stop, false⟩ :: l') := by
      refine noTwoFree_append.mpr ⟨List.isChain_nil, by simp, ?_, hl'⟩
      intro y hy
      exact Or.inr ((hbehind y hy).resolve_left (by simp [hb]))
    exact hrest

/-- The headers around a block, in both lists: they differ from its own and from one
inside of it, and the lists have none in common. -/
theorem starts_apart (ht : Tiles headerSize heap (l ++ b :: l') (heap + finshHeapMax))
    {u : Bool} {c : Nat} (hc : c ∈ starts u l ++ starts u l') :
    (c < b.start ∨ b.stop ≤ c) ∧ c ∉ starts (!u) l ++ starts (!u) l' := by
  constructor
  · rcases List.mem_append.mp hc with hin | hin
    · exact Or.inl ((starts_around ht).left c hin)
    · rcases mem_starts.mp hin with ⟨d, hd, _, heq⟩
      have hbehind := ht.around.right d hd
      exact Or.inr (by omega)
  · intro hin
    have hwhole : forall u, c ∈ starts u l ++ starts u l' -> c ∈ starts u (l ++ b :: l') := by
      intro u hin
      rw [starts_append, starts_cons]
      rcases List.mem_append.mp hin with hin | hin
      · exact List.mem_append_left _ hin
      · apply List.mem_append_right
        split
        · exact List.mem_cons_of_mem _ hin
        · exact hin
    exact starts_disjoint ht (hwhole u hc) (hwhole (!u) hin)

theorem finshBlockSplit_linked (hh : Heaped heap h (l ++ b :: l')) (hb : b.used = false)
    (hroom : b.start + headerSize + size + headerSize ≤ b.stop) :
    Linked (finshBlockSplit h b.start size).next h.freeList
      (starts false l ++ b.start :: (b.start + headerSize + size) :: starts false l') := by
  have hfree := hh.free
  have hnodup := starts_nodup (u := false) hh.tiles
  rw [starts_append, starts_cons, if_pos hb] at hfree hnodup
  have hnext := hfree.next_eq
  have hnew : b.start + headerSize + size ∉ starts false l ++ b.start :: starts false l' := by
    intro hin
    rw [List.mem_append, List.mem_cons] at hin
    have hcases : b.start + headerSize + size = b.start ∨
        b.start + headerSize + size ∈ starts false l ++ starts false l' := by
      rw [List.mem_append]
      tauto
    unfold headerSize at *
    rcases hcases with heq | hin
    · omega
    · have hapart := (starts_apart hh.tiles hin).left
      omega
  have hsplit : (finshBlockSplit h b.start size).next =
      update (update h.next (b.start + headerSize + size)
        (starts false l').head?) b.start (some (b.start + headerSize + size)) := by
    rw [← hnext]
    rfl
  rw [hsplit]
  exact hfree.insert_behind hnodup hnew

theorem allocateBlock_spec (hh : Heaped heap h (l ++ b :: l')) (hb : b.used = false)
    (hroom : b.start + headerSize + size + headerSize ≤ b.stop) :
    exists h', allocateBlock h b.start size = some (some (b.start + headerSize), h') ∧
      Heaped heap h' (l ++ splitAt b size ++ l') := by
  have ht := tiles_split hh.tiles hroom
  have hnew := finshBlockSplit_linked hh hb hroom
  have halloc := hh.allocate
  have hlt := hh.starts_lt (u := false)
  have hltA := hh.starts_lt (u := true)
  have hnodupF := starts_nodup (u := false) ht
  have hnodupA := starts_nodup (u := true) ht
  have haround := starts_around (u := true) hh.tiles
  rw [starts_append, starts_cons, if_neg (by simp [hb])] at halloc hltA
  simp only [splitAt, starts_append, starts_cons, if_true, Bool.false_eq_true,
    Bool.true_eq_false, if_false, List.length_append, List.append_assoc, List.cons_append,
    List.nil_append] at hnodupF hnodupA hlt hltA
  have hlen : b.start + headerSize + h.length b.start = b.stop := hh.lengths b (by simp)
  generalize hn : b.start + headerSize + size = n at *
  have hxn : b.start < n := by unfold headerSize at hn; omega
  have hother : forall u c, c ∈ starts u l ++ starts u l' -> c ≠ b.start ∧ c ≠ n := by
    intro u c hc
    have hapart := (starts_apart hh.tiles hc).left
    unfold headerSize at *
    omega
  have hxF : b.start ∉ starts false l ++ n :: starts false l' := by
    rw [List.mem_append, List.mem_cons]
    rintro (hin | heq | hin)
    · exact (hother false b.start (List.mem_append_left _ hin)).left rfl
    · omega
    · exact (hother false b.start (List.mem_append_right _ hin)).left rfl
  have hnodup1 : (starts false l ++ b.start :: n :: starts false l').Nodup :=
    List.nodup_middle.mpr (List.nodup_cons.mpr ⟨hxF, hnodupF⟩)
  -- the block leaves the list of free blocks
  have hnew' : Linked (finshBlockSplit h b.start size).next
      ((finshBlockSplit h b.start size).head ListId.free)
      (starts false l ++ b.start :: n :: starts false l') := hnew
  rcases finshBlockRemove_spec hnew' hnodup1 (by omega) with ⟨h2, hremove, hfree2, hr2⟩
  have hfree3 : Linked (h2.setNext b.start none).next ((h2.setNext b.start none).head ListId.free)
      (starts false l ++ n :: starts false l') := by
    rw [head_setNext]
    exact hfree2.frame hxF none
  have halloc3 : Linked (h2.setNext b.start none).next
      ((h2.setNext b.start none).head ListId.allocate)
      (starts true l ++ starts true l') := by
    rw [head_setNext]
    refine Linked.frame ?_ (fun hin => (hother true b.start hin).left rfl) none
    have hsplit : Linked (finshBlockSplit h b.start size).next
        ((finshBlockSplit h b.start size).head ListId.allocate)
        (starts true l ++ starts true l') := by
      refine halloc.congr ?_
      intro c hc
      have hne := hother true c hc
      show update (update h.next _ _) b.start _ c = h.next c
      rw [update_of_ne hne.left, hn, update_of_ne hne.right]
    refine hr2.linked (by decide) hsplit ?_
    intro c hc hin
    rcases List.mem_cons.mp hin with heq | hin
    · exact (hother true c hc).left heq
    · exact (starts_apart hh.tiles hc).right (List.mem_append_left _ hin)
  -- and enters the list of allocated blocks
  have hnodupA' : (starts true l ++ starts true l').Nodup :=
    (List.nodup_cons.mp (List.nodup_middle.mp hnodupA)).right
  rcases finshBlockInsert_spec halloc3 hnodupA' haround.left haround.right
    (fun _ => update_self _ _ _) (by omega) with ⟨h4, hinsert, halloc4, hr4⟩
  have hlength : h4.length = (finshBlockSplit h b.start size).length :=
    hr4.length.trans hr2.length
  refine ⟨h4, ?_, ht, noTwoFree_split hh.gaps hb, ?_, ?_, ?_, ?_⟩
  · unfold allocateBlock
    simp only [hremove, Option.bind_some, hinsert, Option.map_some]
  · rcases hh.top with ⟨d, hd, hfree⟩
    cases l' with
    | nil => exact ⟨⟨n, b.stop, false⟩, by simp [splitAt, hn], rfl⟩
    | cons y k =>
      refine ⟨d, ?_, hfree⟩
      simpa [splitAt] using hd
  · intro c hc
    rw [hlength]
    show c.start + headerSize + update (update h.length _ _) b.start size c.start = c.stop
    have hkeep : c ∈ l ++ l' -> c.start ≠ b.start ∧ c.start ≠ n := by
      intro hin
      have hmem : c.start ∈ starts c.used l ++ starts c.used l' := by
        rw [← starts_append]
        exact mem_starts.mpr ⟨c, hin, rfl, rfl⟩
      exact hother c.used c.start hmem
    simp only [splitAt, hn, List.mem_append, List.mem_cons, List.not_mem_nil, or_false] at hc
    rcases hc with (hin | heq | heq) | hin
    · have hne := hkeep (List.mem_append_left _ hin)
      rw [update_of_ne hne.left, hn, update_of_ne hne.right]
      exact hh.lengths c (by simp [hin])
    · rw [heq, update_self]
      exact hn
    · rw [heq, update_of_ne (show n ≠ b.start by omega), hn, update_self]
      show n + headerSize + (h.length b.start - headerSize - size) = b.stop
      omega
    · have hne := hkeep (List.mem_append_right _ hin)
      rw [update_of_ne hne.left, hn, update_of_ne hne.right]
      exact hh.lengths c (by simp [hin])
  · have hstarts : starts false (l ++ splitAt b size ++ l') =
        starts false l ++ n :: starts false l' := by
      simp [splitAt, starts_cons, hn]
    rw [hstarts]
    refine hr4.linked (by decide) hfree3 ?_
    intro c hc hin
    rcases List.mem_cons.mp hin with heq | hin
    · exact hxF (heq ▸ hc)
    · have hcA := List.mem_append_left (starts true l') hin
      rcases List.mem_append.mp hc with hc | hc
      · exact (starts_apart hh.tiles hcA).right (List.mem_append_left _ hc)
      · rcases List.mem_cons.mp hc with heq | hc
        · exact (hother true c hcA).right heq
        · exact (starts_apart hh.tiles hcA).right (List.mem_append_right _ hc)
  · have hstarts : starts true (l ++ splitAt b size ++ l') =
        starts true l ++ b.start :: starts true l' := by
      simp [splitAt, starts_cons]
    rw [hstarts]
    exact halloc4

/-!
## Release
-/

theorem prev_neighbour (hj : Join l l' p q s t)
    (ht : Tiles headerSize heap (l ++ b :: l') (heap + finshHeapMax))
    (hlen : forall c, c ∈ l ++ b :: l' -> c.start + headerSize + h.length c.start = c.stop) :
    (starts false l).getLast?.filter (fun x => adjoins h x b.start) = p.map Block.start := by
  cases p with
  | some p =>
    have hl : l = s ++ [p] := hj.left
    subst hl
    have hp : p.used = false := hj.leftFree p rfl
    have htouch : p.stop = b.start := by
      rw [List.append_assoc, List.singleton_append] at ht
      exact ((tiles_append.mp ht).right.right.left).symm
    have hplen := hlen p (by simp)
    have hadj : adjoins h p.start b.start = true := by
      unfold adjoins
      rw [decide_eq_true_eq]
      omega
    rw [starts_append, starts_cons, if_pos hp, starts_nil, List.getLast?_concat,
      Option.filter_some, if_pos hadj]
    rfl
  | none =>
    have hl : l = s := by simpa using hj.left
    subst hl
    rw [Option.map_none, Option.filter_eq_none_iff]
    intro x hx hadj
    have hmem : x ∈ starts false l := List.mem_of_getLast? hx
    rcases mem_starts.mp hmem with ⟨c, hc, hused, rfl⟩
    have hclen := hlen c (by simp [hc])
    unfold adjoins at hadj
    rw [decide_eq_true_eq] at hadj
    -- a free block that ends where `b` begins would be the last one before it
    rcases List.eq_nil_or_concat l with hnil | ⟨k, y, hcat⟩
    · rw [hnil] at hc
      cases hc
    · rw [List.concat_eq_append] at hcat
      have hy := hj.leftEnd rfl y (by rw [hcat]; simp)
      have hcy : c ≠ y := by
        rintro rfl
        rw [hused] at hy
        cases hy
      have hck : c ∈ k := by
        rw [hcat] at hc
        simpa [hcy] using hc
      rw [hcat, List.append_assoc, List.singleton_append] at ht
      have hbefore := ht.around.left c hck
      have hroom := (tiles_append.mp ht).right.left
      have hnext := (tiles_append.mp ht).right.right.left
      unfold headerSize at *
      omega

theorem next_neighbour (hj : Join l l' p q s t)
    (ht : Tiles headerSize heap (l ++ b :: l') (heap + finshHeapMax))
    (hlen : b.start + headerSize + h.length b.start = b.stop) :
    (starts false l').head?.filter (fun x => adjoins h b.start x) = q.map Block.start := by
  have hbehind := (tiles_append.mp ht).right.right
  cases q with
  | some q =>
    have hr : l' = q :: t := hj.right
    subst hr
    have hq : q.used = false := hj.rightFree q rfl
    have hadj : adjoins h b.start q.start = true := by
      unfold adjoins
      have hstart := hbehind.left
      rw [decide_eq_true_eq]
      omega
    rw [starts_cons, if_pos hq, List.head?_cons, Option.filter_some, if_pos hadj]
    rfl
  | none =>
    have hr : l' = t := hj.right
    subst hr
    rw [Option.map_none, Option.filter_eq_none_iff]
    intro x hx hadj
    have hmem : x ∈ starts false l' := List.mem_of_head? hx
    rcases mem_starts.mp hmem with ⟨c, hc, hused, heq⟩
    unfold adjoins at hadj
    rw [decide_eq_true_eq] at hadj
    cases l' with
    | nil => cases hc
    | cons y k =>
      have hy := hj.rightEnd rfl y rfl
      have hcy : c ≠ y := by
        rintro rfl
        rw [hused] at hy
        cases hy
      have hck : c ∈ k := by simpa [hcy] using hc
      have hbound := (hbehind.right.right.bounds hck).left
      have hroom := hbehind.right.left
      unfold headerSize at *
      omega

theorem mergeWith_eq (hj : Join l l' p q s t)
    (ht : Tiles headerSize heap (l ++ b :: l') (heap + finshHeapMax))
    (hlen : forall c, c ∈ l ++ b :: l' -> c.start + headerSize + h.length c.start = c.stop)
    (hl : Linked h.next h.freeList (starts false l ++ b.start :: starts false l')) :
    mergeWith h (starts false l).getLast? (starts false l').head? b.start =
      (h.setLength (joined p b q).start
        ((joined p b q).stop - (joined p b q).start - headerSize)).setNext
          (joined p b q).start (starts false t).head? := by
  have hprev := prev_neighbour hj ht hlen
  have hnext := next_neighbour hj ht (hlen b (by simp))
  have hblen := hlen b (by simp)
  have hnextb : h.next b.start = (starts false l').head? := hl.next_eq
  unfold mergeWith
  rw [hprev, hnext]
  have hq : forall d, q = some d -> h.next d.start = (starts false t).head? ∧
      d.start + headerSize + h.length d.start = d.stop ∧ b.stop = d.start := by
    intro d hd
    subst hd
    have hr : l' = d :: t := hj.right
    subst hr
    rw [starts_cons, if_pos (hj.rightFree d rfl)] at hl
    refine ⟨?_, hlen d (by simp), ((tiles_append.mp ht).right.right.left).symm⟩
    rw [show starts false l ++ b.start :: d.start :: starts false t =
      (starts false l ++ [b.start]) ++ d.start :: starts false t by simp] at hl
    exact hl.next_eq
  have hp : forall d, p = some d ->
      d.start + headerSize + h.length d.start = d.stop ∧ d.stop = b.start := by
    intro d hd
    subst hd
    have hl' : l = s ++ [d] := hj.left
    subst hl'
    rw [List.append_assoc, List.singleton_append] at ht
    exact ⟨hlen d (by simp), ((tiles_append.mp ht).right.right.left).symm⟩
  have hnone : q = none -> (starts false t).head? = (starts false l').head? := by
    intro hq
    subst hq
    have hr : l' = t := hj.right
    rw [hr]
  cases p with
  | none =>
    cases q with
    | none =>
      have hsame : (joined none b none).stop - (joined none b none).start - headerSize =
          h.length b.start := by
        show b.stop - b.start - headerSize = _
        omega
      rw [hsame, hnone rfl, ← hnextb]
      show h = (h.setLength b.start (h.length b.start)).setNext b.start (h.next b.start)
      unfold FinshHeap.setLength FinshHeap.setNext
      rw [update_eq_self, update_eq_self]
    | some d =>
      rcases hq d rfl with ⟨hdn, hdl, hbd⟩
      have hsame : (joined none b (some d)).stop - (joined none b (some d)).start -
          headerSize = h.length b.start + (h.length d.start + headerSize) := by
        show d.stop - b.start - headerSize = _
        omega
      rw [hsame, ← hdn]
      rfl
  | some c =>
    rcases hp c rfl with ⟨hcl, hcb⟩
    cases q with
    | none =>
      have hsame : (joined (some c) b none).stop - (joined (some c) b none).start -
          headerSize = h.length c.start + (h.length b.start + headerSize) := by
        show b.stop - c.start - headerSize = _
        omega
      rw [hsame, hnone rfl, ← hnextb]
      rfl
    | some d =>
      rcases hq d rfl with ⟨hdn, hdl, hbd⟩
      have hsame : (joined (some c) b (some d)).stop - (joined (some c) b (some d)).start -
          headerSize =
          h.length c.start + (h.length b.start + h.length d.start + 2 * headerSize) := by
        show d.stop - c.start - headerSize = _
        omega
      rw [hsame, ← hdn]
      rfl

theorem starts_joined (hj : Join l l' p q s t) :
    (exists mid, starts false l ++ b.start :: starts false l' =
      starts false s ++ (joined p b q).start :: (mid ++ starts false t)) ∧
      starts true l ++ starts true l' = starts true s ++ starts true t := by
  have hl := hj.left
  have hr := hj.right
  subst hl hr
  cases p with
  | none =>
    cases q with
    | none => exact ⟨⟨[], by simp [joined]⟩, by simp⟩
    | some d =>
      have hd := hj.rightFree d rfl
      exact ⟨⟨[d.start], by simp [joined, starts_cons, hd]⟩, by simp [starts_cons, hd]⟩
  | some c =>
    have hc := hj.leftFree c rfl
    cases q with
    | none =>
      exact ⟨⟨[b.start], by simp [joined, starts_cons, hc]⟩, by simp [starts_cons, hc]⟩
    | some d =>
      have hd := hj.rightFree d rfl
      exact ⟨⟨[b.start, d.start], by simp [joined, starts_cons, hc, hd]⟩,
        by simp [starts_cons, hc, hd]⟩

theorem top_joined (hj : Join l l' p q s t)
    (htop : exists c, c ∈ (l ++ b :: l').getLast? ∧ c.used = false) :
    exists c, c ∈ (s ++ joined p b q :: t).getLast? ∧ c.used = false := by
  rcases htop with ⟨c, hc, hfree⟩
  rcases List.eq_nil_or_concat t with hnil | ⟨k, y, hcat⟩
  · subst hnil
    exact ⟨joined p b q, by simp, rfl⟩
  · rw [List.concat_eq_append] at hcat
    have hr := hj.right
    subst hcat hr
    rw [show l ++ b :: (q.toList ++ (k ++ [y])) = l ++ b :: (q.toList ++ k) ++ [y] by simp,
      List.getLast?_concat, Option.mem_some_iff] at hc
    subst hc
    refine ⟨y, ?_, hfree⟩
    rw [show s ++ joined p b q :: (k ++ [y]) = s ++ joined p b q :: k ++ [y] by simp,
      List.getLast?_concat]
    rfl

theorem finshHeapFree_spec (hh : Heaped heap h (l ++ b :: l')) (hb : b.used = true) :
    exists h' p q s t, finshHeapFree h (b.start + headerSize) = some h' ∧
      Join l l' p q s t ∧ Heaped heap h' (s ++ joined p b q :: t) := by
  rcases exists_join l l' with ⟨p, q, s, t, hj⟩
  have ht := hh.tiles
  have ht' := hj.tiles ht
  have halloc := hh.allocate
  have hfree := hh.free
  have hlt := hh.starts_lt (u := true)
  have hltF := hh.starts_lt (u := false)
  have hnodup := starts_nodup (u := true) ht
  have hnodupF := starts_nodup (u := false) ht
  have haround := starts_around (u := false) ht
  simp only [starts_append, starts_cons, hb, Bool.true_eq_false, if_false, if_true]
    at halloc hfree hlt hltF hnodup hnodupF
  rw [List.length_append] at hlt hltF
  have hother : forall u c, c ∈ starts u l ++ starts u l' -> c ≠ b.start := by
    intro u c hc
    have hroom := (tiles_append.mp ht).right.left
    have hapart := (starts_apart ht hc).left
    unfold headerSize at hroom
    omega
  -- the block leaves the list of allocated blocks
  have halloc' : Linked h.next (h.head ListId.allocate)
      (starts true l ++ b.start :: starts true l') := halloc
  rcases finshBlockRemove_spec halloc' hnodup (by omega) with
    ⟨h1, hremove, halloc1, hr1⟩
  have hfree1 : Linked h1.next (h1.head ListId.free) (starts false l ++ starts false l') := by
    refine hr1.linked (by decide) hfree ?_
    intro c hc hin
    rcases List.mem_cons.mp hin with heq | hin
    · exact hother false c hc heq
    · exact (starts_apart ht hc).right (List.mem_append_left _ hin)
  -- it is not the last block in the list of free blocks
  rcases finshBlockInsert_spec hfree1 hnodupF haround.left haround.right
    (fun hnil => absurd hnil (hh.free_behind hb)) (by omega) with ⟨h2, hinsert, hfree2, hr2⟩
  have hnodup2 : (starts false l ++ b.start :: starts false l').Nodup :=
    List.nodup_middle.mpr (List.nodup_cons.mpr ⟨fun hin => hother false b.start hin rfl,
      hnodupF⟩)
  have halloc2 : Linked h2.next (h2.head ListId.allocate) (starts true l ++ starts true l') := by
    refine hr2.linked (by decide) halloc1 ?_
    intro c hc hin
    rcases List.mem_cons.mp hin with heq | hin
    · exact hother true c hc heq
    · exact (starts_apart ht hc).right (List.mem_append_left _ hin)
  have hlength : h2.length = h.length := hr2.length.trans hr1.length
  have hlen2 : forall c, c ∈ l ++ b :: l' -> c.start + headerSize + h2.length c.start =
    c.stop := by
    intro c hc
    rw [hlength]
    exact hh.lengths c hc
  have hmerge := finshBlockMerge_eq hfree2 hnodup2 (by omega)
  rw [mergeWith_eq hj ht hlen2 hfree2] at hmerge
  -- and is joined with its neighbours there
  rcases starts_joined (b := b) hj with ⟨⟨mid, hmid⟩, hused⟩
  have hjoin : forall u, (joined p b q).start ∉ starts u s ++ starts u t := by
    intro u hin
    have hapart := (starts_apart ht' hin).left
    have hroom := (tiles_append.mp ht').right.left
    unfold headerSize at hroom
    omega
  have hrun : finshHeapFree h (b.start + headerSize) = some ((h2.setLength (joined p b q).start
        ((joined p b q).stop - (joined p b q).start - headerSize)).setNext
          (joined p b q).start (starts false t).head?) := by
    unfold finshHeapFree
    simp only [Nat.add_sub_cancel, hremove, Option.bind_some, hinsert]
    exact hmerge
  refine ⟨_, p, q, s, t, hrun, hj, ht', ?_, top_joined hj hh.top, ?_, ?_, ?_⟩
  · have hgaps := noTwoFree_append.mp hh.gaps
    exact hj.noTwoFree hgaps.left hgaps.right.right.right
  · intro c hc
    show c.start + headerSize + update h2.length (joined p b q).start _ c.start = c.stop
    rcases List.mem_append.mp hc with hin | hin
    · have hne : c.start ≠ (joined p b q).start := by
        intro heq
        refine hjoin c.used ?_
        rw [← heq, ← starts_append]
        exact mem_starts.mpr ⟨c, by simp [hin], rfl, rfl⟩
      rw [update_of_ne hne]
      exact hlen2 c (by rw [hj.left]; simp [hin])
    · rcases List.mem_cons.mp hin with heq | hin
      · rw [heq, update_self]
        have hroom := (tiles_append.mp ht').right.left
        omega
      · have hne : c.start ≠ (joined p b q).start := by
          intro heq
          refine hjoin c.used ?_
          rw [← heq, ← starts_append]
          exact mem_starts.mpr ⟨c, by simp [hin], rfl, rfl⟩
        rw [update_of_ne hne]
        exact hlen2 c (by rw [hj.right]; simp [hin])
  · rw [starts_append, starts_cons, if_pos (show (joined p b q).used = false from rfl)]
    rw [hmid] at hfree2 hnodup2
    exact hfree2.cut hnodup2
  · rw [starts_append, starts_cons, if_neg (by simp [joined])]
    rw [hused] at halloc2
    exact halloc2.frame (hjoin true) _

end Heaped

/-!
## Requests
-/

theorem le_heapAlignSize (size : Nat) : size ≤ heapAlignSize size := by
  unfold heapAlignSize heapAlignment Kernel.rtAlignDown
  omega

section Requests

variable {heap size x n : Nat} {h : FinshHeap} {l : List Block} {held : Nat -> Bool}

/-- The allocated headers are these, and the block of the header `x` among them. -/
def Inserted (x : Nat) (kept all : List Nat) : Prop :=
  exists s t, kept = s ++ t ∧ all = s ++ x :: t

theorem Heaped.length_eq {h' : FinshHeap} {l' : List Block} {c : Block}
    (hh : Heaped heap h l) (hh' : Heaped heap h' l') (hc : c ∈ l) (hc' : c ∈ l') :
    h'.length c.start = h.length c.start := by
  have hlen := hh.lengths c hc
  have hlen' := hh'.lengths c hc'
  omega

theorem allocateBlock_found (hh : Heaped heap h l) (hx : x ∈ starts false l)
    (hfit : n + headerSize ≤ h.length x) :
    exists h' l', allocateBlock h x n = some (some (x + headerSize), h') ∧
      Heaped heap h' l' ∧ Inserted x (starts true l) (starts true l') ∧
        (forall y, y ∈ starts true l -> h'.length y = h.length y) ∧ h'.length x = n := by
  rcases mem_starts.mp hx with ⟨b, hb, hfree, rfl⟩
  rcases List.append_of_mem hb with ⟨s, t, hl⟩
  subst hl
  have hlen := hh.lengths b hb
  have hroom : b.start + headerSize + n + headerSize ≤ b.stop := by omega
  rcases allocateBlock_spec hh hfree hroom with ⟨h', hrun, hh'⟩
  refine ⟨h', _, hrun, hh', ⟨starts true s, starts true t, ?_, ?_⟩, ?_, ?_⟩
  · simp [starts_cons, hfree]
  · simp [splitAt, starts_cons]
  · intro y hy
    rcases mem_starts.mp hy with ⟨c, hc, hused, rfl⟩
    have hcb : c ≠ b := by
      rintro rfl
      rw [hfree] at hused
      cases hused
    have hin : c ∈ s ∨ c ∈ t := by simpa [hcb] using hc
    refine hh.length_eq hh' hc ?_
    simp only [List.mem_append]
    tauto
  · have hnew := hh'.lengths ⟨b.start, b.start + headerSize + n, true⟩ (by simp [splitAt])
    have hnew' : b.start + headerSize + h'.length b.start = b.start + headerSize + n := hnew
    omega

theorem finshHeapFree_allocated (hh : Heaped heap h l) (hx : x ∈ starts true l) :
    exists h' l', finshHeapFree h (x + headerSize) = some h' ∧ Heaped heap h' l' ∧
      starts true l' = (starts true l).erase x ∧
        forall y, y ∈ starts true l' -> h'.length y = h.length y := by
  rcases mem_starts.mp hx with ⟨b, hb, hused, rfl⟩
  rcases List.append_of_mem hb with ⟨k, k', hl⟩
  subst hl
  rcases finshHeapFree_spec hh hused with ⟨h', p, q, s, t, hrun, hj, hh'⟩
  have hnot : b.start ∉ starts true k := fun hin =>
    Nat.lt_irrefl _ ((starts_around hh.tiles).left b.start hin)
  refine ⟨h', _, hrun, hh', ?_, ?_⟩
  · rw [starts_append, starts_append, starts_cons, starts_cons, if_pos hused,
      if_neg (by simp [joined]), List.erase_append_right _ hnot, List.erase_cons_head,
      (starts_joined (b := b) hj).right]
  · intro y hy
    rcases mem_starts.mp hy with ⟨c, hc, hcused, rfl⟩
    have hcj : c ≠ joined p b q := by
      rintro rfl
      cases hcused
    have hin : c ∈ s ∨ c ∈ t := by simpa [hcj] using hc
    refine hh.length_eq hh' ?_ hc
    rw [hj.left, hj.right]
    simp only [List.mem_append, List.mem_cons]
    tauto

theorem gcLoop_spec {s t : List Nat} {fuel : Nat} (hh : Heaped heap h l)
    (hl : starts true l = s ++ t) (hfuel : t.length < fuel) :
    exists h' l', gcLoop held fuel h t.head? = some h' ∧ Heaped heap h' l' ∧
      starts true l' = (s ++ t.filter fun x => held (x + headerSize)) ∧
        forall y, y ∈ starts true l' -> h'.length y = h.length y := by
  induction t generalizing h l s fuel with
  | nil =>
    cases fuel with
    | zero => cases hfuel
    | succ fuel => exact ⟨h, l, rfl, hh, hl, fun _ _ => rfl⟩
  | cons x t ih =>
    cases fuel with
    | zero => cases hfuel
    | succ fuel =>
      have halloc := hh.allocate
      rw [hl] at halloc
      have hnext : h.next x = t.head? := halloc.next_eq
      have hfuel' : t.length < fuel := Nat.lt_of_succ_lt_succ hfuel
      rw [List.head?_cons]
      unfold gcLoop
      simp only [hnext]
      cases hheld : held (x + headerSize) with
      | true =>
        have hl' : starts true l = (s ++ [x]) ++ t := by simpa using hl
        rcases ih hh hl' hfuel' with ⟨h', l', hrun, hh', hkept, hlen⟩
        exact ⟨h', l', hrun, hh', by simpa [hheld] using hkept, hlen⟩
      | false =>
        rcases finshHeapFree_allocated hh (x := x) (by rw [hl]; simp) with
          ⟨h1, l1, hfree, hh1, hl1, hlen1⟩
        have hnodup := starts_nodup (u := true) hh.tiles
        rw [hl] at hl1 hnodup
        have hnot : x ∉ s := by
          intro hin
          exact (List.nodup_append.mp hnodup).right.right x hin x List.mem_cons_self rfl
        rw [List.erase_append_right _ hnot, List.erase_cons_head] at hl1
        rcases ih hh1 hl1 hfuel' with ⟨h', l', hrun, hh', hkept, hlen⟩
        refine ⟨h', l', ?_, hh', by simpa [hheld] using hkept, ?_⟩
        · rw [hfree]
          exact hrun
        · intro y hy
          rw [hlen y hy]
          apply hlen1
          rw [hkept] at hy
          rw [hl1]
          rcases List.mem_append.mp hy with hin | hin
          · exact List.mem_append_left _ hin
          · exact List.mem_append_right _ (List.mem_of_mem_filter hin)

theorem finshHeapGc_spec (held : Nat -> Bool) (hh : Heaped heap h l) :
    exists h' l', finshHeapGc held h = some h' ∧ Heaped heap h' l' ∧
      (starts true l' = (starts true l).filter fun x => held (x + headerSize)) ∧
        forall y, y ∈ starts true l' -> h'.length y = h.length y := by
  unfold finshHeapGc
  rw [hh.allocate.head]
  exact gcLoop_spec (s := []) hh rfl hh.starts_lt

def Roomy (h : FinshHeap) (l : List Block) (size : Nat) : Prop :=
  exists x, x ∈ starts false l ∧ heapAlignSize size + headerSize < h.length x

theorem finshHeapAllocate_spec (held : Nat -> Bool) (size : Nat) (hh : Heaped heap h l) :
    exists r h' l' kept, finshHeapAllocate held h size = some (r, h') ∧ Heaped heap h' l' ∧
      ((Roomy h l size ∧ kept = starts true l) ∨ (¬Roomy h l size ∧
          kept = (starts true l).filter fun x => held (x + headerSize))) ∧
      (forall y, y ∈ kept -> h'.length y = h.length y) ∧
      ((r = none ∧ starts true l' = kept) ∨
        exists x, r = some (x + headerSize) ∧ Inserted x kept (starts true l') ∧
          size ≤ h'.length x) := by
  have hsize := le_heapAlignSize size
  unfold finshHeapAllocate
  simp only [firstFit_eq hh.free hh.starts_lt]
  cases hfind : (starts false l).find? fun x =>
      decide (heapAlignSize size + headerSize < h.length x) with
  | some x =>
    have hx := List.mem_of_find?_eq_some hfind
    have hfit := List.find?_some hfind
    rw [decide_eq_true_eq] at hfit
    rcases allocateBlock_found hh hx (Nat.le_of_lt hfit) with
      ⟨h', l', hrun, hh', hin, hsame, hlen⟩
    refine ⟨_, h', l', _, hrun, hh', Or.inl ⟨⟨x, hx, hfit⟩, rfl⟩, hsame,
      Or.inr ⟨x, rfl, hin, ?_⟩⟩
    omega
  | none =>
    have hfull : ¬Roomy h l size := by
      rintro ⟨x, hx, hfit⟩
      have hnot := List.find?_eq_none.mp hfind x hx
      simp [hfit] at hnot
    rcases finshHeapGc_spec held hh with ⟨h1, l1, hgc, hh1, hl1, hlen1⟩
    simp only [hgc, firstFit_eq hh1.free hh1.starts_lt]
    cases hfind1 : (starts false l1).find? fun x =>
        decide (heapAlignSize size + headerSize ≤ h1.length x) with
    | none =>
      exact ⟨none, h1, l1, _, rfl, hh1, Or.inr ⟨hfull, rfl⟩, hl1 ▸ hlen1,
        Or.inl ⟨rfl, hl1⟩⟩
    | some x =>
      have hx := List.mem_of_find?_eq_some hfind1
      have hfit := List.find?_some hfind1
      rw [decide_eq_true_eq] at hfit
      rcases allocateBlock_found hh1 hx hfit with ⟨h', l', hrun, hh', hin, hsame, hlen⟩
      refine ⟨_, h', l', _, hrun, hh', Or.inr ⟨hfull, rfl⟩, ?_, Or.inr ⟨x, rfl, ?_, ?_⟩⟩
      · intro y hy
        rw [← hl1] at hy
        rw [hsame y hy, hlen1 y hy]
      · rw [← hl1]
        exact hin
      · omega

end Requests

/-!
## Runs
-/

def walk (h : FinshHeap) : Nat -> Option Nat -> List Nat
  | 0, _ => []
  | _ + 1, none => []
  | fuel + 1, some x => x :: walk h fuel (h.next x)

def Allocated (h : FinshHeap) (ptr : Nat) : Prop :=
  headerSize ≤ ptr ∧ ptr - headerSize ∈ walk h finshHeapMax h.allocateList

instance (h : FinshHeap) (ptr : Nat) : Decidable (Allocated h ptr) :=
  inferInstanceAs (Decidable (_ ∧ _))

/-- A request, with the values of the variables at the time, or a release. -/
inductive HeapOp where
  | allocate (size : Nat) (values : List Nat)
  | free (ptr : Nat)
deriving DecidableEq, Repr

def heapStep (h : FinshHeap) : HeapOp -> Option FinshHeap
  | HeapOp.allocate size values =>
    if size ≤ finshHeapMax then (finshHeapAllocate values.contains h size).map Prod.snd
    else none
  | HeapOp.free ptr => if Allocated h ptr then finshHeapFree h ptr else none

section Runs

variable {heap ptr : Nat} {h h' : FinshHeap} {l : List Block}

theorem walk_eq {p : Option Nat} {c : List Nat} {fuel : Nat} (hl : Linked h.next p c)
    (hfuel : c.length < fuel) : walk h fuel p = c := by
  induction c generalizing p fuel with
  | nil =>
    have hnone : p = none := hl
    subst hnone
    cases fuel with
    | zero => rfl
    | succ fuel => rfl
  | cons x c ih =>
    rcases hl with ⟨heq, hrest⟩
    subst heq
    cases fuel with
    | zero => cases hfuel
    | succ fuel =>
      unfold walk
      rw [ih hrest (Nat.lt_of_succ_lt_succ hfuel)]

theorem Heaped.allocated_iff (hh : Heaped heap h l) :
    Allocated h ptr <-> headerSize ≤ ptr ∧ ptr - headerSize ∈ starts true l := by
  unfold Allocated
  rw [walk_eq hh.allocate hh.starts_lt]

theorem Heaped.free_allocated (hh : Heaped heap h l) (hptr : Allocated h ptr) :
    exists h' l', finshHeapFree h ptr = some h' ∧ Heaped heap h' l' ∧
      starts true l' = (starts true l).erase (ptr - headerSize) := by
  rcases hh.allocated_iff.mp hptr with ⟨hle, hin⟩
  rcases finshHeapFree_allocated hh hin with ⟨h', l', hfree, hh', hl', _⟩
  rw [Nat.sub_add_cancel hle] at hfree
  exact ⟨h', l', hfree, hh', hl'⟩

theorem Heaped.step {op : HeapOp} (hh : Heaped heap h l) (hs : heapStep h op = some h') :
    exists l', Heaped heap h' l' := by
  cases op with
  | allocate size values =>
    simp only [heapStep] at hs
    split at hs
    · rcases finshHeapAllocate_spec values.contains size hh with
        ⟨r, h1, l1, _, hrun, hh1, _⟩
      rw [hrun] at hs
      cases hs
      exact ⟨l1, hh1⟩
    · cases hs
  | free ptr =>
    simp only [heapStep] at hs
    split at hs
    · rename_i hptr
      rcases hh.free_allocated hptr with ⟨h1, l1, hrun, hh1, _⟩
      rw [hrun] at hs
      cases hs
      exact ⟨l1, hh1⟩
    · cases hs

/-- Requests and releases keep the lists sorted and apart, their blocks tile the heap with
no two free neighbours, and every further one returns. -/
theorem finsh_heap_tiled {ops : List HeapOp}
    (hrun : Run (Graph heapStep) (finshHeapInit heap) ops h) :
    exists l, Tiles headerSize heap l (heap + finshHeapMax) ∧ NoTwoFree l ∧
      (forall b, b ∈ l -> b.start + headerSize + h.length b.start = b.stop) ∧
      Linked h.next h.freeList (starts false l) ∧
      Linked h.next h.allocateList (starts true l) ∧
      ((starts false l).Pairwise fun x y => x < y) ∧
      ((starts true l).Pairwise fun x y => x < y) ∧
      (forall x, x ∈ starts false l -> x ∉ starts true l) ∧
      (forall size values, size ≤ finshHeapMax ->
        exists r h', finshHeapAllocate values h size = some (r, h') ∧
          forall ptr, r = some ptr -> Allocated h' ptr ∧
            size ≤ h'.length (ptr - headerSize)) ∧
      forall ptr, Allocated h ptr -> exists h', finshHeapFree h ptr = some h' := by
  have hinv : exists l, Heaped heap h l := by
    apply hrun.invariant fun h => exists l, Heaped heap h l
    · exact ⟨_, Heaped.init⟩
    · rintro h op h' ⟨l, hh⟩ hs
      exact hh.step hs
  rcases hinv with ⟨l, hh⟩
  refine ⟨l, hh.tiles, hh.gaps, hh.lengths, hh.free, hh.allocate, starts_sorted hh.tiles,
    starts_sorted hh.tiles, fun x hx => starts_disjoint hh.tiles hx, ?_, ?_⟩
  · intro size values _
    rcases finshHeapAllocate_spec values size hh with
      ⟨r, h', l', kept, hrun', hh', _, _, hres⟩
    refine ⟨r, h', hrun', ?_⟩
    intro ptr hptr
    rcases hres with ⟨hnone, _⟩ | ⟨x, hsome, ⟨s, t, _, hall⟩, hlen⟩
    · rw [hnone] at hptr
      cases hptr
    · rw [hsome] at hptr
      cases hptr
      rw [Nat.add_sub_cancel]
      refine ⟨hh'.allocated_iff.mpr ⟨Nat.le_add_left _ _, ?_⟩, hlen⟩
      rw [Nat.add_sub_cancel, hall]
      simp
  · intro ptr hptr
    rcases hh.free_allocated hptr with ⟨h', _, hfree, _⟩
    exact ⟨h', hfree⟩

/-- Three requests, of which the last collects the block that no variable holds, and a
release. -/
theorem finsh_heap_tiled_collected :
    exists h, exec heapStep (finshHeapInit 4096)
        [HeapOp.allocate 40 [], HeapOp.allocate 40 [], HeapOp.allocate 40 [4152],
          HeapOp.free 4152] = some h ∧
      exists l, Tiles headerSize 4096 l (4096 + finshHeapMax) ∧ NoTwoFree l ∧
      (forall b, b ∈ l -> b.start + headerSize + h.length b.start = b.stop) ∧
      Linked h.next h.freeList (starts false l) ∧
      Linked h.next h.allocateList (starts true l) ∧
      ((starts false l).Pairwise fun x y => x < y) ∧
      ((starts true l).Pairwise fun x y => x < y) ∧
      (forall x, x ∈ starts false l -> x ∉ starts true l) ∧
      (forall size values, size ≤ finshHeapMax ->
        exists r h', finshHeapAllocate values h size = some (r, h') ∧
          forall ptr, r = some ptr -> Allocated h' ptr ∧
            size ≤ h'.length (ptr - headerSize)) ∧
      forall ptr, Allocated h ptr -> exists h', finshHeapFree h ptr = some h' := by
  have htiled := fun h (hexec : exec heapStep (finshHeapInit 4096)
      [HeapOp.allocate 40 [], HeapOp.allocate 40 [], HeapOp.allocate 40 [4152],
        HeapOp.free 4152] = some h) => finsh_heap_tiled (run_of_exec hexec)
  exact ⟨_, rfl, htiled _ rfl⟩

end Runs

end RtThread.Finsh
