import RtThread.Mem.SmallMemSafety

/-!
# The lowest free block

`lfree` is kept so that `rt_malloc` need not search from the start of the heap. Every operation
maintains it except for one path of `rt_realloc`: when the end of a block is cut off, `plug_holes`
moves `lfree` only if it joins the end with the block `lfree` points to. A free end below `lfree`
is never found again.
-/

namespace RtThread.Mem.SmallMem

open Kernel ByteMemory Tiling Transition

/-- `lfree` is the lowest free block of the heap, or `heap_end`; a search from
there finds what a search from the start finds. -/
def LfreeLowest (c : Config) (h : Heap) : Prop :=
  exists l, Tiles c.sizeofStructMem 0 l (h.heapEnd c) ∧ Headers (links h) 0 l ∧
    ((h.lfree = h.heapEnd c ∧ forall b, b ∈ l -> b.used = true) ∨
      (exists b, b ∈ l ∧ b.used = false ∧ b.start = h.lfree ∧
        forall d, d ∈ l -> d.used = false -> b.start ≤ d.start)) ∧
    forall size, size ≤ h.memSizeAligned ->
      search c h size (h.turns c) h.lfree = search c h size (h.turns c) 0

section Lowest

variable {c : Config} {h h0 : Heap} {l : List Block} {s : State} {ops : List Op}
  {m : Memory} {beginAddr endAddr : Nat}

theorem Shape.search_lowest {size : Nat} (hs : Shape c h l)
    (hlow : Lowest c h l) (hsize : size ≤ h.memSizeAligned) :
    search c h size (h.turns c) h.lfree = search c h size (h.turns c) 0 := by
  have hhdr := c.le_sizeof
  have hlen := hs.tiles.length_le (by omega)
  have hturns : h.turns c = h.heapEnd c + 2 := rfl
  -- the blocks from `lfree` on, with only used ones before them
  have hsplit : exists l1 l2, l = l1 ++ l2 ∧ (forall b, b ∈ l1 -> b.used = true) ∧
      Tiles c.sizeofStructMem h.lfree l2 (h.heapEnd c) := by
    rcases lowestFree_cases l with ⟨hall, heq⟩ | ⟨b, hb, hfree, heq⟩
    · refine ⟨l, [], by simp, hall, ?_⟩
      rw [hlow, heq]
      rfl
    · rcases List.append_of_mem hb with ⟨l1, l2, hl⟩
      have ht := hs.tiles
      rw [hl] at ht
      refine ⟨l1, b :: l2, hl, ?_, ?_⟩
      · intro d hd
        cases hused : d.used with
        | true => rfl
        | false =>
          have hle := ht.lowestFree_le (e := h.heapEnd c) (b := d) (by simp [hd]) hused
          rw [← hl, heq] at hle
          have hleft := ht.around.left d hd
          have hbd := ht.bounds (b := d) (by simp [hd])
          omega
      · rw [hlow, heq]
        exact ⟨rfl, (tiles_append.mp ht).right⟩
  rcases hsplit with ⟨l1, l2, hl, hused, ht⟩
  have hlen2 := ht.length_le (by omega)
  rw [search_eq hs ht (by rw [hl]; simp; tauto) hsize (by omega),
    search_eq hs hs.tiles (fun _ hd => hd) hsize (by omega), hl,
    List.find?_append]
  have hnone : l1.find? (candidate c h size) = none := by
    rw [List.find?_eq_none]
    intro b hb hcand
    unfold candidate at hcand
    rw [decide_eq_true_iff, hused b hb] at hcand
    cases hcand.left
  rw [hnone]
  rfl

theorem Shape.lfreeLowest_iff (hs : Shape c h l) : LfreeLowest c h <-> Lowest c h l := by
  have hhdr := c.le_sizeof
  constructor
  · rintro ⟨l', ht, hh, hcases, _⟩
    have heq := Headers.unique (by omega) ht hs.tiles hh hs.headers
    subst heq
    unfold Lowest
    rcases hcases with ⟨hend, hall⟩ | ⟨b, hb, hfree, hstart, hmin⟩
    · rcases lowestFree_cases l' with ⟨_, hlow⟩ | ⟨d, hd, hdfree, _⟩
      · rw [hlow, hend]
      · rw [hall d hd] at hdfree
        cases hdfree
    · have hle := hs.tiles.lowestFree_le (e := h.heapEnd c) hb hfree
      rcases lowestFree_cases l' with ⟨hall, _⟩ | ⟨d, hd, hdfree, hlow⟩
      · rw [hall b hb] at hfree
        cases hfree
      · have hge := hmin d hd hdfree
        rw [hlow] at hle ⊢
        omega
  · intro hlow
    refine ⟨l, hs.tiles, hs.headers, ?_, fun size => hs.search_lowest hlow⟩
    unfold Lowest at hlow
    rcases lowestFree_cases l with ⟨hall, heq⟩ | ⟨b, hb, hfree, heq⟩
    · exact Or.inl ⟨hlow.trans (heq _), hall⟩
    · refine Or.inr ⟨b, hb, hfree, ?_, ?_⟩
      · rw [hlow, heq]
      · intro d hd hdfree
        have hle := hs.tiles.lowestFree_le (e := h.heapEnd c) hd hdfree
        rwa [heq] at hle

theorem lowest_run (hinit : rtSystemHeapInit c m beginAddr endAddr = some h0)
    (hrun : Run (Guarded (fun s op => ¬ HidesFree c s.heap op) (Graph (step c))) (boot h0) ops s) :
    exists l, Sound c s l ∧ Lowest c s.heap l := by
  have hboot := boot_sound hinit
  apply hrun.invariant (fun s => exists l, Sound c s l ∧ Lowest c s.heap l)
  · exact ⟨_, hboot.left, hboot.right.right⟩
  · rintro s op s' ⟨l, hs, hlow⟩ ⟨hseen, hstep⟩
    rcases hs.step hstep with ⟨l', hnext⟩
    exact ⟨l', hnext.sound, (hnext.lowest hlow).mpr hseen⟩

/-- In every run without a reallocation that cuts off the end of a block below `lfree` with
a used block behind it, `lfree` is the lowest free block; exactly such a call ends this. -/
theorem lfree_lowest_run
    (hinit : rtSystemHeapInit c m beginAddr endAddr = some h0)
    (hrun : Run (Guarded (fun s op => ¬ HidesFree c s.heap op)
      (Graph (step c))) (boot h0) ops s) :
    LfreeLowest c s.heap ∧ forall op s', step c s op = some s' ->
      (LfreeLowest c s'.heap <-> ¬ HidesFree c s.heap op) := by
  rcases lowest_run hinit hrun with ⟨l, hs, hlow⟩
  constructor
  · exact hs.consistent.shape.lfreeLowest_iff.mpr hlow
  · intro op s' hstep
    rcases hs.step hstep with ⟨l', hnext⟩
    rw [hnext.sound.consistent.shape.lfreeLowest_iff]
    exact hnext.lowest hlow

end Lowest

instance (c : Config) (h : Heap) : forall op, Decidable (HidesFree c h op)
  | Op.realloc (some _) _ => inferInstanceAs (Decidable (_ ∧ _))
  | Op.realloc none _ => inferInstanceAs (Decidable False)
  | Op.malloc _ => inferInstanceAs (Decidable False)
  | Op.free _ => inferInstanceAs (Decidable False)
  | Op.write _ _ _ => inferInstanceAs (Decidable False)

/-- Two blocks, the second of which is cut off above the lowest free block. -/
theorem lfree_lowest_run_shrunk :
    exists h0 s, smallBoard = some h0 ∧
      Run (Guarded (fun s op => ¬ HidesFree four s.heap op)
        (Graph (step four))) (boot h0)
        [Op.malloc 12, Op.malloc 44, Op.free (some 4108),
          Op.realloc (some 4132) 12] s ∧
      s.heap.lfree = 0 ∧ LfreeLowest four s.heap := by
  have hexec : (smallBoard.bind fun h0 =>
      (exec (fun s op => if ¬ HidesFree four s.heap op then
        step four s op else none) (boot h0)
        [Op.malloc 12, Op.malloc 44, Op.free (some 4108),
          Op.realloc (some 4132) 12]).map fun s => s.heap.lfree) = some 0 := by
    decide +kernel
  rw [Option.bind_eq_some_iff] at hexec
  rcases hexec with ⟨h0, hinit, hexec⟩
  rw [Option.map_eq_some_iff] at hexec
  rcases hexec with ⟨s, hexec, hlfree⟩
  have hrun := guarded_run_of_exec hexec
  exact ⟨h0, s, hinit, hrun, hlfree, (lfree_lowest_run hinit hrun).left⟩

/-- One block takes the whole heap and is cut off: the rest is free, but `lfree` stays at
`heap_end` and a request for 12 bytes fails. -/
theorem lfree_misses_shrunk_end :
    exists h0 s, smallBoard = some h0 ∧
      Run (Graph (step four)) (boot h0)
        [Op.malloc 96, Op.realloc (some 4108) 12] s ∧
      (rtMalloc four s.heap 12).map Prod.snd = some none ∧
      ¬ LfreeLowest four s.heap := by
  have hexec : (smallBoard.bind fun h0 =>
      (exec (step four) (boot h0)
        [Op.malloc 96, Op.realloc (some 4108) 12]).map fun s =>
          (s.heap.lfree, s.heap.heapEnd four, s.heap.get 0 Field.next,
            s.heap.get 24 Field.used, (rtMalloc four s.heap 12).map Prod.snd)) =
      some (116, 116, 24, 0, some none) := by
    decide +kernel
  rw [Option.bind_eq_some_iff] at hexec
  rcases hexec with ⟨h0, hinit, hexec⟩
  rw [Option.map_eq_some_iff] at hexec
  rcases hexec with ⟨s, hexec, hvalues⟩
  simp only [Prod.mk.injEq] at hvalues
  rcases hvalues with ⟨hlfree, hend, hnext, hzero, hnull⟩
  refine ⟨h0, s, hinit, run_of_exec hexec, hnull, ?_⟩
  rintro ⟨l, ht, hh, hcases, _⟩
  have hhdr : four.sizeofStructMem = 12 := by decide
  rw [hend, hhdr] at ht
  -- the second block of the list is free and below `lfree`
  cases l with
  | nil => cases ht
  | cons b l =>
    rcases ht with ⟨hstart, _, hrest⟩
    have hstop : b.stop = 24 := by
      rw [← hh.left, hstart]
      exact hnext
    cases l with
    | nil =>
      have heq : b.stop = 116 := hrest
      omega
    | cons d l =>
      have hd : d.start = 24 := hrest.left.trans hstop
      have hfree : d.used = false := by
        have hused : decide (s.heap.get d.start Field.used ≠ 0) = d.used :=
          hh.right.right.right.right.left
        rw [hd, hzero] at hused
        exact hused.symm
      rcases hcases with ⟨_, hall⟩ | ⟨x, hx, _, hxs, hmin⟩
      · have hused := hall d (by simp)
        rw [hfree] at hused
        cases hused
      · have hle := hmin d (by simp) hfree
        omega

end RtThread.Mem.SmallMem
