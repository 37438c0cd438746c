import RtThread.Mem.SmallMemFit

/-!
# Calls that return, and a heap that is given back

Every legal call returns in every heap that calls can reach.  When all of it has been
freed, the heap is one free block again, also after `lfree` had lost a free block.
-/

namespace RtThread.Mem.SmallMem

open Kernel ByteMemory Tiling Transition
open Function (update update_self)

section Drained

variable {c : Config} {h h' h0 : Heap} {l l' : List Block} {b : Block} {s s' : State}
  {op : Op} {ops : List Op} {m : Memory} {beginAddr endAddr : Nat}

theorem plugHoles_lfree (hs : Shape c h (l ++ b :: l')) (hb : b.used = false)
    (hlfree : h.lfree ≤ b.start) (hplug : plugHoles c h b.start = some h') :
    h'.lfree ≤ b.start := by
  rcases plugHoles_spec hs hb with ⟨h2, p, q, s, t, hplug2, hj, _, hlf, _⟩
  cases hplug2.symm.trans hplug
  rw [hlf]
  unfold backwardLfree
  split
  · cases p with
    | none => exact Nat.le_refl _
    | some x =>
      have hx : x ∈ l := by simp [hj.left]
      have hbd := hs.tiles.bounds (b := x) (by simp [hx])
      have hleft := hs.tiles.around.left x hx
      show x.start ≤ b.start
      omega
  · unfold forwardLfree
    split
    · exact Nat.le_refl _
    · exact hlfree

theorem rtFree_lfree (hc : Consistent c h l) (hb : b ∈ l) (hused : b.used = true)
    (hfree : rtFree c h (some (payload h.heapPtr c.sizeofStructMem b)) = some h') :
    h'.lfree ≤ b.start := by
  have hne := (hc.shape.used_iff hb).mpr hused
  have hin := hc.inside b hb hused
  have hmagic := hc.stamped b hb hused
  have halign := Consistent.align_payload hc.shape hb
  rcases List.append_of_mem hb with ⟨s, t, hl⟩
  subst hl
  simp only [rtFree] at hfree
  rw [if_pos ⟨halign, by unfold payload; omega, by unfold payload; omega⟩,
    header_of_payload, if_pos ⟨hne, hmagic⟩] at hfree
  have hmark := hc.shape.mark (v := 0) (w := 0) (by decide) (by decide) (fun hne => absurd rfl hne)
  simp only [ne_eq, not_true_eq_false, decide_false] at hmark
  refine plugHoles_lfree (b := { b with used := false })
    (hmark.sameMem (by exact ⟨rfl, rfl, rfl⟩)).shape rfl ?_ hfree
  show (if b.start < h.lfree then b.start else h.lfree) ≤ b.start
  split
  · exact Nat.le_refl _
  · omega

theorem Sound.single (hs : Sound c s l) (hnone : forall p, s.live p = none) :
    l = [⟨0, s.heap.heapEnd c, false⟩] := by
  have hhdr := c.le_sizeof
  apply hs.consistent.plugged.single hs.consistent.shape.tiles
  · unfold Heap.heapEnd
    omega
  · intro b hb
    cases hused : b.used with
    | false => rfl
    | true =>
      have hlive := (hs.live _).mpr ⟨b, hb, hused, rfl⟩
      rw [hnone] at hlive
      cases hlive

theorem Consistent.malloc_null {size : Nat} {r : Option Nat} (hc : Consistent c h l)
    (hm : rtMalloc c h size = some (h', r)) (hr : r = none) : h' = h := by
  rcases rtMalloc_spec hc hm with ⟨_, heq⟩ | ⟨_, _, hsome, _⟩
  · exact heq
  · rw [hr] at hsome
    cases hsome

theorem Sound.step_lfree (hs : Sound c s l) (hlow : (forall p, s.live p = none) -> s.heap.lfree = 0)
    (hstep : SmallMem.step c s op = some s') (hnone : forall p, s'.live p = none) :
    s'.heap.lfree = 0 := by
  rcases hs.step hstep with ⟨r, hnext⟩
  have hs' := hnext.sound
  unfold SmallMem.step at hstep
  split at hstep
  · rename_i hlegal
    have hgot : forall {h1 : Heap} {size : Nat} {r : Option Nat},
        s' = ⟨h1, s.live.malloc size r⟩ -> (r = none -> h1 = s.heap) -> s'.heap.lfree = 0 := by
      intro h1 size r heq hsame
      subst heq
      cases r with
      | none =>
        rw [hsame rfl]
        exact hlow hnone
      | some p =>
        have hp := hnone p
        simp only [Owners.malloc, update_self] at hp
        cases hp
    cases op with
    | malloc size =>
      simp only [act, Option.map_eq_some_iff] at hstep
      rcases hstep with ⟨⟨h1, r⟩, hm, heq⟩
      exact hgot heq.symm (hs.consistent.malloc_null hm)
    | free rmem =>
      simp only [act, Option.map_eq_some_iff] at hstep
      rcases hstep with ⟨h1, hfree, heq⟩
      subst heq
      cases rmem with
      | none =>
        cases hfree
        exact hlow hnone
      | some p =>
        rcases hs.block (hlegal.right p rfl) with ⟨b, hb, hused, hpb⟩
        subst hpb
        have hle := rtFree_lfree hs.consistent hb hused hfree
        have hin := hs.consistent.inside b hb hused
        have hend : h1.memSizeAligned = s.heap.memSizeAligned := hnext.memSizeAligned
        have hsingle := hs'.single hnone
        subst hsingle
        -- `lfree` is the one block or the end of the heap
        rcases hs'.consistent.lfree with hlf | ⟨d, hd, _, hlf⟩
        · unfold Heap.heapEnd at hlf hin
          change h1.lfree = h1.memSizeAligned + _ at hlf
          omega
        · rw [List.mem_singleton] at hd
          subst hd
          exact hlf.symm
    | realloc rmem newsize =>
      cases rmem with
      | none =>
        simp only [act, Option.map_eq_some_iff, rtRealloc] at hstep
        rcases hstep with ⟨⟨h1, r⟩, hm, heq⟩
        apply hgot heq.symm
        split at hm
        · cases hm
          exact fun _ => rfl
        · exact hs.consistent.malloc_null hm
      | some p =>
        have hp := hlegal.right p rfl
        simp only [act, Option.map_eq_some_iff] at hstep
        rcases hstep with ⟨⟨h1, r⟩, _, heq⟩
        subst heq
        cases r with
        | none =>
          rw [show s.live p = none from hnone p] at hp
          cases hp
        | some q =>
          have hq := hnone q
          simp only [Owners.move, update_self, Option.map_eq_none_iff] at hq
          rw [hq] at hp
          cases hp
    | write p i v =>
      have hp := hlegal.right p rfl
      simp only [act] at hstep
      split at hstep
      · cases hstep
        have hq := hnone p
        simp only [Owners.write, update_self, Option.map_eq_none_iff] at hq
        rw [hq] at hp
        cases hp
      · cases hstep
  · cases hstep

/-!
## Runs
-/

theorem drained_run (hinit : rtSystemHeapInit c m beginAddr endAddr = some h0)
    (hrun : Run (Graph (step c)) (boot h0) ops s) :
    (exists l, Sound c s l) ∧ s.heap.memSizeAligned = h0.memSizeAligned ∧
      ((forall p, s.live p = none) -> s.heap.lfree = 0) := by
  have hboot := boot_sound hinit
  apply hrun.invariant (fun s => (exists l, Sound c s l) ∧
    s.heap.memSizeAligned = h0.memSizeAligned ∧ ((forall p, s.live p = none) -> s.heap.lfree = 0))
  · exact ⟨⟨_, hboot.left⟩, rfl, fun _ => hboot.right.right⟩
  · rintro s op s' ⟨⟨l, hs⟩, hsize, hlow⟩ hstep
    rcases hs.step hstep with ⟨l', hnext⟩
    exact ⟨⟨l', hnext.sound⟩, hnext.memSizeAligned.trans hsize, hs.step_lfree hlow hstep⟩

/-- After any legal calls the next legal call returns: no assertion fails and every search
ends, on a heap with room for a least block. -/
theorem small_heap_calls_return (hinit : rtSystemHeapInit c m beginAddr endAddr = some h0)
    (hmin : c.minSizeAligned ≤ h0.memSizeAligned)
    (hrun : Run (Graph (step c)) (boot h0) ops s) (hlegal : op.Legal s.live)
    (hwrite : forall p i v, op = Op.write p i v -> i < payloadSize c s.heap p) :
    exists s', step c s op = some s' := by
  rcases drained_run hinit hrun with ⟨⟨l, hs⟩, hsize, _⟩
  exact hs.returns (by rw [hsize]; exact hmin) hlegal hwrite

/-- The heap after the loss of its free block, with one pointer left. -/
theorem small_heap_calls_return_shrunk : exists h0 s s', smallBoard = some h0 ∧
      Run (Graph (step four)) (boot h0) [Op.malloc 96, Op.realloc (some 4108) 12] s ∧
      step four s (Op.realloc (some 4108) 40) = some s' := by
  have hexec : (smallBoard.bind fun h0 =>
      (exec (step four) (boot h0) [Op.malloc 96, Op.realloc (some 4108) 12]).map fun s =>
        decide (four.minSizeAligned ≤ h0.memSizeAligned ∧
          (Op.realloc (some 4108) 40).Legal s.live)) = some true := by
    decide +kernel
  rw [Option.bind_eq_some_iff] at hexec
  rcases hexec with ⟨h0, hinit, hexec⟩
  rw [Option.map_eq_some_iff] at hexec
  rcases hexec with ⟨s, hexec, hboth⟩
  rw [decide_eq_true_iff] at hboth
  have hwrite : forall p i v, Op.realloc (some 4108) 40 = Op.write p i v ->
      i < payloadSize four s.heap p := by
    intro p i v heq
    cases heq
  rcases small_heap_calls_return hinit hboth.left (run_of_exec hexec) hboth.right hwrite with
    ⟨s', hs'⟩
  exact ⟨h0, s, s', hinit, run_of_exec hexec, hs'⟩

/-- When all has been freed, whatever the calls were, the heap is one free block, `lfree`
is that block, nothing is used, and every size below that of the heap can be had. -/
theorem small_heap_drained (hinit : rtSystemHeapInit c m beginAddr endAddr = some h0)
    (hrun : Run (Graph (step c)) (boot h0) ops s) (hnone : forall p, s.live p = none) :
    Headers (links s.heap) 0 [⟨0, h0.heapEnd c, false⟩] ∧ s.heap.lfree = 0 ∧
      s.heap.usedMem = 0 ∧
      forall size, size ≠ 0 -> c.dataSize (rtAlign size c.alignSize) < h0.memSizeAligned ->
          exists h' p, rtMalloc c s.heap size = some (h', some p) := by
  rcases drained_run hinit hrun with ⟨⟨l, hs⟩, hsize, hlow⟩
  have hend : s.heap.heapEnd c = h0.heapEnd c := by
    unfold Heap.heapEnd
    rw [hsize]
  have hsingle := hs.single hnone
  rw [hend] at hsingle
  subst hsingle
  have hc := hs.consistent
  refine ⟨hc.shape.headers, hlow hnone, hc.usedMem, ?_⟩
  intro size hpos hlt
  have hdata := @dataSize_eq_max c (rtAlign size c.alignSize)
  rcases hc.malloc_iff hpos (by omega) (by omega) with ⟨h', r, hm, hiff⟩
  have hreached : Reached c s.heap [⟨0, h0.heapEnd c, false⟩]
      (c.dataSize (rtAlign size c.alignSize)) := by
    refine ⟨_, List.mem_singleton_self _, ⟨rfl, ?_⟩, Nat.le_of_eq (hlow hnone), ?_⟩
    · unfold Heap.heapEnd
      show 0 + _ + _ ≤ h0.memSizeAligned + _
      omega
    · rw [hend]
      unfold Heap.heapEnd
      show 0 + _ + _ ≠ h0.memSizeAligned + _
      omega
  rcases Option.isSome_iff_exists.mp (hiff.mpr hreached) with ⟨p, hp⟩
  subst hp
  exact ⟨h', p, hm⟩

end Drained

/-- The same heap when that pointer has been freed. -/
theorem small_heap_drained_shrunk : exists h0 s, smallBoard = some h0 ∧
      Run (Graph (step four)) (boot h0)
        [Op.malloc 96, Op.realloc (some 4108) 12, Op.free (some 4108)] s ∧
      s.heap.lfree = 0 ∧ exists h' p, rtMalloc four s.heap 92 = some (h', some p) := by
  have hexec : (smallBoard.bind fun h0 =>
      (exec (step four) (boot h0)
        [Op.malloc 96, Op.realloc (some 4108) 12, Op.free (some 4108)]).map fun s =>
          (four.dataSize (rtAlign 92 four.alignSize), h0.memSizeAligned, s.heap.heapEnd four,
            s.heap.get 0 Field.next, s.heap.get 0 Field.used, s.heap.get 0 Field.prev)) =
      some (92, 104, 116, 116, 0, 0) := by
    decide +kernel
  rw [Option.bind_eq_some_iff] at hexec
  rcases hexec with ⟨h0, hinit, hexec⟩
  rw [Option.map_eq_some_iff] at hexec
  rcases hexec with ⟨s, hexec, hvalues⟩
  simp only [Prod.mk.injEq] at hvalues
  rcases hvalues with ⟨hdata, hsize, hend, hnext, hused, hprev⟩
  have hnone : forall p, s.live p = none := by
    rcases drained_run hinit (run_of_exec hexec) with ⟨⟨l, hs⟩, _⟩
    have hhdr : four.sizeofStructMem = 12 := by decide
    have hone : l = [⟨0, 116, false⟩] := by
      refine Headers.unique (by omega) hs.consistent.shape.tiles ?_
        hs.consistent.shape.headers ⟨hnext, ?_, hprev, trivial⟩
      · rw [hend, hhdr]
        exact ⟨rfl, by decide, rfl⟩
      · exact decide_eq_false (fun hne => hne hused)
    subst hone
    intro p
    rw [← Option.not_isSome_iff_eq_none]
    intro hp
    rcases hs.block hp with ⟨b, hb, hb', _⟩
    rw [List.mem_singleton] at hb
    subst hb
    cases hb'
  rcases small_heap_drained hinit (run_of_exec hexec) hnone with ⟨_, hlfree, _, hall⟩
  exact ⟨h0, s, hinit, run_of_exec hexec, hlfree, hall 92 (by decide) (by omega)⟩

end RtThread.Mem.SmallMem
