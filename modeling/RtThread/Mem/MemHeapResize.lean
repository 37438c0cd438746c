import RtThread.Mem.MemHeapCalls

/-!
# Resizing a block of a memory heap

`rt_memheap_realloc` extends a block into the free block behind it, or cuts its end
off and joins that with a free block behind it.  Both keep the heap consistent.
-/

namespace RtThread.Mem

open Kernel ByteMemory Tiling LinkRing

namespace MemHeap

/-- What a reallocation in place did that moved the end of `b` to `cut`. -/
structure Resized (c : Config) (h : RtMemheap) (l : List Block) (b : Block)
    (l' : List Block) (cut : Nat) (h' : RtMemheap) (r : List Block) : Prop where
  evolves : Evolves c h (l ++ b :: l') h' r
  before : OneMore (l ++ { b with used := false } :: l') (l ++ b :: l') b
  after : OneMore (l ++ { b with used := false } :: l') r { b with stop := cut }

section Resize

variable {c : Config} {h : RtMemheap} {l l' t : List Block} {b d : Block} {n : Nat}

theorem Shape.behind_free (hs : Shape c h (l ++ b :: l')) (hfree : isUsed h b.stop = false) :
    exists d t, l' = d :: t ∧ d.used = false ∧ d.start = b.stop := by
  rcases hs.tiles.next with ⟨hnil, hstop⟩ | ⟨d, t, hcons, hstart⟩
  · have hused : isUsed h (tail c h) = true := hs.isUsed_eq (b := tailer c h) (by simp)
    rw [← hstop, hfree] at hused
    cases hused
  · refine ⟨d, t, hcons, ?_, hstart⟩
    rw [← hs.isUsed_eq (b := d) (by simp [hcons]), hstart]
    exact hfree

theorem Shape.freeStart_behind {x : Nat} (hs : Shape c h (l ++ b :: d :: l')) (hb : b.used = true) :
    FreeStart (l ++ b :: d :: l') x ∧ x ≠ d.start <-> FreeStart l x ∨ FreeStart l' x := by
  have hlist : l ++ b :: d :: l' = (l ++ [b]) ++ d :: l' := by simp
  rw [hlist] at hs ⊢
  rw [hs.freeStart_without]
  simp [hb]

variable {cut : Nat}

theorem Shape.grow_lists {g : RtMemheap} (hs : Shape c h (l ++ b :: d :: l'))
    (hb : b.used = true) (hd : d.used = false)
    (hr : Reached c h (l ++ b :: d :: l') g (l ++ b :: d :: l') (FreeStart (l ++ b :: d :: l')))
    (hlow : b.start + c.memheapSize ≤ cut) (hhigh : cut + c.memheapSize ≤ d.stop) :
    Reached c h (l ++ b :: d :: l')
      (freeInsert (splitBlock (joinBlocks (freeRemove g d.start) b.start d.stop) b.start cut) cut)
      (l ++ { b with stop := cut } :: ⟨cut, d.stop, false⟩ :: l')
      (FreeStart (l ++ { b with stop := cut } :: ⟨cut, d.stop, false⟩ :: l')) := by
  have hmem : d ∈ l ++ b :: d :: l' := by simp
  have hremove := hr.remove (x := d.start) ⟨d, hmem, hd, rfl⟩
  have hjoin := hremove.join ⟨d, hmem, rfl⟩ (fun hin => hin.right rfl)
  have hsplit := hjoin.split hlow hhigh
  have hnew : ¬ (FreeStart (l ++ b :: d :: l') cut ∧ cut ≠ d.start) := by
    intro hin
    rcases hjoin.within cut hin with ⟨x, hx, hstart⟩
    exact apart_ne (hjoin.shape.cut_apart (b := { b with stop := d.stop }) (by simp) hlow
      hhigh (Entry.of_mem hx)) hstart.symm
  have hinsert := hsplit.insert (b := ⟨cut, d.stop, false⟩) (by simp) hnew
  refine hinsert.congr fun x => ?_
  rw [hs.freeStart_behind hb]
  simp only [freeStart_append, freeStart_cons, hb, Bool.true_eq_false, false_and, true_and,
    false_or, eq_comm (a := x)]
  exact or_left_comm

theorem unlink_eq_joinBlocks (hs : Shape c h (l ++ b :: d :: l')) :
    (h.put (h.get d.start Field.next) Field.prev (h.get d.start Field.prev)).put
      ((h.put (h.get d.start Field.next) Field.prev (h.get d.start Field.prev)).get
        d.start Field.prev) Field.next
      ((h.put (h.get d.start Field.next) Field.prev (h.get d.start Field.prev)).get
        d.start Field.next) = joinBlocks h b.start d.stop := by
  rcases hs.behind with ⟨_, _, hdroom, _⟩
  have hhdr := c.le_memheapSize
  have hs' : Shape c h ((l ++ [b]) ++ d :: l') := by simpa using hs
  rcases hs'.header with ⟨hnext, _, hprev, _⟩
  rw [lastStart_concat] at hprev
  have hapart : memheapItem.Apart d.stop d.start :=
    Or.inr (by show d.start + 24 ≤ d.stop; omega)
  rw [hnext, hprev, get_put_apart hapart, get_put_apart hapart, hnext, hprev]
  rfl

theorem Consistent.grow_evolves (hc : Consistent c h (l ++ b :: d :: l')) (hb : b.used = true)
    (hd : d.used = false) (hlt : b.stop - b.start - c.memheapSize < n)
    (hfits : n + memheapMinialloc <
      d.stop - d.start - c.memheapSize + (b.stop - b.start - c.memheapSize)) :
    Evolves c h (l ++ b :: d :: l') (growBlock h (payload 0 c.memheapSize b) b.start d.start
        (b.stop - b.start - c.memheapSize) n)
      (l ++ { b with stop := b.start + c.memheapSize + n } ::
        ⟨b.start + c.memheapSize + n, d.stop, false⟩ :: l') := by
  have hmini : memheapMinialloc = 12 := rfl
  have hhdr := c.le_memheapSize
  have hs := hc.shape
  have hpool := hs.pool_lt
  have hsmall := hs.small
  have htail := hs.tail_add
  rcases hs.behind with ⟨hbd, hstop, hdroom, _⟩
  have hbb := hs.tiles.bounds (b := b) (by simp)
  have hdb := hs.tiles.bounds (b := d) (by simp)
  have hle := hs.free_le
  have havail := hc.available
  have hplug := noTwoFree_append.mp hc.plugged
  have hbehind := (noTwoFree_append (l := [])).mp hplug.right.right.right
  rw [total_append, total_cons, total_cons, freeBytes_used hb, freeBytes_free hd] at havail hle
  have hsub : sub32 h.availableSize (sub32 n (b.stop - b.start - c.memheapSize)) =
      h.availableSize - (n - (b.stop - b.start - c.memheapSize)) := by
    have hn : sub32 n (b.stop - b.start - c.memheapSize) =
        n - (b.stop - b.start - c.memheapSize) := sub32_of_le (by omega) (by omega)
    rw [hn, sub32_of_le (by omega) (by omega)]
  have hcut : add32 (payload 0 c.memheapSize b) n = b.start + c.memheapSize + n := by
    unfold payload
    rw [Nat.zero_add, add32_of_lt (by omega)]
  generalize hplace : b.start + c.memheapSize + n = cut at *
  simp only [growBlock, hsub, hcut]
  have hcount := hc.reached.noteUsed (h.availableSize - (n - (b.stop - b.start - c.memheapSize)))
  have hnote := noteUsed_stats h
    (h.availableSize - (n - (b.stop - b.start - c.memheapSize))) (by omega) hpool
  generalize ({ h with availableSize := h.availableSize -
    (n - (b.stop - b.start - c.memheapSize)) } : RtMemheap).noteUsed = g at *
  have hremove := hcount.remove (x := d.start) ⟨d, by simp, hd, rfl⟩
  rw [unlink_eq_joinBlocks hremove.shape]
  have hstats : SameStats g (freeInsert (splitBlock (joinBlocks (freeRemove g d.start)
      b.start d.stop) b.start cut) cut) :=
    ((freeRemove_stats.trans joinBlocks_stats).trans splitBlock_stats).trans freeInsert_stats
  refine (hs.grow_lists hb hd hcount (by omega) (by omega)).evolves (fun x => Iff.rfl) ?_
    hstats ?_ ?_
  · exact noTwoFree_append.mpr ⟨hplug.left, fun _ _ => Or.inr hb, fun _ _ => Or.inl hb,
      List.isChain_cons.mpr ⟨fun x hx => by simpa [hd] using hbehind.right.right.left x hx,
        hbehind.right.right.right⟩⟩
  · have hzero : freeBytes c { b with stop := cut } = 0 := freeBytes_used hb
    rw [hnote.left, total_append, total_cons, total_cons, hzero, freeBytes_free rfl]
    simp only
    omega
  · rw [hnote.left]
    exact hnote.right

theorem Shape.oneMore_resized {r : List Block}
    (hs : Shape c h (l ++ b :: d :: l')) (hb : b.used = true) (hd : d.used = false)
    (hr : forall x, x ∈ r -> x.used = false) :
    OneMore (l ++ { b with used := false } :: d :: l')
      (l ++ { b with stop := cut } :: (r ++ l')) { b with stop := cut } := by
  have hhdr := c.le_memheapSize
  have hafter := hs.tiles.oneMore_replace (d := { b with stop := cut }) (r := r)
    (by omega) hb rfl hr
  apply hafter.then_same
  intro x hx
  have hne : x ≠ d := by
    rintro rfl
    rw [hd] at hx
    cases hx
  simp only [List.mem_append, List.mem_cons, hne, false_or]

theorem Consistent.grow (hc : Consistent c h (l ++ b :: d :: l')) (hb : b.used = true)
    (hd : d.used = false) (hlt : b.stop - b.start - c.memheapSize < n)
    (hfits : n + memheapMinialloc <
      d.stop - d.start - c.memheapSize + (b.stop - b.start - c.memheapSize)) :
    exists r, Resized c h l b (d :: l') (b.start + c.memheapSize + n)
      (growBlock h (payload 0 c.memheapSize b) b.start d.start
        (b.stop - b.start - c.memheapSize) n) r := by
  have hhdr := c.le_memheapSize
  exact ⟨_, hc.grow_evolves hb hd hlt hfits, hc.shape.tiles.oneMore_mark (by omega) hb,
    hc.shape.oneMore_resized (r := [⟨b.start + c.memheapSize + n, d.stop, false⟩]) hb hd
      (by simp)⟩

/-!
## The end is cut off
-/

theorem Reached.release_end {h0 g : RtMemheap} {l0 : List Block} {P : Nat -> Prop}
    {e : Nat} (hr : Reached c h0 l0 g (l ++ { b with stop := cut } ::
      ⟨cut, e, false⟩ :: l') P) (hb : b.used = true) (hnew : ¬ P cut)
    (hiff : forall x, P x <-> FreeStart l x ∨ FreeStart l' x)
    (hl : NoTwoFree l) (hl' : NoTwoFree l')
    (hend : forall x, x ∈ l'.head? -> x.used = true)
    (havail : g.availableSize = total (freeBytes c) l + total (freeBytes c) l')
    (hmax : h0.poolSize ≤ g.availableSize + (e - cut - c.memheapSize) + g.maxUsedSize) :
    Evolves c h0 l0 { freeInsert g cut with
        availableSize := add32 (freeInsert g cut).availableSize
          (memitemSize c (freeInsert g cut) cut) }
      (l ++ { b with stop := cut } :: ⟨cut, e, false⟩ :: l') := by
  have hinsert := hr.insert (b := ⟨cut, e, false⟩) (by simp) hnew
  have hstats : SameStats g (freeInsert g cut) := freeInsert_stats
  have hsize : memitemSize c (freeInsert g cut) cut = e - cut - c.memheapSize :=
    hinsert.shape.memitemSize_eq (b := ⟨cut, e, false⟩) (by simp)
  have hle := hinsert.shape.free_le
  have hlt := hinsert.shape.pool_lt
  have hzero : freeBytes c { b with stop := cut } = 0 := freeBytes_used hb
  have htotal : total (freeBytes c) (l ++ { b with stop := cut } ::
      ⟨cut, e, false⟩ :: l') = total (freeBytes c) l +
        (e - cut - c.memheapSize + total (freeBytes c) l') := by
    rw [total_append, total_cons, total_cons, hzero, freeBytes_free rfl, Nat.zero_add]
  rw [htotal] at hle
  rw [hsize, hstats.available, add32_of_lt (by omega)]
  refine (hinsert.counted (g.availableSize + (e - cut - c.memheapSize))
    (freeInsert g cut).maxUsedSize).evolves ?_ ?_ ⟨rfl, rfl⟩ ?_ ?_
  · intro x
    rw [hiff]
    simp only [freeStart_append, freeStart_cons, hb, Bool.true_eq_false, false_and,
      true_and, false_or, eq_comm (a := x)]
    exact or_left_comm
  · exact noTwoFree_append.mpr ⟨hl, fun _ _ => Or.inr hb, fun _ _ => Or.inl hb,
      List.isChain_cons.mpr ⟨fun x hx => Or.inr (hend x hx), hl'⟩⟩
  · rw [htotal]
    show g.availableSize + (e - cut - c.memheapSize) = _
    omega
  · show h0.poolSize ≤ g.availableSize + (e - cut - c.memheapSize) +
      (freeInsert g cut).maxUsedSize
    rw [hstats.maxUsed]
    exact hmax

theorem Consistent.shrink_used (hc : Consistent c h (l ++ b :: l'))
    (hb : b.used = true) (hcut : b.start + n + c.memheapSize = cut)
    (hhigh : cut + c.memheapSize ≤ b.stop)
    (hend : forall x, x ∈ l'.head? -> x.used = true) :
    Evolves c h (l ++ b :: l') (shrinkBlock c h b.start n)
      (l ++ { b with stop := cut } :: ⟨cut, b.stop, false⟩ :: l') := by
  have hs := hc.shape
  have hlow : b.start + c.memheapSize ≤ cut := by omega
  have hplug := noTwoFree_append.mp hc.plugged
  have havail := hc.available
  rw [total_append, total_cons, freeBytes_used hb] at havail
  have hsplit := hc.reached.split hlow hhigh
  have hstats : SameStats h (splitBlock h b.start cut) := splitBlock_stats
  unfold shrinkBlock
  simp only [hcut]
  generalize splitBlock h b.start cut = g at *
  have hg : Shape c g ((l ++ [{ b with stop := cut }]) ++ ⟨cut, b.stop, false⟩ :: l') := by
    simpa using hsplit.shape
  have hused : isUsed g (g.get cut Field.next) = true := hg.next_used hend
  rw [if_neg (not_not.mpr hused)]
  refine hsplit.release_end hb (hs.cut_not_freeStart (by simp) hlow hhigh) ?_ hplug.left
    hplug.right.right.right hend ?_ ?_
  · intro x
    simp [hb]
  · rw [hstats.available, havail, Nat.zero_add]
  · rw [hstats.available, hstats.maxUsed]
    have hmax := hc.maxUsed
    omega

theorem Consistent.shrink_free (hc : Consistent c h (l ++ b :: d :: l'))
    (hb : b.used = true) (hd : d.used = false)
    (hcut : b.start + n + c.memheapSize = cut) (hhigh : cut + c.memheapSize ≤ b.stop) :
    Evolves c h (l ++ b :: d :: l') (shrinkBlock c h b.start n)
      (l ++ { b with stop := cut } :: ⟨cut, d.stop, false⟩ :: l') := by
  have hs := hc.shape
  have hlow : b.start + c.memheapSize ≤ cut := by omega
  rcases hs.behind with ⟨hbd, hstop, hdroom, _⟩
  have hplug := noTwoFree_append.mp hc.plugged
  have hbehind := (noTwoFree_append (l := [])).mp hplug.right.right.right
  have havail := hc.available
  have hle := hs.free_le
  have hlt := hs.pool_lt
  rw [total_append, total_cons, total_cons, freeBytes_used hb, freeBytes_free hd] at havail hle
  have hsplit := hc.reached.split hlow hhigh
  have hstats : SameStats h (splitBlock h b.start cut) := splitBlock_stats
  unfold shrinkBlock
  simp only [hcut]
  generalize splitBlock h b.start cut = g at *
  have hlist : l ++ { b with stop := cut } :: ⟨cut, b.stop, false⟩ :: d :: l' =
      (l ++ [{ b with stop := cut }]) ++ ⟨cut, b.stop, false⟩ :: d :: l' := by simp
  rw [hlist] at hsplit
  have hnext : g.get cut Field.next = d.start := hsplit.shape.header.left.trans hstop
  have hfree : isUsed g d.start = false := by
    rw [hsplit.shape.isUsed_eq (b := d) (by simp), hd]
  have hsize : memitemSize c g d.start = d.stop - d.start - c.memheapSize :=
    hsplit.shape.memitemSize_eq (by simp)
  rw [hnext, if_pos (by rw [hfree]; decide), hsize]
  have hsub : sub32 g.availableSize (d.stop - d.start - c.memheapSize) =
      g.availableSize - (d.stop - d.start - c.memheapSize) := by
    rw [hstats.available]
    exact sub32_of_le (by omega) (by omega)
  have hcount := hsplit.counted (g.availableSize - (d.stop - d.start - c.memheapSize)) g.maxUsedSize
  rw [hsub]
  have hjoin := absorb_eq_joinBlocks hcount.shape
  have habsorb := hcount.absorb ⟨d, by simp, rfl⟩ ⟨d, by simp, hd, rfl⟩
  rw [hjoin]
  have hlist' : (l ++ [{ b with stop := cut }]) ++ ⟨cut, d.stop, false⟩ :: l' =
      l ++ { b with stop := cut } :: ⟨cut, d.stop, false⟩ :: l' := by simp
  rw [hlist'] at habsorb
  refine habsorb.release_end hb ?_ (fun x => hs.freeStart_behind hb) hplug.left
    hbehind.right.right.right ?_ ?_ ?_
  · intro hin
    exact hs.cut_not_freeStart (by simp) hlow hhigh hin.left
  · intro x hx
    simpa [hd] using hbehind.right.right.left x hx
  · show g.availableSize - (d.stop - d.start - c.memheapSize) = _
    rw [hstats.available, havail]
    omega
  · show h.poolSize ≤ g.availableSize - (d.stop - d.start - c.memheapSize) +
      (d.stop - cut - c.memheapSize) + g.maxUsedSize
    rw [hstats.available, hstats.maxUsed]
    have hmax := hc.maxUsed
    omega

theorem Consistent.shrink (hc : Consistent c h (l ++ b :: l')) (hb : b.used = true)
    (hroom : n + c.memheapSize + memheapMinialloc < b.stop - b.start - c.memheapSize) :
    exists r, Resized c h l b l' (b.start + n + c.memheapSize) (shrinkBlock c h b.start n) r := by
  have hhdr := c.le_memheapSize
  have hs := hc.shape
  generalize hcut : b.start + n + c.memheapSize = cut
  have hhigh : cut + c.memheapSize ≤ b.stop := by omega
  have hbefore := hs.tiles.oneMore_mark (by omega) hb
  by_cases hfree : exists d, d ∈ l'.head? ∧ d.used = false
  · rcases hfree with ⟨d, hhead, hd⟩
    rw [Option.mem_def, List.head?_eq_some_iff] at hhead
    rcases hhead with ⟨t, hl'⟩
    subst hl'
    exact ⟨_, hc.shrink_free hb hd hcut hhigh, hbefore,
      hs.oneMore_resized (r := [⟨cut, d.stop, false⟩]) hb hd (by simp)⟩
  · have hafter := hs.tiles.oneMore_replace (d := { b with stop := cut })
      (r := [⟨cut, b.stop, false⟩]) (by omega) hb rfl (by simp)
    refine ⟨_, hc.shrink_used hb hcut hhigh ?_, hbefore, hafter⟩
    intro x hx
    by_contra hxu
    exact hfree ⟨x, hx, by simpa using hxu⟩

end Resize

end MemHeap
end RtThread.Mem
