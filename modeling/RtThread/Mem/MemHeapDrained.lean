import RtThread.Mem.MemHeapFit

/-!
# Calls of a memory heap that return, and a heap that is given back

As long as no reallocation lets a size wrap around, every legal call returns, and when all
has been freed the pool is one free item again.
-/

namespace RtThread.Mem.MemHeap

open Kernel ByteMemory Tiling Transition

section Drained

variable {c : Config} {m : Memory} {self freeHeader startAddr poolSize : Nat} {s : State}
  {op : Op} {ops : List Op} {l : List Block}

theorem core_run (hp : Placed c self freeHeader startAddr poolSize)
    (hrun : Run (Guarded (fun s op => ¬ Overflows c s.heap op) (Graph (step c)))
      (boot (rtMemheapInit c m self freeHeader startAddr poolSize)) ops s) :
    SameCore (rtMemheapInit c m self freeHeader startAddr poolSize) s.heap := by
  rcases boot_sound (m := m) hp with ⟨l0, hs0, _⟩
  have hinv := hrun.invariant (fun s => (exists l, Sound c s l) ∧
    SameCore (rtMemheapInit c m self freeHeader startAddr poolSize) s.heap)
    ⟨⟨l0, hs0⟩, SameCore.refl⟩ (by
      rintro s op s' ⟨⟨l, hs⟩, hcore⟩ ⟨hok, hstep⟩
      rcases hs.step hok hstep with ⟨l', hnext⟩
      exact ⟨⟨l', hnext.sound⟩, hcore.trans hnext.core⟩)
  exact hinv.right

/-- After any legal calls none of which lets a size wrap around, the next legal call
returns: the magic numbers and the flags are those that the assertions ask for. -/
theorem memheap_calls_return (hp : Placed c self freeHeader startAddr poolSize)
    (hrun : Run (Guarded (fun s op => ¬ Overflows c s.heap op) (Graph (step c)))
      (boot (rtMemheapInit c m self freeHeader startAddr poolSize)) ops s)
    (hlegal : op.Legal s.live)
    (hwrite : forall p i v, op = Op.write p i v -> i < payloadSize c s.heap p) :
    exists s', step c s op = some s' := by
  rcases sound_run hp hrun with ⟨l, hs, _⟩
  exact hs.returns hlegal hwrite

/-- A pointer that was moved is reallocated once more. -/
theorem memheap_calls_return_moved :
    exists s s', Run (Guarded (fun s op => ¬ Overflows four s.heap op) (Graph (step four)))
        (boot smallPool) [Op.malloc 20, Op.malloc 12, Op.realloc (some 4120) 40] s ∧
      step four s (Op.realloc (some 4200) 60) = some s' := by
  have hexec : (exec (fun s op => if ¬ Overflows four s.heap op then step four s op
      else none) (boot smallPool)
      [Op.malloc 20, Op.malloc 12, Op.realloc (some 4120) 40]).map
        (fun s => decide ((Op.realloc (some 4200) 60).Legal s.live)) = some true := by
    decide +kernel
  rw [Option.map_eq_some_iff] at hexec
  rcases hexec with ⟨s, hexec, hlegal⟩
  have hrun := guarded_run_of_exec hexec
  have hwrite : forall p i v, Op.realloc (some 4200) 60 = Op.write p i v ->
      i < payloadSize four s.heap p := by
    intro p i v heq
    cases heq
  rcases memheap_calls_return smallPool_placed hrun (of_decide_eq_true hlegal) hwrite with
    ⟨s', hs'⟩
  exact ⟨s, s', hrun, hs'⟩

theorem Sound.single (hs : Sound c s l) (hnone : forall p, s.live p = none) :
    l = [⟨s.heap.startAddr, tail c s.heap, false⟩] := by
  apply hs.consistent.plugged.single hs.consistent.shape.tiles
  · have hadd := hs.consistent.shape.tail_add
    have hroom := hs.consistent.shape.room
    have hhdr := c.le_memheapSize
    omega
  · intro b hb
    cases hused : b.used with
    | false => rfl
    | true =>
      have hlive := (hs.live _).mpr ⟨b, hb, hused, rfl⟩
      rw [hnone] at hlive
      cases hlive

/-- When all has been freed, the pool is one free item again, all of it is available, and
every size below that can be had. -/
theorem memheap_drained (hp : Placed c self freeHeader startAddr poolSize)
    (hrun : Run (Guarded (fun s op => ¬ Overflows c s.heap op) (Graph (step c)))
      (boot (rtMemheapInit c m self freeHeader startAddr poolSize)) ops s)
    (hnone : forall p, s.live p = none) :
    HeapHolds c s
        [⟨startAddr, startAddr + rtAlignDown poolSize c.alignSize - c.memheapSize, false⟩] ∧
      s.heap.availableSize = rtAlignDown poolSize c.alignSize - 2 * c.memheapSize ∧
      forall size, c.allocSize size < s.heap.availableSize ->
        exists h' p, rtMemheapAlloc c s.heap size = some (h', some p) := by
  rcases sound_run hp hrun with ⟨l, hs, hi⟩
  have hcore := core_run hp hrun
  have hinit := rtMemheapInit_consistent (m := m) hp
  have hsingle : l = [⟨startAddr,
      startAddr + rtAlignDown poolSize c.alignSize - c.memheapSize, false⟩] := by
    rcases hinit.shape.tiles with ⟨hstart, _, hstop⟩
    have htail : _ = tail c (rtMemheapInit c m self freeHeader startAddr poolSize) := hstop
    rw [hs.single hnone, hcore.startAddr, hcore.tail_eq, ← hstart, ← htail]
  subst hsingle
  have havail := hs.consistent.available
  rw [total_cons, total_nil, freeBytes_free rfl] at havail
  refine ⟨hs.holds hi, ?_, ?_⟩
  · simp only at havail
    omega
  · intro size hlt
    rcases hs.consistent.alloc_iff size with ⟨h', r, hm, hiff, _⟩
    have hsome := hiff.mpr ⟨hlt, _, List.mem_singleton_self _, rfl, by
      simp only at havail ⊢
      omega⟩
    rcases Option.isSome_iff_exists.mp hsome with ⟨p, hr⟩
    subst hr
    exact ⟨h', p, hm⟩

end Drained

/-- Two blocks, of which one is moved, are freed. -/
theorem memheap_drained_moved :
    exists s, Run (Guarded (fun s op => ¬ Overflows four s.heap op) (Graph (step four)))
        (boot smallPool)
        [Op.malloc 20, Op.malloc 12, Op.realloc (some 4120) 40, Op.free (some 4164),
          Op.free (some 4200)] s ∧
      s.heap.availableSize = 208 ∧
      exists h' p, rtMemheapAlloc four s.heap 204 = some (h', some p) := by
  have hexec : (exec (fun s op => if ¬ Overflows four s.heap op then step four s op
      else none) (boot smallPool)
      [Op.malloc 20, Op.malloc 12, Op.realloc (some 4120) 40, Op.free (some 4164),
        Op.free (some 4200)]).map (fun s => (s.heap.startAddr, tail four s.heap,
          s.heap.get 4096 Field.next, isUsed s.heap 4096, s.heap.get 4096 Field.prev)) =
      some (4096, 4328, 4328, false, 4328) := by
    decide +kernel
  rw [Option.map_eq_some_iff] at hexec
  rcases hexec with ⟨s, hexec, hvalues⟩
  simp only [Prod.mk.injEq] at hvalues
  rcases hvalues with ⟨hstart, htail, hnext, hused, hprev⟩
  have hrun := guarded_run_of_exec hexec
  have hhdr : four.memheapSize = 24 := by decide
  have hnone : forall p, s.live p = none := by
    rcases sound_run smallPool_placed hrun with ⟨l, hs, _⟩
    have hshape := hs.consistent.shape
    have hone : l = [⟨4096, 4328, false⟩] := by
      refine Headers.unique (by omega) hshape.tiles ?_ (headers_append.mp hshape.headers).left
        ⟨hnext, hused, hprev, trivial⟩
      rw [hstart, htail, hhdr]
      exact ⟨rfl, by decide, rfl⟩
    subst hone
    intro p
    rw [← Option.not_isSome_iff_eq_none]
    intro hp
    rcases hs.block hp with ⟨b, hb, hb', _⟩
    rw [List.mem_singleton] at hb
    subst hb
    cases hb'
  rcases memheap_drained smallPool_placed hrun hnone with ⟨_, havail, hall⟩
  have hsize : rtAlignDown 256 four.alignSize = 256 := by decide
  have hreq : four.allocSize 204 = 204 := by decide
  rw [hsize, hhdr] at havail
  exact ⟨s, hrun, havail, hall 204 (by omega)⟩

end RtThread.Mem.MemHeap
