import RtThread.Mem.MemHeapExchange

/-!
# Callers of a memory heap

Every call of the heap takes a list of blocks whose used blocks are the live
pointers to another such list, and the holders keep their bytes, as long as no
reallocation of a live pointer lets a size wrap around.
-/

namespace RtThread.Mem.MemHeap

open Kernel ByteMemory Tiling

/-- The heap is the list of blocks `l`, and those in use are live. -/
structure Sound (c : Config) (s : State) (l : List Block) : Prop where
  consistent : Consistent c s.heap l
  live : Live 0 c.memheapSize l s.live

def Intact (c : Config) (s : State) (l : List Block) : Prop :=
  Kept 0 c.memheapSize s.heap.mem l s.live

/-- A size wraps around in a reallocation of a live pointer: the sum compared with the free
block behind is too small, or the request is cut down. -/
def Overflows (c : Config) (h : RtMemheap) : Op -> Prop
  | Op.realloc (some ptr) newsize =>
    let header := ptr - c.memheapSize
    let size := c.allocSize newsize
    let oldsize := memitemSize c h header
    newsize ≠ 0 ∧
      (oldsize < size ∧ isUsed h (h.get header Field.next) = false ∧
          2 ^ 32 ≤ size + memheapMinialloc ∨
        size + c.memheapSize + memheapMinialloc < oldsize ∧ size < newsize)
  | _ => False

instance (c : Config) (h : RtMemheap) (op : Op) : Decidable (Overflows c h op) := by
  unfold Overflows
  split
  · infer_instance
  · infer_instance

structure Next (c : Config) (s : State) (l : List Block) (s' : State)
    (l' : List Block) : Prop where
  core : SameCore s.heap s'.heap
  sound : Sound c s' l'
  intact : Intact c s l -> Intact c s' l'

section Steps

variable {c : Config} {s : State} {l l' : List Block} {b d : Block} {h' : RtMemheap}
  {o : Owner}

theorem Next.refl (hs : Sound c s l) : Next c s l s l :=
  ⟨SameCore.refl, hs, fun hi => hi⟩

variable {p newsize : Nat} {h : RtMemheap}

theorem Sound.block (hs : Sound c s l) (hp : (s.live p).isSome = true) :
    exists b, b ∈ l ∧ b.used = true ∧ p = payload 0 c.memheapSize b :=
  (hs.live p).mp hp

theorem Allocated.part {size : Nat} (ha : Allocated c h l size h' l' d) :
    forall x, x ∈ l' -> x.used = true -> exists y, y ∈ l ∧ y.start = x.start ∧
      x.stop ≤ y.stop := by
  intro x hx hxu
  rcases (ha.more.right.right x hxu).mp hx with hold | heq
  · exact ⟨x, hold, rfl, Nat.le_refl _⟩
  · rcases ha.place with ⟨y, hy, _, hstart, hle⟩
    rw [heq]
    exact ⟨y, hy, hstart, hle⟩

theorem Sound.malloc {size n : Nat} {r : Option Nat} (hs : Sound c s l)
    (hm : rtMemheapAlloc c s.heap size = some (h', r)) (hn : n ≤ c.allocSize size) :
    exists l', Next c s l ⟨h', s.live.malloc n r⟩ l' := by
  rcases rtMemheapAlloc_spec size hs.consistent with hnull | ⟨h1, l', d, hsome, ha⟩
  · rw [hnull] at hm
    cases hm
    exact ⟨l, Next.refl hs⟩
  · rw [hsome] at hm
    cases hm
    have hev := ha.evolves
    have hroom := ha.room
    refine ⟨l', hev.edit.core, ⟨hev.consistent, hs.live.add ha.more⟩, ?_⟩
    intro hi
    apply hev.edit.bytes.kept hs.consistent.shape.tiles hev.tiles ha.part
    exact hi.add ha.more (Keeps.fresh (by omega))

theorem Sound.free (hs : Sound c s l) (hb : b ∈ l) (hused : b.used = true) :
    exists h' l', rtMemheapFree c s.heap (some (payload 0 c.memheapSize b)) = some h' ∧
      Next c s l ⟨h', s.live.free (some (payload 0 c.memheapSize b))⟩ l' := by
  rcases List.append_of_mem hb with ⟨l1, l2, hl⟩
  subst hl
  rcases hs.consistent.release hused with ⟨h', l', hfree, hev, hone⟩
  refine ⟨h', l', hfree, hev.edit.core, ⟨hev.consistent, hs.live.remove hone⟩, ?_⟩
  intro hi
  apply hev.edit.bytes.kept hs.consistent.shape.tiles hev.tiles
  · intro x hx hxu
    exact ⟨x, (hone.right.right x hxu).mpr (Or.inl hx), rfl, Nat.le_refl _⟩
  · exact hi.remove hone

/-!
## Bytes in payloads
-/

theorem Shape.payloadSize_eq (hs : Shape c h l) (hb : b ∈ l) :
    payloadSize c h (payload 0 c.memheapSize b) = b.stop - b.start - c.memheapSize := by
  unfold payloadSize
  rw [header_of_payload, hs.next_eq hb]
  unfold payload
  omega

theorem Sound.write {i : Nat} {v : Byte} (hs : Sound c s l)
    (hp : (s.live p).isSome = true) (hi : i < payloadSize c s.heap p) :
    Next c s l ⟨{ s.heap with mem := Function.update s.heap.mem (p + i) v },
      s.live.write p i v⟩ l := by
  rcases hs.block hp with ⟨b, hb, hused, hpb⟩
  have ht := hs.consistent.shape.tiles
  have hhdr := c.le_memheapSize
  rw [hpb, hs.consistent.shape.payloadSize_eq hb] at hi
  have hroom : b.start + c.memheapSize + i < b.stop := by omega
  have hplace : p + i = b.start + c.memheapSize + i := by
    rw [hpb]
    unfold payload
    omega
  rw [hplace]
  refine ⟨⟨rfl, rfl, rfl, rfl⟩, ⟨hs.consistent.scribble ?_, hs.live.write⟩, ?_⟩
  · intro y hy
    apply Function.update_of_ne
    rintro rfl
    exact Tiles.payload_not_header ht hb (by omega) hroom hy
  · intro hint
    rw [hpb]
    exact hint.write ht (by omega) hb hused hroom

/-!
## Reallocation
-/

theorem Sound.exchanged (hs : Sound c s l) (hb : b ∈ l)
    (hused : b.used = true) (hex : Exchanged c s.heap l b newsize h' l' d)
    (hcut : ¬ Cuts c s.heap (payload 0 c.memheapSize b) newsize) :
    Next c s l ⟨h', s.live.move (payload 0 c.memheapSize b) newsize (c.allocSize newsize)
      (some (payload 0 c.memheapSize d))⟩ l' := by
  have hhdr := c.le_memheapSize
  have hone : forall x, x ∈ l -> x.start = b.start -> x = b := fun x hx heq =>
    hs.consistent.shape.tiles.eq_of_start (by omega) hx hb heq
  have hd : d ∈ l' := (hex.swapped.right d hex.swapped.left).mpr (Or.inr rfl)
  have hone' : forall x, x ∈ l' -> x.start = d.start -> x = d := fun x hx heq =>
    hex.consistent.shape.tiles.eq_of_start (by omega) hx hd heq
  have hlive := (hs.live _).mpr ⟨b, hb, hused, rfl⟩
  rw [Option.isSome_iff_exists] at hlive
  rcases hlive with ⟨o, hlive⟩
  have hroom := hex.room.mpr hcut
  simp only [Owners.move, hlive, Option.map_some]
  refine ⟨hex.core, ⟨hex.consistent, hs.live.swap hex.swapped hb hused hone⟩, ?_⟩
  intro hi
  refine hi.swap hex.swapped hone hone' hex.others ?_
  refine (hi b hb hused o hlive).resize hex.size ?_
  intro i hlt hold
  have hnew : d.start + c.memheapSize + i < d.stop := by omega
  exact ⟨hnew, hex.bytes i hlt hold hnew⟩

theorem overflows_of (hpos : newsize ≠ 0) (hw : Wraps c h p newsize ∨ Cuts c h p newsize) :
    Overflows c h (Op.realloc (some p) newsize) := by
  refine ⟨hpos, ?_⟩
  rcases hw with ⟨hlt, hext, hwrap⟩ | ⟨hlt, hcut⟩
  · exact Or.inl ⟨hlt, hext.left, hwrap⟩
  · exact Or.inr ⟨hlt, hcut⟩

theorem Sound.realloc {r : Option Nat} (hs : Sound c s l)
    (hb : b ∈ l) (hused : b.used = true) (hpos : newsize ≠ 0)
    (hok : ¬ Overflows c s.heap (Op.realloc (some (payload 0 c.memheapSize b)) newsize))
    (hr : rtMemheapRealloc c s.heap (some (payload 0 c.memheapSize b)) newsize = some (h', r)) :
    exists l', Next c s l ⟨h', s.live.move (payload 0 c.memheapSize b) newsize
      (c.allocSize newsize) r⟩ l' := by
  have hnowrap : ¬ Wraps c s.heap (payload 0 c.memheapSize b) newsize :=
    fun hw => hok (overflows_of hpos (Or.inl hw))
  have hnocut : ¬ Cuts c s.heap (payload 0 c.memheapSize b) newsize :=
    fun hcut => hok (overflows_of hpos (Or.inr hcut))
  rcases hs.consistent.realloc_cases hb hused hpos hnowrap with
    ⟨hnull, _⟩ | ⟨_, h1, l', d, hsome, hex⟩
  · cases hnull.symm.trans hr
    exact ⟨l, Next.refl hs⟩
  · cases hsome.symm.trans hr
    exact ⟨l', hs.exchanged hb hused hex hnocut⟩

theorem Sound.step {s' : State} {op : Op} (hs : Sound c s l)
    (hok : ¬ Overflows c s.heap op) (hstep : step c s op = some s') :
    exists l', Next c s l s' l' := by
  unfold MemHeap.step at hstep
  split at hstep
  · rename_i hlegal
    have hlive := hlegal.right
    cases op with
    | malloc size =>
      simp only [act, Option.map_eq_some_iff] at hstep
      rcases hstep with ⟨⟨h', r⟩, hm, hs'⟩
      subst hs'
      exact hs.malloc hm (Nat.le_refl _)
    | free rmem =>
      simp only [act, Option.map_eq_some_iff] at hstep
      rcases hstep with ⟨h', hm, hs'⟩
      subst hs'
      cases rmem with
      | none =>
        cases hm
        exact ⟨l, Next.refl hs⟩
      | some p =>
        rcases hs.block (hlive p rfl) with ⟨b, hb, hused, hpb⟩
        subst hpb
        rcases hs.free hb hused with ⟨h2, l', hfree, hnext⟩
        rw [hfree] at hm
        cases hm
        exact ⟨l', hnext⟩
    | realloc rmem newsize =>
      cases rmem with
      | none =>
        simp only [act, Option.map_eq_some_iff] at hstep
        rcases hstep with ⟨⟨h', r⟩, hm, hs'⟩
        subst hs'
        simp only [rtMemheapRealloc] at hm
        split at hm
        · cases hm
          exact ⟨l, Next.refl hs⟩
        · exact hs.malloc hm (c.allocSize_le_again newsize)
      | some p =>
        simp only [act, Option.map_eq_some_iff] at hstep
        rcases hstep with ⟨⟨h', r⟩, hm, hs'⟩
        subst hs'
        rcases hs.block (hlive p rfl) with ⟨b, hb, hused, hpb⟩
        subst hpb
        by_cases hzero : newsize = 0
        · rcases hs.free hb hused with ⟨h2, l', hfree, hnext⟩
          simp only [rtMemheapRealloc, if_pos hzero, hfree, Option.map_some] at hm
          cases hm
          rw [if_pos hzero]
          exact ⟨l', hnext⟩
        · rw [if_neg hzero]
          exact hs.realloc hb hused hzero hok hm
    | write p i v =>
      simp only [act] at hstep
      split at hstep
      · rename_i hi
        cases hstep
        exact ⟨l, hs.write (hlive p rfl) hi⟩
      · cases hstep
  · cases hstep

/-!
## Every call returns
-/

theorem rtMemheapAlloc_returns (size : Nat) (hc : Consistent c s.heap l) :
    exists r, rtMemheapAlloc c s.heap size = some r := by
  rcases rtMemheapAlloc_spec size hc with hnull | ⟨h', l', d, hsome, _⟩
  · exact ⟨_, hnull⟩
  · exact ⟨_, hsome⟩

theorem Sound.realloc_returns (newsize : Nat) (hs : Sound c s l) (hb : b ∈ l)
    (hused : b.used = true) :
    exists r, rtMemheapRealloc c s.heap (some (payload 0 c.memheapSize b)) newsize = some r := by
  by_cases hzero : newsize = 0
  · rcases hs.free hb hused with ⟨h', l', hfree, _⟩
    simp only [rtMemheapRealloc, if_pos hzero, hfree, Option.map_some]
    exact ⟨_, rfl⟩
  · by_cases hw : Wraps c s.heap (payload 0 c.memheapSize b) newsize
    · rcases hs.consistent.realloc_wraps hb hzero hw with ⟨h', hr, _⟩
      exact ⟨_, hr⟩
    · rcases hs.consistent.realloc_cases hb hused hzero hw with
        ⟨hr, _⟩ | ⟨_, h', l', d, hr, _⟩
      · exact ⟨_, hr⟩
      · exact ⟨_, hr⟩

theorem Sound.returns {op : Op} (hs : Sound c s l) (hlegal : op.Legal s.live)
    (hwrite : forall p i v, op = Op.write p i v -> i < payloadSize c s.heap p) :
    exists s', MemHeap.step c s op = some s' := by
  unfold MemHeap.step
  rw [if_pos hlegal]
  cases op with
  | malloc size =>
    rcases rtMemheapAlloc_returns size hs.consistent with ⟨r, hr⟩
    simp only [act, hr]
    exact ⟨_, rfl⟩
  | free rmem =>
    cases rmem with
    | none => exact ⟨_, rfl⟩
    | some p =>
      rcases hs.block (hlegal.right p rfl) with ⟨b, hb, hused, hpb⟩
      subst hpb
      rcases hs.free hb hused with ⟨h', l', hfree, _⟩
      simp only [act, hfree]
      exact ⟨_, rfl⟩
  | realloc rmem newsize =>
    cases rmem with
    | none =>
      rcases rtMemheapAlloc_returns (c.allocSize newsize) hs.consistent with ⟨r, hr⟩
      simp only [act, rtMemheapRealloc, hr]
      split
      · exact ⟨_, rfl⟩
      · exact ⟨_, rfl⟩
    | some p =>
      rcases hs.block (hlegal.right p rfl) with ⟨b, hb, hused, hpb⟩
      subst hpb
      rcases hs.realloc_returns newsize hb hused with ⟨r, hr⟩
      simp only [act, hr]
      exact ⟨_, rfl⟩
  | write p i v =>
    simp only [act]
    rw [if_pos (hwrite p i v rfl)]
    exact ⟨_, rfl⟩

end Steps

end RtThread.Mem.MemHeap
