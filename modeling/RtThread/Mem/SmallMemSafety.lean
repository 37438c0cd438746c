import RtThread.Mem.SmallMemHeap

/-!
# Callers of the small memory heap

Every call of the heap takes a list of blocks whose used blocks are the live
pointers to another such list, and as long as no request exceeds the heap the
holders keep their bytes.
-/

namespace RtThread.Mem.SmallMem

open Kernel ByteMemory Tiling Transition
open Function (update update_comm update_of_ne)

/-- The heap is the list of blocks `l`, and those in use are live. -/
structure Sound (c : Config) (s : State) (l : List Block) : Prop where
  consistent : Consistent c s.heap l
  live : Live s.heap.heapPtr c.sizeofStructMem l s.live

/-- The call cuts off the end of a block that lies below `lfree`, and the block
behind it is in use. -/
def HidesFree (c : Config) (h : Heap) : Op -> Prop
  | Op.realloc (some rmem) newsize =>
    let mem := rmem - c.sizeofStructMem - h.heapPtr
    let next := h.get mem Field.next
    let size := rtAlign newsize c.alignSize
    size ≤ h.memSizeAligned ∧
      size + c.sizeofStructMem + minSize < next - mem - c.sizeofStructMem ∧
      mem < h.lfree ∧ h.get next Field.used ≠ 0
  | _ => False

def Intact (c : Config) (s : State) (l : List Block) : Prop :=
  Kept s.heap.heapPtr c.sizeofStructMem s.heap.mem l s.live

/-- A step preserves the list of blocks always, the bytes when `Fits` holds, and that
`lfree` is the lowest free block exactly when `Seen` does. -/
structure Next (c : Config) (s : State) (l : List Block) (s' : State)
    (l' : List Block) (Fits Seen : Prop) : Prop where
  heapPtr : s'.heap.heapPtr = s.heap.heapPtr
  memSizeAligned : s'.heap.memSizeAligned = s.heap.memSizeAligned
  sound : Sound c s' l'
  intact : Fits -> Intact c s l -> Intact c s' l'
  lowest : Lowest c s.heap l -> (Lowest c s'.heap l' <-> Seen)

section Steps

variable {c : Config} {s : State} {l l' : List Block} {b d : Block}
  {h' : Heap} {Fits Seen : Prop}

theorem Next.refl (hs : Sound c s l) (hseen : Seen) : Next c s l s l Fits Seen :=
  ⟨rfl, rfl, hs, fun _ hi => hi, fun hl => ⟨fun _ => hseen, fun _ => hl⟩⟩

theorem Sound.block {p : Nat} (hs : Sound c s l) (hp : (s.live p).isSome = true) :
    exists b, b ∈ l ∧ b.used = true ∧ p = payload s.heap.heapPtr c.sizeofStructMem b :=
  (hs.live p).mp hp

variable {h : Heap} {size n newsize : Nat} {r : Option Nat} {o : Owner}

theorem Allocated.part (ha : Allocated c h l size h' l' d) :
    forall x, x ∈ l' -> x.used = true -> exists y, y ∈ l ∧ y.start = x.start ∧
      x.stop ≤ y.stop := by
  intro x hx hxu
  rcases (ha.more.right.right x hxu).mp hx with hold | heq
  · exact ⟨x, hold, rfl, Nat.le_refl _⟩
  · rcases ha.place with ⟨y, hy, _, hstart, hle⟩
    rw [heq]
    exact ⟨y, hy, hstart, hle⟩

theorem Sound.malloc (Fits : Prop) (hs : Sound c s l) (hm : rtMalloc c s.heap size = some (h', r))
    (hn : Fits -> n ≤ c.dataSize (rtAlign size c.alignSize)) :
    exists l', Next c s l ⟨h', s.live.malloc n r⟩ l' Fits True := by
  rcases rtMalloc_spec hs.consistent hm with ⟨hr, hh⟩ | ⟨l', d, hr, ha⟩
  · subst hr hh
    exact ⟨l, Next.refl hs trivial⟩
  · subst hr
    have hev := ha.evolves
    refine ⟨l', hev.heapPtr, hev.memSizeAligned, ⟨hev.consistent, ?_⟩, ?_,
      fun hl => iff_of_true (ha.lowest hl) trivial⟩
    · show Live h'.heapPtr _ l' _
      rw [hev.heapPtr]
      exact hs.live.add ha.more
    · intro hfits hi
      have hle := hn hfits
      have hroom := ha.room
      show Kept h'.heapPtr _ h'.mem l' _
      rw [hev.heapPtr]
      have ht' := hev.consistent.shape.tiles
      rw [hev.heapEnd] at ht'
      apply hev.bytes.kept hs.consistent.shape.tiles ht' ha.part
      exact hi.add ha.more (Keeps.fresh (by omega))

theorem Sound.free (Fits : Prop) (hs : Sound c s l) (hb : b ∈ l) (hused : b.used = true) :
    exists h' l', rtFree c s.heap (some (payload s.heap.heapPtr c.sizeofStructMem b)) = some h' ∧
      OneMore l' l b ∧
      Next c s l ⟨h', s.live.free
        (some (payload s.heap.heapPtr c.sizeofStructMem b))⟩ l' Fits True := by
  rcases rtFree_spec hs.consistent hb hused with ⟨h', l', hfree, hev, hone, hlow⟩
  refine ⟨h', l', hfree, hone, hev.heapPtr, hev.memSizeAligned,
    ⟨hev.consistent, ?_⟩, ?_, fun hl => iff_of_true (hlow hl) trivial⟩
  · show Live h'.heapPtr _ l' _
    rw [hev.heapPtr]
    exact hs.live.remove hone
  · intro _ hi
    show Kept h'.heapPtr _ h'.mem l' _
    rw [hev.heapPtr]
    have ht' := hev.consistent.shape.tiles
    rw [hev.heapEnd] at ht'
    apply hev.bytes.kept hs.consistent.shape.tiles ht'
    · intro x hx hxu
      exact ⟨x, (hone.right.right x hxu).mpr (Or.inl hx), rfl, Nat.le_refl _⟩
    · exact hi.remove hone

theorem Consistent.scribble {m : Memory} (hc : Consistent c h l)
    (hsame : forall y, InHeader c.sizeofStructMem l 0 (h.heapEnd c) y ->
      m y = h.mem y) : Consistent c { h with mem := m } l :=
  ⟨hc.shape.of_headers rfl rfl hsame, hc.stamped.of_headers hsame, hc.plugged,
    hc.usedMem, hc.inside, hc.lfree⟩

theorem Sound.write {p i : Nat} {v : Byte} (hs : Sound c s l)
    (hp : (s.live p).isSome = true) (hi : i < payloadSize c s.heap p) :
    Next c s l ⟨{ s.heap with
        mem := update s.heap.mem (p - s.heap.heapPtr + i) v },
      s.live.write p i v⟩ l Fits True := by
  rcases hs.block hp with ⟨b, hb, hused, hpb⟩
  have ht := hs.consistent.shape.tiles
  have hbd := ht.bounds hb
  have hplace : p - s.heap.heapPtr + i = b.start + c.sizeofStructMem + i := by
    rw [hpb]
    unfold payload
    omega
  have hroom : b.start + c.sizeofStructMem + i < b.stop := by
    unfold payloadSize at hi
    rw [hpb, header_of_payload, hs.consistent.shape.next_eq hb] at hi
    unfold payload at hi
    omega
  have hhdr := c.le_sizeof
  rw [hplace]
  refine ⟨rfl, rfl, ⟨hs.consistent.scribble ?_, hs.live.write⟩, ?_,
    fun hl => iff_of_true hl trivial⟩
  · intro y hy
    apply update_of_ne
    rintro rfl
    exact Tiles.payload_not_header ht hb (by omega) hroom hy
  · intro _ hint
    rw [hpb]
    exact hint.write ht (by omega) hb hused hroom

theorem Sound.keep (hs : Sound c s l) (hb : b ∈ l) (hused : b.used = true)
    (hlive : s.live (payload s.heap.heapPtr c.sizeofStructMem b) = some o)
    (hfit : Fits -> b.start + c.sizeofStructMem + newsize ≤ b.stop)
    (hseen : Seen) :
    Next c s l ⟨s.heap, s.live.move (payload s.heap.heapPtr c.sizeofStructMem b)
      newsize newsize (some (payload s.heap.heapPtr c.sizeofStructMem b))⟩ l
      Fits Seen := by
  have hhdr := c.le_sizeof
  rcases List.append_of_mem hb with ⟨l1, l2, hl⟩
  subst hl
  have hone := hs.consistent.shape.tiles.oneMore_mark (by omega) hused
  unfold Owners.move
  rw [hlive]
  refine ⟨rfl, rfl, ⟨hs.consistent, hs.live.replace hone hone rfl⟩, ?_,
    fun hl => ⟨fun _ => hseen, fun _ => hl⟩⟩
  intro hfits hi
  have hkeeps := hi b hb hused o hlive
  exact hi.replace hone hone rfl (hkeeps.resize (hfit hfits) fun _ _ hlt => ⟨hlt, rfl⟩)

theorem Sound.shrink {l1 l2 r : List Block} (hs : Sound c s (l1 ++ b :: l2)) (hused : b.used = true)
    (hlive : s.live (payload s.heap.heapPtr c.sizeofStructMem b) = some o)
    (hfit : Fits -> newsize ≤ n)
    (hroom : b.start + c.sizeofStructMem + n ≤ b.stop)
    (hshrunk : Shrunk c s.heap l1 b l2 (b.start + c.sizeofStructMem + n) h' r)
    (hseen : Seen <-> ¬ (b.start < s.heap.lfree ∧ s.heap.get b.stop Field.used ≠ 0)) :
    Next c s (l1 ++ b :: l2) ⟨h', s.live.move
      (payload s.heap.heapPtr c.sizeofStructMem b) newsize newsize
      (some (payload s.heap.heapPtr c.sizeofStructMem b))⟩ r Fits Seen := by
  have hev := hshrunk.evolves
  have hstart : ({ b with stop := b.start + c.sizeofStructMem + n } : Block).start =
      b.start := rfl
  unfold Owners.move
  rw [hlive]
  refine ⟨hev.heapPtr, hev.memSizeAligned, ⟨hev.consistent, ?_⟩, ?_,
    fun hl => (hshrunk.lowest hl).trans hseen.symm⟩
  · show Live h'.heapPtr _ r _
    rw [hev.heapPtr]
    exact hs.live.replace hshrunk.before hshrunk.after hstart
  · intro hfits hi
    have hle := hfit hfits
    have hkeeps := hi b (by simp) hused o hlive
    show Kept h'.heapPtr _ h'.mem r _
    rw [hev.heapPtr]
    have ht' := hev.consistent.shape.tiles
    rw [hev.heapEnd] at ht'
    apply hev.bytes.kept hs.consistent.shape.tiles ht'
    · intro x hx hxu
      rcases (hshrunk.after.right.right x hxu).mp hx with hold | heq
      · exact ⟨x, (hshrunk.before.right.right x hxu).mpr (Or.inl hold), rfl, Nat.le_refl _⟩
      · rw [heq]
        exact ⟨b, by simp, rfl, hroom⟩
    · refine hi.replace hshrunk.before hshrunk.after hstart ?_
      apply hkeeps.resize
      · show b.start + c.sizeofStructMem + newsize ≤ b.start + c.sizeofStructMem + n
        omega
      · intro i hi _
        refine ⟨?_, rfl⟩
        show b.start + c.sizeofStructMem + i < b.start + c.sizeofStructMem + n
        omega

theorem Allocated.copied (Fits : Prop) (newsize : Nat) (hs : Sound c s l) (hb : b ∈ l)
    (hused : b.used = true)
    (hlive : s.live (payload s.heap.heapPtr c.sizeofStructMem b) = some o)
    (ha : Allocated c s.heap l size h' l' d)
    (hn : n ≤ size) (hbn : b.start + c.sizeofStructMem + n ≤ b.stop)
    (hfit : Fits -> newsize ≤ size)
    (hcommon : Fits -> forall i, i < newsize -> b.start + c.sizeofStructMem + i < b.stop -> i < n) :
    Next c s l ⟨rtMemcpy h' (d.start + c.sizeofStructMem) (b.start + c.sizeofStructMem) n,
      update s.live (payload s.heap.heapPtr c.sizeofStructMem d)
        (some (o.resize newsize newsize))⟩ l' Fits True := by
  have hev := ha.evolves
  have hhdr := c.le_sizeof
  have hroom := ha.room
  have ht := hs.consistent.shape.tiles
  have ht' := hev.consistent.shape.tiles
  have hd : d ∈ l' := (ha.more.right.right d ha.more.left).mpr (Or.inr rfl)
  have hkept : forall x, x ∈ l -> x.used = true ->
      x ∈ l' ∧ (x.stop ≤ d.start ∨ d.stop ≤ x.start) := by
    intro x hx hxu
    have hx' := (ha.more.right.right x hxu).mpr (Or.inl hx)
    refine ⟨hx', ?_⟩
    rcases ht'.eq_or_apart hx' hd with heq | hapart
    · exact absurd (congrArg Block.start heq) (ha.more.right.left x hx hxu)
    · exact hapart
  have hbytes : forall x, x ∈ l -> x.used = true -> forall y,
      x.start + c.sizeofStructMem ≤ y -> y < x.stop -> h'.mem y = s.heap.mem y := by
    intro x hx hxu y hle hlt
    rw [hev.heapEnd] at ht'
    exact hev.bytes y (Tiles.payload_not_header ht hx hle hlt)
      (Tiles.payload_not_header ht' (hkept x hx hxu).left hle hlt)
  refine ⟨hev.heapPtr, hev.memSizeAligned, ⟨hev.consistent.scribble ?_, ?_⟩, ?_,
    fun hl => iff_of_true (ha.lowest hl) trivial⟩
  · intro y hy
    exact Tiles.copy_header ht' hd (by omega) hy
  · show Live h'.heapPtr _ l' _
    rw [hev.heapPtr]
    exact hs.live.add ha.more
  · intro hfits hi
    have hle := hfit hfits
    show Kept h'.heapPtr _ _ l' _
    rw [hev.heapPtr]
    have hcopy : Kept s.heap.heapPtr c.sizeofStructMem (copy h'.mem (d.start + c.sizeofStructMem)
          (b.start + c.sizeofStructMem) n) l s.live := by
      apply hi.frame
      intro x hx hxu y hxy hlt
      have hapart := (hkept x hx hxu).right
      have hxb := ht.bounds hx
      have hdb := ht'.bounds hd
      rw [copy_outside (by omega)]
      exact hbytes x hx hxu y hxy hlt
    refine hcopy.add ha.more ?_
    apply (hi b hb hused o hlive).resize
    · omega
    · intro i hin hlt
      have hapart := (hkept b hb hused).right
      have hin' := hcommon hfits i hin hlt
      rw [copy_inside (by omega) hin']
      exact ⟨by omega, hbytes b hb hused _ (by omega) hlt⟩

theorem Sound.relocate (hs : Sound c s l) (hb : b ∈ l) (hused : b.used = true)
    (hlive : s.live (payload s.heap.heapPtr c.sizeofStructMem b) = some o)
    (hn : n ≤ s.heap.memSizeAligned) (hfit : Fits -> newsize ≤ n) (hseen : Seen)
    (hr : relocate c s.heap (payload s.heap.heapPtr c.sizeofStructMem b)
      (b.stop - b.start - c.sizeofStructMem) n = some (h', r)) :
    exists l', Next c s l ⟨h', s.live.move
      (payload s.heap.heapPtr c.sizeofStructMem b) newsize newsize r⟩ l' Fits Seen := by
  have hbd := hs.consistent.shape.tiles.bounds hb
  have hn' := hs.consistent.shape.le_rtAlign hn
  have hdata := (c.le_dataSize (rtAlign n c.alignSize)).left
  unfold SmallMem.relocate at hr
  cases hm : rtMalloc c s.heap n with
  | none =>
    rw [hm] at hr
    cases hr
  | some res =>
    rcases res with ⟨h1, nmem⟩
    rw [hm] at hr
    rcases rtMalloc_spec hs.consistent hm with ⟨hnull, hsame⟩ | ⟨l1, d, hptr, ha⟩
    · subst hnull hsame
      cases hr
      exact ⟨l, Next.refl hs hseen⟩
    · subst hptr
      simp only at hr
      have hev := ha.evolves
      have hdst : payload s.heap.heapPtr c.sizeofStructMem d - h1.heapPtr =
          d.start + c.sizeofStructMem := by
        rw [hev.heapPtr]
        unfold payload
        omega
      have hsrc : payload s.heap.heapPtr c.sizeofStructMem b - h1.heapPtr =
          b.start + c.sizeofStructMem := by
        rw [hev.heapPtr]
        unfold payload
        omega
      rw [hdst, hsrc] at hr
      generalize hk : (if b.stop - b.start - c.sizeofStructMem < n then
        b.stop - b.start - c.sizeofStructMem else n) = k at hr
      have hkn : k ≤ n ∧ k ≤ b.stop - b.start - c.sizeofStructMem ∧
          (k = n ∨ k = b.stop - b.start - c.sizeofStructMem) := by
        rw [← hk]
        split
        · omega
        · omega
      have hnext := ha.copied Fits newsize (n := k) hs hb
        hused hlive (by omega) (by omega) (by intro hf; have := hfit hf; omega)
        (by
          intro hf i hi hlt
          have hle := hfit hf
          omega)
      have hb1 : b ∈ l1 := (ha.more.right.right b hused).mpr (Or.inl hb)
      rcases hnext.sound.free Fits hb1 hused with
        ⟨h3, l3, hfree, _, hnext3⟩
      have hbase : (rtMemcpy h1 (d.start + c.sizeofStructMem)
          (b.start + c.sizeofStructMem) k).heapPtr = s.heap.heapPtr := hev.heapPtr
      simp only [hbase] at hfree hnext3
      rw [hfree, Option.map_some] at hr
      cases hr
      have hne : payload s.heap.heapPtr c.sizeofStructMem d ≠
          payload s.heap.heapPtr c.sizeofStructMem b := by
        have hstart := ha.more.right.left b hb hused
        unfold payload
        omega
      have hmove : s.live.move (payload s.heap.heapPtr c.sizeofStructMem b) newsize newsize
          (some (payload s.heap.heapPtr c.sizeofStructMem d)) =
          Owners.free (update s.live (payload s.heap.heapPtr c.sizeofStructMem d)
            (some (o.resize newsize newsize)))
            (some (payload s.heap.heapPtr c.sizeofStructMem b)) := by
        unfold Owners.move Owners.free
        rw [hlive]
        exact update_comm hne.symm _ _ _
      rw [hmove]
      refine ⟨l3, hnext3.heapPtr.trans hnext.heapPtr,
        hnext3.memSizeAligned.trans hnext.memSizeAligned, hnext3.sound, ?_, ?_⟩
      · intro hf hi
        exact hnext3.intact hf (hnext.intact hf hi)
      · intro hl
        have hl1 := (hnext.lowest hl).mpr trivial
        exact iff_of_true ((hnext3.lowest hl1).mpr trivial) hseen

theorem Shape.payload_span (hs : Shape c h l) (hb : b ∈ l) :
    sub32 (sub32 (h.get b.start Field.next) b.start) c.sizeofStructMem =
      b.stop - b.start - c.sizeofStructMem := by
  have hbd := hs.tiles.bounds hb
  have hstop := hs.stop_lt hb
  rw [hs.span hb]
  exact sub32_of_le (by omega) (by omega)

theorem Sound.realloc (hs : Sound c s l) (hb : b ∈ l) (hused : b.used = true)
    (hr : rtRealloc c s.heap (some (payload s.heap.heapPtr c.sizeofStructMem b)) newsize =
        some (h', r)) :
    exists l', Next c s l ⟨h', s.live.move
      (payload s.heap.heapPtr c.sizeofStructMem b) newsize newsize r⟩ l'
      (newsize ≤ s.heap.memSizeAligned)
      (¬ HidesFree c s.heap (Op.realloc
        (some (payload s.heap.heapPtr c.sizeofStructMem b)) newsize)) := by
  have hshape := hs.consistent.shape
  have hbd := hshape.tiles.bounds hb
  have hin := hs.consistent.inside b hb hused
  have hlive := (hs.live _).mpr ⟨b, hb, hused, rfl⟩
  rw [Option.isSome_iff_exists] at hlive
  rcases hlive with ⟨o, hlive⟩
  have hfit : newsize ≤ s.heap.memSizeAligned ->
      newsize ≤ rtAlign newsize c.alignSize := hshape.le_rtAlign
  have hhides : HidesFree c s.heap (Op.realloc
      (some (payload s.heap.heapPtr c.sizeofStructMem b)) newsize) <->
      rtAlign newsize c.alignSize ≤ s.heap.memSizeAligned ∧
        rtAlign newsize c.alignSize + c.sizeofStructMem + minSize <
          b.stop - b.start - c.sizeofStructMem ∧
        b.start < s.heap.lfree ∧ s.heap.get b.stop Field.used ≠ 0 := by
    simp only [HidesFree, header_of_payload, hshape.next_eq hb]
  simp only [rtRealloc] at hr
  split at hr
  · rename_i hlarge
    cases hr
    refine ⟨l, Next.refl hs ?_⟩
    rw [hhides]
    omega
  · rename_i hle
    rw [if_neg (by unfold payload; omega), header_of_payload, hshape.payload_span hb] at hr
    split at hr
    · rename_i hsame
      cases hr
      refine ⟨l, hs.keep hb hused hlive ?_ ?_⟩
      · intro hf
        have := hfit hf
        omega
      · rw [hhides]
        omega
    · split at hr
      · rename_i hroom
        rcases List.append_of_mem hb with ⟨l1, l2, hl⟩
        subst hl
        rcases shrink_spec hs.consistent hused (rtAlign_mod _ _) hroom with
          ⟨h2, r2, hshrink, hshrunk⟩
        rw [hshrink, Option.map_some] at hr
        cases hr
        refine ⟨r2, hs.shrink hused hlive hfit (by omega) hshrunk ?_⟩
        rw [hhides]
        constructor
        · intro hnot hbad
          exact hnot ⟨by omega, hroom, hbad⟩
        · intro hnot hbad
          exact hnot hbad.right.right
      · rename_i hroom
        apply hs.relocate hb hused hlive (by omega) hfit _ hr
        rw [hhides]
        intro hbad
        exact hroom hbad.right.left

theorem Sound.reallocNull (hs : Sound c s l) (hr : rtRealloc c s.heap none newsize = some (h', r)) :
    exists l', Next c s l ⟨h', s.live.malloc newsize r⟩ l'
      (newsize ≤ s.heap.memSizeAligned) True := by
  simp only [rtRealloc] at hr
  split at hr
  · cases hr
    exact ⟨l, Next.refl hs trivial⟩
  · rename_i hle
    apply hs.malloc _ hr
    intro hfits
    have hshape := hs.consistent.shape
    calc newsize ≤ rtAlign newsize c.alignSize := hshape.le_rtAlign hfits
      _ ≤ rtAlign (rtAlign newsize c.alignSize) c.alignSize :=
        hshape.le_rtAlign (by omega)
      _ ≤ c.dataSize (rtAlign (rtAlign newsize c.alignSize) c.alignSize) :=
        (c.le_dataSize _).left

theorem Sound.step {s' : State} {op : Op} (hs : Sound c s l) (hstep : step c s op = some s') :
    exists l', Next c s l s' l' (op.request ≤ s.heap.memSizeAligned)
      (¬ HidesFree c s.heap op) := by
  unfold SmallMem.step at hstep
  split at hstep
  · rename_i hlegal
    have hlive := hlegal.right
    have hquiet : forall {l' : List Block} {F : Prop},
        Next c s l s' l' F True -> Next c s l s' l' F (¬ False) := by
      intro l' F hnext
      rwa [not_false_iff]
    cases op with
    | malloc size =>
      simp only [act, Option.map_eq_some_iff] at hstep
      rcases hstep with ⟨⟨h', r⟩, hm, hs'⟩
      subst hs'
      have hnext := hs.malloc (size ≤ s.heap.memSizeAligned) hm (by
        intro hfits
        have hle := hs.consistent.shape.le_rtAlign hfits
        exact Nat.le_trans hle (c.le_dataSize _).left)
      rcases hnext with ⟨l', hnext⟩
      exact ⟨l', hquiet hnext⟩
    | free rmem =>
      simp only [act, Option.map_eq_some_iff] at hstep
      rcases hstep with ⟨h', hm, hs'⟩
      subst hs'
      cases rmem with
      | none =>
        cases hm
        exact ⟨l, hquiet (Next.refl hs trivial)⟩
      | some p =>
        rcases hs.block (hlive p rfl) with ⟨b, hb, hused, hpb⟩
        subst hpb
        rcases hs.free _ hb hused with ⟨h2, l', hfree, _, hnext⟩
        rw [hfree] at hm
        cases hm
        exact ⟨l', hquiet hnext⟩
    | realloc rmem newsize =>
      cases rmem with
      | none =>
        simp only [act, Option.map_eq_some_iff] at hstep
        rcases hstep with ⟨⟨h', r⟩, hm, hs'⟩
        subst hs'
        rcases hs.reallocNull hm with ⟨l', hnext⟩
        exact ⟨l', hquiet hnext⟩
      | some p =>
        simp only [act, Option.map_eq_some_iff] at hstep
        rcases hstep with ⟨⟨h', r⟩, hm, hs'⟩
        subst hs'
        rcases hs.block (hlive p rfl) with ⟨b, hb, hused, hpb⟩
        subst hpb
        exact hs.realloc hb hused hm
    | write p i v =>
      simp only [act] at hstep
      split at hstep
      · rename_i hi
        cases hstep
        exact ⟨l, hquiet (hs.write (hlive p rfl) hi)⟩
      · cases hstep
  · cases hstep

/-!
## Every call returns
-/

theorem Sound.relocate_returns (hs : Sound c s l) (hb : b ∈ l)
    (hused : b.used = true) (hn : n ≤ s.heap.memSizeAligned)
    (hmin : c.minSizeAligned ≤ s.heap.memSizeAligned) :
    exists r, SmallMem.relocate c s.heap (payload s.heap.heapPtr c.sizeofStructMem b)
      (b.stop - b.start - c.sizeofStructMem) n = some r := by
  have hbd := hs.consistent.shape.tiles.bounds hb
  have hn' := hs.consistent.shape.le_rtAlign hn
  have hdata := (c.le_dataSize (rtAlign n c.alignSize)).left
  have hlive := (hs.live _).mpr ⟨b, hb, hused, rfl⟩
  rw [Option.isSome_iff_exists] at hlive
  rcases hlive with ⟨o, hlive⟩
  rcases rtMalloc_returns n hs.consistent hmin with ⟨⟨h1, nmem⟩, hm⟩
  unfold SmallMem.relocate
  rw [hm]
  rcases rtMalloc_spec hs.consistent hm with ⟨hnull, _⟩ | ⟨l1, d, hptr, ha⟩
  · subst hnull
    exact ⟨_, rfl⟩
  · subst hptr
    simp only
    have hev := ha.evolves
    have hdst : payload s.heap.heapPtr c.sizeofStructMem d - h1.heapPtr =
        d.start + c.sizeofStructMem := by
      rw [hev.heapPtr]
      unfold payload
      omega
    have hsrc : payload s.heap.heapPtr c.sizeofStructMem b - h1.heapPtr =
        b.start + c.sizeofStructMem := by
      rw [hev.heapPtr]
      unfold payload
      omega
    rw [hdst, hsrc]
    generalize hk : (if b.stop - b.start - c.sizeofStructMem < n then
      b.stop - b.start - c.sizeofStructMem else n) = k
    have hkn : k ≤ n ∧ k ≤ b.stop - b.start - c.sizeofStructMem := by
      rw [← hk]
      split
      · omega
      · omega
    have hnext := ha.copied False 0 (n := k) hs hb
      hused hlive (by omega) (by omega) (by intro hf; cases hf)
      (by intro hf; cases hf)
    have hb1 : b ∈ l1 := (ha.more.right.right b hused).mpr (Or.inl hb)
    rcases hnext.sound.free False hb1 hused with
      ⟨h3, l3, hfree, _, _⟩
    have hbase : (rtMemcpy h1 (d.start + c.sizeofStructMem)
        (b.start + c.sizeofStructMem) k).heapPtr = s.heap.heapPtr := hev.heapPtr
    simp only [hbase] at hfree
    rw [hfree]
    exact ⟨_, rfl⟩

theorem Sound.realloc_returns (newsize : Nat) (hs : Sound c s l) (hb : b ∈ l)
    (hused : b.used = true)
    (hmin : c.minSizeAligned ≤ s.heap.memSizeAligned) :
    exists r, rtRealloc c s.heap
      (some (payload s.heap.heapPtr c.sizeofStructMem b)) newsize = some r := by
  have hin := hs.consistent.inside b hb hused
  simp only [rtRealloc]
  split
  · exact ⟨_, rfl⟩
  · rename_i hle
    rw [if_neg (by unfold payload; omega), header_of_payload, hs.consistent.shape.payload_span hb]
    split
    · exact ⟨_, rfl⟩
    · split
      · rename_i hroom
        rcases List.append_of_mem hb with ⟨l1, l2, hl⟩
        subst hl
        rcases shrink_spec hs.consistent hused (rtAlign_mod _ _) hroom with
          ⟨h2, r2, hshrink, _⟩
        rw [hshrink]
        exact ⟨_, rfl⟩
      · exact hs.relocate_returns hb hused (by omega) hmin

theorem Sound.returns {op : Op} (hs : Sound c s l)
    (hmin : c.minSizeAligned ≤ s.heap.memSizeAligned)
    (hlegal : op.Legal s.live)
    (hwrite : forall p i v, op = Op.write p i v -> i < payloadSize c s.heap p) :
    exists s', SmallMem.step c s op = some s' := by
  unfold SmallMem.step
  rw [if_pos hlegal]
  cases op with
  | malloc size =>
    rcases rtMalloc_returns size hs.consistent hmin with ⟨r, hr⟩
    simp only [act, hr]
    exact ⟨_, rfl⟩
  | free rmem =>
    cases rmem with
    | none => exact ⟨_, rfl⟩
    | some p =>
      rcases hs.block (hlegal.right p rfl) with ⟨b, hb, hused, hpb⟩
      subst hpb
      rcases hs.free True hb hused with ⟨h', l', hfree, _⟩
      simp only [act, hfree]
      exact ⟨_, rfl⟩
  | realloc rmem newsize =>
    cases rmem with
    | none =>
      rcases rtMalloc_returns (rtAlign newsize c.alignSize) hs.consistent hmin with ⟨r, hr⟩
      simp only [act, rtRealloc, hr]
      split
      · exact ⟨_, rfl⟩
      · exact ⟨_, rfl⟩
    | some p =>
      rcases hs.block (hlegal.right p rfl) with ⟨b, hb, hused, hpb⟩
      subst hpb
      rcases hs.realloc_returns newsize hb hused hmin with ⟨r, hr⟩
      simp only [act, hr]
      exact ⟨_, rfl⟩
  | write p i v =>
    simp only [act]
    rw [if_pos (hwrite p i v rfl)]
    exact ⟨_, rfl⟩

end Steps

/-!
## Runs from the initialisation
-/

section Runs

variable {c : Config} {m : Memory} {beginAddr endAddr : Nat} {h0 : Heap}
  {s : State} {ops : List Op}

theorem init_fields {h : Heap} {e : Nat} (he : 12 ≤ e) (hsmall : e < 2 ^ 32) :
    let h1 := (((h.put 0 Field.magic heapMagic).put 0 Field.next e).put 0
      Field.prev 0).put 0 Field.used 0
    let h2 := (((h1.put e Field.magic heapMagic).put e Field.used 1).put e
      Field.next e).put e Field.prev e
    (h2.get 0 Field.next = e ∧ h2.get 0 Field.used = 0 ∧ h2.get 0 Field.prev = 0) ∧
    h2.get e Field.used = 1 ∧ h2.get e Field.next = e := by
  have hapart : heapMem.Apart e 0 := Or.inr (by show 0 + 12 ≤ e; omega)
  refine ⟨⟨?_, ?_, ?_⟩, ?_, ?_⟩
  · simp only [Heap.get_put_apart hapart]
    rw [Heap.get_put_field (by decide), Heap.get_put_field (by decide), Heap.get_put_same hsmall]
  · simp only [Heap.get_put_apart hapart]
    rw [Heap.get_put_same (by decide)]
  · simp only [Heap.get_put_apart hapart]
    rw [Heap.get_put_field (by decide), Heap.get_put_same (by decide)]
  · rw [Heap.get_put_field (by decide), Heap.get_put_field (by decide),
      Heap.get_put_same (by decide)]
  · rw [Heap.get_put_field (by decide), Heap.get_put_same hsmall]

theorem init_shape (hinit : rtSystemHeapInit c m beginAddr endAddr = some h0) :
    Shape c h0 [⟨0, h0.heapEnd c, false⟩] ∧ h0.lfree = 0 ∧ h0.usedMem = 0 := by
  have hhdr := c.le_sizeof
  unfold rtSystemHeapInit at hinit
  simp only at hinit
  split at hinit
  · rename_i hcond
    have hb := rtAlign_mod (beginAddr % 2 ^ 32) c.alignSize
    have he := rtAlignDown_mod (endAddr % 2 ^ 32) c.alignSize
    have hlt : rtAlignDown (endAddr % 2 ^ 32) c.alignSize < 2 ^ 32 :=
      Nat.lt_of_le_of_lt (rtAlignDown_le _ _) (Nat.mod_lt _ (by decide))
    generalize rtAlign (beginAddr % 2 ^ 32) c.alignSize = beginAlign at hinit hcond hb
    generalize rtAlignDown (endAddr % 2 ^ 32) c.alignSize = endAlign at hinit hcond he hlt
    have hsize : (endAlign - beginAlign - 2 * c.sizeofStructMem) % c.alignSize =
        0 := by
      have h1 := Nat.dvd_of_mod_eq_zero hb
      have h2 := Nat.dvd_of_mod_eq_zero he
      have h3 := Nat.dvd_of_mod_eq_zero c.sizeof_mod
      exact Nat.mod_eq_zero_of_dvd (Nat.dvd_sub (Nat.dvd_sub h2 h1) (Nat.dvd_mul_left_of_dvd h3 2))
    generalize hmsa : endAlign - beginAlign - 2 * c.sizeofStructMem = msa at hinit hsize
    rw [Option.some.injEq] at hinit
    have hfields := init_fields (h := ⟨beginAlign, msa, 0, 0, 0, m⟩)
      (e := msa + c.sizeofStructMem) (by omega) (by omega)
    have hend : h0.heapEnd c = msa + c.sizeofStructMem := by
      rw [← hinit]
      rfl
    have hptr : h0.heapPtr = beginAlign ∧ h0.memSizeAligned = msa ∧
        h0.lfree = 0 ∧ h0.usedMem = 0 := by
      rw [← hinit]
      exact ⟨rfl, rfl, rfl, rfl⟩
    have hget : (h0.get 0 Field.next = msa + c.sizeofStructMem ∧
        h0.get 0 Field.used = 0 ∧ h0.get 0 Field.prev = 0) ∧
        h0.get (msa + c.sizeofStructMem) Field.used = 1 ∧
        h0.get (msa + c.sizeofStructMem) Field.next = msa + c.sizeofStructMem := by
      rw [← hinit]
      exact hfields
    clear hfields hinit
    rcases hptr with ⟨hp, hm, hlf, hum⟩
    rcases hget with ⟨⟨hnext, hzero, hprev⟩, hone, hself⟩
    refine ⟨⟨?_, ?_, ?_, ?_, ?_, ?_, ?_, ?_⟩, hlf, hum⟩
    · rw [hp]
      exact hb
    · rw [hm]
      exact hsize
    · rw [hp, hend]
      omega
    · exact ⟨rfl, by rw [hend]; show _ ≤ msa + c.sizeofStructMem; omega, rfl⟩
    · simp
    · refine ⟨?_, ?_, hprev, trivial⟩
      · rw [hend]
        exact hnext
      · show decide (h0.get 0 Field.used ≠ 0) = false
        rw [hzero]
        rfl
    · rw [hend, hone]
      decide
    · rw [hend]
      exact hself
  · cases hinit

theorem boot_sound (hinit : rtSystemHeapInit c m beginAddr endAddr = some h0) :
    Sound c (boot h0) [⟨0, h0.heapEnd c, false⟩] ∧
      Intact c (boot h0) [⟨0, h0.heapEnd c, false⟩] ∧
      Lowest c h0 [⟨0, h0.heapEnd c, false⟩] := by
  rcases init_shape hinit with ⟨hshape, hlf, hum⟩
  have hfree : forall b, b ∈ [(⟨0, h0.heapEnd c, false⟩ : Block)] -> b.used = false := by simp
  have hnone : forall {P : Prop} {b : Block},
      b ∈ [(⟨0, h0.heapEnd c, false⟩ : Block)] -> b.used = true -> P := by
    intro P b hb hused
    rw [hfree b hb] at hused
    cases hused
  refine ⟨⟨⟨hshape, fun b => hnone, List.IsChain.singleton _, hum,
    fun b => hnone, ?_⟩, ?_⟩, fun b => hnone, hlf⟩
  · exact Or.inr ⟨_, List.mem_singleton_self _, rfl, hlf.symm⟩
  · intro p
    constructor
    · intro h
      cases h
    · rintro ⟨b, hb, hused, _⟩
      exact hnone hb hused

/-- What the headers and the callers see of a heap of blocks `l`. -/
structure HeapHolds (c : Config) (s : State) (l : List Block) : Prop where
  tiles : Tiles c.sizeofStructMem 0 l (s.heap.heapEnd c)
  chain : Headers (links s.heap) 0 l
  noTwoFree : NoTwoFree l
  usedMem : s.heap.usedMem = total usedSpan l
  aligned : forall p, (s.live p).isSome = true -> p % c.alignSize = 0
  disjoint : forall p q, (s.live p).isSome = true -> (s.live q).isSome = true ->
    p ≠ q -> p + payloadSize c s.heap p ≤ q ∨ q + payloadSize c s.heap q ≤ p
  bytes : forall p o, s.live p = some o -> o.size ≤ payloadSize c s.heap p ∧
    forall i v, o.bytes i = some v -> i < payloadSize c s.heap p ∧
      s.heap.mem (p - s.heap.heapPtr + i) = v

theorem Shape.payloadSize_eq {h : Heap} {l : List Block} {b : Block}
    (hs : Shape c h l) (hb : b ∈ l) :
    payloadSize c h (payload h.heapPtr c.sizeofStructMem b) =
      b.stop - b.start - c.sizeofStructMem := by
  unfold payloadSize
  rw [header_of_payload, hs.next_eq hb]
  unfold payload
  omega

theorem Sound.holds {l : List Block} (hs : Sound c s l) (hi : Intact c s l) : HeapHolds c s l := by
  have hshape := hs.consistent.shape
  have hhdr := c.le_sizeof
  constructor
  · exact hshape.tiles
  · exact hshape.headers
  · exact hs.consistent.plugged
  · exact hs.consistent.usedMem
  · intro p hp
    rcases hs.block hp with ⟨b, hb, _, hpb⟩
    rw [hpb]
    exact Consistent.align_payload hshape hb
  · intro p q hp hq hne
    rcases hs.block hp with ⟨b, hb, _, hpb⟩
    rcases hs.block hq with ⟨d, hd, _, hqd⟩
    have hbb := hshape.tiles.bounds hb
    have hdb := hshape.tiles.bounds hd
    rw [hpb, hqd, hshape.payloadSize_eq hb, hshape.payloadSize_eq hd]
    rcases hshape.tiles.eq_or_apart hb hd with heq | hapart | hapart
    · rw [hpb, hqd, heq] at hne
      exact absurd rfl hne
    · unfold payload
      omega
    · unfold payload
      omega
  · intro p o ho
    rcases hs.block (by rw [ho]; rfl) with ⟨b, hb, hused, hpb⟩
    have hbb := hshape.tiles.bounds hb
    rw [hpb] at ho
    rcases hi b hb hused o ho with ⟨hsize, hbytes⟩
    rw [hpb, hshape.payloadSize_eq hb]
    refine ⟨by omega, ?_⟩
    intro i v hv
    rcases hbytes i v hv with ⟨hlt, hbyte⟩
    refine ⟨by omega, ?_⟩
    rw [← hbyte]
    congr 1
    unfold payload
    omega

/-- In every run whose requests do not exceed the heap, the blocks tile it, the
statistics are right and the live payloads are apart and keep their bytes. -/
theorem small_heap_representation
    (hinit : rtSystemHeapInit c m beginAddr endAddr = some h0)
    (hrun : Run (Guarded (fun s op => op.request ≤ s.heap.memSizeAligned)
      (Graph (step c))) (boot h0) ops s) :
    exists l, HeapHolds c s l := by
  have hboot := boot_sound hinit
  have hinv := hrun.invariant (fun s => exists l, Sound c s l ∧ Intact c s l)
    ⟨_, hboot.left, hboot.right.left⟩ (by
      rintro s op s' ⟨l, hs, hi⟩ ⟨hfits, hstep⟩
      rcases hs.step hstep with ⟨l', hnext⟩
      exact ⟨l', hnext.sound, hnext.intact hfits hi⟩)
  rcases hinv with ⟨l, hs, hi⟩
  exact ⟨l, hs.holds hi⟩

end Runs

def four : Config := ⟨4, four_power⟩

def smallBoard : Option Heap :=
  rtSystemHeapInit four (fun _ => 0) 4096 4224

/-- Two allocations, a byte written, and a reallocation that moves it. -/
theorem small_heap_representation_moved :
    exists h0 s l, smallBoard = some h0 ∧
      Run (Guarded (fun s op => op.request ≤ s.heap.memSizeAligned)
        (Graph (step four))) (boot h0)
        [Op.malloc 20, Op.write 4108 3 90, Op.malloc 12,
          Op.realloc (some 4108) 28] s ∧
      s.heap.usedMem = 84 ∧ HeapHolds four s l := by
  have hexec : (smallBoard.bind fun h0 =>
      (exec (fun s op => if op.request ≤ s.heap.memSizeAligned then
        step four s op else none) (boot h0)
        [Op.malloc 20, Op.write 4108 3 90, Op.malloc 12,
          Op.realloc (some 4108) 28]).map fun s => s.heap.usedMem) = some 84 := by
    decide +kernel
  rw [Option.bind_eq_some_iff] at hexec
  rcases hexec with ⟨h0, hinit, hexec⟩
  rw [Option.map_eq_some_iff] at hexec
  rcases hexec with ⟨s, hexec, hused⟩
  have hrun := guarded_run_of_exec hexec
  rcases small_heap_representation hinit hrun with ⟨l, hholds⟩
  exact ⟨h0, s, l, hinit, hrun, hused, hholds⟩

end RtThread.Mem.SmallMem
