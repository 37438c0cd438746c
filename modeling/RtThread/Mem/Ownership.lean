import RtThread.Library.ByteMemory
import RtThread.Library.Tiling

/-!
# The callers of an allocator

Both heaps hand out pointers behind the header of a block. A table that is not part of either heap
has the live pointers: the size each was requested with, and the bytes its holder wrote last. The
heap is correct when the live pointers are its blocks in use and the bytes are still there.
-/

namespace RtThread.Mem

open ByteMemory Tiling
open Function (update update_of_ne update_self)

structure Config where
  alignSize : Nat
  power : exists k, k ≤ 16 ∧ alignSize = 2 ^ k

theorem four_power : exists k, k ≤ 16 ∧ 4 = 2 ^ k := ⟨2, by decide, rfl⟩

theorem Config.alignSize_pos {c : Config} : 0 < c.alignSize := by
  rcases c.power with ⟨k, _, hk⟩
  rw [hk]
  exact Nat.two_pow_pos k

theorem Config.alignSize_le {c : Config} : c.alignSize ≤ 65536 := by
  rcases c.power with ⟨k, hle, hk⟩
  rw [hk]
  exact Nat.pow_le_pow_right (by decide) hle

def Config.Aligns (c : Config) (size : Nat) : Prop := size + (c.alignSize - 1) < 2 ^ 32

instance (c : Config) (size : Nat) : Decidable (c.Aligns size) :=
  inferInstanceAs (Decidable (_ < _))

structure Owner where
  size : Nat
  bytes : Nat -> Option Byte

abbrev Owners := Nat -> Option Owner

def Owner.fresh (size : Nat) : Owner := ⟨size, fun _ => none⟩

def Owner.write (o : Owner) (i : Nat) (v : Byte) : Owner :=
  { o with bytes := Function.update o.bytes i (some v) }

def Owner.resize (o : Owner) (newsize size : Nat) : Owner :=
  ⟨size, fun i => if i < newsize then o.bytes i else none⟩

/-- The calls of the allocator, and the writes of the holders. -/
inductive Op where
  | malloc (size : Nat)
  | free (rmem : Option Nat)
  | realloc (rmem : Option Nat) (newsize : Nat)
  | write (rmem i : Nat) (v : Byte)
deriving DecidableEq, Repr

def Op.request : Op -> Nat
  | Op.malloc size => size
  | Op.realloc _ newsize => newsize
  | _ => 0

def Op.pointer : Op -> Option Nat
  | Op.malloc _ => none
  | Op.free rmem => rmem
  | Op.realloc rmem _ => rmem
  | Op.write rmem _ _ => some rmem

/-- A call passes a 32-bit size, and a null or a live pointer. -/
def Op.Legal (live : Owners) (op : Op) : Prop :=
  op.request < 2 ^ 32 ∧ forall p, p ∈ op.pointer -> (live p).isSome = true

instance (live : Owners) (op : Op) : Decidable (op.Legal live) :=
  inferInstanceAs (Decidable (_ ∧ _))

def Owners.malloc (live : Owners) (size : Nat) : Option Nat -> Owners
  | none => live
  | some p => Function.update live p (some (Owner.fresh size))

def Owners.free (live : Owners) : Option Nat -> Owners
  | none => live
  | some p => Function.update live p none

/-- The result of a reallocation of a live pointer to `newsize` bytes, of which
`size` are counted on; null leaves it as it was. -/
def Owners.move (live : Owners) (p newsize size : Nat) : Option Nat -> Owners
  | none => live
  | some q => Function.update (Function.update live p none) q
      ((live p).map fun o => o.resize newsize size)

def Owners.write (live : Owners) (p i : Nat) (v : Byte) : Owners :=
  Function.update live p ((live p).map fun o => o.write i v)

/-!
## Live pointers and blocks
-/

section Blocks

variable {base hdr : Nat} {l l' : List Block} {live : Owners} {m m' : Memory}
  {b b' : Block} {o : Owner}

def payload (base hdr : Nat) (b : Block) : Nat := base + b.start + hdr

def Live (base hdr : Nat) (l : List Block) (live : Owners) : Prop :=
  forall p, (live p).isSome = true <->
    exists b, b ∈ l ∧ b.used = true ∧ p = payload base hdr b

/-- The holder of a block has room for what it requested, and finds the bytes
it wrote. -/
def Keeps (hdr : Nat) (m : Memory) (b : Block) (o : Owner) : Prop :=
  b.start + hdr + o.size ≤ b.stop ∧
    forall i v, o.bytes i = some v ->
      b.start + hdr + i < b.stop ∧ m (b.start + hdr + i) = v

def Kept (base hdr : Nat) (m : Memory) (l : List Block) (live : Owners) : Prop :=
  forall b, b ∈ l -> b.used = true ->
    forall o, live (payload base hdr b) = some o -> Keeps hdr m b o

theorem Live.add (hl : Live base hdr l live) (hmore : OneMore l l' b) :
    Live base hdr l' (update live (payload base hdr b) (some o)) := by
  rcases hmore with ⟨hb, _, hl'⟩
  intro p
  by_cases hp : p = payload base hdr b
  · subst hp
    rw [update_self]
    exact ⟨fun _ => ⟨b, (hl' b hb).mpr (Or.inr rfl), hb, rfl⟩, fun _ => rfl⟩
  · rw [update_of_ne hp, hl p]
    constructor
    · rintro ⟨c, hc, hused, hpc⟩
      exact ⟨c, (hl' c hused).mpr (Or.inl hc), hused, hpc⟩
    · rintro ⟨c, hc, hused, hpc⟩
      rcases (hl' c hused).mp hc with hmem | heq
      · exact ⟨c, hmem, hused, hpc⟩
      · subst heq
        exact absurd hpc hp

theorem Live.remove (hl : Live base hdr l live) (hmore : OneMore l' l b) :
    Live base hdr l' (update live (payload base hdr b) none) := by
  rcases hmore with ⟨hb, hfresh, hl'⟩
  intro p
  by_cases hp : p = payload base hdr b
  · subst hp
    rw [update_self]
    constructor
    · intro h
      cases h
    · rintro ⟨c, hc, hused, hpc⟩
      have hstart : c.start = b.start := by
        unfold payload at hpc
        omega
      exact absurd hstart (hfresh c hc hused)
  · rw [update_of_ne hp, hl p]
    constructor
    · rintro ⟨c, hc, hused, hpc⟩
      rcases (hl' c hused).mp hc with hmem | heq
      · exact ⟨c, hmem, hused, hpc⟩
      · subst heq
        exact absurd hpc hp
    · rintro ⟨c, hc, hused, hpc⟩
      exact ⟨c, (hl' c hused).mpr (Or.inl hc), hused, hpc⟩

theorem Live.replace {l0 : List Block} (hl : Live base hdr l live)
    (hbefore : OneMore l0 l b) (hafter : OneMore l0 l' b')
    (hstart : b'.start = b.start) :
    Live base hdr l' (update (update live (payload base hdr b) none) (payload base hdr b)
      (some o)) := by
  have hp : payload base hdr b = payload base hdr b' := by
    unfold payload
    rw [hstart]
  have hadd := (hl.remove hbefore).add (o := o) hafter
  rwa [← hp] at hadd

theorem Kept.add (hk : Kept base hdr m l live) (hmore : OneMore l l' b) (hb : Keeps hdr m b o) :
    Kept base hdr m l' (update live (payload base hdr b) (some o)) := by
  rcases hmore with ⟨_, hfresh, hl'⟩
  intro c hc hused o' ho
  by_cases hp : payload base hdr c = payload base hdr b
  · rw [hp, update_self] at ho
    cases ho
    have hstart : c.start = b.start := by
      unfold payload at hp
      omega
    rcases (hl' c hused).mp hc with hmem | heq
    · exact absurd hstart (hfresh c hmem hused)
    · subst heq
      exact hb
  · rw [update_of_ne hp] at ho
    rcases (hl' c hused).mp hc with hmem | heq
    · exact hk c hmem hused o' ho
    · subst heq
      exact absurd rfl hp

theorem Kept.remove (hk : Kept base hdr m l live) (hmore : OneMore l' l b) :
    Kept base hdr m l' (update live (payload base hdr b) none) := by
  rcases hmore with ⟨_, _, hl'⟩
  intro c hc hused o ho
  by_cases hp : payload base hdr c = payload base hdr b
  · rw [hp, update_self] at ho
    cases ho
  · rw [update_of_ne hp] at ho
    exact hk c ((hl' c hused).mpr (Or.inl hc)) hused o ho

theorem Kept.replace {l0 : List Block} (hk : Kept base hdr m l live)
    (hbefore : OneMore l0 l b) (hafter : OneMore l0 l' b')
    (hstart : b'.start = b.start) (hb : Keeps hdr m b' o) :
    Kept base hdr m l' (update (update live (payload base hdr b) none) (payload base hdr b)
      (some o)) := by
  have hp : payload base hdr b = payload base hdr b' := by
    unfold payload
    rw [hstart]
  have hadd := (hk.remove hbefore).add hafter hb
  rwa [← hp] at hadd

theorem Live.swap (hl : Live base hdr l live) (hswap : Swapped l l' b b') (hb : b ∈ l)
    (hbu : b.used = true) (hone : forall x, x ∈ l -> x.start = b.start -> x = b) :
    Live base hdr l' (update (update live (payload base hdr b) none)
      (payload base hdr b') (some o)) := by
  rcases hswap with ⟨hused, hl'⟩
  intro p
  by_cases hp : p = payload base hdr b'
  · subst hp
    rw [update_self]
    exact ⟨fun _ => ⟨b', (hl' b' hused).mpr (Or.inr rfl), hused, rfl⟩, fun _ => rfl⟩
  · rw [update_of_ne hp]
    have hplace : forall x, x ∈ l -> x ≠ b -> payload base hdr x ≠ payload base hdr b := by
      intro x hx hne heq
      unfold payload at heq
      exact hne (hone x hx (by omega))
    by_cases hpb : p = payload base hdr b
    · subst hpb
      rw [update_self]
      apply iff_of_false nofun
      rintro ⟨x, hx, hxu, hpx⟩
      rcases (hl' x hxu).mp hx with ⟨hold, hne⟩ | rfl
      · exact hplace x hold hne hpx.symm
      · exact hp hpx
    · rw [update_of_ne hpb, hl p]
      constructor
      · rintro ⟨x, hx, hxu, hpx⟩
        refine ⟨x, (hl' x hxu).mpr (Or.inl ⟨hx, ?_⟩), hxu, hpx⟩
        rintro rfl
        exact hpb hpx
      · rintro ⟨x, hx, hxu, hpx⟩
        rcases (hl' x hxu).mp hx with ⟨hold, _⟩ | rfl
        · exact ⟨x, hold, hxu, hpx⟩
        · exact absurd hpx hp

theorem Keeps.fresh {size : Nat} (hsize : b.start + hdr + size ≤ b.stop) :
    Keeps hdr m b (Owner.fresh size) := by
  refine ⟨hsize, ?_⟩
  intro i v h
  cases h

theorem Keeps.resize {newsize size : Nat} (hk : Keeps hdr m b o)
    (hsize : b'.start + hdr + size ≤ b'.stop)
    (hsame : forall i, i < newsize -> b.start + hdr + i < b.stop -> b'.start + hdr + i < b'.stop ∧
        m' (b'.start + hdr + i) = m (b.start + hdr + i)) :
    Keeps hdr m' b' (o.resize newsize size) := by
  refine ⟨hsize, ?_⟩
  intro i v hv
  unfold Owner.resize at hv
  simp only at hv
  split at hv
  · rename_i hi
    rcases hk.right i v hv with ⟨hlt, hbyte⟩
    rcases hsame i hi hlt with ⟨hlt', hsame'⟩
    exact ⟨hlt', hsame'.trans hbyte⟩
  · cases hv

theorem Kept.swap (hk : Kept base hdr m l live) (hswap : Swapped l l' b b')
    (hone : forall x, x ∈ l -> x.start = b.start -> x = b)
    (hone' : forall x, x ∈ l' -> x.start = b'.start -> x = b')
    (hothers : forall x, x ∈ l -> x.used = true -> x ≠ b -> forall y, x.start + hdr ≤ y ->
      y < x.stop -> m' y = m y) (hb' : Keeps hdr m' b' o) :
    Kept base hdr m' l' (update (update live (payload base hdr b) none)
      (payload base hdr b') (some o)) := by
  intro x hx hxu o' ho
  by_cases hxb' : payload base hdr x = payload base hdr b'
  · rw [hxb', update_self] at ho
    cases ho
    unfold payload at hxb'
    rw [hone' x hx (by omega)]
    exact hb'
  · rw [update_of_ne hxb'] at ho
    rcases (hswap.right x hxu).mp hx with ⟨hold, hne⟩ | rfl
    · have hxb : payload base hdr x ≠ payload base hdr b := by
        intro heq
        unfold payload at heq
        exact hne (hone x hold (by omega))
      rw [update_of_ne hxb] at ho
      rcases hk x hold hxu o' ho with ⟨hsize, hbytes⟩
      refine ⟨hsize, ?_⟩
      intro i v hv
      rcases hbytes i v hv with ⟨hlt, hbyte⟩
      refine ⟨hlt, ?_⟩
      rw [hothers x hold hxu hne _ (by omega) hlt]
      exact hbyte
    · exact absurd rfl hxb'

theorem Kept.frame (hk : Kept base hdr m l live)
    (hsame : forall b, b ∈ l -> b.used = true -> forall x, b.start + hdr ≤ x ->
      x < b.stop -> m' x = m x) : Kept base hdr m' l live := by
  intro b hb hused o ho
  rcases hk b hb hused o ho with ⟨hsize, hbytes⟩
  refine ⟨hsize, ?_⟩
  intro i v hv
  rcases hbytes i v hv with ⟨hlt, hbyte⟩
  refine ⟨hlt, ?_⟩
  rw [hsame b hb hused _ (by omega) hlt]
  exact hbyte

end Blocks

/-!
## Headers and payloads
-/

section Frame

variable {hdr a e x : Nat} {l l' : List Block} {m m' : Memory} {b : Block}

def InHeader (hdr : Nat) (l : List Block) (a e x : Nat) : Prop :=
  (exists b, b ∈ l ∧ b.start ≤ x ∧ x < b.start + hdr) ∨ x < a ∨ e ≤ x

/-- Memory changed only in headers of the old or of the new blocks. -/
def HeadersOnly (hdr a e : Nat) (l l' : List Block) (m m' : Memory) : Prop :=
  forall x, ¬ InHeader hdr l a e x -> ¬ InHeader hdr l' a e x -> m' x = m x

theorem Tiles.payload_not_header (ht : Tiles hdr a l e) (hb : b ∈ l)
    (hx : b.start + hdr ≤ x) (hlt : x < b.stop) : ¬ InHeader hdr l a e x := by
  have hbounds := ht.bounds hb
  rintro (⟨c, hc, hle, hhdr⟩ | hend)
  · have hc' := ht.bounds hc
    rcases ht.eq_or_apart hb hc with heq | happart | happart
    · subst heq
      omega
    · omega
    · omega
  · omega

theorem Tiles.header_apart {cut y : Nat} (ht : Tiles hdr a l e)
    (hb : b ∈ l) (hlow : b.start + hdr ≤ cut) (hhigh : cut + hdr ≤ b.stop)
    (hy : InHeader hdr l a e y) : y < cut ∨ cut + hdr ≤ y := by
  have hbd := ht.bounds hb
  rcases hy with ⟨d, hd, hle, hlt⟩ | hend
  · have hdb := ht.bounds hd
    rcases ht.eq_or_apart hb hd with heq | happart | happart
    · subst heq
      omega
    · omega
    · omega
  · omega

theorem Tiles.copy_header {src n y : Nat}
    (ht : Tiles hdr a l e) (hb : b ∈ l) (hn : b.start + hdr + n ≤ b.stop)
    (hy : InHeader hdr l a e y) : copy m (b.start + hdr) src n y = m y := by
  apply copy_outside
  by_contra hin
  exact Tiles.payload_not_header ht hb (by omega) (by omega) hy

theorem HeadersOnly.kept {base : Nat} {live : Owners}
    (hh : HeadersOnly hdr a e l l' m m') (ht : Tiles hdr a l e)
    (ht' : Tiles hdr a l' e)
    (hpart : forall b, b ∈ l' -> b.used = true -> exists d, d ∈ l ∧
      d.start = b.start ∧ b.stop ≤ d.stop)
    (hk : Kept base hdr m l' live) : Kept base hdr m' l' live := by
  apply hk.frame
  intro b hb hused x hx hlt
  rcases hpart b hb hused with ⟨d, hd, hstart, hstop⟩
  exact hh x (Tiles.payload_not_header ht hd (by omega) (by omega))
    (Tiles.payload_not_header ht' hb hx hlt)

theorem Live.write {base p i : Nat} {v : Byte} {live : Owners}
    (hl : Live base hdr l live) : Live base hdr l (live.write p i v) := by
  intro q
  rw [← hl q]
  show (update live p _ q).isSome = true <-> _
  by_cases hq : q = p
  · subst hq
    rw [update_self, Option.isSome_map]
  · rw [update_of_ne hq]

theorem Kept.write {base i : Nat} {v : Byte} {live : Owners}
    (hk : Kept base hdr m l live) (ht : Tiles hdr a l e) (hhdr : 0 < hdr)
    (hb : b ∈ l) (hused : b.used = true) (hi : b.start + hdr + i < b.stop) :
    Kept base hdr (update m (b.start + hdr + i) v) l (live.write (payload base hdr b) i v) := by
  intro x hx hxu o ho
  unfold Owners.write at ho
  rcases ht.eq_or_apart hb hx with heq | hapart
  · subst heq
    rw [update_self, Option.map_eq_some_iff] at ho
    rcases ho with ⟨o', hlive, hwrite⟩
    subst hwrite
    rcases hk b hb hused o' hlive with ⟨hsize, hbytes⟩
    refine ⟨hsize, ?_⟩
    intro j w hw
    have hw' : update o'.bytes i (some v) j = some w := hw
    by_cases hij : j = i
    · subst hij
      rw [update_self] at hw'
      cases hw'
      exact ⟨hi, update_self ..⟩
    · rw [update_of_ne hij] at hw'
      rcases hbytes j w hw' with ⟨hlt, hbyte⟩
      refine ⟨hlt, ?_⟩
      rw [update_of_ne (by omega)]
      exact hbyte
  · have hxb := ht.bounds hx
    have hne : payload base hdr x ≠ payload base hdr b := by
      unfold payload
      omega
    rw [update_of_ne hne] at ho
    rcases hk x hx hxu o ho with ⟨hsize, hbytes⟩
    refine ⟨hsize, ?_⟩
    intro j w hw
    rcases hbytes j w hw with ⟨hlt, hbyte⟩
    refine ⟨hlt, ?_⟩
    rw [update_of_ne (by omega)]
    exact hbyte

end Frame

end RtThread.Mem
