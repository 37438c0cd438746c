import Mathlib.Algebra.GroupWithZero.Nat
import Mathlib.Algebra.BigOperators.Group.List.Basic
import Mathlib.Data.List.Chain

/-!
# Tilings of an interval by blocks

An allocator divides an interval of addresses into blocks, each of which starts with a header that
names its neighbours. A division is a list of blocks; that the headers describe it is a relation
between the list and the header fields. A block is split, merged or marked by replacing a segment
of the list, so every fact comes with its rule for `l ++ b :: l'`.
-/

namespace RtThread.Tiling

/-- The addresses from `start` up to `stop`, in use or free. -/
structure Block where
  start : Nat
  stop : Nat
  used : Bool
deriving DecidableEq, Repr

/-- The blocks follow each other from `a` to `e`, each with room for a header. -/
def Tiles (gap : Nat) : Nat -> List Block -> Nat -> Prop
  | a, [], e => a = e
  | a, b :: l, e => b.start = a ∧ a + gap ≤ b.stop ∧ Tiles gap b.stop l e

def NoTwoFree : List Block -> Prop :=
  List.IsChain fun b b' => b.used = true ∨ b'.used = true

def total (w : Block -> Nat) (l : List Block) : Nat := (l.map w).sum

/-!
## Positions
-/

section Tiles

variable {gap a e : Nat} {l l' : List Block} {b c : Block}

theorem tiles_append : Tiles gap a (l ++ b :: l') e <->
      Tiles gap a l b.start ∧ b.start + gap ≤ b.stop ∧ Tiles gap b.stop l' e := by
  induction l generalizing a with
  | nil =>
    constructor
    · rintro ⟨hstart, hgap, hrest⟩
      exact ⟨hstart.symm, hstart ▸ hgap, hrest⟩
    · rintro ⟨hstart, hgap, hrest⟩
      exact ⟨hstart.symm, hstart.symm ▸ hgap, hrest⟩
  | cons d l ih =>
    constructor
    · rintro ⟨hstart, hgap, hrest⟩
      have hsplit := ih.mp hrest
      exact ⟨⟨hstart, hgap, hsplit.left⟩, hsplit.right⟩
    · rintro ⟨⟨hstart, hgap, hrest⟩, hmore⟩
      exact ⟨hstart, hgap, ih.mpr ⟨hrest, hmore⟩⟩

theorem Tiles.le (ht : Tiles gap a l e) : a ≤ e := by
  induction l generalizing a with
  | nil => exact Nat.le_of_eq ht
  | cons b l ih =>
    rcases ht with ⟨hstart, hgap, hrest⟩
    have hle := ih hrest
    omega

theorem Tiles.bounds (ht : Tiles gap a l e) (hb : b ∈ l) :
    a ≤ b.start ∧ b.start + gap ≤ b.stop ∧ b.stop ≤ e := by
  rcases List.append_of_mem hb with ⟨s, t, hl⟩
  rw [hl, tiles_append] at ht
  exact ⟨ht.left.le, ht.right.left, ht.right.right.le⟩

theorem Tiles.around (ht : Tiles gap a (l ++ b :: l') e) :
    (forall c, c ∈ l -> c.stop ≤ b.start) ∧
      forall c, c ∈ l' -> b.stop ≤ c.start := by
  rw [tiles_append] at ht
  constructor
  · intro c hc
    exact (ht.left.bounds hc).right.right
  · intro c hc
    exact (ht.right.right.bounds hc).left

theorem Tiles.eq_or_apart (ht : Tiles gap a l e) (hb : b ∈ l) (hc : c ∈ l) :
    b = c ∨ b.stop ≤ c.start ∨ c.stop ≤ b.start := by
  rcases List.append_of_mem hb with ⟨s, t, hl⟩
  subst hl
  have haround := ht.around
  simp only [List.mem_append, List.mem_cons] at hc
  rcases hc with hs | heq | ht'
  · exact Or.inr (Or.inr (haround.left c hs))
  · exact Or.inl heq.symm
  · exact Or.inr (Or.inl (haround.right c ht'))

theorem Tiles.eq_of_start (hgap : 0 < gap) (ht : Tiles gap a l e) (hb : b ∈ l)
    (hc : c ∈ l) (heq : b.start = c.start) : b = c := by
  have hb' := ht.bounds hb
  have hc' := ht.bounds hc
  rcases ht.eq_or_apart hb hc with hsame | hle | hle
  · exact hsame
  · omega
  · omega

theorem Tiles.unique (stop : Nat -> Nat) (used : Nat -> Bool) (hgap : 0 < gap)
    (ht : Tiles gap a l e) (ht' : Tiles gap a l' e)
    (hl : forall b, b ∈ l -> b.stop = stop b.start ∧ b.used = used b.start)
    (hl' : forall b, b ∈ l' -> b.stop = stop b.start ∧ b.used = used b.start) : l = l' := by
  induction l generalizing a l' with
  | nil =>
    cases l' with
    | nil => rfl
    | cons d l' =>
      rcases ht' with ⟨_, hroom, hrest⟩
      have hle := hrest.le
      have heq : a = e := ht
      omega
  | cons b l ih =>
    rcases ht with ⟨hstart, hroom, hrest⟩
    cases l' with
    | nil =>
      have hle := hrest.le
      have heq : a = e := ht'
      omega
    | cons d l' =>
      rcases ht' with ⟨hstart', _, hrest'⟩
      have hb := hl b (by simp)
      have hd := hl' d (by simp)
      have hsame : b.start = d.start := hstart.trans hstart'.symm
      have heq : b = d := by
        cases b
        cases d
        simp only at hb hd hsame
        rw [hb.left, hd.left, hb.right, hd.right, hsame]
      subst heq
      rw [ih hrest hrest' (fun x hx => hl x (by simp [hx])) (fun x hx => hl' x (by simp [hx]))]

theorem Tiles.mul_length_le (ht : Tiles gap a l e) : a + l.length * gap ≤ e := by
  induction l generalizing a with
  | nil =>
    have heq : a = e := ht
    rw [heq, List.length_nil, Nat.zero_mul]
    exact Nat.le_refl e
  | cons b l ih =>
    rcases ht with ⟨hstart, hroom, hrest⟩
    have hlen := ih hrest
    rw [List.length_cons, Nat.add_mul]
    omega

theorem Tiles.length_le (hgap : 0 < gap) (ht : Tiles gap a l e) : a + l.length ≤ e := by
  have hlen := ht.mul_length_le
  have hmul : l.length ≤ l.length * gap := Nat.le_mul_of_pos_right _ hgap
  omega

theorem Tiles.next (ht : Tiles gap a (l ++ b :: l') e) :
    (l' = [] ∧ b.stop = e) ∨ exists c t, l' = c :: t ∧ c.start = b.stop := by
  rw [tiles_append] at ht
  cases l' with
  | nil => exact Or.inl ⟨rfl, ht.right.right⟩
  | cons c t => exact Or.inr ⟨c, t, rfl, ht.right.right.left⟩

end Tiles

/-!
## Free neighbours
-/

section NoTwoFree

variable {l l' : List Block} {b : Block}

theorem noTwoFree_append : NoTwoFree (l ++ b :: l') <->
      NoTwoFree l ∧ (forall x, x ∈ l.getLast? -> x.used = true ∨ b.used = true) ∧
        (forall y, y ∈ l'.head? -> b.used = true ∨ y.used = true) ∧ NoTwoFree l' := by
  unfold NoTwoFree
  rw [List.isChain_append, List.isChain_cons]
  simp only [List.head?_cons, Option.mem_some_iff, forall_eq']
  tauto

theorem NoTwoFree.single {gap a e : Nat} (hn : NoTwoFree l) (ht : Tiles gap a l e)
    (hlt : a < e) (hfree : forall x, x ∈ l -> x.used = false) : l = [⟨a, e, false⟩] := by
  cases l with
  | nil =>
    have heq : a = e := ht
    omega
  | cons x l =>
    have hx := hfree x (by simp)
    cases l with
    | nil =>
      rcases ht with ⟨hstart, _, hstop⟩
      have heq : x.stop = e := hstop
      cases x
      cases hx
      cases hstart
      cases heq
      rfl
    | cons y l =>
      have hy := hfree y (by simp)
      have hor := (List.isChain_cons_cons.mp hn).left
      rw [hx, hy] at hor
      simp at hor

end NoTwoFree

/-!
## Quantities
-/

section Total

variable {w : Block -> Nat} {l l' : List Block} {b : Block}

@[simp]
theorem total_nil : total w [] = 0 := rfl

@[simp]
theorem total_cons : total w (b :: l) = w b + total w l := by
  simp [total]

@[simp]
theorem total_append : total w (l ++ l') = total w l + total w l' := by
  simp [total]

theorem total_eq_zero (hw : forall b, b ∈ l -> w b = 0) : total w l = 0 := by
  induction l with
  | nil => rfl
  | cons b l ih =>
    rw [total_cons, hw b (by simp), ih (fun d hd => hw d (by simp [hd]))]

theorem Tiles.total_le {gap a e : Nat} (ht : Tiles gap a l e)
    (hw : forall b, w b ≤ b.stop - b.start) : a + total w l ≤ e := by
  induction l generalizing a with
  | nil => exact Nat.le_of_eq ht
  | cons b l ih =>
    rcases ht with ⟨hstart, hroom, hrest⟩
    have hlen := ih hrest
    have hb := hw b
    rw [total_cons]
    omega

end Total

/-!
## Blocks in use
-/

def SameUsed (l l' : List Block) : Prop :=
  forall b, b.used = true -> (b ∈ l' <-> b ∈ l)

def OneMore (l l' : List Block) (b : Block) : Prop :=
  b.used = true ∧ (forall c, c ∈ l -> c.used = true -> c.start ≠ b.start) ∧
    forall c, c.used = true -> (c ∈ l' <-> c ∈ l ∨ c = b)

section SameUsed

variable {l l1 l2 l3 : List Block} {b : Block}

theorem OneMore.then_same (h : OneMore l1 l2 b) (h' : SameUsed l2 l3) : OneMore l1 l3 b :=
  ⟨h.left, h.right.left, fun c hc => (h' c hc).trans (h.right.right c hc)⟩

theorem OneMore.of_same (h : OneMore l1 l2 b) (h' : SameUsed l1 l3) : OneMore l3 l2 b :=
  ⟨h.left, fun c hc hused => h.right.left c ((h' c hused).mp hc) hused,
    fun c hc => (h.right.right c hc).trans (or_congr (h' c hc).symm Iff.rfl)⟩

theorem Tiles.oneMore {gap a e : Nat} {l l' r t : List Block}
    (ht : Tiles gap a (l ++ r ++ l') e) (hgap : 0 < gap) (hb : b.used = true)
    (hr : forall c, c ∈ r -> c.used = false)
    (honly : forall c, c ∈ t -> c.used = true -> c = b) (hbr : b ∈ t)
    (hstart : exists c, c ∈ r ∧ c.start = b.start) :
    OneMore (l ++ r ++ l') (l ++ t ++ l') b := by
  refine ⟨hb, ?_, ?_⟩
  · intro c hc hused heq
    rcases hstart with ⟨d, hd, hds⟩
    have hsame : c = d :=
      ht.eq_of_start hgap hc (by simp [hd]) (heq.trans hds.symm)
    rw [hsame, hr d hd] at hused
    cases hused
  · intro c hused
    have hnot : c ∉ r := by
      intro hc
      rw [hr c hc] at hused
      cases hused
    have hiff : c ∈ t <-> c = b := by
      constructor
      · intro hc
        exact honly c hc hused
      · intro heq
        rw [heq]
        exact hbr
    simp only [List.mem_append, hiff]
    tauto

theorem Tiles.oneMore_replace {gap a e : Nat} {l l' r : List Block} {d : Block}
    (ht : Tiles gap a (l ++ b :: l') e) (hgap : 0 < gap) (hd : d.used = true)
    (hstart : d.start = b.start) (hr : forall x, x ∈ r -> x.used = false) :
    OneMore (l ++ { b with used := false } :: l') (l ++ d :: (r ++ l')) d := by
  have htf : Tiles gap a (l ++ [{ b with used := false }] ++ l') e := by
    have hsplit := tiles_append.mp ht
    rw [List.append_assoc]
    exact tiles_append.mpr hsplit
  have hmore := htf.oneMore (t := d :: r) hgap hd (by simp) (by
    intro x hx hxu
    rcases List.mem_cons.mp hx with heq | hx
    · exact heq
    · rw [hr x hx] at hxu
      cases hxu) (by simp) ⟨{ b with used := false }, by simp, hstart.symm⟩
  simpa using hmore

theorem Tiles.oneMore_mark {gap a e : Nat} {l l' : List Block}
    (ht : Tiles gap a (l ++ b :: l') e) (hgap : 0 < gap) (hb : b.used = true) :
    OneMore (l ++ { b with used := false } :: l') (l ++ b :: l') b :=
  ht.oneMore_replace (r := []) hgap hb rfl (by simp)

end SameUsed

/-- The block `d` is in use in the place of `b`. -/
def Swapped (l l' : List Block) (b d : Block) : Prop :=
  d.used = true ∧ forall x, x.used = true -> (x ∈ l' <-> (x ∈ l ∧ x ≠ b) ∨ x = d)

section Swapped

variable {l l0 l1 l' : List Block} {b d : Block}

theorem OneMore.others (hmore : OneMore l0 l b) {x : Block} (hx : x.used = true) :
    x ∈ l ∧ x ≠ b <-> x ∈ l0 := by
  rw [hmore.right.right x hx]
  constructor
  · rintro ⟨hin | heq, hne⟩
    · exact hin
    · exact absurd heq hne
  · intro hin
    refine ⟨Or.inl hin, ?_⟩
    rintro rfl
    exact hmore.right.left x hin hx rfl

theorem Swapped.refl (hused : b.used = true) (hb : b ∈ l) : Swapped l l b b := by
  refine ⟨hused, ?_⟩
  intro x _
  constructor
  · intro hx
    by_cases heq : x = b
    · exact Or.inr heq
    · exact Or.inl ⟨hx, heq⟩
  · rintro (⟨hx, _⟩ | rfl)
    · exact hx
    · exact hb

theorem Swapped.of_oneMore (hbefore : OneMore l0 l b) (hafter : OneMore l0 l' d) :
    Swapped l l' b d := by
  refine ⟨hafter.left, ?_⟩
  intro x hx
  rw [hafter.right.right x hx, hbefore.others hx]

theorem Swapped.of_taken (hmore : OneMore l l1 d) (hless : OneMore l' l1 b) (hb : b ∈ l) :
    Swapped l l' b d := by
  have hne : d ≠ b := by
    rintro rfl
    exact hmore.right.left d hb hless.left rfl
  refine ⟨hmore.left, ?_⟩
  intro x hx
  rw [← hless.others hx, hmore.right.right x hx]
  constructor
  · rintro ⟨hin | heq, hxb⟩
    · exact Or.inl ⟨hin, hxb⟩
    · exact Or.inr heq
  · rintro (⟨hin, hxb⟩ | rfl)
    · exact ⟨Or.inl hin, hxb⟩
    · exact ⟨Or.inr rfl, hne⟩

end Swapped

/-!
## Joining free blocks
-/

structure Join (l l' : List Block) (p q : Option Block) (s t : List Block) :
    Prop where
  left : l = s ++ p.toList
  right : l' = q.toList ++ t
  leftFree : forall x, x ∈ p -> x.used = false
  rightFree : forall x, x ∈ q -> x.used = false
  leftEnd : p = none -> forall x, x ∈ s.getLast? -> x.used = true
  rightEnd : q = none -> forall x, x ∈ t.head? -> x.used = true

def joined (p : Option Block) (b : Block) (q : Option Block) : Block :=
  ⟨(p.getD b).start, (q.getD b).stop, false⟩

/-- The start of the lowest free block, `e` when there is none. -/
def lowestFree (e : Nat) : List Block -> Nat
  | [] => e
  | b :: l => if b.used then lowestFree e l else b.start

theorem lowestFree_append {e : Nat} {l l' : List Block} :
    lowestFree e (l ++ l') = lowestFree (lowestFree e l') l := by
  induction l with
  | nil => rfl
  | cons b l ih => simp only [List.cons_append, lowestFree, ih]

/-- The start of a free block, or the end `e`. -/
def FreeAt (e : Nat) (l : List Block) (x : Nat) : Prop :=
  x = e ∨ exists b, b ∈ l ∧ b.used = false ∧ b.start = x

section LowestFree

variable {e : Nat} {l l' : List Block} {b : Block}

theorem lowestFree_cases (l : List Block) :
    ((forall b, b ∈ l -> b.used = true) ∧ forall e, lowestFree e l = e) ∨
      exists b, b ∈ l ∧ b.used = false ∧ forall e, lowestFree e l = b.start := by
  induction l with
  | nil => exact Or.inl ⟨by simp, fun _ => rfl⟩
  | cons b l ih =>
    cases hb : b.used with
    | false => exact Or.inr ⟨b, by simp, hb, fun e => by simp [lowestFree, hb]⟩
    | true =>
      rcases ih with ⟨hall, heq⟩ | ⟨d, hd, hused, heq⟩
      · refine Or.inl ⟨?_, fun e => by simp [lowestFree, hb, heq]⟩
        simpa [hb] using hall
      · exact Or.inr ⟨d, by simp [hd], hused, fun e => by simp [lowestFree, hb, heq]⟩

theorem lowestFree_freeAt : FreeAt e l (lowestFree e l) := by
  rcases lowestFree_cases l with ⟨_, heq⟩ | ⟨b, hb, hused, heq⟩
  · exact Or.inl (heq e)
  · exact Or.inr ⟨b, hb, hused, (heq e).symm⟩

theorem Tiles.lowestFree_le {gap a e' : Nat} (ht : Tiles gap a l e')
    (hb : b ∈ l) (hused : b.used = false) : lowestFree e l ≤ b.start := by
  induction l generalizing a with
  | nil => cases hb
  | cons d l ih =>
    rcases ht with ⟨hstart, hroom, hrest⟩
    rw [lowestFree]
    rcases List.mem_cons.mp hb with heq | hmem
    · subst heq
      simp [hused]
    · have hbd := hrest.bounds hmem
      split
      · exact ih hrest hmem
      · omega

end LowestFree

section Join

variable {l l' s t : List Block} {p q : Option Block} {b : Block}

theorem exists_join (l l' : List Block) : exists p q s t, Join l l' p q s t := by
  have hleft : exists p s, l = s ++ Option.toList p ∧ (forall x, x ∈ p -> x.used = false) ∧
        (p = none -> forall x, x ∈ s.getLast? -> x.used = true) := by
    rcases List.eq_nil_or_concat l with hnil | ⟨s, x, hcat⟩
    · exact ⟨none, [], hnil, by simp, by simp⟩
    · cases hx : x.used with
      | false => exact ⟨some x, s, by simpa using hcat, by simp [hx], by simp⟩
      | true =>
        refine ⟨none, l, by simp, by simp, ?_⟩
        intro _ y hy
        rw [hcat] at hy
        simp only [List.concat_eq_append, List.getLast?_append_cons, List.getLast?_singleton,
          Option.mem_some_iff] at hy
        rw [← hy]
        exact hx
  have hright : exists q t, l' = Option.toList q ++ t ∧ (forall x, x ∈ q -> x.used = false) ∧
        (q = none -> forall x, x ∈ t.head? -> x.used = true) := by
    cases l' with
    | nil => exact ⟨none, [], rfl, by simp, by simp⟩
    | cons x t =>
      cases hx : x.used with
      | false => exact ⟨some x, t, rfl, by simp [hx], by simp⟩
      | true => exact ⟨none, x :: t, rfl, by simp, by simp [hx]⟩
  rcases hleft with ⟨p, s, hl, hlf, hle⟩
  rcases hright with ⟨q, t, hr, hrf, hre⟩
  exact ⟨p, q, s, t, ⟨hl, hr, hlf, hrf, hle, hre⟩⟩

theorem Join.noTwoFree (hj : Join l l' p q s t) (hl : NoTwoFree l)
    (hl' : NoTwoFree l') : NoTwoFree (s ++ joined p b q :: t) := by
  have hleft : NoTwoFree s ∧ forall x, x ∈ s.getLast? -> x.used = true := by
    cases p with
    | none =>
      have heq : l = s := by simpa using hj.left
      exact ⟨heq ▸ hl, hj.leftEnd rfl⟩
    | some p =>
      have heq : l = s ++ p :: [] := hj.left
      have hsplit := noTwoFree_append.mp (heq ▸ hl)
      refine ⟨hsplit.left, ?_⟩
      intro x hx
      have hor := hsplit.right.left x hx
      rw [hj.leftFree p rfl] at hor
      simpa using hor
  have hright : NoTwoFree t ∧ forall x, x ∈ t.head? -> x.used = true := by
    cases q with
    | none =>
      have heq : l' = t := by simpa using hj.right
      exact ⟨heq ▸ hl', hj.rightEnd rfl⟩
    | some q =>
      have heq : l' = [] ++ q :: t := hj.right
      have hsplit := noTwoFree_append.mp (heq ▸ hl')
      refine ⟨hsplit.right.right.right, ?_⟩
      intro x hx
      have hor := hsplit.right.right.left x hx
      rw [hj.rightFree q rfl] at hor
      simpa using hor
  exact noTwoFree_append.mpr ⟨hleft.left, fun x hx => Or.inl (hleft.right x hx),
    fun x hx => Or.inr (hright.right x hx), hright.left⟩

theorem Join.tiles {gap a e : Nat} (hj : Join l l' p q s t)
    (ht : Tiles gap a (l ++ b :: l') e) : Tiles gap a (s ++ joined p b q :: t) e := by
  rcases tiles_append.mp ht with ⟨hl, hroom, hl'⟩
  have hleft : Tiles gap a s (joined p b q).start ∧ (joined p b q).start ≤ b.start := by
    cases p with
    | none =>
      have heq : l = s := by simpa using hj.left
      exact ⟨heq ▸ hl, Nat.le_refl _⟩
    | some p =>
      have heq : l = s ++ p :: [] := hj.left
      have hsplit := tiles_append.mp (heq ▸ hl)
      have hend : p.stop = b.start := hsplit.right.right
      exact ⟨hsplit.left, show p.start ≤ b.start by omega⟩
  have hright : Tiles gap (joined p b q).stop t e ∧ b.stop ≤ (joined p b q).stop := by
    cases q with
    | none =>
      have heq : l' = t := by simpa using hj.right
      exact ⟨heq ▸ hl', Nat.le_refl _⟩
    | some q =>
      have heq : l' = q :: t := hj.right
      have hsplit : Tiles gap b.stop (q :: t) e := heq ▸ hl'
      have hle := hsplit.right.left
      exact ⟨hsplit.right.right, show b.stop ≤ q.stop by omega⟩
  refine tiles_append.mpr ⟨hleft.left, ?_, hright.left⟩
  omega

theorem Join.sameUsed (hj : Join l l' p q s t) (hb : b.used = false) :
    SameUsed (l ++ b :: l') (s ++ joined p b q :: t) := by
  intro c hc
  have hp : c ∉ p.toList := by
    intro hin
    rw [hj.leftFree c (by simpa using hin)] at hc
    cases hc
  have hq : c ∉ q.toList := by
    intro hin
    rw [hj.rightFree c (by simpa using hin)] at hc
    cases hc
  have hcb : c ≠ b := by
    rintro rfl
    rw [hb] at hc
    cases hc
  have hcj : c ≠ joined p b q := by
    rintro rfl
    cases hc
  rw [hj.left, hj.right]
  simp only [List.mem_append, List.mem_cons]
  tauto

theorem Join.total_eq {w : Block -> Nat} (hj : Join l l' p q s t)
    (hb : b.used = false) (hw : forall c, c.used = false -> w c = 0) :
    total w (s ++ joined p b q :: t) = total w (l ++ b :: l') := by
  have hzero : forall o : Option Block, (forall x, x ∈ o -> x.used = false) ->
      total w o.toList = 0 := by
    intro o ho
    exact total_eq_zero fun x hx => hw x (ho x (by simpa using hx))
  rw [hj.left, hj.right]
  simp only [total_append, total_cons, hzero p hj.leftFree,
    hzero q hj.rightFree, hw b hb, hw (joined p b q) rfl]
  omega

theorem Join.lowestFree_eq {e : Nat} (hj : Join l l' p q s t) (hb : b.used = false) :
    lowestFree e (s ++ joined p b q :: t) = lowestFree e (l ++ b :: l') := by
  have hcons : lowestFree e (b :: l') = b.start := by simp [lowestFree, hb]
  have hcons' : lowestFree e (joined p b q :: t) = (p.getD b).start := by
    simp [lowestFree, joined]
  rw [lowestFree_append, lowestFree_append, hcons, hcons', hj.left]
  cases p with
  | none => simp
  | some p =>
    have hp := hj.leftFree p rfl
    simp [lowestFree_append, lowestFree, hp]

theorem Join.freeAt_joined {e : Nat} : FreeAt e (s ++ joined p b q :: t) (p.getD b).start :=
  Or.inr ⟨joined p b q, by simp, rfl, rfl⟩

end Join

/-!
## Headers
-/

structure Links where
  next : Nat -> Nat
  prev : Nat -> Nat
  used : Nat -> Bool

/-- The headers describe the blocks of a list that follow a block at `p`. -/
def Headers (k : Links) : Nat -> List Block -> Prop
  | _, [] => True
  | p, b :: l => k.next b.start = b.stop ∧ k.used b.start = b.used ∧
      k.prev b.start = p ∧ Headers k b.start l

def Agree (k k' : Links) (x : Nat) : Prop :=
  k'.next x = k.next x ∧ k'.used x = k.used x ∧ k'.prev x = k.prev x

/-- Headers are the same but for the backward link of the first. -/
def Relinked (k k' : Links) (q : Nat) : List Block -> Prop
  | [] => True
  | b :: l => k'.next b.start = k.next b.start ∧
      k'.used b.start = k.used b.start ∧ k'.prev b.start = q ∧
        forall c, c ∈ l -> Agree k k' c.start

/-- The start of the last block, `p` when there is none. -/
def lastStart (p : Nat) : List Block -> Nat
  | [] => p
  | b :: l => lastStart b.start l

section Headers

variable {k k' : Links} {p q : Nat} {l l' : List Block} {b : Block}

@[simp]
theorem lastStart_concat : lastStart p (l ++ [b]) = b.start := by
  induction l generalizing p with
  | nil => rfl
  | cons c l ih => exact ih

theorem headers_append : Headers k p (l ++ b :: l') <->
      Headers k p l ∧ k.next b.start = b.stop ∧ k.used b.start = b.used ∧
        k.prev b.start = lastStart p l ∧ Headers k b.start l' := by
  induction l generalizing p with
  | nil => simp [Headers, lastStart]
  | cons c l ih =>
    simp only [List.cons_append, Headers, lastStart, ih]
    tauto

theorem headers_append_iff :
    Headers k p (l ++ l') <-> Headers k p l ∧ Headers k (lastStart p l) l' := by
  induction l generalizing p with
  | nil => simp [Headers, lastStart]
  | cons c l ih =>
    simp only [List.cons_append, Headers, lastStart, ih]
    tauto

theorem Headers.congr (hh : Headers k p l)
    (hsame : forall c, c ∈ l -> Agree k k' c.start) : Headers k' p l := by
  induction l generalizing p with
  | nil => trivial
  | cons b l ih =>
    rcases hh with ⟨hnext, hused, hprev, hrest⟩
    rcases hsame b (by simp) with ⟨hn, hu, hp⟩
    refine ⟨hn.trans hnext, hu.trans hused, hp.trans hprev, ?_⟩
    apply ih hrest
    intro c hc
    exact hsame c (by simp [hc])

theorem Headers.relink (hh : Headers k p l) (hsame : Relinked k k' q l) : Headers k' q l := by
  cases l with
  | nil => trivial
  | cons b l =>
    rcases hh with ⟨hnext, hused, _, hrest⟩
    rcases hsame with ⟨hn, hu, hp, hagree⟩
    exact ⟨hn.trans hnext, hu.trans hused, hp, hrest.congr hagree⟩

theorem Headers.unique {gap a e : Nat} (hgap : 0 < gap) (ht : Tiles gap a l e)
    (ht' : Tiles gap a l' e) (hh : Headers k p l) (hh' : Headers k q l') :
    l = l' := by
  induction l generalizing a l' p q with
  | nil =>
    cases l' with
    | nil => rfl
    | cons b l' =>
      have heq : a = e := ht
      have hroom := ht'.right.left
      have hle := ht'.right.right.le
      omega
  | cons b l ih =>
    cases l' with
    | nil =>
      have heq : a = e := ht'
      have hroom := ht.right.left
      have hle := ht.right.right.le
      omega
    | cons d l' =>
      rcases ht with ⟨hstart, _, hrest⟩
      rcases ht' with ⟨hstart', _, hrest'⟩
      rcases hh with ⟨hnext, hused, _, hhrest⟩
      rcases hh' with ⟨hnext', hused', _, hhrest'⟩
      have hbd : b = d := by
        cases b
        cases d
        simp only at hstart hstart' hnext hnext' hused hused'
        subst hstart hstart' hnext hnext' hused hused'
        rfl
      subst hbd
      rw [ih hrest hrest' hhrest hhrest']

theorem Headers.of_mem (hh : Headers k p l) (hb : b ∈ l) :
    k.next b.start = b.stop ∧ k.used b.start = b.used := by
  rcases List.append_of_mem hb with ⟨s, t, hl⟩
  rw [hl, headers_append] at hh
  exact ⟨hh.right.left, hh.right.right.left⟩

end Headers

end RtThread.Tiling
