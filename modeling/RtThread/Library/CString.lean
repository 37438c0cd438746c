import Mathlib.Data.List.Basic
import Mathlib.Data.UInt

/-!
# Strings that end at a zero byte

A string is the list of its bytes before the terminator, none of which is zero.
Reading at or behind the end of the list gives the terminator.
-/

namespace RtThread.Text

structure CString where
  bytes : List UInt8
  nonzero : 0 ∉ bytes
deriving DecidableEq

def strlen (s : CString) : Nat := s.bytes.length

def first (s : List UInt8) : UInt8 := s.headD 0

/-- Two byte strings are compared up to the first difference or the end. -/
def compare : List UInt8 -> List UInt8 -> Int
  | [], t => - (first t).toNat
  | a :: s, t =>
    if a = first t then compare s t.tail
    else (a.toNat : Int) - (first t).toNat

/-- At most `count` bytes are compared; the difference is kept in one byte. -/
def comparePart : List UInt8 -> List UInt8 -> Nat -> UInt8
  | _, _, 0 => 0
  | s, t, count + 1 =>
    let res := first s - first t
    if res ≠ 0 ∨ first s = 0 then res
    else comparePart s.tail t.tail count

def strcmp (s t : CString) : Int := compare s.bytes t.bytes

def strncmp (s t : CString) (count : Nat) : UInt8 :=
  comparePart s.bytes t.bytes count

theorem CString.ext_bytes {s t : CString} (h : s.bytes = t.bytes) : s = t := by
  cases s
  cases t
  cases h
  rfl

theorem compare_eq_zero_iff {s t : List UInt8} (hs : 0 ∉ s) (ht : 0 ∉ t) :
    compare s t = 0 <-> s = t := by
  induction s generalizing t with
  | nil =>
    cases t with
    | nil => simp [compare, first]
    | cons b t =>
      have hb : b ≠ 0 := fun h => ht (by simp [h])
      have hpos : b.toNat ≠ 0 := fun h => hb (UInt8.toNat_inj.mp h)
      simp only [compare, first, List.headD_cons, reduceCtorEq, iff_false]
      omega
  | cons a s ih =>
    have ha : a ≠ 0 := fun h => hs (by simp [h])
    have hs' : 0 ∉ s := fun h => hs (List.mem_cons_of_mem a h)
    have hdiff {b : UInt8} (hab : a ≠ b) : (a.toNat : Int) - b.toNat ≠ 0 := by
      intro h
      apply hab
      apply UInt8.toNat_inj.mp
      omega
    cases t with
    | nil =>
      have hne : a ≠ first [] := ha
      rw [compare, if_neg hne]
      simp [hdiff hne]
    | cons b t =>
      have ht' : 0 ∉ t := fun h => ht (List.mem_cons_of_mem b h)
      rw [compare]
      change (if a = b then compare s t else (a.toNat : Int) - b.toNat) = 0 <-> _
      by_cases hab : a = b
      · rw [if_pos hab, ih hs' ht']
        simp [hab]
      · rw [if_neg hab]
        simp [hab, hdiff hab]

theorem strcmp_eq_zero_iff {s t : CString} : strcmp s t = 0 <-> s = t := by
  unfold strcmp
  rw [compare_eq_zero_iff s.nonzero t.nonzero]
  constructor
  · exact CString.ext_bytes
  · intro h
    rw [h]

theorem comparePart_eq_zero_iff {s t : List UInt8} (hs : 0 ∉ s) (ht : 0 ∉ t) :
    comparePart s t t.length = 0 <-> t <+: s := by
  induction t generalizing s with
  | nil => simp [comparePart]
  | cons b t ih =>
    have hb : b ≠ 0 := fun h => ht (by simp [h])
    have ht' : 0 ∉ t := fun h => ht (List.mem_cons_of_mem b h)
    cases s with
    | nil =>
      simp [comparePart, first]
      exact hb
    | cons a s =>
      have ha : a ≠ 0 := fun h => hs (by simp [h])
      have hs' : 0 ∉ s := fun h => hs (List.mem_cons_of_mem a h)
      rw [List.length_cons, comparePart]
      change (if a - b ≠ 0 ∨ a = 0 then a - b else comparePart s t t.length) = 0 <-> _
      by_cases hab : a = b
      · subst hab
        rw [if_neg (by simp [ha]), ih hs' ht']
        simp [List.cons_prefix_cons]
      · have hsub : a - b ≠ 0 := by
          intro h
          exact hab (by rw [UInt8.sub_eq_iff_eq_add] at h; simpa using h)
        rw [if_pos (Or.inl hsub)]
        simp [List.cons_prefix_cons, hsub, Ne.symm hab]

theorem comparePart_eq_zero_iff_eq {s t : List UInt8} {count : Nat} (hs : 0 ∉ s)
    (ht : 0 ∉ t) (hslen : s.length ≤ count) (htlen : t.length ≤ count) :
    comparePart s t count = 0 <-> s = t := by
  induction count generalizing s t with
  | zero =>
    have hsnil := List.length_eq_zero_iff.mp (Nat.le_zero.mp hslen)
    have htnil := List.length_eq_zero_iff.mp (Nat.le_zero.mp htlen)
    simp [comparePart, hsnil, htnil]
  | succ count ih =>
    rw [comparePart]
    cases s with
    | nil =>
      cases t with
      | nil => simp [first]
      | cons b t =>
        have hb : b ≠ 0 := fun h => ht (by simp [h])
        simp [first, hb]
    | cons a s =>
      have ha : a ≠ 0 := fun h => hs (by simp [h])
      cases t with
      | nil => simp [first, ha]
      | cons b t =>
        by_cases hab : a = b
        · subst hab
          have htail := ih (s := s) (t := t) (fun h => hs (List.mem_cons_of_mem a h))
            (fun h => ht (List.mem_cons_of_mem a h))
            (Nat.le_of_succ_le_succ hslen) (Nat.le_of_succ_le_succ htlen)
          rw [if_neg (by simp [first, ha])]
          simpa using htail
        · have hsub : a - b ≠ 0 := by
            intro h
            exact hab (by rw [UInt8.sub_eq_iff_eq_add] at h; simpa using h)
          simp [first, hsub, hab]

theorem strncmp_eq_zero_iff {s t : CString} : strncmp s t (strlen t) = 0 <-> t.bytes <+: s.bytes :=
  comparePart_eq_zero_iff s.nonzero t.nonzero

end RtThread.Text
