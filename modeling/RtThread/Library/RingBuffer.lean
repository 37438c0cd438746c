import Mathlib.Data.List.Basic
import Mathlib.Data.Nat.ModEq
import Mathlib.Logic.Function.Basic

/-!
# Ring buffers

A pool of cells, read at one offset and written at another, both of which wrap
around at the size of the pool.
-/

namespace RtThread.RingBuffer

universe u

variable {α : Type u} {pool : Nat -> α} {size out : Nat} {l : List α} {x : α}

def advance (size i : Nat) : Nat := if size ≤ i + 1 then 0 else i + 1

/-- The cells from `out` on hold this list. -/
structure Stores (pool : Nat -> α) (size out : Nat) (l : List α) : Prop where
  fits : l.length ≤ size
  offset : out < size
  cell : forall i x, l[i]? = some x -> pool ((out + i) % size) = x

theorem advance_lt {i : Nat} (hi : i < size) : advance size i < size := by
  unfold advance
  split <;> omega

theorem advance_eq_mod {i : Nat} (hi : i < size) : advance size i = (i + 1) % size := by
  unfold advance
  split
  · have heq : i + 1 = size := by omega
    rw [heq, Nat.mod_self]
  · rw [Nat.mod_eq_of_lt (by omega)]

theorem advance_add_mod {i n : Nat} (hi : i < size) :
    (advance size i + n) % size = (i + (n + 1)) % size := by
  rw [advance_eq_mod hi, Nat.mod_add_mod]
  congr 1
  omega

theorem Stores.nil (pool : Nat -> α) (hout : out < size) : Stores pool size out [] := by
  constructor
  · exact Nat.zero_le _
  · exact hout
  · intro i x hx
    cases hx

theorem mod_add_ne {i j : Nat} (hij : i < j) (hj : j < size) :
    (out + i) % size ≠ (out + j) % size := by
  intro heq
  have hdvd : size ∣ (out + j) - (out + i) :=
    (Nat.modEq_iff_dvd' (by omega)).mp heq
  have hle := Nat.le_of_dvd (by omega) hdvd
  omega

theorem Stores.push (hs : Stores pool size out l) (hroom : l.length < size) (v : α) :
    Stores (Function.update pool ((out + l.length) % size) v) size out (l ++ [v]) := by
  constructor
  · rw [List.length_append]
    exact hroom
  · exact hs.offset
  · intro i x hx
    rcases Nat.lt_or_ge i l.length with hi | hi
    · rw [List.getElem?_append_left hi] at hx
      rw [Function.update_of_ne (mod_add_ne hi hroom)]
      exact hs.cell i x hx
    · rw [List.getElem?_append_right hi] at hx
      have hzero : i = l.length := by
        have hlt := (List.getElem?_eq_some_iff.mp hx).choose
        rw [List.length_singleton] at hlt
        omega
      subst hzero
      rw [Nat.sub_self] at hx
      cases hx
      exact Function.update_self ..

theorem Stores.head (hs : Stores pool size out (x :: l)) : pool out = x := by
  have hcell := hs.cell 0 x rfl
  rwa [Nat.add_zero, Nat.mod_eq_of_lt hs.offset] at hcell

theorem Stores.pop (hs : Stores pool size out (x :: l)) :
    Stores pool size (advance size out) l := by
  have hfits := hs.fits
  rw [List.length_cons] at hfits
  constructor
  · omega
  · exact advance_lt hs.offset
  · intro i y hy
    rw [advance_add_mod hs.offset]
    exact hs.cell (i + 1) y hy

end RtThread.RingBuffer
