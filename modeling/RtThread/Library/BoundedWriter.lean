import Mathlib.Logic.Function.Basic
import Mathlib.Data.List.Basic

/-!
# Writing behind a moving pointer

A cursor walks upwards through an address space of finite size and wraps around at
its end.  Every output moves the cursor, but only the cells up to a last address are
stored; the addresses of all stores are kept beside the memory.
-/

namespace RtThread.BoundedWriter

universe u

variable {α : Type u}

/-- The memory, the addresses stored to so far and the next address. -/
structure Sink (α : Type u) where
  memory : Nat -> α
  written : List Nat
  cursor : Nat

/-- Store at the cursor unless it is behind the last address; move the cursor. -/
def Sink.put (space last : Nat) (w : Sink α) (c : α) : Sink α :=
  if w.cursor ≤ last then
    { memory := Function.update w.memory w.cursor c
      written := w.written ++ [w.cursor]
      cursor := (w.cursor + 1) % space }
  else
    { w with cursor := (w.cursor + 1) % space }

def Sink.puts (space last : Nat) (w : Sink α) (text : List α) : Sink α :=
  text.foldl (Sink.put space last) w

section Facts

variable {space last : Nat} {w : Sink α} {text : List α}

variable {c : α} {a : Nat}

@[simp] theorem puts_nil : w.puts space last [] = w := rfl

@[simp] theorem puts_cons :
    w.puts space last (c :: text) = (w.put space last c).puts space last text := rfl

theorem puts_append {more : List α} : w.puts space last (text ++ more) =
      (w.puts space last text).puts space last more :=
  List.foldl_append

@[simp] theorem put_cursor : (w.put space last c).cursor = (w.cursor + 1) % space := by
  unfold Sink.put
  split <;> rfl

theorem mem_written_put : a ∈ (w.put space last c).written <->
      a ∈ w.written ∨ (a = w.cursor ∧ w.cursor ≤ last) := by
  unfold Sink.put
  split
  · next hfits => simp [hfits]
  · next hfits => simp [hfits]

theorem memory_put_of_ne (hne : a ≠ w.cursor) : (w.put space last c).memory a = w.memory a := by
  unfold Sink.put
  split
  · simp [Function.update_of_ne hne]
  · rfl

theorem memory_put_cursor (hfits : w.cursor ≤ last) :
    (w.put space last c).memory w.cursor = c := by
  unfold Sink.put
  rw [if_pos hfits]
  simp

theorem puts_cursor (hcursor : w.cursor < space) :
    (w.puts space last text).cursor = (w.cursor + text.length) % space := by
  induction text generalizing w with
  | nil => simp [Nat.mod_eq_of_lt hcursor]
  | cons c text ih =>
    have hnext : (w.put space last c).cursor < space := by
      rw [put_cursor]
      exact Nat.mod_lt _ (by omega)
    rw [puts_cons, ih hnext, put_cursor, Nat.mod_add_mod, List.length_cons]
    congr 1
    omega

theorem mem_written_puts (hcursor : w.cursor < space) : a ∈ (w.puts space last text).written <->
      a ∈ w.written ∨ exists i, i < text.length ∧ a = (w.cursor + i) % space ∧
        a ≤ last := by
  induction text generalizing w with
  | nil => simp
  | cons c text ih =>
    have hnext : (w.put space last c).cursor < space := by
      rw [put_cursor]
      exact Nat.mod_lt _ (by omega)
    have hshift (i : Nat) :
        ((w.cursor + 1) % space + i) % space = (w.cursor + (i + 1)) % space := by
      rw [Nat.mod_add_mod]
      congr 1
      omega
    rw [puts_cons, ih hnext, mem_written_put, put_cursor]
    constructor
    · rintro ((hold | ⟨rfl, hfits⟩) | ⟨i, hi, ha, hfits⟩)
      · exact Or.inl hold
      · refine Or.inr ⟨0, by simp, ?_, hfits⟩
        rw [Nat.add_zero, Nat.mod_eq_of_lt hcursor]
      · refine Or.inr ⟨i + 1, by simpa using hi, ?_, hfits⟩
        rw [ha, hshift]
    · rintro (hold | ⟨i, hi, ha, hfits⟩)
      · exact Or.inl (Or.inl hold)
      · cases i with
        | zero =>
          rw [Nat.add_zero, Nat.mod_eq_of_lt hcursor] at ha
          exact Or.inl (Or.inr ⟨ha, ha ▸ hfits⟩)
        | succ i =>
          refine Or.inr ⟨i, by simpa using hi, ?_, hfits⟩
          rw [ha, hshift]

theorem memory_puts_below (hroom : w.cursor + text.length ≤ space) (ha : a < w.cursor) :
    (w.puts space last text).memory a = w.memory a := by
  induction text generalizing w with
  | nil => rfl
  | cons c text ih =>
    rw [List.length_cons] at hroom
    rw [puts_cons]
    cases text with
    | nil => exact memory_put_of_ne (by omega)
    | cons d text =>
      rw [List.length_cons] at hroom
      have hnext : (w.put space last c).cursor = w.cursor + 1 := by
        rw [put_cursor, Nat.mod_eq_of_lt (by omega)]
      rw [ih (by rw [hnext, List.length_cons]; omega) (by omega)]
      exact memory_put_of_ne (by omega)

theorem memory_puts_get (hroom : w.cursor + text.length ≤ space) {i : Nat}
    (hi : i < text.length) (hfits : w.cursor + i ≤ last) :
    (w.puts space last text).memory (w.cursor + i) = text[i] := by
  induction text generalizing w i with
  | nil => simp at hi
  | cons c text ih =>
    rw [List.length_cons] at hroom hi
    rw [puts_cons]
    by_cases htext : text = []
    · subst htext
      have hzero : i = 0 := by simpa using hi
      subst hzero
      exact memory_put_cursor hfits
    · have hlength : 0 < text.length := List.length_pos_iff.mpr htext
      have hnext : (w.put space last c).cursor = w.cursor + 1 := by
        rw [put_cursor, Nat.mod_eq_of_lt (by omega)]
      cases i with
      | zero =>
        rw [memory_puts_below (by rw [hnext]; omega) (by rw [hnext]; omega)]
        exact memory_put_cursor hfits
      | succ i =>
        have hget := @ih (w.put space last c) (by rw [hnext]; omega) i
          (by omega) (by rw [hnext]; omega)
        rw [hnext] at hget
        rw [List.getElem_cons_succ, ← hget]
        congr 1
        omega

end Facts

end RtThread.BoundedWriter
