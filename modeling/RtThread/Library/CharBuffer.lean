import Mathlib.Data.List.Basic
import Mathlib.Data.List.TakeWhile

/-!
# Character arrays of a fixed size

A string in memory ends at a zero character; a character array may hold none, and then
reading it as a string goes past its end.  Strings are lists of characters before the
terminator.
-/

namespace RtThread.CharBuffer

/-- `strncpy(dst, src, n)` into an array of `n` characters: no terminator where the string
fills the array, zeros behind the string elsewhere. -/
def strncpy (src : List Char) (n : Nat) : List Char :=
  src.take n ++ List.replicate (n - src.length) '\x00'

def content (buf : List Char) : Option (List Char) :=
  if '\x00' ∈ buf then some (buf.takeWhile fun c => c ≠ '\x00') else none

/-- `strcmp(buf, s) == 0` on an array and a string; there is no result where the comparison
goes past the end of the array. -/
def strcmpEq : List Char -> List Char -> Option Bool
  | [], _ => none
  | a :: buf, s =>
    if a ≠ s.headD '\x00' then some false
    else if a = '\x00' then some true
    else strcmpEq buf s.tail

variable {src s : List Char} {n k : Nat}

theorem length_strncpy : (strncpy src n).length = n := by
  rw [strncpy, List.length_append, List.length_take, List.length_replicate]
  omega

theorem strncpy_of_le (h : src.length ≤ n) :
    strncpy src n = src ++ List.replicate (n - src.length) '\x00' := by
  rw [strncpy, List.take_of_length_le h]

theorem content_strncpy (hsrc : '\x00' ∉ src) (h : src.length < n) :
    content (strncpy src n) = some src := by
  obtain ⟨k, hk⟩ : exists k, n - src.length = k + 1 := ⟨n - src.length - 1, by omega⟩
  have hall : forall c, c ∈ src -> decide (c ≠ '\x00') = true := by
    intro c hc
    rw [decide_eq_true_eq]
    rintro rfl
    exact hsrc hc
  rw [strncpy_of_le (Nat.le_of_lt h), hk, content, if_pos (by simp),
    List.takeWhile_append_of_pos hall]
  simp [List.replicate_succ]

theorem strcmpEq_stored (hsrc : '\x00' ∉ src) (hs : '\x00' ∉ s) :
    strcmpEq (src ++ List.replicate (k + 1) '\x00') s = some (decide (src = s)) := by
  induction src generalizing s with
  | nil =>
    cases s with
    | nil => rfl
    | cons b s =>
      have hb : '\x00' ≠ b := fun h => hs (h ▸ List.mem_cons_self)
      rw [List.nil_append, List.replicate_succ, strcmpEq, List.headD_cons, if_pos hb]
      rfl
  | cons a src ih =>
    have ha : a ≠ '\x00' := fun h => hsrc (h ▸ List.mem_cons_self)
    cases s with
    | nil =>
      rw [List.cons_append, strcmpEq, List.headD_nil, if_pos ha]
      rfl
    | cons b s =>
      rw [List.cons_append, strcmpEq, List.headD_cons, List.tail_cons]
      by_cases hab : a = b
      · rw [if_neg (not_not.mpr hab), if_neg ha, ih (fun h => hsrc (List.mem_cons_of_mem a h))
            (fun h => hs (List.mem_cons_of_mem b h))]
        simp [hab]
      · rw [if_pos hab]
        simp [hab]

theorem strcmpEq_strncpy (hsrc : '\x00' ∉ src) (hs : '\x00' ∉ s) (h : src.length < n) :
    strcmpEq (strncpy src n) s = some (decide (src = s)) := by
  obtain ⟨k, hk⟩ : exists k, n - src.length = k + 1 := ⟨n - src.length - 1, by omega⟩
  rw [strncpy_of_le (Nat.le_of_lt h), hk, strcmpEq_stored hsrc hs]

end RtThread.CharBuffer
