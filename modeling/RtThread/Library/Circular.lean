import RtThread.Library.RingBuffer

/-!
# Memory that goes round

Cells have positions that count on without end; a cell lies in memory at its position modulo
the size.  As long as the positions in use stay within one round, cells with different
positions lie in different places.
-/

namespace RtThread.Circular

universe u

variable {β : Type u} {size lo a b n i : Nat} {mem : Nat -> β} {cells : List (Nat × β)}

def Holds (size : Nat) (mem : Nat -> β) (cells : List (Nat × β)) : Prop :=
  forall c, c ∈ cells -> mem (c.1 % size) = c.2

def Within (lo hi : Nat) (cells : List (Nat × β)) : Prop :=
  forall c, c ∈ cells -> lo ≤ c.1 ∧ c.1 < hi

theorem pos_eq_of_mod_eq (ha : lo ≤ a) (ha' : a < lo + size) (hb : lo ≤ b)
    (hb' : b < lo + size) (h : a % size = b % size) : a = b := by
  obtain ⟨i, rfl⟩ := Nat.exists_eq_add_of_le ha
  obtain ⟨j, rfl⟩ := Nat.exists_eq_add_of_le hb
  rcases Nat.lt_trichotomy i j with hlt | heq | hlt
  · exact absurd h (RingBuffer.mod_add_ne hlt (by omega))
  · rw [heq]
  · exact absurd h.symm (RingBuffer.mod_add_ne hlt (by omega))

theorem Holds.update {v : β} (h : Holds size mem cells) (hin : Within lo (lo + size) cells)
    (ha : lo ≤ a) (ha' : a < lo + size) (hne : forall c, c ∈ cells -> c.1 ≠ a) :
    Holds size (Function.update mem (a % size) v) cells := by
  intro c hc
  rw [Function.update_of_ne]
  · exact h c hc
  · intro heq
    exact hne c hc (pos_eq_of_mod_eq (hin c hc).1 (hin c hc).2 ha ha' heq)

theorem wrap_eq_mod (hi : i < size) (hn : n ≤ size) :
    (if size ≤ i + n then i + n - size else i + n) = (i + n) % size := by
  split
  · next hle =>
      rw [Nat.mod_eq_sub_mod hle, Nat.mod_eq_of_lt (by omega)]
  · next hlt => exact (Nat.mod_eq_of_lt (Nat.lt_of_not_le hlt)).symm

def copyTo : Nat -> List β -> List (Nat × β)
  | _, [] => []
  | base, v :: vs => (base, v) :: copyTo (base + 1) vs

theorem copyTo_append (base : Nat) (vs ws : List β) :
    copyTo base (vs ++ ws) = copyTo base vs ++ copyTo (base + vs.length) ws := by
  induction vs generalizing base with
  | nil => rfl
  | cons v vs ih =>
    rw [List.cons_append, copyTo, copyTo, ih, List.cons_append, List.length_cons,
      Nat.add_right_comm base 1, Nat.add_assoc]

theorem within_copyTo (base : Nat) (vs : List β) :
    Within base (base + vs.length) (copyTo base vs) := by
  induction vs generalizing base with
  | nil => nofun
  | cons v vs ih =>
    intro c hc
    rw [List.length_cons]
    rcases List.mem_cons.mp hc with rfl | hc
    · exact ⟨Nat.le_refl _, by omega⟩
    · have h := ih (base + 1) c hc
      omega

theorem mem_copyTo_iff {base : Nat} {vs : List β} {c : Nat × β} :
    c ∈ copyTo base vs <-> base ≤ c.1 ∧ vs[c.1 - base]? = some c.2 := by
  induction vs generalizing base with
  | nil => simp [copyTo]
  | cons v vs ih =>
    rw [copyTo, List.mem_cons, ih]
    constructor
    · rintro (rfl | ⟨hle, hget⟩)
      · simp
      · refine ⟨Nat.le_of_succ_le hle, ?_⟩
        rw [show c.1 - base = c.1 - (base + 1) + 1 by omega]
        exact hget
    · rintro ⟨hle, hget⟩
      rcases Nat.eq_or_lt_of_le hle with heq | hlt
      · left
        rw [← heq, Nat.sub_self] at hget
        exact Prod.ext heq.symm (Option.some.inj hget).symm
      · right
        rw [show c.1 - base = c.1 - (base + 1) + 1 by omega] at hget
        exact ⟨hlt, hget⟩

theorem copyTo_mod {base : Nat} {vs : List β} (hfit : base % size + vs.length ≤ size) :
    (copyTo base vs).map (fun c => (c.1 % size, c.2)) = copyTo (base % size) vs := by
  induction vs generalizing base with
  | nil => rfl
  | cons v vs ih =>
    rw [List.length_cons] at hfit
    rw [copyTo, List.map_cons, copyTo]
    by_cases hlast : vs = []
    · rw [hlast]
      rfl
    · have hpos : 0 < vs.length := List.length_pos_iff.mpr hlast
      have hnext : (base + 1) % size = base % size + 1 := by
        rw [Nat.add_mod, Nat.mod_eq_of_lt (show 1 < size by omega), Nat.mod_eq_of_lt (by omega)]
      rw [ih (by rw [hnext]; omega), hnext]

end RtThread.Circular
