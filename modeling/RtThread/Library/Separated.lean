import Mathlib.Data.List.TakeWhile

/-!
# Names behind separators

Texts that are made of names, each with a separator in front of it.  A text splits at a
separator in one way only.
-/

namespace RtThread.Separated

universe u

variable {α : Type u} {sep : α}

def IsName (sep : α) (c : List α) : Prop := c ≠ [] ∧ sep ∉ c

def body (sep : α) (cs : List (List α)) : List α := cs.flatMap fun c => sep :: c

def render (sep : α) (cs : List (List α)) : List α :=
  match cs with
  | [] => [sep]
  | _ :: _ => body sep cs

def AtBoundary (sep : α) (z : List α) : Prop := z = [] ∨ exists rest, z = sep :: rest

@[simp] theorem body_nil : body sep [] = [] := rfl

@[simp] theorem body_cons (c : List α) (cs : List (List α)) :
    body sep (c :: cs) = sep :: (c ++ body sep cs) := by
  simp [body]

theorem body_append (cs ds : List (List α)) :
    body sep (cs ++ ds) = body sep cs ++ body sep ds := by
  simp [body]

theorem body_atBoundary (cs : List (List α)) : AtBoundary sep (body sep cs) := by
  cases cs with
  | nil => exact Or.inl rfl
  | cons c cs => exact Or.inr ⟨_, body_cons c cs⟩

variable {cs ds : List (List α)} {z : List α}

theorem render_eq_body (hcs : cs ≠ []) : render sep cs = body sep cs := by
  cases cs with
  | nil => exact absurd rfl hcs
  | cons c cs => rfl

theorem AtBoundary.append {y : List α} (hy : AtBoundary sep y) (hz : AtBoundary sep z) :
    AtBoundary sep (y ++ z) := by
  rcases hy with rfl | ⟨rest, rfl⟩
  · exact hz
  · exact Or.inr ⟨rest ++ z, rfl⟩

theorem name_split {c d y : List α} (hc : sep ∉ c) (hd : sep ∉ d)
    (hy : AtBoundary sep y) (hz : AtBoundary sep z) (heq : c ++ y = d ++ z) :
    c = d ∧ y = z := by
  induction c generalizing d with
  | nil =>
    cases d with
    | nil => exact ⟨rfl, heq⟩
    | cons b d =>
      rcases hy with rfl | ⟨rest, rfl⟩
      · cases heq
      · have hb : sep = b := (List.cons.inj heq).1
        exact absurd (hb ▸ List.mem_cons_self) hd
  | cons a c ih =>
    cases d with
    | nil =>
      rcases hz with rfl | ⟨rest, rfl⟩
      · cases heq
      · have ha : a = sep := (List.cons.inj heq).1
        exact absurd (ha ▸ List.mem_cons_self) hc
    | cons b d =>
      obtain ⟨rfl, htail⟩ := List.cons.inj heq
      have hrest := ih (fun h => hc (List.mem_cons_of_mem a h))
        (fun h => hd (List.mem_cons_of_mem a h)) htail
      exact ⟨by rw [hrest.1], hrest.2⟩

theorem body_split (hcs : forall c, c ∈ cs -> IsName sep c)
    (hds : forall d, d ∈ ds -> IsName sep d)
    (hz : AtBoundary sep z) (heq : body sep ds = body sep cs ++ z) :
    exists es, ds = cs ++ es ∧ z = body sep es := by
  induction cs generalizing ds with
  | nil => exact ⟨ds, rfl, heq.symm⟩
  | cons c cs ih =>
    cases ds with
    | nil => simp at heq
    | cons d ds =>
      simp only [body_cons, List.cons_append, List.append_assoc] at heq
      obtain ⟨rfl, hrest⟩ := name_split (hds d List.mem_cons_self).2
        (hcs c List.mem_cons_self).2 (body_atBoundary ds)
        ((body_atBoundary cs).append hz) (List.cons.inj heq).2
      obtain ⟨es, hes, hz'⟩ := ih (fun c hc => hcs c (List.mem_cons_of_mem _ hc))
        (fun d hd => hds d (List.mem_cons_of_mem _ hd)) hrest
      exact ⟨es, by rw [hes]; rfl, hz'⟩

theorem body_injective (hcs : forall c, c ∈ cs -> IsName sep c)
    (hds : forall d, d ∈ ds -> IsName sep d) (heq : body sep cs = body sep ds) : cs = ds := by
  obtain ⟨es, hes, hnil⟩ := body_split hds hcs (Or.inl rfl) (heq.trans (List.append_nil _).symm)
  cases es with
  | nil => rw [hes, List.append_nil]
  | cons e es => simp at hnil

theorem two_le_length_body (hcs : forall c, c ∈ cs -> IsName sep c)
    (hne : cs ≠ []) : 2 ≤ (body sep cs).length := by
  cases cs with
  | nil => exact absurd rfl hne
  | cons c cs =>
    have hpos : 0 < c.length := List.length_pos_iff.mpr (hcs c List.mem_cons_self).1
    rw [body_cons, List.length_cons, List.length_append]
    omega

theorem render_injective (hcs : forall c, c ∈ cs -> IsName sep c)
    (hds : forall d, d ∈ ds -> IsName sep d) (heq : render sep cs = render sep ds) :
    cs = ds := by
  have hroot : forall es : List (List α), (forall e, e ∈ es -> IsName sep e) -> es ≠ [] ->
      render sep es ≠ [sep] := by
    intro es hes hne h
    have hlong := two_le_length_body hes hne
    rw [← render_eq_body hne, h] at hlong
    exact absurd hlong (by simp)
  cases cs with
  | nil =>
    cases ds with
    | nil => rfl
    | cons d ds => exact absurd heq.symm (hroot _ hds (List.cons_ne_nil _ _))
  | cons c cs =>
    cases ds with
    | nil => exact absurd heq (hroot _ hcs (List.cons_ne_nil _ _))
    | cons d ds => exact body_injective hcs hds heq

/-!
## The names of a text
-/

section Names

variable [DecidableEq α]

/-- The names of a text, however many separators stand between them; `cur` is the name
that has been begun. -/
def namesFrom (sep : α) : List α -> List α -> List (List α)
  | cur, [] => if cur = [] then [] else [cur]
  | cur, a :: rest =>
    if a = sep then
      if cur = [] then namesFrom sep [] rest else cur :: namesFrom sep [] rest
    else namesFrom sep (cur ++ [a]) rest

def names (sep : α) (text : List α) : List (List α) := namesFrom sep [] text

theorem namesFrom_nil (cur : List α) : namesFrom sep cur [] = if cur = [] then [] else [cur] := rfl

theorem namesFrom_cons (cur : List α) (a : α) (rest : List α) : namesFrom sep cur (a :: rest) =
      if a = sep then
        if cur = [] then namesFrom sep [] rest else cur :: namesFrom sep [] rest
      else namesFrom sep (cur ++ [a]) rest := rfl

theorem namesFrom_append {cur c rest : List α} (hc : sep ∉ c) :
    namesFrom sep cur (c ++ rest) = namesFrom sep (cur ++ c) rest := by
  induction c generalizing cur with
  | nil => simp
  | cons a c ih =>
    have ha : a ≠ sep := fun h => hc (h ▸ List.mem_cons_self)
    rw [List.cons_append, namesFrom_cons, if_neg ha]
    rw [ih fun h => hc (List.mem_cons_of_mem a h), List.append_assoc]
    rfl

theorem names_name {c : List α} (hc : IsName sep c) : names sep c = [c] := by
  have h := @namesFrom_append α sep _ [] c [] hc.2
  rw [List.append_nil, List.nil_append] at h
  rw [names, h, namesFrom_nil, if_neg hc.1]

theorem names_cons {c rest : List α} (hc : IsName sep c) :
    names sep (c ++ sep :: rest) = c :: names sep rest := by
  rw [names, namesFrom_append hc.2, List.nil_append, namesFrom_cons, if_pos rfl, if_neg hc.1]
  rfl

@[simp] theorem names_sep (rest : List α) : names sep (sep :: rest) = names sep rest := by
  rw [names, namesFrom_cons, if_pos rfl, if_pos rfl]
  rfl

theorem names_dropWhile (rest : List α) :
    names sep (rest.dropWhile fun a => a = sep) = names sep rest := by
  induction rest with
  | nil => rfl
  | cons a rest ih =>
    by_cases ha : a = sep
    · subst ha
      rw [List.dropWhile_cons_of_pos (by simp), ih, names_sep]
    · rw [List.dropWhile_cons_of_neg (by simpa using ha)]

theorem names_body {cs : List (List α)} (hcs : forall c, c ∈ cs -> IsName sep c) :
    names sep (body sep cs) = cs := by
  induction cs with
  | nil => rfl
  | cons c cs ih =>
    have hc := hcs c List.mem_cons_self
    have hrest : forall d, d ∈ cs -> IsName sep d :=
      fun d hd => hcs d (List.mem_cons_of_mem c hd)
    rw [body_cons, names_sep]
    cases cs with
    | nil => rw [body_nil, List.append_nil, names_name hc]
    | cons d ds =>
      have hnames := ih hrest
      rw [body_cons, names_sep] at hnames
      rw [body_cons, names_cons hc, hnames]

theorem names_render {cs : List (List α)} (hcs : forall c, c ∈ cs -> IsName sep c) :
    names sep (render sep cs) = cs := by
  cases cs with
  | nil => exact names_sep []
  | cons c cs => exact names_body hcs

end Names

end RtThread.Separated
