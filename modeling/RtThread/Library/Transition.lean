import Mathlib.Data.List.Basic

/-!
# Runs of labelled transition systems

A system is given by a step relation, usually the graph of a partial step function: a step that
violates a precondition has no successor. What happened so far is a history variable beside the
state, which a watched step updates and which never decides whether a step is possible.
-/

namespace RtThread.Transition

universe u v w

variable {State : Type u} {Label : Type v}

/-- The runs of a step relation from one start state, latest step last. -/
inductive Run (Step : State -> Label -> State -> Prop) (start : State) :
    List Label -> State -> Prop where
  | nil : Run Step start [] start
  | snoc {labels : List Label} {s s' : State} {a : Label} :
      Run Step start labels s -> Step s a s' ->
      Run Step start (labels ++ [a]) s'

def Graph (step : State -> Label -> Option State) (s : State) (a : Label)
    (s' : State) : Prop :=
  step s a = some s'

/-- A step relation restricted to the steps that meet a condition. -/
def Guarded (Ok : State -> Label -> Prop)
    (Step : State -> Label -> State -> Prop) (s : State) (a : Label)
    (s' : State) : Prop :=
  Ok s a ∧ Step s a s'

/-- Execute a list of labels, failing at the first step that is undefined. -/
def exec (step : State -> Label -> Option State) :
    State -> List Label -> Option State
  | s, [] => some s
  | s, a :: rest =>
    match step s a with
    | none => none
    | some s' => exec step s' rest

/-- A step function with a history variable beside its state. -/
def watched {History : Type w} (step : State -> Label -> Option State)
    (record : State -> Label -> State -> History -> History)
    (s : State × History) (a : Label) : Option (State × History) :=
  (step s.1 a).map fun s' => (s', record s.1 a s' s.2)

variable {Step : State -> Label -> State -> Prop} {start : State}

theorem Run.invariant (Inv : State -> Prop) (hstart : Inv start)
    (hstep : forall s a s', Inv s -> Step s a s' -> Inv s')
    {labels : List Label} {s : State} (hrun : Run Step start labels s) :
    Inv s := by
  induction hrun with
  | nil => exact hstart
  | snoc _ hs ih => exact hstep _ _ _ ih hs

theorem Run.mono {Step' : State -> Label -> State -> Prop}
    (hsub : forall s a s', Step s a s' -> Step' s a s')
    {labels : List Label} {s : State} (hrun : Run Step start labels s) :
    Run Step' start labels s := by
  induction hrun with
  | nil => exact Run.nil
  | snoc _ hs ih => exact Run.snoc ih (hsub _ _ _ hs)

theorem Run.of_guarded {Ok : State -> Label -> Prop} {labels : List Label}
    {s : State} (hrun : Run (Guarded Ok Step) start labels s) :
    Run Step start labels s :=
  hrun.mono fun _ _ _ h => h.right

theorem Run.guard {Ok : State -> Label -> Prop} {labels : List Label} {s : State}
    (hok : forall s a, a ∈ labels -> Ok s a) (hrun : Run Step start labels s) :
    Run (Guarded Ok Step) start labels s := by
  induction hrun with
  | nil => exact Run.nil
  | snoc _ hs ih =>
    apply Run.snoc
    · apply ih
      intro s a ha
      exact hok s a (List.mem_append_left _ ha)
    · exact ⟨hok _ _ (by simp), hs⟩

theorem Run.exec_append {step : State -> Label -> Option State}
    {labels more : List Label} {s s' : State}
    (hrun : Run (Graph step) start labels s)
    (hexec : exec step s more = some s') :
    Run (Graph step) start (labels ++ more) s' := by
  induction more generalizing labels s with
  | nil =>
    cases hexec
    simpa using hrun
  | cons a rest ih =>
    simp only [exec] at hexec
    cases hs : step s a with
    | none =>
      rw [hs] at hexec
      cases hexec
    | some s1 =>
      rw [hs] at hexec
      simpa using ih (Run.snoc hrun hs) hexec

theorem run_of_exec {step : State -> Label -> Option State} {labels : List Label} {s : State}
    (hexec : exec step start labels = some s) :
    Run (Graph step) start labels s := by
  simpa using Run.exec_append Run.nil hexec

theorem guarded_run_of_exec {step : State -> Label -> Option State}
    {Ok : State -> Label -> Prop} [forall s a, Decidable (Ok s a)]
    {labels : List Label} {s : State}
    (hexec : exec (fun s a => if Ok s a then step s a else none) start labels = some s) :
    Run (Guarded Ok (Graph step)) start labels s := by
  apply (run_of_exec hexec).mono
  intro s a s' hs
  change (if Ok s a then step s a else none) = some s' at hs
  split at hs
  · rename_i hok
    exact ⟨hok, hs⟩
  · cases hs

section Watched

variable {History : Type w} {step : State -> Label -> Option State}
  {record : State -> Label -> State -> History -> History}
  {s : State} {a : Label} {h : History} {x : State × History}

theorem watched_eq_some (hs : watched step record (s, h) a = some x) :
    step s a = some x.1 ∧ x.2 = record s a x.1 h := by
  unfold watched at hs
  rw [Option.map_eq_some_iff] at hs
  rcases hs with ⟨s', hs', hx⟩
  subst hx
  exact ⟨hs', rfl⟩

theorem Run.guarded_watched_invariant {Ok : State × History -> Label -> Prop}
    (Inv : State -> History -> Prop) {h0 : History} (hstart : Inv start h0)
    (hstep : forall s h a s', Inv s h -> Ok (s, h) a -> step s a = some s' ->
      Inv s' (record s a s' h))
    {labels : List Label}
    (hrun : Run (Guarded Ok (Graph (watched step record))) (start, h0) labels x) :
    Inv x.1 x.2 := by
  apply hrun.invariant (fun x => Inv x.1 x.2) hstart
  rintro ⟨s, h⟩ a ⟨s', h'⟩ hinv ⟨hok, hs⟩
  obtain ⟨hmoved, hrecord⟩ := watched_eq_some hs
  change h' = record s a s' h at hrecord
  subst hrecord
  exact hstep s h a s' hinv hok hmoved

theorem Run.watched_invariant (Inv : State -> History -> Prop) {h0 : History}
    (hstart : Inv start h0)
    (hstep : forall s h a s', Inv s h -> step s a = some s' -> Inv s' (record s a s' h))
    {labels : List Label}
    (hrun : Run (Graph (watched step record)) (start, h0) labels x) : Inv x.1 x.2 :=
  Run.guarded_watched_invariant Inv hstart (fun s h a s' hinv _ => hstep s h a s' hinv)
    (@Run.guard _ _ _ _ (fun _ _ => True) _ _ (fun _ _ _ => trivial) hrun)

end Watched

section Lockstep

variable {State' : Type u} {step : State -> Label -> Option State}
  {step' : State' -> Label -> Option State'} {R : State -> State' -> Prop}
  {Ok : Label -> Prop}

theorem rel_some {o : Option State} {s' : State'} (hrel : Option.Rel R o (some s')) :
    exists s, o = some s ∧ R s s' := by
  cases hrel with
  | some h => exact ⟨_, rfl, h⟩

/-- Two systems that agree at every step agree along every run: either both can
take all the steps, or neither can. -/
theorem exec_rel (hstep : forall s s' a, Ok a -> R s s' -> Option.Rel R (step s a) (step' s' a))
    {labels : List Label} (hlabels : forall a, a ∈ labels -> Ok a) {s : State}
    {s' : State'} (hrel : R s s') :
    Option.Rel R (exec step s labels) (exec step' s' labels) := by
  induction labels generalizing s s' with
  | nil => exact Option.Rel.some hrel
  | cons a rest ih =>
    have hone := hstep s s' a (hlabels a List.mem_cons_self) hrel
    simp only [exec]
    generalize step s a = o, step' s' a = o' at hone ⊢
    cases hone with
    | none => exact Option.Rel.none
    | some hx => exact ih (fun b hb => hlabels b (List.mem_cons_of_mem a hb)) hx

theorem watched_rel {History : Type w} {record : State -> Label -> State -> History -> History}
    {record' : State' -> Label -> State' -> History -> History}
    (hstep : forall s s' a, Ok a -> R s s' -> Option.Rel R (step s a) (step' s' a))
    (hrecord : forall s s' a x x' h, R s s' -> step s a = some x ->
      step' s' a = some x' -> R x x' -> record s a x h = record' s' a x' h)
    (x : State × History) (x' : State' × History) (a : Label) (hok : Ok a)
    (hrel : R x.1 x'.1 ∧ x.2 = x'.2) :
    Option.Rel (fun x x' => R x.1 x'.1 ∧ x.2 = x'.2) (watched step record x a)
      (watched step' record' x' a) := by
  have hone := hstep x.1 x'.1 a hok hrel.left
  unfold watched
  generalize hs : step x.1 a = o, hs' : step' x'.1 a = o' at hone ⊢
  cases hone with
  | none => exact Option.Rel.none
  | some hy =>
    refine Option.Rel.some ⟨hy, ?_⟩
    rw [hrel.right]
    exact hrecord _ _ _ _ _ _ hrel.left hs hs' hy

end Lockstep

end RtThread.Transition
