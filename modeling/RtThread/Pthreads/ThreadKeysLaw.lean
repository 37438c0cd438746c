import RtThread.Pthreads.ThreadKeys

/-!
# Thread-specific data is isolated

A step keeps the values of the threads apart exactly when it is clean: a slot that gets a
new key, or that a new array brings with it, holds nothing yet.
-/

namespace RtThread.Pthreads.ThreadKeys

open Kernel Transition
open Function (update update_eq_self update_idem update_of_ne update_self)

def Ended (s : State) : Prop := forall t, s.pc t = ExitPc.done -> s.tls t = none

section Tables

variable {s s' : State} {h h' : Values} {t : Tid} {key index data : Nat}
  {table : Nat -> Nat} {d : KeyData} {pc : ExitPc}

theorem used_iff :
    s.used key = true <-> key < pthreadKeyMax ∧ (s.threadKeys key).isUsed = true := by
  simp [State.used]

@[simp]
theorem used_tls {tls : Tid -> Option (Nat -> Nat)} :
    ({ s with tls := tls } : State).used key = s.used key := rfl

@[simp]
theorem move_pc : (s.move t pc).pc t = pc := by
  simp only [State.move, update_self]

theorem move_pc_of_ne {t' : Tid} (hne : t' ≠ t) : (s.move t pc).pc t' = s.pc t' := by
  simp only [State.move, update_of_ne hne]

theorem used_update (hkey : key < pthreadKeyMax) :
    ({ s with threadKeys := update s.threadKeys key d } : State).used index =
      if index = key then d.isUsed else s.used index := by
  simp only [State.used]
  by_cases heq : index = key
  · subst heq
    rw [if_pos rfl, update_self, decide_eq_true hkey, Bool.true_and]
  · rw [if_neg heq, update_of_ne heq]

theorem get_of_used (hused : s.used key = true) :
    pthreadGetspecific s t key = ((s.tls t).map fun table => table key).getD 0 := by
  unfold pthreadGetspecific
  cases s.tls t with
  | none => rfl
  | some table => exact if_pos hused

theorem get_congr (htls : s'.tls t = s.tls t) (hused : s'.used key = s.used key) :
    pthreadGetspecific s' t key = pthreadGetspecific s t key := by
  unfold pthreadGetspecific
  rw [htls, hused]

theorem Isolated.intro (hget : forall t key, s.pc t ≠ ExitPc.done -> s.used key = true ->
      pthreadGetspecific s t key = h t key)
    (hcalling : forall t index data, s.pc t = ExitPc.calling index data ->
      s.used index = true ∧ (s.threadKeys index).destructor ≠ 0 ∧ data = h t index ∧
        data ≠ 0)
    (hstored : s.nullStore = false) : Isolated s h := by
  refine ⟨hget, ?_, hcalling, hstored⟩
  intro t index table hpc htls hlt data
  have hnot : s.pc t ≠ ExitPc.done := by
    rw [hpc]
    exact nofun
  unfold State.found
  by_cases hused : (s.threadKeys index).isUsed = true
  · have hvalue := hget t index hnot (used_iff.mpr ⟨hlt, hused⟩)
    rw [get_of_used (used_iff.mpr ⟨hlt, hused⟩), htls] at hvalue
    have hvalue' : table index = h t index := hvalue
    rw [hvalue']
    by_cases hzero : h t index = 0
    · rw [if_neg (fun hcond => hcond.right hzero)]
      constructor
      · intro hnone
        cases hnone
      · rintro ⟨_, hdata, hne⟩
        exact absurd (hdata.trans hzero) hne
    · rw [if_pos ⟨hused, hzero⟩, Option.some.injEq]
      constructor
      · intro hdata
        subst hdata
        exact ⟨hused, rfl, hzero⟩
      · intro hdata
        exact hdata.right.left.symm
  · rw [if_neg (fun hcond => hused hcond.left)]
    constructor
    · intro hnone
      cases hnone
    · intro hdata
      exact absurd hdata.left hused

theorem createLoop_spec {keys : Nat -> KeyData} {count start : Nat}
    (hloop : createLoop keys count start = some index) :
    index < start + count ∧ (keys index).isUsed = false := by
  induction count generalizing start with
  | zero => cases hloop
  | succ count ih =>
    rw [createLoop] at hloop
    split at hloop
    · rename_i hfree
      cases hloop
      exact ⟨by omega, hfree⟩
    · have hrest := ih hloop
      exact ⟨by omega, hrest.right⟩

theorem nextKey_spec (hnext : s.nextKey = some index) :
    index < pthreadKeyMax ∧ s.used index = false := by
  have hspec := createLoop_spec hnext
  have hlt : index < pthreadKeyMax := by omega
  refine ⟨hlt, ?_⟩
  unfold State.used
  rw [hspec.right, Bool.and_false]

theorem mayCall_not_done (hcall : s.mayCall t = true) : s.pc t ≠ ExitPc.done := by
  intro hpc
  unfold State.mayCall at hcall
  rw [hpc] at hcall
  cases hcall

theorem mayCall_not_calling (hcall : s.mayCall t = true) :
    s.pc t ≠ ExitPc.calling index data := by
  intro hpc
  unfold State.mayCall at hcall
  rw [hpc] at hcall
  cases hcall

end Tables

/-!
## One step
-/

section Steps

variable {s s' : State} {h : Values} {t : Tid} {key index data value : Nat}
  {table : Nat -> Nat} {fresh : Option (Nat -> Nat)}

theorem Isolated.created (hi : Isolated s h) (hended : Ended s) (destructor : Nat)
    (hnext : s.nextKey = some index) :
    Isolated { s with threadKeys := update s.threadKeys index ⟨true, destructor⟩ }
        (fun t k => if k = index then 0 else h t k) <->
      forall t table, s.tls t = some table -> table index = 0 := by
  rcases nextKey_spec hnext with ⟨hlt, hunused⟩
  have hused : forall {k}, ({ s with
      threadKeys := update s.threadKeys index ⟨true, destructor⟩ } : State).used k =
      if k = index then true else s.used k := used_update hlt
  constructor
  · intro hnew t table htls
    have hnot : s.pc t ≠ ExitPc.done := by
      intro hdone
      rw [hended t hdone] at htls
      cases htls
    have hin := hused (k := index)
    rw [if_pos rfl] at hin
    have hget := hnew.get t index hnot hin
    rw [get_of_used hin, if_pos rfl] at hget
    have hget' : ((s.tls t).map fun table => table index).getD 0 = 0 := hget
    rw [htls] at hget'
    exact hget'
  · intro hzero
    apply Isolated.intro
    · intro t k hpc hin
      rw [get_of_used hin]
      show ((s.tls t).map fun table => table k).getD 0 = _
      by_cases heq : k = index
      · rw [if_pos heq, heq]
        cases htls : s.tls t with
        | none => rfl
        | some table => exact hzero t table htls
      · rw [hused, if_neg heq] at hin
        rw [if_neg heq, ← get_of_used hin]
        exact hi.get t k hpc hin
    · intro t k data hpc
      rcases hi.calling t k data hpc with ⟨hin, hdestructor, hdata, hne⟩
      have heq : k ≠ index := by
        rintro rfl
        rw [hunused] at hin
        cases hin
      simp only [hused, if_neg heq, update_of_ne heq]
      exact ⟨hin, hdestructor, hdata, hne⟩
    · exact hi.stored

theorem Isolated.deleted (hi : Isolated s h) (hlt : key < pthreadKeyMax) :
    Isolated { s with threadKeys := update s.threadKeys key ⟨false, 0⟩ } h <->
      forall t index data, s.pc t = ExitPc.calling index data -> index ≠ key := by
  have hused : forall {k}, ({ s with
      threadKeys := update s.threadKeys key ⟨false, 0⟩ } : State).used k =
      if k = key then false else s.used k := used_update hlt
  constructor
  · intro hnew t index data hpc heq
    have hin := (hnew.calling t index data hpc).left
    rw [hused, if_pos heq] at hin
    cases hin
  · intro hother
    apply Isolated.intro
    · intro t k hpc hin
      have heq : k ≠ key := by
        rintro rfl
        rw [hused, if_pos rfl] at hin
        cases hin
      have hin' : s.used k = true := by
        rw [hused, if_neg heq] at hin
        exact hin
      rw [← hi.get t k hpc hin']
      exact get_congr rfl (hin.trans hin'.symm)
    · intro t k data hpc
      have heq := hother t k data hpc
      simp only [hused, if_neg heq, update_of_ne heq]
      exact hi.calling t k data hpc
    · exact hi.stored

theorem Isolated.stored_table {h' : Values} (hi : Isolated s h) (hcall : s.mayCall t = true)
    (hothers : forall t', t' ≠ t -> h' t' = h t') :
    Isolated { s with tls := update s.tls t (some table) } h' <->
      forall k, s.used k = true -> table k = h' t k := by
  constructor
  · intro hnew k hin
    have hget := hnew.get t k (mayCall_not_done hcall) hin
    unfold pthreadGetspecific at hget
    simp only [update_self] at hget
    rw [used_tls, if_pos hin] at hget
    exact hget
  · intro hvalues
    apply Isolated.intro
    · intro t' k hpc hin
      by_cases heq : t' = t
      · subst heq
        rw [get_of_used hin]
        simp only [update_self]
        exact hvalues k hin
      · rw [hothers t' heq, ← hi.get t' k hpc hin]
        exact get_congr (update_of_ne heq _ _) rfl
    · intro t' k data hpc
      have heq : t' ≠ t := by
        rintro rfl
        exact mayCall_not_calling hcall hpc
      rw [hothers t' heq]
      exact hi.calling t' k data hpc
    · exact hi.stored

theorem Isolated.get_none (hi : Isolated s h) (hcall : s.mayCall t = true)
    (hnone : s.tls t = none) (hin : s.used key = true) : h t key = 0 := by
  rw [← hi.get t key (mayCall_not_done hcall) hin, get_of_used hin, hnone]
  rfl

/-- The first `pthread_setspecific` of a thread has memory for the array, with any contents,
or has none. -/
def FreshFor (s : State) (key : Nat) (fresh : Option (Nat -> Nat)) : Prop :=
  forall index, s.used index = true ->
    if index = key then fresh ≠ none
    else forall table, fresh = some table -> table index = 0

theorem Isolated.set (hi : Isolated s h) (hcall : s.mayCall t = true) (hin : s.used key = true) :
    Isolated (pthreadSetspecific s t key value fresh).1 (update h t (update (h t) key value)) <->
      (s.tls t = none -> FreshFor s key fresh) := by
  have hothers : forall t', t' ≠ t -> update h t (update (h t) key value) t' = h t' :=
    fun t' hne => update_of_ne hne _ _
  unfold pthreadSetspecific
  simp only [used_tls, hin, if_true]
  cases htls : s.tls t with
  | some table =>
    simp only [Option.some_or, update_idem]
    rw [hi.stored_table hcall hothers, update_self]
    constructor
    · intro _ hnone
      cases hnone
    · intro _ k hk
      have hvalue := hi.get t k (mayCall_not_done hcall) hk
      rw [get_of_used hk, htls] at hvalue
      by_cases heq : k = key
      · rw [heq, update_self, update_self]
      · rw [update_of_ne heq, update_of_ne heq]
        exact hvalue
  | none =>
    cases fresh with
    | none =>
      simp only [Option.none_or]
      constructor
      · intro hnew
        cases hnew.stored
      · intro hfresh
        have hkey := hfresh trivial key hin
        rw [if_pos rfl] at hkey
        exact absurd rfl hkey
    | some table =>
      simp only [Option.none_or, update_idem]
      rw [hi.stored_table hcall hothers, update_self]
      constructor
      · intro hvalues _ k hk
        by_cases heq : k = key
        · rw [if_pos heq]
          exact nofun
        · rw [if_neg heq]
          rintro _ ⟨rfl⟩
          have hvalue := hvalues k hk
          rw [update_of_ne heq, update_of_ne heq] at hvalue
          exact hvalue.trans (hi.get_none hcall htls hk)
      · intro hfresh k hk
        by_cases heq : k = key
        · rw [heq, update_self, update_self]
        · have hzero := hfresh trivial k hk
          rw [if_neg heq] at hzero
          rw [update_of_ne heq, update_of_ne heq, hzero table rfl]
          exact (hi.get_none hcall htls hk).symm

theorem set_outcome (hin : s.used key = true) :
    (pthreadSetspecific s t key value fresh).2 = Outcome.done := by
  unfold pthreadSetspecific
  simp only [used_tls, hin, if_true]
  split <;> rfl

theorem set_outcome_failed (hout : s.used key = false) :
    (pthreadSetspecific s t key value fresh).2 = Outcome.failed Errno.einval := by
  unfold pthreadSetspecific
  simp only [used_tls, hout, Bool.false_eq_true, if_false]

theorem Isolated.set_failed (hi : Isolated s h) (hcall : s.mayCall t = true)
    (hout : s.used key = false) :
    Isolated (pthreadSetspecific s t key value fresh).1 h <->
      (s.tls t = none -> FreshFor s key fresh) := by
  have hne : forall {k}, s.used k = true -> k ≠ key := by
    rintro k hk rfl
    rw [hout] at hk
    cases hk
  unfold pthreadSetspecific
  simp only [used_tls, hout, Bool.false_eq_true, if_false]
  cases htls : s.tls t with
  | some table =>
    simp only [Option.some_or]
    rw [hi.stored_table hcall (fun _ _ => rfl)]
    constructor
    · intro _ hnone
      cases hnone
    · intro _ k hk
      have hvalue := hi.get t k (mayCall_not_done hcall) hk
      rw [get_of_used hk, htls] at hvalue
      exact hvalue
  | none =>
    cases fresh with
    | none =>
      have hsame : update s.tls t none = s.tls := by
        rw [← htls, update_eq_self]
      simp only [Option.none_or, hsame]
      constructor
      · intro _ _ k hk
        rw [if_neg (hne hk)]
        intro table hsome
        cases hsome
      · exact fun _ => hi
    | some table =>
      simp only [Option.none_or]
      rw [hi.stored_table hcall (fun _ _ => rfl)]
      constructor
      · intro hvalues _ k hk
        rw [if_neg (hne hk)]
        rintro _ ⟨rfl⟩
        exact (hvalues k hk).trans (hi.get_none hcall htls hk)
      · intro hfresh k hk
        have hzero := hfresh trivial k hk
        rw [if_neg (hne hk)] at hzero
        rw [hzero table rfl]
        exact (hi.get_none hcall htls hk).symm

theorem Isolated.move {pc : ExitPc} (hi : Isolated s h) (hnot : s.pc t ≠ ExitPc.done)
    (hpc : forall index data, pc ≠ ExitPc.calling index data) : Isolated (s.move t pc) h := by
  apply Isolated.intro
  · intro t' k hpc' hin
    refine hi.get t' k ?_ hin
    by_cases heq : t' = t
    · exact heq ▸ hnot
    · exact move_pc_of_ne heq ▸ hpc'
  · intro t' index data hcalling
    by_cases heq : t' = t
    · rw [heq, move_pc] at hcalling
      exact absurd hcalling (hpc index data)
    · rw [move_pc_of_ne heq] at hcalling
      exact hi.calling t' index data hcalling
  · exact hi.stored

theorem Isolated.move_done (hi : Isolated s h) (t : Nat) (tls : Option (Nat -> Nat)) :
    Isolated ({ s with tls := update s.tls t tls }.move t ExitPc.done) h := by
  apply Isolated.intro
  · intro t' k hpc' hin
    have heq : t' ≠ t := by
      rintro rfl
      rw [move_pc] at hpc'
      exact hpc' rfl
    rw [move_pc_of_ne heq] at hpc'
    rw [← hi.get t' k hpc' hin]
    exact get_congr (update_of_ne heq _ _) rfl
  · intro t' index data hcalling
    by_cases heq : t' = t
    · rw [heq, move_pc] at hcalling
      cases hcalling
    · rw [move_pc_of_ne heq] at hcalling
      exact hi.calling t' index data hcalling
  · exact hi.stored

theorem Isolated.exitTest (hi : Isolated s h) (hpc : s.pc t = ExitPc.at index)
    (htls : s.tls t = some table) :
    Isolated (exitTest s t table index) h <->
      (index < pthreadKeyMax -> s.found table index ≠ none ->
        (s.threadKeys index).destructor ≠ 0) := by
  have hnot : s.pc t ≠ ExitPc.done := by
    rw [hpc]
    exact nofun
  unfold ThreadKeys.exitTest
  by_cases hlt : index < pthreadKeyMax
  · rw [if_pos hlt]
    cases hfound : s.found table index with
    | none =>
      simp only [ne_eq, not_true_eq_false, false_implies, implies_true, iff_true]
      exact hi.move hnot nofun
    | some data =>
      have hvalue := (hi.found t index table hpc htls hlt data).mp hfound
      have hin : s.used index = true := used_iff.mpr ⟨hlt, hvalue.left⟩
      constructor
      · intro hnew _ _
        exact (hnew.calling t index data (update_self _ _ _)).right.left
      · intro hdestructor
        apply Isolated.intro
        · intro t' k hpc' hk
          refine hi.get t' k ?_ hk
          by_cases heq : t' = t
          · exact heq ▸ hnot
          · exact move_pc_of_ne heq ▸ hpc'
        · intro t' k data' hcalling
          by_cases heq : t' = t
          · rw [heq, move_pc] at hcalling
            cases hcalling
            rw [heq]
            exact ⟨hin, hdestructor hlt (by rw [ne_eq]; exact nofun), hvalue.right⟩
          · rw [move_pc_of_ne heq] at hcalling
            exact hi.calling t' k data' hcalling
        · exact hi.stored
  · rw [if_neg hlt]
    constructor
    · exact fun _ h => absurd h hlt
    · exact fun _ => hi.move_done _ _

theorem Isolated.step {op : Op} (hi : Isolated s h) (hended : Ended s)
    (hs : step s op = some s') : Isolated s' (recordValue s op s' h) <-> Clean s op := by
  unfold ThreadKeys.step at hs
  rw [Option.map_eq_some_iff] at hs
  rcases hs with ⟨⟨s1, outcome⟩, hout, hs1⟩
  change s1 = s' at hs1
  subst hs1
  unfold recordValue
  rw [hout]
  cases op with
  | keyCreate t destructor =>
    simp only [stepOutcome, Option.ite_none_right_eq_some, Option.some.injEq] at hout
    rcases hout with ⟨_, hcreate⟩
    unfold pthreadKeyCreate at hcreate
    unfold Clean
    cases hnext : s.nextKey with
    | none =>
      rw [hnext] at hcreate
      cases hcreate
      exact iff_of_true hi nofun
    | some index =>
      rw [hnext] at hcreate
      cases hcreate
      simp only [Option.map_some, Option.some.injEq, forall_eq']
      exact hi.created hended destructor hnext
  | keyDelete t key =>
    simp only [stepOutcome, Option.ite_none_right_eq_some, Option.some.injEq] at hout
    rcases hout with ⟨_, hdelete⟩
    unfold pthreadKeyDelete at hdelete
    unfold Clean
    split at hdelete
    · rename_i hge
      cases hdelete
      refine iff_of_true hi ?_
      intro t index data hpc heq
      have hlt := (used_iff.mp (hi.calling t index data hpc).left).left
      omega
    · rename_i hlt
      cases hdelete
      exact hi.deleted (by omega)
  | setspecific t key value fresh =>
    simp only [stepOutcome, Option.ite_none_right_eq_some, Option.some.injEq] at hout
    rcases hout with ⟨⟨hcall, _⟩, hset⟩
    cases hin : s.used key.toNat with
    | true =>
      have hstate := congrArg Prod.fst hset
      have hdone := (congrArg Prod.snd hset).symm.trans (set_outcome hin)
      change outcome = Outcome.done at hdone
      change _ = s1 at hstate
      rw [hdone, ← hstate]
      exact hi.set hcall hin
    | false =>
      have hstate := congrArg Prod.fst hset
      have hfailed := (congrArg Prod.snd hset).symm.trans (set_outcome_failed hin)
      change outcome = Outcome.failed Errno.einval at hfailed
      change _ = s1 at hstate
      rw [hfailed, ← hstate]
      exact hi.set_failed hcall hin
  | getspecific t key =>
    simp only [stepOutcome, Option.ite_none_right_eq_some, Option.some.injEq] at hout
    rcases hout with ⟨_, hget⟩
    cases hget
    exact iff_of_true hi trivial
  | exit t =>
    simp only [stepOutcome, Option.ite_none_right_eq_some] at hout
    rcases hout with ⟨hrunning, hexit⟩
    refine iff_of_true ?_ trivial
    cases htls : s.tls t with
    | none =>
      rw [htls] at hexit
      cases hexit
      have hdone := hi.move_done t (s.tls t)
      rw [update_eq_self] at hdone
      exact hdone
    | some table =>
      rw [htls] at hexit
      cases hexit
      exact hi.move (by rw [hrunning]; exact nofun) nofun
  | exitTest t =>
    simp only [stepOutcome] at hout
    split at hout
    · rename_i index table hpc htls
      cases hout
      refine (hi.exitTest hpc htls).trans ⟨?_, fun hclean => hclean index table hpc htls⟩
      intro hdestructor index' table' hpc' htls'
      cases hpc.symm.trans hpc'
      cases htls.symm.trans htls'
      exact hdestructor
    · cases hout
  | exitCall t =>
    simp only [stepOutcome] at hout
    split at hout
    · rename_i index data hpc
      cases hout
      exact iff_of_true (hi.move (by rw [hpc]; exact nofun) nofun) trivial
    · cases hout

theorem Ended.update_tls {tls : Option (Nat -> Nat)} (hended : Ended s)
    (hcall : s.mayCall t = true) : Ended { s with tls := update s.tls t tls } := by
  intro t' hpc
  have heq : t' ≠ t := by
    rintro rfl
    exact mayCall_not_done hcall hpc
  exact (update_of_ne heq _ _).trans (hended t' hpc)

theorem Ended.move {pc : ExitPc} (hended : Ended s)
    (hpc : pc = ExitPc.done -> s.tls t = none) : Ended (s.move t pc) := by
  intro t' hpc'
  by_cases heq : t' = t
  · rw [heq, move_pc] at hpc'
    rw [heq]
    exact hpc hpc'
  · rw [move_pc_of_ne heq] at hpc'
    exact hended t' hpc'

theorem Ended.set (hended : Ended s) (hcall : s.mayCall t = true) :
    Ended (pthreadSetspecific s t key value fresh).1 := by
  unfold pthreadSetspecific
  dsimp only
  split
  · split
    · exact hended.update_tls hcall
    · simp only [update_idem]
      exact hended.update_tls hcall
  · exact hended.update_tls hcall

theorem Ended.exitTest (hended : Ended s) : Ended (exitTest s t table index) := by
  unfold ThreadKeys.exitTest
  split
  · split
    · exact hended.move nofun
    · exact hended.move nofun
  · intro t' hpc
    by_cases heq : t' = t
    · rw [heq]
      exact update_self _ _ _
    · rw [move_pc_of_ne heq] at hpc
      exact (update_of_ne heq _ _).trans (hended t' hpc)

theorem Ended.step {op : Op} (hended : Ended s) (hs : step s op = some s') : Ended s' := by
  unfold ThreadKeys.step at hs
  rw [Option.map_eq_some_iff] at hs
  rcases hs with ⟨⟨s1, outcome⟩, hout, hs1⟩
  change s1 = s' at hs1
  subst hs1
  cases op with
  | keyCreate t destructor =>
    simp only [stepOutcome, Option.ite_none_right_eq_some, Option.some.injEq] at hout
    rcases hout with ⟨_, hcreate⟩
    unfold pthreadKeyCreate at hcreate
    split at hcreate
    · cases hcreate
      exact hended
    · cases hcreate
      exact hended
  | keyDelete t key =>
    simp only [stepOutcome, Option.ite_none_right_eq_some, Option.some.injEq] at hout
    rcases hout with ⟨_, hdelete⟩
    unfold pthreadKeyDelete at hdelete
    split at hdelete
    · cases hdelete
      exact hended
    · cases hdelete
      exact hended
  | setspecific t key value fresh =>
    simp only [stepOutcome, Option.ite_none_right_eq_some, Option.some.injEq] at hout
    rcases hout with ⟨⟨hcall, _⟩, hset⟩
    have hstate := congrArg Prod.fst hset
    change _ = s1 at hstate
    rw [← hstate]
    exact hended.set hcall
  | getspecific t key =>
    simp only [stepOutcome, Option.ite_none_right_eq_some, Option.some.injEq] at hout
    rcases hout with ⟨_, hget⟩
    cases hget
    exact hended
  | exit t =>
    simp only [stepOutcome, Option.ite_none_right_eq_some] at hout
    rcases hout with ⟨_, hexit⟩
    split at hexit
    · rename_i htls
      cases hexit
      exact hended.move fun _ => htls
    · cases hexit
      exact hended.move nofun
  | exitTest t =>
    simp only [stepOutcome] at hout
    split at hout
    · cases hout
      exact hended.exitTest
    · cases hout
  | exitCall t =>
    simp only [stepOutcome] at hout
    split at hout
    · cases hout
      exact hended.move nofun
    · cases hout

end Steps

/-!
## Whole runs
-/

theorem init_isolated : Isolated pthreadKeySystemInit noValues := by
  apply Isolated.intro
  · intro t key _ hin
    rw [used_iff] at hin
    cases hin.right
  · exact nofun
  · rfl

/-- As long as all steps are clean the threads' values are isolated, and a step isolates
them no more exactly if it is not. -/
theorem specific_isolated {ops : List Op} {s : State} {h : Values}
    (hrun : Run (Guarded (fun (x : State × Values) op => Clean x.1 op)
      (Graph (watched step recordValue))) (pthreadKeySystemInit, noValues) ops (s, h)) :
    Isolated s h ∧ forall op s', step s op = some s' ->
      (Isolated s' (recordValue s op s' h) <-> Clean s op) := by
  have hinv : Isolated s h ∧ Ended s := by
    apply hrun.guarded_watched_invariant (fun s h => Isolated s h ∧ Ended s)
      ⟨init_isolated, nofun⟩
    intro s h op s' hinv hclean hs
    exact ⟨(hinv.left.step hinv.right hs).mpr hclean, hinv.right.step hs⟩
  exact ⟨hinv.left, fun op s' hs => hinv.left.step hinv.right hs⟩

/-- A thread ends with one value: its destructor, at address 9, is called with it. -/
theorem specific_isolated_destructor :
    exists s h, Run (Guarded (fun (x : State × Values) op => Clean x.1 op)
        (Graph (watched step recordValue))) (pthreadKeySystemInit, noValues)
        [Op.keyCreate 1 9, Op.setspecific 1 0 5 (some fun _ => 0), Op.exit 1, Op.exitTest 1]
        (s, h) ∧
      Isolated s h ∧ forall s', step s (Op.exitCall 1) = some s' ->
      (Isolated s' (recordValue s (Op.exitCall 1) s' h) <-> Clean s (Op.exitCall 1)) := by
  have hcreate : Run (Guarded (fun (x : State × Values) op => Clean x.1 op)
      (Graph (watched step recordValue))) (pthreadKeySystemInit, noValues)
      ([] ++ [Op.keyCreate 1 9]) _ := Run.snoc Run.nil ⟨fun _ _ => nofun, rfl⟩
  have hset := Run.snoc (a := Op.setspecific 1 0 5 (some fun _ => 0)) hcreate
    ⟨by
      intro _ index _
      split
      · exact nofun
      · rintro _ ⟨rfl⟩
        rfl, rfl⟩
  have hexit := Run.snoc (a := Op.exit 1) hset ⟨trivial, rfl⟩
  have htest := Run.snoc (a := Op.exitTest 1) hexit
    ⟨by
      rintro index table ⟨rfl⟩ _ _ _
      exact nofun, rfl⟩
  exact ⟨_, _, htest, (specific_isolated htest).left,
    (specific_isolated htest).right (Op.exitCall 1)⟩

/-- The array of a second key's first value has old memory in the slot of the first key. -/
def dirtyArray : List Op :=
  [Op.keyCreate 1 0, Op.keyCreate 1 0, Op.setspecific 1 1 5 (some fun _ => 7)]

def reusedSlot : List Op :=
  [Op.keyCreate 1 0, Op.setspecific 1 0 5 (some fun _ => 0), Op.keyDelete 1 0,
    Op.keyCreate 1 0]

def nullDestructor : List Op :=
  [Op.keyCreate 1 0, Op.setspecific 1 0 5 (some fun _ => 0), Op.exit 1, Op.exitTest 1]

def noArray : List Op :=
  [Op.keyCreate 1 0, Op.setspecific 1 0 5 none]

/-- A run of these calls leads to a state that breaks the law. -/
def BreaksLaw (ops : List Op) : Prop :=
  exists s h, Run (Graph (watched step recordValue)) (pthreadKeySystemInit, noValues) ops
    (s, h) ∧ ¬ Isolated s h

theorem specific_shares_old_values :
    BreaksLaw dirtyArray ∧ BreaksLaw reusedSlot ∧ BreaksLaw nullDestructor ∧
      BreaksLaw noArray := by
  refine ⟨⟨_, _, run_of_exec rfl, fun hi => ?_⟩, ⟨_, _, run_of_exec rfl, fun hi => ?_⟩,
    ⟨_, _, run_of_exec rfl, fun hi => ?_⟩, ⟨_, _, run_of_exec rfl, fun hi => ?_⟩⟩
  · exact absurd (hi.get 1 0 (by decide) (by decide)) (by decide)
  · exact absurd (hi.get 1 0 (by decide) (by decide)) (by decide)
  · exact (hi.calling 1 0 5 rfl).right.left rfl
  · exact nomatch hi.stored

end RtThread.Pthreads.ThreadKeys
