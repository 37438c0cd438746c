import RtThread.Pthreads.NamedObject

/-!
# Semaphores and message queues by name

The two ways of comparing a descriptor with a name, the calls under which they agree with
the reference law, and the law along every run of such calls.
-/

namespace RtThread.Pthreads.NamedObject

open Text
open Transition

variable {heap0 : List Nat} {s s' : State} {d : Descriptor} {name : CString}
  {compare : Compare}

inductive Kind where
  | sem
  | mq
deriving DecidableEq, Repr

def pointerBytes (a : Nat) : List UInt8 :=
  [a, a / 2 ^ 8, a / 2 ^ 16, a / 2 ^ 24].map UInt8.ofNat

/-- `posix_mq_find` compares the name of the kernel object. `posix_sem_find` takes the place
of the pointer to the kernel object for the object, and compares the bytes of that pointer
and of the `next` pointer behind it. -/
def Kind.compares : Kind -> Compare
  | Kind.mq => fun d _ name => comparePart d.name.bytes name.bytes rtNameMax = 0
  | Kind.sem => fun d next name =>
    comparePart (pointerBytes d.object ++ pointerBytes next) name.bytes rtNameMax = 0

def posixMqFind : List Descriptor -> CString -> Option Descriptor := find Kind.mq.compares

/-- The newest message queue of a name is not unlinked when the name is used again, and an
open that creates without `O_EXCL` finds no message queue with the name. -/
def MqPlain (s : State) : Op -> Prop
  | Op.open name creat excl _ _ =>
    if creat ∧ excl = false then lookup s.list name = none
    else forall d, d ∈ posixMqFind s.list name ->
      d.unlinked = false ∧ (creat = false -> d.refcount + 1 < 2 ^ 16)
  | Op.unlink name => forall d, d ∈ posixMqFind s.list name -> d.unlinked = false
  | Op.close _ => True

/-- The calls under which the law holds. For semaphores the bytes of the pointers have to
spell the name of just the one that has it. -/
def Plain : Kind -> State -> Op -> Prop
  | Kind.mq => MqPlain
  | Kind.sem => Lawful Kind.sem.compares

def Short (s : State) : Prop := forall d, d ∈ s.list -> strlen d.name < rtNameMax

theorem posixMqFind_eq {list : List Descriptor}
    (hshort : forall d, d ∈ list -> strlen d.name < rtNameMax)
    (hname : strlen name < rtNameMax) :
    posixMqFind list name = list.find? fun d => d.name = name := by
  unfold posixMqFind
  induction list with
  | nil => rfl
  | cons d rest ih =>
    have hd := hshort d List.mem_cons_self
    have hiff : (comparePart d.name.bytes name.bytes rtNameMax = 0) <-> d.name = name := by
      rw [comparePart_eq_zero_iff_eq d.name.nonzero name.nonzero (Nat.le_of_lt hd)
        (Nat.le_of_lt hname)]
      exact ⟨CString.ext_bytes, fun h => congrArg CString.bytes h⟩
    have htest : Kind.mq.compares d (headAddr rest) name = decide (d.name = name) := by
      rw [Bool.eq_iff_iff, decide_eq_true_eq]
      simpa [Kind.compares] using hiff
    have hrest := ih fun x hx => hshort x (List.mem_cons_of_mem d hx)
    unfold find
    rw [List.find?_cons, htest]
    by_cases heq : d.name = name
    · simp only [heq, decide_true, if_true]
    · simp only [heq, decide_false, Bool.false_eq_true, if_false]
      exact hrest

theorem posixMqFind_eq_lookup {list : List Descriptor}
    (hshort : forall d, d ∈ list -> strlen d.name < rtNameMax)
    (hname : strlen name < rtNameMax)
    (hok : forall d, d ∈ posixMqFind list name -> d.unlinked = false) :
    posixMqFind list name = lookup list name := by
  rw [posixMqFind_eq hshort hname] at hok ⊢
  unfold lookup
  induction list with
  | nil => rfl
  | cons d rest ih =>
    rw [List.find?_cons] at hok
    rw [List.find?_cons, List.find?_cons]
    by_cases heq : d.name = name
    · simp only [heq, decide_true] at hok
      have hlinked := hok d rfl
      simp [heq, hlinked]
    · simp only [heq, decide_false] at hok
      simp only [heq, decide_false, and_false]
      exact ih (fun x hx => hshort x (List.mem_cons_of_mem d hx)) hok

def ShortName : Op -> Prop
  | Op.open name _ _ _ _ => strlen name < rtNameMax
  | Op.unlink name => strlen name < rtNameMax
  | Op.close _ => True

variable {op : Op} {kind : Kind}

theorem shortName_of_step {x : State × Result}
    (h : stepOutcome compare s op = some x) : ShortName op := by
  unfold stepOutcome at h
  cases op with
  | «open» name creat excl descriptor object =>
    simp only [Option.ite_none_right_eq_some] at h
    exact h.1.1
  | close a => exact trivial
  | unlink name =>
    simp only [Option.ite_none_right_eq_some] at h
    exact h.1

theorem lawful_of_plain (hshort : Short s) (hname : ShortName op)
    (hok : Plain kind s op) : Lawful kind.compares s op := by
  cases kind with
  | sem => exact hok
  | mq =>
    cases op with
    | close a => exact trivial
    | unlink name => exact posixMqFind_eq_lookup hshort hname hok
    | «open» name creat excl descriptor object =>
      rw [lawful_open]
      change if creat = true ∧ excl = false then lookup s.list name = none
        else forall d, d ∈ posixMqFind s.list name ->
          d.unlinked = false ∧ (creat = false -> d.refcount + 1 < 2 ^ 16) at hok
      split
      · next hcreat =>
          rw [if_pos hcreat] at hok
          exact hok
      · next hcreat =>
          rw [if_neg hcreat] at hok
          have heq := posixMqFind_eq_lookup hshort hname fun d hd => (hok d hd).1
          refine ⟨heq, fun hopen d hd => ?_⟩
          rw [<- heq] at hd
          exact (hok d hd).2 hopen

theorem Short.put (hs : Short s) (hd : strlen d.name < rtNameMax) (heap handles : List Nat) :
    Short ⟨put d s.list, heap, handles⟩ := by
  intro x hx
  rcases mem_put.mp hx with ⟨rfl, _⟩ | ⟨hx, _⟩
  · exact hd
  · exact hs x hx

theorem Short.delete (hs : Short s) (d : Descriptor) : Short (delete s d) := by
  intro x hx
  exact hs x (List.mem_filter.mp hx).1

theorem Short.step {result : Result} (hs : Short s)
    (h : lawOutcome s op = some (s', result)) : Short s' := by
  unfold lawOutcome at h
  cases op with
  | «open» name creat excl descriptor object =>
    simp only [Option.ite_none_right_eq_some, Option.some.injEq] at h
    obtain ⟨⟨hname, _⟩, heq⟩ := h
    have heq := congrArg Prod.fst heq
    subst heq
    unfold lawOpen
    split
    · next d hfound =>
        split
        · exact hs
        · exact hs.put (d := { d with refcount := d.refcount + 1 })
            (hs d (lookup_mem hfound).1) _ _
    · split
      · split
        · intro x hx
          rcases List.mem_cons.mp hx with rfl | hx
          · exact hname
          · exact hs x hx
        · exact hs
      · exact hs
  | close a =>
    simp only [Option.ite_none_right_eq_some, Option.map_eq_some_iff] at h
    obtain ⟨_, d, hfound, heq⟩ := h
    have heq := congrArg Prod.fst heq
    subst heq
    have hput := hs.put (d := { d with refcount := d.refcount - 1 })
      (hs d (List.mem_of_find?_eq_some hfound)) s.heap (s.handles.erase d.addr)
    unfold lawClose
    simp only
    split
    · exact hput.delete _
    · exact hput
  | unlink name =>
    simp only [Option.ite_none_right_eq_some, Option.some.injEq] at h
    have heq := congrArg Prod.fst h.2
    subst heq
    unfold lawUnlink
    split
    · next d hfound =>
        have hput := hs.put (d := { d with unlinked := true })
          (hs d (lookup_mem hfound).1) s.heap s.handles
        simp only
        split
        · exact hput.delete _
        · exact hput
    · exact hs

/-!
## Runs
-/

def start (heap0 : List Nat) : State := { list := [], heap := heap0, handles := [] }

/-- A name belongs to one object; its count is the number of its open handles; an object is
there, and on the heap, as long as it has a handle or its name; and the next call does what
the law says, a failing one nothing. -/
structure ReferenceLaw (kind : Kind) (heap0 : List Nat) (s : State) : Prop where
  unique : forall d e, d ∈ s.list -> e ∈ s.list -> d.unlinked = false ->
    e.unlinked = false -> d.name = e.name -> d = e
  refcount : forall d, d ∈ s.list -> d.refcount = s.handles.count d.addr
  handles : forall a, a ∈ s.handles -> exists d, d ∈ s.list ∧ d.addr = a
  alive : forall d, d ∈ s.list -> d.unlinked = true -> 0 < d.refcount
  heap : s.heap.Perm (blocks s.list ++ heap0)
  calls : forall op, Plain kind s op -> stepOutcome kind.compares s op = lawOutcome s op
  failing : forall op s' e, stepOutcome kind.compares s op = some (s', Result.failed e) ->
    s' = s

theorem openNamed_failed {creat excl : Bool} {descriptor object : Option Nat} {e : Errno}
    (h : openNamed compare s name creat excl descriptor object = (s', Result.failed e)) :
    s' = s := by
  unfold openNamed at h
  split at h
  · split at h
    · cases h
      rfl
    · split at h
      · cases h
        rfl
      · split at h
        · cases h
          rw [List.erase_cons_head]
        · cases h
  · split at h
    · cases h
    · cases h
      rfl

theorem stepOutcome_failed {e : Errno}
    (h : stepOutcome compare s op = some (s', Result.failed e)) : s' = s := by
  unfold stepOutcome at h
  cases op with
  | «open» name creat excl descriptor object =>
    simp only [Option.ite_none_right_eq_some, Option.some.injEq] at h
    exact openNamed_failed h.2
  | close a =>
    simp only [Option.ite_none_right_eq_some, Option.map_eq_some_iff] at h
    obtain ⟨_, d, _, heq⟩ := h
    have hdone : (closeNamed s d).2 = Result.done := rfl
    rw [heq] at hdone
    cases hdone
  | unlink name =>
    simp only [Option.ite_none_right_eq_some, Option.some.injEq] at h
    have heq := h.2
    unfold unlinkNamed at heq
    split at heq
    · cases heq
    · cases heq
      rfl

/-- The law's account with the ranges that the code relies on. -/
structure Sound (heap0 : List Nat) (s : State) : Prop where
  accounted : Accounted heap0 s
  alive : Alive s
  bounded : Bounded s
  short : Short s

theorem Sound.start (heap0 : List Nat) : Sound heap0 (start heap0) := by
  refine ⟨⟨List.nodup_nil, ?_, ?_, ?_, List.Perm.refl _⟩, ?_, ?_, ?_⟩
  · intro d e hd
    cases hd
  · intro d hd
    cases hd
  · intro a ha
    cases ha
  · intro d hd
    cases hd
  · intro d hd
    cases hd
  · intro d hd
    cases hd

theorem Sound.calls (hs : Sound heap0 s) (hok : Plain kind s op) :
    stepOutcome kind.compares s op = lawOutcome s op := by
  by_cases hname : ShortName op
  · exact stepOutcome_eq_law hs.accounted hs.bounded (lawful_of_plain hs.short hname hok)
  · cases op with
    | «open» name creat excl descriptor object =>
      have hlong : ¬(strlen name < rtNameMax ∧ Fresh s descriptor object) :=
        fun h => hname h.1
      unfold stepOutcome lawOutcome
      simp only [if_neg hlong]
    | close a => exact absurd trivial hname
    | unlink name =>
      unfold stepOutcome lawOutcome
      simp only [if_neg (show ¬strlen name < rtNameMax from hname)]

theorem Sound.step (hs : Sound heap0 s) (hok : Plain kind s op)
    (h : NamedObject.step kind.compares s op = some s') : Sound heap0 s' := by
  obtain ⟨⟨s1, result⟩, houtcome, heq⟩ := Option.map_eq_some_iff.mp h
  subst heq
  have hname := shortName_of_step houtcome
  rw [hs.calls hok] at houtcome
  obtain ⟨haccounted, halive⟩ := law_step hs.accounted hs.alive houtcome
  exact ⟨haccounted, halive,
    hs.bounded.step (lawful_of_plain hs.short hname hok) houtcome, hs.short.step houtcome⟩

/-- The reference law holds in every state of every run of calls that meet the
condition. -/
theorem named_objects_follow_law {kind : Kind} {ops : List Op}
    (hrun : Run (Guarded (Plain kind) (Graph (step kind.compares))) (start heap0) ops s) :
    ReferenceLaw kind heap0 s := by
  have hs : Sound heap0 s := by
    apply hrun.invariant (Sound heap0) (Sound.start heap0)
    rintro s op s' hs ⟨hok, h⟩
    exact hs.step hok h
  exact ⟨hs.accounted.unique, hs.accounted.refcount, hs.accounted.handles, hs.alive,
    hs.accounted.heap, fun op hok => hs.calls hok, fun op s' e h => stepOutcome_failed h⟩

instance (s : State) : forall op, Decidable (MqPlain s op)
  | Op.open name creat excl _ _ => inferInstanceAs (Decidable
      (if creat ∧ excl = false then lookup s.list name = none
      else forall d, d ∈ posixMqFind s.list name ->
        d.unlinked = false ∧ (creat = false -> d.refcount + 1 < 2 ^ 16)))
  | Op.unlink name => inferInstanceAs (Decidable
      (forall d, d ∈ posixMqFind s.list name -> d.unlinked = false))
  | Op.close _ => isTrue trivial

instance (s : State) : forall op, Decidable (Lawful Kind.sem.compares s op)
  | Op.open name creat excl _ _ => inferInstanceAs (Decidable
      (if creat ∧ excl = false then lookup s.list name = none
      else find Kind.sem.compares s.list name = lookup s.list name ∧
        (creat = false -> forall d, d ∈ lookup s.list name -> d.refcount + 1 < 2 ^ 16)))
  | Op.unlink name => inferInstanceAs (Decidable
      (find Kind.sem.compares s.list name = lookup s.list name))
  | Op.close _ => isTrue trivial

def qName : CString := ⟨[113], by decide⟩

def useQueue : List Op :=
  [Op.open qName true true (some 16) (some 32), Op.open qName false false none none,
    Op.unlink qName, Op.close 16, Op.close 16]

/-- The bytes of the address `0x64636260`. -/
def addressName : CString := ⟨[0x60, 0x62, 0x63, 0x64], by decide⟩

def useSemaphore : List Op :=
  [Op.open addressName true true (some 16) (some 0x64636260),
    Op.open addressName false false none none, Op.unlink addressName, Op.close 16, Op.close 16]

theorem named_objects_follow_law_used :
    (exists s, Run (Guarded (Plain Kind.mq) (Graph (step Kind.mq.compares))) (start [])
      useQueue s ∧ s.list = [] ∧ ReferenceLaw Kind.mq [] s) ∧
    exists s, Run (Guarded (Plain Kind.sem) (Graph (step Kind.sem.compares))) (start [])
      useSemaphore s ∧ s.list = [] ∧ ReferenceLaw Kind.sem [] s := by
  constructor
  · have hs : exec (fun s op => if MqPlain s op then step Kind.mq.compares s op else none)
        (start []) useQueue = some ⟨[], [], []⟩ := by decide +kernel
    have hrun : Run (Guarded MqPlain (Graph (step Kind.mq.compares))) (start []) useQueue
        ⟨[], [], []⟩ := guarded_run_of_exec hs
    exact ⟨_, hrun, rfl, named_objects_follow_law hrun⟩
  · have hs : exec (fun s op =>
          if Lawful Kind.sem.compares s op then step Kind.sem.compares s op else none)
        (start []) useSemaphore = some ⟨[], [], []⟩ := by decide +kernel
    have hrun : Run (Guarded (Lawful Kind.sem.compares) (Graph (step Kind.sem.compares)))
        (start []) useSemaphore ⟨[], [], []⟩ := guarded_run_of_exec hs
    exact ⟨_, hrun, rfl, named_objects_follow_law hrun⟩

/-- Creating a message queue twice makes two of one name; an open after the unlink finds the
unlinked one; a semaphore is not found by its name. -/
theorem named_objects_break_law :
    (exists s, Run (Graph (step Kind.mq.compares)) (start [])
      [Op.open qName true false (some 16) (some 32),
        Op.open qName true false (some 48) (some 64)] s ∧
      s.list = [⟨48, 64, qName, 1, false⟩, ⟨16, 32, qName, 1, false⟩]) ∧
    (exists s, Run (Graph (step Kind.mq.compares)) (start [])
      [Op.open qName true false (some 16) (some 32), Op.unlink qName] s ∧
      s.list = [⟨16, 32, qName, 1, true⟩] ∧
      (stepOutcome Kind.mq.compares s (Op.open qName false false none none)).map Prod.snd =
        some (Result.opened 16)) ∧
    (exists s, Run (Graph (step Kind.sem.compares)) (start [])
      [Op.open qName true false (some 16) (some 32)] s ∧
      s.list = [⟨16, 32, qName, 1, false⟩] ∧
      (stepOutcome Kind.sem.compares s (Op.open qName false false none none)).map Prod.snd =
        some (Result.failed Errno.enoent)) := by
  refine ⟨?_, ?_, ?_⟩
  · obtain ⟨s, hs⟩ : exists s, exec (step Kind.mq.compares) (start [])
        [Op.open qName true false (some 16) (some 32),
          Op.open qName true false (some 48) (some 64)] = some s := ⟨_, rfl⟩
    refine ⟨s, run_of_exec hs, ?_⟩
    cases hs
    rfl
  · obtain ⟨s, hs⟩ : exists s, exec (step Kind.mq.compares) (start [])
        [Op.open qName true false (some 16) (some 32), Op.unlink qName] = some s :=
      ⟨_, rfl⟩
    refine ⟨s, run_of_exec hs, ?_⟩
    cases hs
    exact ⟨rfl, rfl⟩
  · obtain ⟨s, hs⟩ : exists s, exec (step Kind.sem.compares) (start [])
        [Op.open qName true false (some 16) (some 32)] = some s := ⟨_, rfl⟩
    refine ⟨s, run_of_exec hs, ?_⟩
    cases hs
    exact ⟨rfl, rfl⟩

end RtThread.Pthreads.NamedObject
