import Mathlib.Data.List.Perm.Basic

/-!
# Creating a pthread

`pthread_create` with the blocks it allocates and frees and the objects it puts into the object
container.  Which of its calls succeed is an argument.
-/

namespace RtThread.Pthreads.Create

/-- `ptd`, the stack that is allocated or that of the caller, the thread object and the
semaphore. -/
inductive Block where
  | ptd
  | stack
  | callerStack
  | tid
  | joinableSem
deriving DecidableEq

inductive Errno where
  | ok
  | enomem
  | einval
deriving DecidableEq

/-- The members of `pthread_attr_t` that decide what is allocated. -/
structure PthreadAttr where
  stackBase : Nat
  joinable : Bool

def pthreadDefaultAttr : PthreadAttr := { stackBase := 0, joinable := true }

/-- Which calls succeed: the allocations of `ptd`, the stack and the thread,
`rt_sem_create`, `rt_thread_init` and `rt_thread_startup`. -/
structure Works where
  ptd : Bool
  stack : Bool
  tid : Bool
  sem : Bool
  init : Bool
  startup : Bool

/-- The blocks allocated and not freed, those freed, the objects added to the container, and
the threads added to the defunct list. -/
structure State where
  live : List Block
  freed : List Block
  objects : List Block
  defunct : List Block
deriving DecidableEq

def State.alloc (s : State) (b : Block) : State := { s with live := b :: s.live }

def State.free (s : State) (b : Block) : State :=
  { s with live := s.live.erase b, freed := b :: s.freed }

/-- `rt_object_init` -/
def State.insert (s : State) (b : Block) : State := { s with objects := b :: s.objects }

/-- `rt_object_detach` -/
def State.remove (s : State) (b : Block) : State := { s with objects := s.objects.erase b }

def State.semDelete (s : State) : State := (s.remove Block.joinableSem).free Block.joinableSem

/-- `rt_thread_detach` of a thread with a cleanup function. -/
def State.threadDetach (s : State) : State :=
  { s.remove Block.tid with defunct := Block.tid :: s.defunct }

/-- The calls from the allocation of the thread on; `own` says that the stack was allocated. -/
def createThread (own joinable : Bool) (works : Works) (s : State) : Errno × State :=
  let freeStack (s : State) := s.free (if own then Block.stack else Block.callerStack)
  if works.tid = false then
    (Errno.enomem, (if own then freeStack s else s).free Block.ptd)
  else
    let s := s.alloc Block.tid
    if joinable = true ∧ works.sem = false then
      -- the test of `stack_base` is the other way round here
      (Errno.enomem, (if own then s else freeStack s).free Block.ptd)
    else
      let s := if joinable then (s.alloc Block.joinableSem).insert Block.joinableSem else s
      let s := s.insert Block.tid
      if works.init = false then
        let s := if own then freeStack s else s
        (Errno.einval, (if joinable then s.semDelete else s).free Block.ptd)
      else if works.startup = false then
        let s := s.threadDetach
        let s := if own then freeStack s else s
        (Errno.einval, (if joinable then s.semDelete else s).free Block.ptd)
      else (Errno.ok, s)

def start : State := { live := [], freed := [], objects := [], defunct := [] }

def pthreadCreate (attr : Option PthreadAttr) (works : Works) : Errno × State :=
  let attr := attr.getD pthreadDefaultAttr
  if works.ptd = false then (Errno.enomem, start)
  else
    let s := start.alloc Block.ptd
    if attr.stackBase = 0 then
      if works.stack = false then (Errno.enomem, s.free Block.ptd)
      else createThread true attr.joinable works (s.alloc Block.stack)
    else createThread false attr.joinable works s

/-- What a started thread owns. -/
def owned (own joinable : Bool) : List Block :=
  (if joinable then [Block.joinableSem] else []) ++ [Block.tid] ++
    (if own then [Block.stack] else []) ++ [Block.ptd]

/-- After an error all is released once and the stack of the caller is not freed; a success
leaves what the thread owns. -/
structure Tidy (own joinable : Bool) (r : Errno × State) : Prop where
  failed : r.1 ≠ Errno.ok -> r.2.live = [] ∧ r.2.freed.Nodup ∧
    Block.callerStack ∉ r.2.freed ∧
    r.2.objects = [] ∧ r.2.defunct = []
  started : r.1 = Errno.ok -> r.2.live = owned own joinable ∧ r.2.freed = [] ∧ r.2.defunct = []

/-- Nothing fails behind the allocation of the thread. -/
def Finishes (joinable : Bool) (works : Works) : Prop :=
  (joinable = true -> works.sem = true) ∧ works.init = true ∧ works.startup = true

variable {own joinable : Bool} {attr : Option PthreadAttr} {works : Works} {r : Errno × State}

theorem not_tidy (hne : r.1 ≠ Errno.ok) (hlive : Block.tid ∈ r.2.live) :
    ¬ Tidy own joinable r := by
  intro htidy
  rw [(htidy.failed hne).1] at hlive
  cases hlive

theorem createThread_iff {s : State}
    (hs : s = { start with live := (if own then [Block.stack] else []) ++ [Block.ptd] }) :
    Tidy own joinable (createThread own joinable works s) <->
      (works.tid = true -> Finishes joinable works) := by
  subst hs
  unfold createThread
  dsimp only
  by_cases htid : works.tid = false
  · rw [if_pos htid, htid]
    refine iff_of_true ⟨fun _ => ?_, nofun⟩ nofun
    cases own <;> decide
  rw [if_neg htid, (Bool.not_eq_false _).mp htid]
  by_cases hsem : joinable = true ∧ works.sem = false
  · rw [if_pos hsem]
    refine iff_of_false (not_tidy nofun ?_) fun h => ?_
    · cases own <;> decide
    · exact Bool.false_ne_true (hsem.2.symm.trans ((h rfl).1 hsem.1))
  rw [if_neg hsem]
  by_cases hinit : works.init = false
  · rw [if_pos hinit]
    refine iff_of_false (not_tidy nofun ?_) fun h => ?_
    · cases own <;> cases joinable <;> decide
    · exact Bool.false_ne_true (hinit.symm.trans (h rfl).2.1)
  rw [if_neg hinit]
  by_cases hstartup : works.startup = false
  · rw [if_pos hstartup]
    refine iff_of_false (not_tidy nofun ?_) fun h => ?_
    · cases own <;> cases joinable <;> decide
    · exact Bool.false_ne_true (hstartup.symm.trans (h rfl).2.2)
  rw [if_neg hstartup]
  refine iff_of_true ⟨fun hne => absurd rfl hne, fun _ => ?_⟩ fun _ =>
    ⟨fun hjoin => ?_, ?_, ?_⟩
  · cases own <;> cases joinable <;> exact ⟨rfl, rfl, rfl⟩
  · exact (Bool.not_eq_false _).mp fun hfalse => hsem ⟨hjoin, hfalse⟩
  · exact (Bool.not_eq_false _).mp hinit
  · exact (Bool.not_eq_false _).mp hstartup

/-- The call is tidy exactly when no failure follows on the allocation of the thread: every exit
behind it leaves that block. -/
theorem pthread_create_iff :
    Tidy ((attr.getD pthreadDefaultAttr).stackBase == 0) (attr.getD pthreadDefaultAttr).joinable
        (pthreadCreate attr works) <->
      (works.ptd = true -> ((attr.getD pthreadDefaultAttr).stackBase = 0 -> works.stack = true) ->
        works.tid = true -> Finishes (attr.getD pthreadDefaultAttr).joinable works) := by
  unfold pthreadCreate
  dsimp only
  generalize attr.getD pthreadDefaultAttr = attr
  by_cases hptd : works.ptd = false
  · rw [if_pos hptd, hptd]
    exact iff_of_true ⟨fun _ => ⟨rfl, List.nodup_nil, nofun, rfl, rfl⟩, nofun⟩ nofun
  rw [if_neg hptd, forall_prop_of_true ((Bool.not_eq_false _).mp hptd)]
  by_cases hbase : attr.stackBase = 0
  · rw [if_pos hbase, forall_prop_of_true hbase, beq_iff_eq.mpr hbase]
    by_cases hstack : works.stack = false
    · rw [if_pos hstack, hstack]
      exact iff_of_true ⟨fun _ => ⟨rfl, by decide, by decide, rfl, rfl⟩, nofun⟩ nofun
    · rw [if_neg hstack, forall_prop_of_true ((Bool.not_eq_false _).mp hstack)]
      exact createThread_iff rfl
  · rw [if_neg hbase, beq_eq_false_iff_ne.mpr hbase,
      forall_prop_of_true fun hzero => absurd hzero hbase]
    exact createThread_iff rfl

/-- Without memory for the semaphore the stack of the caller is freed, and one that was allocated
is not. -/
theorem sem_failure_untidy :
    let works : Works := ⟨true, true, true, false, true, true⟩
    (pthreadCreate (some ⟨0x20000000, true⟩) works).2.freed =
        [Block.ptd, Block.callerStack] ∧
      (pthreadCreate none works).2.live = [Block.tid, Block.stack] ∧
      ¬ Tidy false true (pthreadCreate (some ⟨0x20000000, true⟩) works) :=
  ⟨rfl, rfl, fun htidy => nomatch (htidy.failed nofun).1⟩

end RtThread.Pthreads.Create
