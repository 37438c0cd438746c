import RtThread.Kernel.Thread
import RtThread.Library.Transition

/-!
# Thread-specific data

`pthread_tls.c`, and the end of the values in `pthread_exit`. The keys are slots of one table;
each thread has an array with a value for every slot, which its first `pthread_setspecific`
allocates. A step is a call, or in `pthread_exit` one test of its loop or one call of a
destructor, which can itself call the functions of the file. Beside the state the threads' own
view of their values is recorded.
-/

namespace RtThread.Pthreads.ThreadKeys

open Kernel Transition

def pthreadKeyMax : Nat := 8

structure KeyData where
  isUsed : Bool
  destructor : Nat
deriving DecidableEq, Repr

/-- Where a thread is: before the loop of `pthread_exit`, at its test, between a test and
the call of the destructor, or behind it. -/
inductive ExitPc where
  | running
  | at (index : Nat)
  | calling (index data : Nat)
  | done
deriving DecidableEq, Repr

/-- `_thread_keys`, the `tls` pointers of the threads, and whether there was a store
through one that is `NULL`. -/
structure State where
  threadKeys : Nat -> KeyData
  tls : Tid -> Option (Nat -> Nat)
  pc : Tid -> ExitPc
  nullStore : Bool

inductive Errno where
  | eagain
  | einval
deriving DecidableEq, Repr

inductive Outcome where
  | created (key : Nat)
  | done
  | got (value : Nat)
  | called (destructor data : Nat)
  | failed (e : Errno)
deriving DecidableEq, Repr

/-- A call of a thread with, for `pthread_setspecific`, the result of its `rt_malloc`.
Keys are of type `int`; only from above are they checked. -/
inductive Op where
  | keyCreate (t : Tid) (destructor : Nat)
  | keyDelete (t : Tid) (key : Int)
  | setspecific (t : Tid) (key : Int) (value : Nat) (fresh : Option (Nat -> Nat))
  | getspecific (t : Tid) (key : Int)
  | exit (t : Tid)
  | exitTest (t : Tid)
  | exitCall (t : Tid)

/-!
## The functions
-/

/-- `pthread_key_system_init`, and threads that have just been created. -/
def pthreadKeySystemInit : State :=
  { threadKeys := fun _ => ⟨false, 0⟩
    tls := fun _ => none
    pc := fun _ => ExitPc.running
    nullStore := false }

/-- A key that `_thread_keys` has in use. -/
def State.used (s : State) (key : Nat) : Bool :=
  decide (key < pthreadKeyMax) && (s.threadKeys key).isUsed

/-- The loop of `pthread_key_create`, which has `count` slots left. -/
def createLoop (keys : Nat -> KeyData) : Nat -> Nat -> Option Nat
  | 0, _ => none
  | count + 1, index =>
    if (keys index).isUsed = false then some index else createLoop keys count (index + 1)

def State.nextKey (s : State) : Option Nat := createLoop s.threadKeys pthreadKeyMax 0

def pthreadKeyCreate (s : State) (destructor : Nat) : State × Outcome :=
  match s.nextKey with
  | some index =>
    ({ s with threadKeys := Function.update s.threadKeys index ⟨true, destructor⟩ },
      Outcome.created index)
  | none => (s, Outcome.failed Errno.eagain)

def pthreadKeyDelete (s : State) (key : Nat) : State × Outcome :=
  if pthreadKeyMax ≤ key then (s, Outcome.failed Errno.einval)
  else
    ({ s with threadKeys := Function.update s.threadKeys key ⟨false, 0⟩ }, Outcome.done)

def pthreadGetspecific (s : State) (t : Tid) (key : Nat) : Nat :=
  match s.tls t with
  | none => 0
  | some table => if s.used key then table key else 0

def pthreadSetspecific (s : State) (t : Tid) (key value : Nat)
    (fresh : Option (Nat -> Nat)) : State × Outcome :=
  let table := (s.tls t).or fresh
  let s := { s with tls := Function.update s.tls t table }
  if s.used key then
    match table with
    | none => ({ s with nullStore := true }, Outcome.done)
    | some table =>
      ({ s with tls := Function.update s.tls t (some (Function.update table key value)) },
        Outcome.done)
  else
    (s, Outcome.failed Errno.einval)

def State.move (s : State) (t : Tid) (pc : ExitPc) : State :=
  { s with pc := Function.update s.pc t pc }

/-- What the loop of `pthread_exit` finds at a slot and passes to its destructor. -/
def State.found (s : State) (table : Nat -> Nat) (index : Nat) : Option Nat :=
  if (s.threadKeys index).isUsed ∧ table index ≠ 0 then some (table index) else none

/-- One test of the loop of `pthread_exit`; behind the last slot the table is freed. -/
def exitTest (s : State) (t : Tid) (table : Nat -> Nat) (index : Nat) : State :=
  if index < pthreadKeyMax then
    match s.found table index with
    | some data => s.move t (ExitPc.calling index data)
    | none => s.move t (ExitPc.at (index + 1))
  else
    { s with tls := Function.update s.tls t none }.move t ExitPc.done

/-- Threads call the functions outside of `pthread_exit`, and from destructors. -/
def State.mayCall (s : State) (t : Tid) : Bool :=
  match s.pc t with
  | ExitPc.running => true
  | ExitPc.at _ => true
  | _ => false

/-- A call with its result.  A negative key indexes in front of the arrays; what it does
there is left open. -/
def stepOutcome (s : State) : Op -> Option (State × Outcome)
  | Op.keyCreate t destructor =>
    if s.mayCall t then some (pthreadKeyCreate s destructor) else none
  | Op.keyDelete t key =>
    if s.mayCall t ∧ 0 ≤ key then some (pthreadKeyDelete s key.toNat) else none
  | Op.setspecific t key value fresh =>
    if s.mayCall t ∧ 0 ≤ key then some (pthreadSetspecific s t key.toNat value fresh)
    else none
  | Op.getspecific t key =>
    if s.mayCall t ∧ 0 ≤ key then
      some (s, Outcome.got (pthreadGetspecific s t key.toNat))
    else none
  | Op.exit t =>
    if s.pc t = ExitPc.running then
      match s.tls t with
      | none => some (s.move t ExitPc.done, Outcome.done)
      | some _ => some (s.move t (ExitPc.at 0), Outcome.done)
    else none
  | Op.exitTest t =>
    match s.pc t, s.tls t with
    | ExitPc.at index, some table => some (exitTest s t table index, Outcome.done)
    | _, _ => none
  | Op.exitCall t =>
    match s.pc t with
    | ExitPc.calling index data =>
      some (s.move t (ExitPc.at (index + 1)),
        Outcome.called (s.threadKeys index).destructor data)
    | _ => none

def step (s : State) (op : Op) : Option State := (stepOutcome s op).map Prod.fst

/-!
## What the threads have set
-/

/-- The value that each thread has last set for each key, since the key was created. -/
abbrev Values := Tid -> Nat -> Nat

def noValues : Values := fun _ _ => 0

def recordValue (s : State) (op : Op) (_s' : State) (h : Values) : Values :=
  match op, (stepOutcome s op).map Prod.snd with
  | Op.keyCreate _ _, some (Outcome.created key) => fun t k => if k = key then 0 else h t k
  | Op.setspecific t key value _, some Outcome.done =>
    Function.update h t (Function.update (h t) key.toNat value)
  | _, _ => h

/-- No thread has a value in the slot of a new key; a new array has no values in the other
slots in use; a thread that exits finds no value of a key without a destructor, and the key
is not deleted before that is called. -/
def Clean (s : State) : Op -> Prop
  | Op.keyCreate _ _ =>
    forall index, s.nextKey = some index ->
      forall t table, s.tls t = some table -> table index = 0
  | Op.keyDelete _ key =>
    forall t index data, s.pc t = ExitPc.calling index data -> index ≠ key.toNat
  | Op.setspecific t key _ fresh =>
    s.tls t = none -> forall index, s.used index = true ->
      if index = key.toNat then fresh ≠ none
      else forall table, fresh = some table -> table index = 0
  | Op.exitTest t =>
    forall index table, s.pc t = ExitPc.at index -> s.tls t = some table ->
      index < pthreadKeyMax -> s.found table index ≠ none ->
        (s.threadKeys index).destructor ≠ 0
  | _ => True

/-- Of a key in use each thread gets what it has set. A thread that exits finds exactly its
own values that are not `NULL`, and calls the destructors of keys in use that have one. -/
structure Isolated (s : State) (h : Values) : Prop where
  get : forall t key, s.pc t ≠ ExitPc.done -> s.used key = true ->
    pthreadGetspecific s t key = h t key
  found : forall t index table, s.pc t = ExitPc.at index -> s.tls t = some table ->
    index < pthreadKeyMax -> forall data, s.found table index = some data <->
      (s.threadKeys index).isUsed = true ∧ data = h t index ∧ data ≠ 0
  calling : forall t index data, s.pc t = ExitPc.calling index data ->
    s.used index = true ∧ (s.threadKeys index).destructor ≠ 0 ∧ data = h t index ∧
      data ≠ 0
  stored : s.nullStore = false

end RtThread.Pthreads.ThreadKeys
