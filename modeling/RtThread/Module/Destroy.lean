import RtThread.Kernel.Thread

/-!
# Destroying a module

`rt_module_destroy` up to the release of the module's memory: one loop for each class of kernel
objects, which calls a detach or a delete function for the first object of a list until the list
is empty. The functions of the IPC classes resume the threads in the object's suspend list first.
An object of another class has other data at that place: a thread has the links of its own list
node, so that the "waiting threads" are its neighbours in a ready or suspend list.

A delete function ends with the release of the object's memory, in the idle thread. In a build
with `RT_USING_SLAB`, for which `slab` stands, the block of an object that a module has created is
one of the module, and `rt_free` knows it as neither a zone's nor a large one.
-/

namespace RtThread.Module

open Kernel

/-- `enum rt_object_class_type`, for the objects that a module can create. -/
inductive ObjectClass where
  | thread
  | semaphore
  | mutex
  | event
  | mailBox
  | messageQueue
  | memHeap
  | memPool
  | device
  | timer
deriving DecidableEq, Repr

/-- A thread, and whether `rt_thread_resume` finds it suspended. By the links of a thread it
can also be a ready thread or the head of a ready list. -/
structure Waiter where
  thread : Tid
  suspended : Bool
deriving DecidableEq, Repr

/-- `struct rt_object`, with the list at its `suspend_thread`. -/
structure Object where
  id : Nat
  type : ObjectClass
  isSystemobject : Bool
  waiting : List Waiter
deriving DecidableEq, Repr

inductive Operation where
  | detach (c : ObjectClass)
  | delete (c : ObjectClass)
deriving DecidableEq, Repr

/-- The object lists of a module, the objects of others, and what has been done: the calls,
in order, and the threads that were resumed. -/
structure State where
  objectList : ObjectClass -> List Object
  elsewhere : List Object
  calls : List (Operation × Object)
  resumed : List Tid

/-- Detaching and deleting an object takes it out of the list it is in. -/
def unlink (s : State) (o : Object) : State :=
  { s with
    objectList := fun c => (s.objectList c).erase o
    elsewhere := s.elsewhere.erase o }

/-- The functions that resume the threads of a suspend list. -/
def resumesWaiters : ObjectClass -> Bool
  | ObjectClass.semaphore => true
  | ObjectClass.mutex => true
  | ObjectClass.event => true
  | ObjectClass.mailBox => true
  | ObjectClass.messageQueue => true
  | ObjectClass.memPool => true
  | _ => false

/-- `rt_ipc_list_resume_all`, which does not end when it finds a thread that is not
suspended. -/
def resumeAll (s : State) (o : Object) : Option State :=
  if o.waiting.all fun w => w.suspended then
    some { s with resumed := s.resumed ++ o.waiting.map fun w => w.thread }
  else none

/-- The objects that keep the `RT_OBJECT_FLAG_MODULE` of `rt_object_allocate`.  The create
functions of the other classes write their own flag over it. -/
def keepsModuleFlag : ObjectClass -> Bool
  | ObjectClass.thread => true
  | ObjectClass.memHeap => true
  | ObjectClass.memPool => true
  | ObjectClass.device => true
  | _ => false

/-- Whether the memory of the object gets back to where it came from.  `rt_object_delete`
calls `rt_module_free` for an object with the flag and `rt_free` for one without. -/
def released (slab : Bool) (o : Object) : Operation -> Bool
  | Operation.detach _ => true
  | Operation.delete _ => !slab || keepsModuleFlag o.type

def operate (slab : Bool) (s : State) (op : Operation) (c : ObjectClass) (o : Object) :
    Option State :=
  (if resumesWaiters c then resumeAll s o else some s).bind fun s =>
    if released slab o op then some { unlink s o with calls := s.calls ++ [(op, o)] } else none

/-- What the loops do with an object: they choose by `rt_object_is_systemobject`.
`rt_device_unregister` detaches. -/
def chosen (c : ObjectClass) (o : Object) : Operation :=
  if c = ObjectClass.device ∨ o.isSystemobject then Operation.detach c
  else Operation.delete c

/-- The loop of one class: it drains the list of `listClass` with the functions of
`c`. -/
def drain (slab : Bool) (listClass c : ObjectClass) : Nat -> State -> Option State
  | 0, _ => none
  | fuel + 1, s =>
    match s.objectList listClass with
    | [] => some s
    | o :: _ => (operate slab s (chosen c o) c o).bind (drain slab listClass c fuel)

def drainAll (slab : Bool) (listClass c : ObjectClass) (s : State) : Option State :=
  drain slab listClass c ((s.objectList listClass).length + 1) s

/-- The first loop of `rt_module_destroy`, which is to delete the semaphores, goes through
the list of the threads. -/
def deleteSemaphores (slab : Bool) : State -> Option State :=
  drainAll slab ObjectClass.thread ObjectClass.semaphore

def deleteMutexs (slab : Bool) : State -> Option State :=
  drainAll slab ObjectClass.mutex ObjectClass.mutex

def deleteEvents (slab : Bool) : State -> Option State :=
  drainAll slab ObjectClass.event ObjectClass.event

def deleteMailboxs (slab : Bool) : State -> Option State :=
  drainAll slab ObjectClass.mailBox ObjectClass.mailBox

def deleteMsgqueues (slab : Bool) : State -> Option State :=
  drainAll slab ObjectClass.messageQueue ObjectClass.messageQueue

def deleteMempools (slab : Bool) : State -> Option State :=
  drainAll slab ObjectClass.memPool ObjectClass.memPool

def deleteDevices (slab : Bool) : State -> Option State :=
  drainAll slab ObjectClass.device ObjectClass.device

def deleteTimers (slab : Bool) : State -> Option State :=
  drainAll slab ObjectClass.timer ObjectClass.timer

/-- `rt_module_destroy`, as far as it concerns the objects of the module. One with
`RT_MODULE_FLAG_WITHOUTENTRY` is not searched for objects. -/
def rtModuleDestroy (slab withEntry : Bool) (s : State) : Option State :=
  if withEntry then
    (deleteSemaphores slab s).bind fun s =>
    (deleteMutexs slab s).bind fun s =>
    (deleteEvents slab s).bind fun s =>
    (deleteMailboxs slab s).bind fun s =>
    (deleteMsgqueues slab s).bind fun s =>
    (deleteMempools slab s).bind fun s =>
    (deleteDevices slab s).bind fun s =>
    deleteTimers slab s
  else some s

/-- Every object of the module is once in the list of its class and nowhere else, and the
threads that wait on an object are suspended. -/
structure Created (s : State) : Prop where
  type : forall c o, o ∈ s.objectList c -> o.type = c
  nodup : forall c, (s.objectList c).Nodup
  own : forall c o, o ∈ s.objectList c -> o ∉ s.elsewhere
  waiting : forall c o, c ≠ ObjectClass.thread -> o ∈ s.objectList c ->
    forall w, w ∈ o.waiting -> w.suspended = true

/-- Every list is empty, every object was detached or deleted once, by the function of its
own class, and no object of others was. -/
structure AllDestroyed (s s' : State) : Prop where
  empty : forall c, s'.objectList c = []
  once : forall c o, o ∈ s.objectList c ->
    s'.calls.filter (fun x => x.2 = o) = [(chosen c o, o)]
  only : forall x, x ∈ s'.calls -> exists c, x.2 ∈ s.objectList c
  untouched : s'.elsewhere = s.elsewhere

def ownLoops : List ObjectClass :=
  [ObjectClass.mutex, ObjectClass.event, ObjectClass.mailBox, ObjectClass.messageQueue,
    ObjectClass.memPool, ObjectClass.device, ObjectClass.timer]

/-- With `RT_USING_SLAB` only static objects, memory pools and devices can be released. -/
def Served (slab withEntry : Bool) (s : State) : Prop :=
  if withEntry then
    s.objectList ObjectClass.thread = [] ∧ s.objectList ObjectClass.semaphore = [] ∧
      s.objectList ObjectClass.memHeap = [] ∧
      (slab = true -> forall c o, o ∈ s.objectList c ->
        o.isSystemobject = true ∨ c = ObjectClass.memPool ∨ c = ObjectClass.device)
  else forall c, s.objectList c = []

variable {slab : Bool} {s s' : State} {o : Object} {c : ObjectClass} {rest : List Object}

/-!
## One loop
-/

theorem Created.unlink_head (hs : Created s) (hlist : s.objectList c = o :: rest) :
    unlink s o = { s with objectList := Function.update s.objectList c rest } := by
  have ho : o ∈ s.objectList c := by
    rw [hlist]
    exact List.mem_cons_self
  unfold unlink
  have hlists : (fun c => (s.objectList c).erase o) = Function.update s.objectList c rest := by
    funext c'
    by_cases heq : c' = c
    · subst heq
      rw [Function.update_self, hlist, List.erase_cons_head]
    · rw [Function.update_of_ne heq]
      apply List.erase_of_not_mem
      intro ho'
      exact heq ((hs.type c' o ho').symm.trans (hs.type c o ho))
  rw [hlists, List.erase_of_not_mem (hs.own c o ho)]

theorem Created.update (hs : Created s) {l : List Object} (hl : l.Sublist (s.objectList c))
    (calls : List (Operation × Object)) (resumed : List Tid) :
    Created ⟨Function.update s.objectList c l, s.elsewhere, calls, resumed⟩ := by
  have hsub : forall c', (Function.update s.objectList c l c').Sublist (s.objectList c') := by
    intro c'
    by_cases heq : c' = c
    · subst heq
      rwa [Function.update_self]
    · rw [Function.update_of_ne heq]
  constructor
  · intro c' o ho
    exact hs.type c' o ((hsub c').subset ho)
  · intro c'
    exact (hs.nodup c').sublist (hsub c')
  · intro c' o ho
    exact hs.own c' o ((hsub c').subset ho)
  · intro c' o hc ho
    exact hs.waiting c' o hc ((hsub c').subset ho)

theorem Created.tail (hs : Created s) (hlist : s.objectList c = o :: rest)
    (calls : List (Operation × Object)) (resumed : List Tid) :
    Created ⟨Function.update s.objectList c rest, s.elsewhere, calls, resumed⟩ := by
  apply hs.update
  rw [hlist]
  exact List.sublist_cons_self o rest

def woken (c : ObjectClass) (o : Object) : List Tid :=
  if resumesWaiters c then o.waiting.map fun w => w.thread else []

theorem operate_released {op : Operation} (h : operate slab s op c o = some s') :
    released slab o op = true := by
  unfold operate at h
  rw [Option.bind_eq_some_iff] at h
  obtain ⟨s1, _, h⟩ := h
  split at h
  · next hreleased => exact hreleased
  · cases h

theorem Created.operate_head (hs : Created s) (hc : c ≠ ObjectClass.thread)
    (hlist : s.objectList c = o :: rest) (hreleased : released slab o (chosen c o) = true) :
    operate slab s (chosen c o) c o = some
      ⟨Function.update s.objectList c rest, s.elsewhere, s.calls ++ [(chosen c o, o)],
        s.resumed ++ woken c o⟩ := by
  have ho : o ∈ s.objectList c := by
    rw [hlist]
    exact List.mem_cons_self
  have hall : o.waiting.all (fun w => w.suspended) = true :=
    List.all_eq_true.mpr (hs.waiting c o hc ho)
  unfold operate resumeAll woken
  by_cases hresumes : resumesWaiters c = true
  · simp only [hresumes, hall, hreleased, if_true, Option.bind_some]
    have hhead := hs.unlink_head hlist
    unfold unlink at hhead ⊢
    injection hhead with hlists helsewhere
    rw [hlists, helsewhere]
  · simp only [hresumes, hreleased, Bool.false_eq_true, if_true, if_false, Option.bind_some,
      List.append_nil]
    rw [hs.unlink_head hlist]

def drained (c : ObjectClass) (s : State) : State :=
  { objectList := Function.update s.objectList c []
    elsewhere := s.elsewhere
    calls := s.calls ++ (s.objectList c).map fun o => (chosen c o, o)
    resumed := s.resumed ++ (s.objectList c).flatMap (woken c) }

theorem Created.drained (hs : Created s) (c : ObjectClass) : Created (drained c s) :=
  hs.update (List.nil_sublist _) _ _

theorem Created.drain_eq (hs : Created s) (hc : c ≠ ObjectClass.thread) {l : List Object}
    (hlist : s.objectList c = l) (hall : forall o, o ∈ l -> released slab o (chosen c o) = true) :
    drain slab c c (l.length + 1) s = some (Module.drained c s) := by
  induction l generalizing s with
  | nil =>
    unfold drain Module.drained
    rw [hlist]
    simp only [List.map_nil, List.append_nil, List.flatMap_nil]
    rw [<- hlist, Function.update_eq_self]
  | cons o rest ih =>
    have hrest := hs.tail hlist (s.calls ++ [(chosen c o, o)]) (s.resumed ++ woken c o)
    unfold drain
    rw [hlist]
    simp only
    rw [hs.operate_head hc hlist (hall o List.mem_cons_self), Option.bind_some,
      List.length_cons, ih hrest (Function.update_self ..)
        fun o' ho' => hall o' (List.mem_cons_of_mem o ho')]
    unfold Module.drained
    simp only [Function.update_self, Function.update_idem, hlist, List.map_cons,
      List.flatMap_cons, List.append_assoc, List.cons_append, List.nil_append]

/-- A list that is drained held only objects whose memory could be released. -/
theorem Created.drain_released (hs : Created s) (hc : c ≠ ObjectClass.thread) {l : List Object}
    (hlist : s.objectList c = l) (hdrain : drain slab c c (l.length + 1) s = some s') :
    forall o, o ∈ l -> released slab o (chosen c o) = true := by
  induction l generalizing s with
  | nil => nofun
  | cons o rest ih =>
    have hrest := hs.tail hlist (s.calls ++ [(chosen c o, o)]) (s.resumed ++ woken c o)
    unfold drain at hdrain
    rw [hlist] at hdrain
    simp only [Option.bind_eq_some_iff] at hdrain
    obtain ⟨s1, hone, hmore⟩ := hdrain
    have hreleased := operate_released hone
    rw [hs.operate_head hc hlist hreleased] at hone
    cases hone
    intro o' ho'
    rcases List.mem_cons.mp ho' with rfl | ho'
    · exact hreleased
    · exact ih hrest (Function.update_self ..) hmore o' ho'

theorem Created.drainAll_eq (hs : Created s) (hc : c ≠ ObjectClass.thread)
    (hall : forall o, o ∈ s.objectList c -> released slab o (chosen c o) = true) :
    drainAll slab c c s = some (Module.drained c s) := hs.drain_eq hc rfl hall

/-!
## All loops
-/

variable {cs : List ObjectClass}

theorem drained_foldl_lists (c : ObjectClass) : (cs.foldl (fun s c => drained c s) s).objectList c =
      if c ∈ cs then [] else s.objectList c := by
  induction cs generalizing s with
  | nil => rfl
  | cons x rest ih =>
    rw [List.foldl_cons, ih]
    by_cases hrest : c ∈ rest
    · simp [hrest]
    · by_cases heq : c = x
      · subst heq
        simp [hrest, drained]
      · simp [hrest, heq, drained]

theorem drained_foldl_elsewhere :
    (cs.foldl (fun s c => drained c s) s).elsewhere = s.elsewhere := by
  induction cs generalizing s with
  | nil => rfl
  | cons x rest ih =>
    rw [List.foldl_cons, ih]
    rfl

theorem drained_foldl_calls (hcs : cs.Nodup) : (cs.foldl (fun s c => drained c s) s).calls =
      s.calls ++ cs.flatMap fun c => (s.objectList c).map fun o => (chosen c o, o) := by
  induction cs generalizing s with
  | nil => simp
  | cons x rest ih =>
    obtain ⟨hx, hrest⟩ := List.nodup_cons.mp hcs
    rw [List.foldl_cons, ih hrest, List.flatMap_cons]
    have hsame : (rest.flatMap fun c => ((drained x s).objectList c).map fun o => (chosen c o, o)) =
        rest.flatMap fun c => (s.objectList c).map fun o => (chosen c o, o) := by
      apply List.flatMap_congr
      intro c hc
      have hne : c ≠ x := fun heq => hx (heq ▸ hc)
      show ((Function.update s.objectList x [] c).map _) = _
      rw [Function.update_of_ne hne]
    rw [hsame]
    exact List.append_assoc ..

theorem mem_drained {x : ObjectClass} (ho : o ∈ (drained x s).objectList c) :
    o ∈ s.objectList c := by
  have hsame : (drained x s).objectList c = Function.update s.objectList x [] c := rfl
  rw [hsame] at ho
  by_cases heq : c = x
  · subst heq
    rw [Function.update_self] at ho
    cases ho
  · rwa [Function.update_of_ne heq] at ho

theorem Created.loops_eq (hs : Created s) (hcs : forall c, c ∈ cs -> c ≠ ObjectClass.thread)
    (hall : forall c o, c ∈ cs -> o ∈ s.objectList c -> released slab o (chosen c o) = true) :
    cs.foldlM (fun s c => drainAll slab c c s) s =
      some (cs.foldl (fun s c => Module.drained c s) s) := by
  induction cs generalizing s with
  | nil => rfl
  | cons x rest ih =>
    rw [List.foldlM_cons, hs.drainAll_eq (hcs x List.mem_cons_self)
      fun o => hall x o List.mem_cons_self, List.foldl_cons]
    exact ih (hs.drained x) (fun c hc => hcs c (List.mem_cons_of_mem x hc))
      fun c o hc ho => hall c o (List.mem_cons_of_mem x hc) (mem_drained ho)

theorem Created.loops_released (hs : Created s)
    (hcs : forall c, c ∈ cs -> c ≠ ObjectClass.thread)
    (hloops : cs.foldlM (fun s c => drainAll slab c c s) s = some s') :
    forall c o, c ∈ cs -> o ∈ s.objectList c -> released slab o (chosen c o) = true := by
  induction cs generalizing s with
  | nil => nofun
  | cons x rest ih =>
    rw [List.foldlM_cons, Option.bind_eq_bind, Option.bind_eq_some_iff] at hloops
    obtain ⟨s1, hfirst, hmore⟩ := hloops
    have hx := hs.drain_released (hcs x List.mem_cons_self) rfl hfirst
    rw [hs.drainAll_eq (hcs x List.mem_cons_self) hx] at hfirst
    cases hfirst
    intro c o hc ho
    by_cases heq : c = x
    · subst heq
      exact hx o ho
    · refine ih (hs.drained x) (fun c hc => hcs c (List.mem_cons_of_mem x hc)) hmore c o
        ((List.mem_cons.mp hc).resolve_left heq) ?_
      show o ∈ Function.update s.objectList x [] c
      rwa [Function.update_of_ne heq]

theorem rtModuleDestroy_true (slab : Bool) (s : State) : rtModuleDestroy slab true s =
      (deleteSemaphores slab s).bind fun s =>
        ownLoops.foldlM (fun s c => drainAll slab c c s) s := by
  unfold rtModuleDestroy ownLoops
  simp only [if_true, List.foldlM_cons, List.foldlM_nil]
  apply congrArg
  funext s
  simp only [deleteMutexs, deleteEvents, deleteMailboxs, deleteMsgqueues, deleteMempools,
    deleteDevices, deleteTimers]
  simp only [Option.bind_eq_bind, Option.pure_def, Option.bind_fun_some]

/-!
## What is destroyed
-/

theorem operate_calls {op : Operation} (h : operate slab s op c o = some s') :
    s'.calls = s.calls ++ [(op, o)] := by
  unfold operate at h
  rw [Option.bind_eq_some_iff] at h
  obtain ⟨s1, hresume, h⟩ := h
  have hcalls : s1.calls = s.calls := by
    split at hresume
    · unfold resumeAll at hresume
      split at hresume
      · cases hresume
        rfl
      · cases hresume
    · cases hresume
      rfl
  split at h
  · cases h
    show s1.calls ++ [(op, o)] = s.calls ++ [(op, o)]
    rw [hcalls]
  · cases h

theorem drain_calls {listClass : ObjectClass} {fuel : Nat}
    (h : drain slab listClass c fuel s = some s') : s.calls <+: s'.calls := by
  induction fuel generalizing s with
  | zero => cases h
  | succ fuel ih =>
    unfold drain at h
    split at h
    · cases h
      exact List.prefix_refl _
    · rw [Option.bind_eq_some_iff] at h
      obtain ⟨s1, hone, hmore⟩ := h
      have hprefix := ih hmore
      rw [operate_calls hone] at hprefix
      exact (List.prefix_append _ _).trans hprefix

theorem loops_calls (h : cs.foldlM (fun s c => drainAll slab c c s) s = some s') :
    s.calls <+: s'.calls := by
  induction cs generalizing s with
  | nil =>
    cases h
    exact List.prefix_refl _
  | cons x rest ih =>
    rw [List.foldlM_cons, Option.bind_eq_bind, Option.bind_eq_some_iff] at h
    obtain ⟨s1, hone, hmore⟩ := h
    exact (drain_calls hone).trans (ih hmore)

theorem mem_calls_of_thread (hlist : s.objectList ObjectClass.thread = o :: rest)
    (h : rtModuleDestroy slab true s = some s') :
    (chosen ObjectClass.semaphore o, o) ∈ s'.calls := by
  rw [rtModuleDestroy_true, Option.bind_eq_some_iff] at h
  obtain ⟨s1, hfirst, hloops⟩ := h
  unfold deleteSemaphores drainAll drain at hfirst
  rw [hlist] at hfirst
  simp only [Option.bind_eq_some_iff] at hfirst
  obtain ⟨s2, hone, hmore⟩ := hfirst
  have hmem : (chosen ObjectClass.semaphore o, o) ∈ s2.calls := by
    rw [operate_calls hone]
    exact List.mem_append_right _ List.mem_cons_self
  exact (loops_calls hloops).subset ((drain_calls hmore).subset hmem)

theorem rtModuleDestroy_loops (hthread : s.objectList ObjectClass.thread = []) :
    rtModuleDestroy slab true s = ownLoops.foldlM (fun s c => drainAll slab c c s) s := by
  have hfirst : deleteSemaphores slab s = some s := by
    unfold deleteSemaphores drainAll drain
    rw [hthread]
  rw [rtModuleDestroy_true, hfirst, Option.bind_some]

theorem released_chosen_iff (hown : c ∈ ownLoops) (htype : o.type = c) :
    released slab o (chosen c o) = true ↔ (slab = true ->
      o.isSystemobject = true ∨ c = ObjectClass.memPool ∨ c = ObjectClass.device) := by
  subst htype
  unfold chosen
  cases slab <;> cases o.isSystemobject <;> cases htype : o.type <;>
    simp_all [released, keepsModuleFlag, ownLoops]

theorem chosen_ne (o : Object) :
    chosen ObjectClass.semaphore o ≠ chosen ObjectClass.thread o := by
  unfold chosen
  cases o.isSystemobject <;> simp

theorem Created.filter_calls (hs : Created s) (hcs : cs.Nodup)
    (ho : o ∈ s.objectList c) (hc : c ∈ cs) :
    (cs.flatMap fun c => (s.objectList c).map fun o => (chosen c o, o)).filter
      (fun x => x.2 = o) = [(chosen c o, o)] := by
  have hother : forall l : List ObjectClass, c ∉ l ->
      (l.flatMap fun c => (s.objectList c).map fun o => (chosen c o, o)).filter
        (fun x => x.2 = o) = [] := by
    intro l hl
    rw [List.filter_eq_nil_iff]
    intro x hx
    rw [List.mem_flatMap] at hx
    obtain ⟨c', hc', hx⟩ := hx
    rw [List.mem_map] at hx
    obtain ⟨o', ho', hx⟩ := hx
    subst hx
    simp only [decide_eq_true_eq]
    rintro rfl
    have heq : c' = c := (hs.type c' o' ho').symm.trans (hs.type c o' ho)
    exact hl (heq ▸ hc')
  obtain ⟨before, after, hsplit⟩ := List.append_of_mem hc
  rw [hsplit] at hcs ⊢
  have hmid := (List.nodup_middle.mp hcs)
  obtain ⟨hnot, _⟩ := List.nodup_cons.mp hmid
  rw [List.mem_append, not_or] at hnot
  rw [List.flatMap_append, List.filter_append, hother before hnot.1, List.flatMap_cons,
    List.filter_append, hother after hnot.2, List.nil_append, List.append_nil,
    List.filter_map]
  have hone : (s.objectList c).filter (fun o' => decide (o' = o)) = [o] := by
    have hcount := List.count_eq_one_of_mem (hs.nodup c) ho
    rw [List.filter_eq, hcount]
    rfl
  show ((s.objectList c).filter fun o' => decide (o' = o)).map _ = _
  rw [hone]
  rfl

/-- The loop for semaphores would delete a thread as a semaphore. -/
theorem AllDestroyed.no_threads (hall : AllDestroyed s s')
    (hdestroy : rtModuleDestroy slab true s = some s') :
    s.objectList ObjectClass.thread = [] := by
  cases hlist : s.objectList ObjectClass.thread with
  | nil => rfl
  | cons o rest =>
    have ho : o ∈ s.objectList ObjectClass.thread := by
      rw [hlist]
      exact List.mem_cons_self
    have hmem := mem_calls_of_thread hlist hdestroy
    have hfilter : (chosen ObjectClass.semaphore o, o) ∈ s'.calls.filter (fun x => x.2 = o) :=
      List.mem_filter.mpr ⟨hmem, by simp⟩
    rw [hall.once _ o ho, List.mem_singleton] at hfilter
    injection hfilter with hop _
    exact absurd hop (chosen_ne o)

theorem Created.loops_destroyed (hs : Created s) (hcalls : s.calls = [])
    (hrest : forall c, s.objectList c ≠ [] -> c ∈ ownLoops) :
    AllDestroyed s (ownLoops.foldl (fun s c => Module.drained c s) s) := by
  have hlog := @drained_foldl_calls s ownLoops (by decide)
  rw [hcalls, List.nil_append] at hlog
  constructor
  · intro c
    rw [drained_foldl_lists]
    split
    · rfl
    · next hc =>
        by_contra hne
        exact hc (hrest c hne)
  · intro c o ho
    rw [hlog]
    exact hs.filter_calls (by decide) ho (hrest c (List.ne_nil_of_mem ho))
  · intro x hx
    rw [hlog, List.mem_flatMap] at hx
    obtain ⟨c, _, hx⟩ := hx
    rw [List.mem_map] at hx
    obtain ⟨o, ho, hx⟩ := hx
    subst hx
    exact ⟨c, ho⟩
  · exact drained_foldl_elsewhere

def withObject (o : Object) : State :=
  { objectList := fun c => if c = o.type then [o] else []
    elsewhere := []
    calls := []
    resumed := [] }

theorem withObject_created (o : Object)
    (hwaiting : forall w, w ∈ o.waiting -> w.suspended = true) : Created (withObject o) := by
  have hmem : forall c x, x ∈ (withObject o).objectList c -> c = o.type ∧ x = o := by
    intro c x hx
    unfold withObject at hx
    simp only at hx
    split at hx
    · next hc => exact ⟨hc, List.mem_singleton.mp hx⟩
    · cases hx
  constructor
  · intro c x hx
    obtain ⟨hc, heq⟩ := hmem c x hx
    rw [heq, hc]
  · intro c
    unfold withObject
    simp only
    split <;> simp
  · intro c x _ hx
    cases hx
  · intro c x _ hx
    rw [(hmem c x hx).2]
    exact hwaiting

/-- A mutex that a module has created, with a thread that waits for it. -/
def someMutex : Object :=
  { id := 1, type := ObjectClass.mutex, isSystemobject := false, waiting := [⟨7, true⟩] }

def somePool : Object :=
  { id := 4, type := ObjectClass.memPool, isSystemobject := false, waiting := [] }

def someSemaphore : Object :=
  { id := 2, type := ObjectClass.semaphore, isSystemobject := false, waiting := [] }

def someThread : Object :=
  { id := 3, type := ObjectClass.thread, isSystemobject := false, waiting := [] }

end RtThread.Module
