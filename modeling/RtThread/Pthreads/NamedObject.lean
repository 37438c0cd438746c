import RtThread.Library.CString
import RtThread.Library.Transition
import Mathlib.Data.List.Nodup
import Mathlib.Data.List.Perm.Subperm

/-!
# Named semaphores and message queues

`semaphore.c` and `mqueue.c` keep their named objects in the same way: a list of descriptors,
newest first, each with a reference count, an `unlinked` flag and a kernel object that has the
name. They differ in how a descriptor is compared with a name. The functions run under a lock: a
step is a whole call. Beside the list the state has the allocated blocks and the handles given out
and not closed.
-/

namespace RtThread.Pthreads.NamedObject

open Text
open Transition

def rtNameMax : Nat := 8

/-- `struct posix_sem` and `struct mqdes`, with the name of the kernel object. -/
structure Descriptor where
  addr : Nat
  object : Nat
  name : CString
  refcount : Nat
  unlinked : Bool
deriving DecidableEq

structure State where
  list : List Descriptor
  heap : List Nat
  handles : List Nat
deriving DecidableEq

inductive Errno where
  | eexist
  | enfile
  | enoent
deriving DecidableEq, Repr

inductive Result where
  | opened (addr : Nat)
  | done
  | failed (e : Errno)
deriving DecidableEq, Repr

/-- A call.  An open has the results of its two allocations with it, that of the
descriptor and that of the kernel object. -/
inductive Op where
  | open (name : CString) (creat excl : Bool) (descriptor object : Option Nat)
  | close (addr : Nat)
  | unlink (name : CString)
deriving DecidableEq

/-- How a descriptor in front of another one, or of address 0, is compared with a name. -/
abbrev Compare := Descriptor -> Nat -> CString -> Bool

/-!
## The functions of both files
-/

/-- The address that a `next` pointer has. -/
def headAddr : List Descriptor -> Nat
  | [] => 0
  | d :: _ => d.addr

def find (compare : Compare) : List Descriptor -> CString -> Option Descriptor
  | [], _ => none
  | d :: rest, name =>
    if compare d (headAddr rest) name then some d else find compare rest name

def put (d : Descriptor) (list : List Descriptor) : List Descriptor :=
  list.map fun x => if x.addr = d.addr then d else x

def delete (s : State) (d : Descriptor) : State :=
  { s with
    list := s.list.filter fun x => x.addr ≠ d.addr
    heap := (s.heap.erase d.object).erase d.addr }

/-- A descriptor for a new object is inserted; its opener has a handle. -/
def insert (s : State) (name : CString) (descriptor object : Nat) : State :=
  { list := ⟨descriptor, object, name, 1, false⟩ :: s.list
    heap := object :: descriptor :: s.heap
    handles := descriptor :: s.handles }

def openNamed (compare : Compare) (s : State) (name : CString) (creat excl : Bool)
    (descriptor object : Option Nat) : State × Result :=
  if creat then
    if excl ∧ find compare s.list name ≠ none then (s, Result.failed Errno.eexist)
    else
      match descriptor with
      | none => (s, Result.failed Errno.enfile)
      | some a =>
        match object with
        | none => ({ s with heap := (a :: s.heap).erase a }, Result.failed Errno.enfile)
        | some o => (insert s name a o, Result.opened a)
  else
    match find compare s.list name with
    | some d =>
      ({ s with
          list := put { d with refcount := (d.refcount + 1) % 2 ^ 16 } s.list
          handles := d.addr :: s.handles }, Result.opened d.addr)
    | none => (s, Result.failed Errno.enoent)

def closeNamed (s : State) (d : Descriptor) : State × Result :=
  let d := { d with refcount := (d.refcount + (2 ^ 16 - 1)) % 2 ^ 16 }
  let s := { s with list := put d s.list, handles := s.handles.erase d.addr }
  (if d.refcount = 0 ∧ d.unlinked then delete s d else s, Result.done)

def unlinkNamed (compare : Compare) (s : State) (name : CString) : State × Result :=
  match find compare s.list name with
  | some d =>
    let d := { d with unlinked := true }
    let s := { s with list := put d s.list }
    (if d.refcount = 0 then delete s d else s, Result.done)
  | none => (s, Result.failed Errno.enoent)

/-- The allocator gives different blocks that are not in use. -/
def Fresh (s : State) (descriptor object : Option Nat) : Prop :=
  (descriptor.toList ++ object.toList).Nodup ∧
    forall a, a ∈ descriptor.toList ++ object.toList -> a ∉ s.heap

instance (s : State) (descriptor object : Option Nat) :
    Decidable (Fresh s descriptor object) := inferInstanceAs (Decidable (_ ∧ _))

def stepOutcome (compare : Compare) (s : State) : Op -> Option (State × Result)
  | Op.open name creat excl descriptor object =>
    if strlen name < rtNameMax ∧ Fresh s descriptor object then
      some (openNamed compare s name creat excl descriptor object)
    else none
  | Op.close a =>
    if a ∈ s.handles then (s.list.find? fun d => d.addr = a).map (closeNamed s) else none
  | Op.unlink name =>
    if strlen name < rtNameMax then some (unlinkNamed compare s name) else none

def step (compare : Compare) (s : State) (op : Op) : Option State :=
  (stepOutcome compare s op).map Prod.fst

/-!
## The reference law

What the calls are for: a name belongs to the object that has it and is not unlinked.
-/

def lookup (list : List Descriptor) (name : CString) : Option Descriptor :=
  list.find? fun d => d.unlinked = false ∧ d.name = name

/-- An open gives a handle to the object that has the name; a creating one makes it if
there is none, an exclusive one wants to. -/
def lawOpen (s : State) (name : CString) (creat excl : Bool)
    (descriptor object : Option Nat) : State × Result :=
  match lookup s.list name with
  | some d =>
    if creat ∧ excl then (s, Result.failed Errno.eexist)
    else
      ({ s with
          list := put { d with refcount := d.refcount + 1 } s.list
          handles := d.addr :: s.handles }, Result.opened d.addr)
  | none =>
    if creat then
      match descriptor, object with
      | some a, some o => (insert s name a o, Result.opened a)
      | _, _ => (s, Result.failed Errno.enfile)
    else (s, Result.failed Errno.enoent)

/-- A close gives a handle back; the object goes with its last handle when it has no name
any more. -/
def lawClose (s : State) (d : Descriptor) : State × Result :=
  let d := { d with refcount := d.refcount - 1 }
  let s := { s with list := put d s.list, handles := s.handles.erase d.addr }
  (if d.refcount = 0 ∧ d.unlinked then delete s d else s, Result.done)

/-- An unlink takes the name from the object that has it; an object without handles
goes. -/
def lawUnlink (s : State) (name : CString) : State × Result :=
  match lookup s.list name with
  | some d =>
    let d := { d with unlinked := true }
    let s := { s with list := put d s.list }
    (if d.refcount = 0 then delete s d else s, Result.done)
  | none => (s, Result.failed Errno.enoent)

def lawOutcome (s : State) : Op -> Option (State × Result)
  | Op.open name creat excl descriptor object =>
    if strlen name < rtNameMax ∧ Fresh s descriptor object then
      some (lawOpen s name creat excl descriptor object)
    else none
  | Op.close a =>
    if a ∈ s.handles then (s.list.find? fun d => d.addr = a).map (lawClose s) else none
  | Op.unlink name =>
    if strlen name < rtNameMax then some (lawUnlink s name) else none

def blocks (list : List Descriptor) : List Nat :=
  list.flatMap fun d => [d.object, d.addr]

/-- The law's account, apart from the objects that have to go. -/
structure Accounted (heap0 : List Nat) (s : State) : Prop where
  addrs : (s.list.map fun d => d.addr).Nodup
  unique : forall d e, d ∈ s.list -> e ∈ s.list -> d.unlinked = false ->
    e.unlinked = false -> d.name = e.name -> d = e
  refcount : forall d, d ∈ s.list -> d.refcount = s.handles.count d.addr
  handles : forall a, a ∈ s.handles -> exists d, d ∈ s.list ∧ d.addr = a
  heap : s.heap.Perm (blocks s.list ++ heap0)

def Alive (s : State) : Prop :=
  forall d, d ∈ s.list -> d.unlinked = true -> 0 < d.refcount

variable {heap0 : List Nat} {s s' : State} {d e : Descriptor} {list : List Descriptor}
  {a o : Nat} {name : CString}

/-!
## The list
-/

theorem mem_put : e ∈ put d list <-> (e = d ∧ exists x, x ∈ list ∧ x.addr = d.addr) ∨
    (e ∈ list ∧ e.addr ≠ d.addr) := by
  unfold put
  rw [List.mem_map]
  constructor
  · rintro ⟨x, hx, heq⟩
    by_cases haddr : x.addr = d.addr
    · rw [if_pos haddr] at heq
      exact Or.inl ⟨heq.symm, x, hx, haddr⟩
    · rw [if_neg haddr] at heq
      subst heq
      exact Or.inr ⟨hx, haddr⟩
  · rintro (⟨rfl, x, hx, haddr⟩ | ⟨he, haddr⟩)
    · exact ⟨x, hx, if_pos haddr⟩
    · exact ⟨e, he, if_neg haddr⟩

theorem put_addrs (d : Descriptor) (list : List Descriptor) :
    (put d list).map (fun d => d.addr) = list.map fun d => d.addr := by
  unfold put
  rw [List.map_map]
  apply List.map_congr_left
  intro x _
  simp only [Function.comp_apply]
  split
  · next haddr => exact haddr.symm
  · rfl

theorem eq_of_addr (haddrs : (list.map fun d => d.addr).Nodup) (hd : d ∈ list)
    (he : e ∈ list) (haddr : d.addr = e.addr) : d = e :=
  List.inj_on_of_nodup_map haddrs hd he haddr

theorem blocks_put (haddrs : (list.map fun d => d.addr).Nodup) (he : e ∈ list)
    (haddr : d.addr = e.addr) (hobject : d.object = e.object) :
    blocks (put d list) = blocks list := by
  unfold blocks put
  rw [List.flatMap_map]
  apply List.flatMap_congr
  intro x hx
  split
  · next heq =>
      have hxe := eq_of_addr haddrs hx he (heq.trans haddr)
      rw [hxe, hobject, haddr]
  · rfl

theorem blocks_filter (haddrs : (list.map fun d => d.addr).Nodup) (hd : d ∈ list) :
    (blocks list).Perm (d.object :: d.addr :: blocks (list.filter fun x => x.addr ≠ d.addr)) := by
  obtain ⟨before, after, rfl⟩ := List.append_of_mem hd
  rw [List.map_append, List.map_cons, List.nodup_middle, List.nodup_cons,
    List.mem_append, not_or] at haddrs
  obtain ⟨⟨hbefore, hafter⟩, _⟩ := haddrs
  have hkeep : forall l : List Descriptor, d.addr ∉ l.map (fun d => d.addr) ->
      l.filter (fun x => x.addr ≠ d.addr) = l := by
    intro l hl
    rw [List.filter_eq_self]
    intro x hx
    simp only [ne_eq, decide_not, Bool.not_eq_eq_eq_not, Bool.not_true, decide_eq_false_iff_not]
    intro heq
    exact hl (heq ▸ List.mem_map_of_mem hx)
  rw [List.filter_append, hkeep before hbefore, List.filter_cons, if_neg (by simp),
    hkeep after hafter]
  unfold blocks
  rw [List.flatMap_append, List.flatMap_append, List.flatMap_cons]
  exact List.perm_append_comm_assoc _ [d.object, d.addr] _

theorem lookup_mem (h : lookup list name = some d) :
    d ∈ list ∧ d.unlinked = false ∧ d.name = name := by
  unfold lookup at h
  have hprop := List.find?_some h
  simp only [decide_eq_true_eq] at hprop
  exact ⟨List.mem_of_find?_eq_some h, hprop⟩

theorem lookup_none (h : lookup list name = none) (hd : d ∈ list)
    (hlinked : d.unlinked = false) : d.name ≠ name := by
  unfold lookup at h
  rw [List.find?_eq_none] at h
  have hnot := h d hd
  simp only [decide_eq_true_eq, not_and] at hnot
  exact hnot hlinked

/-!
## What the law keeps
-/

theorem Accounted.put (hs : Accounted heap0 s) (he : e ∈ s.list) (haddr : d.addr = e.addr)
    (hobject : d.object = e.object) (hname : d.name = e.name)
    (hlinked : d.unlinked = false -> e.unlinked = false) {handles : List Nat}
    (hcount : d.refcount = handles.count d.addr)
    (hother : forall a, a ≠ d.addr -> handles.count a = s.handles.count a) :
    Accounted heap0 ⟨put d s.list, s.heap, handles⟩ := by
  constructor
  · rw [put_addrs]
    exact hs.addrs
  · intro x y hx hy hxl hyl hxy
    rcases mem_put.mp hx with ⟨hxd, _⟩ | ⟨hxs, hxa⟩ <;>
      rcases mem_put.mp hy with ⟨hyd, _⟩ | ⟨hys, hya⟩
    · rw [hxd, hyd]
    · rw [hxd] at hxl hxy
      have heq := hs.unique e y he hys (hlinked hxl) hyl (hname.symm.trans hxy)
      exact absurd (heq ▸ haddr.symm) hya
    · rw [hyd] at hyl hxy
      have heq := hs.unique x e hxs he hxl (hlinked hyl) (hxy.trans hname)
      exact absurd (heq ▸ haddr.symm) hxa
    · exact hs.unique x y hxs hys hxl hyl hxy
  · intro x hx
    rcases mem_put.mp hx with ⟨rfl, _⟩ | ⟨hx, hxa⟩
    · exact hcount
    · rw [hs.refcount x hx, <- hother x.addr hxa]
  · intro a ha
    by_cases heq : a = d.addr
    · exact ⟨d, mem_put.mpr (Or.inl ⟨rfl, e, he, haddr.symm⟩), heq.symm⟩
    · have hpos := List.count_pos_iff.mpr ha
      rw [hother a heq] at hpos
      obtain ⟨x, hx, hxa⟩ := hs.handles a (List.count_pos_iff.mp hpos)
      exact ⟨x, mem_put.mpr (Or.inr ⟨hx, hxa ▸ heq⟩), hxa⟩
  · show s.heap.Perm (blocks (NamedObject.put d s.list) ++ heap0)
    rw [blocks_put hs.addrs he haddr hobject]
    exact hs.heap

theorem Accounted.delete (hs : Accounted heap0 s) (hd : d ∈ s.list) (hzero : d.refcount = 0) :
    Accounted heap0 (delete s d) := by
  have hmem : forall x, x ∈ (NamedObject.delete s d).list <-> x ∈ s.list ∧
    x.addr ≠ d.addr := by
    intro x
    simp [NamedObject.delete]
  constructor
  · exact hs.addrs.sublist (List.filter_sublist.map _)
  · intro x y hx hy
    exact hs.unique x y ((hmem x).mp hx).1 ((hmem y).mp hy).1
  · intro x hx
    exact hs.refcount x ((hmem x).mp hx).1
  · intro a ha
    obtain ⟨x, hx, hxa⟩ := hs.handles a ha
    refine ⟨x, (hmem x).mpr ⟨hx, ?_⟩, hxa⟩
    intro heq
    have hcount := hs.refcount d hd
    rw [hzero, <- heq, hxa] at hcount
    have hpos := List.count_pos_iff.mpr (show a ∈ s.handles from ha)
    omega
  · have hblocks := hs.heap.trans ((blocks_filter hs.addrs hd).append_right heap0)
    have herase := (hblocks.erase d.object).erase d.addr
    simpa [NamedObject.delete] using herase

theorem Accounted.mem_heap (hs : Accounted heap0 s) (hd : d ∈ s.list) : d.addr ∈ s.heap := by
  apply hs.heap.symm.subset
  apply List.mem_append_left
  unfold blocks
  rw [List.mem_flatMap]
  exact ⟨d, hd, by simp⟩

theorem Accounted.insert (hs : Accounted heap0 s) (hfree : lookup s.list name = none)
    (hfresh : a ∉ s.heap) : Accounted heap0 (insert s name a o) := by
  have hnew : forall x, x ∈ s.list -> x.addr ≠ a := by
    intro x hx heq
    exact hfresh (heq ▸ hs.mem_heap hx)
  constructor
  · show (a :: s.list.map fun d => d.addr).Nodup
    refine List.nodup_cons.mpr ⟨?_, hs.addrs⟩
    rw [List.mem_map]
    rintro ⟨x, hx, heq⟩
    exact hnew x hx heq
  · intro x y hx hy hxl hyl hxy
    rcases List.mem_cons.mp hx with rfl | hx <;> rcases List.mem_cons.mp hy with rfl | hy
    · rfl
    · exact absurd hxy.symm (lookup_none hfree hy hyl)
    · exact absurd hxy (lookup_none hfree hx hxl)
    · exact hs.unique x y hx hy hxl hyl hxy
  · intro x hx
    show x.refcount = (a :: s.handles).count x.addr
    rcases List.mem_cons.mp hx with rfl | hx
    · have hnone : s.handles.count a = 0 := by
        rw [List.count_eq_zero]
        intro ha
        obtain ⟨x, hx, hxa⟩ := hs.handles a ha
        exact hnew x hx hxa
      simp [hnone]
    · rw [List.count_cons_of_ne (hnew x hx).symm]
      exact hs.refcount x hx
  · intro b hb
    rcases List.mem_cons.mp hb with rfl | hb
    · exact ⟨_, List.mem_cons_self, rfl⟩
    · obtain ⟨x, hx, hxb⟩ := hs.handles b hb
      exact ⟨x, List.mem_cons_of_mem _ hx, hxb⟩
  · exact (hs.heap.cons a).cons o

theorem Alive.put (hs : Alive s) (hd : d.unlinked = true -> 0 < d.refcount)
    (heap handles : List Nat) : Alive ⟨put d s.list, heap, handles⟩ := by
  intro x hx
  rcases mem_put.mp hx with ⟨rfl, _⟩ | ⟨hx, _⟩
  · exact hd
  · exact hs x hx

theorem Alive.delete (hs : Alive s) (heap handles : List Nat) :
    Alive (delete ⟨NamedObject.put d s.list, heap, handles⟩ d) := by
  intro x hx
  have hmem := List.mem_filter.mp hx
  rcases mem_put.mp hmem.1 with ⟨rfl, _⟩ | ⟨hx, _⟩
  · simp at hmem
  · exact hs x hx

variable {creat excl : Bool} {descriptor object : Option Nat} {op : Op}

theorem law_open (hs : Accounted heap0 s) (ha : Alive s) (hfresh : Fresh s descriptor object) :
    Accounted heap0 (lawOpen s name creat excl descriptor object).1 ∧
      Alive (lawOpen s name creat excl descriptor object).1 := by
  unfold lawOpen
  split
  · next d hfound =>
      obtain ⟨hd, hlinked, _⟩ := lookup_mem hfound
      split
      · exact ⟨hs, ha⟩
      · refine ⟨hs.put (d := { d with refcount := d.refcount + 1 }) hd rfl rfl rfl id ?_ ?_,
          ha.put (fun _ => Nat.succ_pos _) _ _⟩
        · show d.refcount + 1 = (d.addr :: s.handles).count d.addr
          rw [List.count_cons_self, hs.refcount d hd]
        · intro b hb
          exact List.count_cons_of_ne (Ne.symm hb)
  · next hnone =>
      split
      · split
        · next a o =>
            refine ⟨hs.insert hnone (hfresh.2 a (by simp)), ?_⟩
            intro x hx
            rcases List.mem_cons.mp hx with rfl | hx
            · intro hunlinked
              cases hunlinked
            · exact ha x hx
        · exact ⟨hs, ha⟩
      · exact ⟨hs, ha⟩

theorem law_close (hs : Accounted heap0 s) (ha : Alive s) (hd : d ∈ s.list) :
    Accounted heap0 (lawClose s d).1 ∧ Alive (lawClose s d).1 := by
  have hput : Accounted heap0 ⟨NamedObject.put { d with refcount := d.refcount - 1 } s.list,
      s.heap, s.handles.erase d.addr⟩ := by
    refine hs.put (d := { d with refcount := d.refcount - 1 }) hd rfl rfl rfl id ?_ ?_
    · show d.refcount - 1 = (s.handles.erase d.addr).count d.addr
      rw [List.count_erase_self, hs.refcount d hd]
    · intro b hb
      exact List.count_erase_of_ne hb
  have hmem : { d with refcount := d.refcount - 1 } ∈
      NamedObject.put { d with refcount := d.refcount - 1 } s.list :=
    mem_put.mpr (Or.inl ⟨rfl, d, hd, rfl⟩)
  unfold lawClose
  simp only
  split
  · next hlast => exact ⟨hput.delete hmem hlast.1, ha.delete _ _⟩
  · next hmore =>
      refine ⟨hput, ha.put ?_ _ _⟩
      intro hunlinked
      by_contra hzero
      exact hmore ⟨Nat.le_zero.mp (Nat.not_lt.mp hzero), hunlinked⟩

theorem law_unlink (hs : Accounted heap0 s) (ha : Alive s) :
    Accounted heap0 (lawUnlink s name).1 ∧ Alive (lawUnlink s name).1 := by
  unfold lawUnlink
  split
  · next d hfound =>
      obtain ⟨hd, _, _⟩ := lookup_mem hfound
      have hput : Accounted heap0 ⟨NamedObject.put { d with unlinked := true } s.list,
          s.heap, s.handles⟩ := by
        refine hs.put (d := { d with unlinked := true }) hd rfl rfl rfl ?_ (hs.refcount d hd)
          fun _ _ => rfl
        intro hlinked
        cases hlinked
      have hmem : { d with unlinked := true } ∈
          NamedObject.put { d with unlinked := true } s.list :=
        mem_put.mpr (Or.inl ⟨rfl, d, hd, rfl⟩)
      simp only
      split
      · next hzero => exact ⟨hput.delete hmem hzero, ha.delete _ _⟩
      · next hopen =>
          exact ⟨hput, ha.put (d := { d with unlinked := true })
            (fun _ => Nat.pos_of_ne_zero hopen) _ _⟩
  · exact ⟨hs, ha⟩

theorem law_step {result : Result} (hs : Accounted heap0 s) (ha : Alive s)
    (h : lawOutcome s op = some (s', result)) : Accounted heap0 s' ∧ Alive s' := by
  unfold lawOutcome at h
  cases op with
  | «open» name creat excl descriptor object =>
    simp only [Option.ite_none_right_eq_some, Option.some.injEq] at h
    have hlaw : Accounted heap0 (lawOpen s name creat excl descriptor object).1 ∧
        Alive (lawOpen s name creat excl descriptor object).1 := law_open hs ha h.1.2
    rw [h.2] at hlaw
    exact hlaw
  | close a =>
    simp only [Option.ite_none_right_eq_some, Option.map_eq_some_iff] at h
    obtain ⟨_, d, hfound, heq⟩ := h
    have hlaw := law_close hs ha (List.mem_of_find?_eq_some hfound)
    rw [heq] at hlaw
    exact hlaw
  | unlink name =>
    simp only [Option.ite_none_right_eq_some, Option.some.injEq] at h
    have hlaw : Accounted heap0 (lawUnlink s name).1 ∧ Alive (lawUnlink s name).1 :=
      law_unlink hs ha
    rw [h.2] at hlaw
    exact hlaw

/-!
## Calls that obey the law
-/

def Bounded (s : State) : Prop := forall d, d ∈ s.list -> d.refcount < 2 ^ 16

/-- The search by comparison finds the object that has the name, where the call needs it,
and the count does not wrap. An open that creates without `O_EXCL` does not search, so that
nothing may have the name. -/
def Lawful (compare : Compare) (s : State) : Op -> Prop
  | Op.open name creat excl _ _ =>
    if creat ∧ excl = false then lookup s.list name = none
    else find compare s.list name = lookup s.list name ∧
      (creat = false -> forall d, d ∈ lookup s.list name -> d.refcount + 1 < 2 ^ 16)
  | Op.unlink name => find compare s.list name = lookup s.list name
  | Op.close _ => True

variable {compare : Compare}

theorem lawful_open : Lawful compare s (Op.open name creat excl descriptor object) <->
      if creat ∧ excl = false then lookup s.list name = none
      else find compare s.list name = lookup s.list name ∧
        (creat = false -> forall d, d ∈ lookup s.list name -> d.refcount + 1 < 2 ^ 16) :=
  Iff.rfl

theorem openNamed_eq_law (hok : Lawful compare s (Op.open name creat excl descriptor object)) :
    openNamed compare s name creat excl descriptor object =
      lawOpen s name creat excl descriptor object := by
  have herase : forall a : Nat, (a :: s.heap).erase a = s.heap :=
    fun a => List.erase_cons_head ..
  rw [lawful_open] at hok
  unfold openNamed lawOpen
  cases creat with
  | true =>
    cases excl with
    | false =>
      simp only [true_and, if_true] at hok
      rw [hok]
      cases descriptor <;> cases object <;> simp [herase]
    | true =>
      simp only [true_and, reduceCtorEq, if_false, false_implies, and_true] at hok
      rw [hok]
      cases lookup s.list name with
      | some d => simp
      | none => cases descriptor <;> cases object <;> simp [herase]
  | false =>
    simp only [Bool.false_eq_true, false_and, if_false, forall_true_left] at hok
    rw [hok.1]
    simp only [Bool.false_eq_true, false_and, if_false]
    cases hfound : lookup s.list name with
    | some d =>
      have hlt := hok.2 d hfound
      simp only [Nat.mod_eq_of_lt hlt]
    | none => rfl

theorem closeNamed_eq_law (hs : Accounted heap0 s) (hb : Bounded s) (hd : d ∈ s.list)
    (hhandle : d.addr ∈ s.handles) : closeNamed s d = lawClose s d := by
  have hcount := hs.refcount d hd
  have hpos := List.count_pos_iff.mpr hhandle
  have hlt := hb d hd
  have hdown : (d.refcount + (2 ^ 16 - 1)) % 2 ^ 16 = d.refcount - 1 := by omega
  unfold closeNamed lawClose
  rw [hdown]

theorem unlinkNamed_eq_law (hok : Lawful compare s (Op.unlink name)) :
    unlinkNamed compare s name = lawUnlink s name := by
  unfold Lawful at hok
  unfold unlinkNamed lawUnlink
  rw [hok]

theorem stepOutcome_eq_law (hs : Accounted heap0 s) (hb : Bounded s)
    (hok : Lawful compare s op) : stepOutcome compare s op = lawOutcome s op := by
  unfold stepOutcome lawOutcome
  cases op with
  | «open» name creat excl descriptor object => simp only [openNamed_eq_law hok]
  | close a =>
    simp only
    split
    · next ha =>
        cases hfound : s.list.find? fun d => d.addr = a with
        | none => rw [Option.map_none, Option.map_none]
        | some d =>
          have haddr := List.find?_some hfound
          simp only [decide_eq_true_eq] at haddr
          rw [Option.map_some, Option.map_some,
            closeNamed_eq_law hs hb (List.mem_of_find?_eq_some hfound) (haddr ▸ ha)]
    · rfl
  | unlink name => simp only [unlinkNamed_eq_law hok]

theorem Bounded.put (hb : Bounded s) (hd : d.refcount < 2 ^ 16) (heap handles : List Nat) :
    Bounded ⟨put d s.list, heap, handles⟩ := by
  intro x hx
  rcases mem_put.mp hx with ⟨rfl, _⟩ | ⟨hx, _⟩
  · exact hd
  · exact hb x hx

theorem Bounded.delete (hb : Bounded s) (d : Descriptor) : Bounded (delete s d) := by
  intro x hx
  exact hb x (List.mem_filter.mp hx).1

theorem Bounded.step {result : Result} (hb : Bounded s) (hok : Lawful compare s op)
    (h : lawOutcome s op = some (s', result)) : Bounded s' := by
  unfold lawOutcome at h
  cases op with
  | «open» name creat excl descriptor object =>
    simp only [Option.ite_none_right_eq_some, Option.some.injEq] at h
    have heq := congrArg Prod.fst h.2
    subst heq
    unfold lawOpen
    cases hfound : lookup s.list name with
    | some d =>
      simp only
      split
      · exact hb
      · next hshare =>
          refine hb.put (d := { d with refcount := d.refcount + 1 }) ?_ _ _
          rw [lawful_open, hfound] at hok
          cases creat with
          | false =>
            simp only [Bool.false_eq_true, false_and, if_false, forall_true_left] at hok
            exact hok.2 d rfl
          | true =>
            cases excl with
            | false => simp at hok
            | true => exact absurd ⟨rfl, rfl⟩ hshare
    | none =>
      simp only
      split
      · split
        · intro x hx
          rcases List.mem_cons.mp hx with rfl | hx
          · exact (by decide : 1 < 2 ^ 16)
          · exact hb x hx
        · exact hb
      · exact hb
  | close a =>
    simp only [Option.ite_none_right_eq_some, Option.map_eq_some_iff] at h
    obtain ⟨_, d, hfound, heq⟩ := h
    have heq := congrArg Prod.fst heq
    subst heq
    have hput := hb.put (d := { d with refcount := d.refcount - 1 })
      (lt_of_le_of_lt (Nat.sub_le _ _) (hb d (List.mem_of_find?_eq_some hfound))) s.heap
      (s.handles.erase d.addr)
    unfold lawClose
    simp only
    split
    · exact hput.delete _
    · exact hput
  | unlink name =>
    simp only [Option.ite_none_right_eq_some, Option.some.injEq] at h
    have heq := congrArg Prod.fst h.2
    subst heq
    unfold lawUnlink
    split
    · next d hfound =>
        have hput := hb.put (d := { d with unlinked := true })
          (hb d (lookup_mem hfound).1) s.heap s.handles
        simp only
        split
        · exact hput.delete _
        · exact hput
    · exact hb

end RtThread.Pthreads.NamedObject
