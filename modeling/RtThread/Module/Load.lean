import RtThread.Module.Elf

/-!
# Loading a module

`rt_module_load` with `_load_shared_object` and `_load_relocated_object`, and their allocations,
in stages. The heap is the list of the blocks in use. Whether a request succeeds is given with the
load, so that every one can be the one that fails. `_load_shared_object` notes a symbol that is
not found in a static variable, which keeps its value for the sections and the loads to come;
nothing clears it. `rt_object_allocate` does not clear the block of the module object either:
a member that a load leaves unwritten keeps what the block held before. The build is one with
`RT_USING_SLAB`.
-/

namespace RtThread.Module.Loader

/-- What a block of the heap is used for. -/
inductive Piece where
  | module
  | space
  | symtab
  | symbolName
  | pageArray
  | thread
  | stack
deriving DecidableEq, Repr

/-- The static variable `unsolved`, the number of the next block, the blocks in use and the
module objects, each with the number of its block. -/
structure State where
  unsolved : Bool
  next : Nat
  blocks : List (Nat × Piece)
  modules : List Nat
deriving DecidableEq, Repr

/-- Which of the requests for memory succeed.  The names are those of the symbol table,
in order. -/
structure Grants where
  object : Bool
  space : Bool
  symtab : Bool
  name : Nat -> Bool
  pageArray : Bool
  thread : Bool
  stack : Bool

/-- What stands in the block of the module object when the object is allocated, at the
members that not every load writes. -/
structure Leftover where
  moduleThread : UInt32
  memList : UInt32
  pageArray : UInt32
  pageCnt : UInt32
  nref : UInt16
  nsym : UInt16
  symtab : UInt32
deriving DecidableEq, Repr

/-- A call of `rt_module_load`. -/
structure Load where
  name : List Char
  image : Ehdr
  grants : Grants
  left : Leftover

/-- A pointer of the module object: null, to something that the load has made, or what the
block held before. -/
inductive Pointer (α : Type) where
  | null
  | to (a : α)
  | left (word : UInt32)
deriving DecidableEq, Repr

/-- The module object that is returned.  The places in the module space are offsets, and
an exported symbol has its place and its name. -/
structure Loaded where
  name : List Char
  moduleSize : UInt32
  copies : List Copy
  moduleEntry : UInt32
  patches : List Patch
  moduleThread : Pointer Unit
  memList : Pointer Unit
  pageArray : Pointer Unit
  pageCnt : UInt32
  nref : UInt16
  nsym : UInt16
  symtab : Pointer (List (UInt32 × List Char))
  withEntry : Bool
deriving DecidableEq, Repr

/-! ### The heap -/

def rtMalloc (granted : Bool) (p : Piece) (s : State) : Option Nat × State :=
  if granted then
    (some s.next, { s with next := s.next + 1, blocks := (s.next, p) :: s.blocks })
  else (none, s)

def rtFree (block : Nat) (s : State) : State :=
  { s with blocks := s.blocks.eraseP fun b => b.1 == block }

def rtObjectAllocate (granted : Bool) (s : State) : Option Nat × State :=
  match rtMalloc granted Piece.module s with
  | (none, s) => (none, s)
  | (some module, s) => (some module, { s with modules := module :: s.modules })

def rtObjectDelete (module : Nat) (s : State) : State :=
  rtFree module { s with modules := s.modules.erase module }

def rtThreadCreate (g : Grants) (s : State) : Option Nat × State :=
  match rtMalloc g.thread Piece.thread s with
  | (none, s) => (none, s)
  | (some thread, s) =>
    match rtMalloc g.stack Piece.stack s with
    | (none, s) => (none, rtFree thread s)
    | (some _, s) => (some thread, s)

/-! ### The loaders

The result `none` is a write through `RT_NULL`.  Otherwise there is the module, or
`RT_NULL`, and the state. -/

/-- The names from number `i` on. -/
def mallocNames (name : Nat -> Bool) : Nat -> Nat -> State -> Option State
  | _, 0, s => some s
  | i, count + 1, s =>
    match rtMalloc (name i) Piece.symbolName s with
    | (none, _) => none
    | (some _, s) => mallocNames name (i + 1) count s

/-- The module symbol table.  A request for no bytes gives no block. -/
def constructSymtab (g : Grants) (syms : List Sym) (s : State) : Option State :=
  match rtMalloc (g.symtab && !syms.isEmpty) Piece.symtab s with
  | (none, s) => if syms.isEmpty then some s else none
  | (some _, s) => mallocNames g.name 0 syms.length s

def linked (image : Ehdr) : Bool := image.eIdent.take 4 == rtmmag

def sharedObject (l : Load) (patches : List Patch) : Loaded where
  name := l.name
  moduleSize := sharedSize l.image.phdr 0
  copies := sharedCopies l.image.phdr
  moduleEntry := l.image.eEntry
  patches := patches
  moduleThread := Pointer.left l.left.moduleThread
  memList := Pointer.left l.left.memList
  pageArray := Pointer.left l.left.pageArray
  pageCnt := l.left.pageCnt
  nref := 0
  nsym := match dynsym l.image with
    | none => l.left.nsym
    | some syms => UInt16.ofNat syms.length
  symtab := match dynsym l.image with
    | none => Pointer.left l.left.symtab
    | some [] => Pointer.null
    | some syms => Pointer.to (syms.map fun sym => (sym.stValue, sym.stName))
  withEntry := false

def loadSharedObject (table : SymbolTable) (l : Load) (s : State) :
    Option (Option Loaded × State) :=
  if sharedSize l.image.phdr 0 = 0 then some (none, s)
  else
    match rtObjectAllocate l.grants.object s with
    | (none, s) => some (none, s)
    | (some module, s) =>
      match rtMalloc l.grants.space Piece.space s with
      | (none, s) => some (none, rtObjectDelete module s)
      | (some _, s) =>
        match relocateSections table (linked l.image) l.image l.image.shdr
            ([], s.unsolved) with
        -- the module space is not freed here
        | (none, unsolved) => some (none, rtObjectDelete module { s with unsolved })
        | (some patches, unsolved) =>
          match dynsym l.image with
          | none => some (some (sharedObject l patches), { s with unsolved })
          | some syms =>
            (constructSymtab l.grants syms { s with unsolved }).map fun s =>
              (some (sharedObject l patches), s)

def relocatedObject (table : SymbolTable) (l : Load) : Loaded :=
  let size := relocatedSize l.image.shdr (0, 0)
  { name := l.name
    moduleSize := size.1
    copies := (layout l.image).copies
    moduleEntry := l.image.eEntry - size.2
    patches := relocatedPatches table l.image size.2
    moduleThread := Pointer.left l.left.moduleThread
    memList := Pointer.left l.left.memList
    pageArray := Pointer.left l.left.pageArray
    pageCnt := l.left.pageCnt
    nref := l.left.nref
    nsym := l.left.nsym
    symtab := Pointer.left l.left.symtab
    withEntry := false }

def loadRelocatedObject (table : SymbolTable) (l : Load) (s : State) :
    Option (Option Loaded × State) :=
  if (relocatedSize l.image.shdr (0, 0)).1 = 0 then some (none, s)
  else
    match rtObjectAllocate l.grants.object s with
    | (none, s) => some (none, s)
    | (some module, s) =>
      match rtMalloc l.grants.space Piece.space s with
      | (none, s) => some (none, rtObjectDelete module s)
      | (some _, s) => some (some (relocatedObject table l), s)

/-- The members that only a module with an entry point gets. -/
def Loaded.started (m : Loaded) (pageArray : Bool) : Loaded :=
  { m with
    moduleThread := Pointer.to ()
    memList := Pointer.null
    pageArray := if pageArray then Pointer.to () else Pointer.null
    pageCnt := 0
    withEntry := true }

/-- The page array and the thread of a module with an entry point.  Only the thread is
used at once. -/
def startModule (g : Grants) (m : Loaded) (s : State) : Option (Option Loaded × State) :=
  match rtMalloc g.pageArray Piece.pageArray s with
  | (pageArray, s) =>
    match rtThreadCreate g s with
    | (none, _) => none
    | (some _, s) => some (some (m.started pageArray.isSome), s)

def headerOk (image : Ehdr) : Bool :=
  (image.eIdent.take 4 == rtmmag || image.eIdent.take 4 == elfmag) &&
    image.eIdent.getD 4 0 == elfclass32

/-- The loader that `rt_module_load` chooses. -/
def loadObject (table : SymbolTable) (l : Load) (s : State) :
    Option (Option Loaded × State) :=
  if headerOk l.image then
    if l.image.eType = etRel then loadRelocatedObject table l s
    else if l.image.eType = etDyn then loadSharedObject table l s
    else some (none, s)
  else some (none, s)

/-- The object is referred to once more, whatever it says so far. -/
def Loaded.referred (m : Loaded) : Loaded := { m with nref := m.nref + 1 }

def rtModuleLoad (table : SymbolTable) (l : Load) (s : State) :
    Option (Option Loaded × State) :=
  (loadObject table l s).bind fun r =>
    match r with
    | (none, s) => some (none, s)
    | (some m, s) =>
      if l.image.eEntry = 0 then some (some m.referred, s)
      else startModule l.grants m.referred s

/-! ### What a load comes to -/

def start (next : Nat) (blocks : List (Nat × Piece)) (modules : List Nat) : State :=
  ⟨false, next, blocks, modules⟩

/-- Every load of a run returns, with the result it has in a system in which it is the
first, whatever the block of its module object held there, and one that returns `RT_NULL`
leaves blocks and module objects as before. -/
def LoadsIndependent (table : SymbolTable) : State -> List Load -> Prop
  | _, [] => True
  | s, l :: rest => exists r s',
      rtModuleLoad table l s = some (r, s') ∧
        (forall left, (rtModuleLoad table { l with left := left } (start 0 [] [])).map
          Prod.fst = some r) ∧
        (r = none -> s'.blocks = s.blocks ∧ s'.modules = s.modules) ∧
        LoadsIndependent table s' rest

def moduleSize (image : Ehdr) : UInt32 :=
  if image.eType = etRel then (relocatedSize image.shdr (0, 0)).1
  else if image.eType = etDyn then sharedSize image.phdr 0
  else 0

/-- The load gets its module object and its module space. -/
def Built (l : Load) : Prop :=
  headerOk l.image ∧ moduleSize l.image ≠ 0 ∧ l.grants.object ∧ l.grants.space

instance (l : Load) : Decidable (Built l) :=
  inferInstanceAs (Decidable (_ ∧ _ ∧ _ ∧ _))

/-- The requests for the symbol table and its names succeed, if there are any. -/
def SymtabGranted (l : Load) : Prop :=
  forall syms, dynsym l.image = some syms -> syms ≠ [] ->
    l.grants.symtab = true ∧ forall i, i < syms.length -> l.grants.name i = true

/-- The kernel has the symbols that a shared object needs, unless it is linked already, and
the requests succeed whose result is not examined. -/
def Checked (table : SymbolTable) (l : Load) : Prop :=
  Built l ->
    (l.image.eType = etDyn ->
      (linked l.image = true ∨ Resolved table l.image l.image.shdr) ∧ SymtabGranted l) ∧
    (l.image.eEntry ≠ 0 -> l.grants.thread = true ∧ l.grants.stack = true)

/-- Every member of the module object is written: the symbol table only for a shared object
with a section `.dynsym`, and what belongs to the thread only with an entry point. -/
def Written (l : Load) : Prop :=
  Built l ->
    l.image.eType = etDyn ∧ (dynsym l.image).isSome ∧ l.image.eEntry ≠ 0

/-! ### The stages -/

theorem rtMalloc_unsolved (granted : Bool) (p : Piece) (s : State) :
    (rtMalloc granted p s).2.unsolved = s.unsolved := by
  cases granted <;> rfl

theorem mallocNames_isSome_iff (name : Nat -> Bool) (count : Nat) (i : Nat) (s : State) :
    (mallocNames name i count s).isSome ↔ forall j, j < count -> name (i + j) = true := by
  induction count generalizing i s with
  | zero => simp [mallocNames]
  | succ count ih =>
    cases hname : name i with
    | false =>
      simp only [mallocNames, rtMalloc, hname, Bool.false_eq_true, if_false,
        Option.isSome_none, false_iff]
      intro h
      simpa [hname] using h 0 (Nat.succ_pos count)
    | true =>
      simp only [mallocNames, rtMalloc, hname, if_true, ih]
      constructor
      · intro h j hj
        cases j with
        | zero => exact hname
        | succ j =>
          have hj := h j (Nat.lt_of_succ_lt_succ hj)
          rwa [show i + 1 + j = i + (j + 1) by omega] at hj
      · intro h j hj
        have hj := h (j + 1) (Nat.succ_lt_succ hj)
        rwa [show i + (j + 1) = i + 1 + j by omega] at hj

variable {s : State} {g : Grants} {table : SymbolTable} {l : Load}

theorem mallocNames_unsolved {name : Nat -> Bool} (count : Nat) {i : Nat} {s' : State}
    (hnames : mallocNames name i count s = some s') : s'.unsolved = s.unsolved := by
  induction count generalizing i s with
  | zero =>
    cases hnames
    rfl
  | succ count ih =>
    cases hname : name i with
    | false => simp [mallocNames, rtMalloc, hname] at hnames
    | true =>
      simp only [mallocNames, rtMalloc, hname, if_true] at hnames
      have hrest := ih hnames
      exact hrest

theorem constructSymtab_isSome_iff (g : Grants) (syms : List Sym) (s : State) :
    (constructSymtab g syms s).isSome ↔
      (syms ≠ [] -> g.symtab = true ∧ forall i, i < syms.length -> g.name i = true) := by
  cases syms with
  | nil => simp [constructSymtab, rtMalloc]
  | cons sym syms =>
    cases hsymtab : g.symtab with
    | false => simp [constructSymtab, rtMalloc, hsymtab]
    | true =>
      have hnames := mallocNames_isSome_iff g.name (sym :: syms).length 0
        (rtMalloc true Piece.symtab s).2
      simp only [Nat.zero_add] at hnames
      simpa [constructSymtab, rtMalloc, hsymtab] using hnames

theorem constructSymtab_unsolved {syms : List Sym} {s' : State}
    (hsymtab : constructSymtab g syms s = some s') : s'.unsolved = s.unsolved := by
  unfold constructSymtab at hsymtab
  have hmalloc := rtMalloc_unsolved (g.symtab && !syms.isEmpty) Piece.symtab s
  rcases hr : rtMalloc (g.symtab && !syms.isEmpty) Piece.symtab s with ⟨block, s1⟩
  rw [hr] at hsymtab hmalloc
  cases block with
  | none =>
    cases hempty : syms.isEmpty with
    | true =>
      simp only [hempty, if_true, Option.some.injEq] at hsymtab
      rwa [← hsymtab]
    | false => simp [hempty] at hsymtab
  | some block => exact (mallocNames_unsolved _ hsymtab).trans hmalloc

theorem rtObjectDelete_last (s : State) (n : Nat) (u : Bool) (m : Nat) :
    rtObjectDelete n ⟨u, m, (n, Piece.module) :: s.blocks, n :: s.modules⟩ =
      ⟨u, m, s.blocks, s.modules⟩ := by
  simp [rtObjectDelete, rtFree]

def loadedObject (table : SymbolTable) (l : Load) : Loaded :=
  if l.image.eType = etRel then relocatedObject table l
  else sharedObject l ((relocateSections table (linked l.image) l.image l.image.shdr
    ([], false)).1.getD [])

/-- What a loader can do when `unsolved` is clear: nothing to load, no memory, a missing
symbol, an unexamined pointer that is `RT_NULL`, or a module. -/
inductive Outcome (table : SymbolTable) (l : Load) (s : State) :
    Option (Option Loaded × State) -> Prop where
  | refused {s' : State} (hbuilt : ¬ Built l) (hblocks : s'.blocks = s.blocks)
      (hmodules : s'.modules = s.modules) (hclear : s'.unsolved = false) :
      Outcome table l s (some (none, s'))
  | leaked {s' : State} (hbuilt : Built l) (hdyn : l.image.eType = etDyn)
      (hmissing : ¬ (linked l.image = true ∨ Resolved table l.image l.image.shdr))
      (hblocks : s'.blocks ≠ s.blocks) : Outcome table l s (some (none, s'))
  | fault (hbuilt : Built l) (hdyn : l.image.eType = etDyn)
      (hsymtab : ¬ SymtabGranted l) : Outcome table l s none
  | loaded {s' : State} (hbuilt : Built l)
      (hdyn : l.image.eType = etDyn ->
        (linked l.image = true ∨ Resolved table l.image l.image.shdr) ∧ SymtabGranted l)
      (hclear : s'.unsolved = false) :
      Outcome table l s (some (some (loadedObject table l), s'))

/-! ### One load -/

theorem loadRelocatedObject_outcome (hheader : headerOk l.image = true)
    (htype : l.image.eType = etRel) (hclear : s.unsolved = false) :
    Outcome table l s (loadRelocatedObject table l s) := by
  have hsize : moduleSize l.image = (relocatedSize l.image.shdr (0, 0)).1 := if_pos htype
  have hdyn : l.image.eType ≠ etDyn := by
    rw [htype]
    decide
  unfold loadRelocatedObject
  by_cases hzero : (relocatedSize l.image.shdr (0, 0)).1 = 0
  · rw [if_pos hzero]
    exact Outcome.refused (fun h => h.2.1 (hsize.trans hzero)) rfl rfl hclear
  rw [if_neg hzero]
  cases hobject : l.grants.object with
  | false => exact Outcome.refused (fun h => by simpa [hobject] using h.2.2.1) rfl rfl hclear
  | true =>
    cases hspace : l.grants.space with
    | false =>
      simp only [rtObjectAllocate, rtMalloc, if_true, Bool.false_eq_true, if_false,
        rtObjectDelete_last]
      exact Outcome.refused (fun h => by simpa [hspace] using h.2.2.2) rfl rfl hclear
    | true =>
      have hbuilt : Built l := ⟨hheader, by rwa [hsize], hobject, hspace⟩
      have hloaded : loadedObject table l = relocatedObject table l := if_pos htype
      rw [← hloaded]
      exact Outcome.loaded hbuilt (fun h => absurd h hdyn) hclear

theorem loadSharedObject_outcome (hheader : headerOk l.image = true)
    (htype : l.image.eType = etDyn) (hclear : s.unsolved = false) :
    Outcome table l s (loadSharedObject table l s) := by
  have hrel : l.image.eType ≠ etRel := by
    rw [htype]
    decide
  have hsize : moduleSize l.image = sharedSize l.image.phdr 0 := by
    rw [moduleSize, if_neg hrel, if_pos htype]
  unfold loadSharedObject
  by_cases hzero : sharedSize l.image.phdr 0 = 0
  · rw [if_pos hzero]
    exact Outcome.refused (fun h => h.2.1 (hsize.trans hzero)) rfl rfl hclear
  rw [if_neg hzero]
  cases hobject : l.grants.object with
  | false => exact Outcome.refused (fun h => by simpa [hobject] using h.2.2.1) rfl rfl hclear
  | true =>
    cases hspace : l.grants.space with
    | false =>
      simp only [rtObjectAllocate, rtMalloc, if_true, Bool.false_eq_true, if_false,
        rtObjectDelete_last]
      exact Outcome.refused (fun h => by simpa [hspace] using h.2.2.2) rfl rfl hclear
    | true =>
      have hbuilt : Built l := ⟨hheader, by rwa [hsize], hobject, hspace⟩
      simp only [rtObjectAllocate, rtMalloc, if_true, hclear]
      rcases @relocateSections_clear table (linked l.image) l.image l.image.shdr [] with
        ⟨hfalse, hsome, hresolved⟩ | ⟨hnone, hmissing⟩
      · obtain ⟨patches, hpatches⟩ := Option.isSome_iff_exists.mp hsome
        have hr : relocateSections table (linked l.image) l.image l.image.shdr
            ([], false) = (some patches, false) := Prod.ext hpatches hfalse
        have hloaded : loadedObject table l = sharedObject l patches := by
          rw [loadedObject, if_neg hrel, hr, Option.getD_some]
        rw [hr]
        dsimp only
        rw [← hloaded]
        cases hdynsym : dynsym l.image with
        | none =>
          refine Outcome.loaded hbuilt (fun _ => ⟨hresolved, ?_⟩) rfl
          intro syms hsyms
          simp [hdynsym] at hsyms
        | some syms =>
          have hgranted : SymtabGranted l ↔ (syms ≠ [] -> l.grants.symtab = true ∧
              forall i, i < syms.length -> l.grants.name i = true) := by
            simp [SymtabGranted, hdynsym]
          dsimp only
          have hiff := constructSymtab_isSome_iff l.grants syms
            ⟨false, s.next + 1 + 1, (s.next + 1, Piece.space) ::
              (s.next, Piece.module) :: s.blocks, s.next :: s.modules⟩
          cases hsymtab : constructSymtab l.grants syms
              ⟨false, s.next + 1 + 1, (s.next + 1, Piece.space) ::
                (s.next, Piece.module) :: s.blocks, s.next :: s.modules⟩ with
          | none =>
            rw [hsymtab, ← hgranted] at hiff
            exact Outcome.fault hbuilt htype fun h => by simpa using hiff.mpr h
          | some s' =>
            rw [hsymtab, ← hgranted] at hiff
            exact Outcome.loaded hbuilt (fun _ => ⟨hresolved, hiff.mp rfl⟩)
              (constructSymtab_unsolved hsymtab)
      · rw [hnone]
        refine Outcome.leaked hbuilt htype hmissing ?_
        intro hblocks
        have hlength := congrArg List.length hblocks
        simp [rtObjectDelete, rtFree] at hlength

theorem loadObject_outcome (table : SymbolTable) (l : Load) (hclear : s.unsolved = false) :
    Outcome table l s (loadObject table l s) := by
  unfold loadObject
  by_cases hheader : headerOk l.image = true
  · rw [if_pos hheader]
    by_cases hrel : l.image.eType = etRel
    · rw [if_pos hrel]
      exact loadRelocatedObject_outcome hheader hrel hclear
    · rw [if_neg hrel]
      by_cases hdyn : l.image.eType = etDyn
      · rw [if_pos hdyn]
        exact loadSharedObject_outcome hheader hdyn hclear
      · rw [if_neg hdyn]
        exact Outcome.refused (fun h => h.2.1 (by simp [moduleSize, hrel, hdyn])) rfl rfl hclear
  · rw [if_neg hheader]
    exact Outcome.refused (fun h => hheader h.1) rfl rfl hclear

theorem startModule_granted (m : Loaded) (hthread : g.thread = true ∧ g.stack = true) :
    exists s', s'.unsolved = s.unsolved ∧ startModule g m s =
        some (some (m.started g.pageArray), s') := by
  cases hpage : g.pageArray with
  | false =>
    refine ⟨_, ?_, by simp only [startModule, rtMalloc, rtThreadCreate, hpage, hthread]; rfl⟩
    rfl
  | true =>
    refine ⟨_, ?_, by simp only [startModule, rtMalloc, rtThreadCreate, hpage, hthread]; rfl⟩
    rfl

theorem startModule_refused (m : Loaded) (hthread : ¬ (g.thread = true ∧ g.stack = true)) :
    startModule g m s = none := by
  cases hpage : g.pageArray <;> cases ht : g.thread <;> cases hs : g.stack <;>
    simp_all [startModule, rtMalloc, rtThreadCreate]

def loadResult (table : SymbolTable) (l : Load) : Option Loaded :=
  if Built l then
    if l.image.eEntry = 0 then some (loadedObject table l).referred
    else some ((loadedObject table l).referred.started l.grants.pageArray)
  else none

theorem rtModuleLoad_of_checked (hclear : s.unsolved = false) (hchecked : Checked table l) :
    exists s', rtModuleLoad table l s = some (loadResult table l, s') ∧ s'.unsolved = false ∧
      (loadResult table l = none -> s'.blocks = s.blocks ∧ s'.modules = s.modules) := by
  have houtcome := loadObject_outcome table l hclear
  unfold rtModuleLoad
  generalize loadObject table l s = r at houtcome
  cases houtcome with
  | refused hbuilt hblocks hmodules hclear' =>
    have hresult : loadResult table l = none := if_neg hbuilt
    rw [hresult]
    exact ⟨_, rfl, hclear', fun _ => ⟨hblocks, hmodules⟩⟩
  | leaked hbuilt hdyn hmissing =>
    exact absurd ((hchecked hbuilt).1 hdyn).1 hmissing
  | fault hbuilt hdyn hsymtab =>
    exact absurd ((hchecked hbuilt).1 hdyn).2 hsymtab
  | @loaded s' hbuilt _ hclear' =>
    by_cases hentry : l.image.eEntry = 0
    · have hresult : loadResult table l = some (loadedObject table l).referred := by
        rw [loadResult, if_pos hbuilt, if_pos hentry]
      refine ⟨s', ?_, hclear', fun h => by simp [hresult] at h⟩
      simp [hresult, hentry]
    · have hresult : loadResult table l =
          some ((loadedObject table l).referred.started l.grants.pageArray) := by
        rw [loadResult, if_pos hbuilt, if_neg hentry]
      obtain ⟨s1, hs1, hstart⟩ := startModule_granted (loadedObject table l).referred (s := s')
        ((hchecked hbuilt).2 hentry)
      refine ⟨s1, ?_, hs1.trans hclear', fun h => by simp [hresult] at h⟩
      simp [hresult, hentry, hstart]

theorem rtModuleLoad_of_not_checked (hclear : s.unsolved = false) (hchecked : ¬ Checked table l) :
    rtModuleLoad table l s = none ∨
      exists s', rtModuleLoad table l s = some (none, s') ∧ s'.blocks ≠ s.blocks := by
  have houtcome := loadObject_outcome table l hclear
  unfold rtModuleLoad
  generalize loadObject table l s = r at houtcome
  cases houtcome with
  | refused hbuilt => exact absurd (fun h => absurd h hbuilt) hchecked
  | @leaked s' hbuilt hdyn hmissing hblocks => exact Or.inr ⟨s', rfl, hblocks⟩
  | fault hbuilt hdyn hsymtab => exact Or.inl rfl
  | @loaded s' hbuilt hdyn hclear' =>
    -- only the thread is left to go wrong
    have hentry : l.image.eEntry ≠ 0 ∧
      ¬ (l.grants.thread = true ∧ l.grants.stack = true) := by
      by_contra h
      exact hchecked fun _ => ⟨hdyn, fun he => by_contra fun hthread => h ⟨he, hthread⟩⟩
    refine Or.inl ?_
    simp [hentry.1, startModule_refused _ hentry.2]

/-! ### The module object -/

/-- The block with something else in it. -/
def Leftover.other (left : Leftover) : Leftover :=
  { left with moduleThread := left.moduleThread + 1, nsym := left.nsym + 1 }

theorem loadedObject_moduleThread (table : SymbolTable) (l : Load) :
    (loadedObject table l).moduleThread = Pointer.left l.left.moduleThread := by
  unfold loadedObject
  split <;> rfl

theorem loadedObject_nsym (hunwritten : l.image.eType = etRel ∨ dynsym l.image = none) :
    (loadedObject table l).nsym = l.left.nsym := by
  unfold loadedObject
  split
  · rfl
  · next hrel => simp [sharedObject, hunwritten.resolve_left hrel]

theorem loadedObject_written (left : Leftover) (pageArray : Bool) (htype : l.image.eType = etDyn)
    (hdynsym : (dynsym l.image).isSome) :
    (loadedObject table { l with left := left }).referred.started pageArray =
      (loadedObject table l).referred.started pageArray := by
  have hrel : l.image.eType ≠ etRel := by
    rw [htype]
    decide
  obtain ⟨syms, hsyms⟩ := Option.isSome_iff_exists.mp hdynsym
  simp only [loadedObject, if_neg hrel, sharedObject, hsyms, Loaded.referred, Loaded.started]
  cases syms <;> rfl

/-- The result is the same for every block exactly when no member is left unwritten. -/
theorem loadResult_eq_iff (table : SymbolTable) (l : Load) :
    (forall left, loadResult table { l with left := left } = loadResult table l) ↔
      Written l := by
  constructor
  · intro hsame hbuilt
    have hother := hsame l.left.other
    have hbuilt' : Built { l with left := l.left.other } := hbuilt
    unfold loadResult at hother
    rw [if_pos hbuilt, if_pos hbuilt'] at hother
    have hentry : l.image.eEntry ≠ 0 := by
      intro hzero
      rw [if_pos hzero, if_pos hzero, Option.some.injEq] at hother
      have hthread := congrArg Loaded.moduleThread hother
      simp only [Loaded.referred, loadedObject_moduleThread, Pointer.left.injEq] at hthread
      simp [Leftover.other] at hthread
    have hnsym : ¬ (l.image.eType = etRel ∨ dynsym l.image = none) := by
      intro hunwritten
      rw [if_neg hentry, if_neg hentry, Option.some.injEq] at hother
      have hnew : (loadedObject table { l with left := l.left.other }).nsym = l.left.nsym + 1 :=
        loadedObject_nsym hunwritten
      have hnsym : (loadedObject table { l with left := l.left.other }).nsym =
          (loadedObject table l).nsym := (congrArg Loaded.nsym hother :)
      rw [hnew, loadedObject_nsym hunwritten] at hnsym
      simp at hnsym
    rw [not_or] at hnsym
    refine ⟨?_, Option.isSome_iff_ne_none.mpr hnsym.2, hentry⟩
    by_contra hdyn
    exact hbuilt.2.1 (by simp [moduleSize, hnsym.1, hdyn])
  · intro hwritten left
    by_cases hbuilt : Built l
    · obtain ⟨htype, hdynsym, hentry⟩ := hwritten hbuilt
      have hbuilt' : Built { l with left := left } := hbuilt
      unfold loadResult
      rw [if_pos hbuilt, if_pos hbuilt', if_neg hentry, if_neg hentry,
        loadedObject_written left _ htype hdynsym]
    · have hbuilt' : ¬ Built { l with left := left } := hbuilt
      unfold loadResult
      rw [if_neg hbuilt, if_neg hbuilt']

def oneRelocation (sym : Sym) : Ehdr where
  eIdent := elfmag ++ [elfclass32]
  eType := etDyn
  eEntry := 4
  phdr := [⟨ptLoad, 0, 0, 16, 16⟩]
  shdr := [default,
    { (default : Shdr) with shType := 9, shSize := 8, shLink := 2, rels := [⟨0, 0⟩] },
    { (default : Shdr) with
      shName := ".dynsym".toList, shType := 11, shSize := 16, syms := [sym] }]

/-- A relocatable object with one text section. -/
def oneSection : Ehdr where
  eIdent := elfmag ++ [elfclass32]
  eType := etRel
  eEntry := 0
  phdr := []
  shdr := [default, { (default : Shdr) with shType := 1, shFlags := 6, shSize := 16 }]

def allGranted : Grants := ⟨true, true, true, fun _ => true, true, true, true⟩

def needsSymbol : Load :=
  ⟨"a".toList, oneRelocation ⟨"f".toList, 0, 0x12, 0⟩, allGranted,
    ⟨0, 0, 0, 0, 0, 0, 0⟩⟩

def ownSymbol : Load :=
  ⟨"b".toList, oneRelocation ⟨"f".toList, 4, 0x12, 1⟩, allGranted,
    ⟨0, 0, 0, 0, 0, 0, 0⟩⟩

def relocatable (left : Leftover) : Load := ⟨"c".toList, oneSection, allGranted, left⟩

end RtThread.Module.Loader
