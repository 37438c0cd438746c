import RtThread.Library.CString

/-!
# Looking a name up among the exported symbols

`finsh_syscall_append`, `finsh_syscall_lookup`, `finsh_sysvar_append` and `finsh_sysvar_lookup`.
The linker collects the exported symbols in a table, which is searched for the name itself;
symbols appended at run time are in a list, the latest first, where an entry is taken when it
begins with the name.
-/

namespace RtThread.Finsh

open Text

structure Symbol (δ : Type) where
  name : CString
  data : δ
deriving DecidableEq

/-- An appended symbol.  Its name is a copy, which is missing if there was no memory
for it. -/
structure SymbolItem (δ : Type) where
  name : Option CString
  data : δ
deriving DecidableEq

structure ExportedSymbols (δ : Type) where
  table : List (Symbol δ)
  list : List (SymbolItem δ)

variable {δ : Type}

/-- A call that appends a symbol, and whether its two requests for memory are met:
the one for the item and the one in `rt_strdup`. -/
structure AppendCall (δ : Type) where
  name : CString
  data : δ
  itemMet : Bool
  nameMet : Bool

def symbolAppend (s : ExportedSymbols δ) (c : AppendCall δ) : ExportedSymbols δ :=
  if c.itemMet then
    { s with list := ⟨if c.nameMet then some c.name else none, c.data⟩ :: s.list }
  else s

def lookupTable (name : CString) : List (Symbol δ) -> Option (Symbol δ)
  | [] => none
  | index :: rest =>
    if strcmp index.name name = 0 then some index else lookupTable name rest

/-- The loop over the list.  Comparing with a missing name is undefined. -/
def lookupList (name : CString) : List (SymbolItem δ) -> Option (Option (Symbol δ))
  | [] => some none
  | item :: rest =>
    match item.name with
    | none => none
    | some itemName =>
      if strncmp itemName name (strlen name) = 0 then
        some (some ⟨itemName, item.data⟩)
      else lookupList name rest

def symbolLookup (s : ExportedSymbols δ) (name : CString) : Option (Option (Symbol δ)) :=
  match lookupTable name s.table with
  | some index => some (some index)
  | none => lookupList name s.list

/-- `struct finsh_syscall` without its name. -/
structure Syscall where
  func : Nat
deriving DecidableEq

/-- `struct finsh_sysvar` without its name. -/
structure Sysvar where
  type : UInt8
  var : Nat
deriving DecidableEq

def finshSyscallAppend (s : ExportedSymbols Syscall) (c : AppendCall Syscall) :
    ExportedSymbols Syscall :=
  symbolAppend s c

def finshSysvarAppend (s : ExportedSymbols Sysvar) (c : AppendCall Sysvar) :
    ExportedSymbols Sysvar :=
  symbolAppend s c

def finshSyscallLookup (s : ExportedSymbols Syscall) (name : CString) :
    Option (Option (Symbol Syscall)) :=
  symbolLookup s name

def finshSysvarLookup (s : ExportedSymbols Sysvar) (name : CString) :
    Option (Option (Symbol Sysvar)) :=
  symbolLookup s name

/-!
# What an exact look-up is
-/

/-- The symbols that can be found, in the table and in the list. -/
def ExportedSymbols.Has (s : ExportedSymbols δ) (e : Symbol δ) : Prop :=
  e ∈ s.table ∨ SymbolItem.mk (some e.name) e.data ∈ s.list

/-- The result of a look-up that finds the name if and only if it is there, and then an
entry with that name. -/
def ExactResult (s : ExportedSymbols δ) (name : CString)
    (result : Option (Option (Symbol δ))) : Prop :=
  exists found, result = some found ∧
    (found.isSome <-> exists e, s.Has e ∧ e.name = name) ∧
    forall e, found = some e -> s.Has e ∧ e.name = name

/-- An appended entry at which the loop stops without its having the name: its name is
missing, or longer and begins with the name. -/
def Misleading (name : CString) (item : SymbolItem δ) : Prop :=
  item.name ≠ some name ∧
    forall itemName, item.name = some itemName -> name.bytes <+: itemName.bytes

/-- Whenever a misleading entry was appended, the name was appended later. -/
def ListClear (name : CString) (list : List (SymbolItem δ)) : Prop :=
  forall later item earlier, list = later ++ item :: earlier ->
    Misleading name item -> exists e, e ∈ later ∧ e.name = some name

/-- The table has the name, or no entry of the list hides it. -/
def Unambiguous (s : ExportedSymbols δ) (name : CString) : Prop :=
  (exists e, e ∈ s.table ∧ e.name = name) ∨ ListClear name s.list

/-!
# The two loops
-/

variable {name : CString} {item : SymbolItem δ} {rest : List (SymbolItem δ)}

theorem lookupTable_some {table : List (Symbol δ)} {e : Symbol δ}
    (h : lookupTable name table = some e) : e ∈ table ∧ e.name = name := by
  induction table with
  | nil => cases h
  | cons index rest ih =>
    rw [lookupTable] at h
    split at h
    · rename_i hcmp
      cases h
      exact ⟨List.mem_cons_self, strcmp_eq_zero_iff.mp hcmp⟩
    · have hrest := ih h
      exact ⟨List.mem_cons_of_mem _ hrest.left, hrest.right⟩

theorem lookupTable_none {table : List (Symbol δ)}
    (h : lookupTable name table = none) : forall e, e ∈ table -> e.name ≠ name := by
  induction table with
  | nil => simp
  | cons index rest ih =>
    rw [lookupTable] at h
    split at h
    · cases h
    · rename_i hcmp
      intro e he heq
      rcases List.mem_cons.mp he with he | he
      · subst he
        exact hcmp (strcmp_eq_zero_iff.mpr heq)
      · exact ih h e he heq

theorem listClear_of_head (hitem : item.name = some name) : ListClear name (item :: rest) := by
  intro later x earlier heq hx
  cases later with
  | nil =>
    cases heq
    exact absurd hitem hx.left
  | cons y later =>
    cases heq
    exact ⟨item, List.mem_cons_self, hitem⟩

theorem listClear_of_other (hitem : item.name ≠ some name) (hclear : ¬ Misleading name item) :
    ListClear name (item :: rest) <-> ListClear name rest := by
  constructor
  · intro h later x earlier heq hx
    rcases h (item :: later) x earlier (by rw [heq]; rfl) hx with ⟨e, he, hname⟩
    rcases List.mem_cons.mp he with he | he
    · subst he
      exact absurd hname hitem
    · exact ⟨e, he, hname⟩
  · intro h later x earlier heq hx
    cases later with
    | nil =>
      cases heq
      exact absurd hx hclear
    | cons y later =>
      cases heq
      rcases h later x earlier rfl hx with ⟨e, he, hname⟩
      exact ⟨e, List.mem_cons_of_mem _ he, hname⟩

theorem not_listClear_of_misleading (hitem : Misleading name item) :
    ¬ ListClear name (item :: rest) := by
  intro h
  rcases h [] item rest rfl hitem with ⟨e, he, _⟩
  cases he

theorem lookupList_of_clear {list : List (SymbolItem δ)} (hclear : ListClear name list) :
    exists found, lookupList name list = some found ∧
      (found.isSome <-> exists item, item ∈ list ∧ item.name = some name) ∧
      forall e, found = some e -> e.name = name ∧
        SymbolItem.mk (some e.name) e.data ∈ list := by
  induction list with
  | nil => exact ⟨none, rfl, by simp, nofun⟩
  | cons item rest ih =>
    by_cases hitem : item.name = some name
    · have hcmp : strncmp name name (strlen name) = 0 :=
        strncmp_eq_zero_iff.mpr (List.prefix_refl _)
      refine ⟨some ⟨name, item.data⟩, ?_, ?_, ?_⟩
      · simp only [lookupList, hitem, hcmp, if_true]
      · simp [hitem]
      · intro e he
        cases he
        refine ⟨rfl, ?_⟩
        rw [← hitem]
        exact List.mem_cons_self
    · have hother : ¬ Misleading name item :=
        fun h => not_listClear_of_misleading h hclear
      rcases ih ((listClear_of_other hitem hother).mp hclear) with
        ⟨found, hfound, hiff, hname⟩
      cases hn : item.name with
      | none =>
        exact absurd ⟨hitem, fun _ h => by rw [hn] at h; cases h⟩ hother
      | some itemName =>
        have hcmp : strncmp itemName name (strlen name) ≠ 0 := by
          intro h
          apply hother
          refine ⟨hitem, ?_⟩
          intro x hx
          rw [hn] at hx
          cases hx
          exact strncmp_eq_zero_iff.mp h
        refine ⟨found, ?_, ?_, ?_⟩
        · rw [lookupList]
          simp only [hn, if_neg hcmp]
          exact hfound
        · simp [hiff, hitem]
        · intro e he
          have hrest := hname e he
          exact ⟨hrest.left, List.mem_cons_of_mem _ hrest.right⟩

theorem lookupList_of_not_clear {list : List (SymbolItem δ)}
    (hclear : ¬ ListClear name list) {found : Option (Symbol δ)}
    (hfound : lookupList name list = some found) :
    exists e, found = some e ∧ e.name ≠ name := by
  induction list with
  | nil =>
    apply absurd _ hclear
    intro later item earlier heq
    cases later <;> cases heq
  | cons item rest ih =>
    have hitem : item.name ≠ some name := fun h => hclear (listClear_of_head h)
    rw [lookupList] at hfound
    cases hn : item.name with
    | none =>
      rw [hn] at hfound
      cases hfound
    | some itemName =>
      simp only [hn] at hfound
      split at hfound
      · cases hfound
        refine ⟨_, rfl, ?_⟩
        intro heq
        exact hitem (by rw [hn, ← heq])
      · rename_i hcmp
        have hother : ¬ Misleading name item := by
          intro h
          exact hcmp (strncmp_eq_zero_iff.mpr (h.right itemName hn))
        apply ih _ hfound
        intro h
        exact hclear ((listClear_of_other hitem hother).mpr h)

/-!
# Exactness
-/

theorem exactResult_iff (s : ExportedSymbols δ) (name : CString) :
    ExactResult s name (symbolLookup s name) <-> Unambiguous s name := by
  unfold symbolLookup
  cases htable : lookupTable name s.table with
  | some index =>
    have hindex := lookupTable_some htable
    have hhas : s.Has index := Or.inl hindex.left
    constructor
    · intro _
      exact Or.inl ⟨index, hindex.left, hindex.right⟩
    · intro _
      refine ⟨some index, rfl, ?_, ?_⟩
      · simp only [Option.isSome_some, true_iff]
        exact ⟨index, hhas, hindex.right⟩
      · intro e he
        cases he
        exact ⟨hhas, hindex.right⟩
  | none =>
    have hnone := lookupTable_none htable
    constructor
    · rintro ⟨found, hfound, _, hname⟩
      apply Or.inr
      by_contra hclear
      rcases lookupList_of_not_clear hclear hfound with ⟨e, he, hne⟩
      exact hne (hname e he).right
    · rintro (⟨e, he, hname⟩ | hclear)
      · exact absurd hname (hnone e he)
      · rcases lookupList_of_clear hclear with ⟨found, hfound, hiff, hname⟩
        refine ⟨found, hfound, ?_, ?_⟩
        · rw [hiff]
          constructor
          · rintro ⟨item, hitem, hn⟩
            exists ⟨name, item.data⟩
            refine ⟨Or.inr ?_, rfl⟩
            rw [← hn]
            exact hitem
          · rintro ⟨e, he | he, hn⟩
            · exact absurd hn (hnone e he)
            · exact ⟨_, he, congrArg some hn⟩
        · intro e he
          exact ⟨Or.inr (hname e he).right, (hname e he).left⟩

/-- After any calls that append symbols, the look-ups are exact for a name if and only if
the name is unambiguous. -/
theorem lookups_exact_iff (functions : List (Symbol Syscall))
    (functionCalls : List (AppendCall Syscall)) (vars : List (Symbol Sysvar))
    (varCalls : List (AppendCall Sysvar)) (name : CString) :
    let s := functionCalls.foldl finshSyscallAppend ⟨functions, []⟩
    let v := varCalls.foldl finshSysvarAppend ⟨vars, []⟩
    (ExactResult s name (finshSyscallLookup s name) <-> Unambiguous s name) ∧
      (ExactResult v name (finshSysvarLookup v name) <-> Unambiguous v name) :=
  ⟨exactResult_iff _ name, exactResult_iff _ name⟩

/-- `listen` -/
def listenName : CString := ⟨[108, 105, 115, 116, 101, 110], by decide⟩

/-- `list` -/
def listName : CString := ⟨[108, 105, 115, 116], by decide⟩

/-- With `listen` appended and no other symbol, looking up `list` returns `listen`. -/
theorem list_finds_listen :
    finshSyscallLookup (finshSyscallAppend ⟨[], []⟩ ⟨listenName, ⟨4096⟩, true, true⟩)
        listName = some (some ⟨listenName, ⟨4096⟩⟩) ∧
      ¬ ExactResult
        (finshSyscallAppend ⟨[], []⟩ ⟨listenName, ⟨4096⟩, true, true⟩) listName
        (finshSyscallLookup
          (finshSyscallAppend ⟨[], []⟩ ⟨listenName, ⟨4096⟩, true, true⟩) listName) := by
  have hfound : finshSyscallLookup
      (finshSyscallAppend ⟨[], []⟩ ⟨listenName, ⟨4096⟩, true, true⟩) listName =
        some (some ⟨listenName, ⟨4096⟩⟩) := by decide
  refine ⟨hfound, ?_⟩
  rw [hfound]
  rintro ⟨found, heq, _, hname⟩
  have hbad := (hname ⟨listenName, ⟨4096⟩⟩ (Option.some.inj heq).symm).right
  exact absurd hbad (by decide)

end RtThread.Finsh
