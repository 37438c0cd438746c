import Mathlib.Data.List.Basic

/-!
# Module images

The part of a 32-bit ELF image that `rt_module_load` reads, and what the loaders compute from it:
the size of the module, the pieces to copy and the relocations. The tables are lists, in the order
of the image, and symbol and section names stand in the place of their string table offsets. An
index without an entry finds a default one.
-/

namespace RtThread.Module.Loader

structure Phdr where
  pType : UInt32
  pOffset : UInt32
  pPaddr : UInt32
  pFilesz : UInt32
  pMemsz : UInt32
deriving DecidableEq, Repr, Inhabited

structure Sym where
  stName : List Char
  stValue : UInt32
  stInfo : UInt8
  stShndx : UInt16
deriving DecidableEq, Repr, Inhabited

structure Rel where
  rOffset : UInt32
  rInfo : UInt32
deriving DecidableEq, Repr, Inhabited

/-- `Elf32_Shdr`, with the relocations or the symbols at its `sh_offset`: as many as its
`sh_size` has room for. -/
structure Shdr where
  shName : List Char
  shType : UInt32
  shFlags : UInt32
  shAddr : UInt32
  shOffset : UInt32
  shSize : UInt32
  shLink : UInt32
  rels : List Rel
  syms : List Sym
deriving DecidableEq, Repr, Inhabited

/-- `Elf32_Ehdr`, with the two tables it points to. -/
structure Ehdr where
  eIdent : List UInt8
  eType : UInt16
  eEntry : UInt32
  phdr : List Phdr
  shdr : List Shdr
deriving DecidableEq, Repr

/-- `_rt_module_symtab_begin` up to `_rt_module_symtab_end`: the names that the kernel
exports, and their addresses. -/
abbrev SymbolTable := List (List Char × UInt32)

def rtmmag : List UInt8 := [0x7f, 0x52, 0x54, 0x4d]

def elfmag : List UInt8 := [0x7f, 0x45, 0x4c, 0x46]

def elfclass32 : UInt8 := 1

def etRel : UInt16 := 1

def etDyn : UInt16 := 3

def ptLoad : UInt32 := 1

def stbLocal : UInt8 := 0

def stbGlobal : UInt8 := 1

def sttObject : UInt8 := 1

def sttFunc : UInt8 := 2

def sttSection : UInt8 := 3

def rArmV4bx : UInt8 := 40

def Sym.bind (sym : Sym) : UInt8 := sym.stInfo >>> 4

def Sym.type (sym : Sym) : UInt8 := sym.stInfo &&& 0xf

def Rel.sym (rel : Rel) : Nat := (rel.rInfo >>> 8).toNat

def Rel.type (rel : Rel) : UInt8 := rel.rInfo.toUInt8

def Shdr.isProg (s : Shdr) : Bool := s.shType == 1

def Shdr.isNoprog (s : Shdr) : Bool := s.shType == 8

def Shdr.isRel (s : Shdr) : Bool := s.shType == 9

/-- `IS_ALLOC`, which asks for `SHF_ALLOC` and no other flag. -/
def Shdr.isAlloc (s : Shdr) : Bool := s.shFlags == 0x2

def Shdr.isAx (s : Shdr) : Bool := s.shFlags &&& 0x2 != 0 && s.shFlags &&& 0x4 != 0

def Shdr.isAw (s : Shdr) : Bool := s.shFlags &&& 0x2 != 0 && s.shFlags &&& 0x1 != 0

/-- `rt_module_symbol_find`: the first entry of the name, or 0. -/
def rtModuleSymbolFind : SymbolTable -> List Char -> UInt32
  | [], _ => 0
  | index :: table, symStr => if index.1 = symStr then index.2 else rtModuleSymbolFind table symStr

/-- The symbols of the table that section `s` refers to. -/
def Ehdr.symtabOf (image : Ehdr) (s : Shdr) : List Sym :=
  (image.shdr.getD s.shLink.toNat default).syms

/-! ### What a loader makes of an image -/

/-- A copy of `size` bytes from the image to an offset of the module space. -/
structure Copy where
  dest : UInt32
  src : UInt32
  size : UInt32
deriving DecidableEq, Repr

/-- The address of a symbol: in the module space, or a number. -/
inductive Address where
  | space (offset : UInt32)
  | number (addr : UInt32)
deriving DecidableEq, Repr

/-- A call of `rt_module_arm_relocate`. -/
structure Patch where
  rel : Rel
  symVal : Address
deriving DecidableEq, Repr

/-! ### Shared objects -/

/-- The memory of the segments to load, in an `rt_uint32_t`. -/
def sharedSize : List Phdr -> UInt32 -> UInt32
  | [], moduleSize => moduleSize
  | p :: ps, moduleSize =>
    sharedSize ps (if p.pType = ptLoad then moduleSize + p.pMemsz else moduleSize)

def sharedCopies (phdr : List Phdr) : List Copy :=
  (phdr.filter fun p => p.pType = ptLoad).map fun p => ⟨p.pPaddr, p.pOffset, p.pFilesz⟩

/-- A symbol that is relocated by its value, without a name. -/
def Sym.isOwn (sym : Sym) : Bool := sym.stShndx ≠ 0 ∨ sym.bind = stbLocal

/-- One relocation of a shared object, on the relocations so far and `unsolved`. -/
def relocateItem (table : SymbolTable) (linked : Bool) (symtab : List Sym)
    (r : List Patch × Bool) (rel : Rel) : List Patch × Bool :=
  let sym := symtab.getD rel.sym default
  if sym.isOwn then (r.1 ++ [⟨rel, Address.space sym.stValue⟩], r.2)
  else if linked then r
  else
    let addr := rtModuleSymbolFind table sym.stName
    if addr = 0 then (r.1, true)
    else (r.1 ++ [⟨rel, Address.number addr⟩], r.2)

/-- The relocation loop of `_load_shared_object`: the relocations, if the module is not
given up, and `unsolved`, examined after each section. -/
def relocateSections (table : SymbolTable) (linked : Bool) (image : Ehdr) :
    List Shdr -> List Patch × Bool -> Option (List Patch) × Bool
  | [], r => (some r.1, r.2)
  | s :: rest, r =>
    if s.isRel then
      let r' := s.rels.foldl (relocateItem table linked (image.symtabOf s)) r
      if r'.2 then (none, true) else relocateSections table linked image rest r'
    else relocateSections table linked image rest r

/-- The symbols of a section `.dynsym` that the module exports. -/
def exported (s : Shdr) : List Sym :=
  s.syms.filter fun sym => sym.bind = stbGlobal ∧ sym.type = sttFunc

/-- The module's symbol table, when the image has a section `.dynsym`. -/
def dynsym (image : Ehdr) : Option (List Sym) :=
  (image.shdr.find? fun s => s.shName = ".dynsym".toList).map exported

/-! ### Relocated objects -/

/-- The memory of the sections to load, and the address of the last text section. -/
def relocatedSize : List Shdr -> UInt32 × UInt32 -> UInt32 × UInt32
  | [], r => r
  | s :: rest, (moduleSize, moduleAddr) =>
    let r := if s.isProg && s.isAx then (moduleSize + s.shSize, s.shAddr)
      else (moduleSize, moduleAddr)
    let r := if s.isProg && s.isAlloc then (r.1 + s.shSize, r.2) else r
    let r := if s.isProg && s.isAw then (r.1 + s.shSize, r.2) else r
    let r := if s.isNoprog && s.isAw then (r.1 + s.shSize, r.2) else r
    relocatedSize rest r

/-- `ptr`, as an offset of the module space, the copies so far, and `rodata_addr`,
`data_addr` and `bss_addr`, at first 0. -/
structure Layout where
  ptr : UInt32
  copies : List Copy
  rodataAddr : Address
  dataAddr : Address
  bssAddr : Address
deriving DecidableEq, Repr

def Layout.copy (l : Layout) (s : Shdr) : Layout :=
  { l with
    ptr := l.ptr + s.shSize
    copies := l.copies ++ [⟨l.ptr, s.shOffset, s.shSize⟩] }

/-- One turn of the loop that loads the sections.  The space of a bss section is not
skipped: the next section is loaded over it. -/
def layoutSection (l : Layout) (s : Shdr) : Layout :=
  let l := if s.isProg && s.isAx then l.copy s else l
  let l := if s.isProg && s.isAlloc then
    { l.copy s with rodataAddr := Address.space l.ptr } else l
  let l := if s.isProg && s.isAw then
    { l.copy s with dataAddr := Address.space l.ptr } else l
  if s.isNoprog && s.isAw then { l with bssAddr := Address.space l.ptr } else l

def layout (image : Ehdr) : Layout :=
  image.shdr.foldl layoutSection
    ⟨0, [], Address.number 0, Address.number 0, Address.number 0⟩

def Address.add : Address -> UInt32 -> Address
  | Address.space offset, value => Address.space (offset + value)
  | Address.number addr, value => Address.number (addr + value)

/-- The address that a relocation of a relocated object uses. Without one the place is left
as it is: an undefined symbol is reported only. -/
def relocatedAddress (table : SymbolTable) (image : Ehdr) (moduleAddr : UInt32) (sym : Sym)
    (rel : Rel) : Option Address :=
  if sym.stShndx ≠ 0 then
    if sym.type = sttSection ∨ sym.type = sttObject then
      let name := (image.shdr.getD sym.stShndx.toNat default).shName
      let l := layout image
      if name = ".rodata".toList then some (l.rodataAddr.add sym.stValue)
      else if name = ".bss".toList then some (l.bssAddr.add sym.stValue)
      else if name = ".data".toList then some (l.dataAddr.add sym.stValue)
      else none
    else none
  else if sym.type = sttFunc then some (Address.space (sym.stValue - moduleAddr))
  else if rel.type ≠ rArmV4bx then
    let addr := rtModuleSymbolFind table sym.stName
    if addr ≠ 0 then some (Address.number addr) else none
  else some (Address.space (sym.stValue - moduleAddr))

/-- The relocation loop of `_load_relocated_object`. -/
def relocatedPatches (table : SymbolTable) (image : Ehdr) (moduleAddr : UInt32) : List Patch :=
  (image.shdr.filter fun s => s.isRel).flatMap fun s =>
    s.rels.filterMap fun rel =>
      (relocatedAddress table image moduleAddr
        ((image.symtabOf s).getD rel.sym default) rel).map fun a => ⟨rel, a⟩

/-! ### Unresolved symbols -/

/-- Relocation `rel` of section `s` needs a symbol that the kernel does not have. -/
def Missing (table : SymbolTable) (image : Ehdr) (s : Shdr) (rel : Rel) : Prop :=
  let sym := (image.symtabOf s).getD rel.sym default
  ¬ sym.isOwn ∧ rtModuleSymbolFind table sym.stName = 0

/-- No relocation of the sections needs a symbol that the kernel does not have. -/
def Resolved (table : SymbolTable) (image : Ehdr) (sections : List Shdr) : Prop :=
  forall s, s ∈ sections -> s.isRel -> forall rel, rel ∈ s.rels -> ¬ Missing table image s rel

theorem relocateItem_snd_eq_true_iff {table : SymbolTable} {image : Ehdr} {s : Shdr}
    {linked : Bool} {r : List Patch × Bool} {rel : Rel} :
    (relocateItem table linked (image.symtabOf s) r rel).2 = true ↔
      r.2 = true ∨ linked = false ∧ Missing table image s rel := by
  unfold relocateItem Missing
  dsimp only
  generalize (image.symtabOf s).getD rel.sym default = sym
  by_cases hown : sym.isOwn = true
  · simp [hown]
  · cases linked with
    | true => simp [hown]
    | false =>
      by_cases haddr : rtModuleSymbolFind table sym.stName = 0
      · simp [hown, haddr]
      · simp [hown, haddr]

theorem foldl_relocateItem_snd_eq_true_iff {table : SymbolTable} {image : Ehdr} {s : Shdr}
    {linked : Bool} (rels : List Rel) (r : List Patch × Bool) :
    (rels.foldl (relocateItem table linked (image.symtabOf s)) r).2 = true ↔
      r.2 = true ∨ linked = false ∧ exists rel, rel ∈ rels ∧ Missing table image s rel := by
  induction rels generalizing r with
  | nil => simp
  | cons rel rels ih =>
    rw [List.foldl_cons, ih, relocateItem_snd_eq_true_iff]
    constructor
    · rintro ((h | ⟨hl, hm⟩) | ⟨hl, x, hx, hm⟩)
      · exact Or.inl h
      · exact Or.inr ⟨hl, rel, List.mem_cons_self, hm⟩
      · exact Or.inr ⟨hl, x, List.mem_cons_of_mem _ hx, hm⟩
    · rintro (h | ⟨hl, x, hx, hm⟩)
      · exact Or.inl (Or.inl h)
      · rcases List.mem_cons.mp hx with rfl | hx
        · exact Or.inl (Or.inr ⟨hl, hm⟩)
        · exact Or.inr ⟨hl, x, hx, hm⟩

/-- With `unsolved` clear the loop gives the module up exactly when a symbol is missing, and
it leaves `unsolved` set exactly then. -/
theorem relocateSections_clear {table : SymbolTable} {linked : Bool} {image : Ehdr}
    (sections : List Shdr) (patches : List Patch) :
    (relocateSections table linked image sections (patches, false)).2 = false ∧
        (relocateSections table linked image sections (patches, false)).1.isSome ∧
        (linked = true ∨ Resolved table image sections) ∨
      (relocateSections table linked image sections (patches, false)) = (none, true) ∧
        ¬ (linked = true ∨ Resolved table image sections) := by
  induction sections generalizing patches with
  | nil => simp [relocateSections, Resolved]
  | cons s rest ih =>
    by_cases hrel : s.isRel
    · have hitem := @foldl_relocateItem_snd_eq_true_iff table image s linked s.rels
        (patches, false)
      simp only [relocateSections, hrel, if_true]
      rcases hfold : s.rels.foldl (relocateItem table linked (image.symtabOf s))
        (patches, false) with ⟨ps, u⟩
      rw [hfold] at hitem
      cases u with
      | true =>
        obtain ⟨hlinked, rel, hmem, hmissing⟩ :=
          (hitem.mp rfl).resolve_left Bool.false_ne_true
        refine Or.inr ⟨by simp, ?_⟩
        rintro (h | h)
        · simp [hlinked] at h
        · exact h s List.mem_cons_self hrel rel hmem hmissing
      | false =>
        have hnone :
          ¬ (linked = false ∧ exists rel, rel ∈ s.rels ∧ Missing table image s rel) :=
          fun h => Bool.false_ne_true (hitem.mpr (Or.inr h))
        have hiff : (linked = true ∨ Resolved table image (s :: rest)) ↔
            (linked = true ∨ Resolved table image rest) := by
          cases linked with
          | true => simp
          | false =>
            simp only [Bool.false_eq_true, false_or, Resolved, List.forall_mem_cons]
            exact and_iff_right fun _ rel hmem hmissing =>
              hnone ⟨rfl, rel, hmem, hmissing⟩
        rw [hiff]
        simpa using ih ps
    · have hiff : Resolved table image (s :: rest) ↔ Resolved table image rest := by
        simp [Resolved, hrel]
      rw [hiff]
      simpa [relocateSections, hrel] using ih patches

end RtThread.Module.Loader
