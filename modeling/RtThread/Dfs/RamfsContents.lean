import RtThread.Dfs.Ramfs
import RtThread.Mem.MemHeapBlocks

/-!
# Contents of a file in memory

`dfs_ramfs_read`, `dfs_ramfs_write`, `dfs_ramfs_lseek` and `dfs_ramfs_close` through any number
of descriptors that are open on one file.  Each of them records the size that the file had
when it was opened or when it wrote last.
-/

namespace RtThread.Dfs.Ramfs

open Kernel
open Function (update update_of_ne update_self)
open Transition

/-- `size` and `pos` of `struct dfs_fd`, as 32-bit numbers. -/
structure Descriptor where
  size : Nat
  pos : Nat

/-- A file and its open descriptors. The list `data` is the whole block of the file, with
the bytes behind `size` that the heap has added. -/
structure OpenFile where
  file : RamfsDirent
  fds : Nat -> Option Descriptor

/-- `memory` is what the heap has to give: what a new block holds, or the bytes by which a
block grows. -/
inductive Call where
  | openFile (fd : Nat) (flags : OpenFlags)
  | read (fd count : Nat)
  | write (fd : Nat) (bytes : List UInt8) (memory : Option (List UInt8))
  | lseek (fd : Nat) (offset : Int)
  | close (fd : Nat)

/-- What a call returns; a `fault` is an access outside of the block of the file. -/
inductive Out where
  | done
  | read (bytes : List UInt8)
  | wrote (count : Nat)
  | noMemory
  | sought (pos : Nat)
  | failed (status : DfsStatus)
  | fault
deriving DecidableEq

/-- The block that `rt_memheap_realloc` returns for a size above zero. -/
def reallocBlock (c : Mem.Config) (data : Option (List UInt8)) (newsize : Nat)
    (memory : Option (List UInt8)) : Option (List UInt8) :=
  let newsize := c.allocSize newsize
  match data with
  | none => memory.filter fun new => newsize ≤ new.length
  | some block =>
    if block.length < newsize then
      -- in place, or by a copy into a larger block
      (memory.map fun more => block ++ more).filter fun new => newsize ≤ new.length
    else if block.length ≤ newsize + c.memheapSize + Mem.MemHeap.memheapMinialloc then some block
    else some (block.take newsize)

/-- The bytes of a block from a position on; nothing is read for a length of zero. -/
def readBlock (data : Option (List UInt8)) (pos length : Nat) : Option (List UInt8) :=
  if length = 0 then some []
  else (data.filter fun block => pos + length ≤ block.length).map fun block =>
    (block.drop pos).take length

def overwrite (s : List UInt8) (pos : Nat) (bytes : List UInt8) : List UInt8 :=
  s.take pos ++ bytes ++ s.drop (pos + bytes.length)

def writeBlock (data : Option (List UInt8)) (pos : Nat) (bytes : List UInt8) :
    Option (Option (List UInt8)) :=
  if bytes = [] then some data
  else (data.filter fun block => pos + bytes.length ≤ block.length).map fun block =>
    some (overwrite block pos bytes)

/-- A size as `rt_off_t`. -/
def toOff (size : Nat) : Int := if size < 2 ^ 31 then size else size - 2 ^ 32

def dfsRamfsRead (f : RamfsDirent) (d : Descriptor) (count : Nat) :
    Option (List UInt8 × Descriptor) :=
  let left := sub32 d.size d.pos
  let length := if count < left then count else left
  (readBlock f.data d.pos length).map fun bytes =>
    (bytes, { d with pos := add32 d.pos length })

/-- The branch of `dfs_ramfs_write` for a write past the end. -/
def growFile (c : Mem.Config) (f : RamfsDirent) (d : Descriptor) (count : Nat)
    (memory : Option (List UInt8)) : Option (RamfsDirent × Descriptor) :=
  let newsize := add32 d.pos count
  if d.size < newsize then
    (reallocBlock c f.data newsize memory).map fun block =>
      ({ f with data := some block, size := newsize }, { d with size := newsize })
  else some (f, d)

namespace OpenFile

def setFd (s : OpenFile) (f : RamfsDirent) (fd : Nat) (d : Option Descriptor) : OpenFile :=
  ⟨f, Function.update s.fds fd d⟩

def openFd (s : OpenFile) (fd : Nat) (flags : OpenFlags) : OpenFile :=
  let f := truncate flags s.file
  let r := opened flags (RamfsEntry.file f)
  s.setFd f fd (some ⟨r.size, r.pos⟩)

def write (c : Mem.Config) (s : OpenFile) (fd : Nat) (d : Descriptor) (bytes : List UInt8)
    (memory : Option (List UInt8)) : OpenFile × Out :=
  match growFile c s.file d bytes.length memory with
  | none => (s, Out.noMemory)
  | some (f, d) =>
    match writeBlock f.data d.pos bytes with
    | none => (s, Out.fault)
    | some data =>
      (s.setFd { f with data := data } fd
        (some { d with pos := add32 d.pos bytes.length }), Out.wrote bytes.length)

def lseek (s : OpenFile) (fd : Nat) (d : Descriptor) (offset : Int) : OpenFile × Out :=
  if offset ≤ toOff d.size then
    let pos := (offset % 2 ^ 32).toNat
    (s.setFd s.file fd (some { d with pos := pos }), Out.sought pos)
  else (s, Out.failed DfsStatus.eio)

end OpenFile

/-- One call; regular files are opened without `DFS_O_DIRECTORY`. -/
def contentsStep (c : Mem.Config) (s : OpenFile) : Call -> Option (OpenFile × Out)
  | Call.openFile fd flags =>
    match s.fds fd with
    | none => if flags.directory then none else some (s.openFd fd flags, Out.done)
    | some _ => none
  | Call.read fd count =>
    (s.fds fd).map fun d =>
      match dfsRamfsRead s.file d count with
      | none => (s, Out.fault)
      | some (bytes, d) => (s.setFd s.file fd (some d), Out.read bytes)
  | Call.write fd bytes memory => (s.fds fd).map fun d => s.write c fd d bytes memory
  | Call.lseek fd offset => (s.fds fd).map fun d => s.lseek fd d offset
  | Call.close fd => (s.fds fd).map fun _ => (s.setFd s.file fd none, Out.done)

def ContentsStep (c : Mem.Config) (s : OpenFile) (x : Call × Out) (s' : OpenFile) : Prop :=
  contentsStep c s x.1 = some (s', x.2)

def newFile (id : Nat) (name : List Char) : OpenFile :=
  ⟨{ id := id, name := name, data := none, size := 0 }, fun _ => none⟩

/-!
## One byte string
-/

/-- A file as a byte string with a position for every open descriptor. -/
structure ByteFile where
  contents : List UInt8
  pos : Nat -> Option Nat

def ByteFile.setPos (f : ByteFile) (contents : List UInt8) (fd : Nat) (pos : Option Nat) :
    ByteFile :=
  ⟨contents, Function.update f.pos fd pos⟩

/-- What the calls mean.  A write starts inside the string or at its end. -/
inductive FileStep : ByteFile -> Call × Out -> ByteFile -> Prop where
  | openKeep {f : ByteFile} {fd : Nat} {flags : OpenFlags} (hfree : f.pos fd = none)
      (hkeep : flags.trunc = false) :
      FileStep f (Call.openFile fd flags, Out.done)
        (f.setPos f.contents fd (some (if flags.append then f.contents.length else 0)))
  | openTrunc {f : ByteFile} {fd : Nat} {flags : OpenFlags} (hfree : f.pos fd = none)
      (htrunc : flags.trunc = true) :
      FileStep f (Call.openFile fd flags, Out.done) (f.setPos [] fd (some 0))
  | read {f : ByteFile} {fd count p : Nat} (hp : f.pos fd = some p) :
      FileStep f (Call.read fd count, Out.read ((f.contents.drop p).take count))
        (f.setPos f.contents fd (some (p + min count (f.contents.length - p))))
  | write {f : ByteFile} {fd p : Nat} {bytes : List UInt8} {memory : Option (List UInt8)}
      (hp : f.pos fd = some p) (hin : bytes ≠ [] -> p ≤ f.contents.length) :
      FileStep f (Call.write fd bytes memory, Out.wrote bytes.length)
        (f.setPos (overwrite f.contents p bytes) fd (some (p + bytes.length)))
  | noMemory {f : ByteFile} {fd p : Nat} {bytes : List UInt8}
      {memory : Option (List UInt8)} (hp : f.pos fd = some p) :
      FileStep f (Call.write fd bytes memory, Out.noMemory) f
  | seek {f : ByteFile} {fd offset p : Nat} (hp : f.pos fd = some p)
      (hin : offset ≤ f.contents.length) :
      FileStep f (Call.lseek fd offset, Out.sought offset)
        (f.setPos f.contents fd (some offset))
  | seekFail {f : ByteFile} {fd p : Nat} {offset : Int} (hp : f.pos fd = some p)
      (hout : ¬ (0 ≤ offset ∧ offset ≤ f.contents.length)) :
      FileStep f (Call.lseek fd offset, Out.failed DfsStatus.eio) f
  | close {f : ByteFile} {fd p : Nat} (hp : f.pos fd = some p) :
      FileStep f (Call.close fd, Out.done) (f.setPos f.contents fd none)

def OpenFile.view (s : OpenFile) : ByteFile where
  contents := (s.file.data.getD []).take s.file.size
  pos fd := (s.fds fd).map Descriptor.pos

/-- The recorded size decides as that of the file would, the numbers do not wrap around, and
a write does not start behind the end. -/
def Current (c : Mem.Config) (s : OpenFile) : Call -> Prop
  | Call.read fd count => forall d, s.fds fd = some d ->
      min count (d.size - d.pos) = min count (s.file.size - d.pos)
  | Call.write fd bytes _ => forall d, s.fds fd = some d ->
      d.pos + bytes.length + c.alignSize ≤ 2 ^ 32 ∧
      (bytes ≠ [] -> d.pos ≤ s.file.size ∧
        (d.size < d.pos + bytes.length -> s.file.size ≤ d.pos + bytes.length) ∧
        (d.pos + bytes.length ≤ d.size -> d.pos + bytes.length ≤ s.file.size))
  | Call.lseek fd offset => forall d, s.fds fd = some d ->
      (offset ≤ toOff d.size <-> 0 ≤ offset ∧ offset ≤ s.file.size)
  | _ => True

/-!
## Blocks
-/

section Blocks

variable {c : Mem.Config} {data : Option (List UInt8)} {block bytes : List UInt8}
  {size newsize pos : Nat}

theorem reallocBlock_spec {memory : Option (List UInt8)} (hfits : newsize + c.alignSize ≤ 2 ^ 32)
    (hsize : size ≤ (data.getD []).length) (hle : size ≤ newsize)
    (h : reallocBlock c data newsize memory = some block) :
    newsize ≤ block.length ∧ block.take size = (data.getD []).take size := by
  have hlarge : newsize ≤ c.allocSize newsize :=
    Nat.le_trans (le_rtAlign c.alignSize_pos hfits) (c.le_allocSize newsize).2
  unfold reallocBlock at h
  cases data with
  | none =>
    obtain ⟨hmemory, hlength⟩ := Option.filter_eq_some_iff.1 h
    have hzero : size = 0 := Nat.le_zero.1 hsize
    rw [hzero]
    exact ⟨Nat.le_trans hlarge (of_decide_eq_true hlength), rfl⟩
  | some old =>
    have hold : size ≤ old.length := hsize
    simp only [Option.getD_some] at h ⊢
    split at h
    · obtain ⟨hmap, hlength⟩ := Option.filter_eq_some_iff.1 h
      obtain ⟨more, -, rfl⟩ := Option.map_eq_some_iff.1 hmap
      exact ⟨Nat.le_trans hlarge (of_decide_eq_true hlength),
        List.take_append_of_le_length hold⟩
    · rename_i hnot
      split at h
      · cases h
        exact ⟨by omega, rfl⟩
      · cases h
        refine ⟨?_, ?_⟩
        · rw [List.length_take]
          omega
        · rw [List.take_take, Nat.min_eq_left (Nat.le_trans hle hlarge)]

theorem length_overwrite (h : pos + bytes.length ≤ block.length) :
    (overwrite block pos bytes).length = block.length := by
  unfold overwrite
  rw [List.length_append, List.length_append, List.length_take, List.length_drop]
  omega

theorem overwrite_nil : overwrite block pos [] = block := by
  unfold overwrite
  rw [List.append_nil]
  exact List.take_append_drop pos block

theorem take_overwrite (hin : pos + bytes.length ≤ size) (hsize : size ≤ block.length) :
    (overwrite block pos bytes).take size = overwrite (block.take size) pos bytes := by
  have hfront : (block.take pos ++ bytes).length = pos + bytes.length := by
    rw [List.length_append, List.length_take]
    omega
  unfold overwrite
  rw [List.take_append, hfront, List.take_of_length_le (by omega), List.take_take,
    Nat.min_eq_left (by omega), List.drop_take]

theorem take_overwrite_end {old : List UInt8} (hpos : pos ≤ size)
    (hend : size ≤ pos + bytes.length) (hlength : pos + bytes.length ≤ block.length)
    (hold : size ≤ old.length) (hkept : block.take size = old.take size) :
    (overwrite block pos bytes).take (pos + bytes.length) =
      overwrite (old.take size) pos bytes := by
  have hfront : (block.take pos ++ bytes).length = pos + bytes.length := by
    rw [List.length_append, List.length_take]
    omega
  have htail : (old.take size).drop (pos + bytes.length) = [] := by
    apply List.drop_eq_nil_of_le
    rw [List.length_take]
    omega
  unfold overwrite
  rw [htail, List.append_nil, ← hkept, List.take_take, Nat.min_eq_left hpos,
    List.take_left' hfront]

end Blocks

/-!
## The calls work on the byte string
-/

/-- The block is large enough for the file, and no descriptor is behind its size. -/
structure Fits (s : OpenFile) : Prop where
  size_le : s.file.size ≤ (s.file.data.getD []).length
  pos_le : forall fd d, s.fds fd = some d -> d.pos ≤ d.size ∧ d.size < 2 ^ 32
  size_lt : s.file.size < 2 ^ 32

section Calls

variable {c : Mem.Config} {s : OpenFile} {fd : Nat} {d d' : Descriptor} {f : RamfsDirent}

theorem Fits.length_view (h : Fits s) : s.view.contents.length = s.file.size := by
  show ((s.file.data.getD []).take s.file.size).length = _
  rw [List.length_take]
  exact Nat.min_eq_left h.size_le

theorem view_pos (hfd : s.fds fd = some d) : s.view.pos fd = some d.pos := by
  show (s.fds fd).map Descriptor.pos = _
  rw [hfd]
  rfl

theorem view_setFd (o : Option Descriptor) : (s.setFd f fd o).view =
      s.view.setPos ((f.data.getD []).take f.size) fd (o.map Descriptor.pos) := by
  show ByteFile.mk _ _ = ByteFile.mk _ _
  congr 1
  funext i
  show (update s.fds fd o i).map Descriptor.pos =
    update (fun j => (s.fds j).map Descriptor.pos) fd (o.map Descriptor.pos) i
  by_cases hi : i = fd
  · subst hi
    rw [update_self, update_self]
  · rw [update_of_ne hi, update_of_ne hi]

theorem Fits.setFd (h : Fits s) (hsize : f.size ≤ (f.data.getD []).length)
    (hlt : f.size < 2 ^ 32) {o : Option Descriptor}
    (ho : forall e, o = some e -> e.pos ≤ e.size ∧ e.size < 2 ^ 32) :
    Fits (s.setFd f fd o) where
  size_le := hsize
  size_lt := hlt
  pos_le i e he := by
    change update s.fds fd o i = some e at he
    by_cases hi : i = fd
    · subst hi
      rw [update_self] at he
      exact ho e he
    · rw [update_of_ne hi] at he
      exact h.pos_le i e he

theorem Fits.openFd (h : Fits s) (flags : OpenFlags) : Fits (s.openFd fd flags) := by
  have hfile : (truncate flags s.file).size ≤ ((truncate flags s.file).data.getD []).length ∧
      (truncate flags s.file).size < 2 ^ 32 := by
    unfold truncate
    split
    · exact ⟨Nat.le_refl 0, Nat.two_pow_pos 32⟩
    · exact ⟨h.size_le, h.size_lt⟩
  apply h.setFd hfile.1 hfile.2
  rintro e ⟨⟩
  refine ⟨?_, hfile.2⟩
  show (if flags.append then _ else 0) ≤ (truncate flags s.file).size
  split
  · exact Nat.le_refl _
  · exact Nat.zero_le _

theorem step_open (h : Fits s) {flags : OpenFlags} (hfree : s.fds fd = none) :
    FileStep s.view (Call.openFile fd flags, Out.done) (s.openFd fd flags).view := by
  have hpos : s.view.pos fd = none := by
    show (s.fds fd).map Descriptor.pos = none
    rw [hfree]
    rfl
  unfold OpenFile.openFd
  rw [view_setFd]
  cases htrunc : flags.trunc with
  | true =>
    have hfile : truncate flags s.file = { s.file with data := none, size := 0 } := by
      unfold truncate
      rw [if_pos htrunc]
    rw [hfile]
    have happend : (opened flags (RamfsEntry.file { s.file with data := none, size := 0 })).pos =
        0 := by
      show (if flags.append then 0 else 0) = 0
      exact ite_self 0
    simp only [Option.map_some, happend]
    exact FileStep.openTrunc hpos htrunc
  | false =>
    have hfile : truncate flags s.file = s.file := by
      unfold truncate
      rw [htrunc]
      rfl
    rw [hfile]
    have hkeep := @FileStep.openKeep s.view fd flags hpos htrunc
    rw [h.length_view] at hkeep
    exact hkeep

theorem Fits.readBlock (h : Fits s) {pos length : Nat}
    (hin : length = 0 ∨ pos + length ≤ s.file.size) :
    readBlock s.file.data pos length = some ((s.view.contents.drop pos).take length) := by
  unfold Ramfs.readBlock
  split
  · rename_i hzero
    rw [hzero]
    rfl
  · rename_i hpos
    have hend : pos + length ≤ s.file.size := hin.resolve_left hpos
    have hsize := h.size_le
    cases hdata : s.file.data with
    | none =>
      rw [hdata] at hsize
      change s.file.size ≤ 0 at hsize
      omega
    | some block =>
      rw [hdata] at hsize
      change s.file.size ≤ block.length at hsize
      have hlength : decide (pos + length ≤ block.length) = true :=
        decide_eq_true (Nat.le_trans hend hsize)
      show ((some block).filter _).map _ = some (((s.file.data.getD []).take _ |>.drop pos).take _)
      rw [Option.filter_some, if_pos hlength, hdata]
      show some ((block.drop pos).take length) =
        some (((block.take s.file.size).drop pos).take length)
      rw [List.drop_take, List.take_take, Nat.min_eq_left (by omega)]

theorem step_read (h : Fits s) {count : Nat} (hfd : s.fds fd = some d)
    (hok : min count (d.size - d.pos) = min count (s.file.size - d.pos)) :
    exists bytes e, dfsRamfsRead s.file d count = some (bytes, e) ∧
      (e.pos ≤ e.size ∧ e.size < 2 ^ 32) ∧
      FileStep s.view (Call.read fd count, Out.read bytes) (s.setFd s.file fd (some e)).view := by
  obtain ⟨hpos, hsize⟩ := h.pos_le fd d hfd
  have hleft : sub32 d.size d.pos = d.size - d.pos := sub32_of_le hpos hsize
  have hlength : (if count < d.size - d.pos then count else d.size - d.pos) =
      min count (s.file.size - d.pos) := by
    split <;> omega
  have hnew : add32 d.pos (min count (s.file.size - d.pos)) =
      d.pos + min count (s.file.size - d.pos) := add32_of_lt (by omega)
  have hread := @Fits.readBlock s h d.pos (min count (s.file.size - d.pos)) (by omega)
  refine ⟨(s.view.contents.drop d.pos).take (min count (s.file.size - d.pos)),
    { d with pos := d.pos + min count (s.file.size - d.pos) }, ?_, ?_, ?_⟩
  · unfold dfsRamfsRead
    simp only [hleft, hlength, hread, hnew]
    rfl
  · exact ⟨by show d.pos + _ ≤ d.size; omega, hsize⟩
  · have hbytes : (s.view.contents.drop d.pos).take (min count (s.file.size - d.pos)) =
        (s.view.contents.drop d.pos).take count := by
      rw [List.take_eq_take_iff, List.length_drop, h.length_view]
      omega
    rw [hbytes, view_setFd]
    have hspec := @FileStep.read s.view fd count d.pos (view_pos hfd)
    rw [h.length_view] at hspec
    exact hspec

theorem step_lseek (h : Fits s) {offset : Int} (hfd : s.fds fd = some d)
    (hok : offset ≤ toOff d.size <-> 0 ≤ offset ∧ offset ≤ s.file.size) :
    Fits (s.lseek fd d offset).1 ∧ FileStep s.view (Call.lseek fd offset, (s.lseek fd d offset).2)
        (s.lseek fd d offset).1.view := by
  obtain ⟨hpos, hsize⟩ := h.pos_le fd d hfd
  unfold OpenFile.lseek
  split
  · rename_i hle
    obtain ⟨hnonneg, hin⟩ := hok.1 hle
    have hlt := h.size_lt
    obtain ⟨n, rfl⟩ := Int.eq_ofNat_of_zero_le hnonneg
    have hn : ((n : Int) % 2 ^ 32).toNat = n := by omega
    have hoff : (n : Int) ≤ d.size := by
      unfold toOff at hle
      split at hle <;> omega
    simp only [hn]
    refine ⟨h.setFd h.size_le h.size_lt ?_, ?_⟩
    · rintro e ⟨⟩
      exact ⟨by show n ≤ d.size; omega, hsize⟩
    · rw [view_setFd]
      exact FileStep.seek (view_pos hfd) (by rw [h.length_view]; omega)
  · rename_i hle
    refine ⟨h, FileStep.seekFail (view_pos hfd) ?_⟩
    rw [h.length_view]
    exact fun hin => hle (hok.2 hin)

theorem writeBlock_some {block bytes : List UInt8} {pos : Nat} (hne : bytes ≠ [])
    (hin : pos + bytes.length ≤ block.length) :
    writeBlock (some block) pos bytes = some (some (overwrite block pos bytes)) := by
  unfold writeBlock
  rw [if_neg hne, Option.filter_some, if_pos (decide_eq_true hin)]
  rfl

variable {memory : Option (List UInt8)}

theorem step_write_nil (h : Fits s) (hfd : s.fds fd = some d) :
    Fits (s.write c fd d [] memory).1 ∧
      FileStep s.view (Call.write fd [] memory, (s.write c fd d [] memory).2)
        (s.write c fd d [] memory).1.view := by
  obtain ⟨hpos, hsize⟩ := h.pos_le fd d hfd
  have hadd : add32 d.pos 0 = d.pos := add32_of_lt (Nat.lt_of_le_of_lt hpos hsize)
  have hgrow : growFile c s.file d ([] : List UInt8).length memory = some (s.file, d) := by
    unfold growFile
    simp only [List.length_nil, hadd]
    rw [if_neg (Nat.not_lt.2 hpos)]
  unfold OpenFile.write
  rw [hgrow]
  simp only [writeBlock, if_true, List.length_nil, hadd]
  refine ⟨h.setFd h.size_le h.size_lt ?_, ?_⟩
  · rintro e ⟨⟩
    exact ⟨hpos, hsize⟩
  · have hspec := @FileStep.write s.view fd d.pos [] memory (view_pos hfd) (absurd rfl)
    rw [overwrite_nil] at hspec
    rw [view_setFd]
    exact hspec

theorem growFile_spec (h : Fits s) {bytes : List UInt8} (hfd : s.fds fd = some d)
    (hfits : d.pos + bytes.length + c.alignSize ≤ 2 ^ 32)
    (hne : bytes ≠ []) (hpos : d.pos ≤ s.file.size)
    (hend : d.size < d.pos + bytes.length -> s.file.size ≤ d.pos + bytes.length)
    (hin : d.pos + bytes.length ≤ d.size -> d.pos + bytes.length ≤ s.file.size)
    (hgrow : growFile c s.file d bytes.length memory = some (f, d')) :
    exists block, f.data = some block ∧ d'.pos = d.pos ∧ d.pos + bytes.length ≤ f.size ∧
      f.size ≤ block.length ∧ f.size < 2 ^ 32 ∧
      (d.pos + bytes.length ≤ d'.size ∧ d'.size < 2 ^ 32) ∧
      (overwrite block d.pos bytes).take f.size = overwrite s.view.contents d.pos bytes := by
  have halign := c.alignSize_pos
  have hadd : add32 d.pos bytes.length = d.pos + bytes.length := add32_of_lt (by omega)
  have hsize := h.size_le
  unfold growFile at hgrow
  simp only [hadd] at hgrow
  split at hgrow
  · rename_i hlt
    obtain ⟨block, hblock, heq⟩ := Option.map_eq_some_iff.1 hgrow
    cases heq
    obtain ⟨hlength, hkept⟩ := reallocBlock_spec hfits hsize (hend hlt) hblock
    refine ⟨block, rfl, rfl, Nat.le_refl _, hlength, ?_, ⟨Nat.le_refl _, ?_⟩, ?_⟩
    · show d.pos + bytes.length < 2 ^ 32
      omega
    · show d.pos + bytes.length < 2 ^ 32
      omega
    · exact take_overwrite_end hpos (hend hlt) hlength hsize hkept
  · rename_i hlt
    cases hgrow
    have hroom := hin (Nat.not_lt.1 hlt)
    cases hdata : s.file.data with
    | none =>
      rw [hdata] at hsize
      change s.file.size ≤ 0 at hsize
      have hcount := List.length_pos_of_ne_nil hne
      omega
    | some block =>
      rw [hdata] at hsize
      refine ⟨block, rfl, rfl, hroom, hsize, h.size_lt,
        ⟨Nat.not_lt.1 hlt, (h.pos_le fd _ hfd).2⟩, ?_⟩
      show _ = overwrite ((s.file.data.getD []).take s.file.size) d.pos bytes
      rw [hdata]
      exact take_overwrite hroom hsize

theorem step_write (h : Fits s) {bytes : List UInt8} (hfd : s.fds fd = some d)
    (hok : Current c s (Call.write fd bytes memory)) :
    Fits (s.write c fd d bytes memory).1 ∧
      FileStep s.view (Call.write fd bytes memory, (s.write c fd d bytes memory).2)
        (s.write c fd d bytes memory).1.view := by
  by_cases hne : bytes = []
  · subst hne
    exact step_write_nil h hfd
  obtain ⟨hfits, hcond⟩ := hok d hfd
  obtain ⟨hpos, hend, hin⟩ := hcond hne
  unfold OpenFile.write
  split
  · exact ⟨h, FileStep.noMemory (view_pos hfd)⟩
  · rename_i f d' hgrow
    obtain ⟨block, hdata, hpos', hroom, hlength, hlt, hd', hview⟩ :=
      growFile_spec h hfd hfits hne hpos hend hin hgrow
    have halign := c.alignSize_pos
    have hadd : add32 d.pos bytes.length = d.pos + bytes.length := add32_of_lt (by omega)
    have hinside : d.pos + bytes.length ≤ block.length := Nat.le_trans hroom hlength
    rw [hpos', hdata, writeBlock_some hne hinside, hadd]
    refine ⟨?_, ?_⟩
    · apply h.setFd
      · show f.size ≤ (overwrite block d.pos bytes).length
        rw [length_overwrite hinside]
        exact hlength
      · exact hlt
      · rintro e ⟨⟩
        exact hd'
    · rw [view_setFd]
      show FileStep _ _ (s.view.setPos ((overwrite block d.pos bytes).take f.size) fd
        (some (d.pos + bytes.length)))
      rw [hview]
      exact FileStep.write (view_pos hfd) fun _ => by rw [h.length_view]; exact hpos

theorem step_refines {x : Call × Out} {s' : OpenFile} (h : Fits s) (hok : Current c s x.1)
    (hs : ContentsStep c s x s') : Fits s' ∧ FileStep s.view x s'.view := by
  obtain ⟨call, out⟩ := x
  change contentsStep c s call = some (s', out) at hs
  cases call with
  | openFile fd flags =>
    simp only [contentsStep] at hs
    split at hs
    · rename_i hfree
      split at hs
      · cases hs
      · cases hs
        exact ⟨h.openFd flags, step_open h hfree⟩
    · cases hs
  | read fd count =>
    obtain ⟨d, hfd, heq⟩ := Option.map_eq_some_iff.1 hs
    obtain ⟨bytes, e, hread, he, hspec⟩ := step_read h hfd (hok d hfd)
    rw [hread] at heq
    cases heq
    refine ⟨h.setFd h.size_le h.size_lt ?_, hspec⟩
    rintro e ⟨⟩
    exact he
  | write fd bytes memory =>
    obtain ⟨d, hfd, heq⟩ := Option.map_eq_some_iff.1 hs
    have hwrite := step_write h hfd hok
    rw [heq] at hwrite
    exact hwrite
  | lseek fd offset =>
    obtain ⟨d, hfd, heq⟩ := Option.map_eq_some_iff.1 hs
    have hseek := step_lseek h hfd (hok d hfd)
    rw [heq] at hseek
    exact hseek
  | close fd =>
    obtain ⟨d, hfd, heq⟩ := Option.map_eq_some_iff.1 hs
    cases heq
    refine ⟨h.setFd h.size_le h.size_lt nofun, ?_⟩
    rw [view_setFd]
    exact FileStep.close (view_pos hfd)

theorem current_write {bytes : List UInt8} (hfd : s.fds fd = some d)
    (hsize : d.size = s.file.size) (hpos : d.pos ≤ d.size)
    (hfits : d.pos + bytes.length + c.alignSize ≤ 2 ^ 32) :
    Current c s (Call.write fd bytes memory) := by
  intro e he
  obtain rfl : d = e := Option.some.inj (hfd.symm.trans he)
  refine ⟨hfits, fun _ => ⟨?_, ?_, ?_⟩⟩
  · omega
  · omega
  · omega

end Calls

theorem newFile_fits (id : Nat) (name : List Char) : Fits (newFile id name) where
  size_le := Nat.le_refl 0
  pos_le _ _ h := nomatch h
  size_lt := Nat.two_pow_pos 32

theorem not_fault_of_fileStep {f f' : ByteFile} {x : Call × Out} (h : FileStep f x f') :
    x.2 ≠ Out.fault := by
  cases h <;> exact nofun

/-!
## Every run
-/

/-- `RT_ALIGN_SIZE` of 4. -/
def words : Mem.Config := ⟨4, Mem.four_power⟩

def plain : OpenFlags := ⟨false, false, false, false, false⟩

/-- Two bytes through one descriptor, one more through a second one that appends. -/
def appended : List (Call × Out) :=
  [(Call.openFile 0 plain, Out.done),
    (Call.write 0 [1, 2] (some (List.replicate 12 0)), Out.wrote 2),
    (Call.openFile 1 { plain with append := true }, Out.done),
    (Call.write 1 [3] none, Out.wrote 1)]

end RtThread.Dfs.Ramfs
