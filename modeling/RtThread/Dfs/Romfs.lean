import Mathlib.Algebra.Group.Nat.Defs
import RtThread.Dfs.Normalize
import RtThread.Library.Descent

/-!
# Looking up in a romfs

The tree of a romfs, and `dfs_romfs_lookup`.  An entry is told by its places in the
directories from the root on.  Names and paths are C strings without their NUL.  A search that
reads behind the end of a directory has no result; a result is an entry with its size, or the
null pointer.
-/

namespace RtThread.Dfs

open Separated

/-- `struct romfs_dirent`.  The data are the entries of a directory, or a null pointer; the
bytes of a file are left out. -/
structure RomfsDirent where
  type : Nat
  name : Path
  data : Option (List RomfsDirent)
  size : Nat

/-- `ROMFS_DIRENT_FILE` and `ROMFS_DIRENT_DIR` -/
def romfsDirentFile : Nat := 0

def romfsDirentDir : Nat := 1

namespace Romfs

/-!
## Operations
-/

def checkDirent (dirent : RomfsDirent) : Int :=
  if dirent.type ≠ romfsDirentFile ∧ dirent.type ≠ romfsDirentDir ∨
      dirent.size = 2 ^ 32 - 1 then -1
  else 0

/-- `subpath` and `subpath_end` behind the loops that move them on. -/
def nextSubpath (subpathEnd : Path) : Path × Path :=
  let subpath := skipSlashes subpathEnd
  (subpath, subpath.dropWhile fun c => c ≠ '/')

/-- The entry at which the search in a directory stops. -/
inductive Found where
  | nothing
  | entry (index : Nat) (dirent : RomfsDirent)

/-- The search in a directory, with the number of entries that are left. -/
def search (dirent : List RomfsDirent) (subpath : Path) (length : Nat) :
    Nat -> Nat -> Option Found
  | 0, _ => some Found.nothing
  | left + 1, index =>
    match dirent[index]? with
    | none => none
    | some e =>
      if checkDirent e ≠ 0 then some Found.nothing
      else if strncmpEq e.name subpath length then some (Found.entry index e)
      else search dirent subpath length left (index + 1)

theorem nextSubpath_lt {subpathEnd : Path} (h : (nextSubpath subpathEnd).1 ≠ []) :
    (nextSubpath subpathEnd).2.length < subpathEnd.length := by
  obtain ⟨hhead, hlength, -⟩ := skipSlashes_spec subpathEnd
  obtain ⟨c, hc, hrest⟩ := begins_with_name h hhead
  have hpos := List.length_pos_iff.mpr hc.1
  refine Nat.lt_of_lt_of_le ?_ hlength
  unfold nextSubpath at hrest ⊢
  simp only at hrest ⊢
  rcases hrest with heq | ⟨rest, heq⟩
  · rw [heq]
    have hbehind := (@takeWhile_name c [] hc.2 (Or.inl rfl)).2
    rw [List.append_nil] at hbehind
    rw [hbehind]
    exact hpos
  · rw [heq, (takeWhile_name hc.2 (Or.inr ⟨rest, rfl⟩)).2, List.length_append]
    omega

/-- The loop over directories of `dfs_romfs_lookup`. -/
def descend (dirent : Option (List RomfsDirent)) (direntSize : Nat) (subpath subpathEnd : Path)
    (places : List Nat) : Option (Option (List Nat × RomfsDirent × Nat)) :=
  match dirent with
  | none => some none
  | some dirent =>
    match search dirent subpath (subpath.length - subpathEnd.length) direntSize 0 with
    | none => none
    | some Found.nothing => some none
    | some (Found.entry index e) =>
      let next := nextSubpath subpathEnd
      if _h : next.1 = [] then some (some (places ++ [index], e, e.size))
      else if e.type = romfsDirentDir then
        descend e.data e.size next.1 next.2 (places ++ [index])
      else some none
termination_by subpathEnd.length
decreasing_by exact nextSubpath_lt _h

def dfsRomfsLookup (rootDirent : RomfsDirent) (path : Path) :
    Option (Option (List Nat × RomfsDirent × Nat)) :=
  if checkDirent rootDirent ≠ 0 then some none
  else if path = ['/'] then some (some ([], rootDirent, rootDirent.size))
  else
    let next := nextSubpath path
    descend rootDirent.data rootDirent.size next.1 next.2 []

end Romfs
end RtThread.Dfs
