import RtThread.Library.Transition
import Mathlib.Logic.Function.Basic
import Mathlib.Data.UInt

/-!
# The shell's input loop

The loop of `finsh_thread_entry` over the bytes of the console, with the line buffer, the escape
sequences and the history. One step is one read of the device, which gives a byte or none. A
carriage return makes the loop read once more before it goes on. Whether the `msh` is in use is
asked for at each step. What the shell prints is left out. The line lies in a larger structure: a
text without a terminator in it has no end that the shell knows of.
-/

namespace RtThread.Finsh.Shell

open Transition

def cmdSize : Nat := 80

abbrev Buffer := Nat -> UInt8

/-- What the completion makes of a text: a text that starts with it. Names of commands are
shorter than a line and hold no zero byte. -/
structure Completion where
  complete : Bool -> List UInt8 -> List UInt8
  isExtension : forall msh text, text <+: complete msh text
  nonzero : forall msh text, 0 ∉ text -> 0 ∉ complete msh text
  short : forall msh text, text.length < cmdSize -> (complete msh text).length < cmdSize

/-- `FINSH_USING_HISTORY`, `FINSH_HISTORY_LINES` and the commands that are known. -/
structure Config where
  usingHistory : Bool
  historyLines : Nat
  lines_pos : 0 < historyLines
  lines_lt : historyLines < 2 ^ 16
  completion : Completion

inductive InputStat where
  | waitNormal
  | waitSpecKey
  | waitFuncKey
deriving DecidableEq, Repr

/-- `struct finsh_shell`, with whether the loop is at the second read after a carriage
return, the offsets stored to, and the texts handed over for execution, `none` for one that
does not end inside the line. -/
structure FinshShell where
  stat : InputStat
  currentHistory : Nat
  historyCount : Nat
  cmdHistory : Nat -> Buffer
  line : Buffer
  linePosition : Nat
  lineCurpos : Nat
  inReturn : Bool
  written : List Nat
  executed : List (Option (List UInt8))

/-- A read of the device, and the answer of `msh_is_used`. -/
structure Input where
  read : Option UInt8
  msh : Bool
deriving DecidableEq, Repr

def escape : UInt8 := 0x1b
def newline : UInt8 := 0x0a
def carriageReturn : UInt8 := 0x0d
def tab : UInt8 := 0x09
def semicolon : UInt8 := 0x3b

/-!
## The line buffer
-/

def readString (b : Buffer) : Nat -> Nat -> Option (List UInt8)
  | 0, _ => none
  | n + 1, i => if b i = 0 then some [] else (readString b n (i + 1)).map (b i :: ·)

def lineText (b : Buffer) : Option (List UInt8) := readString b cmdSize 0

def FinshShell.store (s : FinshShell) (i : Nat) (c : UInt8) : FinshShell :=
  { s with line := Function.update s.line i c, written := s.written ++ [i] }

/-- `rt_memmove(&shell->line[dst], &shell->line[src], n)` -/
def FinshShell.memmove (s : FinshShell) (dst src n : Nat) : FinshShell :=
  { s with
    line := fun i => if dst ≤ i ∧ i < dst + n then s.line (i - dst + src) else s.line i
    written := s.written ++ (List.range n).map (dst + ·) }

def FinshShell.overwrite (s : FinshShell) (b : Buffer) (n : Nat) : FinshShell :=
  { s with
    line := fun i => if i < n then b i else s.line i
    written := s.written ++ List.range n }

def FinshShell.measure (s : FinshShell) : Option FinshShell :=
  (lineText s.line).map fun text =>
    { s with linePosition := text.length, lineCurpos := text.length }

/-!
## Keys
-/

/-- The history line at `current_history` becomes the line. -/
def FinshShell.recall (s : FinshShell) (index : Nat) : Option FinshShell :=
  { s with currentHistory := index }.overwrite (s.cmdHistory index) cmdSize |>.measure

def upKey (cfg : Config) (s : FinshShell) : Option FinshShell :=
  if cfg.usingHistory then
    if 0 < s.currentHistory then s.recall (s.currentHistory - 1)
    else some { s with currentHistory := 0 }
  else some s

def downKey (cfg : Config) (s : FinshShell) : Option FinshShell :=
  if cfg.usingHistory then
    if s.currentHistory + 1 < s.historyCount then s.recall (s.currentHistory + 1)
    else if s.historyCount ≠ 0 then s.recall (s.historyCount - 1)
    else some s
  else some s

def leftKey (s : FinshShell) : FinshShell :=
  if s.lineCurpos ≠ 0 then { s with lineCurpos := s.lineCurpos - 1 } else s

def rightKey (s : FinshShell) : FinshShell :=
  if s.lineCurpos < s.linePosition then { s with lineCurpos := s.lineCurpos + 1 } else s

/-- `shell_auto_complete` and the new positions. -/
def tabKey (cfg : Config) (s : FinshShell) (msh : Bool) : Option FinshShell :=
  match lineText s.line with
  | none => none
  | some text =>
    let name := cfg.completion.complete msh text
    (s.overwrite (fun i => name.getD i 0) name.length).measure

/-- The byte at the cursor is taken out; the positions are those behind it. -/
def FinshShell.deleteByte (s : FinshShell) : FinshShell :=
  if s.linePosition > s.lineCurpos then
    (s.memmove s.lineCurpos (s.lineCurpos + 1) (s.linePosition - s.lineCurpos)).store
      s.linePosition 0
  else s.store s.linePosition 0

def backspaceKey (s : FinshShell) : FinshShell :=
  if s.lineCurpos = 0 then s
  else
    { s with
      linePosition := s.linePosition - 1
      lineCurpos := s.lineCurpos - 1 }.deleteByte

/-- The row that `shell_push_history` stores. -/
def FinshShell.historyRow (s : FinshShell) : Buffer := fun i =>
  if i < s.linePosition then s.line i else 0

def shellPushHistory (cfg : Config) (s : FinshShell) : FinshShell :=
  let s :=
    if s.linePosition ≠ 0 then
      if s.historyCount ≥ cfg.historyLines then
        { s with
          cmdHistory := fun r =>
            if r < cfg.historyLines - 1 then s.cmdHistory (r + 1)
            else if r = cfg.historyLines - 1 then s.historyRow
            else s.cmdHistory r
          historyCount := cfg.historyLines }
      else
        { s with
          cmdHistory := Function.update s.cmdHistory s.historyCount s.historyRow
          historyCount := s.historyCount + 1 }
    else s
  { s with currentHistory := s.historyCount }

/-- `msh_exec` gets the line as it is, the parser gets it with a `;` behind it unless it
is empty. -/
def runLine (s : FinshShell) (msh : Bool) : FinshShell :=
  if msh then { s with executed := s.executed ++ [lineText s.line] }
  else
    let s := s.store s.linePosition semicolon
    if s.linePosition ≠ 0 then { s with executed := s.executed ++ [lineText s.line] }
    else s

def enterKey (cfg : Config) (s : FinshShell) (msh : Bool) : FinshShell :=
  let s := if cfg.usingHistory then shellPushHistory cfg s else s
  let s := (runLine s msh).overwrite (fun _ => 0) cmdSize
  { s with linePosition := 0, lineCurpos := 0 }

def FinshShell.insertByte (s : FinshShell) (ch : UInt8) : FinshShell :=
  if s.lineCurpos < s.linePosition then
    (s.memmove (s.lineCurpos + 1) s.lineCurpos (s.linePosition - s.lineCurpos)).store
      s.lineCurpos ch
  else s.store s.linePosition ch

def insertKey (s : FinshShell) (ch : UInt8) : FinshShell :=
  -- a large line is discarded
  let s := if s.linePosition ≥ cmdSize then { s with linePosition := 0 } else s
  let s := s.insertByte ch
  let s := { s with linePosition := s.linePosition + 1, lineCurpos := s.lineCurpos + 1 }
  if s.linePosition ≥ cmdSize then { s with linePosition := 0, lineCurpos := 0 } else s

/-!
## The loop
-/

def endOrInsert (cfg : Config) (s : FinshShell) (ch : UInt8) (msh : Bool) : FinshShell :=
  if ch = carriageReturn ∨ ch = newline then enterKey cfg s msh else insertKey s ch

def handleByte (cfg : Config) (s : FinshShell) (ch : UInt8) (msh : Bool) :
    Option FinshShell :=
  if ch = carriageReturn then some { s with inReturn := true }
  else if ch = tab then tabKey cfg s msh
  else if ch = 0x7f ∨ ch = 0x08 then some (backspaceKey s)
  else some (endOrInsert cfg s ch msh)

def receive (cfg : Config) (s : FinshShell) (ch : UInt8) (msh : Bool) : Option FinshShell :=
  if ch = escape then some { s with stat := .waitSpecKey }
  else
    match s.stat with
    | .waitSpecKey =>
      if ch = 0x5b then some { s with stat := .waitFuncKey }
      else handleByte cfg { s with stat := .waitNormal } ch msh
    | .waitFuncKey =>
      let s := { s with stat := .waitNormal }
      if ch = 0x41 then upKey cfg s
      else if ch = 0x42 then downKey cfg s
      else if ch = 0x44 then some (leftKey s)
      else if ch = 0x43 then some (rightKey s)
      else handleByte cfg s ch msh
    | .waitNormal => handleByte cfg s ch msh

/-- One read of the device in `finsh_thread_entry`. -/
def finshThreadEntry (cfg : Config) (s : FinshShell) (input : Input) : Option FinshShell :=
  if s.inReturn then
    let s := { s with inReturn := false }
    some (endOrInsert cfg s (input.read.getD carriageReturn) input.msh)
  else
    match input.read with
    | none => some s
    | some ch => receive cfg s ch input.msh

/-- The shell as `finsh_system_init` makes it. -/
def bootShell : FinshShell :=
  { stat := .waitNormal
    currentHistory := 0
    historyCount := 0
    cmdHistory := fun _ _ => 0
    line := fun _ => 0
    linePosition := 0
    lineCurpos := 0
    inReturn := false
    written := []
    executed := [] }

end RtThread.Finsh.Shell
