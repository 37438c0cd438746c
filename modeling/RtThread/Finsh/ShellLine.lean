import RtThread.Finsh.Shell

/-!
# The shell as a line editor

An editor keeps the text before the end of the line and a cursor in it. The keys insert, remove
and recall; the end of the line hands the text over. The shell does what the editor does as long
as no line is handed over, or completed, after an overlong one has been discarded, no line for the
parser fills the buffer, and a carriage return is followed by a line feed, by another one or by a
pause.
-/

namespace RtThread.Finsh.Shell

open Transition

/-!
## Keys
-/

inductive Key where
  | insert (ch : UInt8)
  | backspace
  | left
  | right
  | up
  | down
  | complete
  | enter
deriving DecidableEq, Repr

/-- What has been read of an escape sequence or of an end of line. -/
inductive Decoder where
  | normal
  | escaped
  | function
  | returned
deriving DecidableEq, Repr

def plainKey (ch : UInt8) : Decoder × List Key :=
  if ch = carriageReturn then (.returned, [])
  else if ch = tab then (.normal, [.complete])
  else if ch = 0x7f ∨ ch = 0x08 then (.normal, [.backspace])
  else if ch = newline then (.normal, [.enter])
  else (.normal, [.insert ch])

def byteKey (d : Decoder) (ch : UInt8) : Decoder × List Key :=
  if ch = escape then (.escaped, [])
  else
    match d with
    | .escaped => if ch = 0x5b then (.function, []) else plainKey ch
    | .function =>
      if ch = 0x41 then (.normal, [.up])
      else if ch = 0x42 then (.normal, [.down])
      else if ch = 0x44 then (.normal, [.left])
      else if ch = 0x43 then (.normal, [.right])
      else plainKey ch
    | _ => plainKey ch

/-- The keys that end with a read.  A carriage return ends a line together with a line
feed or another carriage return behind it. -/
def decode : Decoder -> Option UInt8 -> Decoder × List Key
  | .returned, none => (.normal, [.enter])
  | .returned, some ch =>
    if ch = carriageReturn ∨ ch = newline then (.normal, [.enter])
    else
      let (d, keys) := byteKey .normal ch
      (d, .enter :: keys)
  | d, none => (d, [])
  | d, some ch => byteKey d ch

/-!
## The editor
-/

/-- The line, the history and what was handed over; `discarded`: an overlong line has been
thrown away since the line was last emptied or recalled. -/
structure Editor where
  decoder : Decoder
  text : List UInt8
  cursor : Nat
  discarded : Bool
  history : List (List UInt8)
  current : Nat
  executed : List (List UInt8)
deriving DecidableEq, Repr

def Editor.start : Editor :=
  { decoder := .normal
    text := []
    cursor := 0
    discarded := false
    history := []
    current := 0
    executed := [] }

def Editor.recall (e : Editor) (index : Nat) : Editor :=
  let text := e.history.getD index []
  { e with text := text, cursor := text.length, discarded := false, current := index }

/-- The text becomes the last line of the history, which has room for some lines. -/
def Editor.remember (lines : Nat) (e : Editor) : Editor :=
  let history :=
    if e.text = [] then e.history
    else if e.history.length ≥ lines then e.history.tail ++ [e.text]
    else e.history ++ [e.text]
  { e with history := history, current := history.length }

/-- The text is handed over, with a `;` for the parser. -/
def Editor.handOver (msh : Bool) (e : Editor) : Editor :=
  { e with
    executed :=
      if msh then e.executed ++ [e.text]
      else if e.text = [] then e.executed
      else e.executed ++ [e.text ++ [semicolon]] }

def Editor.apply (cfg : Config) (msh : Bool) (e : Editor) : Key -> Editor
  | .insert ch =>
    let text := e.text.insertIdx e.cursor ch
    if text.length ≥ cmdSize then
      { e with text := [], cursor := 0, discarded := true }
    else { e with text := text, cursor := e.cursor + 1 }
  | .backspace =>
    if e.cursor = 0 then e
    else { e with text := e.text.eraseIdx (e.cursor - 1), cursor := e.cursor - 1 }
  | .left => { e with cursor := e.cursor - 1 }
  | .right => { e with cursor := min (e.cursor + 1) e.text.length }
  | .up => if cfg.usingHistory ∧ 0 < e.current then e.recall (e.current - 1) else e
  | .down =>
    if cfg.usingHistory ∧ e.history ≠ [] then
      e.recall (min (e.current + 1) (e.history.length - 1))
    else e
  | .complete =>
    let text := cfg.completion.complete msh e.text
    { e with text := text, cursor := text.length }
  | .enter =>
    let e := if cfg.usingHistory then e.remember cfg.historyLines else e
    { e.handOver msh with text := [], cursor := 0, discarded := false }

def Editor.step (cfg : Config) (e : Editor) (input : Input) : Editor :=
  let (d, keys) := decode e.decoder input.read
  keys.foldl (Editor.apply cfg input.msh) { e with decoder := d }

def KeyOk (msh : Bool) (e : Editor) : Key -> Prop
  | .insert ch => ch ≠ 0
  | .complete => e.discarded = false
  | .enter =>
    if msh then e.discarded = false
    else e.text ≠ [] -> e.discarded = false ∧ e.text.length + 1 < cmdSize
  | _ => True

instance (msh : Bool) (e : Editor) : forall key, Decidable (KeyOk msh e key)
  | .insert ch => inferInstanceAs (Decidable (ch ≠ 0))
  | .complete => inferInstanceAs (Decidable (e.discarded = false))
  | .enter => inferInstanceAs (Decidable (if msh then e.discarded = false
      else e.text ≠ [] -> e.discarded = false ∧ e.text.length + 1 < cmdSize))
  | .backspace => isTrue trivial
  | .left => isTrue trivial
  | .right => isTrue trivial
  | .up => isTrue trivial
  | .down => isTrue trivial

/-- A read that the shell handles as the editor does: what follows a carriage return is
nothing, a line feed or another carriage return. -/
def ReadOk (e : Editor) (input : Input) : Prop :=
  (e.decoder = .returned -> forall ch, ch ∈ input.read ->
    ch = carriageReturn ∨ ch = newline) ∧
  forall key, key ∈ (decode e.decoder input.read).2 -> KeyOk input.msh e key

instance (e : Editor) (input : Input) : Decidable (ReadOk e input) :=
  inferInstanceAs (Decidable (_ ∧ _))

def AllOk (cfg : Config) : Editor -> List Input -> Prop
  | _, [] => True
  | e, input :: rest => ReadOk e input ∧ AllOk cfg (e.step cfg input) rest

instance decideAllOk (cfg : Config) : forall e inputs, Decidable (AllOk cfg e inputs)
  | _, [] => isTrue trivial
  | e, input :: rest =>
    @instDecidableAnd _ _ inferInstance (decideAllOk cfg (e.step cfg input) rest)

end RtThread.Finsh.Shell
