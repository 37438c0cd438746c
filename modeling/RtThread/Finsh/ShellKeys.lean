import RtThread.Finsh.ShellLine
import Mathlib.Data.List.InsertIdx

/-!
# The keys of the shell

The line buffer holds the text of the editor, followed by zero bytes unless an overlong
line has been discarded; the rows of the history hold its remembered lines.  Each key
keeps this.
-/

namespace RtThread.Finsh.Shell

open Transition
open Function (update update_apply update_of_ne update_self)

/-!
## Texts in buffers
-/

def Held (b : Buffer) (text : List UInt8) : Prop :=
  forall i, i < text.length -> text[i]? = some (b i)

def ClearFrom (b : Buffer) (n : Nat) : Prop :=
  forall i, n ≤ i -> i < cmdSize -> b i = 0

theorem readString_eq {b : Buffer} {text : List UInt8} {n i : Nat}
    (hheld : forall j, j < text.length -> text[j]? = some (b (i + j)))
    (hend : b (i + text.length) = 0) (hnonzero : 0 ∉ text) (hroom : text.length < n) :
    readString b n i = some text := by
  induction text generalizing n i with
  | nil =>
    obtain ⟨n, rfl⟩ : exists k, n = k + 1 := ⟨n - 1, by simp at hroom; omega⟩
    have hzero : b i = 0 := by simpa using hend
    simp [readString, hzero]
  | cons c text ih =>
    rw [List.length_cons] at hroom hend
    obtain ⟨n, rfl⟩ : exists k, n = k + 1 := ⟨n - 1, by omega⟩
    have hfirst : c = b i := by simpa using hheld 0 (by simp)
    have hc : b i ≠ 0 := by
      intro hzero
      exact hnonzero (by simp [hfirst, hzero])
    have hrest : readString b n (i + 1) = some text := by
      apply ih
      · intro j hj
        have hnext := hheld (j + 1) (by simpa using hj)
        rw [List.getElem?_cons_succ] at hnext
        rw [hnext]
        congr 2
        omega
      · rw [← hend]
        congr 1
        omega
      · exact fun h => hnonzero (List.mem_cons_of_mem c h)
      · omega
    rw [readString, if_neg hc, hrest, hfirst]
    rfl

theorem lineText_eq {b : Buffer} {text : List UInt8} (hheld : Held b text)
    (hend : b text.length = 0) (hnonzero : 0 ∉ text) (hshort : text.length < cmdSize) :
    lineText b = some text := by
  apply readString_eq _ _ hnonzero hshort
  · intro j hj
    rw [Nat.zero_add]
    exact hheld j hj
  · rwa [Nat.zero_add]

/-!
## Agreement
-/

/-- The line buffer and its positions stand for a text and a cursor. -/
structure LineAgrees (line : Buffer) (position curpos : Nat) (written : List Nat)
    (text : List UInt8) (cursor : Nat) (discarded : Bool) : Prop where
  position : position = text.length
  curpos : curpos = cursor
  cursor_le : cursor ≤ text.length
  short : text.length < cmdSize
  nonzero : 0 ∉ text
  held : Held line text
  clear : discarded = false -> ClearFrom line text.length
  written : forall i, i ∈ written -> i < cmdSize

/-- The rows of the history stand for the remembered lines. -/
structure HistoryAgrees (lines : Nat) (rows : Nat -> Buffer) (count current : Nat)
    (history : List (List UInt8)) (index : Nat) : Prop where
  count : count = history.length
  current : current = index
  count_le : history.length ≤ lines
  index_le : index ≤ history.length
  entries : forall text, text ∈ history -> 0 ∉ text ∧ text.length < cmdSize
  rows : forall r text, history[r]? = some text -> forall i, rows r i = (text[i]?).getD 0

structure Agrees (cfg : Config) (s : FinshShell) (e : Editor) : Prop where
  line : LineAgrees s.line s.linePosition s.lineCurpos s.written e.text e.cursor e.discarded
  history : HistoryAgrees cfg.historyLines s.cmdHistory s.historyCount s.currentHistory
    e.history e.current
  executed : s.executed = e.executed.map some

/-!
## The line
-/

section Line

variable {line : Buffer} {position curpos : Nat} {written : List Nat}
  {text : List UInt8} {cursor : Nat} {discarded : Bool}

variable {c : Nat} {b : Buffer} {stored : List Nat}

theorem LineAgrees.moveTo (h : LineAgrees line position curpos written text cursor discarded)
    {d : Nat} (hd : d = c) (hc : c ≤ text.length) :
    LineAgrees line position d written text c discarded :=
  { h with curpos := hd, cursor_le := hc }

theorem held_insert {ch : UInt8} (hheld : Held line text)
    (hc : c ≤ text.length) (hbelow : forall i, i < c -> b i = line i)
    (hat : b c = ch)
    (habove : forall i, c < i -> i ≤ text.length -> b i = line (i - 1)) :
    Held b (text.insertIdx c ch) := by
  intro i hi
  rw [List.length_insertIdx_of_le_length hc] at hi
  rw [List.getElem?_insertIdx]
  split
  · next hlt =>
      rw [hheld i (by omega), hbelow i hlt]
  · split
    · next heq =>
        rw [if_pos (by omega), heq, hat]
    · rw [hheld (i - 1) (by omega), habove i (by omega) (by omega)]

theorem held_erase (hheld : Held line text) (hc : c < text.length)
    (hbelow : forall i, i < c -> b i = line i)
    (habove : forall i, c ≤ i -> i + 1 < text.length -> b i = line (i + 1)) :
    Held b (text.eraseIdx c) := by
  intro i hi
  rw [List.length_eraseIdx_of_lt hc] at hi
  rw [List.getElem?_eraseIdx]
  split
  · next hlt =>
      rw [hheld i (by omega), hbelow i hlt]
  · rw [hheld (i + 1) (by omega), habove i (by omega) (by omega)]

theorem written_append (hwritten : forall i, i ∈ written -> i < cmdSize)
    (hstored : forall i, i ∈ stored -> i < cmdSize) :
    forall i, i ∈ written ++ stored -> i < cmdSize := by
  intro i hi
  rcases List.mem_append.mp hi with hold | hnew
  · exact hwritten i hold
  · exact hstored i hnew

theorem lineAgrees_nil (hwritten : forall i, i ∈ written -> i < cmdSize)
    (hclear : discarded = false -> ClearFrom line 0) :
    LineAgrees line 0 0 written [] 0 discarded where
  position := rfl
  curpos := rfl
  cursor_le := Nat.le_refl 0
  short := by decide
  nonzero := List.not_mem_nil
  held := fun i hi => by cases hi
  clear := hclear
  written := hwritten

theorem LineAgrees.insert (h : LineAgrees line position curpos written text cursor discarded)
    {ch : UInt8} (hch : ch ≠ 0) (hroom : text.length + 1 < cmdSize)
    (hbelow : forall i, i < cursor -> b i = line i)
    (hat : b cursor = ch)
    (habove : forall i, cursor < i -> i ≤ text.length -> b i = line (i - 1))
    (hrest : forall i, text.length < i -> b i = line i)
    (hstored : forall i, i ∈ stored -> i < cmdSize) :
    LineAgrees b (position + 1) (curpos + 1) (written ++ stored)
      (text.insertIdx cursor ch) (cursor + 1) discarded := by
  have hlength : (text.insertIdx cursor ch).length = text.length + 1 :=
    List.length_insertIdx_of_le_length h.cursor_le ch
  have hle := h.cursor_le
  constructor
  case position => rw [h.position, hlength]
  case curpos => rw [h.curpos]
  case cursor_le => omega
  case short => omega
  case nonzero =>
    rw [List.mem_insertIdx h.cursor_le]
    rintro (hzero | hzero)
    · exact hch hzero.symm
    · exact h.nonzero hzero
  case held => exact held_insert h.held h.cursor_le hbelow hat habove
  case clear =>
    intro hclean i hi hsize
    rw [hlength] at hi
    rw [hrest i (by omega)]
    exact h.clear hclean i (by omega) hsize
  case written => exact written_append h.written hstored

theorem LineAgrees.erase (h : LineAgrees line position curpos written text cursor discarded)
    (hcursor : 0 < cursor) (hbelow : forall i, i < cursor - 1 -> b i = line i)
    (habove : forall i, cursor - 1 ≤ i -> i + 1 < text.length -> b i = line (i + 1))
    (hlast : b (text.length - 1) = 0)
    (hrest : forall i, text.length ≤ i -> b i = line i)
    (hstored : forall i, i ∈ stored -> i < cmdSize) :
    LineAgrees b (position - 1) (curpos - 1) (written ++ stored)
      (text.eraseIdx (cursor - 1)) (cursor - 1) discarded := by
  have hle := h.cursor_le
  have hshort := h.short
  have hlength : (text.eraseIdx (cursor - 1)).length = text.length - 1 :=
    List.length_eraseIdx_of_lt (by omega)
  constructor
  case position => rw [h.position, hlength]
  case curpos => rw [h.curpos]
  case cursor_le => omega
  case short => omega
  case nonzero => exact fun hzero => h.nonzero (List.mem_of_mem_eraseIdx hzero)
  case held => exact held_erase h.held (by omega) hbelow habove
  case clear =>
    intro hclean i hi hsize
    rw [hlength] at hi
    by_cases hi' : i = text.length - 1
    · rw [hi', hlast]
    · rw [hrest i (by omega)]
      exact h.clear hclean i (by omega) hsize
  case written => exact written_append h.written hstored

end Line

/-!
## Keys that change the line
-/

section Keys

variable {cfg : Config} {s : FinshShell} {e : Editor} {msh : Bool}

theorem leftKey_eq : leftKey s = { s with lineCurpos := s.lineCurpos - 1 } := by
  unfold leftKey
  split
  · rfl
  · next hzero => rw [show s.lineCurpos - 1 = s.lineCurpos by omega]

theorem rightKey_eq (hle : s.lineCurpos ≤ s.linePosition) :
    rightKey s = { s with lineCurpos := min (s.lineCurpos + 1) s.linePosition } := by
  unfold rightKey
  split
  · next hlt => rw [Nat.min_eq_left (by omega)]
  · next hlt => rw [show min (s.lineCurpos + 1) s.linePosition = s.lineCurpos by omega]

theorem agrees_left (h : Agrees cfg s e) : Agrees cfg (leftKey s) (e.apply cfg msh .left) := by
  have hle := h.line.cursor_le
  have hcurpos := h.line.curpos
  rw [leftKey_eq]
  refine ⟨h.line.moveTo ?_ ?_, h.history, h.executed⟩
  · simp only [Editor.apply, hcurpos]
  · simp only [Editor.apply]
    omega

theorem agrees_right (h : Agrees cfg s e) : Agrees cfg (rightKey s) (e.apply cfg msh .right) := by
  have hle := h.line.cursor_le
  have hcurpos := h.line.curpos
  have hposition := h.line.position
  rw [rightKey_eq (by omega)]
  refine ⟨h.line.moveTo ?_ ?_, h.history, h.executed⟩
  · simp only [Editor.apply, hcurpos, hposition]
  · simp only [Editor.apply]
    omega

variable {ch : UInt8} {index lines count current : Nat} {rows : Nat -> Buffer}
  {history : List (List UInt8)}

theorem insertByte_line (hle : s.lineCurpos ≤ s.linePosition) (i : Nat) :
    (s.insertByte ch).line i =
      if i < s.lineCurpos then s.line i
      else if i = s.lineCurpos then ch
      else if i ≤ s.linePosition then s.line (i - 1)
      else s.line i := by
  unfold FinshShell.insertByte FinshShell.memmove FinshShell.store
  by_cases hmid : s.lineCurpos < s.linePosition
  · simp only [if_pos hmid, update_apply]
    by_cases hat : i = s.lineCurpos
    · rw [if_pos hat, if_neg (by omega), if_pos hat]
    · rw [if_neg hat, if_neg hat]
      by_cases hbelow : i < s.lineCurpos
      · rw [if_neg (by omega), if_pos hbelow]
      · rw [if_neg hbelow]
        by_cases hin : i ≤ s.linePosition
        · rw [if_pos (by omega), if_pos hin]
          congr 1
          omega
        · rw [if_neg (by omega), if_neg hin]
  · simp only [if_neg hmid, update_apply]
    have heq : s.linePosition = s.lineCurpos := by omega
    rw [heq]
    by_cases hat : i = s.lineCurpos
    · rw [if_pos hat, if_neg (by omega), if_pos hat]
    · rw [if_neg hat, if_neg hat]
      by_cases hbelow : i < s.lineCurpos
      · rw [if_pos hbelow]
      · rw [if_neg hbelow, if_neg (by omega)]

theorem insertByte_written : exists stored, (s.insertByte ch).written = s.written ++ stored ∧
      forall i, i ∈ stored -> i ≤ s.linePosition := by
  unfold FinshShell.insertByte FinshShell.memmove FinshShell.store
  split
  · refine ⟨_, List.append_assoc _ _ _, ?_⟩
    intro i hi
    simp only [List.mem_append, List.mem_map, List.mem_range, List.mem_singleton] at hi
    omega
  · exact ⟨_, rfl, by simp⟩

theorem deleteByte_line (hle : s.lineCurpos ≤ s.linePosition) (i : Nat) : (s.deleteByte).line i =
      if i = s.linePosition then 0
      else if s.lineCurpos ≤ i ∧ i < s.linePosition then s.line (i + 1)
      else s.line i := by
  unfold FinshShell.deleteByte FinshShell.memmove FinshShell.store
  by_cases hmid : s.linePosition > s.lineCurpos
  · simp only [if_pos hmid, update_apply]
    by_cases hat : i = s.linePosition
    · rw [if_pos hat, if_pos hat]
    · rw [if_neg hat, if_neg hat]
      by_cases hin : s.lineCurpos ≤ i ∧ i < s.linePosition
      · rw [if_pos (by omega), if_pos hin]
        congr 1
        omega
      · rw [if_neg (by omega), if_neg hin]
  · simp only [if_neg hmid, update_apply]
    by_cases hat : i = s.linePosition
    · rw [if_pos hat, if_pos hat]
    · rw [if_neg hat, if_neg hat, if_neg (by omega)]

theorem deleteByte_written : exists stored, (s.deleteByte).written = s.written ++ stored ∧
      forall i, i ∈ stored -> i ≤ s.linePosition := by
  unfold FinshShell.deleteByte FinshShell.memmove FinshShell.store
  split
  · refine ⟨_, List.append_assoc _ _ _, ?_⟩
    intro i hi
    simp only [List.mem_append, List.mem_map, List.mem_range, List.mem_singleton] at hi
    omega
  · exact ⟨_, rfl, by simp⟩

theorem insertByte_rest : s.insertByte ch =
      { s with line := (s.insertByte ch).line, written := (s.insertByte ch).written } := by
  unfold FinshShell.insertByte
  split <;> rfl

theorem deleteByte_rest : s.deleteByte =
      { s with line := s.deleteByte.line, written := s.deleteByte.written } := by
  unfold FinshShell.deleteByte
  split <;> rfl

theorem agrees_insert (h : Agrees cfg s e) (hch : ch ≠ 0) :
    Agrees cfg (insertKey s ch) (e.apply cfg msh (.insert ch)) := by
  have hle := h.line.cursor_le
  have hcurpos := h.line.curpos
  have hposition := h.line.position
  have hshort := h.line.short
  have hline := @insertByte_line s ch (by omega)
  obtain ⟨stored, hwritten, hstored⟩ := @insertByte_written s ch
  have hinside : forall i, i ∈ stored -> i < cmdSize := by
    intro i hi
    have hi' := hstored i hi
    omega
  have hlength : (e.text.insertIdx e.cursor ch).length = e.text.length + 1 :=
    List.length_insertIdx_of_le_length hle ch
  unfold insertKey
  simp only [if_neg (show ¬ s.linePosition ≥ cmdSize by omega)]
  rw [insertByte_rest, hwritten]
  simp only [Editor.apply, hlength, hposition]
  by_cases hfull : e.text.length + 1 ≥ cmdSize
  · rw [if_pos hfull, if_pos hfull]
    refine ⟨lineAgrees_nil ?_ (fun hclean => nomatch hclean), h.history, h.executed⟩
    exact written_append h.line.written hinside
  · rw [if_neg hfull, if_neg hfull]
    have hagrees := h.line
    rw [hposition] at hagrees
    refine ⟨hagrees.insert hch (by omega) ?_ ?_ ?_ ?_ hinside, h.history, h.executed⟩
    · intro i hi
      rw [hline, if_pos (by omega)]
    · rw [hline, if_neg (by omega), if_pos hcurpos.symm]
    · intro i hi hin
      rw [hline, if_neg (by omega), if_neg (by omega), if_pos (by omega)]
    · intro i hi
      rw [hline, if_neg (by omega), if_neg (by omega), if_neg (by omega)]

theorem agrees_backspace (h : Agrees cfg s e) :
    Agrees cfg (backspaceKey s) (e.apply cfg msh .backspace) := by
  have hle := h.line.cursor_le
  have hcurpos := h.line.curpos
  have hposition := h.line.position
  have hshort := h.line.short
  unfold backspaceKey
  simp only [Editor.apply, hcurpos]
  by_cases hzero : e.cursor = 0
  · rw [if_pos hzero, if_pos hzero]
    exact h
  · rw [if_neg hzero, if_neg hzero]
    have hline := @deleteByte_line
      { s with linePosition := s.linePosition - 1, lineCurpos := e.cursor - 1 }
      (by simp only; omega)
    obtain ⟨stored, hwritten, hstored⟩ := @deleteByte_written
      { s with linePosition := s.linePosition - 1, lineCurpos := e.cursor - 1 }
    have hinside : forall i, i ∈ stored -> i < cmdSize := by
      intro i hi
      have hi' : i ≤ s.linePosition - 1 := hstored i hi
      omega
    simp only [hposition] at hline hwritten ⊢
    have hagrees := h.line
    rw [hposition, hcurpos] at hagrees
    rw [deleteByte_rest, hwritten]
    refine ⟨hagrees.erase (by omega) ?_ ?_ ?_ ?_ hinside, h.history, h.executed⟩
    · intro i hi
      rw [hline, if_neg (by omega), if_neg (by omega)]
    · intro i hi hin
      rw [hline, if_neg (by omega), if_pos (by omega)]
    · rw [hline, if_pos rfl]
    · intro i hi
      rw [hline, if_neg (by omega), if_neg (by omega)]

/-!
## Keys that replace the line
-/

theorem LineAgrees.replace {line : Buffer} {written : List Nat} {n : Nat}
    {text : List UInt8} (hwritten : forall i, i ∈ written -> i < cmdSize)
    (hn : n ≤ cmdSize) (hnonzero : 0 ∉ text) (hshort : text.length < cmdSize)
    (hheld : Held line text) (hclear : ClearFrom line text.length) :
    LineAgrees line text.length text.length (written ++ List.range n) text text.length false where
  position := rfl
  curpos := rfl
  cursor_le := Nat.le_refl _
  short := hshort
  nonzero := hnonzero
  held := hheld
  clear := fun _ => hclear
  written := by
    apply written_append hwritten
    intro i hi
    exact Nat.lt_of_lt_of_le (List.mem_range.mp hi) hn

theorem lineText_of_clear {b : Buffer} {text : List UInt8} (hheld : Held b text)
    (hclear : ClearFrom b text.length) (hnonzero : 0 ∉ text)
    (hshort : text.length < cmdSize) : lineText b = some text :=
  lineText_eq hheld (hclear _ (Nat.le_refl _) hshort) hnonzero hshort

theorem measure_eq {text : List UInt8} (htext : lineText s.line = some text) : s.measure =
      some { s with linePosition := text.length, lineCurpos := text.length } := by
  unfold FinshShell.measure
  rw [htext]
  rfl

theorem overwrite_line (b : Buffer) (n i : Nat) :
    (s.overwrite b n).line i = if i < n then b i else s.line i := rfl

theorem agrees_recall (h : Agrees cfg s e) (hindex : index < e.history.length) :
    exists s', s.recall index = some s' ∧ Agrees cfg s' (e.recall index) := by
  obtain ⟨text, htext⟩ : exists text, e.history[index]? = some text :=
    ⟨_, List.getElem?_eq_getElem hindex⟩
  obtain ⟨hnonzero, hshort⟩ := h.history.entries text (List.mem_of_getElem? htext)
  have hrecalled : e.history.getD index [] = text := by
    rw [List.getD_eq_getElem?_getD, htext]
    rfl
  generalize hnew : FinshShell.overwrite { s with currentHistory := index }
    (s.cmdHistory index) cmdSize = new
  have hline (i : Nat) (hi : i < cmdSize) : new.line i = (text[i]?).getD 0 := by
    rw [← hnew, overwrite_line, if_pos hi, h.history.rows index text htext]
  have hheld : Held new.line text := by
    intro i hi
    rw [hline i (by omega), List.getElem?_eq_getElem hi]
    rfl
  have hclear : ClearFrom new.line text.length := by
    intro i hi hsize
    rw [hline i hsize, List.getElem?_eq_none hi]
    rfl
  refine ⟨{ new with linePosition := text.length, lineCurpos := text.length }, ?_, ?_⟩
  · unfold FinshShell.recall
    rw [hnew]
    exact measure_eq (lineText_of_clear hheld hclear hnonzero hshort)
  · unfold Editor.recall
    rw [hrecalled]
    subst hnew
    refine ⟨LineAgrees.replace h.line.written (Nat.le_refl _) hnonzero hshort hheld hclear,
      ?_, h.executed⟩
    exact { h.history with current := rfl, index_le := Nat.le_of_lt hindex }

theorem agrees_complete (h : Agrees cfg s e) (hclean : e.discarded = false) :
    exists s', tabKey cfg s msh = some s' ∧ Agrees cfg s' (e.apply cfg msh .complete) := by
  have hagrees := h.line
  have htext :=
    lineText_of_clear hagrees.held (hagrees.clear hclean) hagrees.nonzero hagrees.short
  have hlonger := (cfg.completion.isExtension msh e.text).length_le
  have hshort := cfg.completion.short msh e.text hagrees.short
  have hnonzero := cfg.completion.nonzero msh e.text hagrees.nonzero
  generalize hname : cfg.completion.complete msh e.text = name at *
  generalize hnew : s.overwrite (fun i => name.getD i 0) name.length = new
  have hheld : Held new.line name := by
    intro i hi
    rw [← hnew, overwrite_line, if_pos hi, List.getD_eq_getElem?_getD,
      List.getElem?_eq_getElem hi]
    rfl
  have hclear : ClearFrom new.line name.length := by
    intro i hi hsize
    rw [← hnew, overwrite_line, if_neg (by omega)]
    exact hagrees.clear hclean i (by omega) hsize
  refine ⟨{ new with linePosition := name.length, lineCurpos := name.length }, ?_, ?_⟩
  · unfold tabKey
    rw [htext]
    simp only [hname, hnew]
    exact measure_eq (lineText_of_clear hheld hclear hnonzero hshort)
  · subst hnew
    simp only [Editor.apply, hname, hclean]
    exact ⟨LineAgrees.replace hagrees.written (by omega) hnonzero hshort hheld hclear,
      h.history, h.executed⟩

theorem agrees_up (h : Agrees cfg s e) :
    exists s', upKey cfg s = some s' ∧ Agrees cfg s' (e.apply cfg msh .up) := by
  have hindex := h.history.index_le
  have hcurrent := h.history.current
  unfold upKey
  simp only [Editor.apply]
  by_cases husing : cfg.usingHistory
  · by_cases hpos : 0 < e.current
    · rw [if_pos husing, if_pos (by omega), if_pos ⟨husing, hpos⟩, hcurrent]
      exact agrees_recall h (by omega)
    · rw [if_pos husing, if_neg (by omega), if_neg (by tauto)]
      refine ⟨_, rfl, h.line, { h.history with current := ?_ }, h.executed⟩
      simp only
      omega
  · rw [if_neg husing, if_neg (by tauto)]
    exact ⟨s, rfl, h⟩

theorem agrees_down (h : Agrees cfg s e) :
    exists s', downKey cfg s = some s' ∧ Agrees cfg s' (e.apply cfg msh .down) := by
  have hcount := h.history.count
  have hcurrent := h.history.current
  unfold downKey
  simp only [Editor.apply]
  by_cases husing : cfg.usingHistory
  · by_cases hnil : e.history = []
    · have hzero : e.history.length = 0 := by rw [hnil]; rfl
      rw [if_pos husing, if_neg (by omega), if_neg (by omega), if_neg (by tauto)]
      exact ⟨s, rfl, h⟩
    · have hpos : 0 < e.history.length := List.length_pos_iff.mpr hnil
      rw [if_pos husing, if_pos (show _ ∧ _ from ⟨husing, hnil⟩)]
      by_cases hnext : s.currentHistory + 1 < s.historyCount
      · rw [if_pos hnext, Nat.min_eq_left (by omega), hcurrent]
        exact agrees_recall h (by omega)
      · rw [if_neg hnext, if_pos (by omega), Nat.min_eq_right (by omega), hcount]
        exact agrees_recall h (by omega)
  · rw [if_neg husing, if_neg (by tauto)]
    exact ⟨s, rfl, h⟩

/-!
## The end of the line
-/

theorem historyRow_eq (h : Agrees cfg s e) (i : Nat) : s.historyRow i = (e.text[i]?).getD 0 := by
  unfold FinshShell.historyRow
  by_cases hi : i < s.linePosition
  · rw [if_pos hi, h.line.held i (by rw [← h.line.position]; exact hi)]
    rfl
  · rw [if_neg hi, List.getElem?_eq_none (by rw [← h.line.position]; omega)]
    rfl

theorem HistoryAgrees.at_end (h : HistoryAgrees lines rows count current history index) :
    HistoryAgrees lines rows count count history history.length :=
  { h with current := h.count, index_le := Nat.le_refl _ }

theorem HistoryAgrees.shift {text : List UInt8} {row : Buffer}
    (h : HistoryAgrees lines rows count current history index)
    (hrow : forall i, row i = (text[i]?).getD 0) (hnonzero : 0 ∉ text)
    (hshort : text.length < cmdSize) (hlines : 0 < lines) (hfull : history.length ≥ lines) :
    HistoryAgrees lines
      (fun r => if r < lines - 1 then rows (r + 1) else if r = lines - 1 then row else rows r)
      lines lines (history.tail ++ [text]) (history.tail ++ [text]).length := by
  have hle := h.count_le
  have hlength : (history.tail ++ [text]).length = lines := by
    rw [List.length_append, List.length_tail, List.length_singleton]
    omega
  have htail : history.tail.length = lines - 1 := by
    rw [List.length_tail]
    omega
  constructor
  case count => exact hlength.symm
  case current => exact hlength.symm
  case count_le => exact Nat.le_of_eq hlength
  case index_le => exact Nat.le_refl _
  case entries =>
    intro t ht
    rcases List.mem_append.mp ht with hold | hnew
    · exact h.entries t (List.mem_of_mem_tail hold)
    · rw [List.mem_singleton] at hnew
      subst hnew
      exact ⟨hnonzero, hshort⟩
  case rows =>
    intro r t ht i
    by_cases hr : r < lines - 1
    · rw [List.getElem?_append_left (by omega), List.getElem?_tail] at ht
      simp only [if_pos hr]
      exact h.rows (r + 1) t ht i
    · rw [List.getElem?_append_right (by omega)] at ht
      have hlast : r = lines - 1 := by
        have hlt := (List.getElem?_eq_some_iff.mp ht).1
        rw [List.length_singleton] at hlt
        omega
      rw [hlast, htail, Nat.sub_self, List.getElem?_cons_zero, Option.some.injEq] at ht
      subst ht
      simp only [if_neg hr, if_pos hlast]
      exact hrow i

theorem HistoryAgrees.extend {text : List UInt8} {row : Buffer}
    (h : HistoryAgrees lines rows count current history index)
    (hrow : forall i, row i = (text[i]?).getD 0) (hnonzero : 0 ∉ text)
    (hshort : text.length < cmdSize) (hroom : history.length < lines) :
    HistoryAgrees lines (update rows count row) (count + 1) (count + 1)
      (history ++ [text]) (history ++ [text]).length := by
  have hcount := h.count
  have hlength : (history ++ [text]).length = count + 1 := by
    rw [List.length_append, List.length_singleton]
    omega
  constructor
  case count => exact hlength.symm
  case current => exact hlength.symm
  case count_le => omega
  case index_le => exact Nat.le_refl _
  case entries =>
    intro t ht
    rcases List.mem_append.mp ht with hold | hnew
    · exact h.entries t hold
    · rw [List.mem_singleton] at hnew
      subst hnew
      exact ⟨hnonzero, hshort⟩
  case rows =>
    intro r t ht i
    by_cases hr : r < history.length
    · rw [List.getElem?_append_left hr] at ht
      rw [update_of_ne (by omega)]
      exact h.rows r t ht i
    · rw [List.getElem?_append_right (by omega)] at ht
      have hlast : r = count := by
        have hlt := (List.getElem?_eq_some_iff.mp ht).1
        rw [List.length_singleton] at hlt
        omega
      rw [hlast, hcount, Nat.sub_self, List.getElem?_cons_zero, Option.some.injEq] at ht
      subst ht
      rw [hlast, update_self]
      exact hrow i

theorem agrees_push (h : Agrees cfg s e) :
    Agrees cfg (shellPushHistory cfg s) (e.remember cfg.historyLines) := by
  have hposition := h.line.position
  have hcount := h.history.count
  have hempty : s.linePosition ≠ 0 <-> e.text ≠ [] := by
    rw [hposition, ne_eq, List.length_eq_zero_iff]
  unfold shellPushHistory Editor.remember
  by_cases hnil : e.text = []
  · rw [if_neg (by simpa [hempty] using hnil), if_pos hnil]
    exact ⟨h.line, h.history.at_end, h.executed⟩
  · rw [if_pos (hempty.mpr hnil), if_neg hnil]
    by_cases hfull : e.history.length ≥ cfg.historyLines
    · rw [if_pos (by omega), if_pos hfull]
      exact ⟨h.line, h.history.shift (historyRow_eq h) h.line.nonzero h.line.short
        cfg.lines_pos hfull, h.executed⟩
    · rw [if_neg (by omega), if_neg hfull]
      exact ⟨h.line, h.history.extend (historyRow_eq h) h.line.nonzero h.line.short
        (by omega), h.executed⟩

theorem lineText_semicolon (h : Agrees cfg s e) (hclean : e.discarded = false)
    (hroom : e.text.length + 1 < cmdSize) :
    lineText (s.store s.linePosition semicolon).line = some (e.text ++ [semicolon]) := by
  have hposition := h.line.position
  have hlength : (e.text ++ [semicolon]).length = e.text.length + 1 := by simp
  have hline (i : Nat) : (s.store s.linePosition semicolon).line i =
      if i = e.text.length then semicolon else s.line i := by
    rw [← hposition]
    exact update_apply _ _ _ _
  apply lineText_eq
  · intro i hi
    rw [hlength] at hi
    rw [hline]
    by_cases hlast : i = e.text.length
    · rw [if_pos hlast, hlast, List.getElem?_concat_length]
    · rw [if_neg hlast, List.getElem?_append_left (by omega)]
      exact h.line.held i (by omega)
  · rw [hlength, hline, if_neg (by omega)]
    exact h.line.clear hclean _ (by omega) hroom
  · intro hzero
    rcases List.mem_append.mp hzero with hold | hnew
    · exact h.line.nonzero hold
    · exact absurd hnew (by decide)
  · omega

theorem runLine_executed (h : Agrees cfg s e) (hok : KeyOk msh e .enter) :
    (runLine s msh).executed = (e.handOver msh).executed.map some := by
  unfold runLine Editor.handOver
  unfold KeyOk at hok
  cases msh with
  | true =>
    have hclean : e.discarded = false := hok
    simp only [if_true, List.map_append, List.map_cons, List.map_nil, h.executed]
    rw [lineText_of_clear h.line.held (h.line.clear hclean) h.line.nonzero h.line.short]
  | false =>
    simp only [Bool.false_eq_true, if_false]
    have hposition : (s.store s.linePosition semicolon).linePosition = e.text.length :=
      h.line.position
    by_cases hnil : e.text = []
    · have hzero : e.text.length = 0 := by rw [hnil]; rfl
      rw [if_neg (by omega), if_pos hnil]
      exact h.executed
    · have hpos : 0 < e.text.length := List.length_pos_iff.mpr hnil
      obtain ⟨hclean, hroom⟩ := hok hnil
      rw [if_pos (by omega), if_neg hnil, lineText_semicolon h hclean hroom]
      simp only [List.map_append, List.map_cons, List.map_nil]
      exact congrArg (· ++ _) h.executed

theorem runLine_rest : exists stored, runLine s msh = { s with
        line := (runLine s msh).line
        written := s.written ++ stored
        executed := (runLine s msh).executed } ∧
      forall i, i ∈ stored -> i = s.linePosition := by
  unfold runLine FinshShell.store
  cases msh with
  | true => exact ⟨[], by simp, by simp⟩
  | false =>
    refine ⟨[s.linePosition], ?_, by simp⟩
    simp only [Bool.false_eq_true, if_false]
    split <;> rfl

theorem agrees_handOver (h : Agrees cfg s e) (hok : KeyOk msh e .enter) : Agrees cfg
      { (runLine s msh).overwrite (fun _ => 0) cmdSize with
        linePosition := 0, lineCurpos := 0 }
      { e.handOver msh with text := [], cursor := 0, discarded := false } := by
  have hexecuted := runLine_executed h hok
  obtain ⟨stored, hrest, hstored⟩ := @runLine_rest s msh
  have hposition := h.line.position
  have hshort := h.line.short
  rw [hrest]
  refine ⟨lineAgrees_nil ?_ ?_, h.history, hexecuted⟩
  · apply written_append
    · apply written_append h.line.written
      intro i hi
      have hi' := hstored i hi
      omega
    · intro i hi
      exact List.mem_range.mp hi
  · intro _ i _ hsize
    rw [overwrite_line, if_pos hsize]

theorem agrees_enter (h : Agrees cfg s e) (hok : KeyOk msh e .enter) :
    Agrees cfg (enterKey cfg s msh) (e.apply cfg msh .enter) := by
  unfold enterKey
  simp only [Editor.apply]
  by_cases husing : cfg.usingHistory
  · rw [if_pos husing, if_pos husing]
    exact agrees_handOver (agrees_push h) hok
  · rw [if_neg husing, if_neg husing]
    exact agrees_handOver h hok

end Keys

end RtThread.Finsh.Shell
