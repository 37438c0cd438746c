import RtThread.Finsh.ShellKeys

/-!
# The shell refines the line editor

A read of the shell handles the key that the editor's decoder finds there, so that the
two agree along every run whose reads meet the condition, and every text handed over is
the editor's.
-/

namespace RtThread.Finsh.Shell

open Transition

section Keys

variable {cfg : Config} {s : FinshShell} {e : Editor} {msh : Bool}

/-!
## One read
-/

def keyStep (cfg : Config) (s : FinshShell) (msh : Bool) : Key -> Option FinshShell
  | .insert ch => some (insertKey s ch)
  | .backspace => some (backspaceKey s)
  | .left => some (leftKey s)
  | .right => some (rightKey s)
  | .up => upKey cfg s
  | .down => downKey cfg s
  | .complete => tabKey cfg s msh
  | .enter => some (enterKey cfg s msh)

variable {key : Key} {s' : FinshShell} {ch : UInt8} {d : Decoder}

theorem agrees_key (h : Agrees cfg s e) (hok : KeyOk msh e key) :
    exists s', keyStep cfg s msh key = some s' ∧ Agrees cfg s' (e.apply cfg msh key) := by
  cases key with
  | insert ch => exact ⟨_, rfl, agrees_insert h hok⟩
  | backspace => exact ⟨_, rfl, agrees_backspace h⟩
  | left => exact ⟨_, rfl, agrees_left h⟩
  | right => exact ⟨_, rfl, agrees_right h⟩
  | up => exact agrees_up h
  | down => exact agrees_down h
  | complete => exact agrees_complete h hok
  | enter => exact ⟨_, rfl, agrees_enter h hok⟩

def FinshShell.setMode (s : FinshShell) (d : Decoder) : FinshShell :=
  { s with
    stat :=
      match d with
      | .escaped => .waitSpecKey
      | .function => .waitFuncKey
      | _ => .waitNormal
    inReturn := decide (d = .returned) }

def SameMode (s s' : FinshShell) : Prop := s'.stat = s.stat ∧ s'.inReturn = s.inReturn

theorem measure_mode (h : s.measure = some s') : SameMode s s' := by
  unfold FinshShell.measure at h
  rw [Option.map_eq_some_iff] at h
  obtain ⟨text, _, rfl⟩ := h
  exact ⟨rfl, rfl⟩

theorem recall_mode {index : Nat} (h : s.recall index = some s') : SameMode s s' := by
  have hmode := @measure_mode (FinshShell.overwrite { s with currentHistory := index }
    (s.cmdHistory index) cmdSize) s' h
  exact ⟨hmode.1, hmode.2⟩

theorem upKey_mode (h : upKey cfg s = some s') : SameMode s s' := by
  unfold upKey at h
  split at h
  · split at h
    · exact recall_mode h
    · cases h
      exact ⟨rfl, rfl⟩
  · cases h
    exact ⟨rfl, rfl⟩

theorem downKey_mode (h : downKey cfg s = some s') : SameMode s s' := by
  unfold downKey at h
  split at h
  · split at h
    · exact recall_mode h
    · split at h
      · exact recall_mode h
      · cases h
        exact ⟨rfl, rfl⟩
  · cases h
    exact ⟨rfl, rfl⟩

theorem tabKey_mode (h : tabKey cfg s msh = some s') : SameMode s s' := by
  unfold tabKey at h
  split at h
  · cases h
  · have hmode := @measure_mode (s.overwrite _ _) s' h
    exact ⟨hmode.1, hmode.2⟩

theorem enterKey_mode : SameMode s (enterKey cfg s msh) := by
  have hpush : SameMode s (shellPushHistory cfg s) := by
    unfold shellPushHistory
    split
    · split <;> exact ⟨rfl, rfl⟩
    · exact ⟨rfl, rfl⟩
  have hrun (t : FinshShell) : SameMode t (runLine t msh) := by
    obtain ⟨stored, hrest, _⟩ := @runLine_rest t msh
    rw [hrest]
    exact ⟨rfl, rfl⟩
  unfold enterKey
  split
  · exact ⟨(hrun _).1.trans hpush.1, (hrun _).2.trans hpush.2⟩
  · exact hrun s

theorem insertKey_mode : SameMode s (insertKey s ch) := by
  unfold insertKey
  simp only
  rw [insertByte_rest]
  split <;> split <;> exact ⟨rfl, rfl⟩

theorem backspaceKey_mode : SameMode s (backspaceKey s) := by
  unfold backspaceKey
  split
  · exact ⟨rfl, rfl⟩
  · rw [deleteByte_rest]
    exact ⟨rfl, rfl⟩

theorem keyStep_mode (h : keyStep cfg s msh key = some s') : SameMode s s' := by
  cases key with
  | insert ch =>
    cases h
    exact insertKey_mode
  | backspace =>
    cases h
    exact backspaceKey_mode
  | left =>
    cases h
    rw [leftKey_eq]
    exact ⟨rfl, rfl⟩
  | right =>
    cases h
    unfold rightKey
    split <;> exact ⟨rfl, rfl⟩
  | up => exact upKey_mode h
  | down => exact downKey_mode h
  | complete => exact tabKey_mode h
  | enter =>
    cases h
    exact enterKey_mode

def perform (cfg : Config) (s : FinshShell) (msh : Bool) :
    Decoder × List Key -> Option FinshShell
  | (d, []) => some (s.setMode d)
  | (d, key :: _) => keyStep cfg (s.setMode d) msh key

theorem handleByte_eq :
    handleByte cfg (s.setMode .normal) ch msh = perform cfg s msh (plainKey ch) := by
  unfold handleByte plainKey endOrInsert
  split
  · rfl
  · next hreturn =>
      split
      · rfl
      · split
        · rfl
        · by_cases hnewline : ch = newline
          · rw [if_pos (Or.inr hnewline), if_pos hnewline]
            rfl
          · rw [if_neg (by tauto), if_neg hnewline]
            rfl

theorem receive_eq (hd : d ≠ .returned) :
    receive cfg (s.setMode d) ch msh = perform cfg s msh (byteKey d ch) := by
  unfold receive byteKey
  by_cases hescape : ch = escape
  · rw [if_pos hescape, if_pos hescape]
    cases d with
    | returned => exact absurd rfl hd
    | _ => rfl
  · rw [if_neg hescape, if_neg hescape]
    cases d with
    | normal => exact handleByte_eq
    | escaped =>
      change (if ch = 0x5b then _ else handleByte cfg (s.setMode .normal) ch msh) = _
      simp only
      split
      · rfl
      · exact handleByte_eq
    | function =>
      change (if ch = 0x41 then upKey cfg (s.setMode .normal)
        else if ch = 0x42 then downKey cfg (s.setMode .normal)
        else if ch = 0x44 then some (leftKey (s.setMode .normal))
        else if ch = 0x43 then some (rightKey (s.setMode .normal))
        else handleByte cfg (s.setMode .normal) ch msh) = _
      simp only
      split
      · rfl
      · split
        · rfl
        · split
          · rfl
          · split
            · rfl
            · exact handleByte_eq
    | returned => exact absurd rfl hd

theorem finshThreadEntry_eq {input : Input}
    (hreturn : d = .returned -> forall ch, ch ∈ input.read -> ch = carriageReturn ∨
      ch = newline) :
    finshThreadEntry cfg (s.setMode d) input = perform cfg s input.msh (decode d input.read) := by
  by_cases hd : d = .returned
  · subst hd
    have hends : forall ch, ch = carriageReturn ∨ ch = newline ->
        endOrInsert cfg (s.setMode .normal) ch input.msh =
          enterKey cfg (s.setMode .normal) input.msh := by
      intro ch hch
      unfold endOrInsert
      rw [if_pos hch]
    change some (endOrInsert cfg (s.setMode .normal) (input.read.getD carriageReturn) input.msh) = _
    cases hread : input.read with
    | none =>
      rw [Option.getD_none, hends _ (Or.inl rfl)]
      rfl
    | some ch =>
      have hch := hreturn rfl ch (Option.mem_def.mpr hread)
      rw [Option.getD_some, hends ch hch, decode, if_pos hch]
      rfl
  · have hnot : (s.setMode d).inReturn = false := decide_eq_false hd
    unfold finshThreadEntry
    rw [if_neg (by rw [hnot]; decide)]
    cases hread : input.read with
    | none => cases d <;> first | exact absurd rfl hd | rfl
    | some ch =>
      have hdecode : decode d (some ch) = byteKey d ch := by
        cases d <;> first | exact absurd rfl hd | rfl
      rw [hdecode]
      exact receive_eq hd

/-- The shell stands for the editor, its decoder included. -/
structure Linked (cfg : Config) (s : FinshShell) (e : Editor) : Prop where
  agrees : Agrees cfg s e
  mode : s = s.setMode e.decoder

theorem Agrees.setMode (h : Agrees cfg s e) : Agrees cfg (s.setMode d) { e with decoder := d } :=
  ⟨h.line, h.history, h.executed⟩

theorem setMode_eq_of_same (h : SameMode (s.setMode d) s') : s' = s'.setMode d := by
  cases s'
  obtain ⟨hstat, hreturn⟩ := h
  simp only at hstat hreturn
  rw [hstat, hreturn]
  rfl

theorem apply_decoder : (e.apply cfg msh key).decoder = e.decoder := by
  cases key with
  | insert ch =>
    simp only [Editor.apply]
    split <;> rfl
  | backspace =>
    simp only [Editor.apply]
    split <;> rfl
  | left => rfl
  | right => rfl
  | up =>
    simp only [Editor.apply]
    split <;> rfl
  | down =>
    simp only [Editor.apply]
    split <;> rfl
  | complete => rfl
  | enter =>
    simp only [Editor.apply]
    split <;> rfl

theorem plainKey_length (ch : UInt8) : (plainKey ch).2.length ≤ 1 := by
  unfold plainKey
  repeat' split
  all_goals simp

theorem byteKey_length (d : Decoder) (ch : UInt8) : (byteKey d ch).2.length ≤ 1 := by
  unfold byteKey
  repeat' split
  all_goals first | exact plainKey_length ch | simp

theorem decode_length {read : Option UInt8} (hreturn : d = .returned -> forall ch, ch ∈ read ->
      ch = carriageReturn ∨ ch = newline) :
    (decode d read).2.length ≤ 1 := by
  unfold decode
  split
  · simp
  · next ch => simp [hreturn rfl ch rfl]
  · simp
  · exact byteKey_length _ _

theorem Linked.step {input : Input} (h : Linked cfg s e) (hok : ReadOk e input) :
    exists s', finshThreadEntry cfg s input = some s' ∧ Linked cfg s' (e.step cfg input) := by
  obtain ⟨hreturn, hkeys⟩ := hok
  have hentry := @finshThreadEntry_eq cfg s e.decoder input hreturn
  rw [← h.mode] at hentry
  have hlength := decode_length hreturn
  unfold Editor.step
  rw [hentry]
  rcases hdecode : decode e.decoder input.read with ⟨d, keys⟩
  rw [hdecode] at hkeys hlength
  match keys with
  | [] => exact ⟨_, rfl, h.agrees.setMode, rfl⟩
  | [key] =>
    have hok : KeyOk input.msh { e with decoder := d } key := by
      have hkey := hkeys key List.mem_cons_self
      cases key <;> exact hkey
    obtain ⟨s', hstep, hagrees⟩ := agrees_key (h.agrees.setMode (d := d)) hok
    refine ⟨s', hstep, hagrees, ?_⟩
    change s' = s'.setMode (Editor.apply cfg input.msh { e with decoder := d } key).decoder
    rw [apply_decoder]
    exact setMode_eq_of_same (keyStep_mode hstep)
  | _ :: _ :: _ => simp at hlength

end Keys

/-!
## Runs
-/

theorem bootShell_linked (cfg : Config) : Linked cfg bootShell Editor.start where
  agrees :=
    { line := lineAgrees_nil (fun i hi => by cases hi) (fun _ i _ _ => rfl)
      history :=
        { count := rfl
          current := rfl
          count_le := Nat.zero_le _
          index_le := Nat.le_refl _
          entries := fun text htext => by cases htext
          rows := fun r text htext => by cases htext }
      executed := rfl }
  mode := rfl

theorem Linked.run {cfg : Config} {s : FinshShell} {e : Editor} {inputs : List Input}
    (h : Linked cfg s e) (hok : AllOk cfg e inputs) :
    exists s', exec (finshThreadEntry cfg) s inputs = some s' ∧
      Linked cfg s' (inputs.foldl (Editor.step cfg) e) := by
  induction inputs generalizing s e with
  | nil => exact ⟨s, rfl, h⟩
  | cons input rest ih =>
    obtain ⟨s1, hstep, hlinked⟩ := h.step hok.1
    obtain ⟨s2, hexec, hfinal⟩ := ih hlinked hok.2
    refine ⟨s2, ?_, hfinal⟩
    rw [exec, hstep]
    exact hexec

/-- After any reads that meet the condition the cursor is inside the text and the text
shorter than the line, every store was inside the line, and the texts handed over are those
of the editor, each ending inside the line. -/
theorem shell_refines_editor (cfg : Config) (inputs : List Input)
    (hok : AllOk cfg Editor.start inputs) :
    exists s, exec (finshThreadEntry cfg) bootShell inputs = some s ∧
      s.lineCurpos ≤ s.linePosition ∧ s.linePosition < cmdSize ∧
        (forall i, i ∈ s.written -> i < cmdSize) ∧
          s.executed =
            (inputs.foldl (Editor.step cfg) Editor.start).executed.map some := by
  obtain ⟨s, hexec, hlinked⟩ := (bootShell_linked cfg).run hok
  have hline := hlinked.agrees.line
  refine ⟨s, hexec, ?_, ?_, hline.written, hlinked.agrees.executed⟩
  · rw [hline.curpos, hline.position]
    exact hline.cursor_le
  · rw [hline.position]
    exact hline.short

def sampleConfig : Config where
  usingHistory := true
  historyLines := 5
  lines_pos := by decide
  lines_lt := by decide
  completion :=
    { complete := fun _ text => text
      isExtension := fun _ text => List.prefix_rfl
      nonzero := fun _ _ h => h
      short := fun _ _ h => h }

def typed (bytes : List UInt8) : List Input :=
  bytes.map fun ch => { read := some ch, msh := false }

/-- `abc`, the left key, a backspace and the end of the line; then the up key and the
end of the line. -/
def editedInputs : List Input :=
  typed [0x61, 0x62, 0x63, 0x1b, 0x5b, 0x44, 0x7f, 0x0a, 0x1b, 0x5b, 0x41, 0x0a]

theorem shell_refines_editor_edited :
    AllOk sampleConfig Editor.start editedInputs ∧
      exists s, exec (finshThreadEntry sampleConfig) bootShell editedInputs = some s ∧
        s.executed = [some [0x61, 0x63, semicolon], some [0x61, 0x63, semicolon]] := by
  have hok : AllOk sampleConfig Editor.start editedInputs := by decide +kernel
  obtain ⟨s, hexec, _, _, _, hexecuted⟩ :=
    shell_refines_editor sampleConfig editedInputs hok
  refine ⟨hok, s, hexec, ?_⟩
  rw [hexecuted]
  decide +kernel

def overlongInputs : List Input :=
  typed (List.replicate 80 0x78 ++ [0x61, 0x62])

/-- The parser reads `ab;` and goes on with the discarded line, which has no end inside
the buffer. -/
theorem overlong_line_follows :
    (exec (finshThreadEntry sampleConfig) bootShell overlongInputs).map
        (fun s => (List.range 6).map (s.store s.linePosition semicolon).line) =
      some [0x61, 0x62, semicolon, 0x78, 0x78, 0x78] ∧
    (exec (finshThreadEntry sampleConfig) bootShell
        (overlongInputs ++ typed [newline])).map FinshShell.executed = some [none] ∧
    ((overlongInputs ++ typed [newline]).foldl (Editor.step sampleConfig)
        Editor.start).executed = [[0x61, 0x62, semicolon]] := by
  decide +kernel

end RtThread.Finsh.Shell
