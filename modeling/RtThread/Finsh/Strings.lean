import RtThread.Finsh.HeapBlocks
import RtThread.Finsh.Node

/-!
# Strings of the current line

A string node points to a block of the heap, and so may a variable. The collector knows the
variables only: it releases the strings of the tree that is being built unless some variable has
the address. Strings survive while requests are met without a collection, or while the collector
finds every live block.
-/

namespace RtThread.Finsh

open Chain Tiling Transition

/-- The shell, and the pointers of the string nodes that were made for the current
line. -/
structure Line where
  shell : Shell
  strings : List Nat

/-- What happens to nodes, variables and the heap while lines are parsed and run. Variables
are declared, deleted, and stored to. -/
inductive LineOp where
  | newString (string : List Char)
  | newNode (type : NodeType)
  | setVariables (globalVariable : List FinshVar)
  | flush
deriving DecidableEq, Repr

/-- `finsh_node_new_string` up to the copy of the string; a null pointer is zero. -/
def stringNode (s : Shell) (string : List Char) : Option (Tree × Shell) :=
  match finshNodeAllocate s NodeType.valueString with
  | (none, s) => some (Tree.null, finshErrorSet s FinshError.memoryFull)
  | (some node, s) =>
    (finshHeapAllocate (held s) s.heap (string.length + 1)).map fun r =>
      (Tree.node { node with value := r.1.getD 0 } Tree.null Tree.null, { s with heap := r.2 })

def pointer : Tree -> List Nat
  | Tree.null => []
  | Tree.node info _ _ => if info.value = 0 then [] else [info.value]

def lineStep (s : Line) : LineOp -> Option Line
  | LineOp.newString string =>
    if string.length < finshStringMax then
      (stringNode s.shell string).map fun r =>
        ⟨r.2, s.strings ++ pointer r.1⟩
    else none
  | LineOp.newNode type => some { s with shell := (finshNodeAllocate s.shell type).2 }
  | LineOp.setVariables vs => some { s with shell := { s.shell with globalVariable := vs } }
  | LineOp.flush => some ⟨finshFlush s.shell, []⟩

/-- The addresses that the tree and the variables with a type have. -/
def references (s : Line) : List Nat :=
  s.strings ++ ((s.shell.globalVariable.filter fun v => v.type ≠ FinshType.unknown).map
    FinshVar.value)

def pointsInto (h : FinshHeap) (x p : Nat) : Bool :=
  x + headerSize ≤ p ∧ p < x + headerSize + h.length x

/-- The allocated blocks that the tree or a variable points into. -/
def liveBlocks (s : Line) : List Nat :=
  (walk s.shell.heap finshHeapMax s.shell.heap.allocateList).filter fun x =>
    (references s).any (pointsInto s.shell.heap x)

/-- A free block satisfies the search before a collection. -/
def RoomFor (h : FinshHeap) (size : Nat) : Prop :=
  exists x, x ∈ walk h finshHeapMax h.freeList ∧
    heapAlignSize size + headerSize < h.length x

instance (h : FinshHeap) (size : Nat) : Decidable (RoomFor h size) :=
  inferInstanceAs (Decidable (exists x, x ∈ _ ∧ _))

/-- A string node that is made finds room, or every live block has a variable with its
address. -/
def Spared (s : Line) : LineOp -> Prop
  | LineOp.newString string => s.shell.nodes < finshNodeMax ->
      RoomFor s.shell.heap (string.length + 1) ∨
        forall x, x ∈ liveBlocks s -> held s.shell (x + headerSize) = true
  | _ => True

instance (s : Line) (op : LineOp) : Decidable (Spared s op) :=
  match op with
  | LineOp.newString _ => inferInstanceAs (Decidable (_ -> _))
  | LineOp.newNode _ => isTrue trivial
  | LineOp.setVariables _ => isTrue trivial
  | LineOp.flush => isTrue trivial

/-- The strings of the tree are different allocated blocks. -/
structure Distinct (heap : Nat) (s : Line) (l : List Block) : Prop where
  heaped : Heaped heap s.shell.heap l
  allocated : forall p, p ∈ s.strings -> exists x, x ∈ starts true l ∧
    p = x + headerSize ∧ 0 < s.shell.heap.length x
  nodup : s.strings.Nodup

section Strings

variable {heap size : Nat} {h : FinshHeap} {s s' : Line} {l : List Block}
  {string : List Char}

theorem roomFor_iff (hh : Heaped heap h l) : RoomFor h size <-> Roomy h l size := by
  unfold RoomFor Roomy
  rw [walk_eq hh.free hh.starts_lt]

theorem mem_liveBlocks (hh : Heaped heap s.shell.heap l) {x : Nat} :
    x ∈ liveBlocks s <-> x ∈ starts true l ∧
      exists p, p ∈ references s ∧ pointsInto s.shell.heap x p = true := by
  unfold liveBlocks
  rw [walk_eq hh.allocate hh.starts_lt, List.mem_filter, List.any_eq_true]

theorem newString_spec (hh : Heaped heap s.shell.heap l) (hlen : string.length < finshStringMax) :
    exists s' l' new kept, lineStep s (LineOp.newString string) = some s' ∧
      Heaped heap s'.shell.heap l' ∧ s'.strings = s.strings ++ new ∧
      (kept = starts true l ∨
        (s.shell.nodes < finshNodeMax ∧ ¬Roomy s.shell.heap l (string.length + 1) ∧
          kept = (starts true l).filter fun x => held s.shell (x + headerSize))) ∧
      (forall x, x ∈ kept -> x ∈ starts true l' ∧
        s'.shell.heap.length x = s.shell.heap.length x ∧ x + headerSize ∉ new) ∧
      (forall p, p ∈ new -> exists x, x ∈ starts true l' ∧ p = x + headerSize ∧
        0 < s'.shell.heap.length x) ∧ new.Nodup := by
  simp only [lineStep, if_pos hlen]
  unfold stringNode finshNodeAllocate
  by_cases hnodes : s.shell.nodes < finshNodeMax
  · simp only [if_pos hnodes]
    rcases finshHeapAllocate_spec (held s.shell) (string.length + 1) hh with
      ⟨r, h', l', kept, hrun, hh', hkept, hlength, hres⟩
    have hheld : held { s.shell with nodes := s.shell.nodes + 1 } = held s.shell := rfl
    simp only [hheld, hrun, Option.map_some]
    have hkept' : kept = starts true l ∨ (s.shell.nodes < finshNodeMax ∧
        ¬Roomy s.shell.heap l (string.length + 1) ∧
          kept = (starts true l).filter fun x => held s.shell (x + headerSize)) := by
      rcases hkept with ⟨_, heq⟩ | ⟨hfull, heq⟩
      · exact Or.inl heq
      · exact Or.inr ⟨hnodes, hfull, heq⟩
    rcases hres with ⟨hnone, hall⟩ | ⟨x, hsome, ⟨t, t', hcut, hall⟩, hsize⟩
    · subst hnone
      refine ⟨_, l', [], kept, rfl, hh', ?_, hkept', ?_, by simp, List.nodup_nil⟩
      · simp [pointer]
      · intro y hy
        exact ⟨hall ▸ hy, hlength y hy, by simp⟩
    · subst hsome
      have hpos : x + headerSize ≠ 0 := by
        unfold headerSize
        omega
      refine ⟨_, l', [x + headerSize], kept, rfl, hh', ?_, hkept', ?_, ?_,
        List.nodup_singleton _⟩
      · show s.strings ++ (if x + headerSize = 0 then [] else [x + headerSize]) = _
        rw [if_neg hpos]
      · intro y hy
        have hmem : y ∈ starts true l' := by
          rw [hcut] at hy
          rw [hall]
          rcases List.mem_append.mp hy with hin | hin
          · exact List.mem_append_left _ hin
          · exact List.mem_append_right _ (List.mem_cons_of_mem _ hin)
        refine ⟨hmem, hlength y hy, ?_⟩
        have hnodup := starts_nodup (u := true) hh'.tiles
        rw [hall] at hnodup
        have hnot : x ∉ kept := hcut ▸ (List.nodup_cons.mp (List.nodup_middle.mp hnodup)).left
        rw [List.mem_singleton, Nat.add_right_cancel_iff]
        rintro rfl
        exact hnot hy
      · intro p hp
        rw [List.mem_singleton] at hp
        refine ⟨x, by rw [hall]; simp, hp, ?_⟩
        show 0 < h'.length x
        omega
  · simp only [if_neg hnodes, Option.map_some]
    refine ⟨_, l, [], starts true l, rfl, hh, by simp [pointer], Or.inl rfl, ?_, by simp,
      List.nodup_nil⟩
    intro x hx
    exact ⟨hx, rfl, by simp⟩

theorem Distinct.string_live {p : Nat} (hd : Distinct heap s l) (hp : p ∈ s.strings) :
    exists x, x ∈ liveBlocks s ∧ p = x + headerSize := by
  rcases hd.allocated p hp with ⟨x, hx, heq, hpos⟩
  refine ⟨x, (mem_liveBlocks hd.heaped).mpr ⟨hx, p, List.mem_append_left _ hp, ?_⟩, heq⟩
  unfold pointsInto
  rw [decide_eq_true_eq]
  omega

theorem Distinct.newString (hd : Distinct heap s l) (hok : Spared s (LineOp.newString string))
    (hs : lineStep s (LineOp.newString string) = some s') :
    (exists l', Distinct heap s' l') ∧ forall x, x ∈ liveBlocks s ->
      x ∈ walk s'.shell.heap finshHeapMax s'.shell.heap.allocateList ∧
      s'.shell.heap.length x = s.shell.heap.length x ∧
      forall new, s'.strings = s.strings ++ new -> x + headerSize ∉ new := by
  have hlen : string.length < finshStringMax := by
    by_contra hlong
    simp only [lineStep, if_neg hlong] at hs
    cases hs
  rcases newString_spec hd.heaped hlen with
    ⟨s1, l', new, kept, hrun, hh', hstrings, hkept, hstays, hnew, hnodup⟩
  rw [hs] at hrun
  cases hrun
  have hlive : forall x, x ∈ liveBlocks s -> x ∈ kept := by
    intro x hx
    have hin := ((mem_liveBlocks hd.heaped).mp hx).left
    rcases hkept with heq | ⟨hnodes, hfull, heq⟩
    · rw [heq]
      exact hin
    · rw [heq]
      rcases hok hnodes with hroom | hheld
      · exact absurd ((roomFor_iff hd.heaped).mp hroom) hfull
      · exact List.mem_filter.mpr ⟨hin, hheld x hx⟩
  constructor
  · refine ⟨l', hh', ?_, ?_⟩
    · intro p hp
      rw [hstrings] at hp
      rcases List.mem_append.mp hp with hin | hin
      · rcases hd.string_live hin with ⟨x, hx, heq⟩
        rcases hd.allocated p hin with ⟨y, _, heq', hpos⟩
        have hxy : y = x := by omega
        subst hxy
        have hkeep := hstays y (hlive y hx)
        exact ⟨y, hkeep.left, heq, by rw [hkeep.right.left]; exact hpos⟩
      · exact hnew p hin
    · rw [hstrings, List.nodup_append]
      refine ⟨hd.nodup, hnodup, ?_⟩
      intro p hp q hq heq
      rcases hd.string_live hp with ⟨x, hx, hpx⟩
      rw [← heq, hpx] at hq
      exact (hstays x (hlive x hx)).right.right hq
  · intro x hx
    have hkeep := hstays x (hlive x hx)
    refine ⟨?_, hkeep.right.left, ?_⟩
    · rw [walk_eq hh'.allocate hh'.starts_lt]
      exact hkeep.left
    · intro new' hsame
      rw [hstrings] at hsame
      rw [← List.append_cancel_left hsame]
      exact hkeep.right.right

theorem Distinct.step {op : LineOp} (hd : Distinct heap s l) (hok : Spared s op)
    (hs : lineStep s op = some s') :
    (exists l', Distinct heap s' l') ∧ forall x, x ∈ liveBlocks s ->
      x ∈ walk s'.shell.heap finshHeapMax s'.shell.heap.allocateList ∧
      s'.shell.heap.length x = s.shell.heap.length x ∧
      forall new, s'.strings = s.strings ++ new -> x + headerSize ∉ new := by
  have hsame : forall s' : Line, s'.shell.heap = s.shell.heap ->
      (s'.strings = s.strings ∨ s'.strings = []) ->
      (exists l', Distinct heap s' l') ∧ forall x, x ∈ liveBlocks s ->
        x ∈ walk s'.shell.heap finshHeapMax s'.shell.heap.allocateList ∧
        s'.shell.heap.length x = s.shell.heap.length x ∧
        forall new, s'.strings = s.strings ++ new -> x + headerSize ∉ new := by
    intro s' hheap hstrings
    constructor
    · rcases hstrings with heq | heq
      · exact ⟨l,
          hheap ▸ hd.heaped, by rw [heq, hheap]; exact hd.allocated, heq ▸ hd.nodup⟩
      · exact ⟨l, hheap ▸ hd.heaped, by simp [heq], by simp [heq]⟩
    · intro x hx
      refine ⟨?_, by rw [hheap], ?_⟩
      · rw [hheap]
        exact List.mem_of_mem_filter hx
      · intro new hnew
        have hnil : new = [] := by
          rcases hstrings with heq | heq
          · rw [heq] at hnew
            exact List.self_eq_append_right.mp hnew
          · rw [heq] at hnew
            exact (List.append_eq_nil_iff.mp hnew.symm).right
        rw [hnil]
        simp
  cases op with
  | newString string => exact hd.newString hok hs
  | newNode type =>
    cases hs
    refine hsame _ ?_ (Or.inl rfl)
    show (finshNodeAllocate s.shell type).2.heap = _
    unfold finshNodeAllocate
    split <;> rfl
  | setVariables vs =>
    cases hs
    exact hsame _ rfl (Or.inl rfl)
  | flush =>
    cases hs
    exact hsame _ rfl (Or.inr rfl)

/-- While every string node is spared, the strings of the tree are different allocated
blocks, and no step releases or hands out a block that the tree or a variable points into.
-/
theorem live_strings_kept {ops : List LineOp}
    (hrun : Run (Guarded Spared (Graph lineStep)) ⟨finshInit heap, []⟩ ops s) :
    (forall p, p ∈ s.strings -> exists x, x ∈ liveBlocks s ∧ p = x + headerSize) ∧
      s.strings.Nodup ∧
      (forall string, string.length < finshStringMax ->
        exists s', lineStep s (LineOp.newString string) = some s') ∧
      forall op s', Spared s op -> lineStep s op = some s' -> forall x, x ∈ liveBlocks s ->
        x ∈ walk s'.shell.heap finshHeapMax s'.shell.heap.allocateList ∧
        s'.shell.heap.length x = s.shell.heap.length x ∧
        forall new, s'.strings = s.strings ++ new -> x + headerSize ∉ new := by
  have hinv : exists l, Distinct heap s l := by
    apply hrun.invariant fun s => exists l, Distinct heap s l
    · exact ⟨_, Heaped.init, by simp, List.nodup_nil⟩
    · rintro s op s' ⟨l, hd⟩ hs
      exact (hd.step hs.left hs.right).left
  rcases hinv with ⟨l, hd⟩
  refine ⟨fun p hp => hd.string_live hp, hd.nodup, ?_, ?_⟩
  · intro string hlen
    rcases newString_spec hd.heaped hlen with ⟨s', _, _, _, hs, _⟩
    exact ⟨s', hs⟩
  · intro op s' hok hs
    exact (hd.step hok hs).right

def shortString : LineOp := LineOp.newString ['a']

/-- Nine strings of one character fit into the heap. -/
theorem live_strings_kept_nine :
    exists s, Run (Guarded Spared (Graph lineStep)) ⟨finshInit 4096, []⟩
        (List.replicate 9 shortString) s ∧
      (forall p, p ∈ s.strings -> exists x, x ∈ liveBlocks s ∧ p = x + headerSize) ∧
      s.strings.Nodup ∧
      (forall string, string.length < finshStringMax ->
        exists s', lineStep s (LineOp.newString string) = some s') ∧
      forall op s', Spared s op -> lineStep s op = some s' -> forall x, x ∈ liveBlocks s ->
        x ∈ walk s'.shell.heap finshHeapMax s'.shell.heap.allocateList ∧
        s'.shell.heap.length x = s.shell.heap.length x ∧
        forall new, s'.strings = s.strings ++ new -> x + headerSize ∉ new := by
  have hkept := fun s (hexec : exec (fun s op =>
      if Spared s op then lineStep s op else none) ⟨finshInit 4096, []⟩
      (List.replicate 9 shortString) = some s) =>
    And.intro (guarded_run_of_exec hexec) (live_strings_kept (guarded_run_of_exec hexec))
  exact ⟨_, hkept _ rfl⟩

/-- The tenth string of a line gets the block of the first one. -/
theorem tree_string_reused :
    exists s s', Run (Graph lineStep) ⟨finshInit 4096, []⟩ (List.replicate 9 shortString) s ∧
      lineStep s shortString = some s' ∧ 4104 ∈ s.strings ∧ 4096 ∈ liveBlocks s ∧
      s'.strings = s.strings ++ [4104] ∧
      4108 ∉ walk s'.shell.heap finshHeapMax s'.shell.heap.allocateList ∧
      4108 ∈ liveBlocks s := by
  refine ⟨_, _, run_of_exec rfl, rfl, ?_⟩
  decide +kernel

end Strings

end RtThread.Finsh
