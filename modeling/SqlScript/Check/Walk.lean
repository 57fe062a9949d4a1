import SqlScript.Check.Expression

/-!
The check of a condition with a stack of the parts that are still to be checked. Chains of AND and
OR are as deep as they are long, so their operands go on the stack; a comparison asks for the types
of its two sides.
-/

namespace SqlScript.Check

def leafTyping (table : Table) (t : Tree) : Typing :=
  if t.kind = .identifier then columnTyping table t.label
  else ⟨literalType t.kind t.text, .mark (literalType t.kind t.text) none⟩

def comparison? (t : Tree) : Option (Tree × Tree × Tree) :=
  match t.children with
  | [left, op, right] =>
    if Grammar.relationalOperators.contains t.text then some (left, op, right) else none
  | _ => none

/-- The operands of a node at `path`, with their own paths; `i` is the number of the first child. -/
def operandsFrom (path : Tree.Path) (i : Nat) : List Tree → List (Tree.Path × Tree)
  | [] => []
  | child :: children =>
    let later := operandsFrom path (i + 1) children
    if child.kind = .operator then later else (path ++ [i], child) :: later

def pending : List (Tree.Path × Tree) → Nat
  | [] => 0
  | (_, t) :: stack => t.size + pending stack

theorem pending_append (stack more : List (Tree.Path × Tree)) :
    pending (stack ++ more) = pending stack + pending more := by
  induction stack with
  | nil => simp [pending]
  | cons x stack ih => simp [pending, ih, Nat.add_assoc]

theorem pending_operandsFrom (path : Tree.Path) (i : Nat) (children : List Tree) :
    pending (operandsFrom path i children) ≤ Tree.sizeAll children := by
  induction children generalizing i with
  | nil => exact Nat.le_refl 0
  | cons child children ih =>
    have hlater := ih (i + 1)
    rw [operandsFrom, Tree.sizeAll]
    split
    · omega
    · rw [pending]
      omega

theorem size_eq (t : Tree) : t.size = Tree.sizeAll t.children + 1 := by
  cases t
  rw [Tree.size, Tree.children_node]

theorem size_of_comparison? {t left op right : Tree} (h : comparison? t = some (left, op, right)) :
    left.size < t.size ∧ right.size < t.size := by
  unfold comparison? at h
  split at h
  · rename_i hchildren
    split at h
    · cases h
      simp only [size_eq t, hchildren, Tree.sizeAll]
      omega
    · cases h
  · cases h

mutual

/-- The type of an expression; what is found in a condition is found by walking it. -/
def infer (table : Table) (t : Tree) : Typing :=
  if t.kind = .condition then ⟨DataType.boolean, walk table [([], t)]⟩ else leafTyping table t
termination_by 2 * t.size + 1
decreasing_by
  simp only [pending]
  omega

/-- What is found in the nodes on the stack, of which the first is on top. -/
def walk (table : Table) : List (Tree.Path × Tree) → Findings
  | [] => .none
  | (path, t) :: stack =>
    if t.kind ≠ .condition then (leafTyping table t).findings.below path ++ walk table stack
    else
      let marked := Findings.mark DataType.boolean none
      match _ : comparison? t with
      | some (left, op, right) =>
        (marked ++ comparisonFindings (infer table left) op (infer table right)).below path ++
          walk table stack
      | none => marked.below path ++ walk table (operandsFrom path 0 t.children ++ stack)
termination_by stack => 2 * pending stack
decreasing_by
  all_goals
    have := size_eq t
    simp only [pending, pending_append]
  · omega
  · have := size_of_comparison? ‹_›
    omega
  · have := size_of_comparison? ‹_›
    omega
  · omega
  · have := pending_operandsFrom path 0 t.children
    omega

end

end SqlScript.Check
