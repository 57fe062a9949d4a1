import SqlScript.Check.Walk
import SqlScript.Proofs.Check.Annotate

/-!
The check of a condition with a stack finds what a check by recursion finds.
-/

namespace SqlScript.Check
open SqlScript.Grammar

/-! ## Findings on parts of parts -/

namespace Findings

@[simp] theorem below_nil (f : Findings) : f.below [] = f := by
  simp [below]

theorem below_append (path : Tree.Path) (a b : Findings) :
    (a ++ b).below path = a.below path ++ b.below path := by
  obtain ⟨marks, ds⟩ := a
  exact congrArg (Findings.mk · _) (List.map_append ..)

theorem below_below (path more : Tree.Path) (f : Findings) :
    (f.below more).below path = f.below (path ++ more) := by
  simp [below]

end Findings

/-! ## The stack -/

/-- What a check by recursion finds in the nodes on a stack. -/
def found (table : Table) (stack : List (Tree.Path × Tree)) : Findings :=
  .join (stack.map fun x => (expression table x.2).findings.below x.1)

variable (table : Table)

theorem found_cons (path : Tree.Path) (t : Tree) (stack : List (Tree.Path × Tree)) :
    found table ((path, t) :: stack) =
      (expression table t).findings.below path ++ found table stack := rfl

theorem found_append (stack more : List (Tree.Path × Tree)) :
    found table (stack ++ more) = found table stack ++ found table more := by
  induction stack with
  | nil => rfl
  | cons x stack ih => rw [List.cons_append, found_cons, found_cons, ih, Findings.append_assoc]

theorem expression_of_not_condition {t : Tree} (h : t.kind ≠ .condition) :
    expression table t = leafTyping table t := by
  obtain ⟨l, cs⟩ := t
  have hl : l.kind ≠ .condition := h
  rw [expression, leafTyping]
  cases hk : l.kind <;> simp_all [Tree.kind, Tree.text]

/-- The operands are found by recursion as if they lay on the stack. -/
theorem found_operandsFrom (path : Tree.Path) (i : Nat) (children : List Tree) :
    found table (operandsFrom path i children) =
      (operandFindings i children (children.map (expression table))).below path := by
  induction children generalizing i with
  | nil => rfl
  | cons child children ih =>
    rw [operandsFrom, List.map_cons, operandFindings, Findings.below_append, ← ih]
    split
    · rfl
    · rw [found_cons, Findings.under, Findings.below_below]

/-- Where a node is no comparison, its operands are checked; then its type does not hang on them. -/
theorem conditionFindings_eq (l : Tree.Label) (cs : List Tree) :
    conditionFindings l cs (cs.map (expression table)) =
      match comparison? (.node l cs) with
      | some (left, op, right) =>
        comparisonFindings (expression table left) op (expression table right)
      | none => operandFindings 0 cs (cs.map (expression table)) := by
  match cs with
  | [] | [_] | [_, _] | _ :: _ :: _ :: _ :: _ => rfl
  | [left, op, right] =>
    have hsides : comparison? (.node l [left, op, right]) =
        if relationalOperators.contains l.text then some (left, op, right) else none := rfl
    rw [hsides, List.map_cons, List.map_cons, List.map_cons, List.map_nil, conditionFindings]
    cases relationalOperators.contains l.text <;> rfl

theorem expression_of_condition {t : Tree} (h : t.kind = .condition) :
    expression table t =
      ⟨DataType.boolean, .mark DataType.boolean none ++
        match comparison? t with
        | some (left, op, right) =>
          comparisonFindings (expression table left) op (expression table right)
        | none => operandFindings 0 t.children (t.children.map (expression table))⟩ := by
  obtain ⟨l, cs⟩ := t
  have hl : l.kind = .condition := h
  rw [Tree.children_node, ← conditionFindings_eq, ← expressions_eq_map, expression, hl]

/-- What is found with the stack is what is found by recursion, whatever lies on it. -/
theorem walk_recursion :
    (∀ t, infer table t = expression table t) ∧ ∀ stack, walk table stack = found table stack := by
  apply infer.mutual_induct (fun t => infer table t = expression table t)
    (fun stack => walk table stack = found table stack)
  case case1 =>
    intro t h hwalk
    rw [infer, if_pos h, hwalk, found_cons, Findings.below_nil, expression_of_condition table h]
    exact congrArg _ (Findings.append_none _)
  case case2 =>
    intro t h
    rw [infer, if_neg h, expression_of_not_condition table h]
  case case3 => rw [walk]; rfl
  case case4 =>
    intro path t stack h hstack
    rw [walk, if_pos h, hstack, found_cons, expression_of_not_condition table h]
  case case5 =>
    intro path t stack h left op right hsides hleft hright hstack
    rw [walk, if_neg h, found_cons, expression_of_condition table (not_not.1 h), hsides]
    simp only [hleft, hright, hstack]
  case case6 =>
    intro path t stack h hsides hstack
    rw [walk, if_neg h, found_cons, expression_of_condition table (not_not.1 h), hsides]
    simp only [hstack, found_append, found_operandsFrom, Findings.below_append,
      Findings.append_assoc]

@[simp] theorem infer_eq_expression (t : Tree) : infer table t = expression table t :=
  (walk_recursion table).1 t

end SqlScript.Check
