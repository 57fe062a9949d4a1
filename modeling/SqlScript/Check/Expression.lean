import SqlScript.Catalog.Basic
import SqlScript.Check.Finding
import SqlScript.Grammar.Condition

/-!
The type of an expression over the columns of one table. A name that is no column is reported and
has the unknown type, which goes with every other; so it causes no second report.
-/

namespace SqlScript.Check
open SqlScript.Text

/-- The type of a leaf that names no column. -/
def literalType (kind : Tree.Kind) (text : String) : String :=
  match kind with
  | .number => DataType.ofNumber text
  | .string => DataType.text
  | .booleanLiteral => DataType.boolean
  | .keyword => if upper text = "NULL" then DataType.null else DataType.unknown
  | _ => DataType.unknown

/-- The type of an expression and what was found in it. -/
structure Typing where
  dataType : String
  findings : Findings

def missingColumn (table : Table) (name : String) : String :=
  "Column '" ++ name ++ "' does not exist in table '" ++ table.name ++ "'"

def columnTyping (table : Table) (l : Tree.Label) : Typing :=
  match table.column? l.text with
  | some c => ⟨c.dataType, .mark c.dataType (some (table.name ++ "." ++ c.name))⟩
  | none => ⟨DataType.unknown,
      .mark DataType.unknown none ++ .report l.place (missingColumn table l.text)⟩

def cannotCompare (left right : String) : String :=
  "Type mismatch in WHERE clause. Cannot compare " ++ left ++ " with " ++ right

/-- A comparison blames its operator. -/
def comparisonFindings (left : Typing) (op : Tree) (right : Typing) : Findings :=
  left.findings.under 0 ++ right.findings.under 2 ++
    if DataType.compatible left.dataType right.dataType then .none
    else .report op.place (cannotCompare left.dataType right.dataType)

/-- The operands of AND, OR and NOT are all but the operator; `i` is the number of the first child. -/
def operandFindings (i : Nat) : List Tree → List Typing → Findings
  | child :: children, typing :: typings =>
    (if child.kind = .operator then .none else typing.findings.under i) ++
      operandFindings (i + 1) children typings
  | _, _ => .none

def conditionFindings (l : Tree.Label) (children : List Tree) (typings : List Typing) : Findings :=
  match children, typings with
  | [_, op, _], [left, _, right] =>
    if Grammar.relationalOperators.contains l.text then comparisonFindings left op right
    else operandFindings 0 children typings
  | _, _ => operandFindings 0 children typings

mutual

/-- The check by recursion on the tree, against which the one with a stack is read. -/
def expression (table : Table) : Tree → Typing
  | .node l cs =>
    match l.kind with
    | .identifier => columnTyping table l
    | .condition => ⟨DataType.boolean,
        .mark DataType.boolean none ++ conditionFindings l cs (expressions table cs)⟩
    | kind => ⟨literalType kind l.text, .mark (literalType kind l.text) none⟩

def expressions (table : Table) : List Tree → List Typing
  | [] => []
  | t :: ts => expression table t :: expressions table ts

end

theorem expressions_eq_map (table : Table) (ts : List Tree) :
    expressions table ts = ts.map (expression table) := by
  induction ts with
  | nil => rfl
  | cons t ts ih => simp [expressions, ih]

end SqlScript.Check
