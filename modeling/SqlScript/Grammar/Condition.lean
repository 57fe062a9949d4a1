import SqlScript.Grammar.Rule

/-!
Conditions, from the loosest binding to the tightest: OR, AND, NOT, one comparison, terms. Only NOT
and parentheses nest; each takes one level of the room that the caller gives.
-/

namespace SqlScript.Grammar
open SqlScript.Text

/-- The signs and words that compare two terms. -/
def relationalOperators : List String := ["=", "<>", "!=", "<", ">", "<=", ">=", "LIKE"]

def isRelational (t : Token) : Bool :=
  (t.kind == .operator && relationalOperators.contains t.lexeme) || t.isKeyword "LIKE"

/-- Two operands, at the place of the operator between them. -/
def binary (left : Tree) (op : Token) (right : Tree) : Tree :=
  Tree.plain .condition (upper op.lexeme) op.place [left, Tree.leaf .operator op, right]

def negated (op : Token) (operand : Tree) : Tree :=
  Tree.plain .condition "NOT" op.place [Tree.leaf .operator op, operand]

/-- The kind of leaf that a token makes where a value is wanted, if it can stand there alone. -/
def termKind? (t : Token) : Option Tree.Kind :=
  match t.kind with
  | .identifier => some .identifier
  | .number => some .number
  | .string => some .string
  | .keyword =>
    if t.isKeyword "NULL" then some .keyword
    else if t.isKeyword "TRUE" || t.isKeyword "FALSE" then some .booleanLiteral
    else none
  | _ => none

def termLeaf? (t : Token) : Option Tree := (termKind? t).map (Tree.leaf · t)

/-- A value, a name, or a condition in parentheses; `inner` reads what stands between them. -/
def termOver (inner : Unit → Rule Tree) : Rule Tree := do
  match ← Rule.take? termLeaf? with
  | some leaf => return leaf
  | none =>
    let _ ← Rule.expect (·.isDelimiter "(") "expression (identifier, value, or parenthesis)"
    let tree ← inner ()
    let _ ← Rule.expect (·.isDelimiter ")") "')' after expression"
    return tree

/-- At most one comparison. -/
def comparisonOver (inner : Unit → Rule Tree) : Rule Tree := do
  let left ← termOver inner
  match ← Rule.accept isRelational with
  | some op => return binary left op (← termOver inner)
  | none => return left

def conjunctionOver (negation : Rule Tree) : Rule Tree :=
  Rule.joined (·.isKeyword "AND") binary negation

def conditionOver (negation : Rule Tree) : Rule Tree :=
  Rule.joined (·.isKeyword "OR") binary (conjunctionOver negation)

/-- NOT before a negation, or a comparison; `deeper` reads a negation one level down. -/
def negationOver (deeper : Unit → Rule Tree) : Rule Tree := do
  match ← Rule.accept (·.isKeyword "NOT") with
  | some op => return negated op (← deeper ())
  | none => comparisonOver fun _ => conditionOver (deeper ())

/-- A negation with room for as many levels below it. Without room NOT and parentheses are refused
after their first token. -/
def negation : (room : Nat) → Rule Tree
  | 0 => negationOver fun _ => Rule.refuse .tooDeep
  | room + 1 => negationOver fun _ => negation room

/-- A negation on the level below, if there is room for one. -/
def deeperNegation (room : Nat) : Rule Tree :=
  match room with
  | 0 => Rule.refuse .tooDeep
  | room + 1 => negation room

theorem negation_eq (room : Nat) : negation room = negationOver fun _ => deeperNegation room := by
  cases room <;> rfl

def conjunction (room : Nat) : Rule Tree := conjunctionOver (negation room)

def condition (room : Nat) : Rule Tree := conditionOver (negation room)

def comparison (room : Nat) : Rule Tree :=
  comparisonOver fun _ => conditionOver (deeperNegation room)

def term (room : Nat) : Rule Tree := termOver fun _ => conditionOver (deeperNegation room)

end SqlScript.Grammar
