import SqlScript.Text.Padding
import SqlScript.Tree.Traversal

/-!
Reports for reading: tokens in columns, numbered diagnostics, and trees with a line for every node.
-/

namespace SqlScript
open SqlScript.Text

/-! ## Tokens -/

namespace Token

def row (kind lexeme line column : String) : String :=
  " ".intercalate [padRight 14 kind, padRight 30 lexeme, padRight 8 line, padRight 8 column]

def listing (tokens : List Token) : String :=
  "\n".intercalate <|
    [rule '=' 80, "TOKENS", rule '=' 80, row "TYPE" "LEXEME" "LINE" "COLUMN", rule '-' 80] ++
      (tokens.map fun t =>
        row t.kind.name t.lexeme (toString t.position.line) (toString t.position.column)) ++
      [rule '=' 80]

end Token

/-! ## Diagnostics -/

namespace Diagnostic

def coordinate : Option Int → String
  | some n => toString n
  | none => "None"

def text (d : Diagnostic) : String :=
  "[Line " ++ coordinate d.place.line ++ ", Col " ++ coordinate d.place.column ++ "] " ++ d.message

def listing (title : String) (ds : List Diagnostic) : String :=
  if ds.isEmpty then title ++ ": none"
  else
    "\n".intercalate <|
      [rule '=' 80, upper title, rule '=' 80] ++
        (ds.zipIdx 1).map (fun (d, i) => toString i ++ ". " ++ d.text) ++ [rule '=' 80]

end Diagnostic

/-! ## Trees -/

namespace Tree

/-- The kind of a node and its text, if it has one. -/
def Label.caption (l : Label) : String :=
  if l.text = "" then l.kind.name else l.kind.name ++ ": " ++ l.text

/-- The annotations of a node, or nothing. -/
def Label.annotations (l : Label) : String :=
  ", ".intercalate
    (l.dataType.toList.map ("Type: " ++ ·) ++ l.symbolRef.toList.map ("Ref: " ++ ·))

def Label.line (l : Label) : String :=
  if l.annotations = "" then l.caption else l.caption ++ "  [" ++ l.annotations ++ "]"

/-- How a node hangs on its parent. -/
inductive Joint where
  | root
  | middle
  | last
  deriving DecidableEq, Repr

def Joint.text : Joint → String
  | .root => ""
  | .middle => "├─ "
  | .last => "└─ "

def indentation (depth : Nat) : String := rule ' ' (2 * depth)

/-- How the child of a number hangs on a parent of so many children. -/
def Joint.ofChild (children i : Nat) : Joint := if i + 1 = children then .last else .middle

def row (depth : Nat) (joint : Joint) (l : Label) : String :=
  indentation depth ++ joint.text ++ l.line

/-- Puts out a row for every node; the children are pushed from the last to the first, each with its
depth and with how it hangs on its parent. -/
def outlining : Traversal Unit (Nat × Joint) String where
  turn _ t p :=
    ⟨[row p.1 p.2 t.label], (),
      (t.children.zipIdx.map fun (c, i) => (c, p.1 + 1, Joint.ofChild t.children.length i)).reverse⟩
  pushed_perm _ t _ := by
    rw [List.map_reverse, List.map_map]
    exact (List.reverse_perm _).trans (.of_eq (List.zipIdx_map_fst 0 t.children))

/-- The rows of a tree, and nothing where there is none. -/
def outline (root : Option Tree) : String :=
  "\n".intercalate (outlining.run () (root.toList.map (·, 0, .root))).1

end Tree

end SqlScript
