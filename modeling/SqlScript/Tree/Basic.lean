import SqlScript.Token.Basic
import SqlScript.Text.Quoted

/-!
Trees of scripts: every node has a kind, a text and a place, and two annotations that the checker
fills in. `find?` and `findAll` look among the children of a node, `walk` lists a tree in pre-order.
-/

namespace SqlScript

inductive Tree.Kind where
  | program
  | createStatement
  | selectStatement
  | insertStatement
  | updateStatement
  | deleteStatement
  | fieldList
  | fieldDefinition
  | selectList
  | valueList
  | assignmentList
  | assignment
  | whereClause
  | orderClause
  | condition
  | identifier
  | type
  | number
  | string
  | operator
  | delimiter
  | keyword
  | booleanLiteral
  | error
  deriving DecidableEq, Repr

namespace Tree.Kind

def name : Kind → String
  | program => "Program"
  | createStatement => "CreateStatement"
  | selectStatement => "SelectStatement"
  | insertStatement => "InsertStatement"
  | updateStatement => "UpdateStatement"
  | deleteStatement => "DeleteStatement"
  | fieldList => "FieldList"
  | fieldDefinition => "FieldDefinition"
  | selectList => "SelectList"
  | valueList => "ValueList"
  | assignmentList => "AssignmentList"
  | assignment => "Assignment"
  | whereClause => "WhereClause"
  | orderClause => "OrderClause"
  | condition => "Condition"
  | identifier => "Identifier"
  | type => "Type"
  | number => "Number"
  | string => "String"
  | operator => "Operator"
  | delimiter => "Delimiter"
  | keyword => "Keyword"
  | booleanLiteral => "BooleanLiteral"
  | error => "Error"

def all : List Kind :=
  [program, createStatement, selectStatement, insertStatement, updateStatement, deleteStatement,
    fieldList, fieldDefinition, selectList, valueList, assignmentList, assignment, whereClause,
    orderClause, condition, identifier, type, number, string, operator, delimiter, keyword,
    booleanLiteral, error]

def ofName? (name : String) : Option Kind := all.find? (·.name == name)

theorem ofName?_name (k : Kind) : ofName? k.name = some k := by
  cases k <;> rfl

def isStatement : Kind → Bool
  | createStatement | selectStatement | insertStatement | updateStatement | deleteStatement => true
  | _ => false

end Tree.Kind

structure Tree.Label where
  kind : Tree.Kind
  text : String
  place : Place
  dataType : Option String
  symbolRef : Option String
  deriving DecidableEq, Repr

inductive Tree where
  | node (label : Tree.Label) (children : List Tree)

/-- A child's number at each step down from a root. -/
abbrev Tree.Path := List Nat

namespace Tree

namespace Label

def plain (kind : Kind) (text : String) (place : Place) : Label := ⟨kind, text, place, none, none⟩

/-- A new type replaces the old one; a reference stays until another is given. -/
def annotate (l : Label) (dataType symbolRef : Option String) : Label :=
  { l with dataType := dataType, symbolRef := symbolRef <|> l.symbolRef }

/-- The kind, with the text in quotes if there is one. -/
def summary (l : Label) : String :=
  if l.text = "" then l.kind.name else l.kind.name ++ "(" ++ Text.quoted l.text ++ ")"

end Label

def label : Tree → Label
  | node l _ => l

def children : Tree → List Tree
  | node _ cs => cs

def kind (t : Tree) : Kind := t.label.kind

def text (t : Tree) : String := t.label.text

def place (t : Tree) : Place := t.label.place

@[simp] theorem label_node (l : Label) (cs : List Tree) : (node l cs).label = l := rfl

@[simp] theorem children_node (l : Label) (cs : List Tree) : (node l cs).children = cs := rfl

def plain (kind : Kind) (text : String) (place : Place) (children : List Tree) : Tree :=
  node (.plain kind text place) children

/-- The node of one token. -/
def leaf (kind : Kind) (t : Token) : Tree := plain kind t.lexeme t.place []

/-! ## Children -/

/-- The first child of a kind, with its number. -/
def find? (t : Tree) (kind : Kind) : Option (Nat × Tree) :=
  (t.children.zipIdx.find? fun c => c.1.kind == kind).map fun c => (c.2, c.1)

/-- The children of a kind, with their numbers. -/
def findAll (t : Tree) (kind : Kind) : List (Nat × Tree) :=
  (t.children.zipIdx.filter fun c => c.1.kind == kind).map fun c => (c.2, c.1)

/-! ## Descent -/

def get? : Path → Tree → Option Tree
  | [], t => some t
  | i :: path, node _ cs =>
    match cs[i]? with
    | some c => get? path c
    | none => none

/-- Replaces the tree at a path, if there is one. -/
def update (f : Tree → Tree) : Path → Tree → Tree
  | [], t => f t
  | i :: path, node l cs => node l (cs.modify i (update f path))

def relabel (f : Label → Label) : Tree → Tree
  | node l cs => node (f l) cs

/-- Adds a last child. -/
def add (t child : Tree) : Tree := node t.label (t.children ++ [child])

mutual

/-- The tree and all below it, each before its children and these from left to right. -/
def walk : Tree → List Tree
  | node l cs => node l cs :: walkAll cs

def walkAll : List Tree → List Tree
  | [] => []
  | t :: ts => walk t ++ walkAll ts

end

theorem walkAll_eq_flatMap (ts : List Tree) : walkAll ts = ts.flatMap walk := by
  induction ts with
  | nil => rfl
  | cons t ts ih => simp [walkAll, ih]

theorem walk_eq (t : Tree) : t.walk = t :: t.children.flatMap walk := by
  cases t
  simp [walk, walkAll_eq_flatMap]

mutual

/-- The number of nodes. -/
def size : Tree → Nat
  | node _ cs => sizeAll cs + 1

def sizeAll : List Tree → Nat
  | [] => 0
  | t :: ts => size t + sizeAll ts

end

mutual

theorem length_walk : (t : Tree) → t.walk.length = t.size
  | node _ cs => by simp [walk, size, length_walkAll cs]

theorem length_walkAll : (ts : List Tree) → (walkAll ts).length = sizeAll ts
  | [] => rfl
  | t :: ts => by simp [walkAll, sizeAll, length_walk t, length_walkAll ts]

end

mutual

/-- The nodes of some kinds, in the order of `walk`, with their paths. -/
def locate (p : Kind → Bool) : Tree → List (Path × Tree)
  | node l cs => (if p l.kind then [([], node l cs)] else []) ++ locateAll p 0 cs

/-- The same for siblings, of which the first has the number `i`. -/
def locateAll (p : Kind → Bool) (i : Nat) : List Tree → List (Path × Tree)
  | [] => []
  | t :: ts => (locate p t).map (fun x => (i :: x.1, x.2)) ++ locateAll p (i + 1) ts

end

mutual

theorem map_snd_locate (p : Kind → Bool) :
    (t : Tree) → (locate p t).map (·.2) = t.walk.filter fun u => p u.kind
  | node l cs => by
    have h := map_snd_locateAll p 0 cs
    by_cases hk : p l.kind <;> simp [locate, walk, kind, hk, h]

theorem map_snd_locateAll (p : Kind → Bool) (i : Nat) :
    (ts : List Tree) → (locateAll p i ts).map (·.2) = (walkAll ts).filter fun u => p u.kind
  | [] => rfl
  | t :: ts => by
    have h := map_snd_locate p t
    have hs := map_snd_locateAll p (i + 1) ts
    simp [locateAll, walkAll, Function.comp_def, h, hs]

end

mutual

/-- The tree with every label changed by `f`. -/
def map (f : Label → Label) : Tree → Tree
  | node l cs => node (f l) (mapAll f cs)

def mapAll (f : Label → Label) : List Tree → List Tree
  | [] => []
  | t :: ts => map f t :: mapAll f ts

end

theorem mapAll_eq_map (f : Label → Label) (ts : List Tree) : mapAll f ts = ts.map (map f) := by
  induction ts with
  | nil => rfl
  | cons t ts ih => simp [mapAll, ih]

/-! ## Equality -/

mutual

def decEq : (a b : Tree) → Decidable (a = b)
  | node l cs, node m ds =>
    if hl : l = m then
      match decEqAll cs ds with
      | isTrue h => isTrue (by rw [hl, h])
      | isFalse h => isFalse fun e => h (by injection e)
    else isFalse fun e => hl (by injection e)

def decEqAll : (a b : List Tree) → Decidable (a = b)
  | [], [] => isTrue rfl
  | [], _ :: _ => isFalse nofun
  | _ :: _, [] => isFalse nofun
  | a :: as, b :: bs =>
    match decEq a b with
    | isTrue h =>
      match decEqAll as bs with
      | isTrue h' => isTrue (by rw [h, h'])
      | isFalse h' => isFalse fun e => h' (by injection e)
    | isFalse h => isFalse fun e => h (by injection e)

end

instance : DecidableEq Tree := decEq

instance : Inhabited Tree := ⟨plain .program "" ⟨none, none⟩ []⟩

end Tree

end SqlScript
