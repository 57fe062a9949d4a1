import SqlScript.Compile
import SqlScript.Text.Padding
import SqlScript.Tree.Traversal

/-!
A compilation as JSON, two spaces an indentation and in ASCII only.
-/

namespace SqlScript
open SqlScript.Text

inductive Json where
  | null
  | bool (b : Bool)
  | number (n : Int)
  | string (s : String)
  | array (items : List Json)
  | object (fields : List (String × Json))

namespace Json

/-! ## Text -/

def unit (n : Nat) : List Char := '\\' :: 'u' :: hex 4 n

/-- A character by its number in UTF-16. -/
def units (c : Char) : List Char :=
  let n := c.toNat
  if n < 0x10000 then unit n
  else unit (0xD800 + (n - 0x10000) / 0x400) ++ unit (0xDC00 + (n - 0x10000) % 0x400)

def escape (c : Char) : List Char :=
  if c = '"' then ['\\', '"']
  else if c = '\\' then ['\\', '\\']
  else if c = '\n' then ['\\', 'n']
  else if c = '\r' then ['\\', 'r']
  else if c = '\t' then ['\\', 't']
  else if c = '\x08' then ['\\', 'b']
  else if c = '\x0c' then ['\\', 'f']
  else if 32 ≤ c.toNat && c.toNat < 127 then [c]
  else units c

def quote (s : String) : String := String.ofList ('"' :: s.toList.flatMap escape ++ ['"'])

/-! ## Layout -/

def newline (depth : Nat) : String := "\n" ++ rule ' ' (2 * depth)

/-- What closes a list: on a line of its own, unless the list is empty. -/
def closing (depth : Nat) (empty : Bool) (bracket : String) : String :=
  if empty then bracket else newline depth ++ bracket

mutual

/-- Writes a value behind `out`; its items stand on lines of their own, one step further in. -/
def write (depth : Nat) (out : String) : Json → String
  | null => out ++ "null"
  | bool b => out ++ (if b then "true" else "false")
  | number n => out ++ toString n
  | string s => out ++ quote s
  | array items => writeItems (depth + 1) "" (out ++ "[") items ++ closing depth items.isEmpty "]"
  | object fields =>
    writeFields (depth + 1) "" (out ++ "\x7b") fields ++ closing depth fields.isEmpty "\x7d"

def writeItems (depth : Nat) (comma out : String) : List Json → String
  | [] => out
  | item :: items => writeItems depth "," (write depth (out ++ comma ++ newline depth) item) items

def writeFields (depth : Nat) (comma out : String) : List (String × Json) → String
  | [] => out
  | (key, value) :: fields =>
    writeFields depth ","
      (write depth (out ++ comma ++ newline depth ++ quote key ++ ": ") value) fields

end

def text (j : Json) : String := write 0 "" j

def opt {α : Type} (f : α → Json) (x : Option α) : Json := (x.map f).getD null

end Json

/-! ## Values -/

def Token.json (t : Token) : Json :=
  .object [
    ("type", .string t.kind.name), ("lexeme", .string t.lexeme),
    ("line", .number t.position.line), ("column", .number t.position.column)]

def Diagnostic.json (d : Diagnostic) : Json :=
  .object [
    ("line", .opt .number d.place.line), ("column", .opt .number d.place.column),
    ("message", .string d.message)]

def Column.json (c : Column) : Json :=
  .object [("name", .string c.name), ("dataType", .string c.dataType)]

def Table.json (t : Table) : Json :=
  .object [("name", .string t.name), ("columns", .array (t.columns.map Column.json))]

def Catalog.json (c : Catalog) : Json := .array (c.tables.map Table.json)

namespace Tree

def Label.json (l : Label) (children : List Json) : Json :=
  .object [
    ("kind", .string l.kind.name), ("lexeme", .string l.text),
    ("line", .opt .number l.place.line), ("column", .opt .number l.place.column),
    ("dataType", .opt .string l.dataType), ("symbolRef", .opt .string l.symbolRef),
    ("children", .array children)]

/-- The record of a node, in which children are named by the addresses of theirs. -/
structure Entry where
  label : Label
  children : List Nat
  deriving DecidableEq, Repr

/-- A new record for a child of the node at an address. -/
def adopt (parent : Nat) (entries : Array Entry) (child : Tree) : Array Entry :=
  (entries.modify parent fun e => { e with children := e.children ++ [entries.size] }).push
    ⟨child.label, []⟩

/-- Makes the records of all children of a node and pushes each child with the address of its own. -/
def filling : Traversal (Array Entry) Nat Empty where
  turn entries t address :=
    ⟨[], t.children.foldl (adopt address) entries, t.children.zipIdx entries.size⟩
  pushed_perm entries t _ := .of_eq (List.zipIdx_map_fst entries.size t.children)

/-- The records of a tree, that of its root at the address 0. -/
def entries (t : Tree) : Array Entry := (filling.run #[⟨t.label, []⟩] [(t, 0)]).2

/-- The value of the record at an address, if its children are found down to a depth. -/
def readEntry (entries : Array Entry) : (depth address : Nat) → Option Json
  | 0, _ => none
  | depth + 1, address => do
    let e ← entries[address]?
    return e.label.json (← e.children.mapM (readEntry entries depth))

def json (t : Tree) : Json := (readEntry t.entries t.entries.size 0).getD .null

end Tree

def Compiled.json (c : Compiled) : Json :=
  .object [
    ("tokens", .array (c.tokens.map Token.json)),
    ("tree", c.tree.json),
    ("syntaxErrors", .array (c.syntaxErrors.map Diagnostic.json)),
    ("symbolTable", c.catalog.json),
    ("semanticErrors", .array (c.semanticErrors.map Diagnostic.json)),
    ("annotatedTree", c.tree.json),
    ("hasSemanticErrors", .bool c.hasSemanticErrors)]

end SqlScript
