import SqlScript.Text.Casing

/-!
Tables and the catalog of them. Names are looked up in lower case and kept as they were written; a
table is never changed or removed.
-/

namespace SqlScript
open SqlScript.Text

structure Column where
  name : String
  dataType : String
  deriving DecidableEq, Repr

structure Table where
  name : String
  columns : List Column
  deriving DecidableEq, Repr

namespace Table

/-- The first column of that name. -/
def column? (t : Table) (name : String) : Option Column :=
  t.columns.find? fun c => lower c.name == lower name

def hasColumn (t : Table) (name : String) : Bool := (t.column? name).isSome

def columnType? (t : Table) (name : String) : Option String := (t.column? name).map (·.dataType)

/-- The first column whose name one of the columns before it, or `seen`, has already. -/
def repeatedFrom (seen : List String) : List Column → Option Column
  | [] => none
  | c :: cs => if seen.contains (lower c.name) then some c else repeatedFrom (lower c.name :: seen) cs

def repeatedColumn? (t : Table) : Option Column := repeatedFrom [] t.columns

/-- What is said of a name that two columns of a table have. -/
def repeatedMessage (table column : String) : String :=
  "Duplicate column '" ++ column ++ "' in table '" ++ table ++ "'"

end Table

/-- Tables under their names in lower case, in the order in which they were added. -/
structure Catalog where
  entries : List (String × Table)
  deriving DecidableEq, Repr

/-- What comes of adding a table. -/
inductive Addition where
  | added (catalog : Catalog)
  | nameTaken
  | repeatedColumn (table : Table) (column : Column)
  deriving DecidableEq, Repr

namespace Catalog

def empty : Catalog := ⟨[]⟩

def tables (c : Catalog) : List Table := c.entries.map (·.2)

def size (c : Catalog) : Nat := c.entries.length

def table? (c : Catalog) (name : String) : Option Table := c.entries.lookup (lower name)

def hasTable (c : Catalog) (name : String) : Bool := (c.table? name).isSome

def hasColumn (c : Catalog) (table column : String) : Bool :=
  (c.table? table).any (·.hasColumn column)

def columnType? (c : Catalog) (table column : String) : Option String :=
  (c.table? table).bind (·.columnType? column)

/-- A name that is taken is refused before the columns are looked at. -/
def add (c : Catalog) (t : Table) : Addition :=
  if c.hasTable t.name then .nameTaken
  else match t.repeatedColumn? with
    | some column => .repeatedColumn t column
    | none => .added ⟨c.entries ++ [(lower t.name, t)]⟩

/-- The catalog after adding a table; a refused table changes nothing. -/
def insert (c : Catalog) (t : Table) : Catalog :=
  match c.add t with
  | .added c' => c'
  | _ => c

end Catalog

end SqlScript
