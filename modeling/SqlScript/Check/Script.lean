import SqlScript.Check.Statement

/-!
Checking a tree in two passes: every CREATE statement anywhere in it adds to the catalog, then every
other statement is checked against the whole catalog, so a table may be used before it is created.
-/

namespace SqlScript.Check

def isCreate (kind : Tree.Kind) : Bool := kind == .createStatement

def isQuery (kind : Tree.Kind) : Bool := kind.isStatement && kind != .createStatement

/-- The catalog and the findings of the CREATE statements, one after the other. -/
def register (catalog : Catalog) : List (Tree.Path × Tree) → Catalog × Findings
  | [] => (catalog, .none)
  | (path, t) :: more =>
    let (catalog, own) := create catalog t
    let (catalog, later) := register catalog more
    (catalog, own.below path ++ later)

def created (t : Tree) : Catalog × Findings := register .empty (t.locate isCreate)

def catalog (t : Tree) : Catalog := (created t).1

/-- The findings on the statements other than CREATE. -/
def queried (catalog : Catalog) (t : Tree) : Findings :=
  .join ((t.locate isQuery).map fun (path, s) => (statement catalog s).below path)

def findings (t : Tree) : Findings := (created t).2 ++ queried (catalog t) t

structure Analysis where
  tree : Tree
  catalog : Catalog
  diagnostics : List Diagnostic

def analyze (t : Tree) : Analysis :=
  let found := findings t
  ⟨annotate found.marks t, catalog t, found.diagnostics⟩

end SqlScript.Check
