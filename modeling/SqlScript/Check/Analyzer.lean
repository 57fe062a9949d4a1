import SqlScript.Check.Script

/-!
The checker at work. What is found in one statement is written into the tree before the next one is
looked at, and the catalog and the diagnostics are kept until another tree is given.
-/

namespace SqlScript.Check

structure Analyzer where
  catalog : Catalog
  diagnostics : List Diagnostic
  deriving DecidableEq, Repr

/-- A tree with the marks that it has by now, and what the checker knows by now. -/
structure Work where
  tree : Tree
  analyzer : Analyzer

namespace Work

/-- Checks the part at a path as it is in the tree by now, if there is one. -/
def visit (check : Catalog → Tree → Catalog × Findings) (w : Work) (path : Tree.Path) : Work :=
  match w.tree.get? path with
  | none => w
  | some s =>
    let (catalog, found) := check w.analyzer.catalog s
    ⟨annotate (found.below path).marks w.tree,
      ⟨catalog, w.analyzer.diagnostics ++ found.diagnostics⟩⟩

def pass (p : Tree.Kind → Bool) (check : Catalog → Tree → Catalog × Findings) (w : Work) : Work :=
  ((w.tree.locate p).map (·.1)).foldl (visit check) w

/-- A statement that is no CREATE leaves the catalog as it is. -/
def query (catalog : Catalog) (t : Tree) : Catalog × Findings := (catalog, statement catalog t)

def passes (w : Work) : Work := (w.pass isCreate create).pass isQuery query

end Work

namespace Analyzer

def fresh : Analyzer := ⟨.empty, []⟩

def hasErrors (a : Analyzer) : Bool := !a.diagnostics.isEmpty

def cleared (a : Analyzer) : Analyzer := { a with catalog := .empty, diagnostics := [] }

/-- Checks a tree in place, if there is one. The analyzer then shows what was found. -/
def analyze (a : Analyzer) : Option Tree → Option Tree × Analyzer
  | none => (none, a.cleared)
  | some t =>
    let done := Work.passes ⟨t, a.cleared⟩
    (some done.tree, done.analyzer)

def analyzeAll (a : Analyzer) : List (Option Tree) → List (Option Tree × Analyzer)
  | [] => []
  | t :: ts =>
    let result := a.analyze t
    result :: result.2.analyzeAll ts

end Analyzer

end SqlScript.Check
