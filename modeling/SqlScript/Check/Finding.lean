import SqlScript.Tree.Basic

/-!
What a check finds: marks on nodes and diagnostics, each in the order in which it came about. Marks
name their nodes by path, so a check of a part is moved into the whole by lengthening its paths.
-/

namespace SqlScript.Check

/-- The type of a node and, where it names something, what it names. -/
structure Mark where
  path : Tree.Path
  dataType : String
  symbolRef : Option String
  deriving DecidableEq, Repr

structure Findings where
  marks : List Mark
  diagnostics : List Diagnostic
  deriving DecidableEq, Repr

namespace Findings

def none : Findings := ⟨[], []⟩

def append (a b : Findings) : Findings := ⟨a.marks ++ b.marks, a.diagnostics ++ b.diagnostics⟩

instance : Append Findings := ⟨append⟩

def mark (dataType : String) (symbolRef : Option String) : Findings :=
  ⟨[⟨[], dataType, symbolRef⟩], []⟩

def report (place : Place) (message : String) : Findings := ⟨[], [⟨place, message⟩]⟩

/-- The findings on a part, as findings on the whole that has the part at `path`. -/
def below (path : Tree.Path) (f : Findings) : Findings :=
  { f with marks := f.marks.map fun m => { m with path := path ++ m.path } }

/-- The findings on child `i`, as findings on its parent. -/
def under (i : Nat) (f : Findings) : Findings := f.below [i]

def join (fs : List Findings) : Findings := fs.foldr append none

@[simp] theorem marks_append (a b : Findings) : (a ++ b).marks = a.marks ++ b.marks := rfl

@[simp] theorem diagnostics_append (a b : Findings) :
    (a ++ b).diagnostics = a.diagnostics ++ b.diagnostics := rfl

@[simp] theorem diagnostics_none : none.diagnostics = [] := rfl

@[simp] theorem diagnostics_mark (dataType : String) (symbolRef : Option String) :
    (mark dataType symbolRef).diagnostics = [] := rfl

@[simp] theorem diagnostics_report (place : Place) (message : String) :
    (report place message).diagnostics = [⟨place, message⟩] := rfl

@[simp] theorem diagnostics_below (path : Tree.Path) (f : Findings) :
    (f.below path).diagnostics = f.diagnostics := rfl

@[simp] theorem diagnostics_under (i : Nat) (f : Findings) :
    (f.under i).diagnostics = f.diagnostics := rfl

@[simp] theorem marks_join (fs : List Findings) : (join fs).marks = fs.flatMap (·.marks) := by
  induction fs with
  | nil => rfl
  | cons f fs ih => simpa [join, append] using ih

@[simp] theorem diagnostics_join (fs : List Findings) :
    (join fs).diagnostics = fs.flatMap (·.diagnostics) := by
  induction fs with
  | nil => rfl
  | cons f fs ih => simpa [join, append] using ih

end Findings

/-- Writes a mark on the node that it names. -/
def Mark.write (t : Tree) (m : Mark) : Tree :=
  t.update (Tree.relabel fun l => l.annotate (some m.dataType) m.symbolRef) m.path

def annotate (marks : List Mark) (t : Tree) : Tree := marks.foldl Mark.write t

end SqlScript.Check
