/-!
Positions in a text, counted from line 1 and column 1 in characters, and the places that trees and
messages carry, which may be unknown.
-/

namespace SqlScript

structure Position where
  line : Int
  column : Int
  deriving DecidableEq, Repr

namespace Position

def start : Position := ⟨1, 1⟩

/-- A line feed starts a line; every other character takes a column. -/
def next (p : Position) (c : Char) : Position :=
  if c = '\n' then ⟨p.line + 1, 1⟩ else ⟨p.line, p.column + 1⟩

def after (p : Position) (cs : List Char) : Position := cs.foldl next p

@[simp] theorem after_nil (p : Position) : p.after [] = p := rfl

@[simp] theorem after_cons (p : Position) (c : Char) (cs : List Char) :
    p.after (c :: cs) = (p.next c).after cs := rfl

theorem after_append (p : Position) (a b : List Char) :
    p.after (a ++ b) = (p.after a).after b := by
  simp [after]

/-- Within a line only the column moves. -/
theorem after_of_line {cs : List Char} (h : '\n' ∉ cs) (p : Position) :
    p.after cs = ⟨p.line, p.column + cs.length⟩ := by
  induction cs generalizing p with
  | nil => simp
  | cons c cs ih =>
    rw [List.mem_cons, not_or] at h
    rw [after_cons, ih h.2, next, if_neg (Ne.symm h.1), List.length_cons, Int.natCast_add,
      Int.add_assoc, Int.add_comm 1]
    rfl

end Position

structure Place where
  line : Option Int
  column : Option Int
  deriving DecidableEq, Repr

def Position.place (p : Position) : Place := ⟨some p.line, some p.column⟩

theorem Position.place_injective {p q : Position} (h : p.place = q.place) : p = q := by
  cases p; cases q; simp_all [Position.place]

/-- A problem found in a script. -/
structure Diagnostic where
  place : Place
  message : String
  deriving DecidableEq, Repr

end SqlScript
