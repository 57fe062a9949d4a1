import SqlScript.Text.Casing

/-!
Type names and when values of two types may meet. Types are names, since a script may write any
word where a type is wanted; only `columnTypes` can be given to a column.
-/

namespace SqlScript.DataType
open SqlScript.Text

def int : String := "INT"
def float : String := "FLOAT"
def text : String := "TEXT"
def boolean : String := "BOOLEAN"

/-- The type of the null value, which goes with every other. -/
def null : String := "NULL"

/-- The type of what could not be typed; it goes with every other, so that one mistake is reported
once. -/
def unknown : String := "UNKNOWN"

/-- Marks the name of a table. -/
def table : String := "TABLE"

/-- Marks the type of a column. -/
def type : String := "TYPE"

/-- Stands for a bare word where a value is wanted. -/
def identifier : String := "IDENTIFIER"

def columnTypes : List String :=
  ["INT", "FLOAT", "TEXT", "VARCHAR", "CHAR", "DATE", "DATETIME", "BOOLEAN", "BIGINT"]

def isColumnType (name : String) : Bool := columnTypes.contains (upper name)

/-- A number with a point is a `FLOAT`. -/
def ofNumber (lexeme : String) : String :=
  if lexeme.toList.contains '.' then float else int

/-- Goes with every type; only this spelling counts. -/
def isWild (name : String) : Bool := name == unknown || name == null

def isNumeric (name : String) : Bool := upper name == int || upper name == float

/-- Whether values of two types may be compared or assigned. -/
def compatible (a b : String) : Bool :=
  isWild a || isWild b || upper a == upper b || (isNumeric a && isNumeric b)

theorem compatible_comm (a b : String) : compatible a b = compatible b a := by
  simp only [compatible, Bool.or_comm (isWild a), Bool.and_comm (isNumeric a), BEq.comm (a := upper a)]

theorem compatible_self (a : String) : compatible a a = true := by
  simp [compatible]

end SqlScript.DataType
