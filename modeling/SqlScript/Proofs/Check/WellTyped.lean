import Mathlib.Data.List.Forall2
import SqlScript.Proofs.Grammar.Phrase
import SqlScript.Catalog.Basic

/-!
What it means that a script is well typed, said of its phrases alone: no tree, no catalog and no
order of checks. A table may be used before the statement that creates it.
-/

namespace SqlScript.Phrase
open SqlScript.Text SqlScript.Grammar

/-! ## Types and tables -/

/-- Whether values of two types may be compared or assigned: the types are the same, both are types
of numbers, or one is that of the null value. -/
def Compatible (a b : String) : Prop :=
  a = b ∨ a = DataType.null ∨ b = DataType.null ∨
    (a ∈ [DataType.int, DataType.float] ∧ b ∈ [DataType.int, DataType.float])

/-- Every column has a type that columns can have, and a name of its own. -/
structure WellFormed (table : Table) : Prop where
  types_valid : ∀ c ∈ table.columns, c.dataType ∈ DataType.columnTypes
  names_distinct : table.columns.Pairwise fun c d => lower c.name ≠ lower d.name

def Names (table : Table) (t : Name) (c : Column) : Prop :=
  c ∈ table.columns ∧ lower c.name = lower t.1.lexeme

def FieldDefinition.column (d : FieldDefinition) : Column :=
  ⟨d.name.1.lexeme, upper d.type.1.lexeme⟩

def Sentence.table? : Sentence → Option Table
  | ⟨.create, _, .create _ name _ fields _, _⟩ =>
    some ⟨name.1.lexeme, fields.items.map FieldDefinition.column⟩
  | _ => none

def declared (script : List Sentence) : List Table := script.filterMap Sentence.table?

/-! ## Expressions -/

namespace Expression

def isName : {r : Rank} → Expression r → Bool
  | _, atom (.name _) => true
  | _, atom _ => false
  | _, group _ e _ => e.isName
  | _, ofTerm e => e.isName
  | _, ofComparison e => e.isName
  | _, ofNegation e => e.isName
  | _, ofConjunction e => e.isName
  | _, _ => false

/-- Over the columns of a table the expression has a type: its names are columns, and what it
compares, at any depth, may be compared. -/
inductive HasType (table : Table) : {r : Rank} → Expression r → String → Prop where
  | name {t : Name} {c : Column} (h : Names table t c) : HasType table (atom (.name t)) c.dataType
  | number {t : { t : Token // t.kind = .number }} :
      HasType table (atom (.number t)) (DataType.ofNumber t.1.lexeme)
  | string {t : { t : Token // t.kind = .string }} :
      HasType table (atom (.string t)) DataType.text
  | null {t : Keyword "NULL"} : HasType table (atom (.null t)) DataType.null
  | truth {t : { t : Token // t.isKeyword "TRUE" || t.isKeyword "FALSE" }} :
      HasType table (atom (.truth t)) DataType.boolean
  | group {l : Mark "("} {e : Expression .condition} {r : Mark ")"} {a : String} :
      HasType table e a → HasType table (group l e r) a
  | ofTerm {e : Expression .term} {a : String} : HasType table e a → HasType table (ofTerm e) a
  | compare {l r : Expression .term} {op : { t : Token // isRelational t }} {a b : String} :
      HasType table l a → HasType table r b → Compatible a b →
        HasType table (compare l op r) DataType.boolean
  | ofComparison {e : Expression .comparison} {a : String} :
      HasType table e a → HasType table (ofComparison e) a
  | not {op : Keyword "NOT"} {e : Expression .negation} {a : String} :
      HasType table e a → HasType table (not op e) DataType.boolean
  | ofNegation {e : Expression .negation} {a : String} :
      HasType table e a → HasType table (ofNegation e) a
  | and {l : Expression .conjunction} {op : Keyword "AND"} {r : Expression .negation}
      {a b : String} :
      HasType table l a → HasType table r b → HasType table (and l op r) DataType.boolean
  | ofConjunction {e : Expression .conjunction} {a : String} :
      HasType table e a → HasType table (ofConjunction e) a
  | or {l : Expression .condition} {op : Keyword "OR"} {r : Expression .conjunction}
      {a b : String} :
      HasType table l a → HasType table r b → HasType table (or l op r) DataType.boolean

end Expression

/-! ## Statements -/

def Columns.Typed (table : Table) : Columns → Prop
  | all _ => True
  | only names => ∀ t ∈ names.items, ∃ c, Names table t c

def WhereClause.Typed (table : Table) (w : WhereClause) : Prop :=
  ∃ a, w.condition.HasType table a

def OrderClause.Typed (table : Table) (o : OrderClause) : Prop := ∃ c, Names table o.column c

def Assignment.Typed (table : Table) (a : Assignment) : Prop :=
  ∃ c b, Names table a.target c ∧ a.value.HasType table b ∧ Compatible c.dataType b

/-- The value may stand for the column in a new row; a bare name may not. -/
def Inserts (table : Table) (e : Expression .term) (c : Column) : Prop :=
  e.isName = false ∧ ∃ b, e.HasType table b ∧ Compatible c.dataType b

def Body.TypedOver (table : Table) : {s : Statement} → Body s → Prop
  | _, create .. => True
  | _, select columns _ _ filter order =>
    columns.Typed table ∧ (∀ w ∈ filter, w.Typed table) ∧ ∀ o ∈ order, o.Typed table
  | _, insert _ _ _ _ values _ => List.Forall₂ (Inserts table) values.items table.columns
  | _, update _ _ assignments filter =>
    (∀ a ∈ assignments.items, a.Typed table) ∧ ∀ w ∈ filter, w.Typed table
  | _, delete _ _ filter => ∀ w ∈ filter, w.Typed table

def Body.tableName : {s : Statement} → Body s → Name
  | _, create _ name _ _ _ => name
  | _, select _ _ name _ _ => name
  | _, insert _ name _ _ _ _ => name
  | _, update name _ _ _ => name
  | _, delete _ name _ => name

/-- The table that a statement uses is among `tables`, and the statement is typed over it. -/
def Sentence.Typed (tables : List Table) (s : Sentence) : Prop :=
  s.statement = .create ∨
    ∃ table ∈ tables, lower table.name = lower s.body.tableName.1.lexeme ∧ s.body.TypedOver table

structure WellTyped (script : List Sentence) : Prop where
  names_distinct : (declared script).Pairwise fun t u => lower t.name ≠ lower u.name
  wellFormed : ∀ table ∈ declared script, WellFormed table
  typed : ∀ s ∈ script, s.Typed (declared script)

end SqlScript.Phrase
