import SqlScript.Grammar.Condition

/-!
Statements. Each is the word that opens it and a list of parts; the parts before one that is
refused stay in the tree, and a leaf of kind `error` marks the token where it was given up.
-/

namespace SqlScript.Grammar
open SqlScript.Text

/-! ## Parts -/

/-- A type word or any name; unknown type names are left to the checker. -/
def isTypeName (t : Token) : Bool :=
  (t.kind == .keyword && DataType.isColumnType t.lexeme) || t.kind == .identifier

def primaryKey : Rule (List Tree) :=
  Rule.optional (·.isKeyword "PRIMARY") <|
    Rule.seq [Rule.opening, Rule.keyword "KEY" "'KEY' after 'PRIMARY'"]

def fieldDefinition : Rule Tree :=
  Rule.node .fieldDefinition <|
    Rule.seq [Rule.identifier "column name", Rule.leaf .type isTypeName "column type", primaryKey]

def fieldList : Rule Tree := Rule.node .fieldList (Rule.commaList fieldDefinition)

def columnName : Rule Tree := do
  let t ← Rule.expect (·.kind == .identifier) "column name"
  return Tree.leaf .identifier t

/-- A star, or names with commas between them. -/
def selectList : Rule Tree :=
  Rule.node .selectList <| do
    match ← Rule.accept (·.isOperator "*") with
    | some star => return [Tree.leaf .operator star]
    | none => Rule.commaList columnName

def valueList (room : Nat) : Rule Tree := Rule.node .valueList (Rule.commaList (term room))

def assignment (room : Nat) : Rule Tree :=
  Rule.node .assignment <|
    Rule.seq [
      Rule.identifier "column name",
      Rule.leaf .operator (·.isOperator "=") "'=' in assignment",
      Rule.one (term room)]

def assignmentList (room : Nat) : Rule Tree :=
  Rule.node .assignmentList (Rule.commaList (assignment room))

def whereClause (room : Nat) : Rule Tree :=
  Rule.node .whereClause (Rule.seq [Rule.opening, Rule.one (condition room)])

def isDirection (t : Token) : Bool := t.isKeyword "ASC" || t.isKeyword "DESC"

def orderClause : Rule Tree :=
  Rule.node .orderClause <|
    Rule.seq [
      Rule.opening,
      Rule.keyword "BY" "'BY' after 'ORDER'",
      Rule.identifier "column name in ORDER BY",
      Rule.optional isDirection Rule.opening]

def optionalWhere (room : Nat) : Rule (List Tree) :=
  Rule.optional (·.isKeyword "WHERE") (Rule.one (whereClause room))

def optionalOrder : Rule (List Tree) :=
  Rule.optional (·.isKeyword "ORDER") (Rule.one orderClause)

/-! ## Statements -/

inductive Statement where
  | create
  | select
  | insert
  | update
  | delete
  deriving DecidableEq, Repr

namespace Statement

def all : List Statement := [create, select, insert, update, delete]

def word : Statement → String
  | create => "CREATE"
  | select => "SELECT"
  | insert => "INSERT"
  | update => "UPDATE"
  | delete => "DELETE"

def kind : Statement → Tree.Kind
  | create => .createStatement
  | select => .selectStatement
  | insert => .insertStatement
  | update => .updateStatement
  | delete => .deleteStatement

/-- The statement that a token opens. -/
def ofToken? (t : Token) : Option Statement := all.find? fun s => t.isKeyword s.word

def isOpener (t : Token) : Bool :=
  t.kind == .keyword && Token.openingWords.contains (upper t.lexeme)

/-- The words at which reading goes on are those that open statements. -/
theorem isOpener_eq (t : Token) : isOpener t = (ofToken? t).isSome := by
  rw [Bool.eq_iff_iff, ofToken?, List.find?_isSome]
  simp [isOpener, Token.openingWords, Token.isKeyword, all, word, and_or_left]

theorem isOpener_of_none {t : Token} (h : ofToken? t = none) : isOpener t = false := by
  rw [isOpener_eq, h]
  rfl

theorem exists_of_isOpener {t : Token} (h : isOpener t = true) : ∃ s, ofToken? t = some s :=
  Option.isSome_iff_exists.1 (isOpener_eq t ▸ h)

theorem isOpener_of_some {t : Token} {s : Statement} (h : ofToken? t = some s) :
    isOpener t = true := by
  rw [isOpener_eq, h]
  rfl

/-- What follows the opening word. -/
def parts (room : Nat) : Statement → List (Rule (List Tree))
  | create => [
      Rule.keyword "TABLE" "'TABLE' after 'CREATE'",
      Rule.identifier "table name",
      Rule.delimiter "(" "'(' after table name",
      Rule.one fieldList,
      Rule.delimiter ")" "')' after field list",
      Rule.delimiter ";" "';' at end of statement"]
  | select => [
      Rule.one selectList,
      Rule.keyword "FROM" "'FROM' after select list",
      Rule.identifier "table name",
      optionalWhere room,
      optionalOrder,
      Rule.delimiter ";" "';' at end of query"]
  | insert => [
      Rule.keyword "INTO" "'INTO' after 'INSERT'",
      Rule.identifier "table name",
      Rule.keyword "VALUES" "'VALUES' keyword",
      Rule.delimiter "(" "'(' before values",
      Rule.one (valueList room),
      Rule.delimiter ")" "')' after values",
      Rule.delimiter ";" "';' at end of statement"]
  | update => [
      Rule.identifier "table name",
      Rule.keyword "SET" "'SET' keyword",
      Rule.one (assignmentList room),
      optionalWhere room,
      Rule.delimiter ";" "';' at end of statement"]
  | delete => [
      Rule.keyword "FROM" "'FROM' after 'DELETE'",
      Rule.identifier "table name",
      optionalWhere room,
      Rule.delimiter ";" "';' at end of statement"]

end Statement

/-! ## Reading a statement -/

/-- The trees of the parts that were read, the complaint of the one that was not, and the tokens
that are left. -/
structure Progress where
  trees : List Tree
  complaint : Option Complaint
  rest : List Token

def Progress.run : List (Rule (List Tree)) → List Token → Progress
  | [], ts => ⟨[], none, ts⟩
  | part :: parts, ts =>
    match part.run ts with
    | .done trees rest =>
      let later := Progress.run parts rest
      { later with trees := trees ++ later.trees }
    | .refused why rest => ⟨[], some why, rest⟩

theorem Progress.run_suffix (parts : List (Rule (List Tree))) (ts : List Token) :
    (Progress.run parts ts).rest <:+ ts := by
  induction parts generalizing ts with
  | nil => exact List.suffix_refl _
  | cons part parts ih =>
    have h := part.suffix ts
    simp only [Progress.run]
    split <;> rename_i hr <;> rw [hr] at h
    · exact (ih _).trans h
    · exact h

/-- One statement: its tree, if there is one, the complaint, and the tokens that are left. -/
structure Attempt where
  tree : Option Tree
  complaint : Option Complaint
  rest : List Token

/-- The next token, or the one that stands after all. -/
def current (stop : Token) (ts : List Token) : Token := ts.head?.getD stop

/-- Reads the statement that `lead` opens. -/
def Statement.attempt (s : Statement) (room : Nat) (stop lead : Token) (ts : List Token) :
    Attempt :=
  let p := Progress.run (s.parts room) ts
  let mark := match p.complaint with
    | some _ => [Tree.leaf .error (current stop p.rest)]
    | none => []
  ⟨some (Tree.plain s.kind "" lead.place (Tree.leaf .keyword lead :: p.trees ++ mark)),
    p.complaint, p.rest⟩

def noStatement : Complaint :=
  .expected "statement (SELECT, INSERT, UPDATE, DELETE, CREATE)"

/-- Reads a statement if the next token opens one. -/
def statement (room : Nat) (stop : Token) : List Token → Attempt
  | [] => ⟨none, some noStatement, []⟩
  | t :: ts =>
    match Statement.ofToken? t with
    | some s => s.attempt room stop t ts
    | none => ⟨none, some noStatement, t :: ts⟩

theorem Statement.attempt_suffix (s : Statement) (room : Nat) (stop lead : Token)
    (ts : List Token) : (s.attempt room stop lead ts).rest <:+ ts :=
  Progress.run_suffix _ _

theorem statement_suffix (room : Nat) (stop : Token) (ts : List Token) :
    (statement room stop ts).rest <:+ ts := by
  unfold statement
  split
  · exact List.suffix_refl _
  · split
    · exact (Statement.attempt_suffix ..).trans (List.suffix_cons ..)
    · exact List.suffix_refl _

end SqlScript.Grammar
