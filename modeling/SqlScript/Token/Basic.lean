import SqlScript.DataType
import SqlScript.Place

/-!
Tokens of a script, and the words that name them in messages.
-/

namespace SqlScript
open SqlScript.Text

inductive Token.Kind where
  | keyword
  | identifier
  | number
  | string
  | operator
  | delimiter
  | endOfInput
  | error
  deriving DecidableEq, Repr

structure Token where
  kind : Token.Kind
  lexeme : String
  position : Position
  deriving DecidableEq, Repr

namespace Token

def Kind.name : Kind → String
  | .keyword => "KEYWORD"
  | .identifier => "IDENTIFIER"
  | .number => "NUMBER"
  | .string => "STRING"
  | .operator => "OPERATOR"
  | .delimiter => "DELIMITER"
  | .endOfInput => "EOF"
  | .error => "ERROR"

def Kind.all : List Kind :=
  [.keyword, .identifier, .number, .string, .operator, .delimiter, .endOfInput, .error]

def Kind.ofName? (name : String) : Option Kind := Kind.all.find? (·.name == name)

theorem Kind.ofName?_name (k : Kind) : Kind.ofName? k.name = some k := by
  cases k <;> rfl

def place (t : Token) : Place := t.position.place

/-! ## Words -/

def reservedWords : List String :=
  ["SELECT", "FROM", "WHERE", "INSERT", "INTO", "VALUES", "UPDATE", "SET", "DELETE", "CREATE",
    "TABLE", "PRIMARY", "KEY", "AND", "OR", "NOT", "NULL", "TRUE", "FALSE", "ORDER", "BY", "ASC",
    "DESC", "LIKE"] ++ DataType.columnTypes

/-- The words that reading can go on at after a failure. -/
def openingWords : List String := ["CREATE", "SELECT", "INSERT", "UPDATE", "DELETE"]

def isReserved (word : String) : Bool := reservedWords.contains (upper word)

/-- Keywords are the same in any case. -/
def isKeyword (t : Token) (word : String) : Bool :=
  t.kind == .keyword && upper t.lexeme == word

def isDelimiter (t : Token) (mark : String) : Bool :=
  t.kind == .delimiter && t.lexeme == mark

def isOperator (t : Token) (sign : String) : Bool :=
  t.kind == .operator && t.lexeme == sign

/-- Whether the token is of a kind and, if a word is given, spells it in some case. -/
def spells (t : Token) (kind : Kind) (word : Option String) : Bool :=
  t.kind == kind && word.all (upper t.lexeme == ·)

/-! ## Messages -/

/-- Why a text is no token. -/
inductive Fault where
  | unclosedComment
  | unclosedString
  | invalidCharacter (lexeme : String)
  deriving DecidableEq, Repr

def Fault.message : Fault → String
  | .unclosedComment => "unclosed comment"
  | .unclosedString => "unclosed string"
  | .invalidCharacter lexeme => "invalid character '" ++ lexeme ++ "'"

/-- The opening characters of an error token tell what is wrong with it. -/
def fault (t : Token) : Fault :=
  match t.lexeme.toList with
  | '/' :: '*' :: _ => .unclosedComment
  | '\x27' :: _ => .unclosedString
  | _ => .invalidCharacter t.lexeme

/-- The token as it is named where another one was expected. -/
def describe (t : Token) : String :=
  match t.kind with
  | .endOfInput => "end of input"
  | .error => t.fault.message
  | _ => "'" ++ t.lexeme ++ "'"

end Token

/-- A message about a token, which it names. -/
def Diagnostic.found (message : String) (t : Token) : Diagnostic :=
  ⟨t.place, message ++ ", found " ++ t.describe⟩

end SqlScript
