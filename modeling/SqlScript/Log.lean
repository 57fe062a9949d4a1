/-!
Log entries of a run, and the levels from which they are shown.
-/

namespace SqlScript.Log

inductive Level where
  | debug
  | info
  | error
  deriving DecidableEq, Repr

def Level.name : Level → String
  | .debug => "DEBUG"
  | .info => "INFO"
  | .error => "ERROR"

def Level.rank : Level → Nat
  | .debug => 10
  | .info => 20
  | .error => 40

/-- The part of the program that has something to say. -/
inductive Source where
  | lexer
  | parser
  | semantic
  | compiler
  | render
  | app
  | folders
  | saving
  | execution
  | rendering
  deriving DecidableEq, Repr

def Source.name : Source → String
  | .lexer => "sqlfront.lexer"
  | .parser => "sqlfront.parser"
  | .semantic => "sqlfront.semantic"
  | .compiler => "sqlfront.compiler"
  | .render => "sqlfront.render"
  | .app => "sqlfront.app"
  | .folders => "graphviz._tools"
  | .saving => "graphviz.saving"
  | .execution => "graphviz.backend.execute"
  | .rendering => "graphviz.rendering"

structure Entry where
  source : Source
  level : Level
  message : String
  deriving DecidableEq, Repr

/-- The names of the thresholds. -/
def thresholds : List (String × Nat) :=
  [("CRITICAL", 50), ("FATAL", 50), ("ERROR", 40), ("WARN", 30), ("WARNING", 30), ("INFO", 20),
    ("DEBUG", 10), ("NOTSET", 0)]

def threshold? (name : String) : Option Nat := thresholds.lookup name

def shown (threshold : Nat) (entries : List Entry) : List Entry :=
  entries.filter fun e => threshold ≤ e.level.rank

/-- An entry on a line of its own, after the time at which it came about. -/
def Entry.line (time : String) (e : Entry) : String :=
  time ++ " " ++ e.source.name ++ " " ++ e.level.name ++ " " ++ e.message ++ "\n"

end SqlScript.Log
