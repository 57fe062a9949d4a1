import SqlScript.Grammar.Script
import SqlScript.Text.Integer
import SqlScript.Text.Quoted

/-!
Settings of a run: given values come first, then variables of the environment, then defaults.
-/

namespace SqlScript
open SqlScript.Text

structure Settings where
  logLevel : String
  /-- How deep conditions may nest. -/
  maxDepth : Int
  treeFormat : String
  one_le_maxDepth : 1 ≤ maxDepth
  deriving DecidableEq, Repr

namespace Settings

/-- Values given by the caller. -/
structure Given where
  logLevel : Option String
  maxDepth : Option Int
  treeFormat : Option String

def Given.nothing : Given := ⟨none, none, none⟩

/-- The value of a variable, if it is set. -/
abbrev Environment := String → Option String

def Environment.empty : Environment := fun _ => none

inductive Fault where
  | depthNotInteger (raw : String)
  | depthTooSmall
  deriving DecidableEq, Repr

def logLevelVariable : String := "SQLFRONT_LOG_LEVEL"
def maxDepthVariable : String := "SQLFRONT_MAX_DEPTH"
def treeFormatVariable : String := "SQLFRONT_TREE_FORMAT"

def Fault.message : Fault → String
  | .depthNotInteger raw => maxDepthVariable ++ " must be an integer, got " ++ quoted raw
  | .depthTooSmall => "max_condition_depth must be at least 1"

/-- A depth read from the environment; an empty value is none. -/
def depthFrom : Option String → Except Fault Int
  | none => .ok Grammar.defaultLimit
  | some raw =>
    if raw = "" then .ok Grammar.defaultLimit
    else match integer? raw with
      | some n => .ok n
      | none => .error (.depthNotInteger raw)

def depth (env : Environment) (given : Given) : Except Fault Int :=
  match given.maxDepth with
  | some n => .ok n
  | none => depthFrom (env maxDepthVariable)

def make (env : Environment) (given : Given) : Except Fault Settings := do
  let level := (given.logLevel <|> env logLevelVariable).getD "WARNING"
  let format := (given.treeFormat <|> env treeFormatVariable).getD "png"
  let maxDepth ← depth env given
  if h : 1 ≤ maxDepth then
    return ⟨upper level, maxDepth, format, h⟩
  else
    throw .depthTooSmall

end Settings

end SqlScript
