import SqlScript.Check.Script
import SqlScript.Log
import SqlScript.Settings
import SqlScript.Text.Blank

/-!
From a text to its tokens, checked tree, catalog and diagnostics, in one call.
-/

namespace SqlScript
open SqlScript.Text

structure Compiled where
  /-- The number of characters that were read. -/
  size : Nat
  tokens : List Token
  tree : Tree
  syntaxErrors : List Diagnostic
  catalog : Catalog
  semanticErrors : List Diagnostic

namespace Compiled

def hasSemanticErrors (c : Compiled) : Bool := !c.semanticErrors.isEmpty

def hasErrors (c : Compiled) : Bool := !c.syntaxErrors.isEmpty || c.hasSemanticErrors

def nothing : Compiled :=
  ⟨0, scan "", Tree.plain .program "" Position.start.place [], [], .empty, []⟩

/-- The stages one after the other, with `limit` levels of nested conditions. -/
def ofText (source : String) (limit : Int) : Compiled :=
  let tokens := scan source
  let parsed := Grammar.parse tokens limit
  let analysis := Check.analyze parsed.tree
  ⟨source.length, tokens, analysis.tree, parsed.diagnostics, analysis.catalog,
    analysis.diagnostics⟩

end Compiled

/-- The text, if there is something in it to compile. -/
def script? (source : Option String) : Option String := source.filter fun s => !isBlank s

/-- A text that is missing or blank is not read, nor are the settings then. -/
def compile (source : Option String) (settings : Except Settings.Fault Settings) :
    Except Settings.Fault Compiled :=
  match script? source with
  | none => .ok .nothing
  | some text => settings.map fun s => .ofText text s.maxDepth

namespace Compiled

def count (n : Nat) (what : String) : String := toString n ++ " " ++ what

def tokenEntry (c : Compiled) : Log.Entry :=
  ⟨.lexer, .debug,
    "tokenized " ++ count c.size "characters" ++ " into " ++ count c.tokens.length "tokens"⟩

/-- What a compilation says of itself; `idle` if there was nothing to compile. -/
def log (c : Compiled) (idle : Bool) : List Log.Entry :=
  if idle then [⟨.compiler, .debug, "nothing to compile"⟩, c.tokenEntry]
  else [
    c.tokenEntry,
    ⟨.parser, .debug,
      "parsed " ++ count c.tree.children.length "statements" ++ " with " ++
        count c.syntaxErrors.length "syntax errors"⟩,
    ⟨.semantic, .debug,
      "catalog has " ++ count c.catalog.size "tables" ++ ", " ++
        count c.semanticErrors.length "semantic errors"⟩,
    ⟨.compiler, .info,
      "compiled " ++ count c.tokens.length "tokens" ++ ": " ++
        count c.syntaxErrors.length "syntax errors" ++ ", " ++
        count c.semanticErrors.length "semantic errors"⟩]

end Compiled

end SqlScript
