import SqlScript.Catalog.Listing
import SqlScript.Command.Arguments
import SqlScript.Command.Folder
import SqlScript.Compile
import SqlScript.Report.Diagram
import SqlScript.Report.Json
import SqlScript.Text.Lines
import SqlScript.Text.Utf8

/-!
A run of the command: arguments, settings, the level of the log, reading, compiling, printing, and
the diagram, in this order. What fails first decides how the run ends.
-/

namespace SqlScript.Command
open SqlScript.Text

/-- All that a run depends on. -/
structure Request where
  argv : List String
  environment : Settings.Environment
  standardInput : Bytes
  read : String → Except PathFault Bytes
  /-- Makes way for a file: the name under which it is left, if it is left where it can be seen. -/
  save : String → Except PathError (Option String)
  /-- Whether diagrams can be drawn here. -/
  canDraw : Bool
  /-- The time that log lines bear. -/
  time : String

structure Outcome where
  exit : Nat
  stdout : String
  stderr : String
  /-- Files that stay behind. -/
  written : List (String × String)
  deriving DecidableEq, Repr

/-- What ends a run without an exit code of its own. -/
inductive Failure where
  | settings (fault : Settings.Fault)
  /-- The level of the log was set to the separator. -/
  | voidLevel
  | unknownLevel (name : String)
  | unknownFormat (e : Diagram.UnknownFormat)
  | path (e : PathError)
  deriving DecidableEq, Repr

def Failure.message : Failure → String
  | .settings fault => fault.message
  | .voidLevel => "'list' object has no attribute 'upper'"
  | .unknownLevel name => "Unknown level: " ++ quoted name
  | .unknownFormat e => e.message
  | .path e => e.message

/-! ## Reading -/

/-- The text of a file: strict UTF-8 and one kind of line end. -/
def decodeSource (bytes : Bytes) : Except String String :=
  match Utf8.decode bytes with
  | .ok cs => .ok (String.ofList (unifyLineEnds cs))
  | .error fault => .error fault.message

def readSource (r : Request) (path : String) : Except PathFault Bytes :=
  if path = "-" then .ok r.standardInput else r.read path

/-! ## Printing -/

def report (c : Compiled) : String :=
  String.join <|
    [Token.listing c.tokens, "",
      Diagnostic.listing "Syntax errors" c.syntaxErrors, "",
      c.catalog.listing, "",
      Diagnostic.listing "Semantic errors" c.semanticErrors, "",
      "ANNOTATED PARSE TREE\n" ++ rule '=' 80,
      Tree.outline (some c.tree), "",
      if c.hasErrors then "Analysis failed. Errors detected."
      else "Semantic Analysis Successful. Query is valid."].map (· ++ "\n")

def printed (json : Bool) (c : Compiled) : String := if json then c.json.text ++ "\n" else report c

/-! ## Drawing -/

structure Drawing where
  entries : List Log.Entry
  written : List (String × String)

/-- What is logged while the source of a diagram is written, and the folders that it lies in. -/
def savingEntries (file : String) : List Log.Entry :=
  let folder := String.ofList (folderPart file.toList)
  (if folder = "" then [] else [⟨.folders, .debug, "os.makedirs(" ++ quoted folder ++ ")"⟩]) ++
    [⟨.saving, .debug, "write lines to " ++ quoted file⟩]

/-- What is logged before the drawing program is run in the folder of the file. -/
def drawingEntry (file format : String) : Log.Entry :=
  ⟨.execution, .debug,
    "run [PosixPath('dot'), '-Kdot', " ++ quoted ("-T" ++ format) ++ ", '-O', " ++
      quoted (String.ofList (lastName file.toList)) ++ "]"⟩

/-- Where diagrams can be drawn, the source is deleted again; else it stays. -/
def draw (r : Request) (file : String) (g : Diagram.Graph) : Except PathError Drawing := do
  let name ← r.save file
  let entries := savingEntries file ++ [drawingEntry file g.format]
  if r.canDraw then
    return ⟨entries ++
      [⟨.rendering, .debug, "delete " ++ quoted file⟩,
        ⟨.render, .info, "parse tree diagram written to " ++ tidy file ++ "." ++ g.format⟩], []⟩
  else
    return ⟨entries ++
      [⟨.app, .error, "Graphviz 'dot' executable not found; tree image not written"⟩],
      name.toList.map fun name => (name, g.source)⟩

/-- The diagram that the arguments ask for, if they name a file. -/
def drawing (r : Request) (a : Arguments) (s : Settings) (t : Tree) : Except Failure Drawing :=
  match a.treeImage.text? with
  | none => .ok ⟨[], []⟩
  | some file =>
    if file = "" then .ok ⟨[], []⟩
    else do
      let (g, _) ← ((Diagram.Builder.ofFormat s.treeFormat).build t).mapError .unknownFormat
      (draw r file g).mapError .path

/-! ## Running -/

def logText (r : Request) (threshold : Nat) (entries : List Log.Entry) : String :=
  String.join ((Log.shown threshold entries).map (Log.Entry.line r.time))

def runOn (r : Request) (a : Arguments) (s : Settings) (threshold : Nat) (text : String) :
    Except Failure Outcome := do
  let c ← (compile (some text) (.ok s)).mapError .settings
  let d ← drawing r a s c.tree
  let entries := c.log (script? (some text)).isNone ++ d.entries
  return ⟨if c.hasErrors then 1 else 0, printed a.json c, logText r threshold entries, d.written⟩

def unreadable (message : String) : Outcome :=
  ⟨2, "", "Error reading file: " ++ message ++ "\n", []⟩

def runWith (r : Request) (a : Arguments) : Except Failure Outcome := do
  if a.logLevel = .void then throw .voidLevel
  let s ← (Settings.make r.environment ⟨a.logLevel.text?, none, none⟩).mapError .settings
  match Log.threshold? s.logLevel with
  | none => throw (.unknownLevel s.logLevel)
  | some threshold =>
    match readSource r a.path with
    | .error .nullInName => throw (.path ⟨.nullInName, a.path⟩)
    | .error fault => return unreadable (PathError.message ⟨fault, a.path⟩)
    | .ok bytes =>
      match decodeSource bytes with
      | .error message => return unreadable message
      | .ok text => runOn r a s threshold text

def run (r : Request) : Except Failure Outcome :=
  match Arguments.read r.argv with
  | .error .help => .ok ⟨0, help, "", []⟩
  | .error (.fault fault) => .ok ⟨2, "", fault.text, []⟩
  | .ok a => runWith r a

/-- The file that a run reads, if it reads one. -/
def inputPath? (argv : List String) : Option String :=
  match Arguments.read argv with
  | .ok a => if a.path = "-" then none else some a.path
  | .error _ => none

end SqlScript.Command
