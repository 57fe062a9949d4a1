import SqlScript.Report.Listing

/-!
A tree as a directed graph in the DOT language: one statement for every node, in pre-order, and one
for the edge from its parent right after it.
-/

namespace SqlScript.Diagram
open SqlScript.Text

/-! ## Identifiers -/

def isBareStart (c : Char) : Bool := c.isAlpha || c = '_'

def isBareChar (c : Char) : Bool := c.isAlphanum || c = '_'

/-- Digits, with at most one point and at least one digit. -/
def isPlainNumber (cs : List Char) : Bool :=
  let cs := if cs.head? = some '-' then cs.tail else cs
  let whole := cs.takeWhile Char.isDigit
  match cs.drop whole.length with
  | [] => !whole.isEmpty
  | '.' :: fraction => fraction.all Char.isDigit && !(whole.isEmpty && fraction.isEmpty)
  | _ => false

def isBare (cs : List Char) : Bool :=
  (cs.head?.any isBareStart && cs.all isBareChar) || isPlainNumber cs

/-- A double quote gets a backslash unless an odd number of them stands before it; `odd` says
whether that is so. -/
def escapeQuotes (odd : Bool) : List Char → List Char
  | [] => []
  | '"' :: rest => if odd then '"' :: escapeQuotes false rest else '\\' :: '"' :: escapeQuotes false rest
  | '\\' :: rest => '\\' :: escapeQuotes (!odd) rest
  | c :: rest => c :: escapeQuotes false rest

/-- A text as an identifier of the language. -/
def identifier (s : String) : String :=
  if isBare s.toList then s else String.ofList ('"' :: escapeQuotes false s.toList ++ ['"'])

/-! ## Colours -/

structure Style where
  fill : String
  font : String
  border : String
  deriving DecidableEq, Repr

def style (l : Tree.Label) : Style :=
  match l.kind with
  | .program => ⟨"#263238", "#FFFFFF", "#37474F"⟩
  | .createStatement | .selectStatement | .insertStatement | .updateStatement
  | .deleteStatement => ⟨"#BBDEFB", "#0D47A1", "#1565C0"⟩
  | .error => ⟨"#FF8A80", "#FFFFFF", "#D50000"⟩
  | .identifier =>
    if l.dataType = some DataType.table then ⟨"#FFCDD2", "#B71C1C", "#C62828"⟩
    else ⟨"#FFF9C4", "#F57F17", "#F9A825"⟩
  | .type => ⟨"#E1BEE7", "#4A148C", "#6A1B9A"⟩
  | .number | .string | .booleanLiteral => ⟨"#C5E1A5", "#33691E", "#558B2F"⟩
  | .condition | .operator => ⟨"#FFE0B2", "#E65100", "#F57C00"⟩
  | .keyword => ⟨"#C8E6C9", "#1B5E20", "#2E7D32"⟩
  | _ => ⟨"#E3F2FD", "#1565C0", "#1976D2"⟩

/-! ## Statements -/

inductive Statement where
  | node (id : Nat) (label : Tree.Label)
  | edge (source target : Nat)
  deriving DecidableEq, Repr

/-- The annotations stand below the caption. -/
def nodeLabel (l : Tree.Label) : String :=
  if l.annotations = "" then l.caption else l.caption ++ "\n[" ++ l.annotations ++ "]"

def nodeName (id : Nat) : String := "node" ++ toString id

def colour (c : String) : String := identifier c

def Statement.text : Statement → String
  | .node id l =>
    let s := style l
    nodeName id ++ " [label=" ++ identifier (nodeLabel l) ++ " color=" ++ colour s.border ++
      " fillcolor=" ++ colour s.fill ++ " fontcolor=" ++ colour s.font ++ " penwidth=2]"
  | .edge source target => nodeName source ++ " -> " ++ nodeName target

/-- Puts out the statements of a node, which gets the next number, and pushes its children from the
last to the first with that number. -/
def drawing : Tree.Traversal Nat (Option Nat) Statement where
  turn next t parent :=
    ⟨.node next t.label :: parent.toList.map (.edge · next), next + 1,
      t.children.reverse.map (·, some next)⟩
  pushed_perm _ t _ := by simp [Function.comp_def, List.reverse_perm]

/-! ## Formats -/

/-- The formats in which a diagram can be drawn. -/
def formats : List String :=
  ["bmp", "canon", "cgimage", "cmap", "cmapx", "cmapx_np", "dot", "dot_json", "eps", "exr", "fig",
    "gd", "gd2", "gif", "gtk", "gv", "ico", "imap", "imap_np", "ismap", "jp2", "jpe", "jpeg", "jpg",
    "json", "json0", "pct", "pdf", "pic", "pict", "plain", "plain-ext", "png", "pov", "ps", "ps2",
    "psd", "sgi", "svg", "svg_inline", "svgz", "tga", "tif", "tiff", "tk", "vml", "vmlz", "vrml",
    "wbmp", "webp", "x11", "xdot", "xdot1.2", "xdot1.4", "xdot_json", "xlib"]

structure UnknownFormat where
  name : String
  deriving DecidableEq, Repr

def UnknownFormat.message (e : UnknownFormat) : String :=
  "unknown format: " ++ quoted e.name ++ " (must be one of [" ++
    ", ".intercalate (formats.map quoted) ++ "])"

/-- The name of a format in lower case, if it is one. -/
def format (name : String) : Except UnknownFormat String :=
  if formats.contains (lower name) then .ok (lower name) else .error ⟨lower name⟩

/-! ## Graphs -/

/-- The distances between nodes and between ranks; larger trees are spread wider. -/
def spacing (nodes : Nat) : String × String :=
  if nodes > 50 then ("1.0", "1.4") else if nodes > 20 then ("0.7", "0.9") else ("0.5", "0.6")

def preamble (nodes : Nat) : List String :=
  ["rankdir=TB", "nodesep=" ++ (spacing nodes).1, "ranksep=" ++ (spacing nodes).2,
    "node [fontname=Arial fontsize=14 shape=box style=\"filled,rounded\"]",
    "edge [arrowsize=1.2 color=\"#4A5568\" penwidth=2]"]

structure Graph where
  format : String
  /-- The number of nodes that it is spaced for. -/
  nodes : Nat
  statements : List Statement
  deriving DecidableEq, Repr

def Graph.source (g : Graph) : String :=
  let body := preamble g.nodes ++ g.statements.map Statement.text
  "digraph \x7b\n" ++ String.join (body.map fun line => "\t" ++ line ++ "\n") ++ "\x7d\n"

/-! ## Building -/

/-- What makes graphs of one format: how many nodes it has numbered, and the graph it made last. -/
structure Builder where
  format : String
  counter : Nat
  graph : Option Graph
  deriving DecidableEq, Repr

namespace Builder

def ofFormat (format : String) : Builder := ⟨format, 0, none⟩

/-- Adds the statements of a tree to a graph; its nodes are numbered on. -/
def add (b : Builder) (g : Graph) (t : Tree) : Graph × Builder :=
  let drawn := drawing.run b.counter [(t, none)]
  let g := { g with statements := g.statements ++ drawn.1 }
  (g, { b with counter := drawn.2, graph := some g })

/-- Makes a new graph, whose nodes are numbered from 0 on. -/
def build (b : Builder) (t : Tree) : Except UnknownFormat (Graph × Builder) := do
  let format ← Diagram.format b.format
  return { b with counter := 0 }.add ⟨format, t.traverse.length, []⟩ t

/-- The graphs of trees that are built in turn, each with the counter after it. -/
def buildAll (b : Builder) : List Tree → Except UnknownFormat (List (Graph × Nat))
  | [] => return []
  | t :: ts => do
    let (g, b) ← b.build t
    return (g, b.counter) :: (← b.buildAll ts)

end Builder

end SqlScript.Diagram
