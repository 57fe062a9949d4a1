import SqlScript.Text.Integer
import SqlScript.Text.Quoted

/-!
The command line: one path and a few options. Long options may be shortened as long as they stay
clear, a value may follow `=`, and after `--` every word is plain.
-/

namespace SqlScript.Command
open SqlScript.Text

inductive Flag where
  | help
  | json
  | treeImage
  | logLevel
  deriving DecidableEq, Repr

def Flag.title : Flag → String
  | .help => "-h/--help"
  | .json => "--json"
  | .treeImage => "--tree-image"
  | .logLevel => "--log-level"

def Flag.takesValue : Flag → Bool
  | .help | .json => false
  | .treeImage | .logLevel => true

def flagNames : List (String × Flag) :=
  [("-h", .help), ("--help", .help), ("--json", .json), ("--tree-image", .treeImage),
    ("--log-level", .logLevel)]

inductive UsageFault where
  | ambiguous (word : String) (candidates : List String)
  | ignoredValue (flag : Flag) (value : String)
  | missingValue (flag : Flag)
  | missingPath
  | unrecognized (words : List String)
  deriving DecidableEq, Repr

def UsageFault.message : UsageFault → String
  | .ambiguous word candidates =>
    "ambiguous option: " ++ word ++ " could match " ++ ", ".intercalate candidates
  | .ignoredValue flag value =>
    "argument " ++ flag.title ++ ": ignored explicit argument " ++ quoted value
  | .missingValue flag => "argument " ++ flag.title ++ ": expected one argument"
  | .missingPath => "the following arguments are required: path"
  | .unrecognized words => "unrecognized arguments: " ++ " ".intercalate words

/-! ## Words -/

inductive Word where
  | plain (text : String)
  | separator
  | flag (flag : Flag) (value : Option String)
  | unknown (text : String)
  deriving DecidableEq, Repr

def isDigitText (cs : List Char) : Bool := !cs.isEmpty && cs.all fun c => (digitValue? c).isSome

/-- What follows a minus sign in a negative number; such a word is a plain one. -/
def isNumberText (cs : List Char) : Bool :=
  let cs := if cs.getLast? = some '\n' then cs.dropLast else cs
  isDigitText cs ||
    match cs.dropWhile fun c => (digitValue? c).isSome with
    | '.' :: fraction => isDigitText fraction
    | _ => false

/-- The help flag with something next to it in the same word: more of the same flag, or a value,
which it does not take. -/
def helpWord (rest : String) : Word :=
  let left := rest.toList.dropWhile (· = 'h')
  if left.isEmpty && rest ≠ "" then .flag .help none else .flag .help (some (String.ofList left))

/-- A word before and after its first `=`. -/
def splitValue (s : String) : String × Option String :=
  let name := s.toList.takeWhile (· ≠ '=')
  match s.toList.drop name.length with
  | _ :: value => (String.ofList name, some (String.ofList value))
  | [] => (s, none)

/-- The long options that a name may stand for. -/
def candidates (name : String) : List (String × Flag) :=
  flagNames.filter fun f => name.toList.isPrefixOf f.1.toList

/-- A word that starts with a minus sign, and is more than that, but names no option in full. -/
def Word.ofDashed (s : String) (rest : List Char) : Except UsageFault Word :=
  let (name, value) := splitValue s
  match flagNames.lookup name, value with
  | some f, some value => .ok (if name = "-h" then helpWord value else .flag f (some value))
  | _, _ =>
    let other : Word :=
      if isNumberText rest || s.toList.contains ' ' then .plain s else .unknown s
    match rest with
    | '-' :: _ =>
      match candidates name with
      | [] => .ok other
      | [(_, f)] => .ok (.flag f value)
      | many => .error (.ambiguous s (many.map (·.1)))
    | 'h' :: tail => .ok (helpWord (String.ofList tail))
    | _ => .ok other

def Word.ofString (s : String) : Except UsageFault Word :=
  match s.toList with
  | '-' :: rest =>
    match flagNames.lookup s with
    | some f => .ok (.flag f none)
    | none => if rest.isEmpty then .ok (.plain s) else Word.ofDashed s rest
  | _ => .ok (.plain s)

def words : List String → Except UsageFault (List Word)
  | [] => .ok []
  | "--" :: more => .ok (.separator :: more.map .plain)
  | s :: more => do
    let word ← Word.ofString s
    return word :: (← words more)

/-! ## Arguments -/

/-- The value of a flag. -/
inductive Value where
  | unset
  /-- The flag was given the separator, which is no value. -/
  | void
  | text (s : String)
  deriving DecidableEq, Repr

def Value.ofString (s : String) : Value := if s = "--" then .void else .text s

def Value.text? : Value → Option String
  | .text s => some s
  | .unset | .void => none

structure Arguments where
  path : String
  json : Bool
  treeImage : Value
  logLevel : Value
  deriving DecidableEq, Repr

/-- Why a run ends before it starts. -/
inductive Stop where
  | help
  | fault (fault : UsageFault)
  deriving DecidableEq, Repr

/-- What was read of the command line so far. -/
structure Reading where
  path : Option String
  json : Bool
  treeImage : Value
  logLevel : Value
  extras : List String

namespace Reading

def start : Reading := ⟨none, false, .unset, .unset, []⟩

/-- A flag with its value; a later value replaces an earlier one. -/
def set (r : Reading) (flag : Flag) (value : String) : Reading :=
  match flag with
  | .treeImage => { r with treeImage := .ofString value }
  | .logLevel => { r with logLevel := .ofString value }
  | .help | .json => r

def extra (r : Reading) (word : String) : Reading := { r with extras := r.extras ++ [word] }

/-- The first plain word is the path, and a separator next to it is dropped. -/
def run (r : Reading) : List Word → Except Stop Reading
  | [] => .ok r
  | .flag .help none :: _ => .error .help
  | .flag .json none :: more => run { r with json := true } more
  | .flag flag none :: .plain value :: more => run (r.set flag value) more
  | .flag flag none :: _ => .error (.fault (.missingValue flag))
  | .flag flag (some value) :: more =>
    if flag.takesValue then run (r.set flag value) more
    else .error (.fault (.ignoredValue flag value))
  | .unknown word :: more => run (r.extra word) more
  | .separator :: .plain word :: more =>
    if r.path.isNone then run { r with path := some word } more
    else run ((r.extra "--").extra word) more
  | .separator :: more => run (r.extra "--") more
  | .plain word :: .separator :: more =>
    if r.path.isNone then run { r with path := some word } more
    else run ((r.extra word).extra "--") more
  | .plain word :: more =>
    if r.path.isNone then run { r with path := some word } more else run (r.extra word) more

def finish (r : Reading) : Except Stop Arguments :=
  match r.path, r.extras with
  | none, _ => .error (.fault .missingPath)
  | some path, [] => .ok ⟨path, r.json, r.treeImage, r.logLevel⟩
  | some _, extras => .error (.fault (.unrecognized extras))

end Reading

def Arguments.read (argv : List String) : Except Stop Arguments := do
  let ws ← (words argv).mapError .fault
  (← Reading.start.run ws).finish

/-! ## Texts -/

def usage : String :=
  "usage: sqlfront [-h] [--json] [--tree-image FILE] [--log-level LOG_LEVEL] path\n"

def UsageFault.text (f : UsageFault) : String := usage ++ "sqlfront: error: " ++ f.message ++ "\n"

def help : String :=
  usage ++
    "\n" ++
    "Lex, parse and semantically check a SQL-like script\n" ++
    "\n" ++
    "positional arguments:\n" ++
    "  path                  input SQL file, or - for stdin\n" ++
    "\n" ++
    "options:\n" ++
    "  -h, --help            show this help message and exit\n" ++
    "  --json                print the result as JSON\n" ++
    "  --tree-image FILE     render the annotated parse tree with Graphviz to FILE\n" ++
    "  --log-level LOG_LEVEL\n" ++
    "                        logging level (default from SQLFRONT_LOG_LEVEL)\n"

end SqlScript.Command
