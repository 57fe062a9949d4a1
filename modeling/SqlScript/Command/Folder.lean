import SqlScript.Command.Path

/-!
A folder in memory: reading its files, making folders in it, and placing new files. What lies
outside is not known: nothing is found there, and anything can be made.
-/

namespace SqlScript.Command

abbrev Bytes := List Nat

/-- The names on the straight way from the folder. A way out of it starts with double dots, or with
the name `/`, which stands for the root of all. -/
abbrev Location := List Name

namespace Location

def root : Location := [['/']]

/-- Folders that are there in any case. -/
def isAnchor (l : Location) : Bool := l == root || l.all isDoubleDot

def up (l : Location) : Location :=
  if l == root then root
  else if l.all isDoubleDot then l ++ [['.', '.']]
  else l.dropLast

def isInside (l : Location) : Bool := !(l.head?.any fun name => isDoubleDot name || name == ['/'])

def ofPath (path : List Char) : Location := if isAbsolute path then root else []

end Location

inductive Entry where
  | file (bytes : Bytes)
  | folder

structure Folder where
  files : List (Location × Bytes)
  /-- Folders that were made, besides those that files lie in. -/
  folders : List Location

namespace Folder

def ofList (files : List (String × Bytes)) : Folder :=
  ⟨files.map fun (path, bytes) => ((names path.toList).filter (!isDot ·), bytes), []⟩

def entry? (f : Folder) (l : Location) : Option Entry :=
  match f.files.lookup l with
  | some bytes => some (.file bytes)
  | none =>
    if l.isAnchor || f.folders.contains l || f.files.any fun file => l.isPrefixOf file.1 then
      some .folder
    else none

/-! ## Finding -/

def demandFolder (f : Folder) (l : Location) : Except PathFault Location :=
  match f.entry? l with
  | some .folder => .ok l
  | some (.file _) => .error .notFolder
  | none => .error .missing

def enter (f : Folder) (l : Location) (name : Name) : Except PathFault Location := do
  let l ← f.demandFolder l
  if isDot name then return l
  if isDoubleDot name then return l.up
  if isTooLong name then throw .nameTooLong
  if (f.entry? (l ++ [name])).isNone then throw .missing
  return l ++ [name]

/-- Where a path leads; a slash at its end demands a folder. -/
def find (f : Folder) (path : List Char) : Except PathFault Location := do
  checkPath path
  let l ← (names path).foldlM f.enter (.ofPath path)
  if endsInSlash path then f.demandFolder l else return l

def holds (f : Folder) (path : List Char) : Bool := (f.find path).toOption.isSome

def holdsFolder (f : Folder) (path : List Char) : Bool :=
  ((f.find path).bind f.demandFolder).toOption.isSome

def read (f : Folder) (path : String) : Except PathFault Bytes := do
  match f.entry? (← f.find path.toList) with
  | some (.file bytes) => return bytes
  | _ => throw .folder

/-! ## Making -/

/-- The folder in which the last name of a path stands, and that name. -/
def parent (f : Folder) (path : List Char) : Except PathFault (Location × Name) := do
  checkPath path
  let l ← (names path).dropLast.foldlM f.enter (.ofPath path)
  return (← f.demandFolder l, (names path).getLast?.getD ['.'])

def make (f : Folder) (path : List Char) : Except PathFault Folder := do
  let (l, name) ← f.parent path
  if isDot name || isDoubleDot name then throw .taken
  if isTooLong name then throw .nameTooLong
  if (f.entry? (l ++ [name])).isSome then throw .taken
  return { f with folders := f.folders ++ [l ++ [name]] }

/-- A folder after something was made in it, as far as that went. -/
structure Made where
  folder : Folder
  error : Option PathError

def ensure (f : Folder) (path : List Char) : Made :=
  match f.make path with
  | .ok made => ⟨made, none⟩
  | .error fault => ⟨f, if f.holdsFolder path then none else some ⟨fault, String.ofList path⟩⟩

/-- Makes a folder and those that it lies in, as far as they are not there. That the folder around
it could not be made because its name is taken is left to the next step to find. -/
def ensureAll (f : Folder) (path : List Char) : Made :=
  if _h : lastName path ≠ [] ∧ folderPart path ≠ [] ∧ !f.holds (folderPart path) then
    let around := f.ensureAll (folderPart path)
    if around.error.any (·.fault != .taken) then around
    else if isDot (lastName path) then ⟨around.folder, none⟩
    else around.folder.ensure path
  else f.ensure path
termination_by path.length
decreasing_by exact folderPart_length_lt _h.1

/-- Where a file of that path is put; a file that is there gives way. -/
def place (f : Folder) (path : List Char) : Except PathFault Location := do
  let (l, name) ← f.parent path
  if isDot name || isDoubleDot name || endsInSlash path then throw .folder
  if isTooLong name then throw .nameTooLong
  match f.entry? (l ++ [name]) with
  | some .folder => throw .folder
  | _ => return l ++ [name]

/-- Where a file is put after the folders on its way are made. -/
def save (f : Folder) (path : String) : Except PathError Location := do
  let folder := folderPart path.toList
  let made := if folder.isEmpty then ⟨f, none⟩ else f.ensureAll folder
  match made.error with
  | some e => throw e
  | none => (made.folder.place path.toList).mapError (⟨·, path⟩)

/-- The name under which a saved file is left, if it is left in the folder. -/
def saveName (f : Folder) (path : String) : Except PathError (Option String) :=
  (f.save path).map fun l => if l.isInside then some (joined l) else none

end Folder

end SqlScript.Command
