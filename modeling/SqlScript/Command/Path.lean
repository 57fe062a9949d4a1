import SqlScript.Text.Quoted

/-!
Paths as texts: names with slashes between them.
-/

namespace SqlScript.Command
open SqlScript.Text

abbrev Name := List Char

/-- The texts between slashes; next to each other slashes have the empty one between them. -/
def steps (path : List Char) : List Name :=
  path.foldr
    (fun c names =>
      if c = '/' then [] :: names
      else match names with
        | name :: more => (c :: name) :: more
        | [] => [[c]])
    [[]]

def names (path : List Char) : List Name := (steps path).filter (!·.isEmpty)

def joined (names : List Name) : String := String.ofList (['/'].intercalate names)

def isDot (name : Name) : Bool := name == ['.']

def isDoubleDot (name : Name) : Bool := name == ['.', '.']

def isAbsolute (path : List Char) : Bool := path.head? == some '/'

def endsInSlash (path : List Char) : Bool := path.getLast? == some '/'

/-- What stands behind the last slash. -/
def lastName (path : List Char) : Name := (path.reverse.takeWhile (· ≠ '/')).reverse

/-- What stands up to the last slash, without slashes at its end unless there is nothing else. -/
def folderPart (path : List Char) : List Char :=
  let front := path.reverse.dropWhile (· ≠ '/')
  let bare := front.dropWhile (· = '/')
  (if bare.isEmpty then front else bare).reverse

theorem folderPart_length_lt {path : List Char} (h : lastName path ≠ []) :
    (folderPart path).length < path.length := by
  have hsum : (path.reverse.takeWhile (· ≠ '/')).length +
      (path.reverse.dropWhile (· ≠ '/')).length = path.length := by
    rw [← List.length_append, List.takeWhile_append_dropWhile, List.length_reverse]
  have hpos : 0 < (path.reverse.takeWhile (· ≠ '/')).length := by
    simpa [lastName, List.length_pos_iff] using h
  have hbare : ((path.reverse.dropWhile (· ≠ '/')).dropWhile (· = '/')).length ≤
      (path.reverse.dropWhile (· ≠ '/')).length := (List.dropWhile_suffix _).length_le
  simp only [folderPart, List.length_reverse]
  split <;> omega

/-- The path without idle steps. -/
def tidy (path : String) : String :=
  let kept := (names path.toList).filter (!isDot ·)
  match path.toList with
  | '/' :: '/' :: c :: _ => (if c = '/' then "/" else "//") ++ joined kept
  | ['/', '/'] => "//"
  | '/' :: _ => "/" ++ joined kept
  | _ => if kept.isEmpty then "." else joined kept

/-! ## Faults -/

/-- Why a path does not lead to what is wanted. -/
inductive PathFault where
  | missing
  | taken
  | notFolder
  | folder
  | nameTooLong
  /-- The path holds the null character, which no file name can. -/
  | nullInName
  deriving DecidableEq, Repr

structure PathError where
  fault : PathFault
  path : String
  deriving DecidableEq, Repr

def PathError.message (e : PathError) : String :=
  match e.fault with
  | .missing => "[Errno 2] No such file or directory: " ++ quoted e.path
  | .taken => "[Errno 17] File exists: " ++ quoted e.path
  | .notFolder => "[Errno 20] Not a directory: " ++ quoted e.path
  | .folder => "[Errno 21] Is a directory: " ++ quoted e.path
  | .nameTooLong => "[Errno 36] File name too long: " ++ quoted e.path
  | .nullInName => "embedded null byte"

/-- The longest name and the longest path, in bytes. -/
def maxNameBytes : Nat := 255
def maxPathBytes : Nat := 4095

def isTooLong (name : Name) : Bool := (String.ofList name).utf8ByteSize > maxNameBytes

/-- What can be said of a path before it is followed. -/
def checkPath (path : List Char) : Except PathFault Unit :=
  if path.contains '\x00' then .error .nullInName
  else if path.isEmpty then .error .missing
  else if (String.ofList path).utf8ByteSize > maxPathBytes then .error .nameTooLong
  else .ok ()

end SqlScript.Command
