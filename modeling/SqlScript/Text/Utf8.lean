import SqlScript.Text.Quoted

/-!
Strict UTF-8: the shortest form of every character, no surrogates, nothing above U+10FFFF. A fault
says which bytes cannot be read.
-/

namespace SqlScript.Text.Utf8

inductive Reason where
  | invalidStart
  | invalidContinuation
  | unexpectedEnd

def Reason.message : Reason → String
  | .invalidStart => "invalid start byte"
  | .invalidContinuation => "invalid continuation byte"
  | .unexpectedEnd => "unexpected end of data"

/-- The bytes from `first` on, `count` of them, are no character; `byte` is the first one. -/
structure Fault where
  byte : Nat
  first : Nat
  count : Nat
  reason : Reason

def Fault.message (f : Fault) : String :=
  let bytes :=
    if f.count = 1 then
      "byte 0x" ++ String.ofList (hex 2 f.byte) ++ " in position " ++ toString f.first
    else
      "bytes in position " ++ toString f.first ++ "-" ++ toString (f.first + f.count - 1)
  "'utf-8' codec can't decode " ++ bytes ++ ": " ++ f.reason.message

def following? (start : Nat) : Option Nat :=
  if start < 0x80 then some 0
  else if 0xC2 ≤ start && start < 0xE0 then some 1
  else if 0xE0 ≤ start && start < 0xF0 then some 2
  else if 0xF0 ≤ start && start < 0xF5 then some 3
  else none

/-- Whether a byte may stand second after `start`: overlong forms, surrogates and too large numbers
show there. -/
def isSecond (start b : Nat) : Bool :=
  let lo := if start = 0xE0 then 0xA0 else if start = 0xF0 then 0x90 else 0x80
  let hi := if start = 0xED then 0xA0 else if start = 0xF4 then 0x90 else 0xC0
  lo ≤ b && b < hi

def isContinuation (b : Nat) : Bool := 0x80 ≤ b && b < 0xC0

/-- How many of the bytes after a start byte belong to it, of `expected` at most. -/
def fitting (start expected : Nat) (bytes : List Nat) : Nat :=
  match bytes.take expected with
  | [] => 0
  | b :: more => if isSecond start b then 1 + (more.takeWhile isContinuation).length else 0

/-- The character of a start byte and the bytes that follow it. -/
def character (start : Nat) (more : List Nat) : Char :=
  let lead := match more.length with
    | 0 => start
    | 1 => start % 0x20
    | 2 => start % 0x10
    | _ => start % 0x08
  Char.ofNat (more.foldl (fun n b => n * 0x40 + b % 0x40) lead)

def decodeFrom (place : Nat) : List Nat → Except Fault (List Char)
  | [] => .ok []
  | start :: rest =>
    match following? start with
    | none => .error ⟨start, place, 1, .invalidStart⟩
    | some expected =>
      let found := fitting start expected rest
      if found = expected then do
        let more ← decodeFrom (place + 1 + expected) (rest.drop expected)
        return character start (rest.take expected) :: more
      else if found = rest.length then .error ⟨start, place, 1 + found, .unexpectedEnd⟩
      else .error ⟨start, place, 1 + found, .invalidContinuation⟩
termination_by bytes => bytes.length
decreasing_by
  simp only [List.length_drop, List.length_cons]
  omega

def decode (bytes : List Nat) : Except Fault (List Char) := decodeFrom 0 bytes

end SqlScript.Text.Utf8
