import SqlScript.Text.Letter

/-!
Classes of characters: what opens a word, a number or a gap, and which signs there are.
-/

namespace SqlScript
open SqlScript.Text

def isWordStart (c : Char) : Bool := isLetter c || c = '_'

def isDigit (c : Char) : Bool := '0' ≤ c && c ≤ '9'

def isWordChar (c : Char) : Bool := isWordStart c || isDigit c

/-- White space between tokens: space, tab, line feed, carriage return, form feed, vertical tab. -/
def isSpace (c : Char) : Bool := [' ', '\t', '\r', '\n', '\x0c', '\x0b'].contains c

def operators : List (List Char) :=
  [['='], ['<', '>'], ['!', '='], ['<', '='], ['>', '='], ['<'], ['>'], ['*']]

def delimiters : List Char := ['(', ')', ',', ';']

end SqlScript
