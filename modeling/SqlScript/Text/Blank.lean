/-!
Blank text: white space in the sense of the character database, with the four information
separators and the next-line control.
-/

namespace SqlScript.Text

def blankCodes : List Nat := [
    0x09, 0x0A, 0x0B, 0x0C, 0x0D, 0x1C, 0x1D, 0x1E, 0x1F, 0x20, 0x85, 0xA0, 0x1680, 0x2000, 0x2001,
    0x2002, 0x2003, 0x2004, 0x2005, 0x2006, 0x2007, 0x2008, 0x2009, 0x200A, 0x2028, 0x2029, 0x202F,
    0x205F, 0x3000]

def isBlankChar (c : Char) : Bool := blankCodes.contains c.toNat

def isBlank (s : String) : Bool := s.toList.all isBlankChar

/-- Every white space character of the ASCII range is blank. -/
theorem isBlankChar_of_isWhitespace {c : Char} (h : c.isWhitespace = true) :
    isBlankChar c = true := by
  simp only [Char.isWhitespace, Bool.or_eq_true, decide_eq_true_eq] at h
  rcases h with ((h | h) | h) | h <;> subst h <;> decide

end SqlScript.Text
