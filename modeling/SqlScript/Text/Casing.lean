import SqlScript.Text.CaseTable

/-!
Upper and lower case of whole texts, with the full mappings: one character may become several, and
a capital sigma becomes a final one at the end of a word.
-/

namespace SqlScript.Text

def upperChar (c : Char) : List Char :=
  if c.toNat < 128 then [c.toUpper] else upperTable.image c

def upperChars (cs : List Char) : List Char := cs.flatMap upperChar

def upper (s : String) : String := String.ofList (upperChars s.toList)

/-! ## Lower case -/

/-- Characters that case is looked for in: letters with case, the skipped ones apart. -/
def isCased (c : Char) : Bool :=
  if c.toNat < 128 then c.isAlpha else inRanges casedRanges c

/-- Characters such as apostrophes and accents, which are skipped when case is looked for. -/
def isCaseIgnored (c : Char) : Bool :=
  if c.toNat < 128 then ['.', ':', '^', '\x27', '\x60'].contains c else inRanges caseIgnoredRanges c

/-- Whether the text goes on with a letter that has case. -/
def casedAhead (cs : List Char) : Bool :=
  (cs.dropWhile isCaseIgnored).head?.any isCased

/-- Whether a letter with case stands before what follows `c`, if `before` says so of `c` itself. -/
def casedBefore (before : Bool) (c : Char) : Bool :=
  if isCaseIgnored c then before else isCased c

/-- A capital sigma is final where a cased letter stands before it and none after. -/
def lowerChar (before : Bool) (c : Char) (rest : List Char) : List Char :=
  if c.toNat < 128 then [c.toLower]
  else if c = 'Σ' && before && !casedAhead rest then ['ς']
  else lowerTable.image c

def lowerFrom (before : Bool) : List Char → List Char
  | [] => []
  | c :: rest => lowerChar before c rest ++ lowerFrom (casedBefore before c) rest

def lowerChars (cs : List Char) : List Char := lowerFrom false cs

def lower (s : String) : String := String.ofList (lowerChars s.toList)

/-! ## Laws -/

@[simp] theorem upperChars_nil : upperChars [] = [] := rfl

@[simp] theorem upperChars_cons (c : Char) (cs : List Char) :
    upperChars (c :: cs) = upperChar c ++ upperChars cs := by
  simp [upperChars]

theorem upperChars_append (a b : List Char) :
    upperChars (a ++ b) = upperChars a ++ upperChars b := by
  simp [upperChars]

theorem toList_upper (s : String) : (upper s).toList = upperChars s.toList := by
  simp [upper]

theorem toList_lower (s : String) : (lower s).toList = lowerChars s.toList := by
  simp [lower]

end SqlScript.Text
