import SqlScript.Token.Basic
import SqlScript.Token.Character

/-!
The tokens of a text. The scanner goes through the text by an index and counts lines and columns
beside it: each class of lexemes and of gaps moves the three in its own way. An end mark follows, at
the position of the last token.
-/

namespace SqlScript

namespace Scanner

variable (code : Array Char)

/-! ## Looking into the text -/

/-- The characters from `i` on that stand before `j`, as many as there are. -/
def slice (i j : Nat) : List Char := (code.extract i j).toList

def startsWith (text : List Char) (i : Nat) : Bool := slice code i (i + text.length) == text

/-- The first index from `i` on at which the text stands. -/
def find? (text : List Char) (i : Nat) : Option Nat :=
  if i + text.length ≤ code.size then
    if startsWith code text i then some i else find? text (i + 1)
  else none
termination_by code.size + 1 - i

def skip (p : Char → Bool) (i : Nat) : Nat :=
  if h : i < code.size then
    if p code[i] then skip p (i + 1) else i
  else i
termination_by code.size - i

/-- Where a number goes to; `point` says whether it has its one point. -/
def numberEnd (point : Bool) (i : Nat) : Nat :=
  if h : i < code.size then
    if isDigit code[i] || (code[i] = '.' && !point) then numberEnd (point || code[i] = '.') (i + 1)
    else i
  else i
termination_by code.size - i

/-- Where a string goes to, and whether a quote closes it on its line. -/
def stringEnd (j : Nat) : Nat × Bool :=
  if h : j < code.size then
    if code[j] = '\n' then (j, false)
    else if code[j] = '\x27' then
      if startsWith code ['\x27', '\x27'] j then stringEnd (j + 2) else (j + 1, true)
    else stringEnd (j + 1)
  else (j, false)
termination_by code.size - j

/-! ## Turns -/

/-- The position that has been counted, and the index of the next character. -/
structure Cursor extends Position where
  index : Nat
  deriving DecidableEq, Repr

inductive Turn where
  | next (token : Option Token) (cursor : Cursor)
  | last (token : Token)
  deriving DecidableEq, Repr

/-- One turn, at the character `c`. -/
def turn (s : Cursor) (c : Char) : Turn :=
  let i := s.index
  let token (kind : Token.Kind) (text : List Char) : Option Token :=
    some ⟨kind, String.ofList text, s.toPosition⟩
  if c = '\n' then .next none ⟨⟨s.line + 1, 1⟩, i + 1⟩
  else if isSpace c then .next none { s with index := i + 1, column := s.column + 1 }
  -- the column stays where the comment begins: what comes next is a line feed, or nothing
  else if startsWith code ['-', '-'] i then .next none { s with index := skip code (· ≠ '\n') i }
  else if startsWith code ['/', '*'] i then
    match find? code ['*', '/'] (i + 2) with
    | none => .last ⟨.error, "/*", s.toPosition⟩
    | some j => .next none ⟨s.toPosition.after (slice code i (j + 2)), j + 2⟩
  else if c = '\x27' then
    let (j, closes) := stringEnd code (i + 1)
    .next (token (if closes then .string else .error) (slice code i j))
      { s with index := j, column := s.column + (j - i) }
  else if isWordStart c then
    let j := skip code isWordChar i
    let word := slice code i j
    .next (token (if Token.isReserved (String.ofList word) then .keyword else .identifier) word)
      { s with index := j, column := s.column + (j - i) }
  else if isDigit c then
    let j := numberEnd code false i
    .next (token .number (slice code i j)) { s with index := j, column := s.column + (j - i) }
  -- one character is left of an operator that ends the text, and the index goes past the end
  else if operators.contains (slice code i (i + 2)) then
    .next (token .operator (slice code i (i + 2))) { s with index := i + 2, column := s.column + 2 }
  else if operators.contains [c] then
    .next (token .operator [c]) { s with index := i + 1, column := s.column + 1 }
  else if delimiters.contains c then
    .next (token .delimiter [c]) { s with index := i + 1, column := s.column + 1 }
  else .next (token .error [c]) { s with index := i + 1, column := s.column + 1 }

/-! ## Runs -/

section

variable {code} {i j : Nat}

theorem le_of_find? {text : List Char} (h : find? code text i = some j) : i ≤ j := by
  fun_induction find? code text i with
  | case1 =>
    cases h
    exact Nat.le_refl _
  | case2 i _ _ ih => exact Nat.le_of_succ_le (ih h)
  | case3 => cases h

theorem le_skip (p : Char → Bool) (i : Nat) : i ≤ skip code p i := by
  fun_induction skip code p i with
  | case1 i _ _ ih => exact Nat.le_of_succ_le ih
  | case2 => exact Nat.le_refl _
  | case3 => exact Nat.le_refl _

theorem lt_skip {p : Char → Bool} (hi : i < code.size) (hp : p code[i] = true) :
    i < skip code p i := by
  rw [skip, dif_pos hi, if_pos hp]
  exact le_skip p (i + 1)

theorem le_numberEnd (point : Bool) (i : Nat) : i ≤ numberEnd code point i := by
  fun_induction numberEnd code point i with
  | case1 _ i _ _ ih => exact Nat.le_of_succ_le ih
  | case2 => exact Nat.le_refl _
  | case3 => exact Nat.le_refl _

theorem lt_numberEnd (hi : i < code.size) (hdigit : isDigit code[i] = true) (point : Bool) :
    i < numberEnd code point i := by
  rw [numberEnd, dif_pos hi, if_pos (by simp [hdigit])]
  exact le_numberEnd _ (i + 1)

theorem le_stringEnd (j : Nat) : j ≤ (stringEnd code j).1 := by
  fun_induction stringEnd code j with
  | case1 => exact Nat.le_refl _
  | case2 j _ _ _ _ ih => exact Nat.le_trans (Nat.le_add_right j 2) ih
  | case3 => exact Nat.le_succ _
  | case4 j _ _ _ ih => exact Nat.le_of_succ_le ih
  | case5 => exact Nat.le_refl _

theorem index_lt_of_turn {s next : Cursor} {token : Option Token} (hi : s.index < code.size)
    (h : turn code s code[s.index] = .next token next) : s.index < next.index := by
  simp only [turn] at h
  split at h
  · cases h
    exact Nat.lt_succ_self _
  rename_i hline
  split at h
  · cases h
    exact Nat.lt_succ_self _
  split at h
  · cases h
    exact lt_skip hi (by simpa using hline)
  split at h
  · split at h
    · cases h
    · rename_i hfind
      cases h
      exact Nat.lt_of_lt_of_le (Nat.lt_add_of_pos_right (by decide))
        (Nat.le_add_right_of_le (le_of_find? hfind))
  split at h
  · cases h
    exact le_stringEnd _
  split at h
  · rename_i hword
    cases h
    exact lt_skip hi (by simp [isWordChar, hword])
  split at h
  · rename_i hdigit
    cases h
    exact lt_numberEnd hi hdigit false
  split at h
  · cases h
    exact Nat.lt_add_of_pos_right (by decide)
  split at h
  · cases h
    exact Nat.lt_succ_self _
  split at h
  · cases h
    exact Nat.lt_succ_self _
  · cases h
    exact Nat.lt_succ_self _

end

def run (s : Cursor) : List Token :=
  if hi : s.index < code.size then
    match h : turn code s code[s.index] with
    | .next token next => token.toList ++ run next
    | .last token => [token]
  else []
termination_by code.size - s.index
decreasing_by
  have := index_lt_of_turn hi h
  omega

end Scanner

/-- The tokens of a text without the end mark. -/
def lexemes (source : String) : List Token := Scanner.run source.toList.toArray ⟨.start, 0⟩

/-- The mark after the tokens of a text; it has no position of its own. -/
def endMark (tokens : List Token) : Token :=
  ⟨.endOfInput, "", (tokens.getLast?.map (·.position)).getD .start⟩

def withEndMark (tokens : List Token) : List Token := tokens ++ [endMark tokens]

def scan (source : String) : List Token := withEndMark (lexemes source)

theorem scan_ne_nil (source : String) : scan source ≠ [] := by
  simp [scan, withEndMark]

end SqlScript
