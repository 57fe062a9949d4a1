import Mathlib.Data.List.TakeWhile
import SqlScript.Token.Basic
import SqlScript.Token.Character

/-!
A text cut into pieces: blanks, comments and lexemes. The pieces are the whole text, in order; each
is decided by its first two characters and goes on as long as its class allows.
-/

namespace SqlScript

inductive Piece where
  | blank (c : Char)
  | comment (text : List Char)
  | lexeme (kind : Token.Kind) (text : List Char)
  /-- A comment that nothing closes: its opener is a token, the rest of the text is lost in it. -/
  | unclosedComment (body : List Char)
  deriving DecidableEq, Repr

namespace Piece

def commentOpener : List Char := ['/', '*']

def text : Piece → List Char
  | .blank c => [c]
  | .comment t => t
  | .lexeme _ t => t
  | .unclosedComment body => commentOpener ++ body

/-- What the piece gives to the parser. -/
def token? : Piece → Option (Token.Kind × List Char)
  | .blank _ => none
  | .comment _ => none
  | .lexeme kind t => some (kind, t)
  | .unclosedComment _ => some (.error, commentOpener)

/-! ## Classes of lexemes -/

/-- What follows an opening quote, up to the closing one if there is one on the line; two quotes
stand for one. -/
def stringTail : List Char → List Char
  | '\x27' :: '\x27' :: rest => '\x27' :: '\x27' :: stringTail rest
  | '\x27' :: _ => ['\x27']
  | '\n' :: _ => []
  | c :: rest => c :: stringTail rest
  | [] => []

def stringCloses : List Char → Bool
  | '\x27' :: '\x27' :: rest => stringCloses rest
  | '\x27' :: _ => true
  | '\n' :: _ => false
  | _ :: rest => stringCloses rest
  | [] => false

theorem stringTail_cons {c : Char} (hq : c ≠ '\x27') (hn : c ≠ '\n') (rest : List Char) :
    stringTail (c :: rest) = c :: stringTail rest := by
  rw [stringTail] <;> simp_all

theorem stringCloses_cons {c : Char} (hq : c ≠ '\x27') (hn : c ≠ '\n') (rest : List Char) :
    stringCloses (c :: rest) = stringCloses rest := by
  rw [stringCloses] <;> simp_all

/-- What follows a digit in a number; `point` says whether the one point was used. -/
def numberTail (point : Bool) : List Char → List Char
  | [] => []
  | c :: rest =>
    if isDigit c then c :: numberTail point rest
    else if c = '.' && !point then c :: numberTail true rest
    else []

theorem numberTail_cons (point : Bool) (c : Char) (rest : List Char) :
    numberTail point (c :: rest) =
      if isDigit c || (c = '.' && !point) then c :: numberTail (point || c = '.') rest
      else [] := by
  rw [numberTail]
  by_cases hc : c = '.'
  · have hdigit : isDigit '.' = false := by decide
    cases point <;> simp [hc, hdigit]
  · simp [hc]

/-- What follows a comment's opener, up to the first closer. -/
def commentTail? : List Char → Option (List Char)
  | '*' :: '/' :: _ => some ['*', '/']
  | c :: rest => (commentTail? rest).map (c :: ·)
  | [] => none

theorem commentTail?_cons {c : Char} {cs : List Char} (h : c = '*' → cs.head? ≠ some '/') :
    commentTail? (c :: cs) = (commentTail? cs).map (c :: ·) := by
  rw [commentTail?]
  rintro rest rfl rfl
  exact h rfl rfl

def wordKind (word : List Char) : Token.Kind :=
  if Token.isReserved (String.ofList word) then .keyword else .identifier

def string (rest : List Char) : Piece :=
  .lexeme (if stringCloses rest then .string else .error) ('\x27' :: stringTail rest)

def word (c : Char) (rest : List Char) : Piece :=
  let w := c :: rest.takeWhile isWordChar
  .lexeme (wordKind w) w

def number (c : Char) (rest : List Char) : Piece :=
  .lexeme .number (c :: numberTail false rest)

def lineComment (c : Char) (rest : List Char) : Piece :=
  .comment (c :: rest.takeWhile (· ≠ '\n'))

def blockComment (body : List Char) : Piece :=
  match commentTail? body with
  | some t => .comment (commentOpener ++ t)
  | none => .unclosedComment body

/-- An operator of two characters if there is one, else a single sign. -/
def sign (c : Char) (rest : List Char) : Piece :=
  if operators.contains (c :: rest.take 1) then .lexeme .operator (c :: rest.take 1)
  else if operators.contains [c] then .lexeme .operator [c]
  else if delimiters.contains c then .lexeme .delimiter [c]
  else .lexeme .error [c]

/-- The first piece of a text. -/
def first (c : Char) (rest : List Char) : Piece :=
  if isSpace c then .blank c
  else if c = '-' && rest.head? = some '-' then lineComment c rest
  else if c = '/' && rest.head? = some '*' then blockComment rest.tail
  else if c = '\x27' then string rest
  else if isWordStart c then word c rest
  else if isDigit c then number c rest
  else sign c rest

/-! ## A piece stands where it is cut -/

theorem stringTail_prefix (cs : List Char) : stringTail cs <+: cs := by
  fun_induction stringTail cs with
  | case1 rest ih => simpa using ih
  | case2 => simp
  | case3 => simp
  | case4 c rest _ _ _ ih => simpa using ih
  | case5 => simp

theorem numberTail_prefix (point : Bool) (cs : List Char) : numberTail point cs <+: cs := by
  fun_induction numberTail point cs with
  | case1 => simp
  | case2 point c rest _ ih => simpa using ih
  | case3 point c rest _ _ ih => simpa using ih
  | case4 => simp

theorem commentTail?_prefix {cs t : List Char} (h : commentTail? cs = some t) : t <+: cs := by
  fun_induction commentTail? cs generalizing t with
  | case1 =>
    cases h
    simp
  | case2 c rest _ ih =>
    obtain ⟨u, hu, rfl⟩ := Option.map_eq_some_iff.1 h
    simpa using ih hu
  | case3 => simp at h

theorem sign_prefix (c : Char) (rest : List Char) : (sign c rest).text <+: c :: rest := by
  unfold sign
  have h : c :: rest.take 1 <+: c :: rest := by simpa using List.take_prefix 1 rest
  split
  · exact h
  split
  · simp [text]
  split <;> simp [text]

theorem first_prefix (c : Char) (rest : List Char) : (first c rest).text <+: c :: rest := by
  unfold first
  split
  · simp [text]
  split
  · simpa [text, lineComment] using List.takeWhile_prefix _
  split
  · rename_i h
    obtain ⟨rfl, hr⟩ : c = '/' ∧ rest.head? = some '*' := by simpa using h
    obtain ⟨body, rfl⟩ : ∃ body, rest = '*' :: body := by
      cases rest <;> simp_all
    unfold blockComment
    split
    · rename_i t ht
      simpa [text, commentOpener] using commentTail?_prefix ht
    · simp [text, commentOpener]
  split
  · rename_i h
    subst h
    simpa [text, string] using stringTail_prefix rest
  split
  · simpa [text, word] using List.takeWhile_prefix _
  split
  · simpa [text, number] using numberTail_prefix false rest
  · exact sign_prefix c rest

theorem sign_text_ne_nil (c : Char) (rest : List Char) : (sign c rest).text ≠ [] := by
  unfold sign
  split
  · simp [text]
  split
  · simp [text]
  split <;> simp [text]

theorem blockComment_text_ne_nil (body : List Char) : (blockComment body).text ≠ [] := by
  unfold blockComment
  split <;> simp [text, commentOpener]

theorem first_text_ne_nil (c : Char) (rest : List Char) : (first c rest).text ≠ [] := by
  unfold first
  split
  · simp [text]
  split
  · simp [text, lineComment]
  split
  · exact blockComment_text_ne_nil _
  split
  · simp [text, string]
  split
  · simp [text, word]
  split
  · simp [text, number]
  · exact sign_text_ne_nil c rest

/-! ## Lines -/

theorem newline_not_mem_stringTail (cs : List Char) : '\n' ∉ stringTail cs := by
  fun_induction stringTail cs with
  | case1 rest ih => simpa using ih
  | case2 => decide
  | case3 => simp
  | case4 c rest _ _ hline ih => simpa [Ne.symm hline] using ih
  | case5 => simp

theorem newline_not_mem_numberTail (point : Bool) (cs : List Char) :
    '\n' ∉ numberTail point cs := by
  have hline : isDigit '\n' = false := by decide
  fun_induction numberTail point cs with
  | case1 => simp
  | case2 point c rest hdigit ih =>
    have hc : '\n' ≠ c := by
      rintro rfl
      rw [hline] at hdigit
      cases hdigit
    simpa [hc] using ih
  | case3 point c rest _ hpoint ih =>
    have hc : c = '.' := by simpa using (Bool.and_eq_true_iff.1 hpoint).1
    simpa [hc] using ih
  | case4 => simp

theorem newline_not_mem_sign {c : Char} {rest text : List Char} {kind : Token.Kind}
    (hc : c ≠ '\n') (h : sign c rest = .lexeme kind text) : '\n' ∉ text := by
  have hoperators : ∀ op ∈ operators, '\n' ∉ op := by decide
  rw [sign] at h
  split at h
  · rename_i hpair
    cases h
    exact hoperators _ (List.contains_iff_mem.1 hpair)
  split at h
  · cases h
    simpa using hc.symm
  split at h
  · cases h
    simpa using hc.symm
  · cases h
    simpa using hc.symm

/-- No lexeme goes over the end of a line. -/
theorem newline_not_mem_lexeme {c : Char} {rest text : List Char} {kind : Token.Kind}
    (h : first c rest = .lexeme kind text) : '\n' ∉ text := by
  have hword : isWordChar '\n' = false := by decide +kernel
  have hdigit : isDigit '\n' = false := by decide
  rw [first] at h
  split at h
  · cases h
  rename_i hspace
  have hc : c ≠ '\n' := by
    rintro rfl
    exact hspace rfl
  split at h
  · cases h
  split at h
  · rw [blockComment] at h
    split at h <;> cases h
  split at h
  · cases h
    simpa using newline_not_mem_stringTail rest
  split at h
  · cases h
    rw [List.mem_cons, not_or]
    refine ⟨hc.symm, fun hmem => ?_⟩
    have hpass := List.mem_takeWhile_imp hmem
    rw [hword] at hpass
    cases hpass
  split at h
  · cases h
    rw [List.mem_cons, not_or]
    exact ⟨hc.symm, newline_not_mem_numberTail false rest⟩
  · exact newline_not_mem_sign hc h

end Piece

open Piece in
/-- The pieces of a text. -/
def pieces : List Char → List Piece
  | [] => []
  | c :: rest => first c rest :: pieces ((c :: rest).drop (first c rest).text.length)
termination_by cs => cs.length
decreasing_by
  have := List.length_pos_iff.2 (first_text_ne_nil c rest)
  simp only [List.length_drop, List.length_cons]
  omega

@[simp] theorem pieces_nil : pieces [] = [] := by
  simp [pieces]

theorem pieces_cons (c : Char) (rest : List Char) :
    pieces (c :: rest) =
      Piece.first c rest :: pieces ((c :: rest).drop (Piece.first c rest).text.length) := by
  rw [pieces]

/-- Nothing of the text is lost. -/
theorem flatMap_text_pieces (cs : List Char) : (pieces cs).flatMap Piece.text = cs := by
  fun_induction pieces cs with
  | case1 => rfl
  | case2 c rest ih =>
    rw [List.flatMap_cons, ih]
    exact (List.prefix_iff_eq_append.1 (Piece.first_prefix c rest))

/-- The tokens among pieces, the first of which stands at `p`. -/
def locate (p : Position) : List Piece → List Token
  | [] => []
  | piece :: more =>
    let later := locate (p.after piece.text) more
    match piece.token? with
    | some (kind, text) => ⟨kind, String.ofList text, p⟩ :: later
    | none => later

theorem locate_append (p : Position) (a b : List Piece) :
    locate p (a ++ b) = locate p a ++ locate (p.after (a.flatMap Piece.text)) b := by
  induction a generalizing p with
  | nil => rfl
  | cons piece more ih =>
    simp only [List.cons_append, locate, List.flatMap_cons, Position.after_append, ih]
    cases piece.token? <;> rfl

end SqlScript
