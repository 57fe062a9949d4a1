import SqlScript.Proofs.Token.Rescan

/-!
The scanner keeps nothing over the end of a line but a comment that is still open. So lexemes can be
scanned again one to a line, errors too, and texts can be put below each other.
-/

namespace SqlScript

/-! ## Lines -/

/-- Nothing follows, or a line feed. -/
def AtLineEnd (rest : List Char) : Prop := ∀ d ∈ rest.head?, d = '\n'

theorem AtLineEnd.nil : AtLineEnd [] := by simp [AtLineEnd]

theorem AtLineEnd.newline (rest : List Char) : AtLineEnd ('\n' :: rest) := by simp [AtLineEnd]

theorem AtLineEnd.cases {rest : List Char} (h : AtLineEnd rest) :
    rest = [] ∨ ∃ more, rest = '\n' :: more := by
  cases rest with
  | nil => exact .inl rfl
  | cons d more =>
    obtain rfl := h d rfl
    exact .inr ⟨more, rfl⟩

theorem AtLineEnd.parted {rest : List Char} (h : AtLineEnd rest) : Parted rest := by
  intro d hd
  rw [h d hd]
  rfl

theorem AtLineEnd.head?_ne {rest : List Char} (h : AtLineEnd rest) {d : Char} (hd : d ≠ '\n') :
    rest.head? ≠ some d := fun hrest => hd (h d hrest)

theorem head?_append_iff {rest : List Char} {d : Char} (h : rest.head? ≠ some d) (cs : List Char) :
    (cs ++ rest).head? = some d ↔ cs.head? = some d := by
  cases cs with
  | nil => simp [h]
  | cons c cs => rfl

/-- The text up to the end of its first line. -/
def firstLine (cs : List Char) : List Char := cs.takeWhile (· ≠ '\n')

theorem newline_not_mem_firstLine (cs : List Char) : '\n' ∉ firstLine cs := by
  intro h
  simpa using List.mem_takeWhile_imp h

theorem exists_firstLine_append (cs : List Char) :
    ∃ rest, AtLineEnd rest ∧ cs = firstLine cs ++ rest := by
  refine ⟨cs.dropWhile (· ≠ '\n'), ?_, List.takeWhile_append_dropWhile.symm⟩
  intro d hd
  have hnot := List.head?_dropWhile_not (· ≠ '\n') cs
  rw [hd] at hnot
  simpa using hnot

namespace Piece

/-! ## Runs -/

/-- A run ends where a character follows that does not belong to it. -/
theorem takeWhile_append_of_head? {p : Char → Bool} {rest : List Char}
    (h : ∀ d ∈ rest.head?, p d = false) (cs : List Char) :
    (cs ++ rest).takeWhile p = cs.takeWhile p := by
  have hnone : rest.takeWhile p = [] := by
    cases rest with
    | nil => rfl
    | cons d rest => simp [h d rfl]
  rw [List.takeWhile_append, hnone, List.append_nil]
  split
  · rename_i hlength
    exact ((List.takeWhile_prefix p).eq_of_length hlength).symm
  · rfl

section

variable {rest : List Char} (hrest : Parted rest)
include hrest

theorem numberTail_append_parted (point : Bool) (cs : List Char) :
    numberTail point (cs ++ rest) = numberTail point cs := by
  fun_induction numberTail point cs with
  | case1 point => exact numberTail_of_parted point hrest
  | case2 point c more hc ih => simp [numberTail, hc, ih]
  | case3 point c more hc hp ih => simp [numberTail, hc, hp, ih]
  | case4 point c more hc hp => simp [numberTail, hc, hp]

theorem number_append_parted (c : Char) (cs : List Char) : number c (cs ++ rest) = number c cs := by
  rw [number, number, numberTail_append_parted hrest]

theorem word_append_parted (c : Char) (cs : List Char) : word c (cs ++ rest) = word c cs := by
  rw [word, word, takeWhile_append_of_head? fun d hd => isWordChar_of_isSpace (hrest d hd)]

theorem sign_append_parted (c : Char) (cs : List Char) : sign c (cs ++ rest) = sign c cs := by
  cases cs with
  | nil => exact sign_of_parted c hrest
  | cons d cs => rfl

end

/-! ## Pieces on their lines -/

/-- The text opens a comment that may go over several lines. -/
def OpensBlock (c : Char) (rest : List Char) : Prop := c = '/' ∧ rest.head? = some '*'

theorem opensBlock_append_iff {rest : List Char} (h : rest.head? ≠ some '*') (c : Char)
    (cs : List Char) : OpensBlock c (cs ++ rest) ↔ OpensBlock c cs :=
  and_congr_right fun _ => head?_append_iff h cs

theorem first_opener (body : List Char) : first '/' ('*' :: body) = blockComment body := by
  rw [first_slash]
  rfl

theorem first_of_not_opensBlock {c : Char} {cs : List Char} (h : ¬ OpensBlock c cs) :
    first c cs =
      if isSpace c then .blank c
      else if c = '-' && cs.head? = some '-' then lineComment c cs
      else if c = '\x27' then string cs
      else if isWordStart c then word c cs
      else if isDigit c then number c cs
      else sign c cs := by
  have hblock : ¬ (decide (c = '/') && decide (cs.head? = some '*')) = true := by
    simpa [OpensBlock] using h
  rw [first, if_neg hblock]

/-- A quote that no other one follows ends a string. -/
theorem string_parts_quote {rest : List Char} (h : rest.head? ≠ some '\x27') :
    stringTail ('\x27' :: rest) = ['\x27'] ∧ stringCloses ('\x27' :: rest) = true := by
  have hquote : ∀ later, rest ≠ '\x27' :: later := by
    rintro later rfl
    exact h rfl
  rw [stringTail, stringCloses]
  · exact ⟨rfl, rfl⟩
  · exact hquote
  · exact hquote

section

variable {rest : List Char} (hrest : AtLineEnd rest)
include hrest

theorem string_parts_append (cs : List Char) :
    stringTail (cs ++ rest) = stringTail cs ∧ stringCloses (cs ++ rest) = stringCloses cs := by
  fun_induction stringTail cs with
  | case1 more ih => simpa [stringTail, stringCloses] using ih
  | case2 more hmore =>
    have hhead : more.head? ≠ some '\x27' := fun h =>
      (List.head?_eq_some_iff.1 h).elim hmore
    have hagain : (more ++ rest).head? ≠ some '\x27' := by
      rwa [Ne, head?_append_iff (hrest.head?_ne (by decide))]
    rw [List.cons_append, (string_parts_quote hagain).1, (string_parts_quote hagain).2,
      (string_parts_quote hhead).2]
    exact ⟨rfl, rfl⟩
  | case3 => simp [stringTail, stringCloses]
  | case4 c more _ hquote hline ih =>
    rw [List.cons_append, stringTail_cons hquote hline, stringCloses_cons hquote hline,
      stringCloses_cons hquote hline, ih.1]
    exact ⟨rfl, ih.2⟩
  | case5 => rcases hrest.cases with rfl | ⟨more, rfl⟩ <;> simp [stringTail, stringCloses]

theorem string_append_line (cs : List Char) : string (cs ++ rest) = string cs := by
  obtain ⟨htail, hcloses⟩ := string_parts_append hrest cs
  rw [string, string, htail, hcloses]

theorem lineComment_append_line (c : Char) (cs : List Char) :
    lineComment c (cs ++ rest) = lineComment c cs := by
  have hend : ∀ d ∈ rest.head?, decide (d ≠ '\n') = false := by
    intro d hd
    simpa using hrest d hd
  rw [lineComment, lineComment, takeWhile_append_of_head? hend]

/-- A piece hangs on its line alone, unless it is a comment that may go on. -/
theorem first_append_line {c : Char} {cs : List Char} (h : ¬ OpensBlock c cs) :
    first c (cs ++ rest) = first c cs := by
  have hminus := head?_append_iff (hrest.head?_ne (d := '-') (by decide)) cs
  have hmore : ¬ OpensBlock c (cs ++ rest) := by
    rwa [opensBlock_append_iff (hrest.head?_ne (by decide))]
  rw [first_of_not_opensBlock h, first_of_not_opensBlock hmore]
  simp only [hminus, lineComment_append_line hrest, string_append_line hrest,
    word_append_parted hrest.parted, number_append_parted hrest.parted,
    sign_append_parted hrest.parted]

end

/-! ## Lexemes and their lines -/

theorem not_opensBlock_of_lexeme {c : Char} {cs text : List Char} {kind : Token.Kind}
    (h : first c cs = .lexeme kind text) : ¬ OpensBlock c cs := by
  rintro ⟨rfl, hstar⟩
  rw [first_slash, if_pos hstar, blockComment] at h
  split at h <;> cases h

/-- What stands behind its line does not matter to a piece. -/
theorem first_firstLine {c : Char} {cs : List Char} (h : ¬ OpensBlock c cs) :
    first c (firstLine cs) = first c cs := by
  obtain ⟨rest, hrest, hcs⟩ := exists_firstLine_append cs
  have hline : ¬ OpensBlock c (firstLine cs) := by
    rwa [hcs, opensBlock_append_iff (hrest.head?_ne (by decide))] at h
  calc first c (firstLine cs)
    _ = first c (firstLine cs ++ rest) := (first_append_line hrest hline).symm
    _ = first c cs := by rw [← hcs]

/-- A string that is not closed takes the rest of its line. -/
theorem stringTail_of_not_closes {cs : List Char} (h : stringCloses cs = false) :
    stringTail cs = firstLine cs := by
  unfold firstLine
  fun_induction stringTail cs with
  | case1 rest ih =>
    rw [stringCloses] at h
    simp [ih h]
  | case2 rest hrest =>
    rw [stringCloses] at h
    · cases h
    · exact hrest
  | case3 => simp
  | case4 c rest _ hquote hline ih =>
    rw [stringCloses_cons hquote hline] at h
    rw [ih h, List.takeWhile_cons_of_pos (by simpa using hline)]
  | case5 => rfl

theorem sign_error {c : Char} {cs text : List Char} (h : sign c cs = .lexeme .error text) :
    text = [c] ∧ sign c [] = .lexeme .error [c] := by
  unfold sign at h
  split at h
  · cases h
  split at h
  · cases h
  rename_i hsingle
  split at h
  · cases h
  rename_i hmark
  cases h
  refine ⟨rfl, ?_⟩
  rw [sign, List.take_nil, if_neg hsingle, if_neg hsingle, if_neg hmark]

/-- An error is a string that is not closed, or one character that would be an error anywhere. -/
theorem first_error {c : Char} {cs text : List Char} (h : first c cs = .lexeme .error text) :
    (c = '\x27' ∧ stringCloses cs = false ∧ text = '\x27' :: firstLine cs) ∨
      (text = [c] ∧ first c [] = .lexeme .error [c]) := by
  by_cases hminus : c = '-'
  · subst hminus
    rw [first_minus] at h
    split at h
    · cases h
    · cases h
      exact .inr ⟨rfl, first_minus []⟩
  by_cases hslash : c = '/'
  · subst hslash
    have hstar := not_opensBlock_of_lexeme h
    rw [first_slash, if_neg fun hs => hstar ⟨rfl, hs⟩] at h
    cases h
    exact .inr ⟨rfl, first_slash []⟩
  rw [first_of_ne hminus hslash] at h ⊢
  split at h
  · cases h
  rename_i hspace
  split at h
  · rename_i hquote
    rw [string] at h
    cases hcloses : stringCloses cs with
    | true => simp [hcloses] at h
    | false =>
      rw [hcloses] at h
      cases h
      exact .inl ⟨hquote, rfl, by rw [stringTail_of_not_closes hcloses]⟩
  rename_i hquote
  split at h
  · rw [word, wordKind] at h
    split at h <;> cases h
  rename_i hword
  split at h
  · cases h
  rename_i hdigit
  obtain ⟨htext, hsign⟩ := sign_error h
  rw [if_neg hspace, if_neg hquote, if_neg hword, if_neg hdigit]
  exact .inr ⟨htext, hsign⟩

/-- A lexeme is read again where it has a line to itself. -/
theorem first_lexeme_line {c : Char} {cs text : List Char} {kind : Token.Kind}
    (h : first c cs = .lexeme kind text) :
    ∃ tail, text = c :: tail ∧
      ∀ rest, AtLineEnd rest → first c (tail ++ rest) = .lexeme kind text := by
  have hagain : ∃ tail, text = c :: tail ∧ first c tail = .lexeme kind text := by
    by_cases hkind : kind = .error
    · subst hkind
      rcases first_error h with ⟨rfl, hcloses, rfl⟩ | ⟨rfl, hnil⟩
      · exact ⟨firstLine cs, rfl, (first_firstLine (not_opensBlock_of_lexeme h)).trans h⟩
      · exact ⟨[], rfl, hnil⟩
    · obtain ⟨d, tail, rfl, hfirst⟩ := standalone_of_first h hkind
      have hfront := first_prefix c cs
      rw [h] at hfront
      obtain ⟨rfl, -⟩ := List.cons_prefix_cons.1 hfront
      exact ⟨tail, rfl, by simpa using hfirst [] .nil⟩
  obtain ⟨tail, rfl, hfirst⟩ := hagain
  exact ⟨tail, rfl, fun rest hrest =>
    (first_append_line hrest (not_opensBlock_of_lexeme hfirst)).trans hfirst⟩

end Piece

/-! ## One lexeme to a line -/

open Piece in
/-- The tokens can be written one to a line: each is the first piece of its own line, but for the
opener of a comment, which has to be the last. -/
inductive Lined : List Token → Prop where
  | nil : Lined []
  | opener {t : Token} (hkind : t.kind = .error) (hlexeme : t.lexeme.toList = commentOpener) :
      Lined [t]
  | cons {t : Token} {ts : List Token} (hline : '\n' ∉ t.lexeme.toList)
      (hpieces : ∀ rest, AtLineEnd rest → pieces (t.lexeme.toList ++ rest) =
        .lexeme t.kind t.lexeme.toList :: pieces rest) (h : Lined ts) : Lined (t :: ts)

theorem lined_pieces (p : Position) (text : List Char) : Lined (locate p (pieces text)) := by
  fun_induction pieces text generalizing p with
  | case1 => exact .nil
  | case2 c rest ih =>
    have hstands := Piece.first_stands
      (List.prefix_iff_eq_append.1 (Piece.first_prefix c rest)).symm
    rw [locate]
    cases hfirst : Piece.first c rest with
    | blank | comment =>
      rw [hfirst] at ih
      exact ih _
    | lexeme kind text =>
      obtain ⟨tail, rfl, hagain⟩ := Piece.first_lexeme_line hfirst
      have hline := Piece.newline_not_mem_lexeme hfirst
      rw [hfirst] at ih
      refine .cons (by simpa using hline) (fun rest hrest => ?_) (ih _)
      simp only [String.toList_ofList, List.cons_append]
      rw [pieces_cons, hagain rest hrest]
      simp [Piece.text]
    | unclosedComment body =>
      rw [hfirst] at hstands ih
      rw [hstands.1, pieces_nil]
      exact .opener rfl String.toList_ofList

theorem Position.next_newline (p : Position) : p.next '\n' = ⟨p.line + 1, 1⟩ := rfl

theorem pieces_newline (rest : List Char) : pieces ('\n' :: rest) = .blank '\n' :: pieces rest :=
  pieces_of_isSpace rfl rest

/-- Tokens that are written one to a line are read as they are, each at the start of its line. -/
theorem locate_lines {ts : List Token} (h : Lined ts) (line : Int) :
    locate ⟨line, 1⟩ (pieces (['\n'].intercalate (ts.map fun t => t.lexeme.toList))) =
      ts.mapIdx fun k t => { t with position := ⟨k + line, 1⟩ } := by
  induction h generalizing line with
  | nil => simp [List.intercalate, locate]
  | @opener t hkind hlexeme =>
    have hfirst : pieces Piece.commentOpener = [.unclosedComment []] := by
      rw [Piece.commentOpener, pieces_cons, Piece.first_slash]
      simp [Piece.blockComment, Piece.commentTail?, Piece.text, Piece.commentOpener]
    rw [List.map_singleton, List.intercalate_singleton, hlexeme, hfirst]
    have ht : String.ofList Piece.commentOpener = t.lexeme := by
      rw [← hlexeme, String.ofList_toList]
    simp [locate, Piece.token?, ht, hkind]
  | @cons t ts hline hpieces h ih =>
    have hnext (k : Nat) : ((k + 1 : Nat) : Int) + line = k + (line + 1) := by omega
    have hlater := ih (line + 1)
    rw [List.mapIdx_cons]
    simp only [hnext]
    cases ts with
    | nil =>
      have hone := hpieces [] .nil
      rw [List.append_nil] at hone
      rw [List.map_singleton, List.intercalate_singleton, hone, pieces_nil, locate_lexeme]
      simp [locate]
    | cons u us =>
      rw [List.map_cons] at hlater
      rw [List.map_cons, List.map_cons, List.intercalate_cons_cons, List.append_assoc,
        List.singleton_append, hpieces _ (.newline _), locate_lexeme, pieces_newline, locate_blank,
        Position.next_newline, Position.after_of_line hline, hlater]
      simp

theorem filter_scan (source : String) :
    (scan source).filter (·.kind ≠ .endOfInput) = lexemes source := by
  have hall : ∀ t ∈ lexemes source, decide (t.kind ≠ .endOfInput) = true := fun t ht =>
    decide_eq_true (kind_of_mem_lexemes ht)
  rw [scan, withEndMark, List.filter_append, List.filter_eq_self.2 hall]
  exact List.append_nil _

/-- The lexemes of a text, errors too, are scanned again from the text that has one of them on each
line. -/
theorem scan_lines (source : String) :
    let tokens := (scan source).filter (·.kind ≠ .endOfInput)
    (scan ("\n".intercalate (tokens.map (·.lexeme)))).filter (·.kind ≠ .endOfInput) =
      tokens.mapIdx fun k t => { t with position := ⟨k + 1, 1⟩ } := by
  intro tokens
  have htokens : tokens = lexemes source := filter_scan source
  have hlines := locate_lines (lined_pieces .start source.toList) 1
  rw [filter_scan, htokens, lexemes_eq, lexemes_eq, String.toList_intercalate, List.map_map]
  exact hlines

/-! ## Texts below each other -/

namespace Piece

theorem commentTail?_append {cs tail : List Char} (h : commentTail? cs = some tail)
    (rest : List Char) : commentTail? (cs ++ rest) = some tail := by
  fun_induction commentTail? cs generalizing tail with
  | case1 => exact h
  | case2 c more hc ih =>
    obtain ⟨tail, htail, rfl⟩ := Option.map_eq_some_iff.1 h
    rw [List.cons_append, commentTail?, ih htail]
    · rfl
    · rintro later rfl hslash
      cases more with
      | nil => cases htail
      | cons d more =>
        obtain ⟨rfl, -⟩ := List.cons_eq_cons.1 hslash
        exact hc more rfl rfl
  | case3 => cases h

/-- A piece stays as it is if the text goes on behind a line feed, unless it is a comment that is
still open. -/
theorem first_append_of_closed {c : Char} {cs rest : List Char} (hrest : AtLineEnd rest)
    (h : ∀ body, first c cs ≠ .unclosedComment body) : first c (cs ++ rest) = first c cs := by
  by_cases hblock : OpensBlock c cs
  · obtain ⟨rfl, hstar⟩ := hblock
    obtain ⟨body, rfl⟩ := List.head?_eq_some_iff.1 hstar
    rw [List.cons_append, first_opener, first_opener]
    rw [first_opener] at h
    unfold blockComment at h ⊢
    cases htail : commentTail? body with
    | none =>
      rw [htail] at h
      exact absurd rfl (h body)
    | some tail => rw [commentTail?_append htail]
  · exact first_append_line hrest hblock

end Piece

theorem pieces_append_line {a : List Char} (h : ∀ body, .unclosedComment body ∉ pieces a)
    (b : List Char) : pieces (a ++ '\n' :: b) = pieces a ++ .blank '\n' :: pieces b := by
  fun_induction pieces a with
  | case1 => exact pieces_newline b
  | case2 c rest ih =>
    have hfirst : Piece.first c (rest ++ '\n' :: b) = Piece.first c rest :=
      Piece.first_append_of_closed (.newline b) fun body hbody =>
        h body (hbody ▸ List.mem_cons_self ..)
    have hlength := (Piece.first_prefix c rest).length_le
    have hlater := ih fun body hbody => h body (List.mem_cons_of_mem _ hbody)
    rw [List.cons_append, pieces_cons, hfirst, ← List.cons_append,
      List.drop_append_of_le_length hlength, hlater]
    rfl

/-- The position, some lines further down. -/
def Position.lowered (lines : Int) (p : Position) : Position := ⟨p.line + lines, p.column⟩

def Token.lowered (lines : Int) (t : Token) : Token :=
  { t with position := t.position.lowered lines }

theorem Position.lowered_after (lines : Int) (p : Position) (cs : List Char) :
    (p.lowered lines).after cs = (p.after cs).lowered lines := by
  induction cs generalizing p with
  | nil => rfl
  | cons c cs ih =>
    have hnext : (p.lowered lines).next c = (p.next c).lowered lines := by
      unfold next lowered
      split
      · simp only [Int.add_right_comm]
      · rfl
    rw [after_cons, after_cons, hnext, ih]

theorem locate_lowered (lines : Int) (p : Position) (ps : List Piece) :
    locate (p.lowered lines) ps = (locate p ps).map (Token.lowered lines) := by
  induction ps generalizing p with
  | nil => rfl
  | cons piece more ih =>
    rw [locate, locate, Position.lowered_after, ih]
    cases piece.token? <;> rfl

theorem exists_token_of_piece {ps : List Piece} {piece : Piece} (h : piece ∈ ps)
    {kind : Token.Kind} {text : List Char} (ht : piece.token? = some (kind, text)) (p : Position) :
    ∃ t ∈ locate p ps, t.kind = kind ∧ t.lexeme = String.ofList text := by
  induction ps generalizing p with
  | nil => cases h
  | cons first more ih =>
    rw [locate]
    rcases List.mem_cons.1 h with rfl | h
    · rw [ht]
      exact ⟨_, List.mem_cons_self .., rfl, rfl⟩
    · obtain ⟨t, hmem, hkind⟩ := ih h (p.after first.text)
      cases first.token? with
      | none => exact ⟨t, hmem, hkind⟩
      | some kt => exact ⟨t, List.mem_cons_of_mem _ hmem, hkind⟩

/-- Where no comment stays open, a text and one below it are scanned each for itself; the lines of
the second are counted on. -/
theorem scan_below {a b : String}
    (h : ∀ t ∈ scan a, ¬ (t.kind = .error ∧ t.fault = .unclosedComment)) :
    (scan (a ++ "\n" ++ b)).filter (·.kind ≠ .endOfInput) =
      (scan a).filter (·.kind ≠ .endOfInput) ++
        ((scan b).filter (·.kind ≠ .endOfInput)).map
          (Token.lowered (1 + a.toList.count '\n')) := by
  have hclosed : ∀ body, .unclosedComment body ∉ pieces a.toList := by
    intro body hbody
    obtain ⟨t, ht, hkind, hlexeme⟩ := exists_token_of_piece hbody rfl .start
    have hfault : t.fault = .unclosedComment := by
      rw [Token.fault, hlexeme]
      rfl
    rw [← lexemes_eq] at ht
    exact h t (List.mem_append_left _ ht) ⟨hkind, hfault⟩
  have htext : (a ++ "\n" ++ b).toList = a.toList ++ '\n' :: b.toList := by
    rw [String.toList_append, String.toList_append, List.append_assoc]
    rfl
  have hstart : (Position.start.after a.toList).next '\n' =
      Position.start.lowered (1 + a.toList.count '\n') := by
    rw [Position.start_after]
    exact congrArg (Position.mk · 1) (Int.add_comm ..)
  rw [filter_scan, filter_scan, filter_scan, lexemes_eq, lexemes_eq, lexemes_eq, htext,
    pieces_append_line hclosed, locate_append, flatMap_text_pieces, locate_blank, hstart,
    locate_lowered]

/-- The first text ends in half of an operator, behind a string that is not closed; the second one
begins with the other half. -/
theorem scan_below_halves :
    let a := "n -- it's\n'x\n<"
    let b := "> /* 1 */ -"
    (∀ t ∈ scan a, ¬ (t.kind = .error ∧ t.fault = .unclosedComment)) ∧
      (scan (a ++ "\n" ++ b)).filter (·.kind ≠ .endOfInput) =
        [⟨.identifier, "n", ⟨1, 1⟩⟩, ⟨.error, "'x", ⟨2, 1⟩⟩, ⟨.operator, "<", ⟨3, 1⟩⟩,
          ⟨.operator, ">", ⟨4, 1⟩⟩, ⟨.error, "-", ⟨4, 11⟩⟩] := by
  intro a b
  have h : ∀ t ∈ scan a, ¬ (t.kind = .error ∧ t.fault = .unclosedComment) := by decide +kernel
  exact ⟨h, (scan_below h).trans (by decide +kernel)⟩

end SqlScript
