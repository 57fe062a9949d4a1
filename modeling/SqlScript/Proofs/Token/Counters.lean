import SqlScript.Proofs.Token.Piece
import SqlScript.Token.Scan

/-!
The counters of the scanner. What it looks for by indices is what lists of characters give, and each
turn takes the first piece of what is left and keeps index, line and column in step with it.
-/

namespace SqlScript

namespace Scanner

variable {code : Array Char} {i j : Nat}

/-! ## Indices -/

theorem drop_of_lt (hi : i < code.size) :
    code.toList.drop i = code[i] :: code.toList.drop (i + 1) :=
  List.drop_eq_getElem_cons (by simpa using hi)

theorem drop_of_not_lt (hi : ¬ i < code.size) : code.toList.drop i = [] :=
  List.drop_eq_nil_of_le (by simpa using hi)

theorem slice_eq (i j : Nat) : slice code i j = (code.toList.drop i).take (j - i) := by
  rw [slice, Array.toList_extract, List.extract_eq_take_drop]

theorem slice_add (i n : Nat) : slice code i (i + n) = (code.toList.drop i).take n := by
  rw [slice_eq, Nat.add_sub_cancel_left]

theorem slice_of_front {text : List Char} (h : text <+: code.toList.drop i)
    (hj : j = i + text.length) : slice code i j = text := by
  rw [hj, slice_add, ← List.prefix_iff_eq_take.1 h]

theorem startsWith_iff {text : List Char} :
    startsWith code text i = true ↔ text <+: code.toList.drop i := by
  rw [startsWith, beq_iff_eq, slice_add, List.prefix_iff_eq_take, eq_comm]

theorem skip_eq (p : Char → Bool) (i : Nat) :
    skip code p i = i + ((code.toList.drop i).takeWhile p).length := by
  fun_induction skip code p i with
  | case1 i hi hp ih => simp [ih, drop_of_lt hi, hp, Nat.add_assoc, Nat.add_comm 1]
  | case2 i hi hp => simp [drop_of_lt hi, hp]
  | case3 i hi => simp [drop_of_not_lt hi]

theorem numberEnd_eq (point : Bool) (i : Nat) :
    numberEnd code point i = i + (Piece.numberTail point (code.toList.drop i)).length := by
  fun_induction numberEnd code point i with
  | case1 point i hi hp ih =>
    rw [ih, drop_of_lt hi, Piece.numberTail_cons, if_pos hp, List.length_cons, Nat.add_assoc,
      Nat.add_comm 1]
  | case2 point i hi hp =>
    rw [drop_of_lt hi, Piece.numberTail_cons, if_neg hp, List.length_nil, Nat.add_zero]
  | case3 point i hi => rw [drop_of_not_lt hi, Piece.numberTail, List.length_nil, Nat.add_zero]

theorem stringEnd_eq (j : Nat) :
    stringEnd code j = (j + (Piece.stringTail (code.toList.drop j)).length,
      Piece.stringCloses (code.toList.drop j)) := by
  fun_induction stringEnd code j with
  | case1 j hj hline => simp [drop_of_lt hj, hline, Piece.stringTail, Piece.stringCloses]
  | case2 j hj hline hquote hdouble ih =>
    obtain ⟨rest, hrest⟩ := startsWith_iff.1 hdouble
    have hlater : code.toList.drop (j + 2) = rest := by
      rw [← List.drop_drop, ← hrest]
      rfl
    rw [ih, ← hrest, hlater]
    simp [Piece.stringTail, Piece.stringCloses, Nat.add_assoc, Nat.add_comm 2]
  | case3 j hj hline hquote hdouble =>
    have hrest : ∀ more, code.toList.drop (j + 1) ≠ '\x27' :: more := by
      intro more hmore
      refine hdouble (startsWith_iff.2 ⟨more, ?_⟩)
      rw [drop_of_lt hj, hquote, hmore]
      rfl
    rw [drop_of_lt hj, hquote, Piece.stringTail, Piece.stringCloses]
    · rfl
    all_goals exact hrest
  | case4 j hj hline hquote ih =>
    rw [ih, drop_of_lt hj, Piece.stringTail_cons hquote hline, Piece.stringCloses_cons hquote hline,
      List.length_cons, Nat.add_assoc, Nat.add_comm 1]
  | case5 j hj =>
    rw [drop_of_not_lt hj, Piece.stringTail, Piece.stringCloses]
    rfl

/-- A comment goes on to the first closer behind its opener. -/
theorem find?_closer (i : Nat) :
    (find? code ['*', '/'] i).map (· + 2) =
      (Piece.commentTail? (code.toList.drop i)).map fun tail => i + tail.length := by
  fun_induction find? code ['*', '/'] i with
  | case1 i hi hcloser =>
    obtain ⟨rest, hrest⟩ := startsWith_iff.1 hcloser
    rw [← hrest]
    rfl
  | case2 i hi hopen ih =>
    have hlt : i < code.size := Nat.lt_of_lt_of_le (Nat.lt_add_of_pos_right (by decide)) hi
    have hcloser : code[i] = '*' → (code.toList.drop (i + 1)).head? ≠ some '/' := by
      intro hstar hslash
      obtain ⟨rest, hrest⟩ := List.head?_eq_some_iff.1 hslash
      refine hopen (startsWith_iff.2 ⟨rest, ?_⟩)
      rw [drop_of_lt hlt, hstar, hrest]
      rfl
    rw [ih, drop_of_lt hlt, Piece.commentTail?_cons hcloser, Option.map_map]
    congr 1
    funext tail
    simp [Nat.add_assoc, Nat.add_comm 1]
  | case3 i hi =>
    cases hrest : code.toList.drop i with
    | nil => rfl
    | cons c rest =>
      have hlength := congrArg List.length hrest
      obtain rfl : rest = [] := by
        refine List.eq_nil_of_length_eq_zero ?_
        simp only [List.length_drop, Array.length_toList, List.length_cons] at hlength hi
        simp only [List.length_nil] at hi
        omega
      rw [Piece.commentTail?_cons (by simp)]
      rfl

/-! ## Cursors -/

/-- The counters stand at the position `p` in front of `rest`. The column may be another where a line
feed comes next, or nothing. -/
structure InStep (code : Array Char) (p : Position) (rest : List Char) (s : Cursor) : Prop where
  index : code.toList.drop s.index = rest
  line : s.line = p.line
  column : s.column = p.column ∨ ∀ c ∈ rest.head?, c = '\n'

/-- What a turn at the position `p` comes to where `piece` is next, in front of `more`. -/
inductive Takes (code : Array Char) (p : Position) : Piece → (more : List Char) → Turn → Prop where
  | next {piece : Piece} {more : List Char} {s : Cursor}
      (h : InStep code (p.after piece.text) more s) :
      Takes code p piece more (.next (piece.token?.map fun x => ⟨x.1, String.ofList x.2, p⟩) s)
  | last (body : List Char) : Takes code p (.unclosedComment body) [] (.last ⟨.error, "/*", p⟩)

section

variable {p : Position} {s : Cursor} {c : Char} {rest : List Char}

theorem InStep.startsWith (h : InStep code p (c :: rest) s) (a b : Char) :
    startsWith code [a, b] s.index = (c = a && rest.head? = some b) := by
  rw [Bool.eq_iff_iff, startsWith_iff, h.index]
  cases rest with
  | nil => simp
  | cons d rest => simp [List.cons_prefix_cons, @eq_comm _ a, @eq_comm _ b]

/-- Only in front of a line feed the column may be another. -/
theorem InStep.position (h : InStep code p (c :: rest) s) (hc : c ≠ '\n') : s.toPosition = p := by
  have hcolumn := h.column.resolve_right fun hnext => hc (hnext c rfl)
  exact congrArg₂ Position.mk h.line hcolumn

theorem InStep.after {text more : List Char} (h : InStep code p (text ++ more) s)
    (hp : s.toPosition = p) (hline : '\n' ∉ text) :
    InStep code (p.after text) more
      ⟨⟨s.line, s.column + text.length⟩, s.index + text.length⟩ := by
  rw [p.after_of_line hline, ← hp]
  refine ⟨?_, rfl, .inl rfl⟩
  rw [← List.drop_drop, h.index, List.drop_left]

/-! ## Turns -/

/-- A lexeme moves index and column by its length. -/
theorem InStep.takes_lexeme {text : List Char} {kind : Token.Kind}
    (h : InStep code p (c :: rest) s) (hp : s.toPosition = p)
    (hfirst : Piece.first c rest = .lexeme kind text) {j : Nat} (hj : j = s.index + text.length) :
    Takes code p (Piece.first c rest) ((c :: rest).drop (Piece.first c rest).text.length)
      (.next (some ⟨kind, String.ofList (slice code s.index j), s.toPosition⟩)
        { s with index := j, column := s.column + (j - s.index) }) := by
  have hfront : text <+: c :: rest := by
    have hfront := Piece.first_prefix c rest
    rwa [hfirst] at hfront
  have hline := Piece.newline_not_mem_lexeme hfirst
  have hslice : slice code s.index j = text := slice_of_front (h.index ▸ hfront) hj
  have hcolumn : (j : Int) - s.index = text.length := by omega
  rw [hfirst]
  obtain ⟨more, hmore⟩ := hfront
  rw [← hmore] at h ⊢
  subst hj hp
  rw [hslice, hcolumn, Piece.text, List.drop_left]
  exact .next (h.after rfl hline)

theorem InStep.takes_sign {kind : Token.Kind} (h : InStep code p (c :: rest) s)
    (hp : s.toPosition = p) (hfirst : Piece.first c rest = .lexeme kind [c]) :
    Takes code p (Piece.first c rest) ((c :: rest).drop (Piece.first c rest).text.length)
      (.next (some ⟨kind, String.ofList [c], s.toPosition⟩)
        { s with index := s.index + 1, column := s.column + 1 }) := by
  have htakes := h.takes_lexeme hp hfirst (j := s.index + 1) rfl
  have hslice : slice code s.index (s.index + 1) = [c] := by
    rw [slice_add, h.index]
    rfl
  have hcolumn : ((s.index + 1 : Nat) : Int) - s.index = 1 := by omega
  rwa [hslice, hcolumn] at htakes

/-- An operator that ends the text is cut out with two characters too; the index is past the end. -/
theorem InStep.takes_pair (h : InStep code p (c :: rest) s) (hp : s.toPosition = p)
    (hfirst : Piece.first c rest = .lexeme .operator (c :: rest.take 1)) :
    Takes code p (Piece.first c rest) ((c :: rest).drop (Piece.first c rest).text.length)
      (.next (some ⟨.operator, String.ofList (slice code s.index (s.index + 2)), s.toPosition⟩)
        { s with index := s.index + 2, column := s.column + 2 }) := by
  cases rest with
  | nil =>
    have hslice : slice code s.index (s.index + 2) = [c] := by
      rw [slice_add, h.index]
      rfl
    subst hp
    rw [hslice, hfirst]
    refine .next ⟨?_, ?_, .inr (by simp [Piece.text])⟩
    · rw [← List.drop_drop, h.index]
      rfl
    · have hline := Piece.newline_not_mem_lexeme hfirst
      rw [Piece.text, Position.after_of_line hline]
  | cons d rest =>
    have htakes := h.takes_lexeme hp hfirst (j := s.index + 2) rfl
    have hcolumn : ((s.index + 2 : Nat) : Int) - s.index = 2 := by omega
    rwa [hcolumn] at htakes

theorem InStep.takes_newline (h : InStep code p ('\n' :: rest) s) :
    Takes code p (.blank '\n') rest (.next none ⟨⟨s.line + 1, 1⟩, s.index + 1⟩) := by
  refine .next ⟨?_, ?_, .inl rfl⟩
  · rw [← List.drop_drop, h.index]
    rfl
  · exact congrArg (· + 1) h.line

theorem InStep.takes_space (h : InStep code p (c :: rest) s) (hp : s.toPosition = p)
    (hc : c ≠ '\n') :
    Takes code p (.blank c) rest
      (.next none { s with index := s.index + 1, column := s.column + 1 }) := by
  subst hp
  exact .next (h.after rfl (by simpa [Piece.text] using hc.symm))

/-- The column stays where the comment begins, but a line feed follows, or nothing. -/
theorem InStep.takes_lineComment (h : InStep code p (c :: rest) s) (hc : c ≠ '\n') :
    Takes code p (Piece.lineComment c rest)
      ((c :: rest).drop (Piece.lineComment c rest).text.length)
      (.next none { s with index := skip code (· ≠ '\n') s.index }) := by
  have htext : (Piece.lineComment c rest).text = (c :: rest).takeWhile (· ≠ '\n') := by
    rw [List.takeWhile_cons_of_pos (by simpa using hc)]
    rfl
  have hmore : (c :: rest).drop (Piece.lineComment c rest).text.length =
      (c :: rest).dropWhile (· ≠ '\n') := by
    have hdrop := List.prefix_iff_eq_append.1 (List.takeWhile_prefix (l := c :: rest) (· ≠ '\n'))
    rw [htext]
    exact List.append_cancel_left (hdrop.trans List.takeWhile_append_dropWhile.symm)
  refine .next ⟨?_, ?_, .inr ?_⟩
  · rw [skip_eq, ← List.drop_drop, h.index, htext]
  · have hline : '\n' ∉ (Piece.lineComment c rest).text := by
      rw [htext]
      exact fun hmem => by simpa using List.mem_takeWhile_imp hmem
    rw [Position.after_of_line hline]
    exact h.line
  · intro d hd
    have hnot := List.head?_dropWhile_not (· ≠ '\n') (c :: rest)
    rw [← hmore, hd] at hnot
    simpa using hnot

theorem InStep.takes_blockComment {body : List Char} (h : InStep code p ('/' :: '*' :: body) s)
    (hp : s.toPosition = p) :
    Takes code p (Piece.blockComment body)
      (('/' :: '*' :: body).drop (Piece.blockComment body).text.length)
      (match find? code ['*', '/'] (s.index + 2) with
        | none => .last ⟨.error, "/*", s.toPosition⟩
        | some j => .next none ⟨s.toPosition.after (slice code s.index (j + 2)), j + 2⟩) := by
  have hbody : code.toList.drop (s.index + 2) = body := by
    rw [← List.drop_drop, h.index]
    rfl
  have hfind := @find?_closer code (s.index + 2)
  rw [hbody] at hfind
  rw [Piece.blockComment]
  cases htail : Piece.commentTail? body with
  | none =>
    rw [htail, Option.map_none, Option.map_eq_none_iff] at hfind
    rw [hfind, hp]
    have hmore : ('/' :: '*' :: body).drop (Piece.unclosedComment body).text.length = [] :=
      List.drop_length
    simp only [hmore]
    exact .last body
  | some tail =>
    rw [htail, Option.map_some, Option.map_eq_some_iff] at hfind
    obtain ⟨j, hj, hlength⟩ := hfind
    obtain ⟨more, rfl⟩ := Piece.commentTail?_prefix htail
    have htext : '/' :: '*' :: (tail ++ more) = (Piece.commentOpener ++ tail) ++ more := rfl
    have hcount : j + 2 = s.index + (Piece.commentOpener ++ tail).length := by
      rw [hlength, List.length_append, ← Nat.add_assoc]
      rfl
    rw [htext] at h ⊢
    rw [hj]
    simp only [hcount, slice_add, h.index, List.take_left, Piece.text, List.drop_left, hp]
    refine .next ⟨?_, rfl, .inl rfl⟩
    rw [← List.drop_drop, h.index, List.drop_left]

/-- Every turn takes the first piece of what is left. -/
theorem InStep.takes_first (h : InStep code p (c :: rest) s) :
    Takes code p (Piece.first c rest) ((c :: rest).drop (Piece.first c rest).text.length)
      (turn code s c) := by
  by_cases hnewline : c = '\n'
  · subst hnewline
    exact h.takes_newline
  have hp := h.position hnewline
  have hindex := h.index
  simp only [turn, h.startsWith, if_neg hnewline]
  -- both go through the same tests in the same order: `hfirst` drops each one that has failed
  have hfirst := Piece.first.eq_def c rest
  split
  · rename_i hspace
    rw [if_pos hspace] at hfirst
    rw [hfirst]
    exact h.takes_space hp hnewline
  rename_i hspace
  rw [if_neg hspace] at hfirst
  split
  · rename_i hdashes
    rw [if_pos hdashes] at hfirst
    rw [hfirst]
    exact h.takes_lineComment hnewline
  rename_i hdashes
  rw [if_neg hdashes] at hfirst
  split
  · rename_i hcomment
    rw [if_pos hcomment] at hfirst
    rw [hfirst]
    obtain ⟨rfl, hstar⟩ : c = '/' ∧ rest.head? = some '*' := by simpa using hcomment
    obtain ⟨body, rfl⟩ := List.head?_eq_some_iff.1 hstar
    exact h.takes_blockComment hp
  rename_i hcomment
  rw [if_neg hcomment] at hfirst
  split
  · rename_i hquote
    rw [if_pos hquote] at hfirst
    rw [stringEnd_eq, ← List.drop_drop, hindex]
    exact h.takes_lexeme hp hfirst (by simp [Nat.add_assoc, Nat.add_comm 1])
  rename_i hquote
  rw [if_neg hquote] at hfirst
  split
  · rename_i hword
    rw [if_pos hword] at hfirst
    have hj : skip code isWordChar s.index =
        s.index + (c :: rest.takeWhile isWordChar).length := by
      rw [skip_eq, hindex, List.takeWhile_cons_of_pos (by simp [isWordChar, hword])]
    have hfront : c :: rest.takeWhile isWordChar <+: code.toList.drop s.index := by
      rw [hindex]
      exact List.cons_prefix_cons.2 ⟨rfl, List.takeWhile_prefix _⟩
    have htakes := h.takes_lexeme hp hfirst hj
    rw [slice_of_front hfront hj] at htakes ⊢
    exact htakes
  rename_i hword
  rw [if_neg hword] at hfirst
  split
  · rename_i hdigit
    rw [if_pos hdigit] at hfirst
    have hj : numberEnd code false s.index =
        s.index + (c :: Piece.numberTail false rest).length := by
      rw [numberEnd_eq, hindex, Piece.numberTail, if_pos hdigit]
    exact h.takes_lexeme hp hfirst hj
  rename_i hdigit
  rw [if_neg hdigit, Piece.sign] at hfirst
  have hslice : slice code s.index (s.index + 2) = c :: rest.take 1 := by
    rw [slice_add, hindex]
    rfl
  split
  · rename_i hpair
    rw [hslice] at hpair
    rw [if_pos hpair] at hfirst
    exact h.takes_pair hp hfirst
  rename_i hpair
  rw [hslice] at hpair
  rw [if_neg hpair] at hfirst
  split
  · rename_i hsign
    rw [if_pos hsign] at hfirst
    exact h.takes_sign hp hfirst
  rename_i hsign
  rw [if_neg hsign] at hfirst
  split
  · rename_i hmark
    rw [if_pos hmark] at hfirst
    exact h.takes_sign hp hfirst
  · rename_i hmark
    rw [if_neg hmark] at hfirst
    exact h.takes_sign hp hfirst

end

/-! ## Runs -/

theorem Takes.run_eq {p : Position} {s : Cursor} {piece : Piece} {more : List Char}
    (hi : s.index < code.size) (h : Takes code p piece more (turn code s code[s.index]))
    (hlater : ∀ {next}, InStep code (p.after piece.text) more next →
      run code next = locate (p.after piece.text) (pieces more)) :
    run code s = locate p (piece :: pieces more) := by
  rw [run, dif_pos hi, locate]
  split
  · rename_i hturn
    rw [hturn] at h
    cases h with
    | next hnext =>
      rw [hlater hnext]
      cases piece.token? <;> rfl
  · rename_i hturn
    rw [hturn] at h
    cases h with
    | last body =>
      rw [pieces_nil]
      rfl

/-- From a cursor in step the run gives the tokens of the pieces that are left. -/
theorem InStep.run_eq {p : Position} {text : List Char} {s : Cursor} (h : InStep code p text s) :
    run code s = locate p (pieces text) := by
  fun_induction pieces text generalizing p s with
  | case1 =>
    have hend : ¬ s.index < code.size := by simpa using List.drop_eq_nil_iff.1 h.index
    rw [run, dif_neg hend]
    rfl
  | case2 c rest ih =>
    have hi : s.index < code.size := by
      by_contra hi
      have hnil := h.index
      rw [drop_of_not_lt hi] at hnil
      cases hnil
    obtain rfl : code[s.index] = c := by
      have hcons := h.index
      rw [drop_of_lt hi] at hcons
      exact (List.cons.inj hcons).1
    exact h.takes_first.run_eq hi ih

end Scanner

/-- The tokens of a text are those of its pieces. -/
theorem lexemes_eq (source : String) : lexemes source = locate .start (pieces source.toList) :=
  Scanner.InStep.run_eq ⟨rfl, rfl, .inl rfl⟩

@[simp] theorem lexemes_empty : lexemes "" = [] := by
  simp [lexemes_eq, locate]

end SqlScript
