import SqlScript.Proofs.Token.Lines
import SqlScript.Proofs.Token.Order

/-!
Line ends of two characters. A carriage return in front of every line feed changes no token but a
string that the end of its line cuts off, which takes it; all positions stay.
-/

namespace SqlScript

/-! ## Texts -/

/-- The text with a carriage return in front of every line feed. -/
def withReturns (cs : List Char) : List Char :=
  cs.flatMap fun c => if c = '\n' then ['\r', '\n'] else [c]

theorem withReturns_nil : withReturns [] = [] := rfl

theorem withReturns_newline (cs : List Char) :
    withReturns ('\n' :: cs) = '\r' :: '\n' :: withReturns cs := rfl

theorem withReturns_cons {c : Char} (h : c ≠ '\n') (cs : List Char) :
    withReturns (c :: cs) = c :: withReturns cs := by
  simp [withReturns, h]

theorem withReturns_append (a b : List Char) :
    withReturns (a ++ b) = withReturns a ++ withReturns b := by
  simp [withReturns]

theorem withReturns_of_line {cs : List Char} (h : '\n' ∉ cs) : withReturns cs = cs := by
  induction cs with
  | nil => rfl
  | cons c cs ih =>
    rw [List.mem_cons, not_or] at h
    rw [withReturns_cons (Ne.symm h.1), ih h.2]

theorem exists_firstLine_append_newline {cs : List Char} (h : '\n' ∈ cs) :
    ∃ more, cs = firstLine cs ++ '\n' :: more := by
  obtain ⟨rest, hrest, hcs⟩ := exists_firstLine_append cs
  rcases hrest.cases with rfl | ⟨more, rfl⟩
  · rw [hcs, List.append_nil] at h
    exact absurd h (newline_not_mem_firstLine cs)
  · exact ⟨more, hcs⟩

theorem withReturns_of_newline {cs more : List Char} (h : cs = firstLine cs ++ '\n' :: more) :
    withReturns cs = firstLine cs ++ ['\r'] ++ '\n' :: withReturns more := by
  rw [h, withReturns_append, withReturns_of_line (newline_not_mem_firstLine _), ← h,
    withReturns_newline, List.append_assoc]
  rfl

theorem head?_withReturns {d : Char} (hn : d ≠ '\n') (hr : d ≠ '\r') (cs : List Char) :
    (withReturns cs).head? = some d ↔ cs.head? = some d := by
  cases cs with
  | nil => rfl
  | cons c cs =>
    by_cases hc : c = '\n'
    · subst hc
      simp [withReturns_newline, hn.symm, hr.symm]
    · rw [withReturns_cons hc]
      rfl

/-- The carriage returns take no column that is counted. -/
theorem Position.after_withReturns (p : Position) (cs : List Char) :
    p.after (withReturns cs) = p.after cs := by
  induction cs generalizing p with
  | nil => rfl
  | cons c cs ih =>
    by_cases hc : c = '\n'
    · subst hc
      exact ih _
    · rw [withReturns_cons hc, after_cons, after_cons, ih]

/-! ## Pieces -/

namespace Piece

/-- The piece with the carriage return behind it, if it goes on to the end of its line. -/
def returned : Piece → Piece
  | .comment text => .comment (text ++ ['\r'])
  | .lexeme .error ('\x27' :: tail) => .lexeme .error ('\x27' :: tail ++ ['\r'])
  | piece => piece

theorem string_parts_return {cs : List Char} (h : '\n' ∉ cs) :
    stringCloses (cs ++ ['\r']) = stringCloses cs ∧
      stringTail (cs ++ ['\r']) = stringTail cs ++ if stringCloses cs then [] else ['\r'] := by
  fun_induction stringTail cs with
  | case1 rest ih => simpa [stringTail, stringCloses] using ih (by simpa using h)
  | case2 rest hrest =>
    have hhead : rest.head? ≠ some '\x27' := fun h =>
      (List.head?_eq_some_iff.1 h).elim hrest
    have hagain : (rest ++ ['\r']).head? ≠ some '\x27' := by
      rwa [Ne, head?_append_iff (by decide)]
    rw [List.cons_append, (string_parts_quote hagain).1, (string_parts_quote hagain).2,
      (string_parts_quote hhead).2]
    exact ⟨rfl, rfl⟩
  | case3 => simp at h
  | case4 c rest _ hquote hline ih =>
    rw [List.mem_cons, not_or] at h
    rw [List.cons_append, stringTail_cons hquote hline, stringCloses_cons hquote hline,
      stringCloses_cons hquote hline, (ih h.2).1, (ih h.2).2]
    exact ⟨rfl, rfl⟩
  | case5 => exact ⟨rfl, rfl⟩

theorem string_return {cs : List Char} (h : '\n' ∉ cs) :
    string (cs ++ ['\r']) = (string cs).returned := by
  obtain ⟨hcloses, htail⟩ := string_parts_return h
  rw [string, string, hcloses, htail]
  cases stringCloses cs <;> simp [returned]

theorem lineComment_return (c : Char) {cs : List Char} (h : '\n' ∉ cs) :
    lineComment c (cs ++ ['\r']) = (lineComment c cs).returned := by
  have hall : ∀ d ∈ cs ++ ['\r'], decide (d ≠ '\n') = true := by
    intro d hd
    rw [decide_eq_true_iff]
    rintro rfl
    simp [h] at hd
  have hcs : ∀ d ∈ cs, decide (d ≠ '\n') = true := fun d hd => hall d (List.mem_append_left _ hd)
  rw [lineComment, lineComment, List.takeWhile_eq_self_iff.2 hall, List.takeWhile_eq_self_iff.2 hcs]
  rfl

theorem first_quote (cs : List Char) : first '\x27' cs = string cs := by
  rw [first_of_ne (by decide) (by decide)]
  rfl

theorem returned_word (c : Char) (cs : List Char) : (word c cs).returned = word c cs := by
  rw [word, wordKind]
  split <;> rfl

theorem returned_sign {c : Char} (hquote : c ≠ '\x27') (cs : List Char) :
    (sign c cs).returned = sign c cs := by
  unfold sign
  split
  · rfl
  split
  · rfl
  split
  · rfl
  · rw [returned]
    · rintro text ⟨⟩
    · rintro tail ⟨⟩
      exact hquote rfl

/-- What a line gains at its end only a piece that goes on to there takes. -/
theorem first_return {c : Char} {cs : List Char} (h : ¬ OpensBlock c cs) (hline : '\n' ∉ cs) :
    first c (cs ++ ['\r']) = (first c cs).returned := by
  have hparted : Parted ['\r'] := .cons rfl []
  have hminus : (cs ++ ['\r']).head? = some '-' ↔ cs.head? = some '-' :=
    head?_append_iff (by decide) cs
  have hmore : ¬ OpensBlock c (cs ++ ['\r']) := by rwa [opensBlock_append_iff (by decide)]
  rw [first_of_not_opensBlock h, first_of_not_opensBlock hmore]
  simp only [hminus]
  split
  · rfl
  split
  · exact lineComment_return c hline
  split
  · exact string_return hline
  rename_i hquote
  split
  · rw [word_append_parted hparted, returned_word]
  split
  · rw [number_append_parted hparted]
    rfl
  · rw [sign_append_parted hparted, returned_sign hquote]

theorem eq_lexeme_of_token? {piece : Piece} {tail : List Char}
    (h : piece.token? = some (.error, '\x27' :: tail)) :
    piece = .lexeme .error ('\x27' :: tail) := by
  cases piece with
  | blank | comment | unclosedComment => simp [token?, commentOpener] at h
  | lexeme kind text =>
    cases h
    rfl

theorem token?_returned {piece : Piece} (h : ∀ tail, piece ≠ .lexeme .error ('\x27' :: tail)) :
    piece.returned.token? = piece.token? := by
  unfold returned
  split
  · rfl
  · rename_i tail
    exact absurd rfl (h tail)
  · rfl

/-- A piece that gains something has gone on to the end of its line. -/
theorem returned_cases {c : Char} {cs : List Char} (h : ¬ OpensBlock c cs) :
    (first c cs).returned = first c cs ∨
      (first c cs).text = c :: firstLine cs ∧
        (first c cs).returned.text = c :: firstLine cs ++ ['\r'] := by
  by_cases hminus : c = '-' ∧ cs.head? = some '-'
  · obtain ⟨rfl, hhead⟩ := hminus
    rw [first_minus, if_pos hhead]
    exact .inr ⟨rfl, rfl⟩
  by_cases hquote : c = '\x27'
  · subst hquote
    rw [first_quote, string]
    cases hcloses : stringCloses cs with
    | true => exact .inl rfl
    | false =>
      rw [stringTail_of_not_closes hcloses]
      exact .inr ⟨rfl, rfl⟩
  have hline : ¬ (decide (c = '-') && decide (cs.head? = some '-')) = true := by
    simpa using hminus
  left
  rw [first_of_not_opensBlock h, if_neg hline, if_neg hquote]
  split
  · rfl
  split
  · exact returned_word c cs
  split
  · rfl
  · exact returned_sign hquote cs

theorem first_withReturns {c : Char} {cs : List Char} (h : ¬ OpensBlock c cs) :
    first c (withReturns cs) = if '\n' ∈ cs then (first c cs).returned else first c cs := by
  split
  · rename_i hmem
    obtain ⟨more, hcs⟩ := exists_firstLine_append_newline hmem
    have hline : ¬ OpensBlock c (firstLine cs) := by
      rwa [hcs, opensBlock_append_iff (by simp)] at h
    have hreturn : ¬ OpensBlock c (firstLine cs ++ ['\r']) := by
      rwa [opensBlock_append_iff (by simp)]
    calc first c (withReturns cs)
      _ = first c (firstLine cs ++ ['\r'] ++ '\n' :: withReturns more) := by
        rw [withReturns_of_newline hcs]
      _ = first c (firstLine cs ++ ['\r']) := first_append_line (.newline _) hreturn
      _ = (first c (firstLine cs)).returned := first_return hline (newline_not_mem_firstLine cs)
      _ = (first c cs).returned := by rw [first_firstLine h]
  · rename_i hmem
    rw [withReturns_of_line hmem]

theorem commentTail?_withReturns (cs : List Char) :
    commentTail? (withReturns cs) = (commentTail? cs).map withReturns := by
  fun_induction commentTail? cs with
  | case1 rest => rfl
  | case2 c rest hc ih =>
    by_cases hn : c = '\n'
    · subst hn
      rw [withReturns_newline, commentTail?_cons (by simp), commentTail?_cons (by simp), ih,
        Option.map_map, Option.map_map, Option.map_map]
      rfl
    · have hhead : c = '*' → (withReturns rest).head? ≠ some '/' := by
        rintro rfl hhead
        rw [head?_withReturns (by decide) (by decide), List.head?_eq_some_iff] at hhead
        obtain ⟨later, rfl⟩ := hhead
        exact hc later rfl rfl
      rw [withReturns_cons hn, commentTail?_cons hhead, ih, Option.map_map, Option.map_map]
      congr 1
      funext tail
      exact (withReturns_cons hn tail).symm
  | case3 => rfl

theorem blockComment_withReturns (body : List Char) :
    (blockComment (withReturns body)).text = withReturns (blockComment body).text ∧
      (blockComment (withReturns body)).token? = (blockComment body).token? := by
  have hopener (cs : List Char) : withReturns (commentOpener ++ cs) =
      commentOpener ++ withReturns cs := withReturns_append commentOpener cs
  rw [blockComment, blockComment, commentTail?_withReturns]
  cases commentTail? body with
  | none => exact ⟨(hopener body).symm, rfl⟩
  | some tail => exact ⟨(hopener tail).symm, rfl⟩

theorem token?_returned_blockComment (body : List Char) :
    (blockComment body).returned.token? = (blockComment body).token? := by
  rw [blockComment]
  split <;> rfl

/-- The first piece takes the carriage returns that stand in it. One that goes on to the end of its
line takes the one there, too. -/
theorem first_step {c : Char} (hc : c ≠ '\n') (cs : List Char) :
    (first c (withReturns cs)).token? =
        (if '\n' ∈ cs then (first c cs).returned else first c cs).token? ∧
      ((first c (withReturns cs)).text = withReturns (first c cs).text ∨
        ∃ more, c :: cs = (first c cs).text ++ '\n' :: more ∧ '\n' ∉ (first c cs).text ∧
          (first c (withReturns cs)).text = (first c cs).text ++ ['\r']) := by
  by_cases hblock : OpensBlock c cs
  · obtain ⟨rfl, hstar⟩ := hblock
    obtain ⟨body, rfl⟩ := List.head?_eq_some_iff.1 hstar
    obtain ⟨htext, htoken⟩ := blockComment_withReturns body
    rw [withReturns_cons (by decide), first_opener, first_opener, htoken, apply_ite token?,
      token?_returned_blockComment, ite_self]
    exact ⟨rfl, .inl htext⟩
  have hfirst := first_withReturns hblock
  refine ⟨congrArg token? hfirst, ?_⟩
  have hline : '\n' ∉ c :: firstLine cs := by
    simp [Ne.symm hc, newline_not_mem_firstLine]
  have hstays (h : first c (withReturns cs) = first c cs) :
      (first c (withReturns cs)).text = withReturns (first c cs).text := by
    have hfront := first_prefix c (firstLine cs)
    rw [first_firstLine hblock] at hfront
    rw [h, withReturns_of_line fun hmem => hline (hfront.subset hmem)]
  by_cases hmem : '\n' ∈ cs
  · rw [if_pos hmem] at hfirst
    rcases returned_cases hblock with hsame | ⟨htext, hreturned⟩
    · exact .inl (hstays (hfirst.trans hsame))
    · obtain ⟨more, hcs⟩ := exists_firstLine_append_newline hmem
      rw [hfirst, hreturned, htext]
      exact .inr ⟨more, by rw [List.cons_append, ← hcs], hline, rfl⟩
  · rw [if_neg hmem] at hfirst
    exact .inl (hstays hfirst)

end Piece

/-- What follows the first piece is read as what followed it before. -/
theorem locate_step {c : Char} (hc : c ≠ '\n') (cs : List Char) (p : Position) :
    locate (p.after (Piece.first c (withReturns cs)).text)
        (pieces ((c :: withReturns cs).drop (Piece.first c (withReturns cs)).text.length)) =
      locate (p.after (Piece.first c cs).text)
        (pieces (withReturns ((c :: cs).drop (Piece.first c cs).text.length))) := by
  rcases (Piece.first_step hc cs).2 with htext | ⟨more, hcs, hline, htext⟩
  · have happend := List.prefix_iff_eq_append.1 (Piece.first_prefix c cs)
    have hreturns : c :: withReturns cs = withReturns (Piece.first c cs).text ++
        withReturns ((c :: cs).drop (Piece.first c cs).text.length) := by
      rw [← withReturns_append, happend, withReturns_cons hc]
    rw [htext, Position.after_withReturns, hreturns, List.drop_left]
  · have hreturns : c :: withReturns cs =
        (Piece.first c cs).text ++ ['\r'] ++ '\n' :: withReturns more := by
      rw [← withReturns_cons hc, hcs, withReturns_append, withReturns_of_line hline,
        withReturns_newline, List.append_assoc]
      rfl
    rw [htext, hreturns, hcs, List.drop_left, List.drop_left, withReturns_newline,
      Position.after_append, pieces_newline, pieces_of_isSpace rfl, pieces_newline]
    rfl

/-! ## Tokens -/

/-- The token is a string that the end of its line cuts off: a line feed follows it in the text. -/
def Token.CutOff (source : String) (t : Token) : Prop :=
  t.kind = .error ∧ t.fault = .unclosedString ∧
    ∃ before later, source.toList = before ++ t.lexeme.toList ++ '\n' :: later ∧
      t.position = .behind before

/-- The token after a carriage return was put in front of every line feed of the text. -/
structure Token.Returned (source : String) (t u : Token) : Prop where
  kind_eq : u.kind = t.kind
  position_eq : u.position = t.position
  lexeme_of_cutOff : t.CutOff source → u.lexeme = t.lexeme ++ "\r"
  lexeme_eq : ¬ t.CutOff source → u.lexeme = t.lexeme

theorem Position.behind_injective {a b cs : List Char} (ha : a <+: cs) (hb : b <+: cs)
    (h : behind a = behind b) : a = b := by
  have hone {a b : List Char} (hab : a <+: b) (h : behind a = behind b) : a = b := by
    obtain ⟨more, rfl⟩ := hab
    cases more with
    | nil => exact (List.append_nil a).symm
    | cons c more =>
      rw [← behind_after] at h
      exact absurd h (precedes_after _ (List.cons_ne_nil c more)).ne
  rcases List.prefix_or_prefix_of_prefix ha hb with hab | hba
  · exact hone hab h
  · exact (hone hba h.symm).symm

theorem Token.fault_eq_unclosedString_iff {t : Token} :
    t.fault = .unclosedString ↔ ∃ tail, t.lexeme.toList = '\x27' :: tail := by
  rw [fault]
  split
  · rename_i hlexeme
    simp [hlexeme]
  · rename_i hlexeme
    simp [hlexeme]
  · rename_i hquote
    simpa using hquote

section

variable {source : String} {passed : List Char} {c : Char} {cs : List Char}
  (hsource : source.toList = passed ++ c :: cs)
include hsource

/-- A string that is not closed is cut off if a line feed follows at all. -/
theorem cutOff_string (hc : c = '\x27') {tail : List Char}
    (h : Piece.first c cs = .lexeme .error ('\x27' :: tail)) :
    Token.CutOff source ⟨.error, String.ofList ('\x27' :: tail), .behind passed⟩ ↔ '\n' ∈ cs := by
  subst hc
  have htail : tail = firstLine cs := by
    rw [Piece.first_quote, Piece.string] at h
    cases hcloses : Piece.stringCloses cs with
    | true => simp [hcloses] at h
    | false =>
      rw [Piece.stringTail_of_not_closes hcloses, hcloses] at h
      cases h
      rfl
  constructor
  · rintro ⟨-, -, before, later, hlater, hposition⟩
    rw [String.toList_ofList, List.append_assoc] at hlater
    obtain rfl : passed = before :=
      Position.behind_injective ⟨_, hsource.symm⟩ ⟨_, hlater.symm⟩ hposition
    rw [hsource, List.append_cancel_left_eq, List.cons_append, List.cons_eq_cons] at hlater
    rw [hlater.2]
    simp
  · intro hmem
    obtain ⟨more, hcs⟩ := exists_firstLine_append_newline hmem
    refine ⟨rfl, Token.fault_eq_unclosedString_iff.2 ⟨tail, String.toList_ofList⟩, passed, more, ?_,
      rfl⟩
    rw [hsource, String.toList_ofList, htail, List.append_assoc, List.cons_append, ← hcs]

theorem returned_token :
    Option.Rel (fun a b => Token.Returned source ⟨a.1, String.ofList a.2, .behind passed⟩
        ⟨b.1, String.ofList b.2, .behind passed⟩)
      (Piece.first c cs).token?
      (if '\n' ∈ cs then (Piece.first c cs).returned else Piece.first c cs).token? := by
  by_cases hstring : ∃ tail, Piece.first c cs = .lexeme .error ('\x27' :: tail)
  · obtain ⟨tail, hfirst⟩ := hstring
    have hfront := Piece.first_prefix c cs
    rw [hfirst] at hfront ⊢
    have hcutOff := cutOff_string hsource (List.cons_prefix_cons.1 hfront).1.symm hfirst
    by_cases hmem : '\n' ∈ cs
    · rw [if_pos hmem]
      exact .some ⟨rfl, rfl, fun _ => String.ofList_append, fun h => absurd (hcutOff.2 hmem) h⟩
    · rw [if_neg hmem]
      exact .some ⟨rfl, rfl, fun h => absurd (hcutOff.1 h) hmem, fun _ => rfl⟩
  · have hstays : (Piece.first c cs).returned.token? = (Piece.first c cs).token? :=
      Piece.token?_returned fun tail htail => hstring ⟨tail, htail⟩
    rw [apply_ite Piece.token?, hstays, ite_self]
    cases htoken : (Piece.first c cs).token? with
    | none => exact .none
    | some kt =>
      refine .some ⟨rfl, rfl, fun hcutOff => ?_, fun _ => rfl⟩
      obtain ⟨hkind, hfault, -⟩ := hcutOff
      obtain ⟨tail, htail⟩ := Token.fault_eq_unclosedString_iff.1 hfault
      rw [String.toList_ofList] at htail
      have herror : kt = (.error, '\x27' :: tail) := Prod.ext hkind htail
      rw [herror] at htoken
      exact absurd ⟨tail, Piece.eq_lexeme_of_token? htoken⟩ hstring

end

/-- Tokens change as their text does, from where the scanner stands. -/
theorem locate_withReturns {source : String} {passed text : List Char}
    (hsource : source.toList = passed ++ text) :
    List.Forall₂ (Token.Returned source) (locate (.behind passed) (pieces text))
      (locate (.behind passed) (pieces (withReturns text))) := by
  fun_induction pieces text generalizing passed with
  | case1 =>
    rw [withReturns_nil, pieces_nil]
    exact .nil
  | case2 c rest ih =>
    have happend := List.prefix_iff_eq_append.1 (Piece.first_prefix c rest)
    have hmore : source.toList = passed ++ (Piece.first c rest).text ++
        (c :: rest).drop (Piece.first c rest).text.length := by
      rw [hsource, List.append_assoc, happend]
    have hlater := ih hmore
    rw [← Position.behind_after] at hlater
    rw [locate]
    -- the line feed is the one character that becomes two, and both are blanks
    by_cases hc : c = '\n'
    · subst hc
      have hblank : Piece.first '\n' rest = .blank '\n' := rfl
      rw [hblank] at hlater ⊢
      rw [withReturns_newline, pieces_of_isSpace rfl, pieces_newline]
      exact hlater
    · rw [← locate_step hc] at hlater
      rw [withReturns_cons hc, pieces_cons, locate, (Piece.first_step hc rest).1]
      have htoken := returned_token hsource
      generalize (Piece.first c rest).token? = a at htoken ⊢
      generalize (if '\n' ∈ rest then _ else _ : Piece).token? = b at htoken ⊢
      cases htoken with
      | none => exact hlater
      | some hreturned => exact .cons hreturned hlater

/-- The text with every line feed replaced by a carriage return and a line feed. -/
def returnLines (source : String) : String := String.ofList (withReturns source.toList)

theorem endMark_returned {source : String} {ts us : List Token}
    (h : List.Forall₂ (Token.Returned source) ts us) :
    (endMark ts).Returned source (endMark us) := by
  have hpositions : us.map (·.position) = ts.map (·.position) := by
    rw [← List.forall₂_eq_eq_eq, List.forall₂_map_left_iff, List.forall₂_map_right_iff]
    exact h.flip.imp fun _ _ h => h.position_eq
  have hposition : (endMark us).position = (endMark ts).position := by
    rw [endMark, endMark, ← List.getLast?_map, hpositions, List.getLast?_map]
  exact ⟨rfl, hposition, fun hcutOff => absurd hcutOff.1 (by simp [endMark]), fun _ => rfl⟩

theorem scan_returnLines (source : String) :
    List.Forall₂ (Token.Returned source) (scan source) (scan (returnLines source)) := by
  have hlexemes : List.Forall₂ (Token.Returned source) (lexemes source)
      (lexemes (returnLines source)) := by
    rw [lexemes_eq, lexemes_eq, returnLines, String.toList_ofList]
    exact @locate_withReturns source [] source.toList rfl
  exact List.rel_append hlexemes (.cons (endMark_returned hlexemes) .nil)

/-- Of the three strings that are not closed the first two are cut off. -/
example :
    (scan (returnLines "'a\n-- it's\n/*\n*/ 'b\n'c")).map (·.lexeme) =
      ["'a\r", "'b\r", "'c", ""] := by
  decide +kernel

end SqlScript
