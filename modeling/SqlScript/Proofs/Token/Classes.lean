import SqlScript.Proofs.Token.Rescan

/-!
The class of every token, said on the text it stands in: what it is made of and what may not follow
it, so that it could not have gone on. An error stands where nothing else starts.
-/

namespace SqlScript
open SqlScript.Text

/-! ## Classes -/

/-- What may stand between the quotes of a string: two quotes stand for one, and a string stays on
its line. -/
inductive Quotable : List Char → Prop where
  | nil : Quotable []
  | char {c : Char} {body : List Char} (hquote : c ≠ '\x27') (hline : c ≠ '\n')
      (h : Quotable body) : Quotable (c :: body)
  | quote {body : List Char} (h : Quotable body) : Quotable ('\x27' :: '\x27' :: body)

structure IsWord (text after : List Char) : Prop where
  ne_nil : text ≠ []
  chars : ∀ c ∈ text, isWordChar c = true
  start : ∀ c ∈ text.head?, isDigit c = false
  ends : ∀ c ∈ after.head?, isWordChar c = false

open Piece in
/-- The text is a lexeme of the kind in front of `after`. -/
inductive Lexeme : Token.Kind → (text after : List Char) → Prop where
  | keyword {text after : List Char} (hword : IsWord text after)
      (hreserved : upper (String.ofList text) ∈ Token.reservedWords) : Lexeme .keyword text after
  | identifier {text after : List Char} (hword : IsWord text after)
      (hreserved : upper (String.ofList text) ∉ Token.reservedWords) : Lexeme .identifier text after
  | integer {digits after : List Char} (hne : digits ≠ [])
      (hdigits : ∀ c ∈ digits, isDigit c = true)
      (hend : ∀ c ∈ after.head?, isDigit c = false ∧ c ≠ '.') : Lexeme .number digits after
  | decimal {digits fraction after : List Char} (hne : digits ≠ [])
      (hdigits : ∀ c ∈ digits, isDigit c = true) (hfraction : ∀ c ∈ fraction, isDigit c = true)
      (hend : ∀ c ∈ after.head?, isDigit c = false) :
      Lexeme .number (digits ++ '.' :: fraction) after
  | string {body after : List Char} (hbody : Quotable body)
      (hend : ∀ c ∈ after.head?, c ≠ '\x27') : Lexeme .string ('\x27' :: body ++ ['\x27']) after
  | pair {c d : Char} {after : List Char} (hpair : [c, d] ∈ operators) :
      Lexeme .operator [c, d] after
  | single {c : Char} {after : List Char} (hsign : [c] ∈ operators)
      (hend : ∀ d ∈ after.head?, [c, d] ∉ operators) : Lexeme .operator [c] after
  | delimiter {c : Char} {after : List Char} (hmark : c ∈ delimiters) : Lexeme .delimiter [c] after

open Piece in
inductive Unended : Token.Fault → (text after : List Char) → Prop where
  | comment {after : List Char} (hafter : ¬ commentCloser <:+: after) :
      Unended .unclosedComment commentOpener after
  | string {body after : List Char} (hbody : Quotable body)
      (hend : ∀ c ∈ after.head?, c = '\n') : Unended .unclosedString ('\x27' :: body) after

open Piece in
/-- White space, a comment or a token other than a stray character starts the text. -/
inductive Starts : List Char → Prop where
  | space {c : Char} {rest : List Char} (hc : isSpace c = true) : Starts (c :: rest)
  | line {rest : List Char} : Starts ('-' :: '-' :: rest)
  | block {rest : List Char} : Starts (commentOpener ++ rest)
  | lexeme {kind : Token.Kind} {text after : List Char} (h : Lexeme kind text after) :
      Starts (text ++ after)
  | unended {fault : Token.Fault} {text after : List Char} (h : Unended fault text after) :
      Starts (text ++ after)

/-- The text is no lexeme, and why. -/
inductive Broken : Token.Fault → (text after : List Char) → Prop where
  | unended {fault : Token.Fault} {text after : List Char} (h : Unended fault text after) :
      Broken fault text after
  | stray {c : Char} {after : List Char} (h : ¬ Starts (c :: after)) :
      Broken (.invalidCharacter (String.ofList [c])) [c] after

def Classed (kind : Token.Kind) (text after : List Char) : Prop :=
  if kind = .error then ∃ fault, Broken fault text after else Lexeme kind text after

theorem Lexeme.classed {kind : Token.Kind} {text after : List Char} (h : Lexeme kind text after) :
    Classed kind text after := by
  have hkind : kind ≠ .error := by
    rintro rfl
    cases h
  rwa [Classed, if_neg hkind]

theorem Unended.classed {fault : Token.Fault} {text after : List Char}
    (h : Unended fault text after) : Classed .error text after := ⟨fault, .unended h⟩

/-! ## What a text opens with -/

theorem Lexeme.ne_nil {kind : Token.Kind} {text after : List Char} (h : Lexeme kind text after) :
    text ≠ [] := by
  cases h with
  | keyword hword | identifier hword => exact hword.ne_nil
  | integer hne => exact hne
  | decimal => simp
  | string | pair | single | delimiter => exact List.cons_ne_nil _ _

open Piece in
theorem Lexeme.opener {kind : Token.Kind} {c : Char} {text after : List Char}
    (h : Lexeme kind (c :: text) after) :
    c = '\x27' ∨ isWordStart c = true ∨ isDigit c = true ∨ c ∈ delimiters ∨ [c] ∈ operators ∨
      ∃ d ∈ (text ++ after).head?, [c, d] ∈ operators := by
  generalize htext : c :: text = whole at h
  cases h with
  | keyword hword | identifier hword =>
    subst htext
    have hchar : isWordStart c = true ∨ isDigit c = true := by
      simpa [isWordChar] using hword.chars c (List.mem_cons_self ..)
    rcases hchar with hstart | hdigit
    · exact .inr (.inl hstart)
    · exact .inr (.inr (.inl hdigit))
  | integer hne hdigits =>
    subst htext
    exact .inr (.inr (.inl (hdigits c (List.mem_cons_self ..))))
  | @decimal digits fraction _ hne hdigits =>
    obtain ⟨d, digits, rfl⟩ := List.exists_cons_of_ne_nil hne
    cases htext
    exact .inr (.inr (.inl (hdigits c (List.mem_cons_self ..))))
  | string =>
    cases htext
    exact .inl rfl
  | pair hpair =>
    cases htext
    exact .inr (.inr (.inr (.inr (.inr ⟨_, rfl, hpair⟩))))
  | single hsign =>
    cases htext
    exact .inr (.inr (.inr (.inr (.inl hsign))))
  | delimiter hmark =>
    cases htext
    exact .inr (.inr (.inr (.inl hmark)))

open Piece in
theorem Starts.opener {c : Char} {rest : List Char} (h : Starts (c :: rest)) :
    isSpace c = true ∨ (c = '-' ∧ rest.head? = some '-') ∨ (c = '/' ∧ rest.head? = some '*') ∨
      c = '\x27' ∨ isWordStart c = true ∨ isDigit c = true ∨ c ∈ delimiters ∨
      [c] ∈ operators ∨ ∃ d ∈ rest.head?, [c, d] ∈ operators := by
  generalize htext : c :: rest = whole at h
  cases h with
  | space hc =>
    cases htext
    exact .inl hc
  | line =>
    cases htext
    exact .inr (.inl ⟨rfl, rfl⟩)
  | block =>
    cases htext
    exact .inr (.inr (.inl ⟨rfl, rfl⟩))
  | @lexeme kind text after h =>
    obtain ⟨d, text, rfl⟩ := List.exists_cons_of_ne_nil h.ne_nil
    cases htext
    exact .inr (.inr (.inr h.opener))
  | unended h =>
    cases h with
    | comment =>
      cases htext
      exact .inr (.inr (.inl ⟨rfl, rfl⟩))
    | string =>
      cases htext
      exact .inr (.inr (.inr (.inl rfl)))

namespace Piece

/-! ## Strings -/

def closingQuote (cs : List Char) : List Char := if stringCloses cs then ['\x27'] else []

/-- The scan for the closing quote takes the longest text that may stand between quotes: it ends at
a quote that is not doubled, or at the end of the line. -/
theorem exists_quotable (cs : List Char) :
    ∃ body after, Quotable body ∧ stringTail cs = body ++ closingQuote cs ∧
      cs = stringTail cs ++ after ∧
      if stringCloses cs then ∀ c ∈ after.head?, c ≠ '\x27' else ∀ c ∈ after.head?, c = '\n' := by
  unfold closingQuote
  fun_induction stringTail cs with
  | case1 rest ih =>
    obtain ⟨body, after, hbody, htail, hrest, hend⟩ := ih
    refine ⟨'\x27' :: '\x27' :: body, after, hbody.quote, ?_⟩
    rw [stringCloses, htail]
    refine ⟨rfl, ?_, hend⟩
    rw [List.cons_append, List.cons_append, ← htail, ← hrest]
  | case2 rest hrest =>
    have hcloses : stringCloses ('\x27' :: rest) = true := by
      rw [stringCloses]
      exact hrest
    rw [hcloses]
    refine ⟨[], rest, .nil, rfl, rfl, ?_⟩
    rintro c hc rfl
    obtain ⟨more, rfl⟩ := List.head?_eq_some_iff.1 hc
    exact hrest more rfl
  | case3 rest => exact ⟨[], '\n' :: rest, .nil, by simp [stringCloses]⟩
  | case4 c rest _ hquote hline ih =>
    obtain ⟨body, after, hbody, htail, hrest, hend⟩ := ih
    refine ⟨c :: body, after, .char hquote hline hbody, ?_⟩
    rw [stringCloses_cons hquote hline, htail]
    refine ⟨rfl, ?_, hend⟩
    rw [List.cons_append, ← htail, ← hrest]
  | case5 => exact ⟨[], [], .nil, by simp [stringCloses]⟩

theorem string_parts (rest : List Char) :
    ∃ after, rest = stringTail rest ++ after ∧
      if stringCloses rest then Lexeme .string ('\x27' :: stringTail rest) after
      else Unended .unclosedString ('\x27' :: stringTail rest) after := by
  obtain ⟨body, after, hbody, htail, hrest, hend⟩ := exists_quotable rest
  refine ⟨after, hrest, ?_⟩
  rw [htail, closingQuote]
  split
  · rename_i hcloses
    rw [if_pos hcloses] at hend
    exact .string hbody hend
  · rename_i hcloses
    rw [if_neg hcloses] at hend
    rw [List.append_nil]
    exact .string hbody hend

theorem starts_quote (rest : List Char) : Starts ('\x27' :: rest) := by
  obtain ⟨after, hrest, hparts⟩ := string_parts rest
  rw [hrest, ← List.cons_append]
  split at hparts
  · exact .lexeme hparts
  · exact .unended hparts

/-! ## Words -/

theorem isWordStart_digit : ∀ n < 10, isWordStart (Char.ofNat (48 + n)) = false := by
  decide +kernel

theorem isDigit_of_isWordStart {c : Char} (h : isWordStart c = true) : isDigit c = false := by
  by_contra hdigit
  have hrange : '0' ≤ c ∧ c ≤ '9' := by simpa [isDigit] using hdigit
  have hlow : 48 ≤ c.toNat := hrange.1
  have hhigh : c.toNat ≤ 57 := hrange.2
  have hc : c = Char.ofNat (48 + (c.toNat - 48)) := by
    rw [Nat.add_sub_cancel' hlow, Char.ofNat_toNat]
  rw [hc, isWordStart_digit _ (by omega)] at h
  cases h

theorem not_of_mem_head?_dropWhile {p : Char → Bool} {cs : List Char} :
    ∀ c ∈ (cs.dropWhile p).head?, p c = false := by
  intro c hc
  have hnot := List.head?_dropWhile_not p cs
  rw [hc] at hnot
  simpa using hnot

theorem isWord_run {c : Char} (rest : List Char) (hc : isWordStart c = true) :
    IsWord (c :: rest.takeWhile isWordChar) (rest.dropWhile isWordChar) where
  ne_nil := List.cons_ne_nil _ _
  chars := by
    intro d hd
    rcases List.mem_cons.1 hd with rfl | hd
    · simp [isWordChar, hc]
    · exact List.mem_takeWhile_imp hd
  start := by
    rintro d ⟨⟩
    exact isDigit_of_isWordStart hc
  ends := not_of_mem_head?_dropWhile

theorem wordKind_lexeme {text after : List Char} (h : IsWord text after) :
    Lexeme (wordKind text) text after := by
  unfold wordKind
  split
  · rename_i hreserved
    exact .keyword h (by simpa [Token.isReserved] using hreserved)
  · rename_i hreserved
    exact .identifier h (by simpa [Token.isReserved] using hreserved)

/-! ## Numbers -/

theorem numberTail_true (cs : List Char) : numberTail true cs = cs.takeWhile isDigit := by
  induction cs with
  | nil => rfl
  | cons c rest ih => cases hc : isDigit c <;> simp [numberTail, hc, ih]

theorem number_lexeme {digits : List Char} (rest : List Char) (hne : digits ≠ [])
    (hdigits : ∀ c ∈ digits, isDigit c = true) :
    ∃ after, rest = numberTail false rest ++ after ∧
      Lexeme .number (digits ++ numberTail false rest) after := by
  induction rest generalizing digits with
  | nil =>
    refine ⟨[], rfl, ?_⟩
    rw [numberTail, List.append_nil]
    exact .integer hne hdigits (by simp)
  | cons c rest ih =>
    by_cases hc : isDigit c = true
    · obtain ⟨after, hrest, hlexeme⟩ := @ih (digits ++ [c]) (by simp)
        (by simpa [or_imp, forall_and] using ⟨hdigits, hc⟩)
      rw [numberTail, if_pos hc]
      refine ⟨after, by rw [List.cons_append, ← hrest], ?_⟩
      simpa using hlexeme
    by_cases hpoint : c = '.'
    · subst hpoint
      have htail : numberTail false ('.' :: rest) = '.' :: rest.takeWhile isDigit := by
        rw [← numberTail_true]
        rfl
      rw [htail]
      refine ⟨rest.dropWhile isDigit, ?_, ?_⟩
      · rw [List.cons_append, List.takeWhile_append_dropWhile]
      · exact .decimal hne hdigits (fun c hc => List.mem_takeWhile_imp hc)
          not_of_mem_head?_dropWhile
    · have htail : numberTail false (c :: rest) = [] := by
        simp [numberTail, hc, hpoint]
      rw [htail, List.append_nil]
      refine ⟨c :: rest, rfl, .integer hne hdigits ?_⟩
      rintro d ⟨⟩
      exact ⟨Bool.eq_false_iff.2 hc, hpoint⟩

/-! ## Signs -/

/-- Two characters are tried before one, and what is no sign starts nothing. -/
theorem sign_classed {c : Char} {rest : List Char} (hspace : ¬ isSpace c = true)
    (hline : ¬ (c = '-' ∧ rest.head? = some '-')) (hblock : ¬ (c = '/' ∧ rest.head? = some '*'))
    (hquote : c ≠ '\x27') (hword : ¬ isWordStart c = true) (hdigit : ¬ isDigit c = true) :
    ∃ kind text after, sign c rest = .lexeme kind text ∧ c :: rest = text ++ after ∧
      Classed kind text after := by
  by_cases hpair : ∃ d ∈ rest.head?, [c, d] ∈ operators
  · obtain ⟨d, hd, hpair⟩ := hpair
    obtain ⟨more, rfl⟩ := List.head?_eq_some_iff.1 hd
    exact ⟨.operator, [c, d], more, by simp [sign, hpair], rfl, (Lexeme.pair hpair).classed⟩
  have hsingle : sign c rest = sign c [] := by
    cases rest with
    | nil => rfl
    | cons d more => exact sign_of_not_pair (by simpa using hpair) more
  rw [hsingle, sign, List.take_nil]
  by_cases hsign : [c] ∈ operators
  · refine ⟨.operator, [c], rest, by simp [hsign], rfl, (Lexeme.single hsign ?_).classed⟩
    exact fun d hd h => hpair ⟨d, hd, h⟩
  by_cases hmark : c ∈ delimiters
  · exact ⟨.delimiter, [c], rest, by simp [hsign, hmark], rfl, (Lexeme.delimiter hmark).classed⟩
  refine ⟨.error, [c], rest, by simp [hsign, hmark], rfl, _, .stray ?_⟩
  intro hstarts
  rcases hstarts.opener with h | h | h | h | h | h | h | h | h
  · exact hspace h
  · exact hline h
  · exact hblock h
  · exact hquote h
  · exact hword h
  · exact hdigit h
  · exact hmark h
  · exact hsign h
  · exact hpair h

/-! ## Pieces -/

theorem first_classed {c : Char} {rest text : List Char} {kind : Token.Kind}
    (h : (first c rest).token? = some (kind, text)) :
    ∃ after, c :: rest = text ++ after ∧ Classed kind text after := by
  unfold first at h
  split at h
  · cases h
  rename_i hspace
  split at h
  · cases h
  rename_i hline
  split at h
  · rename_i hblock
    obtain ⟨rfl, hstar⟩ : c = '/' ∧ rest.head? = some '*' := by simpa using hblock
    obtain ⟨body, rfl⟩ := List.head?_eq_some_iff.1 hstar
    unfold blockComment at h
    split at h
    · cases h
    · rename_i htail
      cases h
      exact ⟨body, rfl, (Unended.comment (commentTail?_eq_none htail)).classed⟩
  rename_i hblock
  split at h
  · rename_i hquote
    subst hquote
    obtain ⟨after, hrest, hparts⟩ := string_parts rest
    cases h
    refine ⟨after, congrArg (List.cons _) hrest, ?_⟩
    split at hparts
    · rw [if_pos ‹_›]
      exact hparts.classed
    · rw [if_neg ‹_›]
      exact hparts.classed
  rename_i hquote
  split at h
  · rename_i hword
    simp only [word, token?, Option.some.injEq, Prod.mk.injEq] at h
    obtain ⟨hkind, rfl⟩ := h
    -- `kind` stays a variable: elaboration would open `Classed` on the table of reserved words
    have hlexeme := wordKind_lexeme (isWord_run rest hword)
    rw [hkind] at hlexeme
    refine ⟨rest.dropWhile isWordChar, ?_, hlexeme.classed⟩
    rw [List.cons_append, List.takeWhile_append_dropWhile]
  rename_i hword
  split at h
  · rename_i hdigit
    obtain ⟨rfl, rfl⟩ := Prod.mk.inj (Option.some.inj h)
    obtain ⟨after, hrest, hlexeme⟩ := @number_lexeme [c] rest (by simp) (by simpa using hdigit)
    exact ⟨after, congrArg (List.cons c) hrest, hlexeme.classed⟩
  rename_i hdigit
  obtain ⟨kind', text', after, hsign, htext, hclassed⟩ :=
    sign_classed hspace (by simpa using hline) (by simpa using hblock) hquote hword hdigit
  rw [hsign] at h
  cases h
  exact ⟨after, htext, hclassed⟩

end Piece

/-! ## Faults -/

theorem Token.Fault.head?_message_invalidCharacter (lexeme : String) :
    (invalidCharacter lexeme).message.toList.head? = some 'i' := by
  have hmessage : (invalidCharacter lexeme).message = "invalid character '" ++ lexeme ++ "'" := rfl
  rw [hmessage, String.toList_append, String.toList_append]
  rfl

theorem Token.Fault.message_injective {a b : Fault} (h : a.message = b.message) : a = b := by
  have hhead : a.message.toList.head? = b.message.toList.head? := by rw [h]
  cases a with
  | unclosedComment =>
    cases b with
    | unclosedComment => rfl
    | unclosedString => exact absurd (congrArg String.length h) (by decide)
    | invalidCharacter lexeme =>
      rw [head?_message_invalidCharacter] at hhead
      exact absurd hhead (by decide)
  | unclosedString =>
    cases b with
    | unclosedComment => exact absurd (congrArg String.length h) (by decide)
    | unclosedString => rfl
    | invalidCharacter lexeme =>
      rw [head?_message_invalidCharacter] at hhead
      exact absurd hhead (by decide)
  | invalidCharacter lexeme =>
    rw [head?_message_invalidCharacter] at hhead
    cases b with
    | unclosedComment | unclosedString => exact absurd hhead (by decide)
    | invalidCharacter other =>
      have htext :
          "invalid character '" ++ lexeme ++ "'" = "invalid character '" ++ other ++ "'" := h
      rw [String.append_left_inj, String.append_right_inj] at htext
      rw [htext]

theorem Broken.fault_eq {fault : Token.Fault} {after : List Char} {t : Token}
    (h : Broken fault t.lexeme.toList after) : t.fault = fault := by
  have hlexeme : String.ofList t.lexeme.toList = t.lexeme := String.ofList_toList
  unfold Token.fault
  generalize t.lexeme.toList = text at h hlexeme
  cases h with
  | unended h =>
    cases h with
    | comment => rfl
    | string => rfl
  | @stray c after h =>
    have hquote : c ≠ '\x27' := by
      rintro rfl
      exact h (Piece.starts_quote after)
    simp [hlexeme, hquote]

theorem Token.message_eq_iff {t : Token} {after : List Char} {fault : Fault}
    (h : ∃ cause, Broken cause t.lexeme.toList after) :
    t.fault.message = fault.message ↔ Broken fault t.lexeme.toList after := by
  obtain ⟨cause, hcause⟩ := h
  constructor
  · intro hmessage
    rw [← Fault.message_injective hmessage, hcause.fault_eq]
    exact hcause
  · intro hfault
    rw [hfault.fault_eq]

/-! ## Texts -/

theorem exists_first_of_mem_locate {passed text : List Char} {t : Token}
    (h : t ∈ locate (.behind passed) (pieces text)) :
    ∃ before c rest, text = before ++ c :: rest ∧ t.position = .behind (passed ++ before) ∧
      (Piece.first c rest).token? = some (t.kind, t.lexeme.toList) := by
  fun_induction pieces text generalizing passed with
  | case1 => cases h
  | case2 c rest ih =>
    set more := (c :: rest).drop (Piece.first c rest).text.length
    have htext : c :: rest = (Piece.first c rest).text ++ more :=
      (List.prefix_iff_eq_append.1 (Piece.first_prefix c rest)).symm
    have hlater (hmem : t ∈ locate (Position.after (.behind passed) (Piece.first c rest).text)
        (pieces more)) :
        ∃ before d later, c :: rest = before ++ d :: later ∧
          t.position = .behind (passed ++ before) ∧
          (Piece.first d later).token? = some (t.kind, t.lexeme.toList) := by
      rw [Position.behind_after] at hmem
      obtain ⟨before, d, later, hmore, hposition, ht⟩ := ih hmem
      refine ⟨(Piece.first c rest).text ++ before, d, later, ?_, ?_, ht⟩
      · rw [List.append_assoc, ← hmore, ← htext]
      · rw [hposition, List.append_assoc]
    rw [locate] at h
    cases hp : (Piece.first c rest).token? with
    | none =>
      rw [hp] at h
      exact hlater h
    | some kt =>
      rw [hp] at h
      rcases List.mem_cons.1 h with rfl | h
      · exact ⟨[], c, rest, rfl, by simp, by simp [hp]⟩
      · exact hlater h

/-- Every token stands in the text as a lexeme of its kind, which could not have gone on. An error
has a cause, and its message is that of no other. -/
theorem scan_classified {source : String} {t : Token} (ht : t ∈ scan source)
    (hkind : t.kind ≠ .endOfInput) :
    ∃ before after, source.toList = before ++ t.lexeme.toList ++ after ∧
      t.position = .behind before ∧
      if t.kind = .error then
        (∃ fault, Broken fault t.lexeme.toList after) ∧
          ∀ fault, t.fault.message = fault.message ↔ Broken fault t.lexeme.toList after
      else Lexeme t.kind t.lexeme.toList after := by
  have hmem : t ∈ locate (.behind []) (pieces source.toList) := by
    rw [← Position.start_after, Position.after_nil, ← lexemes_eq]
    rcases List.mem_append.1 ht with hmem | hmark
    · exact hmem
    · obtain rfl := List.mem_singleton.1 hmark
      exact absurd rfl hkind
  obtain ⟨before, c, rest, htext, hposition, hfirst⟩ := exists_first_of_mem_locate hmem
  obtain ⟨after, hrest, hclassed⟩ := Piece.first_classed hfirst
  refine ⟨before, after, ?_, hposition, ?_⟩
  · rw [htext, hrest, List.append_assoc]
  unfold Classed at hclassed
  split at hclassed
  · rw [if_pos ‹_›]
    exact ⟨hclassed, fun _ => Token.message_eq_iff hclassed⟩
  · rw [if_neg ‹_›]
    exact hclassed

/-- Three quotes are an opened string with a quote in it. -/
theorem scan_classified_three_quotes :
    ⟨.error, "\x27\x27\x27", ⟨1, 3⟩⟩ ∈ scan "a \x27\x27\x27" ∧ Token.Kind.error ≠ .endOfInput ∧
      ∃ before after, "a \x27\x27\x27".toList = before ++ "\x27\x27\x27".toList ++ after ∧
        ⟨1, 3⟩ = Position.behind before ∧
        (∃ fault, Broken fault "\x27\x27\x27".toList after) ∧
          ∀ fault, "unclosed string" = fault.message ↔ Broken fault "\x27\x27\x27".toList after :=
  ⟨by decide +kernel, by decide,
    @scan_classified "a \x27\x27\x27" ⟨.error, "\x27\x27\x27", ⟨1, 3⟩⟩ (by decide +kernel)
      (by decide)⟩

end SqlScript
