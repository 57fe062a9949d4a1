import Mathlib.Data.List.Forall2
import SqlScript.Proofs.Token.Layout

/-!
Lexemes can be scanned again: one that is no error is read as before wherever a space or nothing
follows it. So words with spaces between them are the tokens of their text.
-/

namespace SqlScript

/-! ## Single lexemes -/

/-- Nothing follows, or a space. -/
def Parted (rest : List Char) : Prop := ∀ d ∈ rest.head?, isSpace d = true

/-- The text is one lexeme of the kind, if it is parted from what follows. -/
def Standalone (kind : Token.Kind) (text : List Char) : Prop :=
  ∃ c cs, text = c :: cs ∧ ∀ rest, Parted rest → Piece.first c (cs ++ rest) = .lexeme kind text

theorem Parted.nil : Parted [] := nofun

theorem Parted.cons {d : Char} (hd : isSpace d = true) (rest : List Char) : Parted (d :: rest) := by
  simpa [Parted] using hd

theorem eq_of_isSpace {d : Char} (h : isSpace d = true) :
    d = ' ' ∨ d = '\t' ∨ d = '\r' ∨ d = '\n' ∨ d = '\x0c' ∨ d = '\x0b' := by
  simpa [isSpace] using h

/-- No lexeme but a string holds a space. -/
theorem isWordChar_of_isSpace {d : Char} (h : isSpace d = true) : isWordChar d = false := by
  rcases eq_of_isSpace h with rfl | rfl | rfl | rfl | rfl | rfl <;> decide +kernel

theorem isDigit_of_isSpace {d : Char} (h : isSpace d = true) : isDigit d = false := by
  rcases eq_of_isSpace h with rfl | rfl | rfl | rfl | rfl | rfl <;> decide

namespace Piece

theorem operators_contains_space (c : Char) {d : Char} (h : isSpace d = true) :
    operators.contains [c, d] = false := by
  rcases eq_of_isSpace h with rfl | rfl | rfl | rfl | rfl | rfl <;> simp [operators]

/-- A minus and a slash may open comments; what any other character opens does not hang on the
next one, but for signs. -/
theorem first_of_ne {c : Char} (hd : c ≠ '-') (hs : c ≠ '/') (rest : List Char) :
    first c rest =
      if isSpace c then .blank c
      else if c = '\x27' then string rest
      else if isWordStart c then word c rest
      else if isDigit c then number c rest
      else sign c rest := by
  simp [first, hd, hs]

theorem string_append {cs rest : List Char} (h : stringCloses cs = true) (hr : Parted rest) :
    string (stringTail cs ++ rest) = .lexeme .string ('\x27' :: stringTail cs) := by
  have hagain : stringCloses (stringTail cs ++ rest) = true ∧
      stringTail (stringTail cs ++ rest) = stringTail cs := by
    fun_induction stringTail cs with
    | case1 more ih => simpa [stringTail, stringCloses] using ih (by simpa [stringCloses] using h)
    | case2 more hmore =>
      cases rest with
      | nil => simp [stringTail, stringCloses]
      | cons d rest =>
        have hd : d ≠ '\x27' := by
          rintro rfl
          exact absurd (hr _ rfl) (by decide)
        simp [stringTail, stringCloses, hd]
    | case3 more => simp [stringCloses] at h
    | case4 c more _ hq hn ih =>
      rw [stringCloses_cons hq hn] at h
      rw [List.cons_append, stringTail_cons hq hn, stringCloses_cons hq hn]
      simpa using ih h
    | case5 => simp [stringCloses] at h
  simp [string, hagain]

theorem numberTail_of_parted (point : Bool) {rest : List Char} (hr : Parted rest) :
    numberTail point rest = [] := by
  cases rest with
  | nil => rfl
  | cons d rest =>
    have hd : isDigit d = false := isDigit_of_isSpace (hr d rfl)
    have hpoint : d ≠ '.' := by
      rintro rfl
      exact absurd (hr _ rfl) (by decide)
    simp [numberTail, hd, hpoint]

theorem number_append (c : Char) (cs : List Char) {rest : List Char} (hr : Parted rest) :
    number c (numberTail false cs ++ rest) = .lexeme .number (c :: numberTail false cs) := by
  have hagain (point : Bool) :
      numberTail point (numberTail point cs ++ rest) = numberTail point cs := by
    fun_induction numberTail point cs with
    | case1 point => exact numberTail_of_parted point hr
    | case2 point d more hd ih => simp [numberTail, hd, ih]
    | case3 point d more hd hp ih => simp [numberTail, hd, hp, ih]
    | case4 point d more hd hp => exact numberTail_of_parted point hr
  rw [number, hagain]

theorem word_append (c : Char) (cs : List Char) {rest : List Char} (hr : Parted rest) :
    word c (cs.takeWhile isWordChar ++ rest) = word c cs := by
  have hnone : rest.takeWhile isWordChar = [] := by
    cases rest with
    | nil => rfl
    | cons d rest => simp [isWordChar_of_isSpace (hr d rfl)]
  have hagain : (cs.takeWhile isWordChar ++ rest).takeWhile isWordChar =
      cs.takeWhile isWordChar := by
    rw [List.takeWhile_append_of_pos fun d hd => List.mem_takeWhile_imp hd, hnone, List.append_nil]
  rw [word, word, hagain]

theorem sign_of_not_pair {c d : Char} (h : operators.contains [c, d] = false)
    (more : List Char) : sign c (d :: more) = sign c [] := by
  have hd : (d :: more).take 1 = [d] := rfl
  rw [sign, sign, hd, h, List.take_nil]
  cases operators.contains [c] <;> rfl

theorem sign_of_parted (c : Char) {rest : List Char} (hr : Parted rest) :
    sign c rest = sign c [] := by
  cases rest with
  | nil => rfl
  | cons d rest => exact sign_of_not_pair (operators_contains_space c (hr d rfl)) rest

theorem exists_sign_nil (c : Char) : ∃ kind, sign c [] = .lexeme kind [c] := by
  unfold sign
  split
  · exact ⟨_, rfl⟩
  split
  · exact ⟨_, rfl⟩
  split <;> exact ⟨_, rfl⟩

theorem sign_append (c : Char) (cs : List Char) :
    ∃ kind tail, sign c cs = .lexeme kind (c :: tail) ∧
      ∀ rest, Parted rest → sign c (tail ++ rest) = .lexeme kind (c :: tail) := by
  obtain ⟨kind, hnil⟩ := exists_sign_nil c
  have hsingle (hcs : sign c cs = sign c []) :
      sign c cs = .lexeme kind [c] ∧
        ∀ rest, Parted rest → sign c rest = .lexeme kind [c] :=
    ⟨hcs.trans hnil, fun rest hr => (sign_of_parted c hr).trans hnil⟩
  cases cs with
  | nil => exact ⟨kind, [], hsingle rfl⟩
  | cons d more =>
    cases hpair : operators.contains [c, d] with
    | false => exact ⟨kind, [], hsingle (sign_of_not_pair hpair more)⟩
    | true =>
      have hboth (rest : List Char) : sign c (d :: rest) = .lexeme .operator [c, d] := by
        have hd : (d :: rest).take 1 = [d] := rfl
        rw [sign, hd, hpair, if_pos rfl]
      exact ⟨.operator, [d], hboth more, fun rest _ => hboth rest⟩

theorem first_minus (cs : List Char) :
    first '-' cs =
      if cs.head? = some '-' then lineComment '-' cs else .lexeme .error ['-'] := by
  have hspace : isSpace '-' = false := by decide
  have hword : isWordStart '-' = false := by decide +kernel
  have hdigit : isDigit '-' = false := by decide
  have hsign : sign '-' cs = .lexeme .error ['-'] := by simp [sign, operators, delimiters]
  simp [first, hspace, hword, hdigit, hsign]

theorem first_slash (cs : List Char) :
    first '/' cs =
      if cs.head? = some '*' then blockComment cs.tail else .lexeme .error ['/'] := by
  have hspace : isSpace '/' = false := by decide
  have hword : isWordStart '/' = false := by decide +kernel
  have hdigit : isDigit '/' = false := by decide
  have hsign : sign '/' cs = .lexeme .error ['/'] := by simp [sign, operators, delimiters]
  simp [first, hspace, hword, hdigit, hsign]

theorem ne_of_first {c : Char} {cs : List Char} {kind : Token.Kind} {text : List Char}
    (h : first c cs = .lexeme kind text) (hk : kind ≠ .error) : c ≠ '-' ∧ c ≠ '/' := by
  constructor
  · rintro rfl
    rw [first_minus] at h
    split at h <;> cases h
    exact hk rfl
  · rintro rfl
    rw [first_slash, blockComment] at h
    split at h
    · split at h <;> cases h
    · cases h
      exact hk rfl

/-- What is read of a text is read again where it stands alone. -/
theorem standalone_of_first {c : Char} {cs : List Char} {kind : Token.Kind} {text : List Char}
    (h : first c cs = .lexeme kind text) (hk : kind ≠ .error) : Standalone kind text := by
  obtain ⟨hd, hs⟩ := ne_of_first h hk
  rw [first_of_ne hd hs] at h
  split at h
  · cases h
  rename_i hblank
  split at h
  · rename_i hquote
    subst hquote
    rw [string] at h
    split at h
    · rename_i hcloses
      cases h
      refine ⟨_, _, rfl, fun rest hr => ?_⟩
      rw [first_of_ne hd hs, if_neg hblank, if_pos rfl, string_append hcloses hr]
    · cases h
      exact absurd rfl hk
  rename_i hquote
  split at h
  · rename_i hword
    obtain ⟨rfl, rfl⟩ := lexeme.inj h
    refine ⟨_, _, rfl, fun rest hr => ?_⟩
    rw [first_of_ne hd hs, if_neg hblank, if_neg hquote, if_pos hword, word_append c cs hr]
    rfl
  rename_i hword
  split at h
  · rename_i hdigit
    cases h
    refine ⟨_, _, rfl, fun rest hr => ?_⟩
    rw [first_of_ne hd hs, if_neg hblank, if_neg hquote, if_neg hword, if_pos hdigit,
      number_append c cs hr]
  rename_i hdigit
  obtain ⟨kind', tail, hsign, hagain⟩ := sign_append c cs
  cases hsign.symm.trans h
  refine ⟨_, _, rfl, fun rest hr => ?_⟩
  rw [first_of_ne hd hs, if_neg hblank, if_neg hquote, if_neg hword, if_neg hdigit, hagain rest hr]

end Piece

theorem standalone_of_token? {c : Char} {cs : List Char} {kind : Token.Kind}
    {text : List Char} (h : (Piece.first c cs).token? = some (kind, text)) (hk : kind ≠ .error) :
    Standalone kind text := by
  cases hfirst : Piece.first c cs with
  | blank | comment =>
    rw [hfirst] at h
    cases h
  | unclosedComment body =>
    rw [hfirst] at h
    cases h
    exact absurd rfl hk
  | lexeme kind' text' =>
    rw [hfirst] at h
    cases h
    exact Piece.standalone_of_first hfirst hk

/-! ## Texts -/

/-- The tokens are of one kind and read the same, at whatever positions. -/
structure Token.SameText (t u : Token) : Prop where
  kind_eq : t.kind = u.kind
  lexeme_eq : t.lexeme = u.lexeme

instance (t u : Token) : Decidable (t.SameText u) :=
  decidable_of_iff (t.kind = u.kind ∧ t.lexeme = u.lexeme)
    ⟨fun h => ⟨h.1, h.2⟩, fun h => ⟨h.kind_eq, h.lexeme_eq⟩⟩

theorem pieces_of_standalone {kind : Token.Kind} {text rest : List Char}
    (h : Standalone kind text) (hr : Parted rest) :
    pieces (text ++ rest) = .lexeme kind text :: pieces rest := by
  obtain ⟨c, cs, rfl, hfirst⟩ := h
  rw [List.cons_append, pieces_cons, hfirst rest hr]
  simp [Piece.text]

theorem pieces_of_isSpace {c : Char} (hc : isSpace c = true) (rest : List Char) :
    pieces (c :: rest) = .blank c :: pieces rest := by
  have hfirst : Piece.first c rest = .blank c := if_pos hc
  rw [pieces_cons, hfirst]
  rfl

theorem locate_lexeme (p : Position) (t : Token) (more : List Piece) :
    locate p (.lexeme t.kind t.lexeme.toList :: more) =
      ⟨t.kind, t.lexeme, p⟩ :: locate (p.after t.lexeme.toList) more := by
  simp [locate, Piece.token?, Piece.text]

theorem locate_blank (p : Position) (c : Char) (more : List Piece) :
    locate p (.blank c :: more) = locate (p.next c) more := rfl

/-- Words are read again from the text that they make with spaces between them. -/
theorem locate_intercalate {space : Char} (hspace : isSpace space = true) (p : Position)
    {ts : List Token} (h : ∀ t ∈ ts, Standalone t.kind t.lexeme.toList) :
    List.Forall₂ Token.SameText ts
      (locate p (pieces ([space].intercalate (ts.map fun t => t.lexeme.toList)))) := by
  induction ts generalizing p with
  | nil => simp [List.intercalate, locate]
  | cons t ts ih =>
    have ht := h t (List.mem_cons_self ..)
    have hts := fun p => ih p fun u hu => h u (List.mem_cons_of_mem _ hu)
    cases ts with
    | nil =>
      rw [List.map_singleton, List.intercalate_singleton, ← List.append_nil t.lexeme.toList,
        pieces_of_standalone ht .nil, locate_lexeme, pieces_nil]
      exact .cons ⟨rfl, rfl⟩ .nil
    | cons u ts =>
      rw [List.map_cons, List.map_cons, List.intercalate_cons_cons, List.append_assoc,
        List.singleton_append, pieces_of_standalone ht (.cons hspace _), locate_lexeme,
        pieces_of_isSpace hspace, locate_blank]
      exact .cons ⟨rfl, rfl⟩ (hts _)

theorem lexemes_intercalate {ts : List Token} (h : ∀ t ∈ ts, Standalone t.kind t.lexeme.toList) :
    List.Forall₂ Token.SameText ts (lexemes (" ".intercalate (ts.map (·.lexeme)))) := by
  have hs := @locate_intercalate ' ' rfl .start ts h
  rw [lexemes_eq, String.toList_intercalate, List.map_map]
  exact hs

end SqlScript
