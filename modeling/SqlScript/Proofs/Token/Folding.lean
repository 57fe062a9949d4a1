import SqlScript.Proofs.Text.Folding
import SqlScript.Proofs.Token.Rescan

/-!
The scanner does not tell small letters from capitals: the folding of a text is cut where the text
is, into pieces of the same kinds. Signs have no letters, so they stay as they are.
-/

namespace SqlScript
open SqlScript.Text

theorem isSpace_toLower (c : Char) : isSpace c.toLower = isSpace c :=
  apply_toLower (by decide) c

theorem isDigit_toLower (c : Char) : isDigit c.toLower = isDigit c :=
  apply_toLower (by decide) c

theorem isWordStart_toLower (c : Char) : isWordStart c.toLower = isWordStart c :=
  apply_toLower (by decide) c

theorem isWordChar_toLower (c : Char) : isWordChar c.toLower = isWordChar c := by
  rw [isWordChar, isWordChar, isWordStart_toLower, isDigit_toLower]

namespace Piece

def folded : Piece → Piece
  | .blank c => .blank c.toLower
  | .comment t => .comment (t.map Char.toLower)
  | .lexeme kind t => .lexeme kind (t.map Char.toLower)
  | .unclosedComment body => .unclosedComment (body.map Char.toLower)

theorem text_folded (piece : Piece) : piece.folded.text = piece.text.map Char.toLower := by
  cases piece <;> rfl

theorem token?_folded (piece : Piece) :
    piece.folded.token? = piece.token?.map (Prod.map id (List.map Char.toLower)) := by
  have hopener : commentOpener.map Char.toLower = commentOpener := by decide
  cases piece <;> simp [folded, token?, hopener]

/-! ## Classes of lexemes -/

theorem string_parts_folded (cs : List Char) :
    stringTail (cs.map Char.toLower) = (stringTail cs).map Char.toLower ∧
      stringCloses (cs.map Char.toLower) = stringCloses cs := by
  fun_induction stringTail cs with
  | case1 rest ih => simpa [stringTail, stringCloses] using ih
  | case2 rest hrest =>
    cases rest with
    | nil => simp [stringTail, stringCloses]
    | cons d rest =>
      have hd : d.toLower ≠ '\x27' :=
        mt (toLower_eq_iff rfl).1 fun h => hrest rest (by rw [h])
      simp [stringTail, stringCloses, hd]
  | case3 => simp [stringTail, stringCloses]
  | case4 c rest _ hq hn ih =>
    have hq' : c.toLower ≠ '\x27' := mt (toLower_eq_iff rfl).1 hq
    have hn' : c.toLower ≠ '\n' := mt (toLower_eq_iff rfl).1 hn
    rw [List.map_cons, stringTail_cons hq' hn', stringCloses_cons hq' hn', stringCloses_cons hq hn,
      List.map_cons, ih.1]
    exact ⟨rfl, ih.2⟩
  | case5 => exact ⟨rfl, rfl⟩

theorem string_folded (rest : List Char) :
    string (rest.map Char.toLower) = (string rest).folded := by
  obtain ⟨htail, hcloses⟩ := string_parts_folded rest
  rw [string, string, htail, hcloses]
  rfl

theorem numberTail_folded (point : Bool) (cs : List Char) :
    numberTail point (cs.map Char.toLower) = (numberTail point cs).map Char.toLower := by
  have hpoint (c : Char) : (c.toLower = '.') = (c = '.') := propext (toLower_eq_iff rfl)
  fun_induction numberTail point cs with
  | case1 => rfl
  | case2 point c rest hc ih => simp [numberTail, isDigit_toLower, hc, ih]
  | case3 point c rest hc hp ih => simp [numberTail, isDigit_toLower, hpoint, hc, hp, ih]
  | case4 point c rest hc hp => simp [numberTail, isDigit_toLower, hpoint, hc, hp]

theorem commentTail?_folded (cs : List Char) :
    commentTail? (cs.map Char.toLower) = (commentTail? cs).map (List.map Char.toLower) := by
  fun_induction commentTail? cs with
  | case1 => simp [commentTail?]
  | case2 c rest hc ih =>
    rw [List.map_cons, commentTail?, ih, Option.map_map, Option.map_map]
    · rfl
    · intro later hstar hslash
      cases rest with
      | nil => cases hslash
      | cons d rest =>
        rw [toLower_eq_iff rfl] at hstar
        have hd : d = '/' := (toLower_eq_iff rfl).1 (List.cons_eq_cons.1 hslash).1
        exact hc rest hstar (by rw [hd])
  | case3 => rfl

theorem blockComment_folded (body : List Char) :
    blockComment (body.map Char.toLower) = (blockComment body).folded := by
  rw [blockComment, blockComment, commentTail?_folded]
  cases commentTail? body <;> rfl

theorem lineComment_folded (c : Char) (rest : List Char) :
    lineComment c.toLower (rest.map Char.toLower) = (lineComment c rest).folded := by
  have hline : (fun d : Char => decide (d ≠ '\n')) ∘ Char.toLower = fun d => decide (d ≠ '\n') := by
    funext d
    simp [toLower_eq_iff]
  rw [lineComment, List.takeWhile_map, hline]
  rfl

theorem word_folded (c : Char) (rest : List Char) :
    word c.toLower (rest.map Char.toLower) = (word c rest).folded := by
  have hkind (w : List Char) : wordKind (w.map Char.toLower) = wordKind w := by
    rw [wordKind, wordKind, Token.isReserved, Token.isReserved, ← fold_ofList, upper_fold]
  have hword : isWordChar ∘ Char.toLower = isWordChar := funext isWordChar_toLower
  rw [word, List.takeWhile_map, hword, ← List.map_cons, hkind]
  rfl

theorem number_folded (c : Char) (rest : List Char) :
    number c.toLower (rest.map Char.toLower) = (number c rest).folded := by
  rw [number, numberTail_folded]
  rfl

/-! ## Signs -/

theorem isAlpha_of_mem_operators :
    ∀ sign ∈ operators, ∀ c ∈ sign, c.isAlpha = false := by
  simp [operators]

theorem operators_contains_folded (text : List Char) :
    operators.contains (text.map Char.toLower) = operators.contains text := by
  rw [Bool.eq_iff_iff, List.contains_iff_mem, List.contains_iff_mem]
  constructor
  · intro h
    have htext : ∀ c ∈ text, c.isAlpha = false := by
      simpa [isAlpha_toLower] using isAlpha_of_mem_operators _ h
    rwa [map_toLower_of_not_isAlpha htext] at h
  · intro h
    rwa [map_toLower_of_not_isAlpha (isAlpha_of_mem_operators _ h)]

theorem sign_folded (c : Char) (rest : List Char) :
    sign c.toLower (rest.map Char.toLower) = (sign c rest).folded := by
  have hdelimiter : delimiters.contains c.toLower = delimiters.contains c :=
    apply_toLower (by decide) c
  have hpair : c.toLower :: (rest.map Char.toLower).take 1 =
      (c :: rest.take 1).map Char.toLower := by
    rw [List.map_cons, List.map_take]
  have hsingle : [c.toLower] = [c].map Char.toLower := rfl
  rw [sign, sign, hpair, hsingle, operators_contains_folded, operators_contains_folded, hdelimiter]
  split
  · rfl
  split
  · rfl
  split <;> rfl

/-- No sign has a letter. -/
theorem isAlpha_of_sign {c : Char} {rest text : List Char} {kind : Token.Kind}
    (h : (first c rest).token? = some (kind, text))
    (hkind : kind = .operator ∨ kind = .delimiter) : ∀ d ∈ text, d.isAlpha = false := by
  unfold first at h
  split at h
  · cases h
  split at h
  · cases h
  split at h
  · unfold blockComment at h
    split at h <;> cases h
    simp at hkind
  split at h
  · obtain ⟨rfl, -⟩ := Prod.mk.inj (Option.some.inj h)
    split at hkind <;> simp at hkind
  split at h
  · obtain ⟨rfl, -⟩ := Prod.mk.inj (Option.some.inj h)
    unfold wordKind at hkind
    split at hkind <;> simp at hkind
  split at h
  · obtain ⟨rfl, -⟩ := Prod.mk.inj (Option.some.inj h)
    simp at hkind
  -- only a sign is left
  unfold sign at h
  split at h
  · rename_i hpair
    cases h
    exact isAlpha_of_mem_operators _ (List.contains_iff_mem.1 hpair)
  split at h
  · rename_i hsingle
    cases h
    exact isAlpha_of_mem_operators _ (List.contains_iff_mem.1 hsingle)
  split at h
  · rename_i hmark
    cases h
    have hall : ∀ d ∈ delimiters, d.isAlpha = false := by simp [delimiters]
    simpa using hall c (List.contains_iff_mem.1 hmark)
  · cases h
    simp at hkind

/-! ## Pieces -/

theorem first_folded (c : Char) (rest : List Char) :
    first c.toLower (rest.map Char.toLower) = (first c rest).folded := by
  have hhead {d : Char} (hd : d.isAlpha = false) :
      (rest.map Char.toLower).head? = some d ↔ rest.head? = some d := by
    cases rest with
    | nil => rfl
    | cons e rest => simp [toLower_eq_iff hd]
  rw [first, first, isSpace_toLower, isWordStart_toLower, isDigit_toLower]
  simp (disch := decide) only [toLower_eq_iff, hhead]
  split
  · rfl
  split
  · exact lineComment_folded c rest
  split
  · rw [← List.map_tail, blockComment_folded]
  split
  · exact string_folded rest
  split
  · exact word_folded c rest
  split
  · exact number_folded c rest
  · exact sign_folded c rest

end Piece

theorem pieces_folded (cs : List Char) :
    pieces (cs.map Char.toLower) = (pieces cs).map Piece.folded := by
  fun_induction pieces cs with
  | case1 => exact pieces_nil
  | case2 c rest ih =>
    rw [List.map_cons, pieces_cons, Piece.first_folded, Piece.text_folded, List.length_map,
      ← List.map_cons, ← List.map_drop, ih, List.map_cons]

/-! ## Tokens -/

def Token.folded (t : Token) : Token := { t with lexeme := fold t.lexeme }

theorem Position.after_folded (p : Position) (cs : List Char) :
    p.after (cs.map Char.toLower) = p.after cs := by
  induction cs generalizing p with
  | nil => rfl
  | cons c cs ih =>
    have hnext : p.next c.toLower = p.next c := by simp (disch := decide) only [next, toLower_eq_iff]
    rw [List.map_cons, after_cons, after_cons, hnext, ih]

theorem locate_folded (p : Position) (ps : List Piece) :
    locate p (ps.map Piece.folded) = (locate p ps).map Token.folded := by
  induction ps generalizing p with
  | nil => rfl
  | cons piece ps ih =>
    rw [List.map_cons, locate, locate, Piece.token?_folded, Piece.text_folded, Position.after_folded,
      ih]
    cases piece.token? with
    | none => rfl
    | some kt => simp [Token.folded, fold_ofList]

/-- The tokens of the folding are those of the text, folded; they stand at the same positions. -/
theorem scan_fold (source : String) : scan (fold source) = (scan source).map Token.folded := by
  have hlexemes : lexemes (fold source) = (lexemes source).map Token.folded := by
    rw [lexemes_eq, toList_fold, pieces_folded, locate_folded, lexemes_eq]
  have hmark : endMark ((lexemes source).map Token.folded) = (endMark (lexemes source)).folded := by
    rw [endMark, List.getLast?_map, Option.map_map]
    rfl
  rw [scan, hlexemes, withEndMark, hmark, scan, withEndMark, List.map_append, List.map_singleton]

/-- A sign is its own folding. -/
theorem fold_lexeme_of_sign {source : String} {t : Token} (ht : t ∈ scan source)
    (hkind : t.kind = .operator ∨ t.kind = .delimiter) : fold t.lexeme = t.lexeme := by
  rcases List.mem_append.1 ht with ht | ht
  · obtain ⟨c, rest, hfirst⟩ := exists_first_of_mem_lexemes ht
    rw [fold, map_toLower_of_not_isAlpha (Piece.isAlpha_of_sign hfirst hkind), String.ofList_toList]
  · rw [List.mem_singleton.1 ht]
    rfl

/-! ## Messages -/

namespace Token

def Fault.folded : Fault → Fault
  | .invalidCharacter lexeme => .invalidCharacter (fold lexeme)
  | fault => fault

theorem fault_folded (t : Token) : t.folded.fault = t.fault.folded := by
  have hcons {cs ds : List Char} {d : Char} (hd : d.isAlpha = false)
      (h : cs.map Char.toLower = d :: ds) : ∃ more, cs = d :: more ∧ more.map Char.toLower = ds := by
    obtain ⟨c, more, rfl, hc, hmore⟩ := List.map_eq_cons_iff.1 h
    exact ⟨more, by rw [(toLower_eq_iff hd).1 hc], hmore⟩
  have hlexeme : t.folded.lexeme.toList = t.lexeme.toList.map Char.toLower := toList_fold t.lexeme
  unfold fault
  split
  · rename_i h
    rw [hlexeme] at h
    obtain ⟨more, h, hmore⟩ := hcons rfl h
    obtain ⟨rest, rfl, -⟩ := hcons rfl hmore
    rw [h]
    rfl
  · rename_i h
    rw [hlexeme] at h
    obtain ⟨more, h, -⟩ := hcons rfl h
    rw [h]
    rfl
  · rename_i hcomment hstring
    split
    · rename_i rest h
      exact absurd (by rw [hlexeme, h]; rfl) (hcomment (rest.map Char.toLower))
    · rename_i rest h
      exact absurd (by rw [hlexeme, h]; rfl) (hstring (rest.map Char.toLower))
    · rfl

theorem fold_message_folded (fault : Fault) : fold fault.folded.message = fold fault.message := by
  cases fault with
  | unclosedComment | unclosedString => rfl
  | invalidCharacter lexeme =>
    have hmessage (l : String) : fold (Fault.invalidCharacter l).message =
        fold "invalid character '" ++ fold l ++ fold "'" := by
      rw [← fold_append, ← fold_append]
      rfl
    rw [Fault.folded, hmessage, hmessage, fold_fold]

/-- A token is named as its folding is. -/
theorem fold_describe_folded (t : Token) : fold t.folded.describe = fold t.describe := by
  have hkind : t.folded.kind = t.kind := rfl
  rw [describe, describe, hkind]
  cases t.kind
  case endOfInput => rfl
  case error => rw [fault_folded, fold_message_folded]
  all_goals
    simp only [folded, fold_append, fold_fold]

end Token

end SqlScript
