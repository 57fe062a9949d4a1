import Mathlib.Data.List.Induction
import Mathlib.Data.List.TakeWhile
import SqlScript.Proofs.Token.Counters

/-!
How tokens lie in a text: each is a stretch of it, what stands between two of them is blank or a
comment, and their positions count the lines and the characters in front of them. Only a comment
that nothing closes hides a part of the text.
-/

namespace SqlScript

/-! ## Positions -/

/-- The position behind a text: its line feeds count the lines, and what follows the last of them
counts the columns. -/
def Position.behind (passed : List Char) : Position :=
  ⟨1 + passed.count '\n', 1 + (passed.reverse.takeWhile (· ≠ '\n')).length⟩

theorem Position.start_after (passed : List Char) : start.after passed = behind passed := by
  induction passed using List.reverseRecOn with
  | nil => rfl
  | append_singleton passed c ih =>
    rw [after_append, ih, after_cons, after_nil, next]
    by_cases hc : c = '\n'
    · subst hc
      simp [behind, Int.add_assoc]
    · simp [behind, hc, Int.add_assoc, List.count_eq_zero.2]

theorem Position.behind_after (passed text : List Char) :
    (behind passed).after text = behind (passed ++ text) := by
  rw [← start_after, ← start_after, after_append]

/-! ## Layouts -/

/-- What closes a comment. -/
def Piece.commentCloser : List Char := ['*', '/']

namespace Piece

theorem commentTail?_eq_some {cs tail : List Char} (h : commentTail? cs = some tail) :
    ∃ body, tail = body ++ commentCloser ∧ ¬ commentCloser <:+: body ++ ['*'] := by
  fun_induction commentTail? cs generalizing tail with
  | case1 =>
    cases h
    exact ⟨[], rfl, by decide⟩
  | case2 c rest hc ih =>
    obtain ⟨t, ht, rfl⟩ := Option.map_eq_some_iff.1 h
    obtain ⟨body, rfl, hbody⟩ := ih ht
    refine ⟨c :: body, rfl, ?_⟩
    rw [List.cons_append, List.infix_cons_iff, not_or]
    refine ⟨?_, hbody⟩
    intro hprefix
    obtain ⟨rfl, hslash⟩ := List.cons_prefix_cons.1 hprefix
    cases body with
    | nil => simp at hslash
    | cons d body =>
      obtain ⟨rfl, -⟩ := List.cons_prefix_cons.1 hslash
      obtain ⟨later, rfl⟩ := commentTail?_prefix ht
      exact hc _ rfl rfl
  | case3 => cases h

theorem commentTail?_eq_none {cs : List Char} (h : commentTail? cs = none) :
    ¬ commentCloser <:+: cs := by
  fun_induction commentTail? cs with
  | case1 => cases h
  | case2 c rest hc ih =>
    rw [List.infix_cons_iff, not_or]
    refine ⟨?_, ih (Option.map_eq_none_iff.1 h)⟩
    intro hprefix
    obtain ⟨rfl, hslash⟩ := List.cons_prefix_cons.1 hprefix
    obtain ⟨later, rfl⟩ := hslash
    exact hc _ rfl rfl
  | case3 => simp [commentCloser]

/-! ## Pieces -/

/-- What can be said of a piece in front of `more`. -/
def Stands (more : List Char) : Piece → Prop
  | blank c => isSpace c = true
  | comment text =>
    (∃ body, text = '-' :: '-' :: body ∧ '\n' ∉ body ∧ ∀ c ∈ more.head?, c = '\n') ∨
      ∃ body, text = commentOpener ++ body ++ commentCloser ∧ ¬ commentCloser <:+: body ++ ['*']
  | lexeme kind text => text ≠ [] ∧ kind ≠ .endOfInput
  | unclosedComment body => more = [] ∧ ¬ commentCloser <:+: body

theorem sign_stands (c : Char) (rest more : List Char) : (sign c rest).Stands more := by
  unfold sign
  split
  · exact ⟨List.cons_ne_nil _ _, by decide⟩
  split
  · exact ⟨List.cons_ne_nil _ _, by decide⟩
  split
  · exact ⟨List.cons_ne_nil _ _, by decide⟩
  · exact ⟨List.cons_ne_nil _ _, by decide⟩

theorem string_stands (rest more : List Char) : (string rest).Stands more := by
  refine ⟨List.cons_ne_nil _ _, ?_⟩
  split <;> decide

theorem word_stands (c : Char) (rest more : List Char) : (word c rest).Stands more := by
  refine ⟨List.cons_ne_nil _ _, ?_⟩
  unfold wordKind
  split <;> decide

theorem lineComment_stands {rest more : List Char}
    (h : '-' :: '-' :: rest = (lineComment '-' ('-' :: rest)).text ++ more) :
    (lineComment '-' ('-' :: rest)).Stands more := by
  have htail : ('-' :: rest).takeWhile (· ≠ '\n') = '-' :: rest.takeWhile (· ≠ '\n') := by
    simp
  have hmore : more = rest.dropWhile (· ≠ '\n') := by
    rw [lineComment, text, htail] at h
    simp only [List.cons_append, List.cons.injEq, true_and] at h
    exact (List.append_cancel_left (List.takeWhile_append_dropWhile.trans h)).symm
  left
  refine ⟨rest.takeWhile (· ≠ '\n'), by rw [htail], ?_, ?_⟩
  · intro hmem
    simpa using List.mem_takeWhile_imp hmem
  · intro c hc
    have hnot := List.head?_dropWhile_not (· ≠ '\n') rest
    rw [← hmore, hc] at hnot
    simpa using hnot

theorem blockComment_stands {body more : List Char}
    (h : commentOpener ++ body = (blockComment body).text ++ more) :
    (blockComment body).Stands more := by
  unfold blockComment at h ⊢
  split
  · rename_i tail htail
    obtain ⟨inner, rfl, hinner⟩ := commentTail?_eq_some htail
    exact .inr ⟨inner, (List.append_assoc ..).symm, hinner⟩
  · rename_i htail
    rw [htail] at h
    refine ⟨?_, commentTail?_eq_none htail⟩
    simpa [text] using h

theorem first_stands {c : Char} {rest more : List Char}
    (h : c :: rest = (first c rest).text ++ more) : (first c rest).Stands more := by
  unfold first at h ⊢
  split
  · rename_i hc
    exact hc
  split
  · rename_i hc
    obtain ⟨rfl, hr⟩ : c = '-' ∧ rest.head? = some '-' := by simpa using hc
    obtain ⟨body, rfl⟩ := List.head?_eq_some_iff.1 hr
    exact lineComment_stands h
  split
  · rename_i hc
    obtain ⟨rfl, hr⟩ : c = '/' ∧ rest.head? = some '*' := by simpa using hc
    obtain ⟨body, rfl⟩ := List.head?_eq_some_iff.1 hr
    exact blockComment_stands h
  split
  · exact string_stands rest more
  split
  · exact word_stands c rest more
  split
  · exact ⟨List.cons_ne_nil _ _, by decide⟩
  · exact sign_stands c rest more

end Piece

/-! ## Texts -/

theorem exists_first_of_mem_pieces {text : List Char} {piece : Piece} (h : piece ∈ pieces text) :
    ∃ c rest, piece = Piece.first c rest := by
  fun_induction pieces text with
  | case1 => cases h
  | case2 c rest ih =>
    rcases List.mem_cons.1 h with rfl | h
    · exact ⟨c, rest, rfl⟩
    · exact ih h

theorem exists_piece_of_mem_locate {p : Position} {ps : List Piece} {t : Token}
    (h : t ∈ locate p ps) : ∃ piece ∈ ps, piece.token? = some (t.kind, t.lexeme.toList) := by
  induction ps generalizing p with
  | nil => cases h
  | cons piece more ih =>
    have hlater (hmem : t ∈ locate (p.after piece.text) more) :
        ∃ piece' ∈ piece :: more, piece'.token? = some (t.kind, t.lexeme.toList) := by
      obtain ⟨piece', hp, ht⟩ := ih hmem
      exact ⟨piece', List.mem_cons_of_mem _ hp, ht⟩
    rw [locate] at h
    cases hp : piece.token? with
    | none =>
      rw [hp] at h
      exact hlater h
    | some kt =>
      rw [hp] at h
      rcases List.mem_cons.1 h with rfl | h
      · exact ⟨piece, List.mem_cons_self .., by simp [hp]⟩
      · exact hlater h

/-- A token is made of the first piece of what stands where it begins. -/
theorem exists_first_of_mem_lexemes {source : String} {t : Token} (h : t ∈ lexemes source) :
    ∃ c rest, (Piece.first c rest).token? = some (t.kind, t.lexeme.toList) := by
  rw [lexemes_eq] at h
  obtain ⟨piece, hpiece, ht⟩ := exists_piece_of_mem_locate h
  obtain ⟨c, rest, rfl⟩ := exists_first_of_mem_pieces hpiece
  exact ⟨c, rest, ht⟩

theorem kind_of_mem_lexemes {source : String} {t : Token} (h : t ∈ lexemes source) :
    t.kind ≠ .endOfInput := by
  obtain ⟨c, rest, ht⟩ := exists_first_of_mem_lexemes h
  have hstands := Piece.first_stands
    (List.prefix_iff_eq_append.1 (Piece.first_prefix c rest)).symm
  generalize Piece.first c rest = piece at ht hstands
  cases piece with
  | blank c => cases ht
  | comment text => cases ht
  | lexeme kind text =>
    cases ht
    exact hstands.2
  | unclosedComment body =>
    obtain ⟨hkind, -⟩ := Prod.mk.inj (Option.some.inj ht)
    rw [← hkind]
    decide

end SqlScript
