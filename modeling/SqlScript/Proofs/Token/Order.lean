import SqlScript.Proofs.Token.Counters

/-!
The order of positions. The tokens of one text stand at positions that grow from each to the next,
since no piece of a text is empty.
-/

namespace SqlScript

/-! ## Positions -/

namespace Position

variable {p q r : Position}

/-- An earlier line, or an earlier column of the same line. -/
def Precedes (p q : Position) : Prop :=
  p.line < q.line ∨ p.line = q.line ∧ p.column < q.column

theorem Precedes.trans (hpq : p.Precedes q) (hqr : q.Precedes r) : p.Precedes r := by
  unfold Precedes at *
  omega

theorem Precedes.ne (h : p.Precedes q) : p ≠ q := by
  rintro rfl
  unfold Precedes at h
  omega

theorem precedes_next (p : Position) (c : Char) : p.Precedes (p.next c) := by
  unfold next
  split
  · left
    exact Int.lt_succ p.line
  · right
    exact ⟨rfl, Int.lt_succ p.column⟩

theorem precedes_after (p : Position) {cs : List Char} (h : cs ≠ []) : p.Precedes (p.after cs) := by
  induction cs generalizing p with
  | nil => exact absurd rfl h
  | cons c cs ih =>
    rw [after_cons]
    by_cases hcs : cs = []
    · subst hcs
      exact precedes_next p c
    · exact (precedes_next p c).trans (ih _ hcs)

end Position

/-! ## Tokens -/

theorem text_ne_nil_of_mem_pieces {cs : List Char} {piece : Piece} (h : piece ∈ pieces cs) :
    piece.text ≠ [] := by
  fun_induction pieces cs with
  | case1 => cases h
  | case2 c rest ih =>
    rcases List.mem_cons.1 h with rfl | h
    · exact Piece.first_text_ne_nil c rest
    · exact ih h

theorem position_of_mem_locate {p : Position} {ps : List Piece}
    (hps : ∀ piece ∈ ps, piece.text ≠ []) {t : Token} (ht : t ∈ locate p ps) :
    t.position = p ∨ p.Precedes t.position := by
  induction ps generalizing p with
  | nil => cases ht
  | cons piece more ih =>
    have hlater (hmem : t ∈ locate (p.after piece.text) more) : p.Precedes t.position := by
      have hafter := p.precedes_after (hps piece (List.mem_cons_self ..))
      rcases ih (fun q hq => hps q (List.mem_cons_of_mem _ hq)) hmem with heq | hlt
      · rwa [heq]
      · exact hafter.trans hlt
    rw [locate] at ht
    cases hp : piece.token? with
    | none =>
      rw [hp] at ht
      exact .inr (hlater ht)
    | some kt =>
      rw [hp] at ht
      rcases List.mem_cons.1 ht with rfl | ht
      · exact .inl rfl
      · exact .inr (hlater ht)

theorem locate_sorted {p : Position} {ps : List Piece} (hps : ∀ piece ∈ ps, piece.text ≠ []) :
    (locate p ps).Pairwise fun a b => a.position.Precedes b.position := by
  induction ps generalizing p with
  | nil => exact .nil
  | cons piece more ih =>
    have hmore : ∀ q ∈ more, q.text ≠ [] := fun q hq => hps q (List.mem_cons_of_mem _ hq)
    rw [locate]
    cases piece.token? with
    | none => exact ih hmore
    | some kt =>
      refine List.Pairwise.cons ?_ (ih hmore)
      intro t ht
      have hafter := p.precedes_after (hps piece (List.mem_cons_self ..))
      rcases position_of_mem_locate hmore ht with heq | hlt
      · exact heq ▸ hafter
      · exact hafter.trans hlt

theorem lexemes_sorted (source : String) :
    (lexemes source).Pairwise fun a b => a.position.Precedes b.position := by
  rw [lexemes_eq]
  exact locate_sorted fun _ => text_ne_nil_of_mem_pieces

/-- Each token stands at a place of its own. -/
theorem nodup_places (source : String) : ((lexemes source).map Token.place).Nodup := by
  rw [List.Nodup, List.pairwise_map]
  exact (lexemes_sorted source).imp fun h hplace => h.ne (Position.place_injective hplace)

end SqlScript
