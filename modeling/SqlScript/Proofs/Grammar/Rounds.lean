import SqlScript.Proofs.Grammar.Record

/-!
The rounds of a list of tokens: what is read of it, which end mark stands after that, and which
tokens the rounds blame.
-/

namespace SqlScript.Grammar

/-! ## End marks -/

theorem before_closed (tokens : List Token) : before (closed tokens) = before tokens := by
  unfold closed
  split
  · rfl
  · rw [withEndMark, before, before, List.takeWhile_append]
    split
    · rename_i h
      have hall : tokens.takeWhile (!isEnd ·) = tokens :=
        (List.takeWhile_prefix _).eq_of_length h
      have hmark : [endMark tokens].takeWhile (!isEnd ·) = [] := rfl
      rw [hmark, List.append_nil, hall]
    · rfl

theorem before_append {a : List Token} (ha : ∀ t ∈ a, isEnd t = false) (b : List Token) :
    before (a ++ b) = a ++ before b := by
  rw [before, List.takeWhile_append_of_pos (by simpa using ha), before]

theorem before_withEndMark {ts : List Token} (h : ∀ t ∈ ts, isEnd t = false) :
    before (withEndMark ts) = ts := by
  have hmark : before [endMark ts] = [] := rfl
  rw [withEndMark, before_append h, hmark, List.append_nil]

theorem endMark_append (a : List Token) {b : List Token} (hb : b ≠ []) :
    endMark (a ++ b) = endMark b := by
  rw [endMark, endMark, List.getLast?_append_of_ne_nil a hb]

theorem closed_append (a : List Token) {b : List Token} (hb : b ≠ []) :
    closed (a ++ b) = a ++ closed b := by
  rw [closed, closed, List.getLast?_append_of_ne_nil a hb]
  split
  · rfl
  · rw [withEndMark, withEndMark, endMark_append a hb, List.append_assoc]

theorem stopOf_mem_closed (tokens : List Token) : stopOf (closed tokens) ∈ closed tokens := by
  obtain ⟨t, ht, hend⟩ := exists_isEnd_closed tokens
  unfold stopOf
  cases hf : (closed tokens).find? isEnd with
  | none => exact absurd hend (List.find?_eq_none.1 hf t ht)
  | some u => exact List.mem_of_find?_eq_some hf

theorem stopOf_closed_append {a b : List Token} (ha : ∀ t ∈ a, isEnd t = false) (hb : b ≠ []) :
    stopOf (closed (a ++ b)) = stopOf (closed b) := by
  have hnone : a.find? isEnd = none := List.find?_eq_none.2 (by simpa using ha)
  obtain ⟨t, ht, hend⟩ := exists_isEnd_closed b
  rw [closed_append a hb, stopOf, stopOf, List.find?_append, hnone, Option.none_or]
  cases hf : (closed b).find? isEnd with
  | none => exact absurd hend (List.find?_eq_none.1 hf t ht)
  | some u => rfl

/-! ## Rounds of a parse -/

/-- The rounds that a parse is made of. -/
def roundsOf (tokens : List Token) (limit : Int) : List Round :=
  rounds (roomOf limit) (stopOf (closed tokens)) false (before tokens)

theorem roundsOf_concat {ts : List Token} {stop : Token} (hts : ∀ t ∈ ts, isEnd t = false)
    (hstop : isEnd stop = true) (limit : Int) :
    roundsOf (ts ++ [stop]) limit = rounds (roomOf limit) stop false ts := by
  have hbefore : before (ts ++ [stop]) = ts := by
    rw [before_append hts]
    simp [before, hstop]
  have hmark : stopOf (closed [stop]) = stop := by simp [stopOf, closed, hstop]
  rw [roundsOf, hbefore, stopOf_closed_append hts (List.cons_ne_nil _ _), hmark]

theorem parse_eq_roundsOf (tokens : List Token) (limit : Int) : parse tokens limit =
    ⟨program (current (stopOf (closed tokens)) (before tokens)).place (roundsOf tokens limit),
      recordAll [] ((roundsOf tokens limit).filterMap Round.diagnostic?)⟩ := by
  rw [roundsOf, ← before_closed tokens]
  rfl

theorem children_parse (tokens : List Token) (limit : Int) :
    (parse tokens limit).tree.children = (roundsOf tokens limit).filterMap (·.tree) := by
  rw [parse_eq_roundsOf]
  rfl

theorem diagnostics_parse (tokens : List Token) (limit : Int) :
    (parse tokens limit).diagnostics =
      recordAll [] ((roundsOf tokens limit).filterMap Round.diagnostic?) := by
  rw [parse_eq_roundsOf]

/-! ## Blame -/

theorem current_mem {stop : Token} {rest ts : List Token} (h : rest <:+ ts) :
    current stop rest ∈ ts ++ [stop] := by
  cases rest with
  | nil => simp [current]
  | cons t rest => exact List.mem_append_left _ (h.subset (List.mem_cons_self ..))

theorem token_mem_of_blame {room : Nat} {stop : Token} {panic : Bool} {ts : List Token} {r : Round}
    {b : Blame} (hr : r ∈ rounds room stop panic ts) (hb : r.blame = some b) :
    b.token ∈ ts ++ [stop] := by
  fun_induction rounds room stop panic ts with
  | case1 => cases hr
  | case2 panic t ts a ih =>
    rcases List.mem_cons.1 hr with rfl | hr
    · obtain ⟨why, -, rfl⟩ := Option.map_eq_some_iff.1 hb
      exact current_mem (statement_suffix room stop (t :: ts))
    · have hsuffix : a.next panic <:+ t :: ts :=
        (a.next_suffix panic).trans (statement_suffix room stop (t :: ts))
      rcases List.mem_append.1 (ih hr) with hmem | hmem
      · exact List.mem_append_left _ (hsuffix.subset hmem)
      · exact List.mem_append_right _ hmem

theorem place_endMark {ts : List Token} (h : ts ≠ []) :
    (endMark ts).place = (ts.getLast h).place := by
  simp [endMark, Token.place, List.getLast?_eq_some_getLast h]

theorem exists_place_endMark {ts : List Token} (h : ts ≠ []) :
    ∃ t ∈ ts, (endMark ts).place = t.place :=
  ⟨ts.getLast h, List.getLast_mem h, place_endMark h⟩

/-- A failure of a round stands at one of the tokens. -/
theorem exists_token_of_failure {tokens : List Token} {limit : Int} {d : Diagnostic}
    (h : d ∈ (roundsOf tokens limit).filterMap Round.diagnostic?) :
    before tokens ≠ [] ∧ ∃ t ∈ tokens, d.place = t.place := by
  obtain ⟨r, hr, hd⟩ := List.mem_filterMap.1 h
  obtain ⟨b, hb, rfl⟩ := Option.map_eq_some_iff.1 hd
  have hne : before tokens ≠ [] := by
    intro hnil
    rw [roundsOf, hnil, rounds] at hr
    cases hr
  have hsub : before tokens ⊆ tokens := (List.takeWhile_prefix _).subset
  refine ⟨hne, ?_⟩
  rcases List.mem_append.1 (token_mem_of_blame hr hb) with hmem | hmem
  · exact ⟨b.token, hsub hmem, rfl⟩
  · have hstop : b.token ∈ closed tokens := by
      rw [List.mem_singleton.1 hmem]
      exact stopOf_mem_closed tokens
    unfold closed at hstop
    split at hstop
    · exact ⟨b.token, hstop, rfl⟩
    · rcases List.mem_append.1 hstop with hmem | hmem
      · exact ⟨b.token, hmem, rfl⟩
      · rw [Blame.diagnostic, List.mem_singleton.1 hmem]
        refine exists_place_endMark ?_
        rintro rfl
        exact hne rfl

/-- A diagnostic stands at one of the tokens. -/
theorem exists_token_of_diagnostic {tokens : List Token} {limit : Int} {d : Diagnostic}
    (h : d ∈ (parse tokens limit).diagnostics) :
    before tokens ≠ [] ∧ ∃ t ∈ tokens, d.place = t.place := by
  rw [diagnostics_parse] at h
  rcases mem_recordAll h with h | h
  · cases h
  · exact exists_token_of_failure h

end SqlScript.Grammar
