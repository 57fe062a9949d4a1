import Mathlib.Data.List.TakeWhile
import SqlScript.Grammar.Reading

/-!
Where a session stands: at one of its tokens, none of those before it an end mark. What is ahead of it
is what the rules read.
-/

namespace SqlScript.Grammar

namespace Session

/-- The number of the first end mark. -/
def last (s : Session) : Nat := (before s.tokens).length

def stop (s : Session) : Token := stopOf s.tokens

/-- The tokens that are still to be read. -/
def ahead (s : Session) : List Token := (before s.tokens).drop s.index

/-- The session has an end mark and has not passed it. -/
structure Standing (s : Session) : Prop where
  index_le : s.index ≤ s.last
  ended : ∃ t ∈ s.tokens, isEnd t = true

/-- Passes all tokens ahead but `rest`. -/
def moveTo (s : Session) (rest : List Token) : Session :=
  { s with index := s.index + (s.ahead.length - rest.length) }

variable {s : Session} {rest later : List Token}

/-! ## The current token -/

theorem isEnd_stopOf {tokens : List Token} (h : ∃ t ∈ tokens, isEnd t = true) :
    isEnd (stopOf tokens) = true := by
  obtain ⟨t, ht, hend⟩ := h
  unfold stopOf
  cases hf : tokens.find? isEnd with
  | none => exact absurd hend (List.find?_eq_none.1 hf t ht)
  | some u => exact List.find?_some hf

theorem isEnd_of_mem_before {tokens : List Token} {t : Token} (h : t ∈ before tokens) :
    isEnd t = false := by
  simpa using List.mem_takeWhile_imp h

/-- The tokens up to the first end mark, the mark, and what is never read. -/
theorem exists_beyond {tokens : List Token} (h : ∃ t ∈ tokens, isEnd t = true) :
    ∃ beyond, tokens = before tokens ++ stopOf tokens :: beyond := by
  induction tokens with
  | nil =>
    obtain ⟨t, ht, -⟩ := h
    cases ht
  | cons t ts ih =>
    cases ht : isEnd t with
    | true => exact ⟨ts, by simp [before, stopOf, ht]⟩
    | false =>
      have hts : ∃ u ∈ ts, isEnd u = true := by simpa [ht] using h
      obtain ⟨beyond, hbeyond⟩ := ih hts
      refine ⟨beyond, ?_⟩
      have hstop : stopOf (t :: ts) = stopOf ts := by
        obtain ⟨u, hu, hend⟩ := hts
        unfold stopOf
        cases hf : ts.find? isEnd with
        | none => exact absurd hend (List.find?_eq_none.1 hf u hu)
        | some v => simp [ht, hf]
      rw [hstop, before, List.takeWhile_cons, if_pos (by simp [ht])]
      exact congrArg (t :: ·) hbeyond

theorem Standing.current?_eq (h : s.Standing) : s.current? = some (current s.stop s.ahead) := by
  obtain ⟨beyond, hbeyond⟩ := exists_beyond h.ended
  rw [current?, hbeyond, ahead]
  rcases Nat.lt_or_ge s.index s.last with hlt | hge
  · rw [List.getElem?_append_left hlt, current, List.head?_drop, List.getElem?_eq_getElem hlt]
    rfl
  · have hindex : s.index = (before s.tokens).length := Nat.le_antisymm h.index_le hge
    rw [hindex, List.getElem?_append_right (Nat.le_refl _), Nat.sub_self, List.drop_length]
    rfl

theorem Standing.isEnd_stop (h : s.Standing) : isEnd s.stop = true := isEnd_stopOf h.ended

theorem isEnd_of_ahead {t : Token} {ts : List Token} (h : s.ahead = t :: ts) : isEnd t = false :=
  isEnd_of_mem_before (List.mem_of_mem_drop (h ▸ List.mem_cons_self ..))

/-! ## Moving -/

theorem moveTo_ahead (s : Session) : s.moveTo s.ahead = s := by
  simp [moveTo]

theorem length_ahead (s : Session) : s.ahead.length = s.last - s.index := List.length_drop

theorem Standing.moveTo (h : s.Standing) (rest : List Token) : (s.moveTo rest).Standing := by
  refine ⟨?_, h.ended⟩
  have hle := h.index_le
  change s.index + (s.ahead.length - rest.length) ≤ s.last
  rw [length_ahead]
  omega

theorem ahead_moveTo (hrest : rest <:+ s.ahead) :
    (s.moveTo rest).ahead = rest := by
  have hdrop := List.suffix_iff_eq_drop.1 hrest
  rw [ahead, Session.moveTo, ← List.drop_drop]
  exact hdrop.symm

theorem moveTo_moveTo (hlater : later <:+ rest) (hrest : rest <:+ s.ahead) :
    (s.moveTo rest).moveTo later = s.moveTo later := by
  have hahead := ahead_moveTo hrest
  have hle := hlater.length_le
  have hle' := hrest.length_le
  rw [Session.moveTo, hahead]
  simp only [Session.moveTo, Session.mk.injEq, true_and, and_true]
  omega

theorem next_eq_moveTo {t : Token} {ts : List Token} (h : s.ahead = t :: ts) :
    s.next = s.moveTo ts := by
  simp [next, moveTo, h]

theorem Standing.next {t : Token} {ts : List Token} (hs : s.Standing) (h : s.ahead = t :: ts) :
    s.next.Standing := by
  rw [next_eq_moveTo h]
  exact hs.moveTo ts

theorem ahead_next {t : Token} {ts : List Token} (h : s.ahead = t :: ts) : s.next.ahead = ts := by
  rw [next_eq_moveTo h]
  exact ahead_moveTo (h ▸ List.suffix_cons t ts)

theorem Standing.index_eq_last (hs : s.Standing) (h : s.ahead = []) : s.index = s.last := by
  have hlength := length_ahead s
  rw [h, List.length_nil] at hlength
  exact Nat.le_antisymm hs.index_le (Nat.le_of_sub_eq_zero hlength.symm)

theorem Standing.atEnd_iff (hs : s.Standing) : s.atEnd = true ↔ s.ahead = [] := by
  rw [atEnd, hs.current?_eq, Option.any_some]
  cases h : s.ahead with
  | nil => simp [current, hs.isEnd_stop]
  | cons t ts => simp [current, isEnd_of_ahead h]

theorem standing_start (tokens : List Token) (limit : Int) : (start tokens limit).Standing :=
  ⟨Nat.zero_le _, exists_isEnd_closed tokens⟩

end Session

end SqlScript.Grammar
