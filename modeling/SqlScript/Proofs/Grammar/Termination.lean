import Mathlib.Logic.Function.Iterate
import SqlScript.Proofs.Grammar.ScriptCourses

/-!
A script is read in rounds, each of which passes a token, up to the first end mark.
-/

namespace SqlScript.Grammar

namespace Session

def rounded (s : Session) (n : Nat) : Session := nextRound^[n] s

variable {s : Session}

theorem rounded_succ (s : Session) (n : Nat) : s.rounded (n + 1) = (s.rounded n).nextRound :=
  Function.iterate_succ_apply' nextRound n s

theorem rounded_nextRound (s : Session) (n : Nat) : s.nextRound.rounded n = s.rounded (n + 1) := rfl

theorem Standing.rounded (hs : s.Standing) (n : Nat) : (s.rounded n).Standing := by
  induction n with
  | zero => exact hs
  | succ n ih =>
    rw [rounded_succ]
    exact ih.nextRound

theorem Standing.index_lt_nextRound (hs : s.Standing) (h : s.atEnd = false) :
    s.index < s.nextRound.index := by
  rw [atEnd, hs.current?_eq, Option.any_some] at h
  exact (Action.round_before hs.current?_eq h).2

/-- By induction on the tokens ahead, which every round makes fewer. -/
theorem Standing.exists_rounds (hs : s.Standing) : ∃ n ≤ s.ahead.length,
    (∀ k < n, (s.rounded k).atEnd = false) ∧ (s.rounded n).atEnd = true ∧
      s.rounded n = s.completed := by
  induction hn : s.ahead.length using Nat.strongRecOn generalizing s with
  | _ m ih =>
    by_cases hend : s.ahead = []
    · refine ⟨0, Nat.zero_le _, ?_, hs.atEnd_iff.2 hend, (completed_of_end hs hend).symm⟩
      intro k hk
      cases hk
    · have hshort := hn ▸ length_ahead_nextRound hs hend
      obtain ⟨n, hle, hbefore, hafter, hcompleted⟩ := ih _ hshort hs.nextRound rfl
      refine ⟨n + 1, Nat.lt_of_le_of_lt hle hshort, ?_, hafter, ?_⟩
      · intro k hk
        cases k with
        | zero => exact Bool.eq_false_iff.2 (mt hs.atEnd_iff.1 hend)
        | succ k => exact hbefore k (Nat.lt_of_succ_lt_succ hk)
      · rw [← rounded_nextRound, hcompleted, completed_of_ahead hs hend]

end Session

open Session

/-- Every round passes a token; after no more rounds than there are tokens before the first end mark the
session stands at that mark, calm and on the level where it began, and this is how the script is read. -/
theorem script_terminates (tokens : List Token) (limit : Int) :
    (∀ k, ((start tokens limit).rounded k).atEnd = false →
      ((start tokens limit).rounded k).index < ((start tokens limit).rounded (k + 1)).index) ∧
    ∃ n ≤ (before tokens).length,
      (∀ k < n, ((start tokens limit).rounded k).atEnd = false) ∧
      ∃ last tree, (start tokens limit).rounded n = last ∧
        (Action.script.run (start tokens limit)).ending = .done tree ∧
        (Action.script.run (start tokens limit)).session = last ∧
        last.atEnd = true ∧ last.index = (before tokens).length ∧
        last.panic = false ∧ last.depth = 0 := by
  have hs := standing_start tokens limit
  have hahead : (start tokens limit).ahead = before tokens := before_closed tokens
  obtain ⟨n, hle, hbefore, hafter, hcompleted⟩ := hs.exists_rounds
  obtain ⟨moments, hrun, -⟩ := Action.run_script hs
  refine ⟨?_, n, hahead ▸ hle, hbefore, _, _, hcompleted, congrArg Course.ending hrun,
    congrArg Course.session hrun, hcompleted ▸ hafter, congrArg List.length hahead, rfl, rfl⟩
  intro k hk
  rw [rounded_succ]
  exact (hs.rounded k).index_lt_nextRound hk

end SqlScript.Grammar
