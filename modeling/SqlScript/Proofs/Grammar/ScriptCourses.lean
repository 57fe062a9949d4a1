import SqlScript.Proofs.Grammar.Following
import SqlScript.Proofs.Grammar.Language

/-!
Statements, rounds and scripts as actions go as `Attempt`, `rounds` and `parse` say.
-/

namespace SqlScript.Grammar

/-! ## Rounds -/

/-- The statement that is read next. -/
def Session.attempted (s : Session) : Attempt := statement s.room s.stop s.ahead

/-- What a round leaves that reads `a`. -/
def Session.settled (s : Session) (a : Attempt) : Session :=
  { ((s.moveTo a.rest).complain a.complaint).moveTo (a.next s.panic) with panic := false }

/-- The round reads `a`. -/
structure Course.Settles (c : Course (Option Tree)) (s : Session) (a : Attempt) : Prop where
  ending_eq : c.ending = .done a.tree
  session_eq : c.session = s.settled a
  refuses_iff : c.Refuses ↔ a.complaint = some .tooDeep

/-- The leaf for where the parts were given up. -/
def Progress.mark (p : Progress) (stop : Token) : List Tree :=
  match p.complaint with
  | some _ => [Tree.leaf .error (current stop p.rest)]
  | none => []

def Attempt.ending (a : Attempt) : Ending Tree := .ofOption a.tree

theorem ofToken?_of_isEnd {t : Token} (h : isEnd t = true) : Statement.ofToken? t = none := by
  refine Option.eq_none_iff_forall_ne_some.2 fun st hst => ?_
  have hend := isEnd_of_isKeyword (Statement.ofToken?_eq_some.1 hst)
  rw [h] at hend
  cases hend

namespace Action

variable {s : Session}

/-! ## Statements -/

theorem run_errorLeaf {t : Token} (h : s.current? = some t) :
    errorLeaf.run s = ⟨[], .done (Tree.leaf .error t), s⟩ := by
  rw [errorLeaf, run_bind, run_peek h]
  rfl

theorem run_advance_end (hs : s.Standing) (h : s.ahead = []) :
    advance.run s = ⟨[], .done s.stop, s⟩ := by
  simp [advance, hs.current?_eq, h, current, hs.isEnd_stop]

theorem advance_matches {t : Token} {ts : List Token} (hs : s.Standing) (h : s.ahead = t :: ts) :
    (advance.run s).Matches s (.done t) none ts := by
  rw [run_advance (current?_of_ahead hs h) (Session.isEnd_of_ahead h)]
  exact Follows.passed h t

/-- By induction on the parts, each of which follows its rule. -/
theorem gather_matches {as : List (Action (List Tree))} {rs : List (Rule (List Tree))}
    (h : List.Forall₂ (Follows s.room) as rs) (hs : s.Standing) :
    let p := Progress.run rs s.ahead
    ((gather as).run s).Matches s (.done (p.trees ++ p.mark s.stop)) p.complaint p.rest := by
  induction as generalizing s rs with
  | nil =>
    cases h
    exact .quiet _
  | cons a as ih =>
    obtain ⟨r, rs, hfirst, hlater, rfl⟩ := List.forall₂_cons_left_iff.1 h
    have hpart := hfirst s hs rfl
    rw [gather, run_bind, Progress.run]
    cases hr : r.run s.ahead with
    | done trees rest =>
      rw [hr] at hpart
      have hdone : (a.run s).Matches s (.ofOption (some trees)) none rest := hpart
      have hrest := ih (s := s.moveTo rest) hlater (hs.moveTo rest)
      rw [Session.ahead_moveTo hdone.suffix] at hrest
      refine hdone.attempt.bind_done ?_
      dsimp only
      rw [run_bind]
      refine hrest.bind_still ?_
      rw [run_pure, List.append_assoc]
      rfl
    | refused why rest =>
      rw [hr] at hpart
      have hgiven : (a.run s).Matches s (.ofOption none) (some why) rest := hpart
      refine hgiven.attempt.bind_still ?_
      have hcurrent := ((hs.moveTo rest).complain (some why)).current?_eq
      rw [Session.ahead_complain, Session.ahead_moveTo hgiven.suffix] at hcurrent
      dsimp only
      rw [run_bind, run_errorLeaf hcurrent]
      rfl

/-- At the end a statement takes the end mark for its first word. -/
theorem only_matches (st : Statement) (hs : s.Standing) :
    let a := st.attempt s.room s.stop (current s.stop s.ahead) s.ahead.tail
    ((only st).run s).Matches s a.ending a.complaint a.rest := by
  have hparts : List.Forall₂ (Follows s.room) (parts st) (st.parts s.room) := Follows.parts st
  rw [only, node, run_bind, run_peek hs.current?_eq, Course.bind_done, Course.behind_nil, run_bind,
    run_bind]
  cases hahead : s.ahead with
  | nil =>
    have hgather := gather_matches hparts hs
    rw [hahead] at hgather
    rw [run_advance_end hs hahead, Course.bind_done, Course.behind_nil, run_bind, Course.bind_assoc]
    exact hgather.bind_still rfl
  | cons t ts =>
    have hpassed := advance_matches hs hahead
    have hgather := gather_matches (s := s.moveTo ts) hparts (hs.moveTo ts)
    rw [Session.ahead_moveTo hpassed.suffix] at hgather
    rw [Course.bind_assoc]
    refine hpassed.bind_done ?_
    rw [run_bind, Course.bind_assoc]
    exact hgather.bind_still rfl

theorem statement_matches (hs : s.Standing) : (statement.run s).Matches s s.attempted.ending
    s.attempted.complaint s.attempted.rest := by
  have hrefuse : ((refuse noStatement : Action Tree).run s).Follows s
      ((Rule.refuse noStatement : Rule Tree).run s.ahead) := Follows.refuse _ s hs rfl
  have honly (st : Statement) := only_matches st hs
  rw [statement, run_bind, run_peek hs.current?_eq, Course.bind_done, Course.behind_nil,
    Session.attempted]
  cases hahead : s.ahead with
  | nil =>
    rw [current, List.head?_nil, Option.getD_none, ofToken?_of_isEnd hs.isEnd_stop]
    rw [hahead] at hrefuse
    exact hrefuse
  | cons t ts =>
    rw [hahead] at hrefuse honly
    rw [Grammar.statement, current, List.head?_cons, Option.getD_some]
    cases Statement.ofToken? t with
    | some st => exact honly st
    | none => exact hrefuse

/-! ## Recovery -/

theorem run_skip_stop {t : Token} (h : s.current? = some t) (hstop : isEnd t = true ∨
    s.previous?.any (·.isDelimiter ";") = true ∨ Statement.isOpener t = true) :
    (skip ()).run s = ⟨[], .done none, s⟩ := by
  have hcond : (isEnd t || s.previous?.any (·.isDelimiter ";") || Statement.isOpener t) = true := by
    rcases hstop with h | h | h <;> simp [h]
  rw [skip, run_bind, run_peek h, Course.bind_done, Course.behind_nil, run_bind, previous,
    Course.bind_done, Course.behind_nil, if_pos hcond]
  rfl

theorem run_skip_go {t : Token} (h : s.current? = some t) (hend : isEnd t = false)
    (hprevious : s.previous?.any (·.isDelimiter ";") = false)
    (hopener : Statement.isOpener t = false) :
    (skip ()).run s = ⟨[⟨.passed, s.next⟩], .done (some ()), s.next⟩ := by
  rw [skip, run_bind, run_peek h, Course.bind_done, Course.behind_nil, run_bind, previous,
    Course.bind_done, Course.behind_nil, if_neg (by simp [hend, hprevious, hopener]), run_bind,
    run_advance h hend]
  rfl

theorem loop_skip_stop {t : Token} (h : s.current? = some t) (hstop : isEnd t = true ∨
    s.previous?.any (·.isDelimiter ";") = true ∨ Statement.isOpener t = true) :
    ((loop skip advances_skip ()).run s).Matches s (.done ()) none s.ahead := by
  rw [run_loop, run_skip_stop h hstop]
  exact .quiet _

theorem previous?_next {t : Token} (h : s.current? = some t) : s.next.previous? = some t := by
  simpa [Session.previous?, Session.next, Session.current?] using h

/-- By induction on the tokens after the one that has just been passed. -/
theorem loop_skip_next {t : Token} {ts : List Token} (hs : s.Standing) (h : s.ahead = t :: ts)
    (hopener : Statement.isOpener t = false) :
    ((loop skip advances_skip ()).run s.next).Matches s.next (.done ()) none
      (Grammar.recover (t :: ts)) := by
  induction ts generalizing s t with
  | nil =>
    have hrecover : Grammar.recover [t] = [] := by simp [Grammar.recover, hopener]
    have hahead : s.next.ahead = [] := by rw [Session.ahead_next h]
    have hs' := hs.next h
    have hstop := loop_skip_stop hs'.current?_eq (.inl (by rw [hahead]; exact hs'.isEnd_stop))
    rwa [hahead, ← hrecover] at hstop
  | cons u us ih =>
    have hahead : s.next.ahead = u :: us := Session.ahead_next h
    have hcurrent := current?_of_ahead (hs.next h) hahead
    have hprevious := previous?_next (current?_of_ahead hs h)
    cases hsemicolon : t.isDelimiter ";" with
    | true =>
      have hrecover : Grammar.recover (t :: u :: us) = u :: us := by
        simp [Grammar.recover, hopener, hsemicolon]
      have hstop := loop_skip_stop hcurrent (.inr (.inl (by rw [hprevious]; exact hsemicolon)))
      rwa [hahead, ← hrecover] at hstop
    | false =>
      have hrecover : Grammar.recover (t :: u :: us) = Grammar.recover (u :: us) := by
        rw [Grammar.recover, if_neg (by simp [hopener]), if_neg (by simp [hsemicolon])]
      rw [hrecover]
      cases hu : Statement.isOpener u with
      | true =>
        have hstay : Grammar.recover (u :: us) = u :: us := by simp [Grammar.recover, hu]
        have hstop := loop_skip_stop hcurrent (.inr (.inr hu))
        rwa [hahead, ← hstay] at hstop
      | false =>
        have hgo := run_skip_go hcurrent (Session.isEnd_of_ahead hahead)
          (by rw [hprevious]; exact hsemicolon) hu
        have hpassed : ((skip ()).run s.next).Matches s.next (.done (some ())) none us := by
          rw [hgo]
          exact Follows.passed hahead _
        rw [run_loop]
        refine hpassed.bind_done ?_
        rw [← Session.next_eq_moveTo hahead]
        exact ih (hs.next h) hahead hu

theorem resume_matches (hs : s.Standing) :
    (resume.run s).Matches s (.done ()) none (Grammar.recover s.ahead) := by
  rw [resume, run_bind, run_peek hs.current?_eq, Course.bind_done, Course.behind_nil]
  cases hahead : s.ahead with
  | nil =>
    have hcurrent : s.current? = some s.stop := by rw [hs.current?_eq, hahead]; rfl
    have hopener : Statement.isOpener s.stop = false :=
      Statement.isOpener_of_none (ofToken?_of_isEnd hs.isEnd_stop)
    have hstop := loop_skip_stop hcurrent (.inl hs.isEnd_stop)
    rw [hahead] at hstop
    rw [current, List.head?_nil, Option.getD_none, hopener, if_neg Bool.false_ne_true, run_bind,
      run_advance_end hs hahead]
    exact hstop
  | cons t ts =>
    have hcurrent := current?_of_ahead hs hahead
    rw [current, List.head?_cons, Option.getD_some]
    cases hopener : Statement.isOpener t with
    | true =>
      have hrecover : Grammar.recover (t :: ts) = s.ahead := by
        simp [Grammar.recover, hopener, hahead]
      rw [if_pos rfl, hrecover]
      exact loop_skip_stop hcurrent (.inr (.inr hopener))
    | false =>
      rw [if_neg Bool.false_ne_true, run_bind]
      refine (advance_matches hs hahead).bind_done ?_
      rw [← Session.next_eq_moveTo hahead]
      exact loop_skip_next hs hahead hopener

/-- Recovery answers, and refuses nothing on the way. -/
theorem run_recover (hs : s.Standing) : ∃ moments,
    recover.run s = ⟨moments, .done (), s.calmed.moveTo (Grammar.recover s.ahead)⟩ ∧
      ¬ ∃ m ∈ moments, m.deed = .refused := by
  have hresume : (resume.run s.calmed).Matches s.calmed (.done ()) none (Grammar.recover s.ahead) :=
    resume_matches (s := s.calmed) ⟨hs.index_le, hs.ended⟩
  obtain ⟨⟨later, ending, last⟩, hrun⟩ : ∃ c, resume.run s.calmed = c := ⟨_, rfl⟩
  rw [hrun] at hresume
  obtain rfl : ending = .done () := hresume.ending_eq
  obtain rfl : last = s.calmed.moveTo (Grammar.recover s.ahead) := hresume.session_eq
  have hquiet : ¬ ∃ m ∈ later, m.deed = .refused := fun h => by
    cases hresume.refuses_iff.1 h
  refine ⟨⟨.calmed, s.calmed⟩ :: later, ?_, by simpa using hquiet⟩
  rw [recover, run_bind]
  exact congrArg (Course.behind [⟨.calmed, s.calmed⟩]) hrun

theorem panic_complain (s : Session) (why : Option Complaint) :
    (s.complain why).panic = (s.panic || why.isSome) := by
  cases why with
  | none => exact (Bool.or_false s.panic).symm
  | some why => exact (Bool.or_true s.panic).symm

theorem round_settles (hs : s.Standing) :
    (round.run s).Settles s s.attempted := by
  set a := s.attempted
  have hattempt : ((attempt statement).run s).Matches s (.done a.tree) a.complaint a.rest :=
    (statement_matches hs).attempt
  obtain ⟨⟨moments, ending, mid⟩, hrun⟩ : ∃ c, (attempt statement).run s = c := ⟨_, rfl⟩
  rw [hrun] at hattempt
  obtain rfl : ending = .done a.tree := hattempt.ending_eq
  have hmid : (s.moveTo a.rest).complain a.complaint = mid := hattempt.session_eq.symm
  have hstanding : mid.Standing := hmid ▸ (hs.moveTo a.rest).complain a.complaint
  have hahead : mid.ahead = a.rest := by
    rw [← hmid, Session.ahead_complain, Session.ahead_moveTo hattempt.suffix]
  have hpanic : mid.panic = (s.panic || a.complaint.isSome) := by
    rw [← hmid, panic_complain]
    rfl
  have hafter : (round.run s) = Course.behind moments
      ((if mid.panic then (do recover; return a.tree) else return a.tree : Action _).run mid) := by
    rw [round, run_bind, hrun]
    cases h : mid.panic <;> simp [panicking, h]
  have hrefuses : (∃ m ∈ moments, m.deed = .refused) ↔ a.complaint = some .tooDeep :=
    hattempt.refuses_iff
  rw [hafter]
  cases h : mid.panic with
  | false =>
    have hnext : a.next s.panic = mid.ahead := by
      rw [Attempt.next, ← hpanic, h, if_neg Bool.false_ne_true, hahead]
    rw [if_neg Bool.false_ne_true, run_pure]
    refine ⟨rfl, ?_, ?_⟩
    · rw [Session.settled, hmid, hnext, Session.moveTo_ahead, Course.session_behind, ← h]
    · simpa [Course.refuses_behind, Course.Refuses] using hrefuses
  | true =>
    have hnext : a.next s.panic = Grammar.recover mid.ahead := by
      rw [Attempt.next, ← hpanic, h, if_pos rfl, hahead]
    obtain ⟨later, hrecover, hquiet⟩ := run_recover hstanding
    rw [if_pos rfl, run_bind, hrecover, Course.bind_done]
    refine ⟨rfl, ?_, ?_⟩
    · rw [Session.settled, hmid, hnext]
      rfl
    · rw [Course.refuses_behind, Course.refuses_behind, hrefuses, or_iff_left]
      rintro (hlate | hnone)
      · exact hquiet hlate
      · simp [Course.Refuses] at hnone

end Action

/-! ## Scripts -/

namespace Session

variable {s : Session}

/-- What the round leaves that begins here. -/
def nextRound (s : Session) : Session := (Action.round.run s).session

/-- All rounds that are to come. -/
def rounds (s : Session) : List Round := Grammar.rounds s.room s.stop s.panic s.ahead

/-- What is left when they are over. -/
def completed (s : Session) : Session :=
  { s with
    index := s.last
    diagnostics := recordAll s.diagnostics (s.rounds.filterMap Round.diagnostic?)
    panic := s.panic && s.ahead.isEmpty }

theorem attempted_suffix (s : Session) : s.attempted.rest <:+ s.ahead := statement_suffix _ _ _

theorem nextRound_eq (hs : s.Standing) : s.nextRound = s.settled s.attempted :=
  (Action.round_settles hs).session_eq

theorem Standing.nextRound (hs : s.Standing) : s.nextRound.Standing := by
  rw [nextRound_eq hs]
  have hmoved := ((hs.moveTo s.attempted.rest).complain s.attempted.complaint).moveTo
    (s.attempted.next s.panic)
  exact ⟨hmoved.index_le, hmoved.ended⟩

theorem ahead_nextRound (hs : s.Standing) : s.nextRound.ahead = s.attempted.next s.panic := by
  rw [nextRound_eq hs]
  refine ahead_moveTo (s := (s.moveTo s.attempted.rest).complain s.attempted.complaint) ?_
  rw [ahead_complain, ahead_moveTo s.attempted_suffix]
  exact Attempt.next_suffix _ _

theorem length_ahead_nextRound (hs : s.Standing) (h : s.ahead ≠ []) :
    s.nextRound.ahead.length < s.ahead.length := by
  obtain ⟨t, ts, hts⟩ := List.exists_cons_of_ne_nil h
  rw [ahead_nextRound hs, attempted, hts]
  exact statement_next_length_lt _ _ _ t ts

theorem diagnostics_nextRound (hs : s.Standing) : s.nextRound.diagnostics =
    recordAll s.diagnostics ((s.attempted.blame s.stop).map Blame.diagnostic).toList := by
  rw [nextRound_eq hs, settled, Attempt.blame]
  cases hwhy : s.attempted.complaint with
  | none => rfl
  | some why =>
    change record s.diagnostics _ = _
    rw [ahead_moveTo s.attempted_suffix]
    rfl

/-- Tokens, limit and depth stay. -/
theorem nextRound_frame (hs : s.Standing) : ∃ index diagnostics, s.nextRound =
    { s with index := index, diagnostics := diagnostics, panic := false } := by
  rw [nextRound_eq hs, settled]
  cases s.attempted.complaint <;> exact ⟨_, _, rfl⟩

theorem last_nextRound (hs : s.Standing) : s.nextRound.last = s.last := by
  obtain ⟨index, diagnostics, h⟩ := nextRound_frame hs
  rw [h]
  rfl

theorem limit_nextRound (hs : s.Standing) : s.nextRound.limit = s.limit := by
  obtain ⟨index, diagnostics, h⟩ := nextRound_frame hs
  rw [h]

theorem panic_nextRound (hs : s.Standing) : s.nextRound.panic = false := by
  obtain ⟨index, diagnostics, h⟩ := nextRound_frame hs
  rw [h]

theorem rounds_of_ahead (hs : s.Standing) (h : s.ahead ≠ []) :
    s.rounds = ⟨s.attempted.tree, s.attempted.blame s.stop⟩ :: s.nextRound.rounds := by
  obtain ⟨t, ts, hts⟩ := List.exists_cons_of_ne_nil h
  obtain ⟨index, diagnostics, hnext⟩ := nextRound_frame hs
  have hroom : s.nextRound.room = s.room := by rw [hnext]; rfl
  have hstop : s.nextRound.stop = s.stop := by rw [hnext]; rfl
  have hrounds : s.nextRound.rounds =
      Grammar.rounds s.room s.stop false (s.attempted.next s.panic) := by
    rw [rounds, ahead_nextRound hs, panic_nextRound hs, hroom, hstop]
  rw [hrounds, rounds, attempted, hts, Grammar.rounds]

theorem rounds_of_end (h : s.ahead = []) : s.rounds = [] := by
  rw [rounds, h, Grammar.rounds]

theorem completed_of_ahead (hs : s.Standing) (h : s.ahead ≠ []) :
    s.completed = s.nextRound.completed := by
  obtain ⟨index, diagnostics, hnext⟩ := nextRound_frame hs
  have hrecord : recordAll s.diagnostics (s.rounds.filterMap Round.diagnostic?) =
      recordAll s.nextRound.diagnostics (s.nextRound.rounds.filterMap Round.diagnostic?) := by
    rw [rounds_of_ahead hs h, diagnostics_nextRound hs, ← recordAll_append, List.filterMap_cons]
    cases s.attempted.blame s.stop <;> simp [Round.diagnostic?]
  have hend : s.ahead.isEmpty = false := by simpa using h
  rw [completed, completed, hrecord, panic_nextRound hs, last_nextRound hs, hend, Bool.and_false,
    Bool.false_and, hnext]

theorem completed_of_end (hs : s.Standing) (h : s.ahead = []) : s.completed = s := by
  rw [completed, rounds_of_end h, h, ← hs.index_eq_last h, List.isEmpty_nil, Bool.and_true]
  rfl

end Session

/-- A round that was given up for want of levels. -/
def Round.TooDeep (r : Round) : Prop := ∃ b, r.blame = some b ∧ b.complaint = .tooDeep

theorem tooDeep_iff {a : Attempt} {tree : Option Tree} {stop : Token} :
    Round.TooDeep ⟨tree, a.blame stop⟩ ↔ a.complaint = some .tooDeep := by
  simp [Round.TooDeep, Attempt.blame]

/-- The course goes through all rounds that are to come. -/
structure Course.Completes (c : Course (List Tree)) (s : Session) (trees : List Tree) : Prop where
  ending_eq : c.ending = .done (trees ++ s.rounds.filterMap (·.tree))
  session_eq : c.session = s.completed
  refuses_iff : c.Refuses ↔ ∃ r ∈ s.rounds, r.TooDeep

namespace Action

variable {s : Session}

theorem run_another_end (hs : s.Standing) (h : s.ahead = []) (trees : List Tree) :
    (another trees).run s = ⟨[], .done none, s⟩ := by
  have hcurrent : s.current? = some s.stop := by rw [hs.current?_eq, h]; rfl
  rw [another, run_bind, run_peek hcurrent, Course.bind_done, Course.behind_nil,
    if_pos hs.isEnd_stop, run_pure]

theorem run_another (hs : s.Standing) (h : s.ahead ≠ []) (trees : List Tree) :
    ∃ moments, (another trees).run s =
        ⟨moments, .done (some (trees ++ s.attempted.tree.toList)), s.nextRound⟩ ∧
      ((∃ m ∈ moments, m.deed = .refused) ↔ s.attempted.complaint = some .tooDeep) := by
  obtain ⟨t, ts, hts⟩ := List.exists_cons_of_ne_nil h
  have hround := round_settles hs
  obtain ⟨⟨moments, ending, later⟩, hrun⟩ : ∃ c, round.run s = c := ⟨_, rfl⟩
  rw [hrun] at hround
  obtain rfl : ending = .done s.attempted.tree := hround.ending_eq
  obtain rfl : later = s.nextRound := by rw [Session.nextRound, hrun]
  refine ⟨moments, ?_, ?_⟩
  · rw [another, run_bind, run_peek (current?_of_ahead hs hts), Course.bind_done, Course.behind_nil,
      if_neg (by simp [Session.isEnd_of_ahead hts]), run_bind, hrun, Course.bind_done, run_pure,
      Course.behind, List.append_nil]
  · exact hround.refuses_iff

/-- By induction on the tokens ahead: every round takes one of them. -/
theorem loop_another_completes (hs : s.Standing) (trees : List Tree) :
    ((loop another advances_another trees).run s).Completes s trees := by
  induction hn : s.ahead.length using Nat.strongRecOn generalizing s trees with
  | _ n ih =>
    rw [run_loop]
    by_cases hend : s.ahead = []
    · rw [run_another_end hs hend, Course.bind_done, Course.behind_nil]
      have hrounds := Session.rounds_of_end hend
      refine ⟨?_, (Session.completed_of_end hs hend).symm, ?_⟩
      · simp [hrounds]
      · simp [hrounds, Course.Refuses]
    · obtain ⟨moments, hrun, hrefuses⟩ := run_another hs hend trees
      have hshort := hn ▸ Session.length_ahead_nextRound hs hend
      have hlater := ih _ hshort hs.nextRound (trees ++ s.attempted.tree.toList) rfl
      have hrounds := Session.rounds_of_ahead hs hend
      rw [hrun, Course.bind_done]
      refine ⟨?_, ?_, ?_⟩
      · rw [Course.ending_behind, hlater.ending_eq, hrounds]
        cases s.attempted.tree <;> simp
      · rw [Course.session_behind, hlater.session_eq, Session.completed_of_ahead hs hend]
      · rw [Course.refuses_behind, hrefuses, hlater.refuses_iff, hrounds, List.exists_mem_cons_iff,
          tooDeep_iff]

theorem run_script (hs : s.Standing) : ∃ moments, script.run s =
      ⟨moments, .done (program (current s.stop s.ahead).place s.rounds), s.completed⟩ ∧
    ((∃ m ∈ moments, m.deed = .refused) ↔ ∃ r ∈ s.rounds, r.TooDeep) := by
  have hloop := loop_another_completes hs []
  obtain ⟨⟨moments, ending, later⟩, hrun⟩ : ∃ c, (loop another advances_another []).run s = c :=
    ⟨_, rfl⟩
  rw [hrun] at hloop
  obtain rfl : ending = .done (s.rounds.filterMap (·.tree)) := hloop.ending_eq
  obtain rfl : later = s.completed := hloop.session_eq
  refine ⟨moments, ?_, hloop.refuses_iff⟩
  rw [script, node, run_bind, run_peek hs.current?_eq, Course.bind_done, Course.behind_nil, run_bind,
    hrun, Course.bind_done, run_pure, Course.behind, List.append_nil]
  rfl

end Action

/-! ## Parsing -/

theorem rounds_start (tokens : List Token) (limit : Int) :
    (Session.start tokens limit).rounds = roundsOf tokens limit := by
  have hroom : (Session.start tokens limit).room = roomOf limit := by
    simp [Session.room, Session.start]
  rw [Session.rounds, hroom, roundsOf, Session.ahead]
  simp only [Session.start, Session.stop, List.drop_zero, before_closed]

/-- The script that a session reads from the start is what `parse` answers. -/
theorem run_script_start (tokens : List Token) (limit : Int) :
    let c := Action.script.run (.start tokens limit)
    c.ending = .done (parse tokens limit).tree ∧
      c.session.diagnostics = (parse tokens limit).diagnostics := by
  obtain ⟨moments, hrun, -⟩ := Action.run_script (Session.standing_start tokens limit)
  have hahead : (Session.start tokens limit).ahead = before tokens := before_closed tokens
  dsimp only
  rw [hrun, Session.completed, rounds_start, hahead, parse_eq_roundsOf]
  exact ⟨rfl, rfl⟩

end SqlScript.Grammar
