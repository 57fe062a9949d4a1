import SqlScript.Proofs.Grammar.ScriptCourses
import SqlScript.Proofs.Grammar.Walks

/-!
A session that is driven by calls in any order: no token is looked for where there is none, and a rule
that fails says so once.
-/

namespace SqlScript.Grammar

variable {α β : Type}

theorem Ending.done_ne_lost (a : α) : Ending.done a ≠ .lost := by
  rintro ⟨⟩

theorem Ending.ofOption_ne_lost (o : Option α) : Ending.ofOption o ≠ .lost := by
  cases o <;> rintro ⟨⟩

namespace Action

variable {s : Session}

theorem standing (a : Action α) (hs : s.Standing) : (a.run s).session.Standing :=
  ((a.walks s).standing hs).1.1

/-! ## Tokens that are there -/

/-- From wherever a session stands, the action finds the tokens that it looks for. -/
def Finds (a : Action α) : Prop := ∀ s : Session, s.Standing → (a.run s).ending ≠ .lost

namespace Finds

theorem pure (a : α) : Finds (Pure.pure a : Action α) := fun _ _ => Ending.done_ne_lost a

theorem giveUp : Finds (Action.giveUp : Action α) := fun _ _ => Ending.ofOption_ne_lost none

theorem bind {a : Action α} {f : α → Action β} (h : Finds a) (hf : ∀ x, Finds (f x)) :
    Finds (a >>= f) := by
  intro s hs
  have hmid := a.standing hs
  have hfound := h s hs
  rw [run_bind]
  unfold Course.bind
  split
  · exact hf _ _ hmid
  · exact Ending.ofOption_ne_lost none
  · exact absurd ‹_› hfound

theorem peek : Finds Action.peek := by
  intro s hs
  rw [run_peek hs.current?_eq]
  exact Ending.done_ne_lost _

theorem advance : Finds Action.advance := by
  intro s hs
  simp only [Action.advance, hs.current?_eq]
  split <;> exact Ending.done_ne_lost _

theorem accept (p : Token → Bool) : Finds (Action.accept p) := by
  refine peek.bind fun t => ?_
  split
  · exact advance.bind fun _ => .pure _
  · exact .pure _

theorem fail (message : String) (token : Option Token) : Finds (Action.fail message token) := by
  intro s hs
  simp only [Action.fail, hs.current?_eq]
  cases token <;> exact Ending.done_ne_lost _

theorem refuse (why : Complaint) : Finds (Action.refuse why : Action α) :=
  (fail _ _).bind fun _ => .giveUp

theorem calm : Finds Action.calm := fun _ _ => Ending.done_ne_lost ()

theorem nested {a : Action α} (h : Finds a) : Finds (Action.nested a) := by
  intro s hs
  rw [Action.nested]
  dsimp only
  split
  · exact refuse .tooDeep s hs
  · exact h s.down ⟨hs.index_le, hs.ended⟩

theorem of_follows {a : Action α} {r : Nat → Rule α} (h : ∀ room, Follows room a (r room)) :
    Finds a := by
  intro s hs
  rw [(h s.room s hs rfl).ending_eq]
  cases (r s.room).run s.ahead with
  | done a rest => exact Ending.done_ne_lost a
  | refused why rest => exact Ending.ofOption_ne_lost none

theorem only (st : Statement) : Finds (Action.only st) := by
  intro s hs
  rw [(only_matches st hs).ending_eq]
  exact Ending.ofOption_ne_lost _

theorem statement : Finds Action.statement := by
  intro s hs
  rw [(statement_matches hs).ending_eq]
  exact Ending.ofOption_ne_lost _

theorem recover : Finds Action.recover := by
  refine calm.bind fun _ s hs => ?_
  rw [(resume_matches hs).ending_eq]
  exact Ending.done_ne_lost ()

theorem script : Finds Action.script := by
  intro s hs
  obtain ⟨moments, hrun, -⟩ := run_script hs
  rw [hrun]
  exact Ending.done_ne_lost _

end Finds

end Action

theorem Nonterminal.finds (n : Nonterminal) : n.action.Finds := by
  cases n with
  | script => exact .script
  | statement => exact .statement
  | only st => exact .only st
  | fieldList => exact .of_follows fun _ => .fieldList
  | fieldDefinition => exact .of_follows fun _ => .fieldDefinition
  | selectList => exact .of_follows fun _ => .selectList
  | orderClause => exact .of_follows fun _ => .orderClause
  | valueList => exact .of_follows fun _ => .valueList
  | assignmentList => exact .of_follows fun _ => .assignmentList
  | whereClause => exact .of_follows fun _ => .whereClause
  | condition => exact .of_follows fun _ => .condition
  | conjunction => exact .of_follows fun _ => .conjunction
  | negation => exact .of_follows fun _ => .negation
  | comparison => exact .of_follows fun _ => .comparison
  | term => exact .of_follows fun _ => .term

theorem Call.finds (call : Call) : call.action.Finds := by
  cases call with
  | read n => exact n.finds.bind fun _ => .pure _
  | nested n => exact n.finds.nested.bind fun _ => .pure _
  | advance => exact .bind .advance fun _ => .pure _
  | accept kind word =>
    refine .bind (.accept _) fun o => ?_
    cases o <;> exact .pure _
  | expect kind word node message =>
    refine .bind (.accept _) fun o => ?_
    cases o with
    | some t => exact .pure _
    | none => exact .bind (.fail _ _) fun _ => .giveUp
  | fail message token => exact .bind (.fail _ _) fun _ => .pure _
  | abandon t => exact .bind (.bind .peek fun _ => .pure _) fun _ => .pure _
  | recover => exact .bind .recover fun _ => .pure _

/-! ## One failure at most -/

/-- The tree ends in the leaf for where a statement was given up. -/
def EndsInError (t : Tree) : Prop := ∃ leaf ∈ t.children.getLast?, leaf.kind = .error

def Nonterminal.isStatement : Nonterminal → Bool
  | .statement => true
  | .only _ => true
  | _ => false

/-- A failure is noted once if the rule gives up or a statement in the tree was given up, else never. -/
structure Course.Signals (c : Course Tree) (n : Nonterminal) : Prop where
  failures_le : c.failures ≤ 1
  failures_iff : c.failures = 1 ↔ c.ending = .givenUp ∨
    n.isStatement = true ∧ ∃ tree, c.ending = .done tree ∧ EndsInError tree

theorem endsInError_concat {kind : Tree.Kind} {text : String} {place : Place} {trees : List Tree}
    {last : Tree} :
    EndsInError (Tree.plain kind text place (trees ++ [last])) ↔ last.kind = .error := by
  simp [EndsInError, Tree.plain]

/-- A statement that was read to its end ends in the leaf of its semicolon. -/
theorem Statement.endsInError_attempt (st : Statement) (room : Nat) (stop lead : Token)
    (ts : List Token) {tree : Tree} (h : (st.attempt room stop lead ts).tree = some tree) :
    EndsInError tree ↔ (st.attempt room stop lead ts).complaint.isSome = true := by
  obtain rfl := Option.some.inj h
  simp only [Statement.attempt]
  cases hp : Progress.run (st.parts room) ts with
  | mk trees complaint rest =>
    cases complaint with
    | some why => exact iff_of_true (endsInError_concat.2 rfl) rfl
    | none =>
      have hwhole := Progress.run_eq_whole.1 hp
      rw [st.parts_eq_concat, Rule.seq_append_eq_done] at hwhole
      obtain ⟨first, mid, last, -, hlast, rfl⟩ := hwhole
      obtain ⟨_, _, _, hdelimiter, hnil, rfl⟩ := Rule.seq_cons_eq_done.1 hlast
      obtain ⟨t, -, -, rfl⟩ := Rule.leaf_eq_done.1 hdelimiter
      obtain ⟨rfl, -⟩ := Rule.seq_nil_eq_done.1 hnil
      rw [List.append_nil, List.append_nil, ← List.cons_append, endsInError_concat]
      simp [Tree.kind, Tree.leaf, Tree.plain, Tree.Label.plain]

namespace Course.Signals

variable {s : Session} {c : Course Tree} {n : Nonterminal}

theorem of_follows {reply : Reply Tree} (h : c.Follows s reply) (hn : n.isStatement = false) :
    c.Signals n := by
  have hfailures := h.failures_eq
  have hending := h.ending_eq
  cases reply with
  | done t rest =>
    refine ⟨hfailures ▸ Nat.zero_le _, ?_⟩
    rw [hfailures, hending, hn]
    simp [Reply.ending, Reply.why]
  | refused why rest =>
    refine ⟨hfailures ▸ Nat.le_refl _, ?_⟩
    rw [hfailures, hending]
    simp [Reply.ending, Reply.why]

theorem of_attempt {a : Attempt} (h : c.Matches s a.ending a.complaint a.rest)
    (hn : n.isStatement = true) (hnone : a.tree = none → a.complaint.isSome = true)
    (hsome : ∀ tree, a.tree = some tree → (EndsInError tree ↔ a.complaint.isSome = true)) :
    c.Signals n := by
  have hfailures := h.failures_eq
  have hending := h.ending_eq
  have hcount : a.complaint.toList.length ≤ 1 ∧
      (a.complaint.toList.length = 1 ↔ a.complaint.isSome = true) := by
    cases a.complaint <;> simp
  refine ⟨hfailures ▸ hcount.1, ?_⟩
  rw [hfailures, hending, hcount.2, hn, Attempt.ending]
  cases htree : a.tree with
  | none => simp [Ending.ofOption, hnone htree]
  | some tree => simp [Ending.ofOption, hsome tree htree]

/-- What is refused at the limit has failed once; what is entered fails as it would. -/
theorem nested {a : Action Tree} (h : ∀ s : Session, s.Standing → (a.run s).Signals n)
    (hs : s.Standing) : ((Action.nested a).run s).Signals n := by
  rw [Action.nested]
  dsimp only
  split
  · rw [Action.run_refuse _ hs.current?_eq]
    exact ⟨Nat.le_refl _, by simp [Course.failures]⟩
  · have hbelow := h s.down ⟨hs.index_le, hs.ended⟩
    have hfailures : Course.failures (⟨⟨.entered, s.down⟩ :: (a.run s.down).moments ++
        [⟨.left, (a.run s.down).session.up⟩], (a.run s.down).ending, (a.run s.down).session.up⟩ :
          Course Tree) = (a.run s.down).failures := by
      simp [Course.failures]
    exact ⟨hfailures ▸ hbelow.failures_le, hfailures ▸ hbelow.failures_iff⟩

end Course.Signals

theorem Nonterminal.signals {n : Nonterminal} (hn : n ≠ .script) {s : Session} (hs : s.Standing) :
    (n.action.run s).Signals n := by
  cases n with
  | script => exact absurd rfl hn
  | statement =>
    have hmatches := Action.statement_matches hs
    unfold Session.attempted Grammar.statement at hmatches
    split at hmatches
    · exact .of_attempt hmatches rfl (fun _ => rfl) (by simp)
    · split at hmatches
      · refine .of_attempt hmatches rfl (by simp [Statement.attempt]) fun tree htree => ?_
        exact Statement.endsInError_attempt _ _ _ _ _ htree
      · exact .of_attempt hmatches rfl (fun _ => rfl) (by simp)
  | only st =>
    have hmatches := Action.only_matches st hs
    refine .of_attempt hmatches rfl (by simp [Statement.attempt]) fun tree htree => ?_
    exact st.endsInError_attempt _ _ _ _ htree
  | fieldList => exact .of_follows (Action.Follows.fieldList s hs rfl) rfl
  | fieldDefinition => exact .of_follows (Action.Follows.fieldDefinition s hs rfl) rfl
  | selectList => exact .of_follows (Action.Follows.selectList s hs rfl) rfl
  | orderClause => exact .of_follows (Action.Follows.orderClause s hs rfl) rfl
  | valueList => exact .of_follows (Action.Follows.valueList s hs rfl) rfl
  | assignmentList => exact .of_follows (Action.Follows.assignmentList s hs rfl) rfl
  | whereClause => exact .of_follows (Action.Follows.whereClause s hs rfl) rfl
  | condition => exact .of_follows (Action.Follows.condition s hs rfl) rfl
  | conjunction => exact .of_follows (Action.Follows.conjunction s hs rfl) rfl
  | negation => exact .of_follows (Action.Follows.negation s hs rfl) rfl
  | comparison => exact .of_follows (Action.Follows.comparison s hs rfl) rfl
  | term => exact .of_follows (Action.Follows.term s hs rfl) rfl

/-- What the signal of a rule says of the answer to a call. -/
theorem Course.Signals.answer {c : Course Tree} {n : Nonterminal} (h : c.Signals n) :
    let answered := c.bind fun tree mid => (⟨[], .done (.tree tree), mid⟩ : Course Answer)
    answered.failures ≤ 1 ∧ (answered.failures = 1 ↔ answered.ending = .givenUp ∨
      n.isStatement = true ∧ ∃ tree, answered.ending = .done (.tree tree) ∧ EndsInError tree) := by
  obtain ⟨hle, hiff⟩ := h
  obtain ⟨moments, ending, mid⟩ := c
  cases ending with
  | done tree =>
    simp only [Course.failures, Course.bind_done, Course.behind, List.append_nil] at hle hiff ⊢
    refine ⟨hle, ?_⟩
    rw [hiff]
    simp
  | givenUp => exact ⟨hle, by simpa [Course.failures] using hiff⟩
  | lost => exact ⟨hle, by simpa [Course.failures] using hiff⟩

/-! ## Any order of calls -/

section

variable {s : Session}

open Session

theorem standing_after (hs : s.Standing) (calls : List Call) : (s.after calls).Standing := by
  induction calls generalizing s with
  | nil => exact hs
  | cons call calls ih => exact ih (call.action.standing hs)

theorem frame_after (s : Session) (calls : List Call) : (s.after calls).tokens = s.tokens ∧
    (s.after calls).limit = s.limit ∧ (s.after calls).depth = s.depth := by
  induction calls generalizing s with
  | nil => exact ⟨rfl, rfl, rfl⟩
  | cons call calls ih =>
    obtain ⟨htokens, hlimit, hdepth⟩ := (call.action.walks s).frame
    obtain ⟨htokens', hlimit', hdepth'⟩ := ih (call.action.run s).session
    exact ⟨htokens'.trans htokens, hlimit'.trans hlimit, hdepth'.trans hdepth⟩

theorem spaced_after (hs : Spaced s.diagnostics) (calls : List Call) :
    Spaced (s.after calls).diagnostics := by
  induction calls generalizing s with
  | nil => exact hs
  | cons call calls ih => exact ih ((call.action.walks s).spaced hs).1

end

/-- The sessions from the first to the last. -/
def Course.sessions {α : Type} (c : Course α) (s : Session) : List Session :=
  s :: (c.moments.map (·.session) ++ [c.session])

theorem Course.Walks.sessions_onward {c : Course α} {s : Session} (h : c.Walks s) :
    (c.sessions s).Pairwise Session.Onward := by
  obtain ⟨hlast, hmoments, hpairs⟩ := Walk.rises h
  refine List.pairwise_cons.2 ⟨?_, List.pairwise_append.2 ⟨?_, List.pairwise_singleton .., ?_⟩⟩
  · simpa [or_imp, forall_and] using ⟨fun m hm => (hmoments m hm).1, hlast⟩
  · exact List.pairwise_map.2 hpairs
  · simpa using fun m hm => (hmoments m hm).2

open Session in
/-- Whatever has been called before: a call finds every token that it looks for, it does not go back,
it comes to no end mark but the first, it stays within the limit and leaves on the level where it
found the session, and it only adds diagnostics, never two neighbours at one place. A rule below the
script fails once if it answers nothing or a statement that was given up, and else not at all. -/
theorem drive_invariant (tokens : List Token) (limit : Int) (calls : List Call) (call : Call) :
    let s := (start tokens limit).after calls
    let c := call.action.run s
    c.ending ≠ .lost ∧ c.session.depth = 0 ∧ (c.sessions s).Pairwise Onward ∧
    (∀ m ∈ c.sessions s, m.index ≤ (before tokens).length ∧ 0 ≤ m.depth ∧ m.depth ≤ max limit 0 ∧
      Spaced m.diagnostics) ∧
    ∀ n, n ≠ .script → call = .read n ∨ call = .nested n →
      c.failures ≤ 1 ∧ (c.failures = 1 ↔ c.ending = .givenUp ∨
        n.isStatement = true ∧ ∃ tree, c.ending = .done (.tree tree) ∧ EndsInError tree) := by
  intro s c
  have hs : s.Standing := standing_after (standing_start tokens limit) calls
  have hspaced : Spaced s.diagnostics := spaced_after (s := start tokens limit) .nil calls
  obtain ⟨htokens, hlimit, hdepth⟩ : s.tokens = closed tokens ∧ s.limit = limit ∧ s.depth = 0 :=
    frame_after _ calls
  have hwalk : c.Walks s := call.action.walks s
  obtain ⟨⟨hend, hend'⟩, hmoments⟩ := hwalk.standing hs
  obtain ⟨hspaced', hspaces⟩ := hwalk.spaced hspaced
  have hdepth' : c.session.depth = 0 := hwalk.frame.2.2.trans hdepth
  have hindex (m : Session) (hm : m.Standing) (hm' : m.tokens = s.tokens) :
      m.index ≤ (before tokens).length := by
    have hle := hm.index_le
    rwa [last, hm', htokens, before_closed] at hle
  refine ⟨call.finds s hs, hdepth', hwalk.sessions_onward, ?_, ?_⟩
  · intro m hm
    rcases List.mem_cons.1 hm with rfl | hm
    · exact ⟨hindex _ hs rfl, hdepth ▸ Int.le_refl _, hdepth ▸ Int.le_max_right .., hspaced⟩
    rcases List.mem_append.1 hm with hm | hm
    · obtain ⟨moment, hmoment, rfl⟩ := List.mem_map.1 hm
      obtain ⟨hge, hle⟩ := hwalk.depth_bounds moment hmoment
      rw [hlimit, hdepth] at hle
      exact ⟨hindex _ (hmoments _ hmoment).1 (hmoments _ hmoment).2, hdepth ▸ hge, hle,
        hspaces _ hmoment⟩
    · rw [List.mem_singleton.1 hm]
      exact ⟨hindex _ hend hend', hdepth' ▸ Int.le_refl _, hdepth' ▸ Int.le_max_right ..,
        hspaced'⟩
  · rintro n hn (rfl | rfl)
    · exact (n.signals hn hs).answer
    · exact (Course.Signals.nested (fun _ hs => n.signals hn hs) hs).answer

end SqlScript.Grammar
