import Mathlib.Data.List.Forall2
import SqlScript.Proofs.Grammar.Courses

/-!
The actions of the grammar follow its rules, for as many levels as a session has left.
-/

namespace SqlScript.Grammar

/-! ## Tokens that are taken -/

theorem isEnd_of_isOperator {t : Token} {sign : String} (h : t.isOperator sign = true) :
    isEnd t = false := by
  have hk : t.kind = .operator := by simpa using (Bool.and_eq_true_iff.1 h).1
  simp [isEnd, hk]

theorem isEnd_of_isIdentifier {t : Token} (h : (t.kind == .identifier) = true) :
    isEnd t = false := by
  simp [isEnd, beq_iff_eq.1 h]

theorem isEnd_of_isTypeName {t : Token} (h : isTypeName t = true) : isEnd t = false := by
  cases hk : t.kind <;> simp_all [isTypeName, isEnd]

theorem isEnd_of_isRelational {t : Token} (h : isRelational t = true) : isEnd t = false := by
  rcases Bool.or_eq_true_iff.1 h with h | h
  · have hk : t.kind = .operator := by simpa using (Bool.and_eq_true_iff.1 h).1
    simp [isEnd, hk]
  · exact isEnd_of_isKeyword h

theorem isEnd_of_isDirection {t : Token} (h : isDirection t = true) : isEnd t = false := by
  rcases Bool.or_eq_true_iff.1 h with h | h <;> exact isEnd_of_isKeyword h

theorem termKind?_of_isEnd {t : Token} (h : isEnd t = true) : termKind? t = none := by
  have hk : t.kind = .endOfInput := by simpa [isEnd] using h
  simp [termKind?, hk]

namespace Action

variable {room : Nat} {s : Session}

/-! ## Clauses -/

theorem run_opening {t : Token} (h : s.current? = some t) (hend : isEnd t = false) :
    opening.run s = ⟨[⟨.passed, s.next⟩], .done [Tree.leaf .keyword t], s.next⟩ := by
  rw [opening, run_bind, run_advance h hend]
  rfl

theorem run_opening_end {t : Token} (h : s.current? = some t) (hend : isEnd t = true) :
    opening.run s = ⟨[], .done [Tree.leaf .keyword t], s⟩ := by
  simp [opening, advance, h, hend]

theorem follows_opening (hs : s.Standing) {t : Token} {ts : List Token} (h : s.ahead = t :: ts) :
    (opening.run s).Follows s (Rule.opening.run s.ahead) := by
  rw [run_opening (current?_of_ahead hs h) (Session.isEnd_of_ahead h), h]
  exact Follows.passed h _

namespace Follows

theorem keyword (word what : String) :
    Follows room (Action.keyword word what) (Rule.keyword word what) :=
  .leaf _ (fun _ => isEnd_of_isKeyword) what

theorem delimiter (mark what : String) :
    Follows room (Action.delimiter mark what) (Rule.delimiter mark what) :=
  .leaf _ (fun _ => isEnd_of_isDelimiter) what

theorem identifier (what : String) :
    Follows room (Action.identifier what) (Rule.identifier what) :=
  .leaf _ (fun _ => isEnd_of_isIdentifier) what

/-- At the end the action takes the end mark for the opening word where the rule takes nothing. Neither
is seen, for what follows is refused. -/
theorem seq_opening {as : List (Action (List Tree))} {rs : List (Rule (List Tree))}
    (h : Follows room (Action.seq as) (Rule.seq rs)) (hend : Rule.NeedsToken (Rule.seq rs)) :
    Follows room (Action.seq (opening :: as)) (Rule.seq (Rule.opening :: rs)) := by
  intro s hs hroom
  cases hahead : s.ahead with
  | cons t ts =>
    have hopening := follows_opening hs hahead
    rw [hahead] at hopening
    refine follows_bind hopening fun trees rest _ hrest => ?_
    exact (h.bind fun _ => .pure _).moved hs hroom hrest
  | nil =>
    obtain ⟨why, hnil⟩ := hend
    have hstop : s.current? = some s.stop := by rw [hs.current?_eq, hahead]; rfl
    have hlater := h s hs hroom
    rw [hahead, hnil] at hlater
    rw [Action.seq, run_bind, run_opening_end hstop hs.isEnd_stop, Course.bind_done, Rule.seq,
      Rule.run_bind, Rule.opening, Rule.run_bind, Rule.run_accept_nil, Reply.bind_done,
      Rule.run_pure, Reply.bind_done, Rule.run_bind, hnil]
    exact hlater.bind_givenUp _

/-! ## Conditions -/

theorem termOver {inner : Unit → Action Tree} {rule : Unit → Rule Tree}
    (h : Follows room (Action.nested (inner ())) (rule ())) :
    Follows room (Action.termOver inner) (Grammar.termOver rule) := by
  have hmark (mark what : String) : Follows room
      (Action.expect (·.isDelimiter mark) (.expected what)) (Rule.expect (·.isDelimiter mark) what) :=
    expect (fun _ => isEnd_of_isDelimiter) what
  have hgroup := (hmark "(" "expression (identifier, value, or parenthesis)").bind fun _ =>
    h.bind fun tree => (hmark ")" "')' after expression").bind fun _ => .pure tree
  intro s hs hroom
  rw [Action.termOver, run_bind, run_peek hs.current?_eq, Course.bind_done, Course.behind_nil,
    Grammar.termOver, Rule.run_bind]
  cases hahead : s.ahead with
  | nil =>
    have hgrouped := hgroup s hs hroom
    rw [hahead] at hgrouped
    rw [Rule.run_take?_nil, current, List.head?_nil, Option.getD_none, termKind?_of_isEnd hs.isEnd_stop]
    exact hgrouped
  | cons t ts =>
    rw [Rule.run_take?_cons, termLeaf?, current, List.head?_cons, Option.getD_some]
    cases hk : termKind? t with
    | some kind =>
      rw [run_bind, run_advance (current?_of_ahead hs hahead) (Session.isEnd_of_ahead hahead)]
      exact passed hahead _
    | none =>
      have hgrouped := hgroup s hs hroom
      rw [hahead] at hgrouped
      exact hgrouped

theorem comparisonOver {inner : Unit → Action Tree} {rule : Unit → Rule Tree}
    (h : Follows room (Action.nested (inner ())) (rule ())) :
    Follows room (Action.comparisonOver inner) (Grammar.comparisonOver rule) := by
  refine (termOver h).bind fun left => (accept fun _ => isEnd_of_isRelational).bind fun o => ?_
  cases o with
  | some op => exact (termOver h).bind fun _ => .pure _
  | none => exact .pure left

theorem conjunctionOver {a : Action Tree} {r : Rule Tree} (h : Follows room a r) :
    Follows room (Action.conjunctionOver a) (Grammar.conjunctionOver r) :=
  h.joined "AND"

theorem conditionOver {a : Action Tree} {r : Rule Tree} (h : Follows room a r) :
    Follows room (Action.conditionOver a) (Grammar.conditionOver r) :=
  h.conjunctionOver.joined "OR"

theorem negationOver {deeper : Unit → Action Tree} {rule : Unit → Rule Tree}
    (h : Follows room (Action.nested (deeper ())) (rule ()))
    (hcondition : Follows room (Action.nested (Action.conditionOver (deeper ())))
      (Grammar.conditionOver (rule ()))) :
    Follows room (Action.negationOver deeper) (Grammar.negationOver rule) := by
  refine (accept fun _ => isEnd_of_isKeyword).bind fun o => ?_
  cases o with
  | some op => exact h.bind fun _ => .pure _
  | none => exact comparisonOver hcondition

/-- By induction on the levels that are left: as many are enough, and where none is left it does not
matter what would be below. -/
theorem negationWithin {levels : Nat} (h : room ≤ levels) :
    Follows room (Action.negationWithin levels) (Grammar.negation room) := by
  induction room generalizing levels with
  | zero =>
    rw [negationWithin_eq]
    exact .negationOver (nested_refused _) (nested_refused _)
  | succ room ih =>
    cases levels with
    | zero => cases h
    | succ levels =>
      have hdeeper := ih (Nat.le_of_succ_le_succ h)
      exact .negationOver hdeeper.nested hdeeper.conditionOver.nested

theorem deeperCondition :
    Follows room (Action.nested (Action.conditionOver (deeperWithin room)))
      (Grammar.conditionOver (deeperNegation room)) := by
  cases room with
  | zero => exact nested_refused _
  | succ room => exact (negationWithin (Nat.le_refl room)).conditionOver.nested

theorem withRoom {α : Type} {f : Nat → Action α} {r : Rule α} (h : Follows room (f room) r) :
    Follows room (Action.withRoom f) r := by
  rintro s hs rfl
  exact h s hs rfl

theorem condition : Follows room Action.condition (Grammar.condition room) :=
  .withRoom (negationWithin (Nat.le_refl room)).conditionOver

theorem conjunction : Follows room Action.conjunction (Grammar.conjunction room) :=
  .withRoom (negationWithin (Nat.le_refl room)).conjunctionOver

theorem negation : Follows room Action.negation (Grammar.negation room) :=
  .withRoom (negationWithin (Nat.le_refl room))

theorem comparison : Follows room Action.comparison (Grammar.comparison room) :=
  .withRoom (comparisonOver deeperCondition)

theorem term : Follows room Action.term (Grammar.term room) := .withRoom (termOver deeperCondition)

/-! ## Parts of statements -/

theorem primaryKey : Follows room Action.primaryKey Grammar.primaryKey :=
  .optional (fun _ => isEnd_of_isKeyword) fun s hs hroom _ _ _ _ =>
    seq_opening (seq_cons (keyword _ _) seq_nil) ⟨_, rfl⟩ s hs hroom

theorem fieldDefinition : Follows room Action.fieldDefinition Grammar.fieldDefinition :=
  .node _ (seq_cons (identifier _) <| seq_cons (leaf _ (fun _ => isEnd_of_isTypeName) _) <|
    seq_cons primaryKey seq_nil) ⟨_, rfl⟩

theorem fieldList : Follows room Action.fieldList Grammar.fieldList :=
  .node _ fieldDefinition.commaList ⟨_, rfl⟩

theorem columnName : Follows room Action.columnName Grammar.columnName :=
  (expect (fun _ => isEnd_of_isIdentifier) _).bind fun _ => .pure _

theorem selectList : Follows room Action.selectList Grammar.selectList := by
  refine .node _ ((accept fun _ => isEnd_of_isOperator).bind fun o => ?_) ⟨_, rfl⟩
  cases o with
  | some star => exact .pure _
  | none => exact columnName.commaList

theorem valueList : Follows room Action.valueList (Grammar.valueList room) :=
  .node _ term.commaList ⟨_, rfl⟩

theorem assignment : Follows room Action.assignment (Grammar.assignment room) :=
  .node _ (seq_cons (identifier _) <| seq_cons (leaf _ (fun _ => isEnd_of_isOperator) _) <|
    seq_cons term.one seq_nil) ⟨_, rfl⟩

theorem assignmentList : Follows room Action.assignmentList (Grammar.assignmentList room) :=
  .node _ assignment.commaList ⟨_, rfl⟩

theorem whereClause : Follows room Action.whereClause (Grammar.whereClause room) := by
  have hend : Rule.NeedsToken (Rule.seq [Rule.one (Grammar.condition room)]) := by
    cases room <;> exact ⟨_, rfl⟩
  refine .node _ (seq_opening (seq_cons condition.one seq_nil) hend) ?_
  cases room <;> exact ⟨_, rfl⟩

theorem orderClause : Follows room Action.orderClause Grammar.orderClause :=
  .node _ (seq_opening (seq_cons (keyword _ _) <| seq_cons (identifier _) <|
    seq_cons (.optional (fun _ => isEnd_of_isDirection) fun _ hs _ _ _ h _ => follows_opening hs h)
      seq_nil) ⟨_, rfl⟩) ⟨_, rfl⟩

theorem optionalWhere : Follows room Action.optionalWhere (Grammar.optionalWhere room) :=
  .optional (fun _ => isEnd_of_isKeyword) fun s hs hroom _ _ _ _ => whereClause.one s hs hroom

theorem optionalOrder : Follows room Action.optionalOrder Grammar.optionalOrder :=
  .optional (fun _ => isEnd_of_isKeyword) fun s hs hroom _ _ _ _ => orderClause.one s hs hroom

theorem parts (st : Statement) :
    List.Forall₂ (Follows room) (Action.parts st) (st.parts room) := by
  cases st with
  | create =>
    exact .cons (keyword _ _) <| .cons (identifier _) <| .cons (delimiter _ _) <|
      .cons fieldList.one <| .cons (delimiter _ _) <| .cons (delimiter _ _) .nil
  | select =>
    exact .cons selectList.one <| .cons (keyword _ _) <| .cons (identifier _) <|
      .cons optionalWhere <| .cons optionalOrder <| .cons (delimiter _ _) .nil
  | insert =>
    exact .cons (keyword _ _) <| .cons (identifier _) <| .cons (keyword _ _) <|
      .cons (delimiter _ _) <| .cons valueList.one <| .cons (delimiter _ _) <|
      .cons (delimiter _ _) .nil
  | update =>
    exact .cons (identifier _) <| .cons (keyword _ _) <| .cons assignmentList.one <|
      .cons optionalWhere <| .cons (delimiter _ _) .nil
  | delete =>
    exact .cons (keyword _ _) <| .cons (identifier _) <| .cons optionalWhere <|
      .cons (delimiter _ _) .nil

end Follows

end Action

end SqlScript.Grammar
