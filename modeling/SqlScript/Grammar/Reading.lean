import SqlScript.Grammar.Session

/-!
The grammar as actions of a session. The rules are those that `Rule` states on lists of tokens; here
tokens are looked for one by one, levels are counted up and down, and a script is read round by round.
-/

namespace SqlScript.Grammar

theorem isEnd_of_isKeyword {t : Token} {word : String} (h : t.isKeyword word = true) :
    isEnd t = false := by
  have hk : t.kind = .keyword := by simpa using (Bool.and_eq_true_iff.1 h).1
  simp [isEnd, hk]

theorem isEnd_of_isDelimiter {t : Token} {mark : String} (h : t.isDelimiter mark = true) :
    isEnd t = false := by
  have hk : t.kind = .delimiter := by simpa using (Bool.and_eq_true_iff.1 h).1
  simp [isEnd, hk]

namespace Action

/-! ## Nodes -/

def leaf (kind : Tree.Kind) (p : Token → Bool) (what : String) : Action (List Tree) := do
  return [Tree.leaf kind (← expect p (.expected what))]

def keyword (word what : String) : Action (List Tree) := leaf .keyword (·.isKeyword word) what

def delimiter (mark what : String) : Action (List Tree) :=
  leaf .delimiter (·.isDelimiter mark) what

def identifier (what : String) : Action (List Tree) :=
  leaf .identifier (·.kind == .identifier) what

/-- Takes the word that opens a clause, whatever it is. -/
def opening : Action (List Tree) := do
  return [Tree.leaf .keyword (← advance)]

/-- A node at the place of the token that is current when it is begun. -/
def node (kind : Tree.Kind) (children : Action (List Tree)) : Action Tree := do
  let first ← peek
  return Tree.plain kind "" first.place (← children)

def one (a : Action Tree) : Action (List Tree) := do
  return [← a]

def seq : List (Action (List Tree)) → Action (List Tree)
  | [] => pure []
  | a :: as => do
    let first ← a
    return first ++ (← seq as)

def optional (p : Token → Bool) (a : Action (List Tree)) : Action (List Tree) := do
  if p (← peek) then a else return []

/-! ## Lists -/

section

variable {α β : Type}

/-- A sign and what follows it, worked into what there is. -/
def link (p : Token → Bool) (join : β → Token → α → β) (item : Action α) (b : β) :
    Action (Option β) := do
  match ← accept p with
  | some sign => return some (join b sign (← item))
  | none => return none

theorem advances_link {p : Token → Bool} (hp : ∀ t, p t = true → isEnd t = false)
    (join : β → Token → α → β) (item : Action α) : Advances (link p join item) := by
  intro b s
  refine .bind fun o ho => ?_
  cases o with
  | some sign => exact .inl (accept_strides hp s _ ho rfl)
  | none =>
    refine .inr ?_
    rintro _ ⟨⟩ ⟨⟩

/-- Items with signs between them. -/
def chain (p : Token → Bool) (hp : ∀ t, p t = true → isEnd t = false) (join : β → Token → α → β)
    (first : α → β) (item : Action α) : Action β := do
  loop (link p join item) (advances_link hp join item) (first (← item))

end

def commaList (item : Action Tree) : Action (List Tree) :=
  chain (·.isDelimiter ",") (fun _ => isEnd_of_isDelimiter)
    (fun trees comma tree => trees ++ [Tree.leaf .delimiter comma, tree]) (fun tree => [tree]) item

def joined (word : String) (operand : Action Tree) : Action Tree :=
  chain (·.isKeyword word) (fun _ => isEnd_of_isKeyword) binary id operand

/-! ## Conditions -/

/-- A value, a name, or a condition in parentheses; `inner` reads what stands between them. -/
def termOver (inner : Unit → Action Tree) : Action Tree := do
  let t ← peek
  match termKind? t with
  | some kind => return Tree.leaf kind (← advance)
  | none =>
    let _ ← expect (·.isDelimiter "(") (.expected "expression (identifier, value, or parenthesis)")
    let tree ← nested (inner ())
    let _ ← expect (·.isDelimiter ")") (.expected "')' after expression")
    return tree

def comparisonOver (inner : Unit → Action Tree) : Action Tree := do
  let left ← termOver inner
  match ← accept isRelational with
  | some op => return binary left op (← termOver inner)
  | none => return left

def conjunctionOver (negation : Action Tree) : Action Tree := joined "AND" negation

def conditionOver (negation : Action Tree) : Action Tree := joined "OR" (conjunctionOver negation)

/-- NOT before a negation, or a comparison; `deeper` reads a negation one level down. -/
def negationOver (deeper : Unit → Action Tree) : Action Tree := do
  match ← accept (·.isKeyword "NOT") with
  | some op => return negated op (← nested (deeper ()))
  | none => comparisonOver fun _ => conditionOver (deeper ())

/-- A negation that can go down as many levels. Where none is left `nested` refuses before it runs
what would be below. -/
def negationWithin : (levels : Nat) → Action Tree
  | 0 => negationOver fun _ => giveUp
  | levels + 1 => negationOver fun _ => negationWithin levels

/-- A negation on the level below. -/
def deeperWithin : (levels : Nat) → Action Tree
  | 0 => giveUp
  | levels + 1 => negationWithin levels

theorem negationWithin_eq (levels : Nat) :
    negationWithin levels = negationOver fun _ => deeperWithin levels := by
  cases levels <;> rfl

def negation : Action Tree := withRoom negationWithin

def conjunction : Action Tree := withRoom fun room => conjunctionOver (negationWithin room)

def condition : Action Tree := withRoom fun room => conditionOver (negationWithin room)

def comparison : Action Tree :=
  withRoom fun room => comparisonOver fun _ => conditionOver (deeperWithin room)

def term : Action Tree :=
  withRoom fun room => termOver fun _ => conditionOver (deeperWithin room)

/-! ## Parts of statements -/

def primaryKey : Action (List Tree) :=
  optional (·.isKeyword "PRIMARY") (seq [opening, keyword "KEY" "'KEY' after 'PRIMARY'"])

def fieldDefinition : Action Tree :=
  node .fieldDefinition <|
    seq [identifier "column name", leaf .type isTypeName "column type", primaryKey]

def fieldList : Action Tree := node .fieldList (commaList fieldDefinition)

def columnName : Action Tree := do
  return Tree.leaf .identifier (← expect (·.kind == .identifier) (.expected "column name"))

def selectList : Action Tree :=
  node .selectList <| do
    match ← accept (·.isOperator "*") with
    | some star => return [Tree.leaf .operator star]
    | none => commaList columnName

def valueList : Action Tree := node .valueList (commaList term)

def assignment : Action Tree :=
  node .assignment <|
    seq [
      identifier "column name",
      leaf .operator (·.isOperator "=") "'=' in assignment",
      one term]

def assignmentList : Action Tree := node .assignmentList (commaList assignment)

def whereClause : Action Tree := node .whereClause (seq [opening, one condition])

def orderClause : Action Tree :=
  node .orderClause <|
    seq [
      opening,
      keyword "BY" "'BY' after 'ORDER'",
      identifier "column name in ORDER BY",
      optional isDirection opening]

def optionalWhere : Action (List Tree) := optional (·.isKeyword "WHERE") (one whereClause)

def optionalOrder : Action (List Tree) := optional (·.isKeyword "ORDER") (one orderClause)

/-! ## Statements -/

/-- What follows the opening word. -/
def parts : Statement → List (Action (List Tree))
  | .create => [
      keyword "TABLE" "'TABLE' after 'CREATE'",
      identifier "table name",
      delimiter "(" "'(' after table name",
      one fieldList,
      delimiter ")" "')' after field list",
      delimiter ";" "';' at end of statement"]
  | .select => [
      one selectList,
      keyword "FROM" "'FROM' after select list",
      identifier "table name",
      optionalWhere,
      optionalOrder,
      delimiter ";" "';' at end of query"]
  | .insert => [
      keyword "INTO" "'INTO' after 'INSERT'",
      identifier "table name",
      keyword "VALUES" "'VALUES' keyword",
      delimiter "(" "'(' before values",
      one valueList,
      delimiter ")" "')' after values",
      delimiter ";" "';' at end of statement"]
  | .update => [
      identifier "table name",
      keyword "SET" "'SET' keyword",
      one assignmentList,
      optionalWhere,
      delimiter ";" "';' at end of statement"]
  | .delete => [
      keyword "FROM" "'FROM' after 'DELETE'",
      identifier "table name",
      optionalWhere,
      delimiter ";" "';' at end of statement"]

/-- The parts one after the other. Where one gives up, a leaf marks the current token, and what was
read stays. -/
def gather : List (Action (List Tree)) → Action (List Tree)
  | [] => pure []
  | part :: parts => do
    match ← attempt part with
    | some trees => return trees ++ (← gather parts)
    | none => return [← errorLeaf]

/-- A statement of one kind. Its opening word is not looked at. -/
def only (s : Statement) : Action Tree :=
  node s.kind <| do
    let lead ← advance
    return Tree.leaf .keyword lead :: (← gather (parts s))

def statement : Action Tree := do
  match Statement.ofToken? (← peek) with
  | some s => only s
  | none => refuse noStatement

/-! ## Recovery -/

/-- Passes the current token unless reading can go on at it. -/
def skip (_ : Unit) : Action (Option Unit) := do
  let t ← peek
  let behind ← previous
  if isEnd t || behind.any (·.isDelimiter ";") || Statement.isOpener t then return none
  else
    let _ ← advance
    return some ()

theorem advances_skip : Advances skip := by
  intro _ s x hx hsome
  cases ht : s.current? with
  | none => simp [skip, peek, ht] at hx
  | some t =>
    rw [skip, run_bind, run_peek ht, Course.bind_done, run_bind, previous, Course.bind_done] at hx ⊢
    by_cases hstop : (isEnd t || s.previous?.any (·.isDelimiter ";") || Statement.isOpener t) = true
    · rw [if_pos hstop] at hx
      cases hx
      cases hsome
    · have hend : isEnd t = false := by simp_all
      rw [if_neg hstop, run_bind, run_advance ht hend]
      exact s.before_next ht

/-- Passes tokens up to one at which reading can go on. -/
def resume : Action Unit := do
  if Statement.isOpener (← peek) then loop skip advances_skip ()
  else
    let _ ← advance
    loop skip advances_skip ()

/-- Skips what is left of a statement that was given up. -/
def recover : Action Unit := do
  calm
  resume

/-! ## Scripts -/

/-- One statement, and the recovery if there is need of it. -/
def round : Action (Option Tree) := do
  let tree ← attempt statement
  if ← panicking then recover
  return tree

/-- One round more, unless the end has been reached. -/
def another (trees : List Tree) : Action (Option (List Tree)) := do
  if isEnd (← peek) then return none
  else
    let tree ← round
    return some (trees ++ tree.toList)

/-- A statement that is begun passes its first token. -/
theorem only_before {s : Session} {t : Token} (st : Statement) (ht : s.current? = some t)
    (hend : isEnd t = false) : s.Before ((only st).run s).session := by
  have hadvance : s.Before (advance.run s).session := by
    rw [run_advance ht hend]
    exact s.before_next ht
  rw [only, node, run_bind, run_peek ht, Course.bind_done, Course.session_behind, run_bind]
  exact (hadvance.trans_leadsTo (leadsTo_bind ..)).trans_leadsTo (leadsTo_bind ..)

theorem recover_before {s : Session} {t : Token} (ht : s.current? = some t) (hend : isEnd t = false)
    (hopener : Statement.isOpener t = false) : s.Before (recover.run s).session := by
  have ht' : s.calmed.current? = some t := ht
  rw [recover, run_bind, calm, Course.bind_done, resume, run_bind, run_peek ht', Course.bind_done,
    if_neg (by simp [hopener]), run_bind, run_advance ht' hend]
  exact (s.before_next ht).trans_leadsTo ((loop skip advances_skip ()).leadsTo _)

/-- A round passes a token: the word that opens the statement, or one that the recovery skips. -/
theorem round_before {s : Session} {t : Token} (ht : s.current? = some t)
    (hend : isEnd t = false) : s.Before (round.run s).session := by
  cases hst : Statement.ofToken? t with
  | some st =>
    have hstatement : (statement.run s).session = ((only st).run s).session := by
      rw [statement, run_bind, run_peek ht, Course.bind_done, hst, Course.session_behind]
    have hattempt : s.Before ((attempt statement).run s).session := by
      rw [session_attempt, hstatement]
      exact only_before st ht hend
    exact hattempt.trans_leadsTo (leadsTo_bind ..)
  | none =>
    have hopener : Statement.isOpener t = false := Statement.isOpener_of_none hst
    have hattempt : (attempt statement).run s =
        ⟨[⟨.failed, s.failed noStatement.message t⟩], .done none,
          s.failed noStatement.message t⟩ := by
      simp [attempt, statement, run_peek ht, hst, run_refuse _ ht, Course.behind]
    have hrecover := recover_before (s := s.failed noStatement.message t) ht hend hopener
    rw [round, run_bind, hattempt]
    exact hrecover.trans_leadsTo (leadsTo_bind ..)

theorem advances_another : Advances another := by
  intro trees s x hx hsome
  cases ht : s.current? with
  | none => simp [another, peek, ht] at hx
  | some t =>
    rw [another, run_bind, run_peek ht, Course.bind_done] at hx ⊢
    cases hend : isEnd t with
    | true =>
      rw [hend, if_pos rfl] at hx
      cases hx
      cases hsome
    | false =>
      rw [if_neg Bool.false_ne_true]
      exact (round_before ht hend).trans_leadsTo (leadsTo_bind ..)

def script : Action Tree := node .program (loop another advances_another [])

end Action

/-! ## Driving a session -/

/-- The rules that can be run on their own. -/
inductive Nonterminal where
  | script
  | statement
  | only (s : Statement)
  | fieldList
  | fieldDefinition
  | selectList
  | orderClause
  | valueList
  | assignmentList
  | whereClause
  | condition
  | conjunction
  | negation
  | comparison
  | term
  deriving DecidableEq, Repr

def Nonterminal.action : Nonterminal → Action Tree
  | script => .script
  | statement => .statement
  | only s => .only s
  | fieldList => .fieldList
  | fieldDefinition => .fieldDefinition
  | selectList => .selectList
  | orderClause => .orderClause
  | valueList => .valueList
  | assignmentList => .assignmentList
  | whereClause => .whereClause
  | condition => .condition
  | conjunction => .conjunction
  | negation => .negation
  | comparison => .comparison
  | term => .term

/-- What can be asked of a session. -/
inductive Call where
  | read (n : Nonterminal)
  | nested (n : Nonterminal)
  | advance
  | accept (kind : Token.Kind) (word : Option String)
  | expect (kind : Token.Kind) (word : Option String) (node : Tree.Kind) (message : String)
  | fail (message : String) (token : Option Token)
  | abandon (t : Tree)
  | recover
  deriving DecidableEq

inductive Answer where
  | nothing
  | token (t : Token)
  | tree (t : Tree)
  deriving DecidableEq

namespace Call

def action : Call → Action Answer
  | read n => return .tree (← n.action)
  | nested n => return .tree (← Action.nested n.action)
  | advance => return .token (← Action.advance)
  | accept kind word => do
    match ← Action.accept (·.spells kind word) with
    | some t => return .token t
    | none => return .nothing
  | expect kind word node message => do
    match ← Action.accept (·.spells kind word) with
    | some t => return .tree (Tree.leaf node t)
    | none =>
      Action.fail message none
      Action.giveUp
  | fail message token => do
    Action.fail message token
    return .nothing
  | abandon t => return .tree (t.add (← Action.errorLeaf))
  | recover => do
    Action.recover
    return .nothing

end Call

namespace Session

/-- The session that some calls leave. -/
def after (s : Session) (calls : List Call) : Session :=
  calls.foldl (fun s call => (call.action.run s).session) s

end Session

end SqlScript.Grammar
