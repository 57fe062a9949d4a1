import SqlScript.Grammar.Script

/-!
Parsing step by step. A session stands at one of its tokens, knows how deep it is inside conditions
and keeps the diagnostics so far. An action moves a session on; besides what it answers it tells the
moments that the session went through, and it comes with a proof that these are steps which a parser
can take.
-/

namespace SqlScript.Grammar

structure Session where
  /-- The tokens, of which the last is an end mark. -/
  tokens : List Token
  /-- The number of tokens that have been passed. -/
  index : Nat
  diagnostics : List Diagnostic
  /-- Whether a failure has not been recovered from. -/
  panic : Bool
  limit : Int
  /-- The number of conditions and negations that are being read inside one another. -/
  depth : Int
  deriving DecidableEq, Repr

namespace Session

def start (tokens : List Token) (limit : Int) : Session := ⟨closed tokens, 0, [], false, limit, 0⟩

/-- The token at which the session stands, if it stands at one. -/
def current? (s : Session) : Option Token := s.tokens[s.index]?

def previous? (s : Session) : Option Token :=
  if s.index = 0 then none else s.tokens[s.index - 1]?

def atEnd (s : Session) : Bool := s.current?.any isEnd

def atOpener (s : Session) : Bool := s.current?.any Statement.isOpener

/-- The number of levels that are left. -/
def room (s : Session) : Nat := roomOf (s.limit - s.depth)

/-- Passes the current token. -/
def next (s : Session) : Session := { s with index := s.index + 1 }

def down (s : Session) : Session := { s with depth := s.depth + 1 }

def up (s : Session) : Session := { s with depth := s.depth - 1 }

/-- Notes a failure at a token. -/
def failed (s : Session) (message : String) (t : Token) : Session :=
  { s with diagnostics := record s.diagnostics (.found message t), panic := true }

def calmed (s : Session) : Session := { s with panic := false }

/-- The other session has the same tokens and has not gone back. -/
def LeadsTo (s later : Session) : Prop := later.tokens = s.tokens ∧ s.index ≤ later.index

theorem LeadsTo.refl (s : Session) : s.LeadsTo s := ⟨rfl, Nat.le_refl _⟩

theorem LeadsTo.trans {s mid later : Session} (h : s.LeadsTo mid) (h' : mid.LeadsTo later) :
    s.LeadsTo later :=
  ⟨h'.1.trans h.1, Nat.le_trans h.2 h'.2⟩

/-- The other session has passed at least one of the tokens that this one has not. -/
def Before (s later : Session) : Prop := s.index < s.tokens.length ∧ s.index < later.index

theorem before_next {s : Session} {t : Token} (h : s.current? = some t) : s.Before s.next :=
  ⟨(List.getElem?_eq_some_iff.1 h).1, Nat.lt_succ_self _⟩

theorem Before.trans_leadsTo {s mid later : Session} (h : s.Before mid) (h' : mid.LeadsTo later) :
    s.Before later :=
  ⟨h.1, Nat.lt_of_lt_of_le h.2 h'.2⟩

theorem LeadsTo.trans_before {s mid later : Session} (h : s.LeadsTo mid) (h' : mid.Before later) :
    s.Before later :=
  ⟨h.1 ▸ Nat.lt_of_le_of_lt h.2 h'.1, Nat.lt_of_le_of_lt h.2 h'.2⟩

end Session

/-! ## Walks -/

/-- What has just been done with a session. -/
inductive Deed where
  | passed
  | failed
  | entered
  | left
  /-- A condition or negation was not entered, since there was no room for it. -/
  | refused
  | calmed
  deriving DecidableEq, Repr

structure Moment where
  deed : Deed
  session : Session

/-- How a session comes to be another one: what is done on the way and what it is like each time. An
end mark is never passed, and what is entered is left again. -/
inductive Walk : Session → List Moment → Session → Prop
  | stay (s : Session) : Walk s [] s
  | passed {s : Session} {t : Token} (h : s.current? = some t) (hend : isEnd t = false) :
      Walk s [⟨.passed, s.next⟩] s.next
  | failed (s : Session) (message : String) (t : Token) :
      Walk s [⟨.failed, s.failed message t⟩] (s.failed message t)
  | refused {s : Session} (h : s.limit ≤ s.depth) : Walk s [⟨.refused, s⟩] s
  | calmed (s : Session) : Walk s [⟨.calmed, s.calmed⟩] s.calmed
  | nested {s later : Session} {moments : List Moment} (h : s.depth < s.limit)
      (hw : Walk s.down moments later) :
      Walk s (⟨.entered, s.down⟩ :: moments ++ [⟨.left, later.up⟩]) later.up
  | trans {s mid later : Session} {moments more : List Moment} (h : Walk s moments mid)
      (h' : Walk mid more later) : Walk s (moments ++ more) later

theorem Walk.leadsTo {s later : Session} {moments : List Moment} (h : Walk s moments later) :
    s.LeadsTo later := by
  induction h with
  | passed => exact ⟨rfl, Nat.le_succ _⟩
  | nested _ _ ih => exact ih
  | trans _ _ ih ih' => exact ih.trans ih'
  | stay | failed | refused | calmed => exact ⟨rfl, Nat.le_refl _⟩

/-! ## Courses -/

inductive Ending (α : Type) where
  | done (value : α)
  | givenUp
  /-- A token was looked for where there is none. -/
  | lost
  deriving DecidableEq, Repr

/-- How an action goes: the moments on the way, the end, and the session that is left. -/
structure Course (α : Type) where
  moments : List Moment
  ending : Ending α
  session : Session

namespace Course

variable {α β : Type}

def behind (moments : List Moment) (c : Course α) : Course α :=
  { c with moments := moments ++ c.moments }

def bind (c : Course α) (f : α → Session → Course β) : Course β :=
  match c.ending with
  | .done a => (f a c.session).behind c.moments
  | .givenUp => ⟨c.moments, .givenUp, c.session⟩
  | .lost => ⟨c.moments, .lost, c.session⟩

@[simp] theorem session_behind (moments : List Moment) (c : Course α) :
    (c.behind moments).session = c.session := rfl

@[simp] theorem ending_behind (moments : List Moment) (c : Course α) :
    (c.behind moments).ending = c.ending := rfl

@[simp] theorem moments_behind (moments : List Moment) (c : Course α) :
    (c.behind moments).moments = moments ++ c.moments := rfl

@[simp] theorem behind_nil (c : Course α) : c.behind [] = c := rfl

@[simp] theorem bind_done (moments : List Moment) (a : α) (s : Session)
    (f : α → Session → Course β) :
    (⟨moments, .done a, s⟩ : Course α).bind f = (f a s).behind moments := rfl

@[simp] theorem bind_givenUp (moments : List Moment) (s : Session) (f : α → Session → Course β) :
    (⟨moments, .givenUp, s⟩ : Course α).bind f = ⟨moments, .givenUp, s⟩ := rfl

@[simp] theorem bind_lost (moments : List Moment) (s : Session) (f : α → Session → Course β) :
    (⟨moments, .lost, s⟩ : Course α).bind f = ⟨moments, .lost, s⟩ := rfl

/-- The course tells how its session comes from `s`. -/
def Walks (c : Course α) (s : Session) : Prop := Walk s c.moments c.session

theorem Walks.behind {s mid : Session} {moments : List Moment} {c : Course α}
    (h : Walk s moments mid) (hc : c.Walks mid) : (c.behind moments).Walks s :=
  h.trans hc

theorem Walks.bind {s : Session} {c : Course α} {f : α → Session → Course β}
    (hc : c.Walks s) (hf : ∀ a (mid : Session), (f a mid).Walks mid) : (c.bind f).Walks s := by
  unfold Course.bind
  split
  · exact .behind hc (hf _ _)
  · exact hc
  · exact hc

end Course

/-! ## Actions -/

structure Action (α : Type) where
  run : Session → Course α
  walks : ∀ s : Session, (run s).Walks s

namespace Action

variable {α β : Type}

theorem leadsTo (a : Action α) (s : Session) : s.LeadsTo (a.run s).session := (a.walks s).leadsTo

protected def pure (a : α) : Action α := ⟨fun s => ⟨[], .done a, s⟩, .stay⟩

protected def bind (a : Action α) (f : α → Action β) : Action β where
  run s := (a.run s).bind fun x mid => (f x).run mid
  walks s := (a.walks s).bind fun x mid => (f x).walks mid

instance : Monad Action where
  pure := Action.pure
  bind := Action.bind

@[simp] theorem run_pure (a : α) (s : Session) : (pure a : Action α).run s = ⟨[], .done a, s⟩ := rfl

@[simp] theorem run_bind (a : Action α) (f : α → Action β) (s : Session) :
    (a >>= f).run s = (a.run s).bind fun x mid => (f x).run mid := rfl

/-- Whatever is done next goes on from what the first action leaves. -/
theorem leadsTo_bind (a : Action α) (f : α → Action β) (s : Session) :
    (a.run s).session.LeadsTo ((a >>= f).run s).session := by
  rw [run_bind]
  unfold Course.bind
  split
  · exact (f _).leadsTo _
  · exact .refl _
  · exact .refl _

def giveUp : Action α := ⟨fun s => ⟨[], .givenUp, s⟩, .stay⟩

/-- Goes on, with no answer, where the other action gives up. -/
def attempt (a : Action α) : Action (Option α) where
  run s :=
    let c := a.run s
    match c.ending with
    | .done x => ⟨c.moments, .done (some x), c.session⟩
    | .givenUp => ⟨c.moments, .done none, c.session⟩
    | .lost => ⟨c.moments, .lost, c.session⟩
  walks s := by
    dsimp only
    split <;> exact a.walks s

@[simp] theorem session_attempt (a : Action α) (s : Session) :
    ((attempt a).run s).session = (a.run s).session := by
  simp only [attempt]
  split <;> rfl

/-! ## Progress -/

/-- If the action answers something with `q`, it has passed a token. -/
def Strides (a : Action α) (q : α → Prop) (s : Session) : Prop :=
  ∀ x, (a.run s).ending = .done x → q x → s.Before (a.run s).session

theorem Strides.bind {a : Action α} {f : α → Action β} {q : β → Prop} {s : Session}
    (h : ∀ x, (a.run s).ending = .done x →
      s.Before (a.run s).session ∨ (f x).Strides q (a.run s).session) :
    (a >>= f).Strides q s := by
  intro y hy hq
  rw [run_bind] at hy ⊢
  unfold Course.bind at hy ⊢
  split at hy
  · rename_i x hx
    rcases h x hx with hbefore | hstrides
    · exact hbefore.trans_leadsTo ((f x).leadsTo _)
    · exact (a.leadsTo s).trans_before (hstrides y hy hq)
  · cases hy
  · cases hy

/-! ## Tokens -/

/-- The current token, which stays. -/
def peek : Action Token where
  run s :=
    match s.current? with
    | some t => ⟨[], .done t, s⟩
    | none => ⟨[], .lost, s⟩
  walks s := by
    split <;> exact .stay s

def previous : Action (Option Token) := ⟨fun s => ⟨[], .done s.previous?, s⟩, .stay⟩

/-- The current token, which is passed if it is no end mark. -/
def advance : Action Token where
  run s :=
    match s.current? with
    | some t =>
      if isEnd t then ⟨[], .done t, s⟩ else ⟨[⟨.passed, s.next⟩], .done t, s.next⟩
    | none => ⟨[], .lost, s⟩
  walks s := by
    split
    case h_1 t h =>
      split
      · exact .stay s
      · exact .passed h (by simpa using ‹¬ isEnd t = true›)
    case h_2 => exact .stay s

theorem run_peek {s : Session} {t : Token} (h : s.current? = some t) :
    peek.run s = ⟨[], .done t, s⟩ := by
  simp [peek, h]

theorem run_advance {s : Session} {t : Token} (h : s.current? = some t) (hend : isEnd t = false) :
    advance.run s = ⟨[⟨.passed, s.next⟩], .done t, s.next⟩ := by
  simp [advance, h, hend]

/-- Takes the current token if `p` holds of it. -/
def accept (p : Token → Bool) : Action (Option Token) := do
  if p (← peek) then return some (← advance) else return none

theorem run_accept {p : Token → Bool} {s : Session} {t : Token} (h : s.current? = some t)
    (hp : p t = true) (hend : isEnd t = false) :
    (accept p).run s = ⟨[⟨.passed, s.next⟩], .done (some t), s.next⟩ := by
  simp [accept, run_peek h, run_advance h hend, hp, Course.behind]

theorem run_accept_none {p : Token → Bool} {s : Session} {t : Token} (h : s.current? = some t)
    (hp : p t = false) : (accept p).run s = ⟨[], .done none, s⟩ := by
  simp [accept, run_peek h, hp, Course.behind]

theorem accept_strides {p : Token → Bool} (hp : ∀ t, p t = true → isEnd t = false) (s : Session) :
    (accept p).Strides (·.isSome) s := by
  intro o ho hsome
  cases ht : s.current? with
  | none => simp [accept, peek, ht] at ho
  | some t =>
    cases hpt : p t with
    | true =>
      rw [run_accept ht hpt (hp t hpt)]
      exact s.before_next ht
    | false =>
      rw [run_accept_none ht hpt] at ho
      cases ho
      cases hsome

/-! ## Failures -/

/-- Notes a failure at a token, or at the current one. -/
def fail (message : String) (token : Option Token) : Action Unit where
  run s :=
    match token <|> s.current? with
    | some t => ⟨[⟨.failed, s.failed message t⟩], .done (), s.failed message t⟩
    | none => ⟨[], .lost, s⟩
  walks s := by
    split
    · exact .failed s message _
    · exact .stay s

def refuse (why : Complaint) : Action α := do
  fail why.message none
  giveUp

theorem run_refuse {s : Session} {t : Token} (why : Complaint) (h : s.current? = some t) :
    (refuse why : Action α).run s =
      ⟨[⟨.failed, s.failed why.message t⟩], .givenUp, s.failed why.message t⟩ := by
  simp [refuse, fail, giveUp, h, Course.behind]

/-- Takes the current token, of which `p` has to hold. -/
def expect (p : Token → Bool) (why : Complaint) : Action Token := do
  match ← accept p with
  | some t => return t
  | none => refuse why

/-- Ends the panic. -/
def calm : Action Unit := ⟨fun s => ⟨[⟨.calmed, s.calmed⟩], .done (), s.calmed⟩, .calmed⟩

def panicking : Action Bool := ⟨fun s => ⟨[], .done s.panic, s⟩, .stay⟩

/-- The leaf that shows where a statement was given up. -/
def errorLeaf : Action Tree := return Tree.leaf .error (← peek)

/-! ## Levels -/

/-- Runs an action one level down, if the limit allows it. However the action ends, the session goes up
again. -/
def nested (a : Action α) : Action α where
  run s :=
    if s.limit ≤ s.depth then ((refuse .tooDeep).run s).behind [⟨.refused, s⟩]
    else
      let c := a.run s.down
      ⟨⟨.entered, s.down⟩ :: c.moments ++ [⟨.left, c.session.up⟩], c.ending, c.session.up⟩
  walks s := by
    split
    case isTrue h => exact .behind (.refused h) ((refuse .tooDeep).walks s)
    case isFalse h => exact .nested (Int.not_le.1 h) (a.walks s.down)

/-- An action that is made for the number of levels that are left. -/
def withRoom (f : Nat → Action α) : Action α where
  run s := (f s.room).run s
  walks s := (f s.room).walks s

/-! ## Repetition -/

/-- Whenever there is to be another turn, this one has passed a token. -/
def Advances (turn : β → Action (Option β)) : Prop :=
  ∀ b s, (turn b).Strides (·.isSome) s

/-- Takes turns until one answers nothing. -/
def loopFrom (turn : β → Action (Option β)) (hturn : Advances turn) (b : β) (s : Session) :
    Course β :=
  let c := (turn b).run s
  match _h : c.ending with
  | .done (some b') => (loopFrom turn hturn b' c.session).behind c.moments
  | .done none => ⟨c.moments, .done b, c.session⟩
  | .givenUp => ⟨c.moments, .givenUp, c.session⟩
  | .lost => ⟨c.moments, .lost, c.session⟩
termination_by s.tokens.length - s.index
decreasing_by
  have hbefore := hturn b s (some b') _h rfl
  have htokens := ((turn b).leadsTo s).1
  simp only [Session.Before, htokens] at hbefore ⊢
  omega

theorem loopFrom_walks (turn : β → Action (Option β)) (hturn : Advances turn) (b : β)
    (s : Session) : (loopFrom turn hturn b s).Walks s := by
  fun_induction loopFrom turn hturn b s with
  | case1 b s c b' _ ih => exact .behind ((turn b).walks s) ih
  | case2 b s c | case3 b s c | case4 b s c => exact (turn b).walks s

def loop (turn : β → Action (Option β)) (hturn : Advances turn) (b : β) : Action β :=
  ⟨loopFrom turn hturn b, loopFrom_walks turn hturn b⟩

end Action

end SqlScript.Grammar
