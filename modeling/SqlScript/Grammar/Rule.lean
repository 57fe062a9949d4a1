import SqlScript.Tree.Basic

/-!
Rules of the grammar. A rule reads tokens from the front of a list and either answers a value or
complains about the first token that is left; either way it leaves a suffix of what it was given,
which is what ends the repetitions below.
-/

namespace SqlScript

inductive Complaint where
  | expected (what : String)
  | tooDeep
  deriving DecidableEq, Repr

def Complaint.message : Complaint → String
  | .expected what => "Expected " ++ what
  | .tooDeep => "Condition nested too deeply"

inductive Reply (α : Type) where
  | done (value : α) (rest : List Token)
  | refused (why : Complaint) (rest : List Token)
  deriving DecidableEq, Repr

namespace Reply

variable {α β : Type}

def rest : Reply α → List Token
  | done _ rest => rest
  | refused _ rest => rest

def map (f : α → β) : Reply α → Reply β
  | done a rest => done (f a) rest
  | refused why rest => refused why rest

def bind (r : Reply α) (f : α → List Token → Reply β) : Reply β :=
  match r with
  | done a rest => f a rest
  | refused why rest => refused why rest

@[simp] theorem rest_done (a : α) (ts : List Token) : (done a ts).rest = ts := rfl

@[simp] theorem rest_refused (why : Complaint) (ts : List Token) :
    (refused why ts : Reply α).rest = ts := rfl

@[simp] theorem rest_map (f : α → β) (r : Reply α) : (r.map f).rest = r.rest := by
  cases r <;> rfl

@[simp] theorem bind_done (a : α) (ts : List Token) (f : α → List Token → Reply β) :
    (done a ts).bind f = f a ts := rfl

@[simp] theorem bind_refused (why : Complaint) (ts : List Token) (f : α → List Token → Reply β) :
    (refused why ts : Reply α).bind f = refused why ts := rfl

theorem rest_bind_suffix {r : Reply α} {f : α → List Token → Reply β} {ts : List Token}
    (hr : r.rest <:+ ts) (hf : ∀ a us, (f a us).rest <:+ us) : (r.bind f).rest <:+ ts := by
  cases r with
  | done a rest => exact (hf a rest).trans hr
  | refused why rest => exact hr

end Reply

structure Rule (α : Type) where
  run : List Token → Reply α
  suffix : ∀ ts, (run ts).rest <:+ ts

namespace Rule

variable {α β : Type}

theorem length_le (r : Rule α) (ts : List Token) : (r.run ts).rest.length ≤ ts.length :=
  (r.suffix ts).length_le

protected def pure (a : α) : Rule α := ⟨fun ts => .done a ts, fun _ => List.suffix_refl _⟩

protected def bind (r : Rule α) (f : α → Rule β) : Rule β where
  run ts := (r.run ts).bind fun a rest => (f a).run rest
  suffix ts := Reply.rest_bind_suffix (r.suffix ts) fun a us => (f a).suffix us

instance : Monad Rule where
  pure := Rule.pure
  bind := Rule.bind

@[simp] theorem run_pure (a : α) (ts : List Token) : (pure a : Rule α).run ts = .done a ts := rfl

@[simp] theorem run_bind (r : Rule α) (f : α → Rule β) (ts : List Token) :
    (r >>= f).run ts = (r.run ts).bind fun a rest => (f a).run rest := rfl

/-! ## Tokens -/

def refuse (why : Complaint) : Rule α := ⟨fun ts => .refused why ts, fun _ => List.suffix_refl _⟩

/-- Takes the next token if `f` makes something of it. -/
def take? (f : Token → Option α) : Rule (Option α) where
  run
    | t :: ts =>
      match f t with
      | some a => .done (some a) ts
      | none => .done none (t :: ts)
    | [] => .done none []
  suffix ts := by
    cases ts with
    | nil => exact List.suffix_refl _
    | cons t ts => cases h : f t <;> simp [h]

/-- Takes the next token if `p` holds of it. -/
def accept (p : Token → Bool) : Rule (Option Token) := take? (Option.guard p)

/-- Takes the next token, of which `p` has to hold. -/
def expect (p : Token → Bool) (what : String) : Rule Token := do
  match ← accept p with
  | some t => return t
  | none => refuse (.expected what)

/-- Runs the rule that the next token asks for. -/
def look (choose : Option Token → Rule α) : Rule α :=
  ⟨fun ts => (choose ts.head?).run ts, fun ts => (choose ts.head?).suffix ts⟩

@[simp] theorem run_refuse (why : Complaint) (ts : List Token) :
    (refuse why : Rule α).run ts = .refused why ts := rfl

@[simp] theorem run_take?_nil (f : Token → Option α) : (take? f).run [] = .done none [] := rfl

@[simp] theorem run_take?_cons (f : Token → Option α) (t : Token) (ts : List Token) :
    (take? f).run (t :: ts) =
      match f t with
      | some a => .done (some a) ts
      | none => .done none (t :: ts) := rfl

@[simp] theorem run_accept_nil (p : Token → Bool) : (accept p).run [] = .done none [] := rfl

@[simp] theorem run_accept_cons (p : Token → Bool) (t : Token) (ts : List Token) :
    (accept p).run (t :: ts) = if p t then .done (some t) ts else .done none (t :: ts) := by
  cases h : p t <;> simp [accept, Option.guard, h]

@[simp] theorem run_expect_nil (p : Token → Bool) (what : String) :
    (expect p what).run [] = .refused (.expected what) [] := rfl

@[simp] theorem run_expect_cons (p : Token → Bool) (what : String) (t : Token) (ts : List Token) :
    (expect p what).run (t :: ts) =
      if p t then .done t ts else .refused (.expected what) (t :: ts) := by
  cases h : p t <;> simp [expect, h]

@[simp] theorem run_look (choose : Option Token → Rule α) (ts : List Token) :
    (look choose).run ts = (choose ts.head?).run ts := rfl

/-! ## Nodes -/

def leaf (kind : Tree.Kind) (p : Token → Bool) (what : String) : Rule (List Tree) := do
  return [Tree.leaf kind (← expect p what)]

def keyword (word what : String) : Rule (List Tree) := leaf .keyword (·.isKeyword word) what

def delimiter (mark what : String) : Rule (List Tree) := leaf .delimiter (·.isDelimiter mark) what

def identifier (what : String) : Rule (List Tree) := leaf .identifier (·.kind == .identifier) what

/-- Takes the word that opens a clause, whatever it is: who runs the rule has looked at it. At the
end there is none, and what follows refuses. -/
def opening : Rule (List Tree) := do
  return (← accept fun _ => true).toList.map (Tree.leaf .keyword)

/-- The place of the next token; where a node is built there is one. -/
def startPlace (ts : List Token) : Place := (ts.head?.map Token.place).getD ⟨none, none⟩

/-- A node at the place of its first token. -/
def node (kind : Tree.Kind) (children : Rule (List Tree)) : Rule Tree where
  run ts := (children.run ts).map (Tree.plain kind "" (startPlace ts))
  suffix ts := by simpa using children.suffix ts

def one (r : Rule Tree) : Rule (List Tree) := do
  return [← r]

/-- The rules one after the other, their trees side by side. -/
def seq : List (Rule (List Tree)) → Rule (List Tree)
  | [] => pure []
  | r :: rs => do
    let first ← r
    return first ++ (← seq rs)

/-- Runs the rule if `p` holds of the next token, else takes nothing. -/
def optional (p : Token → Bool) (r : Rule (List Tree)) : Rule (List Tree) :=
  look fun t => if t.any p then r else pure []

@[simp] theorem run_node (kind : Tree.Kind) (children : Rule (List Tree)) (ts : List Token) :
    (node kind children).run ts =
      (children.run ts).map (Tree.plain kind "" (startPlace ts)) := rfl

/-! ## Repetition -/

/-- What follows an item of a list: commas and items in turn. -/
def commaTail (item : Rule Tree) : List Token → Reply (List Tree)
  | [] => .done [] []
  | t :: ts =>
    if t.isDelimiter "," then
      match _h : item.run ts with
      | .done tree rest => (commaTail item rest).map fun more => Tree.leaf .delimiter t :: tree :: more
      | .refused why rest => .refused why rest
    else .done [] (t :: ts)
termination_by ts => ts.length
decreasing_by
  have := item.length_le ts
  simp only [_h, Reply.rest_done, List.length_cons] at this ⊢
  omega

theorem commaTail_suffix (item : Rule Tree) (ts : List Token) :
    (commaTail item ts).rest <:+ ts := by
  fun_induction commaTail item ts with
  | case1 => exact List.suffix_refl _
  | case2 t ts _ tree rest h ih =>
    have := item.suffix ts
    rw [h] at this
    simpa using (ih.trans this).trans (List.suffix_cons t ts)
  | case3 t ts _ why rest h =>
    have := item.suffix ts
    rw [h] at this
    exact this.trans (List.suffix_cons t ts)
  | case4 => exact List.suffix_refl _

/-- Items with commas between them, and the commas' leaves. -/
def commaList (item : Rule Tree) : Rule (List Tree) := do
  let first ← item
  let more ← ⟨commaTail item, commaTail_suffix item⟩
  return first :: more

/-- What follows an operand: operators and operands in turn, joined to the left. -/
def joinTail (p : Token → Bool) (join : Tree → Token → Tree → Tree) (operand : Rule Tree)
    (left : Tree) : List Token → Reply Tree
  | [] => .done left []
  | t :: ts =>
    if p t then
      match _h : operand.run ts with
      | .done right rest => joinTail p join operand (join left t right) rest
      | .refused why rest => .refused why rest
    else .done left (t :: ts)
termination_by ts => ts.length
decreasing_by
  have := operand.length_le ts
  simp only [_h, Reply.rest_done, List.length_cons] at this ⊢
  omega

theorem joinTail_suffix (p : Token → Bool) (join : Tree → Token → Tree → Tree)
    (operand : Rule Tree) (left : Tree) (ts : List Token) :
    (joinTail p join operand left ts).rest <:+ ts := by
  fun_induction joinTail p join operand left ts with
  | case1 => exact List.suffix_refl _
  | case2 left t ts _ right rest h ih =>
    have := operand.suffix ts
    rw [h] at this
    exact (ih.trans this).trans (List.suffix_cons t ts)
  | case3 left t ts _ why rest h =>
    have := operand.suffix ts
    rw [h] at this
    exact this.trans (List.suffix_cons t ts)
  | case4 => exact List.suffix_refl _

/-- Operands with operators between them, grouped to the left. -/
def joined (p : Token → Bool) (join : Tree → Token → Tree → Tree) (operand : Rule Tree) :
    Rule Tree := do
  let first ← operand
  ⟨joinTail p join operand first, joinTail_suffix p join operand first⟩

end Rule

end SqlScript
