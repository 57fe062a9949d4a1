import SqlScript.Grammar.Statement
import SqlScript.Token.Scan

/-!
Scripts: statements one after the other. After a statement that was given up, reading goes on
behind the next `;` or at the next word that opens a statement, whichever comes first.
-/

namespace SqlScript.Grammar

/-! ## Recovery -/

/-- The tokens from which reading goes on after a failure. -/
def recover : List Token → List Token
  | [] => []
  | t :: ts =>
    if Statement.isOpener t then t :: ts
    else if t.isDelimiter ";" then ts
    else recover ts

theorem recover_suffix (ts : List Token) : recover ts <:+ ts := by
  fun_induction recover ts with
  | case1 => exact List.suffix_refl _
  | case2 => exact List.suffix_refl _
  | case3 => exact List.suffix_cons ..
  | case4 t ts _ _ ih => exact ih.trans (List.suffix_cons ..)

theorem recover_length_lt {t : Token} (ts : List Token) (h : Statement.isOpener t = false) :
    (recover (t :: ts)).length < (t :: ts).length := by
  simp only [recover, h, List.length_cons]
  split
  · contradiction
  · split
    · omega
    · have := (recover_suffix ts).length_le
      omega

/-! ## Rounds -/

/-- A complaint and the token that it is about. -/
structure Blame where
  complaint : Complaint
  token : Token

def Blame.diagnostic (b : Blame) : Diagnostic := .found b.complaint.message b.token

structure Round where
  tree : Option Tree
  blame : Option Blame

def Attempt.blame (a : Attempt) (stop : Token) : Option Blame :=
  a.complaint.map fun why => ⟨why, current stop a.rest⟩

/-- What is left after a statement and, if it failed or `panic` holds, the recovery after it. -/
def Attempt.next (a : Attempt) (panic : Bool) : List Token :=
  if panic || a.complaint.isSome then recover a.rest else a.rest

theorem Attempt.next_suffix (a : Attempt) (panic : Bool) : a.next panic <:+ a.rest := by
  unfold Attempt.next
  split
  · exact recover_suffix _
  · exact List.suffix_refl _

/-- Every round takes at least one token. -/
theorem statement_next_length_lt (room : Nat) (stop : Token) (panic : Bool) (t : Token)
    (ts : List Token) :
    ((statement room stop (t :: ts)).next panic).length < (t :: ts).length := by
  have hn := ((statement room stop (t :: ts)).next_suffix panic).length_le
  cases hs : Statement.ofToken? t with
  | some s =>
    have := (Statement.attempt_suffix s room stop t ts).length_le
    simp only [statement, hs, List.length_cons] at hn ⊢
    omega
  | none =>
    simpa [statement, hs, Attempt.next] using
      recover_length_lt ts (t := t) (Statement.isOpener_of_none hs)

/-- The rounds over tokens that no end mark interrupts. `panic` says whether the first round ends
with a recovery even if its statement is whole. -/
def rounds (room : Nat) (stop : Token) (panic : Bool) : List Token → List Round
  | [] => []
  | t :: ts =>
    let a := statement room stop (t :: ts)
    ⟨a.tree, a.blame stop⟩ :: rounds room stop false (a.next panic)
termination_by ts => ts.length
decreasing_by exact statement_next_length_lt room stop panic t ts

/-! ## Diagnostics -/

/-- Adds a diagnostic, unless the last one has the same place. -/
def record (ds : List Diagnostic) (d : Diagnostic) : List Diagnostic :=
  if ds.getLast?.map (·.place) = some d.place then ds else ds ++ [d]

def recordAll (ds : List Diagnostic) (more : List Diagnostic) : List Diagnostic :=
  more.foldl record ds

def Round.diagnostic? (r : Round) : Option Diagnostic := r.blame.map Blame.diagnostic

/-! ## Token lists -/

def isEnd (t : Token) : Bool := t.kind == .endOfInput

/-- Adds an end mark unless the last token is one. -/
def closed (tokens : List Token) : List Token :=
  if tokens.getLast?.any isEnd then tokens else withEndMark tokens

theorem exists_isEnd_closed (tokens : List Token) : ∃ t ∈ closed tokens, isEnd t = true := by
  unfold closed
  split
  · rename_i h
    cases hl : tokens.getLast? with
    | none => simp [hl] at h
    | some t => exact ⟨t, List.mem_of_getLast? hl, by simpa [hl] using h⟩
  · exact ⟨endMark tokens, by simp [withEndMark], rfl⟩

/-- The tokens that are read: all before the first end mark. -/
def before (tokens : List Token) : List Token := tokens.takeWhile (!isEnd ·)

/-- The first end mark. -/
def stopOf (tokens : List Token) : Token := (tokens.find? isEnd).getD (endMark tokens)

/-! ## Parsing -/

structure Parsed where
  tree : Tree
  diagnostics : List Diagnostic

def roomOf (limit : Int) : Nat := limit.toNat

def program (place : Place) (rounds : List Round) : Tree :=
  Tree.plain .program "" place (rounds.filterMap (·.tree))

/-- Parses tokens, with `limit` levels of nested conditions. -/
def parse (tokens : List Token) (limit : Int) : Parsed :=
  let all := closed tokens
  let stop := stopOf all
  let rs := rounds (roomOf limit) stop false (before all)
  ⟨program (current stop (before all)).place rs, recordAll [] (rs.filterMap Round.diagnostic?)⟩

def defaultLimit : Int := 100

end SqlScript.Grammar
