import Mathlib.Data.List.Forall2
import SqlScript.Proofs.Grammar.Language
import SqlScript.Proofs.Grammar.Plain

/-!
Every word that opens a statement makes one node, whatever is wrong around it: no rule takes such a
word but for the first of a statement, and recovery stops in front of it.
-/

namespace SqlScript.Grammar

/-- The tokens that open a statement. -/
def openers (ts : List Token) : List Token := ts.filter Statement.isOpener

/-- The tree is the node of the statement that a token opens. -/
def Opens (child : Tree) (t : Token) : Prop :=
  ∃ s : Statement, t.isKeyword s.word = true ∧ child.kind = s.kind ∧ child.place = t.place ∧
    child.children.head? = some (Tree.leaf .keyword t)

theorem openers_append_of_none {taken : List Token} (rest : List Token)
    (h : ∀ t ∈ taken, Statement.isOpener t = false) : openers (taken ++ rest) = openers rest := by
  rw [openers, List.filter_append, List.filter_eq_nil_iff.2, List.nil_append, openers]
  intro t ht
  simp [h t ht]

theorem openers_cons_of_none {t : Token} (ts : List Token) (h : Statement.isOpener t = false) :
    openers (t :: ts) = openers ts :=
  List.filter_cons_of_neg (by simp [h])

/-! ## Taking and skipping -/

theorem openers_recover (ts : List Token) : openers (recover ts) = openers ts := by
  fun_induction recover ts with
  | case1 => rfl
  | case2 => rfl
  | case3 t ts ho _ => exact (openers_cons_of_none ts (by simpa using ho)).symm
  | case4 t ts ho _ ih =>
    rw [ih]
    exact (openers_cons_of_none ts (by simpa using ho)).symm

theorem Attempt.openers_next (a : Attempt) (panic : Bool) :
    openers (a.next panic) = openers a.rest := by
  unfold Attempt.next
  split
  · exact openers_recover a.rest
  · rfl

theorem Progress.openers_run {parts : List (Rule (List Tree))}
    (h : ∀ part ∈ parts, part.Takes fun t => Statement.isOpener t = false) (ts : List Token) :
    openers (Progress.run parts ts).rest = openers ts := by
  induction parts generalizing ts with
  | nil => rfl
  | cons part parts ih =>
    obtain ⟨taken, hts, hnone, -⟩ := h part (List.mem_cons_self ..) ts
    have hpart : openers (part.run ts).rest = openers ts := by
      calc openers (part.run ts).rest
        _ = openers (taken ++ (part.run ts).rest) := (openers_append_of_none _ hnone).symm
        _ = openers ts := by rw [← hts]
    rw [← hpart, Progress.run]
    cases part.run ts with
    | done trees rest => exact ih (fun part' hp => h part' (List.mem_cons_of_mem _ hp)) rest
    | refused why rest => rfl

theorem Statement.parts_take_no_opener (s : Statement) (room : Nat) :
    ∀ part ∈ s.parts room, part.Takes fun t => Statement.isOpener t = false := by
  intro part hpart
  rw [s.parts_eq_concat, List.mem_append, List.mem_singleton] at hpart
  rcases hpart with hpart | rfl
  · exact (s.parts_plain room part hpart).mono fun t ht => ht.1
  · exact .leaf _ (fun t => isOpener_of_isDelimiter) _

theorem statement_openers (room : Nat) (stop t : Token) (ts : List Token) :
    (∃ tree, (statement room stop (t :: ts)).tree = some tree ∧ Opens tree t ∧
        openers (t :: ts) = t :: openers (statement room stop (t :: ts)).rest) ∨
      ((statement room stop (t :: ts)).tree = none ∧
        openers (t :: ts) = openers (statement room stop (t :: ts)).rest) := by
  rw [statement]
  cases hs : Statement.ofToken? t with
  | some s =>
    left
    refine ⟨_, rfl, ⟨s, Statement.ofToken?_eq_some.1 hs, rfl, rfl, rfl⟩, ?_⟩
    have hrest := Progress.openers_run (s.parts_take_no_opener room) ts
    have hopener := Statement.isOpener_of_some hs
    simp only [Statement.attempt, hrest]
    exact List.filter_cons_of_pos hopener
  | none => exact .inr ⟨rfl, rfl⟩

/-! ## Scripts -/

theorem rounds_openers (room : Nat) (stop : Token) (panic : Bool) (ts : List Token) :
    List.Forall₂ Opens ((rounds room stop panic ts).filterMap (·.tree)) (openers ts) := by
  fun_induction rounds room stop panic ts with
  | case1 => exact .nil
  | case2 panic t ts a ih =>
    rw [a.openers_next] at ih
    rcases statement_openers room stop t ts with ⟨tree, htree, hopens, hts⟩ | ⟨htree, hts⟩
    · have ha : a.tree = some tree := htree
      rw [hts, List.filterMap_cons, ha]
      exact .cons hopens ih
    · have ha : a.tree = none := htree
      rw [hts, List.filterMap_cons, ha]
      exact ih

/-- The nodes of a program stand, one each and in order, for the words that open a statement. -/
theorem parse_children_openers (tokens : List Token) (limit : Int) :
    List.Forall₂ Opens (parse tokens limit).tree.children (openers (before tokens)) := by
  rw [children_parse]
  exact rounds_openers (roomOf limit) (stopOf (closed tokens)) false (before tokens)

end SqlScript.Grammar
