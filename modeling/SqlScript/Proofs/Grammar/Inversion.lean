import SqlScript.Proofs.Grammar.Phrase

/-!
Inversion: what a rule that answers has read, one statement for each way to build a rule.
-/

namespace SqlScript

variable {α β : Type}

namespace Reply

theorem bind_eq_done {r : Reply α} {f : α → List Token → Reply β} {b : β} {rest : List Token} :
    r.bind f = .done b rest ↔ ∃ a mid, r = .done a mid ∧ f a mid = .done b rest := by
  cases r with
  | refused why mid => simp
  | done a mid =>
    constructor
    · intro h
      exact ⟨a, mid, rfl, h⟩
    · rintro ⟨_, _, h, hf⟩
      cases h
      exact hf

theorem map_eq_done {r : Reply α} {f : α → β} {b : β} {rest : List Token} :
    r.map f = .done b rest ↔ ∃ a, r = .done a rest ∧ f a = b := by
  cases r with
  | refused why mid => simp [map]
  | done a mid =>
    constructor
    · intro h
      cases h
      exact ⟨a, rfl, rfl⟩
    · rintro ⟨_, h, rfl⟩
      cases h
      rfl

end Reply

namespace Rule

variable {ts rest : List Token}

theorem bind_eq_done {r : Rule α} {f : α → Rule β} {b : β} :
    (r >>= f).run ts = .done b rest ↔
      ∃ a mid, r.run ts = .done a mid ∧ (f a).run mid = .done b rest := by
  rw [run_bind, Reply.bind_eq_done]

theorem pure_eq_done {a b : α} : (pure a : Rule α).run ts = .done b rest ↔ a = b ∧ ts = rest := by
  simp

theorem expect_eq_done {p : Token → Bool} {what : String} {t : Token} :
    (expect p what).run ts = .done t rest ↔ p t = true ∧ ts = t :: rest := by
  cases ts with
  | nil => simp
  | cons u us =>
    rw [run_expect_cons]
    split
    · rename_i h
      constructor
      · intro he
        cases he
        exact ⟨h, rfl⟩
      · rintro ⟨-, he⟩
        cases he
        rfl
    · rename_i h
      constructor
      · intro he
        cases he
      · rintro ⟨ht, he⟩
        cases he
        exact absurd ht h

theorem take?_eq_done_some {f : Token → Option α} {a : α} :
    (take? f).run ts = .done (some a) rest ↔ ∃ t, f t = some a ∧ ts = t :: rest := by
  cases ts with
  | nil => simp
  | cons u us =>
    rw [run_take?_cons]
    cases h : f u with
    | none =>
      simp only [Reply.done.injEq, reduceCtorEq, false_and, false_iff]
      rintro ⟨t, ht, he⟩
      cases he
      rw [h] at ht
      cases ht
    | some b =>
      constructor
      · intro he
        cases he
        exact ⟨u, h, rfl⟩
      · rintro ⟨t, ht, he⟩
        cases he
        rw [h] at ht
        cases ht
        rfl

theorem take?_eq_done_none {f : Token → Option α} :
    (take? f).run ts = .done none rest ↔ ts = rest ∧ ∀ t ∈ ts.head?, f t = none := by
  cases ts with
  | nil => simp [eq_comm]
  | cons u us =>
    rw [run_take?_cons]
    cases h : f u <;> simp [h]

theorem accept_eq_done_some {p : Token → Bool} {t : Token} :
    (accept p).run ts = .done (some t) rest ↔ p t = true ∧ ts = t :: rest := by
  rw [accept, take?_eq_done_some]
  constructor
  · rintro ⟨u, hu, rfl⟩
    obtain ⟨rfl, hp⟩ := Option.guard_eq_some_iff.1 hu
    exact ⟨hp, rfl⟩
  · rintro ⟨hp, rfl⟩
    exact ⟨t, Option.guard_eq_some_iff.2 ⟨rfl, hp⟩, rfl⟩

theorem accept_eq_done_none {p : Token → Bool} :
    (accept p).run ts = .done none rest ↔ ts = rest ∧ ∀ t ∈ ts.head?, p t = false := by
  rw [accept, take?_eq_done_none]
  simp [Option.guard]

/-! ## Nodes -/

theorem leaf_eq_done {kind : Tree.Kind} {p : Token → Bool} {what : String} {trees : List Tree} :
    (leaf kind p what).run ts = .done trees rest ↔
      ∃ t, p t = true ∧ ts = t :: rest ∧ trees = [Tree.leaf kind t] := by
  simp only [leaf, bind_eq_done, expect_eq_done, pure_eq_done]
  constructor
  · rintro ⟨t, mid, ⟨hp, rfl⟩, rfl, rfl⟩
    exact ⟨t, hp, rfl, rfl⟩
  · rintro ⟨t, hp, rfl, rfl⟩
    exact ⟨t, rest, ⟨hp, rfl⟩, rfl, rfl⟩

theorem one_eq_done {r : Rule Tree} {trees : List Tree} :
    (one r).run ts = .done trees rest ↔ ∃ t, r.run ts = .done t rest ∧ trees = [t] := by
  simp only [one, bind_eq_done, pure_eq_done]
  constructor
  · rintro ⟨t, mid, h, rfl, rfl⟩
    exact ⟨t, h, rfl⟩
  · rintro ⟨t, h, rfl⟩
    exact ⟨t, rest, h, rfl, rfl⟩

theorem seq_cons_eq_done {r : Rule (List Tree)} {rs : List (Rule (List Tree))}
    {trees : List Tree} :
    (seq (r :: rs)).run ts = .done trees rest ↔
      ∃ first mid later, r.run ts = .done first mid ∧ (seq rs).run mid = .done later rest ∧
        trees = first ++ later := by
  simp only [seq, bind_eq_done, pure_eq_done]
  constructor
  · rintro ⟨first, mid, h, later, end_, hl, rfl, rfl⟩
    exact ⟨first, mid, later, h, hl, rfl⟩
  · rintro ⟨first, mid, later, h, hl, rfl⟩
    exact ⟨first, mid, h, later, rest, hl, rfl, rfl⟩

theorem seq_nil_eq_done {trees : List Tree} :
    (seq []).run ts = .done trees rest ↔ trees = [] ∧ ts = rest := by
  simp [seq, eq_comm]

theorem seq_append_eq_done {rs rs' : List (Rule (List Tree))} {trees : List Tree} :
    (seq (rs ++ rs')).run ts = .done trees rest ↔
      ∃ first mid later, (seq rs).run ts = .done first mid ∧ (seq rs').run mid = .done later rest ∧
        trees = first ++ later := by
  induction rs generalizing ts trees with
  | nil =>
    simp only [List.nil_append, seq_nil_eq_done]
    constructor
    · intro h
      exact ⟨[], ts, trees, ⟨rfl, rfl⟩, h, rfl⟩
    · rintro ⟨_, _, later, ⟨rfl, rfl⟩, h, rfl⟩
      exact h
  | cons r rs ih =>
    simp only [List.cons_append, seq_cons_eq_done, ih]
    constructor
    · rintro ⟨first, mid, _, h, ⟨inner, mid', later, hi, hl, rfl⟩, rfl⟩
      exact ⟨_, mid', later, ⟨first, mid, inner, h, hi, rfl⟩, hl, (List.append_assoc ..).symm⟩
    · rintro ⟨_, mid', later, ⟨first, mid, inner, h, hi, rfl⟩, hl, rfl⟩
      exact ⟨first, mid, _, h, ⟨inner, mid', later, hi, hl, rfl⟩, List.append_assoc ..⟩

theorem node_eq_done {kind : Tree.Kind} {children : Rule (List Tree)} {t : Tree} :
    (node kind children).run ts = .done t rest ↔
      ∃ trees, children.run ts = .done trees rest ∧
        t = Tree.plain kind "" (startPlace ts) trees := by
  rw [run_node, Reply.map_eq_done]
  simp only [eq_comm]

theorem opening_cons (t : Token) (ts : List Token) :
    opening.run (t :: ts) = .done [Tree.leaf .keyword t] ts := by
  simp [opening]

theorem optional_of_head {p : Token → Bool} {r : Rule (List Tree)} {t : Token} (h : p t = true) :
    (optional p r).run (t :: ts) = r.run (t :: ts) := by
  simp [optional, h]

theorem optional_of_not_head {p : Token → Bool} {r : Rule (List Tree)}
    (h : ∀ t ∈ ts.head?, p t = false) : (optional p r).run ts = .done [] ts := by
  have hn : ts.head?.any p = false := by
    cases ts with
    | nil => rfl
    | cons t ts => exact h t rfl
  simp [optional, hn]

/-- An optional part is there when its first token is. -/
theorem optional_eq_done {p : Token → Bool} {r : Rule (List Tree)} {trees : List Tree} :
    (optional p r).run ts = .done trees rest ↔
      ((∀ t ∈ ts.head?, p t = false) ∧ trees = [] ∧ ts = rest) ∨
        ∃ t us, ts = t :: us ∧ p t = true ∧ r.run ts = .done trees rest := by
  cases ts with
  | nil =>
    rw [optional_of_not_head (by simp)]
    simp [eq_comm (a := [])]
  | cons t us =>
    cases h : p t with
    | false =>
      rw [optional_of_not_head (by simpa using h)]
      simp [h, eq_comm (a := [])]
    | true =>
      rw [optional_of_head h]
      simp [h]

end Rule

namespace Grammar

/-- A statement is whole if its parts can be read one after the other. -/
theorem Progress.run_eq_whole {parts : List (Rule (List Tree))} {ts rest : List Token}
    {trees : List Tree} :
    Progress.run parts ts = ⟨trees, none, rest⟩ ↔ (Rule.seq parts).run ts = .done trees rest := by
  induction parts generalizing ts trees with
  | nil => simp [Progress.run, Rule.seq]
  | cons part parts ih =>
    rw [Progress.run, Rule.seq_cons_eq_done]
    cases part.run ts with
    | refused why mid => simp
    | done first mid =>
      constructor
      · intro h
        cases hl : Progress.run parts mid with
        | mk later complaint rest' =>
          simp only [hl] at h
          cases h
          exact ⟨first, mid, later, rfl, ih.1 hl, rfl⟩
      · rintro ⟨_, _, later, h, hl, rfl⟩
        cases h
        simp [ih.2 hl]

/-! ## The end of a statement -/

/-- What is missing where a statement has no `;`. -/
def Statement.ending : Statement → String
  | select => "';' at end of query"
  | _ => "';' at end of statement"

theorem Statement.parts_eq_concat (s : Statement) (room : Nat) :
    s.parts room = (s.parts room).dropLast ++ [Rule.delimiter ";" s.ending] := by
  cases s <;> rfl

end Grammar

end SqlScript
