import SqlScript.Proofs.Grammar.Reach

/-!
Inside a statement only plain tokens are taken: none of its rules steps over a word that opens a
statement or over a `;`, except for the `;` at its end.
-/

namespace SqlScript.Grammar
open SqlScript.Text

theorem isOpener_of_kind_ne {t : Token} (h : t.kind ≠ .keyword) :
    Statement.isOpener t = false := by
  simp [Statement.isOpener, h]

theorem isOpener_of_isDelimiter {t : Token} {mark : String} (h : t.isDelimiter mark = true) :
    Statement.isOpener t = false := by
  apply isOpener_of_kind_ne
  rw [Phrase.Mark.kind ⟨t, h⟩]
  decide

/-- A token that neither opens nor ends a statement. -/
def Plain (t : Token) : Prop := Statement.isOpener t = false ∧ t.isDelimiter ";" = false

namespace Plain

variable {t : Token}

theorem of_kind (hk : t.kind ≠ .keyword) (hd : t.kind ≠ .delimiter) : Plain t :=
  ⟨isOpener_of_kind_ne hk, Phrase.isDelimiter_of_kind_ne hd⟩

theorem of_delimiter {mark : String} (hm : mark ≠ ";") (h : t.isDelimiter mark = true) :
    Plain t := by
  refine ⟨isOpener_of_isDelimiter h, ?_⟩
  rw [Phrase.Mark.isDelimiter ⟨t, h⟩]
  simpa using hm

theorem of_keyword {word : String} (hw : word ∉ Statement.all.map Statement.word)
    (h : t.isKeyword word = true) : Plain t := by
  refine ⟨?_, ?_⟩
  · have hs : ∀ s ∈ Statement.all, ¬ t.isKeyword s.word = true := by
      intro s hs hk
      rw [Phrase.Keyword.isKeyword ⟨t, h⟩, beq_iff_eq] at hk
      exact hw (hk ▸ List.mem_map_of_mem hs)
    exact Statement.isOpener_of_none (List.find?_eq_none.2 hs)
  · apply Phrase.isDelimiter_of_kind_ne
    rw [Phrase.Keyword.kind ⟨t, h⟩]
    decide

theorem of_relational (h : isRelational t = true) : Plain t := by
  rcases Bool.or_eq_true_iff.1 h with h | h
  · have hk : t.kind = .operator := by simpa using (Bool.and_eq_true_iff.1 h).1
    exact of_kind (by simp [hk]) (by simp [hk])
  · exact of_keyword (by decide) h

theorem of_direction (h : isDirection t = true) : Plain t := by
  rcases Bool.or_eq_true_iff.1 h with h | h
  · exact of_keyword (by decide) h
  · exact of_keyword (by decide) h

theorem of_identifier (h : (t.kind == .identifier) = true) : Plain t := by
  have hk : t.kind = .identifier := by simpa using h
  exact of_kind (by simp [hk]) (by simp [hk])

theorem of_operator {sign : String} (h : t.isOperator sign = true) : Plain t := by
  have hk : t.kind = .operator := Phrase.Sign.kind ⟨t, h⟩
  exact of_kind (by simp [hk]) (by simp [hk])

theorem of_typeName (h : isTypeName t = true) : Plain t := by
  rcases Bool.or_eq_true_iff.1 h with h | h
  · obtain ⟨hk, hc⟩ := Bool.and_eq_true_iff.1 h
    have hkey : t.isKeyword (upper t.lexeme) = true := by simpa [Token.isKeyword] using hk
    have hword : upper t.lexeme ∈ DataType.columnTypes := by
      simpa [DataType.isColumnType] using hc
    have hnone : ∀ word ∈ DataType.columnTypes, word ∉ Statement.all.map Statement.word := by
      decide
    exact of_keyword (hnone _ hword) hkey
  · exact of_identifier h

theorem of_termLeaf {leaf : Tree} (h : termLeaf? t = some leaf) : Plain t := by
  obtain ⟨kind, hk, -⟩ := Option.map_eq_some_iff.1 h
  unfold termKind? at hk
  split at hk
  · exact of_identifier (by simp_all)
  · exact of_kind (by simp_all) (by simp_all)
  · exact of_kind (by simp_all) (by simp_all)
  · split at hk
    · rename_i hw
      exact of_keyword (by decide) hw
    · split at hk
      · rename_i hw
        rcases Bool.or_eq_true_iff.1 hw with hw | hw
        · exact of_keyword (by decide) hw
        · exact of_keyword (by decide) hw
      · cases hk
  · cases hk

end Plain

/-! ## Expressions -/

theorem termOver_plain {inner : Unit → Rule Tree} (h : ∀ u, (inner u).Takes Plain) :
    (termOver inner).Takes Plain := by
  have htake : (Rule.take? termLeaf?).Takes Plain := fun ts =>
    .take? fun t _ leaf => Plain.of_termLeaf
  refine htake.bind ?_
  intro o
  cases o with
  | some leaf => exact fun ts => .pure leaf
  | none =>
    exact (Rule.Takes.expect (fun t => Plain.of_delimiter (by decide)) _).bind fun _ =>
      (h ()).bind fun _ =>
        (Rule.Takes.expect (fun t => Plain.of_delimiter (by decide)) _).bind fun _ _ => .pure _

theorem comparisonOver_plain {inner : Unit → Rule Tree} (h : ∀ u, (inner u).Takes Plain) :
    (comparisonOver inner).Takes Plain := by
  have haccept : (Rule.accept isRelational).Takes Plain := fun ts =>
    .accept fun t _ => Plain.of_relational
  refine (termOver_plain h).bind ?_
  intro left
  refine haccept.bind ?_
  intro o
  cases o with
  | some op => exact (termOver_plain h).bind fun _ _ => .pure _
  | none => exact fun ts => .pure left

theorem conditionOver_plain {r : Rule Tree} (h : r.Takes Plain) : (conditionOver r).Takes Plain :=
  .joined (fun _ => Plain.of_keyword (by decide)) <|
    .joined (fun _ => Plain.of_keyword (by decide)) h

theorem negationOver_plain {deeper : Unit → Rule Tree} (h : ∀ u, (deeper u).Takes Plain) :
    (negationOver deeper).Takes Plain := by
  have haccept : (Rule.accept (·.isKeyword "NOT")).Takes Plain := fun ts =>
    .accept fun t _ => Plain.of_keyword (by decide)
  refine haccept.bind ?_
  intro o
  cases o with
  | some op => exact (h ()).bind fun _ _ => .pure _
  | none => exact comparisonOver_plain fun _ => conditionOver_plain (h ())

theorem negation_plain (room : Nat) : (negation room).Takes Plain := by
  induction room with
  | zero => exact negationOver_plain fun _ _ => .refuse _
  | succ room ih => exact negationOver_plain fun _ => ih

theorem deeperNegation_plain (room : Nat) : (deeperNegation room).Takes Plain := by
  cases room with
  | zero => exact fun ts => .refuse _
  | succ room => exact negation_plain room

theorem condition_plain (room : Nat) : (condition room).Takes Plain :=
  conditionOver_plain (negation_plain room)

theorem term_plain (room : Nat) : (term room).Takes Plain :=
  termOver_plain fun _ => conditionOver_plain (deeperNegation_plain room)

/-! ## Clauses -/

theorem keyword_plain {word : String} (hw : word ∉ Statement.all.map Statement.word)
    (what : String) : (Rule.keyword word what).Takes Plain :=
  .leaf _ (fun _ => Plain.of_keyword hw) what

theorem identifier_plain (what : String) : (Rule.identifier what).Takes Plain :=
  .leaf _ (fun _ => Plain.of_identifier) what

theorem delimiter_plain {mark : String} (hm : mark ≠ ";") (what : String) :
    (Rule.delimiter mark what).Takes Plain :=
  .leaf _ (fun _ => Plain.of_delimiter hm) what

theorem commaList_plain {item : Rule Tree} (h : item.Takes Plain) :
    (Rule.commaList item).Takes Plain :=
  .commaList (fun _ => Plain.of_delimiter (by decide)) h

theorem fieldDefinition_plain : fieldDefinition.Takes Plain := by
  have hkey : primaryKey.Takes Plain :=
    .optional_seq (fun _ => Plain.of_keyword (by decide)) <|
      .seq_cons (keyword_plain (by decide) _) .seq_nil
  exact .node _ <| .seq_cons (identifier_plain _) <|
    .seq_cons (.leaf _ (fun _ => Plain.of_typeName) _) <| .seq_cons hkey .seq_nil

theorem selectList_plain : selectList.Takes Plain := by
  have haccept : (Rule.accept (·.isOperator "*")).Takes Plain := fun ts =>
    .accept fun t _ => Plain.of_operator
  have hname : columnName.Takes Plain :=
    (Rule.Takes.expect (fun _ => Plain.of_identifier) _).bind fun _ _ => .pure _
  refine .node _ (haccept.bind ?_)
  intro o
  cases o with
  | some star => exact fun ts => .pure _
  | none => exact commaList_plain hname

theorem assignment_plain (room : Nat) : (assignment room).Takes Plain :=
  .node _ <| .seq_cons (identifier_plain _) <|
    .seq_cons (.leaf _ (fun _ => Plain.of_operator) _) <| .seq_cons (term_plain room).one .seq_nil

theorem optionalWhere_plain (room : Nat) : (optionalWhere room).Takes Plain :=
  .optional_node (fun _ => Plain.of_keyword (by decide)) _ <|
    .seq_cons (condition_plain room).one .seq_nil

theorem optionalOrder_plain : optionalOrder.Takes Plain :=
  .optional_node (fun _ => Plain.of_keyword (by decide)) _ <|
    .seq_cons (keyword_plain (by decide) _) <| .seq_cons (identifier_plain _) <|
      .seq_cons (.optional_opening fun _ => Plain.of_direction) .seq_nil

/-! ## Statements -/

/-- Everything up to the `;` at the end of a statement is plain. -/
theorem Statement.parts_plain (s : Statement) (room : Nat) :
    ∀ part ∈ (s.parts room).dropLast, part.Takes Plain := by
  cases s <;>
    simp only [Statement.parts, List.dropLast_cons_cons, List.dropLast_singleton,
      List.forall_mem_cons, List.not_mem_nil, false_implies, implies_true, and_true]
  case create =>
    exact ⟨keyword_plain (by decide) _, identifier_plain _, delimiter_plain (by decide) _,
      (commaList_plain fieldDefinition_plain).node _ |>.one, delimiter_plain (by decide) _⟩
  case select =>
    exact ⟨selectList_plain.one, keyword_plain (by decide) _, identifier_plain _,
      optionalWhere_plain room, optionalOrder_plain⟩
  case insert =>
    exact ⟨keyword_plain (by decide) _, identifier_plain _, keyword_plain (by decide) _,
      delimiter_plain (by decide) _, (commaList_plain (term_plain room)).node _ |>.one,
      delimiter_plain (by decide) _⟩
  case update =>
    exact ⟨identifier_plain _, keyword_plain (by decide) _,
      (commaList_plain (assignment_plain room)).node _ |>.one, optionalWhere_plain room⟩
  case delete =>
    exact ⟨keyword_plain (by decide) _, identifier_plain _, optionalWhere_plain room⟩

end SqlScript.Grammar
