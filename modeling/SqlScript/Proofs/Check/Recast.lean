import SqlScript.Check.Script
import SqlScript.Proofs.Catalog.Respelled
import SqlScript.Proofs.Check.Walk
import SqlScript.Proofs.Tree.Recast

/-!
The checker copies places into its diagnostics and does nothing else with them, and it tells names
and words in upper or lower case only. So a tree of which every place is moved, by any map, and
every text is spelled in another case has the same types and the same findings at the moved places;
names and messages are the same up to that change of spelling.
-/

namespace SqlScript

namespace Check
open SqlScript.Text

/-! ## Findings -/

def Mark.respelled (φ : String → String) (m : Mark) : Mark :=
  { m with symbolRef := m.symbolRef.map φ }

def Findings.recast (ρ : Place → Place) (φ : String → String) (f : Findings) : Findings :=
  ⟨f.marks.map (Mark.respelled φ), f.diagnostics.map (Diagnostic.recast ρ φ)⟩

theorem Findings.recast_id (f : Findings) : f.recast id id = f := by
  have hmark : Mark.respelled id = id := by
    funext m
    rw [Mark.respelled, Option.map_id]
    rfl
  have hdiagnostic : Diagnostic.recast id id = id := rfl
  rw [recast, hmark, hdiagnostic, List.map_id, List.map_id]

variable {ρ : Place → Place} {φ : String → String}

/-- `a` is `b` at the moved places, up to spelling. -/
def Findings.Recasts (ρ : Place → Place) (φ : String → String) (a b : Findings) : Prop :=
  a.recast id φ = b.recast ρ φ

namespace Findings.Recasts

variable {a a' b b' : Findings}

theorem none : Recasts ρ φ .none .none := rfl

theorem append (h : a.Recasts ρ φ b) (h' : a'.Recasts ρ φ b') : (a ++ a').Recasts ρ φ (b ++ b') := by
  have happend (ρ : Place → Place) (f g : Findings) :
      (f ++ g).recast ρ φ = f.recast ρ φ ++ g.recast ρ φ := by
    simp only [recast, marks_append, diagnostics_append, List.map_append]
    rfl
  rw [Recasts, happend, happend, h, h']

theorem mark (dataType : String) {ref ref' : Option String} (h : ref.map φ = ref'.map φ) :
    Recasts ρ φ (.mark dataType ref) (.mark dataType ref') := by
  simp [Recasts, recast, Findings.mark, Mark.respelled, h]

theorem report (place : Place) {message message' : String} (h : φ message = φ message') :
    Recasts ρ φ (.report (ρ place) message) (.report place message') := by
  simp [Recasts, recast, Findings.report, Diagnostic.recast, h]

theorem below (path : Tree.Path) (h : a.Recasts ρ φ b) :
    (a.below path).Recasts ρ φ (b.below path) := by
  have hbelow (ρ : Place → Place) (f : Findings) :
      (f.below path).recast ρ φ = (f.recast ρ φ).below path := by
    simp [recast, Findings.below, Mark.respelled]
  rw [Recasts, hbelow, hbelow, h]

theorem under (i : Nat) (h : a.Recasts ρ φ b) : (a.under i).Recasts ρ φ (b.under i) := h.below [i]

theorem ite (p : Prop) [Decidable p] (h : a.Recasts ρ φ b) (h' : a'.Recasts ρ φ b') :
    (if p then a else a').Recasts ρ φ (if p then b else b') := by
  split
  · exact h
  · exact h'

/-- Findings on parts that are recast one by one. -/
theorem join {α β : Type} {check : α → Findings} {check' : β → Findings} {g : α → β} {l : List α}
    (h : ∀ a ∈ l, (check' (g a)).Recasts ρ φ (check a)) :
    Recasts ρ φ (.join ((l.map g).map check')) (.join (l.map check)) := by
  induction l with
  | nil => exact none
  | cons a l ih =>
    rw [List.forall_mem_cons] at h
    exact append h.1 (ih h.2)

end Findings.Recasts

/-- The types are the same, and the findings but for places and spelling. -/
structure Typing.Recasts (ρ : Place → Place) (φ : String → String) (a b : Typing) : Prop where
  dataType_eq : a.dataType = b.dataType
  findings : a.findings.Recasts ρ φ b.findings

/-! ## Expressions -/

section

variable {f : Tree.Label → Tree.Label} (hf : Tree.Label.Recasting ρ φ f)
include hf

theorem operandFindings_recasts (i : Nat) (children : List Tree) {as bs : List Typing}
    (h : List.Forall₂ (Typing.Recasts ρ φ) as bs) :
    (operandFindings i (children.map (Tree.map f)) as).Recasts ρ φ
      (operandFindings i children bs) := by
  induction h generalizing i children with
  | nil => cases children <;> exact .none
  | cons htyping _ ih =>
    cases children with
    | nil => exact .none
    | cons child children =>
      rw [List.map_cons, operandFindings, operandFindings, Tree.kind_map hf.kind_eq]
      exact .append (.ite _ .none (htyping.findings.under i)) (ih (i + 1) children)

theorem comparisonFindings_recasts {left left' right right' : Typing}
    (hleft : left'.Recasts ρ φ left) (op : Tree) (hright : right'.Recasts ρ φ right) :
    (comparisonFindings left' (op.map f) right').Recasts ρ φ
      (comparisonFindings left op right) := by
  rw [comparisonFindings, comparisonFindings, hleft.dataType_eq, hright.dataType_eq,
    hf.place_map]
  exact .append (.append (hleft.findings.under 0) (hright.findings.under 2))
    (.ite _ .none (.report op.place rfl))

theorem conditionFindings_recasts {l : Tree.Label} (hl : l.kind = .condition) (children : List Tree)
    {as bs : List Typing} (h : List.Forall₂ (Typing.Recasts ρ φ) as bs) :
    (conditionFindings (f l) (children.map (Tree.map f)) as).Recasts ρ φ
      (conditionFindings l children bs) := by
  have hoperands := operandFindings_recasts hf 0 children h
  have htext : (f l).text = l.text := hf.condition_eq hl
  rcases children with _ | ⟨_, _ | ⟨op, _ | ⟨_, _ | _⟩⟩⟩ <;> try exact hoperands
  rcases h with _ | ⟨hleft, _ | ⟨_, _ | ⟨hright, _ | _⟩⟩⟩ <;> try exact hoperands
  simp only [List.map_cons, List.map_nil, conditionFindings, htext]
  exact .ite _ (comparisonFindings_recasts hf hleft op hright) hoperands

omit hf in
theorem literalTyping_recasts (hφ : CaseBlind φ) (kind : Tree.Kind) (text : String) :
    Typing.Recasts ρ φ ⟨literalType kind (φ text), .mark (literalType kind (φ text)) none⟩
      ⟨literalType kind text, .mark (literalType kind text) none⟩ := by
  have htype : literalType kind (φ text) = literalType kind text := by
    cases kind <;> try rfl
    case number => rw [literalType, literalType, DataType.ofNumber, DataType.ofNumber, hφ.point_eq]
    case keyword => rw [literalType, literalType, hφ.upper_eq]
  rw [htype]
  exact ⟨rfl, .mark _ rfl⟩

theorem columnTyping_recasts (hφ : CaseBlind φ) (table : Table) {l : Tree.Label}
    (hl : l.kind = .identifier) :
    (columnTyping (table.respelled φ) (f l)).Recasts ρ φ (columnTyping table l) := by
  have htext : (f l).text = φ l.text := hf.text_eq (by simp [hl]) (by simp [hl])
  rw [columnTyping, columnTyping, htext, hf.place_eq, Table.column?_respelled hφ]
  cases table.column? l.text with
  | none =>
    have hmessage : φ (missingColumn (table.respelled φ) (φ l.text)) =
        φ (missingColumn table l.text) := by
      unfold missingColumn Table.respelled
      simp only [hφ.append_eq, hφ.idempotent]
    exact ⟨rfl, .append (.mark _ rfl) (.report l.place hmessage)⟩
  | some c =>
    refine ⟨rfl, .mark _ ?_⟩
    simp [Table.respelled, Column.respelled, hφ.append_eq, hφ.idempotent]

end

section

variable {f : Tree.Label → Tree.Label}

mutual

theorem expression_recasts (hf : Tree.Label.Recasting ρ φ f) (hφ : CaseBlind φ) (table : Table) :
    (t : Tree) → (expression (table.respelled φ) (t.map f)).Recasts ρ φ (expression table t)
  | .node l cs => by
    have h := expressions_recasts hf hφ table cs
    rw [Tree.map, Tree.mapAll_eq_map, expression, expression, hf.kind_eq]
    cases hk : l.kind
    case identifier => exact columnTyping_recasts hf hφ table hk
    case condition => exact ⟨rfl, .append (.mark _ rfl) (conditionFindings_recasts hf hk cs h)⟩
    case error => exact ⟨rfl, .mark _ rfl⟩
    -- all other kinds are leaves, whose types hang on their texts
    all_goals
      rw [hf.text_eq (by simp [hk]) (by simp [hk])]
      exact literalTyping_recasts hφ _ l.text

theorem expressions_recasts (hf : Tree.Label.Recasting ρ φ f) (hφ : CaseBlind φ) (table : Table) :
    (ts : List Tree) → List.Forall₂ (Typing.Recasts ρ φ)
      (expressions (table.respelled φ) (ts.map (Tree.map f))) (expressions table ts)
  | [] => .nil
  | t :: ts => .cons (expression_recasts hf hφ table t) (expressions_recasts hf hφ table ts)

end

end

/-! ## Parts of statements -/

section

variable {f : Tree.Label → Tree.Label} (hf : Tree.Label.Recasting ρ φ f) (hφ : CaseBlind φ)
  (table : Table)
include hf hφ

theorem columnNames_recasts (kind : Tree.Kind) (t : Tree) :
    (columnNames (table.respelled φ) kind (t.map f)).Recasts ρ φ
      (columnNames table kind t) := by
  rw [columnNames, columnNames, Tree.find?_map hf.kind_eq]
  cases t.find? kind with
  | none => exact .none
  | some found =>
    obtain ⟨i, list⟩ := found
    simp only [Option.map_some, Prod.map, id, Tree.findAll_map hf.kind_eq]
    refine .under i (.join ?_)
    intro x hx
    have hkind : x.2.label.kind = .identifier := (Tree.mem_of_mem_findAll hx).2
    rw [Prod.map, Tree.label_map]
    exact (columnTyping_recasts hf hφ table (by simp [hkind])).findings.under x.1

theorem whereFindings_recasts (t : Tree) :
    (whereFindings (table.respelled φ) (t.map f)).Recasts ρ φ (whereFindings table t) := by
  rw [whereFindings, whereFindings, Tree.find?_map hf.kind_eq]
  simp only [infer_eq_expression]
  cases t.find? .whereClause with
  | none => exact .none
  | some found =>
    obtain ⟨i, clause⟩ := found
    simp only [Option.map_some, Prod.map, id, Tree.children_map, List.zipIdx_map,
      ← List.map_drop]
    exact .under i (.join fun x _ => (expression_recasts hf hφ table x.1).findings.under x.2)

theorem valueFindings_recasts (value : Tree) (column : Column) :
    (valueFindings (table.respelled φ) (value.map f) (column.respelled φ)).Recasts ρ φ
      (valueFindings table value column) := by
  have hmismatch (found : String) : φ (insertMismatch (column.respelled φ) found) =
      φ (insertMismatch column found) := by
    unfold insertMismatch Column.respelled
    simp only [hφ.append_eq, hφ.idempotent]
  rw [valueFindings, valueFindings, Tree.kind_map hf.kind_eq, hf.place_map]
  by_cases hk : value.kind = .identifier
  · have hbare : φ (bareText (φ value.text) (column.respelled φ)) =
        φ (bareText value.text column) := by
      unfold bareText Column.respelled
      simp only [hφ.append_eq, hφ.idempotent]
    rw [if_pos hk, if_pos hk, hf.text_map (by simp [hk]) (by simp [hk])]
    refine .append (.mark _ rfl) (.report value.place ?_)
    change φ (if column.dataType = DataType.text then _ else _) = φ (if _ then _ else _)
    split
    · exact hbare
    · exact hmismatch DataType.identifier
  · have htyping := expression_recasts hf hφ table value
    rw [if_neg hk, if_neg hk]
    simp only [infer_eq_expression, htyping.dataType_eq]
    exact .append htyping.findings (.ite _ .none (.report value.place (hmismatch _)))

theorem assignmentFindings_recasts (t : Tree) :
    (assignmentFindings (table.respelled φ) (t.map f)).Recasts ρ φ
      (assignmentFindings table t) := by
  simp only [assignmentFindings, infer_eq_expression, Tree.children_map, List.head?_map,
    List.getLast?_map, List.length_map]
  cases t.children.head? with
  | none => exact .none
  | some name =>
    simp only [Option.map_some, Tree.kind_map hf.kind_eq]
    by_cases hk : name.kind = .identifier
    · have htarget : Typing.Recasts ρ φ
          (columnTyping (table.respelled φ) (name.map f).label)
          (columnTyping table name.label) := by
        rw [Tree.label_map]
        exact columnTyping_recasts hf hφ table hk
      rw [if_neg (not_not.2 hk), if_neg (not_not.2 hk), hf.text_map (by simp [hk]) (by simp [hk]),
        Table.hasColumn_respelled hφ]
      refine .ite _ (htarget.findings.under 0) ?_
      cases t.children.getLast? with
      | none => exact htarget.findings.under 0
      | some value =>
        have hvalue := expression_recasts hf hφ table value
        have hmessage (expected found : String) : φ (updateMismatch (φ name.text) expected found) =
            φ (updateMismatch name.text expected found) := by
          unfold updateMismatch
          simp only [hφ.append_eq, hφ.idempotent]
        simp only [Option.map_some, htarget.dataType_eq, hvalue.dataType_eq, hf.place_map]
        exact .append (.append (htarget.findings.under 0) (hvalue.findings.under _))
          (.ite _ .none (.report value.place (hmessage _ _)))
    · rw [if_pos hk, if_pos hk]
      exact .none

/-! ## Statements -/

theorem select_recasts (t : Tree) :
    (select (table.respelled φ) (t.map f)).Recasts ρ φ (select table t) :=
  .append (.append (columnNames_recasts hf hφ table _ t) (whereFindings_recasts hf hφ table t))
    (columnNames_recasts hf hφ table _ t)

theorem delete_recasts (t : Tree) :
    (delete (table.respelled φ) (t.map f)).Recasts ρ φ (delete table t) :=
  whereFindings_recasts hf hφ table t

theorem update_recasts (t : Tree) :
    (update (table.respelled φ) (t.map f)).Recasts ρ φ (update table t) := by
  rw [update, update, Tree.find?_map hf.kind_eq]
  refine .append ?_ (whereFindings_recasts hf hφ table t)
  cases t.find? .assignmentList with
  | none => exact .none
  | some found =>
    obtain ⟨i, list⟩ := found
    simp only [Option.map_some, Prod.map, id, Tree.findAll_map hf.kind_eq]
    exact .under i (.join fun x _ => (assignmentFindings_recasts hf hφ table x.2).under x.1)

theorem insert_recasts (name t : Tree) :
    (insert (table.respelled φ) (name.map f) (t.map f)).Recasts ρ φ
      (insert table name t) := by
  rw [insert, insert, Tree.find?_map hf.kind_eq]
  cases t.find? .valueList with
  | none => exact .none
  | some found =>
    obtain ⟨i, list⟩ := found
    have hvalues : insertedValues (list.map f) =
        (insertedValues list).map (Prod.map (Tree.map f) id) := by
      rw [insertedValues, insertedValues, Tree.children_map, List.zipIdx_map, List.filter_map]
      simp [Function.comp_def, Tree.kind_map hf.kind_eq]
    have hcolumns : (table.respelled φ).columns = table.columns.map (Column.respelled φ) := rfl
    have hmessage (count : Nat) : φ (wrongCount (table.respelled φ) count) =
        φ (wrongCount table count) := by
      unfold wrongCount
      simp only [Table.respelled, hφ.append_eq, hφ.idempotent, List.length_map]
    simp only [Option.map_some, Prod.map, id, hvalues, hcolumns, List.length_map, hf.place_map,
      List.zip_map]
    exact .ite _ (.report name.place (hmessage _))
      (.under i (.join fun x _ => (valueFindings_recasts hf hφ table x.1.1 x.2).under x.1.2))

omit table in
theorem withTable_recasts (catalog : Catalog) (t : Tree) {check check' : Table → Tree → Findings}
    (h : ∀ table name, (check' (table.respelled φ) (name.map f)).Recasts ρ φ
      (check table name)) :
    (withTable (catalog.respelled φ) (t.map f) check').Recasts ρ φ
      (withTable catalog t check) := by
  rw [withTable, withTable, Tree.find?_map hf.kind_eq]
  cases hfind : t.find? .identifier with
  | none => exact .none
  | some found =>
    obtain ⟨i, name⟩ := found
    have hkind : name.kind = .identifier := (Tree.mem_of_find? hfind).2
    have htext : (name.map f).text = φ name.text := hf.text_map (by simp [hkind]) (by simp [hkind])
    simp only [Option.map_some, Prod.map, id, htext, Catalog.table?_respelled hφ]
    cases catalog.table? name.text with
    | none =>
      rw [Option.map_none, hf.place_map]
      refine .append (.under i (.mark _ rfl)) (.report name.place ?_)
      simp only [hφ.append_eq, hφ.idempotent]
    | some table =>
      have hname : φ (φ table.name) = φ table.name := hφ.idempotent table.name
      exact .append (.under i (.mark _ (congrArg some hname))) (h table name)

omit table in
theorem statement_recasts (catalog : Catalog) (t : Tree) :
    (statement (catalog.respelled φ) (t.map f)).Recasts ρ φ (statement catalog t) := by
  rw [statement, statement, Tree.kind_map hf.kind_eq]
  cases t.kind <;> try exact .none
  case selectStatement =>
    exact withTable_recasts hf hφ catalog t fun table _ => select_recasts hf hφ table t
  case insertStatement =>
    exact withTable_recasts hf hφ catalog t fun table name => insert_recasts hf hφ table name t
  case updateStatement =>
    exact withTable_recasts hf hφ catalog t fun table _ => update_recasts hf hφ table t
  case deleteStatement =>
    exact withTable_recasts hf hφ catalog t fun table _ => delete_recasts hf hφ table t

end

/-! ## CREATE -/

/-- The columns are those of the other fields, with their names respelled. -/
structure Fields.Recasts (ρ : Place → Place) (φ : String → String) (a b : Fields) : Prop where
  columns_eq : a.columns = b.columns.map (Column.respelled φ)
  findings : a.findings.Recasts ρ φ b.findings

section

variable {f : Tree.Label → Tree.Label} (hf : Tree.Label.Recasting ρ φ f) (hφ : CaseBlind φ)
include hf hφ

theorem fields_recasts (table : String) (seen : List String)
    (ds : List (Nat × Tree)) :
    (fields (φ table) seen (ds.map (Prod.map id (Tree.map f)))).Recasts ρ φ
      (fields table seen ds) := by
  induction ds generalizing seen with
  | nil => exact ⟨rfl, .none⟩
  | cons d ds ih =>
    obtain ⟨i, field⟩ := d
    rw [List.map_cons, Prod.map, id, fields, fields, Tree.find?_map hf.kind_eq,
      Tree.find?_map hf.kind_eq]
    cases hname : field.find? .identifier with
    | none => exact ih seen
    | some name =>
      cases htype : field.find? .type with
      | none => exact ih seen
      | some type =>
        obtain ⟨j, name⟩ := name
        obtain ⟨k, type⟩ := type
        have hnamed : (name.map f).text = φ name.text :=
          hf.text_map_of_find? hname (by decide) (by decide)
        have htyped : (type.map f).text = φ type.text :=
          hf.text_map_of_find? htype (by decide) (by decide)
        have hinvalid : φ (invalidType (φ table) (φ type.text)) =
            φ (invalidType table type.text) := by
          unfold invalidType
          simp only [hφ.append_eq, hφ.idempotent]
        have hrepeated : φ (Table.repeatedMessage (φ table) (φ name.text)) =
            φ (Table.repeatedMessage table name.text) := by
          unfold Table.repeatedMessage
          simp only [hφ.append_eq, hφ.idempotent]
        have href : φ (φ table ++ "." ++ φ name.text) = φ (table ++ "." ++ name.text) := by
          simp only [hφ.append_eq, hφ.idempotent]
        simp only [Option.map_some, Prod.map, id, hnamed, htyped, hφ.upper_eq, hφ.lower_eq,
          hf.place_map]
        split
        · exact ⟨(ih seen).columns_eq, .append (.report type.place hinvalid) (ih seen).findings⟩
        · split
          · exact ⟨(ih seen).columns_eq, .append (.report name.place hrepeated) (ih seen).findings⟩
          · have hlater := ih (lower name.text :: seen)
            refine ⟨congrArg (_ :: ·) hlater.columns_eq, .append (.under i ?_) hlater.findings⟩
            exact .append (.under j (.mark _ (congrArg some href))) (.under k (.mark _ rfl))

/-- The catalog is the other one respelled, and the findings are recast. -/
def Recasts (ρ : Place → Place) (φ : String → String) (a b : Catalog × Findings) : Prop :=
  a.1 = b.1.respelled φ ∧ a.2.Recasts ρ φ b.2

theorem create_recasts (catalog : Catalog) (t : Tree) :
    Recasts ρ φ (create (catalog.respelled φ) (t.map f)) (create catalog t) := by
  rw [create, create, Tree.find?_map hf.kind_eq]
  cases hfind : t.find? .identifier with
  | none =>
    rw [Option.map_none, hf.place_map]
    exact ⟨rfl, .report t.place rfl⟩
  | some found =>
    obtain ⟨i, name⟩ := found
    have htext : (name.map f).text = φ name.text :=
      hf.text_map_of_find? hfind (by decide) (by decide)
    have hnamed : Findings.Recasts ρ φ (.under i (.mark DataType.table (some (φ name.text))))
        (.under i (.mark DataType.table (some name.text))) :=
      .under i (.mark _ (congrArg some (hφ.idempotent name.text)))
    simp only [Option.map_some, Prod.map, id, htext, Catalog.hasTable_respelled hφ,
      hf.place_map]
    split
    · refine ⟨rfl, .append hnamed (.report name.place ?_)⟩
      simp only [hφ.append_eq, hφ.idempotent]
    · rw [Tree.find?_map hf.kind_eq]
      cases t.find? .fieldList with
      | none =>
        refine ⟨rfl, .append hnamed (.report name.place ?_)⟩
        simp only [hφ.append_eq, hφ.idempotent]
      | some list =>
        obtain ⟨j, list⟩ := list
        have hfields := fields_recasts hf hφ name.text [] (list.findAll .fieldDefinition)
        simp only [Option.map_some, Prod.map, id, Tree.findAll_map hf.kind_eq]
        refine ⟨?_, .append hnamed (.under j hfields.findings)⟩
        rw [hfields.columns_eq, List.isEmpty_map]
        split
        · rfl
        · exact Catalog.insert_respelled hφ catalog ⟨name.text, _⟩

/-! ## Scripts -/

theorem register_recasts (catalog : Catalog) (ls : List (Tree.Path × Tree)) :
    Recasts ρ φ (register (catalog.respelled φ) (ls.map (Prod.map id (Tree.map f))))
      (register catalog ls) := by
  induction ls generalizing catalog with
  | nil => exact ⟨rfl, .none⟩
  | cons x ls ih =>
    obtain ⟨path, s⟩ := x
    have hown := create_recasts hf hφ catalog s
    have hlater := ih (create catalog s).1
    rw [← hown.1] at hlater
    exact ⟨hlater.1, .append (hown.2.below path) hlater.2⟩

theorem findings_recasts (t : Tree) :
    catalog (t.map f) = (catalog t).respelled φ ∧
      (findings (t.map f)).Recasts ρ φ (findings t) := by
  have hcreated : Recasts ρ φ (created (t.map f)) (created t) := by
    rw [created, Tree.locate_map hf.kind_eq]
    exact register_recasts hf hφ .empty _
  have hcatalog : catalog (t.map f) = (catalog t).respelled φ := hcreated.1
  refine ⟨hcatalog, .append hcreated.2 ?_⟩
  rw [hcatalog, queried, Tree.locate_map hf.kind_eq]
  exact .join fun x _ => (statement_recasts hf hφ (catalog t) x.2).below x.1

end

/-! ### Nothing that is looked at

A map that keeps kinds, places and the texts of all nodes but errors changes nothing in what is
found: old annotations are not looked at. -/

theorem Findings.Recasts.eq {a b : Findings} (h : a.Recasts id id b) : a = b := by
  rwa [Recasts, recast_id, recast_id] at h

section

variable {f : Tree.Label → Tree.Label} (hf : Tree.Label.Recasting id id f)
include hf

theorem create_map (catalog : Catalog) (t : Tree) :
    create catalog (t.map f) = create catalog t := by
  obtain ⟨hcatalog, hfindings⟩ := create_recasts hf CaseBlind.id catalog t
  simp only [Catalog.respelled_id] at hcatalog hfindings
  exact Prod.ext hcatalog hfindings.eq

theorem statement_map (catalog : Catalog) (t : Tree) :
    statement catalog (t.map f) = statement catalog t := by
  have hfindings := statement_recasts hf CaseBlind.id catalog t
  rw [Catalog.respelled_id] at hfindings
  exact hfindings.eq

theorem findings_map (t : Tree) :
    catalog (t.map f) = catalog t ∧ findings (t.map f) = findings t := by
  obtain ⟨hcatalog, hfindings⟩ := findings_recasts hf CaseBlind.id t
  rw [Catalog.respelled_id] at hcatalog
  exact ⟨hcatalog, hfindings.eq⟩

end

/-! ### Annotated trees -/

theorem annotate_recast (marks : List Mark) (t : Tree) :
    (annotate marks t).recast ρ φ = annotate (marks.map (Mark.respelled φ)) (t.recast ρ φ) := by
  induction marks generalizing t with
  | nil => rfl
  | cons m marks ih =>
    have hlabel (l : Tree.Label) : (l.recast ρ φ).annotate (some m.dataType) (m.symbolRef.map φ) =
        (l.annotate (some m.dataType) m.symbolRef).recast ρ φ := by
      cases hm : m.symbolRef <;> simp [Tree.Label.annotate, Tree.Label.recast]
    have hwrite : (m.respelled φ).write (t.recast ρ φ) = (m.write t).recast ρ φ :=
      Tree.update_map hlabel m.path t
    rw [List.map_cons, annotate, List.foldl_cons, annotate, List.foldl_cons, hwrite]
    exact ih (m.write t)

def Analysis.recast (ρ : Place → Place) (φ : String → String) (a : Analysis) : Analysis :=
  ⟨a.tree.recast ρ φ, a.catalog.respelled φ, a.diagnostics.map (Diagnostic.recast ρ φ)⟩

/-- The analysis of a recast tree is the recast analysis, up to spelling. -/
theorem analyze_recast (hφ : CaseBlind φ) (t : Tree) :
    (analyze (t.recast ρ φ)).recast id φ = (analyze t).recast ρ φ := by
  obtain ⟨hcatalog, hfindings⟩ := findings_recasts (Tree.Label.recasting_recast ρ φ) hφ t
  rw [← Tree.recast] at hcatalog hfindings
  obtain ⟨hmarks, hdiagnostics⟩ := Findings.mk.inj hfindings
  rw [analyze, analyze, Analysis.recast, Analysis.recast, annotate_recast, annotate_recast,
    Tree.recast_recast ρ t hφ.idempotent, hmarks, hcatalog,
    Catalog.respelled_respelled hφ.idempotent, hdiagnostics]

/-- Only the diagnostics have places. -/
theorem analyze_moved (ρ : Place → Place) (t : Tree) :
    analyze (t.moved ρ) = ⟨(analyze t).tree.moved ρ, (analyze t).catalog,
      (analyze t).diagnostics.map (Diagnostic.moved ρ)⟩ := by
  have hrecast (ρ : Place → Place) (a : Analysis) : a.recast ρ id =
      ⟨a.tree.moved ρ, a.catalog, a.diagnostics.map (Diagnostic.moved ρ)⟩ := by
    rw [Analysis.recast, Tree.recast_id, Catalog.respelled_id]
    rfl
  have hstay (a : Analysis) : a.recast id id = a := by
    have hdiagnostic : Diagnostic.moved id = id := rfl
    rw [hrecast, Tree.moved_id, hdiagnostic, List.map_id]
  rw [← Tree.recast_id, ← hrecast, ← analyze_recast CaseBlind.id, hstay]

end Check

end SqlScript
