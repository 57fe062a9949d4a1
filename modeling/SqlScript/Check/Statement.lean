import SqlScript.Check.Walk

/-!
Checks of one statement. CREATE adds its table to the catalog; the others are checked against the
catalog of the whole script.
-/

namespace SqlScript.Check
open SqlScript.Text

/-! ## CREATE -/

def supportedTypes : String := ", ".intercalate DataType.columnTypes

def invalidType (table type : String) : String :=
  "Invalid data type '" ++ type ++ "' in table '" ++ table ++ "'. Supported types: " ++
    supportedTypes

/-- The columns of a table that are kept, and what was found in their definitions. -/
structure Fields where
  columns : List Column
  findings : Findings

/-- Fields with their numbers. A field without name or type is passed over; one whose type is not
known, or whose name is in `seen`, is reported and dropped. -/
def fields (table : String) (seen : List String) : List (Nat × Tree) → Fields
  | [] => ⟨[], .none⟩
  | (i, field) :: more =>
    match field.find? .identifier, field.find? .type with
    | some (j, name), some (k, type) =>
      let dataType := upper type.text
      if !DataType.isColumnType dataType then
        let later := fields table seen more
        { later with findings := .report type.place (invalidType table type.text) ++ later.findings }
      else if seen.contains (lower name.text) then
        let later := fields table seen more
        { later with
          findings := .report name.place (Table.repeatedMessage table name.text) ++ later.findings }
      else
        let later := fields table (lower name.text :: seen) more
        let own :=
          Findings.under j (.mark dataType (some (table ++ "." ++ name.text))) ++
            Findings.under k (.mark DataType.type none)
        ⟨⟨name.text, dataType⟩ :: later.columns, own.under i ++ later.findings⟩
    | _, _ => fields table seen more

/-- Adds the table of a CREATE statement, if it has a new name and a column. -/
def create (catalog : Catalog) (t : Tree) : Catalog × Findings :=
  match t.find? .identifier with
  | none => (catalog, .report t.place "CREATE TABLE missing table name")
  | some (i, name) =>
    let named := Findings.under i (.mark DataType.table (some name.text))
    if catalog.hasTable name.text then
      (catalog, named ++ .report name.place ("Table '" ++ name.text ++ "' already exists"))
    else
      match t.find? .fieldList with
      | none =>
        (catalog,
          named ++ .report name.place ("CREATE TABLE '" ++ name.text ++ "' missing field list"))
      | some (j, list) =>
        let fs := fields name.text [] (list.findAll .fieldDefinition)
        (if fs.columns.isEmpty then catalog else catalog.insert ⟨name.text, fs.columns⟩,
          named ++ fs.findings.under j)

/-! ## Parts of the other statements -/

/-- Names that have to be columns, in the first child of a kind. -/
def columnNames (table : Table) (kind : Tree.Kind) (t : Tree) : Findings :=
  match t.find? kind with
  | none => .none
  | some (i, list) =>
    Findings.under i <| .join <|
      (list.findAll .identifier).map fun (j, name) => (columnTyping table name.label).findings.under j

/-- The condition of a statement; the first child of its clause is the word WHERE. -/
def whereFindings (table : Table) (t : Tree) : Findings :=
  match t.find? .whereClause with
  | none => .none
  | some (i, clause) =>
    Findings.under i <| .join <|
      (clause.children.zipIdx.drop 1).map fun (child, j) => (infer table child).findings.under j

def insertMismatch (column : Column) (found : String) : String :=
  "Type mismatch in INSERT. Column '" ++ column.name ++ "' expects " ++ column.dataType ++
    " but got " ++ found

def updateMismatch (name expected found : String) : String :=
  "Type mismatch in UPDATE. Column '" ++ name ++ "' expects " ++ expected ++ " but got " ++ found

def bareText (value : String) (column : Column) : String :=
  "Invalid value '" ++ value ++ "' for column '" ++ column.name ++
    "'. String literals must be enclosed in single quotes."

/-- A value for a column. A bare word is no value: it never names a column here. -/
def valueFindings (table : Table) (value : Tree) (column : Column) : Findings :=
  if value.kind = .identifier then
    .mark DataType.unknown none ++ .report value.place
      (if column.dataType = DataType.text then bareText value.text column
        else insertMismatch column DataType.identifier)
  else
    let typing := infer table value
    typing.findings ++
      if DataType.compatible column.dataType typing.dataType then .none
      else .report value.place (insertMismatch column typing.dataType)

def wrongCount (table : Table) (count : Nat) : String :=
  "INSERT INTO '" ++ table.name ++ "' expects " ++ toString table.columns.length ++
    " values but got " ++ toString count

/-- The values of an INSERT, with their numbers. -/
def insertedValues (list : Tree) : List (Tree × Nat) :=
  list.children.zipIdx.filter fun v => v.1.kind ≠ .delimiter

/-- The assigned value is the last child of an assignment that is whole. -/
def assignmentFindings (table : Table) (t : Tree) : Findings :=
  match t.children.head? with
  | none => .none
  | some name =>
    if name.kind ≠ .identifier then .none
    else
      let target := columnTyping table name.label
      let named := target.findings.under 0
      if !table.hasColumn name.text || t.children.length < 3 then named
      else
        match t.children.getLast? with
        | none => named
        | some value =>
          let typing := infer table value
          named ++ typing.findings.under (t.children.length - 1) ++
            if DataType.compatible target.dataType typing.dataType then .none
            else .report value.place (updateMismatch name.text target.dataType typing.dataType)

/-! ## Statements -/

def select (table : Table) (t : Tree) : Findings :=
  columnNames table .selectList t ++ whereFindings table t ++ columnNames table .orderClause t

/-- A wrong number of values is blamed on the table's name, and hides their types. -/
def insert (table : Table) (name : Tree) (t : Tree) : Findings :=
  match t.find? .valueList with
  | none => .none
  | some (i, list) =>
    let values := insertedValues list
    if values.length ≠ table.columns.length then
      .report name.place (wrongCount table values.length)
    else
      Findings.under i <| .join <|
        (values.zip table.columns).map fun ((value, j), column) =>
          (valueFindings table value column).under j

def update (table : Table) (t : Tree) : Findings :=
  let assigned := match t.find? .assignmentList with
    | none => Findings.none
    | some (i, list) =>
      Findings.under i <| .join <|
        (list.findAll .assignment).map fun (j, a) => (assignmentFindings table a).under j
  assigned ++ whereFindings table t

def delete (table : Table) (t : Tree) : Findings := whereFindings table t

/-- Checks a statement with the table that it names, if the catalog has it. -/
def withTable (catalog : Catalog) (t : Tree) (check : Table → Tree → Findings) : Findings :=
  match t.find? .identifier with
  | none => .none
  | some (i, name) =>
    match catalog.table? name.text with
    | none =>
      Findings.under i (.mark DataType.unknown none) ++
        .report name.place ("Table '" ++ name.text ++ "' does not exist")
    | some table =>
      Findings.under i (.mark DataType.table (some table.name)) ++ check table name

/-- What a statement is checked for, apart from CREATE. -/
def statement (catalog : Catalog) (t : Tree) : Findings :=
  match t.kind with
  | .selectStatement => withTable catalog t fun table _ => select table t
  | .insertStatement => withTable catalog t fun table name => insert table name t
  | .updateStatement => withTable catalog t fun table _ => update table t
  | .deleteStatement => withTable catalog t fun table _ => delete table t
  | _ => .none

end SqlScript.Check
