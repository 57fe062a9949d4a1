import SqlScript.Catalog.Basic
import SqlScript.Text.Padding

/-!
Catalogs as text: one line a table, or one block a table with its columns under each other.
-/

namespace SqlScript
open SqlScript.Text

def Column.text (c : Column) : String := c.name ++ ": " ++ c.dataType

def Table.text (t : Table) : String :=
  t.name ++ " (" ++ ", ".intercalate (t.columns.map Column.text) ++ ")"

namespace Catalog

def text (c : Catalog) : String :=
  if c.entries.isEmpty then "Symbol Table: (empty)"
  else "Symbol Table:\n" ++ "\n".intercalate (c.tables.map fun t => "  - " ++ t.text)

def listingRow (name dataType : String) : String := padRight 20 name ++ " " ++ padRight 15 dataType

def tableListing (t : Table) : List String :=
  ["\nTable: " ++ t.name, rule '-' 40, listingRow "Column Name" "Data Type", rule '-' 40] ++
    t.columns.map fun c => listingRow c.name c.dataType

def listing (c : Catalog) : String :=
  if c.entries.isEmpty then "Symbol Table: (empty)\n"
  else
    "\n".intercalate
      ([rule '=' 60, "SYMBOL TABLE", rule '=' 60] ++ c.tables.flatMap tableListing ++ [rule '=' 60])

end Catalog

end SqlScript
