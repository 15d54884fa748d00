import Sql.Json.DataType
import Sql.Json.Reading
import Sql.Invalid
import Sql.Schema

/-! Catalogs of tables. -/
namespace Sql

/-- Tables and their columns, the table defined last at the end. -/
structure Catalog where
  tables : List (Name × List (Ident × DataType))

namespace Catalog

def empty : Catalog := ⟨[]⟩

/-- Defines a table; an earlier table of the same name is forgotten. -/
def add (c : Catalog) (name : Name) (columns : List (Ident × DataType)) : Catalog :=
  ⟨c.tables.filter (fun t => !t.1.same name) ++ [(name, columns)]⟩

def length (c : Catalog) : Nat := c.tables.length

/-- The table of this very name, or else the only one whose name ends with it. -/
def find? (c : Catalog) (name : Name) : Option (Name × List (Ident × DataType)) :=
  (c.tables.find? fun t => t.1.same name).or <|
    match c.tables.filter fun t => t.1.endsWith name.parts with
    | [table] => some table
    | _ => none

def lookup? (c : Catalog) (name : Name) : Option Schema :=
  (c.find? name).map fun (table, columns) => .forTable table columns

/-- Why a document is no catalog. -/
inductive LoadError where
  | malformed
  | invalid (reason : Invalid)
deriving DecidableEq

def LoadError.message : LoadError → String
  | malformed => "Invalid configuration"
  | invalid reason => "Invalid catalog entry: " ++ reason.message

/-- Arrays and objects around the type of a column. -/
def typeNesting : Nat := 5

def column? (value : Json) : Option (Ident × DataType) := do
  match ← value.record? ["name", "type"] with
  | [some name, some type] =>
    return (.plain (← name.asString?), ← Json.dataType? true (Json.maxNesting - typeNesting) type)
  | _ => none

/-- The parts of a table's name and its columns. -/
def table? (value : Json) : Option (List Ident × List (Ident × DataType)) := do
  match ← value.record? ["name", "columns"] with
  | [some name, columns] =>
    let parts ← (← name.asArray?).mapM fun part => part.asString?.map Ident.plain
    let columns ← Json.decodeOr? [] (fun v => do (← v.asArray?).mapM column?) columns
    return (parts, columns)
  | _ => none

def document? (value : Json) : Option (List (List Ident × List (Ident × DataType))) := do
  match ← value.record? ["tables"] with
  | [tables] => Json.decodeOr? [] (fun v => do (← v.asArray?).mapM table?) tables
  | _ => none

/-- Adds a table whose name is given by its parts. -/
def addParts (c : Catalog) (table : List Ident × List (Ident × DataType)) :
    Except LoadError Catalog :=
  match Name.ofParts? table.1 with
  | some name => .ok (c.add name table.2)
  | none => .error (.invalid .emptyName)

/-- Reads a document of tables; the whole document is checked before any table is added. -/
def load (text : String) : Except LoadError Catalog :=
  match (Json.ofText? text).bind document? with
  | some tables => tables.foldlM addParts empty
  | none => .error .malformed

end Catalog

/-- The schema that was given last for exactly this name. -/
def lookupExact? (schemas : List (Name × Schema)) (name : Name) : Option Schema :=
  (schemas.reverse.find? fun s => s.1.same name).map (·.2)

end Sql
