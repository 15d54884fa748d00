import Sql.DataType.Supertype
import Sql.Schema

/-! Combining schemas: renaming, joins and set operations. -/
namespace Sql.Schema

/-- Names the fields by position; an empty list keeps the names. -/
def rename (relation : Ident) (names : List Ident) (fields : List Field) :
    Except ResolveError (List Field) :=
  if names.isEmpty then .ok fields
  else if names.length = fields.length then
    .ok (List.zipWith (fun f name => { f with name := some name }) fields names)
  else .error (.aliasCount relation names.length fields.length)

/-- No relation of the right side may have the name of one of the left. -/
def checkDisjoint (left right : Schema) : Except ResolveError Unit :=
  match right.relations.find? fun n => left.relations.any (·.same n) with
  | some name => .error (.duplicateRelation name)
  | none => .ok ()

/-- The field that a coalesced column takes from one side, with its position. -/
def sharedField (s : Schema) (name : Ident) : Except ResolveError (Nat × Field) := do
  match ← s.find? name [] with
  | some found => return found
  | none => throw (.unknownColumn name)

/-- A column of a join that stands for one column of each side. -/
structure SharedColumn where
  left : Nat
  right : Nat
  field : Field

def sharedColumn (left right : Schema) (name : Ident) : Except ResolveError SharedColumn := do
  let (i, f) ← left.sharedField name
  let (j, g) ← right.sharedField name
  match f.type.supertype? g.type with
  | some type => return ⟨i, j, ⟨f.name, type, none⟩⟩
  | none => throw (.typeMismatch (.usingColumn name) f.type g.type)

/-- The fields at all other positions. -/
def except (s : Schema) (used : List Nat) : List Field :=
  (s.fields.zipIdx.filter fun (_, i) => !used.contains i).map (·.1)

/-- The coalesced columns and then the other fields of both sides. -/
def coalesce (left right : Schema) (names : List Ident) : Except ResolveError Schema := do
  let shared ← names.mapM (sharedColumn left right)
  let fields := shared.map (·.field) ++ left.except (shared.map (·.left)) ++
    right.except (shared.map (·.right))
  return .of fields (left.relations ++ right.relations)

/-- The names of the left side that the right side has too, each once. -/
def commonNames (left right : Schema) : List Ident :=
  Ident.distinct <| (left.fields.filterMap (·.name)).filter fun name =>
    right.fields.any (·.isNamed name)

/-- Coalesces the columns of equal names, if there are any. -/
def naturalJoin (left right : Schema) : Except ResolveError Schema :=
  match left.commonNames right with
  | [] => .ok (left.append right)
  | names => left.coalesce right names

/-- The fields of a set operation from the given position on. -/
def unify (position : Nat) : List Field → List Field → Except ResolveError (List Field)
  | f :: fs, g :: gs =>
    match f.type.supertype? g.type with
    | some type => do return ⟨f.name, type, none⟩ :: (← unify (position + 1) fs gs)
    | none => .error (.setOperationTypes position f.type g.type)
  | _, _ => .ok []

/-- The rows of both sides: the names are those of the left. -/
def setOperation (left right : Schema) : Except ResolveError Schema :=
  if left.length = right.length then do return .ofFields (← unify 0 left.fields right.fields)
  else .error (.columnCount left.length right.length)

/-- The name of a column that has none of its own. -/
def generatedName (position : Nat) : Ident := .plain ("_col" ++ Text.decimal position)

def generated (types : List DataType) : List Field :=
  types.zipIdx.map fun (type, position) => .named (generatedName position) type

end Sql.Schema
