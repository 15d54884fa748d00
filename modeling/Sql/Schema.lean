import Sql.ResolveError

/-! Schemas: the columns of a relation and the names by which they can be qualified. -/
namespace Sql

structure Field where
  /-- Columns computed by an expression may have no name. -/
  name : Option Ident
  type : DataType
  /-- The relation that the column is attributed to. -/
  source : Option Name
deriving DecidableEq

structure Schema where
  fields : List Field
  /-- The names that can qualify the fields, each once. -/
  relations : List Name
deriving DecidableEq

namespace Field

def named (name : Ident) (type : DataType) : Field := ⟨some name, type, none⟩

def anonymous (type : DataType) : Field := ⟨none, type, none⟩

def isNamed (f : Field) (name : Ident) : Bool := f.name.any (·.same name)

/-- Is the field attributed to a relation whose name ends with `qualifier`? -/
def isFrom (f : Field) (qualifier : List Ident) : Bool := f.source.any (·.endsWith qualifier)

/-- Does `qualifier.name` refer to the field? -/
def answers (f : Field) (name : Ident) (qualifier : List Ident) : Bool :=
  f.isNamed name && (qualifier.isEmpty || f.isFrom qualifier)

/-- The same name in the same relation. -/
def repeats (f g : Field) : Bool :=
  match g.name with
  | some name => f.isNamed name && sameOption Name.same f.source g.source
  | none => false

end Field

namespace Schema

def empty : Schema := ⟨[], []⟩

def addRelation (relations : List Name) (name : Name) : List Name :=
  if relations.any (·.same name) then relations else relations ++ [name]

/-- A schema whose relation names are listed once each, the first spelling kept. -/
def of (fields : List Field) (relations : List Name) : Schema :=
  ⟨fields, relations.foldl addRelation []⟩

/-- A derived relation, which no name qualifies. -/
def ofFields (fields : List Field) : Schema := ⟨fields, []⟩

def forTable (table : Name) (columns : List (Ident × DataType)) : Schema :=
  of (columns.map fun (name, type) => ⟨some name, type, some table⟩) [table]

def length (s : Schema) : Nat := s.fields.length

/-- The fields of both schemas in order, and the relation names of both. -/
def append (s t : Schema) : Schema :=
  ⟨s.fields ++ t.fields, t.relations.foldl addRelation s.relations⟩

/-- Adds fields one by one and refuses one that repeats an earlier field. -/
def extend? (fields : List Field) : List Field → Except ResolveError (List Field)
  | [] => .ok fields
  | f :: fs =>
    match f.name with
    | some name =>
      if fields.any (·.repeats f) then .error (.duplicateField f.source name)
      else extend? (fields ++ [f]) fs
    | none => extend? (fields ++ [f]) fs

/-- Like `append`, but no named field of `t` may repeat an earlier field. -/
def appendStrict (s t : Schema) : Except ResolveError Schema := do
  let fields ← extend? s.fields t.fields
  return ⟨fields, t.relations.foldl addRelation s.relations⟩

/-- The fields with their positions that `qualifier.name` refers to. -/
def matching (s : Schema) (name : Ident) (qualifier : List Ident) : List (Nat × Field) :=
  (s.fields.zipIdx.map fun (f, i) => (i, f)).filter fun (_, f) => f.answers name qualifier

/-- The field that `qualifier.name` refers to; more than one is an error. -/
def find? (s : Schema) (name : Ident) (qualifier : List Ident) :
    Except ResolveError (Option (Nat × Field)) :=
  match s.matching name qualifier with
  | [] => .ok none
  | [found] => .ok (some found)
  | _ => .error (.ambiguousColumn name)

def fieldsFrom (s : Schema) (qualifier : List Ident) : List Field :=
  s.fields.filter (·.isFrom qualifier)

def hasRelation (s : Schema) (qualifier : List Ident) : Bool :=
  s.relations.any (·.endsWith qualifier)

/-- Attributes every field to one relation, the only one visible. -/
def withSource (s : Schema) (source : Name) : Schema :=
  ⟨s.fields.map fun f => ⟨f.name, f.type, some source⟩, [source]⟩

/-- The fields as the type of one value. -/
def rowType (s : Schema) : DataType :=
  .row (s.fields.map fun f => ⟨f.name.map Ident.text, f.type⟩)

/-- Equality up to the spelling of names. -/
def same (s t : Schema) : Bool :=
  sameList (fun f g => sameOption Ident.same f.name g.name && f.type == g.type &&
      sameOption Name.same f.source g.source) s.fields t.fields &&
    sameList Name.same s.relations t.relations

end Schema

end Sql
