import Sql.Json.Options
import Sql.Schema

/-! What names can refer to, besides the tree that mentions them. -/
namespace Sql

structure Context where
  /-- The schemas of base tables. -/
  lookup : Name → Option Schema
  options : ResolveOptions
  /-- Common table expressions, the innermost first. -/
  bindings : List (Ident × Schema)
  /-- The columns around the tree. -/
  outer : Option Schema

namespace Context

def of (lookup : Name → Option Schema) (options : ResolveOptions) : Context :=
  ⟨lookup, options, [], none⟩

/-- Binds a name, hiding earlier bindings of it. -/
def bind (ctx : Context) (name : Ident) (schema : Schema) : Context :=
  { ctx with bindings := (name, schema) :: ctx.bindings }

def withOuter (ctx : Context) (outer : Schema) : Context := { ctx with outer := some outer }

def withoutOuter (ctx : Context) : Context := { ctx with outer := none }

def binding? (ctx : Context) (name : Ident) : Option Schema :=
  (ctx.bindings.find? fun b => b.1.same name).map (·.2)

/-- A context in which `schema` can be seen behind the columns around the tree. -/
def beside (ctx : Context) (schema : Schema) : Context :=
  ctx.withOuter (match ctx.outer with
    | some outer => outer.append schema
    | none => schema)

/-- The schema of a table, which a binding supplies before a schema known ahead and that before the
base tables. -/
def table (ctx : Context) (name : Name) (known : Option Schema) : Except ResolveError Schema :=
  let bound := if name.qualifier.isEmpty then ctx.binding? name.base else none
  match (bound.or known).or (ctx.lookup name) with
  | some schema => .ok (schema.withSource name)
  | none =>
    if ctx.options.allowUnknown then .ok (.of [] [name]) else .error (.unknownRelation name)

end Context

/-- The columns that an expression can refer to: those near it before those around it. -/
structure Scope where
  near : Schema
  outer : Option Schema
  /-- Where subqueries are resolved; without it nothing is known about them. -/
  context : Option Context

namespace Scope

def of (ctx : Context) (near : Schema) : Scope := ⟨near, ctx.outer, some ctx⟩

/-- All the columns in sight of a subquery. -/
def visible (s : Scope) : Schema :=
  match s.outer with
  | some outer => s.near.append outer
  | none => s.near

/-- The ways to read a dotted name: the parts that qualify the column, the column, and the fields
of it. More qualifying parts come first. -/
def readings : List Ident → List (List Ident × Ident × List Ident)
  | [] => []
  | x :: xs => (readings xs).map (fun (q, column, rest) => (x :: q, column, rest)) ++ [([], x, xs)]

/-- The first answer, or the first failure before it. -/
def firstFound {α : Type} :
    List (Except ResolveError (Option α)) → Except ResolveError (Option α)
  | [] => .ok none
  | .ok none :: rest => firstFound rest
  | found :: _ => found

/-- The field that a name refers to and the fields inside it that the name goes on to. Each reading
is tried near the expression and then around it. -/
def column? (s : Scope) (name : Name) : Except ResolveError (Option (Field × List Ident)) :=
  firstFound <| (readings name.parts).flatMap fun (qualifier, column, rest) =>
    (s.near :: s.outer.toList).map fun schema =>
      (schema.find? column qualifier).map fun found => found.map fun (_, f) => (f, rest)

end Scope

end Sql
