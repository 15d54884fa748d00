import Sql.Resolve.Combine
import Sql.Resolve.Context
import Sql.Resolve.Function
import Sql.Resolve.Literal
import Sql.Tree.Basic

/-! Types of expressions and schemas of relations and queries. -/
namespace Sql

/-- The type of a subquery as a value: its only column, or a row of its columns. -/
def Schema.valueType (s : Schema) : DataType :=
  match s.fields with
  | [f] => f.type
  | _ => s.rowType

/-- The number of columns that a row of values fills. -/
def Expr.width : Expr → Nat
  | .row items => items.length
  | _ => 1

/-- As many unknown types as the first row has columns. -/
def Expr.unknownColumns (rows : List Expr) : List DataType :=
  List.replicate ((rows.head?.map Expr.width).getD 0) .unknown

/-- The fields that a star stands for, under the given names. -/
def Schema.expand (source : Schema) (relation : Option Name) (names : List Ident) :
    Except ResolveError (List Field) :=
  match relation with
  | none => Schema.rename (.plain "*") names source.fields
  | some name =>
    if source.hasRelation name.parts then
      Schema.rename name.base names (source.fieldsFrom name.parts)
    else .error (.unknownRelation name)

/-- The field of a selected expression, named after a column unless a name is given. -/
def Expr.outputField (e : Expr) (name : Option Ident) (type : DataType) : Field :=
  match name, e with
  | some x, _ => .named x type
  | none, .column n => .named n.base type
  | none, _ => .anonymous type

/-- What a recursive common table expression may know about itself. -/
def Context.bindSelf (ctx : Context) (recursive : Bool) (name : Ident) (columns : List Ident) :
    Context :=
  if recursive && !columns.isEmpty then
    ctx.bind name (.ofFields (columns.map fun x => .named x .unknown))
  else ctx

mutual

def Expr.infer (scope : Scope) : Expr → Except ResolveError DataType
  | .literal value => .ok value.type
  | .column name => do
    match ← scope.column? name with
    | some (field, rest) => return rest.foldl (fun type x => type.fieldType x) field.type
    | none => return .unknown
  | .parameter _ | .star _ | .lambda _ _ => .ok .unknown
  | .binary left op right => do
    let l ← left.infer scope
    let r ← right.infer scope
    op.type l r
  | .unary op operand => do return op.type (← operand.infer scope)
  | .isNull operand _ | .inQuery operand _ _ => do
    let _ ← operand.infer scope
    return .boolean
  | .isDistinct left right _ => do
    let _ ← left.infer scope
    let _ ← right.infer scope
    return .boolean
  | .like operand pattern _ _ => do
    let _ ← operand.infer scope
    let _ ← pattern.infer scope
    return .boolean
  | .between operand low high _ => do
    let _ ← operand.infer scope
    let _ ← low.infer scope
    let _ ← high.infer scope
    return .boolean
  | .inList operand items _ => do
    let _ ← operand.infer scope
    let _ ← Expr.infers scope items
    return .boolean
  | .existsQuery _ => .ok .boolean
  | .subquery query =>
    match scope.context with
    | some ctx => do return (← query.resolve (ctx.withOuter scope.visible)).valueType
    | none => .ok .unknown
  | .call ⟨name, _, args, _, _, _, _⟩ => do
    return (returnType? name.base.text (← Expr.infers scope args)).getD .unknown
  | .cast _ type _ => .ok type
  | .caseWhen operand branches otherwise => do
    let _ ← Expr.infer? scope operand
    let type ← Expr.inferBranches scope .unknown branches
    match otherwise with
    | none => return type
    | some value => type.agree .caseBranches (← value.infer scope)
  | .array items => do return .array (← Expr.inferItems scope .unknown items)
  | .row items => do return .row ((← Expr.infers scope items).map fun type => ⟨none, type⟩)
  | .subscript base index => do
    let _ ← index.infer scope
    match ← base.infer scope with
    | .array element => return element
    | .map _ value => return value
    | .row fields =>
      match index with
      | .literal (.integer position) => return .itemType position.toInt fields
      | _ => return .unknown
    | _ => return .unknown
  | .field base name => do return (← base.infer scope).fieldType name
  | .interval _ _ start _ =>
    .ok (.scalar (if start.isYearMonth then .yearToMonth else .dayToSecond))
  | .typed type text => .ok (typedLiteralType type text)
termination_by structural e => e

def Expr.infers (scope : Scope) : List Expr → Except ResolveError (List DataType)
  | [] => .ok []
  | e :: es => do
    let type ← e.infer scope
    return type :: (← Expr.infers scope es)
termination_by structural es => es

def Expr.infer? (scope : Scope) : Option Expr → Except ResolveError (Option DataType)
  | none => .ok none
  | some e => do return some (← e.infer scope)
termination_by structural e => e

/-- The common type of array items and the type so far. -/
def Expr.inferItems (scope : Scope) (type : DataType) :
    List Expr → Except ResolveError DataType
  | [] => .ok type
  | e :: es => do Expr.inferItems scope (← type.agree .arrayItems (← e.infer scope)) es
termination_by structural es => es

/-- The common type of the values of branches and the type so far. -/
def Expr.inferBranches (scope : Scope) (type : DataType) :
    List (Expr × Expr) → Except ResolveError DataType
  | [] => .ok type
  | (condition, value) :: bs => do
    let _ ← condition.infer scope
    Expr.inferBranches scope (← type.agree .caseBranches (← value.infer scope)) bs
termination_by structural bs => bs

/-- The types of columns after another row of values, from the given position on. -/
def Expr.inferCells (scope : Scope) (position : Nat) (columns : List DataType) :
    List Expr → Except ResolveError (List DataType)
  | [] => .ok columns
  | e :: es =>
    match columns with
    | [] => .ok []
    | column :: columns => do
      let type ← column.agree (.valuesColumn position) (← e.infer scope)
      return type :: (← Expr.inferCells scope (position + 1) columns es)
termination_by structural es => es

/-- The types of columns after all rows of values, from the given row on. -/
def Expr.inferRows (scope : Scope) (row : Nat) (columns : List DataType) :
    List Expr → Except ResolveError (List DataType)
  | [] => .ok columns
  | .row items :: rows => do
    if items.length ≠ columns.length then
      throw (.rowWidth row columns.length items.length)
    Expr.inferRows scope (row + 1) (← Expr.inferCells scope 0 columns items) rows
  | e :: rows => do
    if columns.length ≠ 1 then throw (.rowWidth row columns.length 1)
    let type ← e.infer scope
    let columns ← columns.mapM fun column => column.agree (.valuesColumn 0) type
    Expr.inferRows scope (row + 1) columns rows
termination_by structural rows => rows

def Relation.resolve (ctx : Context) : Relation → Except ResolveError Schema
  | .table name known => ctx.table name known
  | .renamed relation name columns => do
    let schema ← relation.resolve ctx
    let fields ← Schema.rename name columns schema.fields
    return Schema.withSource ⟨fields, schema.relations⟩ (.single name)
  | .join left right _ criteria => do
    let l ← left.resolve ctx
    let r ← right.resolve (ctx.beside l)
    Schema.checkDisjoint l r
    match criteria with
    | .condition _ | .absent => return l.append r
    | .columns names => l.coalesce r names
    | .natural => l.naturalJoin r
  | .setOperation operation => operation.resolve ctx
  | .query query => query.resolve ctx.withoutOuter
  | .values rows => do
    return .ofFields (Schema.generated
      (← Expr.inferRows (.of ctx .empty) 0 (Expr.unknownColumns rows) rows))
  | .unnest args ordinality => do
    let types ← Expr.infers (.of ctx .empty) args
    let fields := Schema.generated (types.flatMap DataType.unnested)
    let ordinal := if ordinality then [.named (.plain "ordinality") .bigint] else []
    return .ofFields (fields ++ ordinal)
  | .lateral query => query.resolve ctx
  | .sample relation _ _ => relation.resolve ctx
termination_by structural r => r

/-- The schema of a list of relations, each of which sees those before it. -/
def Relation.resolveAll (ctx : Context) (source : Schema) :
    List Relation → Except ResolveError Schema
  | [] => .ok source
  | r :: rs => do
    let schema ← r.resolve (ctx.beside source)
    Schema.checkDisjoint source schema
    Relation.resolveAll ctx (source.append schema) rs
termination_by structural rs => rs

def SetOperation.resolve (ctx : Context) : SetOperation → Except ResolveError Schema
  | ⟨_, _, left, right⟩ => do
    let l ← left.resolve ctx.withoutOuter
    let r ← right.resolve ctx.withoutOuter
    l.setOperation r
termination_by structural s => s

def Query.resolve (ctx : Context) : Query → Except ResolveError Schema
  | ⟨none, body, _, _, _⟩ => body.resolve ctx
  | ⟨some bindings, body, _, _, _⟩ => do body.resolve (← bindings.bind ctx)
termination_by structural q => q

def With.bind (ctx : Context) : With → Except ResolveError Context
  | ⟨recursive, entries⟩ => Cte.bindAll recursive [] ctx entries
termination_by structural w => w

/-- Binds one entry after the other; `earlier` are the names of those before. -/
def Cte.bindAll (recursive : Bool) (earlier : List Ident) (ctx : Context) :
    List Cte → Except ResolveError Context
  | [] => .ok ctx
  | ⟨name, columns, query⟩ :: entries => do
    if earlier.any (·.same name) then throw (.duplicateRelation (.single name))
    let inner := (ctx.bindSelf recursive name columns).withoutOuter
    let schema ← query.resolve inner
    let fields ← Schema.rename name columns schema.fields
    let bound := Schema.withSource ⟨fields, schema.relations⟩ (.single name)
    let schema ← Schema.empty.appendStrict bound
    Cte.bindAll recursive (name :: earlier) (ctx.bind name schema) entries
termination_by structural entries => entries

def Body.resolve (ctx : Context) : Body → Except ResolveError Schema
  | .select select => select.resolve ctx
  | .table name => ctx.table name none
  | .values rows => do
    return .ofFields (Schema.generated
      (← Expr.inferRows (.of ctx .empty) 0 (Expr.unknownColumns rows) rows))
  | .setOperation operation => operation.resolve ctx
  | .nested query => query.resolve ctx
termination_by structural b => b

def Select.resolve (ctx : Context) : Select → Except ResolveError Schema
  | ⟨_, items, sources, _, _, _, _⟩ => do
    let source ← Relation.resolveAll ctx .empty sources
    let fields ← SelectItem.resolveAll (.of ctx source) items
    return .ofFields (fields.map fun f => { f with source := none })
termination_by structural s => s

def SelectItem.resolve (scope : Scope) : SelectItem → Except ResolveError (List Field)
  | .star relation names => scope.near.expand relation names
  | .expr expr name => do return [expr.outputField name (← expr.infer scope)]
termination_by structural i => i

def SelectItem.resolveAll (scope : Scope) : List SelectItem → Except ResolveError (List Field)
  | [] => .ok []
  | i :: is => do
    let fields ← i.resolve scope
    return fields ++ (← SelectItem.resolveAll scope is)
termination_by structural is => is

end

end Sql
