import Sql.Invalid
import Sql.Tree.Basic

/-! Building trees from parts, refusing parts that do not fit together. -/
namespace Sql

/-- The first identifier that repeats an earlier one. -/
def Ident.firstRepeated? (seen : List Ident) : List Ident → Option Ident
  | [] => none
  | x :: xs => if seen.any (·.same x) then some x else firstRepeated? (x :: seen) xs

def Name.build (parts : List Ident) : Except Invalid Name :=
  match Name.ofParts? parts with
  | some name => .ok name
  | none => .error .emptyName

namespace Expr

def buildInList (operand : Expr) (items : List Expr) (negated : Bool) : Except Invalid Expr :=
  if items.isEmpty then .error .emptyInList else .ok (.inList operand items negated)

def buildCase (operand : Option Expr) (branches : List (Expr × Expr)) (otherwise : Option Expr) :
    Except Invalid Expr :=
  if branches.isEmpty then .error .emptyCase else .ok (.caseWhen operand branches otherwise)

def buildLambda (params : List Ident) (body : Expr) : Except Invalid Expr :=
  if params.isEmpty then .error .emptyLambda
  else
    match Ident.firstRepeated? [] params with
    | some name => .error (.repeatedParameter name)
    | none => .ok (.lambda params body)

def buildInterval (text : String) (negative : Bool) (start : IntervalField)
    (stop : Option IntervalField) : Except Invalid Expr :=
  match stop with
  | none => .ok (.interval text negative start none)
  | some finer =>
    if start.admits finer then .ok (.interval text negative start (some finer))
    else .error (.intervalRange start finer)

/-- The name of the type is kept in upper case. -/
def ofTyped (type text : String) : Expr := .typed type.toUpper text

end Expr

/-- What is wrong with the criteria of a join, if anything. A cross join has none, and every other
join has some. -/
def Criteria.flaw? : JoinKind → Criteria → Option CriteriaFlaw
  | .cross, .absent => none
  | .cross, .condition _ => some .condition
  | .cross, .columns _ => some .columns
  | .cross, .natural => some .natural
  | _, .absent => some .absent
  | _, .columns [] => some .noColumns
  | _, _ => none

namespace Relation

def buildJoin (left right : Relation) (kind : JoinKind) (criteria : Criteria) :
    Except Invalid Relation :=
  match criteria.flaw? kind with
  | some flaw => .error (.joinCriteria kind flaw)
  | none => .ok (.join left right kind criteria)

def buildUnnest (args : List Expr) (ordinality : Bool) : Except Invalid Relation :=
  if args.isEmpty then .error .emptyUnnest else .ok (.unnest args ordinality)

def buildValues (rows : List Expr) : Except Invalid Relation :=
  if rows.isEmpty then .error .emptyValues else .ok (.values rows)

/-- A table about which nothing is known yet. -/
def ofTable (name : Name) : Relation := .table name none

end Relation

namespace GroupingElement

def buildRollup (exprs : List Expr) : Except Invalid GroupingElement :=
  if exprs.isEmpty then .error (.emptyGrouping .rollup) else .ok (.rollup exprs)

def buildCube (exprs : List Expr) : Except Invalid GroupingElement :=
  if exprs.isEmpty then .error (.emptyGrouping .cube) else .ok (.cube exprs)

def buildSets (sets : List (List Expr)) : Except Invalid GroupingElement :=
  if sets.isEmpty then .error (.emptyGrouping .sets) else .ok (.sets sets)

end GroupingElement

def Body.buildValues (rows : List Expr) : Except Invalid Body :=
  if rows.isEmpty then .error .emptyValues else .ok (.values rows)

/-- A selection of at least one item and nothing else. -/
def Select.build (items : List SelectItem) : Except Invalid Select :=
  if items.isEmpty then .error .emptyProjection else .ok ⟨none, items, [], none, none, none, []⟩

end Sql
