import Sql.Tree.Valid

/-! Selections put together step by step. -/
namespace Sql

/-- A selection under construction. -/
structure SelectDraft where
  bindings : List Cte
  distinct : Bool
  /-- Whether a step that selects has been made, even one that selects nothing. -/
  projected : Bool
  items : List SelectItem
  sources : List Relation
  filter : Option Expr
  group : List Expr
  having : Option Expr
  order : List OrderTerm
  offset : Option Nat
  limit : Option Limit
  /-- The first join that could not be made. -/
  flaw : Option Invalid

namespace SelectDraft

inductive Step where
  | items (items : List SelectItem)
  | source (relation : Relation)
  | binding (name : Ident) (query : Query)
  | join (right : Relation) (kind : JoinKind) (criteria : Criteria)
  | filter (condition : Expr)
  | distinct
  | order (terms : List OrderTerm)
  | limit (n : Nat)
  | offset (n : Nat)
  | group (exprs : List Expr)
  | having (condition : Expr)

namespace Step

/-- Selects expressions under no name. -/
def columns (exprs : List Expr) : Step := .items (exprs.map fun e => .expr e none)

def named (e : Expr) (name : String) : Step := .items [.expr e (some (.plain name))]

def all : Step := .items [.star none []]

def innerJoin (right : Relation) (condition : Expr) : Step :=
  .join right .inner (.condition condition)

def leftJoin (right : Relation) (condition : Expr) : Step :=
  .join right .left (.condition condition)

def crossJoin (right : Relation) : Step := .join right .cross .absent

/-- Must something have been selected before? -/
def needsItems : Step → Bool
  | distinct | order _ | limit _ | offset _ | group _ | having _ => true
  | _ => false

/-- Must there be a relation before? -/
def needsSource : Step → Bool
  | join .. | filter _ | group _ | having _ => true
  | _ => false

end Step

def empty : SelectDraft := ⟨[], false, false, [], [], none, [], none, [], none, none, none⟩

/-- Both conditions, if there is one already. -/
def conjoin (earlier : Option Expr) (condition : Expr) : Expr :=
  match earlier with
  | some e => .binary e .and condition
  | none => condition

/-- Joins a relation to the last source. A join that cannot be made leaves the sources alone and is
remembered. -/
def join (d : SelectDraft) (right : Relation) (kind : JoinKind) (criteria : Criteria) :
    SelectDraft :=
  match d.sources.getLast? with
  | none => d
  | some left =>
    match Relation.buildJoin left right kind criteria with
    | .ok joined => { d with sources := d.sources.dropLast ++ [joined] }
    | .error reason => { d with flaw := d.flaw.or (some reason) }

def allows (d : SelectDraft) (step : Step) : Bool :=
  (!step.needsItems || d.projected) && (!step.needsSource || !d.sources.isEmpty)

/-- The draft after a step that is allowed. -/
def take (d : SelectDraft) : Step → SelectDraft
  | .items items => { d with items := d.items ++ items, projected := true }
  | .source relation => { d with sources := d.sources ++ [relation] }
  | .binding name query => { d with bindings := d.bindings ++ [⟨name, [], query⟩] }
  | .join right kind criteria => d.join right kind criteria
  | .filter condition => { d with filter := some (conjoin d.filter condition) }
  | .distinct => { d with distinct := true }
  | .order terms => { d with order := d.order ++ terms }
  | .limit n => { d with limit := some (.count n) }
  | .offset n => { d with offset := some n }
  | .group exprs => { d with group := d.group ++ exprs }
  | .having condition => { d with having := some (conjoin d.having condition) }

/-- Makes a step, if it is allowed yet. -/
def step? (d : SelectDraft) (step : Step) : Option SelectDraft :=
  if d.allows step then some (d.take step) else none

/-- The query, unless a join could not be made or nothing is selected. -/
def build (d : SelectDraft) : Except Invalid Query :=
  match d.flaw with
  | some reason => .error reason
  | none => do
    let select ← Select.build d.items
    let quantifier := if d.distinct then some .distinct else none
    let group := if d.group.isEmpty then none else some ⟨none, d.group.map .expr⟩
    let body := .select { select with
      quantifier, group, sources := d.sources, filter := d.filter, having := d.having }
    let bindings := if d.bindings.isEmpty then none else some ⟨false, d.bindings⟩
    return ⟨bindings, body, d.order, d.offset, d.limit⟩

end SelectDraft

end Sql
