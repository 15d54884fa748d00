import Sql.Tree.Basic

/-! Other relations in the place of the tables of a tree, at any depth. The table that is the whole
body of a query stays, since nothing else can stand in its place. -/
namespace Sql

variable (f : Name → Option Schema → Relation)

mutual

def Expr.mapTables : Expr → Expr
  | .literal v => .literal v
  | .column n => .column n
  | .parameter i => .parameter i
  | .star r => .star r
  | .binary l op r => .binary l.mapTables op r.mapTables
  | .unary op e => .unary op e.mapTables
  | .isNull e n => .isNull e.mapTables n
  | .isDistinct l r n => .isDistinct l.mapTables r.mapTables n
  | .like e p c n => .like e.mapTables p.mapTables (Expr.mapTables? c) n
  | .between e l h n => .between e.mapTables l.mapTables h.mapTables n
  | .inList e items n => .inList e.mapTables (Expr.mapTablesAll items) n
  | .inQuery e q n => .inQuery e.mapTables q.mapTables n
  | .existsQuery q => .existsQuery q.mapTables
  | .subquery q => .subquery q.mapTables
  | .call c => .call c.mapTables
  | .cast e t s => .cast e.mapTables t s
  | .caseWhen o bs e =>
    .caseWhen (Expr.mapTables? o) (Expr.mapTablesBranches bs) (Expr.mapTables? e)
  | .array items => .array (Expr.mapTablesAll items)
  | .row items => .row (Expr.mapTablesAll items)
  | .subscript b i => .subscript b.mapTables i.mapTables
  | .field b x => .field b.mapTables x
  | .lambda ps b => .lambda ps b.mapTables
  | .interval t n start stop => .interval t n start stop
  | .typed t x => .typed t x
termination_by structural e => e

def Expr.mapTablesAll : List Expr → List Expr
  | [] => []
  | e :: es => e.mapTables :: Expr.mapTablesAll es
termination_by structural es => es

def Expr.mapTablesSets : List (List Expr) → List (List Expr)
  | [] => []
  | es :: sets => Expr.mapTablesAll es :: Expr.mapTablesSets sets
termination_by structural sets => sets

def Expr.mapTablesBranches : List (Expr × Expr) → List (Expr × Expr)
  | [] => []
  | (c, v) :: bs => (c.mapTables, v.mapTables) :: Expr.mapTablesBranches bs
termination_by structural bs => bs

def Expr.mapTables? : Option Expr → Option Expr
  | none => none
  | some e => some e.mapTables
termination_by structural e => e

def Call.mapTables : Call → Call
  | ⟨name, quantifier, args, order, filter, nulls, window⟩ =>
    ⟨name, quantifier, Expr.mapTablesAll args, OrderTerm.mapTablesAll order,
      Expr.mapTables? filter, nulls, Over.mapTables? window⟩
termination_by structural c => c

def OrderTerm.mapTables : OrderTerm → OrderTerm
  | ⟨e, descending, nulls⟩ => ⟨e.mapTables, descending, nulls⟩
termination_by structural t => t

def OrderTerm.mapTablesAll : List OrderTerm → List OrderTerm
  | [] => []
  | t :: ts => t.mapTables :: OrderTerm.mapTablesAll ts
termination_by structural ts => ts

def Over.mapTables : Over → Over
  | .named x => .named x
  | .window w => .window w.mapTables
termination_by structural o => o

def Over.mapTables? : Option Over → Option Over
  | none => none
  | some o => some o.mapTables
termination_by structural o => o

def Window.mapTables : Window → Window
  | ⟨base, partition, order, frame⟩ =>
    ⟨base, Expr.mapTablesAll partition, OrderTerm.mapTablesAll order, Frame.mapTables? frame⟩
termination_by structural w => w

def Frame.mapTables : Frame → Frame
  | ⟨units, start, stop⟩ => ⟨units, start.mapTables, Bound.mapTables? stop⟩
termination_by structural frame => frame

def Frame.mapTables? : Option Frame → Option Frame
  | none => none
  | some frame => some frame.mapTables
termination_by structural frame => frame

def Bound.mapTables : Bound → Bound
  | .unboundedPreceding => .unboundedPreceding
  | .preceding e => .preceding e.mapTables
  | .currentRow => .currentRow
  | .following e => .following e.mapTables
  | .unboundedFollowing => .unboundedFollowing
termination_by structural b => b

def Bound.mapTables? : Option Bound → Option Bound
  | none => none
  | some b => some b.mapTables
termination_by structural b => b

def Relation.mapTables : Relation → Relation
  | .table n known => f n known
  | .renamed r x cs => .renamed r.mapTables x cs
  | .join l r k c => .join l.mapTables r.mapTables k c.mapTables
  | .setOperation o => .setOperation o.mapTables
  | .query q => .query q.mapTables
  | .values rows => .values (Expr.mapTablesAll rows)
  | .unnest args o => .unnest (Expr.mapTablesAll args) o
  | .lateral q => .lateral q.mapTables
  | .sample r m p => .sample r.mapTables m p.mapTables
termination_by structural r => r

def Relation.mapTablesAll : List Relation → List Relation
  | [] => []
  | r :: rs => r.mapTables :: Relation.mapTablesAll rs
termination_by structural rs => rs

def Criteria.mapTables : Criteria → Criteria
  | .condition e => .condition e.mapTables
  | .columns xs => .columns xs
  | .natural => .natural
  | .absent => .absent
termination_by structural c => c

def SetOperation.mapTables : SetOperation → SetOperation
  | ⟨operator, all, left, right⟩ => ⟨operator, all, left.mapTables, right.mapTables⟩
termination_by structural o => o

def Query.mapTables : Query → Query
  | ⟨bindings, body, order, offset, limit⟩ =>
    ⟨With.mapTables? bindings, body.mapTables, OrderTerm.mapTablesAll order, offset, limit⟩
termination_by structural q => q

def With.mapTables : With → With
  | ⟨recursive, entries⟩ => ⟨recursive, Cte.mapTablesAll entries⟩
termination_by structural w => w

def With.mapTables? : Option With → Option With
  | none => none
  | some w => some w.mapTables
termination_by structural w => w

def Cte.mapTables : Cte → Cte
  | ⟨name, columns, query⟩ => ⟨name, columns, query.mapTables⟩
termination_by structural c => c

def Cte.mapTablesAll : List Cte → List Cte
  | [] => []
  | c :: cs => c.mapTables :: Cte.mapTablesAll cs
termination_by structural cs => cs

def Body.mapTables : Body → Body
  | .select s => .select s.mapTables
  | .table n => .table n
  | .values rows => .values (Expr.mapTablesAll rows)
  | .setOperation o => .setOperation o.mapTables
  | .nested q => .nested q.mapTables
termination_by structural b => b

def Select.mapTables : Select → Select
  | ⟨quantifier, items, sources, filter, group, having, windows⟩ =>
    ⟨quantifier, SelectItem.mapTablesAll items, Relation.mapTablesAll sources,
      Expr.mapTables? filter, GroupBy.mapTables? group, Expr.mapTables? having,
      NamedWindow.mapTablesAll windows⟩
termination_by structural s => s

def SelectItem.mapTables : SelectItem → SelectItem
  | .expr e x => .expr e.mapTables x
  | .star r xs => .star r xs
termination_by structural i => i

def SelectItem.mapTablesAll : List SelectItem → List SelectItem
  | [] => []
  | i :: is => i.mapTables :: SelectItem.mapTablesAll is
termination_by structural is => is

def GroupBy.mapTables : GroupBy → GroupBy
  | ⟨quantifier, elements⟩ => ⟨quantifier, GroupingElement.mapTablesAll elements⟩
termination_by structural g => g

def GroupBy.mapTables? : Option GroupBy → Option GroupBy
  | none => none
  | some g => some g.mapTables
termination_by structural g => g

def GroupingElement.mapTables : GroupingElement → GroupingElement
  | .expr e => .expr e.mapTables
  | .rollup es => .rollup (Expr.mapTablesAll es)
  | .cube es => .cube (Expr.mapTablesAll es)
  | .sets sets => .sets (Expr.mapTablesSets sets)
termination_by structural e => e

def GroupingElement.mapTablesAll : List GroupingElement → List GroupingElement
  | [] => []
  | e :: es => e.mapTables :: GroupingElement.mapTablesAll es
termination_by structural es => es

def NamedWindow.mapTables : NamedWindow → NamedWindow
  | ⟨name, window⟩ => ⟨name, window.mapTables⟩
termination_by structural w => w

def NamedWindow.mapTablesAll : List NamedWindow → List NamedWindow
  | [] => []
  | w :: ws => w.mapTables :: NamedWindow.mapTablesAll ws
termination_by structural ws => ws

end

end Sql
