import Sql.Tree.Basic

/-! The parts of a tree, in the order in which they are printed. A property of a whole tree is a
property of each of its parts. -/
namespace Sql

inductive Node where
  | expr (e : Expr)
  | call (c : Call)
  | over (o : Over)
  | window (w : Window)
  | bound (b : Bound)
  | relation (r : Relation)
  | criteria (c : Criteria)
  | query (q : Query)
  | bindings (w : With)
  | cte (c : Cte)
  | body (b : Body)
  | select (s : Select)
  | item (i : SelectItem)
  | group (g : GroupBy)
  | grouping (e : GroupingElement)
  | namedWindow (w : NamedWindow)

mutual

def Expr.nodes : Expr → List Node
  | .literal v => [.expr (.literal v)]
  | .column n => [.expr (.column n)]
  | .parameter i => [.expr (.parameter i)]
  | .star r => [.expr (.star r)]
  | .binary l op r => .expr (.binary l op r) :: (l.nodes ++ r.nodes)
  | .unary op e => .expr (.unary op e) :: e.nodes
  | .isNull e n => .expr (.isNull e n) :: e.nodes
  | .isDistinct l r n => .expr (.isDistinct l r n) :: (l.nodes ++ r.nodes)
  | .like e p c n =>
    .expr (.like e p c n) :: (e.nodes ++ (p.nodes ++ Expr.nodes? c))
  | .between e l h n => .expr (.between e l h n) :: (e.nodes ++ (l.nodes ++ h.nodes))
  | .inList e items n => .expr (.inList e items n) :: (e.nodes ++ Expr.nodesAll items)
  | .inQuery e q n => .expr (.inQuery e q n) :: (e.nodes ++ q.nodes)
  | .existsQuery q => .expr (.existsQuery q) :: q.nodes
  | .subquery q => .expr (.subquery q) :: q.nodes
  | .call c => .expr (.call c) :: c.nodes
  | .cast e t s => .expr (.cast e t s) :: e.nodes
  | .caseWhen operand branches otherwise =>
    .expr (.caseWhen operand branches otherwise) ::
      (Expr.nodes? operand ++ (Expr.branchNodes branches ++ Expr.nodes? otherwise))
  | .array items => .expr (.array items) :: Expr.nodesAll items
  | .row items => .expr (.row items) :: Expr.nodesAll items
  | .subscript b i => .expr (.subscript b i) :: (b.nodes ++ i.nodes)
  | .field b x => .expr (.field b x) :: b.nodes
  | .lambda ps b => .expr (.lambda ps b) :: b.nodes
  | .interval t n s f => [.expr (.interval t n s f)]
  | .typed t x => [.expr (.typed t x)]
termination_by structural e => e

def Expr.nodesAll : List Expr → List Node
  | [] => []
  | e :: es => e.nodes ++ Expr.nodesAll es
termination_by structural es => es

def Expr.setNodes : List (List Expr) → List Node
  | [] => []
  | es :: sets => Expr.nodesAll es ++ Expr.setNodes sets
termination_by structural sets => sets

def Expr.branchNodes : List (Expr × Expr) → List Node
  | [] => []
  | (c, v) :: bs => c.nodes ++ (v.nodes ++ Expr.branchNodes bs)
termination_by structural bs => bs

def Expr.nodes? : Option Expr → List Node
  | none => []
  | some e => e.nodes
termination_by structural e => e

def Call.nodes : Call → List Node
  | ⟨name, quantifier, args, order, filter, nulls, window⟩ =>
    .call ⟨name, quantifier, args, order, filter, nulls, window⟩ ::
      (Expr.nodesAll args ++ (OrderTerm.nodesAll order ++
      (Expr.nodes? filter ++ Over.nodes? window)))
termination_by structural c => c

def OrderTerm.nodes : OrderTerm → List Node
  | ⟨e, _, _⟩ => e.nodes
termination_by structural t => t

def OrderTerm.nodesAll : List OrderTerm → List Node
  | [] => []
  | t :: ts => t.nodes ++ OrderTerm.nodesAll ts
termination_by structural ts => ts

def Over.nodes : Over → List Node
  | .named x => [.over (.named x)]
  | .window w => .over (.window w) :: w.nodes
termination_by structural o => o

def Over.nodes? : Option Over → List Node
  | none => []
  | some o => o.nodes
termination_by structural o => o

def Window.nodes : Window → List Node
  | ⟨base, partition, order, frame⟩ =>
    .window ⟨base, partition, order, frame⟩ ::
      (Expr.nodesAll partition ++ (OrderTerm.nodesAll order ++ Frame.nodes? frame))
termination_by structural w => w

def Frame.nodes : Frame → List Node
  | ⟨_, start, stop⟩ => start.nodes ++ Bound.nodes? stop
termination_by structural f => f

def Frame.nodes? : Option Frame → List Node
  | none => []
  | some f => f.nodes
termination_by structural f => f

def Bound.nodes : Bound → List Node
  | .unboundedPreceding => [.bound .unboundedPreceding]
  | .preceding e => .bound (.preceding e) :: e.nodes
  | .currentRow => [.bound .currentRow]
  | .following e => .bound (.following e) :: e.nodes
  | .unboundedFollowing => [.bound .unboundedFollowing]
termination_by structural b => b

def Bound.nodes? : Option Bound → List Node
  | none => []
  | some b => b.nodes
termination_by structural b => b

def Relation.nodes : Relation → List Node
  | .table n s => [.relation (.table n s)]
  | .renamed r x cs => .relation (.renamed r x cs) :: r.nodes
  | .join l r k c => .relation (.join l r k c) :: (l.nodes ++ (r.nodes ++ c.nodes))
  | .setOperation o => .relation (.setOperation o) :: o.nodes
  | .query q => .relation (.query q) :: q.nodes
  | .values rows => .relation (.values rows) :: Expr.nodesAll rows
  | .unnest args o => .relation (.unnest args o) :: Expr.nodesAll args
  | .lateral q => .relation (.lateral q) :: q.nodes
  | .sample r m p => .relation (.sample r m p) :: (r.nodes ++ p.nodes)
termination_by structural r => r

def Relation.nodesAll : List Relation → List Node
  | [] => []
  | r :: rs => r.nodes ++ Relation.nodesAll rs
termination_by structural rs => rs

def Criteria.nodes : Criteria → List Node
  | .condition e => .criteria (.condition e) :: e.nodes
  | .columns xs => [.criteria (.columns xs)]
  | .natural => [.criteria .natural]
  | .absent => [.criteria .absent]
termination_by structural c => c

def SetOperation.nodes : SetOperation → List Node
  | ⟨_, _, left, right⟩ => left.nodes ++ right.nodes
termination_by structural o => o

def Query.nodes : Query → List Node
  | ⟨bindings, body, order, offset, limit⟩ =>
    .query ⟨bindings, body, order, offset, limit⟩ ::
      (With.nodes? bindings ++ (body.nodes ++ OrderTerm.nodesAll order))
termination_by structural q => q

def With.nodes : With → List Node
  | ⟨recursive, entries⟩ => .bindings ⟨recursive, entries⟩ :: Cte.nodesAll entries
termination_by structural w => w

def With.nodes? : Option With → List Node
  | none => []
  | some w => w.nodes
termination_by structural w => w

def Cte.nodes : Cte → List Node
  | ⟨name, columns, query⟩ => .cte ⟨name, columns, query⟩ :: query.nodes
termination_by structural c => c

def Cte.nodesAll : List Cte → List Node
  | [] => []
  | c :: cs => c.nodes ++ Cte.nodesAll cs
termination_by structural cs => cs

def Body.nodes : Body → List Node
  | .select s => .body (.select s) :: s.nodes
  | .table n => [.body (.table n)]
  | .values rows => .body (.values rows) :: Expr.nodesAll rows
  | .setOperation o => .body (.setOperation o) :: o.nodes
  | .nested q => .body (.nested q) :: q.nodes
termination_by structural b => b

def Select.nodes : Select → List Node
  | ⟨quantifier, items, sources, filter, group, having, windows⟩ =>
    .select ⟨quantifier, items, sources, filter, group, having, windows⟩ ::
      (SelectItem.nodesAll items ++ (Relation.nodesAll sources ++
      (Expr.nodes? filter ++ (GroupBy.nodes? group ++
      (Expr.nodes? having ++ NamedWindow.nodesAll windows)))))
termination_by structural s => s

def SelectItem.nodes : SelectItem → List Node
  | .expr e x => .item (.expr e x) :: e.nodes
  | .star r xs => [.item (.star r xs)]
termination_by structural i => i

def SelectItem.nodesAll : List SelectItem → List Node
  | [] => []
  | i :: is => i.nodes ++ SelectItem.nodesAll is
termination_by structural is => is

def GroupBy.nodes : GroupBy → List Node
  | ⟨quantifier, elements⟩ => .group ⟨quantifier, elements⟩ :: GroupingElement.nodesAll elements
termination_by structural g => g

def GroupBy.nodes? : Option GroupBy → List Node
  | none => []
  | some g => g.nodes
termination_by structural g => g

def GroupingElement.nodes : GroupingElement → List Node
  | .expr e => .grouping (.expr e) :: e.nodes
  | .rollup es => .grouping (.rollup es) :: Expr.nodesAll es
  | .cube es => .grouping (.cube es) :: Expr.nodesAll es
  | .sets sets => .grouping (.sets sets) :: Expr.setNodes sets
termination_by structural e => e

def GroupingElement.nodesAll : List GroupingElement → List Node
  | [] => []
  | e :: es => e.nodes ++ GroupingElement.nodesAll es
termination_by structural es => es

def NamedWindow.nodes : NamedWindow → List Node
  | ⟨name, window⟩ => .namedWindow ⟨name, window⟩ :: window.nodes
termination_by structural w => w

def NamedWindow.nodesAll : List NamedWindow → List Node
  | [] => []
  | w :: ws => w.nodes ++ NamedWindow.nodesAll ws
termination_by structural ws => ws

end

theorem Call.mem_nodes (c : Call) : .call c ∈ c.nodes := by
  cases c
  simp [Call.nodes]

theorem Relation.mem_nodes (r : Relation) : .relation r ∈ r.nodes := by
  cases r <;> simp [Relation.nodes]

theorem Query.mem_nodes (q : Query) : .query q ∈ q.nodes := by
  cases q
  simp [Query.nodes]

/-- All the parts are in the list. -/
def Among (parts nodes : List Node) : Prop := nodes ⊆ parts

namespace Among

variable {parts nodes before after : List Node} {node : Node}

theorem head (h : Among parts (node :: nodes)) : node ∈ parts := h List.mem_cons_self

theorem tail (h : Among parts (node :: nodes)) : Among parts nodes :=
  (List.cons_subset.1 h).2

theorem left (h : Among parts (before ++ after)) : Among parts before :=
  (List.append_subset.1 h).1

theorem right (h : Among parts (before ++ after)) : Among parts after :=
  (List.append_subset.1 h).2

end Among

end Sql
