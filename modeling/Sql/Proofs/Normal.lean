import Sql.Tree.Precedence

/-! The tree that the printed text of a tree stands for: names are delimited, signs are operators,
and operators that are printed in a row are grouped from the left. -/
namespace Sql

/-- The name as it is read back from between quotes. -/
def Ident.delimit (x : Ident) : Ident := .quoted x.text

def Name.delimit (n : Name) : Name := ⟨n.qualifier.map Ident.delimit, n.base.delimit⟩

namespace Expr

/-- Puts `left op` in front of the first operand of a chain of operators of the same tier. -/
def prepend (left : Expr) (op : BinaryOp) : Expr → Expr
  | .binary x op' y =>
    if op'.tier = op.tier then .binary (prepend left op x) op' y
    else .binary left op (.binary x op' y)
  | e => .binary left op e
termination_by structural e => e

/-- The two operands as they are grouped after printing: a right operand that goes without
parentheses becomes part of the chain. -/
def regroup (left : Expr) (op : BinaryOp) (right : Expr) : Expr :=
  if right.isBinaryOf op && op.isAssociative then prepend left op right else .binary left op right

end Expr

namespace Literal

/-- The size of a negative integer. That of the least one is too large for an integer. -/
def magnitude (n : Int64) : Literal :=
  if n = .minValue then .decimal (Text.decimal n.toInt.natAbs) else .integer (-n)

/-- An infinite number is read back as a call, and a negative number as its size behind a sign. -/
def normal : Literal → Expr
  | .integer n => if n < 0 then .unary .minus (.literal (magnitude n)) else .literal (.integer n)
  | .double d =>
    if d.isInfinite then
      let size : Expr := .call (.plain (.single (.plain "infinity")) [])
      if d.negative then .unary .minus size else size
    else .literal (.double d)
  | v => .literal v

end Literal

mutual

def Expr.normal : Expr → Expr
  | .literal v => v.normal
  | .column n => .column n.delimit
  | .parameter i => .parameter i
  | .star r => .star (r.map Name.delimit)
  | .binary l op r => .regroup l.normal op r.normal
  | .unary op e => .unary op e.normal
  | .isNull e n => .isNull e.normal n
  | .isDistinct l r n => .isDistinct l.normal r.normal n
  | .like e p c n => .like e.normal p.normal (Expr.normal? c) n
  | .between e l h n => .between e.normal l.normal h.normal n
  | .inList e items n => .inList e.normal (Expr.normals items) n
  | .inQuery e q n => .inQuery e.normal q.normal n
  | .existsQuery q => .existsQuery q.normal
  | .subquery q => .subquery q.normal
  | .call c => .call c.normal
  | .cast e t s => .cast e.normal t s
  | .caseWhen o bs e => .caseWhen (Expr.normal? o) (Expr.normalBranches bs) (Expr.normal? e)
  | .array items => .array (Expr.normals items)
  | .row items => .row (Expr.normals items)
  | .subscript b i => .subscript b.normal i.normal
  | .field b x => .field b.normal x.delimit
  | .lambda ps b => .lambda (ps.map Ident.delimit) b.normal
  | .interval t n s f => .interval t n s f
  | .typed t x => .typed t x
termination_by structural e => e

def Expr.normals : List Expr → List Expr
  | [] => []
  | e :: es => e.normal :: Expr.normals es
termination_by structural es => es

def Expr.normalSets : List (List Expr) → List (List Expr)
  | [] => []
  | es :: sets => Expr.normals es :: Expr.normalSets sets
termination_by structural sets => sets

def Expr.normalBranches : List (Expr × Expr) → List (Expr × Expr)
  | [] => []
  | (c, v) :: bs => (c.normal, v.normal) :: Expr.normalBranches bs
termination_by structural bs => bs

def Expr.normal? : Option Expr → Option Expr
  | none => none
  | some e => some e.normal
termination_by structural e => e

/-- The name of a function is printed as it is. -/
def Call.normal : Call → Call
  | ⟨name, quantifier, args, order, filter, nulls, window⟩ =>
    ⟨name, quantifier, Expr.normals args, OrderTerm.normals order, Expr.normal? filter, nulls,
      Over.normal? window⟩
termination_by structural c => c

def OrderTerm.normal : OrderTerm → OrderTerm
  | ⟨e, descending, nulls⟩ => ⟨e.normal, descending, nulls⟩
termination_by structural t => t

def OrderTerm.normals : List OrderTerm → List OrderTerm
  | [] => []
  | t :: ts => t.normal :: OrderTerm.normals ts
termination_by structural ts => ts

def Over.normal : Over → Over
  | .named x => .named x.delimit
  | .window w => .window w.normal
termination_by structural o => o

def Over.normal? : Option Over → Option Over
  | none => none
  | some o => some o.normal
termination_by structural o => o

def Window.normal : Window → Window
  | ⟨base, partition, order, frame⟩ =>
    ⟨base.map Ident.delimit, Expr.normals partition, OrderTerm.normals order, Frame.normal? frame⟩
termination_by structural w => w

def Frame.normal : Frame → Frame
  | ⟨units, start, stop⟩ => ⟨units, start.normal, Bound.normal? stop⟩
termination_by structural f => f

def Frame.normal? : Option Frame → Option Frame
  | none => none
  | some f => some f.normal
termination_by structural f => f

def Bound.normal : Bound → Bound
  | .unboundedPreceding => .unboundedPreceding
  | .preceding e => .preceding e.normal
  | .currentRow => .currentRow
  | .following e => .following e.normal
  | .unboundedFollowing => .unboundedFollowing
termination_by structural b => b

def Bound.normal? : Option Bound → Option Bound
  | none => none
  | some b => some b.normal
termination_by structural b => b

def Relation.normal : Relation → Relation
  | .table n s => .table n.delimit s
  | .renamed r x cs => .renamed r.normal x.delimit (cs.map Ident.delimit)
  | .join l r k c => .join l.normal r.normal k c.normal
  | .setOperation o => .setOperation o.normal
  | .query q => .query q.normal
  | .values rows => .values (Expr.normals rows)
  | .unnest args o => .unnest (Expr.normals args) o
  | .lateral q => .lateral q.normal
  | .sample r m p => .sample r.normal m p.normal
termination_by structural r => r

def Relation.normals : List Relation → List Relation
  | [] => []
  | r :: rs => r.normal :: Relation.normals rs
termination_by structural rs => rs

def Criteria.normal : Criteria → Criteria
  | .condition e => .condition e.normal
  | .columns xs => .columns (xs.map Ident.delimit)
  | .natural => .natural
  | .absent => .absent
termination_by structural c => c

def SetOperation.normal : SetOperation → SetOperation
  | ⟨operator, all, left, right⟩ => ⟨operator, all, left.normal, right.normal⟩
termination_by structural o => o

def Query.normal : Query → Query
  | ⟨bindings, body, order, offset, limit⟩ =>
    ⟨With.normal? bindings, body.normal, OrderTerm.normals order, offset, limit⟩
termination_by structural q => q

def With.normal : With → With
  | ⟨recursive, entries⟩ => ⟨recursive, Cte.normals entries⟩
termination_by structural w => w

def With.normal? : Option With → Option With
  | none => none
  | some w => some w.normal
termination_by structural w => w

def Cte.normal : Cte → Cte
  | ⟨name, columns, query⟩ => ⟨name.delimit, columns.map Ident.delimit, query.normal⟩
termination_by structural c => c

def Cte.normals : List Cte → List Cte
  | [] => []
  | c :: cs => c.normal :: Cte.normals cs
termination_by structural cs => cs

def Body.normal : Body → Body
  | .select s => .select s.normal
  | .table n => .table n.delimit
  | .values rows => .values (Expr.normals rows)
  | .setOperation o => .setOperation o.normal
  | .nested q => .nested q.normal
termination_by structural b => b

def Select.normal : Select → Select
  | ⟨quantifier, items, sources, filter, group, having, windows⟩ =>
    ⟨quantifier, SelectItem.normals items, Relation.normals sources, Expr.normal? filter,
      GroupBy.normal? group, Expr.normal? having, NamedWindow.normals windows⟩
termination_by structural s => s

/-- A selected star is read back as a star item, whatever it was before. -/
def SelectItem.normal : SelectItem → SelectItem
  | .expr e x =>
    match e.normal, x with
    | .star r, none => .star r []
    | e, x => .expr e (x.map Ident.delimit)
  | .star r xs => .star (r.map Name.delimit) (xs.map Ident.delimit)
termination_by structural i => i

def SelectItem.normals : List SelectItem → List SelectItem
  | [] => []
  | i :: is => i.normal :: SelectItem.normals is
termination_by structural is => is

def GroupBy.normal : GroupBy → GroupBy
  | ⟨quantifier, elements⟩ => ⟨quantifier, GroupingElement.normals elements⟩
termination_by structural g => g

def GroupBy.normal? : Option GroupBy → Option GroupBy
  | none => none
  | some g => some g.normal
termination_by structural g => g

def GroupingElement.normal : GroupingElement → GroupingElement
  | .expr e => .expr e.normal
  | .rollup es => .rollup (Expr.normals es)
  | .cube es => .cube (Expr.normals es)
  | .sets sets => .sets (Expr.normalSets sets)
termination_by structural e => e

def GroupingElement.normals : List GroupingElement → List GroupingElement
  | [] => []
  | e :: es => e.normal :: GroupingElement.normals es
termination_by structural es => es

def NamedWindow.normal : NamedWindow → NamedWindow
  | ⟨name, window⟩ => ⟨name.delimit, window.normal⟩
termination_by structural w => w

def NamedWindow.normals : List NamedWindow → List NamedWindow
  | [] => []
  | w :: ws => w.normal :: NamedWindow.normals ws
termination_by structural ws => ws

end

/-! ### Lists of trees -/

theorem Expr.normals_eq (es : List Expr) : normals es = es.map normal := by
  induction es with
  | nil => rfl
  | cons e es ih => rw [normals, ih, List.map_cons]

theorem OrderTerm.normals_eq (ts : List OrderTerm) : normals ts = ts.map normal := by
  induction ts with
  | nil => rfl
  | cons t ts ih => rw [normals, ih, List.map_cons]

theorem Relation.normals_eq (rs : List Relation) : normals rs = rs.map normal := by
  induction rs with
  | nil => rfl
  | cons r rs ih => rw [normals, ih, List.map_cons]

theorem Cte.normals_eq (cs : List Cte) : normals cs = cs.map normal := by
  induction cs with
  | nil => rfl
  | cons c cs ih => rw [normals, ih, List.map_cons]

theorem SelectItem.normals_eq (is : List SelectItem) : normals is = is.map normal := by
  induction is with
  | nil => rfl
  | cons i is ih => rw [normals, ih, List.map_cons]

theorem GroupingElement.normals_eq (es : List GroupingElement) : normals es = es.map normal := by
  induction es with
  | nil => rfl
  | cons e es ih => rw [normals, ih, List.map_cons]

end Sql
