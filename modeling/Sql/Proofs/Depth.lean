import Sql.DataType.Basic
import Sql.Proofs.Tokens

/-! How deeply the printed text of a tree is nested. -/
namespace Sql

/-- Parentheses around a piece of syntax add one level. -/
def parensDepth (needed : Bool) (depth : Nat) : Nat := if needed then depth + 1 else depth

mutual

def DataType.depth : DataType → Nat
  | .unknown | .scalar _ => 1
  | .array t => t.depth + 1
  | .map k v => max k.depth v.depth + 1
  | .row fields => RowField.depthAll fields + 1
termination_by structural t => t

def RowField.depth : RowField → Nat
  | ⟨_, t⟩ => t.depth
termination_by structural f => f

def RowField.depthAll : List RowField → Nat
  | [] => 0
  | f :: fs => max f.depth (RowField.depthAll fs)
termination_by structural fs => fs

end

mutual

def Expr.depth : Expr → Nat
  | .literal _ | .column _ | .parameter _ | .star _ | .interval .. | .typed .. => 1
  | .binary l op r =>
    max (parensDepth (l.needsParens op .left) l.depth)
      (parensDepth (r.needsParens op .right) r.depth + 1)
  | .unary .not e => parensDepth (e.isLooser .not) e.depth + 1
  | .unary _ e => parensDepth (e.isLooser .unary || e.startsWithSign) e.depth + 1
  | .isNull e _ => parensDepth (e.isLooser .concat) e.depth
  | .isDistinct l r _ =>
    max (parensDepth (l.isLooser .concat) l.depth) (parensDepth (r.isLooser .concat) r.depth + 1)
  | .like e p c _ =>
    max (parensDepth (e.isLooser .concat) e.depth)
      (max (parensDepth (p.isLooser .concat) p.depth + 1) (Expr.escapeDepth c))
  | .between e l h _ =>
    max (parensDepth (e.isLooser .concat) e.depth)
      (max (parensDepth (l.isLooser .concat) l.depth + 1)
        (parensDepth (h.isLooser .concat) h.depth + 1))
  | .inList e items _ =>
    max (parensDepth (e.isLooser .concat) e.depth) (Expr.depthAll items + 1)
  | .inQuery e q _ => max (parensDepth (e.isLooser .concat) e.depth) (q.depth + 1)
  | .existsQuery q | .subquery q => q.depth + 1
  | .call c => c.depth
  | .cast e t _ => max e.depth t.depth + 1
  | .caseWhen operand branches otherwise =>
    max (Expr.depth? operand) (max (Expr.branchDepth branches) (Expr.depth? otherwise)) + 1
  | .array items | .row items => Expr.depthAll items + 1
  | .subscript b i => max (parensDepth (b.isLooser .access) b.depth) (i.depth + 1)
  | .field b _ => parensDepth (b.isColumn || b.isLooser .access) b.depth
  | .lambda _ b => b.depth + 1
termination_by structural e => e

def Expr.depthAll : List Expr → Nat
  | [] => 0
  | e :: es => max e.depth (Expr.depthAll es)
termination_by structural es => es

def Expr.setDepth : List (List Expr) → Nat
  | [] => 0
  | es :: sets => max (Expr.depthAll es) (Expr.setDepth sets)
termination_by structural sets => sets

def Expr.branchDepth : List (Expr × Expr) → Nat
  | [] => 0
  | (c, v) :: bs => max c.depth (max v.depth (Expr.branchDepth bs))
termination_by structural bs => bs

def Expr.depth? : Option Expr → Nat
  | none => 0
  | some e => e.depth
termination_by structural e => e

def Expr.escapeDepth : Option Expr → Nat
  | none => 0
  | some e => parensDepth (e.isLooser .concat) e.depth + 1
termination_by structural e => e

def Call.depth : Call → Nat
  | ⟨_, _, args, order, filter, _, window⟩ =>
    max (Expr.depthAll args) (max (OrderTerm.depthAll order)
      (max (Expr.depth? filter) (Over.depth? window))) + 1
termination_by structural c => c

def OrderTerm.depth : OrderTerm → Nat
  | ⟨e, _, _⟩ => e.depth
termination_by structural t => t

def OrderTerm.depthAll : List OrderTerm → Nat
  | [] => 0
  | t :: ts => max t.depth (OrderTerm.depthAll ts)
termination_by structural ts => ts

def Over.depth : Over → Nat
  | .named _ => 0
  | .window w => w.depth
termination_by structural o => o

def Over.depth? : Option Over → Nat
  | none => 0
  | some o => o.depth
termination_by structural o => o

def Window.depth : Window → Nat
  | ⟨_, partition, order, frame⟩ =>
    max (Expr.depthAll partition) (max (OrderTerm.depthAll order) (Frame.depth? frame))
termination_by structural w => w

def Frame.depth : Frame → Nat
  | ⟨_, start, stop⟩ => max start.depth (Bound.depth? stop)
termination_by structural f => f

def Frame.depth? : Option Frame → Nat
  | none => 0
  | some f => f.depth
termination_by structural f => f

def Bound.depth : Bound → Nat
  | .preceding e | .following e => parensDepth (e.isLooser .concat) e.depth
  | _ => 0
termination_by structural b => b

def Bound.depth? : Option Bound → Nat
  | none => 0
  | some b => b.depth
termination_by structural b => b

def Relation.depth : Relation → Nat
  | .table .. => 1
  | .renamed r _ _ => parensDepth (r.tier.rank ≤ Relation.Tier.renamed.rank) r.depth
  | .join l r _ c =>
    max l.depth (max (parensDepth (r.tier.rank ≤ Relation.Tier.join.rank) r.depth) (c.depth + 1))
  | .setOperation o => o.depth + 1
  | .query q | .lateral q => q.depth + 1
  | .values rows => Expr.depthAll rows + 2
  | .unnest args _ => Expr.depthAll args + 1
  | .sample r _ p =>
    max (parensDepth (r.tier.rank ≤ Relation.Tier.sampled.rank) r.depth) (p.depth + 1)
termination_by structural r => r

def Relation.depthAll : List Relation → Nat
  | [] => 0
  | r :: rs => max r.depth (Relation.depthAll rs)
termination_by structural rs => rs

def Criteria.depth : Criteria → Nat
  | .condition e => e.depth
  | _ => 0
termination_by structural c => c

def SetOperation.depth : SetOperation → Nat
  | ⟨operator, _, left, right⟩ =>
    max (parensDepth (SetOperation.needsParens operator .left left) left.depth)
      (parensDepth (SetOperation.needsParens operator .right right) right.depth)
termination_by structural o => o

def Query.depth : Query → Nat
  | ⟨bindings, body, order, _, _⟩ =>
    max (With.depth? bindings) (max body.depth (OrderTerm.depthAll order + 1))
termination_by structural q => q

def With.depth : With → Nat
  | ⟨_, entries⟩ => Cte.depthAll entries
termination_by structural w => w

def With.depth? : Option With → Nat
  | none => 0
  | some w => w.depth + 1
termination_by structural w => w

def Cte.depth : Cte → Nat
  | ⟨_, _, query⟩ => query.depth
termination_by structural c => c

def Cte.depthAll : List Cte → Nat
  | [] => 0
  | c :: cs => max c.depth (Cte.depthAll cs)
termination_by structural cs => cs

def Body.depth : Body → Nat
  | .select s => s.depth + 1
  | .table _ => 1
  | .values rows => Expr.depthAll rows + 1
  | .setOperation o => o.depth
  | .nested q => q.depth + 1
termination_by structural b => b

def Select.depth : Select → Nat
  | ⟨_, items, sources, filter, group, having, windows⟩ =>
    max (SelectItem.depthAll items) (max (Relation.depthAll sources)
      (max (Expr.depth? filter) (max (GroupBy.depth? group)
        (max (Expr.depth? having) (NamedWindow.depthAll windows)))))
termination_by structural s => s

def SelectItem.depth : SelectItem → Nat
  | .expr e _ => e.depth
  | .star .. => 0
termination_by structural i => i

def SelectItem.depthAll : List SelectItem → Nat
  | [] => 0
  | i :: is => max i.depth (SelectItem.depthAll is)
termination_by structural is => is

def GroupBy.depth : GroupBy → Nat
  | ⟨_, elements⟩ => GroupingElement.depthAll elements
termination_by structural g => g

def GroupBy.depth? : Option GroupBy → Nat
  | none => 0
  | some g => g.depth
termination_by structural g => g

def GroupingElement.depth : GroupingElement → Nat
  | .expr e => e.depth
  | .rollup es | .cube es => Expr.depthAll es
  | .sets sets => Expr.setDepth sets
termination_by structural e => e

def GroupingElement.depthAll : List GroupingElement → Nat
  | [] => 0
  | e :: es => max e.depth (GroupingElement.depthAll es)
termination_by structural es => es

def NamedWindow.depth : NamedWindow → Nat
  | ⟨_, window⟩ => window.depth
termination_by structural w => w

def NamedWindow.depthAll : List NamedWindow → Nat
  | [] => 0
  | w :: ws => max w.depth (NamedWindow.depthAll ws)
termination_by structural ws => ws

end

theorem Expr.depth_sign {op : UnaryOp} {e : Expr} (h : op ≠ .not) : (Expr.unary op e).depth =
    parensDepth (e.isLooser .unary || e.startsWithSign) e.depth + 1 := by
  rw [Expr.depth]
  exact h

/-! ### Every tree has a level -/

theorem le_parensDepth (b : Bool) (d : Nat) : d ≤ parensDepth b d := by
  cases b
  · exact Nat.le_refl d
  · exact Nat.le_succ d

theorem DataType.one_le_depth (t : DataType) : 1 ≤ t.depth := by
  cases t <;> simp [DataType.depth]

mutual

theorem Expr.one_le_depth : (e : Expr) → 1 ≤ e.depth
  | .isNull e _ => by
    rw [Expr.depth]
    exact Nat.le_trans e.one_le_depth (le_parensDepth ..)
  | .field b _ => by
    rw [Expr.depth]
    exact Nat.le_trans b.one_le_depth (le_parensDepth ..)
  | .call ⟨_, _, _, _, _, _, _⟩ => by
    rw [Expr.depth, Call.depth]
    exact Nat.le_add_left ..
  | .unary op _ => by cases op <;> simp [Expr.depth]
  | .literal _ | .column _ | .parameter _ | .star _ | .interval .. | .typed .. | .existsQuery _
  | .subquery _ | .cast .. | .caseWhen .. | .array _ | .row _ | .lambda .. => by simp [Expr.depth]
  | .binary .. | .isDistinct .. | .like .. | .between .. | .inList .. | .inQuery ..
  | .subscript .. => by
    rw [Expr.depth]
    omega
termination_by structural e => e

theorem Relation.one_le_depth : (r : Relation) → 1 ≤ r.depth
  | .renamed r _ _ => by
    rw [Relation.depth]
    exact Nat.le_trans r.one_le_depth (le_parensDepth ..)
  | .table .. | .setOperation _ | .query _ | .lateral _ | .values _ | .unnest .. => by
    simp [Relation.depth]
  | .join .. | .sample .. => by
    rw [Relation.depth]
    omega
termination_by structural r => r

end

theorem Query.one_le_depth (q : Query) : 1 ≤ q.depth := by
  obtain ⟨bindings, body, order, offset, limit⟩ := q
  rw [Query.depth]
  omega

end Sql
