import Sql.Tree.Basic

/-! Equality of trees up to the spelling of names: identifiers compare by key and doubles as
numbers. -/
namespace Sql

mutual

def Expr.same : Expr → Expr → Bool
  | .literal a, .literal b => a.same b
  | .column m, .column n => m.same n
  | .parameter i, .parameter j => i == j
  | .star r, .star s => sameOption Name.same r s
  | .binary l op r, .binary l' op' r' => l.same l' && op == op' && r.same r'
  | .unary op e, .unary op' e' => op == op' && e.same e'
  | .isNull e n, .isNull e' n' => e.same e' && n == n'
  | .isDistinct l r n, .isDistinct l' r' n' => l.same l' && r.same r' && n == n'
  | .like e p c n, .like e' p' c' n' =>
    e.same e' && p.same p' && Expr.sameOpt c c' && n == n'
  | .between e l h n, .between e' l' h' n' => e.same e' && l.same l' && h.same h' && n == n'
  | .inList e xs n, .inList e' xs' n' => e.same e' && Expr.sameAll xs xs' && n == n'
  | .inQuery e q n, .inQuery e' q' n' => e.same e' && q.same q' && n == n'
  | .existsQuery q, .existsQuery q' => q.same q'
  | .subquery q, .subquery q' => q.same q'
  | .call c, .call c' => c.same c'
  | .cast e t s, .cast e' t' s' => e.same e' && t == t' && s == s'
  | .caseWhen o bs e, .caseWhen o' bs' e' =>
    Expr.sameOpt o o' && Expr.sameBranches bs bs' && Expr.sameOpt e e'
  | .array xs, .array ys => Expr.sameAll xs ys
  | .row xs, .row ys => Expr.sameAll xs ys
  | .subscript b i, .subscript b' i' => b.same b' && i.same i'
  | .field b x, .field b' x' => b.same b' && x.same x'
  | .lambda ps b, .lambda ps' b' => sameList Ident.same ps ps' && b.same b'
  | .interval t n s f, .interval t' n' s' f' => t == t' && n == n' && s == s' && f == f'
  | .typed t x, .typed t' x' => t == t' && x == x'
  | _, _ => false
termination_by structural e => e

def Expr.sameAll : List Expr → List Expr → Bool
  | [], [] => true
  | x :: xs, y :: ys => x.same y && Expr.sameAll xs ys
  | _, _ => false
termination_by structural xs => xs

def Expr.sameSets : List (List Expr) → List (List Expr) → Bool
  | [], [] => true
  | x :: xs, y :: ys => Expr.sameAll x y && Expr.sameSets xs ys
  | _, _ => false
termination_by structural xs => xs

def Expr.sameBranches : List (Expr × Expr) → List (Expr × Expr) → Bool
  | [], [] => true
  | (c, r) :: bs, (c', r') :: bs' => c.same c' && r.same r' && Expr.sameBranches bs bs'
  | _, _ => false
termination_by structural bs => bs

def Expr.sameOpt : Option Expr → Option Expr → Bool
  | none, none => true
  | some e, some e' => e.same e'
  | _, _ => false
termination_by structural e => e

def Call.same : Call → Call → Bool
  | ⟨name, quantifier, args, order, filter, nulls, window⟩, c =>
    name.same c.name && quantifier == c.quantifier && Expr.sameAll args c.args &&
      OrderTerm.sameAll order c.order && Expr.sameOpt filter c.filter && nulls == c.nulls &&
      Over.sameOpt window c.window
termination_by structural c => c

def OrderTerm.same : OrderTerm → OrderTerm → Bool
  | ⟨expr, descending, nulls⟩, t =>
    expr.same t.expr && descending == t.descending && nulls == t.nulls
termination_by structural t => t

def OrderTerm.sameAll : List OrderTerm → List OrderTerm → Bool
  | [], [] => true
  | x :: xs, y :: ys => x.same y && OrderTerm.sameAll xs ys
  | _, _ => false
termination_by structural xs => xs

def Over.same : Over → Over → Bool
  | .named x, .named y => x.same y
  | .window w, .window v => w.same v
  | _, _ => false
termination_by structural o => o

def Over.sameOpt : Option Over → Option Over → Bool
  | none, none => true
  | some o, some o' => o.same o'
  | _, _ => false
termination_by structural o => o

def Window.same : Window → Window → Bool
  | ⟨base, partition, order, frame⟩, w =>
    sameOption Ident.same base w.base && Expr.sameAll partition w.partition &&
      OrderTerm.sameAll order w.order && Frame.sameOpt frame w.frame
termination_by structural w => w

def Frame.same : Frame → Frame → Bool
  | ⟨units, start, stop⟩, f =>
    units == f.units && start.same f.start && Bound.sameOpt stop f.stop
termination_by structural f => f

def Frame.sameOpt : Option Frame → Option Frame → Bool
  | none, none => true
  | some f, some f' => f.same f'
  | _, _ => false
termination_by structural f => f

def Bound.same : Bound → Bound → Bool
  | .unboundedPreceding, .unboundedPreceding => true
  | .preceding e, .preceding e' => e.same e'
  | .currentRow, .currentRow => true
  | .following e, .following e' => e.same e'
  | .unboundedFollowing, .unboundedFollowing => true
  | _, _ => false
termination_by structural b => b

def Bound.sameOpt : Option Bound → Option Bound → Bool
  | none, none => true
  | some b, some b' => b.same b'
  | _, _ => false
termination_by structural b => b

def Relation.same : Relation → Relation → Bool
  | .table n s, .table n' s' => n.same n' && sameOption Schema.same s s'
  | .renamed r x cs, .renamed r' x' cs' => r.same r' && x.same x' && sameList Ident.same cs cs'
  | .join l r k c, .join l' r' k' c' => l.same l' && r.same r' && k == k' && c.same c'
  | .setOperation o, .setOperation o' => o.same o'
  | .query q, .query q' => q.same q'
  | .values rows, .values rows' => Expr.sameAll rows rows'
  | .unnest args o, .unnest args' o' => Expr.sameAll args args' && o == o'
  | .lateral q, .lateral q' => q.same q'
  | .sample r m p, .sample r' m' p' => r.same r' && m == m' && p.same p'
  | _, _ => false
termination_by structural r => r

def Relation.sameAll : List Relation → List Relation → Bool
  | [], [] => true
  | x :: xs, y :: ys => x.same y && Relation.sameAll xs ys
  | _, _ => false
termination_by structural xs => xs

def Criteria.same : Criteria → Criteria → Bool
  | .condition e, .condition e' => e.same e'
  | .columns xs, .columns ys => sameList Ident.same xs ys
  | .natural, .natural => true
  | .absent, .absent => true
  | _, _ => false
termination_by structural c => c

def SetOperation.same : SetOperation → SetOperation → Bool
  | ⟨operator, all, left, right⟩, o =>
    operator == o.operator && all == o.all && left.same o.left && right.same o.right
termination_by structural o => o

def Query.same : Query → Query → Bool
  | ⟨bindings, body, order, offset, limit⟩, q =>
    With.sameOpt bindings q.bindings && body.same q.body && OrderTerm.sameAll order q.order &&
      offset == q.offset && limit == q.limit
termination_by structural q => q

def With.same : With → With → Bool
  | ⟨recursive, entries⟩, w => recursive == w.recursive && Cte.sameAll entries w.entries
termination_by structural w => w

def With.sameOpt : Option With → Option With → Bool
  | none, none => true
  | some w, some w' => w.same w'
  | _, _ => false
termination_by structural w => w

def Cte.same : Cte → Cte → Bool
  | ⟨name, columns, query⟩, c =>
    name.same c.name && sameList Ident.same columns c.columns && query.same c.query
termination_by structural c => c

def Cte.sameAll : List Cte → List Cte → Bool
  | [], [] => true
  | x :: xs, y :: ys => x.same y && Cte.sameAll xs ys
  | _, _ => false
termination_by structural xs => xs

def Body.same : Body → Body → Bool
  | .select s, .select s' => s.same s'
  | .table n, .table n' => n.same n'
  | .values rows, .values rows' => Expr.sameAll rows rows'
  | .setOperation o, .setOperation o' => o.same o'
  | .nested q, .nested q' => q.same q'
  | _, _ => false
termination_by structural b => b

def Select.same : Select → Select → Bool
  | ⟨quantifier, items, sources, filter, group, having, windows⟩, s =>
    quantifier == s.quantifier && SelectItem.sameAll items s.items &&
      Relation.sameAll sources s.sources && Expr.sameOpt filter s.filter &&
      GroupBy.sameOpt group s.group && Expr.sameOpt having s.having &&
      NamedWindow.sameAll windows s.windows
termination_by structural s => s

def SelectItem.same : SelectItem → SelectItem → Bool
  | .expr e x, .expr e' x' => e.same e' && sameOption Ident.same x x'
  | .star r xs, .star r' xs' => sameOption Name.same r r' && sameList Ident.same xs xs'
  | _, _ => false
termination_by structural i => i

def SelectItem.sameAll : List SelectItem → List SelectItem → Bool
  | [], [] => true
  | x :: xs, y :: ys => x.same y && SelectItem.sameAll xs ys
  | _, _ => false
termination_by structural xs => xs

def GroupBy.same : GroupBy → GroupBy → Bool
  | ⟨quantifier, elements⟩, g =>
    quantifier == g.quantifier && GroupingElement.sameAll elements g.elements
termination_by structural g => g

def GroupBy.sameOpt : Option GroupBy → Option GroupBy → Bool
  | none, none => true
  | some g, some g' => g.same g'
  | _, _ => false
termination_by structural g => g

def GroupingElement.same : GroupingElement → GroupingElement → Bool
  | .expr e, .expr e' => e.same e'
  | .rollup xs, .rollup ys => Expr.sameAll xs ys
  | .cube xs, .cube ys => Expr.sameAll xs ys
  | .sets xs, .sets ys => Expr.sameSets xs ys
  | _, _ => false
termination_by structural e => e

def GroupingElement.sameAll : List GroupingElement → List GroupingElement → Bool
  | [], [] => true
  | x :: xs, y :: ys => x.same y && GroupingElement.sameAll xs ys
  | _, _ => false
termination_by structural xs => xs

def NamedWindow.same : NamedWindow → NamedWindow → Bool
  | ⟨name, window⟩, w => name.same w.name && window.same w.window
termination_by structural w => w

def NamedWindow.sameAll : List NamedWindow → List NamedWindow → Bool
  | [], [] => true
  | x :: xs, y :: ys => x.same y && NamedWindow.sameAll xs ys
  | _, _ => false
termination_by structural xs => xs

end

end Sql
