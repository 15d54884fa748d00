import Sql.Print.Tree
import Sql.Proofs.Nodes
import Sql.Token.Basic

/-! The texts that are printed between quotes, in the order in which they are printed, and trees and
tokens with those texts blotted out. -/
namespace Sql

/-- A text between quotes. -/
inductive Quoted where
  | string (text : String)
  | name (text : String)
deriving DecidableEq

/-- What stands for every text that is blotted out. -/
def blot : String := "_"

/-- Names and strings: tokens that carry a quoted text. -/
def Token.Kind.quoted? : Token.Kind → Option Quoted
  | .string text => some (.string text)
  | .ident x => if x.delimited then some (.name x.text) else none
  | _ => none

def Token.Kind.mask : Token.Kind → Token.Kind
  | .string _ => .string blot
  | .ident x => if x.delimited then .ident (.quoted blot) else .ident x
  | k => k

namespace Ident

def quote (x : Ident) : Quoted := .name x.text

/-- The name with another text. -/
def mask (x : Ident) : Ident := ⟨blot, x.delimited⟩

/-- A part of the name of a function, which is quoted only if it is delimited. -/
def callQuotes (x : Ident) : List Quoted := if x.delimited then [x.quote] else []

def maskCall (x : Ident) : Ident := if x.delimited then x.mask else x

end Ident

namespace Name

def quotes (n : Name) : List Quoted := n.parts.map Ident.quote

def quotes? (n : Option Name) : List Quoted := n.elim [] quotes

def mask (n : Name) : Name := ⟨n.qualifier.map Ident.mask, n.base.mask⟩

def callQuotes (n : Name) : List Quoted := n.parts.flatMap Ident.callQuotes

def maskCall (n : Name) : Name := ⟨n.qualifier.map Ident.maskCall, n.base.maskCall⟩

end Name

def Literal.quotes : Literal → List Quoted
  | .string text => [.string text]
  | _ => []

def Literal.mask : Literal → Literal
  | .string _ => .string blot
  | v => v

/-! ### Types -/

mutual

def DataType.quotes : DataType → List Quoted
  | .unknown | .scalar _ => []
  | .array t => t.quotes
  | .map k v => k.quotes ++ v.quotes
  | .row fields => RowField.quotesAll fields
termination_by structural t => t

def RowField.quotes : RowField → List Quoted
  | ⟨none, t⟩ => t.quotes
  | ⟨some name, t⟩ => .name name :: t.quotes
termination_by structural f => f

def RowField.quotesAll : List RowField → List Quoted
  | [] => []
  | f :: fs => f.quotes ++ RowField.quotesAll fs
termination_by structural fs => fs

end

mutual

def DataType.mask : DataType → DataType
  | .unknown => .unknown
  | .scalar t => .scalar t
  | .array t => .array t.mask
  | .map k v => .map k.mask v.mask
  | .row fields => .row (RowField.masks fields)
termination_by structural t => t

def RowField.mask : RowField → RowField
  | ⟨name, t⟩ => ⟨name.map fun _ => blot, t.mask⟩
termination_by structural f => f

def RowField.masks : List RowField → List RowField
  | [] => []
  | f :: fs => f.mask :: RowField.masks fs
termination_by structural fs => fs

end

/-! ### Trees -/

mutual

def Expr.quotes : Expr → List Quoted
  | .literal v => v.quotes
  | .column n => n.quotes
  | .parameter _ => []
  | .star r => Name.quotes? r
  | .binary l _ r => l.quotes ++ r.quotes
  | .unary _ e => e.quotes
  | .isNull e _ => e.quotes
  | .isDistinct l r _ => l.quotes ++ r.quotes
  | .like e p c _ => e.quotes ++ p.quotes ++ Expr.quotes? c
  | .between e l h _ => e.quotes ++ l.quotes ++ h.quotes
  | .inList e items _ => e.quotes ++ Expr.quotesAll items
  | .inQuery e q _ => e.quotes ++ q.quotes
  | .existsQuery q => q.quotes
  | .subquery q => q.quotes
  | .call c => c.quotes
  | .cast e t _ => e.quotes ++ t.quotes
  | .caseWhen operand branches otherwise =>
    Expr.quotes? operand ++ (Expr.branchQuotes branches ++ Expr.quotes? otherwise)
  | .array items => Expr.quotesAll items
  | .row items => Expr.quotesAll items
  | .subscript b i => b.quotes ++ i.quotes
  | .field b x => b.quotes ++ [x.quote]
  | .lambda ps b => ps.map Ident.quote ++ b.quotes
  | .interval text _ _ _ => [.string text]
  | .typed _ text => [.string text]
termination_by structural e => e

def Expr.quotesAll : List Expr → List Quoted
  | [] => []
  | e :: es => e.quotes ++ Expr.quotesAll es
termination_by structural es => es

def Expr.setQuotes : List (List Expr) → List Quoted
  | [] => []
  | es :: sets => Expr.quotesAll es ++ Expr.setQuotes sets
termination_by structural sets => sets

def Expr.branchQuotes : List (Expr × Expr) → List Quoted
  | [] => []
  | (c, v) :: bs => c.quotes ++ v.quotes ++ Expr.branchQuotes bs
termination_by structural bs => bs

def Expr.quotes? : Option Expr → List Quoted
  | none => []
  | some e => e.quotes
termination_by structural e => e

def Call.quotes : Call → List Quoted
  | ⟨name, _, args, order, filter, _, window⟩ =>
    name.callQuotes ++ Expr.quotesAll args ++ OrderTerm.quotesAll order ++ Expr.quotes? filter ++
      Over.quotes? window
termination_by structural c => c

def OrderTerm.quotes : OrderTerm → List Quoted
  | ⟨e, _, _⟩ => e.quotes
termination_by structural t => t

def OrderTerm.quotesAll : List OrderTerm → List Quoted
  | [] => []
  | t :: ts => t.quotes ++ OrderTerm.quotesAll ts
termination_by structural ts => ts

def Over.quotes : Over → List Quoted
  | .named x => [x.quote]
  | .window w => w.quotes
termination_by structural o => o

def Over.quotes? : Option Over → List Quoted
  | none => []
  | some o => o.quotes
termination_by structural o => o

def Window.quotes : Window → List Quoted
  | ⟨base, partition, order, frame⟩ =>
    base.toList.map Ident.quote ++ Expr.quotesAll partition ++ OrderTerm.quotesAll order ++
      Frame.quotes? frame
termination_by structural w => w

def Frame.quotes : Frame → List Quoted
  | ⟨_, start, stop⟩ => start.quotes ++ Bound.quotes? stop
termination_by structural f => f

def Frame.quotes? : Option Frame → List Quoted
  | none => []
  | some f => f.quotes
termination_by structural f => f

def Bound.quotes : Bound → List Quoted
  | .preceding e | .following e => e.quotes
  | .unboundedPreceding | .currentRow | .unboundedFollowing => []
termination_by structural b => b

def Bound.quotes? : Option Bound → List Quoted
  | none => []
  | some b => b.quotes
termination_by structural b => b

def Relation.quotes : Relation → List Quoted
  | .table n _ => n.quotes
  | .renamed r x cs => r.quotes ++ x.quote :: cs.map Ident.quote
  | .join l r _ c => l.quotes ++ r.quotes ++ c.quotes
  | .setOperation o => o.quotes
  | .query q => q.quotes
  | .values rows => Expr.quotesAll rows
  | .unnest args _ => Expr.quotesAll args
  | .lateral q => q.quotes
  | .sample r _ p => r.quotes ++ p.quotes
termination_by structural r => r

def Relation.quotesAll : List Relation → List Quoted
  | [] => []
  | r :: rs => r.quotes ++ Relation.quotesAll rs
termination_by structural rs => rs

def Criteria.quotes : Criteria → List Quoted
  | .condition e => e.quotes
  | .columns xs => xs.map Ident.quote
  | .natural | .absent => []
termination_by structural c => c

def SetOperation.quotes : SetOperation → List Quoted
  | ⟨_, _, left, right⟩ => left.quotes ++ right.quotes
termination_by structural o => o

def Query.quotes : Query → List Quoted
  | ⟨bindings, body, order, _, _⟩ =>
    With.quotes? bindings ++ body.quotes ++ OrderTerm.quotesAll order
termination_by structural q => q

def With.quotes : With → List Quoted
  | ⟨_, entries⟩ => Cte.quotesAll entries
termination_by structural w => w

def With.quotes? : Option With → List Quoted
  | none => []
  | some w => w.quotes
termination_by structural w => w

def Cte.quotes : Cte → List Quoted
  | ⟨name, columns, query⟩ => name.quote :: columns.map Ident.quote ++ query.quotes
termination_by structural c => c

def Cte.quotesAll : List Cte → List Quoted
  | [] => []
  | c :: cs => c.quotes ++ Cte.quotesAll cs
termination_by structural cs => cs

def Body.quotes : Body → List Quoted
  | .select s => s.quotes
  | .table n => n.quotes
  | .values rows => Expr.quotesAll rows
  | .setOperation o => o.quotes
  | .nested q => q.quotes
termination_by structural b => b

def Select.quotes : Select → List Quoted
  | ⟨_, items, sources, filter, group, having, windows⟩ =>
    SelectItem.quotesAll items ++ Relation.quotesAll sources ++ Expr.quotes? filter ++
      GroupBy.quotes? group ++ Expr.quotes? having ++ NamedWindow.quotesAll windows
termination_by structural s => s

def SelectItem.quotes : SelectItem → List Quoted
  | .expr e x => e.quotes ++ x.toList.map Ident.quote
  | .star r xs => Name.quotes? r ++ xs.map Ident.quote
termination_by structural i => i

def SelectItem.quotesAll : List SelectItem → List Quoted
  | [] => []
  | i :: is => i.quotes ++ SelectItem.quotesAll is
termination_by structural is => is

def GroupBy.quotes : GroupBy → List Quoted
  | ⟨_, elements⟩ => GroupingElement.quotesAll elements
termination_by structural g => g

def GroupBy.quotes? : Option GroupBy → List Quoted
  | none => []
  | some g => g.quotes
termination_by structural g => g

def GroupingElement.quotes : GroupingElement → List Quoted
  | .expr e => e.quotes
  | .rollup es | .cube es => Expr.quotesAll es
  | .sets sets => Expr.setQuotes sets
termination_by structural e => e

def GroupingElement.quotesAll : List GroupingElement → List Quoted
  | [] => []
  | e :: es => e.quotes ++ GroupingElement.quotesAll es
termination_by structural es => es

def NamedWindow.quotes : NamedWindow → List Quoted
  | ⟨name, window⟩ => name.quote :: window.quotes
termination_by structural w => w

def NamedWindow.quotesAll : List NamedWindow → List Quoted
  | [] => []
  | w :: ws => w.quotes ++ NamedWindow.quotesAll ws
termination_by structural ws => ws

end

mutual

/-- The expression with all quoted texts blotted out: what is left is its shape. -/
def Expr.mask : Expr → Expr
  | .literal v => .literal v.mask
  | .column n => .column n.mask
  | .parameter i => .parameter i
  | .star r => .star (r.map Name.mask)
  | .binary l op r => .binary l.mask op r.mask
  | .unary op e => .unary op e.mask
  | .isNull e n => .isNull e.mask n
  | .isDistinct l r n => .isDistinct l.mask r.mask n
  | .like e p c n => .like e.mask p.mask (Expr.mask? c) n
  | .between e l h n => .between e.mask l.mask h.mask n
  | .inList e items n => .inList e.mask (Expr.masks items) n
  | .inQuery e q n => .inQuery e.mask q.mask n
  | .existsQuery q => .existsQuery q.mask
  | .subquery q => .subquery q.mask
  | .call c => .call c.mask
  | .cast e t s => .cast e.mask t.mask s
  | .caseWhen o bs e => .caseWhen (Expr.mask? o) (Expr.maskBranches bs) (Expr.mask? e)
  | .array items => .array (Expr.masks items)
  | .row items => .row (Expr.masks items)
  | .subscript b i => .subscript b.mask i.mask
  | .field b x => .field b.mask x.mask
  | .lambda ps b => .lambda (ps.map Ident.mask) b.mask
  | .interval _ n s f => .interval blot n s f
  | .typed t _ => .typed t blot
termination_by structural e => e

def Expr.masks : List Expr → List Expr
  | [] => []
  | e :: es => e.mask :: Expr.masks es
termination_by structural es => es

def Expr.maskSets : List (List Expr) → List (List Expr)
  | [] => []
  | es :: sets => Expr.masks es :: Expr.maskSets sets
termination_by structural sets => sets

def Expr.maskBranches : List (Expr × Expr) → List (Expr × Expr)
  | [] => []
  | (c, v) :: bs => (c.mask, v.mask) :: Expr.maskBranches bs
termination_by structural bs => bs

def Expr.mask? : Option Expr → Option Expr
  | none => none
  | some e => some e.mask
termination_by structural e => e

def Call.mask : Call → Call
  | ⟨name, quantifier, args, order, filter, nulls, window⟩ =>
    ⟨name.maskCall, quantifier, Expr.masks args, OrderTerm.masks order, Expr.mask? filter, nulls,
      Over.mask? window⟩
termination_by structural c => c

def OrderTerm.mask : OrderTerm → OrderTerm
  | ⟨e, descending, nulls⟩ => ⟨e.mask, descending, nulls⟩
termination_by structural t => t

def OrderTerm.masks : List OrderTerm → List OrderTerm
  | [] => []
  | t :: ts => t.mask :: OrderTerm.masks ts
termination_by structural ts => ts

def Over.mask : Over → Over
  | .named x => .named x.mask
  | .window w => .window w.mask
termination_by structural o => o

def Over.mask? : Option Over → Option Over
  | none => none
  | some o => some o.mask
termination_by structural o => o

def Window.mask : Window → Window
  | ⟨base, partition, order, frame⟩ =>
    ⟨base.map Ident.mask, Expr.masks partition, OrderTerm.masks order, Frame.mask? frame⟩
termination_by structural w => w

def Frame.mask : Frame → Frame
  | ⟨units, start, stop⟩ => ⟨units, start.mask, Bound.mask? stop⟩
termination_by structural f => f

def Frame.mask? : Option Frame → Option Frame
  | none => none
  | some f => some f.mask
termination_by structural f => f

def Bound.mask : Bound → Bound
  | .unboundedPreceding => .unboundedPreceding
  | .preceding e => .preceding e.mask
  | .currentRow => .currentRow
  | .following e => .following e.mask
  | .unboundedFollowing => .unboundedFollowing
termination_by structural b => b

def Bound.mask? : Option Bound → Option Bound
  | none => none
  | some b => some b.mask
termination_by structural b => b

def Relation.mask : Relation → Relation
  | .table n s => .table n.mask s
  | .renamed r x cs => .renamed r.mask x.mask (cs.map Ident.mask)
  | .join l r k c => .join l.mask r.mask k c.mask
  | .setOperation o => .setOperation o.mask
  | .query q => .query q.mask
  | .values rows => .values (Expr.masks rows)
  | .unnest args o => .unnest (Expr.masks args) o
  | .lateral q => .lateral q.mask
  | .sample r m p => .sample r.mask m p.mask
termination_by structural r => r

def Relation.masks : List Relation → List Relation
  | [] => []
  | r :: rs => r.mask :: Relation.masks rs
termination_by structural rs => rs

def Criteria.mask : Criteria → Criteria
  | .condition e => .condition e.mask
  | .columns xs => .columns (xs.map Ident.mask)
  | .natural => .natural
  | .absent => .absent
termination_by structural c => c

def SetOperation.mask : SetOperation → SetOperation
  | ⟨operator, all, left, right⟩ => ⟨operator, all, left.mask, right.mask⟩
termination_by structural o => o

def Query.mask : Query → Query
  | ⟨bindings, body, order, offset, limit⟩ =>
    ⟨With.mask? bindings, body.mask, OrderTerm.masks order, offset, limit⟩
termination_by structural q => q

def With.mask : With → With
  | ⟨recursive, entries⟩ => ⟨recursive, Cte.masks entries⟩
termination_by structural w => w

def With.mask? : Option With → Option With
  | none => none
  | some w => some w.mask
termination_by structural w => w

def Cte.mask : Cte → Cte
  | ⟨name, columns, query⟩ => ⟨name.mask, columns.map Ident.mask, query.mask⟩
termination_by structural c => c

def Cte.masks : List Cte → List Cte
  | [] => []
  | c :: cs => c.mask :: Cte.masks cs
termination_by structural cs => cs

def Body.mask : Body → Body
  | .select s => .select s.mask
  | .table n => .table n.mask
  | .values rows => .values (Expr.masks rows)
  | .setOperation o => .setOperation o.mask
  | .nested q => .nested q.mask
termination_by structural b => b

def Select.mask : Select → Select
  | ⟨quantifier, items, sources, filter, group, having, windows⟩ =>
    ⟨quantifier, SelectItem.masks items, Relation.masks sources, Expr.mask? filter,
      GroupBy.mask? group, Expr.mask? having, NamedWindow.masks windows⟩
termination_by structural s => s

def SelectItem.mask : SelectItem → SelectItem
  | .expr e x => .expr e.mask (x.map Ident.mask)
  | .star r xs => .star (r.map Name.mask) (xs.map Ident.mask)
termination_by structural i => i

def SelectItem.masks : List SelectItem → List SelectItem
  | [] => []
  | i :: is => i.mask :: SelectItem.masks is
termination_by structural is => is

def GroupBy.mask : GroupBy → GroupBy
  | ⟨quantifier, elements⟩ => ⟨quantifier, GroupingElement.masks elements⟩
termination_by structural g => g

def GroupBy.mask? : Option GroupBy → Option GroupBy
  | none => none
  | some g => some g.mask
termination_by structural g => g

def GroupingElement.mask : GroupingElement → GroupingElement
  | .expr e => .expr e.mask
  | .rollup es => .rollup (Expr.masks es)
  | .cube es => .cube (Expr.masks es)
  | .sets sets => .sets (Expr.maskSets sets)
termination_by structural e => e

def GroupingElement.masks : List GroupingElement → List GroupingElement
  | [] => []
  | e :: es => e.mask :: GroupingElement.masks es
termination_by structural es => es

def NamedWindow.mask : NamedWindow → NamedWindow
  | ⟨name, window⟩ => ⟨name.mask, window.mask⟩
termination_by structural w => w

def NamedWindow.masks : List NamedWindow → List NamedWindow
  | [] => []
  | w :: ws => w.mask :: NamedWindow.masks ws
termination_by structural ws => ws

end

/-! ### Texts printed without quotes -/

/-- Letters and digits of ASCII, underscores and points. -/
def Token.isBareChar (c : Char) : Bool := c.isAlphanum || c == '_' || c == '.'

/-- A text that is printed as it is. -/
def IsBareText (text : String) : Prop := text ≠ "" ∧ ∀ c ∈ text.toList, Token.isBareChar c = true

/-- The texts that the node prints without quotes are bare, and there is no double. -/
def Node.IsBare : Node → Prop
  | .expr (.literal (.decimal text)) => IsBareText text
  | .expr (.literal (.double _)) => False
  | .expr (.typed type _) => IsBareText type
  | .call c => ∀ x ∈ c.name.parts, x.delimited = false → IsBareText x.text
  | _ => True

/-! ### The shape decides where parentheses stand -/

@[simp] theorem Literal.isNegative_mask (v : Literal) : v.mask.isNegative = v.isNegative := by
  cases v <;> rfl

namespace Expr

variable (e : Expr)

@[simp] theorem tier_mask : e.mask.tier = e.tier := by
  cases e <;> simp [mask, tier]

@[simp] theorem startsWithSign_mask : e.mask.startsWithSign = e.startsWithSign := by
  cases e with
  | unary op e => cases op <;> rfl
  | literal v => simp [mask, startsWithSign]
  | _ => rfl

@[simp] theorem isLooser_mask (t : Tier) : e.mask.isLooser t = e.isLooser t := by
  simp [isLooser]

@[simp] theorem isBinaryOf_mask (op : BinaryOp) : e.mask.isBinaryOf op = e.isBinaryOf op := by
  cases e <;> rfl

@[simp] theorem needsParens_mask (op : BinaryOp) (side : Side) :
    e.mask.needsParens op side = e.needsParens op side := by
  simp [needsParens]

@[simp] theorem isColumn_mask : e.mask.isColumn = e.isColumn := by
  cases e <;> rfl

@[simp] theorem length_masks (es : List Expr) : (masks es).length = es.length := by
  induction es with
  | nil => rfl
  | cons e es ih => simp [masks, ih]

@[simp] theorem isEmpty_masks (es : List Expr) : (masks es).isEmpty = es.isEmpty := by
  cases es <;> rfl

@[simp] theorem isNone_mask? (e : Option Expr) : (mask? e).isNone = e.isNone := by
  cases e <;> rfl

end Expr

@[simp] theorem OrderTerm.isEmpty_masks (ts : List OrderTerm) :
    (OrderTerm.masks ts).isEmpty = ts.isEmpty := by
  cases ts <;> rfl

@[simp] theorem Over.isNone_mask? (w : Option Over) : (Over.mask? w).isNone = w.isNone := by
  cases w <;> rfl

@[simp] theorem Relation.tier_mask (r : Relation) : r.mask.tier = r.tier := by
  cases r <;> rfl

@[simp] theorem Criteria.isNatural_mask (c : Criteria) : c.mask.isNatural = c.isNatural := by
  cases c <;> rfl

@[simp] theorem Query.isModified_mask (q : Query) : q.mask.isModified = q.isModified := by
  obtain ⟨bindings, body, order, offset, limit⟩ := q
  cases bindings <;> simp [Query.mask, isModified, With.mask?]

@[simp] theorem SetOperation.needsParens_mask (operator : SetOperator) (side : Side) (q : Query) :
    SetOperation.needsParens operator side q.mask = SetOperation.needsParens operator side q := by
  have hbody : q.mask.body = q.body.mask := by
    obtain ⟨bindings, body, order, offset, limit⟩ := q
    rfl
  unfold SetOperation.needsParens
  rw [Query.isModified_mask, hbody]
  cases q.body with
  | setOperation o =>
    obtain ⟨operator', all, left, right⟩ := o
    cases side <;> rfl
  | _ => cases side <;> rfl

namespace Name

@[simp] theorem isBare_maskCall (n : Name) : n.maskCall.isBare = n.isBare := by
  obtain ⟨qualifier, ⟨text, delimited⟩⟩ := n
  cases delimited <;> simp [isBare, maskCall, Ident.maskCall, Ident.mask]

theorem parts_mask (n : Name) : n.mask.parts = n.parts.map Ident.mask := by
  simp [parts, mask]

theorem parts_maskCall (n : Name) : n.maskCall.parts = n.parts.map Ident.maskCall := by
  simp [parts, maskCall]

end Name

@[simp] theorem Call.isBare_mask (c : Call) : c.mask.isBare = c.isBare := by
  obtain ⟨name, quantifier, args, order, filter, nulls, window⟩ := c
  simp [Call.mask, Call.isBare]

end Sql
