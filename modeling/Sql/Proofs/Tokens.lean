import Sql.Print.Tree
import Sql.Token.Basic

/-! The tokens of printed trees, whatever the layout. -/
namespace Sql

open Token (Kind)

namespace Token.Kind

/-- A bare word that is not reserved. -/
abbrev word (text : String) : Kind := .ident (.plain text)

abbrev number (n : Nat) : Kind := .integer (.ofNat n)

/-- The first of the tokens ahead, or the mark of the end. -/
def next (ts : List Kind) : Kind := ts.headD .endOfInput

@[simp] theorem next_nil : next [] = .endOfInput := rfl

@[simp] theorem next_cons (k : Kind) (ts : List Kind) : next (k :: ts) = k := rfl

theorem getD_one (k : Kind) (ts : List Kind) : (k :: ts).getD 1 .endOfInput = next ts := by
  cases ts <;> rfl

section

variable (w : String)

@[simp] theorem isIdent_symbol (s : Symbol) : (symbol s).isIdent = false := rfl
@[simp] theorem isIdent_keyword (k : Keyword) : (keyword k).isIdent = false := rfl
@[simp] theorem isIdent_string (t : String) : (string t).isIdent = false := rfl
@[simp] theorem isIdent_endOfInput : endOfInput.isIdent = false := rfl
@[simp] theorem isIdent_ident (x : Ident) : (ident x).isIdent = true := rfl
@[simp] theorem isWord_symbol (s : Symbol) : (symbol s).isWord w = false := rfl
@[simp] theorem isWord_keyword (k : Keyword) : (keyword k).isWord w = false := rfl
@[simp] theorem isWord_string (t : String) : (string t).isWord w = false := rfl
@[simp] theorem isWord_endOfInput : endOfInput.isWord w = false := rfl
@[simp] theorem isWord_quoted (t : String) : (ident (.quoted t)).isWord w = false := rfl

end

/-- Lists of tokens with a token between each two. -/
def joined (separator : Kind) : List (List Kind) → List Kind
  | [] => []
  | ts :: tss => ts ++ tss.flatMap (separator :: ·)

abbrev commas : List (List Kind) → List Kind := joined (.symbol .comma)

theorem commas_cons (ts : List Kind) (tss : List (List Kind)) :
    commas (ts :: tss) = ts ++ tss.flatMap (.symbol .comma :: ·) := rfl

theorem commas_cons_cons (ts ts' : List Kind) (tss : List (List Kind)) :
    commas (ts :: ts' :: tss) = ts ++ .symbol .comma :: commas (ts' :: tss) := rfl

def parens (ts : List Kind) : List Kind := .symbol .leftParen :: (ts ++ [.symbol .rightParen])

def parensIf (needed : Bool) (ts : List Kind) : List Kind := if needed then parens ts else ts

/-- A token that stands only if the condition holds. -/
def given (condition : Bool) (k : Kind) : List Kind := if condition then [k] else []

end Token.Kind

open Token.Kind

namespace Ident

/-- Names are printed between quotes. -/
def token (x : Ident) : Kind := .ident (.quoted x.text)

def tokens (xs : List Ident) : List Kind := commas (xs.map fun x => [x.token])

/-- A list of names in parentheses behind `lead`, or nothing. -/
def listTokens (lead : List Kind) (names : List Ident) : List Kind :=
  if names.isEmpty then [] else lead ++ parens (tokens names)

/-- The parameters of a lambda. -/
def paramTokens : List Ident → List Kind
  | [x] => [x.token]
  | xs => parens (tokens xs)

end Ident

namespace Name

def tokens (n : Name) : List Kind := joined (.symbol .dot) (n.parts.map fun x => [x.token])

/-- Function names keep the spelling of their undelimited parts. -/
def callTokens (n : Name) : List Kind := joined (.symbol .dot) (n.parts.map fun x => [.ident x])

def starTokens : Option Name → List Kind
  | none => [.symbol .star]
  | some n => n.tokens ++ [.symbol .dot, .symbol .star]

end Name

def BinaryOp.token : BinaryOp → Kind
  | add => .symbol .plus
  | sub => .symbol .minus
  | mul => .symbol .star
  | div => .symbol .slash
  | mod => .symbol .percent
  | concat => .symbol .concat
  | eq => .symbol .eq
  | ne => .symbol .ne
  | lt => .symbol .lt
  | le => .symbol .le
  | gt => .symbol .gt
  | ge => .symbol .ge
  | and => .keyword .AND
  | or => .keyword .OR

def UnaryOp.token : UnaryOp → Kind
  | not => .keyword .NOT
  | minus => .symbol .minus
  | plus => .symbol .plus

def Quantifier.token : Quantifier → Kind
  | distinct => .keyword .DISTINCT
  | all => .keyword .ALL

def NullTreatment.tokens : NullTreatment → List Kind
  | ignore => [.word "IGNORE", .word "NULLS"]
  | respect => [.word "RESPECT", .word "NULLS"]

def NullOrder.tokens : NullOrder → List Kind
  | first => [.word "NULLS", .word "FIRST"]
  | last => [.word "NULLS", .word "LAST"]

def NullTreatment.tokens? : Option NullTreatment → List Kind
  | none => []
  | some t => t.tokens

def NullOrder.tokens? : Option NullOrder → List Kind
  | none => []
  | some o => o.tokens

def FrameUnits.token (u : FrameUnits) : Kind := .word u.sql

def IntervalField.token (f : IntervalField) : Kind := .word f.sql

def IntervalField.tokens? : Option IntervalField → List Kind
  | none => []
  | some f => [.word "TO", f.token]

def JoinKind.tokens : JoinKind → List Kind
  | inner => [.keyword .INNER, .keyword .JOIN]
  | left => [.keyword .LEFT, .keyword .JOIN]
  | right => [.keyword .RIGHT, .keyword .JOIN]
  | full => [.keyword .FULL, .keyword .JOIN]
  | cross => [.keyword .CROSS, .keyword .JOIN]

def SetOperator.token : SetOperator → Kind
  | union => .keyword .UNION
  | intersect => .keyword .INTERSECT
  | except => .keyword .EXCEPT

def SampleMethod.token (m : SampleMethod) : Kind := .word m.sql

def Limit.tokens : Limit → List Kind
  | count n => [.keyword .LIMIT, .number n]
  | all => [.keyword .LIMIT, .keyword .ALL]

def Limit.tokens? : Option Limit → List Kind
  | none => []
  | some l => l.tokens

def Query.offsetTokens : Option Nat → List Kind
  | none => []
  | some n => [.keyword .OFFSET, .number n]

/-- A number that is not finite is printed as a call. -/
def Literal.tokens : Literal → List Kind
  | null => [.keyword .NULL]
  | boolean true => [.keyword .TRUE]
  | boolean false => [.keyword .FALSE]
  | integer n => [.integer n]
  | decimal text => [.decimal text]
  | double d => if d.isInfinite then .word "infinity" :: parens [] else [.double d]
  | string text => [.string text]
  | binary bytes => [.binary bytes]

def Scalar.temporalTokens (word : String) (precision : Nat) (zoned : Bool) : List Kind :=
  .word word :: (parens [.number precision] ++
    if zoned then [.keyword .WITH, .word "TIME", .word "ZONE"] else [])

def Scalar.tokens : Scalar → List Kind
  | decimal p s => .word "DECIMAL" :: parens [.number p, .symbol .comma, .number s]
  | varchar (some n) => .word "VARCHAR" :: parens [.number n]
  | char n => .word "CHAR" :: parens [.number n]
  | time p zoned => temporalTokens "TIME" p zoned
  | timestamp p zoned => temporalTokens "TIMESTAMP" p zoned
  | yearToMonth => [.word "INTERVAL", .word "YEAR", .word "TO", .word "MONTH"]
  | dayToSecond => [.word "INTERVAL", .word "DAY", .word "TO", .word "SECOND"]
  | t => [.word t.sql]

mutual

def DataType.tokens : DataType → List Kind
  | .unknown => [.word "UNKNOWN"]
  | .scalar t => t.tokens
  | .array t => .word "ARRAY" :: parens t.tokens
  | .map k v => .word "MAP" :: parens (k.tokens ++ .symbol .comma :: v.tokens)
  | .row fields => .word "ROW" :: parens (commas (RowField.tokenLists fields))
termination_by structural t => t

def RowField.tokens : RowField → List Kind
  | ⟨none, t⟩ => t.tokens
  | ⟨some name, t⟩ => .ident (.quoted name) :: t.tokens
termination_by structural f => f

def RowField.tokenLists : List RowField → List (List Kind)
  | [] => []
  | f :: fs => f.tokens :: RowField.tokenLists fs
termination_by structural fs => fs

end

mutual

def Expr.tokens : Expr → List Kind
  | .literal value => value.tokens
  | .column name => name.tokens
  | .parameter _ => [.symbol .question]
  | .star relation => Name.starTokens relation
  | .binary left op right =>
    parensIf (left.needsParens op .left) left.tokens ++
      op.token :: parensIf (right.needsParens op .right) right.tokens
  | .unary .not operand => .keyword .NOT :: parensIf (operand.isLooser .not) operand.tokens
  | .unary op operand =>
    op.token :: parensIf (operand.isLooser .unary || operand.startsWithSign) operand.tokens
  | .isNull operand negated =>
    parensIf (operand.isLooser .concat) operand.tokens ++
      .keyword .IS :: (given negated (.keyword .NOT) ++ [.keyword .NULL])
  | .isDistinct left right negated =>
    parensIf (left.isLooser .concat) left.tokens ++
      .keyword .IS :: (given negated (.keyword .NOT) ++ .keyword .DISTINCT :: .keyword .FROM ::
        parensIf (right.isLooser .concat) right.tokens)
  | .like operand pattern escape negated =>
    parensIf (operand.isLooser .concat) operand.tokens ++
      (given negated (.keyword .NOT) ++ .keyword .LIKE ::
        (parensIf (pattern.isLooser .concat) pattern.tokens ++ Expr.escapeTokens escape))
  | .between operand low high negated =>
    parensIf (operand.isLooser .concat) operand.tokens ++
      (given negated (.keyword .NOT) ++ .keyword .BETWEEN ::
        (parensIf (low.isLooser .concat) low.tokens ++
          .keyword .AND :: parensIf (high.isLooser .concat) high.tokens))
  | .inList operand items negated =>
    parensIf (operand.isLooser .concat) operand.tokens ++
      (given negated (.keyword .NOT) ++ .keyword .IN :: parens (commas (Expr.tokenLists items)))
  | .inQuery operand query negated =>
    parensIf (operand.isLooser .concat) operand.tokens ++
      (given negated (.keyword .NOT) ++ .keyword .IN :: parens query.tokens)
  | .existsQuery query => .keyword .EXISTS :: parens query.tokens
  | .subquery query => parens query.tokens
  | .call call => call.tokens
  | .cast operand type safe =>
    (if safe then .word "TRY_CAST" else .keyword .CAST) ::
      parens (operand.tokens ++ .keyword .AS :: type.tokens)
  | .caseWhen operand branches otherwise =>
    .keyword .CASE :: (Expr.tokensAfter [] operand ++ (Expr.branchTokens branches ++
      (Expr.tokensAfter [.keyword .ELSE] otherwise ++ [.keyword .END])))
  | .array items =>
    .word "ARRAY" :: .symbol .leftBracket ::
      (commas (Expr.tokenLists items) ++ [.symbol .rightBracket])
  | .row items =>
    given (items.length < 2) (.word "ROW") ++ parens (commas (Expr.tokenLists items))
  | .subscript base index =>
    parensIf (base.isLooser .access) base.tokens ++
      .symbol .leftBracket :: (index.tokens ++ [.symbol .rightBracket])
  | .field base name =>
    parensIf (base.isColumn || base.isLooser .access) base.tokens ++
      [.symbol .dot, name.token]
  | .lambda params body =>
    Ident.paramTokens params ++ .symbol .arrow :: body.tokens
  | .interval text negative start stop =>
    .word "INTERVAL" ::
      (given negative (.symbol .minus) ++ .string text :: start.token :: IntervalField.tokens? stop)
  | .typed type text => [.word type, .string text]
termination_by structural e => e

def Expr.tokenLists : List Expr → List (List Kind)
  | [] => []
  | e :: es => e.tokens :: Expr.tokenLists es
termination_by structural es => es

def Expr.setTokenLists : List (List Expr) → List (List Kind)
  | [] => []
  | es :: sets => parens (commas (Expr.tokenLists es)) :: Expr.setTokenLists sets
termination_by structural sets => sets

/-- An optional expression behind some tokens. -/
def Expr.tokensAfter (lead : List Kind) : Option Expr → List Kind
  | none => []
  | some e => lead ++ e.tokens
termination_by structural e => e

def Expr.escapeTokens : Option Expr → List Kind
  | none => []
  | some e => .word "ESCAPE" :: parensIf (e.isLooser .concat) e.tokens
termination_by structural e => e

def Expr.filterTokens : Option Expr → List Kind
  | none => []
  | some e => .word "FILTER" :: parens (.keyword .WHERE :: e.tokens)
termination_by structural e => e

def Expr.branchTokens : List (Expr × Expr) → List Kind
  | [] => []
  | (condition, value) :: bs =>
    .keyword .WHEN :: (condition.tokens ++ .keyword .THEN :: (value.tokens ++ Expr.branchTokens bs))
termination_by structural bs => bs

def Call.tokens : Call → List Kind
  | ⟨name, quantifier, args, order, filter, nulls, window⟩ =>
    if Call.isBare ⟨name, quantifier, args, order, filter, nulls, window⟩ then name.callTokens
    else
      name.callTokens ++ (parens ((quantifier.map Quantifier.token).toList ++
        (commas (Expr.tokenLists args) ++
        if order.isEmpty then []
        else .keyword .ORDER :: .keyword .BY :: commas (OrderTerm.tokenLists order))) ++
      (Expr.filterTokens filter ++ (NullTreatment.tokens? nulls ++ Over.tokens? window)))
termination_by structural c => c

def OrderTerm.tokens : OrderTerm → List Kind
  | ⟨expr, descending, nulls⟩ =>
    expr.tokens ++ (given descending (.word "DESC") ++ NullOrder.tokens? nulls)
termination_by structural t => t

def OrderTerm.tokenLists : List OrderTerm → List (List Kind)
  | [] => []
  | t :: ts => t.tokens :: OrderTerm.tokenLists ts
termination_by structural ts => ts

def Over.tokens : Over → List Kind
  | .named name => [name.token]
  | .window window => parens window.tokens
termination_by structural w => w

def Over.tokens? : Option Over → List Kind
  | none => []
  | some target => .word "OVER" :: target.tokens
termination_by structural w => w

def Window.tokens : Window → List Kind
  | ⟨base, partition, order, frame⟩ =>
    (base.map Ident.token).toList ++
      ((if partition.isEmpty then []
        else .word "PARTITION" :: .keyword .BY :: commas (Expr.tokenLists partition)) ++
      ((if order.isEmpty then []
        else .keyword .ORDER :: .keyword .BY :: commas (OrderTerm.tokenLists order)) ++
      Frame.tokens? frame))
termination_by structural w => w

def Frame.tokens : Frame → List Kind
  | ⟨units, start, none⟩ => units.token :: start.tokens
  | ⟨units, start, some stop⟩ =>
    units.token :: .keyword .BETWEEN :: (start.tokens ++ .keyword .AND :: stop.tokens)
termination_by structural f => f

def Frame.tokens? : Option Frame → List Kind
  | none => []
  | some f => f.tokens
termination_by structural f => f

def Bound.tokens : Bound → List Kind
  | .unboundedPreceding => [.word "UNBOUNDED", .word "PRECEDING"]
  | .preceding offset => parensIf (offset.isLooser .concat) offset.tokens ++ [.word "PRECEDING"]
  | .currentRow => [.word "CURRENT", .word "ROW"]
  | .following offset => parensIf (offset.isLooser .concat) offset.tokens ++ [.word "FOLLOWING"]
  | .unboundedFollowing => [.word "UNBOUNDED", .word "FOLLOWING"]
termination_by structural b => b

def Relation.tokens : Relation → List Kind
  | .table name _ => name.tokens
  | .renamed relation name columns =>
    parensIf (relation.tier.rank ≤ Relation.Tier.renamed.rank) relation.tokens ++
      .keyword .AS :: name.token :: Ident.listTokens [] columns
  | .join left right kind criteria =>
    left.tokens ++ (given criteria.isNatural (.keyword .NATURAL) ++ (kind.tokens ++
      (parensIf (right.tier.rank ≤ Relation.Tier.join.rank) right.tokens ++ criteria.tokens)))
  | .setOperation operation => parens operation.tokens
  | .query query => parens query.tokens
  | .values rows => parens (.keyword .VALUES :: commas (Expr.tokenLists rows))
  | .unnest args ordinality =>
    .keyword .UNNEST :: (parens (commas (Expr.tokenLists args)) ++
      if ordinality then [.keyword .WITH, .word "ORDINALITY"] else [])
  | .lateral query => .keyword .LATERAL :: parens query.tokens
  | .sample relation method percentage =>
    parensIf (relation.tier.rank ≤ Relation.Tier.sampled.rank) relation.tokens ++
      .keyword .TABLESAMPLE :: method.token :: parens percentage.tokens
termination_by structural r => r

def Relation.tokenLists : List Relation → List (List Kind)
  | [] => []
  | r :: rs => r.tokens :: Relation.tokenLists rs
termination_by structural rs => rs

def Criteria.tokens : Criteria → List Kind
  | .condition expr => .keyword .ON :: expr.tokens
  | .columns names => .keyword .USING :: parens (Ident.tokens names)
  | .natural | .absent => []
termination_by structural c => c

def SetOperation.tokens : SetOperation → List Kind
  | ⟨operator, all, left, right⟩ =>
    parensIf (SetOperation.needsParens operator .left left) left.tokens ++
      operator.token :: (given all (.keyword .ALL) ++
        parensIf (SetOperation.needsParens operator .right right) right.tokens)
termination_by structural s => s

def Query.tokens : Query → List Kind
  | ⟨bindings, body, order, offset, limit⟩ =>
    With.tokens? bindings ++ (body.tokens ++
    ((if order.isEmpty then []
      else .keyword .ORDER :: .keyword .BY :: commas (OrderTerm.tokenLists order)) ++
    (Query.offsetTokens offset ++ Limit.tokens? limit)))
termination_by structural q => q

def With.tokens : With → List Kind
  | ⟨recursive, entries⟩ => given recursive (.word "RECURSIVE") ++ commas (Cte.tokenLists entries)
termination_by structural w => w

def With.tokens? : Option With → List Kind
  | none => []
  | some w => .keyword .WITH :: w.tokens
termination_by structural w => w

def Cte.tokens : Cte → List Kind
  | ⟨name, columns, query⟩ =>
    name.token :: (Ident.listTokens [] columns ++ .keyword .AS :: parens query.tokens)
termination_by structural c => c

def Cte.tokenLists : List Cte → List (List Kind)
  | [] => []
  | c :: cs => c.tokens :: Cte.tokenLists cs
termination_by structural cs => cs

def Body.tokens : Body → List Kind
  | .select select => select.tokens
  | .table name => .keyword .TABLE :: name.tokens
  | .values rows => .keyword .VALUES :: commas (Expr.tokenLists rows)
  | .setOperation operation => operation.tokens
  | .nested query => parens query.tokens
termination_by structural b => b

def Select.tokens : Select → List Kind
  | ⟨quantifier, items, sources, filter, group, having, windows⟩ =>
    .keyword .SELECT :: ((quantifier.map Quantifier.token).toList ++
      (commas (SelectItem.tokenLists items) ++
      ((if sources.isEmpty then [] else .keyword .FROM :: commas (Relation.tokenLists sources)) ++
      (Expr.tokensAfter [.keyword .WHERE] filter ++ (GroupBy.tokens? group ++
      (Expr.tokensAfter [.keyword .HAVING] having ++
      if windows.isEmpty then []
      else .keyword .WINDOW :: commas (NamedWindow.tokenLists windows)))))))
termination_by structural s => s

def SelectItem.tokens : SelectItem → List Kind
  | .expr expr none => expr.tokens
  | .expr expr (some name) => expr.tokens ++ [.keyword .AS, name.token]
  | .star relation names => Name.starTokens relation ++ Ident.listTokens [.keyword .AS] names
termination_by structural i => i

def SelectItem.tokenLists : List SelectItem → List (List Kind)
  | [] => []
  | i :: is => i.tokens :: SelectItem.tokenLists is
termination_by structural is => is

def GroupBy.tokens : GroupBy → List Kind
  | ⟨quantifier, elements⟩ =>
    (quantifier.map Quantifier.token).toList ++ commas (GroupingElement.tokenLists elements)
termination_by structural g => g

def GroupBy.tokens? : Option GroupBy → List Kind
  | none => []
  | some g => .keyword .GROUP :: .keyword .BY :: g.tokens
termination_by structural g => g

def GroupingElement.tokens : GroupingElement → List Kind
  | .expr expr => expr.tokens
  | .rollup exprs => .word "ROLLUP" :: parens (commas (Expr.tokenLists exprs))
  | .cube exprs => .word "CUBE" :: parens (commas (Expr.tokenLists exprs))
  | .sets sets => .word "GROUPING" :: .word "SETS" :: parens (commas (Expr.setTokenLists sets))
termination_by structural e => e

def GroupingElement.tokenLists : List GroupingElement → List (List Kind)
  | [] => []
  | e :: es => e.tokens :: GroupingElement.tokenLists es
termination_by structural es => es

def NamedWindow.tokens : NamedWindow → List Kind
  | ⟨name, window⟩ => name.token :: .keyword .AS :: parens window.tokens
termination_by structural w => w

def NamedWindow.tokenLists : List NamedWindow → List (List Kind)
  | [] => []
  | w :: ws => w.tokens :: NamedWindow.tokenLists ws
termination_by structural ws => ws

end

theorem Expr.tokens_sign {op : UnaryOp} {e : Expr} (h : op ≠ .not) : (Expr.unary op e).tokens =
    op.token :: parensIf (e.isLooser .unary || e.startsWithSign) e.tokens := by
  rw [Expr.tokens]
  exact h

/-- The query that stands in parentheses at the place of a relation. -/
def Relation.query? : Relation → Option Query
  | .query q => some q
  | .setOperation o => some (.ofBody (.setOperation o))
  | .values rows => some (.ofBody (.values rows))
  | _ => none

theorem Relation.tokens_query {r : Relation} {q : Query} (h : r.query? = some q) :
    r.tokens = parens q.tokens := by
  cases r with
  | query | setOperation | values =>
    cases h
    simp [Relation.tokens, Query.ofBody, Query.tokens, With.tokens?, Query.offsetTokens,
      Limit.tokens?, Body.tokens]
  | _ => cases h

end Sql
