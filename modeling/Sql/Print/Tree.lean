import Sql.Print.Statement
import Sql.Tree.Bare
import Sql.Tree.Precedence

/-! The text of expressions, relations and queries. -/
namespace Sql

/-- Text in parentheses if they are needed. -/
def wrapIf (needed : Bool) (text : String) : String :=
  if needed then Text.parenthesize text else text

/-- A text behind `lead`, or nothing. -/
def textAfter (lead : String) : Option String → String
  | none => ""
  | some text => lead ++ text

/-- A word and a space, or nothing. -/
def Quantifier.lead : Option Quantifier → String
  | none => ""
  | some q => q.sql ++ " "

def notLead (negated : Bool) : String := if negated then "NOT " else ""

/-- Function names keep the spelling of their undelimited parts. -/
def Name.callSql (n : Name) : String :=
  ".".intercalate (n.parts.map fun x => if x.delimited then x.sql else x.text)

def Name.starSql : Option Name → String
  | none => "*"
  | some n => n.sql ++ ".*"

/-- A list of names in parentheses behind `lead`, or nothing. -/
def Ident.listAfter (lead : String) (names : List Ident) : String :=
  if names.isEmpty then "" else lead ++ "(" ++ Ident.sqlList names ++ ")"

/-- The parameters of a lambda: one alone goes without parentheses. -/
def Ident.paramsSql : List Ident → String
  | [x] => x.sql
  | xs => "(" ++ sqlList xs ++ ")"

def Expr.isColumn : Expr → Bool
  | .column _ => true
  | _ => false

def Criteria.isNatural : Criteria → Bool
  | .natural => true
  | _ => false

/-- The branches of a case expression between its first line and its end. -/
def caseText (o : Layout) (head : String) (branches : List String) : String :=
  if o.isPretty then
    head ++ "\n" ++ Text.spaces o.indent ++ Text.pad ("\n".intercalate branches) o.indent ++ "\nEND"
  else head ++ " " ++ " ".intercalate branches ++ " END"

def Limit.entry : Limit → Entry
  | .count n => .clause "LIMIT" (Text.decimal n)
  | .all => .clause "LIMIT" "ALL"

/-- A clause that is printed only if its list is not empty. -/
def Entry.unlessEmpty (keyword lead : String) (texts : List String) : List Entry :=
  if texts.isEmpty then [] else [.clause keyword (lead ++ ", ".intercalate texts)]

/-- A clause that is printed only if it is present. -/
def Entry.ofOption (keyword : String) : Option String → List Entry
  | none => []
  | some text => [.clause keyword text]

mutual

def Expr.print (o : Layout) : Expr → String
  | .literal value => value.sql
  | .column name => name.sql
  | .parameter _ => "?"
  | .star relation => Name.starSql relation
  | .binary left op right =>
    wrapIf (left.needsParens op .left) (left.print o) ++
      (if op.isLogical then o.newline else " ") ++ op.sql ++ " " ++
      wrapIf (right.needsParens op .right) (right.print o)
  | .unary .not operand => "NOT " ++ wrapIf (operand.isLooser .not) (operand.print o)
  | .unary op operand =>
    op.sql ++ wrapIf (operand.isLooser .unary || operand.startsWithSign) (operand.print o)
  | .isNull operand negated =>
    wrapIf (operand.isLooser .concat) (operand.print o) ++ " IS " ++ notLead negated ++ "NULL"
  | .isDistinct left right negated =>
    wrapIf (left.isLooser .concat) (left.print o) ++ " IS " ++ notLead negated ++
      "DISTINCT FROM " ++ wrapIf (right.isLooser .concat) (right.print o)
  | .like operand pattern escape negated =>
    wrapIf (operand.isLooser .concat) (operand.print o) ++ " " ++ notLead negated ++ "LIKE " ++
      wrapIf (pattern.isLooser .concat) (pattern.print o) ++
      textAfter " ESCAPE " (Expr.printAt? o .concat escape)
  | .between operand low high negated =>
    wrapIf (operand.isLooser .concat) (operand.print o) ++ " " ++ notLead negated ++ "BETWEEN " ++
      wrapIf (low.isLooser .concat) (low.print o) ++ " AND " ++
      wrapIf (high.isLooser .concat) (high.print o)
  | .inList operand items negated =>
    wrapIf (operand.isLooser .concat) (operand.print o) ++ " " ++ notLead negated ++ "IN (" ++
      ", ".intercalate (Expr.prints o items) ++ ")"
  | .inQuery operand query negated =>
    wrapIf (operand.isLooser .concat) (operand.print o) ++ " " ++ notLead negated ++ "IN " ++
      Text.parenthesize (query.print o)
  | .existsQuery query => "EXISTS " ++ Text.parenthesize (query.print o)
  | .subquery query => Text.parenthesize (query.print o)
  | .call call => call.print o
  | .cast operand type safe =>
    (if safe then "TRY_CAST(" else "CAST(") ++ operand.print o ++ " AS " ++ type.sql ++ ")"
  | .caseWhen operand branches otherwise =>
    caseText o ("CASE" ++ textAfter " " (Expr.print? o operand))
      (Expr.printBranches o branches ++ ((Expr.print? o otherwise).map ("ELSE " ++ ·)).toList)
  | .array items => "ARRAY[" ++ ", ".intercalate (Expr.prints o items) ++ "]"
  | .row items =>
    -- A pair of parentheses alone makes a row of two or more items only.
    (if items.length < 2 then "ROW (" else "(") ++ ", ".intercalate (Expr.prints o items) ++ ")"
  | .subscript base index =>
    wrapIf (base.isLooser .access) (base.print o) ++ "[" ++ index.print o ++ "]"
  | .field base name =>
    -- A bare column followed by a field would read as a longer name.
    wrapIf (base.isColumn || base.isLooser .access) (base.print o) ++ "." ++ name.sql
  | .lambda params body => Ident.paramsSql params ++ " -> " ++ body.print o
  | .interval text negative start stop =>
    "INTERVAL " ++ (if negative then "-" else "") ++ Text.quote Text.stringMark text ++ " " ++
      start.sql ++ textAfter " TO " (stop.map IntervalField.sql)
  | .typed type text => type ++ " " ++ Text.quote Text.stringMark text
termination_by structural e => e

def Expr.prints (o : Layout) : List Expr → List String
  | [] => []
  | e :: es => e.print o :: Expr.prints o es
termination_by structural es => es

def Expr.printSets (o : Layout) : List (List Expr) → List String
  | [] => []
  | es :: sets => ("(" ++ ", ".intercalate (Expr.prints o es) ++ ")") :: Expr.printSets o sets
termination_by structural sets => sets

def Expr.printBranches (o : Layout) : List (Expr × Expr) → List String
  | [] => []
  | (condition, value) :: bs =>
    ("WHEN " ++ condition.print o ++ " THEN " ++ value.print o) :: Expr.printBranches o bs
termination_by structural bs => bs

def Expr.print? (o : Layout) : Option Expr → Option String
  | none => none
  | some e => some (e.print o)
termination_by structural e => e

def Expr.printAt? (o : Layout) (required : Tier) : Option Expr → Option String
  | none => none
  | some e => some (wrapIf (e.isLooser required) (e.print o))
termination_by structural e => e

def Call.print (o : Layout) : Call → String
  | ⟨name, quantifier, args, order, filter, nulls, window⟩ =>
    if Call.isBare ⟨name, quantifier, args, order, filter, nulls, window⟩ then name.callSql
    else
      name.callSql ++ "(" ++ Quantifier.lead quantifier ++
        ", ".intercalate (Expr.prints o args) ++
        (if order.isEmpty then ""
          else " ORDER BY " ++ ", ".intercalate (OrderTerm.prints o order)) ++ ")" ++
        textAfter " FILTER (WHERE " ((Expr.print? o filter).map (· ++ ")")) ++
        textAfter " " (nulls.map NullTreatment.sql) ++ textAfter " OVER " (Over.print? o window)
termination_by structural c => c

def OrderTerm.print (o : Layout) : OrderTerm → String
  | ⟨expr, descending, nulls⟩ =>
    expr.print o ++ (if descending then " DESC" else "") ++
      textAfter " " (nulls.map NullOrder.sql)
termination_by structural t => t

def OrderTerm.prints (o : Layout) : List OrderTerm → List String
  | [] => []
  | t :: ts => t.print o :: OrderTerm.prints o ts
termination_by structural ts => ts

def Over.print (o : Layout) : Over → String
  | .named name => name.sql
  | .window window => "(" ++ window.print o ++ ")"
termination_by structural w => w

def Over.print? (o : Layout) : Option Over → Option String
  | none => none
  | some w => some (w.print o)
termination_by structural w => w

def Window.print (o : Layout) : Window → String
  | ⟨base, partition, order, frame⟩ =>
    " ".intercalate (
      (base.map Ident.sql).toList ++
      (if partition.isEmpty then []
        else ["PARTITION BY " ++ ", ".intercalate (Expr.prints o partition)]) ++
      (if order.isEmpty then []
        else ["ORDER BY " ++ ", ".intercalate (OrderTerm.prints o order)]) ++
      (Frame.print? o frame).toList)
termination_by structural w => w

def Frame.print (o : Layout) : Frame → String
  | ⟨units, start, none⟩ => units.sql ++ " " ++ start.print o
  | ⟨units, start, some stop⟩ =>
    units.sql ++ " BETWEEN " ++ start.print o ++ " AND " ++ stop.print o
termination_by structural f => f

def Frame.print? (o : Layout) : Option Frame → Option String
  | none => none
  | some f => some (f.print o)
termination_by structural f => f

def Bound.print (o : Layout) : Bound → String
  | .unboundedPreceding => "UNBOUNDED PRECEDING"
  | .preceding offset => wrapIf (offset.isLooser .concat) (offset.print o) ++ " PRECEDING"
  | .currentRow => "CURRENT ROW"
  | .following offset => wrapIf (offset.isLooser .concat) (offset.print o) ++ " FOLLOWING"
  | .unboundedFollowing => "UNBOUNDED FOLLOWING"
termination_by structural b => b

def Relation.print (o : Layout) : Relation → String
  | .table name _ => name.sql
  | .renamed relation name columns =>
    wrapIf (relation.tier.rank ≤ Relation.Tier.renamed.rank) (relation.print o) ++ " AS " ++
      name.sql ++ Ident.listAfter " " columns
  | .join left right kind criteria =>
    left.print o ++ o.newline ++ (if criteria.isNatural then "NATURAL " else "") ++
      kind.sql ++ " " ++
      wrapIf (right.tier.rank ≤ Relation.Tier.join.rank) (right.print o) ++ criteria.print o
  | .setOperation operation => Text.parenthesize (operation.print o)
  | .query query => Text.parenthesize (query.print o)
  | .values rows =>
    Text.parenthesize (Entry.layOut o [.clause "VALUES" (", ".intercalate (Expr.prints o rows))])
  | .unnest args ordinality =>
    "UNNEST(" ++ ", ".intercalate (Expr.prints o args) ++ ")" ++
      (if ordinality then " WITH ORDINALITY" else "")
  | .lateral query => "LATERAL " ++ Text.parenthesize (query.print o)
  | .sample relation method percentage =>
    wrapIf (relation.tier.rank ≤ Relation.Tier.sampled.rank) (relation.print o) ++
      " TABLESAMPLE " ++ method.sql ++ " (" ++ percentage.print o ++ ")"
termination_by structural r => r

def Relation.prints (o : Layout) : List Relation → List String
  | [] => []
  | r :: rs => r.print o :: Relation.prints o rs
termination_by structural rs => rs

def Criteria.print (o : Layout) : Criteria → String
  | .condition expr => o.newline ++ "ON " ++ Text.pad (expr.print o) 3
  | .columns names => o.newline ++ "USING (" ++ Ident.sqlList names ++ ")"
  | .natural | .absent => ""
termination_by structural c => c

def SetOperation.print (o : Layout) : SetOperation → String
  | ⟨operator, all, left, right⟩ =>
    wrapIf (SetOperation.needsParens operator .left left) (left.print o) ++ o.newline ++
      operator.sql ++ (if all then " ALL" else "") ++ o.newline ++
      wrapIf (SetOperation.needsParens operator .right right) (right.print o)
termination_by structural s => s

def Query.print (o : Layout) : Query → String
  | ⟨bindings, body, order, offset, limit⟩ =>
    Entry.layOut o (
      Entry.ofOption "WITH" (With.print? o bindings) ++
      body.entries o ++
      Entry.unlessEmpty "ORDER" "BY " (OrderTerm.prints o order) ++
      Entry.ofOption "OFFSET" (offset.map Text.decimal) ++
      (limit.map Limit.entry).toList)
termination_by structural q => q

def With.print (o : Layout) : With → String
  | ⟨recursive, entries⟩ =>
    (if recursive then "RECURSIVE " else "") ++
      (if o.isPretty then ",\n" else ", ").intercalate (Cte.prints o entries)
termination_by structural w => w

def With.print? (o : Layout) : Option With → Option String
  | none => none
  | some w => some (w.print o)
termination_by structural w => w

def Cte.print (o : Layout) : Cte → String
  | ⟨name, columns, query⟩ =>
    Text.parenthesizeAfter (name.sql ++ Ident.listAfter " " columns ++ " AS ") (query.print o)
termination_by structural c => c

def Cte.prints (o : Layout) : List Cte → List String
  | [] => []
  | c :: cs => c.print o :: Cte.prints o cs
termination_by structural cs => cs

def Body.entries (o : Layout) : Body → List Entry
  | .select select => select.entries o
  | .table name => [.clause "TABLE" name.sql]
  | .values rows => [.clause "VALUES" (", ".intercalate (Expr.prints o rows))]
  | .setOperation operation => [.block (operation.print o)]
  | .nested query => [.block (Text.parenthesize (query.print o))]
termination_by structural b => b

def Select.entries (o : Layout) : Select → List Entry
  | ⟨quantifier, items, sources, filter, group, having, windows⟩ =>
    [.clause "SELECT"
        (Quantifier.lead quantifier ++ ", ".intercalate (SelectItem.prints o items))] ++
      Entry.unlessEmpty "FROM" "" (Relation.prints o sources) ++
      Entry.ofOption "WHERE" (Expr.print? o filter) ++
      Entry.ofOption "GROUP" ((GroupBy.print? o group).map ("BY " ++ ·)) ++
      Entry.ofOption "HAVING" (Expr.print? o having) ++
      Entry.unlessEmpty "WINDOW" "" (NamedWindow.prints o windows)
termination_by structural s => s

def SelectItem.print (o : Layout) : SelectItem → String
  | .expr expr none => expr.print o
  | .expr expr (some name) => expr.print o ++ " AS " ++ name.sql
  | .star relation names => Name.starSql relation ++ Ident.listAfter " AS " names
termination_by structural i => i

def SelectItem.prints (o : Layout) : List SelectItem → List String
  | [] => []
  | i :: is => i.print o :: SelectItem.prints o is
termination_by structural is => is

def GroupBy.print (o : Layout) : GroupBy → String
  | ⟨quantifier, elements⟩ =>
    Quantifier.lead quantifier ++ ", ".intercalate (GroupingElement.prints o elements)
termination_by structural g => g

def GroupBy.print? (o : Layout) : Option GroupBy → Option String
  | none => none
  | some g => some (g.print o)
termination_by structural g => g

def GroupingElement.print (o : Layout) : GroupingElement → String
  | .expr expr => expr.print o
  | .rollup exprs => "ROLLUP (" ++ ", ".intercalate (Expr.prints o exprs) ++ ")"
  | .cube exprs => "CUBE (" ++ ", ".intercalate (Expr.prints o exprs) ++ ")"
  | .sets sets => "GROUPING SETS (" ++ ", ".intercalate (Expr.printSets o sets) ++ ")"
termination_by structural e => e

def GroupingElement.prints (o : Layout) : List GroupingElement → List String
  | [] => []
  | e :: es => e.print o :: GroupingElement.prints o es
termination_by structural es => es

def NamedWindow.print (o : Layout) : NamedWindow → String
  | ⟨name, window⟩ => name.sql ++ " AS (" ++ window.print o ++ ")"
termination_by structural w => w

def NamedWindow.prints (o : Layout) : List NamedWindow → List String
  | [] => []
  | w :: ws => w.print o :: NamedWindow.prints o ws
termination_by structural ws => ws

end

/-- The text of an expression in a slot that asks for `required`. -/
def Expr.printAt (o : Layout) (required : Tier) (e : Expr) : String :=
  wrapIf (e.isLooser required) (e.print o)

/-- What stands between the operands. -/
def Expr.separator (o : Layout) (op : BinaryOp) : String :=
  (if op.isLogical then o.newline else " ") ++ op.sql ++ " "

theorem Expr.print_binary {o : Layout} {op : BinaryOp} (l r : Expr) :
    (Expr.binary l op r).print o =
      wrapIf (l.needsParens op .left) (l.print o) ++ separator o op ++
        wrapIf (r.needsParens op .right) (r.print o) := by
  rw [print, separator]
  simp only [String.append_assoc]

end Sql
