import Sql.Proofs.Blame
import Sql.Proofs.Calls

/-! Parsers of expressions blame a token of the text. -/
namespace Sql

open Token (Kind)
open Sql.Parser (Blames Points)

/-- Every parser of the grammar blames one of the tokens. -/
structure Grammar.Pointing (ts : List Token) (g : Grammar) : Prop where
  query : Points ts g.query
  relation : Points ts g.relation
  exprFrom (floor : Nat) : Points ts (g.exprFrom floor)
  type : Points ts g.type

namespace Grammar

variable {ts : List Token}

theorem points_quantifier : Points ts quantifier := by
  refine .branch (.eatKeyword _) (.pure trivial) ?_
  exact .branch (.eatKeyword _) (.pure trivial) (.pure trivial)

theorem points_nullOrder : Points ts nullOrder := by
  refine .branch (.eatWord _) ?_ (.pure trivial)
  refine .branch (.eatWord _) (.pure trivial) ?_
  exact .branch (.eatWord _) (.pure trivial) .unexpected

theorem points_unitsAhead : Points ts unitsAhead := .look fun _ => rfl

theorem points_frameUnits : Points ts frameUnits := by
  refine .branch (.eatWord _) (.pure trivial) ?_
  refine .branch (.eatWord _) (.pure trivial) ?_
  exact .branch (.eatWord _) (.pure trivial) .unexpected

theorem points_baseWindow : Points ts baseWindow := by
  refine (Blames.checkWord _).skip fun partitioned => (Blames.peekAt 1).skip fun next => ?_
  refine (Blames.check _).skip fun ordered => points_unitsAhead.skip fun framed => ?_
  exact .ite (.pure trivial) (Blames.peek.skip fun k => Blames.ident.optional)

theorem points_interval : Points ts interval := by
  refine Blames.here.bind fun span hs => Blames.advance.skip fun _ => ?_
  refine (Blames.eatSymbol _).skip fun negative => .ite ?_ ((Blames.eatSymbol _).skip fun _ => ?_)
  all_goals
    refine Blames.peek.skip fun k => ?_
    split
    · refine Blames.advance.skip fun _ => Blames.intervalField.skip fun start => ?_
      refine (Blames.eatWord _).skip fun more => Blames.intervalField.optional.skip fun stop => ?_
      exact .valid hs _
    · exact .unexpected

theorem points_intervalAhead : Points ts intervalAhead := by
  refine (Blames.peekAt 1).skip fun k => ?_
  split
  · exact .pure trivial
  · exact (Blames.peekAt 2).skip fun k => .pure trivial
  · exact (Blames.peekAt 2).skip fun k => .pure trivial
  · exact .pure trivial

theorem points_taking (e : Expr) : Points ts (taking e) :=
  Blames.advance.skip fun _ => .pure trivial

theorem points_placeholder : Points ts placeholder := fun _ hc => ⟨hc.advance, trivial⟩

theorem points_refuseCompared (left : Operand) : Points ts (refuseCompared left) :=
  .ite .unexpected (.pure trivial)

theorem points_predicateAhead : Points ts predicateAhead := by
  refine Blames.peek.skip fun k => ?_
  split
  case h_5 =>
    refine (Blames.peekAt 1).skip fun k => ?_
    split <;> exact .pure trivial
  all_goals exact .pure trivial

namespace Pointing

variable {g : Grammar} (hg : g.Pointing ts)

include hg

/-! ### Lists and clauses -/

theorem expr : Points ts g.expr := hg.exprFrom _

theorem operand : Points ts g.operand := hg.exprFrom _

theorem exprs : Points ts g.exprs := hg.expr.commaList

theorem exprsUntil (closing : Symbol) : Points ts (g.exprsUntil closing) := by
  refine .branch (.eatSymbol _) (.pure trivial) ?_
  exact hg.exprs.skip fun es => (Blames.expectSymbol _).skip fun _ => .pure trivial

theorem parenExprs : Points ts g.parenExprs := (Blames.expectSymbol _).skip fun _ => hg.exprsUntil _

theorem parenQuery : Points ts g.parenQuery := hg.query.parens

theorem orderTerm : Points ts g.orderTerm := by
  refine hg.expr.skip fun e => (Blames.eatWord _).skip fun descending => ?_
  have hnulls : Points ts (do return (⟨e, descending, ← nullOrder⟩ : OrderTerm)) :=
    points_nullOrder.skip fun nulls => .pure trivial
  exact .ite hnulls ((Blames.eatWord _).skip fun _ => hnulls)

theorem optionalOrder : Points ts g.optionalOrder := by
  refine .branch (.eatKeyword _) ?_ (.pure trivial)
  exact (Blames.expectKeyword _).skip fun _ => hg.orderTerm.commaList

/-! ### Windows -/

theorem bound : Points ts g.bound := by
  refine .branch (.eatWord _) ?_ ?_
  · refine .branch (.eatWord _) (.pure trivial) ?_
    exact .branch (.eatWord _) (.pure trivial) .unexpected
  refine (Blames.checkWord _).skip fun current => (Blames.peekAt 1).skip fun next => .ite ?_ ?_
  · exact Blames.advance.skip fun _ => Blames.advance.skip fun _ => .pure trivial
  refine hg.operand.skip fun offset => .branch (.eatWord _) (.pure trivial) ?_
  exact .branch (.eatWord _) (.pure trivial) .unexpected

theorem frame : Points ts g.frame := by
  refine points_frameUnits.skip fun units => .branch (.eatKeyword _) ?_ ?_
  · refine hg.bound.skip fun start => (Blames.expectKeyword _).skip fun _ => ?_
    exact hg.bound.skip fun stop => .pure trivial
  · exact hg.bound.skip fun start => .pure trivial

theorem partition : Points ts g.partition := by
  refine .branch (.eatWord _) ?_ (.pure trivial)
  exact (Blames.expectKeyword _).skip fun _ => hg.exprs

theorem window : Points ts g.window := by
  refine points_baseWindow.skip fun base => hg.partition.skip fun partition => ?_
  refine hg.optionalOrder.skip fun order => points_unitsAhead.skip fun framed => ?_
  exact hg.frame.optional.skip fun frame => .pure trivial

theorem windowTarget : Points ts g.windowTarget := by
  refine .branch (.eatSymbol _) ?_ (Blames.ident.skip fun x => .pure trivial)
  exact hg.window.skip fun w => (Blames.expectSymbol _).skip fun _ => .pure trivial

theorem namedWindow : Points ts g.namedWindow := by
  refine Blames.ident.skip fun x => (Blames.expectKeyword _).skip fun _ => ?_
  exact hg.window.parens.skip fun w => .pure trivial

/-! ### Operands -/

theorem callTail (n : Name) (quantifier : Option Quantifier) (args : List Expr)
    (order : List OrderTerm) : Points ts (g.callTail n quantifier args order) := by
  refine (Blames.checkWord _).skip fun filtered => (Blames.peekAt 1).skip fun next => ?_
  refine (Blames.optional ?_).skip fun filter => ?_
  · refine Blames.advance.skip fun _ => Blames.advance.skip fun _ => ?_
    refine (Blames.expectKeyword _).skip fun _ => hg.expr.skip fun condition => ?_
    exact (Blames.expectSymbol _).skip fun _ => .pure trivial
  have hover : ∀ nulls, Points ts (do
      let window ← Parser.optional (← Parser.eatWord "OVER") g.windowTarget
      return (.call ⟨n, quantifier, args, order, filter, nulls, window⟩ : Expr)) := by
    intro nulls
    refine (Blames.eatWord _).skip fun windowed => ?_
    exact hg.windowTarget.optional.skip fun window => .pure trivial
  refine (Blames.peekAt 1).skip fun next => .ite ?_ (hover none)
  refine .branch (.eatWord _) (Blames.advance.skip fun _ => hover _) ?_
  exact .branch (.eatWord _) (Blames.advance.skip fun _ => hover _) (hover none)

theorem call (n : Name) : Points ts (g.call n) := by
  refine (Blames.expectSymbol _).skip fun _ => .branch (.eatSymbol _) (hg.callTail n none [] []) ?_
  refine points_quantifier.skip fun quantifier => hg.exprs.skip fun args => ?_
  refine hg.optionalOrder.skip fun order => (Blames.expectSymbol _).skip fun _ => ?_
  exact hg.callTail n quantifier args order

theorem lambdaBody (params : List Ident) : Points ts (g.lambdaBody params) := by
  refine Blames.here.bind fun span hs => (Blames.expectSymbol _).skip fun _ => ?_
  exact hg.expr.skip fun body => .valid hs _

theorem grouped : Points ts g.grouped := by
  refine Blames.parens (hg.expr.skip fun first => .branch (.eatSymbol _) ?_ (.pure trivial))
  exact hg.exprs.skip fun rest => .pure trivial

/-- The error of a query is kept for the case that no operand stands there either. -/
theorem parenthesized (floor : Nat) : Points ts (g.parenthesized floor) := by
  refine Blames.parametersAhead.skip fun lambda => .ite ?_ ?_
  · exact Blames.identList.skip fun params => hg.lambdaBody params
  refine .branch .queryAhead ?_ hg.grouped
  refine hg.parenQuery.attempt.bind fun r hr => ?_
  cases r with
  | ok q => exact .pure trivial
  | error e => exact hg.grouped.orFailWith (hr e rfl)

theorem whenBranch (branches : List (Expr × Expr)) : Points ts (g.whenBranch branches) := by
  refine .branch (.eatKeyword _) ?_ (.pure trivial)
  refine hg.expr.skip fun condition => (Blames.expectKeyword _).skip fun _ => ?_
  exact hg.expr.skip fun value => .pure trivial

theorem caseWhen : Points ts g.caseWhen := by
  refine Blames.here.bind fun span hs => (Blames.expectKeyword _).skip fun _ => ?_
  refine (Blames.check _).skip fun plain => hg.expr.optional.skip fun operand => ?_
  refine (Blames.iterate hg.whenBranch).skip fun branches => .ite .unexpected_bind ?_
  refine (Blames.eatKeyword _).skip fun more => hg.expr.optional.skip fun otherwise => ?_
  exact (Blames.expectKeyword _).skip fun _ => .valid hs _

theorem cast (safe : Bool) : Points ts (g.cast safe) := by
  refine Blames.advance.skip fun _ => Blames.parens (hg.expr.skip fun e => ?_)
  exact (Blames.expectKeyword _).skip fun _ => hg.type.skip fun t => .pure trivial

theorem named : Points ts g.named := by
  refine Blames.name.skip fun n => .branch (.check _) (hg.call n) ?_
  refine (Blames.check _).skip fun dot => (Blames.peekAt 1).skip fun next => .ite ?_ ?_
  · exact Blames.advance.skip fun _ => Blames.advance.skip fun _ => .pure trivial
  · exact .ite (.pure trivial) (.pure trivial)

theorem fromWord (word : String) : Points ts (g.fromWord word) := by
  refine (Blames.peekAt 1).skip fun next => points_intervalAhead.skip fun ahead => ?_
  refine .ite points_interval (.ite ?_ (.ite ?_ (.ite (hg.cast true) ?_)))
  · refine Blames.advance.skip fun _ => Blames.advance.skip fun _ => ?_
    exact (hg.exprsUntil _).skip fun items => .pure trivial
  · refine Blames.advance.skip fun _ => Blames.advance.skip fun _ => ?_
    exact (hg.exprsUntil _).skip fun items => .pure trivial
  · split
    · exact Blames.advance.skip fun _ => Blames.advance.skip fun _ => .pure trivial
    · exact hg.named

theorem fromIdent (floor : Nat) (x : Ident) : Points ts (g.fromIdent floor x) := by
  refine (Blames.peekAt 1).skip fun next => .ite ?_ (.ite hg.named (hg.fromWord _))
  exact Blames.advance.skip fun _ => hg.lambdaBody _

theorem primary (floor : Nat) : Points ts (g.primary floor) := by
  refine Blames.peek.skip fun k => ?_
  cases k with
  | symbol s =>
    cases s with
    | question => exact points_placeholder
    | star => exact points_taking _
    | leftParen => exact hg.parenthesized floor
    | _ => exact .unexpected
  | keyword w =>
    cases w with
    | NULL | TRUE | FALSE => exact points_taking _
    | CASE => exact hg.caseWhen
    | CAST => exact hg.cast false
    | EXISTS => exact Blames.advance.skip fun _ => hg.parenQuery.skip fun q => .pure trivial
    | _ => exact .unexpected
  | ident x => exact hg.fromIdent floor x
  | endOfInput | error _ => exact .unexpected
  | _ => exact points_taking _

theorem signed (floor : Nat) : Points ts (g.signed floor) := by
  refine Blames.peek.skip fun k => ?_
  split
  · exact Blames.advance.skip fun _ => (hg.exprFrom _).skip fun e => .pure trivial
  · exact hg.primary floor

/-! ### Predicates -/

theorem isPredicate (left : Expr) : Points ts (g.isPredicate left) := by
  refine (Blames.eatKeyword _).skip fun negated => .branch (.eatKeyword _) (.pure trivial) ?_
  refine .branch (.eatKeyword _) ?_ .unexpected
  exact (Blames.expectKeyword _).skip fun _ => hg.operand.skip fun right => .pure trivial

theorem inPredicate {span : Span} (hs : span.Among ts) (left : Expr) (negated : Bool) :
    Points ts (g.inPredicate span left negated) := by
  have hlist : Points ts (inPredicate.fromList g span left negated) :=
    hg.parenExprs.skip fun items => .valid hs _
  refine .branch .queryAhead (hg.parenQuery.attempt.bind fun r _ => ?_) hlist
  cases r with
  | ok q => exact .pure trivial
  | error e => exact hlist

theorem predicate (left : Expr) : Points ts (g.predicate left) := by
  refine Blames.here.bind fun span hs => .branch (.eatKeyword _) (hg.isPredicate left) ?_
  refine (Blames.eatKeyword _).skip fun negated => .branch (.eatKeyword _) ?_ ?_
  · refine hg.operand.skip fun pattern => (Blames.eatWord _).skip fun escaped => ?_
    exact hg.operand.optional.skip fun escape => .pure trivial
  refine .branch (.eatKeyword _) ?_ ?_
  · refine hg.operand.skip fun low => (Blames.expectKeyword _).skip fun _ => ?_
    exact hg.operand.skip fun high => .pure trivial
  · exact .branch (.eatKeyword _) (hg.inPredicate hs left negated) .unexpected

/-! ### Operators -/

theorem extend (floor : Nat) (left : Operand) : Points ts (g.extend floor left) := by
  refine Blames.peek.skip fun k => .ite ?_ (.ite ?_ ?_)
  · refine Blames.advance.skip fun _ => hg.expr.skip fun index => ?_
    exact (Blames.expectSymbol _).skip fun _ => .pure trivial
  · exact Blames.advance.skip fun _ => Blames.ident.skip fun x => .pure trivial
  split
  · rename_i op _
    have hright : Points ts (do
        Parser.advance
        let right ← g.exprFrom (op.tier.rank + 1)
        return some (⟨.binary left.expr op right, left.compared || op.associativity = .none⟩ :
          Operand)) :=
      Blames.advance.skip fun _ => (hg.exprFrom _).skip fun right => .pure trivial
    refine .ite (.pure trivial) (.ite ?_ hright)
    exact (points_refuseCompared left).skip fun _ => hright
  · refine .branch points_predicateAhead (.ite (.pure trivial) ?_) (.pure trivial)
    refine (points_refuseCompared left).skip fun _ => ?_
    exact (hg.predicate left.expr).skip fun e => .pure trivial

theorem expression (floor : Nat) : Points ts (g.expression floor) := by
  refine (hg.signed floor).skip fun first => ?_
  exact (Blames.iterate (hg.extend floor)).skip fun o => .pure trivial

end Pointing

end Grammar

end Sql
