import Sql.Proofs.BlameExpressions
import Sql.Proofs.Tiling

/-! Parse errors stand at tokens of the text. -/
namespace Sql

open Token (Kind)
open Sql.Parser (Blames Points)

namespace Grammar

variable {ts : List Token}

theorem points_sampleMethod : Points ts sampleMethod := by
  refine .branch (.eatWord _) (.pure trivial) ?_
  exact .branch (.eatWord _) (.pure trivial) .unexpected

theorem points_joinKind : Points ts joinKind := by
  have houter : ∀ kind, Points ts (joinKind.outer kind) := fun kind =>
    Blames.advance.skip fun _ => (Blames.eatKeyword _).skip fun _ => .pure trivial
  refine Blames.peek.skip fun k => ?_
  split
  · exact .pure trivial
  · exact Blames.advance.skip fun _ => .pure trivial
  iterate 3 exact houter _
  · exact .pure trivial

theorem points_rowCount : Points ts rowCount := by
  refine Blames.peek.skip fun k => ?_
  split
  · exact Blames.advance.skip fun _ => .pure trivial
  · exact .unexpected

theorem points_offset : Points ts offset := by
  refine points_rowCount.skip fun n => (Blames.eatWord _).skip fun rows => .ite (.pure trivial) ?_
  exact (Blames.eatWord _).skip fun _ => .pure trivial

theorem points_limit : Points ts limit :=
  .branch (.eatKeyword _) (.pure trivial) (points_rowCount.skip fun _ => .pure trivial)

theorem points_starItem (relation : Option Name) : Points ts (starItem relation) := by
  refine (Blames.expectSymbol _).skip fun _ => (Blames.check _).skip fun as => ?_
  refine (Blames.peekAt 1).skip fun next => .ite ?_ (.pure trivial)
  exact Blames.advance.skip fun _ => Blames.identList.skip fun xs => .pure trivial

theorem points_setOperand {side : Parser Query} (h : Points ts side) (operator : SetOperator)
    (left : Query) : Points ts (setOperand operator left side) :=
  points_quantifier.skip fun _ => h.skip fun _ => .pure trivial

namespace Pointing

variable {g : Grammar} (hg : g.Pointing ts)

include hg

/-! ### Relations -/

theorem unnest : Points ts g.unnest := by
  refine Blames.here.bind fun span hs => Blames.advance.skip fun _ => ?_
  refine hg.parenExprs.skip fun args => (Blames.check _).skip fun ordinality => ?_
  refine (Blames.peekAt 1).skip fun next => .ite ?_ (.valid hs _)
  exact Blames.advance.skip fun _ => Blames.advance.skip fun _ => .valid hs _

theorem parenRelation : Points ts g.parenRelation := by
  refine .branch .queryAhead (hg.parenQuery.attempt.bind fun r _ => ?_) hg.relation.parens
  cases r with
  | ok q => exact .pure trivial
  | error e => exact hg.relation.parens

theorem primaryRelation : Points ts g.primaryRelation := by
  refine Blames.peek.skip fun k => ?_
  split
  · exact hg.unnest
  · exact Blames.advance.skip fun _ => hg.parenQuery.skip fun q => .pure trivial
  · exact hg.parenRelation
  · exact Blames.name.skip fun n => .pure trivial
  · exact .unexpected

theorem renamedRelation : Points ts g.renamedRelation := by
  refine hg.primaryRelation.skip fun r => Blames.optionalName.skip fun x => ?_
  split
  · exact .pure trivial
  · exact Blames.optionalIdentList.skip fun columns => .pure trivial

theorem sampledRelation : Points ts g.sampledRelation := by
  refine hg.renamedRelation.skip fun r => .branch (.eatKeyword _) ?_ (.pure trivial)
  exact points_sampleMethod.skip fun method => hg.expr.parens.skip fun p => .pure trivial

theorem joinCriteria : Points ts g.joinCriteria := by
  refine .branch (.eatKeyword _) (hg.expr.skip fun e => .pure trivial) ?_
  exact .branch (.eatKeyword _) (Blames.identList.skip fun xs => .pure trivial) .unexpected

theorem joinNext (left : Relation) : Points ts (g.joinNext left) := by
  refine Blames.here.bind fun span hs => .branch (.eatKeyword _) ?_ ?_
  · refine (Blames.expectKeyword _).skip fun _ => ?_
    exact hg.sampledRelation.skip fun right => .pure trivial
  refine (Blames.eatKeyword _).skip fun natural => points_joinKind.skip fun kind => ?_
  split
  · exact .ite .unexpected (.pure trivial)
  · rename_i kind
    refine (Blames.expectKeyword _).skip fun _ => hg.sampledRelation.skip fun right => ?_
    have hbuild : ∀ criteria, Points ts (do
        return some (← Parser.valid span (Relation.buildJoin left right kind criteria))) :=
      fun criteria => (Blames.valid hs _).skip fun r => .pure trivial
    exact .ite (hbuild _) (hg.joinCriteria.skip hbuild)

theorem joinedRelation : Points ts g.joinedRelation :=
  hg.sampledRelation.skip fun _ => .iterate hg.joinNext

/-! ### Selections -/

theorem groupingSet : Points ts g.groupingSet := by
  have hsingle : Points ts (do return [← g.expr]) := hg.expr.skip fun e => .pure trivial
  have hlisted : Points ts (groupingSet.listed g) := by
    refine hg.parenExprs.skip fun set => Blames.peek.skip fun k => ?_
    split
    · exact .pure trivial
    · exact .pure trivial
    · exact .unexpected
  refine .branch (.check _) (hlisted.attempt.bind fun r _ => ?_) hsingle
  cases r with
  | ok set => exact .pure trivial
  | error e => exact hsingle

theorem groupingElement : Points ts g.groupingElement := by
  refine Blames.here.bind fun span hs => (Blames.peekAt 1).skip fun next => ?_
  have hlist : ∀ build : List Expr → Except Invalid GroupingElement, Points ts (do
      Parser.advance
      Parser.valid span (build (← g.parenExprs))) := fun build =>
    Blames.advance.skip fun _ => hg.parenExprs.skip fun es => .valid hs _
  refine (Blames.checkWord _).skip fun rollup => .ite (hlist _) ?_
  refine (Blames.checkWord _).skip fun cube => .ite (hlist _) ?_
  refine (Blames.checkWord _).skip fun grouping => .ite ?_ (hg.expr.skip fun e => .pure trivial)
  refine Blames.advance.skip fun _ => Blames.advance.skip fun _ => ?_
  exact hg.groupingSet.commaList.parens.skip fun sets => .valid hs _

theorem groupBy : Points ts g.groupBy := by
  refine (Blames.expectKeyword _).skip fun _ => points_quantifier.skip fun quantifier => ?_
  exact hg.groupingElement.commaList.skip fun elements => .pure trivial

theorem selectItem : Points ts g.selectItem := by
  refine .branch (.check _) (points_starItem none) (.branch .starAhead ?_ ?_)
  · refine Blames.name.skip fun relation => (Blames.expectSymbol _).skip fun _ => ?_
    exact points_starItem (some relation)
  · exact hg.expr.skip fun e => Blames.optionalName.skip fun x => .pure trivial

theorem select : Points ts g.select := by
  refine Blames.here.bind fun span hs => (Blames.expectKeyword _).skip fun _ => ?_
  refine points_quantifier.skip fun quantifier => hg.selectItem.commaList.skip fun items => ?_
  refine (Blames.valid hs _).skip fun s => ?_
  have htail : ∀ sources, Points ts (do
      let filter ← Parser.optional (← Parser.eatKeyword .WHERE) g.expr
      let group ← Parser.optional (← Parser.eatKeyword .GROUP) g.groupBy
      let having ← Parser.optional (← Parser.eatKeyword .HAVING) g.expr
      let windows ← if ← Parser.eatKeyword .WINDOW then Parser.commaList g.namedWindow else pure []
      return { s with quantifier, sources, filter, group, having, windows }) := by
    intro sources
    refine (Blames.eatKeyword _).skip fun filtered => hg.expr.optional.skip fun filter => ?_
    refine (Blames.eatKeyword _).skip fun grouped => hg.groupBy.optional.skip fun group => ?_
    refine (Blames.eatKeyword _).skip fun chosen => hg.expr.optional.skip fun having => ?_
    refine (Blames.eatKeyword _).skip fun windowed => .ite ?_ (.pure trivial)
    exact hg.namedWindow.commaList.skip fun windows => .pure trivial
  refine (Blames.eatKeyword _).skip fun hasSources => .ite ?_ (htail [])
  exact hg.relation.commaList.skip htail

/-! ### Queries -/

theorem values : Points ts g.values := by
  refine Blames.here.bind fun span hs => (Blames.expectKeyword _).skip fun _ => ?_
  exact hg.exprs.skip fun rows => .valid hs _

theorem primaryQuery : Points ts g.primaryQuery := by
  refine Blames.peek.skip fun k => ?_
  split
  · exact hg.select.skip fun s => .pure trivial
  · exact Blames.advance.skip fun _ => Blames.name.skip fun n => .pure trivial
  · exact hg.values.skip fun b => .pure trivial
  · exact hg.parenQuery
  · exact .unexpected

theorem intersectNext (left : Query) : Points ts (g.intersectNext left) :=
  .branch (.eatKeyword _) (points_setOperand hg.primaryQuery _ left) (.pure trivial)

theorem queryTerm : Points ts g.queryTerm :=
  hg.primaryQuery.skip fun _ => .iterate hg.intersectNext

theorem unionNext (left : Query) : Points ts (g.unionNext left) := by
  refine .branch (.eatKeyword _) (points_setOperand hg.queryTerm _ left) ?_
  exact .branch (.eatKeyword _) (points_setOperand hg.queryTerm _ left) (.pure trivial)

theorem setExpression : Points ts g.setExpression :=
  hg.queryTerm.skip fun _ => .iterate hg.unionNext

theorem cte : Points ts g.cte := by
  refine Blames.ident.skip fun x => Blames.optionalIdentList.skip fun columns => ?_
  exact (Blames.expectKeyword _).skip fun _ => hg.parenQuery.skip fun q => .pure trivial

theorem withClause : Points ts g.withClause :=
  (Blames.eatWord _).skip fun _ => hg.cte.commaList.skip fun _ => .pure trivial

theorem fullQuery : Points ts g.fullQuery := by
  refine (Blames.eatKeyword _).skip fun bound => hg.withClause.optional.skip fun bindings => ?_
  refine hg.setExpression.skip fun q => hg.optionalOrder.skip fun order => ?_
  refine (Blames.eatKeyword _).skip fun skips => points_offset.optional.skip fun offset => ?_
  refine (Blames.eatKeyword _).skip fun limited => points_limit.optional.skip fun limit => ?_
  exact .pure trivial

/-! ### All levels -/

theorem deepen : g.deepen.Pointing ts where
  query := hg.fullQuery
  relation := hg.joinedRelation
  exprFrom := hg.expression
  type := Blames.dataType hg.type

end Pointing

theorem pointing_bottom : bottom.Pointing ts where
  query := Blames.here.bind fun _ hs => .failAt hs rfl
  relation := Blames.here.bind fun _ hs => .failAt hs rfl
  exprFrom _ := Blames.here.bind fun _ hs => .failAt hs rfl
  type := Blames.here.bind fun _ hs => .failAt hs rfl

/-- At every level of nesting the grammar blames tokens of the text. -/
theorem pointing_ofDepth (depth : Nat) : (ofDepth depth).Pointing ts := by
  induction depth with
  | zero => exact pointing_bottom
  | succ depth ih => exact ih.deepen

end Grammar

/-! ### Whole texts -/

/-- Where a token of a text stands, a span ends between characters. -/
theorem Span.Among.onCharacters {text : String} {s : Span} (h : s.Among (Token.scanAll text)) :
    s.OnCharacters text := by
  obtain ⟨t, ht, rfl⟩ := h
  obtain ⟨part, hcovers, -⟩ := (tiling_scanAll text).covers t ht
  exact ⟨part, hcovers⟩

theorem ParseError.Among.span {ts : List Token} {e : ParseError} (h : e.Among ts) :
    e.span.Among ts := by
  obtain ⟨t, ht, hspan, -⟩ := h
  exact ⟨t, ht, hspan⟩

/-- Whichever rule a text is parsed by, an error stands exactly where one of the tokens of the text
does, its end mark included, and so between characters; a token reported as found is that one. -/
theorem located_of_parse_error (text : String) (e : ParseError)
    (he : Query.parse text = .error e ∨ Expr.parse text = .error e ∨
      DataType.parse text = .error e) :
    e.Among (Token.scanAll text) ∧ e.span.OnCharacters text := by
  have hg : (Grammar.ofDepth Grammar.maxDepth).Pointing (Token.scanAll text) :=
    Grammar.pointing_ofDepth Grammar.maxDepth
  have hamong : e.Among (Token.scanAll text) := by
    rcases he with he | he | he
    · exact hg.query.run he
    · exact hg.expr.run he
    · exact hg.type.run he
  exact ⟨hamong, hamong.span.onCharacters⟩

/-- A text whose query in parentheses is tried, given up, and blamed all the same. -/
def sampleBlamed : String := "SELECT 'é', ((SELECT 1 FROM ) + b) FROM t"

theorem parse_sampleBlamed : Query.parse sampleBlamed =
    .error ⟨.unexpected "table name or '('" (.symbol .rightParen), ⟨29, 30⟩⟩ :=
  Parser.run_error_of_map (by decide +kernel)

theorem located_of_parse_error_sample :
    (∃ t ∈ Token.scanAll sampleBlamed, t.span = ⟨29, 30⟩ ∧ t.kind = .symbol .rightParen) ∧
      Span.OnCharacters ⟨29, 30⟩ sampleBlamed := by
  obtain ⟨⟨t, ht, hspan, hkind⟩, hplace⟩ :=
    located_of_parse_error sampleBlamed _ (.inl parse_sampleBlamed)
  exact ⟨⟨t, ht, hspan, hkind _ rfl⟩, hplace⟩

end Sql
