import Sql.Proofs.EchoExpressions
import Sql.Proofs.Tiling

/-! The token that a parse error blames fits in no plain text that begins alike. -/
namespace Sql

open Token (Kind)
open Sql.Parser (Echoes EchoesFrom Refuses Strides)

namespace Grammar

theorem echoes_sampleMethod : Echoes sampleMethod sampleMethod := by
  refine .branch (.eatWord _) (.pure _) ?_
  exact .branch (.eatWord _) (.pure _) .unexpected

theorem echoes_joinKind : Echoes joinKind joinKind := by
  have houter : ∀ kind, Echoes (joinKind.outer kind) (joinKind.outer kind) := fun kind =>
    Echoes.advance.bind fun _ => (Echoes.eatKeyword _).bind fun _ => .pure _
  refine Echoes.peek.bind fun k => ?_
  split
  · exact .pure _
  · exact Echoes.advance.bind fun _ => .pure _
  iterate 3 exact houter _
  · exact .pure _

theorem echoes_rowCount : Echoes rowCount rowCount := by
  refine Echoes.peek.bind fun k => ?_
  split
  · exact Echoes.advance.bind fun _ => .pure _
  · exact .unexpected

theorem echoes_offset : Echoes offset offset := by
  refine echoes_rowCount.bind fun n => (Echoes.eatWord _).bind fun rows => .ite (.pure _) ?_
  exact (Echoes.eatWord _).bind fun _ => .pure _

theorem echoes_limit : Echoes limit limit :=
  .branch (.eatKeyword _) (.pure _) (echoes_rowCount.bind fun _ => .pure _)

theorem echoes_starItem (relation : Option Name) :
    Echoes (starItem relation) (starItem relation) := by
  refine (Echoes.expectSymbol _).bind fun _ => (Echoes.check _).bind fun as => ?_
  refine Echoes.peekAt_one.bind fun next => .ite ?_ (.pure _)
  exact Echoes.advance.bind fun _ => Echoes.identList.bind fun xs => .pure _

theorem echoes_setOperand {side : Parser Query} (h : Echoes side side) (operator : SetOperator)
    (left : Query) : Echoes (setOperand operator left side) (setOperand operator left side) :=
  echoes_quantifier.bind fun _ => h.bind fun _ => .pure _

namespace Echoing

variable {g : Grammar} (hg : g.Echoing)

include hg

/-! ### Relations -/

theorem unnest : Echoes g.unnest g.unnest := by
  refine .here fun x y => Echoes.advance.bind fun _ => hg.parenExprs.bind fun args => ?_
  refine (Echoes.check _).bind fun ordinality => Echoes.peekAt_one.bind fun next => ?_
  refine .ite ?_ (.valid x y _)
  exact Echoes.advance.bind fun _ => Echoes.advance.bind fun _ => .valid x y _

/-- The error of a query is dropped, but the second attempt fails at the word that opens it. -/
theorem parenRelation : Echoes g.parenRelation g.parenRelation := by
  refine .queryAhead (fun hst hc ho => ?_) hg.relation.parens
  refine (hg.parenQuery hst hc).attempt hst (fun q => .pure _) fun e he => ?_
  exact .refusesWord hc.behind ho (hg.refusesRelation ho.advance).bind

/-- What is wrong with a derived table is not told: the word that opens its query is blamed. -/
theorem parenRelation_error {c : Cursor} {e : ParseError} (ho : c.OpensQuery)
    (he : g.parenQuery c = .error e) :
    ∃ e', g.parenRelation c = .error e' ∧ e'.span = c.advance.token.span := by
  obtain ⟨e', he', hspan, -⟩ := (hg.refusesRelation ho.advance).bind.behind ho.paren
  refine ⟨e', ?_, hspan⟩
  unfold Grammar.parenRelation
  rw [Parser.bind_ok ho.queryAhead, if_pos rfl, Parser.bind_ok (Parser.attempt_error he)]
  exact he'

theorem primaryRelation : Echoes g.primaryRelation g.primaryRelation := by
  refine Echoes.peek.bind fun k => ?_
  split
  · exact hg.unnest
  · exact Echoes.advance.bind fun _ => hg.parenQuery.bind fun q => .pure _
  · exact hg.parenRelation
  · exact Echoes.name.bind fun n => .pure _
  · exact .unexpected

theorem renamedRelation : Echoes g.renamedRelation g.renamedRelation := by
  refine hg.primaryRelation.bind fun r => Echoes.optionalName.bind fun x => ?_
  split
  · exact .pure _
  · exact Echoes.optionalIdentList.bind fun columns => .pure _

theorem sampledRelation : Echoes g.sampledRelation g.sampledRelation := by
  refine hg.renamedRelation.bind fun r => .branch (.eatKeyword _) ?_ (.pure _)
  exact echoes_sampleMethod.bind fun method => hg.expr.parens.bind fun p => .pure _

theorem joinCriteria : Echoes g.joinCriteria g.joinCriteria := by
  refine .branch (.eatKeyword _) (hg.expr.bind fun e => .pure _) ?_
  exact .branch (.eatKeyword _) (Echoes.identList.bind fun xs => .pure _) .unexpected

theorem joinNext (left : Relation) : Strides (g.joinNext left) (g.joinNext left) where
  echoes := by
    intro n s t hst i c d hc
    refine .congr (Parser.bind_ok Parser.here_apply) (fun _ => Parser.bind_ok Parser.here_apply) ?_
    -- If a relation follows, the word JOIN has been read.
    have hafter : ∀ {j : Nat} {c' d' : Cursor} {p q : Parser (Option Relation)}, i ≤ j →
        Cursor.Beside n s t j c' d' → Echoes p q → EchoesFrom n s t j c' d'
          (do Parser.expectKeyword .JOIN; p) (do Parser.expectKeyword .JOIN; q)
          fun r l => r ≠ none → i < l := by
      intro j c' d' p q hij hc' h
      refine (EchoesFrom.expectKeyword hst hc' _).bind fun _ k c'' d'' _ hjk hc'' => ?_
      refine EchoesFrom.mono (h hst hc'') fun r l hkl _ _ => ?_
      omega
    refine (EchoesFrom.eatKeyword hst hc _).bind fun cross j c₁ d₁ hij _ hc₁ => ?_
    split
    · exact hafter hij hc₁ (hg.sampledRelation.bind fun right => .pure _)
    refine (EchoesFrom.eatKeyword hst hc₁ _).bind fun natural k c₂ d₂ hjk _ hc₂ => ?_
    refine (echoes_joinKind hst hc₂).bind fun kind l c₃ d₃ hkl _ hc₃ => ?_
    split
    · split
      · exact .unexpected hc₃
      · exact .pure hc₃ fun h => absurd rfl h
    · rename_i kind
      have hbuild : ∀ right criteria, Echoes
          (do return some (← Parser.valid c.token.span
            (Relation.buildJoin left right kind criteria)))
          (do return some (← Parser.valid d.token.span
            (Relation.buildJoin left right kind criteria))) :=
        fun right criteria => (Echoes.valid _ _ _).bind fun r => .pure _
      refine hafter (hij.trans (hjk.trans hkl)) hc₃ (hg.sampledRelation.bind fun right => ?_)
      exact .ite (hbuild right _) (hg.joinCriteria.bind (hbuild right))
  left := by
    rintro ⟨_, _, _⟩ rfl
    rfl
  right := by
    rintro ⟨_, _, _⟩ rfl
    rfl

theorem joinedRelation : Echoes g.joinedRelation g.joinedRelation :=
  hg.sampledRelation.bind fun _ => Strides.iterate hg.joinNext _

/-! ### Selections -/

theorem groupingElement : Echoes g.groupingElement g.groupingElement := by
  intro n s t hst i c d hc
  have hsets := (hst.left.behind hc.behind).not_startsPair
  rw [Bool.or_eq_false_iff] at hsets
  have hlist : ∀ build : List Expr → Except Invalid GroupingElement, Echoes
      (do
        Parser.advance
        Parser.valid c.token.span (build (← g.parenExprs)))
      (do
        Parser.advance
        Parser.valid d.token.span (build (← g.parenExprs))) := fun build =>
    Echoes.advance.bind fun _ => hg.parenExprs.bind fun es => .valid _ _ _
  refine .congr (Parser.bind_ok Parser.here_apply) (fun _ => Parser.bind_ok Parser.here_apply) ?_
  refine .peekAt_one hst hc (.checkWord hst hc ?_)
  split
  · exact hlist _ hst hc
  refine .checkWord hst hc ?_
  split
  · exact hlist _ hst hc
  refine .checkWord hst hc ?_
  rw [hsets.1]
  exact Echoes.bind hg.expr (fun e => .pure _) hst hc

theorem groupBy : Echoes g.groupBy g.groupBy := by
  refine (Echoes.expectKeyword _).bind fun _ => echoes_quantifier.bind fun quantifier => ?_
  exact hg.groupingElement.commaList.bind fun elements => .pure _

theorem selectItem : Echoes g.selectItem g.selectItem := by
  refine .branch (.check _) (echoes_starItem none) (.branch .starAhead ?_ ?_)
  · refine Echoes.name.bind fun relation => (Echoes.expectSymbol _).bind fun _ => ?_
    exact echoes_starItem (some relation)
  · exact hg.expr.bind fun e => Echoes.optionalName.bind fun x => .pure _

theorem select : Echoes g.select g.select := by
  refine .here fun x y => (Echoes.expectKeyword _).bind fun _ => ?_
  refine echoes_quantifier.bind fun quantifier => hg.selectItem.commaList.bind fun items => ?_
  refine (Echoes.valid x y _).bind fun s => ?_
  refine (Echoes.eatKeyword _).bind fun hasSources => ?_
  refine .ite (hg.relation.commaList.bind ?tail) (?tail [])
  intro sources
  refine (Echoes.eatKeyword _).bind fun filtered => hg.expr.optional.bind fun filter => ?_
  refine (Echoes.eatKeyword _).bind fun grouped => hg.groupBy.optional.bind fun group => ?_
  refine (Echoes.eatKeyword _).bind fun chosen => hg.expr.optional.bind fun having => ?_
  refine .branch (.eatKeyword _) ?_ (.pure _)
  exact hg.namedWindow.commaList.bind fun windows => .pure _

/-! ### Queries -/

theorem values : Echoes g.values g.values := by
  refine .here fun x y => (Echoes.expectKeyword _).bind fun _ => ?_
  exact hg.exprs.bind fun rows => .valid x y _

theorem primaryQuery : Echoes g.primaryQuery g.primaryQuery := by
  refine Echoes.peek.bind fun k => ?_
  split
  · exact hg.select.bind fun s => .pure _
  · exact Echoes.advance.bind fun _ => Echoes.name.bind fun n => .pure _
  · exact hg.values.bind fun b => .pure _
  · exact hg.parenQuery
  · exact .unexpected

theorem intersectNext (left : Query) : Strides (g.intersectNext left) (g.intersectNext left) :=
  .branch (echoes_setOperand hg.primaryQuery _ left) .decline

theorem queryTerm : Echoes g.queryTerm g.queryTerm :=
  hg.primaryQuery.bind fun _ => Strides.iterate hg.intersectNext _

theorem unionNext (left : Query) : Strides (g.unionNext left) (g.unionNext left) := by
  refine .branch (echoes_setOperand hg.queryTerm _ left) ?_
  exact .branch (echoes_setOperand hg.queryTerm _ left) .decline

theorem setExpression : Echoes g.setExpression g.setExpression :=
  hg.queryTerm.bind fun _ => Strides.iterate hg.unionNext _

theorem cte : Echoes g.cte g.cte := by
  refine Echoes.ident.bind fun x => Echoes.optionalIdentList.bind fun columns => ?_
  exact (Echoes.expectKeyword _).bind fun _ => hg.parenQuery.bind fun q => .pure _

theorem withClause : Echoes g.withClause g.withClause :=
  (Echoes.eatWord _).bind fun _ => hg.cte.commaList.bind fun _ => .pure _

theorem fullQuery : Echoes g.fullQuery g.fullQuery := by
  refine (Echoes.eatKeyword _).bind fun bound => hg.withClause.optional.bind fun bindings => ?_
  refine hg.setExpression.bind fun q => hg.optionalOrder.bind fun order => ?_
  refine (Echoes.eatKeyword _).bind fun skips => echoes_offset.optional.bind fun offset => ?_
  refine (Echoes.eatKeyword _).bind fun limited => echoes_limit.optional.bind fun limit => ?_
  exact .pure _

end Echoing

/-! ### All levels -/

/-- No relation starts with a word that opens a query. -/
theorem refuses_joinedRelation (g : Grammar) {c : Cursor} (hword : c.kind.isQueryWord = true) :
    Refuses g.joinedRelation c := by
  have hprimary : Refuses g.primaryRelation c := by
    refine .unexpected "table name or '('" ?_
    rcases Kind.eq_of_isQueryWord hword with hk | hk | hk | hk
    all_goals
      have hc := Cursor.At.of_kind hk nofun
      exact Parser.bind_ok (Parser.peek_apply hc)
  exact hprimary.bind.bind.bind

theorem Echoing.deepen {g : Grammar} (hg : g.Echoing) : g.deepen.Echoing where
  query := hg.fullQuery
  relation := hg.joinedRelation
  exprFrom := hg.expression
  type := Echoes.dataType hg.type
  refusesRelation := refuses_joinedRelation g
  refusesExpr := refuses_expression g

theorem echoing_bottom : bottom.Echoing where
  query := .here fun _ _ => .failAt rfl
  relation := .here fun _ _ => .failAt rfl
  exprFrom _ := .here fun _ _ => .failAt rfl
  type := .here fun _ _ => .failAt rfl
  refusesRelation _ := ⟨_, rfl, rfl, nofun⟩
  refusesExpr _ _ := ⟨_, rfl, rfl, nofun⟩

theorem echoing_ofDepth (depth : Nat) : (ofDepth depth).Echoing := by
  induction depth with
  | zero => exact echoing_bottom
  | succ depth ih => exact ih.deepen

end Grammar

/-! ### Whole texts -/

/-- Nothing tentative starts anywhere in the text. -/
def Token.IsPlain (text : String) : Prop := Kind.arePlain ((Token.scan text).map (·.kind)) = true

instance : DecidablePred Token.IsPlain := fun text =>
  inferInstanceAs (Decidable (Kind.arePlain ((Token.scan text).map (·.kind)) = true))

theorem Cursor.plain_ofText {text : String} (h : Token.IsPlain text) : (ofText text).Plain where
  tokens k hk := (ofText_found text k hk).ne_endOfInput
  plain := h

theorem Token.kindsAll_getD (text : String) (i : Nat) :
    (kindsAll text).getD i .endOfInput = (Cursor.ofText text).kindAt i := by
  have hmark : kindsAll text = (Cursor.ofText text).kinds ++ [.endOfInput] := List.map_append
  rw [hmark, Cursor.kindAt_eq]
  rcases Nat.lt_or_ge i (Cursor.ofText text).kinds.length with hi | hi
  · exact List.getD_append _ _ _ _ hi
  · rw [List.getD_append_right _ _ _ _ hi, List.getD_eq_default _ _ hi]
    cases i - (Cursor.ofText text).kinds.length <;> rfl

theorem Cursor.agree_ofText {text other : String} {n : Nat} (h : Token.IsPlain text)
    (hother : Token.IsPlain other)
    (hsame : (Token.kindsAll other).take n = (Token.kindsAll text).take n) :
    Agree n (ofText text) (ofText other) where
  left := plain_ofText h
  right := plain_ofText hother
  kinds i hi := by
    have htake : ∀ ks : List Kind, ks.getD i .endOfInput = (ks.take n).getD i .endOfInput := by
      intro ks
      simp [List.getD_eq_getElem?_getD, hi]
    rw [← Token.kindsAll_getD, ← Token.kindsAll_getD, htake, htake (Token.kindsAll other), hsame]

/-- If a parser blames a token of a plain text and it does not open a query, no plain text that
begins with the same tokens, up to the one behind it, is accepted. -/
theorem Parser.Echoes.rejects {α : Type} {p : Parser α} (h : Echoes p p) {text other : String}
    {e : ParseError} {found : Kind} {k : Nat} {t : Token} (htext : Token.IsPlain text)
    (hother : Token.IsPlain other) (he : p.run text = .error e) (hfound : e.found? = some found)
    (hword : found.isQueryWord = false) (ht : (Token.scanAll text)[k]? = some t)
    (hspan : t.span = e.span)
    (hsame : (Token.kindsAll other).take (k + 2) = (Token.kindsAll text).take (k + 2)) :
    ∃ e', p.run other = .error e' := by
  have hwhole : Echoes (do let a ← p; Parser.finish; return a : Parser α)
      (do let a ← p; Parser.finish; return a) :=
    h.bind fun a => Echoes.finish.bind fun _ => .pure a
  have hagree := Cursor.agree_ofText htext hother hsame
  have hstart : Cursor.Beside (k + 2) (.ofText text) (.ofText other) 0 (.ofText text)
      (.ofText other) := ⟨.refl _, fun _ => .refl _, fun _ => rfl⟩
  have hechoes := hwhole hagree hstart
  unfold EchoesFrom at hechoes
  rw [Parser.run_eq_error_iff.1 he] at hechoes
  obtain ⟨j, c, -, hc, hplace, -, hfails⟩ := hechoes found hfound
  obtain rfl : k = j := Token.eq_of_span_eq ht hc.token (hspan.trans hplace)
  obtain ⟨e', he'⟩ := hfails (Nat.lt_succ_self _) hword
  exact ⟨e', Parser.run_eq_error_iff.2 he'⟩

/-- In plain texts an error stands at the first token that does not fit, or at the one before it if
a look at both decides: no plain text that begins with the same tokens, up to the one behind the
blamed one, is a query. This does not hold of the words that open a query, which are also blamed for
what is wrong further on. -/
theorem Query.rejects_of_parse_error {text other : String} {e : ParseError} {found : Kind} {k : Nat}
    {t : Token} (htext : Token.IsPlain text) (hother : Token.IsPlain other)
    (he : Query.parse text = .error e) (hfound : e.found? = some found)
    (hword : found.isQueryWord = false) (ht : (Token.scanAll text)[k]? = some t)
    (hspan : t.span = e.span)
    (hsame : (Token.kindsAll other).take (k + 2) = (Token.kindsAll text).take (k + 2)) :
    ∃ e', Query.parse other = .error e' :=
  (Grammar.echoing_ofDepth _).query.rejects htext hother he hfound hword ht hspan hsame

theorem Query.rejects_of_parse_error_comma :
    ∃ e', Query.parse "SELECT a FROM , b WHERE b" = .error e' := by
  have he : Query.parse "SELECT a FROM , b" =
      .error ⟨.unexpected "table name or '('" (.symbol .comma), 14, 15⟩ :=
    Parser.run_error_of_map (by decide +kernel)
  have ht : (Token.scanAll "SELECT a FROM , b")[3]? = some ⟨.symbol .comma, 14, 15⟩ := by
    decide +kernel
  have hplain : Token.IsPlain "SELECT a FROM , b" := by decide +kernel
  have hother : Token.IsPlain "SELECT a FROM , b WHERE b" := by decide +kernel
  exact rejects_of_parse_error hplain hother he rfl rfl ht rfl (by decide +kernel)

end Sql
