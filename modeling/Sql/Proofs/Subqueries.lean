import Sql.Parse.Query
import Sql.Proofs.Shapes
import Sql.Proofs.Tally

/-! A subquery that is read where an expression may stand is also read where a query may stand, if
the parenthesis around it closes behind it. -/
namespace Sql

open Token (Kind)

def Expr.IsSubquery (e : Expr) : Prop := ∃ q, e = .subquery q

namespace Grammar

open Sql.Parser

variable {g : Grammar} {floor : Nat} {c d : Cursor} {q : Query}

/-! ### Expressions that are no subqueries -/

theorem never_named : Never Expr.IsSubquery g.named := by
  refine .after fun n => .branch (g.never_call nofun n) (.after fun dot => .after fun star => ?_)
  refine .ite ?_ (.ite (.pure nofun) (.pure nofun))
  exact .after fun _ => .after fun _ => .pure nofun

theorem never_fromWord (word : String) : Never Expr.IsSubquery (g.fromWord word) := by
  refine .after fun next => .after fun ahead => .ite (never_interval nofun) (.ite ?_ (.ite ?_ ?_))
  · exact .after fun _ => .after fun _ => .after fun _ => .pure nofun
  · exact .after fun _ => .after fun _ => .after fun _ => .pure nofun
  refine .ite (g.never_cast nofun true) ?_
  split
  · exact .after fun _ => .after fun _ => .pure nofun
  · exact never_named

theorem never_fromIdent (x : Ident) : Never Expr.IsSubquery (g.fromIdent floor x) := by
  refine .after fun next => .ite ?_ (.ite never_named (never_fromWord x.text))
  exact .after fun _ => g.never_lambdaBody nofun [x]

theorem never_fromList (span : Span) (left : Expr) (negated : Bool) :
    Never Expr.IsSubquery (inPredicate.fromList g span left negated) := by
  refine .after fun items => .valid fun e he => ?_
  unfold Expr.buildInList at he
  split at he <;> cases he
  nofun

theorem never_predicate (left : Expr) : Never Expr.IsSubquery (g.predicate left) := by
  have his : Never Expr.IsSubquery (g.isPredicate left) := by
    refine .after fun negated => .branch (.pure nofun) (.branch ?_ .unexpected)
    exact .after fun _ => .after fun _ => .pure nofun
  have hin : ∀ span negated, Never Expr.IsSubquery (g.inPredicate span left negated) := by
    intro span negated
    refine .branch (.after fun r => ?_) (never_fromList span left negated)
    cases r with
    | ok q => exact .pure nofun
    | error e => exact never_fromList span left negated
  refine .after fun span => .branch his (.after fun negated => .branch ?_ (.branch ?_ ?_))
  · exact .after fun _ => .after fun _ => .after fun _ => .pure nofun
  · exact .after fun _ => .after fun _ => .after fun _ => .pure nofun
  · exact .branch (hin span negated) .unexpected

theorem predicateAhead_stays : Stays predicateAhead := by
  refine Stays.bind (.of_reads fun _ => rfl) ?_
  intro k
  split
  case h_5 =>
    refine Stays.bind (.of_reads fun _ => rfl) ?_
    intro k
    split <;> exact .pure _
  all_goals exact .pure _

/-- What is applied to an expression gives no subquery, and nothing is read where nothing is
applied. -/
theorem extend_eq_ok {left : Operand} {r : Option Operand}
    (h : g.extend floor left c = .ok (r, d)) :
    r = none ∧ c = d ∨ ∃ o, r = some o ∧ ¬ o.expr.IsSubquery := by
  obtain ⟨k, c₁, hk, hrest⟩ := bind_eq_ok h
  cases hk
  split at hrest
  · obtain ⟨_, _, -, hrest⟩ := bind_eq_ok hrest
    obtain ⟨_, _, -, hrest⟩ := bind_eq_ok hrest
    obtain ⟨_, _, -, hrest⟩ := bind_eq_ok hrest
    cases hrest
    exact .inr ⟨_, rfl, nofun⟩
  split at hrest
  · obtain ⟨_, _, -, hrest⟩ := bind_eq_ok hrest
    obtain ⟨_, _, -, hrest⟩ := bind_eq_ok hrest
    cases hrest
    exact .inr ⟨_, rfl, nofun⟩
  cases hop : c.kind.binaryOp? with
  | some op =>
    rw [hop] at hrest
    dsimp only at hrest
    have hright : ∀ {c₁ : Cursor}, (do
        Parser.advance
        let right ← g.exprFrom (op.tier.rank + 1)
        return some ⟨.binary left.expr op right, left.compared || op.associativity = .none⟩ :
          Parser (Option Operand)) c₁ = .ok (r, d) → ∃ o, r = some o ∧ ¬ o.expr.IsSubquery := by
      intro c₁ hright
      obtain ⟨_, _, -, hright⟩ := bind_eq_ok hright
      obtain ⟨_, _, -, hright⟩ := bind_eq_ok hright
      cases hright
      exact ⟨_, rfl, nofun⟩
    split at hrest
    · cases hrest
      exact .inl ⟨rfl, rfl⟩
    split at hrest
    · obtain ⟨_, _, -, hrest⟩ := bind_eq_ok hrest
      exact .inr (hright hrest)
    · exact .inr (hright hrest)
  | none =>
    rw [hop] at hrest
    obtain ⟨ahead, c₁, hahead, hrest⟩ := bind_eq_ok hrest
    rw [predicateAhead_stays _ _ _ hahead] at hrest
    split at hrest
    · split at hrest
      · cases hrest
        exact .inl ⟨rfl, rfl⟩
      obtain ⟨_, c₂, -, hrest⟩ := bind_eq_ok hrest
      obtain ⟨e, _, he, hrest⟩ := bind_eq_ok hrest
      cases hrest
      exact .inr ⟨_, rfl, never_predicate left.expr c₂ e _ he⟩
    · cases hrest
      exact .inl ⟨rfl, rfl⟩

/-- A subquery is what an expression starts with, and all of it. -/
theorem signed_of_expression (h : g.expression floor c = .ok (.subquery q, d)) :
    g.signed floor c = .ok (.subquery q, d) := by
  obtain ⟨first, c₁, hfirst, h⟩ := bind_eq_ok h
  obtain ⟨o, c₂, ho, h⟩ := bind_eq_ok h
  obtain ⟨hexpr, rfl⟩ := Prod.mk.inj (Except.ok.inj h)
  have hstep : ∀ (_ : Nat) (left : Operand) (c' : Cursor) (right : Operand) (c'' : Cursor),
      (left.expr.IsSubquery → left.expr = first ∧ c' = c₁) →
      g.extend floor left c' = .ok (some right, c'') →
      (right.expr.IsSubquery → right.expr = first ∧ c'' = c₁) := by
    intro _ left c' right c'' _ hright hsubquery
    obtain ⟨⟨⟩, -⟩ | ⟨o, ⟨⟩, hnot⟩ := extend_eq_ok hright
    exact absurd hsubquery hnot
  obtain ⟨c₃, c₄, hget, ho⟩ := bind_eq_ok ho
  cases hget
  have hsubquery : o.expr.IsSubquery := ⟨q, hexpr⟩
  obtain ⟨hsame, rfl⟩ : o.expr = first ∧ c₂ = c₁ := by
    obtain hend | ⟨n, c', hloop, hnone⟩ := iterateFor_eq_ok (I := fun _ left c' =>
      left.expr.IsSubquery → left.expr = first ∧ c' = c₁) hstep ho fun _ => ⟨rfl, rfl⟩
    · exact hend hsubquery
    · obtain ⟨-, rfl⟩ | ⟨o, ⟨⟩, -⟩ := extend_eq_ok hnone
      exact hloop hsubquery
  rw [hfirst, ← hsame, hexpr]

theorem primary_of_signed (h : g.signed floor c = .ok (.subquery q, d)) :
    g.primary floor c = .ok (.subquery q, d) := by
  obtain ⟨k, c₁, hk, h⟩ := bind_eq_ok h
  cases hk
  cases hop : c.kind.unaryOp? with
  | some op =>
    have hunary : Never Expr.IsSubquery (do
        Parser.advance
        return .unary op (← g.exprFrom op.tier.rank)) := .after fun _ => .after fun _ => .pure nofun
    rw [hop] at h
    exact absurd ⟨q, rfl⟩ (hunary _ _ _ h)
  | none =>
    rw [hop] at h
    exact h

/-- A subquery starts with a parenthesis. -/
theorem parenthesized_of_primary (h : g.primary floor c = .ok (.subquery q, d)) :
    c.kind = .symbol .leftParen ∧ g.parenthesized floor c = .ok (.subquery q, d) := by
  have hnever : ∀ {p : Parser Expr}, Never Expr.IsSubquery p → p c ≠ .ok (.subquery q, d) :=
    fun hp hok => hp _ _ _ hok ⟨q, rfl⟩
  have htaking : ∀ {e : Expr}, ¬ e.IsSubquery → taking e c ≠ .ok (.subquery q, d) :=
    fun he => hnever (.after fun _ => .pure he)
  have hplaceholder : Never Expr.IsSubquery placeholder :=
    .after fun _ => .after fun _ => .after fun _ => .pure nofun
  have hexists : Never Expr.IsSubquery (do
      Parser.advance
      return .existsQuery (← g.parenQuery)) := .after fun _ => .after fun _ => .pure nofun
  obtain ⟨k, c₁, hk, h⟩ := bind_eq_ok h
  cases hk
  cases hkind : c.kind with
  | integer | decimal | double | string | binary =>
    rw [hkind] at h
    exact absurd h (htaking nofun)
  | symbol s =>
    rw [hkind] at h
    cases s with
    | leftParen => exact ⟨rfl, h⟩
    | question => exact absurd h (hnever hplaceholder)
    | star => exact absurd h (htaking nofun)
    | _ => exact absurd h (hnever .unexpected)
  | keyword w =>
    rw [hkind] at h
    cases w with
    | NULL | TRUE | FALSE => exact absurd h (htaking nofun)
    | CASE => exact absurd h (hnever (g.never_caseWhen nofun))
    | CAST => exact absurd h (hnever (g.never_cast nofun false))
    | EXISTS => exact absurd h (hnever hexists)
    | _ => exact absurd h (hnever .unexpected)
  | ident x =>
    rw [hkind] at h
    exact absurd h (hnever (never_fromIdent x))
  | _ =>
    rw [hkind] at h
    exact absurd h (hnever .unexpected)

/-! ### Queries in parentheses -/

/-- What is read in parentheses is the whole query, if a parenthesis closes behind it. -/
theorem fullQuery_of_parenQuery (h : g.parenQuery c = .ok (q, d))
    (hd : d.kind = .symbol .rightParen) : g.fullQuery c = .ok (q, d) := by
  have hopen : c.kind = .symbol .leftParen := (parens_eq_ok_iff.1 h).1
  have hmark : ∀ {c : Cursor} {s : Symbol} (w : Keyword), c.kind = .symbol s →
      eatKeyword w c = .ok (false, c) := by
    intro c s w hk
    refine eat_of_ne ⟨rfl, rfl⟩ ?_
    rw [← c.kind_eq, hk]
    nofun
  have hprimary : g.primaryQuery c = .ok (q, d) := by
    have hpeek : peek c = .ok (.symbol .leftParen, c) := by rw [← hopen]; rfl
    rw [primaryQuery, bind_ok hpeek]
    exact h
  have hintersect : g.intersectNext q d = .ok (none, d) := by
    rw [intersectNext, bind_ok (hmark .INTERSECT hd)]
    rfl
  have hterm : g.queryTerm c = .ok (q, d) := by
    rw [queryTerm, bind_ok hprimary, iterate_apply, iterateFor_none hintersect]
  have hunion : g.unionNext q d = .ok (none, d) := by
    rw [unionNext, bind_ok (hmark .UNION hd)]
    exact (bind_ok (hmark .EXCEPT hd)).trans rfl
  have hset : g.setExpression c = .ok (q, d) := by
    rw [setExpression, bind_ok hterm, iterate_apply, iterateFor_none hunion]
  have horder : g.optionalOrder d = .ok ([], d) := by
    rw [optionalOrder, bind_ok (hmark .ORDER hd)]
    rfl
  rw [fullQuery, bind_ok (hmark .WITH hopen), optional_false, bind_ok pure_apply, bind_ok hset,
    bind_ok horder, bind_ok (hmark .OFFSET hd), optional_false, bind_ok pure_apply,
    bind_ok (hmark .LIMIT hd), optional_false, bind_ok pure_apply]
  rfl

theorem startsQuery_of_advance (hc : c.kind = .symbol .leftParen)
    (h : startsQuery c.advance.ahead = true) : startsQuery c.ahead = true := by
  unfold Cursor.kind Cursor.token at hc
  cases hahead : c.ahead with
  | nil =>
    rw [hahead] at hc
    cases hc
  | cons t ts =>
    rw [Cursor.advance, hahead] at h
    rw [hahead] at hc
    obtain ⟨kind, span⟩ := t
    obtain rfl : kind = .symbol .leftParen := hc
    exact h

/-- Every subquery that is read as an expression opens where a query is ahead, and is read as a
query if a parenthesis closes behind it. -/
def ReadsSubqueries (g : Grammar) : Prop := ∀ floor c q d,
  g.exprFrom floor c = .ok (.subquery q, d) → c.kind = .symbol .leftParen ∧
    startsQuery c.ahead = true ∧ (d.kind = .symbol .rightParen → g.query c = .ok (q, d))

namespace ReadsSubqueries

/-- More parentheses around a subquery are parentheses of the query. -/
theorem parenQuery (hg : g.ReadsSubqueries) {d₁ : Cursor} (hc : c.kind = .symbol .leftParen)
    (h : g.expr c.advance = .ok (.subquery q, d₁)) (hd₁ : d₁.kind = .symbol .rightParen) :
    queryAhead c = .ok (true, c) ∧ g.parenQuery c = .ok (q, d₁.advance) := by
  obtain ⟨-, hstarts, hread⟩ := hg _ _ _ _ h
  refine ⟨?_, parens_eq_ok_iff.2 ⟨hc, d₁, hread hd₁, hd₁, rfl⟩⟩
  change Except.ok (c.kind == .symbol .leftParen && startsQuery c.ahead, c) = _
  rw [hc, startsQuery_of_advance hc hstarts]
  rfl

/-- A subquery that stands alone in parentheses is read as a query. -/
theorem parenExprs (hg : g.ReadsSubqueries) (h : g.parenExprs c = .ok ([.subquery q], d)) :
    queryAhead c = .ok (true, c) ∧ g.parenQuery c = .ok (q, d) := by
  obtain ⟨_, c₁, hopen, h⟩ := bind_eq_ok h
  obtain ⟨hc, rfl⟩ := expectSymbol_eq_ok_iff.1 hopen
  obtain ⟨b, c₂, hb, h⟩ := bind_eq_ok h
  obtain ⟨rfl, -, rfl⟩ | ⟨rfl, rfl⟩ := eat_eq_ok hb
  · cases h
  obtain ⟨items, d₁, hitems, h⟩ := bind_eq_ok h
  obtain ⟨_, d₂, hclose, h⟩ := bind_eq_ok h
  obtain ⟨hd₁, rfl⟩ := expectSymbol_eq_ok_iff.1 hclose
  cases h
  obtain ⟨first, c₃, hfirst, hitems⟩ := bind_eq_ok hitems
  obtain ⟨_, c₄, hget, hitems⟩ := bind_eq_ok hitems
  cases hget
  obtain ⟨rest, c₅, hrest, hitems⟩ := bind_eq_ok hitems
  cases hitems
  obtain rfl := moreItems_eq_ok_nil hrest
  exact hg.parenQuery hc hfirst hd₁

theorem grouped (hg : g.ReadsSubqueries) (h : g.grouped c = .ok (.subquery q, d)) :
    queryAhead c = .ok (true, c) ∧ g.parenQuery c = .ok (q, d) := by
  obtain ⟨hc, d₁, hinner, hd₁, rfl⟩ := parens_eq_ok_iff.1 h
  obtain ⟨first, c₁, hfirst, hrest⟩ := bind_eq_ok hinner
  obtain ⟨b, c₂, hb, hrest⟩ := bind_eq_ok hrest
  obtain ⟨rfl, -, rfl⟩ | ⟨rfl, rfl⟩ := eat_eq_ok hb
  · obtain ⟨_, _, -, hrest⟩ := bind_eq_ok hrest
    cases hrest
  · cases hrest
    exact hg.parenQuery hc hfirst hd₁

theorem parenthesized (hg : g.ReadsSubqueries)
    (h : g.parenthesized floor c = .ok (.subquery q, d)) :
    queryAhead c = .ok (true, c) ∧ g.parenQuery c = .ok (q, d) := by
  obtain ⟨lambda, c₁, hlambda, h⟩ := bind_eq_ok h
  cases hlambda
  split at h
  · have hlambda : Never Expr.IsSubquery (do g.lambdaBody (← identList)) :=
      .after fun params => g.never_lambdaBody nofun params
    exact absurd ⟨q, rfl⟩ (hlambda _ _ _ h)
  obtain ⟨ahead, c₁, hahead, h⟩ := bind_eq_ok h
  have hc₁ : c₁ = c := by cases hahead; rfl
  subst hc₁
  cases ahead with
  | false => exact hg.grouped h
  | true =>
    refine ⟨hahead, ?_⟩
    obtain ⟨r, c₂, hr, h⟩ := bind_eq_ok h
    obtain ⟨q', rfl, hq'⟩ | ⟨e, rfl, he, rfl⟩ := attempt_eq_ok hr
    · cases h
      exact hq'
    · exact (hg.grouped (orFailWith_eq_ok h)).2

theorem deepen (hg : g.ReadsSubqueries) : g.deepen.ReadsSubqueries := by
  intro floor c q d h
  obtain ⟨hc, h⟩ := parenthesized_of_primary (primary_of_signed (signed_of_expression h))
  obtain ⟨hahead, hread⟩ := hg.parenthesized h
  have hcond := congrArg Prod.fst (Except.ok.inj hahead)
  rw [Bool.and_eq_true] at hcond
  exact ⟨hc, hcond.2, fullQuery_of_parenQuery hread⟩

end ReadsSubqueries

theorem readsSubqueries_ofDepth (depth : Nat) : (ofDepth depth).ReadsSubqueries := by
  induction depth with
  | zero => nofun
  | succ depth ih => exact ih.deepen

end Grammar

end Sql
