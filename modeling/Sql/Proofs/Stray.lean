import Sql.Proofs.Operands

/-! What starts like a query in parentheses and is none. -/
namespace Sql

open Sql.Parser
open Token (Kind)
open Token.Kind (next parensIf given commas)

namespace Token.Kind

/-- Can the token stand between a relation and what is applied to it? -/
def joinsRelation : Kind → Bool
  | .keyword w =>
    [Keyword.AS, .TABLESAMPLE, .CROSS, .NATURAL, .INNER, .LEFT, .RIGHT, .FULL].contains w
  | _ => false

/-- Would the token extend a query in front of it? -/
def extendsQuery : Kind → Bool
  | .keyword w => [Keyword.INTERSECT, .UNION, .EXCEPT, .ORDER, .OFFSET, .LIMIT].contains w
  | _ => false

theorem ne_of_extendsQuery {k : Kind} {w : Keyword} (h : k.extendsQuery = false)
    (hw : w ∈ [Keyword.INTERSECT, .UNION, .EXCEPT, .ORDER, .OFFSET, .LIMIT]) : k ≠ .keyword w := by
  rintro rfl
  rw [extendsQuery, List.contains_iff_mem.2 hw] at h
  cases h

theorem extendsQuery_of_joins {k : Kind} (h : k.joins = true) : k.extendsQuery = false := by
  cases k with
  | keyword w => cases w <;> first | rfl | cases h
  | _ => rfl

theorem extendsQuery_of_joinsRelation {k : Kind} (h : k.joinsRelation = true) :
    k.extendsQuery = false := by
  cases k with
  | keyword w => cases w <;> first | rfl | cases h
  | _ => rfl

theorem opensQuery_of_opens {k : Kind} (h : k.opens = true) (hk : k ≠ .symbol .leftParen) :
    k.opensQuery = false := by
  cases k with
  | symbol s => cases s <;> first | rfl | exact absurd rfl hk
  | keyword w => cases w <;> first | rfl | cases h
  | _ => rfl

end Token.Kind

namespace Grammar

variable {g : Grammar} {n m : Nat} {c : Cursor} {rest ts : List Kind} {k : Kind}

theorem fullQuery_eq (hc : c.At ts m) (hw : next ts ≠ .keyword .WITH) :
    g.fullQuery c = (do
      let q ← g.setExpression
      let order ← g.optionalOrder
      let offset ← Parser.optional (← eatKeyword .OFFSET) Grammar.offset
      let limit ← Parser.optional (← eatKeyword .LIMIT) Grammar.limit
      return q.surround none order offset limit : Parser Query) c := by
  unfold fullQuery
  rw [eatKeyword, bind_ok (eat_of_ne hc hw)]
  rfl

theorem fullQuery_error {e : ParseError} (hc : c.At ts m) (hw : next ts ≠ .keyword .WITH)
    (he : g.primaryQuery c = .error e) : g.fullQuery c = .error e := by
  rw [fullQuery_eq hc hw]
  exact bind_error (bind_error (bind_error he))

theorem primaryQuery_paren (hc : c.At (.symbol .leftParen :: ts) m) :
    g.primaryQuery c = g.parenQuery c := by
  unfold primaryQuery
  rw [bind_ok (peek_apply hc)]
  rfl

/-- No query starts with the token. -/
theorem fullQuery_noQuery (hc : c.At ts m) (hk : (next ts).opensQuery = false) :
    ∃ e, g.fullQuery c = .error e := by
  have hw : next ts ≠ .keyword .WITH := fun h => by simp [h, Kind.opensQuery] at hk
  obtain ⟨e, he⟩ : ∃ e, g.primaryQuery c = .error e := by
    unfold primaryQuery
    rw [bind_ok (peek_apply hc)]
    revert hk
    generalize next ts = k
    intro hk
    cases k with
    | symbol s => cases s <;> first | exact ⟨_, rfl⟩ | cases hk
    | keyword w => cases w <;> first | exact ⟨_, rfl⟩ | cases hk
    | _ => exact ⟨_, rfl⟩
  exact ⟨e, fullQuery_error hc hw he⟩

/-- A query in parentheses that nothing extends is read as it is. -/
theorem fullQuery_of_paren {q : Query} {c' : Cursor} {i : Nat}
    (hc : c.At (.symbol .leftParen :: ts) m) (hq : g.parenQuery c = .ok (q, c'))
    (hc' : c'.At (k :: rest) i) (hk : k.extendsQuery = false) : g.fullQuery c = .ok (q, c') := by
  have hne : ∀ w ∈ [Keyword.INTERSECT, .UNION, .EXCEPT, .ORDER, .OFFSET, .LIMIT],
      next (k :: rest) ≠ .keyword w := fun w hw => Kind.ne_of_extendsQuery hk hw
  have hterm : g.queryTerm c = .ok (q, c') := by
    unfold queryTerm
    rw [bind_ok ((primaryQuery_paren hc).trans hq)]
    refine Loops.refl.iterate_ok ?_
    rw [intersectNext, eatKeyword, bind_ok (eat_of_ne hc' (hne _ (by simp)))]
    rfl
  have hset : g.setExpression c = .ok (q, c') := by
    unfold setExpression
    rw [bind_ok hterm]
    refine Loops.refl.iterate_ok ?_
    rw [unionNext, eatKeyword, bind_ok (eat_of_ne hc' (hne _ (by simp)))]
    simp only [Bool.false_eq_true, if_false]
    rw [eatKeyword, bind_ok (eat_of_ne hc' (hne _ (by simp)))]
    rfl
  have horder : g.optionalOrder c' = .ok ([], c') := by
    rw [optionalOrder, eatKeyword, bind_ok (eat_of_ne hc' (hne _ (by simp)))]
    rfl
  rw [fullQuery_eq hc (by simp), bind_ok hset, bind_ok horder, eatKeyword,
    bind_ok (eat_of_ne hc' (hne _ (by simp))), optional_false, bind_ok pure_apply, eatKeyword,
    bind_ok (eat_of_ne hc' (hne _ (by simp)))]
  rfl

/-- A query in parentheses, read by the grammar one level up. -/
def strayQuery (g : Grammar) : Parser Unit := do
  let _ ← g.fullQuery
  expectSymbol .rightParen

theorem strayQuery_error {e : ParseError} (h : g.fullQuery c = .error e) :
    g.strayQuery c = .error e :=
  bind_error h

namespace Reads

/-- What starts with a query in parentheses and goes on is not a query. -/
theorem stray_of_query (h : g.Reads n) {q : Query} (hready : Ready m q.nodes) (hd : q.depth ≤ n)
    (hc : c.At (Kind.parens q.tokens ++ k :: rest) m) (hk : k.extendsQuery = false)
    (hp : k ≠ .symbol .rightParen) : ∃ e, g.strayQuery c = .error e := by
  obtain ⟨c', hq, hc'⟩ := (h.parenQuery hready hc).1 hd
  obtain ⟨e, he⟩ := expectSymbol_of_ne (s := .rightParen) hc' hp
  refine ⟨e, ?_⟩
  unfold strayQuery
  rw [bind_ok (fullQuery_of_paren hc hq hc' hk)]
  exact he

theorem stray_of_paren (hc : c.At (.symbol .leftParen :: ts) m)
    (h : ∃ e, (do let _ ← g.query; expectSymbol .rightParen) c.advance = .error e) :
    ∃ e, g.strayQuery c = .error e := by
  obtain ⟨e, he⟩ : ∃ e, g.parenQuery c = .error e := parens_error hc h
  exact ⟨e, strayQuery_error (fullQuery_error hc (by simp) ((primaryQuery_paren hc).trans he))⟩

theorem stray_of_opens (hc : c.At ts m) (hk : (next ts).opensQuery = false) :
    ∃ e, g.strayQuery c = .error e := by
  obtain ⟨e, he⟩ := fullQuery_noQuery (g := g) hc hk
  exact ⟨e, strayQuery_error he⟩

theorem stray_of_bind {α : Type} {p : Parser α} (h : ∃ e, g.query c = .error e) :
    ∃ e, (do let _ ← g.query; p) c = .error e := by
  obtain ⟨e, he⟩ := h
  exact ⟨e, bind_error he⟩

theorem strayExprNext (h : g.Reads n) (e : Expr) : ∀ (c : Cursor) (m : Nat) (k : Kind)
    (rest : List Kind), Ready m e.nodes → e.depth ≤ n + 1 → c.At (e.tokens ++ k :: rest) m →
    k.joins = true ∨ k = .symbol .comma ∨ (k = .symbol .rightParen ∧ ∀ q, e ≠ .subquery q) →
    ∃ e, g.strayQuery c = .error e := by
  induction e using Expr.left_induction with
  | head e he =>
    intro c m k rest hready hd hc hk
    obtain ⟨k₁, ts, ht, hopens, -⟩ := e.tokens_cons
    by_cases hparen : k₁ = .symbol .leftParen
    · subst hparen
      obtain ⟨q, rfl⟩ | ⟨x, y, es, rfl⟩ | ⟨ps, body, rfl, hps⟩ := Expr.cases_of_paren he ht
      · simp only [Expr.nodes, Expr.tokens, Expr.depth] at hready hc hd
        refine h.stray_of_query ((ready_cons rfl).1 hready).2 (by omega) hc ?_ ?_
        · rcases hk with hk | rfl | ⟨rfl, -⟩
          · exact Kind.extendsQuery_of_joins hk
          · rfl
          · rfl
        · rcases hk with hk | rfl | ⟨-, hne⟩
          · exact Kind.ne_of_joins hk rfl
          · simp
          · exact absurd rfl (hne q)
      · simp only [Expr.nodes, Expr.depth, Expr.nodesAll, Expr.depthAll] at hready hd
        have hts : (Expr.row (x :: y :: es)).tokens ++ k :: rest = .symbol .leftParen ::
            (x.tokens ++ .symbol .comma :: (commas (Expr.tokenLists (y :: es)) ++
              .symbol .rightParen :: k :: rest)) := by
          simp [Expr.tokens, given, Expr.tokenLists, Kind.parens, Kind.commas_cons]
        rw [hts] at hc
        have hx := (ready_append.1 ((ready_cons rfl).1 hready).2).1
        exact stray_of_paren hc
          (h.strayExpr x _ m _ _ hx (by omega) hc.advance (.inr (.inl rfl)))
      · rw [ht] at hc
        refine stray_of_paren hc (stray_of_bind (h.noQuery _ m _ hc.advance ?_))
        rw [Expr.tokens] at ht
        rcases ps with - | ⟨x, - | ⟨y, ps⟩⟩
        · cases ht
          rfl
        · simp at hps
        · cases ht
          rfl
    · rw [ht] at hc
      exact stray_of_opens hc (Kind.opensQuery_of_opens hopens hparen)
  | left e b l he ih =>
    intro c m k rest hready hd hc hk
    obtain ⟨k', ts', ht, hk'⟩ := Expr.tokens_left he
    obtain ⟨ns, hns⟩ := Expr.nodes_left he
    have hdl := Expr.depth_left he
    have hmark : (Node.expr e).isMark = false := by
      cases e <;> first | rfl | simp [Expr.leftOperand?] at he
    rw [hns] at hready
    have hl := (ready_append.1 ((ready_cons hmark).1 hready).2).1
    rw [ht, List.append_assoc, List.cons_append] at hc
    cases b with
    | false => exact ih c m k' _ hl (Nat.le_trans hdl hd) hc (.inl hk')
    | true =>
      simp only [parensIf, Kind.parens, if_true, List.cons_append, List.append_assoc] at hc
      have hdl : l.depth + 1 ≤ e.depth := hdl
      exact stray_of_paren hc (h.strayExpr l _ m _ _ hl (by omega) hc.advance
        (.inr (.inr ⟨rfl, Expr.left_ne_subquery he⟩)))

end Reads

end Grammar

end Sql
