import Sql.Proofs.Expressions
import Sql.Proofs.Relations
import Sql.Proofs.Selects

/-! Reading queries. -/
namespace Sql

open Sql.Parser
open Token (Kind)
open Token.Kind (next parensIf given commas)

theorem Token.Kind.opensQuery_of_startsQuery {ts : List Kind} (h : Kind.startsQuery ts = true) :
    (next ts).opensQuery = true := by
  cases ts with
  | nil => cases h
  | cons k ts =>
    cases k with
    | symbol s => cases s <;> first | rfl | cases h
    | keyword w => cases w <;> first | rfl | cases h
    | _ => cases h

theorem Token.Kind.ne_of_opensQuery {k k' : Kind} (h : k.opensQuery = true)
    (h' : k'.opensQuery = false) : k ≠ k' := by
  rintro rfl
  simp [h] at h'

theorem SetOperator.rank_eq_one (op : SetOperator) (h : ¬ 2 ≤ op.rank) : op.rank = 1 := by
  cases op with
  | intersect => exact absurd (Nat.le_refl 2) h
  | _ => rfl

theorem SetOperator.clause_token (op : SetOperator) (h : op.rank = 1) : op.token.clause = 7 := by
  cases op with
  | intersect => cases h
  | _ => rfl

namespace Query

variable {q : Query} {op : SetOperator}

/-- How tightly the body of a query binds: that of a set operation as its operator, any other body
more tightly. -/
def rank (q : Query) : Nat :=
  match q.body with
  | .setOperation o => o.operator.rank
  | _ => 3

theorem needsParens_left : SetOperation.needsParens op .left q =
    (q.isModified || decide (q.rank < op.rank)) := by
  unfold SetOperation.needsParens rank
  cases q.body <;> cases op <;> rfl

theorem needsParens_right : SetOperation.needsParens op .right q =
    (q.isModified || decide (q.rank ≤ op.rank)) := by
  unfold SetOperation.needsParens rank
  cases q.body <;> cases op <;> rfl

theorem eq_ofBody (h : q.isModified = false) : q = .ofBody q.body := by
  obtain ⟨bindings, body, order, offset, limit⟩ := q
  simp only [isModified, Bool.or_eq_false_iff, Option.isSome_eq_false_iff,
    Option.isNone_iff_eq_none, Bool.not_eq_false', List.isEmpty_iff] at h
  obtain ⟨⟨⟨rfl, rfl⟩, rfl⟩, rfl⟩ := h
  rfl

theorem tokens_ofBody (body : Body) : (ofBody body).tokens = body.tokens := by
  simp [ofBody, tokens, With.tokens?, offsetTokens, Limit.tokens?]

theorem nodes_ofBody (body : Body) : (ofBody body).nodes = .query (ofBody body) :: body.nodes := by
  simp [ofBody, nodes, With.nodes?, OrderTerm.nodesAll]

theorem depth_ofBody (body : Body) : (ofBody body).depth = max body.depth 1 := by
  simp [ofBody, depth, With.depth?, OrderTerm.depthAll]

theorem opensQuery_tokens (b : Bool) (q : Query) (rest : List Kind) :
    (next (parensIf b q.tokens ++ rest)).opensQuery = true := by
  cases b with
  | true => rfl
  | false => exact Kind.opensQuery_of_startsQuery (q.startsQuery_tokens rest)

end Query

/-- The query that is read in the place of a body. -/
def Body.core : Body → Query
  | .nested inner => inner
  | body => .ofBody body

/-- Putting the clauses of a query around its core gives the query. -/
theorem Query.surround_core {q : Query} (h : q.Sound) :
    q.body.core.surround q.bindings q.order q.offset q.limit = q := by
  obtain ⟨bindings, body, order, offset, limit⟩ := q
  have hcond : (bindings.isNone && order.isEmpty && offset.isNone && limit.isNone) =
      !Query.isModified ⟨bindings, body, order, offset, limit⟩ := by
    cases bindings <;> cases order <;> cases offset <;> cases limit <;> rfl
  unfold Query.surround
  simp only [hcond]
  cases hm : Query.isModified ⟨bindings, body, order, offset, limit⟩ with
  | false =>
    simp only [Bool.not_false, if_true]
    have hnested : ∀ inner, body ≠ .nested inner := by
      rintro inner rfl
      have := (h.nested inner rfl).2
      simp [hm] at this
    have hcore : body.core = .ofBody body := by
      cases body <;> first | rfl | exact absurd rfl (hnested _)
    exact hcore.trans (Query.eq_ofBody hm).symm
  | true =>
    simp only [Bool.not_true, Bool.false_eq_true, if_false]
    cases body with
    | nested inner =>
      have hi := (h.nested inner rfl).1
      simp only [Body.core, hi, if_true]
    | _ => rfl

theorem Body.nested_ne {q : Query} {m : Nat} (hready : Ready m q.nodes)
    (h : q.isModified = false) (inner : Query) : q.body ≠ .nested inner := by
  intro hb
  have hs : q.Sound := (hready.good (.query q) q.mem_nodes).sound
  have := (hs.nested inner hb).2
  simp [h] at this

namespace Grammar.Reads

variable {g : Grammar} {n m : Nat} {c : Cursor} {rest ts : List Kind} {q : Query} {b : Bool}

theorem values (h : g.Reads n) {rows : List Expr} (hready : Ready m (Body.values rows).nodes)
    (hc : c.At ((Body.values rows).tokens ++ rest) m) (hr : 6 ≤ (next rest).clause) :
    Gives ((Body.values rows).depth ≤ n + 1) (Plain (Body.values rows).nodes) g.values c
      (.values rows) rest (m + marks (Body.values rows).nodes) := by
  simp only [Body.tokens, Body.nodes, Body.depth, List.cons_append] at hc hready ⊢
  obtain ⟨hgood, hrows⟩ := (ready_cons rfl).1 hready
  have hne : rows ≠ [] := hgood.sound
  have hend := Kind.endsClause_of_le (by decide) hr
  unfold Grammar.values
  refine .step here_apply (.step (expectKeyword_of_eq hc) ?_)
  have hes := h.exprs hne hrows hc.advance (Kind.ends_of_endsClause hend)
    (Kind.ne_of_endsClause hend rfl)
  refine (hes.imp (by omega) fun hp => (plain_cons.1 hp).2).last
    fun c₁ hc₁ => ⟨c₁, ?_, by simpa [Node.isMark] using hc₁⟩
  simp only [Body.buildValues, List.isEmpty_eq_false_iff.2 hne, Bool.false_eq_true, if_false]
  rfl

theorem primaryBody (h : g.Reads n) {body : Body} (hset : ∀ o, body ≠ .setOperation o)
    (hnested : ∀ inner, body ≠ .nested inner) (hready : Ready m body.nodes)
    (hc : c.At (body.tokens ++ rest) m) (hr : 6 ≤ (next rest).clause) :
    Gives (body.depth ≤ n + 1) (Plain body.nodes) g.primaryQuery c (.ofBody body) rest
      (m + marks body.nodes) := by
  cases body with
  | select s =>
    simp only [Body.tokens, Body.nodes, Body.depth] at hc hready ⊢
    obtain ⟨ts, ht⟩ : ∃ ts, s.tokens = .keyword .SELECT :: ts := by
      obtain ⟨quantifier, items, sources, filter, group, having, windows⟩ := s
      exact ⟨_, by rw [Select.tokens]⟩
    have hs := h.select ((ready_cons rfl).1 hready).2 hc hr
    rw [ht] at hc
    unfold primaryQuery
    refine .step (peek_apply hc) ?_
    refine (hs.imp (by omega) fun hp => (plain_cons.1 hp).2).last fun c₁ hc₁ => ⟨c₁, rfl, ?_⟩
    simpa [Node.isMark] using hc₁
  | table x =>
    simp only [Body.tokens, Body.nodes, Body.depth, List.cons_append] at hc hready ⊢
    have hx : x.Delimited := ((ready_cons rfl).1 hready).1.settled
    rw [Name.tokens_eq hx] at hc
    obtain ⟨c₁, h₁, hc₁⟩ := name_apply hc.advance
      (nameEnds_of_ne (Kind.ne_of_endsClause (Kind.endsClause_of_le (by decide) hr) rfl))
    refine .ok (by omega) ?_ (by simpa [Node.isMark] using hc₁)
    unfold primaryQuery
    rw [bind_ok (peek_apply hc)]
    change (do
      advance
      return .ofBody (.table (← name)) : Parser Query) c = _
    rw [bind_ok advance_apply, bind_ok h₁]
    rfl
  | values rows =>
    have hv := h.values hready hc hr
    simp only [Body.tokens, List.cons_append] at hc
    unfold primaryQuery
    refine .step (peek_apply hc) ?_
    exact hv.last fun c₁ hc₁ => ⟨c₁, rfl, hc₁⟩
  | setOperation o => exact absurd rfl (hset o)
  | nested inner => exact absurd rfl (hnested inner)

/-- A query that is neither modified nor a set operation, or any query in parentheses. -/
theorem primaryQuery (h : g.Reads n) (hb : b = false → q.isModified = false ∧ 3 ≤ q.rank)
    (hready : Ready m q.nodes) (hc : c.At (parensIf b q.tokens ++ rest) m)
    (hr : 6 ≤ (next rest).clause) :
    Gives (parensDepth b q.depth ≤ n + 1) (Plain q.nodes) g.primaryQuery c q rest
      (m + marks q.nodes) := by
  cases b with
  | true =>
    have hq := h.parenQuery hready hc
    refine (hq.of_eq (primaryQuery_paren hc)).congr ?_
    simp [parensDepth]
  | false =>
    obtain ⟨hm, hrank⟩ := hb rfl
    have hnested := Body.nested_ne hready hm
    have hset : ∀ o, q.body ≠ .setOperation o := by
      intro o ho
      rw [Query.rank, ho] at hrank
      revert hrank
      simp only
      cases o.operator <;> decide
    rw [Query.eq_ofBody hm, Query.nodes_ofBody] at hready ⊢
    rw [Query.eq_ofBody hm] at hc
    rw [Query.depth_ofBody]
    replace hc : c.At (q.body.tokens ++ rest) m := by rwa [parensIf, if_neg (by simp),
      Query.tokens_ofBody] at hc
    have hbody := h.primaryBody hset hnested ((ready_cons rfl).1 hready).2 hc hr
    refine ((hbody.imp ?_ fun hp => (plain_cons.1 hp).2).marks ?_)
    · simp only [parensDepth, Bool.false_eq_true, if_false, Nat.max_le]
      omega
    · simp [Node.isMark]

/-! ### Set operations -/

theorem setOperand {F P : Prop} {k : Nat} {op : SetOperator} {all : Bool} {left right : Query}
    {side : Parser Query}
    (hc : c.At (given all (.keyword .ALL) ++ (parensIf b right.tokens ++ rest)) m)
    (hside : ∀ c', c'.At (parensIf b right.tokens ++ rest) m → Gives F P side c' right rest k) :
    Gives F P (Grammar.setOperand op left side) c (some (.ofSetOperation op all left right)) rest
      k := by
  have hopens := right.opensQuery_tokens b rest
  have hd : next (parensIf b right.tokens ++ rest) ≠ .keyword .DISTINCT :=
    Kind.ne_of_opensQuery hopens rfl
  have ha : next (parensIf b right.tokens ++ rest) ≠ .keyword .ALL :=
    Kind.ne_of_opensQuery hopens rfl
  unfold Grammar.setOperand
  cases all with
  | true =>
    obtain ⟨c₁, h₁, hc₁⟩ := quantifier_apply (q := some .all) hc hd ha
    refine .step h₁ ?_
    exact (hside c₁ hc₁).last fun c₂ hc₂ => ⟨c₂, rfl, hc₂⟩
  | false =>
    obtain ⟨c₁, h₁, hc₁⟩ := quantifier_apply (q := none) hc hd ha
    refine .step h₁ ?_
    exact (hside c₁ hc₁).last fun c₂ hc₂ => ⟨c₂, rfl, hc₂⟩

/-- What a set operation is made of. -/
theorem setOperation_parts {op : SetOperator} {all : Bool} {left right : Query}
    (hready : Ready m (Query.ofSetOperation op all left right).nodes) :
    Ready m left.nodes ∧ Ready (m + marks left.nodes) right.nodes ∧
      marks (Query.ofSetOperation op all left right).nodes = marks left.nodes + marks right.nodes ∧
      (Plain (Query.ofSetOperation op all left right).nodes →
        Plain left.nodes ∧ Plain right.nodes) := by
  simp only [Query.ofSetOperation, Query.nodes_ofBody, Body.nodes, SetOperation.nodes] at hready ⊢
  obtain ⟨hl, hr⟩ := ready_append.1 ((ready_cons rfl).1 ((ready_cons rfl).1 hready).2).2
  exact ⟨hl, hr, by simp [Node.isMark], by simp +contextual⟩

theorem ofSetOperation_tokens {op : SetOperator} {all : Bool} {left right : Query} :
    (Query.ofSetOperation op all left right).tokens =
      parensIf (SetOperation.needsParens op .left left) left.tokens ++ op.token ::
        (given all (.keyword .ALL) ++
          parensIf (SetOperation.needsParens op .right right) right.tokens) := by
  rw [Query.ofSetOperation, Query.tokens_ofBody, Body.tokens, SetOperation.tokens]

theorem ofSetOperation_depth {op : SetOperator} {all : Bool} {left right : Query} :
    (Query.ofSetOperation op all left right).depth =
      max (parensDepth (SetOperation.needsParens op .left left) left.depth)
        (parensDepth (SetOperation.needsParens op .right right) right.depth) := by
  rw [Query.ofSetOperation, Query.depth_setOperation, SetOperation.depth]

/-- A query without parentheses that is a set operation. -/
theorem exists_setOperation (hm : q.isModified = false) (hr : ¬ 3 ≤ q.rank) :
    ∃ op all left right, q = .ofSetOperation op all left right ∧ op.rank = q.rank := by
  have hq := Query.eq_ofBody hm
  unfold Query.rank at *
  split at hr
  · rename_i o ho
    rw [ho] at hq
    obtain ⟨op, all, left, right⟩ := o
    exact ⟨op, all, left, right, hq, rfl⟩
  · exact absurd (Nat.le_refl 3) hr

/-- A chain of intersections, read step by step. -/
theorem termSteps (h : g.Reads n) (hb : b = false → q.isModified = false ∧ 2 ≤ q.rank)
    (hready : Ready m q.nodes) (hc : c.At (parensIf b q.tokens ++ rest) m)
    (hr : 6 ≤ (next rest).clause) :
    Builds (parensDepth b q.depth ≤ n + 1) (Plain q.nodes) g.primaryQuery g.intersectNext c q rest
      (m + marks q.nodes) := by
  induction hs : q.tokens.length using Nat.strongRecOn generalizing q b c m rest with
  | _ size ih =>
    by_cases hp : b = false → q.isModified = false ∧ 3 ≤ q.rank
    · exact .of_gives (h.primaryQuery hp hready hc hr)
    · obtain rfl : b = false := by
        cases b with
        | true => exact absurd (fun hb => by cases hb) hp
        | false => rfl
      obtain ⟨hm, hrank⟩ := hb rfl
      obtain ⟨op, all, left, right, rfl, hop⟩ :=
        exists_setOperation hm fun hr => hp fun _ => ⟨hm, hr⟩
      obtain rfl : op = .intersect := by
        rw [← hop] at hrank
        cases op <;> first | rfl | simp [SetOperator.rank] at hrank
      obtain ⟨hl, hrr, hmarks, hplain⟩ := setOperation_parts hready
      rw [ofSetOperation_tokens] at hs
      simp only [parensIf, Bool.false_eq_true, if_false] at hc
      rw [ofSetOperation_tokens, List.append_assoc, List.cons_append, List.append_assoc] at hc
      have hleft := ih left.tokens.length
        (by
          rw [← hs]
          unfold parensIf
          split <;> simp [Kind.parens])
        (b := SetOperation.needsParens .intersect .left left)
        (fun hb => by
          rw [Query.needsParens_left, Bool.or_eq_false_iff] at hb
          exact ⟨hb.1, Nat.le_of_not_lt (of_decide_eq_false hb.2)⟩)
        hl hc (Nat.le_refl 6) rfl
      have hright : ∀ c₁ : Cursor, c₁.At (.keyword .INTERSECT :: (given all (.keyword .ALL) ++
          (parensIf (SetOperation.needsParens .intersect .right right) right.tokens ++ rest)))
          (m + marks left.nodes) →
          Gives (parensDepth (SetOperation.needsParens .intersect .right right) right.depth ≤ n + 1)
            (Plain right.nodes) (g.intersectNext left) c₁
            (some (.ofSetOperation .intersect all left right)) rest
            (m + marks left.nodes + marks right.nodes) := by
        intro c₁ hc₁
        unfold intersectNext
        refine .step (eat_of_eq hc₁) (setOperand hc₁.advance fun c₂ hc₂ => ?_)
        refine h.primaryQuery (fun hb => ?_) hrr hc₂ hr
        rw [Query.needsParens_right, Bool.or_eq_false_iff] at hb
        exact ⟨hb.1, Nat.lt_of_not_le (of_decide_eq_false hb.2)⟩
      have hsteps := hleft.extend (Q := Plain left.nodes ∧ Plain right.nodes) And.left
        (fun c₁ hc₁ => (hright c₁ hc₁).imp Iff.rfl And.right) (by simp; omega)
      refine (hsteps.imp ?_ hplain).marks (by rw [hmarks, Nat.add_assoc])
      rw [parensDepth, if_neg (by simp), ofSetOperation_depth, Nat.max_le]

theorem queryTerm (h : g.Reads n) (hb : b = false → q.isModified = false ∧ 2 ≤ q.rank)
    (hready : Ready m q.nodes) (hc : c.At (parensIf b q.tokens ++ rest) m)
    (hr : 7 ≤ (next rest).clause) :
    Gives (parensDepth b q.depth ≤ n + 1) (Plain q.nodes) g.queryTerm c q rest
      (m + marks q.nodes) := by
  refine (h.termSteps hb hready hc (by omega)).finish fun c₁ hc₁ => ?_
  rw [intersectNext, eatKeyword, bind_ok (eat_of_ne hc₁ (Kind.ne_of_clause hr (by decide)))]
  rfl

theorem unionNext (h : g.Reads n) {op : SetOperator} (hop : op.rank = 1) {all : Bool}
    {left right : Query} (hready : Ready m right.nodes)
    (hc : c.At (op.token :: (given all (.keyword .ALL) ++
      (parensIf (SetOperation.needsParens op .right right) right.tokens ++ rest))) m)
    (hr : 7 ≤ (next rest).clause) :
    Gives (parensDepth (SetOperation.needsParens op .right right) right.depth ≤ n + 1)
      (Plain right.nodes) (g.unionNext left) c (some (.ofSetOperation op all left right)) rest
      (m + marks right.nodes) := by
  have hside : ∀ c₂ : Cursor, c₂.At (parensIf (SetOperation.needsParens op .right right)
      right.tokens ++ rest) m →
      Gives (parensDepth (SetOperation.needsParens op .right right) right.depth ≤ n + 1)
        (Plain right.nodes) g.queryTerm c₂ right rest (m + marks right.nodes) := by
    intro c₂ hc₂
    refine h.queryTerm (fun hb => ?_) hready hc₂ hr
    rw [Query.needsParens_right, Bool.or_eq_false_iff, hop] at hb
    exact ⟨hb.1, Nat.lt_of_not_le (of_decide_eq_false hb.2)⟩
  unfold Grammar.unionNext
  cases op with
  | union =>
    refine .step (eat_of_eq hc) ?_
    simp only [if_true]
    exact setOperand hc.advance hside
  | except =>
    refine .step (eat_of_ne hc (by simp [SetOperator.token])) ?_
    simp only [Bool.false_eq_true, if_false]
    refine .step (eat_of_eq hc) ?_
    simp only [if_true]
    exact setOperand hc.advance hside
  | intersect => simp [SetOperator.rank] at hop

/-- A chain of set operations, read step by step. -/
theorem setSteps (h : g.Reads n) (hb : b = false → q.isModified = false) (hready : Ready m q.nodes)
    (hc : c.At (parensIf b q.tokens ++ rest) m) (hr : 7 ≤ (next rest).clause) :
    Builds (parensDepth b q.depth ≤ n + 1) (Plain q.nodes) g.queryTerm g.unionNext c q rest
      (m + marks q.nodes) := by
  induction hs : q.tokens.length using Nat.strongRecOn generalizing q b c m rest with
  | _ size ih =>
    by_cases hp : b = false → q.isModified = false ∧ 2 ≤ q.rank
    · exact .of_gives (h.queryTerm hp hready hc hr)
    · obtain rfl : b = false := by
        cases b with
        | true => exact absurd (fun hb => by cases hb) hp
        | false => rfl
      have hm := hb rfl
      have hrank : ¬ 2 ≤ q.rank := fun hr => hp fun _ => ⟨hm, hr⟩
      obtain ⟨op, all, left, right, rfl, hop⟩ := exists_setOperation hm (by omega)
      have hop : op.rank = 1 := op.rank_eq_one (hop ▸ hrank)
      obtain ⟨hl, hrr, hmarks, hplain⟩ := setOperation_parts hready
      rw [ofSetOperation_tokens] at hs
      simp only [parensIf, Bool.false_eq_true, if_false] at hc
      rw [ofSetOperation_tokens, List.append_assoc, List.cons_append, List.append_assoc] at hc
      have hleft := ih left.tokens.length
        (by
          rw [← hs]
          unfold parensIf
          split <;> simp [Kind.parens])
        (b := SetOperation.needsParens op .left left)
        (fun hb => by
          rw [Query.needsParens_left, Bool.or_eq_false_iff] at hb
          exact hb.1)
        hl hc (op.clause_token hop).ge rfl
      have hsteps := hleft.extend (Q := Plain left.nodes ∧ Plain right.nodes) And.left
        (fun c₁ hc₁ => (h.unionNext hop hrr hc₁ hr).imp Iff.rfl And.right) (by simp; omega)
      refine (hsteps.imp ?_ hplain).marks (by rw [hmarks, Nat.add_assoc])
      rw [parensDepth, if_neg (by simp), ofSetOperation_depth, Nat.max_le]

theorem setExpression (h : g.Reads n) (hb : b = false → q.isModified = false)
    (hready : Ready m q.nodes) (hc : c.At (parensIf b q.tokens ++ rest) m)
    (hr : 8 ≤ (next rest).clause) :
    Gives (parensDepth b q.depth ≤ n + 1) (Plain q.nodes) g.setExpression c q rest
      (m + marks q.nodes) := by
  refine (h.setSteps hb hready hc (by omega)).finish fun c₁ hc₁ => ?_
  rw [Grammar.unionNext, eatKeyword, bind_ok (eat_of_ne hc₁ (Kind.ne_of_clause hr (by decide)))]
  simp only [Bool.false_eq_true, if_false]
  rw [eatKeyword, bind_ok (eat_of_ne hc₁ (Kind.ne_of_clause hr (by decide)))]
  rfl

/-! ### What stands around a body -/

theorem cte (h : g.Reads n) {x : Cte} (hready : Ready m x.nodes) (hc : c.At (x.tokens ++ rest) m) :
    Gives (x.depth ≤ n) (Plain x.nodes) g.cte c x rest (m + marks x.nodes) := by
  obtain ⟨x, columns, q⟩ := x
  simp only [Cte.tokens, Cte.nodes, Cte.depth, List.cons_append, List.append_assoc] at hc hready ⊢
  obtain ⟨hgood, hq⟩ := (ready_cons rfl).1 hready
  obtain ⟨hx, hcs⟩ : x.delimited = true ∧ ∀ y ∈ columns, y.delimited = true := hgood.settled
  rw [Ident.token_eq hx] at hc
  obtain ⟨c₁, h₁, hc₁⟩ := optionalIdentList_apply hcs hc.advance (by simp)
  unfold Grammar.cte
  refine .step (ident_apply hc) (.step h₁ (.step (expectKeyword_of_eq hc₁) ?_))
  refine ((h.parenQuery hq hc₁.advance).imp Iff.rfl fun hp => (plain_cons.1 hp).2).last
    fun c₂ hc₂ => ⟨c₂, rfl, ?_⟩
  simpa [Node.isMark] using hc₂

theorem withClause (h : g.Reads n) {w : With} (hready : Ready m w.nodes)
    (hc : c.At (w.tokens ++ rest) m) (hr : next rest ≠ .symbol .comma) :
    Gives (w.depth ≤ n) (Plain w.nodes) g.withClause c w rest (m + marks w.nodes) := by
  obtain ⟨recursive, entries⟩ := w
  simp only [With.tokens, With.nodes, With.depth, List.append_assoc] at hc hready ⊢
  obtain ⟨hgood, hes⟩ := (ready_cons rfl).1 hready
  have hne : entries ≠ [] := hgood.sound
  obtain ⟨c₁, h₁, hc₁⟩ : ∃ c₁, eatWord "RECURSIVE" c = .ok (recursive, c₁) ∧
      c₁.At (commas (Cte.tokenLists entries) ++ rest) m := by
    cases recursive with
    | true => exact ⟨_, eatWord_of_isWord hc (by cbv), hc.advance⟩
    | false =>
      refine ⟨_, eatWord_of_not hc ?_, hc⟩
      obtain ⟨⟨x, columns, q⟩, xs, rfl⟩ := List.exists_cons_of_ne_nil hne
      simp only [given, Bool.false_eq_true, if_false, List.nil_append]
      rw [Cte.tokenLists, Kind.commas_cons, Cte.tokens]
      rfl
  unfold Grammar.withClause
  refine .step h₁ ?_
  have hitem : ∀ x ∈ entries, ReadsItem g.cte Cte.tokens Cte.nodes (fun x => x.depth ≤ n)
      (Plain (entries.flatMap Cte.nodes)) (fun _ => True) x := by
    intro x hx c m rest hready hc _
    exact (h.cte hready hc).imp Iff.rfl fun hp => plain_of_mem hp hx
  rw [Cte.nodesAll_eq] at hes ⊢
  rw [Cte.tokenLists_eq] at hc₁
  rw [Cte.depthAll_le]
  refine ((commaList_gives hne hitem trivial hr hes hc₁).imp Iff.rfl
    fun hp => (plain_cons.1 hp).2).last fun c₂ hc₂ => ⟨c₂, rfl, ?_⟩
  simpa [Node.isMark] using hc₂

theorem rowCount_apply {k : Nat} (hk : k ≤ Token.maxInteger) (hc : c.At (.number k :: rest) m) :
    rowCount c = .ok (k, c.advance) := by
  have hi : (Int64.ofNat k).toInt = k := Int64.toInt_ofNat_of_lt (by
    unfold Token.maxInteger at hk
    omega)
  unfold rowCount
  rw [bind_ok (peek_apply hc)]
  change (do
    advance
    return (Int64.ofNat k).toInt.toNat : Parser Nat) c = _
  rw [bind_ok advance_apply, hi]
  rfl

theorem optionalOffset {k : Option Nat} (hk : ∀ i ∈ k, i ≤ Token.maxInteger)
    (hc : c.At (Query.offsetTokens k ++ rest) m) (hr : 10 ≤ (next rest).clause) :
    ∃ c', (do Parser.optional (← eatKeyword .OFFSET) Grammar.offset : Parser (Option Nat)) c =
      .ok (k, c') ∧ c'.At rest m := by
  cases k with
  | none =>
    have hc : c.At rest m := hc
    refine ⟨c, ?_, hc⟩
    rw [eatKeyword, bind_ok (eat_of_ne hc (Kind.ne_of_clause hr (by decide)))]
    rfl
  | some k =>
    have hc : c.At (.keyword .OFFSET :: .number k :: rest) m := hc
    have hword : ∀ w, (next rest).isWord w = false := by
      intro w
      revert hr
      generalize next rest = k
      intro hr
      cases k with
      | ident => simp [Kind.clause] at hr
      | _ => rfl
    refine ⟨_, ?_, hc.advance.advance⟩
    rw [eatKeyword, bind_ok (eat_of_eq hc), optional_true]
    refine map_ok ?_
    unfold Grammar.offset
    rw [bind_ok (rowCount_apply (hk k rfl) hc.advance),
      bind_ok (eatWord_of_not hc.advance.advance (hword _))]
    simp only [Bool.false_eq_true, if_false]
    rw [bind_ok (eatWord_of_not hc.advance.advance (hword _))]
    rfl

theorem optionalLimit {k : Option Limit} (hk : ∀ i, k = some (.count i) → i ≤ Token.maxInteger)
    (hc : c.At (Limit.tokens? k ++ rest) m) (hr : 11 ≤ (next rest).clause) :
    ∃ c', (do Parser.optional (← eatKeyword .LIMIT) Grammar.limit : Parser (Option Limit)) c =
      .ok (k, c') ∧ c'.At rest m := by
  match k with
  | none =>
    have hc : c.At rest m := hc
    refine ⟨c, ?_, hc⟩
    rw [eatKeyword, bind_ok (eat_of_ne hc (Kind.ne_of_clause hr (by decide)))]
    rfl
  | some .all =>
    have hc : c.At (.keyword .LIMIT :: .keyword .ALL :: rest) m := hc
    refine ⟨_, ?_, hc.advance.advance⟩
    rw [eatKeyword, bind_ok (eat_of_eq hc), optional_true]
    refine map_ok ?_
    unfold Grammar.limit
    rw [eatKeyword, bind_ok (eat_of_eq hc.advance)]
    rfl
  | some (.count i) =>
    have hc : c.At (.keyword .LIMIT :: .number i :: rest) m := hc
    refine ⟨_, ?_, hc.advance.advance⟩
    rw [eatKeyword, bind_ok (eat_of_eq hc), optional_true]
    refine map_ok ?_
    unfold Grammar.limit
    rw [eatKeyword, bind_ok (eat_of_ne hc.advance (by simp))]
    simp only [Bool.false_eq_true, if_false]
    rw [bind_ok (rowCount_apply (hk i rfl) hc.advance)]
    rfl

theorem body (h : g.Reads n) {body : Body} (hready : Ready m body.nodes)
    (hc : c.At (body.tokens ++ rest) m) (hr : 8 ≤ (next rest).clause) :
    Gives (max body.depth 1 ≤ n + 1) (Plain body.nodes) g.setExpression c body.core rest
      (m + marks body.nodes) := by
  by_cases hb : ∃ inner, body = .nested inner
  · obtain ⟨inner, rfl⟩ := hb
    simp only [Body.tokens, Body.nodes, Body.depth] at hc hready ⊢
    have hinner := h.setExpression (b := true) (by simp) ((ready_cons rfl).1 hready).2 hc hr
    refine (hinner.imp ?_ fun hp => (plain_cons.1 hp).2).marks (by simp [Node.isMark])
    simp [parensDepth]
  · have hnested : ∀ inner, body ≠ .nested inner := fun inner he => hb ⟨inner, he⟩
    have hcore : body.core = .ofBody body := by
      cases body <;> first | rfl | exact absurd rfl (hnested _)
    have hready' : Ready m (Query.ofBody body).nodes := by
      rw [Query.nodes_ofBody]
      exact (ready_cons rfl).2 ⟨Relation.good_ofBody hnested, hready⟩
    rw [hcore]
    have hbody := h.setExpression (b := false) (fun _ => rfl) hready'
      (by rwa [parensIf, if_neg (by simp), Query.tokens_ofBody]) hr
    refine (hbody.imp ?_ ?_).marks ?_
    · rw [parensDepth, if_neg (by simp), Query.depth_ofBody]
    · rw [Query.nodes_ofBody, plain_cons]
      exact fun hp => ⟨rfl, hp⟩
    · simp [Query.nodes_ofBody, Node.isMark]

theorem optionalWith (h : g.Reads n) {α : Type} {G Q : Prop} {a : α} {k : Nat} {mid : List Kind}
    {w : Option With} {K : Option With → Parser α} (hready : Ready m (With.nodes? w))
    (hp : Q → Plain (With.nodes? w)) (hc : c.At (With.tokens? w ++ mid) m)
    (hr : next mid ≠ .symbol .comma) (hw : w = none → next mid ≠ .keyword .WITH)
    (hK : ∀ c', c'.At mid (m + marks (With.nodes? w)) → Gives G Q (K w) c' a rest k) :
    Gives (With.depth? w ≤ n + 1 ∧ G) Q (do
      let w ← Parser.optional (← eatKeyword .WITH) g.withClause
      K w) c a rest k := by
  cases w with
  | none =>
    have hc : c.At mid m := hc
    refine .step (eat_of_ne hc (hw rfl)) ((hK c hc).congr ?_)
    simp [With.depth?]
  | some w =>
    simp only [With.nodes?, With.tokens?, With.depth?, List.cons_append, Nat.add_le_add_iff_right]
      at hc hready hp hK ⊢
    refine .step (eat_of_eq hc) ?_
    rw [optional_true]
    exact (h.withClause hready hc.advance hr).map.seq hp hK

theorem clause_offset {k : Option Nat} {i : Nat} (hi : i ≤ 9) (hr : i ≤ (next ts).clause) :
    i ≤ (next (Query.offsetTokens k ++ ts)).clause := by
  cases k with
  | none => exact hr
  | some e => exact hi

theorem clause_limit {k : Option Limit} {i : Nat} (hi : i ≤ 10) (hr : i ≤ (next ts).clause) :
    i ≤ (next (Limit.tokens? k ++ ts)).clause := by
  match k with
  | none => exact hr
  | some .all | some (.count _) => exact hi

/-- A body starts with a keyword of its own or with a parenthesis. -/
theorem body_next {body : Body} (ts : List Kind) :
    next (body.tokens ++ ts) ≠ .symbol .comma ∧ next (body.tokens ++ ts) ≠ .keyword .WITH := by
  induction hs : body.tokens.length using Nat.strongRecOn generalizing body ts with
  | _ size ih =>
    cases body with
    | select s =>
      obtain ⟨quantifier, items, sources, filter, group, having, windows⟩ := s
      rw [Body.tokens, Select.tokens]
      simp
    | table | values | nested =>
      rw [Body.tokens]
      simp [Kind.parens]
    | setOperation o =>
      obtain ⟨op, all, left, right⟩ := o
      rw [Body.tokens, SetOperation.tokens] at hs ⊢
      rw [List.append_assoc]
      cases hb : SetOperation.needsParens op .left left with
      | true => simp [parensIf, Kind.parens]
      | false =>
        rw [hb] at hs
        rw [Query.needsParens_left, Bool.or_eq_false_iff] at hb
        rw [parensIf, if_neg (by simp), Query.eq_ofBody hb.1, Query.tokens_ofBody] at hs ⊢
        exact ih _ (by simp at hs; omega) _ rfl

/-- Queries are read one level further up. -/
theorem fullQuery (h : g.Reads n) (hready : Ready m q.nodes) (hc : c.At (q.tokens ++ rest) m)
    (hr : (next rest).endsQuery = true) :
    Gives (q.depth ≤ n + 1) (Plain q.nodes) g.fullQuery c q rest (m + marks q.nodes) := by
  have hsound : q.Sound := (hready.good (.query q) q.mem_nodes).sound
  have hcore := q.surround_core hsound
  obtain ⟨bindings, body, order, offset, limit⟩ := q
  simp only [Query.tokens, Query.nodes, Query.depth, List.append_assoc, Nat.max_le]
    at hc hready ⊢
  obtain ⟨hwith, hr₁⟩ := ready_append.1 ((ready_cons rfl).1 hready).2
  obtain ⟨hbody, horder⟩ := ready_append.1 hr₁
  have hn₁₁ := Kind.clause_of_endsQuery hr
  have hn₁₀ : 10 ≤ _ := clause_limit (k := limit) (by decide) (Nat.le_of_succ_le hn₁₁)
  have hn₉ : 9 ≤ _ := clause_offset (k := offset) (by decide) (Nat.le_of_succ_le hn₁₀)
  have hn₈ : 8 ≤ (next ((if order.isEmpty then []
      else .keyword .ORDER :: .keyword .BY :: commas (OrderTerm.tokenLists order)) ++ _)).clause :=
    clause_list (by decide) (Nat.le_of_succ_le hn₉)
  unfold Grammar.fullQuery
  refine (h.optionalWith (G := max body.depth 1 ≤ n + 1 ∧ OrderTerm.depthAll order ≤ n) hwith
    (by simp +contextual) hc (body_next _).1 (fun _ => (body_next _).2) fun c₁ hc₁ => ?_).congr ?_
  · refine (h.body hbody hc₁ hn₈).seq (by simp +contextual) fun c₂ hc₂ => ?_
    have hend := Kind.endsClause_of_le (by decide) hn₉
    refine ((h.optionalOrder horder hc₂ (Kind.endsTerm_of_endsClause hend)
      (Kind.ne_of_endsClause hend rfl) (Kind.ne_of_clause hn₉ (by decide))).imp Iff.rfl
      (by simp +contextual)).last fun c₃ hc₃ => ?_
    obtain ⟨c₄, h₄, hc₄⟩ := optionalOffset hsound.offset hc₃ hn₁₀
    obtain ⟨c₅, h₅, hc₅⟩ := optionalLimit hsound.limit hc₄ hn₁₁
    refine ⟨c₅, ?_, by simpa [Node.isMark, Nat.add_assoc] using hc₅⟩
    rw [bind_bind_ok h₄, bind_bind_ok h₅]
    exact congrArg (fun q => Except.ok (q, c₅)) hcore
  · omega

/-! ### All levels -/

theorem bottom : Grammar.bottom.Reads 0 := by
  have hfail : ∀ {α : Type} {c : Cursor} {rest : List Kind} {m i : Nat} {P : Prop} {x : α},
      1 ≤ i → Gives (i ≤ 0) P (do failAt (← here) .tooDeep) c x rest m := by
    intro α c rest m i P x hi
    exact .tooDeep (e := ⟨.tooDeep, c.token.span⟩) (by omega) rfl rfl
  have hnone : ∀ {α : Type} {c : Cursor} {p : Parser α},
      ∃ e, (Grammar.bottom.query >>= fun _ => p) c = .error e := ⟨_, rfl⟩
  constructor
  · intro e b floor c m rest _ _ _ _ _
    exact hfail (Nat.le_trans e.one_le_depth (le_parensDepth b _))
  · intro q c m rest _ _ _
    exact hfail q.one_le_depth
  · intro r c m rest _ _ _
    exact hfail r.one_le_depth
  · exact ⟨fun t c rest m _ _ _ => hfail t.one_le_depth, fun _ _ _ _ _ _ => ⟨_, rfl⟩⟩
  · intro c m ts _ _
    exact ⟨_, rfl⟩
  · intro e c m k rest _ _ _ _
    exact hnone
  · intro r c m rest _ _ _ _
    exact hnone

theorem deepen (h : g.Reads n) : g.deepen.Reads (n + 1) := by
  constructor
  · intro e b floor c m rest hready hf hq hc hr
    exact h.expression hready hf hq hc hr
  · intro q c m rest hready hc hr
    exact h.fullQuery hready hc hr
  · intro r c m rest hready hc hr
    exact h.joinedRelation hready hc hr
  · exact h.type.deepen
  · intro c m ts hc hk
    exact fullQuery_noQuery hc hk
  · exact h.strayExprNext
  · intro r c m rest hready hd ht hc
    exact h.strayRelationNext r c m _ rest hready hd hc (.inr ⟨rfl, ht⟩)

theorem ofDepth (n : Nat) : (Grammar.ofDepth n).Reads n := by
  induction n with
  | zero => exact bottom
  | succ n ih => exact ih.deepen

end Grammar.Reads

end Sql
