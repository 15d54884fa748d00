import Sql.Proofs.Constructs

/-! Reading expressions: an operand, and what is applied to it step by step. -/
namespace Sql

open Sql.Parser
open Token (Kind)
open Token.Kind (next parensIf given commas ends_word)

/-- Has a comparison been applied to the expression when it is read without parentheses? -/
def Expr.compared : Expr → Bool
  | .binary l op _ => (!l.needsParens op .left && l.compared) || op.associativity = .none
  | .isNull .. | .isDistinct .. | .like .. | .between .. | .inList .. | .inQuery .. => true
  | _ => false
termination_by structural e => e

namespace Expr

variable {e l r : Expr} {op : BinaryOp}

theorem rank_le_of_not_isLooser {t : Tier} (h : e.isLooser t = false) : t.rank ≤ e.tier.rank := by
  simpa [isLooser] using h

theorem rank_le_of_left (h : l.needsParens op .left = false) : op.tier.rank ≤ l.tier.rank := by
  unfold needsParens at h
  split at h
  · rename_i ht
    exact Nat.le_of_eq (by rw [ht])
  · exact rank_le_of_not_isLooser h

theorem rank_lt_of_comparison (hop : op.associativity = .none) {side : Side}
    (h : l.needsParens op side = false) : Tier.comparison.rank < l.tier.rank := by
  have ht : op.tier = .comparison := by
    simpa [BinaryOp.associativity] using hop
  unfold needsParens at h
  split at h
  · simp [hop] at h
  · have hle := rank_le_of_not_isLooser h
    have hne : l.tier ≠ .comparison := by rwa [ht] at *
    rw [ht] at hle
    revert hle hne
    cases l.tier <;> simp [Tier.rank]

theorem rank_lt_of_right (hs : (r.isBinaryOf op && op.isAssociative) = false)
    (h : r.needsParens op .right = false) : op.tier.rank < r.tier.rank := by
  unfold needsParens at h
  split at h
  · rw [hs] at h
    split at h <;> simp_all
  · rename_i hne
    have hle := rank_le_of_not_isLooser h
    revert hle hne
    cases r.tier <;> cases op.tier <;> simp [Tier.rank]

/-- Tight expressions hold no comparison outside of parentheses. -/
theorem compared_eq_false (h : Tier.comparison.rank < e.tier.rank) : e.compared = false := by
  induction e using left_induction with
  | head e he => cases e <;> first | rfl | simp [leftOperand?] at he
  | left e b l he ih =>
    cases e with
    | binary l' op r =>
      cases he
      have hop : op.associativity ≠ .none := by
        cases op <;> simp_all [BinaryOp.associativity, tier, BinaryOp.tier]
      simp only [compared, hop, decide_false, Bool.or_false, Bool.and_eq_false_iff]
      cases hb : l.needsParens op .left with
      | true => exact .inl rfl
      | false =>
        refine .inr (ih ?_)
        exact Nat.lt_of_lt_of_le h (rank_le_of_left hb)
    | subscript | field => rfl
    | isNull | isDistinct | like | between | inList | inQuery => simp [tier] at h
    | _ => simp [leftOperand?] at he

end Expr

theorem Token.Kind.attaches_of_joins {k : Kind} (h : k.joins = true) : k.attaches = false := by
  cases k with
  | symbol s => cases s <;> first | rfl | cases h
  | keyword w => rfl
  | _ => cases h

theorem Token.Kind.isWord_of_joins {k : Kind} (h : k.joins = true) (w : String) :
    k.isWord w = false := by
  cases k with
  | ident => cases h
  | _ => rfl

theorem Token.Kind.ends_token {op : BinaryOp} {floor : Nat} (h : op.tier.rank < floor) :
    op.token.ends floor = true := by
  cases op <;> simp_all [ends, BinaryOp.token, attaches, continues, binaryOp?, Symbol.binaryOp?]

namespace Grammar.Reads

variable {g : Grammar} {n m floor : Nat} {c : Cursor} {rest ts : List Kind} {e l : Expr} {b : Bool}

/-- The operand that an expression starts with. -/
theorem head (h : g.Reads n) (he : e.leftOperand? = none) (hf : floor ≤ e.tier.rank)
    (hready : Ready m e.nodes) (hc : c.At (e.tokens ++ rest) m) (hr : e.Stops rest) :
    Gives (e.depth ≤ n + 1) (Plain e.nodes) (g.signed floor) c e rest (m + marks e.nodes) := by
  cases e with
  | literal v => exact literal hready hc
  | column x => exact column hready hc hr
  | parameter i => exact parameter hready hc
  | star r => exact star hready hc
  | unary op e => exact h.unary hready hc hr
  | existsQuery q => exact h.existsQuery hready hc
  | subquery q => exact h.subquery hready hc
  | call call => exact h.callOperand hready hc hr
  | cast e t s => exact h.cast hready hc
  | caseWhen o bs e => exact h.caseWhen hready hc
  | array es => exact h.array hready hc
  | row es => exact h.row hready hc hr.apart
  | lambda ps body => exact h.lambda hf hready hc hr
  | interval t neg s f => exact interval hready hc (isWord_of_attaches hr.apart (by simp))
  | typed t x => exact typed hready hc
  | _ => simp [Expr.leftOperand?] at he

/-! ### One step -/

theorem extend_subscript (h : g.Reads n) {left : Operand} {index : Expr}
    (hready : Ready m index.nodes)
    (hc : c.At (.symbol .leftBracket :: (index.tokens ++ .symbol .rightBracket :: rest)) m) :
    Gives (index.depth ≤ n) (Plain index.nodes) (g.extend floor left) c
      (some ⟨.subscript left.expr index, left.compared⟩) rest (m + marks index.nodes) := by
  unfold extend
  refine .step (peek_apply hc) ?_
  simp only [Kind.next_cons, beq_self_eq_true, if_true]
  refine .step advance_apply ?_
  refine (h.expr hready hc.advance rfl).last fun c₁ hc₁ => ⟨c₁.advance, ?_, hc₁.advance⟩
  rw [bind_ok (expectSymbol_of_eq hc₁)]
  rfl

theorem extend_field {left : Operand} {x : Ident}
    (hc : c.At (.symbol .dot :: .ident x :: rest) m) :
    g.extend floor left c = .ok (some ⟨.field left.expr x, left.compared⟩, c.advance.advance) := by
  unfold extend
  rw [bind_ok (peek_apply hc)]
  change (do advance; return some { left with expr := .field left.expr (← ident) } :
    Parser (Option Operand)) c = _
  rw [bind_ok advance_apply, bind_ok (ident_apply hc.advance)]
  rfl

theorem refuseCompared_apply {left : Operand} (h : left.compared = false) :
    refuseCompared left c = .ok ((), c) := by
  unfold refuseCompared
  rw [h]
  rfl

/-- An operator and what is read as its right operand. -/
theorem extend_operator {F P : Prop} {left : Operand} {op : BinaryOp} {r : Expr} {k : Nat}
    (hf : floor ≤ op.tier.rank) (hcomp : op.associativity = .none → left.compared = false)
    (hc : c.At (op.token :: ts) m)
    (hr : Gives F P (g.exprFrom (op.tier.rank + 1)) c.advance r rest k) :
    Gives F P (g.extend floor left) c
      (some ⟨.binary left.expr op r, left.compared || op.associativity = .none⟩) rest k := by
  have hbracket : (op.token == .symbol .leftBracket) = false := by cases op <;> rfl
  have hdot : (op.token == .symbol .dot) = false := by cases op <;> rfl
  have hop : op.token.binaryOp? = some op := by cases op <;> rfl
  have hright := hr.last
    (f := fun r => pure (some (Operand.mk (.binary left.expr op r)
      (left.compared || op.associativity = .none))))
    fun c₁ hc₁ => ⟨c₁, rfl, hc₁⟩
  unfold extend
  refine .step (peek_apply hc) ?_
  simp only [Kind.next_cons, hbracket, hdot, hop, Bool.false_eq_true, if_false,
    Nat.not_lt.2 hf]
  split
  · rename_i ha
    exact .step (refuseCompared_apply (hcomp ha)) (.step advance_apply hright)
  · exact .step advance_apply hright

theorem extend_binary (h : g.Reads n) {left : Operand} {op : BinaryOp} {r : Expr}
    (hf : floor ≤ op.tier.rank) (hcomp : op.associativity = .none → left.compared = false)
    (hready : Ready m r.nodes) (hb : b = false → op.tier.rank < r.tier.rank)
    (hq : b = true → ∀ q, r ≠ .subquery q)
    (hc : c.At (op.token :: (parensIf b r.tokens ++ rest)) m)
    (hr : (next rest).ends (op.tier.rank + 1) = true) :
    Gives (parensDepth b r.depth ≤ n) (Plain r.nodes) (g.extend floor left) c
      (some ⟨.binary left.expr op r, left.compared || op.associativity = .none⟩) rest
      (m + marks r.nodes) :=
  extend_operator hf hcomp hc (h.operand r b _ _ m rest hready hb hq hc.advance hr)

/-- Does a predicate follow? -/
def startsPredicate (ts : List Kind) : Prop :=
  next ts ∈ [Kind.keyword .IS, .keyword .LIKE, .keyword .BETWEEN, .keyword .IN] ∨
    (next ts = .keyword .NOT ∧
      ts.getD 1 .endOfInput ∈ [Kind.keyword .LIKE, .keyword .BETWEEN, .keyword .IN])

theorem predicateAhead_true (hc : c.At ts m) (hts : startsPredicate ts) :
    predicateAhead c = .ok (true, c) := by
  unfold predicateAhead
  rw [bind_ok (peek_apply hc)]
  simp only [startsPredicate, List.mem_cons, List.not_mem_nil, or_false] at hts
  rcases hts with (h | h | h | h) | ⟨h, h'⟩
  · rw [h]; rfl
  · rw [h]; rfl
  · rw [h]; rfl
  · rw [h]; rfl
  · rw [h]
    simp only
    rw [bind_ok (peekAt_apply hc 1)]
    rcases h' with h' | h' | h' <;> rw [h'] <;> rfl

theorem extend_predicate {F P : Prop} {left : Operand} {k : Nat} (hf : floor ≤ Tier.comparison.rank)
    (hcomp : left.compared = false) (hc : c.At ts m) (hts : startsPredicate ts)
    (hp : Gives F P (g.predicate left.expr) c e rest k) :
    Gives F P (g.extend floor left) c (some ⟨e, true⟩) rest k := by
  have hk : (next ts == .symbol .leftBracket) = false ∧ (next ts == .symbol .dot) = false ∧
      (next ts).binaryOp? = none := by
    simp only [startsPredicate, List.mem_cons, List.not_mem_nil, or_false] at hts
    rcases hts with (h | h | h | h) | ⟨h, -⟩ <;> rw [h] <;> exact ⟨rfl, rfl, rfl⟩
  unfold extend
  refine .step (peek_apply hc) ?_
  simp only [hk.1, hk.2.1, hk.2.2, Bool.false_eq_true, if_false]
  refine .step (predicateAhead_true hc hts) ?_
  simp only [if_true, Nat.not_lt.2 hf, if_false]
  exact .step (refuseCompared_apply hcomp) (hp.last fun c₁ hc₁ => ⟨c₁, rfl, hc₁⟩)

/-! ### Predicates -/

/-- An operand of a predicate, in parentheses if it is loose. -/
theorem concatOperand (h : g.Reads n) (hready : Ready m e.nodes)
    (hc : c.At (parensIf (e.isLooser .concat) e.tokens ++ rest) m)
    (hr : (next rest).ends (Tier.comparison.rank + 1) = true) :
    Gives (parensDepth (e.isLooser .concat) e.depth ≤ n) (Plain e.nodes) g.operand c e rest
      (m + marks e.nodes) := by
  refine h.operand e _ _ c m rest hready Expr.rank_le_of_not_isLooser ?_ hc hr
  rintro hb q rfl
  cases hb

theorem negated_apply {negated : Bool} (hc : c.At (given negated (.keyword .NOT) ++ rest) m)
    (hr : next rest ≠ .keyword .NOT) :
    ∃ c', eatKeyword .NOT c = .ok (negated, c') ∧ c'.At rest m := by
  unfold eatKeyword
  cases negated with
  | true => exact ⟨_, eat_of_eq hc, hc.advance⟩
  | false => exact ⟨_, eat_of_ne hc hr, hc⟩

theorem isPredicate {negated : Bool} {k : Kind} {a : Expr} {F P : Prop} {left : Expr} {i : Nat}
    (hc : c.At (.keyword .IS :: (given negated (.keyword .NOT) ++ k :: ts)) m)
    (hk : k ≠ .keyword .NOT)
    (h : ∀ c', c'.At (k :: ts) m → Gives F P (do
      if ← eatKeyword .NULL then return .isNull left negated
      else if ← eatKeyword .DISTINCT then
        expectKeyword .FROM
        return .isDistinct left (← g.operand) negated
      else unexpected "NULL or DISTINCT FROM") c' a rest i) :
    Gives F P (g.predicate left) c a rest i := by
  obtain ⟨c₁, h₁, hc₁⟩ := negated_apply hc.advance (show next (k :: ts) ≠ _ from hk)
  unfold Grammar.predicate
  refine .step here_apply (.step (eat_of_eq hc) ?_)
  simp only [if_true]
  unfold Grammar.isPredicate
  exact .step h₁ (h c₁ hc₁)

theorem isNull {negated : Bool} {left : Expr}
    (hc : c.At (.keyword .IS :: (given negated (.keyword .NOT) ++ .keyword .NULL :: rest)) m) :
    Gives True True (g.predicate left) c (.isNull left negated) rest m := by
  refine isPredicate hc (by simp) fun c₁ hc₁ => ?_
  exact .step (eat_of_eq hc₁) (.ok trivial rfl hc₁.advance)

theorem isDistinct (h : g.Reads n) {negated : Bool} {left r : Expr} (hready : Ready m r.nodes)
    (hc : c.At (.keyword .IS :: (given negated (.keyword .NOT) ++ .keyword .DISTINCT ::
      .keyword .FROM :: (parensIf (r.isLooser .concat) r.tokens ++ rest))) m)
    (hr : (next rest).ends (Tier.comparison.rank + 1) = true) :
    Gives (parensDepth (r.isLooser .concat) r.depth ≤ n) (Plain r.nodes) (g.predicate left) c
      (.isDistinct left r negated) rest (m + marks r.nodes) := by
  refine isPredicate hc (by simp) fun c₁ hc₁ => ?_
  refine .step (eat_of_ne hc₁ (by simp)) ?_
  simp only [Bool.false_eq_true, if_false]
  refine .step (eat_of_eq hc₁) ?_
  simp only [if_true]
  refine .step (expectKeyword_of_eq hc₁.advance) ?_
  exact (h.concatOperand hready hc₁.advance.advance hr).last fun c₂ hc₂ => ⟨c₂, rfl, hc₂⟩

/-- Predicates other than those with `IS`, from the optional `NOT` on. -/
theorem predicate_eq (left : Expr) {negated : Bool} {w : Keyword}
    (hw : w = .LIKE ∨ w = .BETWEEN ∨ w = .IN)
    (hc : c.At (given negated (.keyword .NOT) ++ .keyword w :: ts) m) :
    ∃ c', c'.At (.keyword w :: ts) m ∧ g.predicate left c = (do
      if ← eatKeyword .LIKE then
        let pattern ← g.operand
        let escape ← Parser.optional (← eatWord "ESCAPE") g.operand
        return .like left pattern escape negated
      else if ← eatKeyword .BETWEEN then
        let low ← g.operand
        expectKeyword .AND
        return .between left low (← g.operand) negated
      else if ← eatKeyword .IN then g.inPredicate c.token.span left negated
      else unexpected "LIKE, BETWEEN or IN" : Parser Expr) c' := by
  have hne : next (.keyword w :: ts) ≠ .keyword .NOT := by
    rcases hw with rfl | rfl | rfl <;> simp
  have his : next (given negated (.keyword .NOT) ++ .keyword w :: ts) ≠ .keyword .IS := by
    cases negated <;> rcases hw with rfl | rfl | rfl <;> simp [given]
  obtain ⟨c₁, h₁, hc₁⟩ := negated_apply hc hne
  refine ⟨c₁, hc₁, ?_⟩
  unfold Grammar.predicate
  rw [bind_ok here_apply, eatKeyword, bind_ok (eat_of_ne hc his)]
  simp only [Bool.false_eq_true, if_false]
  rw [bind_ok h₁]

theorem like (h : g.Reads n) {negated : Bool} {left p : Expr} {escape : Option Expr}
    (hready : Ready m (p.nodes ++ Expr.nodes? escape))
    (hc : c.At (given negated (.keyword .NOT) ++ .keyword .LIKE ::
      (parensIf (p.isLooser .concat) p.tokens ++ (Expr.escapeTokens escape ++ rest))) m)
    (hr : (next rest).ends (Tier.comparison.rank + 1) = true)
    (he : (next rest).isWord "ESCAPE" = false) :
    Gives (parensDepth (p.isLooser .concat) p.depth + 1 ≤ n + 1 ∧ Expr.escapeDepth escape ≤ n + 1)
      (Plain (p.nodes ++ Expr.nodes? escape)) (g.predicate left) c (.like left p escape negated)
      rest (m + marks (p.nodes ++ Expr.nodes? escape)) := by
  obtain ⟨hp, hesc⟩ := ready_append.1 hready
  obtain ⟨c₁, hc₁, heq⟩ := predicate_eq (g := g) left (.inl rfl) hc
  refine .of_eq heq (.step (eat_of_eq hc₁) ?_)
  simp only [if_true]
  have hnext :
      (next (Expr.escapeTokens escape ++ rest)).ends (Tier.comparison.rank + 1) = true := by
    cases escape with
    | none => exact hr
    | some e =>
      rw [Expr.escapeTokens]
      exact show (Kind.word "ESCAPE").ends (Tier.comparison.rank + 1) = true by cbv
  refine (((h.concatOperand hp hc₁.advance hnext).congr (by omega)).seq (by simp +contextual)
    fun c₂ hc₂ => ?_)
  cases escape with
  | none =>
    have hc₂ : c₂.At rest _ := hc₂
    refine .step (eatWord_of_not hc₂ he) (.ok (by simp [Expr.escapeDepth]) rfl ?_)
    simpa [Expr.nodes?] using hc₂
  | some e =>
    simp only [Expr.escapeTokens, Expr.nodes?, Expr.escapeDepth, List.cons_append] at hc₂ hesc ⊢
    refine .step (eatWord_of_isWord hc₂ (by cbv)) ?_
    rw [optional_true]
    refine (((h.concatOperand hesc hc₂.advance hr).map.imp (by omega) ?_).last
      fun c₃ hc₃ => ⟨c₃, rfl, ?_⟩)
    · simp +contextual
    · rwa [marks_append, ← Nat.add_assoc]

theorem between (h : g.Reads n) {negated : Bool} {left low high : Expr}
    (hready : Ready m (low.nodes ++ high.nodes))
    (hc : c.At (given negated (.keyword .NOT) ++ .keyword .BETWEEN ::
      (parensIf (low.isLooser .concat) low.tokens ++
        .keyword .AND :: (parensIf (high.isLooser .concat) high.tokens ++ rest))) m)
    (hr : (next rest).ends (Tier.comparison.rank + 1) = true) :
    Gives (parensDepth (low.isLooser .concat) low.depth ≤ n ∧
        parensDepth (high.isLooser .concat) high.depth ≤ n)
      (Plain (low.nodes ++ high.nodes)) (g.predicate left) c (.between left low high negated) rest
      (m + marks (low.nodes ++ high.nodes)) := by
  obtain ⟨hl, hh⟩ := ready_append.1 hready
  obtain ⟨c₁, hc₁, heq⟩ := predicate_eq (g := g) left (.inr (.inl rfl)) hc
  refine .of_eq heq (.step (eat_of_ne hc₁ (by simp)) ?_)
  simp only [Bool.false_eq_true, if_false]
  refine .step (eat_of_eq hc₁) ?_
  simp only [if_true]
  refine (h.concatOperand hl hc₁.advance rfl).seq (by simp +contextual) fun c₂ hc₂ => ?_
  refine .step (expectKeyword_of_eq hc₂) ?_
  refine ((h.concatOperand hh hc₂.advance hr).imp Iff.rfl (by simp +contextual)).last
    fun c₃ hc₃ => ⟨c₃, rfl, ?_⟩
  rwa [marks_append, ← Nat.add_assoc]

theorem inPredicate_eq (left : Expr) {negated : Bool}
    (hc : c.At (given negated (.keyword .NOT) ++ .keyword .IN :: ts) m) :
    ∃ c', c'.At ts m ∧ g.predicate left c = g.inPredicate c.token.span left negated c' := by
  obtain ⟨c₁, hc₁, heq⟩ := predicate_eq (g := g) left (.inr (.inr rfl)) hc
  refine ⟨_, hc₁.advance, heq.trans ?_⟩
  rw [eatKeyword, bind_ok (eat_of_ne hc₁ (by simp))]
  simp only [Bool.false_eq_true, if_false]
  rw [eatKeyword, bind_ok (eat_of_ne hc₁ (by simp))]
  simp only [Bool.false_eq_true, if_false]
  rw [eatKeyword, bind_ok (eat_of_eq hc₁)]
  rfl

theorem inQuery (h : g.Reads n) {negated : Bool} {left : Expr} {q : Query}
    (hready : Ready m q.nodes) (hd : q.depth ≤ n)
    (hc : c.At (given negated (.keyword .NOT) ++ .keyword .IN :: (Kind.parens q.tokens ++ rest))
      m) :
    ∃ c', g.predicate left c = .ok (.inQuery left q negated, c') ∧
      c'.At rest (m + marks q.nodes) := by
  obtain ⟨c₁, hc₁, heq⟩ := inPredicate_eq (g := g) left hc
  obtain ⟨c₂, h₂, hc₂⟩ := (h.parenQuery hready hc₁).1 hd
  refine ⟨c₂, heq.trans ?_, hc₂⟩
  simp only [Kind.parens, List.cons_append, List.append_assoc, List.nil_append] at hc₁
  unfold inPredicate
  rw [bind_ok (queryAhead_apply hc₁)]
  simp only [Kind.next_cons, Kind.startsQuery, q.startsQuery_tokens, beq_self_eq_true,
    Bool.and_self, if_true]
  rw [bind_ok (attempt_ok h₂)]
  rfl

theorem inList (h : g.Reads n) {negated : Bool} {left : Expr} {es : List Expr}
    (hne : es ≠ []) (hq : ∀ q, es ≠ [.subquery q]) (hready : Ready m (Expr.nodesAll es))
    (hc : c.At (given negated (.keyword .NOT) ++ .keyword .IN ::
      (Kind.parens (commas (Expr.tokenLists es)) ++ rest)) m) :
    Gives (Expr.depthAll es ≤ n) (Plain (Expr.nodesAll es)) (g.predicate left) c
      (.inList left es negated) rest (m + marks (Expr.nodesAll es)) := by
  obtain ⟨c₁, hc₁, heq⟩ := inPredicate_eq (g := g) left hc
  have hlist : Gives (Expr.depthAll es ≤ n) (Plain (Expr.nodesAll es))
      (inPredicate.fromList g c.token.span left negated) c₁ (.inList left es negated) rest
      (m + marks (Expr.nodesAll es)) := by
    unfold inPredicate.fromList
    refine (h.parenExprs hready hc₁).last fun c₂ hc₂ => ⟨c₂, ?_, hc₂⟩
    have hsome : es.isEmpty = false := by simpa using hne
    simp only [Expr.buildInList, hsome, Bool.false_eq_true, if_false]
    rfl
  -- The list looks like a query only if a subquery stands first in it.
  obtain ⟨x, xs, rfl⟩ := List.exists_cons_of_ne_nil hne
  obtain ⟨k, ts, hk, hts⟩ : ∃ (k : Kind) (ts : List Kind),
      (k = .symbol .comma ∨ (k = .symbol .rightParen ∧ ∀ q, x ≠ .subquery q)) ∧
      commas (Expr.tokenLists (x :: xs)) ++ Kind.symbol .rightParen :: rest =
        x.tokens ++ k :: ts := by
    cases xs with
    | nil =>
      refine ⟨_, rest, .inr ⟨rfl, ?_⟩, by simp [Expr.tokenLists, Kind.commas_cons]⟩
      rintro q rfl
      exact hq q rfl
    | cons y ys =>
      refine ⟨_, commas (Expr.tokenLists (y :: ys)) ++ .symbol .rightParen :: rest, .inl rfl, ?_⟩
      rw [Expr.tokenLists, Expr.tokenLists, Kind.commas_cons_cons, List.append_assoc,
        List.cons_append]
  have hx : Ready m x.nodes := (ready_append.1 (by rwa [Expr.nodesAll] at hready)).1
  simp only [Kind.parens, List.cons_append, List.append_assoc, List.nil_append, hts] at hc₁
  refine .of_eq heq ?_
  unfold inPredicate
  refine .step (queryAhead_apply hc₁) ?_
  simp only [Kind.next_cons, Kind.startsQuery, beq_self_eq_true, Bool.true_and]
  cases hs : Kind.startsQuery (x.tokens ++ k :: ts) with
  | false => exact hlist
  | true =>
    simp only [if_true]
    refine .of_not (fun hp => ?_) fun hd => ?_
    · rw [Expr.nodesAll, plain_append] at hp
      simp [Expr.startsQuery_tokens hp.1] at hs
    · have hdx : x.depth ≤ n := (Expr.depthAll_le _).1 hd x (by simp)
      obtain ⟨e', he'⟩ : ∃ e', g.parenQuery c₁ = .error e' := parens_error hc₁
        (h.strayExpr x _ m k ts hx hdx hc₁.advance (.inr hk))
      obtain ⟨c₂, h₂, hc₂⟩ := hlist.1 hd
      exact ⟨c₂, by rw [bind_ok (attempt_error he')]; exact h₂, hc₂⟩

/-! ### The whole expression -/

/-- The start of an expression: an operand to which nothing has been applied. -/
def startOperand (g : Grammar) (floor : Nat) : Parser Operand := (⟨·, false⟩) <$> g.signed floor

theorem expression_eq (c : Cursor) : g.expression floor c =
    (Operand.expr <$> (startOperand g floor >>= iterate (g.extend floor))) c := by
  unfold expression startOperand
  cases hs : g.signed floor c with
  | error e => rw [bind_error hs, map_error (bind_error (map_error hs))]
  | ok r =>
    rw [bind_ok hs]
    cases hi : iterate (g.extend floor) ⟨r.1, false⟩ r.2 with
    | error e => rw [bind_error hi, map_error (by rw [bind_ok (map_ok hs)]; exact hi)]
    | ok r' =>
      rw [bind_ok hi, map_ok (by rw [bind_ok (map_ok hs)]; exact hi)]
      rfl

theorem rank_lt_of_stops {k : Kind} {op : BinaryOp} (hop : k.binaryOp? = some op)
    (hstop : k.continues floor = false) : op.tier.rank < floor := by
  cases k with
  | symbol s => cases s <;> simp_all [Kind.binaryOp?, Symbol.binaryOp?, Kind.continues]
  | keyword w => cases w <;> simp_all [Kind.binaryOp?, Kind.continues]
  | _ => cases hop

/-- A predicate ahead would extend every expression that admits comparisons. -/
theorem predicateAhead_apply (hc : c.At ts m) : ∃ b, predicateAhead c = .ok (b, c) ∧
    (b = true → ∀ floor, (next ts).continues floor = false → Tier.comparison.rank < floor) := by
  have hp := peekAt_apply hc 1
  unfold predicateAhead
  rw [bind_ok (peek_apply hc)]
  generalize next ts = k
  cases k with
  | keyword w =>
    cases w with
    | IS | LIKE | BETWEEN | IN =>
      exact ⟨true, rfl, fun _ floor h => by simpa [Kind.continues] using h⟩
    | NOT =>
      simp only
      rw [bind_ok hp]
      have hlt : ∀ floor, (Kind.keyword .NOT).continues floor = false →
          Tier.comparison.rank < floor := fun floor h => by simpa [Kind.continues] using h
      generalize ts.getD 1 .endOfInput = k
      cases k with
      | keyword w => cases w <;> exact ⟨_, rfl, fun _ => hlt⟩
      | _ => exact ⟨_, rfl, fun _ => hlt⟩
    | _ => exact ⟨false, rfl, by simp⟩
  | _ => exact ⟨false, rfl, by simp⟩

theorem extend_none {left : Operand} (hc : c.At rest m) (hr : (next rest).ends floor = true) :
    g.extend floor left c = .ok (none, c) := by
  simp only [Kind.ends, Bool.and_eq_true, Bool.not_eq_true'] at hr
  have hstop := hr.2
  have hbracket : next rest ≠ .symbol .leftBracket := fun h => by simp [h, Kind.continues] at hstop
  have hdot : next rest ≠ .symbol .dot := fun h => by simp [h, Kind.continues] at hstop
  unfold extend
  rw [bind_ok (peek_apply hc), beq_false_of_ne hbracket, beq_false_of_ne hdot]
  simp only [Bool.false_eq_true, if_false]
  cases hop : (next rest).binaryOp? with
  | some op =>
    have hlt : op.tier.rank < floor := rank_lt_of_stops hop hstop
    simp only [hlt, if_true]
    rfl
  | none =>
    obtain ⟨b, hp, hb⟩ := predicateAhead_apply hc
    simp only
    rw [bind_ok hp]
    cases b with
    | false => rfl
    | true =>
      have hlt : Tier.comparison.rank < floor := hb rfl floor hstop
      simp only [if_true, hlt]
      rfl

/-- The expression is read step by step, whatever may be applied to it afterwards. -/
def ReadsSteps (g : Grammar) (n : Nat) (e : Expr) : Prop :=
  ∀ (floor : Nat) (c : Cursor) (m : Nat) (rest : List Kind), floor ≤ e.tier.rank →
    Ready m e.nodes → c.At (e.tokens ++ rest) m → e.Stops rest →
    Builds (e.depth ≤ n + 1) (Plain e.nodes) (startOperand g floor) (g.extend floor) c
      ⟨e, e.compared⟩ rest (m + marks e.nodes)

/-- The first operand of an expression, with or without parentheses. -/
theorem leftSteps (h : g.Reads n) (ih : ReadsSteps g n l) {k : Kind} (hk : k.joins = true)
    (hready : Ready m l.nodes) (hq : b = true → ∀ q, l ≠ .subquery q)
    (hc : c.At (parensIf b l.tokens ++ k :: ts) m) (hf : b = false → floor ≤ l.tier.rank)
    (hloose : b = false → l.tier.rank < Tier.access.rank → k.ends (l.tier.rank + 1) = true)
    (hdot : b = false → k = .symbol .dot → l.isColumn = false ∧ l.takesField = true) :
    Builds (parensDepth b l.depth ≤ n + 1) (Plain l.nodes) (startOperand g floor) (g.extend floor) c
      ⟨l, !b && l.compared⟩ (k :: ts) (m + marks l.nodes) := by
  have happart := Kind.attaches_of_joins hk
  cases b with
  | true =>
    have hw := h.wrapped floor hready (hq rfl) hc happart
    refine (Builds.of_gives hw.map).imp ?_ id
    simp [parensDepth]
  | false =>
    exact ih floor c m _ (hf rfl) hready hc
      ⟨happart, hloose rfl, fun _ => Kind.isWord_of_joins hk _, hdot rfl⟩

theorem compared_of_head (he : e.leftOperand? = none) : e.compared = false := by
  cases e <;> first | rfl | simp [Expr.leftOperand?] at he

/-- The left operand of an operator. -/
theorem operandSteps (h : g.Reads n) {op : BinaryOp} (ih : ReadsSteps g n l)
    (hf : floor ≤ op.tier.rank) (hready : Ready m l.nodes)
    (hc : c.At (parensIf (l.needsParens op .left) l.tokens ++ op.token :: ts) m) :
    Builds (parensDepth (l.needsParens op .left) l.depth ≤ n + 1) (Plain l.nodes)
      (startOperand g floor) (g.extend floor) c ⟨l, !l.needsParens op .left && l.compared⟩
      (op.token :: ts) (m + marks l.nodes) :=
  h.leftSteps ih (Kind.joins_token op) hready
    (fun hb => Expr.left_ne_subquery (e := .binary l op l) (by rw [Expr.leftOperand?, hb])) hc
    (fun hb => Nat.le_trans hf (Expr.rank_le_of_left hb))
    (fun hb _ => Kind.ends_token (Nat.lt_succ_of_le (Expr.rank_le_of_left hb)))
    (fun _ hd => by cases op <;> cases hd)

/-- Comparisons do not stand in a row, so the left operand of one is none without parentheses. -/
theorem compared_operand {op : BinaryOp} (ha : op.associativity = .none) :
    (!l.needsParens op .left && l.compared) = false := by
  cases hb : l.needsParens op .left with
  | true => rfl
  | false => exact Expr.compared_eq_false (Expr.rank_lt_of_comparison ha hb)

theorem binarySteps (h : g.Reads n) {op : BinaryOp} {r : Expr} (ih : ReadsSteps g n l) :
    ReadsSteps g n (.binary l op r) := by
  intro floor c m rest hf hready hc hr
  simp only [Expr.tokens, Expr.nodes, Expr.depth, Expr.compared, List.append_assoc,
    List.cons_append, Nat.max_le] at hc hready ⊢
  have hfop : floor ≤ op.tier.rank := hf
  obtain ⟨hgood, hr₁⟩ := (ready_cons rfl).1 hready
  obtain ⟨hl, hrr⟩ := ready_append.1 hr₁
  have hleft := h.operandSteps ih hfop hl hc
  have hrank : op.tier.rank < Tier.access.rank := by cases op <;> decide
  have hsteps : Builds (parensDepth (l.needsParens op .left) l.depth ≤ n + 1 ∧
      parensDepth (r.needsParens op .right) r.depth ≤ n)
      (Plain (.expr (.binary l op r) :: (l.nodes ++ r.nodes))) (startOperand g floor)
      (g.extend floor) c
      ⟨.binary l op r, (!l.needsParens op .left && l.compared) || op.associativity = .none⟩ rest
      (m + marks l.nodes + marks r.nodes) := by
    refine hleft.extend (by simp +contextual) (fun c₁ hc₁ => ?_) ?_
    · refine (h.extend_binary hfop compared_operand hrr (Expr.rank_lt_of_right hgood.settled) ?_ hc₁
        (hr.loose hrank)).imp Iff.rfl (by simp +contextual)
      rintro hb q rfl
      cases op <;> cases hb
    · simp only [List.length_cons, List.length_append]
      omega
  refine (hsteps.imp (by omega) id).marks ?_
  simp [Node.isMark, Nat.add_assoc]

theorem startsPredicate_is (ts : List Kind) : startsPredicate (.keyword .IS :: ts) :=
  .inl (by simp)

theorem startsPredicate_given {w : Keyword} (hw : w = .LIKE ∨ w = .BETWEEN ∨ w = .IN)
    (negated : Bool) (ts : List Kind) :
    startsPredicate (given negated (.keyword .NOT) ++ .keyword w :: ts) := by
  cases negated with
  | true => exact .inr ⟨rfl, by rcases hw with rfl | rfl | rfl <;> simp [given]⟩
  | false => exact .inl (by rcases hw with rfl | rfl | rfl <;> simp [given])

theorem cons_of_startsPredicate (h : startsPredicate ts) : ∃ k ts', ts = k :: ts' ∧
    k.joins = true ∧ k.ends (Tier.comparison.rank + 1) = true ∧ k ≠ .symbol .dot := by
  cases ts with
  | nil => simp [startsPredicate] at h
  | cons k ts =>
    refine ⟨k, ts, rfl, ?_⟩
    simp only [startsPredicate, Kind.next_cons, List.mem_cons, List.not_mem_nil, or_false] at h
    rcases h with (rfl | rfl | rfl | rfl) | ⟨rfl, -⟩ <;> exact ⟨rfl, rfl, by simp⟩

theorem predicateSteps (h : g.Reads n) (ih : ReadsSteps g n l) {F P : Prop} {i : Nat}
    (hf : floor ≤ Tier.comparison.rank) (hready : Ready m l.nodes)
    (hc : c.At (parensIf (l.isLooser .concat) l.tokens ++ ts) m)
    (hts : startsPredicate ts) (hl : rest.length < ts.length) (hp : P → Plain l.nodes)
    (he : ∀ c₁, c₁.At ts (m + marks l.nodes) → Gives F P (g.predicate l) c₁ e rest i) :
    Builds (parensDepth (l.isLooser .concat) l.depth ≤ n + 1 ∧ F) P (startOperand g floor)
      (g.extend floor) c ⟨e, true⟩ rest i := by
  obtain ⟨k, ts, rfl, hk, hends, hdot⟩ := cons_of_startsPredicate hts
  have hrank : l.isLooser .concat = false → Tier.comparison.rank < l.tier.rank := fun hb =>
    Nat.lt_of_lt_of_le (by decide) (Expr.rank_le_of_not_isLooser hb)
  have hcomp : (!l.isLooser .concat && l.compared) = false := by
    cases hb : l.isLooser .concat with
    | true => rfl
    | false => exact Expr.compared_eq_false (hrank hb)
  have hleft := h.leftSteps ih hk hready (by rintro hb q rfl; cases hb) hc
    (fun hb => Nat.le_trans hf (Nat.le_of_lt (hrank hb)))
    (fun hb _ => Kind.ends_mono hends (Nat.succ_le_succ (Nat.le_of_lt (hrank hb))))
    (fun _ hd => absurd hd hdot)
  refine hleft.extend hp (fun c₁ hc₁ => ?_) hl
  exact extend_predicate hf hcomp hc₁ hts (he c₁ hc₁)

theorem comparison_lt_access : Tier.comparison.rank < Tier.access.rank := by decide

theorem isNullSteps (h : g.Reads n) {negated : Bool} (ih : ReadsSteps g n l) :
    ReadsSteps g n (.isNull l negated) := by
  intro floor c m rest hf hready hc hr
  simp only [Expr.tokens, Expr.nodes, Expr.depth, List.append_assoc, List.cons_append,
    List.nil_append] at hc hready ⊢
  obtain ⟨-, hl⟩ := (ready_cons rfl).1 hready
  have hsteps := h.predicateSteps ih hf hl hc (startsPredicate_is _) (by simp; omega) id
    (fun c₁ hc₁ => (isNull hc₁).imp Iff.rfl fun _ => trivial)
  refine (hsteps.imp (by simp) (by simp +contextual)).marks ?_
  simp [Node.isMark]

theorem isDistinctSteps (h : g.Reads n) {negated : Bool} {r : Expr} (ih : ReadsSteps g n l) :
    ReadsSteps g n (.isDistinct l r negated) := by
  intro floor c m rest hf hready hc hr
  simp only [Expr.tokens, Expr.nodes, Expr.depth, List.append_assoc, List.cons_append,
    Nat.max_le] at hc hready ⊢
  obtain ⟨hl, hrr⟩ := ready_append.1 ((ready_cons rfl).1 hready).2
  have hsteps := h.predicateSteps ih hf hl hc (startsPredicate_is _) (by simp; omega)
    (P := Plain l.nodes ∧ Plain r.nodes) And.left
    (fun c₁ hc₁ => (h.isDistinct hrr hc₁ (hr.loose comparison_lt_access)).imp Iff.rfl And.right)
  refine (hsteps.imp (by omega) (by simp +contextual)).marks ?_
  simp [Node.isMark, Nat.add_assoc]

theorem likeSteps (h : g.Reads n) {negated : Bool} {p : Expr} {escape : Option Expr}
    (ih : ReadsSteps g n l) : ReadsSteps g n (.like l p escape negated) := by
  intro floor c m rest hf hready hc hr
  simp only [Expr.tokens, Expr.nodes, Expr.depth, List.append_assoc, List.cons_append,
    Nat.max_le] at hc hready ⊢
  obtain ⟨hl, hrr⟩ := ready_append.1 ((ready_cons rfl).1 hready).2
  have hsteps := h.predicateSteps ih hf hl hc (startsPredicate_given (.inl rfl) ..)
    (by simp; omega) (P := Plain l.nodes ∧ Plain (p.nodes ++ Expr.nodes? escape)) And.left
    (fun c₁ hc₁ => (h.like hrr hc₁ (hr.loose comparison_lt_access) (hr.escape (Nat.le_refl _))).imp
      Iff.rfl And.right)
  refine (hsteps.imp (by omega) (by simp +contextual)).marks ?_
  simp [Node.isMark, Nat.add_assoc]

theorem betweenSteps (h : g.Reads n) {negated : Bool} {low high : Expr}
    (ih : ReadsSteps g n l) : ReadsSteps g n (.between l low high negated) := by
  intro floor c m rest hf hready hc hr
  simp only [Expr.tokens, Expr.nodes, Expr.depth, List.append_assoc, List.cons_append,
    Nat.max_le] at hc hready ⊢
  obtain ⟨hl, hrr⟩ := ready_append.1 ((ready_cons rfl).1 hready).2
  have hsteps := h.predicateSteps ih hf hl hc (startsPredicate_given (.inr (.inl rfl)) ..)
    (by simp; omega) (P := Plain l.nodes ∧ Plain (low.nodes ++ high.nodes)) And.left
    (fun c₁ hc₁ => (h.between hrr hc₁ (hr.loose comparison_lt_access)).imp Iff.rfl And.right)
  refine (hsteps.imp (by omega) (by simp +contextual)).marks ?_
  simp [Node.isMark, Nat.add_assoc]

theorem inListSteps (h : g.Reads n) {negated : Bool} {es : List Expr} (ih : ReadsSteps g n l) :
    ReadsSteps g n (.inList l es negated) := by
  intro floor c m rest hf hready hc hr
  simp only [Expr.tokens, Expr.nodes, Expr.depth, List.append_assoc, List.cons_append,
    Nat.max_le] at hc hready ⊢
  obtain ⟨hgood, hr₁⟩ := (ready_cons rfl).1 hready
  obtain ⟨hl, hrr⟩ := ready_append.1 hr₁
  have hsteps := h.predicateSteps ih hf hl hc (startsPredicate_given (.inr (.inr rfl)) ..)
    (by simp; omega) (P := Plain l.nodes ∧ Plain (Expr.nodesAll es)) And.left
    (fun c₁ hc₁ => (h.inList hgood.sound.1 hgood.sound.2 hrr hc₁).imp Iff.rfl And.right)
  refine (hsteps.imp (by omega) (by simp +contextual)).marks ?_
  simp [Node.isMark, Nat.add_assoc]

theorem inQuerySteps (h : g.Reads n) {negated : Bool} {q : Query} (ih : ReadsSteps g n l) :
    ReadsSteps g n (.inQuery l q negated) := by
  intro floor c m rest hf hready hc hr
  simp only [Expr.tokens, Expr.nodes, Expr.depth, List.append_assoc, List.cons_append,
    Nat.max_le] at hc hready ⊢
  obtain ⟨hl, hq⟩ := ready_append.1 ((ready_cons rfl).1 hready).2
  have hsteps := h.predicateSteps ih hf hl hc (startsPredicate_given (.inr (.inr rfl)) ..)
    (by simp; omega) (F := q.depth ≤ n) (P := False) False.elim
    (fun c₁ hc₁ => .of_not id fun hd => h.inQuery hq hd hc₁)
  refine (hsteps.imp (by omega) (by simp [Node.plain])).marks ?_
  simp [Node.isMark, Nat.add_assoc]

theorem subscriptSteps (h : g.Reads n) {index : Expr} (ih : ReadsSteps g n l) :
    ReadsSteps g n (.subscript l index) := by
  intro floor c m rest hf hready hc hr
  simp only [Expr.tokens, Expr.nodes, Expr.depth, List.append_assoc, List.cons_append,
    List.nil_append, Nat.max_le] at hc hready ⊢
  obtain ⟨hl, hi⟩ := ready_append.1 ((ready_cons rfl).1 hready).2
  have hrank : l.isLooser .access = false → Tier.access.rank ≤ l.tier.rank :=
    Expr.rank_le_of_not_isLooser
  have hleft := h.leftSteps ih (k := .symbol .leftBracket) rfl hl (by rintro hb q rfl; cases hb) hc
    (fun hb => Nat.le_trans hf (hrank hb)) (fun hb hlt => absurd (hrank hb) (Nat.not_le.2 hlt))
    (by simp)
  have hcomp : (!l.isLooser .access && l.compared) = false := by
    cases hb : l.isLooser .access with
    | true => rfl
    | false => exact Expr.compared_eq_false (Nat.lt_of_lt_of_le (by decide) (hrank hb))
  have hsteps := hleft.extend (Q := Plain l.nodes ∧ Plain index.nodes) And.left
    (fun c₁ hc₁ => (h.extend_subscript hi hc₁).imp Iff.rfl And.right) (by simp; omega)
  rw [hcomp] at hsteps
  refine (hsteps.imp (by omega) (by simp +contextual)).marks ?_
  simp [Node.isMark, Nat.add_assoc]

theorem fieldSteps (h : g.Reads n) {x : Ident} (ih : ReadsSteps g n l) :
    ReadsSteps g n (.field l x) := by
  intro floor c m rest hf hready hc hr
  simp only [Expr.tokens, Expr.nodes, Expr.depth, List.append_assoc, List.cons_append,
    List.nil_append] at hc hready ⊢
  obtain ⟨hgood, hl⟩ := (ready_cons rfl).1 hready
  have hx : x.delimited = true := hgood.settled
  rw [Ident.token_eq hx] at hc
  have hb : ∀ {b : Bool}, (l.isColumn || l.isLooser .access) = b → b = false →
      l.isColumn = false ∧ Tier.access.rank ≤ l.tier.rank := by
    rintro _ rfl hb
    rw [Bool.or_eq_false_iff] at hb
    exact ⟨hb.1, Expr.rank_le_of_not_isLooser hb.2⟩
  have hleft := h.leftSteps ih (k := .symbol .dot) rfl hl (by rintro hb q rfl; cases hb) hc
    (fun hb' => Nat.le_trans hf (hb rfl hb').2)
    (fun hb' hlt => absurd (hb rfl hb').2 (Nat.not_le.2 hlt))
    (fun hb' _ => ⟨(hb rfl hb').1, hgood.steady⟩)
  have hcomp : (!(l.isColumn || l.isLooser .access) && l.compared) = false := by
    cases hb' : l.isColumn || l.isLooser .access with
    | true => rfl
    | false => exact Expr.compared_eq_false (Nat.lt_of_lt_of_le (by decide) (hb rfl hb').2)
  have hsteps := hleft.extend (G := True) id
    (fun c₁ hc₁ => .ok trivial (extend_field hc₁) hc₁.advance.advance)
    (by simp only [List.length_cons]; omega)
  rw [hcomp] at hsteps
  refine (hsteps.imp (by simp) (by simp +contextual)).marks ?_
  simp [Node.isMark]

theorem steps (h : g.Reads n) (e : Expr) : ReadsSteps g n e := by
  induction e using Expr.left_induction with
  | head e he =>
    intro floor c m rest hf hready hc hr
    rw [compared_of_head he]
    exact Builds.of_gives (h.head he hf hready hc hr).map
  | left e b l he ih =>
    cases e with
    | binary l' op r => cases he; exact h.binarySteps ih
    | isNull l' neg => cases he; exact h.isNullSteps ih
    | isDistinct l' r neg => cases he; exact h.isDistinctSteps ih
    | like l' p esc neg => cases he; exact h.likeSteps ih
    | between l' low high neg => cases he; exact h.betweenSteps ih
    | inList l' es neg => cases he; exact h.inListSteps ih
    | inQuery l' q neg => cases he; exact h.inQuerySteps ih
    | subscript l' index => cases he; exact h.subscriptSteps ih
    | field l' x => cases he; exact h.fieldSteps ih
    | _ => simp [Expr.leftOperand?] at he


theorem stops_of_ends (hf : floor ≤ e.tier.rank) (hr : (next rest).ends floor = true) :
    e.Stops rest := by
  have hr' := hr
  simp only [Kind.ends, Bool.and_eq_true, Bool.not_eq_true'] at hr'
  refine ⟨hr'.1, fun _ => Kind.ends_mono hr (Nat.le_succ_of_le hf), fun hle => ?_, fun hdot => ?_⟩
  · have hstop := hr'.2
    revert hstop
    generalize next rest = k
    intro hstop
    cases k with
    | ident x => simpa [Kind.continues, Nat.le_trans hf hle] using hstop
    | _ => rfl
  · rw [hdot] at hr'
    simp [Kind.continues] at hr'

/-- Expressions are read one level further up. -/
theorem expression (h : g.Reads n) (hready : Ready m e.nodes) (hf : b = false → floor ≤ e.tier.rank)
    (hq : b = true → ∀ q, e ≠ .subquery q) (hc : c.At (parensIf b e.tokens ++ rest) m)
    (hr : (next rest).ends floor = true) :
    Gives (parensDepth b e.depth ≤ n + 1) (Plain e.nodes) (g.expression floor) c e rest
      (m + marks e.nodes) := by
  have hsteps : ∃ compared, Builds (parensDepth b e.depth ≤ n + 1) (Plain e.nodes)
      (startOperand g floor) (g.extend floor) c ⟨e, compared⟩ rest (m + marks e.nodes) := by
    cases b with
    | false => exact ⟨_, h.steps e floor c m rest (hf rfl) hready hc (stops_of_ends (hf rfl) hr)⟩
    | true =>
      have happart : (next rest).attaches = false := by
        simp only [Kind.ends, Bool.and_eq_true, Bool.not_eq_true'] at hr
        exact hr.1
      have hw := h.wrapped floor hready (hq rfl) hc happart
      exact ⟨false, (Builds.of_gives hw.map).imp (by simp [parensDepth]) id⟩
  obtain ⟨compared, hsteps⟩ := hsteps
  exact (hsteps.finish fun c₁ hc₁ => extend_none hc₁ hr).map.of_eq (expression_eq c)

end Grammar.Reads

end Sql
