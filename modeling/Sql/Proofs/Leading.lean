import Sql.Parse.Expression
import Sql.Proofs.Names

/-! The first tokens of an expression, and the operand that it starts with. -/
namespace Sql

open Token (Kind)
open Token.Kind (next parens parensIf given joined commas commas_cons)

namespace Token.Kind

/-- Can an expression start with the token? -/
def opens : Kind → Bool
  | .integer _ | .decimal _ | .double _ | .string _ | .binary _ | .ident _ => true
  | .symbol .plus | .symbol .minus | .symbol .star | .symbol .question => true
  | .symbol .leftParen => true
  | .keyword .NULL | .keyword .TRUE | .keyword .FALSE | .keyword .CASE => true
  | .keyword .CAST | .keyword .EXISTS | .keyword .NOT => true
  | _ => false

/-- Can the token stand between an operand and the rest of an expression? -/
def joins : Kind → Bool
  | .symbol .leftBracket | .symbol .dot => true
  | .keyword .IS | .keyword .NOT | .keyword .LIKE | .keyword .BETWEEN | .keyword .IN => true
  | k => k.binaryOp?.isSome

theorem joins_token (op : BinaryOp) : op.token.joins = true := by cases op <;> rfl

theorem ne_of_opens {k k' : Kind} (h : k.opens = true) (h' : k'.opens = false) : k ≠ k' := by
  rintro rfl
  simp [h] at h'

theorem ne_of_joins {k k' : Kind} (h : k.joins = true) (h' : k'.joins = false) : k ≠ k' := by
  rintro rfl
  simp [h] at h'

theorem next_given (negated : Bool) {k : Kind} (ts : List Kind) (hk : k.joins = true) :
    ∃ k' ts', given negated (.keyword .NOT) ++ k :: ts = k' :: ts' ∧ k'.joins = true := by
  cases negated with
  | true => exact ⟨_, _, rfl, rfl⟩
  | false => exact ⟨_, _, rfl, hk⟩

end Token.Kind

open Token.Kind

namespace Expr

/-- The operand that the expression starts with, and whether it stands in parentheses. -/
def leftOperand? : Expr → Option (Bool × Expr)
  | .binary l op _ => some (l.needsParens op .left, l)
  | .isNull e _ | .isDistinct e _ _ | .like e _ _ _ | .between e _ _ _ =>
    some (e.isLooser .concat, e)
  | .inList e _ _ | .inQuery e _ _ => some (e.isLooser .concat, e)
  | .subscript b _ => some (b.isLooser .access, b)
  | .field b _ => some (b.isColumn || b.isLooser .access, b)
  | _ => none

variable {e l : Expr} {b : Bool}

theorem tokens_left (h : e.leftOperand? = some (b, l)) :
    ∃ k ts, e.tokens = parensIf b l.tokens ++ k :: ts ∧ k.joins = true := by
  cases e with
  | binary l op r =>
    cases h
    exact ⟨_, _, by rw [Expr.tokens], joins_token op⟩
  | isNull e n | isDistinct e r n =>
    cases h
    exact ⟨_, _, by rw [Expr.tokens], rfl⟩
  | like e p c n =>
    cases h
    obtain ⟨k, ts, ht, hk⟩ := next_given n _ (k := .keyword .LIKE) rfl
    exact ⟨k, ts, by rw [Expr.tokens, ← ht], hk⟩
  | between e lo hi n =>
    cases h
    obtain ⟨k, ts, ht, hk⟩ := next_given n _ (k := .keyword .BETWEEN) rfl
    exact ⟨k, ts, by rw [Expr.tokens, ← ht], hk⟩
  | inList e is n | inQuery e q n =>
    cases h
    obtain ⟨k, ts, ht, hk⟩ := next_given n _ (k := .keyword .IN) rfl
    exact ⟨k, ts, by rw [Expr.tokens, ← ht], hk⟩
  | subscript b i | field b x =>
    cases h
    exact ⟨_, _, by rw [Expr.tokens], rfl⟩
  | _ => simp [leftOperand?] at h

theorem nodes_left (h : e.leftOperand? = some (b, l)) :
    ∃ ns, e.nodes = .expr e :: (l.nodes ++ ns) := by
  cases e with
  | isNull e n | field e x => cases h; exact ⟨[], by simp [Expr.nodes]⟩
  | binary | isDistinct | like | between | inList | inQuery | subscript =>
    cases h
    exact ⟨_, by rw [Expr.nodes]⟩
  | _ => simp [leftOperand?] at h

theorem depth_left (h : e.leftOperand? = some (b, l)) : parensDepth b l.depth ≤ e.depth := by
  cases e with
  | isNull | field => cases h; exact Nat.le_of_eq (by rw [Expr.depth])
  | binary | isDistinct | like | between | inList | inQuery | subscript =>
    cases h
    rw [Expr.depth]
    exact Nat.le_max_left ..
  | _ => simp [leftOperand?] at h

theorem left_ne_subquery (h : e.leftOperand? = some (true, l)) (q : Query) : l ≠ .subquery q := by
  rintro rfl
  cases e with
  | binary l op r =>
    simp only [leftOperand?, Option.some.injEq, Prod.mk.injEq] at h
    obtain ⟨h, rfl⟩ := h
    cases op <;> cases h
  | isNull | isDistinct | like | between | inList | inQuery | subscript | field =>
    simp only [leftOperand?, Option.some.injEq, Prod.mk.injEq] at h
    obtain ⟨h, rfl⟩ := h
    cases h
  | _ => simp [leftOperand?] at h

/-- To show something of all expressions, go from the first operand to the whole. -/
theorem left_induction {motive : Expr → Prop} (head : ∀ e, e.leftOperand? = none → motive e)
    (left : ∀ e b l, e.leftOperand? = some (b, l) → motive l → motive e) (e : Expr) : motive e := by
  induction h : e.tokens.length using Nat.strongRecOn generalizing e with
  | _ size ih =>
    cases hl : e.leftOperand? with
    | none => exact head e hl
    | some p =>
      obtain ⟨b, l⟩ := p
      obtain ⟨k, ts, ht, -⟩ := tokens_left hl
      refine left e b l hl (ih l.tokens.length ?_ l rfl)
      have hle : l.tokens.length ≤ (parensIf b l.tokens).length := by
        unfold parensIf
        split
        · simp [parens]
          omega
        · exact Nat.le_refl _
      rw [← h, ht, List.length_append, List.length_cons]
      omega

end Expr

/-! ### The first token -/

theorem Name.tokens_row (n : Name) : ∃ (x : Ident) (xs : List Ident),
    n.tokens = x.token :: xs.flatMap fun y => [.symbol .dot, y.token] := by
  obtain ⟨x, xs, -, h⟩ := n.exists_foldl
  exact ⟨x, xs, by simp [tokens, h, joined, List.flatMap_map]⟩

theorem Name.tokens_cons (n : Name) :
    ∃ x ts, n.tokens = .ident x :: ts ∧ (ts = [] ∨ ∃ y ts', ts = .symbol .dot :: y :: ts') := by
  obtain ⟨x, xs, h⟩ := n.tokens_row
  refine ⟨.quoted x.text, _, h, ?_⟩
  cases xs with
  | nil => exact .inl rfl
  | cons y ys => exact .inr ⟨_, _, rfl⟩

theorem Name.callTokens_cons (n : Name) :
    ∃ x ts, n.callTokens = .ident x :: ts ∧ (ts = [] ∨ ∃ y ts', ts = .symbol .dot :: y :: ts') := by
  obtain ⟨x, xs, -, h⟩ := n.exists_foldl
  refine ⟨x, _, callTokens_eq h, ?_⟩
  cases xs with
  | nil => exact .inl rfl
  | cons y ys => exact .inr ⟨_, _, rfl⟩

theorem Call.tokens_cons (c : Call) : ∃ x ts, c.tokens = .ident x :: ts ∧
    (ts = [] ∨ ∃ k ts', ts = k :: ts' ∧ (k = .symbol .dot ∨ k = .symbol .leftParen)) := by
  obtain ⟨name, quantifier, args, order, filter, nulls, window⟩ := c
  obtain ⟨x, ts, h, hd⟩ := name.callTokens_cons
  rw [Call.tokens]
  split
  · refine ⟨x, ts, h, ?_⟩
    rcases hd with rfl | ⟨y, ts', rfl⟩
    · exact .inl rfl
    · exact .inr ⟨_, _, rfl, .inl rfl⟩
  · rw [h]
    refine ⟨x, _, rfl, .inr ?_⟩
    rcases hd with rfl | ⟨y, ts', rfl⟩
    · exact ⟨_, _, rfl, .inr rfl⟩
    · exact ⟨_, _, rfl, .inl rfl⟩

theorem Literal.tokens_cons (v : Literal) : ∃ k ts, v.tokens = k :: ts ∧ k.opens = true ∧
    (k.isIdent = true → next ts ≠ .symbol .comma ∧ next ts ≠ .symbol .rightParen ∧
      (next ts).isIdent = false) := by
  cases v with
  | boolean b => cases b <;> exact ⟨_, _, rfl, rfl, by simp⟩
  | double d =>
    rw [Literal.tokens]
    split
    · exact ⟨_, _, rfl, rfl, by simp [parens]⟩
    · exact ⟨_, _, rfl, rfl, by simp [isIdent]⟩
  | null | string => exact ⟨_, _, rfl, rfl, by simp⟩
  | integer | decimal | binary => exact ⟨_, _, rfl, rfl, by simp [isIdent]⟩

namespace Expr

/-- Which tokens come first, and what may stand behind a name that does. -/
theorem tokens_cons (e : Expr) : ∃ k ts, e.tokens = k :: ts ∧ k.opens = true ∧
    (k.isIdent = true → next ts ≠ .symbol .comma ∧ next ts ≠ .symbol .rightParen ∧
      (next ts).isIdent = false) := by
  induction e using left_induction with
  | left e b l h ih =>
    obtain ⟨k, ts, ht, hk⟩ := tokens_left h
    rw [ht]
    cases b with
    | true => exact ⟨_, _, rfl, rfl, by simp⟩
    | false =>
      obtain ⟨k', ts', ht', hk', hi⟩ := ih
      refine ⟨k', ts' ++ k :: ts, by simp [parensIf, ht'], hk', fun h => ?_⟩
      cases ts' with
      | cons => exact hi h
      | nil =>
        refine ⟨ne_of_joins hk rfl, ne_of_joins hk rfl, ?_⟩
        cases k with
        | ident => simp [joins, binaryOp?] at hk
        | _ => rfl
  | head e h =>
    cases e with
    | literal v => exact v.tokens_cons
    | column n =>
      obtain ⟨x, ts, ht, hd⟩ := n.tokens_cons
      rw [Expr.tokens, ht]
      refine ⟨_, _, rfl, rfl, fun _ => ?_⟩
      rcases hd with rfl | ⟨y, ts', rfl⟩ <;> simp
    | star r =>
      cases r with
      | none => exact ⟨_, _, by rw [Expr.tokens, Name.starTokens], rfl, by simp⟩
      | some n =>
        obtain ⟨x, ts, ht, hd⟩ := n.tokens_cons
        rw [Expr.tokens, Name.starTokens, ht]
        refine ⟨_, _, rfl, rfl, fun _ => ?_⟩
        rcases hd with rfl | ⟨y, ts', rfl⟩ <;> simp
    | call c =>
      obtain ⟨x, ts, ht, hd⟩ := c.tokens_cons
      rw [Expr.tokens, ht]
      refine ⟨_, _, rfl, rfl, fun _ => ?_⟩
      rcases hd with rfl | ⟨k, ts', rfl, rfl | rfl⟩ <;> simp
    | unary op e =>
      cases op <;> exact ⟨_, _, by rw [Expr.tokens]; try simp, rfl, by simp [UnaryOp.token]⟩
    | cast e t s =>
      cases s <;> exact ⟨_, _, by rw [Expr.tokens], rfl, by simp [parens]⟩
    | row es =>
      rw [Expr.tokens]
      by_cases h : es.length < 2
      · exact ⟨_, _, by simp only [h, decide_true]; rfl, rfl, by simp [parens]⟩
      · exact ⟨_, _, by simp only [h, decide_false]; rfl, rfl, by simp⟩
    | lambda ps body =>
      rw [Expr.tokens]
      rcases ps with - | ⟨x, - | ⟨y, ps⟩⟩
      · exact ⟨_, _, rfl, rfl, by simp⟩
      · exact ⟨_, _, rfl, rfl, by simp⟩
      · exact ⟨_, _, rfl, rfl, by simp⟩
    | interval t n s f =>
      cases n <;> exact ⟨_, _, by rw [Expr.tokens], rfl, by simp [given]⟩
    | parameter | existsQuery | subquery | caseWhen | array | typed =>
      exact ⟨_, _, by rw [Expr.tokens]; try rfl, rfl, by simp⟩
    | _ => simp [leftOperand?] at h

end Expr

/-! ### Looking ahead -/

namespace Token.Kind

/-- Do parentheses open before the start of a query? -/
def startsQuery : List Kind → Bool
  | .symbol .leftParen :: ts => startsQuery ts
  | .keyword word :: _ => [Keyword.SELECT, .WITH, .VALUES, .TABLE].contains word
  | _ => false

/-- Do the tokens after an opening parenthesis list the parameters of a lambda? -/
def listsParameters : List Kind → Bool
  | .ident _ :: .symbol .comma :: ts => listsParameters ts
  | .ident _ :: .symbol .rightParen :: .symbol .arrow :: _ => true
  | _ => false

theorem startsQuery_of_opens {k : Kind} {ts : List Kind} (h : k.opens = true)
    (hp : k ≠ .symbol .leftParen) : startsQuery (k :: ts) = false := by
  cases k with
  | keyword w => cases w <;> first | rfl | cases h
  | symbol s => cases s <;> first | rfl | exact absurd rfl hp
  | _ => rfl

theorem listsParameters_cons {k : Kind} {ts : List Kind}
    (h : k.isIdent = true → next ts ≠ .symbol .comma ∧ next ts ≠ .symbol .rightParen) :
    listsParameters (k :: ts) = false := by
  unfold listsParameters
  split
  · rename_i heq
    simp only [List.cons.injEq] at heq
    obtain ⟨rfl, rfl⟩ := heq
    exact absurd rfl (h rfl).1
  · rename_i heq
    simp only [List.cons.injEq] at heq
    obtain ⟨rfl, rfl⟩ := heq
    exact absurd rfl (h rfl).2
  · rfl

theorem namesStar_append {ts rest : List Kind} (h : namesStar ts = false)
    (hd : next rest ≠ .symbol .dot) (hs : next rest ≠ .symbol .star)
    (hi : (next rest).isIdent = false) : namesStar (ts ++ rest) = false := by
  fun_induction namesStar ts with
  | case1 => cases h
  | case2 x ts hts ih =>
    rw [List.cons_append, List.cons_append, namesStar]
    · exact ih h
    · intro ts' heq
      cases ts with
      | nil => simp [show rest = _ from heq] at hs
      | cons k ts => exact hts ts (by simp_all)
  | case3 ts h₁ h₂ =>
    obtain _ | ⟨k, _ | ⟨k', ts⟩⟩ := ts
    · rw [List.nil_append, namesStar]
      · rintro x ts' rfl
        simp at hi
      · rintro x ts' rfl
        simp at hi
    · rw [List.cons_append, List.nil_append, namesStar]
      · rintro x ts' heq
        simp [(List.cons.inj heq).2] at hd
      · rintro x ts' heq
        simp [(List.cons.inj heq).2] at hd
    · rw [List.cons_append, List.cons_append, namesStar]
      · rintro x ts' heq
        simp only [List.cons.injEq] at heq
        exact h₂ x ts (by simp [heq.1, heq.2.1])
      · rintro x ts' heq
        simp only [List.cons.injEq] at heq
        exact h₂ x ts (by simp [heq.1, heq.2.1])

end Token.Kind

namespace Parser

variable {c : Cursor} {ts : List Kind} {m : Nat}

theorem startsQuery_eq (ts : List Token) :
    startsQuery ts = Kind.startsQuery (ts.map (·.kind)) := by
  fun_induction startsQuery ts with
  | case1 | case2 => simp_all [Kind.startsQuery]
  | case3 ts h₁ h₂ =>
    unfold Kind.startsQuery
    split
    · rename_i heq
      obtain ⟨⟨_, span⟩, ts, rfl, rfl, rfl⟩ := List.map_eq_cons_iff.1 heq
      exact absurd rfl (h₁ _ _)
    · rename_i heq
      obtain ⟨⟨_, span⟩, ts, rfl, rfl, rfl⟩ := List.map_eq_cons_iff.1 heq
      exact absurd rfl (h₂ _ _ _)
    · rfl

theorem listsParameters_eq (ts : List Token) :
    listsParameters ts = Kind.listsParameters (ts.map (·.kind)) := by
  fun_induction listsParameters ts with
  | case1 | case2 => simp_all [Kind.listsParameters]
  | case3 ts h₁ h₂ =>
    unfold Kind.listsParameters
    split
    · rename_i heq
      obtain ⟨⟨_, _⟩, _, rfl, rfl, heq₁⟩ := List.map_eq_cons_iff.1 heq
      obtain ⟨⟨_, _⟩, _, rfl, rfl, rfl⟩ := List.map_eq_cons_iff.1 heq₁
      exact absurd rfl (h₁ _ _ _ _)
    · rename_i heq
      obtain ⟨⟨_, _⟩, _, rfl, rfl, heq₁⟩ := List.map_eq_cons_iff.1 heq
      obtain ⟨⟨_, _⟩, _, rfl, rfl, heq₂⟩ := List.map_eq_cons_iff.1 heq₁
      obtain ⟨⟨_, _⟩, _, rfl, rfl, rfl⟩ := List.map_eq_cons_iff.1 heq₂
      exact absurd rfl (h₂ _ _ _ _ _)
    · rfl

theorem namesStar_eq (ts : List Token) : namesStar ts = Kind.namesStar (ts.map (·.kind)) := by
  fun_induction namesStar ts with
  | case1 => simp_all [Kind.namesStar]
  | case2 x s₁ s₂ ts h ih =>
    rw [ih, List.map_cons, List.map_cons, Kind.namesStar]
    intro ts' heq
    obtain ⟨⟨_, span⟩, ts, rfl, rfl, rfl⟩ := List.map_eq_cons_iff.1 heq
    exact h _ _ rfl
  | case3 ts _ h =>
    rw [Kind.namesStar]
    · intro x ts' heq
      obtain ⟨⟨_, _⟩, _, rfl, rfl, heq₁⟩ := List.map_eq_cons_iff.1 heq
      obtain ⟨⟨_, _⟩, _, rfl, rfl, -⟩ := List.map_eq_cons_iff.1 heq₁
      exact h _ _ _ _ rfl
    · intro x ts' heq
      obtain ⟨⟨_, _⟩, _, rfl, rfl, heq₁⟩ := List.map_eq_cons_iff.1 heq
      obtain ⟨⟨_, _⟩, _, rfl, rfl, -⟩ := List.map_eq_cons_iff.1 heq₁
      exact h _ _ _ _ rfl

theorem queryAhead_apply (hc : c.At ts m) :
    queryAhead c = .ok (next ts == .symbol .leftParen && Kind.startsQuery ts, c) := by
  have h : queryAhead c = .ok (c.kind == .symbol .leftParen && startsQuery c.ahead, c) := rfl
  rw [h, hc.kind, startsQuery_eq, ← hc.kinds]
  rfl

theorem parametersAhead_apply (hc : c.At ts m) :
    parametersAhead c = .ok (next ts == .symbol .leftParen && Kind.listsParameters ts.tail, c) := by
  have h : parametersAhead c =
    .ok (c.kind == .symbol .leftParen && listsParameters c.ahead.tail, c) := rfl
  rw [h, hc.kind, listsParameters_eq, ← hc.kinds, List.map_tail]
  rfl

theorem starAhead_apply (hc : c.At ts m) : starAhead c = .ok (Kind.namesStar ts, c) := by
  have h : starAhead c = .ok (namesStar c.ahead, c) := rfl
  rw [h, namesStar_eq, ← hc.kinds]
  rfl

end Parser

namespace Expr

variable {e : Expr} {es : List Expr} {rest : List Kind}

/-- Expressions in parentheses are not mistaken for parameters. -/
theorem listsParameters_commas (hne : es ≠ []) (hr : next rest ≠ .symbol .arrow) :
    listsParameters (commas (es.map tokens) ++ .symbol .rightParen :: rest) = false := by
  induction es with
  | nil => exact absurd rfl hne
  | cons e es ih =>
    obtain ⟨k, ts, ht, -, hi⟩ := e.tokens_cons
    rw [List.map_cons, commas_cons, ht, List.cons_append, List.cons_append]
    cases ts with
    | cons k' ts' => exact listsParameters_cons fun h => ⟨(hi h).1, (hi h).2.1⟩
    | nil =>
      cases k with
      | ident x =>
        cases es with
        | nil =>
          unfold listsParameters
          split
          · simp_all
          · simp_all
          · rfl
        | cons e' es' =>
          have := ih (by simp)
          rw [List.map_cons, commas_cons] at this
          simpa [listsParameters] using this
      | _ => exact listsParameters_cons (by simp [isIdent])

theorem listsParameters_tokens (hr : next rest ≠ .symbol .arrow) :
    listsParameters (e.tokens ++ .symbol .rightParen :: rest) = false := by
  have := listsParameters_commas (List.cons_ne_nil e []) hr
  simpa [joined] using this

/-- Only three kinds of expressions start with a parenthesis of their own. -/
theorem cases_of_paren {ts : List Kind} (h : e.leftOperand? = none)
    (ht : e.tokens = .symbol .leftParen :: ts) :
    (∃ q, e = .subquery q) ∨ (∃ x y es, e = .row (x :: y :: es)) ∨
      ∃ ps body, e = .lambda ps body ∧ ps.length ≠ 1 := by
  cases e with
  | subquery q => exact .inl ⟨q, rfl⟩
  | row es =>
    obtain _ | ⟨x, _ | ⟨y, es⟩⟩ := es
    · simp [Expr.tokens, given] at ht
    · simp [Expr.tokens, given] at ht
    · exact .inr (.inl ⟨x, y, es, rfl⟩)
  | lambda ps body =>
    obtain _ | ⟨x, _ | ⟨y, ps⟩⟩ := ps
    · exact .inr (.inr ⟨_, body, rfl, by simp⟩)
    · simp [Expr.tokens, Ident.paramTokens, Ident.token] at ht
    · exact .inr (.inr ⟨_, body, rfl, by simp⟩)
  | literal v =>
    obtain ⟨k, ts', ht', -, -⟩ := v.tokens_cons
    cases v with
    | boolean b => cases b <;> simp [Expr.tokens, Literal.tokens] at ht
    | double d =>
      simp only [Expr.tokens, Literal.tokens] at ht
      split at ht <;> simp at ht
    | _ => simp [Expr.tokens, Literal.tokens] at ht
  | column n =>
    obtain ⟨x, ts', ht', -⟩ := n.tokens_cons
    simp [Expr.tokens, ht'] at ht
  | star r =>
    cases r with
    | none => simp [Expr.tokens, Name.starTokens] at ht
    | some n =>
      obtain ⟨x, ts', ht', -⟩ := n.tokens_cons
      simp [Expr.tokens, Name.starTokens, ht'] at ht
  | call c =>
    obtain ⟨x, ts', ht', -⟩ := c.tokens_cons
    simp [Expr.tokens, ht'] at ht
  | unary op e => cases op <;> simp [Expr.tokens, UnaryOp.token] at ht
  | cast e t s => cases s <;> simp [Expr.tokens] at ht
  | parameter | existsQuery | caseWhen | array | typed | interval => simp [Expr.tokens] at ht
  | _ => simp [leftOperand?] at h

/-- An expression without subqueries does not start like a query. -/
theorem startsQuery_tokens (h : Plain e.nodes) : startsQuery (e.tokens ++ rest) = false := by
  induction hs : e.tokens.length using Nat.strongRecOn generalizing e rest with
  | _ size ih =>
    cases hl : e.leftOperand? with
    | some p =>
      obtain ⟨b, l⟩ := p
      obtain ⟨k, ts, ht, -⟩ := tokens_left hl
      obtain ⟨ns, hn⟩ := nodes_left hl
      rw [hn, plain_cons, plain_append] at h
      rw [ht, List.append_assoc]
      cases b with
      | true =>
        have hlt : l.tokens.length < size := by
          rw [← hs, ht]
          simp only [parensIf, if_true, parens, List.cons_append, List.length_cons,
            List.length_append]
          omega
        simpa [parensIf, parens, startsQuery] using ih _ hlt h.2.1 rfl
      | false =>
        have hlt : l.tokens.length < size := by
          rw [← hs, ht]
          simp [parensIf]
        exact ih _ hlt h.2.1 rfl
    | none =>
      obtain ⟨k, ts, ht, hk, -⟩ := e.tokens_cons
      by_cases hp : k = .symbol .leftParen
      · subst hp
        obtain ⟨q, rfl⟩ | ⟨x, y, es, rfl⟩ | ⟨ps, body, rfl, hps⟩ := cases_of_paren hl ht
        · simp [Expr.nodes, Node.plain] at h
        · have hx : (Expr.row (x :: y :: es)).tokens = .symbol .leftParen :: (x.tokens ++
              Kind.symbol .comma ::
                (commas (Expr.tokenLists (y :: es)) ++ [Kind.symbol .rightParen])) := by
            simp [Expr.tokens, Expr.tokenLists, given, parens, commas_cons]
          have hlt : x.tokens.length < size := by
            rw [← hs, hx]
            simp only [List.length_cons, List.length_append]
            omega
          simp only [Expr.nodes, Expr.nodesAll, plain_cons, plain_append] at h
          rw [hx, List.cons_append, startsQuery, List.append_assoc]
          exact ih _ hlt h.2.1 rfl
        · rw [Expr.tokens]
          rcases ps with - | ⟨x, - | ⟨y, ps⟩⟩
          · rfl
          · exact absurd rfl hps
          · rfl
      · rw [ht, List.cons_append]
        exact startsQuery_of_opens hk hp

end Expr

/-- A query starts like one. -/
theorem Query.startsQuery_tokens (q : Query) (rest : List Kind) :
    startsQuery (q.tokens ++ rest) = true := by
  induction hs : q.tokens.length using Nat.strongRecOn generalizing q rest with
  | _ size ih =>
    obtain ⟨bindings, body, order, offset, limit⟩ := q
    rw [Query.tokens] at hs ⊢
    cases bindings with
    | some w => rw [With.tokens?]; rfl
    | none =>
      rw [With.tokens?, List.nil_append] at hs ⊢
      rw [List.append_assoc]
      cases body with
      | select s =>
        obtain ⟨quantifier, items, sources, filter, group, having, windows⟩ := s
        rw [Body.tokens, Select.tokens]
        rfl
      | table n => rw [Body.tokens]; rfl
      | values rows => rw [Body.tokens]; rfl
      | setOperation o =>
        obtain ⟨operator, all, left, right⟩ := o
        rw [Body.tokens, SetOperation.tokens] at hs ⊢
        rw [List.append_assoc]
        cases hp : SetOperation.needsParens operator .left left with
        | false =>
          rw [hp] at hs
          refine ih _ ?_ left _ rfl
          simp [parensIf] at hs
          omega
        | true =>
          rw [hp] at hs
          simp only [parensIf, if_true, parens, List.cons_append, List.append_assoc, startsQuery]
          refine ih _ ?_ left _ rfl
          simp [parensIf, parens] at hs
          omega
      | nested q =>
        rw [Body.tokens] at hs ⊢
        simp only [parens, List.cons_append, List.append_assoc, startsQuery]
        refine ih _ ?_ q _ rfl
        simp [parens] at hs
        omega

theorem Token.Kind.listsParameters_of_startsQuery {ts : List Kind} (h : startsQuery ts = true) :
    listsParameters ts = false := by
  cases ts with
  | nil => rfl
  | cons k ts =>
    refine listsParameters_cons fun hk => ?_
    cases k with
    | ident => simp [startsQuery] at h
    | _ => cases hk

end Sql
