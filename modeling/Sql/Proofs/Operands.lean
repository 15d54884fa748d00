import Sql.Proofs.Calls

/-! Reading the operands that expressions start with. -/
namespace Sql

open Sql.Parser
open Token (Kind)
open Token.Kind (next parensIf given commas)

/-- What may stand behind an operand at the start of an expression. -/
structure Expr.Stops (e : Expr) (rest : List Kind) : Prop where
  apart : (next rest).attaches = false
  loose : e.tier.rank < Tier.access.rank → (next rest).ends (e.tier.rank + 1) = true
  escape : e.tier.rank ≤ Tier.comparison.rank → (next rest).isWord "ESCAPE" = false
  dot : next rest = .symbol .dot → e.isColumn = false ∧ e.takesField = true

theorem Token.Kind.ne_of_attaches {k k' : Kind} (h : k.attaches = false)
    (h' : k'.attaches = true) : k ≠ k' := by
  rintro rfl
  simp [h'] at h

theorem isString_of_attaches {k : Kind} (h : k.attaches = false) : k.isString = false := by
  cases k with
  | string => cases h
  | _ => rfl

theorem isWord_of_attaches {k : Kind} (h : k.attaches = false) {w : String}
    (hw : w ∈ ["FILTER", "OVER", "IGNORE", "RESPECT", "TO"]) : k.isWord w = false := by
  unfold Kind.attaches at h
  split at h
  · cases h
  · cases h
  · cases h
  · simpa using List.any_eq_false.1 h w hw

theorem Call.tailTokens_cons (c : Call) : ∃ ts, c.tailTokens = .symbol .leftParen :: ts :=
  ⟨_, rfl⟩

theorem nameEnds_of_ne {rest : List Kind} (h : next rest ≠ .symbol .dot) :
    Token.Kind.NameEnds rest :=
  fun h' => absurd h' h

theorem Call.eq_plain_of_isBare {call : Call} (h : call.isBare = true) :
    call = .plain call.name [] ∧ call.name.isBare = true := by
  obtain ⟨name, quantifier, args, order, filter, nulls, window⟩ := call
  simp only [Call.isBare, Bool.and_eq_true, List.isEmpty_iff, Option.isNone_iff_eq_none] at h
  obtain ⟨⟨⟨⟨⟨⟨rfl, rfl⟩, rfl⟩, rfl⟩, rfl⟩, rfl⟩, hn⟩ := h
  exact ⟨rfl, hn⟩

theorem Call.tokens_of_isBare {call : Call} (h : call.isBare = true) :
    call.tokens = call.name.callTokens := by
  obtain ⟨name, quantifier, args, order, filter, nulls, window⟩ := call
  rw [Call.tokens]
  simp only [h, if_true]

theorem Name.callTokens_of_isBare {n : Name} (h : n.isBare = true) :
    n.callTokens = [.ident n.base] ∧ n.base.delimited = false := by
  simp only [Name.isBare, Bool.and_eq_true, List.isEmpty_iff, Bool.not_eq_true'] at h
  simp [Name.callTokens, Name.parts, h.1.1, h.1.2, Kind.joined]

/-- Bare functions are none of the words that start a construct of their own. -/
theorem toUpper_ne_of_isBare {n : Name} (h : n.isBare = true) {w : String}
    (hw : w.length < 9) : n.base.text.toUpper ≠ w := by
  have hb := (Bool.and_eq_true ..).mp h
  simp only [isBareFunction, bareFunctions, List.contains_iff_mem, List.mem_cons,
    List.not_mem_nil, or_false] at hb
  have hlen : n.base.text.toUpper.length = n.base.text.toLower.length := by
    simp [String.toUpper, String.toLower]
  rintro rfl
  rw [hlen] at hw
  rcases hb.2 with h | h | h | h | h <;> rw [h] at hw <;> revert hw <;> decide

namespace Grammar.Reads

variable {g : Grammar} {n m floor : Nat} {c : Cursor} {rest ts : List Kind} {x : Ident}

theorem signed_eq (hc : c.At ts m) (hk : (next ts).unaryOp? = none) :
    g.signed floor c = g.primary floor c := by
  unfold signed
  rw [bind_ok (peek_apply hc), hk]

theorem primary_ident (hc : c.At (.ident x :: ts) m) :
    g.primary floor c = g.fromIdent floor x c := by
  unfold primary
  rw [bind_ok (peek_apply hc)]
  rfl

theorem fromIdent_eq (hc : c.At (.ident x :: ts) m) (ha : next ts ≠ .symbol .arrow) :
    g.fromIdent floor x c = if x.delimited then g.named c else g.fromWord x.text c := by
  unfold fromIdent
  rw [bind_ok (peekAt_apply hc 1), Kind.getD_one, beq_false_of_ne ha, Bool.and_false]
  simp only [Bool.false_eq_true, if_false]
  split <;> rfl

theorem signed_quoted (hc : c.At (.ident x :: ts) m) (hx : x.delimited = true)
    (ha : next ts ≠ .symbol .arrow) : g.signed floor c = g.named c := by
  rw [signed_eq hc rfl, primary_ident hc, fromIdent_eq hc ha, if_pos hx]

theorem named_of_name {name : Name} (hc : c.At (name.callTokens ++ rest) m)
    (hr : Kind.NameEnds rest) : ∃ c', c'.At rest m ∧ g.named c = (do
      if ← check (.symbol .leftParen) then g.call name
      else if (← check (.symbol .dot)) && (← peekAt 1) == .symbol .star then
        advance
        advance
        return .star (some name)
      else if name.isBare then return .call (.plain name [])
      else return .column name : Parser Expr) c' := by
  obtain ⟨c', h, hc'⟩ := name_apply hc hr
  exact ⟨c', hc', by unfold named; rw [bind_ok h]⟩

/-- A name that nothing follows is a column or a bare call. -/
theorem named_end {name : Name} (hc : c.At (name.callTokens ++ rest) m)
    (hp : next rest ≠ .symbol .leftParen) (hd : next rest ≠ .symbol .dot) :
    ∃ c', c'.At rest m ∧ g.named c =
      .ok (if name.isBare then .call (.plain name []) else .column name, c') := by
  obtain ⟨c', hc', he⟩ := named_of_name (g := g) hc (nameEnds_of_ne hd)
  refine ⟨c', hc', he.trans ?_⟩
  rw [bind_ok (check_apply hc' _), beq_false_of_ne hp]
  simp only [Bool.false_eq_true, if_false]
  rw [bind_ok (check_apply hc' _), bind_ok (peekAt_apply hc' 1), beq_false_of_ne hd]
  simp only [Bool.false_and, Bool.false_eq_true, if_false]
  split <;> rfl

theorem named_star {name : Name}
    (hc : c.At (name.callTokens ++ .symbol .dot :: .symbol .star :: rest) m) :
    ∃ c', c'.At rest m ∧ g.named c = .ok (.star (some name), c') := by
  obtain ⟨c', hc', he⟩ := named_of_name (g := g) hc (fun _ => rfl)
  refine ⟨_, hc'.advance.advance, he.trans ?_⟩
  rw [bind_ok (check_apply hc' _)]
  simp only [Kind.next_cons]
  change (do
    if (← check (.symbol .dot)) && (← peekAt 1) == .symbol .star then _ else _ : Parser Expr) c' = _
  rw [bind_ok (check_apply hc' _), bind_ok (peekAt_apply hc' 1)]
  rfl

theorem named_call {name : Name} (hc : c.At (name.callTokens ++ .symbol .leftParen :: rest) m) :
    ∃ c', c'.At (.symbol .leftParen :: rest) m ∧ g.named c = g.call name c' := by
  obtain ⟨c', hc', he⟩ := named_of_name (g := g) hc (nameEnds_of_ne (by simp))
  refine ⟨_, hc', he.trans ?_⟩
  rw [bind_ok (check_apply hc' _)]
  rfl

/-! ### Words -/

/-- Is an interval literal ahead? -/
def startsInterval (ts : List Kind) : Bool :=
  match ts.getD 1 .endOfInput with
  | .string _ => true
  | .symbol .minus | .symbol .plus => (ts.getD 2 .endOfInput).isString
  | _ => false

theorem intervalAhead_apply (hc : c.At ts m) : intervalAhead c = .ok (startsInterval ts, c) := by
  unfold intervalAhead startsInterval
  have hp := peekAt_apply hc 2
  rw [bind_ok (peekAt_apply hc 1)]
  generalize ts.getD 1 .endOfInput = k
  cases k with
  | symbol s => cases s <;> first | rfl | exact bind_ok hp
  | _ => rfl

/-- A word that starts no construct of its own is a name. -/
theorem fromWord_eq (hc : c.At (.ident x :: ts) m)
    (hi : x.text.toUpper = "INTERVAL" → startsInterval (.ident x :: ts) = false)
    (ha : x.text.toUpper = "ARRAY" → next ts ≠ .symbol .leftBracket)
    (hp : x.text.toUpper = "ROW" ∨ x.text.toUpper = "TRY_CAST" → next ts ≠ .symbol .leftParen)
    (hs : (next ts).isString = false) : g.fromWord x.text c = g.named c := by
  have h₁ : (x.text.toUpper == "INTERVAL" && startsInterval (.ident x :: ts)) = false := by
    simpa using hi
  have h₂ : (x.text.toUpper == "ARRAY" && next ts == .symbol .leftBracket) = false := by
    simpa using ha
  have h₃ : (x.text.toUpper == "ROW" && next ts == .symbol .leftParen) = false := by
    simpa using fun h => hp (.inl h)
  have h₄ : (x.text.toUpper == "TRY_CAST" && next ts == .symbol .leftParen) = false := by
    simpa using fun h => hp (.inr h)
  unfold fromWord
  rw [bind_ok (peekAt_apply hc 1), bind_ok (intervalAhead_apply hc), Kind.getD_one]
  simp only [h₁, h₂, h₃, h₄, Bool.false_eq_true, if_false]
  revert hs
  generalize next ts = k
  intro hs
  cases k with
  | string => cases hs
  | _ => rfl

/-- A name before a point or a parenthesis. -/
theorem signed_name (hc : c.At (.ident x :: ts) m)
    (hn : next ts = .symbol .dot ∨ (next ts = .symbol .leftParen ∧ x.opensConstruct = false)) :
    g.signed floor c = g.named c := by
  have ha : next ts ≠ .symbol .arrow := by rcases hn with hn | ⟨hn, -⟩ <;> simp [hn]
  rw [signed_eq hc rfl, primary_ident hc, fromIdent_eq hc ha]
  cases hx : x.delimited with
  | true => rfl
  | false =>
    simp only [Bool.false_eq_true, if_false]
    refine fromWord_eq hc ?_ ?_ ?_ ?_
    · intro _
      rcases hn with hn | ⟨hn, -⟩ <;> simp only [startsInterval, Kind.getD_one, hn]
    · rcases hn with hn | ⟨hn, -⟩ <;> simp [hn]
    · rintro h
      rcases hn with hn | ⟨hn, ho⟩
      · simp [hn]
      · simp only [Ident.opensConstruct, hx, Bool.not_false, Bool.true_and, Bool.or_eq_false_iff,
          beq_eq_false_iff_ne] at ho
        rcases h with h | h
        · exact absurd h ho.1
        · exact absurd h ho.2
    · rcases hn with hn | ⟨hn, -⟩ <;> simp [hn, Kind.isString]

/-! ### Parentheses -/

theorem parens_error {α : Type} {p : Parser α} (hc : c.At (.symbol .leftParen :: ts) m)
    (h : ∃ e, (do let _ ← p; expectSymbol .rightParen) c.advance = .error e) :
    ∃ e, parens p c = .error e := by
  obtain ⟨e, h⟩ := h
  refine ⟨e, ?_⟩
  unfold parens between
  rw [bind_ok (expectSymbol_of_eq hc)]
  cases hp : p c.advance with
  | error e' =>
    rw [bind_error hp] at h ⊢
    cases h
    rfl
  | ok r =>
    rw [bind_ok hp] at h ⊢
    exact bind_error h

/-- What a parenthesis opens is grouped if it is neither a list of parameters nor a query. -/
theorem parenthesized_of_grouped {F P : Prop} {e : Expr} {k : Nat}
    (hc : c.At (.symbol .leftParen :: ts) m) (hlist : Kind.listsParameters ts = false)
    (hstray : F → ∃ e, g.parenQuery c = .error e) (hplain : P → Kind.startsQuery ts = false)
    (hg : Gives F P g.grouped c e rest k) :
    Gives F P (g.parenthesized floor) c e rest k := by
  unfold parenthesized
  refine .step (parametersAhead_apply hc) ?_
  simp only [List.tail_cons, hlist, Bool.and_false, Bool.false_eq_true, if_false]
  refine .step (queryAhead_apply hc) ?_
  simp only [Kind.next_cons, beq_self_eq_true, Bool.true_and]
  cases hs : Kind.startsQuery ts with
  | false =>
    simp only [Kind.startsQuery, hs, Bool.false_eq_true, if_false]
    exact hg
  | true =>
    simp only [Kind.startsQuery, hs, if_true]
    refine .of_not (fun hp => by simp [hplain hp] at hs) fun hf => ?_
    obtain ⟨e', he⟩ := hstray hf
    obtain ⟨c', h', hc'⟩ := hg.1 hf
    exact ⟨c', by rw [bind_ok (attempt_error he)]; exact orFailWith_ok h', hc'⟩

theorem primary_paren (hc : c.At (.symbol .leftParen :: ts) m) :
    g.signed floor c = g.parenthesized floor c := by
  rw [signed_eq hc rfl]
  unfold primary
  rw [bind_ok (peek_apply hc)]
  rfl

/-- An operand in parentheses. -/
theorem wrapped (h : g.Reads n) (floor : Nat) {e : Expr} (hready : Ready m e.nodes)
    (he : ∀ q, e ≠ .subquery q)
    (hc : c.At (Kind.parens e.tokens ++ rest) m) (hr : (next rest).attaches = false) :
    Gives (e.depth ≤ n) (Plain e.nodes) (g.signed floor) c e rest (m + marks e.nodes) := by
  have hc₁ : c.At (.symbol .leftParen :: (e.tokens ++ .symbol .rightParen :: rest)) m := by
    simpa [Kind.parens] using hc
  refine .of_eq (primary_paren hc₁) ?_
  refine parenthesized_of_grouped hc₁ ?_ ?_ (fun hp => Expr.startsQuery_tokens hp) ?_
  · exact Expr.listsParameters_tokens (Kind.ne_of_attaches hr rfl)
  · intro hd
    exact parens_error hc₁ (h.strayExpr e _ m _ rest hready hd hc₁.advance (.inr (.inr ⟨rfl, he⟩)))
  · unfold grouped
    refine parens_gives hc fun c₁ hc₁ => (h.expr hready hc₁ rfl).last fun c₂ hc₂ => ⟨c₂, ?_, hc₂⟩
    rw [eatSymbol, bind_ok (eat_of_ne hc₂ (by simp))]
    rfl

theorem row_of_two (h : g.Reads n) {x y : Expr} {es : List Expr}
    (hready : Ready m (Expr.nodesAll (x :: y :: es)))
    (hc : c.At (Kind.parens (commas (Expr.tokenLists (x :: y :: es))) ++ rest) m)
    (hr : (next rest).attaches = false) :
    Gives (Expr.depthAll (x :: y :: es) ≤ n) (Plain (Expr.nodesAll (x :: y :: es)))
      (g.signed floor) c (.row (x :: y :: es)) rest (m + marks (Expr.nodesAll (x :: y :: es))) := by
  have hts : commas (Expr.tokenLists (x :: y :: es)) =
      x.tokens ++ .symbol .comma :: commas (Expr.tokenLists (y :: es)) := by
    simp [Expr.tokenLists, Kind.commas_cons]
  have hc₁ : c.At (.symbol .leftParen :: (commas (Expr.tokenLists (x :: y :: es)) ++
      .symbol .rightParen :: rest)) m := by
    simpa [Kind.parens] using hc
  have hr₁ : Ready m x.nodes ∧ Ready (m + marks x.nodes) (Expr.nodesAll (y :: es)) :=
    ready_append.1 (by rwa [Expr.nodesAll] at hready)
  refine .of_eq (primary_paren hc₁) ?_
  refine parenthesized_of_grouped hc₁ ?_ ?_ ?_ ?_
  · rw [Expr.tokenLists_eq]
    exact Expr.listsParameters_commas (by simp) (Kind.ne_of_attaches hr rfl)
  · intro hd
    have hd : x.depth ≤ n := (Expr.depthAll_le _).1 hd x (by simp)
    rw [hts, List.append_assoc, List.cons_append] at hc₁
    exact parens_error hc₁ (h.strayExpr x _ m _ _ hr₁.1 hd hc₁.advance (.inr (.inl rfl)))
  · intro hp
    rw [Expr.nodesAll, plain_append] at hp
    rw [hts, List.append_assoc]
    exact Expr.startsQuery_tokens hp.1
  · rw [hts] at hc
    unfold grouped
    refine parens_gives hc fun c₁ hc₁ => ?_
    rw [List.append_assoc, List.cons_append] at hc₁
    refine ((h.expr hr₁.1 hc₁ rfl).seq (G := Expr.depthAll (y :: es) ≤ n) ?_
      fun c₂ hc₂ => ?_).congr ?_
    · rw [Expr.nodesAll, plain_append]
      exact And.left
    · refine .step (eat_of_eq hc₂) ?_
      simp only [if_true]
      refine ((h.exprs (by simp) hr₁.2 hc₂.advance rfl (by simp)).imp Iff.rfl ?_).last
        fun c₃ hc₃ => ⟨c₃, rfl, ?_⟩
      · rw [Expr.nodesAll, plain_append]
        exact And.right
      · rw [Expr.nodesAll, marks_append, ← Nat.add_assoc]
        exact hc₃
    · rw [Expr.depthAll, Nat.max_le]

/-! ### The operands one by one -/

theorem literal {v : Literal} (hready : Ready m (Expr.literal v).nodes)
    (hc : c.At ((Expr.literal v).tokens ++ rest) m) :
    Gives ((Expr.literal v).depth ≤ n + 1) (Plain (Expr.literal v).nodes) (g.signed floor) c
      (.literal v) rest (m + marks (Expr.literal v).nodes) := by
  simp only [Expr.tokens, Expr.nodes, Expr.depth] at hc hready ⊢
  have hv : ∃ k, v.tokens = [k] ∧ k.unaryOp? = none ∧
      ∀ c : Cursor, ∀ ts, c.At (k :: ts) m → g.primary floor c = taking (.literal v) c := by
    cases v with
    | boolean b =>
      cases b <;>
        exact ⟨_, rfl, rfl, fun c ts hc => by unfold primary; rw [bind_ok (peek_apply hc)]; rfl⟩
    | double d =>
      have hd : d.isInfinite = false := ((ready_cons rfl).1 hready).1.settled
      refine ⟨.double d, by simp [Literal.tokens, hd], rfl, fun c ts hc => ?_⟩
      unfold primary
      rw [bind_ok (peek_apply hc)]
      rfl
    | _ => exact ⟨_, rfl, rfl, fun c ts hc => by unfold primary; rw [bind_ok (peek_apply hc)]; rfl⟩
  obtain ⟨k, ht, hk, hp⟩ := hv
  rw [ht] at hc
  refine .ok (by omega) ?_ (by simpa [Node.isMark] using hc.advance)
  rw [signed_eq hc hk, hp c _ hc]
  rfl

theorem column {x : Name} (hready : Ready m (Expr.column x).nodes)
    (hc : c.At ((Expr.column x).tokens ++ rest) m) (hr : (Expr.column x).Stops rest) :
    Gives ((Expr.column x).depth ≤ n + 1) (Plain (Expr.column x).nodes) (g.signed floor) c
      (.column x) rest (m + marks (Expr.column x).nodes) := by
  simp only [Expr.tokens, Expr.nodes, Expr.depth] at hc hready ⊢
  have hx : x.Delimited := ((ready_cons rfl).1 hready).1.settled
  rw [Name.tokens_eq hx] at hc
  have hdot : next rest ≠ .symbol .dot := fun h => by simpa [Expr.isColumn] using (hr.dot h).1
  obtain ⟨c', hc', he⟩ := named_end (g := g) hc (Kind.ne_of_attaches hr.apart rfl) hdot
  have hbare : x.isBare = false := by
    have := hx x.base (by simp [Name.parts])
    simp [Name.isBare, this]
  rw [hbare] at he
  obtain ⟨y, ys, -, hp⟩ := x.exists_foldl
  rw [Name.callTokens_eq hp, List.cons_append] at hc
  refine .ok (by omega) ?_ (by simpa [Node.isMark] using hc')
  rw [signed_quoted hc (hx y (by simp [hp])) ?_]
  · exact he
  · cases ys with
    | nil => exact Kind.ne_of_attaches hr.apart rfl
    | cons => simp

theorem star {r : Option Name} (hready : Ready m (Expr.star r).nodes)
    (hc : c.At ((Expr.star r).tokens ++ rest) m) :
    Gives ((Expr.star r).depth ≤ n + 1) (Plain (Expr.star r).nodes) (g.signed floor) c
      (.star r) rest (m + marks (Expr.star r).nodes) := by
  simp only [Expr.tokens, Expr.nodes, Expr.depth] at hc hready ⊢
  cases r with
  | none =>
    refine .ok (by omega) ?_ (by simpa [Node.isMark] using hc.advance)
    rw [signed_eq hc rfl]
    unfold primary
    rw [bind_ok (peek_apply hc)]
    rfl
  | some x =>
    have hx : x.Delimited := ((ready_cons rfl).1 hready).1.settled x rfl
    rw [Name.starTokens, Name.tokens_eq hx, List.append_assoc] at hc
    obtain ⟨c', hc', he⟩ := named_star (g := g) hc
    obtain ⟨y, ys, -, hp⟩ := x.exists_foldl
    rw [Name.callTokens_eq hp, List.cons_append] at hc
    refine .ok (by omega) ?_ (by simpa [Node.isMark] using hc')
    rw [signed_quoted hc (hx y (by simp [hp])) ?_]
    · exact he
    · cases ys <;> simp

theorem parameter {i : Nat} (hready : Ready m (Expr.parameter i).nodes)
    (hc : c.At ((Expr.parameter i).tokens ++ rest) m) :
    Gives ((Expr.parameter i).depth ≤ n + 1) (Plain (Expr.parameter i).nodes) (g.signed floor) c
      (.parameter i) rest (m + marks (Expr.parameter i).nodes) := by
  simp only [Expr.tokens, Expr.nodes, Expr.depth] at hc hready ⊢
  have hi : i = m + 1 := hready.numbered.1
  refine .ok (d := { c.advance with parameters := m + 1 }) (by omega) ?_
    ⟨hc.advance.kinds, by simp [Node.isMark]⟩
  rw [signed_eq hc rfl]
  unfold primary
  rw [bind_ok (peek_apply hc)]
  have hm : c.parameters = m := hc.parameters
  subst hi hm
  rfl

theorem callOperand (h : g.Reads n) {call : Call} (hready : Ready m (Expr.call call).nodes)
    (hc : c.At ((Expr.call call).tokens ++ rest) m) (hr : (Expr.call call).Stops rest) :
    Gives ((Expr.call call).depth ≤ n + 1) (Plain (Expr.call call).nodes) (g.signed floor) c
      (.call call) rest (m + marks (Expr.call call).nodes) := by
  simp only [Expr.tokens, Expr.nodes, Expr.depth] at hc hready ⊢
  have hready' := ((ready_cons rfl).1 hready).2
  cases hb : call.isBare with
  | true =>
    obtain ⟨hplain, hname⟩ := Call.eq_plain_of_isBare hb
    obtain ⟨hts, hx⟩ := Name.callTokens_of_isBare hname
    have hdot : next rest ≠ .symbol .dot :=
      fun h => by simpa [Expr.takesField, hb] using (hr.dot h).2
    rw [Call.tokens_of_isBare hb] at hc
    obtain ⟨c', hc', he⟩ := named_end (g := g) hc (Kind.ne_of_attaches hr.apart rfl) hdot
    rw [hts] at hc
    rw [hname, if_pos rfl, ← hplain] at he
    refine .ok ?_ ?_ (d := c') ?_
    · rw [hplain]
      simp [Call.plain, Call.depth, Expr.depthAll, OrderTerm.depthAll, Expr.depth?, Over.depth?]
    · rw [signed_eq hc rfl, primary_ident hc,
        fromIdent_eq hc (Kind.ne_of_attaches hr.apart rfl), hx]
      simp only [Bool.false_eq_true, if_false]
      rw [fromWord_eq hc]
      · exact he
      · exact fun h => absurd h (toUpper_ne_of_isBare hname (by decide))
      · exact fun h => absurd h (toUpper_ne_of_isBare hname (by decide))
      · rintro (h | h)
        · exact absurd h (toUpper_ne_of_isBare hname (by decide))
        · exact absurd h (toUpper_ne_of_isBare hname (by decide))
      · exact isString_of_attaches hr.apart
    · rw [hplain]
      simpa [Call.plain, Call.nodes, Expr.nodesAll, OrderTerm.nodesAll, Expr.nodes?, Over.nodes?,
        Node.isMark] using hc'
  | false =>
    have hs : call.Sound := (hready'.good (.call call) call.mem_nodes).sound
    obtain ⟨ts, hts⟩ := call.tailTokens_cons
    rw [Call.tokens_eq hb, List.append_assoc] at hc
    obtain ⟨c', hc', he⟩ := named_call (g := g)
      (show c.At (call.name.callTokens ++ .symbol .leftParen :: (ts ++ rest)) m by rwa [hts] at hc)
    have hcall := h.call hready' (show c'.At (call.tailTokens ++ rest) m by rwa [hts]) hr.apart
    have hsigned : g.signed floor c = g.call call.name c' := by
      refine Eq.trans ?_ he
      obtain ⟨y, ys, -, hp⟩ := call.name.exists_foldl
      rw [Name.callTokens_eq hp, List.cons_append] at hc
      refine signed_name hc ?_
      cases ys with
      | cons => exact .inl rfl
      | nil =>
        have hq : call.name.qualifier = [] := by
          simpa [Name.parts] using congrArg List.length hp
        have hy : call.name.base = y := by simpa [Name.parts, hq] using hp
        exact .inr ⟨by rw [hts]; rfl, hy ▸ hs.plain hq⟩
    refine ((hcall.of_eq hsigned).imp Iff.rfl fun hp => (plain_cons.1 hp).2).marks ?_
    simp [Node.isMark]

end Grammar.Reads

end Sql
