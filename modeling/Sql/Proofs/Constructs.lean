import Sql.Proofs.Operands

/-! Reading the operands that hold other trees. -/
namespace Sql

open Sql.Parser
open Token (Kind)
open Token.Kind (next parensIf given commas)

/-- No operator has one of the ranks of the prefixes. -/
theorem Token.Kind.ends_of_succ {k : Kind} {r : Nat} (hr : r = 0 ∨ r = 3 ∨ r = 8)
    (h : k.ends (r + 1) = true) : k.ends r = true := by
  unfold ends at *
  simp only [Bool.and_eq_true, Bool.not_eq_true'] at *
  refine ⟨h.1, ?_⟩
  have h := h.2
  rcases hr with rfl | rfl | rfl <;> cases k with
  | symbol s => cases s <;> revert h <;> decide
  | keyword w => cases w <;> revert h <;> decide
  | ident x =>
    revert h
    simp [continues, Tier.rank]
  | _ => rfl

/-- Delimited parameters are told apart by their texts. -/
theorem Ident.firstRepeated?_eq_none {xs seen : List Ident}
    (hd : ∀ x ∈ seen ++ xs, x.delimited = true)
    (hn : ((seen ++ xs).map Ident.text).Nodup) : firstRepeated? seen xs = none := by
  induction xs generalizing seen with
  | nil => rfl
  | cons x xs ih =>
    have hx : seen.any (·.same x) = false := by
      rw [List.any_eq_false]
      intro y hy hsame
      have hkey : y.text = x.text := by
        simpa [same, key, hd y (by simp [hy]), hd x (by simp)] using hsame
      rw [List.map_append, List.nodup_append] at hn
      exact hn.2.2 y.text (List.mem_map_of_mem hy) x.text (by simp) hkey
    rw [firstRepeated?, hx]
    simp only [Bool.false_eq_true, if_false]
    have hperm : (seen ++ x :: xs).Perm ((x :: seen) ++ xs) := List.perm_middle
    refine ih (fun y hy => hd y (hperm.mem_iff.2 hy)) ?_
    exact (hperm.map _).nodup_iff.1 hn

theorem Token.Kind.listsParameters_idents {xs : List Ident} (hne : xs ≠ []) (ts : List Kind) :
    listsParameters (Ident.tokens xs ++ .symbol .rightParen :: .symbol .arrow :: ts) = true := by
  induction xs with
  | nil => exact absurd rfl hne
  | cons x xs ih =>
    cases xs with
    | nil => rfl
    | cons y ys =>
      have := ih (by simp)
      simp only [Ident.tokens, List.map_cons, commas_cons, List.flatMap_cons, List.cons_append,
        List.nil_append] at this ⊢
      exact this

namespace Grammar.Reads

variable {g : Grammar} {n m floor : Nat} {c : Cursor} {rest ts : List Kind}

theorem unaryOperand {op : UnaryOp} {e : Expr} {b : Bool} (h : g.Reads n)
    (hready : Ready m (Expr.unary op e).nodes) (hb : b = false → op.tier.rank ≤ e.tier.rank)
    (hq : b = true → ∀ q, e ≠ .subquery q)
    (hc : c.At (op.token :: (parensIf b e.tokens ++ rest)) m)
    (hr : (Expr.unary op e).Stops rest) :
    Gives (parensDepth b e.depth + 1 ≤ n + 1) (Plain (Expr.unary op e).nodes) (g.signed floor) c
      (.unary op e) rest (m + marks (Expr.unary op e).nodes) := by
  simp only [Expr.nodes] at hready ⊢
  have hends : (next rest).ends op.tier.rank = true := by
    refine Kind.ends_of_succ ?_ (hr.loose ?_)
    · cases op <;> simp [UnaryOp.tier, Tier.rank]
    · cases op <;> simp [Expr.tier, UnaryOp.tier, Tier.rank]
  have hop : op.token.unaryOp? = some op := by cases op <;> rfl
  unfold signed
  refine .step (peek_apply hc) ?_
  rw [Kind.next_cons, hop]
  refine .step advance_apply ?_
  have he := h.operand e b _ _ m rest ((ready_cons rfl).1 hready).2 hb hq hc.advance hends
  refine (he.imp (by omega) fun hp => (plain_cons.1 hp).2).last fun c₁ hc₁ => ⟨c₁, rfl, ?_⟩
  simpa [Node.isMark] using hc₁

theorem unary (h : g.Reads n) {op : UnaryOp} {e : Expr}
    (hready : Ready m (Expr.unary op e).nodes) (hc : c.At ((Expr.unary op e).tokens ++ rest) m)
    (hr : (Expr.unary op e).Stops rest) :
    Gives ((Expr.unary op e).depth ≤ n + 1) (Plain (Expr.unary op e).nodes) (g.signed floor) c
      (.unary op e) rest (m + marks (Expr.unary op e).nodes) := by
  cases op with
  | not =>
    rw [Expr.tokens] at hc
    rw [Expr.depth]
    refine h.unaryOperand hready (fun hb => by simpa [Expr.isLooser, UnaryOp.tier] using hb) ?_ hc
      hr
    rintro hb q rfl
    cases hb
  | minus | plus =>
    rw [Expr.tokens_sign (by simp)] at hc
    rw [Expr.depth_sign (by simp)]
    refine h.unaryOperand hready (fun hb => ?_) ?_ hc hr
    · simp only [Bool.or_eq_false_iff, Expr.isLooser, decide_eq_false_iff_not] at hb
      exact Nat.le_of_not_lt hb.1
    · rintro hb q rfl
      cases hb

theorem existsQuery (h : g.Reads n) {q : Query} (hready : Ready m (Expr.existsQuery q).nodes)
    (hc : c.At ((Expr.existsQuery q).tokens ++ rest) m) :
    Gives ((Expr.existsQuery q).depth ≤ n + 1) (Plain (Expr.existsQuery q).nodes) (g.signed floor) c
      (.existsQuery q) rest (m + marks (Expr.existsQuery q).nodes) := by
  simp only [Expr.tokens, Expr.nodes, Expr.depth, List.cons_append] at hc hready ⊢
  refine .of_eq (signed_eq hc rfl) ?_
  unfold primary
  refine .step (peek_apply hc) (.step advance_apply ?_)
  have hq := h.parenQuery ((ready_cons rfl).1 hready).2 hc.advance
  refine (hq.imp (by omega) fun hp => (plain_cons.1 hp).2).last fun c₁ hc₁ => ⟨c₁, rfl, ?_⟩
  simpa [Node.isMark] using hc₁

theorem subquery (h : g.Reads n) {q : Query} (hready : Ready m (Expr.subquery q).nodes)
    (hc : c.At ((Expr.subquery q).tokens ++ rest) m) :
    Gives ((Expr.subquery q).depth ≤ n + 1) (Plain (Expr.subquery q).nodes) (g.signed floor) c
      (.subquery q) rest (m + marks (Expr.subquery q).nodes) := by
  simp only [Expr.tokens, Expr.nodes, Expr.depth] at hc hready ⊢
  refine .of_not (fun hp => by simp [Node.plain] at hp) fun hd => ?_
  have hq := h.parenQuery ((ready_cons rfl).1 hready).2 hc
  obtain ⟨c₁, h₁, hc₁⟩ := hq.1 (by omega)
  refine ⟨c₁, ?_, by simpa [Node.isMark] using hc₁⟩
  simp only [Kind.parens, List.cons_append, List.append_assoc, List.nil_append] at hc
  have hs := q.startsQuery_tokens (.symbol .rightParen :: rest)
  rw [primary_paren hc]
  unfold parenthesized
  rw [bind_ok (parametersAhead_apply hc)]
  simp only [List.tail_cons, Kind.listsParameters_of_startsQuery hs, Bool.and_false,
    Bool.false_eq_true, if_false]
  rw [bind_ok (queryAhead_apply hc)]
  simp only [Kind.next_cons, Kind.startsQuery, hs, beq_self_eq_true, Bool.and_self, if_true]
  rw [bind_ok (attempt_ok h₁)]
  rfl

/-! ### Constructs that start with a word -/

theorem signed_word {w : String} (hc : c.At (.word w :: ts) m) (ha : next ts ≠ .symbol .arrow) :
    g.signed floor c = g.fromWord w c := by
  rw [signed_eq hc rfl, primary_ident hc, fromIdent_eq hc ha]
  rfl

theorem castTail (h : g.Reads n) {e : Expr} {t : DataType} {safe : Bool} {k : Kind}
    (hready : Ready m (Expr.cast e t safe).nodes)
    (hc : c.At (k :: (Kind.parens (e.tokens ++ .keyword .AS :: t.tokens) ++ rest)) m) :
    Gives ((Expr.cast e t safe).depth ≤ n + 1) (Plain (Expr.cast e t safe).nodes) (g.cast safe) c
      (.cast e t safe) rest (m + marks (Expr.cast e t safe).nodes) := by
  simp only [Expr.nodes, Expr.depth, Nat.add_le_add_iff_right, Nat.max_le] at hready ⊢
  obtain ⟨hgood, hr⟩ := (ready_cons rfl).1 hready
  unfold Grammar.cast
  refine .step advance_apply (parens_gives hc.advance fun c₁ hc₁ => ?_)
  rw [List.append_assoc, List.cons_append] at hc₁
  refine (h.expr hr hc₁ rfl).seq (by simp +contextual) fun c₂ hc₂ => ?_
  refine .step (expectKeyword_of_eq hc₂) ?_
  have ht := h.type.type t _ _ _ hgood.sound hc₂.advance (by simp [TypeEnds])
  refine (ht.imp Iff.rfl ?_).last fun c₃ hc₃ => ⟨c₃, rfl, ?_⟩
  · simp +contextual [Node.plain]
  · simpa [Node.isMark] using hc₃

theorem cast (h : g.Reads n) {e : Expr} {t : DataType} {safe : Bool}
    (hready : Ready m (Expr.cast e t safe).nodes)
    (hc : c.At ((Expr.cast e t safe).tokens ++ rest) m) :
    Gives ((Expr.cast e t safe).depth ≤ n + 1) (Plain (Expr.cast e t safe).nodes) (g.signed floor) c
      (.cast e t safe) rest (m + marks (Expr.cast e t safe).nodes) := by
  rw [Expr.tokens, List.cons_append] at hc
  refine .of_eq ?_ (h.castTail hready hc)
  cases safe with
  | false =>
    rw [signed_eq hc rfl]
    unfold primary
    rw [bind_ok (peek_apply hc)]
    rfl
  | true =>
    have hc : c.At (.word "TRY_CAST" ::
      (Kind.parens (e.tokens ++ .keyword .AS :: t.tokens) ++ rest)) m := hc
    rw [signed_word hc (by simp [Kind.parens])]
    unfold fromWord
    rw [bind_ok (peekAt_apply hc 1), bind_ok (intervalAhead_apply hc)]
    have hu : "TRY_CAST".toUpper = "TRY_CAST" := by cbv
    rw [hu]
    rfl

theorem array (h : g.Reads n) {es : List Expr} (hready : Ready m (Expr.array es).nodes)
    (hc : c.At ((Expr.array es).tokens ++ rest) m) :
    Gives ((Expr.array es).depth ≤ n + 1) (Plain (Expr.array es).nodes) (g.signed floor) c
      (.array es) rest (m + marks (Expr.array es).nodes) := by
  simp only [Expr.tokens, Expr.nodes, Expr.depth, List.cons_append, List.append_assoc,
    List.nil_append, Nat.add_le_add_iff_right] at hc hready ⊢
  have hu : "ARRAY".toUpper = "ARRAY" := by cbv
  have he : g.signed floor c = (do
      advance
      advance
      return .array (← g.exprsUntil .rightBracket) : Parser Expr) c := by
    rw [signed_word hc (by simp)]
    unfold fromWord
    rw [bind_ok (peekAt_apply hc 1), bind_ok (intervalAhead_apply hc), hu]
    rfl
  refine .of_eq he (.step advance_apply (.step advance_apply ?_))
  have hes := h.exprsUntil (.inr rfl) ((ready_cons rfl).1 hready).2 hc.advance.advance
  refine (hes.imp Iff.rfl fun hp => (plain_cons.1 hp).2).last fun c₁ hc₁ => ⟨c₁, rfl, ?_⟩
  simpa [Node.isMark] using hc₁

theorem row (h : g.Reads n) {es : List Expr} (hready : Ready m (Expr.row es).nodes)
    (hc : c.At ((Expr.row es).tokens ++ rest) m) (hr : (next rest).attaches = false) :
    Gives ((Expr.row es).depth ≤ n + 1) (Plain (Expr.row es).nodes) (g.signed floor) c
      (.row es) rest (m + marks (Expr.row es).nodes) := by
  have hready' : Ready m (Expr.nodesAll es) := by
    rw [Expr.nodes] at hready
    exact ((ready_cons rfl).1 hready).2
  have hmarks : marks (Expr.row es).nodes = marks (Expr.nodesAll es) := by
    simp [Expr.nodes, Node.isMark]
  have hplain : Plain (Expr.row es).nodes → Plain (Expr.nodesAll es) := by
    rw [Expr.nodes, plain_cons]
    exact And.right
  rw [Expr.tokens] at hc
  rw [hmarks, Expr.depth, Nat.add_le_add_iff_right]
  by_cases hlen : es.length < 2
  · simp only [hlen, decide_true, given, if_true, Kind.parens, List.cons_append, List.append_assoc,
      List.nil_append] at hc
    have hu : "ROW".toUpper = "ROW" := by cbv
    have he : g.signed floor c = (do
        advance
        advance
        return .row (← g.exprsUntil .rightParen) : Parser Expr) c := by
      rw [signed_word hc (by simp)]
      unfold fromWord
      rw [bind_ok (peekAt_apply hc 1), bind_ok (intervalAhead_apply hc), hu]
      rfl
    refine .of_eq he (.step advance_apply (.step advance_apply ?_))
    have hes := h.exprsUntil (.inl rfl) hready' hc.advance.advance
    exact (hes.imp Iff.rfl hplain).last fun c₁ hc₁ => ⟨c₁, rfl, hc₁⟩
  · rcases es with - | ⟨x, - | ⟨y, es⟩⟩
    · simp at hlen
    · simp at hlen
    · simp only [hlen, decide_false, given, Bool.false_eq_true, if_false, List.nil_append] at hc
      exact (h.row_of_two hready' hc hr).imp Iff.rfl hplain

theorem typed {type text : String} (hready : Ready m (Expr.typed type text).nodes)
    (hc : c.At ((Expr.typed type text).tokens ++ rest) m) :
    Gives ((Expr.typed type text).depth ≤ n + 1) (Plain (Expr.typed type text).nodes)
      (g.signed floor) c (.typed type text) rest (m + marks (Expr.typed type text).nodes) := by
  simp only [Expr.tokens, Expr.nodes, Expr.depth, List.cons_append, List.nil_append]
    at hc hready ⊢
  obtain ⟨-, hupper, hne⟩ := ((ready_cons rfl).1 hready).1.sound
  refine .ok (by omega) ?_ (by simpa [Node.isMark] using hc.advance.advance)
  have h₁ : (type == "INTERVAL") = false := by simpa using hne
  have h₂ : ∀ w : String, ∀ s : Symbol,
      (type == w && next (.string text :: rest) == .symbol s) = false := by simp
  rw [signed_word hc (by simp)]
  unfold fromWord
  rw [bind_ok (peekAt_apply hc 1), bind_ok (intervalAhead_apply hc), hupper, Kind.getD_one]
  simp only [h₁, h₂, Bool.false_and, Bool.false_eq_true, if_false]
  change (do advance; advance; return Expr.ofTyped type text : Parser Expr) c = _
  rw [bind_ok advance_apply, bind_ok advance_apply, Expr.ofTyped, hupper]
  rfl

theorem interval {text : String} {negative : Bool} {start : IntervalField}
    {stop : Option IntervalField} (hready : Ready m (Expr.interval text negative start stop).nodes)
    (hc : c.At ((Expr.interval text negative start stop).tokens ++ rest) m)
    (hr : (next rest).isWord "TO" = false) :
    Gives ((Expr.interval text negative start stop).depth ≤ n + 1)
      (Plain (Expr.interval text negative start stop).nodes) (g.signed floor) c
      (.interval text negative start stop) rest
      (m + marks (Expr.interval text negative start stop).nodes) := by
  simp only [Expr.tokens, Expr.nodes, Expr.depth, List.cons_append, List.append_assoc]
    at hc hready ⊢
  have hadmits : ∀ finer ∈ stop, start.admits finer = true :=
    ((ready_cons rfl).1 hready).1.sound
  have hu : "INTERVAL".toUpper = "INTERVAL" := by cbv
  have hs : g.signed floor c = Grammar.interval c := by
    rw [signed_word hc (by cases negative <;> simp [given])]
    unfold fromWord
    rw [bind_ok (peekAt_apply hc 1), bind_ok (intervalAhead_apply hc), hu]
    cases negative <;> rfl
  -- The sign and the string are read, the fields are not.
  obtain ⟨c₁, h₁, hc₁⟩ : ∃ c₁, c₁.At (start.token :: (IntervalField.tokens? stop ++ rest)) m ∧
      Grammar.interval c = (do
        let start ← intervalField
        let stop ← Parser.optional (← eatWord "TO") intervalField
        valid c.token.span (Expr.buildInterval text negative start stop) : Parser Expr) c₁ := by
    unfold Grammar.interval
    rw [bind_ok here_apply, bind_ok advance_apply]
    cases negative with
    | true =>
      have hc : c.advance.At (.symbol .minus :: .string text :: start.token ::
        (IntervalField.tokens? stop ++ rest)) m := hc.advance
      refine ⟨_, hc.advance.advance, ?_⟩
      rw [eatSymbol, bind_ok (eat_of_eq hc)]
      exact (bind_ok (peek_apply hc.advance)).trans (bind_ok advance_apply)
    | false =>
      have hc : c.advance.At (.string text :: start.token ::
        (IntervalField.tokens? stop ++ rest)) m := hc.advance
      refine ⟨_, hc.advance, ?_⟩
      rw [eatSymbol, bind_ok (eat_of_ne hc (by simp))]
      have hplus : eatSymbol .plus c.advance = .ok (false, c.advance) := eat_of_ne hc (by simp)
      refine (bind_ok hplus).trans ?_
      exact (bind_ok (peek_apply hc)).trans (bind_ok advance_apply)
  have hstop : ∃ c₂, c₂.At rest m ∧ (do
      let stop ← Parser.optional (← eatWord "TO") intervalField
      valid c.token.span (Expr.buildInterval text negative start stop) : Parser Expr)
        c₁.advance = .ok (.interval text negative start stop, c₂) := by
    cases stop with
    | none =>
      have hc₁ : c₁.At (start.token :: rest) m := h₁
      refine ⟨_, hc₁.advance, ?_⟩
      rw [bind_ok (eatWord_of_not hc₁.advance hr)]
      rfl
    | some finer =>
      have hc₁ : c₁.At (start.token :: .word "TO" :: finer.token :: rest) m := h₁
      refine ⟨_, hc₁.advance.advance.advance, ?_⟩
      rw [bind_ok (eatWord_of_isWord hc₁.advance (by cbv)), optional_true,
        bind_ok (map_ok (intervalField_apply hc₁.advance.advance))]
      simp only [Expr.buildInterval, hadmits finer rfl, if_true]
      rfl
  obtain ⟨c₂, hc₂, h₂⟩ := hstop
  refine .ok (by omega) ?_ (by simpa [Node.isMark] using hc₂)
  rw [hs, hc₁, bind_ok (intervalField_apply h₁)]
  exact h₂

theorem lambdaBody (h : g.Reads n) {ps : List Ident} {body : Expr} (hne : ps ≠ [])
    (hd : ∀ x ∈ ps, x.delimited = true) (hn : (ps.map Ident.text).Nodup)
    (hready : Ready m body.nodes) (hc : c.At (.symbol .arrow :: (body.tokens ++ rest)) m)
    (hr : (next rest).ends 0 = true) :
    Gives (body.depth ≤ n) (Plain body.nodes) (g.lambdaBody ps) c (.lambda ps body) rest
      (m + marks body.nodes) := by
  have hbuild : Expr.buildLambda ps body = .ok (.lambda ps body) := by
    have hrep : Ident.firstRepeated? [] ps = none :=
      Ident.firstRepeated?_eq_none (by simpa using hd) (by simpa using hn)
    simp only [Expr.buildLambda, hrep]
    cases ps with
    | nil => exact absurd rfl hne
    | cons => rfl
  unfold Grammar.lambdaBody
  refine .step here_apply (.step (expectSymbol_of_eq hc) ?_)
  refine (h.expr hready hc.advance hr).last fun c₁ hc₁ => ⟨c₁, ?_, hc₁⟩
  rw [hbuild]
  rfl

theorem lambda (h : g.Reads n) {ps : List Ident} {body : Expr} (hf : floor ≤ 0)
    (hready : Ready m (Expr.lambda ps body).nodes)
    (hc : c.At ((Expr.lambda ps body).tokens ++ rest) m) (hr : (Expr.lambda ps body).Stops rest) :
    Gives ((Expr.lambda ps body).depth ≤ n + 1) (Plain (Expr.lambda ps body).nodes) (g.signed floor)
      c (.lambda ps body) rest (m + marks (Expr.lambda ps body).nodes) := by
  simp only [Expr.tokens, Expr.nodes, Expr.depth, List.append_assoc, List.cons_append,
    Nat.add_le_add_iff_right] at hc hready ⊢
  obtain ⟨hgood, hready'⟩ := (ready_cons rfl).1 hready
  have hne : ps ≠ [] := hgood.sound.1
  have hd : ∀ x ∈ ps, x.delimited = true := hgood.settled
  have hn : (ps.map Ident.text).Nodup := by simpa [Node.steady, Expr.steady] using hgood.steady
  have hends : (next rest).ends 0 = true :=
    Kind.ends_of_succ (.inl rfl) (hr.loose (by simp [Expr.tier, Tier.rank]))
  have hfloor : decide (floor ≤ Tier.lambda.rank) = true := by simpa [Tier.rank] using hf
  obtain ⟨c₁, hc₁, he⟩ : ∃ c₁, c₁.At (.symbol .arrow :: (body.tokens ++ rest)) m ∧
      g.signed floor c = g.lambdaBody ps c₁ := by
    rcases ps with - | ⟨x, - | ⟨y, ps⟩⟩
    · exact absurd rfl hne
    · have hc : c.At (.ident x :: .symbol .arrow :: (body.tokens ++ rest)) m := by
        simpa [Ident.paramTokens, Ident.token_eq (hd x (by simp))] using hc
      refine ⟨_, hc.advance, ?_⟩
      rw [signed_eq hc rfl, primary_ident hc]
      unfold fromIdent
      rw [bind_ok (peekAt_apply hc 1), hfloor]
      rfl
    · have hc : c.At (Kind.parens (Ident.tokens (x :: y :: ps)) ++
        .symbol .arrow :: (body.tokens ++ rest)) m := hc
      obtain ⟨c₁, h₁, hc₁⟩ := identList_apply (by simp) hd hc
      refine ⟨c₁, hc₁, ?_⟩
      simp only [Kind.parens, List.cons_append, List.append_assoc, List.nil_append] at hc
      rw [primary_paren hc]
      unfold parenthesized
      rw [bind_ok (parametersAhead_apply hc), hfloor]
      simp only [Kind.next_cons, List.tail_cons, Kind.listsParameters_idents hne, beq_self_eq_true,
        Bool.and_self, if_true]
      rw [bind_ok h₁]
  have hbody := (h.lambdaBody hne hd hn hready' hc₁ hends).of_eq he
  refine (hbody.imp Iff.rfl fun hp => (plain_cons.1 hp).2).marks ?_
  simp [Node.isMark]

/-! ### Case expressions -/

theorem whenBranch (h : g.Reads n) {condition value : Expr} {bs : List (Expr × Expr)}
    (hready : Ready m (condition.nodes ++ value.nodes))
    (hc : c.At (.keyword .WHEN ::
      (condition.tokens ++ .keyword .THEN :: (value.tokens ++ rest))) m)
    (hr : (next rest).ends 0 = true) :
    Gives (condition.depth ≤ n ∧ value.depth ≤ n) (Plain (condition.nodes ++ value.nodes))
      (g.whenBranch bs) c (some (bs ++ [(condition, value)])) rest
      (m + marks (condition.nodes ++ value.nodes)) := by
  obtain ⟨hcond, hval⟩ := ready_append.1 hready
  unfold Grammar.whenBranch
  refine .step (eat_of_eq hc) ?_
  simp only [if_true]
  refine (h.expr hcond hc.advance rfl).seq (by simp +contextual) fun c₁ hc₁ => ?_
  refine .step (expectKeyword_of_eq hc₁) ?_
  refine ((h.expr hval hc₁.advance hr).imp Iff.rfl (by simp +contextual)).last
    fun c₂ hc₂ => ⟨c₂, rfl, ?_⟩
  rwa [marks_append, ← Nat.add_assoc]

theorem whenBranches (h : g.Reads n) {F Q : Prop} {c₀ : Cursor} {bs done : List (Expr × Expr)}
    (hready : Ready m (Expr.branchNodes bs)) (hp : Q → Plain (Expr.branchNodes bs))
    (hr : (next rest).ends 0 = true)
    (hb : Builds F Q (pure []) g.whenBranch c₀ done (Expr.branchTokens bs ++ rest) m) :
    Builds (F ∧ Expr.branchDepth bs ≤ n) Q (pure []) g.whenBranch c₀ (done ++ bs) rest
      (m + marks (Expr.branchNodes bs)) := by
  induction bs generalizing F m done with
  | nil =>
    rw [List.append_nil]
    exact (hb.imp (by simp [Expr.branchDepth]) id).marks rfl
  | cons b bs ih =>
    obtain ⟨condition, value⟩ := b
    simp only [Expr.branchNodes, Expr.branchTokens, Expr.branchDepth] at hready hp hb ⊢
    rw [← List.append_assoc] at hready hp ⊢
    obtain ⟨hcv, hbs⟩ := ready_append.1 hready
    have hnext : (next (Expr.branchTokens bs ++ rest)).ends 0 = true := by
      cases bs with
      | nil => exact hr
      | cons b bs => rw [Expr.branchTokens]; rfl
    have hstep : Builds (F ∧ condition.depth ≤ n ∧ value.depth ≤ n) Q (pure []) g.whenBranch c₀
        (done ++ [(condition, value)]) (Expr.branchTokens bs ++ rest)
        (m + marks (condition.nodes ++ value.nodes)) :=
      hb.extend id (fun c' hc' => (h.whenBranch hcv (by simpa using hc') hnext).imp Iff.rfl
        fun hq => (plain_append.1 (hp hq)).1) (by simp; omega)
    have := ih hbs (fun hq => (plain_append.1 (hp hq)).2) hstep
    rw [List.append_assoc] at this
    refine (this.imp ?_ id).marks ?_
    · simp only [Nat.max_le]
      exact ⟨fun h => ⟨⟨h.1, h.2.1, h.2.2.1⟩, h.2.2.2⟩, fun h => ⟨h.1.1, h.1.2.1, h.1.2.2, h.2⟩⟩
    · rw [marks_append, Nat.add_assoc]

/-- An optional expression behind a keyword. -/
theorem optionalExpr (h : g.Reads n) {α : Type} {G Q : Prop} {a : α} {k : Nat} {mid : List Kind}
    {x : Option Expr} {w : Keyword} {K : Option Expr → Parser α} (hready : Ready m (Expr.nodes? x))
    (hp : Q → Plain (Expr.nodes? x)) (hc : c.At (Expr.tokensAfter [.keyword w] x ++ mid) m)
    (hr : (next mid).ends 0 = true) (hw : next mid ≠ .keyword w)
    (hK : ∀ c', c'.At mid (m + marks (Expr.nodes? x)) → Gives G Q (K x) c' a rest k) :
    Gives (Expr.depth? x ≤ n ∧ G) Q (do
      let x ← Parser.optional (← eatKeyword w) g.expr
      K x) c a rest k := by
  cases x with
  | none =>
    have hc : c.At mid m := hc
    refine .step (eat_of_ne hc hw) ((hK c hc).congr ?_)
    simp [Expr.depth?]
  | some e =>
    simp only [Expr.nodes?, Expr.tokensAfter, Expr.depth?, List.cons_append, List.nil_append]
      at hc hready hp hK ⊢
    refine .step (eat_of_eq hc) ?_
    rw [optional_true]
    exact (h.expr hready hc.advance hr).map.seq hp hK

theorem caseWhen (h : g.Reads n) {operand otherwise : Option Expr} {bs : List (Expr × Expr)}
    (hready : Ready m (Expr.caseWhen operand bs otherwise).nodes)
    (hc : c.At ((Expr.caseWhen operand bs otherwise).tokens ++ rest) m) :
    Gives ((Expr.caseWhen operand bs otherwise).depth ≤ n + 1)
      (Plain (Expr.caseWhen operand bs otherwise).nodes) (g.signed floor) c
      (.caseWhen operand bs otherwise) rest
      (m + marks (Expr.caseWhen operand bs otherwise).nodes) := by
  simp only [Expr.tokens, Expr.nodes, Expr.depth, List.append_assoc, List.cons_append,
    List.nil_append, Nat.add_le_add_iff_right, Nat.max_le] at hc hready ⊢
  obtain ⟨hgood, hr₁⟩ := (ready_cons rfl).1 hready
  obtain ⟨ho, hr₂⟩ := ready_append.1 hr₁
  obtain ⟨hb, he⟩ := ready_append.1 hr₂
  have hne : bs ≠ [] := hgood.sound
  have hwhen : next (Expr.branchTokens bs ++ (Expr.tokensAfter [.keyword .ELSE] otherwise ++
      .keyword .END :: rest)) = .keyword .WHEN := by
    cases bs with
    | nil => exact absurd rfl hne
    | cons b bs => rw [Expr.branchTokens]; rfl
  have helse : (next (Expr.tokensAfter [.keyword .ELSE] otherwise ++
      .keyword .END :: rest)).ends 0 = true ∧ next (Expr.tokensAfter [.keyword .ELSE] otherwise ++
      .keyword .END :: rest) ≠ .keyword .WHEN := by
    cases otherwise with
    | none => exact ⟨rfl, by simp [Expr.tokensAfter]⟩
    | some e => rw [Expr.tokensAfter]; exact ⟨rfl, by simp⟩
  have hprimary : g.signed floor c = g.caseWhen c := by
    rw [signed_eq hc rfl]
    unfold primary
    rw [bind_ok (peek_apply hc)]
    rfl
  refine .of_eq hprimary ?_
  unfold Grammar.caseWhen
  refine .step here_apply (.step (expectKeyword_of_eq hc) ?_)
  refine .step (check_apply hc.advance _) ?_
  -- The operand is there unless the first branch follows at once.
  have hoperand : Gives (Expr.depth? operand ≤ n) (Plain (Expr.nodes? operand))
      (Parser.optional (!(next (Expr.tokensAfter [] operand ++ (Expr.branchTokens bs ++
        (Expr.tokensAfter [.keyword .ELSE] otherwise ++ .keyword .END :: rest))) ==
          .keyword .WHEN)) g.expr) c.advance operand
      (Expr.branchTokens bs ++ (Expr.tokensAfter [.keyword .ELSE] otherwise ++
        .keyword .END :: rest)) (m + marks (Expr.nodes? operand)) := by
    cases operand with
    | none =>
      simp only [Expr.tokensAfter, List.nil_append, hwhen, beq_self_eq_true, Bool.not_true,
        optional_false]
      exact .ok (by simp [Expr.depth?]) rfl
        (by simpa [Expr.nodes?, Expr.tokensAfter] using hc.advance)
    | some e =>
      obtain ⟨k, ts, ht, hk, -⟩ := e.tokens_cons
      have hnot : next (Expr.tokensAfter [] (some e) ++ (Expr.branchTokens bs ++
          (Expr.tokensAfter [.keyword .ELSE] otherwise ++ .keyword .END :: rest))) ≠
            .keyword .WHEN := by
        rw [Expr.tokensAfter, ht]
        exact Kind.ne_of_opens hk rfl
      rw [beq_false_of_ne hnot, Bool.not_false, optional_true]
      refine (h.expr ho hc.advance ?_).map
      rw [hwhen]
      rfl
  refine hoperand.seq (by simp +contextual) fun c₁ hc₁ => ?_
  have hbranches : Gives (Expr.branchDepth bs ≤ n) (Plain (Expr.branchNodes bs))
      (iterate g.whenBranch []) c₁ bs (Expr.tokensAfter [.keyword .ELSE] otherwise ++
        .keyword .END :: rest)
      (m + marks (Expr.nodes? operand) + marks (Expr.branchNodes bs)) := by
    have hloop := (h.whenBranches hb (Q := Plain (Expr.branchNodes bs)) id helse.1
      (Builds.of_gives (Gives.pure hc₁))).finish fun c' hc' => by
        unfold Grammar.whenBranch eatKeyword
        rw [bind_ok (eat_of_ne hc' helse.2)]
        rfl
    exact hloop.congr (by simp)
  refine hbranches.seq (by simp +contextual) fun c₂ hc₂ => ?_
  have hsome : bs.isEmpty = false := by simpa using hne
  simp only [hsome, Bool.false_eq_true, if_false]
  refine (h.optionalExpr (G := True) he (by simp +contextual) hc₂ rfl (by simp)
    fun c₃ hc₃ => ?_).congr (by simp)
  refine .ok trivial (d := c₃.advance) ?_ ?_
  · rw [bind_ok (expectKeyword_of_eq hc₃)]
    simp only [Expr.buildCase, hsome, Bool.false_eq_true, if_false]
    rfl
  · simpa [Node.isMark, Nat.add_assoc] using hc₃.advance

end Grammar.Reads

end Sql
