import Sql.Proofs.Reads

/-! Reading orderings and windows. -/
namespace Sql.Grammar.Reads

open Sql.Parser
open Token (Kind)
open Token.Kind (next parensIf given commas ends_word)

variable {g : Grammar} {n m : Nat} {c : Cursor} {rest : List Kind}

theorem word_ne_word {w w' : String} (h : (Kind.word w).isWord w' = false) :
    (next (.word w :: rest)).isWord w' = false := h

theorem nullOrder_apply {order : Option NullOrder}
    (hc : c.At (NullOrder.tokens? order ++ rest) m) (hr : (next rest).isWord "NULLS" = false) :
    ∃ c', nullOrder c = .ok (order, c') ∧ c'.At rest m := by
  unfold nullOrder
  match order with
  | none => exact ⟨c, by rw [bind_ok (eatWord_of_not hc hr)]; rfl, hc⟩
  | some .first =>
    have hc : c.At (.word "NULLS" :: .word "FIRST" :: rest) m := hc
    refine ⟨_, ?_, hc.advance.advance⟩
    rw [bind_ok (eatWord_of_isWord hc (by cbv))]
    simp only [if_true]
    rw [bind_ok (eatWord_of_isWord hc.advance (by cbv))]
    rfl
  | some .last =>
    have hc : c.At (.word "NULLS" :: .word "LAST" :: rest) m := hc
    refine ⟨_, ?_, hc.advance.advance⟩
    rw [bind_ok (eatWord_of_isWord hc (by cbv))]
    simp only [if_true]
    rw [bind_ok (eatWord_of_not hc.advance (word_ne_word (by cbv)))]
    simp only [Bool.false_eq_true, if_false]
    rw [bind_ok (eatWord_of_isWord hc.advance (by cbv))]
    rfl

theorem orderTerm (h : g.Reads n) {t : OrderTerm} (hready : Ready m t.nodes)
    (hc : c.At (t.tokens ++ rest) m) (hr : (next rest).endsTerm = true) :
    Gives (t.depth ≤ n) (Plain t.nodes) g.orderTerm c t rest (m + marks t.nodes) := by
  obtain ⟨e, descending, nulls⟩ := t
  simp only [OrderTerm.tokens, OrderTerm.nodes, OrderTerm.depth, List.append_assoc] at *
  have hw : ∀ w ∈ ["DESC", "ASC", "NULLS"], (next rest).isWord w = false := by
    simp only [Kind.endsTerm, Bool.and_eq_true, Bool.not_eq_true', List.any_eq_false] at hr
    intro w hw
    simpa using hr.2 w hw
  have hnext : (next (given descending (.word "DESC") ++ (NullOrder.tokens? nulls ++ rest))).ends 0
      = true := by
    cases descending with
    | true => exact ends_word (w := "DESC") (by cbv) (by cbv)
    | false =>
      cases nulls with
      | none => exact Kind.ends_of_endsTerm hr
      | some order => cases order <;> exact ends_word (w := "NULLS") (by cbv) (by cbv)
  have he := h.expr hready hc hnext
  unfold Grammar.orderTerm
  refine he.last fun c₁ hc₁ => ?_
  cases descending with
  | true =>
    have hc₁ : c₁.At (.word "DESC" :: (NullOrder.tokens? nulls ++ rest)) _ := hc₁
    obtain ⟨c₂, h₂, hc₂⟩ := nullOrder_apply hc₁.advance (hw _ (by simp))
    refine ⟨c₂, ?_, hc₂⟩
    rw [bind_ok (eatWord_of_isWord hc₁ (by cbv))]
    simp only [if_true]
    rw [bind_ok h₂]
    rfl
  | false =>
    have hc₁ : c₁.At (NullOrder.tokens? nulls ++ rest) _ := hc₁
    obtain ⟨c₂, h₂, hc₂⟩ := nullOrder_apply hc₁ (hw _ (by simp))
    have hd : (next (NullOrder.tokens? nulls ++ rest)).isWord "DESC" = false := by
      cases nulls with
      | none => exact hw _ (by simp)
      | some order => cases order <;> exact show (Kind.word "NULLS").isWord "DESC" = false by cbv
    have ha : (next (NullOrder.tokens? nulls ++ rest)).isWord "ASC" = false := by
      cases nulls with
      | none => exact hw _ (by simp)
      | some order => cases order <;> exact show (Kind.word "NULLS").isWord "ASC" = false by cbv
    refine ⟨c₂, ?_, hc₂⟩
    rw [bind_ok (eatWord_of_not hc₁ hd)]
    simp only [Bool.false_eq_true, if_false]
    rw [bind_ok (eatWord_of_not hc₁ ha), bind_ok h₂]
    rfl

theorem orderTerms (h : g.Reads n) {ts : List OrderTerm} (hne : ts ≠ [])
    (hready : Ready m (OrderTerm.nodesAll ts))
    (hc : c.At (commas (OrderTerm.tokenLists ts) ++ rest) m)
    (hr : (next rest).endsTerm = true) (hcomma : next rest ≠ .symbol .comma) :
    Gives (OrderTerm.depthAll ts ≤ n) (Plain (OrderTerm.nodesAll ts)) (commaList g.orderTerm) c ts
      rest (m + marks (OrderTerm.nodesAll ts)) := by
  rw [OrderTerm.nodesAll_eq] at hready ⊢
  rw [OrderTerm.tokenLists_eq] at hc
  rw [OrderTerm.depthAll_le]
  have hitem : ∀ t ∈ ts, ReadsItem g.orderTerm OrderTerm.tokens OrderTerm.nodes
      (fun t => t.depth ≤ n) (Plain (ts.flatMap OrderTerm.nodes))
      (fun rest => (next rest).endsTerm = true) t := by
    intro t ht c m rest hready hc hr
    refine (h.orderTerm hready hc ?_).imp Iff.rfl fun hp => plain_of_mem hp ht
    rcases hr with hr | hr
    · rw [hr]
      rfl
    · exact hr
  exact commaList_gives hne hitem hr hcomma hready hc

theorem optionalOrder (h : g.Reads n) {ts : List OrderTerm}
    (hready : Ready m (OrderTerm.nodesAll ts))
    (hc : c.At ((if ts.isEmpty then []
      else .keyword .ORDER :: .keyword .BY :: commas (OrderTerm.tokenLists ts)) ++ rest) m)
    (hr : (next rest).endsTerm = true) (hcomma : next rest ≠ .symbol .comma)
    (horder : next rest ≠ .keyword .ORDER) :
    Gives (OrderTerm.depthAll ts ≤ n) (Plain (OrderTerm.nodesAll ts)) g.optionalOrder c ts rest
      (m + marks (OrderTerm.nodesAll ts)) := by
  unfold Grammar.optionalOrder eatKeyword
  cases ts with
  | nil =>
    have hc : c.At rest m := hc
    refine .step (eat_of_ne hc horder) (.ok (by simp [OrderTerm.depthAll]) rfl ?_)
    simpa [OrderTerm.nodesAll] using hc
  | cons t ts =>
    have hc : c.At (.keyword .ORDER :: .keyword .BY ::
      (commas (OrderTerm.tokenLists (t :: ts)) ++ rest)) m := hc
    refine .step (eat_of_eq hc) ?_
    exact .step (expectKeyword_of_eq hc.advance)
      (h.orderTerms (by simp) hready hc.advance.advance hr hcomma)

/-- A bound that starts with neither of the words of its own is an offset. -/
theorem bound_eq_offset {e : Expr} {w : String} (hs : Node.steady (.bound (.preceding e)) = true)
    (hw : (Kind.word w).isWord "ROW" = false)
    (hc : c.At (parensIf (e.isLooser .concat) e.tokens ++ .word w :: rest) m) :
    g.bound c = (do
      let offset ← g.operand
      if ← eatWord "PRECEDING" then return .preceding offset
      else if ← eatWord "FOLLOWING" then return .following offset
      else unexpected "PRECEDING or FOLLOWING" : Parser Bound) c := by
  obtain ⟨k, ts, ht, -, hi⟩ := e.tokens_cons
  simp only [Node.steady, Bound.steady, Bool.or_eq_true, Bool.not_eq_true', Kind.startsUnbounded,
    ht, Kind.next_cons] at hs
  have hu : (next (parensIf (e.isLooser .concat) e.tokens ++ .word w :: rest)).isWord "UNBOUNDED" =
      false := by
    cases hb : e.isLooser .concat with
    | true => rfl
    | false => simpa [parensIf, ht, hb] using hs
  have hcur :
      ((next (parensIf (e.isLooser .concat) e.tokens ++ .word w :: rest)).isWord "CURRENT" &&
      ((parensIf (e.isLooser .concat) e.tokens ++ .word w :: rest).getD 1 .endOfInput).isWord "ROW")
      = false := by
    cases hb : e.isLooser .concat with
    | true => rfl
    | false =>
      simp only [parensIf, ht, Bool.false_eq_true, if_false, List.cons_append, Kind.next_cons,
        List.getD_cons_succ]
      cases ts with
      | nil => simp [hw]
      | cons k' ts' =>
        cases k with
        | ident x =>
          have hk := (hi rfl).2.2
          simp only [Kind.next_cons] at hk
          cases k' with
          | ident => simp at hk
          | _ => simp [Kind.isWord]
        | _ => rfl
  unfold Grammar.bound
  rw [bind_ok (eatWord_of_not hc hu)]
  simp only [Bool.false_eq_true, if_false]
  rw [bind_ok (checkWord_apply hc _), bind_ok (peekAt_apply hc 1), hcur]
  rfl

theorem bound (h : g.Reads n) {b : Bound} (hready : Ready m b.nodes)
    (hc : c.At (b.tokens ++ rest) m) :
    Gives (b.depth ≤ n) (Plain b.nodes) g.bound c b rest (m + marks b.nodes) := by
  cases b with
  | unboundedPreceding =>
    have hc : c.At (.word "UNBOUNDED" :: .word "PRECEDING" :: rest) m := by
      simpa [Bound.tokens] using hc
    refine .ok (by simp [Bound.depth]) ?_ hc.advance.advance
    unfold Grammar.bound
    rw [bind_ok (eatWord_of_isWord hc (by cbv))]
    simp only [if_true]
    rw [bind_ok (eatWord_of_isWord hc.advance (by cbv))]
    rfl
  | unboundedFollowing =>
    have hc : c.At (.word "UNBOUNDED" :: .word "FOLLOWING" :: rest) m := by
      simpa [Bound.tokens] using hc
    refine .ok (by simp [Bound.depth]) ?_ hc.advance.advance
    unfold Grammar.bound
    rw [bind_ok (eatWord_of_isWord hc (by cbv))]
    simp only [if_true]
    rw [bind_ok (eatWord_of_not hc.advance (word_ne_word (by cbv)))]
    simp only [Bool.false_eq_true, if_false]
    rw [bind_ok (eatWord_of_isWord hc.advance (by cbv))]
    rfl
  | currentRow =>
    have hc : c.At (.word "CURRENT" :: .word "ROW" :: rest) m := by
      simpa [Bound.tokens] using hc
    refine .ok (by simp [Bound.depth]) ?_ hc.advance.advance
    have hcur : ((Kind.word "CURRENT").isWord "CURRENT" && (Kind.word "ROW").isWord "ROW") = true :=
      by cbv
    unfold Grammar.bound
    rw [bind_ok (eatWord_of_not hc (word_ne_word (by cbv)))]
    simp only [Bool.false_eq_true, if_false]
    rw [bind_ok (checkWord_apply hc _), bind_ok (peekAt_apply hc 1)]
    simp only [Kind.next_cons, List.getD_cons_succ, List.getD_cons_zero, hcur, if_true]
    rfl
  | preceding e =>
    simp only [Bound.tokens, Bound.nodes, Bound.depth, List.append_assoc, List.singleton_append]
      at hc hready ⊢
    have hr := (ready_cons rfl).1 hready
    refine .of_eq (bound_eq_offset hr.1.steady (by cbv) hc) ?_
    have he := h.operand e _ Tier.concat.rank c m _ hr.2 (by simp [Expr.isLooser])
      (fun hb q hq => by subst hq; cases hb) hc (ends_word (by cbv) (by cbv))
    refine (he.imp Iff.rfl fun hp => (plain_cons.1 hp).2).last fun c₁ hc₁ => ?_
    refine ⟨c₁.advance, ?_, by simpa [Node.isMark] using hc₁.advance⟩
    rw [bind_ok (eatWord_of_isWord hc₁ (by cbv))]
    rfl
  | following e =>
    simp only [Bound.tokens, Bound.nodes, Bound.depth, List.append_assoc, List.singleton_append]
      at hc hready ⊢
    have hr := (ready_cons rfl).1 hready
    refine .of_eq (bound_eq_offset hr.1.steady (by cbv) hc) ?_
    have he := h.operand e _ Tier.concat.rank c m _ hr.2 (by simp [Expr.isLooser])
      (fun hb q hq => by subst hq; cases hb) hc (ends_word (by cbv) (by cbv))
    refine (he.imp Iff.rfl fun hp => (plain_cons.1 hp).2).last fun c₁ hc₁ => ?_
    refine ⟨c₁.advance, ?_, by simpa [Node.isMark] using hc₁.advance⟩
    rw [bind_ok (eatWord_of_not hc₁ (word_ne_word (by cbv)))]
    simp only [Bool.false_eq_true, if_false]
    rw [bind_ok (eatWord_of_isWord hc₁ (by cbv))]
    rfl

/-! ### Frames -/

/-- Does a frame start with the token? -/
def startsFrame (k : Kind) : Bool := k.isWord "ROWS" || k.isWord "RANGE" || k.isWord "GROUPS"

theorem unitsAhead_apply {ts : List Kind} (hc : c.At ts m) :
    unitsAhead c = .ok (startsFrame (next ts), c) := by
  unfold unitsAhead
  rw [bind_ok (peek_apply hc)]
  rfl

theorem frameUnits_apply {u : FrameUnits} (hc : c.At (u.token :: rest) m) :
    frameUnits c = .ok (u, c.advance) := by
  unfold frameUnits
  cases u with
  | rows =>
    rw [bind_ok (eatWord_of_isWord hc (by cbv))]
    rfl
  | range =>
    rw [bind_ok (eatWord_of_not hc (word_ne_word (by cbv)))]
    simp only [Bool.false_eq_true, if_false]
    rw [bind_ok (eatWord_of_isWord hc (by cbv))]
    rfl
  | groups =>
    rw [bind_ok (eatWord_of_not hc (word_ne_word (by cbv)))]
    simp only [Bool.false_eq_true, if_false]
    rw [bind_ok (eatWord_of_not hc (word_ne_word (by cbv)))]
    simp only [Bool.false_eq_true, if_false]
    rw [bind_ok (eatWord_of_isWord hc (by cbv))]
    rfl

theorem bound_tokens_cons (b : Bound) : ∃ k ts, b.tokens = k :: ts ∧ k.opens = true := by
  cases b with
  | preceding e | following e =>
    obtain ⟨k, ts, ht, hk, -⟩ := e.tokens_cons
    rw [Bound.tokens]
    cases e.isLooser .concat with
    | true => exact ⟨_, _, rfl, rfl⟩
    | false =>
      rw [ht]
      exact ⟨k, _, rfl, hk⟩
  | _ => exact ⟨_, _, by rw [Bound.tokens], rfl⟩

theorem frame (h : g.Reads n) {f : Frame} (hready : Ready m f.nodes)
    (hc : c.At (f.tokens ++ rest) m) :
    Gives (f.depth ≤ n) (Plain f.nodes) g.frame c f rest (m + marks f.nodes) := by
  obtain ⟨units, start, stop⟩ := f
  unfold Grammar.frame
  cases stop with
  | none =>
    simp only [Frame.tokens, Frame.nodes, Bound.nodes?, Frame.depth, Bound.depth?, List.append_nil,
      Nat.max_zero, List.cons_append] at hc hready ⊢
    have hne : next (start.tokens ++ rest) ≠ .keyword .BETWEEN := by
      obtain ⟨k, ts, ht, hk⟩ := bound_tokens_cons start
      rw [ht]
      exact Kind.ne_of_opens hk rfl
    refine .step (frameUnits_apply hc) (.step (eat_of_ne hc.advance hne) ?_)
    exact (h.bound hready hc.advance).last fun c' hc' => ⟨c', rfl, hc'⟩
  | some stop =>
    simp only [Frame.tokens, Frame.nodes, Bound.nodes?, Frame.depth, Bound.depth?,
      List.cons_append, List.append_assoc] at hc hready ⊢
    have hr := ready_append.1 hready
    refine .step (frameUnits_apply hc) (.step (eat_of_eq hc.advance) ?_)
    simp only [if_true]
    refine ((h.bound hr.1 hc.advance.advance).seq (fun hp => (plain_append.1 hp).1)
      fun c₁ hc₁ => .step (expectKeyword_of_eq hc₁) ?_).congr Nat.max_le
    have hs := h.bound hr.2 hc₁.advance
    refine (hs.imp Iff.rfl fun hp => (plain_append.1 hp).2).last fun c₂ hc₂ => ⟨c₂, rfl, ?_⟩
    simpa [Nat.add_assoc] using hc₂

/-! ### Windows -/

theorem baseWindow_some {x : Ident} (hx : x.delimited = true) (hc : c.At (.ident x :: rest) m) :
    baseWindow c = .ok (some x, c.advance) := by
  have hw : ∀ w, (Kind.ident x).isWord w = false := by simp [Kind.isWord, hx]
  unfold baseWindow
  rw [bind_ok (checkWord_apply hc _), bind_ok (peekAt_apply hc 1), bind_ok (check_apply hc _),
    bind_ok (unitsAhead_apply hc)]
  simp only [Kind.next_cons, hw, startsFrame, Bool.false_and, Bool.or_false]
  change (do Parser.optional (← peek).isIdent ident : Parser (Option Ident)) c = _
  rw [bind_ok (peek_apply hc)]
  exact map_ok (ident_apply hc)

theorem baseWindow_none {ts : List Kind} (hc : c.At ts m)
    (h : next ts = .keyword .ORDER ∨
      ((next ts).isWord "PARTITION" = true ∧ ts.getD 1 .endOfInput = .keyword .BY) ∨
      startsFrame (next ts) = true ∨ (next ts).isIdent = false) :
    baseWindow c = .ok (none, c) := by
  unfold baseWindow
  rw [bind_ok (checkWord_apply hc _), bind_ok (peekAt_apply hc 1), bind_ok (check_apply hc _),
    bind_ok (unitsAhead_apply hc)]
  rcases h with h | ⟨h, h'⟩ | h | h
  · simp only [h, beq_self_eq_true, Bool.true_or, if_true]
    rfl
  · simp only [h, h', beq_self_eq_true, Bool.and_self, Bool.or_true, Bool.true_or, if_true]
    rfl
  · simp only [h, Bool.or_true, if_true]
    rfl
  · split
    · rfl
    · rw [bind_ok (peek_apply hc), h]
      rfl

theorem partition (h : g.Reads n) {es : List Expr} (hready : Ready m (Expr.nodesAll es))
    (hc : c.At ((if es.isEmpty then []
      else .word "PARTITION" :: .keyword .BY :: commas (Expr.tokenLists es)) ++ rest) m)
    (hr : (next rest).ends 0 = true) (hcomma : next rest ≠ .symbol .comma)
    (hp : (next rest).isWord "PARTITION" = false) :
    Gives (Expr.depthAll es ≤ n) (Plain (Expr.nodesAll es)) g.partition c es rest
      (m + marks (Expr.nodesAll es)) := by
  unfold Grammar.partition
  cases es with
  | nil =>
    have hc : c.At rest m := hc
    refine .step (eatWord_of_not hc hp) (.ok (by simp [Expr.depthAll]) rfl ?_)
    simpa [Expr.nodesAll] using hc
  | cons e es =>
    have hc : c.At (.word "PARTITION" :: .keyword .BY ::
      (commas (Expr.tokenLists (e :: es)) ++ rest)) m := hc
    refine .step (eatWord_of_isWord hc (by cbv)) ?_
    exact .step (expectKeyword_of_eq hc.advance)
      (h.exprs (by simp) hready hc.advance.advance hr hcomma)

theorem frame?_next (f : Option Frame) (hr : next rest = .symbol .rightParen) :
    next (Frame.tokens? f ++ rest) = .symbol .rightParen ∨
      ∃ u : FrameUnits, next (Frame.tokens? f ++ rest) = u.token := by
  match f with
  | none => exact .inl hr
  | some ⟨u, _, none⟩ => exact .inr ⟨u, by rw [Frame.tokens?, Frame.tokens]; rfl⟩
  | some ⟨u, _, some _⟩ => exact .inr ⟨u, by rw [Frame.tokens?, Frame.tokens]; rfl⟩

theorem units_next (u : FrameUnits) : u.token.endsTerm = true ∧ startsFrame u.token = true ∧
    u.token.isWord "PARTITION" = false := by
  cases u <;> cbv

theorem optionalFrame (h : g.Reads n) {f : Option Frame} (hready : Ready m (Frame.nodes? f))
    (hc : c.At (Frame.tokens? f ++ rest) m) (hr : next rest = .symbol .rightParen) :
    Gives (Frame.depth? f ≤ n) (Plain (Frame.nodes? f))
      (Parser.optional (startsFrame (next (Frame.tokens? f ++ rest))) g.frame) c f rest
      (m + marks (Frame.nodes? f)) := by
  cases f with
  | none =>
    have hc : c.At rest m := hc
    have hn : startsFrame (next rest) = false := by rw [hr]; rfl
    simp only [Frame.tokens?, List.nil_append, hn, optional_false]
    exact .ok (by simp [Frame.depth?]) rfl (by simpa [Frame.nodes?] using hc)
  | some f =>
    have hn : startsFrame (next (Frame.tokens? (some f) ++ rest)) = true := by
      obtain ⟨u, start, stop⟩ := f
      cases stop <;> rw [Frame.tokens?, Frame.tokens] <;> exact (units_next u).2.1
    rw [hn, optional_true]
    simp only [Frame.tokens?, Frame.nodes?, Frame.depth?] at *
    exact (h.frame hready hc).map

/-- What may stand behind the partition of a window. -/
theorem order_next (order : List OrderTerm) {ts : List Kind} (ht : (next ts).ends 0 = true)
    (hcomma : next ts ≠ .symbol .comma) (hp : (next ts).isWord "PARTITION" = false) :
    let ts' := (if order.isEmpty then []
      else .keyword .ORDER :: .keyword .BY :: commas (OrderTerm.tokenLists order)) ++ ts
    (next ts').ends 0 = true ∧ next ts' ≠ .symbol .comma ∧
      (next ts').isWord "PARTITION" = false := by
  cases order with
  | nil => exact ⟨ht, hcomma, hp⟩
  | cons => exact ⟨rfl, by simp, rfl⟩

theorem baseWindow_apply {base : Option Ident} {partition : List Expr} {order : List OrderTerm}
    {ts : List Kind} (hb : ∀ x ∈ base, x.delimited = true)
    (ht : next ts = .symbol .rightParen ∨ ∃ u : FrameUnits, next ts = u.token)
    (hc : c.At ((base.map Ident.token).toList ++ ((if partition.isEmpty then []
      else .word "PARTITION" :: .keyword .BY :: commas (Expr.tokenLists partition)) ++
      ((if order.isEmpty then []
        else .keyword .ORDER :: .keyword .BY :: commas (OrderTerm.tokenLists order)) ++ ts))) m) :
    ∃ c', baseWindow c = .ok (base, c') ∧ c'.At ((if partition.isEmpty then []
      else .word "PARTITION" :: .keyword .BY :: commas (Expr.tokenLists partition)) ++
      ((if order.isEmpty then []
        else .keyword .ORDER :: .keyword .BY :: commas (OrderTerm.tokenLists order)) ++ ts)) m := by
  cases base with
  | some x =>
    have hx := hb x rfl
    simp only [Option.map_some, Option.toList_some, Ident.token_eq hx, List.singleton_append] at hc
    exact ⟨_, baseWindow_some hx hc, hc.advance⟩
  | none =>
    refine ⟨c, baseWindow_none hc ?_, hc⟩
    cases partition with
    | cons e es =>
      exact .inr (.inl ⟨show (Kind.word "PARTITION").isWord "PARTITION" = true by cbv, rfl⟩)
    | nil =>
      cases order with
      | cons t ts => exact .inl rfl
      | nil =>
        rcases ht with ht | ⟨u, ht⟩
        · exact .inr (.inr (.inr (by simp [ht])))
        · refine .inr (.inr (.inl ?_))
          simp [ht, (units_next u).2.1]

theorem window (h : g.Reads n) {w : Window} (hready : Ready m w.nodes)
    (hc : c.At (w.tokens ++ rest) m) (hr : next rest = .symbol .rightParen) :
    Gives (w.depth ≤ n) (Plain w.nodes) g.window c w rest (m + marks w.nodes) := by
  obtain ⟨base, partition, order, frame⟩ := w
  simp only [Window.tokens, Window.nodes, Window.depth, List.append_assoc] at hc hready ⊢
  obtain ⟨hgood, hr₁⟩ := (ready_cons rfl).1 hready
  obtain ⟨hp, hr₂⟩ := ready_append.1 hr₁
  obtain ⟨ho, hf⟩ := ready_append.1 hr₂
  have hnext := frame?_next frame hr
  obtain ⟨hterm, hcomma, horder, hpart⟩ : (next (Frame.tokens? frame ++ rest)).endsTerm = true ∧
      next (Frame.tokens? frame ++ rest) ≠ .symbol .comma ∧
      next (Frame.tokens? frame ++ rest) ≠ .keyword .ORDER ∧
      (next (Frame.tokens? frame ++ rest)).isWord "PARTITION" = false := by
    rcases hnext with hn | ⟨u, hn⟩ <;> rw [hn]
    · exact ⟨rfl, by simp, by simp, rfl⟩
    · exact ⟨(units_next u).1, by cases u <;> simp [FrameUnits.token],
        by cases u <;> simp [FrameUnits.token], (units_next u).2.2⟩
  obtain ⟨hends, hcomma', hpart'⟩ :=
    order_next order (Kind.ends_of_endsTerm hterm) hcomma hpart
  obtain ⟨c₁, h₁, hc₁⟩ := baseWindow_apply hgood.settled hnext hc
  unfold Grammar.window
  refine .step h₁ ?_
  simp only [Nat.max_le]
  refine (h.partition hp hc₁ hends hcomma' hpart').seq (by simp +contextual) fun c₂ hc₂ => ?_
  refine (h.optionalOrder ho hc₂ hterm hcomma horder).seq (by simp +contextual) fun c₃ hc₃ => ?_
  refine .step (unitsAhead_apply hc₃) ?_
  refine ((h.optionalFrame hf hc₃ hr).imp Iff.rfl (by simp +contextual)).last fun c₄ hc₄ => ?_
  refine ⟨c₄, rfl, ?_⟩
  simpa [Node.isMark, Nat.add_assoc] using hc₄

theorem overClause (h : g.Reads n) {o : Over} (hready : Ready m o.nodes)
    (hc : c.At (o.tokens ++ rest) m) :
    Gives (o.depth ≤ n) (Plain o.nodes) g.windowTarget c o rest (m + marks o.nodes) := by
  unfold windowTarget eatSymbol
  cases o with
  | named x =>
    simp only [Over.tokens, Over.nodes, Over.depth, List.singleton_append] at hc hready ⊢
    have hx : x.delimited = true := ((ready_cons rfl).1 hready).1.settled
    rw [Ident.token_eq hx] at hc
    refine .step (eat_of_ne hc (by simp)) (.ok (Nat.zero_le _) ?_ hc.advance)
    simp only [Bool.false_eq_true, if_false]
    rw [bind_ok (ident_apply hc)]
    rfl
  | window w =>
    simp only [Over.tokens, Over.nodes, Over.depth, Kind.parens, List.cons_append,
      List.append_assoc, List.nil_append] at hc hready ⊢
    have hr := ((ready_cons rfl).1 hready).2
    refine .step (eat_of_eq hc) ?_
    simp only [if_true]
    have hw := h.window hr hc.advance rfl
    refine (hw.imp Iff.rfl fun hp => (plain_cons.1 hp).2).last fun c₁ hc₁ => ⟨c₁.advance, ?_, ?_⟩
    · rw [bind_ok (expectSymbol_of_eq hc₁)]
      rfl
    · simpa [Node.isMark] using hc₁.advance

theorem namedWindow (h : g.Reads n) {w : NamedWindow} (hready : Ready m w.nodes)
    (hc : c.At (w.tokens ++ rest) m) :
    Gives (w.depth ≤ n) (Plain w.nodes) g.namedWindow c w rest (m + marks w.nodes) := by
  obtain ⟨x, w⟩ := w
  simp only [NamedWindow.tokens, NamedWindow.nodes, NamedWindow.depth, List.cons_append]
    at hc hready ⊢
  obtain ⟨hgood, hr⟩ := (ready_cons rfl).1 hready
  rw [Ident.token_eq hgood.settled] at hc
  unfold Grammar.namedWindow
  refine .step (ident_apply hc) (.step (expectKeyword_of_eq hc.advance) ?_)
  have hw := parens_gives hc.advance.advance fun c' hc' => h.window hr hc' rfl
  refine (hw.imp Iff.rfl fun hp => (plain_cons.1 hp).2).last fun c₁ hc₁ => ⟨c₁, rfl, ?_⟩
  simpa [Node.isMark] using hc₁

theorem namedWindows (h : g.Reads n) {ws : List NamedWindow} (hne : ws ≠ [])
    (hready : Ready m (NamedWindow.nodesAll ws))
    (hc : c.At (commas (NamedWindow.tokenLists ws) ++ rest) m)
    (hcomma : next rest ≠ .symbol .comma) :
    Gives (NamedWindow.depthAll ws ≤ n) (Plain (NamedWindow.nodesAll ws))
      (commaList g.namedWindow) c ws rest (m + marks (NamedWindow.nodesAll ws)) := by
  rw [NamedWindow.nodesAll_eq] at hready ⊢
  rw [NamedWindow.tokenLists_eq] at hc
  rw [NamedWindow.depthAll_le]
  have hitem : ∀ w ∈ ws, ReadsItem g.namedWindow NamedWindow.tokens NamedWindow.nodes
      (fun w => w.depth ≤ n) (Plain (ws.flatMap NamedWindow.nodes)) (fun _ => True) w := by
    intro w hw c m rest hready hc _
    exact (h.namedWindow hready hc).imp Iff.rfl fun hp => plain_of_mem hp hw
  exact commaList_gives hne hitem trivial hcomma hready hc

end Sql.Grammar.Reads
