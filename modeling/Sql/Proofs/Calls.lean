import Sql.Proofs.Windows

/-! Reading calls. -/
namespace Sql

open Sql.Parser
open Token (Kind)
open Token.Kind (next commas)

/-- The tokens of a call behind its name. -/
def Call.tailTokens (c : Call) : List Kind :=
  Kind.parens ((c.quantifier.map Quantifier.token).toList ++ (commas (Expr.tokenLists c.args) ++
    if c.order.isEmpty then []
    else .keyword .ORDER :: .keyword .BY :: commas (OrderTerm.tokenLists c.order))) ++
  (Expr.filterTokens c.filter ++ (NullTreatment.tokens? c.nulls ++ Over.tokens? c.window))

theorem Call.tokens_eq {c : Call} (h : c.isBare = false) :
    c.tokens = c.name.callTokens ++ c.tailTokens := by
  obtain ⟨name, quantifier, args, order, filter, nulls, window⟩ := c
  rw [Call.tokens]
  simp only [h, Bool.false_eq_true, if_false, tailTokens]

namespace Grammar

/-- The rest of a call after its arguments. -/
def callTail (g : Grammar) (name : Name) (quantifier : Option Quantifier) (args : List Expr)
    (order : List OrderTerm) : Parser Expr := do
  let filtered := (← checkWord "FILTER") && (← peekAt 1) == .symbol .leftParen
  let filter ← Parser.optional filtered do
    advance
    advance
    expectKeyword .WHERE
    let condition ← g.expr
    expectSymbol .rightParen
    return condition
  let nulls ← if (← peekAt 1).isWord "NULLS" then do
      if ← eatWord "IGNORE" then advance; pure (some .ignore)
      else if ← eatWord "RESPECT" then advance; pure (some .respect)
      else pure none
    else pure none
  let window ← Parser.optional (← eatWord "OVER") g.windowTarget
  return .call ⟨name, quantifier, args, order, filter, nulls, window⟩

namespace Reads

variable {g : Grammar} {n m : Nat} {c : Cursor} {rest : List Kind}

theorem quantifier_apply {q : Option Quantifier}
    (hc : c.At ((q.map Quantifier.token).toList ++ rest) m)
    (hd : next rest ≠ .keyword .DISTINCT) (ha : next rest ≠ .keyword .ALL) :
    ∃ c', quantifier c = .ok (q, c') ∧ c'.At rest m := by
  unfold quantifier eatKeyword
  match q with
  | none =>
    refine ⟨c, ?_, hc⟩
    rw [bind_ok (eat_of_ne hc hd)]
    simp only [Bool.false_eq_true, if_false]
    rw [bind_ok (eat_of_ne hc ha)]
    rfl
  | some .distinct =>
    have hc : c.At (.keyword .DISTINCT :: rest) m := hc
    refine ⟨c.advance, ?_, hc.advance⟩
    rw [bind_ok (eat_of_eq hc)]
    rfl
  | some .all =>
    have hc : c.At (.keyword .ALL :: rest) m := hc
    refine ⟨c.advance, ?_, hc.advance⟩
    rw [bind_ok (eat_of_ne hc (by simp))]
    simp only [Bool.false_eq_true, if_false]
    rw [bind_ok (eat_of_eq hc)]
    rfl

theorem optionalFilter (h : g.Reads n) {f : Option Expr} (hready : Ready m (Expr.nodes? f))
    (hc : c.At (Expr.filterTokens f ++ rest) m) (hr : (next rest).isWord "FILTER" = false) :
    Gives (Expr.depth? f ≤ n) (Plain (Expr.nodes? f))
      (Parser.optional ((next (Expr.filterTokens f ++ rest)).isWord "FILTER" &&
          (Expr.filterTokens f ++ rest).getD 1 .endOfInput == .symbol .leftParen) do
        advance
        advance
        expectKeyword .WHERE
        let condition ← g.expr
        expectSymbol .rightParen
        return condition) c f rest (m + marks (Expr.nodes? f)) := by
  cases f with
  | none =>
    simp only [Expr.filterTokens, List.nil_append, hr, Bool.false_and, optional_false]
    exact .ok (by simp [Expr.depth?]) rfl (by simpa [Expr.nodes?, Expr.filterTokens] using hc)
  | some e =>
    simp only [Expr.filterTokens, Expr.nodes?, Expr.depth?, Kind.parens, List.cons_append,
      List.append_assoc, List.nil_append] at hc hready ⊢
    have hf : (Kind.word "FILTER").isWord "FILTER" = true := by cbv
    simp only [Kind.next_cons, hf, List.getD_cons_succ, List.getD_cons_zero, beq_self_eq_true,
      Bool.and_self, optional_true]
    refine Gives.map (.step advance_apply (.step advance_apply ?_))
    refine .step (expectKeyword_of_eq hc.advance.advance) ?_
    refine (h.expr hready hc.advance.advance.advance rfl).last fun c₁ hc₁ => ⟨c₁.advance, ?_, ?_⟩
    · rw [bind_ok (expectSymbol_of_eq hc₁)]
      rfl
    · exact hc₁.advance

theorem nulls_apply {α : Type} {K : Option NullTreatment → Parser α} {nulls : Option NullTreatment}
    (hc : c.At (NullTreatment.tokens? nulls ++ rest) m)
    (hi : (next rest).isWord "IGNORE" = false) (hr : (next rest).isWord "RESPECT" = false) :
    ∃ c', c'.At rest m ∧ (do
      let nulls ← if (← peekAt 1).isWord "NULLS" then do
          if ← eatWord "IGNORE" then advance; pure (some .ignore)
          else if ← eatWord "RESPECT" then advance; pure (some .respect)
          else pure none
        else pure none
      K nulls : Parser α) c = K nulls c' := by
  match nulls with
  | none =>
    have hc : c.At rest m := hc
    refine ⟨c, hc, ?_⟩
    rw [bind_ok (peekAt_apply hc 1)]
    split
    · rw [bind_ok (eatWord_of_not hc hi)]
      simp only [Bool.false_eq_true, if_false]
      rw [bind_ok (eatWord_of_not hc hr)]
      rfl
    · rfl
  | some .ignore =>
    have hc : c.At (.word "IGNORE" :: .word "NULLS" :: rest) m := hc
    have hn : ((Kind.word "IGNORE" :: Kind.word "NULLS" :: rest).getD 1 .endOfInput).isWord
        "NULLS" = true :=
      show (Kind.word "NULLS").isWord "NULLS" = true by cbv
    refine ⟨_, hc.advance.advance, ?_⟩
    rw [bind_ok (peekAt_apply hc 1)]
    simp only [hn, if_true]
    rw [bind_ok (eatWord_of_isWord hc (by cbv))]
    rfl
  | some .respect =>
    have hc : c.At (.word "RESPECT" :: .word "NULLS" :: rest) m := hc
    have hn : ((Kind.word "RESPECT" :: Kind.word "NULLS" :: rest).getD 1 .endOfInput).isWord
        "NULLS" = true :=
      show (Kind.word "NULLS").isWord "NULLS" = true by cbv
    refine ⟨_, hc.advance.advance, ?_⟩
    rw [bind_ok (peekAt_apply hc 1)]
    simp only [hn, if_true]
    rw [bind_ok (eatWord_of_not hc (word_ne_word (by cbv)))]
    simp only [Bool.false_eq_true, if_false]
    rw [bind_ok (eatWord_of_isWord hc (by cbv))]
    rfl

/-- The words that may follow the arguments of a call are told apart by the first of them. -/
theorem callTail_next (nulls : Option NullTreatment) (window : Option Over)
    (hr : (next rest).attaches = false) :
    (next (NullTreatment.tokens? nulls ++ (Over.tokens? window ++ rest))).isWord "FILTER" = false ∧
      (next (Over.tokens? window ++ rest)).isWord "IGNORE" = false ∧
      (next (Over.tokens? window ++ rest)).isWord "RESPECT" = false ∧
      (next rest).isWord "OVER" = false := by
  have hw : ∀ w ∈ ["FILTER", "OVER", "IGNORE", "RESPECT", "TO"], (next rest).isWord w = false := by
    unfold Kind.attaches at hr
    split at hr
    · cases hr
    · cases hr
    · cases hr
    · intro w hw
      simpa using List.any_eq_false.1 hr w hw
  refine ⟨?_, ?_, ?_, hw _ (by simp)⟩
  · cases nulls with
    | none =>
      cases window with
      | none => exact hw _ (by simp)
      | some o =>
        rw [Over.tokens?]
        exact show (Kind.word "OVER").isWord "FILTER" = false by cbv
    | some treatment =>
      cases treatment with
      | ignore => exact show (Kind.word "IGNORE").isWord "FILTER" = false by cbv
      | respect => exact show (Kind.word "RESPECT").isWord "FILTER" = false by cbv
  · cases window with
    | none => exact hw _ (by simp)
    | some o =>
      rw [Over.tokens?]
      exact show (Kind.word "OVER").isWord "IGNORE" = false by cbv
  · cases window with
    | none => exact hw _ (by simp)
    | some o =>
      rw [Over.tokens?]
      exact show (Kind.word "OVER").isWord "RESPECT" = false by cbv

theorem optionalOver (h : g.Reads n) {o : Option Over} (hready : Ready m (Over.nodes? o))
    (hc : c.At (Over.tokens? o ++ rest) m) (hr : (next rest).isWord "OVER" = false)
    {K : Option Over → Parser Expr} {e : Expr} (hK : ∀ c', K o c' = .ok (e, c')) :
    Gives (Over.depth? o ≤ n) (Plain (Over.nodes? o))
      (do
        let window ← Parser.optional (← eatWord "OVER") g.windowTarget
        K window) c e rest (m + marks (Over.nodes? o)) := by
  cases o with
  | none =>
    have hc : c.At rest m := hc
    refine .step (eatWord_of_not hc hr) (.ok (by simp [Over.depth?]) (hK c) ?_)
    simpa [Over.nodes?] using hc
  | some o =>
    simp only [Over.tokens?, Over.nodes?, Over.depth?, List.cons_append] at hc hready ⊢
    refine .step (eatWord_of_isWord hc (by cbv)) ?_
    rw [optional_true]
    exact (h.overClause hready hc.advance).map.last fun c₁ hc₁ => ⟨c₁, hK c₁, hc₁⟩

theorem callTail (h : g.Reads n) (name : Name) (quantifier : Option Quantifier) (args : List Expr)
    (order : List OrderTerm) {filter : Option Expr} {nulls : Option NullTreatment}
    {window : Option Over} (hready : Ready m (Expr.nodes? filter ++ Over.nodes? window))
    (hc : c.At (Expr.filterTokens filter ++ (NullTreatment.tokens? nulls ++
      (Over.tokens? window ++ rest))) m) (hr : (next rest).attaches = false) :
    Gives (Expr.depth? filter ≤ n ∧ Over.depth? window ≤ n)
      (Plain (Expr.nodes? filter ++ Over.nodes? window))
      (g.callTail name quantifier args order) c
      (.call ⟨name, quantifier, args, order, filter, nulls, window⟩) rest
      (m + marks (Expr.nodes? filter ++ Over.nodes? window)) := by
  obtain ⟨hf, ho⟩ := ready_append.1 hready
  obtain ⟨hfilter, hi, hresp, hover⟩ := callTail_next nulls window hr
  unfold Grammar.callTail
  refine .step (checkWord_apply hc _) (.step (peekAt_apply hc 1) ?_)
  refine (h.optionalFilter hf hc hfilter).seq (by simp +contextual) fun c₁ hc₁ => ?_
  obtain ⟨c₂, hc₂, he⟩ := nulls_apply (K := fun nulls => do
    let window ← Parser.optional (← eatWord "OVER") g.windowTarget
    return Expr.call ⟨name, quantifier, args, order, filter, nulls, window⟩) hc₁ hi hresp
  refine .of_eq he ?_
  refine ((h.optionalOver ho hc₂ hover fun c' => rfl).imp Iff.rfl (by simp +contextual)).marks ?_
  rw [marks_append, Nat.add_assoc]

theorem call (h : g.Reads n) {call : Call} (hready : Ready m call.nodes)
    (hc : c.At (call.tailTokens ++ rest) m) (hr : (next rest).attaches = false) :
    Gives (call.depth ≤ n + 1) (Plain call.nodes) (g.call call.name) c (.call call) rest
      (m + marks call.nodes) := by
  obtain ⟨name, quantifier, args, order, filter, nulls, window⟩ := call
  simp only [Call.tailTokens, Call.nodes, Call.depth, Kind.parens, List.cons_append,
    List.append_assoc, List.nil_append, Nat.add_le_add_iff_right, Nat.max_le] at hc hready ⊢
  obtain ⟨hgood, hr₁⟩ := (ready_cons rfl).1 hready
  obtain ⟨ha, hr₂⟩ := ready_append.1 hr₁
  obtain ⟨ho, hr₃⟩ := ready_append.1 hr₂
  unfold Grammar.call
  refine .step (expectSymbol_of_eq hc) ?_
  cases args with
  | nil =>
    obtain ⟨rfl, rfl⟩ : quantifier = none ∧ order = [] := hgood.sound.noArgs rfl
    have hc₁ : c.advance.At (.symbol .rightParen :: (Expr.filterTokens filter ++
      (NullTreatment.tokens? nulls ++ (Over.tokens? window ++ rest)))) m := hc.advance
    refine .step (eat_of_eq hc₁) ?_
    have ht := h.callTail name none [] [] hr₃ hc₁.advance hr
    refine (ht.imp ?_ ?_).marks ?_
    · simp [Expr.depthAll, OrderTerm.depthAll]
    · simp [Expr.nodesAll, OrderTerm.nodesAll]
    · simp [Expr.nodesAll, OrderTerm.nodesAll, Node.isMark]
  | cons e es =>
    have hopen : ∀ k : Kind, k.opens = false → next (commas (Expr.tokenLists (e :: es)) ++
        ((if order.isEmpty then []
          else .keyword .ORDER :: .keyword .BY :: commas (OrderTerm.tokenLists order)) ++
        .symbol .rightParen :: (Expr.filterTokens filter ++ (NullTreatment.tokens? nulls ++
          (Over.tokens? window ++ rest))))) ≠ k := by
      intro k hk
      obtain ⟨k', ts, ht, hk', -⟩ := e.tokens_cons
      rw [Expr.tokenLists, Kind.commas_cons, ht]
      exact Kind.ne_of_opens hk' hk
    obtain ⟨c₁, h₁, hc₁⟩ := quantifier_apply hc.advance (hopen _ rfl) (hopen _ rfl)
    have hparen : eat (.symbol .rightParen) c.advance = .ok (false, c.advance) := by
      refine eat_of_ne hc.advance ?_
      cases quantifier with
      | none => exact hopen _ rfl
      | some q => cases q <;> simp [Quantifier.token]
    refine .step hparen ?_
    simp only [Bool.false_eq_true, if_false]
    refine .step h₁ ?_
    have hend : (next ((if order.isEmpty then []
        else .keyword .ORDER :: .keyword .BY :: commas (OrderTerm.tokenLists order)) ++
        .symbol .rightParen :: (Expr.filterTokens filter ++ (NullTreatment.tokens? nulls ++
          (Over.tokens? window ++ rest))))).ends 0 = true ∧
        next ((if order.isEmpty then []
        else .keyword .ORDER :: .keyword .BY :: commas (OrderTerm.tokenLists order)) ++
        .symbol .rightParen :: (Expr.filterTokens filter ++ (NullTreatment.tokens? nulls ++
          (Over.tokens? window ++ rest)))) ≠ .symbol .comma := by
      cases order with
      | nil => exact ⟨rfl, by simp⟩
      | cons => exact ⟨rfl, by simp⟩
    refine (h.exprs (by simp) ha hc₁ hend.1 hend.2).seq (by simp +contextual) fun c₂ hc₂ => ?_
    refine (h.optionalOrder ho hc₂ rfl (by simp) (by simp)).seq (by simp +contextual)
      fun c₃ hc₃ => .step (expectSymbol_of_eq hc₃) ?_
    have ht := h.callTail name quantifier (e :: es) order hr₃ hc₃.advance hr
    refine (ht.imp Iff.rfl ?_).marks ?_
    · simp +contextual
    · simp [Node.isMark, Nat.add_assoc]

end Reads

end Grammar

end Sql
