import Sql.Proofs.Stray

/-! Reading the relations of a FROM clause. -/
namespace Sql

open Sql.Parser
open Token (Kind)
open Token.Kind (next parensIf given commas)

namespace Relation

/-- The relation that the text starts with, and whether it stands in parentheses. -/
def leftOperand? : Relation → Option (Bool × Relation)
  | .renamed r _ _ => some (r.tier.rank ≤ Tier.renamed.rank, r)
  | .join l _ _ _ => some (false, l)
  | .sample r _ _ => some (r.tier.rank ≤ Tier.sampled.rank, r)
  | _ => none

variable {r l : Relation} {b : Bool} {rest : List Kind}

theorem join_tokens (criteria : Criteria) (kind : JoinKind) (ts : List Kind) :
    ∃ k ts', given criteria.isNatural (.keyword .NATURAL) ++ (kind.tokens ++ ts) = k :: ts' ∧
      k.joinsRelation = true ∧ k.ends 0 = true ∧ k.endsTier .sampled = true := by
  cases criteria with
  | natural => exact ⟨_, _, rfl, rfl, rfl, rfl⟩
  | _ => cases kind <;> exact ⟨_, _, rfl, rfl, rfl, rfl⟩

theorem tokens_left (h : r.leftOperand? = some (b, l)) :
    ∃ k ts, r.tokens = parensIf b l.tokens ++ k :: ts ∧ k.joinsRelation = true := by
  cases r with
  | renamed r x cs => cases h; exact ⟨_, _, by rw [Relation.tokens], rfl⟩
  | sample r s p => cases h; exact ⟨_, _, by rw [Relation.tokens], rfl⟩
  | join l r kind criteria =>
    cases h
    obtain ⟨k, ts, ht, hk, -⟩ := join_tokens criteria kind
      (parensIf (r.tier.rank ≤ Relation.Tier.join.rank) r.tokens ++ criteria.tokens)
    exact ⟨k, ts, by rw [Relation.tokens, ht]; rfl, hk⟩
  | _ => simp [leftOperand?] at h

theorem nodes_left (h : r.leftOperand? = some (b, l)) :
    ∃ ns, r.nodes = .relation r :: (l.nodes ++ ns) := by
  cases r with
  | renamed r x cs => cases h; exact ⟨[], by simp [Relation.nodes]⟩
  | sample | join => cases h; exact ⟨_, by rw [Relation.nodes]⟩
  | _ => simp [leftOperand?] at h

theorem depth_left (h : r.leftOperand? = some (b, l)) : parensDepth b l.depth ≤ r.depth := by
  cases r with
  | renamed => cases h; exact Nat.le_of_eq (by rw [Relation.depth])
  | sample | join => cases h; rw [Relation.depth]; exact Nat.le_max_left ..
  | _ => simp [leftOperand?] at h

theorem tier_of_left (h : r.leftOperand? = some (true, l)) : l.tier.rank ≤ Tier.renamed.rank := by
  cases r with
  | renamed =>
    simp only [leftOperand?, Option.some.injEq, Prod.mk.injEq, decide_eq_true_eq] at h
    exact h.2 ▸ h.1
  | sample =>
    simp only [leftOperand?, Option.some.injEq, Prod.mk.injEq, decide_eq_true_eq] at h
    exact Nat.le_trans (h.2 ▸ h.1) (by decide)
  | _ => simp [leftOperand?] at h

theorem tier_of_head (h : r.leftOperand? = none) : r.tier = .primary := by
  cases r <;> first | rfl | simp [leftOperand?] at h

theorem length_lt_of_left (h : r.leftOperand? = some (b, l)) :
    l.tokens.length < r.tokens.length := by
  obtain ⟨k, ts, ht, -⟩ := tokens_left h
  have hle : l.tokens.length ≤ (parensIf b l.tokens).length := by
    unfold parensIf
    split
    · simp [Kind.parens]
      omega
    · exact Nat.le_refl _
  rw [ht, List.length_append, List.length_cons]
  omega

/-- To show something of all relations, go from the first operand to the whole. -/
theorem left_induction {motive : Relation → Prop} (head : ∀ r, r.leftOperand? = none → motive r)
    (left : ∀ r b l, r.leftOperand? = some (b, l) → motive l → motive r) (r : Relation) :
    motive r := by
  induction h : r.tokens.length using Nat.strongRecOn generalizing r with
  | _ size ih =>
    cases hl : r.leftOperand? with
    | none => exact head r hl
    | some p => exact left r p.1 p.2 hl (ih _ (h ▸ length_lt_of_left hl) p.2 rfl)

theorem opensQuery_of_head (h : r.leftOperand? = none) (hq : r.query? = none) :
    (next (r.tokens ++ rest)).opensQuery = false ∧ Kind.startsQuery (r.tokens ++ rest) = false := by
  cases r with
  | table n s =>
    obtain ⟨x, ts, ht, -⟩ := n.tokens_cons
    rw [Relation.tokens, ht]
    exact ⟨rfl, rfl⟩
  | unnest | lateral => rw [Relation.tokens]; exact ⟨rfl, rfl⟩
  | query | setOperation | values => cases hq
  | _ => simp [leftOperand?] at h

/-- A relation without a query in it does not start like one. -/
theorem startsQuery_tokens (h : Plain r.nodes) : Kind.startsQuery (r.tokens ++ rest) = false := by
  induction r using left_induction generalizing rest with
  | head r hr =>
    cases hq : r.query? with
    | none => exact (opensQuery_of_head hr hq).2
    | some q =>
      cases r with
      | query | setOperation | values => simp [Relation.nodes, Node.plain] at h
      | _ => cases hq
  | left r b l hr ih =>
    obtain ⟨k, ts, ht, -⟩ := tokens_left hr
    obtain ⟨ns, hns⟩ := nodes_left hr
    rw [hns] at h
    have hl := (plain_append.1 (plain_cons.1 h).2).1
    rw [ht, List.append_assoc]
    cases b with
    | false => exact ih hl
    | true =>
      simp only [parensIf, if_true, Kind.parens, List.cons_append, List.append_assoc,
        Kind.startsQuery]
      exact ih hl

end Relation

theorem Query.depth_setOperation (o : SetOperation) :
    (Query.ofBody (.setOperation o)).depth = o.depth := by
  obtain ⟨operator, all, left, right⟩ := o
  have hl := left.one_le_depth
  simp only [Query.ofBody, Query.depth, With.depth?, Body.depth, SetOperation.depth,
    OrderTerm.depthAll, parensDepth]
  split <;> split <;> omega

namespace Relation

variable {r : Relation} {q : Query} {m : Nat}

theorem depth_query (h : r.query? = some q) : r.depth = q.depth + 1 := by
  cases r with
  | query => cases h; rw [Relation.depth]
  | setOperation o => cases h; rw [Relation.depth, Query.depth_setOperation]
  | values rows =>
    cases h
    simp [Relation.depth, Query.ofBody, Query.depth, With.depth?, Body.depth, OrderTerm.depthAll]
  | _ => cases h

theorem good_ofBody {body : Body} (h : ∀ inner, body ≠ .nested inner) :
    (Node.query (.ofBody body)).Good :=
  ⟨⟨fun inner he => absurd he (h inner), by simp [Query.ofBody], by simp [Query.ofBody]⟩, trivial,
    rfl⟩

/-- The parts of a relation that is a query are read back from the query. -/
theorem ready_query (h : r.query? = some q) (hready : Ready m r.nodes) :
    Ready m q.nodes ∧ marks q.nodes = marks r.nodes := by
  cases r with
  | query q =>
    cases h
    rw [Relation.nodes] at hready ⊢
    exact ⟨((ready_cons rfl).1 hready).2, by simp [Node.isMark]⟩
  | setOperation o =>
    cases h
    simp only [Relation.nodes, Query.ofBody, Query.nodes, With.nodes?, Body.nodes,
      OrderTerm.nodesAll, List.nil_append, List.append_nil] at hready ⊢
    refine ⟨(ready_cons rfl).2 ⟨good_ofBody (by simp), (ready_cons rfl).2 ⟨?_, ?_⟩⟩, ?_⟩
    · exact ⟨trivial, trivial, rfl⟩
    · exact ((ready_cons rfl).1 hready).2
    · simp [Node.isMark]
  | values rows =>
    cases h
    simp only [Relation.nodes, Query.ofBody, Query.nodes, With.nodes?, Body.nodes,
      OrderTerm.nodesAll, List.nil_append, List.append_nil] at hready ⊢
    have hgood := ((ready_cons rfl).1 hready).1
    refine ⟨(ready_cons rfl).2 ⟨good_ofBody (by simp), (ready_cons rfl).2 ⟨?_, ?_⟩⟩, ?_⟩
    · exact ⟨hgood.sound, trivial, rfl⟩
    · exact ((ready_cons rfl).1 hready).2
    · simp [Node.isMark]
  | _ => cases h

theorem ofQuery_query (h : r.query? = some q) (hs : r.Sound) : Relation.ofQuery q = r := by
  cases r with
  | query q =>
    cases h
    unfold Relation.ofQuery
    cases hm : q.isModified with
    | true => rfl
    | false =>
      obtain ⟨bindings, body, order, offset, limit⟩ := q
      simp only [Query.isModified, Bool.or_eq_false_iff, Option.isSome_eq_false_iff,
        Option.isNone_iff_eq_none, Bool.not_eq_false', List.isEmpty_iff] at hm
      obtain ⟨⟨⟨rfl, rfl⟩, rfl⟩, rfl⟩ := hm
      rcases hs with hs | ⟨s, hs⟩ | ⟨n, hs⟩
      · cases hs
      · cases hs; rfl
      · cases hs; rfl
  | setOperation | values => cases h; rfl
  | _ => cases h

end Relation

namespace Grammar.Reads

variable {g : Grammar} {n m : Nat} {c : Cursor} {rest ts : List Kind} {r : Relation} {b : Bool}

theorem strayRelationNext (h : g.Reads n) (r : Relation) : ∀ (c : Cursor) (m : Nat) (k : Kind)
    (rest : List Kind), Ready m r.nodes → r.depth ≤ n + 1 → c.At (r.tokens ++ k :: rest) m →
    k.joinsRelation = true ∨
      (k = .symbol .rightParen ∧ r.tier.rank ≤ Relation.Tier.renamed.rank) →
    ∃ e, g.strayQuery c = .error e := by
  induction r using Relation.left_induction with
  | head r hr =>
    intro c m k rest hready hd hc hk
    have hk : k.joinsRelation = true := by
      rcases hk with hk | ⟨-, ht⟩
      · exact hk
      · rw [Relation.tier_of_head hr] at ht
        simp [Relation.Tier.rank] at ht
    cases hq : r.query? with
    | none => exact stray_of_opens hc (Relation.opensQuery_of_head hr hq).1
    | some q =>
      rw [Relation.tokens_query hq] at hc
      rw [Relation.depth_query hq] at hd
      refine h.stray_of_query (Relation.ready_query hq hready).1 (by omega) hc
        (Kind.extendsQuery_of_joinsRelation hk) ?_
      rintro rfl
      cases hk
  | left r b l hr ih =>
    intro c m k rest hready hd hc hk
    obtain ⟨k', ts', ht, hk'⟩ := Relation.tokens_left hr
    obtain ⟨ns, hns⟩ := Relation.nodes_left hr
    have hdl := Relation.depth_left hr
    rw [hns] at hready
    have hl := (ready_append.1 ((ready_cons rfl).1 hready).2).1
    rw [ht, List.append_assoc, List.cons_append] at hc
    cases b with
    | false => exact ih c m k' _ hl (Nat.le_trans hdl hd) hc (.inl hk')
    | true =>
      simp only [parensIf, Kind.parens, if_true, List.cons_append, List.append_assoc] at hc
      have hdl : l.depth + 1 ≤ r.depth := hdl
      exact stray_of_paren hc (h.strayRelation l _ m _ hl (by omega) (Relation.tier_of_left hr)
        hc.advance)

/-! ### Relations without joins -/

/-- A relation in parentheses. -/
theorem wrappedRelation (h : g.Reads n) (ht : r.tier.rank ≤ Relation.Tier.renamed.rank)
    (hready : Ready m r.nodes) (hc : c.At (Kind.parens r.tokens ++ rest) m) :
    Gives (r.depth ≤ n) (Plain r.nodes) g.primaryRelation c r rest (m + marks r.nodes) := by
  have hc₁ : c.At (.symbol .leftParen :: (r.tokens ++ .symbol .rightParen :: rest)) m := by
    simpa [Kind.parens] using hc
  have hparens : Gives (r.depth ≤ n) (Plain r.nodes) (parens g.relation) c r rest
      (m + marks r.nodes) :=
    parens_gives hc fun c₁ hc₁ => h.relation r c₁ m _ hready hc₁ rfl
  unfold primaryRelation
  refine .step (peek_apply hc₁) ?_
  change Gives _ _ g.parenRelation c r rest _
  unfold parenRelation
  refine .step (queryAhead_apply hc₁) ?_
  simp only [Kind.next_cons, Kind.startsQuery, beq_self_eq_true, Bool.true_and]
  cases hs : Kind.startsQuery (r.tokens ++ .symbol .rightParen :: rest) with
  | false =>
    simp only [Bool.false_eq_true, if_false]
    exact hparens
  | true =>
    simp only [if_true]
    refine .of_not (fun hp => by simp [Relation.startsQuery_tokens hp] at hs) fun hd => ?_
    obtain ⟨e, he⟩ : ∃ e, g.parenQuery c = .error e :=
      parens_error hc₁ (h.strayRelation r _ m _ hready hd ht hc₁.advance)
    obtain ⟨c₂, h₂, hc₂⟩ := hparens.1 hd
    exact ⟨c₂, by rw [bind_ok (attempt_error he)]; exact h₂, hc₂⟩

theorem queryRelation (h : g.Reads n) {q : Query} (hq : r.query? = some q)
    (hready : Ready m r.nodes) (hc : c.At (r.tokens ++ rest) m) :
    Gives (r.depth ≤ n + 1) (Plain r.nodes) g.primaryRelation c r rest (m + marks r.nodes) := by
  have hplain : ¬ Plain r.nodes := by
    cases r with
    | query | setOperation | values => simp [Relation.nodes, Node.plain]
    | _ => cases hq
  have hs : r.Sound := (hready.good (.relation r) r.mem_nodes).sound
  obtain ⟨hr, hm⟩ := Relation.ready_query hq hready
  rw [Relation.tokens_query hq] at hc
  rw [Relation.depth_query hq, ← hm]
  refine .of_not hplain fun hd => ?_
  obtain ⟨c₁, h₁, hc₁⟩ := (h.parenQuery hr hc).1 (by omega)
  simp only [Kind.parens, List.cons_append, List.append_assoc, List.nil_append] at hc
  refine ⟨c₁, ?_, hc₁⟩
  unfold primaryRelation
  rw [bind_ok (peek_apply hc)]
  change g.parenRelation c = _
  unfold parenRelation
  rw [bind_ok (queryAhead_apply hc)]
  simp only [Kind.next_cons, Kind.startsQuery, q.startsQuery_tokens, beq_self_eq_true,
    Bool.and_self, if_true]
  rw [bind_ok (attempt_ok h₁), ← Relation.ofQuery_query hq hs]
  rfl

theorem table {x : Name} {s : Option Schema} (hready : Ready m (Relation.table x s).nodes)
    (hc : c.At ((Relation.table x s).tokens ++ rest) m) (hr : next rest ≠ .symbol .dot) :
    ∃ c', g.primaryRelation c = .ok (.table x s, c') ∧ c'.At rest m := by
  simp only [Relation.tokens, Relation.nodes] at hc hready
  have hgood := ((ready_cons rfl).1 hready).1
  have hx : x.Delimited := hgood.settled
  obtain rfl : s = none := hgood.sound.2
  rw [Name.tokens_eq hx] at hc
  obtain ⟨c', hn, hc'⟩ := name_apply hc (nameEnds_of_ne hr)
  obtain ⟨y, ys, -, hp⟩ := x.exists_foldl
  rw [Name.callTokens_eq hp, List.cons_append] at hc
  refine ⟨c', ?_, hc'⟩
  unfold primaryRelation
  rw [bind_ok (peek_apply hc)]
  change (do return Relation.ofTable (← name) : Parser Relation) c = _
  rw [bind_ok hn]
  rfl

theorem unnest (h : g.Reads n) {es : List Expr} {ordinality : Bool}
    (hready : Ready m (Relation.unnest es ordinality).nodes)
    (hc : c.At ((Relation.unnest es ordinality).tokens ++ rest) m)
    (hr : next rest ≠ .keyword .WITH) :
    Gives ((Relation.unnest es ordinality).depth ≤ n + 1)
      (Plain (Relation.unnest es ordinality).nodes) g.primaryRelation c (.unnest es ordinality) rest
      (m + marks (Relation.unnest es ordinality).nodes) := by
  simp only [Relation.tokens, Relation.nodes, Relation.depth, List.cons_append, List.append_assoc]
    at hc hready ⊢
  obtain ⟨hgood, hes⟩ := (ready_cons rfl).1 hready
  have hne : es.isEmpty = false := by simpa using (show es ≠ [] from hgood.sound)
  have he : g.primaryRelation c = g.unnest c := by
    unfold primaryRelation
    rw [bind_ok (peek_apply hc)]
    rfl
  refine .of_eq he ?_
  unfold Grammar.unnest
  refine .step here_apply (.step advance_apply ?_)
  refine ((h.parenExprs hes hc.advance).imp (by omega) (by simp +contextual)).last
    fun c₁ hc₁ => ?_
  have hm : m + marks (.relation (.unnest es ordinality) :: Expr.nodesAll es) =
      m + marks (Expr.nodesAll es) := by simp [Node.isMark]
  rw [hm]
  cases ordinality with
  | true =>
    have hc₁ : c₁.At (.keyword .WITH :: .word "ORDINALITY" :: rest) _ := hc₁
    refine ⟨_, ?_, hc₁.advance.advance⟩
    have hw : (Kind.word "ORDINALITY").isWord "ORDINALITY" = true := by cbv
    rw [bind_ok (check_apply hc₁ _), bind_ok (peekAt_apply hc₁ 1)]
    simp only [Kind.next_cons, beq_self_eq_true, Bool.true_and, Kind.getD_one, hw, if_true]
    simp only [Relation.buildUnnest, hne, Bool.false_eq_true, if_false]
    rfl
  | false =>
    have hc₁ : c₁.At rest _ := hc₁
    refine ⟨_, ?_, hc₁⟩
    rw [bind_ok (check_apply hc₁ _), bind_ok (peekAt_apply hc₁ 1), beq_false_of_ne hr]
    simp only [Bool.false_and, Relation.buildUnnest, hne, Bool.false_eq_true, if_false]
    rfl

theorem lateral (h : g.Reads n) {q : Query} (hready : Ready m (Relation.lateral q).nodes)
    (hc : c.At ((Relation.lateral q).tokens ++ rest) m) :
    Gives ((Relation.lateral q).depth ≤ n + 1) (Plain (Relation.lateral q).nodes)
      g.primaryRelation c (.lateral q) rest (m + marks (Relation.lateral q).nodes) := by
  simp only [Relation.tokens, Relation.nodes, Relation.depth, List.cons_append] at hc hready ⊢
  unfold primaryRelation
  refine .step (peek_apply hc) (.step advance_apply ?_)
  have hq := h.parenQuery ((ready_cons rfl).1 hready).2 hc.advance
  refine (hq.imp (by omega) fun hp => (plain_cons.1 hp).2).last fun c₁ hc₁ => ⟨c₁, rfl, ?_⟩
  simpa [Node.isMark] using hc₁

theorem primaryRelation (h : g.Reads n) (hb : b = true → r.tier.rank ≤ Relation.Tier.renamed.rank)
    (hb' : b = false → r.tier = .primary) (hready : Ready m r.nodes)
    (hc : c.At (parensIf b r.tokens ++ rest) m) (hr : (next rest).endsTier .primary = true) :
    Gives (parensDepth b r.depth ≤ n + 1) (Plain r.nodes) g.primaryRelation c r rest
      (m + marks r.nodes) := by
  cases b with
  | true => exact (h.wrappedRelation (hb rfl) hready hc).congr (by simp [parensDepth])
  | false =>
    have hdot : next rest ≠ .symbol .dot := fun h => by simp [h, Kind.endsTier] at hr
    have hwith : next rest ≠ .keyword .WITH := fun h => by simp [h, Kind.endsTier] at hr
    cases r with
    | table x s =>
      obtain ⟨c', h', hc'⟩ := table (g := g) hready hc hdot
      refine .ok (by simp [parensDepth, Relation.depth]) h' ?_
      simpa [Relation.nodes, Node.isMark] using hc'
    | unnest es o => exact h.unnest hready hc hwith
    | lateral q => exact h.lateral hready hc
    | query | setOperation | values => exact h.queryRelation rfl hready hc
    | _ => exact absurd (hb' rfl) (by simp [Relation.tier])

/-- A relation that may carry a name. -/
theorem renamedRelation (h : g.Reads n) (hb : b = true → r.tier.rank ≤ Relation.Tier.renamed.rank)
    (hb' : b = false → Relation.Tier.renamed.rank ≤ r.tier.rank) (hready : Ready m r.nodes)
    (hc : c.At (parensIf b r.tokens ++ rest) m) (hr : (next rest).endsTier .renamed = true) :
    Gives (parensDepth b r.depth ≤ n + 1) (Plain r.nodes) g.renamedRelation c r rest
      (m + marks r.nodes) := by
  by_cases hren : b = false ∧ r.tier = .renamed
  · obtain ⟨rfl, ht⟩ := hren
    cases r with
    | renamed l x cs =>
      have hc : c.At ((Relation.renamed l x cs).tokens ++ rest) m := hc
      simp only [Relation.tokens, Relation.nodes, List.append_assoc, List.cons_append]
        at hc hready ⊢
      obtain ⟨hgood, hl⟩ := (ready_cons rfl).1 hready
      obtain ⟨hx, hcs⟩ : x.delimited = true ∧ ∀ y ∈ cs, y.delimited = true := hgood.settled
      rw [Ident.token_eq hx] at hc
      have hprimary := h.primaryRelation (by simp)
        (fun hb => by revert hb; cases l.tier <;> simp [Relation.Tier.rank]) hl hc rfl
      have hparen : next rest ≠ .symbol .leftParen := fun h => by simp [h, Kind.endsTier] at hr
      unfold Grammar.renamedRelation
      refine (hprimary.imp ?_ (by simp +contextual)).last fun c₁ hc₁ => ?_
      · rw [parensDepth, Relation.depth]
        exact Iff.rfl
      · obtain ⟨c₂, h₂, hc₂⟩ := optionalIdentList_apply hcs hc₁.advance.advance hparen
        refine ⟨c₂, ?_, by simpa [Node.isMark] using hc₂⟩
        rw [bind_ok (optionalName_some hc₁)]
        change (do return Relation.renamed l x (← optionalIdentList) : Parser Relation) _ = _
        rw [bind_ok h₂]
        rfl
    | _ => cases ht
  · have hprimary := h.primaryRelation hb
      (fun hf => by
        have hle := hb' hf
        have hne : r.tier ≠ .renamed := fun ht => hren ⟨hf, ht⟩
        revert hle hne
        cases r.tier <;> simp [Relation.Tier.rank])
      hready hc (Kind.endsTier_mono hr (by decide))
    unfold Grammar.renamedRelation
    refine hprimary.last fun c₁ hc₁ => ⟨c₁, ?_, hc₁⟩
    have has : next rest ≠ .keyword .AS := fun h => by simp [h, Kind.endsTier] at hr
    rw [bind_ok (optionalName_none hc₁ has (Kind.isIdent_of_endsTier hr))]
    rfl

theorem sampleMethod_apply {s : SampleMethod} (hc : c.At (s.token :: rest) m) :
    sampleMethod c = .ok (s, c.advance) := by
  unfold sampleMethod
  cases s with
  | bernoulli =>
    rw [bind_ok (eatWord_of_isWord hc (by cbv))]
    rfl
  | system =>
    rw [bind_ok (eatWord_of_not hc (word_ne_word (by cbv)))]
    simp only [Bool.false_eq_true, if_false]
    rw [bind_ok (eatWord_of_isWord hc (by cbv))]
    rfl

/-- A relation that may be sampled. -/
theorem sampledRelation (h : g.Reads n) (hb : b = true → r.tier.rank ≤ Relation.Tier.renamed.rank)
    (hb' : b = false → Relation.Tier.sampled.rank ≤ r.tier.rank) (hready : Ready m r.nodes)
    (hc : c.At (parensIf b r.tokens ++ rest) m) (hr : (next rest).endsTier .sampled = true) :
    Gives (parensDepth b r.depth ≤ n + 1) (Plain r.nodes) g.sampledRelation c r rest
      (m + marks r.nodes) := by
  by_cases hsam : b = false ∧ r.tier = .sampled
  · obtain ⟨rfl, ht⟩ := hsam
    cases r with
    | sample l s p =>
      have hc : c.At ((Relation.sample l s p).tokens ++ rest) m := hc
      simp only [Relation.tokens, Relation.nodes, List.append_assoc, List.cons_append]
        at hc hready ⊢
      obtain ⟨hl, hp⟩ := ready_append.1 ((ready_cons rfl).1 hready).2
      have hrenamed := h.renamedRelation (b := l.tier.rank ≤ Relation.Tier.sampled.rank)
        (fun hb => Nat.le_trans (of_decide_eq_true hb) (by decide))
        (fun hb => Nat.lt_of_not_le (of_decide_eq_false hb)) hl hc rfl
      unfold Grammar.sampledRelation
      refine (hrenamed.seq (G := p.depth ≤ n) (by simp +contextual) fun c₁ hc₁ => ?_).congr ?_
      · refine .step (eat_of_eq hc₁) (.step (sampleMethod_apply hc₁.advance) ?_)
        have hexpr := parens_gives hc₁.advance.advance fun c₂ hc₂ => h.expr hp hc₂ rfl
        refine (hexpr.imp Iff.rfl (by simp +contextual)).last fun c₃ hc₃ => ⟨c₃, rfl, ?_⟩
        simpa [Node.isMark, Nat.add_assoc] using hc₃
      · rw [parensDepth, Relation.depth]
        simp only [Bool.false_eq_true, if_false, Nat.max_le]
        omega
    | _ => cases ht
  · have hrenamed := h.renamedRelation hb
      (fun hf => by
        have hle := hb' hf
        have hne : r.tier ≠ .sampled := fun ht => hsam ⟨hf, ht⟩
        revert hle hne
        cases r.tier <;> simp [Relation.Tier.rank])
      hready hc (Kind.endsTier_mono hr (by decide))
    have hsample : next rest ≠ .keyword .TABLESAMPLE := fun h => by simp [h, Kind.endsTier] at hr
    unfold Grammar.sampledRelation
    refine hrenamed.last fun c₁ hc₁ => ⟨c₁, ?_, hc₁⟩
    rw [eatKeyword, bind_ok (eat_of_ne hc₁ hsample)]
    rfl

/-! ### Joins -/

theorem joinKind_apply {kind : JoinKind} (hkind : kind ≠ .cross)
    (hc : c.At (kind.tokens ++ rest) m) :
    ∃ c', joinKind c = .ok (some kind, c') ∧ c'.At (.keyword .JOIN :: rest) m := by
  unfold joinKind
  cases kind with
  | cross => exact absurd rfl hkind
  | inner =>
    refine ⟨_, ?_, hc.advance⟩
    rw [bind_ok (peek_apply hc)]
    rfl
  | left | right | full =>
    refine ⟨_, ?_, hc.advance⟩
    rw [bind_ok (peek_apply hc)]
    simp only [JoinKind.tokens, List.cons_append, Kind.next_cons]
    unfold joinKind.outer
    rw [bind_ok advance_apply, eatKeyword, bind_ok (eat_of_ne hc.advance (by simp))]
    rfl

theorem joinCriteria (h : g.Reads n) {criteria : Criteria} {kind : JoinKind}
    (hready : Ready m criteria.nodes) (hkind : kind ≠ .cross) (hs : criteria.flaw? kind = none)
    (hc : c.At (criteria.tokens ++ rest) m) (hr : (next rest).ends 0 = true) :
    Gives (criteria.depth ≤ n) (Plain criteria.nodes)
      (if criteria.isNatural then pure .natural else g.joinCriteria) c criteria rest
      (m + marks criteria.nodes) := by
  cases criteria with
  | natural =>
    simp only [Criteria.tokens, Criteria.nodes, Criteria.depth] at hc ⊢
    exact .ok (by simp) rfl (by simpa [Node.isMark] using hc)
  | absent =>
    cases kind with
    | cross => exact absurd rfl hkind
    | _ => cases hs
  | condition e =>
    simp only [Criteria.tokens, Criteria.nodes, Criteria.depth, Criteria.isNatural,
      Bool.false_eq_true, if_false, List.cons_append] at hc hready ⊢
    have he := h.expr ((ready_cons rfl).1 hready).2 hc.advance hr
    unfold Grammar.joinCriteria
    refine .step (eat_of_eq hc) ?_
    simp only [if_true]
    refine (he.imp Iff.rfl (by simp +contextual)).last fun c₁ hc₁ => ⟨c₁, rfl, ?_⟩
    simpa [Node.isMark] using hc₁
  | columns xs =>
    simp only [Criteria.tokens, Criteria.nodes, Criteria.depth, Criteria.isNatural,
      Bool.false_eq_true, if_false, List.cons_append] at hc hready ⊢
    have hd : ∀ x ∈ xs, x.delimited = true := ((ready_cons rfl).1 hready).1.settled
    have hne : xs ≠ [] := by
      rintro rfl
      cases kind <;> cases hs
    obtain ⟨c₁, h₁, hc₁⟩ := identList_apply hne hd hc.advance
    refine .ok (by simp) ?_ (by simpa [Node.isMark] using hc₁)
    unfold Grammar.joinCriteria
    rw [eatKeyword, bind_ok (eat_of_ne hc (by simp))]
    simp only [Bool.false_eq_true, if_false]
    rw [eatKeyword, bind_ok (eat_of_eq hc)]
    simp only [if_true]
    rw [bind_ok h₁]
    rfl

/-- Joining one more relation. -/
theorem joinNext (h : g.Reads n) {l : Relation} {kind : JoinKind} {criteria : Criteria}
    (hs : criteria.flaw? kind = none) (hready : Ready m (r.nodes ++ criteria.nodes))
    (hc : c.At (given criteria.isNatural (.keyword .NATURAL) ++ (kind.tokens ++
      (parensIf (r.tier.rank ≤ Relation.Tier.join.rank) r.tokens ++ (criteria.tokens ++ rest)))) m)
    (hr : (next rest).ends 0 = true) (hr' : (next rest).endsTier .sampled = true) :
    Gives (parensDepth (r.tier.rank ≤ Relation.Tier.join.rank) r.depth ≤ n + 1 ∧ criteria.depth ≤ n)
      (Plain (r.nodes ++ criteria.nodes)) (g.joinNext l) c (some (.join l r kind criteria)) rest
      (m + marks (r.nodes ++ criteria.nodes)) := by
  obtain ⟨hrr, hcr⟩ := ready_append.1 hready
  have hright : ∀ {c' : Cursor}, c'.At (parensIf (r.tier.rank ≤ Relation.Tier.join.rank) r.tokens ++
      (criteria.tokens ++ rest)) m →
      Gives (parensDepth (r.tier.rank ≤ Relation.Tier.join.rank) r.depth ≤ n + 1) (Plain r.nodes)
        g.sampledRelation c' r (criteria.tokens ++ rest) (m + marks r.nodes) := by
    intro c' hc'
    refine h.sampledRelation (fun hb => Nat.le_trans (of_decide_eq_true hb) (by decide))
      (fun hb => Nat.lt_of_not_le (of_decide_eq_false hb)) hrr hc' ?_
    cases criteria with
    | condition | columns => rw [Criteria.tokens]; rfl
    | natural | absent => rw [Criteria.tokens]; exact hr'
  unfold Grammar.joinNext
  refine .step here_apply ?_
  by_cases hkind : kind = .cross
  · subst hkind
    cases criteria with
    | absent =>
      have hc : c.At (.keyword .CROSS :: .keyword .JOIN ::
        (parensIf (r.tier.rank ≤ Relation.Tier.join.rank) r.tokens ++
          (Criteria.absent.tokens ++ rest))) m := hc
      refine .step (eat_of_eq hc) ?_
      simp only [if_true]
      refine .step (expectKeyword_of_eq hc.advance) ?_
      refine ((hright hc.advance.advance).imp (by simp [Criteria.depth]) (by simp +contextual)).last
        fun c₁ hc₁ => ⟨c₁, rfl, ?_⟩
      simpa [Criteria.tokens, Criteria.nodes, Node.isMark] using hc₁
    | _ => cases hs
  · have hcross : next (given criteria.isNatural (.keyword .NATURAL) ++ (kind.tokens ++
        (parensIf (r.tier.rank ≤ Relation.Tier.join.rank) r.tokens ++ (criteria.tokens ++ rest)))) ≠
        .keyword .CROSS := by
      cases criteria <;> cases kind <;> simp_all [given, Criteria.isNatural, JoinKind.tokens]
    refine .step (eat_of_ne hc hcross) ?_
    simp only [Bool.false_eq_true, if_false]
    obtain ⟨c₁, h₁, hc₁⟩ : ∃ c₁, eatKeyword .NATURAL c = .ok (criteria.isNatural, c₁) ∧
        c₁.At (kind.tokens ++ (parensIf (r.tier.rank ≤ Relation.Tier.join.rank) r.tokens ++
          (criteria.tokens ++ rest))) m := by
      unfold eatKeyword
      cases hnat : criteria.isNatural with
      | true =>
        rw [hnat] at hc
        exact ⟨_, eat_of_eq hc, hc.advance⟩
      | false =>
        rw [hnat] at hc
        exact ⟨_, eat_of_ne hc (by cases kind <;> simp [given, JoinKind.tokens]), hc⟩
    obtain ⟨c₂, h₂, hc₂⟩ := joinKind_apply hkind hc₁
    refine .step h₁ (.step h₂ ?_)
    refine .step (expectKeyword_of_eq hc₂) ?_
    refine (hright hc₂.advance).seq (by simp +contextual) fun c₃ hc₃ => ?_
    have hgives := (h.joinCriteria hcr hkind hs hc₃ hr).last (f := fun criteria => do
        return some (← valid c.token.span (Relation.buildJoin l r kind criteria)))
      fun c₄ hc₄ => ⟨c₄, by simp only [Relation.buildJoin, hs]; rfl, hc₄⟩
    refine ((hgives.imp Iff.rfl fun hp => (plain_append.1 hp).2).marks ?_).of_eq ?_
    · simp [Nat.add_assoc]
    · split <;> rfl

/-- The relation is read step by step, whatever may be joined to it afterwards. -/
theorem joinSteps (h : g.Reads n) (r : Relation) : ∀ (c : Cursor) (m : Nat) (rest : List Kind),
    Ready m r.nodes → c.At (r.tokens ++ rest) m → (next rest).ends 0 = true →
    (next rest).endsTier .sampled = true →
    Builds (r.depth ≤ n + 1) (Plain r.nodes) g.sampledRelation g.joinNext c r rest
      (m + marks r.nodes) := by
  induction r using Relation.left_induction with
  | head r hr =>
    intro c m rest hready hc _ hr'
    have ht : Relation.Tier.sampled.rank ≤ r.tier.rank := by
      rw [Relation.tier_of_head hr]
      decide
    exact .of_gives (h.sampledRelation (b := false) (by simp) (fun _ => ht) hready hc hr')
  | left r b l hr ih =>
    intro c m rest hready hc hends hr'
    cases r with
    | renamed | sample =>
      exact .of_gives (h.sampledRelation (b := false) (by simp)
        (fun _ => by simp [Relation.tier, Relation.Tier.rank]) hready hc hr')
    | join l' r kind criteria =>
      cases hr
      simp only [Relation.tokens, Relation.nodes, List.append_assoc] at hc hready ⊢
      obtain ⟨hgood, hr₁⟩ := (ready_cons rfl).1 hready
      obtain ⟨hl, hrr⟩ := ready_append.1 hr₁
      obtain ⟨k, ts, ht, -, hk, hk'⟩ := Relation.join_tokens criteria kind
        (parensIf (r.tier.rank ≤ Relation.Tier.join.rank) r.tokens ++ (criteria.tokens ++ rest))
      have hleft := ih c m _ hl hc (by rw [ht]; exact hk) (by rw [ht]; exact hk')
      have hsteps := hleft.extend (Q := Plain l.nodes ∧ Plain (r.nodes ++ criteria.nodes)) And.left
        (fun c₁ hc₁ => (h.joinNext hgood.sound hrr hc₁ hends hr').imp Iff.rfl And.right)
        (by cases kind <;> simp [JoinKind.tokens] <;> omega)
      refine (hsteps.imp ?_ (by simp +contextual)).marks (by simp [Node.isMark, Nat.add_assoc])
      rw [Relation.depth]
      simp only [Nat.max_le]
      omega
    | _ => simp [Relation.leftOperand?] at hr

theorem joinNext_none {l : Relation} (hc : c.At rest m) (hr : (next rest).endsTier .join = true) :
    g.joinNext l c = .ok (none, c) := by
  have hne : ∀ w ∈ [Keyword.CROSS, .NATURAL, .JOIN, .INNER, .LEFT, .RIGHT, .FULL],
      next rest ≠ .keyword w := by
    intro w hw h
    rw [h] at hr
    simp only [List.mem_cons, List.not_mem_nil, or_false] at hw
    rcases hw with rfl | rfl | rfl | rfl | rfl | rfl | rfl <;> cases hr
  have hkind : joinKind c = .ok (none, c) := by
    unfold joinKind
    rw [bind_ok (peek_apply hc)]
    revert hr
    generalize next rest = k
    intro hr
    cases k with
    | keyword w => cases w <;> first | rfl | cases hr
    | _ => rfl
  unfold Grammar.joinNext
  rw [bind_ok here_apply, eatKeyword, bind_ok (eat_of_ne hc (hne _ (by simp)))]
  simp only [Bool.false_eq_true, if_false]
  rw [eatKeyword, bind_ok (eat_of_ne hc (hne _ (by simp))), bind_ok hkind]
  rfl

/-- Relations are read one level further up. -/
theorem joinedRelation (h : g.Reads n) (hready : Ready m r.nodes) (hc : c.At (r.tokens ++ rest) m)
    (hr : (next rest).endsRelation = true) :
    Gives (r.depth ≤ n + 1) (Plain r.nodes) g.joinedRelation c r rest (m + marks r.nodes) := by
  rw [Kind.endsRelation, Bool.and_eq_true] at hr
  have hsteps := h.joinSteps r c m rest hready hc hr.1 (Kind.endsTier_mono hr.2 (by decide))
  exact hsteps.finish fun c₁ hc₁ => joinNext_none hc₁ hr.2

end Grammar.Reads

end Sql
