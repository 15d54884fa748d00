import Sql.Proofs.Constructs

/-! Reading selections. -/
namespace Sql

open Sql.Parser
open Token (Kind)
open Token.Kind (next parensIf given commas)

namespace Token.Kind

/-- Which clause of a query the token opens, in the order in which they stand. The end of the query
comes last, and the first number is that of all other tokens. -/
def clause : Kind → Nat
  | .keyword .FROM => 1
  | .keyword .WHERE => 2
  | .keyword .GROUP => 3
  | .keyword .HAVING => 4
  | .keyword .WINDOW => 5
  | .keyword .INTERSECT => 6
  | .keyword .UNION | .keyword .EXCEPT => 7
  | .keyword .ORDER => 8
  | .keyword .OFFSET => 9
  | .keyword .LIMIT => 10
  | .symbol .rightParen | .endOfInput => 11
  | _ => 0

/-- Does a clause end in front of the token? -/
def endsClause (k : Kind) : Bool := 0 < k.clause

variable {k : Kind} {i : Nat}

theorem endsClause_of_le (hi : 0 < i) (h : i ≤ k.clause) : k.endsClause = true :=
  decide_eq_true (Nat.lt_of_lt_of_le hi h)

theorem ne_of_clause {k' : Kind} (h : i ≤ k.clause) (h' : k'.clause < i) : k ≠ k' := by
  rintro rfl
  omega

theorem clause_of_endsQuery (h : k.endsQuery = true) : 11 ≤ k.clause := by
  cases k with
  | symbol s => cases s <;> first | exact Nat.le_refl _ | cases h
  | endOfInput => exact Nat.le_refl _
  | _ => cases h

/-- What holds of the tokens in front of which a clause ends. -/
theorem of_endsClause {Q : Kind → Bool} (h : k.endsClause = true)
    (hp : Q (.symbol .rightParen) = true) (he : Q .endOfInput = true)
    (hw : ∀ w ∈ [Keyword.FROM, .WHERE, .GROUP, .HAVING, .WINDOW, .INTERSECT, .UNION, .EXCEPT,
      .ORDER, .OFFSET, .LIMIT], Q (.keyword w) = true) : Q k = true := by
  cases k with
  | symbol s => cases s <;> first | exact hp | cases h
  | keyword w =>
    refine hw w ?_
    cases w <;> first | decide | cases h
  | endOfInput => exact he
  | _ => cases h

theorem ends_of_endsClause (h : k.endsClause = true) : k.ends 0 = true :=
  of_endsClause h rfl rfl (by decide)

theorem endsRelation_of_endsClause (h : k.endsClause = true) : k.endsRelation = true :=
  of_endsClause h rfl rfl (by decide)

theorem ne_of_endsClause {k' : Kind} (h : k.endsClause = true) (h' : k'.endsClause = false) :
    k ≠ k' := by
  rintro rfl
  simp [h] at h'

theorem endsTerm_of_endsClause (h : k.endsClause = true) : k.endsTerm = true :=
  of_endsClause h rfl rfl (by decide)

theorem isIdent_of_endsClause (h : k.endsClause = true) : k.isIdent = false := by
  cases k with
  | ident => cases h
  | _ => rfl

/-- In front of a comma everything in a list ends, too. -/
theorem of_comma_or_endsClause {Q : Kind → Prop} (h : k = .symbol .comma ∨ k.endsClause = true)
    (hc : Q (.symbol .comma)) (he : k.endsClause = true → Q k) : Q k := by
  rcases h with rfl | h
  · exact hc
  · exact he h

theorem namesStar_name (x : Ident) (xs : List Ident) (ts : List Kind) :
    namesStar (.ident x :: ((xs.flatMap fun y => [Kind.symbol .dot, .ident y]) ++
      Kind.symbol .dot :: .symbol .star :: ts)) = true := by
  induction xs generalizing x with
  | nil => rfl
  | cons y ys ih => exact ih y

end Token.Kind

/-- An item that is read back as an expression does not start like a star. -/
theorem SelectItem.startsStar_of_good {e : Expr} {x : Option Ident}
    (h : (Node.item (.expr e x)).Good) : Kind.startsStar e.tokens = false := by
  have hsteady := h.steady
  simp only [Node.steady, SelectItem.steady, Bool.or_eq_true, Bool.not_eq_true', Bool.and_eq_true,
    Option.isNone_iff_eq_none] at hsteady
  rcases hsteady with ⟨he, hx⟩ | hs
  · cases e with
    | star r => exact absurd hx (h.settled.1 r rfl)
    | _ => cases he
  · exact hs

namespace Grammar.Reads

variable {g : Grammar} {n m : Nat} {c : Cursor} {rest ts : List Kind}

/-! ### Items -/

theorem starItem_apply {r : Option Name} {xs : List Ident} (hd : ∀ x ∈ xs, x.delimited = true)
    (hc : c.At (.symbol .star :: (Ident.listTokens [.keyword .AS] xs ++ rest)) m)
    (hr : next rest ≠ .keyword .AS) :
    ∃ c', starItem r c = .ok (.star r xs, c') ∧ c'.At rest m := by
  unfold starItem
  rw [bind_ok (expectSymbol_of_eq hc)]
  cases xs with
  | nil =>
    have hc : c.advance.At rest m := hc.advance
    refine ⟨_, ?_, hc⟩
    rw [bind_ok (check_apply hc _), bind_ok (peekAt_apply hc 1), beq_false_of_ne hr]
    rfl
  | cons x xs =>
    have hc : c.advance.At (.keyword .AS :: (Kind.parens (Ident.tokens (x :: xs)) ++ rest)) m :=
      hc.advance
    obtain ⟨c', h, hc'⟩ := identList_apply (by simp) hd hc.advance
    refine ⟨c', ?_, hc'⟩
    rw [bind_ok (check_apply hc _), bind_ok (peekAt_apply hc 1)]
    change (do
      advance
      return .star r (← identList) : Parser SelectItem) c.advance = _
    rw [bind_ok advance_apply, bind_ok h]
    rfl

theorem selectItem_star {r : Option Name} {xs : List Ident}
    (hready : Ready m (SelectItem.star r xs).nodes)
    (hc : c.At ((SelectItem.star r xs).tokens ++ rest) m) (hr : next rest ≠ .keyword .AS) :
    ∃ c', g.selectItem c = .ok (.star r xs, c') ∧ c'.At rest m := by
  simp only [SelectItem.tokens, SelectItem.nodes, List.append_assoc] at hc hready
  have hgood := ((ready_cons rfl).1 hready).1
  obtain ⟨hn, hxs⟩ : (∀ n ∈ r, n.Delimited) ∧ ∀ x ∈ xs, x.delimited = true := hgood.settled
  unfold selectItem
  cases r with
  | none =>
    obtain ⟨c', h, hc'⟩ := starItem_apply (r := none) hxs hc hr
    refine ⟨c', ?_, hc'⟩
    rw [bind_ok (check_apply hc _)]
    exact h
  | some x =>
    have hx : x.Delimited := hn x rfl
    rw [Name.starTokens, Name.tokens_eq hx, List.append_assoc] at hc
    obtain ⟨c₁, h₁, hc₁⟩ := name_apply hc (fun _ => rfl)
    obtain ⟨c₂, h₂, hc₂⟩ := starItem_apply (r := some x) hxs hc₁.advance hr
    obtain ⟨y, ys, -, hp⟩ := x.exists_foldl
    rw [Name.callTokens_eq hp, List.cons_append] at hc
    have hnames := Kind.namesStar_name y ys (Ident.listTokens [.keyword .AS] xs ++ rest)
    refine ⟨c₂, ?_, hc₂⟩
    rw [bind_ok (check_apply hc _)]
    simp only [Kind.next_cons]
    change (do
      if ← starAhead then
        let relation ← name
        expectSymbol .dot
        starItem (some relation)
      else
        let e ← g.expr
        return .expr e (← optionalName) : Parser SelectItem) c = _
    rw [bind_ok (starAhead_apply hc)]
    simp only [List.cons_append, List.nil_append, hnames, if_true]
    rw [bind_ok h₁, bind_ok (expectSymbol_of_eq hc₁)]
    exact h₂

theorem selectItem_expr {e : Expr} (hs : Kind.startsStar e.tokens = false)
    (hc : c.At (e.tokens ++ ts) m) (hd : next ts ≠ .symbol .dot) (hstar : next ts ≠ .symbol .star)
    (hi : (next ts).isIdent = false) :
    g.selectItem c = (do
      let e ← g.expr
      return .expr e (← optionalName) : Parser SelectItem) c := by
  simp only [Kind.startsStar, Bool.or_eq_false_iff] at hs
  obtain ⟨k, ts', ht, -, -⟩ := e.tokens_cons
  have hnext : (next (e.tokens ++ ts) == .symbol .star) = false := by
    rw [ht] at hs ⊢
    exact hs.1
  unfold selectItem
  rw [bind_ok (check_apply hc _), hnext]
  simp only [Bool.false_eq_true, if_false]
  rw [bind_ok (starAhead_apply hc), Kind.namesStar_append hs.2 hd hstar hi]
  rfl

theorem selectItem (h : g.Reads n) {i : SelectItem} (hready : Ready m i.nodes)
    (hc : c.At (i.tokens ++ rest) m)
    (hr : next rest = .symbol .comma ∨ (next rest).endsClause = true) :
    Gives (i.depth ≤ n) (Plain i.nodes) g.selectItem c i rest (m + marks i.nodes) := by
  have has : next rest ≠ .keyword .AS := Kind.of_comma_or_endsClause (Q := (· ≠ _)) hr (by simp)
    fun he => Kind.ne_of_endsClause he rfl
  cases i with
  | star r xs =>
    obtain ⟨c', h', hc'⟩ := selectItem_star (g := g) hready hc has
    refine .ok (by simp [SelectItem.depth]) h' ?_
    simpa [SelectItem.nodes, Node.isMark] using hc'
  | expr e x =>
    have hnodes : (SelectItem.expr e x).nodes = .item (.expr e x) :: e.nodes := by
      rw [SelectItem.nodes]
    rw [hnodes] at hready ⊢
    obtain ⟨hgood, hre⟩ := (ready_cons rfl).1 hready
    have hx : ∀ y ∈ x, y.delimited = true := hgood.settled.2
    have hs := SelectItem.startsStar_of_good hgood
    have hplain : Plain (.item (.expr e x) :: e.nodes) → Plain e.nodes :=
      fun hp => (plain_cons.1 hp).2
    have hmarks : marks (.item (.expr e x) :: e.nodes) = marks e.nodes := by simp [Node.isMark]
    rw [hmarks, SelectItem.depth]
    cases x with
    | none =>
      rw [SelectItem.tokens] at hc
      have hends : (next rest).ends 0 = true :=
        Kind.of_comma_or_endsClause (Q := (·.ends 0 = true)) hr rfl Kind.ends_of_endsClause
      have hident : (next rest).isIdent = false :=
        Kind.of_comma_or_endsClause (Q := (·.isIdent = false)) hr rfl Kind.isIdent_of_endsClause
      refine .of_eq (selectItem_expr hs hc ?_ ?_ hident) ?_
      · exact Kind.of_comma_or_endsClause (Q := (· ≠ _)) hr (by simp)
          fun he => Kind.ne_of_endsClause he rfl
      · exact Kind.of_comma_or_endsClause (Q := (· ≠ _)) hr (by simp)
          fun he => Kind.ne_of_endsClause he rfl
      · refine ((h.expr hre hc hends).imp Iff.rfl hplain).last fun c₁ hc₁ => ⟨c₁, ?_, hc₁⟩
        rw [bind_ok (optionalName_none hc₁ has hident)]
        rfl
    | some y =>
      rw [SelectItem.tokens, Ident.token_eq (hx y rfl), List.append_assoc] at hc
      refine .of_eq (selectItem_expr hs hc (by simp) (by simp) rfl) ?_
      refine ((h.expr hre hc rfl).imp Iff.rfl hplain).last
        fun c₁ hc₁ => ⟨c₁.advance.advance, ?_, hc₁.advance.advance⟩
      rw [bind_ok (optionalName_some hc₁)]
      rfl

/-! ### Grouping -/

theorem groupingSet_apply (h : g.Reads n) {es : List Expr} (hready : Ready m (Expr.nodesAll es))
    (hd : Expr.depthAll es ≤ n) (hc : c.At (Kind.parens (commas (Expr.tokenLists es)) ++ rest) m)
    (hr : next rest = .symbol .comma ∨ next rest = .symbol .rightParen) :
    ∃ c', g.groupingSet c = .ok (es, c') ∧ c'.At rest (m + marks (Expr.nodesAll es)) := by
  obtain ⟨c', h', hc'⟩ := (h.parenExprs hready hc).1 hd
  have hlisted : groupingSet.listed g c = .ok (es, c') := by
    unfold groupingSet.listed
    rw [bind_ok h', bind_ok (peek_apply hc')]
    rcases hr with hr | hr <;> rw [hr] <;> rfl
  refine ⟨c', ?_, hc'⟩
  unfold groupingSet
  rw [bind_ok (check_apply hc _)]
  exact bind_ok (attempt_ok hlisted)

theorem groupingSets_apply (h : g.Reads n) {sets : List (List Expr)} (hne : sets ≠ [])
    (hready : Ready m (Expr.setNodes sets)) (hd : Expr.setDepth sets ≤ n)
    (hc : c.At (commas (Expr.setTokenLists sets) ++ .symbol .rightParen :: rest) m) :
    ∃ c', commaList g.groupingSet c = .ok (sets, c') ∧
      c'.At (.symbol .rightParen :: rest) (m + marks (Expr.setNodes sets)) := by
  rw [Expr.setNodes_eq] at hready ⊢
  rw [Expr.setTokenLists_eq] at hc
  have hitem : ∀ es ∈ sets, ReadsItem g.groupingSet
      (fun es => Kind.parens (commas (es.map Expr.tokens))) (fun es => es.flatMap Expr.nodes)
      (fun es => ∀ e ∈ es, e.depth ≤ n) False (fun rest => next rest = .symbol .rightParen) es := by
    intro es _ c m rest hready hc hr
    refine .of_not id fun hd => ?_
    simp only [← Expr.tokenLists_eq, ← Expr.nodesAll_eq] at hc hready ⊢
    exact h.groupingSet_apply hready ((Expr.depthAll_le _).2 hd) hc hr
  exact (commaList_gives hne hitem rfl (by simp) hready hc).1 ((Expr.setDepth_le sets).1 hd)

theorem groupingElement_expr (h : g.Reads n) {e : Expr}
    (hready : Ready m (GroupingElement.expr e).nodes) (hc : c.At (e.tokens ++ rest) m)
    (hr : next rest = .symbol .comma ∨ (next rest).endsClause = true) :
    Gives (e.depth ≤ n) (Plain e.nodes) g.groupingElement c (.expr e) rest (m + marks e.nodes) := by
  rw [GroupingElement.nodes] at hready
  obtain ⟨hgood, hre⟩ := (ready_cons rfl).1 hready
  have hstarts : Kind.startsGrouping e.tokens = false := by
    have := hgood.steady
    simpa [Node.steady, GroupingElement.steady] using this
  have hends : (next rest).ends 0 = true :=
    Kind.of_comma_or_endsClause (Q := (·.ends 0 = true)) hr rfl Kind.ends_of_endsClause
  have hident : (next rest).isIdent = false :=
    Kind.of_comma_or_endsClause (Q := (·.isIdent = false)) hr rfl Kind.isIdent_of_endsClause
  have hparen : next rest ≠ .symbol .leftParen := fun h => by
    rw [h] at hends
    cases hends
  obtain ⟨k, ts, ht, -, hk⟩ := e.tokens_cons
  -- The second token is that of the expression or what stands behind it.
  have hlist : ((k.isWord "ROLLUP" || k.isWord "CUBE") &&
      next (ts ++ rest) == .symbol .leftParen) = false := by
    cases ts with
    | nil =>
      rw [List.nil_append, beq_false_of_ne hparen, Bool.and_false]
    | cons k' ts =>
      rw [ht] at hstarts
      exact hstarts
  have hsets : (k.isWord "GROUPING" && (next (ts ++ rest)).isWord "SETS") = false := by
    cases hw : k.isWord "GROUPING" with
    | false => rfl
    | true =>
      have hki : k.isIdent = true := by
        cases k <;> first | rfl | cases hw
      have hnext : (next (ts ++ rest)).isIdent = false := by
        cases ts with
        | nil => exact hident
        | cons k' ts => exact (hk hki).2.2
      revert hnext
      generalize next (ts ++ rest) = k'
      intro hnext
      cases k' <;> first | rfl | cases hnext
  simp only [Bool.and_or_distrib_right, Bool.or_eq_false_iff] at hlist
  have hgives := (h.expr hre hc hends).last (f := fun e => pure (GroupingElement.expr e))
    fun c₁ hc₁ => ⟨c₁, rfl, hc₁⟩
  rw [ht, List.cons_append] at hc
  unfold groupingElement
  refine .step here_apply (.step (peekAt_apply hc 1) ?_)
  rw [Kind.getD_one]
  refine .step (checkWord_apply hc _) ?_
  simp only [Kind.next_cons, hlist.1, Bool.false_eq_true, if_false]
  refine .step (checkWord_apply hc _) ?_
  simp only [Kind.next_cons, hlist.2, Bool.false_eq_true, if_false]
  refine .step (checkWord_apply hc _) ?_
  simp only [Kind.next_cons, hsets, Bool.false_eq_true, if_false]
  exact hgives

theorem groupingElement (h : g.Reads n) {x : GroupingElement} (hready : Ready m x.nodes)
    (hc : c.At (x.tokens ++ rest) m)
    (hr : next rest = .symbol .comma ∨ (next rest).endsClause = true) :
    Gives (x.depth ≤ n) (Plain x.nodes) g.groupingElement c x rest (m + marks x.nodes) := by
  cases x with
  | expr e =>
    rw [GroupingElement.tokens] at hc
    refine ((h.groupingElement_expr hready hc hr).imp ?_ ?_).marks ?_
    · rw [GroupingElement.depth]
    · rw [GroupingElement.nodes, plain_cons]
      exact And.right
    · simp [GroupingElement.nodes, Node.isMark]
  | rollup es =>
    simp only [GroupingElement.tokens, GroupingElement.nodes, GroupingElement.depth,
      List.cons_append] at hc hready ⊢
    obtain ⟨hgood, hes⟩ := (ready_cons rfl).1 hready
    have hne : es.isEmpty = false := by simpa using (show es ≠ [] from hgood.sound)
    have hw : (Kind.word "ROLLUP").isWord "ROLLUP" = true := by cbv
    unfold Grammar.groupingElement
    refine .step here_apply (.step (peekAt_apply hc 1) (.step (checkWord_apply hc _) ?_))
    simp only [Kind.next_cons, hw, Kind.getD_one, Kind.parens, List.cons_append, beq_self_eq_true,
      Bool.and_self, if_true]
    refine .step advance_apply ?_
    refine ((h.parenExprs hes hc.advance).imp Iff.rfl fun hp => (plain_cons.1 hp).2).last
      fun c₁ hc₁ => ⟨c₁, ?_, by simpa [Node.isMark] using hc₁⟩
    simp only [GroupingElement.buildRollup, hne, Bool.false_eq_true, if_false]
    rfl
  | cube es =>
    simp only [GroupingElement.tokens, GroupingElement.nodes, GroupingElement.depth,
      List.cons_append] at hc hready ⊢
    obtain ⟨hgood, hes⟩ := (ready_cons rfl).1 hready
    have hne : es.isEmpty = false := by simpa using (show es ≠ [] from hgood.sound)
    have hw : (Kind.word "CUBE").isWord "CUBE" = true := by cbv
    have hw' : (Kind.word "CUBE").isWord "ROLLUP" = false := by cbv
    unfold Grammar.groupingElement
    refine .step here_apply (.step (peekAt_apply hc 1) (.step (checkWord_apply hc _) ?_))
    simp only [Kind.next_cons, hw', Bool.false_and, Bool.false_eq_true, if_false]
    refine .step (checkWord_apply hc _) ?_
    simp only [Kind.next_cons, hw, Kind.getD_one, Kind.parens, List.cons_append, beq_self_eq_true,
      Bool.and_self, if_true]
    refine .step advance_apply ?_
    refine ((h.parenExprs hes hc.advance).imp Iff.rfl fun hp => (plain_cons.1 hp).2).last
      fun c₁ hc₁ => ⟨c₁, ?_, by simpa [Node.isMark] using hc₁⟩
    simp only [GroupingElement.buildCube, hne, Bool.false_eq_true, if_false]
    rfl
  | sets sets =>
    simp only [GroupingElement.tokens, GroupingElement.nodes, GroupingElement.depth,
      List.cons_append] at hc hready ⊢
    obtain ⟨hgood, hes⟩ := (ready_cons rfl).1 hready
    have hne : sets ≠ [] := hgood.sound
    have hw : (Kind.word "GROUPING").isWord "GROUPING" = true := by cbv
    have hw' : (Kind.word "SETS").isWord "SETS" = true := by cbv
    have hw₁ : (Kind.word "GROUPING").isWord "ROLLUP" = false := by cbv
    have hw₂ : (Kind.word "GROUPING").isWord "CUBE" = false := by cbv
    refine .of_not (by simp [Node.plain]) fun hd => ?_
    obtain ⟨c₁, h₁, hc₁⟩ := parens_apply hc.advance.advance fun c' hc' =>
      h.groupingSets_apply hne hes hd hc'
    refine ⟨c₁, ?_, by simpa [Node.isMark] using hc₁⟩
    unfold Grammar.groupingElement
    rw [bind_ok here_apply, bind_ok (peekAt_apply hc 1), bind_ok (checkWord_apply hc _)]
    simp only [Kind.next_cons, hw₁, Bool.false_and, Bool.false_eq_true, if_false]
    rw [bind_ok (checkWord_apply hc _)]
    simp only [Kind.next_cons, hw₂, Bool.false_and, Bool.false_eq_true, if_false]
    rw [bind_ok (checkWord_apply hc _)]
    simp only [Kind.next_cons, hw, Kind.getD_one, hw', Bool.and_self, if_true]
    rw [bind_ok advance_apply, bind_ok advance_apply, bind_ok h₁]
    simp only [GroupingElement.buildSets, List.isEmpty_eq_false_iff.2 hne, Bool.false_eq_true,
      if_false]
    rfl

theorem groupingElement_next (x : GroupingElement) (ts : List Kind) :
    (next (x.tokens ++ ts)).opens = true := by
  cases x with
  | expr e =>
    obtain ⟨k, ts', ht, hk, -⟩ := e.tokens_cons
    rw [GroupingElement.tokens, ht]
    exact hk
  | _ => rw [GroupingElement.tokens]; rfl

theorem groupBy (h : g.Reads n) {x : GroupBy} (hready : Ready m x.nodes)
    (hc : c.At (.keyword .BY :: (x.tokens ++ rest)) m) (hr : (next rest).endsClause = true) :
    Gives (x.depth ≤ n) (Plain x.nodes) g.groupBy c x rest (m + marks x.nodes) := by
  obtain ⟨quantifier, xs⟩ := x
  simp only [GroupBy.tokens, GroupBy.nodes, GroupBy.depth, List.append_assoc] at hc hready ⊢
  obtain ⟨hgood, hxs⟩ := (ready_cons rfl).1 hready
  have hne : xs ≠ [] := hgood.sound
  have hopens : (next (commas (GroupingElement.tokenLists xs) ++ rest)).opens = true := by
    cases xs with
    | nil => exact absurd rfl hne
    | cons x xs =>
      rw [GroupingElement.tokenLists, Kind.commas_cons, List.append_assoc]
      exact groupingElement_next x _
  obtain ⟨c₁, h₁, hc₁⟩ := quantifier_apply hc.advance (Kind.ne_of_opens hopens rfl)
    (Kind.ne_of_opens hopens rfl)
  unfold Grammar.groupBy
  refine .step (expectKeyword_of_eq hc) (.step h₁ ?_)
  have hitem : ∀ x ∈ xs, ReadsItem g.groupingElement GroupingElement.tokens GroupingElement.nodes
      (fun x => x.depth ≤ n) (Plain (xs.flatMap GroupingElement.nodes))
      (fun rest => (next rest).endsClause = true) x := by
    intro x hx c m rest hready hc hr
    exact (h.groupingElement hready hc hr).imp Iff.rfl fun hp => plain_of_mem hp hx
  rw [GroupingElement.nodesAll_eq] at hxs ⊢
  rw [GroupingElement.tokenLists_eq] at hc₁
  rw [GroupingElement.depthAll_le]
  have hall := commaList_gives hne hitem hr (Kind.ne_of_endsClause hr rfl) hxs hc₁
  refine (hall.imp Iff.rfl fun hp => (plain_cons.1 hp).2).last fun c₂ hc₂ => ⟨c₂, rfl, ?_⟩
  simpa [Node.isMark] using hc₂

/-! ### Lists of items and relations -/

theorem selectItems (h : g.Reads n) {xs : List SelectItem} (hne : xs ≠ [])
    (hready : Ready m (SelectItem.nodesAll xs))
    (hc : c.At (commas (SelectItem.tokenLists xs) ++ rest) m) (hr : (next rest).endsClause = true) :
    Gives (SelectItem.depthAll xs ≤ n) (Plain (SelectItem.nodesAll xs)) (commaList g.selectItem) c
      xs rest (m + marks (SelectItem.nodesAll xs)) := by
  rw [SelectItem.nodesAll_eq] at hready ⊢
  rw [SelectItem.tokenLists_eq] at hc
  rw [SelectItem.depthAll_le]
  have hitem : ∀ x ∈ xs, ReadsItem g.selectItem SelectItem.tokens SelectItem.nodes
      (fun x => x.depth ≤ n) (Plain (xs.flatMap SelectItem.nodes))
      (fun rest => (next rest).endsClause = true) x := by
    intro x hx c m rest hready hc hr
    exact (h.selectItem hready hc hr).imp Iff.rfl fun hp => plain_of_mem hp hx
  exact commaList_gives hne hitem hr (Kind.ne_of_endsClause hr rfl) hready hc

theorem relations (h : g.Reads n) {rs : List Relation} (hne : rs ≠ [])
    (hready : Ready m (Relation.nodesAll rs))
    (hc : c.At (commas (Relation.tokenLists rs) ++ rest) m) (hr : (next rest).endsClause = true) :
    Gives (Relation.depthAll rs ≤ n) (Plain (Relation.nodesAll rs)) (commaList g.relation) c
      rs rest (m + marks (Relation.nodesAll rs)) := by
  rw [Relation.nodesAll_eq] at hready ⊢
  rw [Relation.tokenLists_eq] at hc
  rw [Relation.depthAll_le]
  have hitem : ∀ r ∈ rs, ReadsItem g.relation Relation.tokens Relation.nodes
      (fun r => r.depth ≤ n) (Plain (rs.flatMap Relation.nodes))
      (fun rest => (next rest).endsClause = true) r := by
    intro r hr c m rest hready hc hr'
    refine (h.relation r c m rest hready hc ?_).imp Iff.rfl fun hp => plain_of_mem hp hr
    exact Kind.of_comma_or_endsClause (Q := (·.endsRelation = true)) hr' rfl
      Kind.endsRelation_of_endsClause
  exact commaList_gives hne hitem hr (Kind.ne_of_endsClause hr rfl) hready hc

/-! ### Selections -/

/-- A list behind a keyword that stands only if there is something in it. -/
theorem optionalList {α β : Type} {F G P Q : Prop} {a : α} {b : β} {k : Nat} {mid ts' : List Kind}
    {w : Keyword} {p : Parser α} {none? : Bool} {K : α → Parser β} {j : Nat} {z : α}
    (hc : c.At ((if none? then [] else .keyword w :: ts') ++ mid) m)
    (hnone : none? = true → a = z ∧ F ∧ j = m) (hw : next mid ≠ .keyword w)
    (hp : none? = false → ∀ c', c'.At (ts' ++ mid) m → Gives F P p c' a mid j) (hPQ : Q → P)
    (hK : ∀ c', c'.At mid j → Gives G Q (K a) c' b rest k) :
    Gives (F ∧ G) Q (do
      let x ← if ← eatKeyword w then p else pure z
      K x) c b rest k := by
  cases none? with
  | true =>
    obtain ⟨rfl, hf, rfl⟩ := hnone rfl
    have hc : c.At mid j := hc
    refine .step (eat_of_ne hc hw) ?_
    exact (hK c hc).congr (by simp [hf])
  | false =>
    have hc : c.At (.keyword w :: (ts' ++ mid)) m := hc
    refine .step (eat_of_eq hc) ?_
    exact (hp rfl c.advance hc.advance).seq hPQ hK

theorem optionalGroup (h : g.Reads n) {α : Type} {G Q : Prop} {a : α} {k : Nat} {mid : List Kind}
    {x : Option GroupBy} {K : Option GroupBy → Parser α} (hready : Ready m (GroupBy.nodes? x))
    (hp : Q → Plain (GroupBy.nodes? x)) (hc : c.At (GroupBy.tokens? x ++ mid) m)
    (hr : (next mid).endsClause = true) (hw : next mid ≠ .keyword .GROUP)
    (hK : ∀ c', c'.At mid (m + marks (GroupBy.nodes? x)) → Gives G Q (K x) c' a rest k) :
    Gives (GroupBy.depth? x ≤ n ∧ G) Q (do
      let x ← Parser.optional (← eatKeyword .GROUP) g.groupBy
      K x) c a rest k := by
  cases x with
  | none =>
    have hc : c.At mid m := hc
    refine .step (eat_of_ne hc hw) ((hK c hc).congr ?_)
    simp [GroupBy.depth?]
  | some e =>
    simp only [GroupBy.nodes?, GroupBy.tokens?, GroupBy.depth?, List.cons_append]
      at hc hready hp hK ⊢
    refine .step (eat_of_eq hc) ?_
    rw [optional_true]
    exact (h.groupBy hready hc.advance hr).map.seq hp hK

theorem selectItem_next (x : SelectItem) (ts : List Kind) :
    (next (x.tokens ++ ts)).opens = true := by
  cases x with
  | expr e y =>
    obtain ⟨k, ts', ht, hk, -⟩ := e.tokens_cons
    cases y <;> rw [SelectItem.tokens, ht] <;> exact hk
  | star r xs =>
    rw [SelectItem.tokens]
    cases r with
    | none => rfl
    | some x =>
      obtain ⟨y, ts', ht, -⟩ := x.tokens_cons
      rw [Name.starTokens, ht]
      rfl

section

variable {i : Nat} {w : Keyword}

/-- The keyword of a clause that stands there, or what stands behind it. -/
theorem clause_list {none? : Bool} {ts' : List Kind} (hw : i ≤ (Kind.keyword w).clause)
    (hr : i ≤ (next ts).clause) :
    i ≤ (next ((if none? then [] else .keyword w :: ts') ++ ts)).clause := by
  cases none? with
  | true => exact hr
  | false => exact hw

theorem clause_expr {x : Option Expr} (hw : i ≤ (Kind.keyword w).clause)
    (hr : i ≤ (next ts).clause) :
    i ≤ (next (Expr.tokensAfter [.keyword w] x ++ ts)).clause := by
  cases x with
  | none => exact hr
  | some e => rw [Expr.tokensAfter]; exact hw

theorem clause_group {x : Option GroupBy} (hi : i ≤ 3) (hr : i ≤ (next ts).clause) :
    i ≤ (next (GroupBy.tokens? x ++ ts)).clause := by
  cases x with
  | none => exact hr
  | some e => rw [GroupBy.tokens?]; exact hi

end

theorem select (h : g.Reads n) {s : Select} (hready : Ready m s.nodes)
    (hc : c.At (s.tokens ++ rest) m) (hr : 6 ≤ (next rest).clause) :
    Gives (s.depth ≤ n) (Plain s.nodes) g.select c s rest (m + marks s.nodes) := by
  obtain ⟨quantifier, items, sources, filter, group, having, windows⟩ := s
  simp only [Select.tokens, Select.nodes, Select.depth, List.cons_append, List.append_assoc,
    Nat.max_le] at hc hready ⊢
  obtain ⟨hgood, hr₁⟩ := (ready_cons rfl).1 hready
  have hne : items ≠ [] := hgood.sound
  obtain ⟨hitems, hr₂⟩ := ready_append.1 hr₁
  obtain ⟨hsources, hr₃⟩ := ready_append.1 hr₂
  obtain ⟨hfilter, hr₄⟩ := ready_append.1 hr₃
  obtain ⟨hgroup, hr₅⟩ := ready_append.1 hr₄
  obtain ⟨hhaving, hwindows⟩ := ready_append.1 hr₅
  -- What stands behind each clause.
  have hn₅ : 5 ≤ (next ((if windows.isEmpty then []
      else .keyword .WINDOW :: commas (NamedWindow.tokenLists windows)) ++ rest)).clause :=
    clause_list (by decide) (by omega)
  have hn₄ : 4 ≤ _ := clause_expr (x := having) (w := .HAVING) (by decide) (Nat.le_of_succ_le hn₅)
  have hn₃ : 3 ≤ _ := clause_group (x := group) (by decide) (Nat.le_of_succ_le hn₄)
  have hn₂ : 2 ≤ _ := clause_expr (x := filter) (w := .WHERE) (by decide) (Nat.le_of_succ_le hn₃)
  have hn₁ : 1 ≤ (next ((if sources.isEmpty then []
      else .keyword .FROM :: commas (Relation.tokenLists sources)) ++ _)).clause :=
    clause_list (by decide) (Nat.le_of_succ_le hn₂)
  have hopens : (next (commas (SelectItem.tokenLists items) ++ ((if sources.isEmpty then []
      else .keyword .FROM :: commas (Relation.tokenLists sources)) ++
      (Expr.tokensAfter [.keyword .WHERE] filter ++ (GroupBy.tokens? group ++
      (Expr.tokensAfter [.keyword .HAVING] having ++ ((if windows.isEmpty then []
      else .keyword .WINDOW :: commas (NamedWindow.tokenLists windows)) ++ rest))))))).opens =
        true := by
    obtain ⟨x, xs, rfl⟩ := List.exists_cons_of_ne_nil hne
    rw [SelectItem.tokenLists, Kind.commas_cons, List.append_assoc]
    exact selectItem_next x _
  obtain ⟨c₁, h₁, hc₁⟩ := quantifier_apply hc.advance (Kind.ne_of_opens hopens rfl)
    (Kind.ne_of_opens hopens rfl)
  unfold Grammar.select
  refine .step here_apply (.step (expectKeyword_of_eq hc) (.step h₁ ?_))
  refine (h.selectItems hne hitems hc₁ (Kind.endsClause_of_le (by decide) hn₁)).seq
    (by simp +contextual) fun c₂ hc₂ => ?_
  simp only [Select.build, List.isEmpty_eq_false_iff.2 hne, Bool.false_eq_true, if_false]
  refine .step (valid_ok _) ?_
  refine optionalList hc₂ (F := Relation.depthAll sources ≤ n)
    (P := Plain (Relation.nodesAll sources)) (a := sources)
    (j := m + marks (SelectItem.nodesAll items) + marks (Relation.nodesAll sources))
    ?_ (Kind.ne_of_clause hn₂ (by decide)) ?_ (by simp +contextual) fun c₃ hc₃ => ?_
  · intro he
    rw [List.isEmpty_iff.1 he]
    simp [Relation.depthAll, Relation.nodesAll]
  · intro he c' hc'
    exact h.relations (List.isEmpty_eq_false_iff.1 he) hsources hc'
      (Kind.endsClause_of_le (by decide) hn₂)
  refine h.optionalExpr hfilter (by simp +contextual) hc₃
    (Kind.ends_of_endsClause (Kind.endsClause_of_le (by decide) hn₃))
    (Kind.ne_of_clause hn₃ (by decide)) fun c₄ hc₄ => ?_
  refine h.optionalGroup hgroup (by simp +contextual) hc₄
    (Kind.endsClause_of_le (by decide) hn₄) (Kind.ne_of_clause hn₄ (by decide)) fun c₅ hc₅ => ?_
  refine h.optionalExpr hhaving (by simp +contextual) hc₅
    (Kind.ends_of_endsClause (Kind.endsClause_of_le (by decide) hn₅))
    (Kind.ne_of_clause hn₅ (by decide)) fun c₆ hc₆ => ?_
  have hlast := optionalList hc₆ (F := NamedWindow.depthAll windows ≤ n) (G := True)
    (P := Plain (NamedWindow.nodesAll windows)) (a := windows) (z := [])
    (p := commaList g.namedWindow)
    (j := m + marks (.select ⟨quantifier, items, sources, filter, group, having, windows⟩ ::
      (SelectItem.nodesAll items ++ (Relation.nodesAll sources ++ (Expr.nodes? filter ++
      (GroupBy.nodes? group ++ (Expr.nodes? having ++ NamedWindow.nodesAll windows))))))) ?_
    (Kind.ne_of_clause hr (by decide)) ?_ id (K := fun windows =>
      pure (Select.mk quantifier items sources filter group having windows))
    (fun c₇ hc₇ => .pure hc₇)
  · exact hlast.imp (by simp) (by simp +contextual)
  · intro he
    rw [List.isEmpty_iff.1 he]
    simp [NamedWindow.depthAll, NamedWindow.nodesAll, Node.isMark, Nat.add_assoc]
  · intro he c' hc'
    refine (h.namedWindows (List.isEmpty_eq_false_iff.1 he) hwindows hc'
      (Kind.ne_of_clause hr (by decide))).marks ?_
    simp [Node.isMark, Nat.add_assoc]

end Grammar.Reads

end Sql
