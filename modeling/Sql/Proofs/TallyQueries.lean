import Sql.Proofs.Queries
import Sql.Proofs.TallyExpressions

/-! Parsed queries are well-formed, and their placeholders bear the numbers of their places. -/
namespace Sql

open Token (Kind)
open Sql.Parser (Tallies Quiet Stays)

/-! ### Queries in other places -/

theorem Query.recast_ofBody {b : Body} (hb : ∀ q, b ≠ .nested q) :
    Recast b.nodes (Query.ofBody b).nodes := by
  rw [nodes_ofBody]
  refine .node rfl ⟨?_, nofun, nofun⟩ (.of_eq rfl)
  intro q hq
  exact absurd hq (hb q)

/-- A query in parentheses loses its own part where it is a list of values or a set operation. -/
theorem Relation.recast_ofQuery (q : Query) : Recast q.nodes (Relation.ofQuery q).nodes := by
  unfold Relation.ofQuery
  split
  · rename_i hm
    exact .node rfl (.inl hm) (.of_eq rfl)
  · rename_i hm
    rw [Bool.not_eq_true] at hm
    have hq := Query.eq_ofBody hm
    generalize q.body = body at hq ⊢
    subst hq
    have hsame := Query.nodes_ofBody body
    cases body with
    | select s => exact .node rfl (.inr (.inl ⟨s, rfl⟩)) (.of_eq rfl)
    | table n => exact .node rfl (.inr (.inr ⟨n, rfl⟩)) (.of_eq rfl)
    | values rows =>
      rw [hsame]
      refine .around rfl ?_ (.trans (.inside rfl) (.inside rfl))
      intro hvalid
      exact hvalid (.body (.values rows)) (by simp [Body.nodes])
    | setOperation o =>
      rw [hsame]
      exact .trans (.inside rfl) (.trans (.inside rfl) (.node rfl trivial (.of_eq rfl)))
    | nested inner =>
      refine .around rfl ?_ (.of_eq rfl)
      intro hvalid
      have hsound : (Query.ofBody (.nested inner)).Sound := hvalid (.query _) (by simp [hsame])
      exact .inl (hsound.nested inner rfl).2

/-- Around a query that has clauses of its own stands another one. -/
theorem Query.recast_surround (q : Query) (bindings : Option With) (order : List OrderTerm)
    {offset : Option Nat} {limit : Option Limit} (hoffset : ∀ n ∈ offset, n ≤ Token.maxInteger)
    (hlimit : ∀ n, limit = some (.count n) → n ≤ Token.maxInteger) :
    Recast (With.nodes? bindings ++ (q.nodes ++ OrderTerm.nodesAll order))
      (q.surround bindings order offset limit).nodes := by
  unfold Query.surround
  split
  · rename_i hnone
    simp only [Bool.and_eq_true, Option.isNone_iff_eq_none, List.isEmpty_iff] at hnone
    obtain ⟨⟨⟨rfl, rfl⟩, rfl⟩, rfl⟩ := hnone
    exact .of_eq (by simp [With.nodes?, OrderTerm.nodesAll])
  · rename_i hsome
    have hmodified : Query.isModified ⟨bindings, if q.isModified then .nested q else q.body, order,
        offset, limit⟩ = true := by
      cases bindings <;> cases order <;> cases offset <;> cases limit <;> first
        | rfl
        | exact absurd rfl hsome
    have hinner : Recast q.nodes (if q.isModified then .nested q else q.body : Body).nodes := by
      split
      · exact .node rfl trivial (.of_eq rfl)
      · rename_i hm
        rw [Bool.not_eq_true] at hm
        have hq := congrArg Query.nodes (eq_ofBody hm)
        rw [hq, nodes_ofBody]
        exact .inside rfl
    refine .around rfl ?_ (hinner.append.append_left _)
    intro hvalid
    refine ⟨?_, hoffset, hlimit⟩
    intro inner hbody
    refine ⟨?_, hmodified⟩
    change (if q.isModified then .nested q else q.body : Body) = .nested inner at hbody
    split at hbody
    · rename_i hm
      cases hbody
      exact hm
    · rename_i hm
      -- A query without clauses is valid only if it wraps no other.
      have hsound : q.Sound := hvalid (.query q) (by simp [q.mem_nodes])
      exact absurd (hsound.nested inner hbody).2 hm

namespace Grammar

variable {C : Cursor → Prop}

theorem quiet_sampleMethod : Quiet C sampleMethod fun _ => True := by
  refine Quiet.branch (Quiet.eatWord _) (Quiet.pure trivial) ?_
  exact Quiet.branch (Quiet.eatWord _) (Quiet.pure trivial) Tallies.unexpected

theorem quiet_joinKind : Quiet C joinKind fun _ => True := by
  have houter : ∀ {C : Cursor → Prop} kind, (∀ c, C c → c.kind ≠ .symbol .question) →
      Quiet C (joinKind.outer kind) fun _ => True := by
    intro C kind hC
    refine Tallies.advance hC (Quiet.skip (Quiet.eatKeyword _) fun _ => Quiet.pure trivial)
  refine Tallies.look (fun _ => rfl) ?_
  intro k
  split
  · exact Quiet.pure trivial
  · exact Tallies.advance (Cursor.kind_ne_question nofun) (Quiet.pure trivial)
  · exact houter _ (Cursor.kind_ne_question nofun)
  · exact houter _ (Cursor.kind_ne_question nofun)
  · exact houter _ (Cursor.kind_ne_question nofun)
  · exact Quiet.pure trivial

theorem quiet_rowCount : Quiet C rowCount fun n => n ≤ Token.maxInteger := by
  refine Tallies.look (fun _ => rfl) ?_
  intro k
  split
  · rename_i n
    refine Tallies.advance (Cursor.kind_ne_question nofun) (Quiet.pure ?_)
    have hmax : n.toInt ≤ Token.maxInteger := Int64.toInt_le n
    omega
  · exact Tallies.unexpected

theorem quiet_offset : Quiet C offset fun n => n ≤ Token.maxInteger := by
  apply Quiet.bind quiet_rowCount
  intro n hn
  apply Quiet.skip (Quiet.eatWord _)
  intro rows
  refine Tallies.ite (fun _ => Quiet.pure hn) fun _ => ?_
  exact Quiet.skip (Quiet.eatWord _) fun _ => Quiet.pure hn

theorem quiet_limit : Quiet C limit fun l => ∀ n, l = .count n → n ≤ Token.maxInteger := by
  refine Quiet.branch (Quiet.eatKeyword _) (Quiet.pure nofun) ?_
  apply Quiet.bind quiet_rowCount
  intro n hn
  refine Quiet.pure ?_
  rintro _ ⟨⟩
  exact hn

theorem tallies_starItem {relation : Option Name} (hr : ∀ n ∈ relation, n.Named) :
    Tallies C [] (starItem relation) SelectItem.nodes fun _ => True := by
  refine Quiet.skip (Quiet.expectSymbol nofun) ?_
  intro _
  refine Tallies.look (fun _ => rfl) ?_
  intro as
  refine Tallies.look (fun _ => rfl) ?_
  intro next
  refine Tallies.ite (fun hcond => ?_) fun _ => ?_
  · refine Tallies.advance ?_ (Quiet.bind Quiet.identList fun xs hxs => ?_)
    · rintro c ⟨⟨-, hc⟩, -⟩ hq
      simp [← hc, hq] at hcond
    · exact .pure (.node rfl ⟨hr, hxs.2⟩ (.of_eq rfl)) trivial
  · exact .pure (.node rfl ⟨hr, List.forall_mem_nil _⟩ (.of_eq rfl)) trivial

theorem tallies_setOperand {side : Parser Query}
    (hside : ∀ {C : Cursor → Prop}, Tallies C [] side Query.nodes fun _ => True)
    (operator : SetOperator) (left : Query) :
    Tallies C left.nodes (setOperand operator left side) (fun r => (r.getD left).nodes)
      fun _ => True := by
  apply Quiet.skip quiet_quantifier
  intro all
  apply hside.bind
  intro right _
  refine .pure ?_ trivial
  refine .trans ?_ (Query.recast_ofBody
    (b := .setOperation ⟨operator, all == some .all, left, right⟩) nofun)
  exact .node rfl trivial (.of_eq rfl)

namespace Tallied

variable {g : Grammar} (hg : g.Tallied)

include hg

/-! ### Relations -/

theorem unnest (hC : ∀ c, C c → c.kind ≠ .symbol .question) :
    Tallies C [] g.unnest Relation.nodes fun _ => True := by
  refine Tallies.look (fun _ => rfl) ?_
  intro span
  refine Tallies.advance (fun c hc => hC c hc.1) ?_
  apply hg.parenExprs.weaken.bind
  intro args _
  have hbuild : ∀ {C : Cursor → Prop} ordinality, Tallies C (Expr.nodesAll args)
      (Parser.valid span (Relation.buildUnnest args ordinality)) Relation.nodes fun _ => True := by
    intro C ordinality
    apply Tallies.valid
    intro r hr
    refine ⟨?_, trivial⟩
    unfold Relation.buildUnnest at hr
    split at hr
    · cases hr
    · rename_i hargs
      cases hr
      refine .node rfl ?_ (.of_eq rfl)
      simpa [Node.Formed, Node.Sound, Relation.Sound] using hargs
  refine Tallies.look (fun _ => rfl) ?_
  intro ordinality
  refine Tallies.look (fun _ => rfl) ?_
  intro next
  refine Tallies.ite (fun hcond => ?_) fun _ => hbuild _
  refine Tallies.advance ?_ (Tallies.advance ?_ (hbuild _))
  · rintro c ⟨⟨-, hc⟩, -⟩ hq
    simp [← hc, hq] at hcond
  · rintro _ ⟨c, ⟨-, hc⟩, rfl⟩ hq
    rw [Cursor.kind_advance] at hq
    simp [← hc, hq] at hcond

theorem parenRelation : Tallies C [] g.parenRelation Relation.nodes fun _ => True := by
  refine Tallies.look (fun _ => rfl) ?_
  intro query
  refine Tallies.ite (fun _ => ?_) fun _ => hg.relation.parens
  refine Tallies.attempt hg.parenQuery (fun q _ => ?_) fun e => hg.relation.parens
  exact .pure (Relation.recast_ofQuery q) trivial

theorem primaryRelation : Tallies C [] g.primaryRelation Relation.nodes fun _ => True := by
  refine Tallies.look (fun _ => rfl) ?_
  intro k
  split
  · exact hg.unnest (Cursor.kind_ne_question nofun)
  · refine Tallies.advance (Cursor.kind_ne_question nofun) (hg.parenQuery.bind fun q _ => ?_)
    exact .pure (.node rfl trivial (.of_eq rfl)) trivial
  · exact hg.parenRelation
  · exact Quiet.bind Quiet.name fun n hn => .pure (.node rfl ⟨hn, rfl⟩ (.of_eq rfl)) trivial
  · exact Tallies.unexpected

theorem renamedRelation : Tallies C [] g.renamedRelation Relation.nodes fun _ => True := by
  apply hg.primaryRelation.bind
  intro r _
  apply Quiet.bind Quiet.optionalName
  intro x hx
  split
  · exact .pure (.of_eq rfl) trivial
  · rename_i x
    apply Quiet.bind Quiet.optionalIdentList
    intro columns hcolumns
    exact .pure (.node rfl ⟨hx x rfl, hcolumns⟩ (.of_eq rfl)) trivial

theorem sampledRelation : Tallies C [] g.sampledRelation Relation.nodes fun _ => True := by
  apply hg.renamedRelation.bind
  intro r _
  refine Quiet.branch (Quiet.eatKeyword _) ?_ ?_
  · apply Quiet.skip quiet_sampleMethod
    intro method
    apply hg.expr.parens.bind
    intro p _
    exact .pure (.node rfl trivial (.of_eq rfl)) trivial
  · exact .pure (.of_eq rfl) trivial

theorem joinCriteria : Tallies C [] g.joinCriteria Criteria.nodes fun _ => True := by
  refine Quiet.branch (Quiet.eatKeyword _) ?_ (Quiet.branch (Quiet.eatKeyword _) ?_ ?_)
  · exact hg.expr.bind fun e _ => .pure (.node rfl trivial (.of_eq rfl)) trivial
  · exact Quiet.bind Quiet.identList fun xs hxs => .pure (.node rfl hxs (.of_eq rfl)) trivial
  · exact Tallies.unexpected

theorem joinNext (left : Relation) : Tallies C left.nodes (g.joinNext left)
    (fun r => (r.getD left).nodes) fun _ => True := by
  refine Tallies.look (fun _ => rfl) ?_
  intro span
  refine Quiet.branch (Quiet.eatKeyword _) ?_ ?_
  · apply Quiet.skip (Quiet.expectKeyword _)
    intro _
    apply hg.sampledRelation.bind
    intro right _
    refine .pure ?_ trivial
    refine .node rfl rfl ?_
    rw [← List.append_assoc]
    exact .last _ rfl trivial
  apply Quiet.skip (Quiet.eatKeyword _)
  intro natural
  apply Quiet.skip quiet_joinKind
  intro kind
  split
  · refine Tallies.ite (fun _ => Tallies.unexpected) fun _ => .pure (.of_eq rfl) trivial
  · rename_i kind
    apply Quiet.skip (Quiet.expectKeyword _)
    intro _
    apply hg.sampledRelation.bind
    intro right _
    have hbuild : ∀ {before} criteria, Recast before (left.nodes ++ right.nodes ++ criteria.nodes) →
        Tallies Anywhere before (do
          return some (← Parser.valid span (Relation.buildJoin left right kind criteria)))
          (fun r => (r.getD left).nodes) fun _ => True := by
      intro before criteria hr
      refine Tallies.seq (N := Relation.nodes) (P := fun _ => True)
        (Tallies.valid fun r hjoin => ⟨?_, trivial⟩) fun r _ => .pure (.of_eq rfl) trivial
      unfold Relation.buildJoin at hjoin
      split at hjoin
      · cases hjoin
      · rename_i hflaw
        cases hjoin
        refine .node rfl hflaw ?_
        rw [← List.append_assoc]
        exact hr
    refine Tallies.ite (fun _ => hbuild _ (.last _ rfl trivial)) fun _ => ?_
    exact hg.joinCriteria.bind fun criteria _ => hbuild criteria (.of_eq rfl)

theorem joinedRelation : Tallies C [] g.joinedRelation Relation.nodes fun _ => True := by
  apply hg.sampledRelation.bind
  intro first _
  apply Tallies.iterate trivial
  intro left _
  exact Tallies.mono (hg.joinNext left) fun _ _ _ _ => trivial

/-! ### Selections -/

theorem groupingSet : Tallies C [] g.groupingSet Expr.nodesAll fun _ => True := by
  have hsingle : ∀ {C : Cursor → Prop}, Tallies C [] (do return [← g.expr]) Expr.nodesAll
      fun _ => True := by
    intro C
    apply hg.expr.bind
    intro e _
    refine .pure (.of_eq ?_) trivial
    simp [Expr.nodesAll]
  have hlisted : ∀ {C : Cursor → Prop}, Tallies C [] (groupingSet.listed g) Expr.nodesAll
      fun _ => True := by
    intro C
    apply hg.parenExprs.bind
    intro set _
    refine Tallies.look (fun _ => rfl) ?_
    intro k
    split
    · exact .pure (.of_eq rfl) trivial
    · exact .pure (.of_eq rfl) trivial
    · exact Tallies.unexpected
  refine Tallies.ifCheck ?_ hsingle
  exact Tallies.attempt hlisted (fun set _ => .pure (.of_eq rfl) trivial) fun e => hsingle

theorem groupingElement : Tallies C [] g.groupingElement GroupingElement.nodes fun _ => True := by
  refine Tallies.look (fun _ => rfl) ?_
  intro span
  refine Tallies.look (fun _ => rfl) ?_
  intro next
  have hbuilt : ∀ {ns : List Node} {build : Except Invalid GroupingElement} (e : GroupingElement),
      (∀ e', build = .ok e' → e' = e ∧ e.Sound) → e.nodes = .grouping e :: ns →
      Tallies Anywhere ns (Parser.valid span build) GroupingElement.nodes fun _ => True := by
    intro ns build e hbuild hnodes
    apply Tallies.valid
    intro e' he
    refine ⟨?_, trivial⟩
    obtain ⟨rfl, hsound⟩ := hbuild e' he
    rw [hnodes]
    exact .node rfl hsound (.of_eq rfl)
  refine Tallies.look (fun _ => rfl) ?_
  intro rollup
  refine Tallies.ite (fun hcond => ?_) fun _ => ?_
  · refine Tallies.advance ?_ (hg.parenExprs.bind fun es _ => hbuilt (.rollup es) ?_ rfl)
    · rintro c ⟨-, hc⟩ hq
      simp [← hc, hq] at hcond
    · intro e he
      unfold GroupingElement.buildRollup at he
      split at he <;> cases he
      refine ⟨rfl, ?_⟩
      simp_all [GroupingElement.Sound]
  refine Tallies.look (fun _ => rfl) ?_
  intro cube
  refine Tallies.ite (fun hcond => ?_) fun _ => ?_
  · refine Tallies.advance ?_ (hg.parenExprs.bind fun es _ => hbuilt (.cube es) ?_ rfl)
    · rintro c ⟨-, hc⟩ hq
      simp [← hc, hq] at hcond
    · intro e he
      unfold GroupingElement.buildCube at he
      split at he <;> cases he
      refine ⟨rfl, ?_⟩
      simp_all [GroupingElement.Sound]
  refine Tallies.look (fun _ => rfl) ?_
  intro grouping
  refine Tallies.ite (fun hcond => ?_) fun _ => ?_
  · refine Tallies.advance ?_ (Tallies.advance ?_ ?_)
    · rintro c ⟨-, hc⟩ hq
      simp [← hc, hq] at hcond
    · rintro _ ⟨c, ⟨⟨⟨⟨-, hc⟩, -⟩, -⟩, -⟩, rfl⟩ hq
      rw [Cursor.kind_advance, hc] at hq
      simp [hq] at hcond
    apply (Tallies.commaList hg.groupingSet).parens.bind
    intro sets hsets
    refine hbuilt (.sets sets) ?_ ?_
    · intro e he
      unfold GroupingElement.buildSets at he
      split at he <;> cases he
      exact ⟨rfl, hsets.1⟩
    · rw [GroupingElement.nodes, Expr.setNodes_eq, List.nil_append]
      congr 2
      exact funext fun es => (Expr.nodesAll_eq es).symm
  · exact hg.expr.bind fun e _ => .pure (.node rfl trivial (.of_eq rfl)) trivial

theorem groupBy : Tallies C [] g.groupBy GroupBy.nodes fun _ => True := by
  apply Quiet.skip (Quiet.expectKeyword _)
  intro _
  apply Quiet.skip quiet_quantifier
  intro quantifier
  apply (Tallies.commaList hg.groupingElement).bind
  intro elements helements
  refine .pure ?_ trivial
  refine .node rfl helements.1 (.of_eq ?_)
  rw [List.nil_append, GroupingElement.nodesAll_eq]

theorem selectItem : Tallies C [] g.selectItem SelectItem.nodes fun _ => True := by
  refine Tallies.ifCheck (tallies_starItem nofun) ?_
  refine Tallies.look (fun _ => rfl) ?_
  intro star
  refine Tallies.ite (fun _ => ?_) fun _ => ?_
  · apply Quiet.bind Quiet.name
    intro relation hr
    refine Quiet.skip (Quiet.expectSymbol nofun) ?_
    intro _
    refine tallies_starItem ?_
    rintro _ ⟨⟩
    exact hr
  · apply hg.expr.bind
    intro e _
    apply Quiet.bind Quiet.optionalName
    intro x hx
    exact .pure (.node rfl hx (.of_eq rfl)) trivial

theorem select : Tallies C [] g.select Select.nodes fun _ => True := by
  refine Tallies.look (fun _ => rfl) ?_
  intro span
  apply Quiet.skip (Quiet.expectKeyword _)
  intro _
  apply Quiet.skip quiet_quantifier
  intro quantifier
  apply (Tallies.commaList hg.selectItem).bind
  intro items hitems
  have hbuild : Quiet Anywhere (Parser.valid span (Select.build items))
      fun s => s.items = items := by
    apply Tallies.valid
    intro s hs
    refine ⟨.of_eq rfl, ?_⟩
    unfold Select.build at hs
    split at hs <;> cases hs
    rfl
  apply Quiet.bind hbuild
  intro s hs
  refine Quiet.clause (P := fun _ => True) (Quiet.eatKeyword _) (Tallies.mono (Tallies.commaList
    hg.relation) fun _ _ => trivial) trivial rfl ?_
  intro sources _
  apply Quiet.skip (Quiet.eatKeyword _)
  intro filtered
  refine (Tallies.optional fun _ => hg.expr).bind ?_
  intro filter _
  apply Quiet.skip (Quiet.eatKeyword _)
  intro grouped
  refine (Tallies.optional fun _ => hg.groupBy).bind ?_
  intro group _
  apply Quiet.skip (Quiet.eatKeyword _)
  intro chosen
  refine (Tallies.optional fun _ => hg.expr).bind ?_
  intro having _
  refine Quiet.clause (P := fun _ => True) (Quiet.eatKeyword _) (Tallies.mono (Tallies.commaList
    hg.namedWindow) fun _ _ => trivial) trivial rfl ?_
  intro windows _
  refine .pure (.node rfl ?_ (.of_eq ?_)) trivial
  · change s.items ≠ []
    rw [hs]
    exact hitems.1
  · rw [hs]
    cases group <;> simp [SelectItem.nodesAll_eq, Relation.nodesAll_eq, Expr.nodes?_eq,
      GroupBy.nodes?, NamedWindow.nodesAll_eq]

/-! ### Queries -/

theorem values : Tallies C [] g.values Body.nodes fun b => ∃ rows, b = .values rows := by
  refine Tallies.look (fun _ => rfl) ?_
  intro span
  apply Quiet.skip (Quiet.expectKeyword _)
  intro _
  apply hg.exprs.bind
  intro rows hrows
  apply Tallies.valid
  intro b hb
  unfold Body.buildValues at hb
  split at hb <;> cases hb
  exact ⟨.node rfl hrows (.of_eq rfl), rows, rfl⟩

theorem primaryQuery : Tallies C [] g.primaryQuery Query.nodes fun _ => True := by
  refine Tallies.look (fun _ => rfl) ?_
  intro k
  split
  · apply hg.select.bind
    intro s _
    refine .pure ?_ trivial
    refine .trans ?_ (Query.recast_ofBody (b := .select s) nofun)
    exact .node rfl trivial (.of_eq rfl)
  · refine Tallies.advance (Cursor.kind_ne_question nofun) ?_
    apply Quiet.bind Quiet.name
    intro n hn
    refine .pure ?_ trivial
    refine .trans ?_ (Query.recast_ofBody (b := .table n) nofun)
    exact .node rfl hn (.of_eq rfl)
  · apply hg.values.bind
    intro b hb
    refine .pure (Query.recast_ofBody ?_) trivial
    obtain ⟨rows, rfl⟩ := hb
    exact nofun
  · exact hg.parenQuery
  · exact Tallies.unexpected

theorem intersectNext (left : Query) : Tallies C left.nodes (g.intersectNext left)
    (fun r => (r.getD left).nodes) fun _ => True :=
  Quiet.branch (Quiet.eatKeyword _) (tallies_setOperand hg.primaryQuery _ left)
    (.pure (.of_eq rfl) trivial)

theorem queryTerm : Tallies C [] g.queryTerm Query.nodes fun _ => True := by
  apply hg.primaryQuery.bind
  intro first _
  apply Tallies.iterate trivial
  intro left _
  exact Tallies.mono (hg.intersectNext left) fun _ _ _ _ => trivial

theorem unionNext (left : Query) : Tallies C left.nodes (g.unionNext left)
    (fun r => (r.getD left).nodes) fun _ => True := by
  refine Quiet.branch (Quiet.eatKeyword _) (tallies_setOperand hg.queryTerm _ left) ?_
  exact Quiet.branch (Quiet.eatKeyword _) (tallies_setOperand hg.queryTerm _ left)
    (.pure (.of_eq rfl) trivial)

theorem setExpression : Tallies C [] g.setExpression Query.nodes fun _ => True := by
  apply hg.queryTerm.bind
  intro first _
  apply Tallies.iterate trivial
  intro left _
  exact Tallies.mono (hg.unionNext left) fun _ _ _ _ => trivial

theorem cte : Tallies C [] g.cte Cte.nodes fun _ => True := by
  apply Quiet.bind Quiet.ident
  intro x hx
  apply Quiet.bind Quiet.optionalIdentList
  intro columns hc
  apply Quiet.skip (Quiet.expectKeyword _)
  intro _
  apply hg.parenQuery.bind
  intro q _
  exact .pure (.node rfl ⟨hx, hc⟩ (.of_eq rfl)) trivial

theorem withClause : Tallies C [] g.withClause With.nodes fun _ => True := by
  apply Quiet.skip (Quiet.eatWord _)
  intro recursive
  apply (Tallies.commaList hg.cte).bind
  intro entries hentries
  refine .pure ?_ trivial
  refine .node rfl hentries.1 (.of_eq ?_)
  rw [List.nil_append, Cte.nodesAll_eq]

theorem fullQuery : Tallies C [] g.fullQuery Query.nodes fun _ => True := by
  apply Quiet.skip (Quiet.eatKeyword _)
  intro bound
  refine (Tallies.optional fun _ => hg.withClause).bind ?_
  intro bindings _
  apply hg.setExpression.bind
  intro q _
  apply hg.optionalOrder.bind
  intro order _
  apply Quiet.skip (Quiet.eatKeyword _)
  intro hasOffset
  refine Quiet.bind (Quiet.optional fun _ => quiet_offset) ?_
  intro offset hoffset
  apply Quiet.skip (Quiet.eatKeyword _)
  intro hasLimit
  refine Quiet.bind (Quiet.optional fun _ => quiet_limit) ?_
  intro limit hlimit
  refine .pure ?_ trivial
  refine .trans (.of_eq ?_) (q.recast_surround bindings order hoffset fun n hn => ?_)
  · cases bindings <;> simp [With.nodes?]
  · exact hlimit _ hn n rfl

/-! ### All levels -/

theorem deepen {n : Nat} (he : Parser.Ensures Kind.Spelled g.type (DataType.Within n)) :
    g.deepen.Tallied where
  subqueries := hg.subqueries.deepen
  query := hg.fullQuery
  relation := hg.joinedRelation
  exprFrom := hg.expression
  type := by
    intro C
    have hquiet : Quiet C (Parser.dataType g.type) fun _ => True :=
      Quiet.dataType (Tallies.mono hg.type fun _ _ => trivial)
    refine Tallies.mono (Tallies.and_ensures hquiet (Parser.Ensures.dataType he)) ?_
    rintro t ⟨-, ht⟩
    exact ht.inRange

end Tallied

theorem tallied_bottom : bottom.Tallied where
  subqueries := readsSubqueries_ofDepth 0
  query := Tallies.look (fun _ => rfl) fun _ => Tallies.failAt
  relation := Tallies.look (fun _ => rfl) fun _ => Tallies.failAt
  exprFrom _ := Tallies.look (fun _ => rfl) fun _ => Tallies.failAt
  type := Tallies.look (fun _ => rfl) fun _ => Tallies.failAt

/-- The invariant holds at every level of nesting. -/
theorem tallied_ofDepth (depth : Nat) : (ofDepth depth).Tallied := by
  induction depth with
  | zero => exact tallied_bottom
  | succ depth ih => exact ih.deepen (Parser.Ensures.ofDepth_type depth)

end Grammar

/-! ### Whole texts -/

/-- How many question marks are among the tokens of the text. -/
def Token.questions (text : String) : Nat :=
  (scan text).countP (·.kind == .symbol .question)

theorem Cursor.placeholders_ofText (text : String) :
    (ofText text).placeholders = Token.questions text := by
  unfold placeholders kinds Token.questions List.count
  rw [List.countP_map]
  rfl

namespace Parser

variable {α : Type} {p : Parser α} {N : α → List Node} {Q : α → Prop} {text : String} {a : α}
  {c c' : Cursor} {total : Nat} {ns : List Node}

/-- At the end of the text no token is left, so all placeholders have been read. -/
theorem numbers_of_finish (h : c.Tally total ns) (hf : finish c = .ok ((), c')) :
    numbers ns = List.range' 1 total := by
  obtain ⟨b, d, hsemicolon, hf⟩ := bind_eq_ok hf
  have hquiet : Quiet Anywhere (eatSymbol .semicolon) fun _ => True := Quiet.eatSymbol nofun
  have hc : c.Tally total (ns ++ []) := by rwa [List.append_nil]
  obtain ⟨hd, -⟩ := hquiet total ns c b d trivial hc hsemicolon
  rw [List.append_nil] at hd
  have hend : d.kind = .endOfInput := by
    obtain ⟨ended, d', ⟨⟩, hf⟩ := bind_eq_ok hf
    by_contra hne
    rw [beq_false_of_ne hne] at hf
    cases hf
  have hkinds : d.kinds = [] := by
    rw [d.kind_eq] at hend
    cases hk : d.kinds with
    | nil => rfl
    | cons k ks =>
      rw [hk] at hend
      exact absurd hend (hd.found k (by simp [hk])).ne_endOfInput
  have hcount : d.parameters = total := by
    have hcount := hd.count
    rw [Cursor.placeholders, hkinds] at hcount
    exact hcount
  rw [hd.numbered, hcount]

/-- What a parser of whole texts returns. -/
theorem Tallies.run (h : Tallies Anywhere [] p N Q) (hp : p.run text = .ok a) :
    (∀ n ∈ N a, n.Formed) ∧ numbers (N a) = List.range' 1 (Token.questions text) := by
  have hstart : (Cursor.ofText text).Tally (Token.questions text) [] := by
    refine ⟨Cursor.ofText_found text, nofun, rfl, ?_⟩
    rw [Cursor.placeholders_ofText]
    exact Nat.zero_add _
  change ((do let a ← p; finish; return a : Parser α) (.ofText text)).map Prod.fst = _ at hp
  cases hrun : (do let a ← p; finish; return a : Parser α) (.ofText text) with
  | error e =>
    rw [hrun] at hp
    cases hp
  | ok r =>
    rw [hrun] at hp
    cases hp
    obtain ⟨b, d, hb, hrest⟩ := bind_eq_ok hrun
    obtain ⟨_, d', hfinish, ⟨⟩⟩ := bind_eq_ok hrest
    obtain ⟨hd, -⟩ := h _ [] _ _ _ trivial hstart hb
    exact ⟨hd.formed, numbers_of_finish hd hfinish⟩

end Parser

/-- Every part of a parsed tree is well-formed, at every depth. -/
theorem formed_of_parse (text : String) :
    (∀ q, Query.parse text = .ok q → ∀ n ∈ q.nodes, n.Formed) ∧
      ∀ e, Expr.parse text = .ok e → ∀ n ∈ e.nodes, n.Formed := by
  have hg := Grammar.tallied_ofDepth Grammar.maxDepth
  refine ⟨?_, ?_⟩
  · intro q hq
    exact (hg.query.run hq).1
  · intro e he
    exact (hg.expr.run he).1

/-- Every part of a parsed tree is valid, at every depth. -/
theorem valid_of_parse (text : String) :
    (∀ q, Query.parse text = .ok q → ∀ n ∈ q.nodes, n.Valid) ∧
      ∀ e, Expr.parse text = .ok e → ∀ n ∈ e.nodes, n.Valid := by
  obtain ⟨hquery, hexpr⟩ := formed_of_parse text
  exact ⟨fun q hq n hn => (hquery q hq n hn).valid, fun e he n hn => (hexpr e he n hn).valid⟩

/-- A query in which subqueries are tried and given up. -/
def sampleNestedMarks : String :=
  "SELECT ? FROM ((SELECT ? FROM t) CROSS JOIN u) WHERE a IN ((VALUES ?), ((b) + ?)) LIMIT 7"

theorem parse_sampleNestedMarks : ∃ q, Query.parse sampleNestedMarks = .ok q := by
  cases h : Query.parse sampleNestedMarks with
  | ok q => exact ⟨q, rfl⟩
  | error e =>
    have hok : (Query.parse sampleNestedMarks).toOption.isSome = true := by decide +kernel
    rw [h] at hok
    cases hok

theorem valid_of_parse_sample : ∃ q, Query.parse sampleNestedMarks = .ok q ∧
    ∀ n ∈ q.nodes, n.Valid := by
  obtain ⟨q, hq⟩ := parse_sampleNestedMarks
  exact ⟨q, hq, (valid_of_parse sampleNestedMarks).1 q hq⟩

/-- The placeholders of a parsed tree bear the numbers from 1 on, in the order of its parts, and
there are as many of them as there are question marks in the text. -/
theorem numbers_of_parse (text : String) :
    (∀ q, Query.parse text = .ok q → numbers q.nodes = List.range' 1 (Token.questions text)) ∧
      ∀ e, Expr.parse text = .ok e → numbers e.nodes = List.range' 1 (Token.questions text) := by
  have hg := Grammar.tallied_ofDepth Grammar.maxDepth
  refine ⟨?_, ?_⟩
  · intro q hq
    exact (hg.query.run hq).2
  · intro e he
    exact (hg.expr.run he).2

theorem numbers_of_parse_sample : ∃ q, Query.parse sampleNestedMarks = .ok q ∧
    numbers q.nodes = [1, 2, 3, 4] := by
  obtain ⟨q, hq⟩ := parse_sampleNestedMarks
  have hcount : Token.questions sampleNestedMarks = 4 := by decide +kernel
  have hnumbers := (numbers_of_parse sampleNestedMarks).1 q hq
  rw [hcount] at hnumbers
  exact ⟨q, hq, hnumbers⟩

end Sql
