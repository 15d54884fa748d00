import Sql.Proofs.Composed
import Sql.Proofs.DoubleTexts
import Sql.Proofs.Tally

/-! The normal form of a well-formed tree: its parts can be written and are read back as they are,
and it has the placeholders of the tree. -/
namespace Sql

open Token (Kind)

/-! ### Parts of a normal form -/

/-- The part can be written, and is read back as it is. -/
structure Node.Normal (n : Node) : Prop where
  sound : n.Sound
  settled : n.Settled

/-- The parts `ms` are those of the normal form of a tree with the parts `ns`. -/
structure Normalizes (ns ms : List Node) : Prop where
  numbers : numbers ms = numbers ns
  normal : (∀ n ∈ ns, n.Formed) → ∀ n ∈ ms, n.Normal

namespace Normalizes

variable {ns ms ns' ms' : List Node} {x y : Node}

theorem nil : Normalizes [] [] := ⟨rfl, fun _ => List.forall_mem_nil _⟩

theorem node (hxy : y.parameter? = x.parameter?) (hy : x.Formed → y.Normal)
    (h : Normalizes ns ms) : Normalizes (x :: ns) (y :: ms) := by
  refine ⟨?_, ?_⟩
  · rw [Sql.numbers, Sql.numbers, List.filterMap_cons, List.filterMap_cons, hxy]
    cases x.parameter? with
    | none => exact h.numbers
    | some i => exact congrArg (i :: ·) h.numbers
  · intro hall
    obtain ⟨hx, hns⟩ := List.forall_mem_cons.1 hall
    exact List.forall_mem_cons.2 ⟨hy hx, h.normal hns⟩

/-- A part about which nothing is to be known. -/
theorem free (hxy : y.parameter? = x.parameter?) (hsound : y.Sound) (hsettled : y.Settled)
    (h : Normalizes ns ms) : Normalizes (x :: ns) (y :: ms) :=
  node hxy (fun _ => ⟨hsound, hsettled⟩) h

theorem append (h : Normalizes ns ms) (h' : Normalizes ns' ms') :
    Normalizes (ns ++ ns') (ms ++ ms') := by
  refine ⟨?_, ?_⟩
  · rw [numbers_append, numbers_append, h.numbers, h'.numbers]
  · intro hall
    obtain ⟨hns, hns'⟩ := List.forall_mem_append.1 hall
    exact List.forall_mem_append.2 ⟨h.normal hns, h'.normal hns'⟩

end Normalizes

/-! ### Operators in a row -/

namespace Expr

variable {op : BinaryOp} {l r e : Expr}

theorem numbers_prepend (l e : Expr) :
    numbers (prepend l op e).nodes = numbers l.nodes ++ numbers e.nodes := by
  induction e using prepend.induct op with
  | case1 x op' y htier ih =>
    rw [prepend, if_pos htier, nodes, nodes, numbers_cons rfl, numbers_cons rfl, numbers_append,
      numbers_append, ih, List.append_assoc]
  | case2 x op' y htier =>
    rw [prepend, if_neg htier, nodes, numbers_cons rfl, numbers_append]
  | case3 e hne =>
    have hprepend : prepend l op e = .binary l op e := by
      rw [prepend]
      exact hne
    rw [hprepend, nodes, numbers_cons rfl, numbers_append]

theorem numbers_regroup (l r : Expr) :
    numbers (regroup l op r).nodes = numbers l.nodes ++ numbers r.nodes := by
  rw [regroup]
  split
  · exact numbers_prepend l r
  · rw [nodes, numbers_cons rfl, numbers_append]

theorem binary_normal :
    (Node.expr (.binary l op r)).Normal ↔ (r.isBinaryOf op && op.isAssociative) = false :=
  ⟨fun h => h.settled, fun h => ⟨trivial, h⟩⟩

theorem normalizes_regroup {l' r' : Expr} (hl : Normalizes l.nodes l'.nodes)
    (hr : Normalizes r.nodes r'.nodes) :
    Normalizes (binary l op r).nodes (regroup l' op r').nodes := by
  refine ⟨?_, ?_⟩
  · rw [numbers_regroup, nodes, numbers_cons rfl, numbers_append, hl.numbers, hr.numbers]
  · intro hformed
    rw [nodes, List.forall_mem_cons, List.forall_mem_append] at hformed
    exact forall_regroup binary_normal (hl.normal hformed.2.1) (hr.normal hformed.2.2)

end Expr

/-! ### Single parts -/

theorem Ident.named_delimit? {x : Option Ident} (h : ∀ y ∈ x, y.Named) :
    ∀ y ∈ x.map delimit, y.Named := by
  intro y hy
  obtain ⟨x, hx, rfl⟩ := Option.map_eq_some_iff.1 hy
  exact h x hx

theorem Ident.delimited_delimit? {x : Option Ident} : ∀ y ∈ x.map delimit, y.delimited = true := by
  intro y hy
  obtain ⟨x, -, rfl⟩ := Option.map_eq_some_iff.1 hy
  rfl

theorem Name.named_delimit? {r : Option Name} (h : ∀ n ∈ r, n.Named) :
    ∀ n ∈ r.map delimit, n.Named := by
  intro n hn
  obtain ⟨r, hr, rfl⟩ := Option.map_eq_some_iff.1 hn
  exact named_delimit (h r hr)

theorem Name.delimited_delimit? {r : Option Name} : ∀ n ∈ r.map delimit, n.Delimited := by
  intro n hn
  obtain ⟨r, -, rfl⟩ := Option.map_eq_some_iff.1 hn
  exact r.delimited_delimit

/-- An infinite number is written as a call. -/
theorem Call.sound_infinity : (Call.plain (.single (.plain "infinity")) []).Sound where
  spelled := by
    intro x hx
    obtain rfl : x = .plain "infinity" := by simpa [Call.plain, Name.single, Name.parts] using hx
    exact ⟨⟨'i', ['n', 'f', 'i', 'n', 'i', 't', 'y'], rfl, rfl, List.all_eq_true.1 rfl⟩, by cbv⟩
  plain _ := by cbv
  noArgs _ := ⟨rfl, rfl⟩

theorem Literal.normalizes (v : Literal) : Normalizes (Expr.literal v).nodes v.normal.nodes := by
  have hsame : ∀ {v : Literal}, (Expr.literal v).Settled →
      ((Expr.literal v).Formed → v.Sound) →
      Normalizes (Expr.literal v).nodes (Expr.literal v).nodes :=
    fun hsettled hsound => .node rfl (fun h => ⟨hsound h, hsettled⟩) .nil
  cases v with
  | integer n =>
    rw [normal]
    split
    · rename_i hn
      refine ⟨rfl, fun hformed => ?_⟩
      have hpositive : (0 : Int64) ≤ n := hformed _ List.mem_cons_self
      exact absurd hn (Int64.not_lt.2 hpositive)
    · exact hsame trivial id
  | double d =>
    rw [normal]
    split
    · rename_i hinfinite
      refine ⟨by split <;> rfl, fun hformed => ?_⟩
      obtain ⟨hsign, -⟩ : d.negative = false ∧ d.isNaN = false := hformed _ List.mem_cons_self
      rw [hsign, if_neg Bool.false_ne_true, Expr.nodes, List.forall_mem_cons, Call.plain,
        Call.nodes, List.forall_mem_cons]
      exact ⟨⟨trivial, trivial⟩, ⟨Call.sound_infinity, trivial⟩, List.forall_mem_nil _⟩
    · rename_i hfinite
      have hfinite := eq_false_of_ne_true hfinite
      exact hsame hfinite fun h => ⟨h.1, h.2, fun _ => Double.ofText?_text h.1 h.2 hfinite⟩
  | decimal text => exact hsame trivial id
  | null | boolean | string | binary => exact hsame trivial fun _ => trivial

theorem Expr.normal_eq_subquery {e : Expr} {q : Query} (h : e.normal = .subquery q) :
    ∃ q', e = .subquery q' := by
  cases e with
  | subquery q' => exact ⟨q', rfl⟩
  | literal v =>
    rw [normal] at h
    cases v with
    | integer n =>
      rw [Literal.normal] at h
      split at h <;> cases h
    | double d =>
      rw [Literal.normal] at h
      dsimp only at h
      split at h
      · split at h <;> cases h
      · cases h
    | _ => cases h
  | binary l op r =>
    obtain ⟨x, y, heq⟩ := regroup_eq op l.normal r.normal
    rw [normal, heq] at h
    cases h
  | _ => cases h

theorem Expr.normals_ne_nil {es : List Expr} (h : es ≠ []) : normals es ≠ [] := by
  cases es with
  | nil => exact absurd rfl h
  | cons => nofun

theorem Expr.normals_ne_subquery {es : List Expr} (h : ∀ q, es ≠ [.subquery q]) (q : Query) :
    normals es ≠ [.subquery q] := by
  intro heq
  rw [normals_eq, List.map_eq_singleton_iff] at heq
  obtain ⟨e, rfl, he⟩ := heq
  obtain ⟨q', rfl⟩ := normal_eq_subquery he
  exact h q' rfl

theorem Call.Sound.normal {c : Call} (h : c.Sound) : c.normal.Sound := by
  obtain ⟨name, quantifier, args, order, filter, nulls, window⟩ := c
  refine ⟨h.spelled, h.plain, fun hargs => ?_⟩
  have hnone : args = [] := by
    by_contra hne
    exact Expr.normals_ne_nil hne hargs
  obtain ⟨hquantifier, horder⟩ := h.noArgs hnone
  refine ⟨hquantifier, ?_⟩
  change OrderTerm.normals order = []
  rw [show order = [] from horder]
  rfl

theorem Query.Sound.normal {q : Query} (h : q.Sound) : q.normal.Sound := by
  obtain ⟨bindings, body, order, offset, limit⟩ := q
  refine ⟨?_, h.offset, h.limit⟩
  intro inner hinner
  cases body with
  | nested q =>
    obtain rfl : q.normal = inner := Body.nested.inj hinner
    rw [isModified_normal, isModified_normal]
    exact h.nested q rfl
  | _ => cases hinner

theorem Relation.sound_query_normal {q : Query} (h : (Relation.query q).Sound) :
    (Relation.query q.normal).Sound := by
  obtain ⟨bindings, body, order, offset, limit⟩ := q
  refine h.imp ?_ (Or.imp ?_ ?_)
  · exact fun hmodified => (Query.isModified_normal _).trans hmodified
  · rintro ⟨s, rfl⟩
    exact ⟨s.normal, rfl⟩
  · rintro ⟨n, rfl⟩
    exact ⟨n.delimit, rfl⟩

/-! ### Whole trees -/

open Normalizes (nil node free append)

mutual

theorem Expr.normalizes : ∀ e : Expr, Normalizes e.nodes e.normal.nodes
  | .literal v => v.normalizes
  | .column n => node rfl (fun h => ⟨Name.named_delimit h, n.delimited_delimit⟩) nil
  | .parameter i => free rfl trivial trivial nil
  | .star r =>
    node rfl (fun h => ⟨Name.named_delimit? h, Name.delimited_delimit?⟩) nil
  | .binary l op r => Expr.normalizes_regroup l.normalizes r.normalizes
  | .unary op e => free rfl trivial trivial e.normalizes
  | .isNull e n => free rfl trivial trivial e.normalizes
  | .isDistinct l r n => free rfl trivial trivial (append l.normalizes r.normalizes)
  | .like e p c n =>
    free rfl trivial trivial (append e.normalizes (append p.normalizes (Expr.normalizes? c)))
  | .between e l h n =>
    free rfl trivial trivial (append e.normalizes (append l.normalizes h.normalizes))
  | .inList e items n => by
    refine node rfl (fun h => ⟨?_, trivial⟩)
      (append e.normalizes (Expr.normalizesAll items))
    exact ⟨Expr.normals_ne_nil h.1, Expr.normals_ne_subquery h.2⟩
  | .inQuery e q n => free rfl trivial trivial (append e.normalizes q.normalizes)
  | .existsQuery q => free rfl trivial trivial q.normalizes
  | .subquery q => free rfl trivial trivial q.normalizes
  | .call c => free rfl trivial trivial c.normalizes
  | .cast e t s => node rfl (fun h => ⟨h, trivial⟩) e.normalizes
  | .caseWhen x bs e => by
    refine node rfl (fun h => ⟨?_, trivial⟩) (append (Expr.normalizes? x)
      (append (Expr.normalizesBranches bs) (Expr.normalizes? e)))
    cases bs with
    | nil => exact absurd rfl h
    | cons => nofun
  | .array items => free rfl trivial trivial (Expr.normalizesAll items)
  | .row items => free rfl trivial trivial (Expr.normalizesAll items)
  | .subscript b i => free rfl trivial trivial (append b.normalizes i.normalizes)
  | .field b x => node rfl (fun h => ⟨h, rfl⟩) b.normalizes
  | .lambda ps b => by
    refine node rfl (fun h => ⟨⟨?_, ?_⟩, Ident.delimited_delimit⟩) b.normalizes
    · exact List.map_eq_nil_iff.not.2 h.1
    · exact Ident.namedAll_delimit h.2.1
  | .interval t n s f => node rfl (fun h => ⟨h, trivial⟩) nil
  | .typed t x => node rfl (fun h => ⟨h, trivial⟩) nil
termination_by structural e => e

theorem Expr.normalizesAll :
    ∀ es, Normalizes (Expr.nodesAll es) (Expr.nodesAll (Expr.normals es))
  | [] => nil
  | e :: es => append e.normalizes (Expr.normalizesAll es)
termination_by structural es => es

theorem Expr.normalizesSets :
    ∀ sets, Normalizes (Expr.setNodes sets) (Expr.setNodes (Expr.normalSets sets))
  | [] => nil
  | es :: sets => append (Expr.normalizesAll es) (Expr.normalizesSets sets)
termination_by structural sets => sets

theorem Expr.normalizesBranches :
    ∀ bs, Normalizes (Expr.branchNodes bs) (Expr.branchNodes (Expr.normalBranches bs))
  | [] => nil
  | (c, v) :: bs => append c.normalizes (append v.normalizes (Expr.normalizesBranches bs))
termination_by structural bs => bs

theorem Expr.normalizes? : ∀ e, Normalizes (Expr.nodes? e) (Expr.nodes? (Expr.normal? e))
  | none => nil
  | some e => e.normalizes
termination_by structural e => e

theorem Call.normalizes : ∀ c : Call, Normalizes c.nodes c.normal.nodes
  | ⟨_, _, args, order, filter, _, window⟩ =>
    node rfl (fun h => ⟨Call.Sound.normal h, trivial⟩) (append (Expr.normalizesAll args)
      (append (OrderTerm.normalizesAll order)
        (append (Expr.normalizes? filter) (Over.normalizes? window))))
termination_by structural c => c

theorem OrderTerm.normalizes : ∀ t : OrderTerm, Normalizes t.nodes t.normal.nodes
  | ⟨e, _, _⟩ => e.normalizes
termination_by structural t => t

theorem OrderTerm.normalizesAll :
    ∀ ts, Normalizes (OrderTerm.nodesAll ts) (OrderTerm.nodesAll (OrderTerm.normals ts))
  | [] => nil
  | t :: ts => append t.normalizes (OrderTerm.normalizesAll ts)
termination_by structural ts => ts

theorem Over.normalizes : ∀ o : Over, Normalizes o.nodes o.normal.nodes
  | .named _ => node rfl (fun h => ⟨h, rfl⟩) nil
  | .window w => free rfl trivial trivial w.normalizes
termination_by structural o => o

theorem Over.normalizes? : ∀ o, Normalizes (Over.nodes? o) (Over.nodes? (Over.normal? o))
  | none => nil
  | some o => o.normalizes
termination_by structural o => o

theorem Window.normalizes : ∀ w : Window, Normalizes w.nodes w.normal.nodes
  | ⟨_, partition, order, frame⟩ =>
    node rfl (fun h => ⟨Ident.named_delimit? h, Ident.delimited_delimit?⟩)
      (append (Expr.normalizesAll partition)
        (append (OrderTerm.normalizesAll order) (Frame.normalizes? frame)))
termination_by structural w => w

theorem Frame.normalizes : ∀ f : Frame, Normalizes f.nodes f.normal.nodes
  | ⟨_, start, stop⟩ => append start.normalizes (Bound.normalizes? stop)
termination_by structural f => f

theorem Frame.normalizes? : ∀ f, Normalizes (Frame.nodes? f) (Frame.nodes? (Frame.normal? f))
  | none => nil
  | some f => f.normalizes
termination_by structural f => f

theorem Bound.normalizes : ∀ b : Bound, Normalizes b.nodes b.normal.nodes
  | .unboundedPreceding => free rfl trivial trivial nil
  | .preceding e => free rfl trivial trivial e.normalizes
  | .currentRow => free rfl trivial trivial nil
  | .following e => free rfl trivial trivial e.normalizes
  | .unboundedFollowing => free rfl trivial trivial nil
termination_by structural b => b

theorem Bound.normalizes? : ∀ b, Normalizes (Bound.nodes? b) (Bound.nodes? (Bound.normal? b))
  | none => nil
  | some b => b.normalizes
termination_by structural b => b

theorem Relation.normalizes : ∀ r : Relation, Normalizes r.nodes r.normal.nodes
  | .table n _ =>
    node rfl (fun h => ⟨⟨Name.named_delimit h.1, h.2⟩, n.delimited_delimit⟩) nil
  | .renamed r _ _ =>
    node rfl (fun h => ⟨⟨h.1, Ident.namedAll_delimit h.2⟩,
      ⟨rfl, Ident.delimited_delimit⟩⟩) r.normalizes
  | .join l r k c =>
    node rfl (fun h => ⟨(Criteria.flaw?_normal k c).trans h, trivial⟩)
      (append l.normalizes (append r.normalizes c.normalizes))
  | .setOperation o => free rfl trivial trivial o.normalizes
  | .query q => node rfl (fun h => ⟨Relation.sound_query_normal h, trivial⟩) q.normalizes
  | .values rows =>
    node rfl (fun h => ⟨Expr.normals_ne_nil h, trivial⟩) (Expr.normalizesAll rows)
  | .unnest args _ =>
    node rfl (fun h => ⟨Expr.normals_ne_nil h, trivial⟩) (Expr.normalizesAll args)
  | .lateral q => free rfl trivial trivial q.normalizes
  | .sample r _ p => free rfl trivial trivial (append r.normalizes p.normalizes)
termination_by structural r => r

theorem Relation.normalizesAll :
    ∀ rs, Normalizes (Relation.nodesAll rs) (Relation.nodesAll (Relation.normals rs))
  | [] => nil
  | r :: rs => append r.normalizes (Relation.normalizesAll rs)
termination_by structural rs => rs

theorem Criteria.normalizes : ∀ c : Criteria, Normalizes c.nodes c.normal.nodes
  | .condition e => free rfl trivial trivial e.normalizes
  | .columns _ =>
    node rfl (fun h => ⟨Ident.namedAll_delimit h.2, Ident.delimited_delimit⟩) nil
  | .natural => free rfl trivial trivial nil
  | .absent => free rfl trivial trivial nil
termination_by structural c => c

theorem SetOperation.normalizes : ∀ o : SetOperation, Normalizes o.nodes o.normal.nodes
  | ⟨_, _, left, right⟩ => append left.normalizes right.normalizes
termination_by structural o => o

theorem Query.normalizes : ∀ q : Query, Normalizes q.nodes q.normal.nodes
  | ⟨bindings, body, order, _, _⟩ =>
    node rfl (fun h => ⟨Query.Sound.normal h, trivial⟩)
      (append (With.normalizes? bindings) (append body.normalizes (OrderTerm.normalizesAll order)))
termination_by structural q => q

theorem With.normalizes : ∀ w : With, Normalizes w.nodes w.normal.nodes
  | ⟨_, entries⟩ => by
    refine node rfl (fun h => ⟨?_, trivial⟩) (Cte.normalizesAll entries)
    cases entries with
    | nil => exact absurd rfl h
    | cons => nofun
termination_by structural w => w

theorem With.normalizes? : ∀ w, Normalizes (With.nodes? w) (With.nodes? (With.normal? w))
  | none => nil
  | some w => w.normalizes
termination_by structural w => w

theorem Cte.normalizes : ∀ c : Cte, Normalizes c.nodes c.normal.nodes
  | ⟨_, _, query⟩ =>
    node rfl (fun h => ⟨⟨h.1, Ident.namedAll_delimit h.2⟩,
      ⟨rfl, Ident.delimited_delimit⟩⟩) query.normalizes
termination_by structural c => c

theorem Cte.normalizesAll :
    ∀ cs, Normalizes (Cte.nodesAll cs) (Cte.nodesAll (Cte.normals cs))
  | [] => nil
  | c :: cs => append c.normalizes (Cte.normalizesAll cs)
termination_by structural cs => cs

theorem Body.normalizes : ∀ b : Body, Normalizes b.nodes b.normal.nodes
  | .select s => free rfl trivial trivial s.normalizes
  | .table n => node rfl (fun h => ⟨Name.named_delimit h, n.delimited_delimit⟩) nil
  | .values rows =>
    node rfl (fun h => ⟨Expr.normals_ne_nil h, trivial⟩) (Expr.normalizesAll rows)
  | .setOperation o => free rfl trivial trivial o.normalizes
  | .nested q => free rfl trivial trivial q.normalizes
termination_by structural b => b

theorem Select.normalizes : ∀ s : Select, Normalizes s.nodes s.normal.nodes
  | ⟨_, items, sources, filter, group, having, windows⟩ => by
    refine node rfl (fun h => ⟨?_, trivial⟩) (append (SelectItem.normalizesAll items)
      (append (Relation.normalizesAll sources) (append (Expr.normalizes? filter)
        (append (GroupBy.normalizes? group)
          (append (Expr.normalizes? having) (NamedWindow.normalizesAll windows))))))
    cases items with
    | nil => exact absurd rfl h
    | cons => nofun
termination_by structural s => s

theorem SelectItem.normalizes : ∀ i : SelectItem, Normalizes i.nodes i.normal.nodes
  | .expr e x => by
    have he := e.normalizes
    unfold SelectItem.normal
    split
    · -- The star keeps its relation, and becomes the item itself.
      rename_i r hstar
      rw [hstar] at he
      refine ⟨he.numbers, fun hformed => ?_⟩
      obtain ⟨-, he'⟩ := List.forall_mem_cons.1 hformed
      have hnormal := he.normal he' _ List.mem_cons_self
      exact List.forall_mem_singleton.2
        ⟨⟨hnormal.sound, List.forall_mem_nil _⟩, hnormal.settled, List.forall_mem_nil _⟩
    · rename_i hstar
      refine node rfl (fun h => ⟨Ident.named_delimit? h, ?_, ?_⟩) he
      · rintro r heq hnone
        exact hstar r heq (Option.map_eq_none_iff.1 hnone)
      · exact Ident.delimited_delimit?
  | .star _ _ =>
    node rfl (fun h => ⟨⟨Name.named_delimit? h.1, Ident.namedAll_delimit h.2⟩,
      ⟨Name.delimited_delimit?, Ident.delimited_delimit⟩⟩) nil
termination_by structural i => i

theorem SelectItem.normalizesAll :
    ∀ is, Normalizes (SelectItem.nodesAll is) (SelectItem.nodesAll (SelectItem.normals is))
  | [] => nil
  | i :: is => append i.normalizes (SelectItem.normalizesAll is)
termination_by structural is => is

theorem GroupBy.normalizes : ∀ g : GroupBy, Normalizes g.nodes g.normal.nodes
  | ⟨_, elements⟩ => by
    refine node rfl (fun h => ⟨?_, trivial⟩) (GroupingElement.normalizesAll elements)
    cases elements with
    | nil => exact absurd rfl h
    | cons => nofun
termination_by structural g => g

theorem GroupBy.normalizes? :
    ∀ g, Normalizes (GroupBy.nodes? g) (GroupBy.nodes? (GroupBy.normal? g))
  | none => nil
  | some g => g.normalizes
termination_by structural g => g

theorem GroupingElement.normalizes : ∀ e : GroupingElement, Normalizes e.nodes e.normal.nodes
  | .expr e => free rfl trivial trivial e.normalizes
  | .rollup es =>
    node rfl (fun h => ⟨Expr.normals_ne_nil h, trivial⟩) (Expr.normalizesAll es)
  | .cube es =>
    node rfl (fun h => ⟨Expr.normals_ne_nil h, trivial⟩) (Expr.normalizesAll es)
  | .sets sets => by
    refine node rfl (fun h => ⟨?_, trivial⟩) (Expr.normalizesSets sets)
    cases sets with
    | nil => exact absurd rfl h
    | cons => nofun
termination_by structural e => e

theorem GroupingElement.normalizesAll : ∀ es, Normalizes (GroupingElement.nodesAll es)
    (GroupingElement.nodesAll (GroupingElement.normals es))
  | [] => nil
  | e :: es => append e.normalizes (GroupingElement.normalizesAll es)
termination_by structural es => es

theorem NamedWindow.normalizes : ∀ w : NamedWindow, Normalizes w.nodes w.normal.nodes
  | ⟨_, window⟩ => node rfl (fun h => ⟨h, rfl⟩) window.normalizes
termination_by structural w => w

theorem NamedWindow.normalizesAll :
    ∀ ws, Normalizes (NamedWindow.nodesAll ws) (NamedWindow.nodesAll (NamedWindow.normals ws))
  | [] => nil
  | w :: ws => append w.normalizes (NamedWindow.normalizesAll ws)
termination_by structural ws => ws

end

end Sql
