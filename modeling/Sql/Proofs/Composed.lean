import Sql.Proofs.OperatorTrees
import Sql.Proofs.Regrouping

/-! Trees composed of columns, literals and operators, whatever the spelling of the names, the signs
of the integers and the grouping: every part of the normal form is read back where it stands. -/
namespace Sql

open Token (Kind)
open Token.Kind (next parensIf)

variable {op : BinaryOp}

/-! ### Names in normal form -/

theorem Ident.delimited_delimit {xs : List Ident} :
    ∀ y ∈ xs.map Ident.delimit, y.delimited = true := by
  intro y hy
  obtain ⟨x, -, rfl⟩ := List.mem_map.1 hy
  rfl

theorem Ident.namedAll_delimit {xs : List Ident} (h : ∀ x ∈ xs, x.Named) :
    ∀ y ∈ xs.map Ident.delimit, y.Named := by
  intro y hy
  obtain ⟨x, hx, rfl⟩ := List.mem_map.1 hy
  exact h x hx

theorem Name.parts_delimit (n : Name) : n.delimit.parts = n.parts.map Ident.delimit := by
  simp [parts, delimit]

theorem Name.delimited_delimit (n : Name) : n.delimit.Delimited := by
  rw [Delimited, parts_delimit]
  exact Ident.delimited_delimit

theorem Name.named_delimit {n : Name} (h : n.Named) : n.delimit.Named := by
  rw [Named, parts_delimit]
  exact Ident.namedAll_delimit h

/-! ### The first tokens -/

theorem Token.Kind.namesStar_tokens (n : Name) {ts : List Kind} (h : next ts ≠ .symbol .dot) :
    namesStar (n.tokens ++ ts) = false := by
  have hrow (x : Ident) (xs : List Ident) :
      namesStar (x.token :: (xs.flatMap fun y => [.symbol .dot, y.token]) ++ ts) = false := by
    induction xs generalizing x with
    | nil =>
      rw [Ident.token, List.flatMap_nil, List.cons_append, List.nil_append, namesStar]
      · rintro y ts' heq
        exact h (by rw [(List.cons.inj heq).2]; rfl)
      · rintro y ts' heq
        exact h (by rw [(List.cons.inj heq).2]; rfl)
    | cons y ys ih => exact ih y
  obtain ⟨x, xs, hn⟩ := n.tokens_row
  rw [hn]
  exact hrow x xs

namespace Expr

/-- The first token is neither a word nor a star, or the text starts with a name between quotes that
no point follows. -/
def Headed (e : Expr) : Prop :=
  (∃ k ts, e.tokens = k :: ts ∧ k.isIdent = false ∧ k ≠ .symbol .star) ∨
    ∃ n ts, e.tokens = Name.tokens n ++ ts ∧ next ts ≠ .symbol .dot

variable {e l : Expr}

theorem Headed.startsStar (h : e.Headed) : Kind.startsStar e.tokens = false := by
  rw [Kind.startsStar, Bool.or_eq_false_iff]
  rcases h with ⟨k, ts, ht, hident, hstar⟩ | ⟨n, ts, ht, hdot⟩
  · rw [ht]
    refine ⟨beq_false_of_ne hstar, ?_⟩
    rw [Kind.namesStar]
    · rintro x ts' heq
      simp [(List.cons.inj heq).1] at hident
    · rintro x ts' heq
      simp [(List.cons.inj heq).1] at hident
  · obtain ⟨x, xs, hn⟩ := n.tokens_row
    refine ⟨?_, ht ▸ Kind.namesStar_tokens n hdot⟩
    rw [ht, hn]
    rfl

theorem Headed.startsGrouping (h : e.Headed) : Kind.startsGrouping e.tokens = false := by
  have hword (w : String) : (next e.tokens).isWord w = false := by
    rcases h with ⟨k, ts, ht, hident, -⟩ | ⟨n, ts, ht, -⟩
    · rw [ht]
      cases k with
      | ident => simp at hident
      | _ => rfl
    · obtain ⟨x, xs, hn⟩ := n.tokens_row
      rw [ht, hn]
      rfl
  rw [Kind.startsGrouping, hword, hword]
  rfl

/-- What follows the first operand of an expression, unless that is a field. -/
theorem Headed.of_left {b : Bool} (hl : l.Headed) (h : e.leftOperand? = some (b, l))
    (hfield : ∀ x, e ≠ .field l x) : e.Headed := by
  have hnext : ∃ (k : Kind) (ts : _), e.tokens = parensIf b l.tokens ++ k :: ts ∧
      k ≠ .symbol .dot := by
    cases e with
    | binary l op r =>
      cases h
      exact ⟨_, _, by rw [Expr.tokens], by cases op <;> simp [BinaryOp.token]⟩
    | isNull e n | isDistinct e r n | subscript b i =>
      cases h
      exact ⟨_, _, by rw [Expr.tokens], by simp⟩
    | like e p c n | between e lo hi n | inList e is n | inQuery e q n =>
      cases h
      cases n <;> exact ⟨_, _, by rw [Expr.tokens]; rfl, by simp⟩
    | field b x =>
      cases h
      exact absurd rfl (hfield x)
    | _ => simp [leftOperand?] at h
  obtain ⟨k, ts, ht, hk⟩ := hnext
  cases b with
  | true => exact .inl ⟨_, _, ht, rfl, by simp⟩
  | false =>
    rcases hl with ⟨k', ts', ht', hident, hstar⟩ | ⟨n, ts', ht', hdot⟩
    · exact .inl ⟨k', ts' ++ k :: ts, by rw [ht, parensIf, ht']; rfl, hident, hstar⟩
    · refine .inr ⟨n, ts' ++ k :: ts, ?_, ?_⟩
      · rw [ht, ← List.append_assoc, ← ht']
        rfl
      · cases ts' with
        | nil => exact hk
        | cons => exact hdot

theorem Headed.prepend (hl : l.Headed) (e : Expr) : (prepend l op e).Headed := by
  induction e using prepend.induct op with
  | case1 x op' y htier ih =>
    rw [Expr.prepend, if_pos htier]
    exact ih.of_left rfl (by simp)
  | case2 x op' y htier =>
    rw [Expr.prepend, if_neg htier]
    exact hl.of_left rfl (by simp)
  | case3 e hne =>
    rw [Expr.prepend]
    · exact hl.of_left rfl (by simp)
    · exact hne

theorem Headed.regroup (hl : l.Headed) (r : Expr) : (regroup l op r).Headed := by
  rw [Expr.regroup]
  split
  · exact hl.prepend r
  · exact hl.of_left rfl (by simp)

end Expr

/-! ### Chains of operators -/

namespace Expr

variable {l r e : Expr}

section

variable {P : Node → Prop} (hP : ∀ {l r : Expr} {op : BinaryOp},
  P (.expr (.binary l op r)) ↔ (r.isBinaryOf op && op.isAssociative) = false)

include hP

/-- What holds of an operator just where its right operand does not go on with the chain. -/
theorem forall_prepend (hl : ∀ k ∈ l.nodes, P k) (he : ∀ k ∈ e.nodes, P k) :
    ∀ k ∈ (prepend l op e).nodes, P k := by
  induction e using prepend.induct op with
  | case1 x op' y htier ih =>
    rw [nodes, List.forall_mem_cons, List.forall_mem_append] at he
    rw [prepend, if_pos htier, nodes, List.forall_mem_cons, List.forall_mem_append]
    exact ⟨hP.2 (hP.1 he.1), ih he.2.1, he.2.2⟩
  | case2 x op' y htier =>
    have hop : op' ≠ op := by
      rintro rfl
      exact htier rfl
    rw [prepend, if_neg htier, nodes, List.forall_mem_cons, List.forall_mem_append]
    exact ⟨hP.2 (by simp [isBinaryOf, hop]), hl, he⟩
  | case3 e hne =>
    have hop : e.isBinaryOf op = false := by
      cases e with
      | binary x op' y => exact (hne x op' y rfl).elim
      | _ => rfl
    have hprepend : prepend l op e = .binary l op e := by
      rw [prepend]
      exact hne
    rw [hprepend, nodes, List.forall_mem_cons, List.forall_mem_append]
    exact ⟨hP.2 (by rw [hop, Bool.false_and]), hl, he⟩

theorem forall_regroup (hl : ∀ k ∈ l.nodes, P k) (hr : ∀ k ∈ r.nodes, P k) :
    ∀ k ∈ (regroup l op r).nodes, P k := by
  rw [regroup]
  split
  · exact forall_prepend hP hl hr
  · rename_i h
    rw [nodes, List.forall_mem_cons, List.forall_mem_append]
    exact ⟨hP.2 (eq_false_of_ne_true h), hl, hr⟩

end

theorem binary_fixed :
    (Node.expr (.binary l op r)).Fixed ↔ (r.isBinaryOf op && op.isAssociative) = false :=
  ⟨fun h => h.good.settled, fun h => ⟨⟨trivial, h, rfl⟩, rfl, rfl⟩⟩

end Expr

/-! ### Literals -/

/-- Truth values, integers of either sign, strings and `NULL`. -/
def Literal.IsSimple : Literal → Prop
  | .null | .boolean _ | .integer _ | .string _ => True
  | _ => False

namespace Literal

theorem magnitude_fixed {n : Int64} (h : n < 0) : (Node.expr (.literal (magnitude n))).Fixed := by
  unfold magnitude
  split
  · rename_i hmin
    -- One more than the largest integer, so that it is read as an exact number.
    have hlarge : Token.maxInteger < n.toInt.natAbs := by rw [hmin]; decide
    have hdigits : (Text.decimal n.toInt.natAbs).toList = Nat.toDigits 10 n.toInt.natAbs :=
      Text.toList_decimal _
    refine ⟨⟨.inr (.inr ⟨?_, ?_⟩), trivial, rfl⟩, rfl, rfl⟩
    · rw [hdigits]
      exact Token.allDigits_toDigits _
    · rwa [hdigits, Text.digitsValue_toDigits]
  · rename_i hmin
    have hpos : (0 : Int64) ≤ -n := by
      have hn := toInt_neg_of_lt h
      rw [Int64.le_iff_toInt_le, toInt_neg_of_ne hmin]
      exact Int.neg_nonneg_of_nonpos (Int.le_of_lt hn)
    exact ⟨⟨hpos, trivial, rfl⟩, rfl, rfl⟩

theorem IsSimple.fixed {v : Literal} (h : v.IsSimple) : ∀ k ∈ v.normal.nodes, k.Fixed := by
  cases v with
  | integer n =>
    rw [normal]
    split
    · rename_i hn
      rw [Expr.nodes, List.forall_mem_cons, Expr.nodes, List.forall_mem_singleton]
      exact ⟨⟨⟨trivial, trivial, rfl⟩, rfl, rfl⟩, magnitude_fixed hn⟩
    · rename_i hn
      rw [Expr.nodes, List.forall_mem_singleton]
      exact ⟨⟨Int64.not_lt.1 hn, trivial, rfl⟩, rfl, rfl⟩
  | null | boolean | string =>
    rw [normal, Expr.nodes, List.forall_mem_singleton]
    · exact ⟨⟨trivial, trivial, rfl⟩, rfl, rfl⟩
    · simp
    · simp
  | _ => exact h.elim

theorem IsSimple.headed {v : Literal} (h : v.IsSimple) : v.normal.Headed := by
  cases v with
  | integer n =>
    rw [normal]
    split
    · exact .inl ⟨.symbol .minus, _, rfl, rfl, by simp⟩
    · exact .inl ⟨.integer n, [], rfl, rfl, by simp⟩
  | boolean b =>
    cases b with
    | true => exact .inl ⟨.keyword .TRUE, [], rfl, rfl, by simp⟩
    | false => exact .inl ⟨.keyword .FALSE, [], rfl, rfl, by simp⟩
  | null => exact .inl ⟨.keyword .NULL, [], rfl, rfl, by simp⟩
  | string text => exact .inl ⟨.string text, [], rfl, rfl, by simp⟩
  | _ => exact h.elim

end Literal

/-! ### Expressions -/

/-- Columns and literals under operators and predicates. -/
inductive Expr.IsComposed : Expr → Prop
  | literal {v : Literal} : v.IsSimple → IsComposed (.literal v)
  | column {n : Name} : n.Named → IsComposed (.column n)
  | binary {l r : Expr} {op : BinaryOp} : IsComposed l → IsComposed r → IsComposed (.binary l op r)
  | unary {op : UnaryOp} {e : Expr} : IsComposed e → IsComposed (.unary op e)
  | isNull {e : Expr} {negated : Bool} : IsComposed e → IsComposed (.isNull e negated)
  | isDistinct {l r : Expr} {negated : Bool} : IsComposed l → IsComposed r →
      IsComposed (.isDistinct l r negated)
  | like {e p : Expr} {escape : Option Expr} {negated : Bool} : IsComposed e → IsComposed p →
      (∀ c ∈ escape, IsComposed c) → IsComposed (.like e p escape negated)
  | between {e low high : Expr} {negated : Bool} : IsComposed e → IsComposed low →
      IsComposed high → IsComposed (.between e low high negated)
  | inList {e : Expr} {items : List Expr} {negated : Bool} : IsComposed e → items ≠ [] →
      (∀ x ∈ items, IsComposed x) → IsComposed (.inList e items negated)

namespace Expr

theorem forall_nodesAll_normals {P : Node → Prop} {es : List Expr} :
    (∀ k ∈ nodesAll (normals es), P k) ↔ ∀ e ∈ es, ∀ k ∈ e.normal.nodes, P k := by
  rw [normals_eq, forall_nodesAll, List.forall_mem_map]

theorem forall_nodes?_normal {P : Node → Prop} {e : Option Expr} :
    (∀ k ∈ nodes? (normal? e), P k) ↔ ∀ x ∈ e, ∀ k ∈ x.normal.nodes, P k := by
  cases e <;> simp [normal?, nodes?]

namespace IsComposed

/-- Every part of the normal form is read back where it stands. -/
theorem fixed {e : Expr} (h : e.IsComposed) : ∀ k ∈ e.normal.nodes, k.Fixed := by
  induction h with
  | literal hv => exact hv.fixed
  | @column n hn =>
    rw [normal, nodes, List.forall_mem_singleton]
    exact ⟨⟨Name.named_delimit hn, n.delimited_delimit, rfl⟩, rfl, rfl⟩
  | binary _ _ ihl ihr => exact forall_regroup binary_fixed ihl ihr
  | unary _ ih | isNull _ ih =>
    rw [normal, nodes, List.forall_mem_cons]
    exact ⟨⟨⟨trivial, trivial, rfl⟩, rfl, rfl⟩, ih⟩
  | isDistinct _ _ ihl ihr =>
    rw [normal, nodes, List.forall_mem_cons, List.forall_mem_append]
    exact ⟨⟨⟨trivial, trivial, rfl⟩, rfl, rfl⟩, ihl, ihr⟩
  | like _ _ _ ihe ihp ihc =>
    rw [normal, nodes, List.forall_mem_cons, List.forall_mem_append, List.forall_mem_append,
      forall_nodes?_normal]
    exact ⟨⟨⟨trivial, trivial, rfl⟩, rfl, rfl⟩, ihe, ihp, ihc⟩
  | between _ _ _ ihe ihl ihh =>
    rw [normal, nodes, List.forall_mem_cons, List.forall_mem_append, List.forall_mem_append]
    exact ⟨⟨⟨trivial, trivial, rfl⟩, rfl, rfl⟩, ihe, ihl, ihh⟩
  | @inList e items _ _ hne _ ihe ihs =>
    have hquery : ∀ q, normals items ≠ [.subquery q] := by
      intro q heq
      have hfixed := forall_nodesAll_normals.2 ihs
      rw [heq, nodesAll, nodes, List.cons_append, List.forall_mem_cons] at hfixed
      cases hfixed.1.plain
    have hsome : normals items ≠ [] := by
      rw [normals_eq]
      exact List.map_eq_nil_iff.not.2 hne
    rw [normal, nodes, List.forall_mem_cons, List.forall_mem_append, forall_nodesAll_normals]
    exact ⟨⟨⟨⟨hsome, hquery⟩, trivial, rfl⟩, rfl, rfl⟩, ihe, ihs⟩

theorem headed {e : Expr} (h : e.IsComposed) : e.normal.Headed := by
  induction h with
  | literal hv => exact hv.headed
  | @column n _ =>
    exact .inr ⟨n.delimit, [], by rw [normal, Expr.tokens, List.append_nil], nofun⟩
  | binary _ _ ihl _ => exact ihl.regroup _
  | @unary op e _ _ =>
    cases op with
    | not => exact .inl ⟨.keyword .NOT, _, rfl, rfl, nofun⟩
    | minus => exact .inl ⟨.symbol .minus, _, rfl, rfl, nofun⟩
    | plus => exact .inl ⟨.symbol .plus, _, rfl, rfl, nofun⟩
  | isNull _ ih => exact ih.of_left rfl nofun
  | isDistinct _ _ ih _ => exact ih.of_left rfl nofun
  | like _ _ _ ih _ _ => exact ih.of_left rfl nofun
  | between _ _ _ ih _ _ => exact ih.of_left rfl nofun
  | inList _ _ _ ih _ => exact ih.of_left rfl nofun

end IsComposed

end Expr

/-! ### Relations -/

def Criteria.IsComposed : Criteria → Prop
  | .condition e => e.IsComposed
  | .columns xs => ∀ x ∈ xs, x.Named
  | .natural | .absent => True

/-- Tables under aliases and joins. -/
inductive Relation.IsComposed : Relation → Prop
  | table {n : Name} : n.Named → IsComposed (.table n none)
  | renamed {r : Relation} {x : Ident} {columns : List Ident} : IsComposed r → x.Named →
      (∀ y ∈ columns, y.Named) → IsComposed (.renamed r x columns)
  | join {l r : Relation} {kind : JoinKind} {criteria : Criteria} : IsComposed l →
      IsComposed r → criteria.flaw? kind = none → criteria.IsComposed →
      IsComposed (.join l r kind criteria)

theorem Criteria.flaw?_normal (kind : JoinKind) (c : Criteria) :
    c.normal.flaw? kind = c.flaw? kind := by
  cases c with
  | columns xs => cases xs <;> cases kind <;> rfl
  | _ => cases kind <;> rfl

theorem Criteria.IsComposed.fixed {c : Criteria} (h : c.IsComposed) :
    ∀ k ∈ c.normal.nodes, k.Fixed := by
  cases c with
  | condition e =>
    rw [normal, nodes, List.forall_mem_cons]
    exact ⟨⟨⟨trivial, trivial, rfl⟩, rfl, rfl⟩, Expr.IsComposed.fixed h⟩
  | columns xs =>
    rw [normal, nodes, List.forall_mem_singleton]
    exact ⟨⟨Ident.namedAll_delimit h, Ident.delimited_delimit, rfl⟩, rfl, rfl⟩
  | natural | absent =>
    rw [normal, nodes, List.forall_mem_singleton]
    exact ⟨⟨trivial, trivial, rfl⟩, rfl, rfl⟩

theorem Relation.IsComposed.fixed {r : Relation} (h : r.IsComposed) :
    ∀ k ∈ r.normal.nodes, k.Fixed := by
  induction h with
  | @table n hn =>
    rw [normal, nodes, List.forall_mem_singleton]
    exact ⟨⟨⟨Name.named_delimit hn, rfl⟩, n.delimited_delimit, rfl⟩, rfl, rfl⟩
  | renamed _ hx hcolumns ih =>
    rw [normal, nodes, List.forall_mem_cons]
    exact ⟨⟨⟨⟨hx, Ident.namedAll_delimit hcolumns⟩, ⟨rfl, Ident.delimited_delimit⟩, rfl⟩, rfl, rfl⟩,
      ih⟩
  | join _ _ hflaw hcriteria ihl ihr =>
    rw [normal, nodes, List.forall_mem_cons, List.forall_mem_append, List.forall_mem_append]
    exact ⟨⟨⟨(Criteria.flaw?_normal ..).trans hflaw, trivial, rfl⟩, rfl, rfl⟩, ihl, ihr,
      hcriteria.fixed⟩

theorem Relation.normals_fixed {rs : List Relation} (h : ∀ r ∈ rs, r.IsComposed) :
    ∀ k ∈ nodesAll (normals rs), k.Fixed := by
  rw [nodesAll_eq, normals_eq, List.flatMap_map, List.forall_mem_flatMap]
  exact fun r hr => (h r hr).fixed

/-! ### Clauses -/

def SelectItem.IsComposed : SelectItem → Prop
  | .expr e x => e.IsComposed ∧ ∀ y ∈ x, y.Named
  | .star r xs => (∀ n ∈ r, n.Named) ∧ ∀ x ∈ xs, x.Named

def OrderTerm.IsComposed (t : OrderTerm) : Prop := t.expr.IsComposed

theorem Expr.IsComposed.normal_ne_star {e : Expr} (h : e.IsComposed) (r : Option Name) :
    e.normal ≠ .star r := by
  cases h with
  | @literal v hv =>
    cases v with
    | integer n =>
      rw [normal, Literal.normal]
      split
      · simp
      · simp
    | null | boolean | string => simp [normal, Literal.normal]
    | _ => exact hv.elim
  | @binary l x op _ _ =>
    obtain ⟨l', r', heq⟩ := regroup_eq op l.normal x.normal
    rw [normal, heq]
    simp
  | _ => simp [normal]

theorem SelectItem.normal_expr {e : Expr} (h : ∀ r, e.normal ≠ .star r) (x : Option Ident) :
    (SelectItem.expr e x).normal = .expr e.normal (x.map Ident.delimit) := by
  unfold normal
  split
  · rename_i r heq
    exact absurd heq (h r)
  · rfl

theorem SelectItem.IsComposed.fixed {i : SelectItem} (h : i.IsComposed) :
    ∀ k ∈ i.normal.nodes, k.Fixed := by
  cases i with
  | expr e x =>
    obtain ⟨he, hx⟩ := h
    rw [normal_expr he.normal_ne_star, nodes, List.forall_mem_cons]
    refine ⟨⟨⟨?_, ⟨fun r heq => absurd heq (he.normal_ne_star r), ?_⟩, ?_⟩, rfl, rfl⟩, he.fixed⟩
    · intro y hy
      obtain ⟨x, hmem, rfl⟩ := Option.map_eq_some_iff.1 hy
      exact hx x hmem
    · intro y hy
      obtain ⟨x, -, rfl⟩ := Option.map_eq_some_iff.1 hy
      rfl
    · rw [Node.steady, steady, he.headed.startsStar, Bool.not_false, Bool.or_true]
      exact he.normal_ne_star
  | star r xs =>
    obtain ⟨hr, hxs⟩ := h
    rw [normal, nodes, List.forall_mem_singleton]
    refine ⟨⟨⟨?_, Ident.namedAll_delimit hxs⟩, ⟨?_, Ident.delimited_delimit⟩, rfl⟩, rfl, rfl⟩
    · intro n hn
      obtain ⟨n', hmem, rfl⟩ := Option.map_eq_some_iff.1 hn
      exact Name.named_delimit (hr n' hmem)
    · intro n hn
      obtain ⟨n', -, rfl⟩ := Option.map_eq_some_iff.1 hn
      exact n'.delimited_delimit

theorem SelectItem.normals_fixed {is : List SelectItem} (h : ∀ i ∈ is, i.IsComposed) :
    ∀ k ∈ nodesAll (normals is), k.Fixed := by
  rw [nodesAll_eq, normals_eq, List.flatMap_map, List.forall_mem_flatMap]
  exact fun i hi => (h i hi).fixed

theorem OrderTerm.normals_fixed {ts : List OrderTerm} (h : ∀ t ∈ ts, t.IsComposed) :
    ∀ k ∈ nodesAll (normals ts), k.Fixed := by
  rw [nodesAll_eq, normals_eq, List.flatMap_map, List.forall_mem_flatMap]
  rintro ⟨e, descending, nulls⟩ ht
  exact Expr.IsComposed.fixed (h _ ht)

theorem GroupingElement.exprs_fixed {es : List Expr} (h : ∀ e ∈ es, e.IsComposed) :
    ∀ k ∈ nodesAll (normals (es.map .expr)), k.Fixed := by
  rw [nodesAll_eq, normals_eq, List.flatMap_map, List.flatMap_map, List.forall_mem_flatMap]
  intro e he
  rw [normal, nodes, List.forall_mem_cons]
  refine ⟨⟨⟨trivial, trivial, ?_⟩, rfl, rfl⟩, (h e he).fixed⟩
  rw [Node.steady, steady, (h e he).headed.startsGrouping, Bool.not_false]

end Sql
