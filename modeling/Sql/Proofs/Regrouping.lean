import Mathlib
import Sql.Print.Tree
import Sql.Proofs.Normal

/-! Printing does not tell a tree from its normal form. -/
namespace Sql

variable {op : BinaryOp} {o : Layout}

/-! ### Names -/

@[simp] theorem Ident.sql_delimit (x : Ident) : x.delimit.sql = x.sql := rfl

@[simp] theorem Ident.sqlList_delimit (xs : List Ident) :
    Ident.sqlList (xs.map Ident.delimit) = Ident.sqlList xs := by
  simp [sqlList, Function.comp_def]

@[simp] theorem Ident.listAfter_delimit (lead : String) (xs : List Ident) :
    Ident.listAfter lead (xs.map Ident.delimit) = Ident.listAfter lead xs := by
  simp [listAfter]

@[simp] theorem Ident.paramsSql_delimit (xs : List Ident) :
    Ident.paramsSql (xs.map Ident.delimit) = Ident.paramsSql xs := by
  rcases xs with _ | ⟨x, _ | ⟨y, xs⟩⟩
  · rfl
  · rfl
  · exact congrArg (fun text => "(" ++ text ++ ")") (sqlList_delimit (x :: y :: xs))

@[simp] theorem Name.sql_delimit (n : Name) : n.delimit.sql = n.sql := by
  simp [sql, parts, delimit, Function.comp_def]

@[simp] theorem Name.starSql_delimit (r : Option Name) :
    Name.starSql (r.map Name.delimit) = Name.starSql r := by
  cases r with
  | none => rfl
  | some n => exact congrArg (· ++ ".*") n.sql_delimit

/-! ### The parentheses around a tree -/

/-- The two expressions are put in parentheses in the same places. -/
structure Expr.Alike (e e' : Expr) : Prop where
  tier : e'.tier = e.tier
  sign : e'.startsWithSign = e.startsWithSign
  column : e'.isColumn = e.isColumn
  operator (op : BinaryOp) : e'.isBinaryOf op = e.isBinaryOf op

namespace Expr.Alike

variable {e e' : Expr}

theorem refl (e : Expr) : e.Alike e := ⟨rfl, rfl, rfl, fun _ => rfl⟩

theorem isLooser (h : e.Alike e') (t : Tier) : e'.isLooser t = e.isLooser t := by
  rw [Expr.isLooser, Expr.isLooser, h.tier]

theorem needsParens (h : e.Alike e') (op : BinaryOp) (side : Side) :
    e'.needsParens op side = e.needsParens op side := by
  unfold Expr.needsParens
  rw [h.tier, h.isLooser, h.operator]

end Expr.Alike

/-! ### Literals -/

namespace Literal

theorem toInt_neg_of_ne {n : Int64} (h : n ≠ .minValue) : (-n).toInt = -n.toInt := by
  have hne : n.toInt ≠ -2 ^ 63 := by
    intro hn
    exact h (Int64.toInt_inj.1 (hn.trans Int64.toInt_minValue.symm))
  have hle := n.le_toInt
  have hlt := n.toInt_lt
  rw [Int64.toInt_neg]
  refine Int.bmod_eq_of_le ?_ ?_
  · omega
  · omega

theorem toInt_neg_of_lt {n : Int64} (h : n < 0) : n.toInt < 0 := Int64.lt_iff_toInt_lt.1 h

theorem sql_magnitude {n : Int64} (h : n < 0) :
    (magnitude n).sql = Text.decimal n.toInt.natAbs := by
  unfold magnitude
  split
  · rfl
  · rename_i hmin
    have hn := toInt_neg_of_lt h
    have hsize : ¬ -n.toInt < 0 := by omega
    rw [sql, Text.signedDecimal, toInt_neg_of_ne hmin, if_neg hsize, Int.natAbs_neg]

theorem sql_of_neg {n : Int64} (h : n < 0) : (integer n).sql = "-" ++ (magnitude n).sql := by
  rw [sql_magnitude h, sql, Text.signedDecimal, if_pos (toInt_neg_of_lt h)]

theorem isNegative_magnitude {n : Int64} (h : n < 0) : (magnitude n).isNegative = false := by
  unfold magnitude
  split
  · rename_i hmin
    rw [hmin]
    decide
  · rename_i hmin
    have hn := toInt_neg_of_lt h
    refine decide_eq_false ?_
    intro hneg
    have hneg := toInt_neg_of_lt hneg
    rw [toInt_neg_of_ne hmin] at hneg
    omega

theorem alike_normal (v : Literal) : (Expr.literal v).Alike v.normal := by
  cases v with
  | integer n =>
    rw [normal]
    split
    · rename_i hn
      refine ⟨?_, ?_, rfl, fun _ => rfl⟩
      · simp [Expr.tier, UnaryOp.tier, isNegative, hn]
      · simp [Expr.startsWithSign, isNegative, hn]
    · exact .refl _
  | double d =>
    rw [normal]
    split
    · cases hd : d.negative
      · refine ⟨?_, ?_, rfl, fun _ => rfl⟩
        · simp [Expr.tier, isNegative, hd]
        · simp [Expr.startsWithSign, isNegative, hd]
      · refine ⟨?_, ?_, rfl, fun _ => rfl⟩
        · simp [Expr.tier, UnaryOp.tier, isNegative, hd]
        · simp [Expr.startsWithSign, isNegative, hd]
    · exact .refl _
  | _ => exact .refl _

theorem print_normal (o : Layout) (v : Literal) : v.normal.print o = v.sql := by
  cases v with
  | integer n =>
    rw [normal]
    split
    · rename_i hn
      have htight : ((Expr.literal (magnitude n)).isLooser .unary ||
          (Expr.literal (magnitude n)).startsWithSign) = false := by
        simp [Expr.isLooser, Expr.tier, Expr.startsWithSign, isNegative_magnitude hn, Tier.rank]
      rw [sql_of_neg hn, Expr.print, htight]
      · rfl
      · rintro ⟨⟩
    · rfl
  | double d =>
    rw [normal]
    split
    · rename_i hd
      have hnan : d.isNaN = false := by
        simp only [Double.isInfinite, Double.isNaN, beq_iff_eq, decide_eq_false_iff_not] at hd ⊢
        omega
      rw [sql, doubleSql, hnan, hd]
      cases hs : d.negative <;> cbv
    · rfl
  | _ => rfl

end Literal

/-! ### Chains of operators -/

namespace Expr

variable {l r e : Expr}

@[simp] theorem wrapIf_false (text : String) : wrapIf false text = text := rfl

theorem isBinary_of_isBinaryOf (h : r.isBinaryOf op = true) : ∃ x y, r = .binary x op y := by
  cases r with
  | binary x op' y =>
    obtain rfl : op' = op := of_decide_eq_true h
    exact ⟨x, y, rfl⟩
  | _ => cases h

/-- The operators of a tier that groups from the left are the only expressions of the tier. -/
theorem isBinary_of_tier (ha : op.associativity = .left) (h : e.tier = op.tier) :
    ∃ x op' y, e = .binary x op' y := by
  have hcomparison : op.tier ≠ .comparison := by
    intro hc
    rw [BinaryOp.associativity, if_pos hc] at ha
    cases ha
  cases e with
  | binary x op' y => exact ⟨x, op', y, rfl⟩
  | literal v =>
    exfalso
    rw [tier] at h
    cases op <;> split at h <;> cases h
  | unary op' e => exfalso; cases op <;> cases op' <;> cases h
  | isNull | isDistinct | like | between | inList | inQuery => exact absurd h.symm hcomparison
  | _ => exfalso; cases op <;> cases h

theorem associativity_congr {op' : BinaryOp} (h : op'.tier = op.tier) :
    op'.associativity = op.associativity := by
  rw [BinaryOp.associativity, BinaryOp.associativity, h]

theorem needsParens_of_tier (ha : op.associativity = .left) (h : e.tier = op.tier) :
    e.needsParens op .left = false := by
  unfold needsParens
  rw [if_pos h, ha]

theorem needsParens_of_tier_ne (side : Side) (h : e.tier ≠ op.tier) :
    e.needsParens op side = e.isLooser op.tier := by
  unfold needsParens
  rw [if_neg h]

theorem left_of_isAssociative (h : op.isAssociative = true) : op.associativity = .left := by
  cases op <;> first | rfl | cases h

theorem tier_prepend (l e : Expr) : (prepend l op e).tier = op.tier := by
  fun_induction prepend l op e with
  | case1 x op' y htier ih => exact htier
  | case2 => rfl
  | case3 => rfl

/-- The operands of a chain are printed in a row, whatever stands in front of them. -/
theorem print_prepend (ha : op.associativity = .left) (l e : Expr) :
    (prepend l op e).print o =
      wrapIf (l.needsParens op .left) (l.print o) ++ separator o op ++
        wrapIf (e.needsParens op .left) (e.print o) := by
  induction e using prepend.induct op with
  | case1 x op' y htier ih =>
    have ha' : op'.associativity = .left := (associativity_congr htier).trans ha
    have hnew : (prepend l op x).needsParens op' .left = false :=
      needsParens_of_tier ha' ((tier_prepend l x).trans htier.symm)
    have hold : (Expr.binary x op' y).needsParens op .left = false := needsParens_of_tier ha htier
    have hx : x.needsParens op' .left = x.needsParens op .left := by
      unfold needsParens
      rw [htier, ha, ha']
    rw [prepend, if_pos htier, print_binary, hnew, hold, wrapIf_false, wrapIf_false, ih,
      print_binary x, hx]
    simp only [String.append_assoc]
  | case2 x op' y hne =>
    have htier : (Expr.binary x op' y).tier ≠ op.tier := hne
    rw [prepend, if_neg hne, print_binary, needsParens_of_tier_ne .right htier,
      needsParens_of_tier_ne .left htier]
  | case3 e hne =>
    have htier : e.tier ≠ op.tier := by
      intro htier
      obtain ⟨x, op', y, rfl⟩ := isBinary_of_tier ha htier
      exact hne x op' y rfl
    have hprepend : prepend l op e = .binary l op e := by
      rw [prepend]
      exact hne
    rw [hprepend, print_binary, needsParens_of_tier_ne .right htier,
      needsParens_of_tier_ne .left htier]

/-- The right operand under the same associative operator stands without parentheses. -/
theorem needsParens_of_chain (h : (r.isBinaryOf op && op.isAssociative) = true) :
    r.needsParens op .right = false := by
  obtain ⟨hop, hassoc⟩ := (Bool.and_eq_true _ _).mp h
  obtain ⟨x, y, rfl⟩ := isBinary_of_isBinaryOf hop
  unfold needsParens
  rw [if_pos (show (Expr.binary x op y).tier = op.tier from rfl), left_of_isAssociative hassoc, hop,
    hassoc]
  rfl

theorem print_regroup (l r : Expr) : (regroup l op r).print o = (Expr.binary l op r).print o := by
  rw [regroup]
  split
  · rename_i h
    obtain ⟨hop, hassoc⟩ := (Bool.and_eq_true _ _).mp h
    have ha := left_of_isAssociative hassoc
    obtain ⟨x, y, rfl⟩ := isBinary_of_isBinaryOf hop
    have hleft : (Expr.binary x op y).needsParens op .left = false := needsParens_of_tier ha rfl
    rw [print_prepend ha, print_binary l, hleft, needsParens_of_chain h]
  · rfl

/-- The operator stays on top. -/
theorem regroup_eq (op : BinaryOp) (l r : Expr) : ∃ x y, regroup l op r = .binary x op y := by
  rw [regroup]
  split
  · rename_i h
    obtain ⟨x, y, rfl⟩ := isBinary_of_isBinaryOf ((Bool.and_eq_true _ _).mp h).1
    exact ⟨prepend l op x, y, by rw [prepend, if_pos rfl]⟩
  · exact ⟨l, r, rfl⟩

theorem alike_regroup (l r l' r' : Expr) : (Expr.binary l op r).Alike (regroup l' op r') := by
  obtain ⟨x, y, h⟩ := regroup_eq op l' r'
  rw [h]
  exact ⟨rfl, rfl, rfl, fun _ => rfl⟩

end Expr

/-! ### The shape decides where parentheses stand -/

theorem Expr.alike_normal (e : Expr) : e.Alike e.normal := by
  cases e with
  | literal v => exact v.alike_normal
  | binary l op r => exact alike_regroup l r l.normal r.normal
  | unary op e => cases op <;> exact ⟨rfl, rfl, rfl, fun _ => rfl⟩
  | _ => exact ⟨rfl, rfl, rfl, fun _ => rfl⟩

@[simp] theorem Expr.length_normals (es : List Expr) : (normals es).length = es.length := by
  rw [normals_eq, List.length_map]

@[simp] theorem Expr.isEmpty_normals (es : List Expr) : (normals es).isEmpty = es.isEmpty := by
  rw [normals_eq, List.isEmpty_map]

@[simp] theorem OrderTerm.isEmpty_normals (ts : List OrderTerm) :
    (OrderTerm.normals ts).isEmpty = ts.isEmpty := by
  rw [normals_eq, List.isEmpty_map]

@[simp] theorem Call.isBare_normal (c : Call) : c.normal.isBare = c.isBare := by
  obtain ⟨name, quantifier, args, order, filter, nulls, window⟩ := c
  cases filter <;> cases window <;> simp [Call.normal, isBare, Expr.normal?, Over.normal?]

@[simp] theorem Relation.tier_normal (r : Relation) : r.normal.tier = r.tier := by
  cases r <;> rfl

@[simp] theorem Criteria.isNatural_normal (c : Criteria) : c.normal.isNatural = c.isNatural := by
  cases c <;> rfl

@[simp] theorem Query.isModified_normal (q : Query) : q.normal.isModified = q.isModified := by
  obtain ⟨bindings, body, order, offset, limit⟩ := q
  cases bindings <;> simp [Query.normal, isModified, With.normal?]

@[simp] theorem SetOperation.needsParens_normal (operator : SetOperator) (side : Side) (q : Query) :
    SetOperation.needsParens operator side q.normal = SetOperation.needsParens operator side q := by
  have hbody : q.normal.body = q.body.normal := by
    obtain ⟨bindings, body, order, offset, limit⟩ := q
    rfl
  unfold SetOperation.needsParens
  rw [Query.isModified_normal, hbody]
  cases q.body with
  | setOperation o =>
    obtain ⟨operator', all, left, right⟩ := o
    cases side <;> rfl
  | _ => cases side <;> rfl

/-! ### The text -/

mutual

/-- Printing does not tell an expression from its normal form. -/
theorem Expr.print_normal (o : Layout) : ∀ e : Expr, e.normal.print o = e.print o
  | .literal v => by rw [Expr.normal, v.print_normal, Expr.print]
  | .column n => by rw [Expr.normal, Expr.print, Expr.print, n.sql_delimit]
  | .parameter i => rfl
  | .star r => by rw [Expr.normal, Expr.print, Expr.print, Name.starSql_delimit]
  | .binary l op r => by
    rw [Expr.normal, Expr.print_regroup, Expr.print_binary, Expr.print_binary, l.print_normal o,
      r.print_normal o,
      l.alike_normal.needsParens, r.alike_normal.needsParens]
  | .unary op e => by
    rw [Expr.normal]
    cases op <;>
      simp only [Expr.print, e.print_normal o, e.alike_normal.isLooser, e.alike_normal.sign]
  | .isNull e n => by
    rw [Expr.normal, Expr.print, Expr.print, e.print_normal o, e.alike_normal.isLooser]
  | .isDistinct l r n => by
    rw [Expr.normal, Expr.print, Expr.print, l.print_normal o, r.print_normal o,
      l.alike_normal.isLooser, r.alike_normal.isLooser]
  | .like e p c n => by
    rw [Expr.normal, Expr.print, Expr.print, e.print_normal o, p.print_normal o,
      e.alike_normal.isLooser, p.alike_normal.isLooser, Expr.printAt?_normal o _ c]
  | .between e l h n => by
    rw [Expr.normal, Expr.print, Expr.print, e.print_normal o, l.print_normal o, h.print_normal o,
      e.alike_normal.isLooser, l.alike_normal.isLooser, h.alike_normal.isLooser]
  | .inList e items n => by
    rw [Expr.normal, Expr.print, Expr.print, e.print_normal o, e.alike_normal.isLooser,
      Expr.prints_normals o items]
  | .inQuery e q n => by
    rw [Expr.normal, Expr.print, Expr.print, e.print_normal o, e.alike_normal.isLooser,
      q.print_normal o]
  | .existsQuery q => by rw [Expr.normal, Expr.print, Expr.print, q.print_normal o]
  | .subquery q => by rw [Expr.normal, Expr.print, Expr.print, q.print_normal o]
  | .call c => by rw [Expr.normal, Expr.print, Expr.print, c.print_normal o]
  | .cast e t s => by rw [Expr.normal, Expr.print, Expr.print, e.print_normal o]
  | .caseWhen x bs e => by
    rw [Expr.normal, Expr.print, Expr.print, Expr.print?_normal o x,
      Expr.printBranches_normal o bs, Expr.print?_normal o e]
  | .array items => by rw [Expr.normal, Expr.print, Expr.print, Expr.prints_normals o items]
  | .row items => by
    rw [Expr.normal, Expr.print, Expr.print, Expr.prints_normals o items, Expr.length_normals]
  | .subscript b i => by
    rw [Expr.normal, Expr.print, Expr.print, b.print_normal o, i.print_normal o,
      b.alike_normal.isLooser]
  | .field b x => by
    rw [Expr.normal, Expr.print, Expr.print, b.print_normal o, b.alike_normal.isLooser,
      b.alike_normal.column, x.sql_delimit]
  | .lambda ps b => by
    rw [Expr.normal, Expr.print, Expr.print, b.print_normal o, Ident.paramsSql_delimit]
  | .interval t n s f => rfl
  | .typed t x => rfl
termination_by structural e => e

theorem Expr.prints_normals (o : Layout) : ∀ es, Expr.prints o (Expr.normals es) = Expr.prints o es
  | [] => rfl
  | e :: es => by
    rw [Expr.normals, Expr.prints, Expr.prints, e.print_normal o, Expr.prints_normals o es]
termination_by structural es => es

theorem Expr.printSets_normal (o : Layout) :
    ∀ sets, Expr.printSets o (Expr.normalSets sets) = Expr.printSets o sets
  | [] => rfl
  | es :: sets => by
    rw [Expr.normalSets, Expr.printSets, Expr.printSets, Expr.prints_normals o es,
      Expr.printSets_normal o sets]
termination_by structural sets => sets

theorem Expr.printBranches_normal (o : Layout) :
    ∀ bs, Expr.printBranches o (Expr.normalBranches bs) = Expr.printBranches o bs
  | [] => rfl
  | (c, v) :: bs => by
    rw [Expr.normalBranches, Expr.printBranches, Expr.printBranches, c.print_normal o,
      v.print_normal o, Expr.printBranches_normal o bs]
termination_by structural bs => bs

theorem Expr.print?_normal (o : Layout) : ∀ e, Expr.print? o (Expr.normal? e) = Expr.print? o e
  | none => rfl
  | some e => by rw [Expr.normal?, Expr.print?, Expr.print?, e.print_normal o]
termination_by structural e => e

theorem Expr.printAt?_normal (o : Layout) (t : Tier) :
    ∀ e, Expr.printAt? o t (Expr.normal? e) = Expr.printAt? o t e
  | none => rfl
  | some e => by
    rw [Expr.normal?, Expr.printAt?, Expr.printAt?, e.print_normal o, e.alike_normal.isLooser]
termination_by structural e => e

theorem Call.print_normal (o : Layout) : ∀ c : Call, c.normal.print o = c.print o
  | ⟨name, quantifier, args, order, filter, nulls, window⟩ => by
    have hbare := Call.isBare_normal ⟨name, quantifier, args, order, filter, nulls, window⟩
    rw [Call.normal] at hbare ⊢
    rw [Call.print, Call.print, hbare, Expr.prints_normals o args, OrderTerm.prints_normals o order,
      OrderTerm.isEmpty_normals, Expr.print?_normal o filter, Over.print?_normal o window]
termination_by structural c => c

theorem OrderTerm.print_normal (o : Layout) : ∀ t : OrderTerm, t.normal.print o = t.print o
  | ⟨e, descending, nulls⟩ => by
    rw [OrderTerm.normal, OrderTerm.print, OrderTerm.print, e.print_normal o]
termination_by structural t => t

theorem OrderTerm.prints_normals (o : Layout) :
    ∀ ts, OrderTerm.prints o (OrderTerm.normals ts) = OrderTerm.prints o ts
  | [] => rfl
  | t :: ts => by
    rw [OrderTerm.normals, OrderTerm.prints, OrderTerm.prints, t.print_normal o,
      OrderTerm.prints_normals o ts]
termination_by structural ts => ts

theorem Over.print_normal (o : Layout) : ∀ w : Over, w.normal.print o = w.print o
  | .named x => rfl
  | .window w => by rw [Over.normal, Over.print, Over.print, w.print_normal o]
termination_by structural w => w

theorem Over.print?_normal (o : Layout) : ∀ w, Over.print? o (Over.normal? w) = Over.print? o w
  | none => rfl
  | some w => by rw [Over.normal?, Over.print?, Over.print?, w.print_normal o]
termination_by structural w => w

theorem Window.print_normal (o : Layout) : ∀ w : Window, w.normal.print o = w.print o
  | ⟨base, partition, order, frame⟩ => by
    have hbase : (base.map Ident.delimit).map Ident.sql = base.map Ident.sql := by
      cases base <;> rfl
    rw [Window.normal, Window.print, Window.print, hbase, Expr.isEmpty_normals,
      Expr.prints_normals o partition, OrderTerm.isEmpty_normals, OrderTerm.prints_normals o order,
      Frame.print?_normal o frame]
termination_by structural w => w

theorem Frame.print_normal (o : Layout) : ∀ f : Frame, f.normal.print o = f.print o
  | ⟨units, start, none⟩ => by
    rw [Frame.normal, Bound.normal?, Frame.print, Frame.print, start.print_normal o]
  | ⟨units, start, some stop⟩ => by
    rw [Frame.normal, Bound.normal?, Frame.print, Frame.print, start.print_normal o,
      stop.print_normal o]
termination_by structural f => f

theorem Frame.print?_normal (o : Layout) : ∀ f, Frame.print? o (Frame.normal? f) = Frame.print? o f
  | none => rfl
  | some f => by rw [Frame.normal?, Frame.print?, Frame.print?, f.print_normal o]
termination_by structural f => f

theorem Bound.print_normal (o : Layout) : ∀ b : Bound, b.normal.print o = b.print o
  | .unboundedPreceding => rfl
  | .preceding e => by
    rw [Bound.normal, Bound.print, Bound.print, e.print_normal o, e.alike_normal.isLooser]
  | .currentRow => rfl
  | .following e => by
    rw [Bound.normal, Bound.print, Bound.print, e.print_normal o, e.alike_normal.isLooser]
  | .unboundedFollowing => rfl
termination_by structural b => b

theorem Relation.print_normal (o : Layout) : ∀ r : Relation, r.normal.print o = r.print o
  | .table n s => by rw [Relation.normal, Relation.print, Relation.print, n.sql_delimit]
  | .renamed r x cs => by
    rw [Relation.normal, Relation.print, Relation.print, r.print_normal o, r.tier_normal,
      x.sql_delimit, Ident.listAfter_delimit]
  | .join l r k c => by
    rw [Relation.normal, Relation.print, Relation.print, l.print_normal o, r.print_normal o,
      r.tier_normal, c.isNatural_normal, c.print_normal o]
  | .setOperation s => by
    rw [Relation.normal, Relation.print, Relation.print, s.print_normal o]
  | .query q => by rw [Relation.normal, Relation.print, Relation.print, q.print_normal o]
  | .values rows => by
    rw [Relation.normal, Relation.print, Relation.print, Expr.prints_normals o rows]
  | .unnest args ordinality => by
    rw [Relation.normal, Relation.print, Relation.print, Expr.prints_normals o args]
  | .lateral q => by rw [Relation.normal, Relation.print, Relation.print, q.print_normal o]
  | .sample r m p => by
    rw [Relation.normal, Relation.print, Relation.print, r.print_normal o, r.tier_normal,
      p.print_normal o]
termination_by structural r => r

theorem Relation.prints_normals (o : Layout) :
    ∀ rs, Relation.prints o (Relation.normals rs) = Relation.prints o rs
  | [] => rfl
  | r :: rs => by
    rw [Relation.normals, Relation.prints, Relation.prints, r.print_normal o,
      Relation.prints_normals o rs]
termination_by structural rs => rs

theorem Criteria.print_normal (o : Layout) : ∀ c : Criteria, c.normal.print o = c.print o
  | .condition e => by rw [Criteria.normal, Criteria.print, Criteria.print, e.print_normal o]
  | .columns xs => by
    rw [Criteria.normal, Criteria.print, Criteria.print, Ident.sqlList_delimit]
  | .natural => rfl
  | .absent => rfl
termination_by structural c => c

theorem SetOperation.print_normal (o : Layout) :
    ∀ s : SetOperation, s.normal.print o = s.print o
  | ⟨operator, all, left, right⟩ => by
    rw [SetOperation.normal, SetOperation.print, SetOperation.print, left.print_normal o,
      right.print_normal o, SetOperation.needsParens_normal, SetOperation.needsParens_normal]
termination_by structural s => s

/-- Printing does not tell a query from its normal form. -/
theorem Query.print_normal (o : Layout) : ∀ q : Query, q.normal.print o = q.print o
  | ⟨bindings, body, order, offset, limit⟩ => by
    rw [Query.normal, Query.print, Query.print, With.print?_normal o bindings,
      body.entries_normal o, OrderTerm.prints_normals o order]
termination_by structural q => q

theorem With.print_normal (o : Layout) : ∀ w : With, w.normal.print o = w.print o
  | ⟨recursive, entries⟩ => by
    rw [With.normal, With.print, With.print, Cte.prints_normals o entries]
termination_by structural w => w

theorem With.print?_normal (o : Layout) : ∀ w, With.print? o (With.normal? w) = With.print? o w
  | none => rfl
  | some w => by rw [With.normal?, With.print?, With.print?, w.print_normal o]
termination_by structural w => w

theorem Cte.print_normal (o : Layout) : ∀ c : Cte, c.normal.print o = c.print o
  | ⟨name, columns, query⟩ => by
    rw [Cte.normal, Cte.print, Cte.print, name.sql_delimit, Ident.listAfter_delimit,
      query.print_normal o]
termination_by structural c => c

theorem Cte.prints_normals (o : Layout) : ∀ cs, Cte.prints o (Cte.normals cs) = Cte.prints o cs
  | [] => rfl
  | c :: cs => by
    rw [Cte.normals, Cte.prints, Cte.prints, c.print_normal o, Cte.prints_normals o cs]
termination_by structural cs => cs

theorem Body.entries_normal (o : Layout) : ∀ b : Body, b.normal.entries o = b.entries o
  | .select s => by rw [Body.normal, Body.entries, Body.entries, s.entries_normal o]
  | .table n => by rw [Body.normal, Body.entries, Body.entries, n.sql_delimit]
  | .values rows => by rw [Body.normal, Body.entries, Body.entries, Expr.prints_normals o rows]
  | .setOperation s => by rw [Body.normal, Body.entries, Body.entries, s.print_normal o]
  | .nested q => by rw [Body.normal, Body.entries, Body.entries, q.print_normal o]
termination_by structural b => b

theorem Select.entries_normal (o : Layout) : ∀ s : Select, s.normal.entries o = s.entries o
  | ⟨quantifier, items, sources, filter, group, having, windows⟩ => by
    rw [Select.normal, Select.entries, Select.entries, SelectItem.prints_normals o items,
      Relation.prints_normals o sources, Expr.print?_normal o filter, GroupBy.print?_normal o group,
      Expr.print?_normal o having, NamedWindow.prints_normals o windows]
termination_by structural s => s

theorem SelectItem.print_normal (o : Layout) : ∀ i : SelectItem, i.normal.print o = i.print o
  | .expr e x => by
    have he := e.print_normal o
    have hnamed (y : Option Ident) : (SelectItem.expr e.normal (y.map Ident.delimit)).print o =
        (SelectItem.expr e y).print o := by
      cases y with
      | none => rw [Option.map_none, SelectItem.print, SelectItem.print, he]
      | some y => rw [Option.map_some, SelectItem.print, SelectItem.print, he, y.sql_delimit]
    unfold SelectItem.normal
    split
    · rename_i r hstar
      rw [hstar] at he
      rw [SelectItem.print, SelectItem.print, ← he, Expr.print]
      exact String.append_empty
    · exact hnamed _
  | .star r xs => by
    rw [SelectItem.normal, SelectItem.print, SelectItem.print, Name.starSql_delimit,
      Ident.listAfter_delimit]
termination_by structural i => i

theorem SelectItem.prints_normals (o : Layout) :
    ∀ is, SelectItem.prints o (SelectItem.normals is) = SelectItem.prints o is
  | [] => rfl
  | i :: is => by
    rw [SelectItem.normals, SelectItem.prints, SelectItem.prints, i.print_normal o,
      SelectItem.prints_normals o is]
termination_by structural is => is

theorem GroupBy.print_normal (o : Layout) : ∀ g : GroupBy, g.normal.print o = g.print o
  | ⟨quantifier, elements⟩ => by
    rw [GroupBy.normal, GroupBy.print, GroupBy.print, GroupingElement.prints_normals o elements]
termination_by structural g => g

theorem GroupBy.print?_normal (o : Layout) :
    ∀ g, GroupBy.print? o (GroupBy.normal? g) = GroupBy.print? o g
  | none => rfl
  | some g => by rw [GroupBy.normal?, GroupBy.print?, GroupBy.print?, g.print_normal o]
termination_by structural g => g

theorem GroupingElement.print_normal (o : Layout) :
    ∀ e : GroupingElement, e.normal.print o = e.print o
  | .expr e => by
    rw [GroupingElement.normal, GroupingElement.print, GroupingElement.print, e.print_normal o]
  | .rollup es => by
    rw [GroupingElement.normal, GroupingElement.print, GroupingElement.print,
      Expr.prints_normals o es]
  | .cube es => by
    rw [GroupingElement.normal, GroupingElement.print, GroupingElement.print,
      Expr.prints_normals o es]
  | .sets sets => by
    rw [GroupingElement.normal, GroupingElement.print, GroupingElement.print,
      Expr.printSets_normal o sets]
termination_by structural e => e

theorem GroupingElement.prints_normals (o : Layout) :
    ∀ es, GroupingElement.prints o (GroupingElement.normals es) = GroupingElement.prints o es
  | [] => rfl
  | e :: es => by
    rw [GroupingElement.normals, GroupingElement.prints, GroupingElement.prints, e.print_normal o,
      GroupingElement.prints_normals o es]
termination_by structural es => es

theorem NamedWindow.print_normal (o : Layout) : ∀ w : NamedWindow, w.normal.print o = w.print o
  | ⟨name, window⟩ => by
    rw [NamedWindow.normal, NamedWindow.print, NamedWindow.print, name.sql_delimit,
      window.print_normal o]
termination_by structural w => w

theorem NamedWindow.prints_normals (o : Layout) :
    ∀ ws, NamedWindow.prints o (NamedWindow.normals ws) = NamedWindow.prints o ws
  | [] => rfl
  | w :: ws => by
    rw [NamedWindow.normals, NamedWindow.prints, NamedWindow.prints, w.print_normal o,
      NamedWindow.prints_normals o ws]
termination_by structural ws => ws

end

end Sql
