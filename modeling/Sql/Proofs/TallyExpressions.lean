import Sql.Proofs.Operands
import Sql.Proofs.Subqueries
import Sql.Proofs.TallyTypes

/-! Parsed expressions are well-formed, and their placeholders bear the numbers of their places. -/
namespace Sql

open Token (Kind)
open Sql.Parser (Tallies Quiet Stays)

/-- Every parser of the grammar gives well-formed parts and keeps count of the placeholders. -/
structure Grammar.Tallied (g : Grammar) : Prop where
  subqueries : g.ReadsSubqueries
  query {C : Cursor → Prop} : Tallies C [] g.query Query.nodes fun _ => True
  relation {C : Cursor → Prop} : Tallies C [] g.relation Relation.nodes fun _ => True
  exprFrom {C : Cursor → Prop} (floor : Nat) :
    Tallies C [] (g.exprFrom floor) Expr.nodes fun _ => True
  type {C : Cursor → Prop} : Quiet C g.type DataType.InRange

theorem Expr.nodes?_eq (e : Option Expr) : e.elim [] Expr.nodes = Expr.nodes? e := by
  cases e <;> rfl

theorem Expr.branchNodes_eq (bs : List (Expr × Expr)) :
    Expr.branchNodes bs = bs.flatMap fun b => b.1.nodes ++ b.2.nodes := by
  induction bs with
  | nil => rfl
  | cons b bs ih => simp [Expr.branchNodes, ih]

theorem Text.toUpper_eq_or_isUpper (c : Char) : c.toUpper = c ∨ c.toUpper.isUpper = true := by
  unfold Char.toUpper
  split
  · right
    simp [Char.isUpper]
    grind
  · exact .inl rfl

theorem Text.isLetter_of_isUpper {c : Char} (h : c.isUpper = true) : Text.isLetter c = true := by
  have hascii : c.toNat < 0x80 := by
    have hle : c.val ≤ 90 := by
      simp [Char.isUpper] at h
      exact h.2
    exact Nat.lt_of_le_of_lt hle (by decide)
  rw [Text.isLetter, if_pos hascii, Char.isAlpha, h, Bool.true_or]

theorem String.toUpper_toUpper (text : String) : text.toUpper.toUpper = text.toUpper := by
  simp [String.toUpper, String.map_map, Function.comp_def]

theorem Token.IsWord.toUpper {text : String} (h : Token.IsWord text) :
    Token.IsWord text.toUpper := by
  obtain ⟨⟨c, cs, htext, hc, hcs⟩, hfree⟩ := h
  refine ⟨⟨c.toUpper, cs.map Char.toUpper, ?_, ?_, ?_⟩, ?_⟩
  · simp [String.toUpper, htext]
  · rcases Text.toUpper_eq_or_isUpper c with heq | hupper
    · rwa [heq]
    · rw [startsWord, Text.isLetter_of_isUpper hupper, Bool.true_or]
  · intro d' hd'
    obtain ⟨d, hd, rfl⟩ := List.mem_map.1 hd'
    rcases Text.toUpper_eq_or_isUpper d with heq | hupper
    · rw [heq]
      exact hcs d hd
    · rw [continuesWord, Text.isLetter_of_isUpper hupper, Bool.true_or, Bool.true_or]
  · rw [Keyword.ofWord?, String.toUpper_toUpper]
    exact hfree

theorem Token.Kind.Found.nonneg {n : Int64} (h : (Kind.integer n).Found) : 0 ≤ n := by
  cases h with
  | integer hn =>
    rename_i m
    rw [Int64.le_iff_toInt_le]
    have htoInt : (Int64.ofNat m).toInt = m := Int64.toInt_ofNat_of_lt (by
      unfold Token.maxInteger at hn
      omega)
    rw [htoInt]
    exact Int.natCast_nonneg m

theorem Token.Kind.Found.isDecimal {text : String} (h : (Kind.decimal text).Found) :
    Token.IsDecimal text := by
  cases h
  assumption

theorem Token.Kind.Found.isNumber {d : Double} (h : (Kind.double d).Found) :
    d.negative = false ∧ d.isNaN = false := by
  cases h
  constructor <;> assumption

/-- Where no identifier repeats an earlier one, all of them differ. -/
theorem Ident.pairwise_of_firstRepeated? {xs seen : List Ident}
    (h : firstRepeated? seen xs = none) :
    (∀ y ∈ seen, ∀ x ∈ xs, y.same x = false) ∧ xs.Pairwise fun x y => x.same y = false := by
  induction xs generalizing seen with
  | nil => exact ⟨nofun, .nil⟩
  | cons x xs ih =>
    rw [firstRepeated?] at h
    split at h
    · cases h
    · rename_i hx
      rw [Bool.not_eq_true, List.any_eq_false] at hx
      obtain ⟨hseen, hpairs⟩ := ih h
      refine ⟨?_, List.pairwise_cons.2 ⟨?_, hpairs⟩⟩
      · intro y hy z hz
        rcases List.mem_cons.1 hz with rfl | hz
        · simpa using hx y hy
        · exact hseen y (by simp [hy]) z hz
      · intro y hy
        exact hseen x (by simp) y hy

/-- An interval is built only if its fields fit together. -/
theorem Expr.recast_buildInterval {text : String} {negative : Bool} {start : IntervalField}
    {stop : Option IntervalField} {e : Expr} (h : buildInterval text negative start stop = .ok e) :
    Recast [] e.nodes := by
  unfold buildInterval at h
  split at h
  · cases h
    exact .node rfl nofun (.of_eq rfl)
  · split at h
    · rename_i hadmits
      cases h
      refine .node rfl ?_ (.of_eq rfl)
      rintro _ ⟨⟩
      exact hadmits
    · cases h

/-- A name that a call may have. -/
structure Name.Callable (n : Name) : Prop where
  spelled : ∀ x ∈ n.parts, x.Spelled
  plain : n.qualifier = [] → n.base.opensConstruct = false

/-- No construct of its own starts here, so that a name before a parenthesis is that of a call. -/
def Cursor.Calls (c : Cursor) : Prop :=
  ∀ x, c.kind = .ident x → x.opensConstruct = true → c.kindAt 1 ≠ .symbol .leftParen

theorem Cursor.Calls.callable {c d : Cursor} {n : Name} (hc : c.Calls)
    (h : Parser.name c = .ok (n, d)) (hn : ∀ x ∈ n.parts, x.Spelled)
    (hd : d.kind = .symbol .leftParen) : n.Callable := by
  refine ⟨hn, fun hqualifier => ?_⟩
  obtain ⟨hkind, rfl⟩ := Parser.name_eq_ok_unqualified h hqualifier
  rw [Cursor.kind_advance] at hd
  exact eq_false_of_ne_true fun hopens => hc _ hkind hopens hd

theorem Name.IsBare.callable {n : Name} (h : n.isBare = true) (hn : ∀ x ∈ n.parts, x.Spelled) :
    n.Callable := by
  refine ⟨hn, fun _ => ?_⟩
  have hrow := toUpper_ne_of_isBare h (w := "ROW") (by decide)
  have hcast := toUpper_ne_of_isBare h (w := "TRY_CAST") (by decide)
  rw [Ident.opensConstruct, beq_false_of_ne hrow, beq_false_of_ne hcast, Bool.or_false,
    Bool.and_false]

namespace Grammar

variable {C : Cursor → Prop}

theorem quiet_quantifier : Quiet C quantifier fun _ => True := by
  refine Quiet.branch (Quiet.eatKeyword _) (Quiet.pure trivial) ?_
  exact Quiet.branch (Quiet.eatKeyword _) (Quiet.pure trivial) (Quiet.pure trivial)

theorem quiet_nullOrder : Quiet C nullOrder fun _ => True := by
  refine Quiet.branch (Quiet.eatWord _) ?_ (Quiet.pure trivial)
  refine Quiet.branch (Quiet.eatWord _) (Quiet.pure trivial) ?_
  exact Quiet.branch (Quiet.eatWord _) (Quiet.pure trivial) Tallies.unexpected

theorem quiet_frameUnits : Quiet C frameUnits fun _ => True := by
  refine Quiet.branch (Quiet.eatWord _) (Quiet.pure trivial) ?_
  refine Quiet.branch (Quiet.eatWord _) (Quiet.pure trivial) ?_
  exact Quiet.branch (Quiet.eatWord _) (Quiet.pure trivial) Tallies.unexpected

theorem quiet_baseWindow : Quiet C baseWindow fun r => ∀ x ∈ r, x.Named := by
  refine Tallies.look (fun _ => rfl) ?_
  intro partitioned
  refine Tallies.look (fun _ => rfl) ?_
  intro next
  refine Tallies.look (fun _ => rfl) ?_
  intro ordered
  refine Tallies.look (fun _ => rfl) ?_
  intro framed
  refine Tallies.ite (fun _ => Quiet.pure nofun) fun _ => ?_
  exact Tallies.look (fun _ => rfl) fun k => Quiet.optional fun _ => Quiet.ident

theorem tallies_interval (hC : ∀ c, C c → c.kind ≠ .symbol .question) :
    Tallies C [] interval Expr.nodes fun _ => True := by
  refine Tallies.look (fun _ => rfl) ?_
  intro span
  refine Tallies.advance (fun c hc => hC c hc.1) ?_
  refine Quiet.skip (Quiet.eatSymbol (by decide)) ?_
  intro negative
  refine Tallies.ite (fun _ => ?_) fun _ => Quiet.skip (Quiet.eatSymbol (by decide)) fun _ => ?_
  all_goals
    refine Tallies.look (fun _ => rfl) ?_
    intro k
    split
    · refine Tallies.advance (Cursor.kind_ne_question (by simp)) ?_
      apply Quiet.skip Quiet.intervalField
      intro start
      apply Quiet.skip (Quiet.eatWord _)
      intro more
      refine Quiet.skip (Quiet.optional fun _ => Quiet.intervalField) ?_
      intro stop
      apply Tallies.valid
      intro e he
      exact ⟨Expr.recast_buildInterval he, trivial⟩
    · exact Tallies.unexpected

theorem intervalAhead_of_string {c : Cursor} {text : String} (h : c.kindAt 1 = .string text) :
    intervalAhead c = .ok (true, c) := by
  have hpeek : Parser.peekAt 1 c = .ok (.string text, c) := by rw [← h]; rfl
  rw [intervalAhead, Parser.bind_ok hpeek]
  rfl

theorem intervalAhead_stays : Stays intervalAhead := by
  refine Stays.bind (.of_reads fun _ => rfl) ?_
  intro k
  split
  · exact .pure _
  · exact Stays.bind (.of_reads fun _ => rfl) fun k => .pure _
  · exact Stays.bind (.of_reads fun _ => rfl) fun k => .pure _
  · exact .pure _

theorem tallies_taking {e : Expr} (hC : ∀ c, C c → c.kind ≠ .symbol .question)
    (he : e.nodes = [.expr e]) (hmark : (Node.expr e).parameter? = none) (hformed : e.Formed) :
    Tallies C [] (taking e) Expr.nodes fun _ => True := by
  refine Tallies.advance hC (.pure ?_ trivial)
  rw [he]
  exact .node hmark hformed (.of_eq rfl)

/-- A placeholder bears the number of the placeholders up to it. -/
theorem tallies_placeholder (hC : ∀ c, C c → c.kind = .symbol .question) :
    Tallies C [] placeholder Expr.nodes fun _ => True := by
  intro total done c e c' hcC hc hp
  rw [List.append_nil] at hc
  cases hp
  have hcount := hc.count
  rw [Cursor.placeholders_question (hC c hcC)] at hcount
  refine ⟨⟨hc.found.advance, ?_, ?_, ?_⟩, trivial⟩
  · refine List.forall_mem_append.2 ⟨hc.formed, ?_⟩
    intro n hn
    rw [List.mem_singleton.1 hn]
    trivial
  · rw [numbers_append, hc.numbered]
    change _ ++ [c.parameters + 1] = List.range' 1 (c.parameters + 1)
    rw [List.range'_1_concat, Nat.add_comm]
  · change c.parameters + 1 + c.advance.placeholders = total
    omega

theorem refuseCompared_stays (left : Operand) : Stays (refuseCompared left) := by
  unfold refuseCompared
  split
  · exact .unexpected _
  · exact .pure _

namespace Tallied

variable {g : Grammar} (hg : g.Tallied)

include hg

/-! ### Lists and clauses -/

theorem expr : Tallies C [] g.expr Expr.nodes fun _ => True := hg.exprFrom _

theorem operand : Tallies C [] g.operand Expr.nodes fun _ => True := hg.exprFrom _

theorem exprs : Tallies C [] g.exprs Expr.nodesAll fun es => es ≠ [] := by
  refine Tallies.mono (Tallies.congr (Tallies.commaList hg.expr) ?_) fun es hes => hes.1
  exact fun es => (Expr.nodesAll_eq es).symm

theorem exprsUntil (closing : Symbol) (hc : closing ≠ .question) :
    Tallies C [] (g.exprsUntil closing) Expr.nodesAll fun _ => True := by
  refine Quiet.branch (Quiet.eatSymbol hc) (.pure (.of_eq rfl) trivial) ?_
  apply hg.exprs.bind
  intro es _
  apply Quiet.skip (Quiet.expectSymbol hc)
  intro _
  exact .pure (.of_eq rfl) trivial

theorem parenExprs : Tallies C [] g.parenExprs Expr.nodesAll fun _ => True :=
  Quiet.skip (Quiet.expectSymbol nofun) fun _ => hg.exprsUntil _ nofun

theorem parenQuery : Tallies C [] g.parenQuery Query.nodes fun _ => True := hg.query.parens

theorem orderTerm : Tallies C [] g.orderTerm OrderTerm.nodes fun _ => True := by
  apply hg.expr.bind
  intro e _
  apply Quiet.skip (Quiet.eatWord _)
  intro descending
  have hnulls : Tallies Anywhere e.nodes (do return ⟨e, descending, ← nullOrder⟩)
      OrderTerm.nodes fun _ => True :=
    Quiet.skip quiet_nullOrder fun nulls => .pure (.of_eq rfl) trivial
  refine Tallies.ite (fun _ => hnulls) fun _ => Quiet.skip (Quiet.eatWord _) fun _ => hnulls

theorem optionalOrder : Tallies C [] g.optionalOrder OrderTerm.nodesAll fun _ => True := by
  refine Quiet.branch (Quiet.eatKeyword _) ?_ (.pure (.of_eq rfl) trivial)
  apply Quiet.skip (Quiet.expectKeyword _)
  intro _
  refine Tallies.mono (Tallies.congr (Tallies.commaList hg.orderTerm) ?_) fun _ _ => trivial
  exact fun ts => (OrderTerm.nodesAll_eq ts).symm

/-! ### Windows -/

theorem bound : Tallies C [] g.bound Bound.nodes fun _ => True := by
  have hside : ∀ {C : Cursor → Prop} (b : Bound), b.nodes = [.bound b] →
      Tallies C [] (pure b) Bound.nodes fun _ => True := by
    intro C b hb
    refine .pure ?_ trivial
    rw [hb]
    exact .node rfl trivial (.of_eq rfl)
  refine Quiet.branch (Quiet.eatWord _) ?_ ?_
  · refine Quiet.branch (Quiet.eatWord _) (hside _ rfl) ?_
    exact Quiet.branch (Quiet.eatWord _) (hside _ rfl) Tallies.unexpected
  refine Tallies.look (fun _ => rfl) ?_
  intro current
  refine Tallies.look (fun _ => rfl) ?_
  intro next
  refine Tallies.ite (fun hcond => ?_) fun _ => ?_
  · refine Tallies.advance ?_ (Tallies.advance ?_ (hside _ rfl))
    · rintro c ⟨⟨-, hc⟩, -⟩ hq
      simp [← hc, hq] at hcond
    · rintro _ ⟨c, ⟨-, hc⟩, rfl⟩ hq
      rw [Cursor.kind_advance] at hq
      simp [← hc, hq] at hcond
  apply hg.operand.bind
  intro e _
  refine Quiet.branch (Quiet.eatWord _) (.pure (.node rfl trivial (.of_eq rfl)) trivial) ?_
  refine Quiet.branch (Quiet.eatWord _) ?_ Tallies.unexpected
  exact .pure (.node rfl trivial (.of_eq rfl)) trivial

theorem frame : Tallies C [] g.frame Frame.nodes fun _ => True := by
  apply Quiet.skip quiet_frameUnits
  intro units
  refine Quiet.branch (Quiet.eatKeyword _) ?_ ?_
  · apply hg.bound.bind
    intro start _
    apply Quiet.skip (Quiet.expectKeyword _)
    intro _
    exact hg.bound.bind fun stop _ => .pure (.of_eq rfl) trivial
  · apply hg.bound.bind
    intro start _
    refine .pure (.of_eq ?_) trivial
    simp [Frame.nodes, Bound.nodes?]

theorem partition : Tallies C [] g.partition Expr.nodesAll fun _ => True := by
  refine Quiet.branch (Quiet.eatWord _) ?_ (.pure (.of_eq rfl) trivial)
  apply Quiet.skip (Quiet.expectKeyword _)
  intro _
  exact Tallies.mono hg.exprs fun _ _ => trivial

theorem window : Tallies C [] g.window Window.nodes fun _ => True := by
  apply Quiet.bind quiet_baseWindow
  intro base hbase
  apply hg.partition.bind
  intro partition _
  apply hg.optionalOrder.bind
  intro order _
  refine Tallies.look (fun _ => rfl) ?_
  intro framed
  refine (Tallies.optional fun _ => hg.frame).bind ?_
  intro frame _
  refine .pure ?_ trivial
  refine .node rfl hbase (.of_eq ?_)
  cases frame <;> simp [Frame.nodes?]

theorem windowTarget : Tallies C [] g.windowTarget Over.nodes fun _ => True := by
  refine Quiet.branch (Quiet.eatSymbol nofun) ?_ ?_
  · apply hg.window.bind
    intro w _
    refine Quiet.skip (Quiet.expectSymbol nofun) ?_
    intro _
    exact .pure (.node rfl trivial (.of_eq rfl)) trivial
  · exact Quiet.bind Quiet.ident fun x hx => .pure (.node rfl hx (.of_eq rfl)) trivial

theorem namedWindow : Tallies C [] g.namedWindow NamedWindow.nodes fun _ => True := by
  apply Quiet.bind Quiet.ident
  intro x hx
  apply Quiet.skip (Quiet.expectKeyword _)
  intro _
  exact hg.window.parens.bind fun w _ => .pure (.node rfl hx (.of_eq rfl)) trivial

/-! ### Operands -/

theorem callTail {n : Name} (hn : n.Callable) (quantifier : Option Quantifier) (args : List Expr)
    (order : List OrderTerm) (hargs : args = [] → quantifier = none ∧ order = []) :
    Tallies Anywhere (Expr.nodesAll args ++ OrderTerm.nodesAll order)
      (g.callTail n quantifier args order) Expr.nodes fun _ => True := by
  refine Tallies.look (fun _ => rfl) ?_
  intro filtered
  refine Tallies.look (fun _ => rfl) ?_
  intro next
  refine (Tallies.optional (Q := fun _ => True) (N := Expr.nodes) ?_).bind fun filter _ => ?_
  · intro hcond
    refine Tallies.advance ?_ (Tallies.advance ?_ ?_)
    · rintro c ⟨⟨-, hc⟩, -⟩ hq
      simp [← hc, hq] at hcond
    · rintro _ ⟨c, ⟨-, hc⟩, rfl⟩ hq
      rw [Cursor.kind_advance] at hq
      simp [← hc, hq] at hcond
    apply Quiet.skip (Quiet.expectKeyword _)
    intro _
    apply hg.expr.bind
    intro e _
    exact Quiet.skip (Quiet.expectSymbol nofun) fun _ => .pure (.of_eq rfl) trivial
  have hover : ∀ {C : Cursor → Prop} (nulls : Option NullTreatment),
      Tallies C (Expr.nodesAll args ++ OrderTerm.nodesAll order ++ filter.elim [] Expr.nodes) (do
        let window ← Parser.optional (← Parser.eatWord "OVER") g.windowTarget
        return .call ⟨n, quantifier, args, order, filter, nulls, window⟩)
        Expr.nodes fun _ => True := by
    intro C nulls
    apply Quiet.skip (Quiet.eatWord _)
    intro windowed
    refine (Tallies.optional fun _ => hg.windowTarget).bind ?_
    intro window _
    refine .pure ?_ trivial
    refine .node rfl trivial (.node rfl ⟨hn.spelled, hn.plain, hargs⟩ (.of_eq ?_))
    cases window <;> simp [Over.nodes?, ← Expr.nodes?_eq]
  refine Tallies.look (fun _ => rfl) ?_
  intro next
  refine Tallies.ite (fun hnulls => ?_) fun _ => hover none
  -- The word that is passed over unread is the one that was seen behind `IGNORE` or `RESPECT`.
  have hadvance : ∀ w nulls, Tallies (fun d => ∃ c, ((Anywhere c ∧ c.kindAt 1 = next) ∧
      c.kind.isWord w = true) ∧ d = c.advance) (Expr.nodesAll args ++ OrderTerm.nodesAll order ++
        filter.elim [] Expr.nodes) (do
        Parser.advance
        let window ← Parser.optional (← Parser.eatWord "OVER") g.windowTarget
        return .call ⟨n, quantifier, args, order, filter, nulls, window⟩)
        Expr.nodes fun _ => True := by
    intro w nulls
    refine Tallies.advance ?_ (hover nulls)
    rintro _ ⟨c, ⟨⟨-, hc⟩, -⟩, rfl⟩ hq
    rw [Cursor.kind_advance, hc] at hq
    rw [hq] at hnulls
    cases hnulls
  exact Tallies.ifEatWord (hadvance _ _) (Tallies.ifEatWord (hadvance _ _) (hover none))

theorem call {n : Name} (hn : n.Callable) : Tallies C [] (g.call n) Expr.nodes fun _ => True := by
  refine Quiet.skip (Quiet.expectSymbol nofun) ?_
  intro _
  refine Quiet.branch (Quiet.eatSymbol nofun) ?_ ?_
  · exact hg.callTail hn none [] [] fun _ => ⟨rfl, rfl⟩
  · apply Quiet.skip quiet_quantifier
    intro quantifier
    apply hg.exprs.bind
    intro args hargs
    apply hg.optionalOrder.bind
    intro order _
    refine Quiet.skip (Quiet.expectSymbol nofun) ?_
    intro _
    exact hg.callTail hn quantifier args order fun hempty => absurd hempty hargs

theorem lambdaBody {params : List Ident} (hparams : ∀ x ∈ params, x.Named) :
    Tallies C [] (g.lambdaBody params) Expr.nodes fun _ => True := by
  refine Tallies.look (fun _ => rfl) ?_
  intro span
  refine Quiet.skip (Quiet.expectSymbol nofun) ?_
  intro _
  apply hg.expr.bind
  intro body _
  apply Tallies.valid
  intro e he
  refine ⟨?_, trivial⟩
  unfold Expr.buildLambda at he
  split at he
  · cases he
  · rename_i hempty
    split at he
    · cases he
    · rename_i hrepeated
      cases he
      have hpairs := (Ident.pairwise_of_firstRepeated? hrepeated).2
      refine .node rfl ⟨?_, hparams, hpairs⟩ (.of_eq rfl)
      simpa using hempty

theorem grouped : Tallies C [] g.grouped Expr.nodes fun _ => True := by
  refine Tallies.parens (hg.expr.bind fun first _ => Quiet.branch (Quiet.eatSymbol nofun) ?_ ?_)
  · exact hg.exprs.bind fun rest _ => .pure (.node rfl trivial (.of_eq rfl)) trivial
  · exact .pure (.of_eq rfl) trivial

theorem parenthesized (floor : Nat) :
    Tallies C [] (g.parenthesized floor) Expr.nodes fun _ => True := by
  refine Tallies.look (fun _ => rfl) ?_
  intro lambda
  refine Tallies.ite (fun _ => ?_) fun _ => ?_
  · exact Quiet.bind Quiet.identList fun params hparams => hg.lambdaBody hparams.2
  refine Tallies.look (fun _ => rfl) ?_
  intro query
  refine Tallies.ite (fun _ => ?_) fun _ => hg.grouped
  refine Tallies.attempt hg.parenQuery (fun q _ => ?_) fun e => hg.grouped.orFailWith
  exact .pure (.node rfl trivial (.of_eq rfl)) trivial

theorem whenBranch (branches : List (Expr × Expr)) :
    Tallies C (Expr.branchNodes branches) (g.whenBranch branches)
      (fun r => Expr.branchNodes (r.getD branches)) fun _ => True := by
  refine Quiet.branch (Quiet.eatKeyword _) ?_ (.pure (.of_eq rfl) trivial)
  apply hg.expr.bind
  intro condition _
  apply Quiet.skip (Quiet.expectKeyword _)
  intro _
  apply hg.expr.bind
  intro value _
  refine .pure (.of_eq ?_) trivial
  simp [Expr.branchNodes_eq]

theorem caseWhen : Tallies C [] g.caseWhen Expr.nodes fun _ => True := by
  refine Tallies.look (fun _ => rfl) ?_
  intro span
  apply Quiet.skip (Quiet.expectKeyword _)
  intro _
  refine Tallies.look (fun _ => rfl) ?_
  intro plain
  refine (Tallies.optional fun _ => hg.expr).bind ?_
  intro operand _
  have hbranches : Tallies Anywhere [] (Parser.iterate g.whenBranch []) Expr.branchNodes
      fun _ => True := by
    change Tallies Anywhere (Expr.branchNodes []) _ Expr.branchNodes _
    refine Tallies.iterate (Q := fun _ => True) trivial ?_
    intro bs _
    exact Tallies.mono (hg.whenBranch bs) fun _ _ _ _ => trivial
  apply hbranches.bind
  intro branches _
  refine Tallies.ite (fun _ => Tallies.unexpected_bind) fun hne => ?_
  apply Quiet.skip (Quiet.eatKeyword _)
  intro otherwise
  refine (Tallies.optional fun _ => hg.expr).bind ?_
  intro otherwise _
  apply Quiet.skip (Quiet.expectKeyword _)
  intro _
  apply Tallies.valid
  intro e he
  refine ⟨?_, trivial⟩
  rw [Expr.buildCase, if_neg hne] at he
  cases he
  refine .node rfl (fun hempty => hne (by rw [hempty]; rfl)) (.of_eq ?_)
  simp [Expr.nodes?_eq]

theorem cast (safe : Bool) (hC : ∀ c, C c → c.kind ≠ .symbol .question) :
    Tallies C [] (g.cast safe) Expr.nodes fun _ => True := by
  refine Tallies.advance hC (Tallies.parens (hg.expr.bind fun e _ => ?_))
  apply Quiet.skip (Quiet.expectKeyword _)
  intro _
  apply Quiet.bind hg.type
  intro t ht
  exact .pure (.node rfl ht (.of_eq rfl)) trivial

theorem named (hC : ∀ c, C c → c.Calls) : Tallies C [] g.named Expr.nodes fun _ => True := by
  refine Tallies.follow Quiet.spelledName fun n hspelled => ?_
  have hn : n.Named := fun x hx => (hspelled x hx).named
  refine Tallies.ifCheck ?_ ?_
  · refine Tallies.placed (H := n.Callable) ?_ fun hcallable => hg.call hcallable
    rintro d ⟨⟨c, hc, hname⟩, hd⟩
    exact (hC c hc).callable hname hspelled hd
  refine Tallies.look (fun _ => rfl) ?_
  intro dot
  refine Tallies.look (fun _ => rfl) ?_
  intro next
  refine Tallies.ite (fun hcond => ?_) fun _ => Tallies.ite (fun hbare => ?_) fun _ => ?_
  · refine Tallies.advance ?_ (Tallies.advance ?_ (.pure (.node rfl ?_ (.of_eq rfl)) trivial))
    · rintro c ⟨⟨-, hc⟩, -⟩ hq
      simp [← hc, hq] at hcond
    · rintro _ ⟨c, ⟨-, hc⟩, rfl⟩ hq
      rw [Cursor.kind_advance] at hq
      simp [← hc, hq] at hcond
    · rintro _ ⟨⟩
      exact hn
  · have hcallable := Name.IsBare.callable hbare hspelled
    refine .pure (.node rfl trivial (.node rfl ?_ (.of_eq rfl))) trivial
    exact ⟨hcallable.spelled, hcallable.plain, fun _ => ⟨rfl, rfl⟩⟩
  · exact .pure (.node rfl hn (.of_eq rfl)) trivial

theorem fromWord {word : String} (hword : Token.IsWord word)
    (hC : ∀ c, C c → c.kind = .ident (.plain word)) :
    Tallies C [] (g.fromWord word) Expr.nodes fun _ => True := by
  refine Tallies.look (fun _ => rfl) ?_
  intro next
  refine Tallies.stay intervalAhead_stays ?_
  intro ahead
  have hC' : ∀ c, (C c ∧ c.kindAt 1 = next) ∧ intervalAhead c = .ok (ahead, c) →
      c.kind ≠ .symbol .question := by
    rintro c ⟨⟨hc, -⟩, -⟩
    rw [hC c hc]
    nofun
  have hnext : next ≠ .symbol .question → ∀ d, (∃ c, ((C c ∧ c.kindAt 1 = next) ∧
      intervalAhead c = .ok (ahead, c)) ∧ d = c.advance) → d.kind ≠ .symbol .question := by
    rintro hne _ ⟨c, ⟨⟨-, rfl⟩, -⟩, rfl⟩
    rw [Cursor.kind_advance]
    exact hne
  refine Tallies.ite (fun _ => tallies_interval hC') fun hinterval => ?_
  refine Tallies.ite (fun hcond => ?_) fun _ => Tallies.ite (fun hcond => ?_) fun hrow => ?_
  · refine Tallies.advance hC' (Tallies.advance (hnext ?_) ?_)
    · rintro rfl
      simp at hcond
    · refine (hg.exprsUntil .rightBracket nofun).bind ?_
      intro items _
      exact .pure (.node rfl trivial (.of_eq rfl)) trivial
  · refine Tallies.advance hC' (Tallies.advance (hnext ?_) ?_)
    · rintro rfl
      simp at hcond
    · refine (hg.exprsUntil .rightParen nofun).bind ?_
      intro items _
      exact .pure (.node rfl trivial (.of_eq rfl)) trivial
  refine Tallies.ite (fun _ => hg.cast true hC') fun hcast => ?_
  split
  · rename_i text
    -- Before a string, the word `INTERVAL` would have started an interval.
    refine Tallies.placed (H := ahead = true) ?_ fun hahead => ?_
    · rintro c ⟨⟨-, hkind⟩, hlooked⟩
      rw [intervalAhead_of_string hkind] at hlooked
      cases hlooked
      rfl
    have htype : word.toUpper ≠ "INTERVAL" := by
      intro hword
      exact hinterval (by simp [hword, hahead])
    refine Tallies.advance hC' (Tallies.advance (hnext nofun) ?_)
    refine .pure (.node rfl ?_ (.of_eq rfl)) trivial
    exact ⟨hword.toUpper, String.toUpper_toUpper word, htype⟩
  · refine hg.named ?_
    rintro c ⟨⟨hc, rfl⟩, -⟩ x hx hopens hparen
    rw [hC c hc] at hx
    cases hx
    simp [Ident.opensConstruct, Ident.plain, hparen] at hopens hrow hcast
    exact hopens.elim hrow hcast

theorem fromIdent (floor : Nat) {x : Ident} (hx : x.Spelled) (hC : ∀ c, C c → c.kind = .ident x) :
    Tallies C [] (g.fromIdent floor x) Expr.nodes fun _ => True := by
  have hne : ∀ c, C c → c.kind ≠ .symbol .question := by
    intro c hc
    rw [hC c hc]
    nofun
  refine Tallies.look (fun _ => rfl) ?_
  intro next
  refine Tallies.ite (fun _ => ?_) fun _ => Tallies.ite (fun hdelimited => ?_) fun hplain => ?_
  · refine Tallies.advance (fun c hc => hne c hc.1) (hg.lambdaBody ?_)
    intro y hy
    rw [List.mem_singleton.1 hy]
    exact hx.named
  · refine hg.named ?_
    rintro c ⟨hc, -⟩ y hy hopens
    rw [hC c hc] at hy
    cases hy
    simp [Ident.opensConstruct, hdelimited] at hopens
  · rw [Bool.not_eq_true] at hplain
    refine hg.fromWord ?_ ?_
    · simpa [Ident.Spelled, hplain] using hx
    · rintro c ⟨hc, -⟩
      rw [hC c hc]
      cases x
      cases hplain
      rfl

theorem primary (floor : Nat) : Tallies C [] (g.primary floor) Expr.nodes fun _ => True := by
  apply Tallies.peek
  intro k hk
  cases k with
  | integer n =>
    have hn : (Kind.integer n).Found := hk.resolve_left nofun
    exact tallies_taking (Cursor.kind_ne_question nofun) rfl rfl hn.nonneg
  | decimal text =>
    have htext : (Kind.decimal text).Found := hk.resolve_left nofun
    exact tallies_taking (Cursor.kind_ne_question nofun) rfl rfl htext.isDecimal
  | double d =>
    have hd : (Kind.double d).Found := hk.resolve_left nofun
    exact tallies_taking (Cursor.kind_ne_question nofun) rfl rfl hd.isNumber
  | string text => exact tallies_taking (Cursor.kind_ne_question nofun) rfl rfl trivial
  | binary bytes => exact tallies_taking (Cursor.kind_ne_question nofun) rfl rfl trivial
  | symbol s =>
    cases s with
    | question => exact tallies_placeholder fun c hc => hc.2
    | star => exact tallies_taking (Cursor.kind_ne_question nofun) rfl rfl nofun
    | leftParen => exact hg.parenthesized floor
    | _ => exact Tallies.unexpected
  | keyword w =>
    cases w with
    | NULL => exact tallies_taking (Cursor.kind_ne_question nofun) rfl rfl trivial
    | TRUE => exact tallies_taking (Cursor.kind_ne_question nofun) rfl rfl trivial
    | FALSE => exact tallies_taking (Cursor.kind_ne_question nofun) rfl rfl trivial
    | CASE => exact hg.caseWhen
    | CAST => exact hg.cast false (Cursor.kind_ne_question nofun)
    | EXISTS =>
      refine Tallies.advance (Cursor.kind_ne_question nofun) (hg.parenQuery.bind fun q _ => ?_)
      exact .pure (.node rfl trivial (.of_eq rfl)) trivial
    | _ => exact Tallies.unexpected
  | ident x =>
    have hx : (Kind.ident x).Found := hk.resolve_left nofun
    exact hg.fromIdent floor hx.spelled fun c hc => hc.2
  | _ => exact Tallies.unexpected

theorem signed (floor : Nat) : Tallies C [] (g.signed floor) Expr.nodes fun _ => True := by
  refine Tallies.look (fun _ => rfl) ?_
  intro k
  split
  · rename_i op hop
    refine Tallies.advance ?_ ((hg.exprFrom _).bind fun e _ => ?_)
    · rintro c ⟨-, rfl⟩ hq
      rw [hq] at hop
      cases hop
    · exact .pure (.node rfl trivial (.of_eq rfl)) trivial
  · exact hg.primary floor

/-! ### Predicates -/

theorem isPredicate (left : Expr) :
    Tallies C left.nodes (g.isPredicate left) Expr.nodes fun _ => True := by
  apply Quiet.skip (Quiet.eatKeyword _)
  intro negated
  refine Quiet.branch (Quiet.eatKeyword _) ?_ ?_
  · exact .pure (.node rfl trivial (.of_eq rfl)) trivial
  refine Quiet.branch (Quiet.eatKeyword _) ?_ Tallies.unexpected
  apply Quiet.skip (Quiet.expectKeyword _)
  intro _
  apply hg.operand.bind
  intro right _
  exact .pure (.node rfl trivial (.of_eq rfl)) trivial

theorem inPredicate (span : Span) (left : Expr) (negated : Bool) :
    Tallies C left.nodes (g.inPredicate span left negated) Expr.nodes fun _ => True := by
  -- The list is read where no query in parentheses is.
  have hlist : ∀ {C : Cursor → Prop}, (∀ c, C c → ∀ q d, Parser.queryAhead c = .ok (true, c) →
      g.parenQuery c ≠ .ok (q, d)) →
      Tallies C left.nodes (inPredicate.fromList g span left negated) Expr.nodes fun _ => True := by
    intro C hC
    refine Tallies.follow hg.parenExprs ?_
    intro items _
    refine Tallies.placed (H := ∀ q, items ≠ [.subquery q]) ?_ fun hitem => ?_
    · rintro d ⟨c, hc, hitems⟩ q rfl
      obtain ⟨hahead, hread⟩ := hg.subqueries.parenExprs hitems
      exact hC c hc q d hahead hread
    apply Tallies.valid
    intro e he
    refine ⟨?_, trivial⟩
    unfold Expr.buildInList at he
    split at he
    · cases he
    · rename_i hitems
      cases he
      refine .node rfl ⟨?_, hitem⟩ (.of_eq rfl)
      simpa using hitems
  refine Tallies.look (fun _ => rfl) ?_
  intro query
  refine Tallies.ite (fun _ => ?_) fun hquery => ?_
  · refine Tallies.attempt hg.parenQuery (fun q _ => ?_) fun e => ?_
    · exact .pure (.node rfl trivial (.of_eq rfl)) trivial
    · refine hlist ?_
      rintro c ⟨-, hfailed⟩ q d - hread
      rw [hfailed] at hread
      cases hread
  · refine hlist ?_
    rintro c ⟨-, rfl⟩ q d hahead -
    exact hquery (congrArg Prod.fst (Except.ok.inj hahead))

theorem predicate (left : Expr) :
    Tallies C left.nodes (g.predicate left) Expr.nodes fun _ => True := by
  refine Tallies.look (fun _ => rfl) ?_
  intro span
  refine Quiet.branch (Quiet.eatKeyword _) (hg.isPredicate left) ?_
  apply Quiet.skip (Quiet.eatKeyword _)
  intro negated
  refine Quiet.branch (Quiet.eatKeyword _) ?_ ?_
  · apply hg.operand.bind
    intro pattern _
    apply Quiet.skip (Quiet.eatWord _)
    intro escaped
    refine (Tallies.optional fun _ => hg.operand).bind ?_
    intro escape _
    refine .pure (.node rfl trivial (.of_eq ?_)) trivial
    simp [Expr.nodes?_eq]
  refine Quiet.branch (Quiet.eatKeyword _) ?_ ?_
  · apply hg.operand.bind
    intro low _
    apply Quiet.skip (Quiet.expectKeyword _)
    intro _
    apply hg.operand.bind
    intro high _
    refine .pure (.node rfl trivial (.of_eq ?_)) trivial
    simp
  · exact Quiet.branch (Quiet.eatKeyword _) (hg.inPredicate span left negated) Tallies.unexpected

/-! ### Operators -/

theorem extend (floor : Nat) (left : Operand) :
    Tallies C left.expr.nodes (g.extend floor left) (fun r => (r.getD left).expr.nodes)
      fun _ => True := by
  have hdecline : ∀ {C : Cursor → Prop}, Tallies C left.expr.nodes (pure none)
      (fun r => (r.getD left).expr.nodes) fun _ => True := .pure (.of_eq rfl) trivial
  refine Tallies.look (fun _ => rfl) ?_
  intro k
  refine Tallies.ite (fun hk => ?_) fun _ => Tallies.ite (fun hk => ?_) fun _ => ?_
  · obtain rfl := beq_iff_eq.1 hk
    refine Tallies.advance (Cursor.kind_ne_question nofun) (hg.expr.bind fun index _ => ?_)
    refine Quiet.skip (Quiet.expectSymbol nofun) ?_
    intro _
    exact .pure (.node rfl trivial (.of_eq rfl)) trivial
  · obtain rfl := beq_iff_eq.1 hk
    refine Tallies.advance (Cursor.kind_ne_question nofun) (Quiet.bind Quiet.ident fun x hx => ?_)
    exact .pure (.node rfl hx (.of_eq rfl)) trivial
  split
  · rename_i op hop
    have hk : k ≠ .symbol .question := by
      rintro rfl
      cases hop
    have hright : ∀ {C : Cursor → Prop}, (∀ c, C c → c.kind = k) → Tallies C left.expr.nodes (do
        Parser.advance
        let right ← g.exprFrom (op.tier.rank + 1)
        return some ⟨.binary left.expr op right, left.compared || op.associativity = .none⟩)
        (fun r => (r.getD left).expr.nodes) fun _ => True := by
      intro C hC
      refine Tallies.advance (fun c hc => ?_) ((hg.exprFrom _).bind fun right _ => ?_)
      · rw [hC c hc]
        exact hk
      · exact .pure (.node rfl trivial (.of_eq rfl)) trivial
    refine Tallies.ite (fun _ => hdecline) fun _ => Tallies.ite (fun _ => ?_) fun _ => ?_
    · exact Tallies.stay (refuseCompared_stays left) fun _ => hright fun c hc => hc.1.2
    · exact hright fun c hc => hc.2
  · apply Tallies.stay predicateAhead_stays
    intro ahead
    refine Tallies.ite (fun _ => ?_) fun _ => hdecline
    refine Tallies.ite (fun _ => hdecline) fun _ => ?_
    apply Tallies.stay (refuseCompared_stays left)
    intro _
    exact (hg.predicate left.expr).seq fun e _ => .pure (.of_eq rfl) trivial

theorem expression (floor : Nat) : Tallies C [] (g.expression floor) Expr.nodes fun _ => True := by
  apply (hg.signed floor).bind
  intro first _
  have hsteps : Tallies Anywhere first.nodes (Parser.iterate (g.extend floor) ⟨first, false⟩)
      (fun o => o.expr.nodes) fun _ => True := by
    change Tallies Anywhere (Operand.expr ⟨first, false⟩).nodes _ _ _
    refine Tallies.iterate (N := fun o : Operand => o.expr.nodes) trivial ?_
    intro left _
    exact Tallies.mono (hg.extend floor left) fun _ _ _ _ => trivial
  exact Tallies.seq hsteps fun o _ => .pure (.of_eq rfl) trivial

end Tallied

end Grammar

end Sql
