import Sql.Proofs.Inversion

/-! A text that is read as an operator tree is one of the ways to write that tree. -/
namespace Sql

open Token (Kind)
open Token.Kind (bare commas given parens Balanced)
open Sql.Expr (Written)
open Sql.Grammar (Operand)

/-! ### Expressions up to the next operator -/

/-- The tokens can be read as the expression, and the token behind them goes on behind all of it. -/
inductive Reached (floor : Nat) (k : Kind) : List Kind → Operand → Prop
  | grouped {ts : List Kind} {left : Operand} : Written 0 ts left.expr →
      Reached floor k (parens ts) left
  | bare {ts : List Kind} {left : Operand} : Written floor ts left.expr →
      (∀ op, k.binaryOp? = some op → left.expr.admits op = true) →
      (left.compared = false → left.expr.tier ≠ .comparison) → Reached floor k ts left

namespace Reached

variable {floor : Nat} {k : Kind} {ts us : List Kind} {left : Operand} {op : BinaryOp} {r : Expr}

theorem written (h : Reached floor k ts left) : Written floor ts left.expr := by
  cases h with
  | grouped h => exact .grouped h
  | bare h => exact h

/-- Another operator goes on with what is there, in parentheses or without. -/
theorem binary (h : Reached floor op.token ts left) (hfloor : floor ≤ op.tier.rank)
    (hcompared : op.tier = .comparison → left.compared = false)
    (hr : Written (op.tier.rank + 1) us r) :
    Written floor (ts ++ op.token :: us) (.binary left.expr op r) := by
  cases h with
  | grouped h => exact .binaryGrouped hfloor h hr
  | bare h hadmits hplain =>
    refine .binary hfloor h ?_ hr
    have hop : op.token.binaryOp? = some op := by cases op <;> rfl
    rw [Expr.opensLeft, hadmits op hop, Bool.true_and, Bool.not_eq_true', Bool.and_eq_false_iff,
      decide_eq_false_iff_not, decide_eq_false_iff_not, ← Decidable.not_and_iff_not_or_not]
    exact fun ⟨hop, he⟩ => hplain (hcompared hop) he

end Reached

/-- Where all names ahead are quoted, what is read as an operator tree is one way to write it, and
no operator follows that would have been read with it. -/
def Grammar.Faithful (g : Grammar) : Prop :=
  ∀ floor c e d, c.Holds Kind.Quoted → g.exprFrom floor c = .ok (e, d) → e.LooksBasic →
    ∃ ts, c.kinds = ts ++ d.kinds ∧ Written floor ts e ∧
      ∀ op, d.kind.binaryOp? = some op → op.tier.rank < floor

/-- What a parser returns as an operator tree is written there up to the next operator. -/
def Parser.ReadsUpTo (floor : Nat) (p : Parser Expr) : Prop :=
  ∀ c e d, c.Holds Kind.Quoted → p c = .ok (e, d) → e.LooksBasic →
    ∃ ts, c.kinds = ts ++ d.kinds ∧ Reached floor d.kind ts ⟨e, false⟩

namespace Parser

variable {floor : Nat} {p q : Parser Expr}

theorem Never.readsUpTo (h : Never Expr.LooksBasic p) : ReadsUpTo floor p :=
  fun c e d _ hp he => absurd he (h c e d hp)

namespace ReadsUpTo

/-- A step that only looks. -/
theorem stay {α : Type} {p : Parser α} {f : α → Parser Expr} (hp : Stays p)
    (hf : ∀ a, ReadsUpTo floor (f a)) : ReadsUpTo floor (p >>= f) := by
  intro c e d hc h
  obtain ⟨a, c₁, ha, hrest⟩ := bind_eq_ok h
  rw [hp c a c₁ ha] at hrest
  exact hf a c e d hc hrest

theorem ite {b : Prop} [Decidable b] (hp : ReadsUpTo floor p) (hq : ReadsUpTo floor q) :
    ReadsUpTo floor (if b then p else q) := by
  split
  · exact hp
  · exact hq

end ReadsUpTo

end Parser

namespace Grammar

open Sql.Parser (Never Stays ReadsUpTo bind_eq_ok expectSymbol_eq_ok eat_eq_ok)

variable (g : Grammar) {floor : Nat}

theorem refuseCompared_eq_ok {c d : Cursor} {left : Operand} {u : Unit}
    (h : refuseCompared left c = .ok (u, d)) : left.compared = false ∧ c = d := by
  unfold refuseCompared at h
  split at h
  · cases h
  · rename_i hcompared
    cases h
    exact ⟨eq_false_of_ne_true hcompared, rfl⟩

theorem readsUpTo_named : ReadsUpTo floor g.named := by
  intro c e d hc h he
  obtain ⟨n, c₁, hn, hrest⟩ := bind_eq_ok h
  obtain ⟨called, c₂, hcalled, hrest⟩ := bind_eq_ok hrest
  cases hcalled
  split at hrest
  · exact absurd he (g.never_call (fun _ => nofun) n c₁ e d hrest)
  obtain ⟨dot, c₃, hdot, hrest⟩ := bind_eq_ok hrest
  cases hdot
  obtain ⟨star, c₄, hstar, hrest⟩ := bind_eq_ok hrest
  cases hstar
  split at hrest
  · cases hrest
    cases he
  split at hrest
  · cases hrest
    cases he
  · cases hrest
    have hkinds := Parser.name_eq_ok hn
    have hquoted : n.IsQuoted := Name.isQuoted_of_callTokens fun k hk =>
      hc k (hkinds ▸ List.mem_append_left d.kinds hk)
    refine ⟨n.tokens, ?_, .bare (.column hquoted) (fun _ _ => rfl) fun _ => by simp [Expr.tier]⟩
    rw [Name.tokens_eq hquoted.delimited, hkinds]

theorem readsUpTo_fromWord (word : String) : ReadsUpTo floor (g.fromWord word) := by
  refine .stay (.of_reads fun _ => rfl) fun next => .stay intervalAhead_stays fun ahead => ?_
  have hcast : ReadsUpTo floor (g.cast true) := (g.never_cast (fun _ _ _ => nofun) true).readsUpTo
  refine .ite (never_interval fun _ _ _ _ => nofun).readsUpTo (.ite ?_ (.ite ?_ (.ite hcast ?_)))
  · exact Never.readsUpTo (.after fun _ => .after fun _ => .after fun _ => .pure nofun)
  · exact Never.readsUpTo (.after fun _ => .after fun _ => .after fun _ => .pure nofun)
  split
  · exact Never.readsUpTo (.after fun _ => .after fun _ => .pure nofun)
  · exact g.readsUpTo_named

theorem readsUpTo_fromIdent (x : Ident) : ReadsUpTo floor (g.fromIdent floor x) := by
  refine .stay (.of_reads fun _ => rfl) fun next => .ite ?_ (.ite g.readsUpTo_named ?_)
  · exact (Never.after fun _ => g.never_lambdaBody (fun _ _ => nofun) [x]).readsUpTo
  · exact g.readsUpTo_fromWord x.text

/-- What a step of the loop can come to. -/
inductive Extended (floor : Nat) (left : Operand) (c : Cursor) : Option Operand → Cursor → Prop
  | stop : (∀ op, c.kind.binaryOp? = some op → op.tier.rank < floor) → Extended floor left c none c
  | access {right : Operand} {d : Cursor} : ¬ right.expr.LooksBasic →
      Extended floor left c (some right) d
  | operator {op : BinaryOp} {r : Expr} {d : Cursor} : c.kind = op.token → floor ≤ op.tier.rank →
      (op.tier = .comparison → left.compared = false) →
      g.exprFrom (op.tier.rank + 1) c.advance = .ok (r, d) →
      Extended floor left c
        (some ⟨.binary left.expr op r, left.compared || op.associativity = .none⟩) d
  | predicate {e : Expr} {d : Cursor} : floor ≤ Tier.comparison.rank →
      g.predicate left.expr c = .ok (e, d) → Extended floor left c (some ⟨e, true⟩) d

theorem extended_of_eq_ok {c d : Cursor} {left : Operand} {r : Option Operand}
    (h : g.extend floor left c = .ok (r, d)) : g.Extended floor left c r d := by
  obtain ⟨k, c₁, hk, hrest⟩ := bind_eq_ok h
  cases hk
  split at hrest
  · obtain ⟨_, c₂, -, hrest⟩ := bind_eq_ok hrest
    obtain ⟨index, c₃, -, hrest⟩ := bind_eq_ok hrest
    obtain ⟨_, c₄, -, hrest⟩ := bind_eq_ok hrest
    cases hrest
    exact .access nofun
  split at hrest
  · obtain ⟨_, c₂, -, hrest⟩ := bind_eq_ok hrest
    obtain ⟨x, c₃, -, hrest⟩ := bind_eq_ok hrest
    cases hrest
    exact .access nofun
  cases hop : c.kind.binaryOp? with
  | some op =>
    have htoken := BinaryOp.token_of_binaryOp? hop
    rw [hop] at hrest
    dsimp only at hrest
    split at hrest
    · rename_i hfloor
      cases hrest
      refine .stop fun op' hop' => ?_
      cases hop.symm.trans hop'
      exact hfloor
    rename_i hfloor
    split at hrest
    · obtain ⟨_, c₂, hrefuse, hrest⟩ := bind_eq_ok hrest
      obtain ⟨hcompared, rfl⟩ := refuseCompared_eq_ok hrefuse
      obtain ⟨_, c₃, hadvance, hrest⟩ := bind_eq_ok hrest
      cases hadvance
      obtain ⟨e, c₄, he, hrest⟩ := bind_eq_ok hrest
      cases hrest
      exact .operator htoken (Nat.not_lt.1 hfloor) (fun _ => hcompared) he
    · rename_i hassociativity
      obtain ⟨_, c₃, hadvance, hrest⟩ := bind_eq_ok hrest
      cases hadvance
      obtain ⟨e, c₄, he, hrest⟩ := bind_eq_ok hrest
      cases hrest
      refine .operator htoken (Nat.not_lt.1 hfloor) (fun htier => ?_) he
      exact absurd (if_pos htier) hassociativity
  | none =>
    rw [hop] at hrest
    obtain ⟨ahead, c₂, hahead, hrest⟩ := bind_eq_ok hrest
    rw [predicateAhead_stays _ _ _ hahead] at hrest
    have hstop : ∀ op, c.kind.binaryOp? = some op → op.tier.rank < floor := by
      rw [hop]
      nofun
    split at hrest
    · split at hrest
      · cases hrest
        exact .stop hstop
      rename_i hfloor
      obtain ⟨_, c₃, hrefuse, hrest⟩ := bind_eq_ok hrest
      obtain ⟨-, rfl⟩ := refuseCompared_eq_ok hrefuse
      obtain ⟨e, c₄, he, hrest⟩ := bind_eq_ok hrest
      cases hrest
      exact .predicate (Nat.not_lt.1 hfloor) he
    · cases hrest
      exact .stop hstop

namespace Faithful

variable {g : Grammar} (hg : g.Faithful)

include hg

theorem grouped : ReadsUpTo floor g.grouped := by
  intro c e d hc h he
  obtain ⟨c₁, d₁, hopen, h, hclose⟩ := Parser.parens_eq_ok h
  obtain ⟨first, c₂, hfirst, hrest⟩ := bind_eq_ok h
  obtain ⟨b, c₃, hb, hrest⟩ := bind_eq_ok hrest
  obtain ⟨rfl, -, rfl⟩ | ⟨rfl, rfl⟩ := eat_eq_ok hb
  · obtain ⟨es, c₄, -, hrest⟩ := bind_eq_ok hrest
    cases hrest
    cases he
  · cases hrest
    obtain ⟨ts, hts, hw, -⟩ := hg _ _ _ _ (hc.of_cons hopen) hfirst he
    refine ⟨parens ts, ?_, .grouped hw⟩
    rw [hopen, hts, hclose, parens]
    simp

theorem parenthesized : ReadsUpTo floor (g.parenthesized floor) := by
  refine .stay (.of_reads fun _ => rfl) fun lambda => .ite ?_ ?_
  · exact (Never.after fun params => g.never_lambdaBody (fun _ _ => nofun) params).readsUpTo
  refine .stay (.of_reads fun _ => rfl) fun query => .ite ?_ hg.grouped
  intro c e d hc h he
  obtain ⟨r, c₁, hr, hrest⟩ := bind_eq_ok h
  obtain ⟨q, rfl, -⟩ | ⟨error, rfl, -, rfl⟩ := Parser.attempt_eq_ok hr
  · cases hrest
    cases he
  · exact hg.grouped c e d hc (Parser.orFailWith_eq_ok hrest) he

theorem primary : ReadsUpTo floor (g.primary floor) := by
  have htaking : ∀ e : Expr, ¬ e.LooksBasic → ReadsUpTo floor (taking e) :=
    fun e he => Never.readsUpTo (.after fun _ => .pure he)
  have hplaceholder : ReadsUpTo floor placeholder :=
    Never.readsUpTo (.after fun _ => .after fun _ => .after fun _ => .pure (by rintro ⟨⟩))
  have hexists : ReadsUpTo floor (do
      Parser.advance
      return .existsQuery (← g.parenQuery)) :=
    Never.readsUpTo (.after fun _ => .after fun _ => .pure (by rintro ⟨⟩))
  intro c e d hc h
  obtain ⟨k, c₁, hk, hrest⟩ := bind_eq_ok h
  cases hk
  cases hkind : c.kind with
  | integer n =>
    rw [hkind] at hrest
    cases hrest
    rintro (_ | hn)
    refine ⟨[.integer n], Cursor.kinds_eq_cons hkind (by simp), ?_⟩
    refine .bare (.integer hn) (fun _ _ => rfl) fun _ => ?_
    rw [Expr.integer, Expr.tier]
    split <;> simp
  | decimal | double | string | binary =>
    rw [hkind] at hrest
    refine htaking _ ?_ c e d hc hrest
    rintro ⟨⟩
  | symbol s =>
    rw [hkind] at hrest
    cases s with
    | question => exact hplaceholder c e d hc hrest
    | star =>
      refine htaking _ ?_ c e d hc hrest
      rintro ⟨⟩
    | leftParen => exact hg.parenthesized c e d hc hrest
    | _ => cases hrest
  | keyword w =>
    rw [hkind] at hrest
    cases w with
    | NULL | TRUE | FALSE =>
      refine htaking _ ?_ c e d hc hrest
      rintro ⟨⟩
    | CASE => exact (g.never_caseWhen (by rintro _ _ _ ⟨⟩)).readsUpTo c e d hc hrest
    | CAST => exact (g.never_cast (by rintro _ _ _ ⟨⟩) false).readsUpTo c e d hc hrest
    | EXISTS => exact hexists c e d hc hrest
    | _ => cases hrest
  | ident x =>
    rw [hkind] at hrest
    exact g.readsUpTo_fromIdent x c e d hc hrest
  | _ =>
    rw [hkind] at hrest
    cases hrest

theorem signed : ReadsUpTo floor (g.signed floor) := by
  intro c e d hc h he
  obtain ⟨k, c₁, hk, hrest⟩ := bind_eq_ok h
  cases hk
  cases hop : c.kind.unaryOp? with
  | some op =>
    rw [hop] at hrest
    obtain ⟨_, c₂, hadvance, hrest⟩ := bind_eq_ok hrest
    cases hadvance
    obtain ⟨operand, c₃, hoperand, hrest⟩ := bind_eq_ok hrest
    cases hrest
    cases he with
    | unary he =>
      obtain ⟨ts, hts, hw, hend⟩ := hg _ _ _ _ hc.advance hoperand he
      have hkind := UnaryOp.token_of_unaryOp? hop
      refine ⟨op.token :: ts, ?_, .bare (.unary hw) (fun op' hop' => ?_) ?_⟩
      · rw [Cursor.kinds_eq_cons hkind (by cases op <;> nofun), hts, List.cons_append]
      · exact decide_eq_true (hend op' hop')
      · intro _
        cases op <;> nofun
  | none =>
    rw [hop] at hrest
    exact hg.primary c e d hc hrest he

/-! ### What follows an operand -/

/-- The items of a list are written between its parentheses. -/
theorem parenExprs {c d : Cursor} {items : List Expr} (hc : c.Holds Kind.Quoted)
    (h : g.parenExprs c = .ok (items, d)) (hitems : ∀ x ∈ items, x.LooksBasic) (hne : items ≠ []) :
    (∀ x ∈ items, x.IsBasic Name.IsQuoted) ∧ ∃ us, c.kinds = parens us ++ d.kinds ∧
      bare us = bare (commas (Expr.tokenLists items)) ∧ Balanced us := by
  obtain ⟨_, c₁, hopen, hrest⟩ := bind_eq_ok h
  obtain ⟨b, c₂, hb, hrest⟩ := bind_eq_ok hrest
  obtain ⟨rfl, -, rfl⟩ | ⟨rfl, rfl⟩ := eat_eq_ok hb
  · cases hrest
    exact absurd rfl hne
  obtain ⟨es, c₃, hes, hrest⟩ := bind_eq_ok hrest
  obtain ⟨_, c₄, hclose, hrest⟩ := bind_eq_ok hrest
  cases hrest
  have hopened := expectSymbol_eq_ok hopen
  obtain ⟨tss, htss, hw⟩ := Parser.commaList_eq_ok (W := Written 0)
    (fun c e d hc he hbasic => (hg _ _ _ _ hc he hbasic).imp fun _ h => ⟨h.1, h.2.1⟩)
    (hc.of_cons hopened) hes hitems
  obtain ⟨hbasic, hbare, hbalanced⟩ := Written.list hw
  refine ⟨hbasic, commas tss, ?_, hbare, hbalanced⟩
  rw [hopened, htss, expectSymbol_eq_ok hclose, parens]
  simp

/-- The tokens `us` behind an expression make a predicate of it. -/
def Predicates (left e : Expr) (us : List Kind) : Prop :=
  ∀ floor ts, floor ≤ Tier.comparison.rank → Written floor ts left → Written floor (ts ++ us) e

omit hg in
theorem isPredicate {c d : Cursor} {left e : Expr} (h : g.isPredicate left c = .ok (e, d))
    (he : e.LooksBasic) : left.LooksBasic ∧ (∀ op, e.admits op = true) ∧
      ∃ us, c.kinds = us ++ d.kinds ∧ Predicates left e (.keyword .IS :: us) := by
  obtain ⟨negated, c₁, hnot, hrest⟩ := bind_eq_ok h
  obtain ⟨null, c₂, hnull, hrest⟩ := bind_eq_ok hrest
  cases null with
  | true =>
    cases hrest
    cases he with
    | isNull he =>
      refine ⟨he, fun _ => rfl, given negated (.keyword .NOT) ++ [.keyword .NULL], ?_, ?_⟩
      · rw [Parser.eatKeyword_eq_ok hnot, Parser.eatKeyword_eq_ok hnull, List.append_assoc]
        rfl
      · exact fun floor ts hfloor hw => .isNull hfloor hw
  | false =>
    obtain ⟨distinct, c₃, -, hrest⟩ := bind_eq_ok hrest
    cases distinct with
    | true =>
      obtain ⟨_, c₄, -, hrest⟩ := bind_eq_ok hrest
      obtain ⟨right, c₅, -, hrest⟩ := bind_eq_ok hrest
      cases hrest
      cases he
    | false => cases hrest

theorem fromList {c d : Cursor} {span : Span} {left e : Expr} {negated : Bool}
    (h : inPredicate.fromList g span left negated c = .ok (e, d)) (he : e.LooksBasic) :
    left.LooksBasic ∧ (∀ op, e.admits op = true) ∧
      (c.Holds Kind.Quoted → ∃ us, c.kinds = us ++ d.kinds ∧
        Predicates left e (given negated (.keyword .NOT) ++ .keyword .IN :: us)) := by
  obtain ⟨items, c₁, hitems, hrest⟩ := bind_eq_ok h
  unfold Expr.buildInList at hrest
  split at hrest
  · cases hrest
  · cases hrest
    cases he with
    | inList he hne hall =>
      refine ⟨he, fun _ => rfl, fun hc => ?_⟩
      obtain ⟨hbasic, us, hus, hbare, hbalanced⟩ := hg.parenExprs hc hitems hall hne
      exact ⟨parens us, hus, fun floor ts hfloor hw =>
        .inList hfloor hw (.inList hw.isBasic hne hbasic) hbare hbalanced⟩

theorem inPredicate {c d : Cursor} {span : Span} {left e : Expr} {negated : Bool}
    (h : g.inPredicate span left negated c = .ok (e, d)) (he : e.LooksBasic) :
    left.LooksBasic ∧ (∀ op, e.admits op = true) ∧
      (c.Holds Kind.Quoted → ∃ us, c.kinds = us ++ d.kinds ∧
        Predicates left e (given negated (.keyword .NOT) ++ .keyword .IN :: us)) := by
  obtain ⟨query, c₁, hquery, hrest⟩ := bind_eq_ok h
  cases hquery
  split at hrest
  · obtain ⟨r, c₂, hr, hrest⟩ := bind_eq_ok hrest
    obtain ⟨q, rfl, -⟩ | ⟨error, rfl, -, rfl⟩ := Parser.attempt_eq_ok hr
    · cases hrest
      cases he
    · exact hg.fromList hrest he
  · exact hg.fromList hrest he

theorem predicate {c d : Cursor} {left e : Expr} (h : g.predicate left c = .ok (e, d))
    (he : e.LooksBasic) : left.LooksBasic ∧ (∀ op, e.admits op = true) ∧
      (c.Holds Kind.Quoted → ∃ us, us ≠ [] ∧ c.kinds = us ++ d.kinds ∧ Predicates left e us) := by
  obtain ⟨span, c₁, hspan, hrest⟩ := bind_eq_ok h
  cases hspan
  obtain ⟨b, c₂, his, hrest⟩ := bind_eq_ok hrest
  cases b with
  | true =>
    obtain ⟨hleft, hadmits, us, hus, hpredicates⟩ := isPredicate hrest he
    refine ⟨hleft, hadmits, fun _ => ⟨.keyword .IS :: us, nofun, ?_, hpredicates⟩⟩
    rw [Parser.eatKeyword_eq_ok his, hus]
    rfl
  | false =>
    obtain ⟨negated, c₃, hnot, hrest⟩ := bind_eq_ok hrest
    obtain ⟨b, c₄, hlike, hrest⟩ := bind_eq_ok hrest
    cases b with
    | true =>
      obtain ⟨pattern, c₅, -, hrest⟩ := bind_eq_ok hrest
      obtain ⟨escaped, c₆, -, hrest⟩ := bind_eq_ok hrest
      obtain ⟨escape, c₇, -, hrest⟩ := bind_eq_ok hrest
      cases hrest
      cases he
    | false =>
    obtain ⟨b, c₅, hbetween, hrest⟩ := bind_eq_ok hrest
    cases b with
    | true =>
      obtain ⟨low, c₆, -, hrest⟩ := bind_eq_ok hrest
      obtain ⟨_, c₇, -, hrest⟩ := bind_eq_ok hrest
      obtain ⟨high, c₈, -, hrest⟩ := bind_eq_ok hrest
      cases hrest
      cases he
    | false =>
    obtain ⟨b, c₆, hin, hrest⟩ := bind_eq_ok hrest
    cases b with
    | true =>
      have hkinds : c.kinds = (given negated (.keyword .NOT) ++ [.keyword .IN]) ++ c₆.kinds := by
        rw [Parser.eatKeyword_eq_ok his, Parser.eatKeyword_eq_ok hnot,
          Parser.eatKeyword_eq_ok hlike, Parser.eatKeyword_eq_ok hbetween,
          Parser.eatKeyword_eq_ok hin]
        simp [given]
      obtain ⟨hleft, hadmits, hlist⟩ := hg.inPredicate hrest he
      refine ⟨hleft, hadmits, fun hc => ?_⟩
      obtain ⟨us, hus, hpredicates⟩ := hlist (hc.of_append hkinds)
      refine ⟨given negated (.keyword .NOT) ++ .keyword .IN :: us, by simp, ?_, hpredicates⟩
      rw [hkinds, hus]
      simp
    | false => cases hrest

/-- What one more operator or predicate reads, and what it makes of the expression so far. -/
theorem extend_some {c d : Cursor} {left right : Operand}
    (h : g.extend floor left c = .ok (some right, d)) (hright : right.expr.LooksBasic) :
    left.expr.LooksBasic ∧ (c.Holds Kind.Quoted → ∃ us, us ≠ [] ∧ c.kinds = us ++ d.kinds ∧
      ∀ ts, Reached floor c.kind ts left → Reached floor d.kind (ts ++ us) right) := by
  cases g.extended_of_eq_ok h with
  | access hnot => exact absurd hright hnot
  | @operator op r d hop hfloor hcompared hr =>
    cases hright with
    | binary hl hbasic =>
      refine ⟨hl, fun hc => ?_⟩
      obtain ⟨us, hus, hw, hend⟩ := hg _ _ _ _ hc.advance hr hbasic
      refine ⟨op.token :: us, List.cons_ne_nil _ _, ?_, fun ts hts => ?_⟩
      · rw [Cursor.kinds_eq_cons hop op.token_ne_endOfInput, hus, List.cons_append]
      · rw [hop] at hts
        refine .bare (hts.binary hfloor hcompared hw) (fun op' hop' => ?_) fun hplain => ?_
        · exact decide_eq_true (Nat.le_of_lt_succ (hend op' hop'))
        · rw [Bool.or_eq_false_iff, decide_eq_false_iff_not, BinaryOp.associativity] at hplain
          intro htier
          exact hplain.2 (if_pos htier)
  | predicate hfloor he =>
    obtain ⟨hleft, hadmits, hread⟩ := hg.predicate he hright
    refine ⟨hleft, fun hc => ?_⟩
    obtain ⟨us, hne, hus, hpredicates⟩ := hread hc
    refine ⟨us, hne, hus, fun ts hts => ?_⟩
    refine .bare (hpredicates _ _ hfloor hts.written) (fun op _ => hadmits op) ?_
    rintro ⟨⟩

end Faithful

namespace Faithful

variable {g : Grammar}

theorem deepen (hg : g.Faithful) : g.deepen.Faithful := by
  intro floor c e d hc h he
  obtain ⟨first, c₁, hfirst, hrest⟩ := bind_eq_ok h
  obtain ⟨last, c₂, hlast, hrest⟩ := bind_eq_ok hrest
  cases hrest
  obtain ⟨c₃, c₄, hget, hlast⟩ := bind_eq_ok hlast
  cases hget
  -- Each step reads a token, so the bound of the loop is reached at the end of the text only.
  have hstep : ∀ n (left : Operand) c' right c'',
      (left.expr.LooksBasic → ∃ ts, c.kinds = ts ++ c'.kinds ∧ Reached floor c'.kind ts left ∧
        c'.kinds.length ≤ n + 1) →
      g.extend floor left c' = .ok (some right, c'') →
      right.expr.LooksBasic → ∃ ts, c.kinds = ts ++ c''.kinds ∧ Reached floor c''.kind ts right ∧
        c''.kinds.length ≤ n := by
    intro n left c' right c'' hleft hextend hright
    obtain ⟨hlooks, hread⟩ := hg.extend_some hextend hright
    obtain ⟨ts, hts, hw, hlen⟩ := hleft hlooks
    obtain ⟨us, hne, hus, hreached⟩ := hread (hc.of_append hts)
    refine ⟨ts ++ us, by rw [hts, hus, List.append_assoc], hreached ts hw, ?_⟩
    have hpos := List.length_pos_of_ne_nil hne
    rw [hus, List.length_append] at hlen
    omega
  have hstart : first.LooksBasic → ∃ ts, c.kinds = ts ++ c₁.kinds ∧
      Reached floor c₁.kind ts ⟨first, false⟩ ∧ c₁.kinds.length ≤ c₁.ahead.length := by
    intro hbasic
    obtain ⟨ts, hts, hw⟩ := hg.signed c first c₁ hc hfirst hbasic
    exact ⟨ts, hts, hw, Nat.le_of_eq c₁.length_kinds⟩
  obtain hend | ⟨n, c', hleft, hextend⟩ := Parser.iterateFor_eq_ok (I := fun n left c' =>
    left.expr.LooksBasic → ∃ ts, c.kinds = ts ++ c'.kinds ∧ Reached floor c'.kind ts left ∧
      c'.kinds.length ≤ n) hstep hlast hstart
  · obtain ⟨ts, hts, hw, hlen⟩ := hend he
    have hnil : d.kinds = [] := List.eq_nil_of_length_eq_zero (Nat.le_zero.1 hlen)
    refine ⟨ts, hts, hw.written, fun op hop => ?_⟩
    rw [d.kind_eq, hnil] at hop
    cases hop
  · cases g.extended_of_eq_ok hextend with
    | stop hfollows =>
      obtain ⟨ts, hts, hw, -⟩ := hleft he
      exact ⟨ts, hts, hw.written, hfollows⟩

theorem ofDepth (depth : Nat) : (ofDepth depth).Faithful := by
  induction depth with
  | zero => nofun
  | succ depth ih => exact ih.deepen

end Faithful

end Grammar

/-! ### Whole texts -/

/-- A text that is read as an operator tree is one way to write it, perhaps before a semicolon. -/
theorem Expr.written_of_parse {text : String} {e : Expr}
    (hc : (Cursor.ofText text).Holds Kind.Quoted) (h : Expr.parse text = .ok e)
    (he : e.LooksBasic) : ∃ ts us, (Cursor.ofText text).kinds = ts ++ us ∧ Written 0 ts e ∧
      (us = [] ∨ us = [.symbol .semicolon]) := by
  obtain ⟨c, d, ha, hfinish⟩ := Parser.run_eq_ok h
  obtain ⟨ts, hts, hw, -⟩ := Grammar.Faithful.ofDepth _ _ _ _ _ hc ha he
  have hfound : c.Holds Kind.Found := (Cursor.ofText_found text).of_append hts
  exact ⟨ts, c.kinds, hts, hw, Parser.finish_eq_ok hfinish hfound⟩

end Sql
