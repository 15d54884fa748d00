import Sql.Proofs.EchoTypes
import Sql.Proofs.Operands

/-! Plain texts that begin alike: parsing expressions. -/
namespace Sql

open Token (Kind)
open Sql.Parser (Echoes EchoesFrom Refuses Strides)
open Grammar.Reads (startsInterval intervalAhead_apply fromWord_eq signed_eq)

/-- The parsers of a grammar do the same in plain texts that begin alike, and none reads a word that
opens a query in place of a relation or an expression. -/
structure Grammar.Echoing (g : Grammar) : Prop where
  query : Echoes g.query g.query
  relation : Echoes g.relation g.relation
  exprFrom (floor : Nat) : Echoes (g.exprFrom floor) (g.exprFrom floor)
  type : Echoes g.type g.type
  refusesRelation {c : Cursor} : c.kind.isQueryWord = true → Refuses g.relation c
  refusesExpr {c : Cursor} (floor : Nat) : c.kind.isQueryWord = true → Refuses (g.exprFrom floor) c

namespace Grammar

theorem echoes_quantifier : Echoes quantifier quantifier := by
  refine .branch (.eatKeyword _) (.pure _) ?_
  exact .branch (.eatKeyword _) (.pure _) (.pure _)

theorem echoes_nullOrder : Echoes nullOrder nullOrder := by
  refine .branch (.eatWord _) ?_ (.pure _)
  refine .branch (.eatWord _) (.pure _) ?_
  exact .branch (.eatWord _) (.pure _) .unexpected

theorem echoes_unitsAhead : Echoes unitsAhead unitsAhead := Echoes.peek.bind fun _ => .pure _

theorem echoes_frameUnits : Echoes frameUnits frameUnits := by
  refine .branch (.eatWord _) (.pure _) ?_
  refine .branch (.eatWord _) (.pure _) ?_
  exact .branch (.eatWord _) (.pure _) .unexpected

theorem echoes_baseWindow : Echoes baseWindow baseWindow := by
  refine (Echoes.checkWord _).bind fun partitioned => Echoes.peekAt_one.bind fun next => ?_
  refine (Echoes.check _).bind fun ordered => echoes_unitsAhead.bind fun framed => ?_
  exact .ite (.pure _) (Echoes.peek.bind fun k => Echoes.ident.optional)

theorem echoes_taking (e : Expr) : Echoes (taking e) (taking e) :=
  Echoes.advance.bind fun _ => .pure e

theorem echoes_placeholder : Echoes placeholder placeholder := by
  refine Echoes.advance.bind fun _ => ?_
  intro n s t hst i c d hc
  let marked (c : Cursor) : Cursor := { c with parameters := c.parameters + 1 }
  refine ⟨i, marked d, Nat.le_refl _, trivial, ⟨⟨hc.behind.ahead, hc.behind.total, hc.behind.le⟩,
    fun hi => ⟨(hc.other hi).ahead, (hc.other hi).total, (hc.other hi).le⟩, fun hi => ?_⟩,
    fun hi => ?_⟩
  · exact congrArg (· + 1) (hc.parameters hi)
  · change Except.ok (Expr.parameter (d.parameters + 1), marked d) = _
    rw [hc.parameters hi]

/-- What is refused is refused in both texts. -/
theorem refuseCompared_bind {α : Type} {n i : Nat} {s t c d : Cursor} {p q : Parser α}
    {Q : α → Nat → Prop} (left : Operand) (hc : Cursor.Beside n s t i c d)
    (h : EchoesFrom n s t i c d p q Q) :
    EchoesFrom n s t i c d (do refuseCompared left; p) (do refuseCompared left; q) Q := by
  unfold refuseCompared
  cases left.compared
  · exact h
  · exact .bind (Q := fun _ _ => False) (.unexpected hc) fun _ _ _ _ _ h => h.elim

theorem echoes_predicateAhead : Echoes predicateAhead predicateAhead := by
  refine Echoes.peek.bind fun k => ?_
  split
  case h_5 =>
    refine Echoes.peekAt_one.bind fun k => ?_
    split <;> exact .pure _
  all_goals exact .pure _

/-- The rest of an interval literal after its first word. -/
def intervalTail (span : Span) : Parser Expr := do
  let negative ← Parser.eatSymbol .minus
  unless negative do let _ ← Parser.eatSymbol .plus
  match ← Parser.peek with
  | .string text =>
    Parser.advance
    let start ← Parser.intervalField
    let stop ← Parser.optional (← Parser.eatWord "TO") Parser.intervalField
    Parser.valid span (Expr.buildInterval text negative start stop)
  | _ => Parser.unexpected "interval string"

/-- What the name at the start of an operand is: that of a column, of a call, or of a relation all
of whose columns are meant. -/
def nameTail (g : Grammar) (n : Name) : Parser Expr := do
  if ← Parser.check (.symbol .leftParen) then g.call n
  else if (← Parser.check (.symbol .dot)) && (← Parser.peekAt 1) == .symbol .star then
    Parser.advance
    Parser.advance
    return .star (some n)
  else if n.isBare then return .call (.plain n [])
  else return .column n

theorem echoes_intervalTail (x y : Span) : Echoes (intervalTail x) (intervalTail y) := by
  refine (Echoes.eatSymbol _).bind fun negative => .ite ?_ ((Echoes.eatSymbol _).bind fun _ => ?_)
  all_goals
    refine Echoes.peek.bind fun k => ?_
    split
    · refine Echoes.advance.bind fun _ => Echoes.intervalField.bind fun start => ?_
      refine (Echoes.eatWord _).bind fun more => Echoes.intervalField.optional.bind fun stop => ?_
      exact .valid x y _
    · exact .unexpected

theorem echoes_interval : Echoes interval interval :=
  .here fun x y => Echoes.advance.bind fun _ => echoes_intervalTail x y

/-- Two tokens behind the next one decide whether an interval is ahead. -/
theorem startsInterval_congr {c d : Cursor} (h₁ : d.kindAt 1 = c.kindAt 1)
    (h₂ : d.kindAt 2 = c.kindAt 2) : startsInterval d.kinds = startsInterval c.kinds := by
  rw [Cursor.kindAt_eq, Cursor.kindAt_eq] at h₁ h₂
  rw [startsInterval, startsInterval, h₁, h₂]

/-- Where the token behind the next one does not decide it, that is a sign. -/
theorem sign_of_startsInterval_ne {c d : Cursor} (h₁ : d.kindAt 1 = c.kindAt 1)
    (h : startsInterval d.kinds ≠ startsInterval c.kinds) :
    c.kindAt 1 = .symbol .minus ∨ c.kindAt 1 = .symbol .plus := by
  rw [Cursor.kindAt_eq, Cursor.kindAt_eq] at h₁
  rw [startsInterval, startsInterval, h₁] at h
  rw [Cursor.kindAt_eq]
  generalize c.kinds.getD 1 .endOfInput = k at h
  cases k with
  | symbol m =>
    cases m with
    | minus => exact .inl rfl
    | plus => exact .inr rfl
    | _ => exact absurd rfl h
  | _ => exact absurd rfl h

namespace Echoing

variable {g : Grammar} (hg : g.Echoing)

include hg

/-! ### Lists and clauses -/

theorem expr : Echoes g.expr g.expr := hg.exprFrom _

theorem operand : Echoes g.operand g.operand := hg.exprFrom _

theorem exprs : Echoes g.exprs g.exprs := hg.expr.commaList

theorem exprsUntil (closing : Symbol) : Echoes (g.exprsUntil closing) (g.exprsUntil closing) := by
  refine .branch (.eatSymbol _) (.pure _) ?_
  exact hg.exprs.bind fun es => (Echoes.expectSymbol _).bind fun _ => .pure es

theorem parenExprs : Echoes g.parenExprs g.parenExprs :=
  (Echoes.expectSymbol _).bind fun _ => hg.exprsUntil _

theorem parenQuery : Echoes g.parenQuery g.parenQuery := hg.query.parens

theorem orderTerm : Echoes g.orderTerm g.orderTerm := by
  refine hg.expr.bind fun e => (Echoes.eatWord _).bind fun descending => ?_
  have hnulls : Echoes (do return (⟨e, descending, ← nullOrder⟩ : OrderTerm))
      (do return (⟨e, descending, ← nullOrder⟩ : OrderTerm)) :=
    echoes_nullOrder.bind fun nulls => .pure _
  exact .ite hnulls ((Echoes.eatWord _).bind fun _ => hnulls)

theorem optionalOrder : Echoes g.optionalOrder g.optionalOrder := by
  refine .branch (.eatKeyword _) ?_ (.pure _)
  exact (Echoes.expectKeyword _).bind fun _ => hg.orderTerm.commaList

/-! ### Windows -/

theorem bound : Echoes g.bound g.bound := by
  refine .branch (.eatWord _) ?_ ?_
  · refine .branch (.eatWord _) (.pure _) ?_
    exact .branch (.eatWord _) (.pure _) .unexpected
  refine (Echoes.checkWord _).bind fun current => Echoes.peekAt_one.bind fun next => .ite ?_ ?_
  · exact Echoes.advance.bind fun _ => Echoes.advance.bind fun _ => .pure _
  refine hg.operand.bind fun offset => .branch (.eatWord _) (.pure _) ?_
  exact .branch (.eatWord _) (.pure _) .unexpected

theorem frame : Echoes g.frame g.frame := by
  refine echoes_frameUnits.bind fun units => .branch (.eatKeyword _) ?_ ?_
  · refine hg.bound.bind fun start => (Echoes.expectKeyword _).bind fun _ => ?_
    exact hg.bound.bind fun stop => .pure _
  · exact hg.bound.bind fun start => .pure _

theorem partition : Echoes g.partition g.partition := by
  refine .branch (.eatWord _) ?_ (.pure _)
  exact (Echoes.expectKeyword _).bind fun _ => hg.exprs

theorem window : Echoes g.window g.window := by
  refine echoes_baseWindow.bind fun base => hg.partition.bind fun partition => ?_
  refine hg.optionalOrder.bind fun order => echoes_unitsAhead.bind fun framed => ?_
  exact hg.frame.optional.bind fun frame => .pure _

theorem windowTarget : Echoes g.windowTarget g.windowTarget := by
  refine .branch (.eatSymbol _) ?_ (Echoes.ident.bind fun x => .pure _)
  exact hg.window.bind fun w => (Echoes.expectSymbol _).bind fun _ => .pure _

theorem namedWindow : Echoes g.namedWindow g.namedWindow := by
  refine Echoes.ident.bind fun x => (Echoes.expectKeyword _).bind fun _ => ?_
  exact hg.window.parens.bind fun w => .pure _

/-! ### Operands -/

theorem callTail (n : Name) (quantifier : Option Quantifier) (args : List Expr)
    (order : List OrderTerm) :
    Echoes (g.callTail n quantifier args order) (g.callTail n quantifier args order) := by
  refine (Echoes.checkWord _).bind fun filtered => Echoes.peekAt_one.bind fun next => ?_
  refine (Echoes.optional ?_).bind fun filter => ?_
  · refine Echoes.advance.bind fun _ => Echoes.advance.bind fun _ => ?_
    refine (Echoes.expectKeyword _).bind fun _ => hg.expr.bind fun condition => ?_
    exact (Echoes.expectSymbol _).bind fun _ => .pure _
  have hover : ∀ nulls, Echoes
      (do
        let window ← Parser.optional (← Parser.eatWord "OVER") g.windowTarget
        return (.call ⟨n, quantifier, args, order, filter, nulls, window⟩ : Expr))
      (do
        let window ← Parser.optional (← Parser.eatWord "OVER") g.windowTarget
        return (.call ⟨n, quantifier, args, order, filter, nulls, window⟩ : Expr)) := by
    intro nulls
    refine (Echoes.eatWord _).bind fun windowed => ?_
    exact hg.windowTarget.optional.bind fun window => .pure _
  refine Echoes.peekAt_one.bind fun next => .ite ?_ (hover none)
  refine .branch (.eatWord _) (Echoes.advance.bind fun _ => hover _) ?_
  exact .branch (.eatWord _) (Echoes.advance.bind fun _ => hover _) (hover none)

theorem call (n : Name) : Echoes (g.call n) (g.call n) := by
  refine (Echoes.expectSymbol _).bind fun _ =>
    .branch (.eatSymbol _) (hg.callTail n none [] []) ?_
  refine echoes_quantifier.bind fun quantifier => hg.exprs.bind fun args => ?_
  refine hg.optionalOrder.bind fun order => (Echoes.expectSymbol _).bind fun _ => ?_
  exact hg.callTail n quantifier args order

theorem lambdaBody (params : List Ident) : Echoes (g.lambdaBody params) (g.lambdaBody params) :=
  .here fun x y => (Echoes.expectSymbol _).bind fun _ => hg.expr.bind fun _ => .valid x y _

theorem grouped : Echoes g.grouped g.grouped := by
  refine Echoes.parens (hg.expr.bind fun first => .branch (.eatSymbol _) ?_ (.pure _))
  exact hg.exprs.bind fun rest => .pure _

/-- A query in parentheses is no operand in parentheses. -/
theorem grouped_error {c : Cursor} (ho : c.OpensQuery) : ∃ e, g.grouped c = .error e := by
  obtain ⟨e, he, -⟩ := (hg.refusesExpr _ ho.advance).bind.bind.behind ho.paren
  exact ⟨e, he⟩

/-- The error of a query is kept, as it cannot be an operand either. -/
theorem parenthesized (floor : Nat) : Echoes (g.parenthesized floor) (g.parenthesized floor) := by
  refine Echoes.parametersAhead.bind fun lambda => .ite ?_ ?_
  · exact Echoes.identList.bind fun params => hg.lambdaBody params
  refine .queryAhead (fun {n i s t c d} hst hc ho => ?_) hg.grouped
  have hquery := hg.parenQuery hst hc
  refine hquery.attempt hst (fun q => .pure _) fun e he => ?_
  obtain ⟨e', he'⟩ := hg.grouped_error ho
  refine hquery.error he (Parser.orFailWith_error he') fun hi e₁ he₁ => ?_
  have ho' : d.OpensQuery := by
    refine ⟨?_, ?_⟩
    · rw [hst.kind hc hi, ho.paren]
    · rw [hst.kindAt hc hi (Nat.le_refl _), ho.word]
  obtain ⟨e₂, he₂⟩ := hg.grouped_error ho'
  exact ⟨e₁, (Parser.bind_ok (Parser.attempt_error he₁)).trans (Parser.orFailWith_error he₂)⟩

/-- A query in parentheses that is wrong as an operand is wrong as it is by itself. -/
theorem parenthesized_error {c : Cursor} {e : ParseError} (ho : c.OpensQuery)
    (he : g.parenQuery c = .error e) (floor : Nat) : g.parenthesized floor c = .error e := by
  obtain ⟨e', he'⟩ := hg.grouped_error ho
  unfold Grammar.parenthesized
  rw [Parser.bind_ok ho.parametersAhead, Bool.and_false]
  rw [if_neg Bool.false_ne_true, Parser.bind_ok ho.queryAhead, if_pos rfl]
  rw [Parser.bind_ok (Parser.attempt_error he)]
  exact Parser.orFailWith_error he'

theorem whenBranch (branches : List (Expr × Expr)) :
    Strides (g.whenBranch branches) (g.whenBranch branches) := by
  refine .branch ?_ .decline
  refine hg.expr.bind fun condition => (Echoes.expectKeyword _).bind fun _ => ?_
  exact hg.expr.bind fun value => .pure _

theorem caseWhen : Echoes g.caseWhen g.caseWhen := by
  refine .here fun x y => (Echoes.expectKeyword _).bind fun _ => ?_
  refine (Echoes.check _).bind fun plain => hg.expr.optional.bind fun operand => ?_
  refine (Strides.iterate hg.whenBranch _).bind fun branches => .ite .unexpected_bind ?_
  refine (Echoes.eatKeyword _).bind fun more => hg.expr.optional.bind fun otherwise => ?_
  exact (Echoes.expectKeyword _).bind fun _ => .valid x y _

theorem cast (safe : Bool) : Echoes (g.cast safe) (g.cast safe) := by
  refine Echoes.advance.bind fun _ => Echoes.parens (hg.expr.bind fun e => ?_)
  exact (Echoes.expectKeyword _).bind fun _ => hg.type.bind fun t => .pure _

theorem nameTail (x : Name) : Echoes (g.nameTail x) (g.nameTail x) := by
  refine .branch (.check _) (hg.call x) ?_
  refine (Echoes.check _).bind fun dot => Echoes.peekAt_one.bind fun next => .ite ?_ ?_
  · exact Echoes.advance.bind fun _ => Echoes.advance.bind fun _ => .pure _
  · exact .ite (.pure _) (.pure _)

theorem named : Echoes g.named g.named := Echoes.name.bind hg.nameTail

/-- Before a sign the word has been read, whether an interval starts there or a column. -/
theorem fromWord_of_sign {c : Cursor} {x : Ident} (hk : c.kind = .ident x)
    (hsign : c.kindAt 1 = .symbol .minus ∨ c.kindAt 1 = .symbol .plus) :
    ∃ p : Parser Expr, Echoes p p ∧ g.fromWord x.text c = p c.advance := by
  have hc := Cursor.At.of_kind hk nofun
  have hone : Kind.next c.advance.kinds = c.kindAt 1 := by
    rw [← Cursor.kind_eq, Cursor.kind_advance]
  by_cases hinterval : x.text.toUpper = "INTERVAL" ∧ startsInterval c.kinds = true
  · refine ⟨intervalTail c.token.span, echoes_intervalTail _ _, ?_⟩
    have hahead : intervalAhead c = .ok (true, c) := by
      rw [intervalAhead_apply ⟨rfl, rfl⟩, hinterval.2]
    unfold fromWord
    rw [Parser.bind_ok (Parser.peekAt_apply hc 1), Parser.bind_ok hahead, hinterval.1]
    rfl
  · refine ⟨do g.nameTail (← Parser.iterate Parser.namePart (.single x)),
      (Strides.iterate Echoes.namePart _).bind hg.nameTail, ?_⟩
    have hnamed : g.fromWord x.text c = g.named c := by
      refine fromWord_eq hc ?_ ?_ ?_ ?_
      · intro hword
        rw [← hc.kinds]
        exact Bool.eq_false_iff.2 fun hstarts => hinterval ⟨hword, hstarts⟩
      · rcases hsign with hsign | hsign <;> simp [hone, hsign]
      · rcases hsign with hsign | hsign <;> simp [hone, hsign]
      · rcases hsign with hsign | hsign <;> simp [hone, hsign, Kind.isString]
    calc g.fromWord x.text c = g.named c := hnamed
      _ = (do g.nameTail (← Parser.iterate Parser.namePart (.single (← Parser.ident)))) c := by
          rw [← bind_assoc]
          rfl
      _ = _ := Parser.bind_ok (Parser.ident_apply hc)

theorem fromWord {n i : Nat} {s t c d : Cursor} {x : Ident} (hst : Cursor.Agree n s t)
    (hc : Cursor.Beside n s t i c d) (hk : c.kind = .ident x) :
    EchoesFrom n s t i c d (g.fromWord x.text) (g.fromWord x.text) fun _ _ => True := by
  refine .peekAt_one hst hc ?_
  by_cases hsame : i + 1 < n → startsInterval d.kinds = startsInterval c.kinds
  · refine .look (intervalAhead_apply ⟨rfl, rfl⟩) (fun hi => ?_) ?_
    · rw [intervalAhead_apply ⟨rfl, rfl⟩, hsame hi]
    refine Echoes.ite echoes_interval (.ite ?_ (.ite ?_ (.ite (hg.cast true) ?_))) hst hc
    · refine Echoes.advance.bind fun _ => Echoes.advance.bind fun _ => ?_
      exact (hg.exprsUntil _).bind fun items => .pure _
    · refine Echoes.advance.bind fun _ => Echoes.advance.bind fun _ => ?_
      exact (hg.exprsUntil _).bind fun items => .pure _
    · split
      · exact Echoes.advance.bind fun _ => Echoes.advance.bind fun _ => .pure _
      · exact hg.named
  · -- One text may go on with an interval and the other with a column, behind the same word.
    obtain ⟨hi, hdiffer⟩ := Classical.not_imp.1 hsame
    have hone := hst.kindAt hc hi (Nat.le_refl 1)
    have hlast : ¬ i + 1 + 1 < n := by
      intro hn
      refine hdiffer (startsInterval_congr hone ?_)
      rw [(hc.other hi).kindAt, hc.behind.kindAt, hst.kinds (i + 2) hn]
    have hne : c.kind ≠ .endOfInput := by
      rw [hk]
      nofun
    obtain ⟨p, hp, hword⟩ := hg.fromWord_of_sign hk (sign_of_startsInterval_ne hone hdiffer)
    exact .after (Nat.le_succ i) hword (fun hn => absurd hn hlast) (hp hst (hc.advance hst hne))

theorem fromIdent {n i : Nat} {s t c d : Cursor} {x : Ident} (hst : Cursor.Agree n s t)
    (hc : Cursor.Beside n s t i c d) (hk : c.kind = .ident x) (floor : Nat) :
    EchoesFrom n s t i c d (g.fromIdent floor x) (g.fromIdent floor x) fun _ _ => True := by
  refine .peekAt_one hst hc ?_
  split
  · exact Echoes.bind .advance (fun _ => hg.lambdaBody [x]) hst hc
  split
  · exact hg.named hst hc
  · exact hg.fromWord hst hc hk

theorem primary (floor : Nat) : Echoes (g.primary floor) (g.primary floor) := by
  intro n s t hst i c d hc
  refine .peek hst hc ?_
  cases hk : c.kind with
  | symbol m =>
    cases m with
    | question => exact echoes_placeholder hst hc
    | star => exact echoes_taking _ hst hc
    | leftParen => exact hg.parenthesized floor hst hc
    | _ => exact .unexpected hc
  | keyword w =>
    cases w with
    | NULL | TRUE | FALSE => exact echoes_taking _ hst hc
    | CASE => exact hg.caseWhen hst hc
    | CAST => exact hg.cast false hst hc
    | EXISTS => exact Echoes.bind .advance (fun _ => hg.parenQuery.bind fun q => .pure _) hst hc
    | _ => exact .unexpected hc
  | ident x => exact hg.fromIdent hst hc hk floor
  | endOfInput | error _ => exact .unexpected hc
  | _ => exact echoes_taking _ hst hc

theorem signed (floor : Nat) : Echoes (g.signed floor) (g.signed floor) := by
  refine Echoes.peek.bind fun k => ?_
  split
  · exact Echoes.advance.bind fun _ => (hg.exprFrom _).bind fun e => .pure _
  · exact hg.primary floor

/-! ### Predicates -/

theorem isPredicate (left : Expr) : Echoes (g.isPredicate left) (g.isPredicate left) := by
  refine (Echoes.eatKeyword _).bind fun negated => .branch (.eatKeyword _) (.pure _) ?_
  refine .branch (.eatKeyword _) ?_ .unexpected
  exact (Echoes.expectKeyword _).bind fun _ => hg.operand.bind fun right => .pure _

theorem refuses_exprsUntil {c : Cursor} {closing : Symbol} (hword : c.kind.isQueryWord = true) :
    Refuses (g.exprsUntil closing) c := by
  have hother : c.kind ≠ .symbol closing := by
    intro hk
    rw [hk] at hword
    cases hword
  have heat : Parser.eatSymbol closing c = .ok (false, c) :=
    Parser.eat_of_ne ⟨rfl, rfl⟩ (by rwa [← Cursor.kind_eq])
  have hexprs : Refuses g.exprs c := (hg.refusesExpr _ hword).bind
  exact (hexprs.bind).of_eq fun e he => (Parser.bind_ok heat).trans he

/-- If it is no query behind `IN`, the list fails at its first word. -/
theorem inPredicate (x y : Span) (left : Expr) (negated : Bool) :
    Echoes (g.inPredicate x left negated) (g.inPredicate y left negated) := by
  have hlist : Echoes (inPredicate.fromList g x left negated)
      (inPredicate.fromList g y left negated) := hg.parenExprs.bind fun items => .valid x y _
  refine .queryAhead (fun {n i s t c d} hst hc ho => ?_) hlist
  refine (hg.parenQuery hst hc).attempt hst (fun q => .pure _) fun e he => ?_
  refine .congr (p := do
    Parser.expectSymbol .leftParen
    let items ← g.exprsUntil .rightParen
    Parser.valid x (Expr.buildInList left items negated)) ?_ (fun _ => rfl)
    (.refusesWord hc.behind ho (hg.refuses_exprsUntil ho.advance).bind)
  exact congrFun (bind_assoc _ _ _) c

/-- What is wrong with a query behind `IN` is not told: the word that opens it is blamed. -/
theorem inPredicate_error {c : Cursor} {e : ParseError} (ho : c.OpensQuery)
    (he : g.parenQuery c = .error e) (span : Span) (left : Expr) (negated : Bool) :
    ∃ e', g.inPredicate span left negated c = .error e' ∧ e'.span = c.advance.token.span := by
  obtain ⟨e', he', hspan, -⟩ := (hg.refuses_exprsUntil ho.advance).behind ho.paren
  refine ⟨e', ?_, hspan⟩
  unfold Grammar.inPredicate
  rw [Parser.bind_ok ho.queryAhead, if_pos rfl, Parser.bind_ok (Parser.attempt_error he)]
  exact Parser.bind_error he'

theorem predicate (left : Expr) {n i : Nat} {s t c d : Cursor} (hst : Cursor.Agree n s t)
    (hc : Cursor.Beside n s t i c d) :
    EchoesFrom n s t i c d (g.predicate left) (g.predicate left) fun _ j => i < j := by
  refine .congr (Parser.bind_ok Parser.here_apply) (fun _ => Parser.bind_ok Parser.here_apply) ?_
  refine .branch hst hc (Nat.le_refl i) (hg.isPredicate left) fun {j c₁ d₁} hj hc₁ => ?_
  refine (EchoesFrom.eatKeyword hst hc₁ _).bind fun negated k c₂ d₂ hjk _ hc₂ => ?_
  refine .branch hst hc₂ (hj.trans hjk) ?_ fun {l c₃ d₃} hl hc₃ => ?_
  · refine hg.operand.bind fun pattern => (Echoes.eatWord _).bind fun escaped => ?_
    exact hg.operand.optional.bind fun escape => .pure _
  refine .branch hst hc₃ hl ?_ fun {m c₄ d₄} hm hc₄ => ?_
  · refine hg.operand.bind fun low => (Echoes.expectKeyword _).bind fun _ => ?_
    exact hg.operand.bind fun high => .pure _
  exact .branch hst hc₄ hm (hg.inPredicate _ _ left negated) fun _ hc₅ => .unexpected hc₅

/-! ### Operators -/

theorem extend (floor : Nat) (left : Operand) :
    Strides (g.extend floor left) (g.extend floor left) where
  echoes := by
    intro n s t hst i c d hc
    -- Every operator has a token of its own.
    have hread : ∀ {p q : Parser (Option Operand)}, c.kind ≠ .endOfInput → Echoes p q →
        EchoesFrom n s t i c d (do Parser.advance; p) (do Parser.advance; q)
          fun r j => r ≠ none → i < j :=
      fun hne h => (EchoesFrom.advance_bind hst hc hne h).mono fun _ _ _ hlt _ => hlt
    refine .peek hst hc ?_
    split
    · rename_i hbracket
      refine hread (by simp [beq_iff_eq.1 hbracket]) (hg.expr.bind fun index => ?_)
      exact (Echoes.expectSymbol _).bind fun _ => .pure _
    split
    · rename_i hdot
      exact hread (by simp [beq_iff_eq.1 hdot]) (Echoes.ident.bind fun x => .pure _)
    split
    · rename_i op hop
      have hne : c.kind ≠ .endOfInput := by
        intro hend
        rw [hend] at hop
        cases hop
      have hright := hread hne ((hg.exprFrom (op.tier.rank + 1)).bind fun right => .pure
        (some (⟨.binary left.expr op right, left.compared || op.associativity = .none⟩ : Operand)))
      split
      · exact .pure hc fun h => absurd rfl h
      split
      · exact refuseCompared_bind left hc hright
      · exact hright
    refine (echoes_predicateAhead hst hc).bind fun b j c' d' hij _ hc' => ?_
    split
    · split
      · exact .pure hc' fun h => absurd rfl h
      refine refuseCompared_bind left hc' ((hg.predicate left.expr hst hc').bind ?_)
      exact fun e l _ _ _ hlt hc'' => .pure hc'' fun _ => Nat.lt_of_le_of_lt hij hlt
    · exact .pure hc' fun h => absurd rfl h
  left := by
    rintro ⟨_, _, _⟩ rfl
    rfl
  right := by
    rintro ⟨_, _, _⟩ rfl
    rfl

theorem expression (floor : Nat) : Echoes (g.expression floor) (g.expression floor) := by
  refine (hg.signed floor).bind fun first => ?_
  exact (Strides.iterate (hg.extend floor) _).bind fun o => .pure _

end Echoing

/-- No expression starts with a word that opens a query. -/
theorem refuses_expression (g : Grammar) {c : Cursor} (floor : Nat)
    (hword : c.kind.isQueryWord = true) : Refuses (g.expression floor) c := by
  have hsigned : Refuses (g.signed floor) c := by
    refine .unexpected "expression" ?_
    rcases Kind.eq_of_isQueryWord hword with hk | hk | hk | hk
    all_goals
      have hc := Cursor.At.of_kind hk nofun
      exact (signed_eq hc rfl).trans (Parser.bind_ok (Parser.peek_apply hc))
  exact hsigned.bind

end Grammar

end Sql
