import Sql.Parse.Query
import Sql.Proofs.Leading
import Sql.Proofs.Types

/-! What a grammar reads, and what may stand behind it. -/
namespace Sql

open Token (Kind)
open Token.Kind (next parensIf given commas)

namespace Token.Kind

/-- Would the token be read as part of the operand in front of it? -/
def attaches : Kind → Bool
  | .symbol .leftParen | .symbol .arrow | .string _ => true
  | k => ["FILTER", "OVER", "IGNORE", "RESPECT", "TO"].any k.isWord

/-- Would the token extend an expression in which every operator binds at least as tightly as the
given rank? -/
def continues (floor : Nat) : Kind → Bool
  | .symbol .leftBracket | .symbol .dot => true
  | .keyword .IS | .keyword .NOT | .keyword .LIKE | .keyword .BETWEEN | .keyword .IN =>
    floor ≤ Tier.comparison.rank
  | .ident x => (Kind.ident x).isWord "ESCAPE" && floor ≤ Tier.comparison.rank
  | k => match k.binaryOp? with
    | some op => floor ≤ op.tier.rank
    | none => false

/-- Does an expression end in front of the token? -/
def ends (floor : Nat) (k : Kind) : Bool := !k.attaches && !k.continues floor

/-- Does an ordering term end in front of the token? -/
def endsTerm (k : Kind) : Bool := k.ends 0 && !(["DESC", "ASC", "NULLS"].any k.isWord)

/-- Does a relation that binds at least as tightly as the tier end in front of the token? -/
def endsTier (tier : Relation.Tier) : Kind → Bool
  | .symbol .dot | .keyword .WITH => false
  | .symbol .leftParen | .ident _ | .keyword .AS => Relation.Tier.renamed.rank < tier.rank
  | .keyword .TABLESAMPLE => Relation.Tier.sampled.rank < tier.rank
  | .keyword .CROSS | .keyword .NATURAL | .keyword .JOIN | .keyword .INNER | .keyword .LEFT
  | .keyword .RIGHT | .keyword .FULL => Relation.Tier.join.rank < tier.rank
  | _ => true

/-- Does a relation end in front of the token? -/
def endsRelation (k : Kind) : Bool := k.ends 0 && k.endsTier .join

/-- Does a query end in front of the token? -/
def endsQuery : Kind → Bool
  | .symbol .rightParen | .endOfInput => true
  | _ => false

/-- Can a query start with the token? -/
def opensQuery : Kind → Bool
  | .symbol .leftParen => true
  | .keyword .SELECT | .keyword .WITH | .keyword .VALUES | .keyword .TABLE => true
  | _ => false

theorem continues_mono {k : Kind} {low high : Nat} (h : k.continues low = false)
    (hl : low ≤ high) : k.continues high = false := by
  have hle : ∀ r : Nat, decide (low ≤ r) = false → decide (high ≤ r) = false := by
    intro r hr
    simp only [decide_eq_false_iff_not] at *
    omega
  unfold continues at *
  split at h
  · cases h
  · cases h
  case h_8 =>
    rw [Bool.and_eq_false_iff] at h ⊢
    exact h.imp id (hle _)
  case h_9 =>
    split at h
    · exact hle _ h
    · rfl
  all_goals exact hle _ h

theorem ends_mono {k : Kind} {low high : Nat} (h : k.ends low = true) (hl : low ≤ high) :
    k.ends high = true := by
  unfold ends at *
  simp only [Bool.and_eq_true, Bool.not_eq_true'] at *
  exact ⟨h.1, continues_mono h.2 hl⟩

theorem ends_word {w : String} {floor : Nat} (h : (word w).attaches = false)
    (he : (word w).isWord "ESCAPE" = false) : (word w).ends floor = true := by
  simp [ends, h, continues, he]

theorem ends_of_endsTerm {k : Kind} (h : k.endsTerm = true) : k.ends 0 = true := by
  unfold endsTerm at h
  simp_all

theorem endsTier_mono {k : Kind} {low high : Relation.Tier} (h : k.endsTier low = true)
    (hl : low.rank ≤ high.rank) : k.endsTier high = true := by
  have hlt : ∀ r : Nat, decide (r < low.rank) = true → decide (r < high.rank) = true := by
    intro r hr
    simp only [decide_eq_true_eq] at *
    omega
  unfold endsTier at *
  split at h
  · cases h
  · cases h
  case h_14 => rfl
  all_goals exact hlt _ h

theorem isIdent_of_endsTier {k : Kind} (h : k.endsTier .renamed = true) : k.isIdent = false := by
  cases k with
  | ident => cases h
  | _ => rfl

end Token.Kind

/-- The grammar reads back every tree that is nested at most so deeply. The last two say that what
starts with a subquery without being one is not read as a query in parentheses. -/
structure Grammar.Reads (g : Grammar) (n : Nat) : Prop where
  operand : ∀ (e : Expr) (b : Bool) (floor : Nat) (c : Cursor) (m : Nat) (rest : List Kind),
    Ready m e.nodes → (b = false → floor ≤ e.tier.rank) → (b = true → ∀ q, e ≠ .subquery q) →
    c.At (parensIf b e.tokens ++ rest) m → (next rest).ends floor = true →
    Parser.Gives (parensDepth b e.depth ≤ n) (Plain e.nodes) (g.exprFrom floor) c e rest
      (m + marks e.nodes)
  query : ∀ (q : Query) (c : Cursor) (m : Nat) (rest : List Kind), Ready m q.nodes →
    c.At (q.tokens ++ rest) m → (next rest).endsQuery = true →
    Parser.Gives (q.depth ≤ n) (Plain q.nodes) g.query c q rest (m + marks q.nodes)
  relation : ∀ (r : Relation) (c : Cursor) (m : Nat) (rest : List Kind), Ready m r.nodes →
    c.At (r.tokens ++ rest) m → (next rest).endsRelation = true →
    Parser.Gives (r.depth ≤ n) (Plain r.nodes) g.relation c r rest (m + marks r.nodes)
  type : Parser.TypeReads n g.type
  noQuery : ∀ (c : Cursor) (m : Nat) (ts : List Kind), c.At ts m → (next ts).opensQuery = false →
    ∃ e, g.query c = .error e
  strayExpr : ∀ (e : Expr) (c : Cursor) (m : Nat) (k : Kind) (rest : List Kind), Ready m e.nodes →
    e.depth ≤ n → c.At (e.tokens ++ k :: rest) m →
    k.joins = true ∨ k = .symbol .comma ∨ (k = .symbol .rightParen ∧ ∀ q, e ≠ .subquery q) →
    ∃ e, (do let _ ← g.query; Parser.expectSymbol .rightParen) c = .error e
  strayRelation : ∀ (r : Relation) (c : Cursor) (m : Nat) (rest : List Kind), Ready m r.nodes →
    r.depth ≤ n → r.tier.rank ≤ Relation.Tier.renamed.rank →
    c.At (r.tokens ++ .symbol .rightParen :: rest) m →
    ∃ e, (do let _ ← g.query; Parser.expectSymbol .rightParen) c = .error e

namespace Grammar.Reads

open Sql.Parser

variable {g : Grammar} {n m : Nat} {c : Cursor} {rest : List Kind} {e : Expr} {es : List Expr}

theorem expr (h : g.Reads n) (hready : Ready m e.nodes) (hc : c.At (e.tokens ++ rest) m)
    (hr : (next rest).ends 0 = true) :
    Gives (e.depth ≤ n) (Plain e.nodes) g.expr c e rest (m + marks e.nodes) :=
  h.operand e false 0 c m rest hready (fun _ => Nat.zero_le _) (by simp) hc hr

theorem exprs (h : g.Reads n) (hne : es ≠ []) (hready : Ready m (Expr.nodesAll es))
    (hc : c.At (commas (Expr.tokenLists es) ++ rest) m) (hr : (next rest).ends 0 = true)
    (hcomma : next rest ≠ .symbol .comma) :
    Gives (Expr.depthAll es ≤ n) (Plain (Expr.nodesAll es)) g.exprs c es rest
      (m + marks (Expr.nodesAll es)) := by
  rw [Expr.nodesAll_eq] at hready ⊢
  rw [Expr.tokenLists_eq] at hc
  rw [Expr.depthAll_le]
  have hitem : ∀ e ∈ es, ReadsItem g.expr Expr.tokens Expr.nodes (fun e => e.depth ≤ n)
      (Plain (es.flatMap Expr.nodes)) (fun rest => (next rest).ends 0 = true) e := by
    intro e he c m rest hready hc hr
    refine (h.expr hready hc ?_).imp Iff.rfl fun hp => plain_of_mem hp he
    rcases hr with hr | hr
    · rw [hr]
      rfl
    · exact hr
  exact commaList_gives hne hitem hr hcomma hready hc

/-- Expressions up to a closing mark. -/
theorem exprsUntil (h : g.Reads n) {s : Symbol} (hs : s = .rightParen ∨ s = .rightBracket)
    (hready : Ready m (Expr.nodesAll es))
    (hc : c.At (commas (Expr.tokenLists es) ++ .symbol s :: rest) m) :
    Gives (Expr.depthAll es ≤ n) (Plain (Expr.nodesAll es)) (g.exprsUntil s) c es rest
      (m + marks (Expr.nodesAll es)) := by
  unfold Grammar.exprsUntil
  cases es with
  | nil => exact .step (eat_of_eq hc) (.ok (by simp [Expr.depthAll]) rfl hc.advance)
  | cons e es =>
    have hopen : next (commas (Expr.tokenLists (e :: es)) ++ .symbol s :: rest) ≠ .symbol s := by
      obtain ⟨k, ts, ht, hk, -⟩ := e.tokens_cons
      simp only [Expr.tokenLists, Kind.commas_cons, ht, List.cons_append, Kind.next_cons]
      rcases hs with rfl | rfl <;> exact Kind.ne_of_opens hk rfl
    refine .step (eat_of_ne hc hopen) ?_
    have hes := h.exprs (by simp) hready hc
      (by rcases hs with rfl | rfl <;> rfl) (by rcases hs with rfl | rfl <;> simp)
    refine hes.last fun c' hc' => ⟨c'.advance, ?_, hc'.advance⟩
    rw [bind_ok (expectSymbol_of_eq hc')]
    rfl

theorem parenExprs (h : g.Reads n) (hready : Ready m (Expr.nodesAll es))
    (hc : c.At (Kind.parens (commas (Expr.tokenLists es)) ++ rest) m) :
    Gives (Expr.depthAll es ≤ n) (Plain (Expr.nodesAll es)) g.parenExprs c es rest
      (m + marks (Expr.nodesAll es)) := by
  simp only [Kind.parens, List.cons_append, List.append_assoc, List.nil_append] at hc
  exact .step (expectSymbol_of_eq hc) (h.exprsUntil (.inl rfl) hready hc.advance)

theorem parenQuery (h : g.Reads n) {q : Query} (hready : Ready m q.nodes)
    (hc : c.At (Kind.parens q.tokens ++ rest) m) :
    Gives (q.depth ≤ n) (Plain q.nodes) g.parenQuery c q rest (m + marks q.nodes) :=
  parens_gives hc fun c' hc' => h.query q c' m _ hready hc' rfl

end Grammar.Reads

end Sql
