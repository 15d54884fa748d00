import Sql.Proofs.ReadTrees

/-! Which parentheses around an operand the text of an operator needs to be read as the same
tree. -/
namespace Sql

open Token (Kind)
open Token.Kind

/-! ### Normal forms of operator trees -/

namespace Expr

variable {e l r : Expr} {op : BinaryOp} {P : Name → Prop}

theorem bare_tokens_prepend (l e : Expr) :
    bare (prepend l op e).tokens = bare l.tokens ++ op.token :: bare e.tokens := by
  fun_induction prepend l op e with
  | case1 x op' y htier ih =>
    rw [bare_tokens_binary, bare_tokens_binary, ih, List.append_assoc, List.cons_append]
  | case2 => rw [bare_tokens_binary]
  | case3 => rw [bare_tokens_binary]

theorem bare_tokens_regroup (l r : Expr) :
    bare (regroup l op r).tokens = bare l.tokens ++ op.token :: bare r.tokens := by
  rw [regroup]
  split
  · exact bare_tokens_prepend l r
  · exact bare_tokens_binary l op r

namespace IsBasic

theorem prepend (hl : l.IsBasic P) (he : e.IsBasic P) : (prepend l op e).IsBasic P := by
  fun_induction Expr.prepend l op e with
  | case1 x op' y htier ih =>
    cases he with
    | binary hx hy => exact .binary (ih hx) hy
  | case2 => exact .binary hl he
  | case3 => exact .binary hl he

theorem regroup (hl : l.IsBasic P) (hr : r.IsBasic P) : (regroup l op r).IsBasic P := by
  rw [Expr.regroup]
  split
  · exact hl.prepend hr
  · exact .binary hl hr

theorem normal (h : e.IsBasic Name.IsQuoted) : e.normal.IsBasic Name.IsQuoted := by
  induction h with
  | @column n hn =>
    refine .column fun y hy => ?_
    rw [Name.parts_delimit] at hy
    obtain ⟨x, hx, rfl⟩ := List.mem_map.1 hy
    exact ⟨rfl, (hn x hx).2⟩
  | @integer n hn =>
    rw [Expr.integer, Expr.normal, Literal.normal, if_neg (Int64.not_lt.2 hn)]
    exact .integer hn
  | binary _ _ ihl ihr => exact ihl.regroup ihr
  | unary _ ih => exact .unary ih
  | isNull _ ih => exact .isNull ih
  | inList _ hne _ ih ihs =>
    rw [Expr.normal, normals_eq]
    exact .inList ih (List.map_eq_nil_iff.not.2 hne) (List.forall_mem_map.2 ihs)

theorem composed (h : e.IsBasic Name.IsQuoted) : e.IsComposed := by
  induction h with
  | column hn => exact .column hn.named
  | integer => exact .literal trivial
  | binary _ _ ihl ihr => exact .binary ihl ihr
  | unary _ ih => exact .unary ih
  | isNull _ ih => exact .isNull ih
  | inList _ hne _ ih ihs => exact .inList ih hne ihs

end IsBasic

/-! ### Printing an operand with and without its parentheses -/

end Expr

/-- The operand on a side. -/
def Side.choose {α : Type} (left right : α) : Side → α
  | .left => left
  | .right => right

namespace Expr

variable {e l r : Expr} {op : BinaryOp} {side : Side} {o : Layout} {P : Name → Prop}

/-- The text of `l op r` with `around` applied to the text of the operand on one side. -/
def printAround (o : Layout) (around : String → String) (l : Expr) (op : BinaryOp) (r : Expr) :
    Side → String
  | .left => around (l.print o) ++ separator o op ++ wrapIf (r.needsParens op .right) (r.print o)
  | .right => wrapIf (l.needsParens op .left) (l.print o) ++ separator o op ++ around (r.print o)

/-- The text of `l op r` without the parentheses around the operand on one side. What stands between
them is indented by one column, and stays so. -/
def printOpen (o : Layout) (l : Expr) (op : BinaryOp) (r : Expr) (side : Side) : String :=
  printAround o (Text.pad · 1) l op r side

theorem print_parenthesized (h : (side.choose l r).needsParens op side = true) :
    (Expr.binary l op r).print o = printAround o Text.parenthesize l op r side := by
  cases side with
  | left =>
    have hl : l.needsParens op .left = true := h
    rw [print_binary, hl]
    rfl
  | right =>
    have hr : r.needsParens op .right = true := h
    rw [print_binary, hr]
    rfl

/-- The tokens of `l op r` without the parentheses around the operand on one side. -/
def tokensOpen (l : Expr) (op : BinaryOp) (r : Expr) : Side → List Kind
  | .left => l.tokens ++ op.token :: parensIf (r.needsParens op .right) r.tokens
  | .right => parensIf (l.needsParens op .left) l.tokens ++ op.token :: r.tokens

theorem prints_separated {s t : String} {ts us : List Kind} (hs : Prints s ts) (ht : Prints t us) :
    Prints (s ++ separator o op ++ t) (ts ++ op.token :: us) := by
  have hleft : Leads (s ++ if op.isLogical then o.newline else " ") ts := by
    split
    · exact hs.newline o
    · exact (hs.leads " " [] (by cbv) (by cbv)).cast (List.append_nil _)
  have hop := (hleft.prints op.prints).leads " " [] (by cbv) (by cbv)
  have hwhole : Prints _ (ts ++ op.token :: us) := (hop.prints ht).cast (by simp)
  simpa only [separator, String.append_assoc] using hwhole

theorem prints_open (hl : Prints (l.print o) l.tokens) (hr : Prints (r.print o) r.tokens) :
    Prints (printOpen o l op r side) (tokensOpen l op r side) := by
  cases side with
  | left => exact prints_separated (hl.pad 1) (hr.wrapIf _)
  | right => exact prints_separated (hl.wrapIf _) (hr.pad 1)

theorem printOpen_normal (l r : Expr) :
    printOpen o l.normal op r.normal side = printOpen o l op r side := by
  cases side with
  | left =>
    rw [printOpen, printOpen, printAround, printAround, l.print_normal, r.print_normal,
      r.alike_normal.needsParens]
  | right =>
    rw [printOpen, printOpen, printAround, printAround, l.print_normal, r.print_normal,
      l.alike_normal.needsParens]

theorem bare_tokensOpen (l r : Expr) :
    bare (tokensOpen l op r side) = bare l.tokens ++ op.token :: bare r.tokens := by
  cases side with
  | left => rw [tokensOpen, bare_append, bare_cons (isBare_token op), bare_parensIf]
  | right => rw [tokensOpen, bare_append, bare_cons (isBare_token op), bare_parensIf]

/-! ### Operands that need their parentheses -/

/-- Is an operand of `op` that stands in parentheses read as the same operand without them? `NOT`
takes what follows it whatever stands in front, and a predicate that ends in a word or a list is
over before an operator that binds more tightly. -/
def standsOpen (op : BinaryOp) : Side → Expr → Bool
  | .right, .unary .not _ => true
  | .left, .isNull .. | .left, .inList .. => op.tier ≠ .comparison
  | _, _ => false

theorem rank_of_needsParens (h : e.needsParens op side = true) :
    e.tier.rank < op.tier.rank ∨ e.tier = op.tier := by
  unfold needsParens at h
  split at h
  · exact .inr ‹_›
  · exact .inl (of_decide_eq_true h)

theorem rank_le_of_needsParens (h : e.needsParens op side = true) :
    e.tier.rank ≤ op.tier.rank := by
  obtain hlt | heq := rank_of_needsParens h
  · exact Nat.le_of_lt hlt
  · rw [heq]

theorem comparison_of_needsParens (h : e.needsParens op .left = true) (he : e.tier = op.tier) :
    op.tier = .comparison := by
  unfold needsParens at h
  rw [if_pos he, BinaryOp.associativity] at h
  by_contra hop
  rw [if_neg hop] at h
  cases h

theorem rank_lt_unary (op : BinaryOp) : op.tier.rank < Tier.unary.rank := by cases op <;> decide

theorem tier_integer {n : Int64} (h : 0 ≤ n) : (Expr.integer n).tier = .atomic := by
  rw [integer, tier, Literal.isNegative, decide_eq_false (Int64.not_lt.2 h)]
  rfl

namespace IsBasic

theorem standsOpen_normal (h : e.IsBasic P) :
    e.normal.standsOpen op side = e.standsOpen op side := by
  cases h with
  | integer hn => rw [Expr.integer, Expr.normal, Literal.normal, if_neg (Int64.not_lt.2 hn)]
  | @binary l r op' =>
    obtain ⟨x, y, h⟩ := regroup_eq op' l.normal r.normal
    rw [Expr.normal, h]
    cases side <;> rfl
  | @unary op' => cases side <;> cases op' <;> rfl
  | column | isNull | inList => cases side <;> rfl

/-- An operand that binds more loosely than an operator is no column and no number. -/
theorem tier_ne_atomic (hneeds : e.needsParens op side = true) : e.tier ≠ .atomic := by
  intro hatomic
  have hle := rank_le_of_needsParens hneeds
  rw [hatomic] at hle
  exact absurd (Nat.lt_of_le_of_lt hle (rank_lt_unary op)) (by decide)

theorem opensLeft_eq_false (h : e.IsBasic P) (hneeds : e.needsParens op .left = true)
    (hstands : e.standsOpen op .left = false) : e.opensLeft op = false := by
  have hle := rank_le_of_needsParens hneeds
  cases h with
  | column => exact absurd rfl (tier_ne_atomic hneeds)
  | integer hn => exact absurd (tier_integer hn) (tier_ne_atomic hneeds)
  | @binary l r op' =>
    rw [opensLeft, Bool.and_eq_false_iff]
    obtain hlt | htier := rank_of_needsParens hneeds
    · exact .inl (decide_eq_false (Nat.not_le.2 hlt))
    · have hop := comparison_of_needsParens hneeds htier
      refine .inr ?_
      rw [htier, hop]
      rfl
  | unary => exact Bool.and_eq_false_iff.2 (.inl (decide_eq_false (Nat.not_lt.2 hle)))
  | isNull | inList =>
    have hop : op.tier = .comparison := by simpa [standsOpen] using hstands
    rw [opensLeft, hop]
    rfl

theorem opensFrom_eq_false (h : e.IsBasic P) (hneeds : e.needsParens op .right = true)
    (hstands : e.standsOpen op .right = false) : e.opensFrom (op.tier.rank + 1) = false := by
  have hle := rank_le_of_needsParens hneeds
  cases h with
  | column => exact absurd rfl (tier_ne_atomic hneeds)
  | integer hn => exact absurd (tier_integer hn) (tier_ne_atomic hneeds)
  | binary | isNull | inList => exact decide_eq_false (Nat.not_le.2 (Nat.lt_succ_of_le hle))
  | @unary op' =>
    -- A sign binds more tightly than every operator, and `NOT` is read wherever it stands.
    cases op' with
    | not => cases hstands
    | minus | plus => exact absurd (rank_lt_unary op) (Nat.not_lt.2 hle)

end IsBasic

/-- Where the right operand would have to end before its end, it is not read back. -/
theorem not_written_openRight (hl : l.IsBasic P) (hr : r.IsBasic P)
    (hopens : r.opensFrom (op.tier.rank + 1) = false) :
    ¬ Written 0 (tokensOpen l op r .right) (.binary l op r) := by
  have hbalanced := hl.balanced.parensIf (l.needsParens op .left)
  -- The operator is the only one with so many tokens in front of it.
  have hright : ∀ {ts us}, tokensOpen l op r .right = ts ++ op.token :: us →
      bare ts = bare l.tokens → ¬ Written (op.tier.rank + 1) us r := by
    intro ts us hcut hbare hw
    obtain ⟨-, -, rfl⟩ := cut_unique hcut (isBare_token op) (isBare_token op)
      (by rw [bare_parensIf, hbare])
    obtain hfrom | ⟨vs, hvs, hw⟩ := hw.opensFrom
    · rw [hopens] at hfrom
      cases hfrom
    · exact hr.not_grouped hw hvs
  generalize hts : tokensOpen l op r .right = ts at hright
  intro hw
  cases hw with
  | grouped hw => exact hw.ne_parens rfl hbalanced bare_parensIf (isBare_token op) hts
  | binary _ hl _ hr => exact hright rfl hl.bare_eq hr
  | binaryGrouped _ hl hr => exact hright rfl (by rw [bare_parens, hl.bare_eq]) hr

/-- Where the operator would go on with a part of its left operand, that is not read back. -/
theorem not_written_openLeft (hl : l.IsBasic P) (hopens : l.opensLeft op = false)
    (hs : StartsWith l op e) : ¬ Written 0 (tokensOpen l op r .left) e := by
  intro hw
  obtain ⟨j, us, vs, hcut, hbalanced, hbare, hleft⟩ := hw.startsWith hs
  have hopen : bare (List.replicate j (.symbol .leftParen)) = [] := by simp [bare, isBare]
  obtain ⟨heq, -⟩ := cut_unique hcut (isBare_token op) (isBare_token op)
    (by rw [bare_append, hopen, List.nil_append, hbare])
  obtain rfl := eq_zero_of_balanced (heq ▸ hl.balanced) hbalanced
  obtain hleft | ⟨ws, rfl, hw⟩ := hleft
  · rw [hopens] at hleft
    cases hleft
  · exact hl.not_grouped hw heq

end Expr

/-! ### Operands that stand open -/

theorem marks_of_fixed {ns : List Node} (h : ∀ n ∈ ns, n.Fixed) : marks ns = 0 :=
  List.countP_eq_zero.2 fun n hn => by simp [(h n hn).unmarked]

theorem Expr.ne_subquery_of_needsParens {r : Expr} {op : BinaryOp} {side : Side}
    (h : r.needsParens op side = true) (q : Query) : r ≠ .subquery q := by
  rintro rfl
  cases op <;> cases h

namespace Grammar

open Sql.Parser

/-- The loop over the operators has come to the expression, with the tokens `rest` ahead. -/
abbrev ComesTo (g : Grammar) (c : Cursor) (left : Operand) (rest : List Kind) (m : Nat) : Prop :=
  Builds True False (Reads.startOperand g 0) (g.extend 0) c left rest m

namespace Reads

variable {g : Grammar} {n m : Nat} {c : Cursor} {l e r : Expr} {op : BinaryOp}
  {rest ts : List Kind} {compared : Bool}

/-- An operator goes on with what has been read so far. -/
theorem goOn {right : Operand} (hl : g.ComesTo c ⟨l, compared⟩ (op.token :: ts) m)
    (hstep : ∀ c', c'.At (op.token :: ts) m →
      Gives True False (g.extend 0 ⟨l, compared⟩) c' (some right) rest m)
    (hlen : rest.length ≤ ts.length) : g.ComesTo c right rest m :=
  (hl.extend id hstep (Nat.lt_succ_of_le hlen)).imp (by simp) id

/-- An operator and its right operand, printed with the parentheses that it needs. -/
theorem goOn_binary (h : g.Reads n) (ha : op.associativity = .left)
    (hl : g.ComesTo c ⟨l, compared⟩
      (op.token :: (parensIf (r.needsParens op .right) r.tokens ++ rest)) m)
    (hr : ∀ k ∈ r.nodes, k.Fixed) (hsettled : (r.isBinaryOf op && op.isAssociative) = false)
    (hd : parensDepth (r.needsParens op .right) r.depth ≤ n)
    (hends : (next rest).ends (op.tier.rank + 1) = true) :
    g.ComesTo c ⟨.binary l op r, compared⟩ rest m := by
  refine goOn hl (fun c' hc' => ?_) (by simp)
  have hstep : Gives _ _ (g.extend 0 ⟨l, compared⟩) c' _ _ _ :=
    h.extend_binary (Nat.zero_le _) (by simp [ha]) (ready_of_fixed hr)
      (Expr.rank_lt_of_right hsettled) Expr.ne_subquery_of_needsParens hc' hends
  rw [marks_of_fixed hr] at hstep
  simpa [ha, hd] using hstep.imp (Q := False) Iff.rfl False.elim

/-- An operand of another tier, which needs parentheses on both sides of the operator or on none. -/
theorem goOn_apart (h : g.Reads n) (ha : op.associativity = .left)
    (hl : g.ComesTo c ⟨l, compared⟩
      (op.token :: (parensIf (e.needsParens op .left) e.tokens ++ rest)) m)
    (he : ∀ k ∈ e.nodes, k.Fixed) (htier : e.tier ≠ op.tier) (hop : e.isBinaryOf op = false)
    (hd : (Expr.binary l op e).depth ≤ n + 1)
    (hends : (next rest).ends (op.tier.rank + 1) = true) :
    g.ComesTo c ⟨.binary l op e, compared⟩ rest m := by
  rw [Expr.needsParens_of_tier_ne .left htier, ← Expr.needsParens_of_tier_ne .right htier] at hl
  rw [Expr.depth, Nat.max_le] at hd
  exact h.goOn_binary ha hl he (by rw [hop, Bool.false_and]) (Nat.le_of_succ_le_succ hd.2) hends

/-- A chain of operators of one tier is read from left to right. -/
theorem goOn_prepend (h : g.Reads n) (ha : op.associativity = .left)
    (hl : ∀ ts, c.At (l.tokens ++ op.token :: ts) m → g.ComesTo c ⟨l, compared⟩ (op.token :: ts) m)
    (he : ∀ k ∈ e.nodes, k.Fixed) (hd : (Expr.prepend l op e).depth ≤ n + 1)
    (hc : c.At (l.tokens ++ op.token :: (parensIf (e.needsParens op .left) e.tokens ++ rest)) m)
    (hends : (next rest).ends (op.tier.rank + 1) = true) :
    g.ComesTo c ⟨Expr.prepend l op e, compared⟩ rest m := by
  induction e using Expr.prepend.induct op generalizing rest with
  | case1 x op' y htier ih =>
    have ha' : op'.associativity = .left := (Expr.associativity_congr htier).trans ha
    have hwhole : (Expr.binary x op' y).needsParens op .left = false :=
      Expr.needsParens_of_tier ha htier
    have hx : x.needsParens op' .left = x.needsParens op .left := by
      unfold Expr.needsParens
      rw [htier, ha, ha']
    have hchain : (Expr.prepend l op x).needsParens op' .left = false :=
      Expr.needsParens_of_tier ha' ((Expr.tier_prepend l x).trans htier.symm)
    rw [Expr.prepend, if_pos htier] at hd ⊢
    rw [Expr.depth, hchain, Nat.max_le] at hd
    rw [hwhole, parensIf, if_neg Bool.false_ne_true, Expr.tokens, hx, List.append_assoc,
      List.cons_append] at hc
    rw [Expr.nodes, List.forall_mem_cons, List.forall_mem_append] at he
    have hends' : op'.token.ends (op.tier.rank + 1) = true := ends_token (by rw [htier]; omega)
    have hleft := ih he.2.1 hd.1 hc hends'
    exact h.goOn_binary ha' hleft he.2.2 he.1.good.settled (Nat.le_of_succ_le_succ hd.2)
      (by rw [htier]; exact hends)
  | case2 x op' y htier =>
    have hop : op' ≠ op := by
      rintro rfl
      exact htier rfl
    rw [Expr.prepend, if_neg htier] at hd ⊢
    exact h.goOn_apart ha (hl _ hc) he htier (decide_eq_false hop) hd hends
  | case3 e hne =>
    have htier : e.tier ≠ op.tier := by
      intro htier
      obtain ⟨x, op', y, rfl⟩ := Expr.isBinary_of_tier ha htier
      exact hne x op' y rfl
    have hprepend : Expr.prepend l op e = .binary l op e := by
      rw [Expr.prepend]
      exact hne
    rw [hprepend] at hd ⊢
    refine h.goOn_apart ha (hl _ hc) he htier ?_ hd hends
    cases e with
    | binary x op' y => exact (hne x op' y rfl).elim
    | _ => rfl

theorem goOn_regroup (h : g.Reads n) (ha : op.associativity = .left)
    (hl : ∀ ts, c.At (l.tokens ++ op.token :: ts) m → g.ComesTo c ⟨l, compared⟩ (op.token :: ts) m)
    (hr : ∀ k ∈ r.nodes, k.Fixed) (hd : (Expr.regroup l op r).depth ≤ n + 1)
    (hc : c.At (l.tokens ++ op.token :: (parensIf (r.needsParens op .right) r.tokens ++ rest)) m)
    (hends : (next rest).ends (op.tier.rank + 1) = true) :
    g.ComesTo c ⟨Expr.regroup l op r, compared⟩ rest m := by
  rw [Expr.regroup] at hd ⊢
  split at hd
  · rename_i hchain
    rw [if_pos hchain]
    obtain ⟨x, y, rfl⟩ := Expr.isBinary_of_isBinaryOf ((Bool.and_eq_true _ _).mp hchain).1
    rw [Expr.needsParens_of_chain hchain,
      ← Expr.needsParens_of_tier (e := .binary x op y) ha rfl] at hc
    exact h.goOn_prepend ha hl hr hd hc hends
  · rename_i hchain
    rw [if_neg hchain]
    rw [Expr.depth, Nat.max_le] at hd
    exact h.goOn_binary ha (hl _ hc) hr (eq_false_of_ne_true hchain)
      (Nat.le_of_succ_le_succ hd.2) hends

/-- A predicate that stands open is read whatever operator follows. -/
theorem comesTo_open (h : g.Reads n) (hstands : l.standsOpen op .left = true)
    (hl : ∀ k ∈ l.nodes, k.Fixed) (hd : l.depth ≤ n + 1) (hc : c.At (l.tokens ++ ts) m) :
    g.ComesTo c ⟨l, true⟩ ts m := by
  cases l with
  | isNull e negated =>
    rw [Expr.tokens, List.append_assoc, List.cons_append, List.append_assoc] at hc
    rw [Expr.nodes, List.forall_mem_cons] at hl
    rw [Expr.depth] at hd
    have hsteps := h.predicateSteps (h.steps e) (P := False) (Nat.zero_le _) (ready_of_fixed hl.2)
      hc (startsPredicate_is _) (by simp; omega) False.elim
      fun c₁ hc₁ => (isNull hc₁).imp (Q := False) Iff.rfl False.elim
    rw [marks_of_fixed hl.2] at hsteps
    exact hsteps.imp (by simp [hd]) id
  | inList e items negated =>
    rw [Expr.tokens, List.append_assoc, List.append_assoc, List.cons_append] at hc
    rw [Expr.nodes, List.forall_mem_cons, List.forall_mem_append] at hl
    rw [Expr.depth, Nat.max_le] at hd
    obtain ⟨hgood, he, hitems⟩ := hl
    have hsteps := h.predicateSteps (h.steps e) (P := False) (Nat.zero_le _) (ready_of_fixed he) hc
      (startsPredicate_given (.inr (.inr rfl)) ..) (by simp; omega) False.elim
      fun c₁ hc₁ => (h.inList hgood.good.sound.1 hgood.good.sound.2 (ready_of_fixed hitems) hc₁).imp
        (Q := False) Iff.rfl False.elim
    rw [marks_of_fixed he, marks_of_fixed hitems] at hsteps
    exact hsteps.imp (by simp [hd.1, Nat.le_of_succ_le_succ hd.2]) id
  | _ => cases hstands

/-- `NOT` is read with all that follows it, however tightly an operator would have to bind. -/
theorem expression_not (h : g.Reads n) (floor : Nat) (he : ∀ k ∈ (Expr.unary .not e).nodes, k.Fixed)
    (hd : (Expr.unary .not e).depth ≤ n + 1) (hc : c.At ((Expr.unary .not e).tokens ++ rest) m)
    (hends : (next rest).ends 0 = true) :
    Gives True False (g.expression floor) c (.unary .not e) rest m := by
  have hstops : (Expr.unary .not e).Stops rest := stops_of_ends (Nat.zero_le _) hends
  have hsigned : Gives _ _ (g.signed floor) c _ _ _ := h.unary (ready_of_fixed he) hc hstops
  rw [marks_of_fixed he] at hsigned
  have hsteps : Builds _ _ (startOperand g floor) (g.extend floor) c ⟨.unary .not e, false⟩ _ _ :=
    Builds.of_gives hsigned.map
  have hfinish := hsteps.finish fun c₁ hc₁ => extend_none hc₁ (ends_mono hends (Nat.zero_le _))
  exact (hfinish.map.of_eq (expression_eq c)).imp (by simp [hd]) False.elim

theorem comesTo_not (h : g.Reads n) (hl : ∀ k ∈ l.nodes, k.Fixed)
    (he : ∀ k ∈ (Expr.unary .not e).nodes, k.Fixed)
    (hld : parensDepth (l.needsParens op .left) l.depth ≤ n + 2)
    (hed : (Expr.unary .not e).depth ≤ n + 1)
    (hc : c.At (parensIf (l.needsParens op .left) l.tokens ++
      op.token :: (Expr.unary .not e).tokens) m) :
    ∃ compared, g.deepen.ComesTo c ⟨.binary l op (.unary .not e), compared⟩ [] m := by
  have hleft := h.deepen.operandSteps (h.deepen.steps l) (Nat.zero_le _) (ready_of_fixed hl) hc
  rw [marks_of_fixed hl] at hleft
  have hstep : ∀ c₁ : Cursor, c₁.At (op.token :: (Expr.unary .not e).tokens) m →
      Gives True False (g.deepen.extend 0 ⟨l, !l.needsParens op .left && l.compared⟩) c₁
        (some ⟨.binary l op (.unary .not e),
          (!l.needsParens op .left && l.compared) || op.associativity = .none⟩) [] m := by
    intro c₁ hc₁
    refine extend_operator (Nat.zero_le _) compared_operand hc₁ ?_
    have hat : c₁.advance.At ((Expr.unary .not e).tokens ++ []) m := by
      rw [List.append_nil]
      exact hc₁.advance
    exact h.expression_not _ he hed hat rfl
  exact ⟨_, goOn (hleft.imp (by simp [hld]) False.elim) hstep (Nat.zero_le _)⟩

end Reads

/-- What the loop has come to at the end of a text is what the text is read as. -/
theorem parse_of_comesTo {text : String} {left : Operand} {m : Nat}
    (h : (ofDepth 63).ComesTo (.ofText text) left [] m) : Expr.parse text = .ok left.expr := by
  have hfinish := Builds.finish h fun c hc => Reads.extend_none hc rfl
  have hrun : Gives True False ((ofDepth 63).expression 0) (.ofText text) left.expr [] m :=
    hfinish.map.of_eq (Reads.expression_eq _)
  exact hrun.run.1 trivial

end Grammar

/-! ### Texts without a pair of parentheses -/

namespace Expr

variable {e l r : Expr} {op : BinaryOp} {side : Side} {o : Layout}

theorem regroup_of_needsParens (h : r.needsParens op .right = true) :
    regroup l op r = .binary l op r := by
  rw [regroup, if_neg]
  intro hchain
  rw [needsParens_of_chain hchain] at h
  cases h

theorem ofText_open (hl : ∀ k ∈ l.nodes, k.Fixed) (hr : ∀ k ∈ r.nodes, k.Fixed) :
    (Cursor.ofText (printOpen o l op r side)).At (tokensOpen l op r side) 0 :=
  Parser.ofText_at (prints_open (l.prints_tokens o (ready_of_fixed (m := 0) hl).printable)
    (r.prints_tokens o (ready_of_fixed (m := 0) hr).printable))

/-- Other operands are not read as the same tree without their parentheses, if the text is read. -/
theorem same_parse_open (hl : l.IsBasic Name.IsQuoted) (hr : r.IsBasic Name.IsQuoted)
    (hlf : ∀ k ∈ l.nodes, k.Fixed) (hrf : ∀ k ∈ r.nodes, k.Fixed)
    (hneeds : (side.choose l r).needsParens op side = true)
    (hstands : (side.choose l r).standsOpen op side = false)
    (hparse : Expr.parse (printOpen o l op r side) = .ok e) : e.same (regroup l op r) = false := by
  by_contra hsame
  obtain ⟨hlooks, heq⟩ := (hl.regroup hr).of_same (eq_true_of_ne_false hsame)
  have hat : (Cursor.ofText (printOpen o l op r side)).At (tokensOpen l op r side) 0 :=
    ofText_open hlf hrf
  have hkinds := hat.kinds
  have hbare : bare (tokensOpen l op r side) = bare (regroup l op r).tokens := by
    rw [bare_tokensOpen, bare_tokens_regroup]
  have hquoted : ∀ k ∈ tokensOpen l op r side, k.Quoted := by
    refine quoted_of_bare fun k hk => ?_
    rw [hbare] at hk
    exact (hl.regroup hr).quoted_tokens k (List.mem_of_mem_filter hk)
  obtain ⟨ts, us, hcut, hw, hus⟩ :=
    written_of_parse (fun k hk => hquoted k (hkinds ▸ hk)) hparse hlooks
  obtain rfl := heq hw.isBasic
  rw [hkinds] at hcut
  -- Both have the same tokens apart from parentheses, so nothing is left for a semicolon.
  have hnil : us = [] := by
    refine hus.resolve_right ?_
    rintro rfl
    rw [hcut, ← hw.bare_eq, bare_append] at hbare
    simp [bare, isBare] at hbare
  rw [hnil, List.append_nil] at hcut
  rw [← hcut] at hw
  cases side with
  | left =>
    have hopens := hl.opensLeft_eq_false hneeds hstands
    exact not_written_openLeft hl hopens (startsWith_regroup l r) hw
  | right =>
    have hright : r.needsParens op .right = true := hneeds
    rw [regroup_of_needsParens hright] at hw
    exact not_written_openRight hl hr (hr.opensFrom_eq_false hright hstands) hw

theorem depth_left_regroup (h : l.needsParens op .left = true) (r : Expr) :
    l.depth + 1 ≤ (regroup l op r).depth := by
  have hbinary : ∀ r, l.depth + 1 ≤ (Expr.binary l op r).depth := by
    intro r
    rw [depth, h]
    exact Nat.le_max_left ..
  have hprepend : l.depth + 1 ≤ (prepend l op r).depth := by
    fun_induction prepend l op r with
    | case1 x op' y htier ih =>
      rw [depth]
      exact Nat.le_trans (Nat.le_trans ih (le_parensDepth ..)) (Nat.le_max_left ..)
    | case2 => exact hbinary _
    | case3 => exact hbinary _
  rw [regroup]
  split
  · exact hprepend
  · exact hbinary r

theorem left_of_standsOpen (h : l.standsOpen op .left = true) : op.associativity = .left := by
  have hop : op.tier ≠ .comparison := by
    cases l with
    | isNull | inList => exact of_decide_eq_true h
    | _ => cases h
  rw [BinaryOp.associativity, if_neg hop]

theorem not_of_standsOpen (h : r.standsOpen op .right = true) : ∃ e, r = .unary .not e := by
  cases r with
  | unary op' e =>
    cases op' with
    | not => exact ⟨e, rfl⟩
    | _ => cases h
  | _ => cases h

/-- An operand that stands open is read as the same tree without its parentheses. -/
theorem parse_open (hlf : ∀ k ∈ l.nodes, k.Fixed) (hrf : ∀ k ∈ r.nodes, k.Fixed)
    (hneeds : (side.choose l r).needsParens op side = true)
    (hstands : (side.choose l r).standsOpen op side = true)
    (hd : (regroup l op r).depth ≤ Grammar.maxDepth) :
    Expr.parse (printOpen o l op r side) = .ok (regroup l op r) := by
  have hat : (Cursor.ofText (printOpen o l op r side)).At (tokensOpen l op r side) 0 :=
    ofText_open hlf hrf
  cases side with
  | left =>
    have h := Grammar.Reads.ofDepth 63
    have hleft : l.depth ≤ 63 :=
      Nat.le_of_succ_le_succ (Nat.le_trans (depth_left_regroup hneeds r) hd)
    have hcomes : Grammar.ComesTo _ _ ⟨regroup l op r, true⟩ [] 0 :=
      h.goOn_regroup (left_of_standsOpen hstands)
        (fun ts hts => h.comesTo_open hstands hlf (Nat.le_succ_of_le hleft) hts) hrf hd
        (by rw [List.append_nil]; exact hat) rfl
    exact Grammar.parse_of_comesTo hcomes
  | right =>
    obtain ⟨e, rfl⟩ := not_of_standsOpen hstands
    have hright : (Expr.unary .not e).needsParens op .right = true := hneeds
    rw [regroup_of_needsParens hright] at hd ⊢
    rw [depth, hright, Nat.max_le] at hd
    obtain ⟨compared, hcomes⟩ := (Grammar.Reads.ofDepth 62).comesTo_not hlf hrf hd.1
      (Nat.le_of_succ_le (Nat.le_of_succ_le_succ hd.2)) hat
    exact Grammar.parse_of_comesTo hcomes

/-- In normal form, an operator is read as it stands, with and without the parentheses around an
operand that stands open. -/
theorem parse_print_and_open (h : (Expr.binary l op r).IsBasic Name.IsQuoted) (hl : l.normal = l)
    (hr : r.normal = r) (hregroup : regroup l op r = .binary l op r)
    (hneeds : (side.choose l r).needsParens op side = true)
    (hstands : (side.choose l r).standsOpen op side = true)
    (hd : (Expr.binary l op r).depth ≤ Grammar.maxDepth) (o : Layout) :
    Expr.parse ((Expr.binary l op r).print o) = .ok (.binary l op r) ∧
      Expr.parse (printOpen o l op r side) = .ok (.binary l op r) := by
  have hnormal : (Expr.binary l op r).normal = .binary l op r := by
    rw [normal, hl, hr, hregroup]
  have hfixed := h.composed.fixed
  rw [hnormal] at hfixed
  obtain ⟨-, hlf, hrf⟩ : _ ∧ _ ∧ _ := by
    rwa [nodes, List.forall_mem_cons, List.forall_mem_append] at hfixed
  refine ⟨(parse_print (ready_of_fixed hfixed)).1 hd, ?_⟩
  rw [← hregroup] at hd ⊢
  exact parse_open hlf hrf hneeds hstands hd

/-- An operand that needs parentheses is printed in them. Without this pair the text is read as the
same tree if the operand is `NOT` on the right, or `IS NULL` or `IN` a list on the left of an
operator that binds more tightly. In all other cases it is not read as the same tree. -/
theorem parse_printOpen (hl : l.IsBasic Name.IsQuoted) (hr : r.IsBasic Name.IsQuoted)
    (hneeds : (side.choose l r).needsParens op side = true) (o : Layout) :
    (Expr.binary l op r).print o = printAround o Text.parenthesize l op r side ∧
      ((∃ e, Expr.parse ((Expr.binary l op r).print o) = .ok e ∧
        ((side.choose l r).standsOpen op side = true →
          Expr.parse (printOpen o l op r side) = .ok e) ∧
        ((side.choose l r).standsOpen op side = false →
          ∀ e', Expr.parse (printOpen o l op r side) = .ok e' → e'.same e = false)) ∨
        TooDeep (Expr.parse ((Expr.binary l op r).print o))) := by
  refine ⟨print_parenthesized hneeds, ?_⟩
  have hlf := hl.composed.fixed
  have hrf := hr.composed.fixed
  have hneeds' : (side.choose l.normal r.normal).needsParens op side = true := by
    cases side with
    | left => exact (l.alike_normal.needsParens op .left).trans hneeds
    | right => exact (r.alike_normal.needsParens op .right).trans hneeds
  have hstands : (side.choose l.normal r.normal).standsOpen op side =
      (side.choose l r).standsOpen op side := by
    cases side with
    | left => exact hl.standsOpen_normal
    | right => exact hr.standsOpen_normal
  have hbinary : (Expr.binary l op r).IsBasic Name.IsQuoted := .binary hl hr
  have hfixed := hbinary.composed.fixed
  obtain ⟨hok, hdeep⟩ := parse_print (o := o) (ready_of_fixed hfixed)
  rw [print_normal] at hok hdeep
  by_cases hd : (Expr.binary l op r).normal.depth ≤ Grammar.maxDepth
  · refine .inl ⟨_, hok hd, ?_⟩
    rw [normal] at hd ⊢
    rw [← printOpen_normal, ← hstands]
    exact ⟨fun hopen => parse_open hlf hrf hneeds' hopen hd, fun hopen e' hparse =>
      same_parse_open hl.normal hr.normal hlf hrf hneeds' hopen hparse⟩
  · exact .inr (hdeep (plain_of_fixed hfixed) hd)

def sampleColumn (text : String) : Expr := .column (.single (.quoted text))

theorem sampleColumn_isBasic {text : String} (h : text ≠ "") :
    (sampleColumn text).IsBasic Name.IsQuoted :=
  .column (Name.isQuoted_single h)

def sampleSum : Expr := .binary (sampleColumn "a") .add (sampleColumn "b")

/-- A sum as a factor is another tree without its parentheses. -/
theorem parse_printOpen_sampleSum :
    sampleSum.IsBasic Name.IsQuoted ∧ (Expr.integer 2).IsBasic Name.IsQuoted ∧
      (Side.choose sampleSum (.integer 2) .left).needsParens .mul .left = true ∧
      ∀ o, (Expr.binary sampleSum .mul (.integer 2)).print o =
          printAround o Text.parenthesize sampleSum .mul (.integer 2) .left ∧
        ((∃ e, Expr.parse ((Expr.binary sampleSum .mul (.integer 2)).print o) = .ok e ∧
          ((Side.choose sampleSum (.integer 2) .left).standsOpen .mul .left = true →
            Expr.parse (printOpen o sampleSum .mul (.integer 2) .left) = .ok e) ∧
          ((Side.choose sampleSum (.integer 2) .left).standsOpen .mul .left = false →
            ∀ e', Expr.parse (printOpen o sampleSum .mul (.integer 2) .left) = .ok e' →
              e'.same e = false)) ∨
          TooDeep (Expr.parse ((Expr.binary sampleSum .mul (.integer 2)).print o))) := by
  have hl : sampleSum.IsBasic Name.IsQuoted :=
    .binary (sampleColumn_isBasic (by decide)) (sampleColumn_isBasic (by decide))
  have hr : (Expr.integer 2).IsBasic Name.IsQuoted := .integer (by decide)
  exact ⟨hl, hr, rfl, fun o => parse_printOpen hl hr rfl o⟩

def sampleNot : Expr := .unary .not (sampleColumn "b")

def sampleNull : Expr := .isNull (sampleColumn "a") false

def sampleIn : Expr := .inList (sampleColumn "a") [.integer 1] false

/-- Printed parentheses that make no difference. -/
theorem parse_superfluous :
    (sampleNot.needsParens .mul .right = true ∧
      (Expr.binary (sampleColumn "a") .mul sampleNot).print {} = "\"a\" * (NOT \"b\")" ∧
      Expr.parse "\"a\" * (NOT \"b\")" = .ok (.binary (sampleColumn "a") .mul sampleNot) ∧
      Expr.parse "\"a\" * NOT \"b\"" = .ok (.binary (sampleColumn "a") .mul sampleNot)) ∧
    (sampleNull.needsParens .add .left = true ∧
      (Expr.binary sampleNull .add (.integer 1)).print {} = "(\"a\" IS NULL) + 1" ∧
      Expr.parse "(\"a\" IS NULL) + 1" = .ok (.binary sampleNull .add (.integer 1)) ∧
      Expr.parse "\"a\" IS NULL + 1" = .ok (.binary sampleNull .add (.integer 1))) ∧
    (sampleIn.needsParens .add .left = true ∧
      (Expr.binary sampleIn .add (.integer 1)).print {} = "(\"a\" IN (1)) + 1" ∧
      Expr.parse "(\"a\" IN (1)) + 1" = .ok (.binary sampleIn .add (.integer 1)) ∧
      Expr.parse "\"a\" IN (1) + 1" = .ok (.binary sampleIn .add (.integer 1))) := by
  have hcolumn : ∀ text, text ≠ "" → (sampleColumn text).IsBasic Name.IsQuoted :=
    fun _ => sampleColumn_isBasic
  have hone : (Expr.integer 1).IsBasic Name.IsQuoted := .integer (by decide)
  have hnot : sampleNot.IsBasic Name.IsQuoted := .unary (hcolumn "b" (by decide))
  have hnull : sampleNull.IsBasic Name.IsQuoted := .isNull (hcolumn "a" (by decide))
  have hin : sampleIn.IsBasic Name.IsQuoted :=
    .inList (hcolumn "a" (by decide)) nofun (List.forall_mem_singleton.2 hone)
  -- Reading is told of the printed text, which is then computed.
  have hread : ∀ side {l op r closed opened}, (Expr.binary l op r).print {} = closed →
      printOpen {} l op r side = opened →
      Expr.parse ((Expr.binary l op r).print {}) = .ok (.binary l op r) ∧
        Expr.parse (printOpen {} l op r side) = .ok (.binary l op r) →
      (Expr.binary l op r).print {} = closed ∧ Expr.parse closed = .ok (.binary l op r) ∧
        Expr.parse opened = .ok (.binary l op r) := by
    rintro side l op r _ _ rfl rfl hparse
    exact ⟨rfl, hparse⟩
  refine ⟨⟨rfl, hread .right (by decide +kernel) (by decide +kernel) ?_⟩,
    ⟨rfl, hread .left (by decide +kernel) (by decide +kernel) ?_⟩,
    ⟨rfl, hread .left (by decide +kernel) (by decide +kernel) ?_⟩⟩
  · have hproduct : (Expr.binary (sampleColumn "a") .mul sampleNot).IsBasic Name.IsQuoted :=
      .binary (hcolumn "a" (by decide)) hnot
    exact parse_print_and_open hproduct rfl rfl rfl rfl rfl (by decide) {}
  · exact parse_print_and_open (.binary hnull hone) rfl rfl rfl rfl rfl (by decide) {}
  · exact parse_print_and_open (.binary hin hone) rfl rfl rfl rfl rfl (by decide) {}

end Expr

end Sql
