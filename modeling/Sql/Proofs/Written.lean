import Sql.Proofs.Composed
import Sql.Proofs.Keys
import Sql.Tree.Same

/-! The token sequences that an operator tree can be written as, with more or fewer parentheses. -/
namespace Sql

open Token (Kind)
open Token.Kind (commas given next parens parensIf)

/-! ### Parentheses among tokens -/

namespace Token.Kind

/-- Is the token no parenthesis? -/
def isBare : Kind → Bool
  | .symbol .leftParen | .symbol .rightParen => false
  | _ => true

/-- The tokens without the parentheses. -/
def bare (ts : List Kind) : List Kind := ts.filter isBare

/-- As many parentheses are closed as are opened. -/
def Balanced (ts : List Kind) : Prop :=
  ts.count (.symbol .leftParen) = ts.count (.symbol .rightParen)

variable {ts us : List Kind} {tss uss : List (List Kind)} {k k' : Kind} {b : Bool}

theorem ne_of_isBare (h : k.isBare = true) : k ≠ .symbol .leftParen ∧ k ≠ .symbol .rightParen := by
  constructor <;> rintro rfl <;> cases h

theorem isBare_token (op : BinaryOp) : op.token.isBare = true := by cases op <;> rfl

theorem isBare_of_joins (h : k.joins = true) : k.isBare = true := by
  cases k with
  | symbol s => cases s <;> first | rfl | cases h
  | _ => rfl

@[simp] theorem bare_append : bare (ts ++ us) = bare ts ++ bare us := List.filter_append ..

theorem bare_cons (h : k.isBare = true) : bare (k :: ts) = k :: bare ts :=
  List.filter_cons_of_pos h

@[simp] theorem bare_parens : bare (parens ts) = bare ts := by
  simp [parens, bare, isBare]

@[simp] theorem bare_parensIf : bare (parensIf b ts) = bare ts := by
  cases b <;> simp [parensIf]

theorem balanced_nil : Balanced [] := rfl

theorem balanced_cons (h : k.isBare = true) : Balanced (k :: ts) ↔ Balanced ts := by
  obtain ⟨hl, hr⟩ := ne_of_isBare h
  rw [Balanced, List.count_cons_of_ne hl, List.count_cons_of_ne hr, Balanced]

theorem Balanced.append (h : Balanced ts) (h' : Balanced us) : Balanced (ts ++ us) := by
  rw [Balanced, List.count_append, List.count_append, h, h']

theorem Balanced.parens (h : Balanced ts) : Balanced (parens ts) := by
  rw [Balanced] at h
  simp [Balanced, Kind.parens, h]

theorem Balanced.parensIf (h : Balanced ts) (b : Bool) : Balanced (parensIf b ts) := by
  cases b with
  | true => exact h.parens
  | false => exact h

theorem Balanced.commas (h : ∀ ts ∈ tss, Balanced ts) : Balanced (commas tss) := by
  cases tss with
  | nil => exact balanced_nil
  | cons ts tss =>
    obtain ⟨hts, hrest⟩ := List.forall_mem_cons.1 h
    refine hts.append ?_
    induction tss with
    | nil => exact balanced_nil
    | cons us tss ih =>
      obtain ⟨hus, hrest⟩ := List.forall_mem_cons.1 hrest
      have htail := ih (List.forall_mem_cons.2 ⟨hts, hrest⟩) hrest
      exact ((balanced_cons rfl).2 hus).append htail

theorem bare_commas (tss : List (List Kind)) : bare (commas tss) = commas (tss.map bare) := by
  cases tss with
  | nil => rfl
  | cons ts tss =>
    rw [commas_cons, bare_append, List.map_cons, commas_cons, List.flatMap_map]
    congr 1
    induction tss with
    | nil => rfl
    | cons us tss ih => simp [bare_cons (k := .symbol .comma) rfl, ih]

/-- Opening parentheses alone leave something to close. -/
theorem eq_zero_of_balanced {j : Nat}
    (h : Balanced (List.replicate j (Kind.symbol .leftParen) ++ ts)) (hts : Balanced ts) :
    j = 0 := by
  rw [Balanced, List.count_append, List.count_append, hts, List.count_replicate_self,
    List.count_replicate] at h
  simpa using h

/-- Where a sequence is cut at a token that is no parenthesis is told by the number of such tokens
in front of it. -/
theorem cut_unique {ts' us' : List Kind} (h : ts ++ k :: us = ts' ++ k' :: us')
    (hk : k.isBare = true) (hk' : k'.isBare = true) (hlen : bare ts = bare ts') :
    ts = ts' ∧ k = k' ∧ us = us' := by
  induction ts generalizing ts' with
  | nil =>
    cases ts' with
    | nil => exact ⟨rfl, (List.cons.inj h).1, (List.cons.inj h).2⟩
    | cons x ts' =>
      obtain ⟨rfl, -⟩ := List.cons.inj h
      rw [bare_cons hk] at hlen
      cases hlen
  | cons x ts ih =>
    cases ts' with
    | nil =>
      obtain ⟨rfl, -⟩ := List.cons.inj h
      rw [bare_cons hk'] at hlen
      cases hlen
    | cons y ts' =>
      obtain ⟨rfl, htail⟩ := List.cons.inj h
      have hlen' : bare ts = bare ts' := by
        cases hx : x.isBare with
        | true =>
          rw [bare_cons hx, bare_cons hx] at hlen
          exact (List.cons.inj hlen).2
        | false => simpa [bare, hx] using hlen
      obtain ⟨rfl, hrest⟩ := ih htail hlen'
      exact ⟨rfl, hrest⟩

end Token.Kind

open Token.Kind

/-- The token is no name, or one that is quoted. -/
def Token.Kind.Quoted : Kind → Prop
  | .ident x => x.IsQuoted
  | _ => True

theorem quoted_token (op : BinaryOp) : op.token.Quoted := by cases op <;> trivial

/-- Parentheses are no names. -/
theorem quoted_of_bare (h : ∀ k ∈ bare ts, k.Quoted) : ∀ k ∈ ts, k.Quoted := by
  intro k hk
  cases hbare : k.isBare with
  | true => exact h k (List.mem_filter.2 ⟨hk, hbare⟩)
  | false =>
    cases k with
    | ident => cases hbare
    | _ => trivial

theorem quoted_commas (h : ∀ ts ∈ tss, ∀ k ∈ ts, k.Quoted) : ∀ k ∈ commas tss, k.Quoted := by
  cases tss with
  | nil => nofun
  | cons ts tss =>
    obtain ⟨hts, hrest⟩ := List.forall_mem_cons.1 h
    rw [commas_cons]
    refine List.forall_mem_append.2 ⟨hts, fun k hk => ?_⟩
    obtain ⟨us, hus, hk⟩ := List.mem_flatMap.1 hk
    obtain rfl | hk := List.mem_cons.1 hk
    · trivial
    · exact hrest us hus k hk

/-! ### Operator trees -/

theorem Ident.IsQuoted.eq_quoted {x : Ident} (h : x.IsQuoted) : x = .quoted x.key := by
  rw [h.key, quoted, ← h.1]

/-- The parts of a quoted name are told by what names are compared by. -/
theorem Name.IsQuoted.parts_eq {n : Name} (h : n.IsQuoted) : n.parts = n.keys.map .quoted := by
  calc n.parts = n.parts.map id := (List.map_id _).symm
    _ = n.parts.map (Ident.quoted ∘ Ident.key) := List.map_congr_left fun x hx => (h x hx).eq_quoted
    _ = n.keys.map .quoted := List.map_map.symm

theorem Name.IsQuoted.eq_of_same {m n : Name} (hm : m.IsQuoted) (hn : n.IsQuoted)
    (h : m.same n = true) : m = n :=
  Name.eq_of_parts (by rw [hm.parts_eq, hn.parts_eq, Name.same_iff.1 h])

/-- Columns with names of some kind and numbers under operators, `IS NULL` and lists after `IN`. -/
inductive Expr.IsBasic (P : Name → Prop) : Expr → Prop
  | column {n : Name} : P n → IsBasic P (.column n)
  | integer {n : Int64} : 0 ≤ n → IsBasic P (.integer n)
  | binary {l r : Expr} {op : BinaryOp} : IsBasic P l → IsBasic P r → IsBasic P (.binary l op r)
  | unary {op : UnaryOp} {e : Expr} : IsBasic P e → IsBasic P (.unary op e)
  | isNull {e : Expr} {negated : Bool} : IsBasic P e → IsBasic P (.isNull e negated)
  | inList {e : Expr} {items : List Expr} {negated : Bool} : IsBasic P e → items ≠ [] →
      (∀ x ∈ items, IsBasic P x) → IsBasic P (.inList e items negated)

/-- A tree of such a form, whatever names are in it. -/
abbrev Expr.LooksBasic (e : Expr) : Prop := e.IsBasic fun _ => True

namespace Expr

/-- Does the last operand of the expression end in front of the operator? -/
def admits (op : BinaryOp) : Expr → Bool
  | .binary _ op' _ => op.tier.rank ≤ op'.tier.rank
  | .unary op' _ => op.tier.rank < op'.tier.rank
  | _ => true

/-- Can the expression be the left operand without parentheses? Comparisons do not stand in a row,
and a predicate that ends in a word or a list ends in front of every operator. -/
def opensLeft (op : BinaryOp) (e : Expr) : Bool :=
  e.admits op && !(op.tier = .comparison && e.tier = .comparison)

/-- Can the expression be read without parentheses where every operator has to bind at least as
tightly as `floor`? A sign or `NOT` can stand anywhere. -/
def opensFrom (floor : Nat) : Expr → Bool
  | .binary _ op _ => floor ≤ op.tier.rank
  | .isNull .. | .inList .. => floor ≤ Tier.comparison.rank
  | _ => true

/-- The tokens can be read as the expression where every operator has to bind at least as tightly as
`floor`. Of the items of a list only what they have in common with their printed tokens is told. -/
inductive Written : Nat → List Kind → Expr → Prop
  | grouped {floor : Nat} {ts : List Kind} {e : Expr} : Written 0 ts e → Written floor (parens ts) e
  | column {floor : Nat} {n : Name} : n.IsQuoted → Written floor n.tokens (.column n)
  | integer {floor : Nat} {n : Int64} : 0 ≤ n → Written floor [.integer n] (.integer n)
  | unary {floor : Nat} {ts : List Kind} {op : UnaryOp} {e : Expr} : Written op.tier.rank ts e →
      Written floor (op.token :: ts) (.unary op e)
  | binary {floor : Nat} {ts us : List Kind} {op : BinaryOp} {l r : Expr} : floor ≤ op.tier.rank →
      Written floor ts l → l.opensLeft op = true → Written (op.tier.rank + 1) us r →
      Written floor (ts ++ op.token :: us) (.binary l op r)
  | binaryGrouped {floor : Nat} {ts us : List Kind} {op : BinaryOp} {l r : Expr} :
      floor ≤ op.tier.rank → Written 0 ts l → Written (op.tier.rank + 1) us r →
      Written floor (parens ts ++ op.token :: us) (.binary l op r)
  | isNull {floor : Nat} {ts : List Kind} {e : Expr} {negated : Bool} :
      floor ≤ Tier.comparison.rank → Written floor ts e →
      Written floor (ts ++ .keyword .IS :: (given negated (.keyword .NOT) ++ [.keyword .NULL]))
        (.isNull e negated)
  | inList {floor : Nat} {ts us : List Kind} {e : Expr} {items : List Expr} {negated : Bool} :
      floor ≤ Tier.comparison.rank → Written floor ts e →
      (inList e items negated).IsBasic Name.IsQuoted →
      bare us = bare (commas (tokenLists items)) → Balanced us →
      Written floor (ts ++ (given negated (.keyword .NOT) ++ .keyword .IN :: parens us))
        (.inList e items negated)

variable {floor : Nat} {ts us : List Kind} {op : BinaryOp} {e e' l r : Expr} {P : Name → Prop}

theorem bare_tokens_binary (l : Expr) (op : BinaryOp) (r : Expr) :
    bare (Expr.binary l op r).tokens = bare l.tokens ++ op.token :: bare r.tokens := by
  rw [tokens, bare_append, bare_cons (isBare_token op), bare_parensIf, bare_parensIf]

theorem bare_tokens_unary (op : UnaryOp) (e : Expr) :
    bare (Expr.unary op e).tokens = op.token :: bare e.tokens := by
  cases op with
  | not => rw [tokens, UnaryOp.token, bare_cons rfl, bare_parensIf]
  | minus | plus => rw [tokens_sign (by simp), UnaryOp.token, bare_cons rfl, bare_parensIf]

theorem balanced_nameTokens (n : Name) : Balanced n.tokens := by
  obtain ⟨x, xs, hn⟩ := n.tokens_row
  rw [hn, Ident.token, balanced_cons rfl]
  clear hn
  induction xs with
  | nil => exact balanced_nil
  | cons y ys ih => exact (balanced_cons rfl).2 ((balanced_cons rfl).2 ih)

namespace Written

/-- All token sequences of an expression differ in parentheses only. -/
theorem bare_eq (h : Written floor ts e) : bare ts = bare e.tokens := by
  induction h with
  | grouped _ ih => rw [bare_parens, ih]
  | column => rw [tokens]
  | integer => rw [Expr.integer, tokens, Literal.tokens]
  | @unary _ _ op _ _ ih => rw [bare_tokens_unary, bare_cons (by cases op <;> rfl), ih]
  | @binary _ _ _ op _ _ _ _ _ _ ihl ihr =>
    rw [bare_tokens_binary, bare_append, bare_cons (isBare_token op), ihl, ihr]
  | @binaryGrouped _ _ _ op _ _ _ _ _ ihl ihr =>
    rw [bare_tokens_binary, bare_append, bare_parens, bare_cons (isBare_token op), ihl, ihr]
  | isNull _ _ ih => rw [tokens, bare_append, bare_append, bare_parensIf, ih]
  | inList _ _ _ hitems _ ih =>
    rw [tokens, bare_append, bare_append, bare_append, bare_append, bare_parensIf, ih,
      bare_cons rfl, bare_cons rfl, bare_parens, bare_parens, hitems]

theorem balanced (h : Written floor ts e) : Balanced ts := by
  induction h with
  | grouped _ ih => exact ih.parens
  | column => exact balanced_nameTokens _
  | integer => exact (balanced_cons rfl).2 balanced_nil
  | @unary _ ts op e _ ih => cases op <;> exact (balanced_cons rfl).2 ih
  | @binary _ _ _ op _ _ _ _ _ _ ihl ihr =>
    exact ihl.append ((balanced_cons (isBare_token op)).2 ihr)
  | @binaryGrouped _ _ _ op _ _ _ _ _ ihl ihr =>
    exact ihl.parens.append ((balanced_cons (isBare_token op)).2 ihr)
  | @isNull _ _ _ negated _ _ ih =>
    refine ih.append ((balanced_cons rfl).2 ?_)
    cases negated <;> exact rfl
  | @inList _ _ _ _ _ negated _ _ _ _ hus ih =>
    have hlist : Balanced (.keyword .IN :: parens _) := (balanced_cons rfl).2 hus.parens
    cases negated with
    | true => exact ih.append ((balanced_cons rfl).2 hlist)
    | false => exact ih.append hlist

theorem isBasic (h : Written floor ts e) : e.IsBasic Name.IsQuoted := by
  induction h with
  | grouped _ ih => exact ih
  | column hn => exact .column hn
  | integer hn => exact .integer hn
  | unary _ ih => exact .unary ih
  | binary _ _ _ _ ihl ihr | binaryGrouped _ _ _ ihl ihr => exact .binary ihl ihr
  | isNull _ _ ih => exact .isNull ih
  | inList _ _ h => exact h

/-- The tokens of a list that is written item by item. -/
theorem list {tss : List (List Kind)} {items : List Expr} (h : List.Forall₂ (Written 0) tss items) :
    (∀ x ∈ items, x.IsBasic Name.IsQuoted) ∧
      bare (commas tss) = bare (commas (tokenLists items)) ∧ Balanced (commas tss) := by
  have heach : (∀ x ∈ items, x.IsBasic Name.IsQuoted) ∧
      tss.map bare = (tokenLists items).map bare ∧ ∀ ts ∈ tss, Balanced ts := by
    induction h with
    | nil => exact ⟨nofun, rfl, nofun⟩
    | cons hw _ ih =>
      obtain ⟨hbasic, hbare, hbalanced⟩ := ih
      rw [List.map_cons, tokenLists, List.map_cons, hw.bare_eq, hbare]
      exact ⟨List.forall_mem_cons.2 ⟨hw.isBasic, hbasic⟩, rfl,
        List.forall_mem_cons.2 ⟨hw.balanced, hbalanced⟩⟩
  obtain ⟨hbasic, hbare, hbalanced⟩ := heach
  rw [bare_commas, bare_commas, hbare]
  exact ⟨hbasic, rfl, .commas hbalanced⟩

/-- The tokens of a tree that starts with an operand start with those of the operand, behind some
parentheses. -/
theorem left {b : Bool} (h : Written floor ts e) (hl : e.leftOperand? = some (b, l)) :
    ∃ j us k vs, ts = List.replicate j (.symbol .leftParen) ++ us ++ k :: vs ∧ k.isBare = true ∧
      Balanced us ∧ bare us = bare l.tokens := by
  induction h with
  | grouped _ ih =>
    obtain ⟨j, us, k, vs, rfl, hk, hus, hbare⟩ := ih hl
    exact ⟨j + 1, us, k, vs ++ [.symbol .rightParen], by simp [parens, List.replicate_succ], hk,
      hus, hbare⟩
  | binary _ hw =>
    cases hl
    exact ⟨0, _, _, _, rfl, isBare_token _, hw.balanced, hw.bare_eq⟩
  | binaryGrouped _ hw =>
    cases hl
    exact ⟨0, _, _, _, rfl, isBare_token _, hw.balanced.parens, bare_parens.trans hw.bare_eq⟩
  | isNull _ hw =>
    cases hl
    exact ⟨0, _, _, _, rfl, rfl, hw.balanced, hw.bare_eq⟩
  | @inList _ ts _ _ _ negated _ hw =>
    cases hl
    cases negated with
    | true => exact ⟨0, ts, .keyword .NOT, _, rfl, rfl, hw.balanced, hw.bare_eq⟩
    | false => exact ⟨0, ts, .keyword .IN, _, rfl, rfl, hw.balanced, hw.bare_eq⟩
  | column | integer | unary => cases hl

/-- A tree that starts with an operand does not stand in parentheses where the tokens of the operand
come first: they are balanced, so no parenthesis can stand open in front of them. -/
theorem ne_parens {b : Bool} {k : Kind} {vs : List Kind} (h : Written 0 us e)
    (hl : e.leftOperand? = some (b, l)) (hts : Balanced ts) (hbare : bare ts = bare l.tokens)
    (hk : k.isBare = true) : ts ++ k :: vs ≠ parens us := by
  intro heq
  obtain ⟨j, ws, k', ws', rfl, hk', hws, hbare'⟩ := h.left hl
  have hcut : ts ++ k :: vs = (List.replicate (j + 1) (.symbol .leftParen) ++ ws) ++
      k' :: (ws' ++ [.symbol .rightParen]) := by
    rw [heq]
    simp [parens, List.replicate_succ]
  have hopen : bare (List.replicate (j + 1) (.symbol .leftParen)) = [] := by
    simp [bare, Kind.isBare]
  obtain ⟨rfl, -⟩ := cut_unique hcut hk hk' (by
    rw [bare_append, hopen, List.nil_append, hbare, hbare'])
  cases eq_zero_of_balanced hts hws

/-- Without parentheses, only some expressions can be read in a slot. -/
theorem opensFrom (h : Written floor ts e) :
    e.opensFrom floor = true ∨ ∃ us, ts = parens us ∧ Written 0 us e := by
  cases h with
  | grouped h => exact .inr ⟨_, rfl, h⟩
  | binary hf | binaryGrouped hf | isNull hf | inList hf => exact .inl (decide_eq_true hf)
  | column | integer | unary => exact .inl rfl

end Written

namespace IsBasic

theorem balanced (h : e.IsBasic P) : Balanced e.tokens := by
  induction h with
  | column => exact balanced_nameTokens _
  | integer => exact (balanced_cons rfl).2 balanced_nil
  | @binary l r op _ _ ihl ihr =>
    rw [tokens]
    exact (ihl.parensIf _).append ((balanced_cons (isBare_token op)).2 (ihr.parensIf _))
  | @unary op e _ ih =>
    cases op with
    | not => exact (balanced_cons rfl).2 (ih.parensIf _)
    | minus | plus =>
      rw [tokens_sign (by simp)]
      exact (balanced_cons rfl).2 (ih.parensIf _)
  | @isNull e negated _ ih =>
    rw [tokens]
    refine (ih.parensIf _).append ((balanced_cons rfl).2 ?_)
    cases negated <;> exact rfl
  | @inList e items negated _ _ _ ih ihitems =>
    have hitems : Balanced (commas (tokenLists items)) := by
      rw [tokenLists_eq]
      exact .commas (List.forall_mem_map.2 ihitems)
    have hlist := (balanced_cons (k := .keyword .IN) rfl).2 hitems.parens
    rw [tokens]
    cases negated with
    | true => exact (ih.parensIf _).append ((balanced_cons rfl).2 hlist)
    | false => exact (ih.parensIf _).append hlist

/-- The names in a tree are printed as they are, and nothing else is a name. -/
theorem quoted_tokens (h : e.IsBasic Name.IsQuoted) : ∀ k ∈ e.tokens, k.Quoted := by
  refine quoted_of_bare ?_
  induction h with
  | @column n hn =>
    obtain ⟨x, xs, -, hparts⟩ := n.exists_foldl
    rw [Name.IsQuoted, hparts] at hn
    obtain ⟨hx, hxs⟩ := List.forall_mem_cons.1 hn
    rw [tokens, Name.tokens_eq fun y hy => (hn y (hparts ▸ hy)).1, Name.callTokens_eq hparts]
    intro k hk
    obtain rfl | hk := List.mem_cons.1 (List.mem_of_mem_filter hk)
    · exact hx
    obtain ⟨y, hy, hk⟩ := List.mem_flatMap.1 hk
    obtain rfl | hk := List.mem_cons.1 hk
    · trivial
    · rw [List.mem_singleton.1 hk]
      exact hxs y hy
  | integer => exact List.forall_mem_singleton.2 trivial
  | binary _ _ ihl ihr =>
    rw [bare_tokens_binary]
    exact List.forall_mem_append.2 ⟨ihl, List.forall_mem_cons.2 ⟨quoted_token _, ihr⟩⟩
  | @unary op e _ ih =>
    rw [bare_tokens_unary]
    exact List.forall_mem_cons.2 ⟨by cases op <;> trivial, ih⟩
  | @isNull e negated _ ih =>
    rw [tokens, bare_append, bare_parensIf]
    refine List.forall_mem_append.2 ⟨ih, ?_⟩
    cases negated <;> simp [given, bare, isBare, Kind.Quoted]
  | @inList e items negated _ _ _ ih ihitems =>
    have hitems : ∀ k ∈ commas ((tokenLists items).map bare), k.Quoted := by
      rw [tokenLists_eq, List.map_map]
      exact quoted_commas (List.forall_mem_map.2 ihitems)
    rw [tokens, bare_append, bare_parensIf, bare_append, bare_cons rfl, bare_parens, bare_commas]
    refine List.forall_mem_append.2 ⟨ih, List.forall_mem_append.2 ⟨?_, ?_⟩⟩
    · cases negated <;> simp [given, bare, isBare, Kind.Quoted]
    · exact List.forall_mem_cons.2 ⟨trivial, hitems⟩

theorem left {b : Bool} (h : e.IsBasic P) (hl : e.leftOperand? = some (b, l)) : l.IsBasic P := by
  cases h with
  | binary hl' _ | isNull hl' | inList hl' =>
    cases hl
    exact hl'
  | column | integer | unary => cases hl

/-- No tree is printed in parentheses. -/
theorem not_grouped (h : e.IsBasic P) (hw : Written 0 us e) : e.tokens ≠ parens us := by
  cases hl : e.leftOperand? with
  | some operand =>
    obtain ⟨b, l⟩ := operand
    obtain ⟨k, ts, ht, hk⟩ := tokens_left hl
    rw [ht]
    exact hw.ne_parens hl ((h.left hl).balanced.parensIf b) bare_parensIf (isBare_of_joins hk)
  | none =>
    cases h with
    | @column n =>
      obtain ⟨x, xs, hn⟩ := n.tokens_row
      rw [tokens, hn]
      nofun
    | integer => nofun
    | @unary op e =>
      cases op with
      | not => nofun
      | minus | plus =>
        rw [tokens_sign (by simp)]
        nofun
    | binary | isNull | inList => cases hl

end IsBasic

/-! ### Trees that are the same -/

theorem sameAll_iff {xs ys : List Expr} :
    sameAll xs ys = true ↔ List.Forall₂ (fun x y => x.same y = true) xs ys := by
  induction xs generalizing ys with
  | nil => cases ys <;> simp [sameAll]
  | cons x xs ih => cases ys <;> simp [sameAll, ih]

namespace IsBasic

theorem of_sameAll {es es' : List Expr} (hs : List.Forall₂ (fun x y => x.same y = true) es' es)
    (h : ∀ x ∈ es, ∀ x', x'.same x = true →
      x'.LooksBasic ∧ (x'.IsBasic Name.IsQuoted → x' = x)) :
    (∀ x ∈ es', x.LooksBasic) ∧ ((∀ x ∈ es', x.IsBasic Name.IsQuoted) → es' = es) := by
  induction hs with
  | nil => exact ⟨nofun, fun _ => rfl⟩
  | cons hx _ ih =>
    obtain ⟨hlook, heq⟩ := h _ List.mem_cons_self _ hx
    obtain ⟨hlooks, heqs⟩ := ih fun y hy => h y (List.mem_cons_of_mem _ hy)
    refine ⟨List.forall_mem_cons.2 ⟨hlook, hlooks⟩, fun hall => ?_⟩
    obtain ⟨hx', hxs'⟩ := List.forall_mem_cons.1 hall
    rw [heq hx', heqs hxs']

/-- What is the same as an operator tree is one but for the spelling of its names, which leaves no
difference where they are quoted. -/
theorem of_same (h : e.IsBasic Name.IsQuoted) (hs : e'.same e = true) :
    e'.LooksBasic ∧ (e'.IsBasic Name.IsQuoted → e' = e) := by
  induction h generalizing e' with
  | column hn =>
    cases e' with
    | column =>
      refine ⟨.column trivial, ?_⟩
      rintro (hn' | _)
      rw [hn'.eq_of_same hn hs]
    | _ => cases hs
  | integer hn =>
    cases e' with
    | literal v =>
      cases v with
      | integer =>
        have hv := beq_iff_eq.1 hs
        cases hv
        exact ⟨.integer hn, fun _ => rfl⟩
      | _ => cases hs
    | _ => cases hs
  | binary _ _ ihl ihr =>
    cases e' with
    | binary =>
      simp only [same, Bool.and_eq_true, beq_iff_eq] at hs
      obtain ⟨⟨hl, rfl⟩, hr⟩ := hs
      refine ⟨.binary (ihl hl).1 (ihr hr).1, ?_⟩
      rintro (_ | _ | ⟨hl', hr'⟩)
      rw [(ihl hl).2 hl', (ihr hr).2 hr']
    | _ => cases hs
  | unary _ ih =>
    cases e' with
    | unary =>
      simp only [same, Bool.and_eq_true, beq_iff_eq] at hs
      obtain ⟨rfl, he⟩ := hs
      refine ⟨.unary (ih he).1, ?_⟩
      rintro (_ | _ | _ | he')
      rw [(ih he).2 he']
    | _ => cases hs
  | isNull _ ih =>
    cases e' with
    | isNull =>
      simp only [same, Bool.and_eq_true, beq_iff_eq] at hs
      obtain ⟨he, rfl⟩ := hs
      refine ⟨.isNull (ih he).1, ?_⟩
      rintro (_ | _ | _ | _ | he')
      rw [(ih he).2 he']
    | _ => cases hs
  | @inList _ items _ _ hne _ ih ihitems =>
    cases e' with
    | inList _ items' =>
      simp only [same, Bool.and_eq_true, beq_iff_eq, sameAll_iff] at hs
      obtain ⟨⟨he, hitems⟩, rfl⟩ := hs
      obtain ⟨hlook, heq⟩ := of_sameAll hitems fun x hx _ => ihitems x hx
      have hne' : items' ≠ [] := by
        rintro rfl
        exact hne (List.forall₂_nil_left_iff.1 hitems)
      refine ⟨.inList (ih he).1 hne' hlook, ?_⟩
      rintro (_ | _ | _ | _ | _ | ⟨he', -, hitems'⟩)
      rw [(ih he).2 he', heq hitems']
    | _ => cases hs

end IsBasic

/-! ### The left end of a chain -/

/-- The expression starts with `l op`, perhaps at the left end of a chain. -/
inductive StartsWith (l : Expr) (op : BinaryOp) : Expr → Prop
  | here (r : Expr) : StartsWith l op (.binary l op r)
  | left {e : Expr} {op' : BinaryOp} {r : Expr} : StartsWith l op e →
      StartsWith l op (.binary e op' r)

theorem startsWith_prepend (l e : Expr) : StartsWith l op (prepend l op e) := by
  fun_induction prepend l op e with
  | case1 x op' y htier ih => exact .left ih
  | case2 => exact .here _
  | case3 => exact .here _

theorem startsWith_regroup (l r : Expr) : StartsWith l op (regroup l op r) := by
  rw [regroup]
  split
  · exact startsWith_prepend l r
  · exact .here r

/-- Where an expression starts with `l op`, `l` stands in parentheses or can do without. -/
theorem Written.startsWith (h : Written floor ts e) (hs : StartsWith l op e) :
    ∃ j us vs, ts = List.replicate j (.symbol .leftParen) ++ us ++ op.token :: vs ∧
      Balanced us ∧ bare us = bare l.tokens ∧
      (l.opensLeft op = true ∨ ∃ ws, us = parens ws ∧ Written 0 ws l) := by
  induction h with
  | grouped _ ih =>
    obtain ⟨j, us, vs, rfl, hus⟩ := ih hs
    exact ⟨j + 1, us, vs ++ [.symbol .rightParen], by simp [parens, List.replicate_succ], hus⟩
  | @binary _ _ rs op' _ _ _ hl hopens _ ihl =>
    cases hs with
    | here r => exact ⟨0, _, _, rfl, hl.balanced, hl.bare_eq, .inl hopens⟩
    | left hs =>
      obtain ⟨j, us, vs, rfl, hus⟩ := ihl hs
      exact ⟨j, us, vs ++ op'.token :: rs, by simp, hus⟩
  | @binaryGrouped _ _ rs op' _ _ _ hl _ ihl =>
    cases hs with
    | here r =>
      exact ⟨0, _, _, rfl, hl.balanced.parens, bare_parens.trans hl.bare_eq, .inr ⟨_, rfl, hl⟩⟩
    | left hs =>
      obtain ⟨j, us, vs, rfl, hus⟩ := ihl hs
      exact ⟨j + 1, us, vs ++ .symbol .rightParen :: op'.token :: rs,
        by simp [parens, List.replicate_succ], hus⟩
  | column | integer | unary | isNull | inList => cases hs

end Expr

end Sql
