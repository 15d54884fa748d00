import Sql.Proofs.Leading
import Sql.Proofs.Leaves

/-! The tokens of fixed choices, of laid out statements and of operands next to a sign or a
point. -/
namespace Sql

open Token (Kind Spelling)
open Token.Kind (commas joined parens parensIf given next)

variable {o : Layout} {s : String} {ts : List Kind}

/-! ### Fixed choices -/

theorem BinaryOp.prints (op : BinaryOp) : Prints op.sql [op.token] := by
  cases op with
  | add => exact .symbol .plus (by decide)
  | sub => exact .symbol .minus (by decide)
  | mul => exact .symbol .star (by decide)
  | div => exact .symbol .slash (by decide)
  | mod => exact .symbol .percent (by decide)
  | concat => exact .symbol .concat (by decide)
  | eq => exact .symbol .eq (by decide)
  | ne => exact .symbol .ne (by decide)
  | lt => exact .symbol .lt (by decide)
  | le => exact .symbol .le (by decide)
  | gt => exact .symbol .gt (by decide)
  | ge => exact .symbol .ge (by decide)
  | and => exact .fixed "AND" [.keyword .AND] (by cbv)
  | or => exact .fixed "OR" [.keyword .OR] (by cbv)

/-- A fixed text that is there or not. -/
theorem Leads.fixedIf (condition : Bool) (s : String) (ts : List Kind)
    (hs : leadKinds? [] s.toList = some ts := by cbv) :
    Leads (if condition then s else "") (if condition then ts else []) := by
  cases condition with
  | true => exact .fixed s ts hs
  | false => exact .empty

theorem Follows.fixedIf (condition : Bool) (s : String) (ts : List Kind)
    (hs : leadKinds? [] (s.toList ++ [' ']) = some ts := by cbv)
    (hn : startsNeutral s = true := by cbv) :
    Follows (if condition then s else "") (if condition then ts else []) := by
  cases condition with
  | true => exact .fixed s ts hs hn
  | false => exact .empty

theorem leads_notLead (negated : Bool) : Leads (notLead negated) (given negated (.keyword .NOT)) :=
  .fixedIf negated "NOT " [.keyword .NOT] (by cbv)

theorem Quantifier.leads_lead (q : Option Quantifier) :
    Leads (lead q) (q.map Quantifier.token).toList := by
  cases q with
  | none => exact .empty
  | some q =>
    cases q with
    | distinct => exact .fixed "DISTINCT " [.keyword .DISTINCT] (by cbv)
    | all => exact .fixed "ALL " [.keyword .ALL] (by cbv)

theorem NullTreatment.follows (n : Option NullTreatment) :
    Follows (textAfter " " (n.map NullTreatment.sql)) (tokens? n) := by
  cases n with
  | none => exact .empty
  | some t =>
    cases t with
    | ignore => exact .fixed " IGNORE NULLS" [.word "IGNORE", .word "NULLS"] (by cbv) (by cbv)
    | respect => exact .fixed " RESPECT NULLS" [.word "RESPECT", .word "NULLS"] (by cbv) (by cbv)

theorem NullOrder.follows (n : Option NullOrder) :
    Follows (textAfter " " (n.map NullOrder.sql)) (tokens? n) := by
  cases n with
  | none => exact .empty
  | some t =>
    cases t with
    | first => exact .fixed " NULLS FIRST" [.word "NULLS", .word "FIRST"] (by cbv) (by cbv)
    | last => exact .fixed " NULLS LAST" [.word "NULLS", .word "LAST"] (by cbv) (by cbv)

theorem FrameUnits.prints (u : FrameUnits) : Prints u.sql [u.token] :=
  .fixed u.sql [u.token] (by cases u <;> cbv)

theorem IntervalField.prints (f : IntervalField) : Prints f.sql [f.token] :=
  .fixed f.sql [f.token] (by cases f <;> cbv)

theorem IntervalField.follows (f : Option IntervalField) :
    Follows (textAfter " TO " (f.map IntervalField.sql)) (tokens? f) := by
  cases f with
  | none => exact .empty
  | some finer => exact .lead " TO " [.word "TO"] finer.prints (by cbv) (by cbv)

theorem JoinKind.prints (k : JoinKind) : Prints k.sql k.tokens :=
  .fixed k.sql k.tokens (by cases k <;> cbv)

theorem SetOperator.prints (op : SetOperator) : Prints op.sql [op.token] :=
  .fixed op.sql [op.token] (by cases op <;> cbv)

theorem SampleMethod.prints (m : SampleMethod) : Prints m.sql [m.token] :=
  .fixed m.sql [m.token] (by cases m <;> cbv)

/-! ### Layout -/

/-- A text in front of a blank or a line break. -/
theorem Prints.newline (h : Prints s ts) (o : Layout) : Leads (s ++ o.newline) ts := by
  unfold Layout.newline
  split
  · exact (h.leads "\n" [] (by cbv) (by cbv)).cast (List.append_nil _)
  · exact (h.leads " " [] (by cbv) (by cbv)).cast (List.append_nil _)

theorem Prints.spaces (width : Nat) (h : Prints s ts) : Prints (Text.spaces width ++ s) ts := by
  unfold Prints Text.spaces
  rw [String.toList_append, String.toList_ofList]
  exact Spells.blanks width h

/-- The keyword and the value of a clause, or the text of a block, are printed as the tokens. -/
def Entry.Printed : Entry → List Kind → Prop
  | .clause keyword value, ts => ∃ ks vs, Prints keyword ks ∧ Prints value vs ∧ ts = ks ++ vs
  | .block text, ts => Prints text ts

namespace Entry

theorem Printed.inlineText {e : Entry} (h : e.Printed ts) : Prints e.inlineText ts := by
  cases e with
  | clause keyword value =>
    obtain ⟨ks, vs, hk, hv, rfl⟩ := h
    exact ((hk.leads " " [] (by cbv) (by cbv)).prints hv).cast (by simp)
  | block text => exact h

theorem Printed.prettyText {e : Entry} (h : e.Printed ts) (width : Nat) :
    Prints (e.prettyText width) ts := by
  cases e with
  | clause keyword value =>
    obtain ⟨ks, vs, hk, hv, rfl⟩ := h
    exact (((hk.spaces _).leads " " [] (by cbv) (by cbv)).prints (hv.pad _)).cast (by simp)
  | block text => exact h

theorem printed (keyword : String) (ks : List Kind) {value : String} {vs : List Kind}
    (hv : Prints value vs)
    (hk : leadKinds? [] (keyword.toList ++ [' ']) = some ks := by cbv) :
    (Entry.clause keyword value).Printed (ks ++ vs) :=
  ⟨ks, vs, .fixed keyword ks hk, hv, rfl⟩

/-- The tokens of a statement are those of its clauses. -/
theorem prints_layOut {entries : List Entry} (h : Pieces Entry.Printed entries ts) :
    Prints (layOut o entries) ts := by
  obtain ⟨tss, hall, rfl⟩ := h
  unfold layOut
  rw [← intercalate_nil]
  split
  · refine .intercalate (List.forall₂_map_left_iff.2 (hall.imp fun e ts he => ?_)) "\n" []
      (by cbv) (by cbv)
    exact he.prettyText _
  · refine .intercalate (List.forall₂_map_left_iff.2 (hall.imp fun e ts he => ?_)) " " []
      (by cbv) (by cbv)
    exact he.inlineText

/-- A clause of a list that may be empty. -/
theorem pieces_unlessEmpty (keyword lead : String) (ks : List Kind) {texts : List String}
    {tss : List (List Kind)} (h : List.Forall₂ Prints texts tss) {ls : List Kind}
    (hl : Leads lead ls) (hk : leadKinds? [] (keyword.toList ++ [' ']) = some ks) :
    Pieces Entry.Printed (unlessEmpty keyword lead texts)
      (if texts.isEmpty then [] else ks ++ (ls ++ commas tss)) := by
  unfold unlessEmpty
  split
  · exact .nil
  · exact .single (printed keyword ks (hl.prints (.commas h)) hk)

end Entry

/-- The branches of a case expression. -/
theorem prints_caseText {branches : List String} {us : List Kind} (h : Prints s ts)
    (hb : Pieces Prints branches us) :
    Prints (caseText o s branches) (ts ++ (us ++ [Kind.keyword .END])) := by
  obtain ⟨tss, hall, rfl⟩ := hb
  unfold caseText
  split
  · have hlines := (Prints.intercalate hall "\n" [] (by cbv) (by cbv)).cast (intercalate_nil tss)
    have hhead :=
      (h.leads "\n" [] (by cbv) (by cbv)).prints ((hlines.pad o.indent).spaces o.indent)
    rw [← String.append_assoc] at hhead
    exact (hhead.ends "\nEND" [.keyword .END] (by cbv) (by cbv)).cast (by simp)
  · have hlines := (Prints.intercalate hall " " [] (by cbv) (by cbv)).cast (intercalate_nil tss)
    have hhead := (h.leads " " [] (by cbv) (by cbv)).prints hlines
    exact (hhead.ends " END" [.keyword .END] (by cbv) (by cbv)).cast (by simp)

/-! ### Signs and points -/

/-- Signs and arrows are the only tokens that start as they do. -/
theorem Token.Spelling.head_sign {w : List Char} {k : Kind} (h : Spelling w k)
    (hk : k.opens = true) (hm : k ≠ .symbol .minus) :
    w.head? ≠ some '-' ∧ w.head? ≠ some '>' := by
  have hdigits : ∀ ds rest, Token.AllDigits ds → (ds ++ rest : List Char).head? ≠ some '-' ∧
      (ds ++ rest : List Char).head? ≠ some '>' := by
    intro ds rest hds
    cases ds with
    | nil => exact absurd rfl hds.1
    | cons d ds =>
      have hd := hds.2 d (by simp)
      constructor <;> rintro ⟨⟩ <;> exact absurd hd (by decide)
  cases h with
  | symbol s hs => cases s <;> first | decide | exact absurd hk (by decide) | exact absurd rfl hm
  | word hw =>
    obtain ⟨c, cs, rfl, hc, -⟩ := hw
    constructor <;> rintro ⟨⟩ <;> exact absurd hc (by decide)
  | name hn =>
    rw [Text.toList_quote]
    exact ⟨by simp [Text.nameMark], by simp [Text.nameMark]⟩
  | string text =>
    rw [Text.toList_quote]
    exact ⟨by simp [Text.stringMark], by simp [Text.stringMark]⟩
  | binary bytes => exact ⟨by simp, by simp⟩
  | @integer n hn =>
    rw [Text.toList_decimal]
    simpa using hdigits _ [] (Token.allDigits_toDigits n)
  | decimal hd =>
    obtain ⟨ds, fs, hds, -, ht⟩ | ⟨ds, hds, ht⟩ | ⟨hds, -⟩ := hd
    · rw [ht]; exact hdigits _ _ hds
    · rw [ht]; exact ⟨by simp, by simp⟩
    · simpa using hdigits _ [] hds
  | double hds hfs hes hd =>
    rw [List.append_assoc]
    exact hdigits _ _ hds

theorem Prints.head_sign {k : Kind} (h : Prints s (k :: ts)) (hk : k.opens = true)
    (hm : k ≠ .symbol .minus) : s.toList.head? ≠ some '-' ∧ s.toList.head? ≠ some '>' := by
  unfold Prints at h
  generalize s.toList = cs at h
  cases h with
  | blank hc h => rcases hc with rfl | rfl <;> exact ⟨by simp, by simp⟩
  | token hw ha h =>
    obtain ⟨c, w, rfl⟩ := hw.cons
    exact hw.head_sign hk hm

namespace Expr

variable {e : Expr}

theorem of_access (h : e.isLooser .access = false) :
    e.isLooser .unary = false ∧ e.startsWithSign = false := by
  refine ⟨?_, ?_⟩
  · have hrank : Tier.access.rank ≤ e.tier.rank := by simpa [isLooser] using h
    have : Tier.unary.rank ≤ Tier.access.rank := by decide
    simpa [isLooser] using Nat.le_trans this hrank
  · cases e with
    | unary op e => cases op <;> cases h
    | literal v =>
      cases hv : v.isNegative with
      | false => exact hv
      | true => simp [isLooser, tier, hv, Tier.rank] at h
    | _ => rfl

/-- Only a sign is printed as one: an operand that takes no other sign starts with another token. -/
theorem next_ne_minus (hl : e.isLooser .unary = false) (hs : e.startsWithSign = false) :
    next e.tokens ≠ .symbol .minus := by
  induction e using left_induction with
  | left e b l h ih =>
    have hb : b = false → l.isLooser .access = false := by
      cases e with
      | subscript base index => cases h; exact id
      | field base name => cases h; exact fun hb => (Bool.or_eq_false_iff.1 hb).2
      | binary l op r => cases op <;> cases hl
      | _ => first | cases hl; done | cases h
    obtain ⟨k, ts, ht, -⟩ := tokens_left h
    rw [ht]
    cases b with
    | true => simp [parensIf, parens]
    | false =>
      obtain ⟨k', ts', ht', -⟩ := l.tokens_cons
      have := ih (of_access (hb rfl)).1 (of_access (hb rfl)).2
      rw [ht'] at this
      simpa [parensIf, ht'] using this
  | head e h =>
    cases e with
    | unary op e =>
      cases op with
      | not => cases hl
      | minus | plus => cases hs
    | literal v =>
      cases v with
      | boolean b => cases b <;> simp [Expr.tokens, Literal.tokens]
      | double d =>
        rw [Expr.tokens, Literal.tokens]
        split <;> simp
      | _ => simp [Expr.tokens, Literal.tokens]
    | column n =>
      obtain ⟨x, us, hx, -⟩ := n.tokens_cons
      simp [Expr.tokens, hx]
    | star r =>
      cases r with
      | none => simp [Expr.tokens, Name.starTokens]
      | some n =>
        obtain ⟨x, us, hx, -⟩ := n.tokens_cons
        simp [Expr.tokens, Name.starTokens, hx]
    | call c =>
      obtain ⟨x, us, hx, -⟩ := c.tokens_cons
      simp [Expr.tokens, hx]
    | cast e t safe => cases safe <;> simp [Expr.tokens]
    | row es =>
      rw [Expr.tokens]
      unfold given
      split <;> simp [parens]
    | lambda => cases hl
    | binary | isNull | isDistinct | like | between | inList | inQuery | subscript | field =>
      cases h
    | _ => simp [Expr.tokens, parens]

/-- May a point stand behind the last of the tokens? -/
def endsBeforePoint (ts : List Kind) : Prop := ∀ k, ts.getLast? = some k → k.apart '.' = true

theorem endsBeforePoint_nil : endsBeforePoint [] := by simp [endsBeforePoint]

theorem endsBeforePoint_append {ts us : List Kind} (h : endsBeforePoint ts)
    (h' : endsBeforePoint us) : endsBeforePoint (ts ++ us) := by
  intro k hk
  rw [List.getLast?_append] at hk
  cases hu : us.getLast? with
  | none => exact h k (by simpa [hu] using hk)
  | some k' => exact h' k (by simpa [hu] using hk)

theorem endsBeforePoint_concat (ts : List Kind) {k : Kind} (h : k.apart '.' = true) :
    endsBeforePoint (ts ++ [k]) := by
  intro k' hk'
  rw [List.getLast?_concat] at hk'
  cases hk'
  exact h

theorem endsBeforePoint_last (ts : List Kind) {us : List Kind} (h : endsBeforePoint us)
    (hne : us ≠ []) : endsBeforePoint (ts ++ us) := by
  intro k hk
  rw [List.getLast?_append_of_ne_nil _ hne] at hk
  exact h k hk

theorem endsBeforePoint_parens (ts : List Kind) : endsBeforePoint (parens ts) :=
  endsBeforePoint_concat (.symbol .leftParen :: ts) rfl

theorem endsBeforePoint_word (w : String) : endsBeforePoint [.word w] := by
  intro k hk
  cases hk
  have : Token.continuesWord '.' = false := by cbv
  simp [Kind.apart, Ident.plain, this, Text.stringMark]

theorem endsBeforePoint_tail {filter : Option Expr} {nulls : Option NullTreatment}
    {window : Option Over} : endsBeforePoint
      (Expr.filterTokens filter ++ (NullTreatment.tokens? nulls ++ Over.tokens? window)) := by
  refine endsBeforePoint_append ?_ (endsBeforePoint_append ?_ ?_)
  · cases filter with
    | none => exact endsBeforePoint_nil
    | some e => exact endsBeforePoint_last [_] (endsBeforePoint_parens _) (by simp)
  · cases nulls with
    | none => exact endsBeforePoint_nil
    | some t =>
      cases t <;> exact endsBeforePoint_last [_] (endsBeforePoint_word _) (by simp)
  · cases window with
    | none => exact endsBeforePoint_nil
    | some w =>
      cases w with
      | named x => exact endsBeforePoint_concat [_] rfl
      | window w => exact endsBeforePoint_last [_] (endsBeforePoint_parens _) (by simp [parens])

/-- A point behind the operand of a field is not read with what is before it. -/
theorem endsBeforePoint_tokens (hc : e.isColumn = false) (hl : e.isLooser .access = false)
    (hf : e.takesField = true) : endsBeforePoint e.tokens := by
  cases e with
  | column n => cases hc
  | unary op e => cases op <;> cases hl
  | binary l op r => cases op <;> cases hl
  | isNull | isDistinct | like | between | inList | inQuery | lambda => cases hl
  | literal v =>
    rw [Expr.tokens]
    cases v with
    | null => exact endsBeforePoint_concat [] (by cbv)
    | boolean b => cases b <;> exact endsBeforePoint_concat [] (by cbv)
    | integer n => cases hf
    | decimal text =>
      have hpoint : Token.continuesWord '.' = false := by cbv
      refine endsBeforePoint_concat [] ?_
      simpa [Kind.apart, hpoint, takesField] using hf
    | double d =>
      rw [Literal.tokens]
      split
      · exact endsBeforePoint_last [_] (endsBeforePoint_parens _) (by simp)
      · have hpoint : Token.continuesWord '.' = false := by cbv
        exact endsBeforePoint_concat [] (by simp [Kind.apart, hpoint])
    | string | binary => exact endsBeforePoint_concat [] rfl
  | parameter => exact endsBeforePoint_concat [] rfl
  | star r =>
    cases r with
    | none => exact endsBeforePoint_concat [] rfl
    | some n =>
      rw [Expr.tokens, Name.starTokens]
      exact endsBeforePoint_last _ (endsBeforePoint_concat [_] rfl) (by simp)
  | existsQuery q =>
    rw [Expr.tokens]
    exact endsBeforePoint_last [_] (endsBeforePoint_parens _) (by simp)
  | subquery q => rw [Expr.tokens]; exact endsBeforePoint_parens _
  | call c =>
    obtain ⟨name, quantifier, args, order, filter, nulls, window⟩ := c
    have hbare : Call.isBare ⟨name, quantifier, args, order, filter, nulls, window⟩ = false := by
      simpa [takesField] using hf
    rw [Expr.tokens, Call.tokens, hbare, if_neg (by simp), ← List.append_assoc]
    refine endsBeforePoint_append ?_ endsBeforePoint_tail
    rw [parens, ← List.cons_append, ← List.append_assoc]
    exact endsBeforePoint_concat _ rfl
  | cast e t safe =>
    rw [Expr.tokens]
    exact endsBeforePoint_last [_] (endsBeforePoint_parens _) (by simp)
  | caseWhen x bs y =>
    rw [Expr.tokens, ← List.append_assoc, ← List.append_assoc, ← List.cons_append]
    exact endsBeforePoint_concat _ (by cbv)
  | array es =>
    rw [Expr.tokens, ← List.cons_append, ← List.cons_append]
    exact endsBeforePoint_concat _ rfl
  | row es =>
    rw [Expr.tokens, parens, ← List.cons_append, ← List.append_assoc]
    exact endsBeforePoint_concat _ rfl
  | subscript b i =>
    rw [Expr.tokens, ← List.cons_append, ← List.append_assoc]
    exact endsBeforePoint_concat _ rfl
  | field b x =>
    rw [Expr.tokens]
    exact endsBeforePoint_last _ (endsBeforePoint_concat [_] rfl) (by simp)
  | interval text negative start stop =>
    rw [Expr.tokens, ← List.cons_append]
    refine endsBeforePoint_last _ ?_ (by simp)
    cases stop with
    | none => exact endsBeforePoint_last [_] (endsBeforePoint_word _) (by simp)
    | some finer => exact endsBeforePoint_last [_, _, _] (endsBeforePoint_word _) (by simp)
  | typed type text =>
    rw [Expr.tokens]
    exact endsBeforePoint_concat [_] rfl

end Expr

end Sql
