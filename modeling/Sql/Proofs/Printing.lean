import Sql.Proofs.Clauses

/-! Trees are printed as their tokens, in every layout. -/
namespace Sql

open Token (Kind)
open Token.Kind (commas parens parensIf given next)

/-- Parts whose text keeps their tokens apart. -/
def Printable (ns : List Node) : Prop := ∀ n ∈ ns, n.Sound ∧ n.steady = true

section

variable {n : Node} {ns ms : List Node}

theorem printable_cons : Printable (n :: ns) ↔ (n.Sound ∧ n.steady = true) ∧ Printable ns :=
  List.forall_mem_cons

theorem printable_append : Printable (ns ++ ms) ↔ Printable ns ∧ Printable ms :=
  List.forall_mem_append

end

variable {o : Layout}

/-! ### Expressions with a text of their own -/

namespace Expr

variable {e l r : Expr}

theorem prints_binary {op : BinaryOp} (hl : Prints (l.print o) l.tokens)
    (hr : Prints (r.print o) r.tokens) :
    Prints ((Expr.binary l op r).print o) (Expr.binary l op r).tokens := by
  rw [Expr.print, Expr.tokens]
  have hleft : Leads (wrapIf (l.needsParens op .left) (l.print o) ++
      if op.isLogical then o.newline else " ") (parensIf (l.needsParens op .left) l.tokens) := by
    split
    · exact (hl.wrapIf _).newline o
    · exact ((hl.wrapIf _).leads " " [] (by cbv) (by cbv)).cast (List.append_nil _)
  have hop := (hleft.prints op.prints).leads " " [] (by cbv) (by cbv)
  exact (hop.prints (hr.wrapIf _)).cast (by simp)

theorem prints_unary {op : UnaryOp} (h : Prints (e.print o) e.tokens) :
    Prints ((Expr.unary op e).print o) (Expr.unary op e).tokens := by
  cases op with
  | not => exact (Leads.fixed "NOT " [.keyword .NOT] (by cbv)).prints (h.wrapIf _)
  | plus =>
    exact (Prints.symbol .plus (by decide)).append (h.wrapIf _) fun k hk c hc => by cases hk; rfl
  | minus =>
    -- An operand that would start with a sign of its own is put in parentheses.
    refine (Prints.symbol .minus (by decide)).append (h.wrapIf _) fun k hk => ?_
    cases hk
    have hfirst : ∃ k ts, parensIf (e.isLooser .unary || e.startsWithSign) e.tokens = k :: ts ∧
        k.opens = true ∧ k ≠ .symbol .minus := by
      obtain ⟨k, ts, ht, hk, -⟩ := e.tokens_cons
      cases hb : e.isLooser .unary || e.startsWithSign with
      | true => exact ⟨.symbol .leftParen, _, rfl, rfl, by simp⟩
      | false =>
        have hb := Bool.or_eq_false_iff.1 hb
        have hne := next_ne_minus hb.1 hb.2
        rw [ht] at hne
        exact ⟨k, ts, ht, hk, hne⟩
    obtain ⟨k, ts, ht, hk, hne⟩ := hfirst
    have hhead := (ht ▸ h.wrapIf _ : Prints _ (k :: ts)).head_sign hk hne
    intro c hc
    have hne : c ≠ '-' ∧ c ≠ '>' := ⟨fun he => hhead.1 (he ▸ hc), fun he => hhead.2 (he ▸ hc)⟩
    simpa [Kind.apart] using hne

/-- The operand of a predicate up to the predicate's own words. -/
theorem leads_predicate (h : Prints (e.print o) e.tokens) (negated : Bool) (s : String)
    (ts : List Kind) (hs : leadKinds? [] s.toList = some ts := by cbv)
    (hn : startsNeutral s = true := by cbv) :
    Leads (wrapIf (e.isLooser .concat) (e.print o) ++ s ++ notLead negated)
      (parensIf (e.isLooser .concat) e.tokens ++ ts ++ given negated (.keyword .NOT)) :=
  ((h.wrapIf _).leads s ts hs hn).append (leads_notLead negated)

theorem prints_field {x : Ident} (h : Prints (e.print o) e.tokens) (hf : e.takesField = true)
    (hx : x.Named) : Prints ((Expr.field e x).print o) (Expr.field e x).tokens := by
  rw [Expr.print, Expr.tokens, String.append_assoc]
  have hpoint : Prints ("." ++ x.sql) [.symbol .dot, x.token] := by
    refine (Prints.symbol .dot (by decide)).append (Ident.prints hx) fun k hk c hc => ?_
    rw [Ident.sql, Text.toList_quote] at hc
    cases hk
    cases hc
    rfl
  refine (h.wrapIf _).append hpoint fun k hk c hc => ?_
  rw [String.toList_append] at hc
  cases hc
  cases hb : e.isColumn || e.isLooser .access with
  | true =>
    rw [hb] at hk
    exact endsBeforePoint_parens _ k hk
  | false =>
    rw [hb] at hk
    have hb := Bool.or_eq_false_iff.1 hb
    exact endsBeforePoint_tokens hb.1 hb.2 hf k hk

end Expr

/-! ### Optional parts -/

section

variable {e : Option Expr}

theorem Expr.follows_subject (h : ∀ x ∈ e, Prints (x.print o) x.tokens) :
    Follows (textAfter " " (Expr.print? o e)) (Expr.tokensAfter [] e) := by
  cases e with
  | none => exact .empty
  | some e => exact .lead " " [] (h e rfl) (by cbv) (by cbv)

theorem Expr.pieces_otherwise (h : ∀ x ∈ e, Prints (x.print o) x.tokens) :
    Pieces Prints ((Expr.print? o e).map ("ELSE " ++ ·)).toList
      (Expr.tokensAfter [.keyword .ELSE] e) := by
  cases e with
  | none => exact .nil
  | some e => exact .single ((Leads.fixed "ELSE " [.keyword .ELSE] (by cbv)).prints (h e rfl))

theorem Expr.follows_escape (h : ∀ x ∈ e, Prints (x.print o) x.tokens) :
    Follows (textAfter " ESCAPE " (Expr.printAt? o .concat e)) (Expr.escapeTokens e) := by
  cases e with
  | none => exact .empty
  | some e => exact .lead " ESCAPE " [.word "ESCAPE"] ((h e rfl).wrapIf _) (by cbv) (by cbv)

theorem Expr.follows_filter (h : ∀ x ∈ e, Prints (x.print o) x.tokens) :
    Follows (textAfter " FILTER (WHERE " ((Expr.print? o e).map (· ++ ")")))
      (Expr.filterTokens e) := by
  cases e with
  | none => exact .empty
  | some e =>
    have hlast := (h e rfl).ends ")" [.symbol .rightParen] (by cbv) (by cbv)
    exact .lead " FILTER (WHERE " [.word "FILTER", .symbol .leftParen, .keyword .WHERE] hlast
      (by cbv) (by cbv)

theorem Expr.pieces_clause (keyword : String) (k : Kind) (h : ∀ x ∈ e, Prints (x.print o) x.tokens)
    (hk : leadKinds? [] (keyword.toList ++ [' ']) = some [k] := by cbv) :
    Pieces Entry.Printed (Entry.ofOption keyword (Expr.print? o e)) (Expr.tokensAfter [k] e) := by
  cases e with
  | none => exact .nil
  | some e => exact .single (Entry.printed keyword [k] (h e rfl) hk)

theorem Over.follows_over {w : Option Over} (h : ∀ x ∈ w, Prints (x.print o) x.tokens) :
    Follows (textAfter " OVER " (Over.print? o w)) (Over.tokens? w) := by
  cases w with
  | none => exact .empty
  | some w => exact .lead " OVER " [.word "OVER"] (h w rfl) (by cbv) (by cbv)

/-- A list behind a fixed text, if there is one. -/
theorem Follows.unlessEmpty {α : Type} (xs : List α) (s : String) (ts : List Kind)
    {texts : List String} {tss : List (List Kind)} (h : List.Forall₂ Prints texts tss)
    (hs : leadKinds? [] s.toList = some ts := by cbv)
    (hn : startsNeutral s = true := by cbv) :
    Follows (if xs.isEmpty then "" else s ++ ", ".intercalate texts)
      (if xs.isEmpty then [] else ts ++ commas tss) := by
  split
  · exact .empty
  · exact .lead s ts (.commas h) hs hn

theorem Expr.prints_word {w : String} (h : Token.IsWord w) : Prints w [.word w] := by
  obtain ⟨hbare, hword⟩ := h
  have hkind : Token.wordKind (String.ofList w.toList) = .word w := by
    rw [String.ofList_toList, Token.wordKind, hword]
  refine .spelling ?_
  rw [← hkind]
  exact .word hbare

theorem Expr.prints_interval (text : String) (negative : Bool) (start : IntervalField)
    (stop : Option IntervalField) :
    Prints ("INTERVAL " ++ (if negative then "-" else "") ++ Text.quote Text.stringMark text ++
        " " ++ start.sql ++ textAfter " TO " (stop.map IntervalField.sql))
      (.word "INTERVAL" :: (given negative (.symbol .minus) ++ .string text :: start.token ::
        IntervalField.tokens? stop)) := by
  have htext : Prints (Text.quote Text.stringMark text) [.string text] := .spelling (.string text)
  have hsigned : Prints ((if negative then "-" else "") ++ Text.quote Text.stringMark text)
      (given negative (.symbol .minus) ++ [Kind.string text]) := by
    cases negative with
    | false => exact Leads.empty.prints htext
    | true =>
      refine (Prints.symbol .minus (by decide)).append htext fun k hk c hc => ?_
      rw [Text.toList_quote] at hc
      cases hk
      cases hc
      rfl
  have hlead := (Leads.fixed "INTERVAL " [.word "INTERVAL"] (by cbv)).prints hsigned
  have hstart := (hlead.leads " " [] (by cbv) (by cbv)).prints start.prints
  have hfields := hstart.follow (IntervalField.follows stop)
  rw [← String.append_assoc] at hfields
  exact hfields.cast (by simp)

/-! ### Predicates and constructs -/

namespace Expr

variable {e l r low high pattern base index body : Expr} {mark operand otherwise : Option Expr}
  {items : List Expr} {branches : List (Expr × Expr)}

theorem prints_isDistinct {negated : Bool} (hl : Prints (l.print o) l.tokens)
    (hr : Prints (r.print o) r.tokens) :
    Prints ((Expr.isDistinct l r negated).print o) (Expr.isDistinct l r negated).tokens := by
  rw [Expr.print, Expr.tokens]
  have hlead := (leads_predicate hl negated " IS " [.keyword .IS] (by cbv) (by cbv)).append
    (.fixed "DISTINCT FROM " [.keyword .DISTINCT, .keyword .FROM] (by cbv))
  exact (hlead.prints (hr.wrapIf _)).cast (by simp)

theorem prints_like {negated : Bool} (he : Prints (e.print o) e.tokens)
    (hpattern : Prints (pattern.print o) pattern.tokens)
    (hmark : ∀ x ∈ mark, Prints (x.print o) x.tokens) :
    Prints ((Expr.like e pattern mark negated).print o)
      (Expr.like e pattern mark negated).tokens := by
  rw [Expr.print, Expr.tokens]
  have hlead := (leads_predicate he negated " " [] (by cbv) (by cbv)).append
    (.fixed "LIKE " [.keyword .LIKE] (by cbv))
  have hlike := hlead.prints (hpattern.wrapIf (pattern.isLooser .concat))
  exact (hlike.follow (follows_escape hmark)).cast (by simp)

theorem prints_between {negated : Bool} (he : Prints (e.print o) e.tokens)
    (hlow : Prints (low.print o) low.tokens) (hhigh : Prints (high.print o) high.tokens) :
    Prints ((Expr.between e low high negated).print o)
      (Expr.between e low high negated).tokens := by
  rw [Expr.print, Expr.tokens]
  have hlead := (leads_predicate he negated " " [] (by cbv) (by cbv)).append
    (.fixed "BETWEEN " [.keyword .BETWEEN] (by cbv))
  have hand := (hlead.prints (hlow.wrapIf (low.isLooser .concat))).leads " AND " [.keyword .AND]
    (by cbv) (by cbv)
  exact (hand.prints (hhigh.wrapIf _)).cast (by simp)

theorem prints_inList {negated : Bool} (he : Prints (e.print o) e.tokens)
    (hitems : List.Forall₂ Prints (Expr.prints o items) (Expr.tokenLists items)) :
    Prints ((Expr.inList e items negated).print o) (Expr.inList e items negated).tokens := by
  rw [Expr.print, Expr.tokens]
  have hlead := (leads_predicate he negated " " [] (by cbv) (by cbv)).append
    (.fixed "IN (" [.keyword .IN, .symbol .leftParen] (by cbv))
  have hlist := (hlead.prints (.commas hitems)).ends ")" [.symbol .rightParen] (by cbv) (by cbv)
  exact hlist.cast (by simp [parens])

theorem prints_cast {type : DataType} {safe : Bool} (he : Prints (e.print o) e.tokens)
    (htype : type.InRange) :
    Prints ((Expr.cast e type safe).print o) (Expr.cast e type safe).tokens := by
  rw [Expr.print, Expr.tokens]
  have hlead : Leads (if safe then "TRY_CAST(" else "CAST(")
      [if safe then .word "TRY_CAST" else .keyword .CAST, .symbol .leftParen] := by
    cases safe with
    | true => exact .fixed "TRY_CAST(" [.word "TRY_CAST", .symbol .leftParen] (by cbv)
    | false => exact .fixed "CAST(" [.keyword .CAST, .symbol .leftParen] (by cbv)
  have hoperand := (hlead.prints he).leads " AS " [.keyword .AS] (by cbv) (by cbv)
  have htyped := (hoperand.prints (type.prints htype)).ends ")" [.symbol .rightParen] (by cbv)
    (by cbv)
  exact htyped.cast (by simp [parens])

theorem prints_caseWhen (hoperand : ∀ x ∈ operand, Prints (x.print o) x.tokens)
    (hbranches : Pieces Prints (Expr.printBranches o branches) (Expr.branchTokens branches))
    (hotherwise : ∀ x ∈ otherwise, Prints (x.print o) x.tokens) :
    Prints ((Expr.caseWhen operand branches otherwise).print o)
      (Expr.caseWhen operand branches otherwise).tokens := by
  rw [Expr.print, Expr.tokens]
  have hhead := (Prints.fixed "CASE" [.keyword .CASE] (by cbv)).follow (follows_subject hoperand)
  exact (prints_caseText hhead (hbranches.append (pieces_otherwise hotherwise))).cast (by simp)

theorem prints_row (hitems : List.Forall₂ Prints (Expr.prints o items) (Expr.tokenLists items)) :
    Prints ((Expr.row items).print o) (Expr.row items).tokens := by
  rw [Expr.print, Expr.tokens]
  have hlead : Leads (if items.length < 2 then "ROW (" else "(")
      (given (items.length < 2) (.word "ROW") ++ [Kind.symbol .leftParen]) := by
    unfold given
    split
    · exact (Leads.fixed "ROW (" [.word "ROW", .symbol .leftParen] (by cbv)).cast (by simp [*])
    · exact (Leads.fixed "(" [.symbol .leftParen] (by cbv)).cast (by simp [*])
  have hlist := (hlead.prints (.commas hitems)).ends ")" [.symbol .rightParen] (by cbv) (by cbv)
  exact hlist.cast (by simp [parens])

theorem prints_subscript (hbase : Prints (base.print o) base.tokens)
    (hindex : Prints (index.print o) index.tokens) :
    Prints ((Expr.subscript base index).print o) (Expr.subscript base index).tokens := by
  rw [Expr.print, Expr.tokens]
  have hopen := (hbase.wrapIf (base.isLooser .access)).leads "[" [.symbol .leftBracket] (by cbv)
    (by cbv)
  exact ((hopen.prints hindex).ends "]" [.symbol .rightBracket] (by cbv) (by cbv)).cast (by simp)

theorem prints_lambda {params : List Ident} (hparams : ∀ x ∈ params, x.Named)
    (hbody : Prints (body.print o) body.tokens) :
    Prints ((Expr.lambda params body).print o) (Expr.lambda params body).tokens := by
  rw [Expr.print, Expr.tokens]
  have hlead := (Ident.prints_params hparams).leads " " [] (by cbv) (by cbv)
  have harrow := ((hlead.prints (.symbol .arrow (by decide))).leads " " [] (by cbv)
    (by cbv)).prints hbody
  have htext : " -> " = " " ++ Symbol.arrow.text ++ " " := by decide
  simpa only [htext, String.append_assoc, List.append_assoc, List.append_nil, List.nil_append,
    List.singleton_append] using harrow

end Expr

theorem Frame.pieces {f : Option Frame} (h : ∀ x ∈ f, Prints (x.print o) x.tokens) :
    Pieces Prints (Frame.print? o f).toList (Frame.tokens? f) := by
  cases f with
  | none => exact .nil
  | some f => exact .single (h f rfl)

theorem With.pieces {w : Option With} (h : ∀ x ∈ w, Prints (x.print o) x.tokens) :
    Pieces Entry.Printed (Entry.ofOption "WITH" (With.print? o w)) (With.tokens? w) := by
  cases w with
  | none => exact .nil
  | some w => exact .single (Entry.printed "WITH" [.keyword .WITH] (h w rfl) (by cbv))

theorem GroupBy.pieces {g : Option GroupBy} (h : ∀ x ∈ g, Prints (x.print o) x.tokens) :
    Pieces Entry.Printed (Entry.ofOption "GROUP" ((GroupBy.print? o g).map ("BY " ++ ·)))
      (GroupBy.tokens? g) := by
  cases g with
  | none => exact .nil
  | some g =>
    exact .single (Entry.printed "GROUP" [.keyword .GROUP]
      ((Leads.fixed "BY " [.keyword .BY] (by cbv)).prints (h g rfl)) (by cbv))

theorem Query.pieces_offset {n : Option Nat} (h : ∀ i ∈ n, i ≤ Token.maxInteger) :
    Pieces Entry.Printed (Entry.ofOption "OFFSET" (n.map Text.decimal)) (Query.offsetTokens n) := by
  cases n with
  | none => exact .nil
  | some i => exact .single (Entry.printed "OFFSET" [.keyword .OFFSET] (.number (h i rfl)) (by cbv))

theorem Limit.pieces {l : Option Limit} (h : ∀ i, l = some (.count i) → i ≤ Token.maxInteger) :
    Pieces Entry.Printed (l.map Limit.entry).toList (Limit.tokens? l) := by
  match l with
  | none => exact .nil
  | some (.count i) =>
    exact .single (Entry.printed "LIMIT" [.keyword .LIMIT] (.number (h i rfl)) (by cbv))
  | some .all =>
    have hall : Prints "ALL" [.keyword .ALL] := .fixed "ALL" [.keyword .ALL] (by cbv)
    exact .single (Entry.printed "LIMIT" [.keyword .LIMIT] hall (by cbv))

/-- The criteria of a join, on a line of their own. -/
theorem Criteria.follows {c : Criteria} (hs : c.Sound)
    (h : ∀ e, c = .condition e → Prints (e.print o) e.tokens) :
    Follows (c.print o) c.tokens := by
  have hline : ∀ {s ts}, Prints s ts → Follows (o.newline ++ s) ts := by
    intro s ts hs
    unfold Layout.newline
    split
    · exact .lead "\n" [] hs (by cbv) (by cbv)
    · exact .lead " " [] hs (by cbv) (by cbv)
  cases c with
  | condition e =>
    rw [Criteria.print, Criteria.tokens, String.append_assoc]
    exact hline ((Leads.fixed "ON " [.keyword .ON] (by cbv)).prints ((h e rfl).pad 3))
  | columns xs =>
    rw [Criteria.print, Criteria.tokens, String.append_assoc, String.append_assoc]
    have hlist := (Ident.prints_sqlList hs).ends ")" [.symbol .rightParen] (by cbv) (by cbv)
    have hlead := Leads.fixed "USING (" [.keyword .USING, .symbol .leftParen] (by cbv)
    exact hline (hlead.prints hlist)
  | natural | absent => exact .empty

/-- A statement of one clause in parentheses. -/
theorem prints_values {texts : List String} {tss : List (List Kind)}
    (h : List.Forall₂ Prints texts tss) :
    (Entry.clause "VALUES" (", ".intercalate texts)).Printed (.keyword .VALUES :: commas tss) :=
  Entry.printed "VALUES" [.keyword .VALUES] (.commas h) (by cbv)

theorem OrderTerm.isEmpty_prints (ts : List OrderTerm) :
    (OrderTerm.prints o ts).isEmpty = ts.isEmpty := by
  cases ts <;> rw [OrderTerm.prints] <;> rfl

theorem Relation.isEmpty_prints (rs : List Relation) :
    (Relation.prints o rs).isEmpty = rs.isEmpty := by
  cases rs <;> rw [Relation.prints] <;> rfl

theorem NamedWindow.isEmpty_prints (ws : List NamedWindow) :
    (NamedWindow.prints o ws).isEmpty = ws.isEmpty := by
  cases ws <;> rw [NamedWindow.prints] <;> rfl

end

/-! ### Trees -/

mutual

theorem Expr.prints_tokens (o : Layout) :
    (e : Expr) → Printable e.nodes → Prints (e.print o) e.tokens
  | .literal v, h => by
    rw [Expr.nodes, printable_cons] at h
    rw [Expr.print, Expr.tokens]
    exact v.prints h.1.1
  | .column n, h => by
    rw [Expr.nodes, printable_cons] at h
    rw [Expr.print, Expr.tokens]
    exact n.prints h.1.1
  | .parameter i, _ => by
    rw [Expr.print, Expr.tokens]
    exact .symbol .question (by decide)
  | .star r, h => by
    rw [Expr.nodes, printable_cons] at h
    rw [Expr.print, Expr.tokens]
    exact Name.prints_starSql h.1.1
  | .binary l op r, h => by
    rw [Expr.nodes, printable_cons, printable_append] at h
    exact Expr.prints_binary (l.prints_tokens o h.2.1) (r.prints_tokens o h.2.2)
  | .unary op e, h => by
    rw [Expr.nodes, printable_cons] at h
    exact Expr.prints_unary (e.prints_tokens o h.2)
  | .isNull e negated, h => by
    rw [Expr.nodes, printable_cons] at h
    rw [Expr.print, Expr.tokens]
    have hlead := Expr.leads_predicate (e.prints_tokens o h.2) negated " IS " [.keyword .IS]
    exact (hlead.prints (.fixed "NULL" [.keyword .NULL])).cast (by simp)
  | .isDistinct l r negated, h => by
    rw [Expr.nodes, printable_cons, printable_append] at h
    exact Expr.prints_isDistinct (l.prints_tokens o h.2.1) (r.prints_tokens o h.2.2)
  | .like e pattern mark negated, h => by
    rw [Expr.nodes, printable_cons, printable_append, printable_append] at h
    exact Expr.prints_like (e.prints_tokens o h.2.1) (pattern.prints_tokens o h.2.2.1)
      (Expr.prints?_tokens o mark h.2.2.2)
  | .between e low high negated, h => by
    rw [Expr.nodes, printable_cons, printable_append, printable_append] at h
    exact Expr.prints_between (e.prints_tokens o h.2.1) (low.prints_tokens o h.2.2.1)
      (high.prints_tokens o h.2.2.2)
  | .inList e items negated, h => by
    rw [Expr.nodes, printable_cons, printable_append] at h
    exact Expr.prints_inList (e.prints_tokens o h.2.1) (Expr.printsAll_tokens o items h.2.2)
  | .inQuery e q negated, h => by
    rw [Expr.nodes, printable_cons, printable_append] at h
    rw [Expr.print, Expr.tokens]
    have hlead := (Expr.leads_predicate (e.prints_tokens o h.2.1) negated " " []).append
      (.fixed "IN " [.keyword .IN])
    exact (hlead.prints (q.prints_tokens o h.2.2).wrap).cast (by simp)
  | .existsQuery q, h => by
    rw [Expr.nodes, printable_cons] at h
    rw [Expr.print, Expr.tokens]
    exact (Leads.fixed "EXISTS " [.keyword .EXISTS]).prints (q.prints_tokens o h.2).wrap
  | .subquery q, h => by
    rw [Expr.nodes, printable_cons] at h
    rw [Expr.print, Expr.tokens]
    exact (q.prints_tokens o h.2).wrap
  | .call c, h => by
    rw [Expr.nodes, printable_cons] at h
    rw [Expr.print, Expr.tokens]
    exact c.prints_tokens o h.2
  | .cast e type safe, h => by
    rw [Expr.nodes, printable_cons] at h
    exact Expr.prints_cast (e.prints_tokens o h.2) h.1.1
  | .caseWhen operand branches otherwise, h => by
    rw [Expr.nodes, printable_cons, printable_append, printable_append] at h
    exact Expr.prints_caseWhen (Expr.prints?_tokens o operand h.2.1)
      (Expr.pieces_branches o branches h.2.2.1) (Expr.prints?_tokens o otherwise h.2.2.2)
  | .array items, h => by
    rw [Expr.nodes, printable_cons] at h
    rw [Expr.print, Expr.tokens]
    exact ((Leads.fixed "ARRAY[" [.word "ARRAY", .symbol .leftBracket]).prints
      (.commas (Expr.printsAll_tokens o items h.2))).ends "]" [.symbol .rightBracket]
  | .row items, h => by
    rw [Expr.nodes, printable_cons] at h
    exact Expr.prints_row (Expr.printsAll_tokens o items h.2)
  | .subscript base index, h => by
    rw [Expr.nodes, printable_cons, printable_append] at h
    exact Expr.prints_subscript (base.prints_tokens o h.2.1) (index.prints_tokens o h.2.2)
  | .field base x, h => by
    rw [Expr.nodes, printable_cons] at h
    exact Expr.prints_field (base.prints_tokens o h.2) h.1.2 h.1.1
  | .lambda params body, h => by
    rw [Expr.nodes, printable_cons] at h
    exact Expr.prints_lambda h.1.1.2 (body.prints_tokens o h.2)
  | .interval text negative start stop, h => by
    rw [Expr.print, Expr.tokens]
    exact Expr.prints_interval text negative start stop
  | .typed type text, h => by
    rw [Expr.nodes, printable_cons] at h
    rw [Expr.print, Expr.tokens]
    exact (Expr.prints_word h.1.1.1).leads " " [] |>.prints (.spelling (.string text))
termination_by structural e => e

theorem Expr.printsAll_tokens (o : Layout) : (es : List Expr) → Printable (Expr.nodesAll es) →
    List.Forall₂ Prints (Expr.prints o es) (Expr.tokenLists es)
  | [], _ => .nil
  | e :: es, h => by
    rw [Expr.nodesAll, printable_append] at h
    rw [Expr.prints, Expr.tokenLists]
    exact .cons (e.prints_tokens o h.1) (Expr.printsAll_tokens o es h.2)
termination_by structural es => es

theorem Expr.printsSets_tokens (o : Layout) : (sets : List (List Expr)) →
    Printable (Expr.setNodes sets) →
    List.Forall₂ Prints (Expr.printSets o sets) (Expr.setTokenLists sets)
  | [], _ => .nil
  | es :: sets, h => by
    rw [Expr.setNodes, printable_append] at h
    rw [Expr.printSets, Expr.setTokenLists]
    have hlist := (Leads.fixed "(" [.symbol .leftParen]).prints
      (.commas (Expr.printsAll_tokens o es h.1))
    exact .cons (hlist.ends ")" [.symbol .rightParen]) (Expr.printsSets_tokens o sets h.2)
termination_by structural sets => sets

theorem Expr.pieces_branches (o : Layout) : (bs : List (Expr × Expr)) →
    Printable (Expr.branchNodes bs) →
    Pieces Prints (Expr.printBranches o bs) (Expr.branchTokens bs)
  | [], _ => .nil
  | (c, v) :: bs, h => by
    rw [Expr.branchNodes, printable_append, printable_append] at h
    rw [Expr.printBranches, Expr.branchTokens]
    have hcondition := (Leads.fixed "WHEN " [.keyword .WHEN]).prints (c.prints_tokens o h.1)
    have hbranch := (hcondition.leads " THEN " [.keyword .THEN]).prints (v.prints_tokens o h.2.1)
    exact ((Pieces.single hbranch).append (Expr.pieces_branches o bs h.2.2)).cast (by simp)
termination_by structural bs => bs

theorem Expr.prints?_tokens (o : Layout) : (e : Option Expr) → Printable (Expr.nodes? e) →
    ∀ x ∈ e, Prints (x.print o) x.tokens
  | none, _ => by simp
  | some e, h => by
    rintro _ ⟨⟩
    exact e.prints_tokens o h
termination_by structural e => e

theorem Call.prints_tokens (o : Layout) :
    (c : Call) → Printable c.nodes → Prints (c.print o) c.tokens
  | ⟨name, quantifier, args, order, filter, nulls, window⟩, h => by
    rw [Call.nodes, printable_cons, printable_append, printable_append, printable_append] at h
    obtain ⟨⟨hs, -⟩, hargs, horder, hfilter, hwindow⟩ := h
    rw [Call.print, Call.tokens]
    split
    · exact Name.prints_callSql hs.spelled
    · have hlead := ((Name.prints_callSql hs.spelled).leads "(" [.symbol .leftParen]).append
        (Quantifier.leads_lead quantifier)
      have hlist := hlead.prints (.commas (Expr.printsAll_tokens o args hargs))
      have hsorted := (hlist.follow (.unlessEmpty order " ORDER BY " [.keyword .ORDER, .keyword .BY]
        (OrderTerm.printsAll_tokens o order horder))).ends ")" [.symbol .rightParen]
      have hfiltered := hsorted.follow (Expr.follows_filter (Expr.prints?_tokens o filter hfilter))
      have htail := (hfiltered.follow (NullTreatment.follows nulls)).follow
        (Over.follows_over (Over.prints?_tokens o window hwindow))
      exact htail.cast (by simp [parens])
termination_by structural c => c

theorem OrderTerm.prints_tokens (o : Layout) :
    (t : OrderTerm) → Printable t.nodes → Prints (t.print o) t.tokens
  | ⟨e, descending, nulls⟩, h => by
    rw [OrderTerm.nodes] at h
    rw [OrderTerm.print, OrderTerm.tokens]
    have hterm := (e.prints_tokens o h).follow (.fixedIf descending " DESC" [.word "DESC"])
    exact (hterm.follow (NullOrder.follows nulls)).cast (by simp [given])
termination_by structural t => t

theorem OrderTerm.printsAll_tokens (o : Layout) : (ts : List OrderTerm) →
    Printable (OrderTerm.nodesAll ts) →
    List.Forall₂ Prints (OrderTerm.prints o ts) (OrderTerm.tokenLists ts)
  | [], _ => .nil
  | t :: ts, h => by
    rw [OrderTerm.nodesAll, printable_append] at h
    rw [OrderTerm.prints, OrderTerm.tokenLists]
    exact .cons (t.prints_tokens o h.1) (OrderTerm.printsAll_tokens o ts h.2)
termination_by structural ts => ts

theorem Over.prints_tokens (o : Layout) :
    (w : Over) → Printable w.nodes → Prints (w.print o) w.tokens
  | .named x, h => by
    rw [Over.nodes, printable_cons] at h
    rw [Over.print, Over.tokens]
    exact x.prints h.1.1
  | .window w, h => by
    rw [Over.nodes, printable_cons] at h
    rw [Over.print, Over.tokens]
    exact ((Leads.fixed "(" [.symbol .leftParen]).prints (w.prints_tokens o h.2)).ends ")"
      [.symbol .rightParen]
termination_by structural w => w

theorem Over.prints?_tokens (o : Layout) : (w : Option Over) → Printable (Over.nodes? w) →
    ∀ x ∈ w, Prints (x.print o) x.tokens
  | none, _ => by simp
  | some w, h => by
    rintro _ ⟨⟩
    exact w.prints_tokens o h
termination_by structural w => w

theorem Window.prints_tokens (o : Layout) :
    (w : Window) → Printable w.nodes → Prints (w.print o) w.tokens
  | ⟨base, partition, order, frame⟩, h => by
    rw [Window.nodes, printable_cons, printable_append, printable_append] at h
    obtain ⟨⟨hs, -⟩, hpartition, horder, hframe⟩ := h
    rw [Window.print, Window.tokens]
    have hbase : Pieces Prints (base.map Ident.sql).toList (base.map Ident.token).toList := by
      cases base with
      | none => exact .nil
      | some x => exact .single (x.prints (hs x rfl))
    have hlist := Pieces.absentIf fun (_ : partition.isEmpty = false) =>
      Pieces.single ((Leads.fixed "PARTITION BY " [.word "PARTITION", .keyword .BY]).prints
        (.commas (Expr.printsAll_tokens o partition hpartition)))
    have hsorted := Pieces.absentIf fun (_ : order.isEmpty = false) =>
      Pieces.single ((Leads.fixed "ORDER BY " [.keyword .ORDER, .keyword .BY]).prints
        (.commas (OrderTerm.printsAll_tokens o order horder)))
    have hlast : Pieces Prints (Frame.print? o frame).toList (Frame.tokens? frame) :=
      Frame.pieces (Frame.prints?_tokens o frame hframe)
    obtain ⟨tss, hall, hts⟩ := ((hbase.append hlist).append hsorted).append hlast
    have hwindow := (Prints.intercalate hall " " []).cast (intercalate_nil tss)
    exact hwindow.cast (hts.trans (by simp))
termination_by structural w => w

theorem Frame.prints_tokens (o : Layout) :
    (f : Frame) → Printable f.nodes → Prints (f.print o) f.tokens
  | ⟨units, start, none⟩, h => by
    rw [Frame.nodes, printable_append] at h
    rw [Frame.print, Frame.tokens]
    exact (units.prints.leads " " []).prints (start.prints_tokens o h.1)
  | ⟨units, start, some stop⟩, h => by
    rw [Frame.nodes, printable_append] at h
    rw [Frame.print, Frame.tokens]
    have hstart := (units.prints.leads " BETWEEN " [.keyword .BETWEEN]).prints
      (start.prints_tokens o h.1)
    exact ((hstart.leads " AND " [.keyword .AND]).prints (stop.prints_tokens o h.2)).cast (by simp)
termination_by structural f => f

theorem Frame.prints?_tokens (o : Layout) : (f : Option Frame) → Printable (Frame.nodes? f) →
    ∀ x ∈ f, Prints (x.print o) x.tokens
  | none, _ => by simp
  | some f, h => by
    rintro _ ⟨⟩
    exact f.prints_tokens o h
termination_by structural f => f

theorem Bound.prints_tokens (o : Layout) :
    (b : Bound) → Printable b.nodes → Prints (b.print o) b.tokens
  | .unboundedPreceding, _ => .fixed "UNBOUNDED PRECEDING" [.word "UNBOUNDED", .word "PRECEDING"]
  | .preceding e, h => by
    rw [Bound.nodes, printable_cons] at h
    rw [Bound.print, Bound.tokens]
    exact ((e.prints_tokens o h.2).wrapIf _).ends " PRECEDING" [.word "PRECEDING"]
  | .currentRow, _ => .fixed "CURRENT ROW" [.word "CURRENT", .word "ROW"]
  | .following e, h => by
    rw [Bound.nodes, printable_cons] at h
    rw [Bound.print, Bound.tokens]
    exact ((e.prints_tokens o h.2).wrapIf _).ends " FOLLOWING" [.word "FOLLOWING"]
  | .unboundedFollowing, _ => .fixed "UNBOUNDED FOLLOWING" [.word "UNBOUNDED", .word "FOLLOWING"]
termination_by structural b => b

theorem Relation.prints_tokens (o : Layout) :
    (r : Relation) → Printable r.nodes → Prints (r.print o) r.tokens
  | .table n _, h => by
    rw [Relation.nodes, printable_cons] at h
    rw [Relation.print, Relation.tokens]
    exact n.prints h.1.1.1
  | .renamed r x columns, h => by
    rw [Relation.nodes, printable_cons] at h
    rw [Relation.print, Relation.tokens]
    have hrelation := (r.prints_tokens o h.2).wrapIf (r.tier.rank ≤ Relation.Tier.renamed.rank)
    have hname := (hrelation.leads " AS " [.keyword .AS]).prints (x.prints h.1.1.1)
    exact (hname.follow (Ident.follows_listAfter " " [] h.1.1.2)).cast (by simp)
  | .join l r kind criteria, h => by
    rw [Relation.nodes, printable_cons, printable_append, printable_append] at h
    rw [Relation.print, Relation.tokens]
    have hlead := ((l.prints_tokens o h.2.1).newline o).append
      (.fixedIf criteria.isNatural "NATURAL " [.keyword .NATURAL])
    have hkind := (hlead.prints kind.prints).leads " " []
    have hright := hkind.prints
      ((r.prints_tokens o h.2.2.1).wrapIf (r.tier.rank ≤ Relation.Tier.join.rank))
    exact (hright.follow (criteria.follows_tokens o h.2.2.2)).cast (by simp [given])
  | .setOperation operation, h => by
    rw [Relation.nodes, printable_cons] at h
    rw [Relation.print, Relation.tokens]
    exact (operation.prints_tokens o h.2).wrap
  | .query q, h => by
    rw [Relation.nodes, printable_cons] at h
    rw [Relation.print, Relation.tokens]
    exact (q.prints_tokens o h.2).wrap
  | .values rows, h => by
    rw [Relation.nodes, printable_cons] at h
    rw [Relation.print, Relation.tokens]
    exact (Entry.prints_layOut
      (.single (prints_values (Expr.printsAll_tokens o rows h.2)))).wrap
  | .unnest args ordinality, h => by
    rw [Relation.nodes, printable_cons] at h
    rw [Relation.print, Relation.tokens]
    have hargs := ((Leads.fixed "UNNEST(" [.keyword .UNNEST, .symbol .leftParen]).prints
      (.commas (Expr.printsAll_tokens o args h.2))).ends ")" [.symbol .rightParen]
    exact (hargs.follow (.fixedIf ordinality " WITH ORDINALITY"
      [.keyword .WITH, .word "ORDINALITY"])).cast (by simp [parens])
  | .lateral q, h => by
    rw [Relation.nodes, printable_cons] at h
    rw [Relation.print, Relation.tokens]
    exact (Leads.fixed "LATERAL " [.keyword .LATERAL]).prints (q.prints_tokens o h.2).wrap
  | .sample r method percentage, h => by
    rw [Relation.nodes, printable_cons, printable_append] at h
    rw [Relation.print, Relation.tokens]
    have hrelation := (r.prints_tokens o h.2.1).wrapIf (r.tier.rank ≤ Relation.Tier.sampled.rank)
    have hmethod := (hrelation.leads " TABLESAMPLE " [.keyword .TABLESAMPLE]).prints method.prints
    have hshare := (hmethod.leads " (" [.symbol .leftParen]).prints
      (percentage.prints_tokens o h.2.2)
    exact (hshare.ends ")" [.symbol .rightParen]).cast (by simp [parens])
termination_by structural r => r

theorem Relation.printsAll_tokens (o : Layout) : (rs : List Relation) →
    Printable (Relation.nodesAll rs) →
    List.Forall₂ Prints (Relation.prints o rs) (Relation.tokenLists rs)
  | [], _ => .nil
  | r :: rs, h => by
    rw [Relation.nodesAll, printable_append] at h
    rw [Relation.prints, Relation.tokenLists]
    exact .cons (r.prints_tokens o h.1) (Relation.printsAll_tokens o rs h.2)
termination_by structural rs => rs

theorem Criteria.follows_tokens (o : Layout) :
    (c : Criteria) → Printable c.nodes → Follows (c.print o) c.tokens
  | .condition e, h => by
    rw [Criteria.nodes, printable_cons] at h
    refine Criteria.follows h.1.1 ?_
    rintro _ ⟨⟩
    exact e.prints_tokens o h.2
  | .columns xs, h => by
    rw [Criteria.nodes, printable_cons] at h
    exact Criteria.follows h.1.1 nofun
  | .natural, _ => Criteria.follows trivial nofun
  | .absent, _ => Criteria.follows trivial nofun
termination_by structural c => c

theorem SetOperation.prints_tokens (o : Layout) :
    (s : SetOperation) → Printable s.nodes → Prints (s.print o) s.tokens
  | ⟨operator, all, left, right⟩, h => by
    rw [SetOperation.nodes, printable_append] at h
    rw [SetOperation.print, SetOperation.tokens]
    have hleft := ((left.prints_tokens o h.1).wrapIf
      (SetOperation.needsParens operator .left left)).newline o
    have hoperator := ((hleft.prints operator.prints).follow
      (.fixedIf all " ALL" [.keyword .ALL])).newline o
    exact (hoperator.prints ((right.prints_tokens o h.2).wrapIf _)).cast (by simp [given])
termination_by structural s => s

theorem Query.prints_tokens (o : Layout) :
    (q : Query) → Printable q.nodes → Prints (q.print o) q.tokens
  | ⟨bindings, body, order, offset, limit⟩, h => by
    rw [Query.nodes, printable_cons, printable_append, printable_append] at h
    obtain ⟨⟨hs, -⟩, hbindings, hbody, horder⟩ := h
    have hs : Query.Sound ⟨bindings, body, order, offset, limit⟩ := hs
    rw [Query.print, Query.tokens]
    have hsorted := Entry.pieces_unlessEmpty "ORDER" "BY " [.keyword .ORDER]
      (OrderTerm.printsAll_tokens o order horder) (Leads.fixed "BY " [.keyword .BY])
      (by cbv)
    rw [OrderTerm.isEmpty_prints] at hsorted
    have hclauses := ((((With.pieces (With.prints?_tokens o bindings hbindings)).append
      (body.pieces_tokens o hbody)).append hsorted).append
      (Query.pieces_offset hs.offset)).append (Limit.pieces hs.limit)
    exact (Entry.prints_layOut hclauses).cast (by simp)
termination_by structural q => q

theorem With.prints_tokens (o : Layout) :
    (w : With) → Printable w.nodes → Prints (w.print o) w.tokens
  | ⟨recursive, entries⟩, h => by
    rw [With.nodes, printable_cons] at h
    rw [With.print, With.tokens]
    have hlead := Leads.fixedIf recursive "RECURSIVE " [.word "RECURSIVE"]
    refine hlead.prints ?_
    have hall := Cte.printsAll_tokens o entries h.2
    split
    · exact (Prints.intercalate hall ",\n" [.symbol .comma]).cast (joined_eq ..).symm
    · exact .commas hall
termination_by structural w => w

theorem With.prints?_tokens (o : Layout) : (w : Option With) → Printable (With.nodes? w) →
    ∀ x ∈ w, Prints (x.print o) x.tokens
  | none, _ => by simp
  | some w, h => by
    rintro _ ⟨⟩
    exact w.prints_tokens o h
termination_by structural w => w

theorem Cte.prints_tokens (o : Layout) :
    (c : Cte) → Printable c.nodes → Prints (c.print o) c.tokens
  | ⟨name, columns, q⟩, h => by
    rw [Cte.nodes, printable_cons] at h
    rw [Cte.print, Cte.tokens]
    have hname := (name.prints h.1.1.1).follow (Ident.follows_listAfter " " [] h.1.1.2)
    have hlead := (hname.leads " AS " [.keyword .AS]).append (.fixed "(" [.symbol .leftParen])
    exact ((hlead.prints ((q.prints_tokens o h.2).pad _)).ends ")" [.symbol .rightParen]).cast
      (by simp [parens])
termination_by structural c => c

theorem Cte.printsAll_tokens (o : Layout) : (cs : List Cte) → Printable (Cte.nodesAll cs) →
    List.Forall₂ Prints (Cte.prints o cs) (Cte.tokenLists cs)
  | [], _ => .nil
  | c :: cs, h => by
    rw [Cte.nodesAll, printable_append] at h
    rw [Cte.prints, Cte.tokenLists]
    exact .cons (c.prints_tokens o h.1) (Cte.printsAll_tokens o cs h.2)
termination_by structural cs => cs

theorem Body.pieces_tokens (o : Layout) :
    (b : Body) → Printable b.nodes → Pieces Entry.Printed (b.entries o) b.tokens
  | .select s, h => by
    rw [Body.nodes, printable_cons] at h
    rw [Body.entries, Body.tokens]
    exact s.pieces_tokens o h.2
  | .table n, h => by
    rw [Body.nodes, printable_cons] at h
    rw [Body.entries, Body.tokens]
    exact .single (Entry.printed "TABLE" [.keyword .TABLE] (n.prints h.1.1))
  | .values rows, h => by
    rw [Body.nodes, printable_cons] at h
    rw [Body.entries, Body.tokens]
    exact .single (prints_values (Expr.printsAll_tokens o rows h.2))
  | .setOperation operation, h => by
    rw [Body.nodes, printable_cons] at h
    rw [Body.entries, Body.tokens]
    exact .single (operation.prints_tokens o h.2)
  | .nested q, h => by
    rw [Body.nodes, printable_cons] at h
    rw [Body.entries, Body.tokens]
    exact .single (q.prints_tokens o h.2).wrap
termination_by structural b => b

theorem Select.pieces_tokens (o : Layout) :
    (s : Select) → Printable s.nodes → Pieces Entry.Printed (s.entries o) s.tokens
  | ⟨quantifier, items, sources, filter, group, having, windows⟩, h => by
    rw [Select.nodes, printable_cons, printable_append, printable_append, printable_append,
      printable_append, printable_append] at h
    obtain ⟨-, hitems, hsources, hfilter, hgroup, hhaving, hwindows⟩ := h
    rw [Select.entries, Select.tokens]
    have hitem := (Quantifier.leads_lead quantifier).prints
      (.commas (SelectItem.printsAll_tokens o items hitems))
    have hfirst :=
      Pieces.single (R := Entry.Printed) (Entry.printed "SELECT" [.keyword .SELECT] hitem)
    have hfrom := Entry.pieces_unlessEmpty "FROM" "" [.keyword .FROM]
      (Relation.printsAll_tokens o sources hsources) Leads.empty (by cbv)
    have hnamed := Entry.pieces_unlessEmpty "WINDOW" "" [.keyword .WINDOW]
      (NamedWindow.printsAll_tokens o windows hwindows) Leads.empty (by cbv)
    rw [Relation.isEmpty_prints] at hfrom
    rw [NamedWindow.isEmpty_prints] at hnamed
    have hclauses := ((((hfirst.append hfrom).append
      (Expr.pieces_clause "WHERE" (.keyword .WHERE) (Expr.prints?_tokens o filter hfilter))).append
      (GroupBy.pieces (GroupBy.prints?_tokens o group hgroup))).append
      (Expr.pieces_clause "HAVING" (.keyword .HAVING)
        (Expr.prints?_tokens o having hhaving))).append hnamed
    exact hclauses.cast (by simp)
termination_by structural s => s

theorem SelectItem.prints_tokens (o : Layout) :
    (i : SelectItem) → Printable i.nodes → Prints (i.print o) i.tokens
  | .expr e none, h => by
    rw [SelectItem.nodes, printable_cons] at h
    rw [SelectItem.print, SelectItem.tokens]
    exact e.prints_tokens o h.2
  | .expr e (some x), h => by
    rw [SelectItem.nodes, printable_cons] at h
    rw [SelectItem.print, SelectItem.tokens]
    exact (((e.prints_tokens o h.2).leads " AS " [.keyword .AS]).prints
      (x.prints (h.1.1 x rfl))).cast (by simp)
  | .star r xs, h => by
    rw [SelectItem.nodes, printable_cons] at h
    rw [SelectItem.print, SelectItem.tokens]
    exact (Name.prints_starSql h.1.1.1).follow
      (Ident.follows_listAfter " AS " [.keyword .AS] h.1.1.2)
termination_by structural i => i

theorem SelectItem.printsAll_tokens (o : Layout) : (is : List SelectItem) →
    Printable (SelectItem.nodesAll is) →
    List.Forall₂ Prints (SelectItem.prints o is) (SelectItem.tokenLists is)
  | [], _ => .nil
  | i :: is, h => by
    rw [SelectItem.nodesAll, printable_append] at h
    rw [SelectItem.prints, SelectItem.tokenLists]
    exact .cons (i.prints_tokens o h.1) (SelectItem.printsAll_tokens o is h.2)
termination_by structural is => is

theorem GroupBy.prints_tokens (o : Layout) :
    (g : GroupBy) → Printable g.nodes → Prints (g.print o) g.tokens
  | ⟨quantifier, elements⟩, h => by
    rw [GroupBy.nodes, printable_cons] at h
    rw [GroupBy.print, GroupBy.tokens]
    exact (Quantifier.leads_lead quantifier).prints
      (.commas (GroupingElement.printsAll_tokens o elements h.2))
termination_by structural g => g

theorem GroupBy.prints?_tokens (o : Layout) : (g : Option GroupBy) →
    Printable (GroupBy.nodes? g) → ∀ x ∈ g, Prints (x.print o) x.tokens
  | none, _ => by simp
  | some g, h => by
    rintro _ ⟨⟩
    exact g.prints_tokens o h
termination_by structural g => g

theorem GroupingElement.prints_tokens (o : Layout) :
    (e : GroupingElement) → Printable e.nodes → Prints (e.print o) e.tokens
  | .expr e, h => by
    rw [GroupingElement.nodes, printable_cons] at h
    rw [GroupingElement.print, GroupingElement.tokens]
    exact e.prints_tokens o h.2
  | .rollup es, h => by
    rw [GroupingElement.nodes, printable_cons] at h
    rw [GroupingElement.print, GroupingElement.tokens]
    exact ((Leads.fixed "ROLLUP (" [.word "ROLLUP", .symbol .leftParen]).prints
      (.commas (Expr.printsAll_tokens o es h.2))).ends ")" [.symbol .rightParen]
  | .cube es, h => by
    rw [GroupingElement.nodes, printable_cons] at h
    rw [GroupingElement.print, GroupingElement.tokens]
    exact ((Leads.fixed "CUBE (" [.word "CUBE", .symbol .leftParen]).prints
      (.commas (Expr.printsAll_tokens o es h.2))).ends ")" [.symbol .rightParen]
  | .sets sets, h => by
    rw [GroupingElement.nodes, printable_cons] at h
    rw [GroupingElement.print, GroupingElement.tokens]
    have hlead := Leads.fixed "GROUPING SETS (" [.word "GROUPING", .word "SETS", .symbol .leftParen]
    exact (hlead.prints (.commas (Expr.printsSets_tokens o sets h.2))).ends ")"
      [.symbol .rightParen]
termination_by structural e => e

theorem GroupingElement.printsAll_tokens (o : Layout) : (es : List GroupingElement) →
    Printable (GroupingElement.nodesAll es) →
    List.Forall₂ Prints (GroupingElement.prints o es) (GroupingElement.tokenLists es)
  | [], _ => .nil
  | e :: es, h => by
    rw [GroupingElement.nodesAll, printable_append] at h
    rw [GroupingElement.prints, GroupingElement.tokenLists]
    exact .cons (e.prints_tokens o h.1) (GroupingElement.printsAll_tokens o es h.2)
termination_by structural es => es

theorem NamedWindow.prints_tokens (o : Layout) :
    (w : NamedWindow) → Printable w.nodes → Prints (w.print o) w.tokens
  | ⟨name, window⟩, h => by
    rw [NamedWindow.nodes, printable_cons] at h
    rw [NamedWindow.print, NamedWindow.tokens]
    have hname := (name.prints h.1.1).leads " AS (" [.keyword .AS, .symbol .leftParen]
    exact ((hname.prints (window.prints_tokens o h.2)).ends ")" [.symbol .rightParen]).cast
      (by simp [parens])
termination_by structural w => w

theorem NamedWindow.printsAll_tokens (o : Layout) : (ws : List NamedWindow) →
    Printable (NamedWindow.nodesAll ws) →
    List.Forall₂ Prints (NamedWindow.prints o ws) (NamedWindow.tokenLists ws)
  | [], _ => .nil
  | w :: ws, h => by
    rw [NamedWindow.nodesAll, printable_append] at h
    rw [NamedWindow.prints, NamedWindow.tokenLists]
    exact .cons (w.prints_tokens o h.1) (NamedWindow.printsAll_tokens o ws h.2)
termination_by structural ws => ws

end

end Sql
