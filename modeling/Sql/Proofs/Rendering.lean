import Sql.Proofs.Laid

/-! Every tree is printed as the same pieces in all layouts, and trees of one shape as pieces that
differ in quoted texts only. -/
namespace Sql

variable {b : Bool}

/-! ### Literals and fixed choices -/

theorem Literal.renders {v : Literal} (h : (Node.expr (.literal v)).IsBare) :
    Renders (!v.isNegative) (fun _ => v.sql) (fun _ => v.mask.sql) v.quotes := by
  cases v with
  | null => exact .fixed "NULL" rfl rfl
  | boolean value =>
    cases value with
    | true => exact .fixed "TRUE" rfl rfl
    | false => exact .fixed "FALSE" rfl rfl
  | integer n =>
    have hneg : isNegative (.integer n) = decide (n.toInt < 0) := by
      simp [isNegative, Int64.lt_iff_toInt_lt]
    rw [hneg]
    simp only [mask, sql, quotes, Text.signedDecimal]
    by_cases hn : n.toInt < 0
    · simp only [hn, if_true, decide_true, Bool.not_true]
      exact (Renders.decimal n.toInt.natAbs).sign true
    · simp only [hn, if_false, decide_false, Bool.not_false]
      exact .decimal n.toInt.natAbs
  | decimal text => exact .bare h
  | double d => exact h.elim
  | string text => exact .string text
  | binary bytes => exact .binary bytes

theorem BinaryOp.renders (op : BinaryOp) : Renders false (fun _ => op.sql) (fun _ => op.sql) [] :=
  .fixed op.sql (by cases op <;> rfl) rfl

/-- A fixed text that is there or not. -/
theorem Heads.fixedIf (condition : Bool) (s : String)
    (hs : Piece.fixedFits s = true := by cbv)
    (he : Piece.endsNeutral s = true := by cbv) :
    Heads false (fun _ => if condition then s else "") (fun _ => if condition then s else "")
      [] := by
  cases condition with
  | true => exact .fixed s hs he rfl
  | false => exact .empty

theorem Tails.fixedIf (condition : Bool) (s : String)
    (hs : Piece.fixedFits s = true := by cbv)
    (ho : Piece.opensNeutral s = true := by cbv) :
    Tails (fun _ => if condition then s else "") (fun _ => if condition then s else "") [] := by
  cases condition with
  | true => exact .fixed s hs ho
  | false => exact .empty

theorem heads_notLead (negated : Bool) :
    Heads false (fun _ => notLead negated) (fun _ => notLead negated) [] :=
  .fixedIf negated "NOT " rfl rfl

theorem Quantifier.heads_lead (q : Option Quantifier) :
    Heads false (fun _ => lead q) (fun _ => lead q) [] := by
  match q with
  | none => exact .empty
  | some .distinct => exact .fixed "DISTINCT " rfl rfl rfl
  | some .all => exact .fixed "ALL " rfl rfl rfl

/-- A choice behind a fixed text, if one is made. -/
theorem Tails.choice {α : Type} (s : String) {sql : α → String}
    (h : ∀ a, Renders false (fun _ => sql a) (fun _ => sql a) []) (a : Option α)
    (hs : Piece.fixedFits s = true := by cbv)
    (ho : Piece.opensNeutral s = true := by cbv)
    (he : Piece.endsNeutral s = true := by cbv) :
    Tails (fun _ => textAfter s (a.map sql)) (fun _ => textAfter s (a.map sql)) [] := by
  cases a with
  | none => exact .empty
  | some a => exact .lead s (h a) hs ho he

theorem NullTreatment.renders (t : NullTreatment) :
    Renders false (fun _ => t.sql) (fun _ => t.sql) [] :=
  .fixed t.sql (by cases t <;> rfl) rfl

theorem NullOrder.renders (t : NullOrder) : Renders false (fun _ => t.sql) (fun _ => t.sql) [] :=
  .fixed t.sql (by cases t <;> rfl) rfl

theorem FrameUnits.renders (u : FrameUnits) : Renders false (fun _ => u.sql) (fun _ => u.sql) [] :=
  .fixed u.sql (by cases u <;> rfl) rfl

theorem JoinKind.renders (k : JoinKind) : Renders false (fun _ => k.sql) (fun _ => k.sql) [] :=
  .fixed k.sql (by cases k <;> rfl) rfl

theorem SetOperator.renders (o : SetOperator) :
    Renders false (fun _ => o.sql) (fun _ => o.sql) [] :=
  .fixed o.sql (by cases o <;> rfl) rfl

theorem SampleMethod.renders (m : SampleMethod) :
    Renders false (fun _ => m.sql) (fun _ => m.sql) [] :=
  .fixed m.sql (by cases m <;> rfl) rfl

theorem IntervalField.renders (f : IntervalField) :
    Renders false (fun _ => f.sql) (fun _ => f.sql) [] :=
  .fixed f.sql (by cases f <;> rfl) rfl

/-! ### Lists of names -/

namespace Ident

theorem rendersAll (xs : List Ident) :
    RendersAll (fun _ => xs.map sql) (fun _ => (xs.map mask).map sql) (xs.map quote) := by
  induction xs with
  | nil => exact .nil
  | cons x xs ih => exact .cons (.name x) ih

theorem renders_sqlList (xs : List Ident) :
    Renders false (fun _ => sqlList xs) (fun _ => sqlList (xs.map mask)) (xs.map quote) :=
  (rendersAll xs).commas

theorem renders_parens (xs : List Ident) :
    Renders true (fun _ => "(" ++ sqlList xs ++ ")") (fun _ => "(" ++ sqlList (xs.map mask) ++ ")")
      (xs.map quote) :=
  (renders_sqlList xs).enclose (.fixed "(" rfl rfl rfl)

theorem renders_paramsSql (xs : List Ident) :
    Renders false (fun _ => paramsSql xs) (fun _ => paramsSql (xs.map mask)) (xs.map quote) := by
  match xs with
  | [] => exact (renders_parens []).loose
  | [x] => exact .name x
  | x :: y :: xs => exact (renders_parens (x :: y :: xs)).loose

theorem tails_listAfter (s : String) (xs : List Ident)
    (hs : Piece.fixedFits s = true := by cbv)
    (ho : Piece.opensNeutral s = true := by cbv)
    (he : Piece.endsNeutral s = true := by cbv) :
    Tails (fun _ => listAfter s xs) (fun _ => listAfter s (xs.map mask)) (xs.map quote) := by
  cases xs with
  | nil => exact .empty
  | cons x xs =>
    have := Tails.lead s (renders_parens (x :: xs)) hs ho he
    simpa only [listAfter, List.map_cons, List.isEmpty_cons, Bool.false_eq_true, if_false,
      String.append_assoc] using this

end Ident

/-! ### Types -/

theorem Scalar.renders (t : Scalar) : Renders false (fun _ => t.sql) (fun _ => t.sql) [] := by
  have htemporal : ∀ (word : String) (p : Nat) (zoned : Bool),
      Renders false (fun _ => word) (fun _ => word) [] →
      Renders false (fun _ => temporalSql word p zoned) (fun _ => temporalSql word p zoned) [] := by
    intro word p zoned h
    exact ((Renders.decimal (b := false) p).enclose (h.head "(" rfl rfl rfl)).tail
      (.fixedIf zoned " WITH TIME ZONE" rfl rfl)
  cases t with
  | decimal p s =>
    have hprecision := (Heads.fixed (b := false) "DECIMAL(" rfl rfl rfl).renders
      (.decimal (b := false) p)
    exact (Renders.decimal (b := false) s).enclose (hprecision.head "," rfl rfl rfl)
  | varchar n =>
    cases n with
    | none => exact .fixed "VARCHAR" rfl rfl
    | some n => exact (Renders.decimal (b := false) n).enclose (.fixed "VARCHAR(" rfl rfl rfl)
  | char n => exact (Renders.decimal (b := false) n).enclose (.fixed "CHAR(" rfl rfl rfl)
  | time p zoned => exact htemporal "TIME" p zoned (.fixed "TIME" rfl rfl)
  | timestamp p zoned => exact htemporal "TIMESTAMP" p zoned (.fixed "TIMESTAMP" rfl rfl)
  | yearToMonth => exact .fixed "INTERVAL YEAR TO MONTH" rfl rfl
  | dayToSecond => exact .fixed "INTERVAL DAY TO SECOND" rfl rfl
  | boolean => exact .fixed "BOOLEAN" rfl rfl
  | tinyint => exact .fixed "TINYINT" rfl rfl
  | smallint => exact .fixed "SMALLINT" rfl rfl
  | integer => exact .fixed "INTEGER" rfl rfl
  | bigint => exact .fixed "BIGINT" rfl rfl
  | real => exact .fixed "REAL" rfl rfl
  | double => exact .fixed "DOUBLE" rfl rfl
  | varbinary => exact .fixed "VARBINARY" rfl rfl
  | json => exact .fixed "JSON" rfl rfl
  | date => exact .fixed "DATE" rfl rfl

mutual

theorem DataType.renders :
    (t : DataType) → Renders false (fun _ => t.sql) (fun _ => t.mask.sql) t.quotes
  | .unknown => .fixed "UNKNOWN" rfl rfl
  | .scalar t => by
    simp only [DataType.mask, DataType.sql, DataType.quotes]
    exact t.renders
  | .array t => by
    simp only [DataType.mask, DataType.sql, DataType.quotes]
    exact t.renders.enclose (.fixed "ARRAY(" rfl rfl rfl)
  | .map k v => by
    simp only [DataType.mask, DataType.sql, DataType.quotes]
    have hkey := (Heads.fixed (b := false) "MAP(" rfl rfl rfl).renders k.renders
    exact v.renders.enclose (hkey.head "," rfl rfl rfl)
  | .row fields => by
    simp only [DataType.mask, DataType.sql, DataType.quotes]
    have hfields := (RowField.rendersAll fields).intercalate (.fixed "," rfl rfl rfl)
    exact hfields.enclose (.fixed "ROW(" rfl rfl rfl)
termination_by structural t => t

theorem RowField.renders :
    (f : RowField) → Renders false (fun _ => f.sql) (fun _ => f.mask.sql) f.quotes
  | ⟨none, t⟩ => by
    simp only [RowField.mask, Option.map_none, RowField.sql, RowField.quotes]
    exact t.renders
  | ⟨some name, t⟩ => by
    simp only [RowField.mask, Option.map_some, RowField.sql, RowField.quotes]
    have hname : Renders false (fun _ => Text.quote Text.nameMark name)
        (fun _ => Text.quote Text.nameMark blot) [.name name] := ⟨_, laid_name name, nofun⟩
    exact (hname.head " " rfl rfl rfl).renders t.renders
termination_by structural f => f

theorem RowField.rendersAll : (fs : List RowField) →
    RendersAll (fun _ => RowField.sqls fs) (fun _ => RowField.sqls (RowField.masks fs))
      (RowField.quotesAll fs)
  | [] => .nil
  | f :: fs => .cons f.renders (RowField.rendersAll fs)
termination_by structural fs => fs

end

/-! ### Optional parts and clauses -/

/-- The printed parts of a tree and of its shape. -/
abbrev Expr.Drawn (b : Bool) (e : Expr) : Prop :=
  Renders b (fun o => e.print o) (fun o => e.mask.print o) e.quotes

/-- May the text stand behind a sign? -/
def Expr.isFirm (e : Expr) : Bool := !(e.isLooser .unary || e.startsWithSign)

theorem Expr.access_or_isFirm (e : Expr) : (e.isLooser .access || e.isFirm) = true := by
  cases e with
  | literal v =>
    cases hv : v.isNegative <;> simp [isLooser, isFirm, tier, startsWithSign, hv, Tier.rank]
  | binary l op r => cases op <;> rfl
  | unary op e => cases op <;> rfl
  | _ => rfl

/-- A list behind a fixed text, if there is one. -/
theorem Tails.unlessEmpty {fs gs : Layout → List String} {qs : List Quoted} {empty : Bool}
    (s : String) (h : RendersAll fs gs qs) (hempty : empty = true → qs = [])
    (hs : Piece.fixedFits s = true := by cbv)
    (ho : Piece.opensNeutral s = true := by cbv)
    (he : Piece.endsNeutral s = true := by cbv) :
    Tails (fun o => if empty then "" else s ++ ", ".intercalate (fs o))
      (fun o => if empty then "" else s ++ ", ".intercalate (gs o)) qs := by
  cases empty with
  | true =>
    rw [hempty rfl]
    exact .empty
  | false => exact .lead s h.commas hs ho he

/-- The same among texts that are separated in some other way. -/
theorem RendersAll.unlessEmpty {fs gs : Layout → List String} {qs : List Quoted} {empty : Bool}
    (s : String) (h : RendersAll fs gs qs) (hempty : empty = true → qs = [])
    (hs : Piece.fixedFits s = true := by cbv)
    (he : Piece.endsNeutral s = true := by cbv) :
    RendersAll (fun o => if empty then [] else [s ++ ", ".intercalate (fs o)])
      (fun o => if empty then [] else [s ++ ", ".intercalate (gs o)]) qs := by
  cases empty with
  | true =>
    rw [hempty rfl]
    exact .nil
  | false => exact .single ((Heads.fixed (b := false) s hs he rfl).renders h.commas)

theorem RendersClauses.unlessEmpty {fs gs : Layout → List String} {qs : List Quoted}
    (keyword : String) {lead : String} (h : RendersAll fs gs qs)
    (hlead : Heads false (fun _ => lead) (fun _ => lead) [])
    (hk : Piece.fixedFits keyword = true := by cbv) :
    RendersClauses (fun o => Entry.unlessEmpty keyword lead (fs o))
      (fun o => Entry.unlessEmpty keyword lead (gs o)) qs := by
  cases h with
  | nil => exact .nil
  | cons h hs => exact .single keyword (hlead.renders (RendersAll.cons h hs).commas) hk

theorem Expr.quotesAll_of_isEmpty {es : List Expr} (h : es.isEmpty = true) :
    Expr.quotesAll es = [] := by
  rw [List.isEmpty_iff.1 h]
  rfl

theorem OrderTerm.quotesAll_of_isEmpty {ts : List OrderTerm} (h : ts.isEmpty = true) :
    OrderTerm.quotesAll ts = [] := by
  rw [List.isEmpty_iff.1 h]
  rfl

section

variable {e : Option Expr}

theorem Expr.tails_subject (h : ∀ x ∈ e, x.Drawn false) :
    Tails (fun o => textAfter " " (Expr.print? o e))
      (fun o => textAfter " " (Expr.print? o (Expr.mask? e))) (Expr.quotes? e) := by
  cases e with
  | none => exact .empty
  | some e => exact .lead " " (h e rfl) rfl rfl rfl

theorem Expr.rendersAll_otherwise (h : ∀ x ∈ e, x.Drawn false) :
    RendersAll (fun o => ((Expr.print? o e).map ("ELSE " ++ ·)).toList)
      (fun o => ((Expr.print? o (Expr.mask? e)).map ("ELSE " ++ ·)).toList) (Expr.quotes? e) := by
  cases e with
  | none => exact .nil
  | some e => exact .single ((Heads.fixed (b := false) "ELSE " rfl rfl rfl).renders (h e rfl))

theorem Expr.tails_escape (h : ∀ x ∈ e, x.Drawn false) :
    Tails (fun o => textAfter " ESCAPE " (Expr.printAt? o .concat e))
      (fun o => textAfter " ESCAPE " (Expr.printAt? o .concat (Expr.mask? e)))
      (Expr.quotes? e) := by
  cases e with
  | none => exact .empty
  | some e =>
    simp only [Expr.mask?, Expr.printAt?, Expr.isLooser_mask]
    exact .lead " ESCAPE " ((h e rfl).wrapIf (e.isLooser .concat)) rfl rfl rfl

theorem Expr.tails_filter (h : ∀ x ∈ e, x.Drawn false) :
    Tails (fun o => textAfter " FILTER (WHERE " ((Expr.print? o e).map (· ++ ")")))
      (fun o => textAfter " FILTER (WHERE " ((Expr.print? o (Expr.mask? e)).map (· ++ ")")))
      (Expr.quotes? e) := by
  cases e with
  | none => exact .empty
  | some e => exact .lead " FILTER (WHERE " ((h e rfl).close ")" rfl rfl) rfl rfl rfl

theorem Expr.rendersClauses (keyword : String) (h : ∀ x ∈ e, x.Drawn false)
    (hk : Piece.fixedFits keyword = true := by cbv) :
    RendersClauses (fun o => Entry.ofOption keyword (Expr.print? o e))
      (fun o => Entry.ofOption keyword (Expr.print? o (Expr.mask? e))) (Expr.quotes? e) := by
  cases e with
  | none => exact .nil
  | some e => exact .single keyword (h e rfl) hk

end

theorem Expr.renders_interval (text : String) (negative : Bool) (start : IntervalField)
    (stop : Option IntervalField) : (Expr.interval text negative start stop).Drawn true := by
  simp only [Expr.Drawn, Expr.print, Expr.mask, Expr.quotes]
  have htext : Renders false
      (fun _ => (if negative then "-" else "") ++ Text.quote Text.stringMark text)
      (fun _ => (if negative then "-" else "") ++ Text.quote Text.stringMark blot)
      [.string text] := by
    cases negative with
    | true => exact (Renders.string text).sign true
    | false => exact Heads.empty.renders (Renders.string (b := false) text)
  have hvalue := (Heads.fixed (b := true) "INTERVAL " rfl rfl rfl).renders htext
  have hlead := (hvalue.head " " rfl rfl rfl).renders start.renders
  have hall := hlead.tail (Tails.choice " TO " IntervalField.renders stop rfl rfl rfl)
  simp only [← String.append_assoc] at hall
  exact hall

/-- The separator of common table expressions. -/
theorem Separates.bindings : Separates fun o => if o.isPretty then ",\n" else ", " := by
  have hcomma := Laid.unquoted (Piece.fits_fixed (s := ", ") rfl)
  have hline := Laid.unquoted (Piece.fits_fixed (s := ",\n") rfl)
  have hsame : Piece.fixed ",\n" = Piece.fixed ", " := rfl
  rw [hsame] at hline
  exact ⟨_, hline.choose hcomma, ⟨_, rfl, rfl⟩, ⟨_, rfl, rfl⟩⟩

theorem Query.rendersClauses_offset (n : Option Nat) :
    RendersClauses (fun _ => Entry.ofOption "OFFSET" (n.map Text.decimal))
      (fun _ => Entry.ofOption "OFFSET" (n.map Text.decimal)) [] := by
  cases n with
  | none => exact .nil
  | some n => exact .single "OFFSET" (.decimal (b := false) n) rfl

theorem Limit.rendersClauses (l : Option Limit) :
    RendersClauses (fun _ => (l.map Limit.entry).toList) (fun _ => (l.map Limit.entry).toList)
      [] := by
  match l with
  | none => exact .nil
  | some (.count n) => exact .single "LIMIT" (.decimal (b := false) n) rfl
  | some .all => exact .single "LIMIT" (.fixed (b := false) "ALL" rfl rfl) rfl

section

theorem Over.tails_over {w : Option Over}
    (h : ∀ x ∈ w, Renders false (fun o => x.print o) (fun o => x.mask.print o) x.quotes) :
    Tails (fun o => textAfter " OVER " (Over.print? o w))
      (fun o => textAfter " OVER " (Over.print? o (Over.mask? w))) (Over.quotes? w) := by
  cases w with
  | none => exact .empty
  | some w => exact .lead " OVER " (h w rfl) rfl rfl rfl

theorem Frame.rendersAll {f : Option Frame}
    (h : ∀ x ∈ f, Renders false (fun o => x.print o) (fun o => x.mask.print o) x.quotes) :
    RendersAll (fun o => (Frame.print? o f).toList)
      (fun o => (Frame.print? o (Frame.mask? f)).toList) (Frame.quotes? f) := by
  cases f with
  | none => exact .nil
  | some f => exact .single (h f rfl)

theorem With.rendersClauses {w : Option With}
    (h : ∀ x ∈ w, Renders false (fun o => x.print o) (fun o => x.mask.print o) x.quotes) :
    RendersClauses (fun o => Entry.ofOption "WITH" (With.print? o w))
      (fun o => Entry.ofOption "WITH" (With.print? o (With.mask? w))) (With.quotes? w) := by
  cases w with
  | none => exact .nil
  | some w => exact .single "WITH" (h w rfl) rfl

theorem GroupBy.rendersClauses {g : Option GroupBy}
    (h : ∀ x ∈ g, Renders false (fun o => x.print o) (fun o => x.mask.print o) x.quotes) :
    RendersClauses (fun o => Entry.ofOption "GROUP" ((GroupBy.print? o g).map ("BY " ++ ·)))
      (fun o => Entry.ofOption "GROUP" ((GroupBy.print? o (GroupBy.mask? g)).map ("BY " ++ ·)))
      (GroupBy.quotes? g) := by
  cases g with
  | none => exact .nil
  | some g =>
    have hby := (Heads.fixed (b := false) "BY " rfl rfl rfl).renders (h g rfl)
    exact .single "GROUP" hby rfl

end

/-! ### Operators, predicates and constructs -/

theorem Expr.heads_cast (safe : Bool) :
    Heads true (fun _ => if safe then "TRY_CAST(" else "CAST(")
      (fun _ => if safe then "TRY_CAST(" else "CAST(") [] := by
  cases safe with
  | true => exact .fixed "TRY_CAST(" rfl rfl rfl
  | false => exact .fixed "CAST(" rfl rfl rfl

theorem Expr.heads_row (n : Nat) :
    Heads true (fun _ => if n < 2 then "ROW (" else "(") (fun _ => if n < 2 then "ROW (" else "(")
      [] := by
  split
  · exact .fixed "ROW (" rfl rfl rfl
  · exact .fixed "(" rfl rfl rfl

namespace Expr

variable {e l r low high pattern : Expr} {mark operand otherwise : Option Expr}
  {branches : List (Expr × Expr)} {b' b'' : Bool}

theorem isFirm_literal (v : Literal) : (literal v).isFirm = !v.isNegative := by
  cases hv : v.isNegative <;>
    simp [isFirm, isLooser, tier, startsWithSign, hv, Tier.rank]

theorem renders_binary {op : BinaryOp} (hl : l.Drawn b) (hr : r.Drawn b') :
    (binary l op r).Drawn false := by
  simp only [Drawn, Expr.print, Expr.mask, needsParens_mask]
  have hleft := hl.loose.wrapIf (l.needsParens op .left)
  have hright := hr.wrapIf (r.needsParens op .right)
  cases op.isLogical with
  | true =>
    exact (((((hleft.before .newline).renders op.renders).head " " rfl rfl rfl).cast
      (List.append_nil _)).renders hright).loose
  | false =>
    exact (((((hleft.head " " rfl rfl rfl).renders op.renders).head " " rfl rfl rfl).cast
      (List.append_nil _)).renders hright).loose

/-- The operand of a sign is put in parentheses unless it is firm. -/
theorem renders_unary {op : UnaryOp} (h : e.Drawn e.isFirm) : (unary op e).Drawn false := by
  have hoperand := h.wrapIf (e.isLooser .unary || e.startsWithSign)
  rw [isFirm, Bool.or_not_self] at hoperand
  cases op with
  | not =>
    simp only [Drawn, Expr.print, Expr.mask, isLooser_mask]
    exact (Heads.fixed (b := false) "NOT " rfl rfl rfl).renders (h.wrapIf (e.isLooser .not))
  | minus =>
    simp only [Drawn, Expr.print, Expr.mask, isLooser_mask, startsWithSign_mask]
    exact (hoperand.sign true).loose
  | plus =>
    simp only [Drawn, Expr.print, Expr.mask, isLooser_mask, startsWithSign_mask]
    exact (hoperand.sign false).loose

/-- The operand of a predicate up to the predicate's own words. -/
theorem heads_predicate (h : e.Drawn b) (negated : Bool) (s : String)
    (hs : Piece.fixedFits s = true := by cbv)
    (ho : Piece.opensNeutral s = true := by cbv)
    (he : Piece.endsNeutral s = true := by cbv) :
    Heads false (fun o => wrapIf (e.isLooser .concat) (e.print o) ++ s ++ notLead negated)
      (fun o => wrapIf (e.isLooser .concat) (e.mask.print o) ++ s ++ notLead negated) e.quotes :=
  (((h.wrapIf (e.isLooser .concat)).loose.head s hs ho he).append
    (heads_notLead negated)).cast (List.append_nil _)

theorem renders_like {negated : Bool} (he : e.Drawn b) (hpattern : pattern.Drawn b')
    (hmark : ∀ x ∈ mark, x.Drawn false) : (like e pattern mark negated).Drawn false := by
  simp only [Drawn, Expr.print, Expr.mask, isLooser_mask]
  have hlead := ((heads_predicate he negated " " rfl rfl rfl).append
    (.fixed (b := false) "LIKE " rfl rfl rfl)).cast (List.append_nil _)
  have hlike := hlead.renders (hpattern.wrapIf (pattern.isLooser .concat))
  exact hlike.tail (tails_escape hmark)

theorem renders_between {negated : Bool} (he : e.Drawn b) (hlow : low.Drawn b')
    (hhigh : high.Drawn b'') : (between e low high negated).Drawn false := by
  simp only [Drawn, Expr.print, Expr.mask, isLooser_mask]
  have hlead := ((heads_predicate he negated " " rfl rfl rfl).append
    (.fixed (b := false) "BETWEEN " rfl rfl rfl)).cast (List.append_nil _)
  have hand := (hlead.renders (hlow.wrapIf (low.isLooser .concat))).head " AND " rfl rfl rfl
  exact hand.renders (hhigh.wrapIf (high.isLooser .concat))

theorem renders_caseWhen (hoperand : ∀ x ∈ operand, x.Drawn false)
    (hbranches : RendersAll (fun o => Expr.printBranches o branches)
      (fun o => Expr.printBranches o (Expr.maskBranches branches)) (Expr.branchQuotes branches))
    (hotherwise : ∀ x ∈ otherwise, x.Drawn false) :
    (caseWhen operand branches otherwise).Drawn true := by
  simp only [Drawn, Expr.print, Expr.mask]
  have hhead := (Renders.fixed (b := true) "CASE" rfl rfl).tail (tails_subject hoperand)
  exact renders_caseText hhead (hbranches.append (rendersAll_otherwise hotherwise))

end Expr

/-! ### Trees -/

/-- All texts without quotes are bare. -/
def AllBare (ns : List Node) : Prop := ∀ n ∈ ns, n.IsBare

section

variable {n : Node} {ns ms : List Node}

theorem allBare_cons : AllBare (n :: ns) ↔ n.IsBare ∧ AllBare ns := List.forall_mem_cons

theorem allBare_append : AllBare (ns ++ ms) ↔ AllBare ns ∧ AllBare ms := List.forall_mem_append

end

mutual

theorem Expr.renders : (e : Expr) → AllBare e.nodes → e.Drawn e.isFirm
  | .literal v, h => by
    rw [Expr.nodes, allBare_cons] at h
    rw [Expr.isFirm_literal]
    exact Literal.renders h.1
  | .column n, _ => n.parts_sql.renders
  | .parameter _, _ => .of_firm (.fixed "?")
  | .star r, _ => Name.renders_starSql r
  | .binary l op r, h => by
    rw [Expr.nodes, allBare_cons, allBare_append] at h
    have hfirm : (Expr.binary l op r).isFirm = false := by cases op <;> rfl
    rw [hfirm]
    exact Expr.renders_binary (l.renders h.2.1) (r.renders h.2.2)
  | .unary op e, h => by
    rw [Expr.nodes, allBare_cons] at h
    have hfirm : (Expr.unary op e).isFirm = false := by cases op <;> rfl
    rw [hfirm]
    exact Expr.renders_unary (e.renders h.2)
  | .isNull e negated, h => by
    rw [Expr.nodes, allBare_cons] at h
    simp only [Expr.Drawn, Expr.print, Expr.mask, Expr.quotes, Expr.isLooser_mask]
    exact (((Expr.heads_predicate (e.renders h.2) negated " IS ").renders
      (.fixed (b := false) "NULL")).cast (List.append_nil _)).of_loose rfl
  | .isDistinct l r negated, h => by
    rw [Expr.nodes, allBare_cons, allBare_append] at h
    simp only [Expr.Drawn, Expr.print, Expr.mask, Expr.quotes, Expr.isLooser_mask]
    have hlead := (Expr.heads_predicate (l.renders h.2.1) negated " IS ").append
      (.fixed (b := false) "DISTINCT FROM ")
    exact ((hlead.renders ((r.renders h.2.2).wrapIf (r.isLooser .concat))).cast
      (by simp)).of_loose rfl
  | .like e pattern mark negated, h => by
    rw [Expr.nodes, allBare_cons, allBare_append, allBare_append] at h
    exact (Expr.renders_like (e.renders h.2.1) (pattern.renders h.2.2.1)
      (Expr.renders? mark h.2.2.2)).of_loose rfl
  | .between e low high negated, h => by
    rw [Expr.nodes, allBare_cons, allBare_append, allBare_append] at h
    exact (Expr.renders_between (e.renders h.2.1) (low.renders h.2.2.1)
      (high.renders h.2.2.2)).of_loose rfl
  | .inList e items negated, h => by
    rw [Expr.nodes, allBare_cons, allBare_append] at h
    simp only [Expr.Drawn, Expr.print, Expr.mask, Expr.quotes, Expr.isLooser_mask]
    have hlead := (Expr.heads_predicate (e.renders h.2.1) negated " ").append
      (.fixed (b := false) "IN (")
    have hitems := (Expr.rendersAll items h.2.2).commas.enclose hlead
    exact (hitems.cast (by simp)).of_loose rfl
  | .inQuery e q negated, h => by
    rw [Expr.nodes, allBare_cons, allBare_append] at h
    simp only [Expr.Drawn, Expr.print, Expr.mask, Expr.quotes, Expr.isLooser_mask]
    have hlead := (Expr.heads_predicate (e.renders h.2.1) negated " ").append
      (.fixed (b := false) "IN ")
    exact ((hlead.renders (Renders.wrap (c := false) (q.renders h.2.2))).cast
      (by simp)).of_loose rfl
  | .existsQuery q, h => by
    rw [Expr.nodes, allBare_cons] at h
    simp only [Expr.Drawn, Expr.print, Expr.mask, Expr.quotes]
    exact (Heads.fixed (b := true) "EXISTS ").renders (Renders.wrap (c := false) (q.renders h.2))
  | .subquery q, h => by
    rw [Expr.nodes, allBare_cons] at h
    simp only [Expr.Drawn, Expr.print, Expr.mask, Expr.quotes]
    exact (q.renders h.2).wrap
  | .call c, h => by
    rw [Expr.nodes, allBare_cons] at h
    simp only [Expr.Drawn, Expr.print, Expr.mask, Expr.quotes]
    exact c.renders h.2
  | .cast e type safe, h => by
    rw [Expr.nodes, allBare_cons] at h
    simp only [Expr.Drawn, Expr.print, Expr.mask, Expr.quotes]
    have hoperand := ((Expr.heads_cast safe).renders (e.renders h.2)).head " AS "
    exact type.renders.enclose hoperand
  | .caseWhen operand branches otherwise, h => by
    rw [Expr.nodes, allBare_cons, allBare_append, allBare_append] at h
    exact Expr.renders_caseWhen (Expr.renders? operand h.2.1)
      (Expr.rendersAll_branches branches h.2.2.1) (Expr.renders? otherwise h.2.2.2)
  | .array items, h => by
    rw [Expr.nodes, allBare_cons] at h
    simp only [Expr.Drawn, Expr.print, Expr.mask, Expr.quotes]
    exact ((Heads.fixed (b := true) "ARRAY[").renders (Expr.rendersAll items h.2).commas).close "]"
  | .row items, h => by
    rw [Expr.nodes, allBare_cons] at h
    simp only [Expr.Drawn, Expr.print, Expr.mask, Expr.quotes, Expr.length_masks]
    exact (Expr.rendersAll items h.2).commas.enclose (Expr.heads_row items.length)
  | .subscript base index, h => by
    rw [Expr.nodes, allBare_cons, allBare_append] at h
    simp only [Expr.Drawn, Expr.print, Expr.mask, Expr.quotes, Expr.isLooser_mask]
    have hbase := (base.renders h.2.1).wrapIf (base.isLooser .access)
    rw [base.access_or_isFirm] at hbase
    exact ((hbase.head "[").renders (index.renders h.2.2)).close "]"
  | .field base x, h => by
    rw [Expr.nodes, allBare_cons] at h
    simp only [Expr.Drawn, Expr.print, Expr.mask, Expr.quotes, Expr.isLooser_mask,
      Expr.isColumn_mask]
    have hbase := (base.renders h.2).wrapIf (base.isColumn || base.isLooser .access)
    rw [Bool.or_assoc, base.access_or_isFirm, Bool.or_true] at hbase
    exact hbase.dot (parts_name x)
  | .lambda params body, h => by
    rw [Expr.nodes, allBare_cons] at h
    simp only [Expr.Drawn, Expr.print, Expr.mask, Expr.quotes]
    exact (((Ident.renders_paramsSql params).head " -> ").renders (body.renders h.2)).of_loose rfl
  | .interval text negative start stop, _ => Expr.renders_interval text negative start stop
  | .typed type text, h => by
    rw [Expr.nodes, allBare_cons] at h
    simp only [Expr.Drawn, Expr.print, Expr.mask, Expr.quotes]
    exact ((Renders.bare h.1).head " ").renders (Renders.string (b := false) text)
termination_by structural e => e

theorem Expr.rendersAll : (es : List Expr) → AllBare (Expr.nodesAll es) →
    RendersAll (fun o => Expr.prints o es) (fun o => Expr.prints o (Expr.masks es))
      (Expr.quotesAll es)
  | [], _ => .nil
  | e :: es, h => by
    rw [Expr.nodesAll, allBare_append] at h
    exact .cons (e.renders h.1).loose (Expr.rendersAll es h.2)
termination_by structural es => es

theorem Expr.rendersAll_sets : (sets : List (List Expr)) → AllBare (Expr.setNodes sets) →
    RendersAll (fun o => Expr.printSets o sets) (fun o => Expr.printSets o (Expr.maskSets sets))
      (Expr.setQuotes sets)
  | [], _ => .nil
  | es :: sets, h => by
    rw [Expr.setNodes, allBare_append] at h
    have hlist := (Expr.rendersAll es h.1).commas.enclose (.fixed (b := false) "(")
    exact .cons hlist (Expr.rendersAll_sets sets h.2)
termination_by structural sets => sets

theorem Expr.rendersAll_branches : (bs : List (Expr × Expr)) → AllBare (Expr.branchNodes bs) →
    RendersAll (fun o => Expr.printBranches o bs)
      (fun o => Expr.printBranches o (Expr.maskBranches bs)) (Expr.branchQuotes bs)
  | [], _ => .nil
  | (c, v) :: bs, h => by
    rw [Expr.branchNodes, allBare_append, allBare_append] at h
    have hcondition := ((Heads.fixed (b := false) "WHEN ").renders (c.renders h.1)).head " THEN "
    exact .cons (hcondition.renders (v.renders h.2.1)) (Expr.rendersAll_branches bs h.2.2)
termination_by structural bs => bs

theorem Expr.renders? : (e : Option Expr) → AllBare (Expr.nodes? e) → ∀ x ∈ e, x.Drawn false
  | none, _ => nofun
  | some e, h => by
    rintro _ ⟨⟩
    exact (e.renders h).loose
termination_by structural e => e

theorem Call.renders : (c : Call) → AllBare c.nodes →
    Renders true (fun o => c.print o) (fun o => c.mask.print o) c.quotes
  | ⟨name, quantifier, args, order, filter, nulls, window⟩, h => by
    rw [Call.nodes, allBare_cons, allBare_append, allBare_append, allBare_append] at h
    obtain ⟨hname, hargs, horder, hfilter, hwindow⟩ := h
    have hbare : Call.isBare ⟨name.maskCall, quantifier, Expr.masks args, OrderTerm.masks order,
        Expr.mask? filter, nulls, Over.mask? window⟩ =
          Call.isBare ⟨name, quantifier, args, order, filter, nulls, window⟩ :=
      Call.isBare_mask ⟨name, quantifier, args, order, filter, nulls, window⟩
    have hlead : Renders true (fun _ => name.callSql) (fun _ => name.maskCall.callSql)
        name.callQuotes := (Name.parts_callSql hname).renders
    simp only [Call.print, Call.mask, Call.quotes, hbare, OrderTerm.isEmpty_masks]
    cases hcall : Call.isBare ⟨name, quantifier, args, order, filter, nulls, window⟩ with
    | true =>
      -- A call that is written as its name has no other part.
      simp only [Call.isBare, Bool.and_eq_true, List.isEmpty_iff, Option.isNone_iff_eq_none]
        at hcall
      obtain ⟨⟨⟨⟨⟨⟨rfl, -⟩, rfl⟩, rfl⟩, -⟩, rfl⟩, -⟩ := hcall
      exact hlead.cast (by simp [Expr.quotesAll, OrderTerm.quotesAll, Expr.quotes?, Over.quotes?])
    | false =>
      have hlist := ((hlead.head "(").append (Quantifier.heads_lead quantifier)).renders
        (Expr.rendersAll args hargs).commas
      have hsorted := (hlist.tail (.unlessEmpty " ORDER BY " (OrderTerm.rendersAll order horder)
        OrderTerm.quotesAll_of_isEmpty)).close ")"
      have htail := ((hsorted.tail (Expr.tails_filter (Expr.renders? filter hfilter))).tail
        (.choice " " NullTreatment.renders nulls)).tail
        (Over.tails_over (Over.renders? window hwindow))
      exact htail.cast (by simp)
termination_by structural c => c

theorem OrderTerm.renders : (t : OrderTerm) → AllBare t.nodes →
    Renders false (fun o => t.print o) (fun o => t.mask.print o) t.quotes
  | ⟨e, descending, nulls⟩, h => by
    rw [OrderTerm.nodes] at h
    simp only [OrderTerm.print, OrderTerm.mask, OrderTerm.quotes]
    exact (((e.renders h).loose.tail (.fixedIf descending " DESC")).tail
      (.choice " " NullOrder.renders nulls)).cast (by simp)
termination_by structural t => t

theorem OrderTerm.rendersAll : (ts : List OrderTerm) → AllBare (OrderTerm.nodesAll ts) →
    RendersAll (fun o => OrderTerm.prints o ts) (fun o => OrderTerm.prints o (OrderTerm.masks ts))
      (OrderTerm.quotesAll ts)
  | [], _ => .nil
  | t :: ts, h => by
    rw [OrderTerm.nodesAll, allBare_append] at h
    exact .cons (t.renders h.1) (OrderTerm.rendersAll ts h.2)
termination_by structural ts => ts

theorem Over.renders : (w : Over) → AllBare w.nodes →
    Renders false (fun o => w.print o) (fun o => w.mask.print o) w.quotes
  | .named x, _ => .name x
  | .window w, h => by
    rw [Over.nodes, allBare_cons] at h
    simp only [Over.print, Over.mask, Over.quotes]
    exact (w.renders h.2).enclose (.fixed "(")
termination_by structural w => w

theorem Over.renders? : (w : Option Over) → AllBare (Over.nodes? w) →
    ∀ x ∈ w, Renders false (fun o => x.print o) (fun o => x.mask.print o) x.quotes
  | none, _ => nofun
  | some w, h => by
    rintro _ ⟨⟩
    exact w.renders h
termination_by structural w => w

theorem Window.renders : (w : Window) → AllBare w.nodes →
    Renders false (fun o => w.print o) (fun o => w.mask.print o) w.quotes
  | ⟨base, partition, order, frame⟩, h => by
    rw [Window.nodes, allBare_cons, allBare_append, allBare_append] at h
    obtain ⟨-, hpartition, horder, hframe⟩ := h
    simp only [Window.print, Window.mask, Window.quotes, Expr.isEmpty_masks,
      OrderTerm.isEmpty_masks]
    have hbase : RendersAll (fun _ => (base.map Ident.sql).toList)
        (fun _ => ((base.map Ident.mask).map Ident.sql).toList) (base.toList.map Ident.quote) := by
      cases base with
      | none => exact .nil
      | some x => exact .single (Renders.name (b := false) x)
    have hlist := RendersAll.unlessEmpty "PARTITION BY " (Expr.rendersAll partition hpartition)
      Expr.quotesAll_of_isEmpty
    have hsorted := RendersAll.unlessEmpty "ORDER BY " (OrderTerm.rendersAll order horder)
      OrderTerm.quotesAll_of_isEmpty
    exact (((hbase.append hlist).append hsorted).append
      (Frame.rendersAll (Frame.renders? frame hframe))).intercalate (.fixed " ")
termination_by structural w => w

theorem Frame.renders : (f : Frame) → AllBare f.nodes →
    Renders false (fun o => f.print o) (fun o => f.mask.print o) f.quotes
  | ⟨units, start, none⟩, h => by
    rw [Frame.nodes, allBare_append] at h
    exact ((units.renders.head " ").renders (start.renders h.1)).cast (by
      simp [Frame.quotes, Bound.quotes?])
  | ⟨units, start, some stop⟩, h => by
    rw [Frame.nodes, allBare_append] at h
    exact (((units.renders.head " BETWEEN ").renders (start.renders h.1)).head " AND ").renders
      (stop.renders h.2)
termination_by structural f => f

theorem Frame.renders? : (f : Option Frame) → AllBare (Frame.nodes? f) →
    ∀ x ∈ f, Renders false (fun o => x.print o) (fun o => x.mask.print o) x.quotes
  | none, _ => nofun
  | some f, h => by
    rintro _ ⟨⟩
    exact f.renders h
termination_by structural f => f

theorem Bound.renders : (x : Bound) → AllBare x.nodes →
    Renders false (fun o => x.print o) (fun o => x.mask.print o) x.quotes
  | .unboundedPreceding, _ => .fixed "UNBOUNDED PRECEDING"
  | .preceding e, h => by
    rw [Bound.nodes, allBare_cons] at h
    simp only [Bound.print, Bound.mask, Bound.quotes, Expr.isLooser_mask]
    exact (((e.renders h.2).wrapIf (e.isLooser .concat)).close " PRECEDING").loose
  | .currentRow, _ => .fixed "CURRENT ROW"
  | .following e, h => by
    rw [Bound.nodes, allBare_cons] at h
    simp only [Bound.print, Bound.mask, Bound.quotes, Expr.isLooser_mask]
    exact (((e.renders h.2).wrapIf (e.isLooser .concat)).close " FOLLOWING").loose
  | .unboundedFollowing, _ => .fixed "UNBOUNDED FOLLOWING"
termination_by structural x => x

theorem Relation.renders : (r : Relation) → AllBare r.nodes →
    Renders false (fun o => r.print o) (fun o => r.mask.print o) r.quotes
  | .table n _, _ => n.parts_sql.renders
  | .renamed r x columns, h => by
    rw [Relation.nodes, allBare_cons] at h
    simp only [Relation.print, Relation.mask, Relation.quotes, Relation.tier_mask]
    have hname := (((r.renders h.2).wrapIf (r.tier.rank ≤ Relation.Tier.renamed.rank)).head
      " AS ").renders (Renders.name (b := false) x)
    exact ((hname.tail (Ident.tails_listAfter " " columns)).cast (by simp)).loose
  | .join l r kind criteria, h => by
    rw [Relation.nodes, allBare_cons, allBare_append, allBare_append] at h
    simp only [Relation.print, Relation.mask, Relation.quotes, Relation.tier_mask,
      Criteria.isNatural_mask]
    have hlead := ((l.renders h.2.1).before .newline).append
      (.fixedIf criteria.isNatural "NATURAL ")
    have hright := ((hlead.renders kind.renders).head " ").renders
      ((r.renders h.2.2.1).wrapIf (r.tier.rank ≤ Relation.Tier.join.rank))
    exact (hright.tail (criteria.tails h.2.2.2)).cast (by simp)
  | .setOperation operation, h => by
    rw [Relation.nodes, allBare_cons] at h
    simp only [Relation.print, Relation.mask, Relation.quotes]
    exact (operation.renders h.2).wrap
  | .query q, h => by
    rw [Relation.nodes, allBare_cons] at h
    simp only [Relation.print, Relation.mask, Relation.quotes]
    exact (q.renders h.2).wrap
  | .values rows, h => by
    rw [Relation.nodes, allBare_cons] at h
    simp only [Relation.print, Relation.mask, Relation.quotes]
    exact (RendersClauses.single "VALUES" (Expr.rendersAll rows h.2).commas).layOut.wrap
  | .unnest args ordinality, h => by
    rw [Relation.nodes, allBare_cons] at h
    simp only [Relation.print, Relation.mask, Relation.quotes]
    have hargs := (Expr.rendersAll args h.2).commas.enclose (.fixed (b := false) "UNNEST(")
    exact (hargs.tail (.fixedIf ordinality " WITH ORDINALITY")).cast (by simp)
  | .lateral q, h => by
    rw [Relation.nodes, allBare_cons] at h
    simp only [Relation.print, Relation.mask, Relation.quotes]
    exact (Heads.fixed "LATERAL ").renders (Renders.wrap (c := false) (q.renders h.2))
  | .sample r method percentage, h => by
    rw [Relation.nodes, allBare_cons, allBare_append] at h
    simp only [Relation.print, Relation.mask, Relation.quotes, Relation.tier_mask]
    have hmethod := (((r.renders h.2.1).wrapIf (r.tier.rank ≤ Relation.Tier.sampled.rank)).head
      " TABLESAMPLE ").renders method.renders
    exact ((percentage.renders h.2.2).enclose (hmethod.head " (")).loose.cast (by simp)
termination_by structural r => r

theorem Relation.rendersAll : (rs : List Relation) → AllBare (Relation.nodesAll rs) →
    RendersAll (fun o => Relation.prints o rs) (fun o => Relation.prints o (Relation.masks rs))
      (Relation.quotesAll rs)
  | [], _ => .nil
  | r :: rs, h => by
    rw [Relation.nodesAll, allBare_append] at h
    exact .cons (r.renders h.1) (Relation.rendersAll rs h.2)
termination_by structural rs => rs

theorem Criteria.tails : (c : Criteria) → AllBare c.nodes →
    Tails (fun o => c.print o) (fun o => c.mask.print o) c.quotes
  | .condition e, h => by
    rw [Criteria.nodes, allBare_cons] at h
    simp only [Criteria.print, Criteria.mask, Criteria.quotes]
    have hon :=
      (Heads.fixed (b := false) "ON ").renders ((e.renders h.2).pad (fun _ => 3) fun _ => 3)
    simpa only [String.append_assoc, List.nil_append] using Tails.after .newline hon
  | .columns xs, _ => by
    simp only [Criteria.print, Criteria.mask, Criteria.quotes]
    have husing := (Ident.renders_sqlList xs).enclose (.fixed (b := false) "USING (")
    simpa only [String.append_assoc, List.nil_append] using Tails.after .newline husing
  | .natural, _ => .empty
  | .absent, _ => .empty
termination_by structural c => c

theorem SetOperation.renders : (s : SetOperation) → AllBare s.nodes →
    Renders false (fun o => s.print o) (fun o => s.mask.print o) s.quotes
  | ⟨operator, all, left, right⟩, h => by
    rw [SetOperation.nodes, allBare_append] at h
    simp only [SetOperation.print, SetOperation.mask, SetOperation.quotes,
      SetOperation.needsParens_mask]
    have hleft := ((left.renders h.1).wrapIf (SetOperation.needsParens operator .left left)).before
      .newline
    have hoperator := ((hleft.renders operator.renders).tail (.fixedIf all " ALL")).before .newline
    exact (hoperator.renders ((right.renders h.2).wrapIf
      (SetOperation.needsParens operator .right right))).loose.cast (by simp)
termination_by structural s => s

theorem Query.renders : (q : Query) → AllBare q.nodes →
    Renders false (fun o => q.print o) (fun o => q.mask.print o) q.quotes
  | ⟨bindings, body, order, offset, limit⟩, h => by
    rw [Query.nodes, allBare_cons, allBare_append, allBare_append] at h
    obtain ⟨-, hbindings, hbody, horder⟩ := h
    simp only [Query.print, Query.mask, Query.quotes]
    have hsorted := RendersClauses.unlessEmpty "ORDER" (OrderTerm.rendersAll order horder)
      (Heads.fixed "BY ")
    exact (((((With.rendersClauses (With.renders? bindings hbindings)).append
      (body.rendersClauses hbody)).append hsorted).append
      (Query.rendersClauses_offset offset)).append (Limit.rendersClauses limit)).layOut.cast
        (by simp)
termination_by structural q => q

theorem With.renders : (w : With) → AllBare w.nodes →
    Renders false (fun o => w.print o) (fun o => w.mask.print o) w.quotes
  | ⟨recursive, entries⟩, h => by
    rw [With.nodes, allBare_cons] at h
    simp only [With.print, With.mask, With.quotes]
    exact (Heads.fixedIf recursive "RECURSIVE ").renders
      ((Cte.rendersAll entries h.2).intercalate .bindings)
termination_by structural w => w

theorem With.renders? : (w : Option With) → AllBare (With.nodes? w) →
    ∀ x ∈ w, Renders false (fun o => x.print o) (fun o => x.mask.print o) x.quotes
  | none, _ => nofun
  | some w, h => by
    rintro _ ⟨⟩
    exact w.renders h
termination_by structural w => w

theorem Cte.renders : (c : Cte) → AllBare c.nodes →
    Renders false (fun o => c.print o) (fun o => c.mask.print o) c.quotes
  | ⟨name, columns, q⟩, h => by
    rw [Cte.nodes, allBare_cons] at h
    simp only [Cte.print, Cte.mask, Cte.quotes, Text.parenthesizeAfter]
    have hname := ((Renders.name (b := false) name).tail (Ident.tails_listAfter " " columns)).head
      " AS "
    have hquery := (q.renders h.2).pad
      (fun _ => (name.sql ++ Ident.listAfter " " columns ++ " AS ").length + 1)
      fun _ => (name.mask.sql ++ Ident.listAfter " " (columns.map Ident.mask) ++ " AS ").length + 1
    exact (hquery.enclose (hname.append (.fixed (b := false) "("))).cast (by simp)
termination_by structural c => c

theorem Cte.rendersAll : (cs : List Cte) → AllBare (Cte.nodesAll cs) →
    RendersAll (fun o => Cte.prints o cs) (fun o => Cte.prints o (Cte.masks cs)) (Cte.quotesAll cs)
  | [], _ => .nil
  | c :: cs, h => by
    rw [Cte.nodesAll, allBare_append] at h
    exact .cons (c.renders h.1) (Cte.rendersAll cs h.2)
termination_by structural cs => cs

theorem Body.rendersClauses : (x : Body) → AllBare x.nodes →
    RendersClauses (fun o => x.entries o) (fun o => x.mask.entries o) x.quotes
  | .select s, h => by
    rw [Body.nodes, allBare_cons] at h
    simp only [Body.entries, Body.mask, Body.quotes]
    exact s.rendersClauses h.2
  | .table n, _ => .single "TABLE" (n.parts_sql.renders (b := false))
  | .values rows, h => by
    rw [Body.nodes, allBare_cons] at h
    simp only [Body.entries, Body.mask, Body.quotes]
    exact .single "VALUES" (Expr.rendersAll rows h.2).commas
  | .setOperation operation, h => by
    rw [Body.nodes, allBare_cons] at h
    simp only [Body.entries, Body.mask, Body.quotes]
    exact .singleBlock (operation.renders h.2)
  | .nested q, h => by
    rw [Body.nodes, allBare_cons] at h
    simp only [Body.entries, Body.mask, Body.quotes]
    exact .singleBlock (Renders.wrap (c := false) (q.renders h.2))
termination_by structural x => x

theorem Select.rendersClauses : (s : Select) → AllBare s.nodes →
    RendersClauses (fun o => s.entries o) (fun o => s.mask.entries o) s.quotes
  | ⟨quantifier, items, sources, filter, group, having, windows⟩, h => by
    rw [Select.nodes, allBare_cons, allBare_append, allBare_append, allBare_append,
      allBare_append, allBare_append] at h
    obtain ⟨-, hitems, hsources, hfilter, hgroup, hhaving, hwindows⟩ := h
    simp only [Select.entries, Select.mask, Select.quotes]
    have hfirst := RendersClauses.single "SELECT" ((Quantifier.heads_lead quantifier).renders
      (SelectItem.rendersAll items hitems).commas)
    have hfrom := RendersClauses.unlessEmpty "FROM" (Relation.rendersAll sources hsources) .empty
    have hnamed := RendersClauses.unlessEmpty "WINDOW" (NamedWindow.rendersAll windows hwindows)
      .empty
    exact ((((hfirst.append hfrom).append
      (Expr.rendersClauses "WHERE" (Expr.renders? filter hfilter))).append
      (GroupBy.rendersClauses (GroupBy.renders? group hgroup))).append
      (Expr.rendersClauses "HAVING" (Expr.renders? having hhaving))).append hnamed
termination_by structural s => s

theorem SelectItem.renders : (i : SelectItem) → AllBare i.nodes →
    Renders false (fun o => i.print o) (fun o => i.mask.print o) i.quotes
  | .expr e none, h => by
    rw [SelectItem.nodes, allBare_cons] at h
    exact (e.renders h.2).loose.cast (by simp [SelectItem.quotes])
  | .expr e (some x), h => by
    rw [SelectItem.nodes, allBare_cons] at h
    exact (((e.renders h.2).head " AS ").renders (Renders.name (b := false) x)).loose
  | .star r xs, _ => (Name.renders_starSql r).tail (Ident.tails_listAfter " AS " xs)
termination_by structural i => i

theorem SelectItem.rendersAll : (is : List SelectItem) → AllBare (SelectItem.nodesAll is) →
    RendersAll (fun o => SelectItem.prints o is)
      (fun o => SelectItem.prints o (SelectItem.masks is)) (SelectItem.quotesAll is)
  | [], _ => .nil
  | i :: is, h => by
    rw [SelectItem.nodesAll, allBare_append] at h
    exact .cons (i.renders h.1) (SelectItem.rendersAll is h.2)
termination_by structural is => is

theorem GroupBy.renders : (g : GroupBy) → AllBare g.nodes →
    Renders false (fun o => g.print o) (fun o => g.mask.print o) g.quotes
  | ⟨quantifier, elements⟩, h => by
    rw [GroupBy.nodes, allBare_cons] at h
    simp only [GroupBy.print, GroupBy.mask, GroupBy.quotes]
    exact (Quantifier.heads_lead quantifier).renders
      (GroupingElement.rendersAll elements h.2).commas
termination_by structural g => g

theorem GroupBy.renders? : (g : Option GroupBy) → AllBare (GroupBy.nodes? g) →
    ∀ x ∈ g, Renders false (fun o => x.print o) (fun o => x.mask.print o) x.quotes
  | none, _ => nofun
  | some g, h => by
    rintro _ ⟨⟩
    exact g.renders h
termination_by structural g => g

theorem GroupingElement.renders : (e : GroupingElement) → AllBare e.nodes →
    Renders false (fun o => e.print o) (fun o => e.mask.print o) e.quotes
  | .expr e, h => by
    rw [GroupingElement.nodes, allBare_cons] at h
    exact (e.renders h.2).loose
  | .rollup es, h => by
    rw [GroupingElement.nodes, allBare_cons] at h
    exact (Expr.rendersAll es h.2).commas.enclose (.fixed "ROLLUP (")
  | .cube es, h => by
    rw [GroupingElement.nodes, allBare_cons] at h
    exact (Expr.rendersAll es h.2).commas.enclose (.fixed "CUBE (")
  | .sets sets, h => by
    rw [GroupingElement.nodes, allBare_cons] at h
    exact (Expr.rendersAll_sets sets h.2).commas.enclose (.fixed "GROUPING SETS (")
termination_by structural e => e

theorem GroupingElement.rendersAll : (es : List GroupingElement) →
    AllBare (GroupingElement.nodesAll es) →
    RendersAll (fun o => GroupingElement.prints o es)
      (fun o => GroupingElement.prints o (GroupingElement.masks es)) (GroupingElement.quotesAll es)
  | [], _ => .nil
  | e :: es, h => by
    rw [GroupingElement.nodesAll, allBare_append] at h
    exact .cons (e.renders h.1) (GroupingElement.rendersAll es h.2)
termination_by structural es => es

theorem NamedWindow.renders : (w : NamedWindow) → AllBare w.nodes →
    Renders false (fun o => w.print o) (fun o => w.mask.print o) w.quotes
  | ⟨name, window⟩, h => by
    rw [NamedWindow.nodes, allBare_cons] at h
    simp only [NamedWindow.print, NamedWindow.mask, NamedWindow.quotes]
    exact (window.renders h.2).enclose ((Renders.name name).head " AS (")
termination_by structural w => w

theorem NamedWindow.rendersAll : (ws : List NamedWindow) → AllBare (NamedWindow.nodesAll ws) →
    RendersAll (fun o => NamedWindow.prints o ws)
      (fun o => NamedWindow.prints o (NamedWindow.masks ws)) (NamedWindow.quotesAll ws)
  | [], _ => .nil
  | w :: ws, h => by
    rw [NamedWindow.nodesAll, allBare_append] at h
    exact .cons (w.renders h.1) (NamedWindow.rendersAll ws h.2)
termination_by structural ws => ws

end

end Sql
