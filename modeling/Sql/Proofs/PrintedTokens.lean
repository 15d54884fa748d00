import Sql.Proofs.Rendering

/-! The tokens of printed text: they do not depend on the layout, and quoted texts cannot change any
token but their own. -/
namespace Sql

open Token (Kind)

/-- Equal kinds, or kinds that differ in a quoted text only. -/
def Token.Kind.Alike (k k' : Kind) : Prop :=
  k = k' ∨ (∃ s t, k = .string s ∧ k' = .string t) ∨
    ∃ s t, k = .ident (.quoted s) ∧ k' = .ident (.quoted t)

theorem Token.Kind.alike_of_mask_eq {k k' : Kind} (h : k.mask = k'.mask) : k.Alike k' := by
  cases k with
  | string s =>
    cases k' with
    | string t => exact .inr (.inl ⟨s, t, rfl, rfl⟩)
    | ident y => obtain ⟨t, _ | _⟩ := y <;> cases h
    | _ => cases h
  | ident x =>
    obtain ⟨s, _ | _⟩ := x
    · cases k' with
      | ident y => obtain ⟨t, _ | _⟩ := y <;> cases h; exact .inl rfl
      | _ => cases h
    · cases k' with
      | ident y => obtain ⟨t, _ | _⟩ := y <;> cases h; exact .inr (.inr ⟨s, t, rfl, rfl⟩)
      | _ => cases h
  | _ =>
    cases k' with
    | ident y => obtain ⟨t, _ | _⟩ := y <;> cases h
    | string t => cases h
    | _ => exact .inl h

theorem Token.Kind.forall₂_alike {ks ks' : List Kind} (h : ks.map mask = ks'.map mask) :
    List.Forall₂ Alike ks ks' := by
  have heq : List.Forall₂ (· = ·) (ks.map mask) (ks'.map mask) := by
    rw [List.forall₂_eq_eq_eq]
    exact h
  rw [List.forall₂_map_left_iff, List.forall₂_map_right_iff] at heq
  exact heq.imp fun _ _ => alike_of_mask_eq

variable {b : Bool} {f g f' : Layout → String} {qs qs' : List Quoted}

theorem kinds_of_lays {text : String} {ps : List Piece} (h : Lays text.toList ps)
    (hf : Piece.Fits ps) : Token.kindsAll text = Piece.kinds ps ++ [Kind.endOfInput] := by
  have hscan : (Token.scan text).map (·.kind) = Piece.kinds ps := by
    rw [Token.scan, Token.kinds_scanFrom]
    exact h.kindsOf_eq (w := []) hf
  rw [Token.kindsAll, Token.scanAll, List.map_append, hscan]
  rfl

/-- The tokens of a rendered text are the same in all layouts. -/
theorem Renders.kinds_eq (h : Renders b f g qs) (o o' : Layout) :
    Token.kindsAll (f o) = Token.kindsAll (f o') := by
  obtain ⟨ps, hps, -⟩ := h
  rw [kinds_of_lays (hps.lays o) hps.fits, kinds_of_lays (hps.lays o') hps.fits]

/-- The tokens carry the quoted texts in their order. -/
theorem Renders.quoted (h : Renders b f g qs) (hq : ∀ x ∈ qs, x.IsNamed) (o : Layout) :
    (Token.kindsAll (f o)).filterMap Kind.quoted? = qs := by
  obtain ⟨ps, hps, -⟩ := h
  rw [kinds_of_lays (hps.lays o) hps.fits, List.filterMap_append, Piece.kinds,
    filterMap_quoted?_kindsFrom (w := []) hps.fits (hps.quotes ▸ hq), hps.quotes]
  exact List.append_nil _

/-- But for the quoted texts, the tokens are those of the text blotted out. -/
theorem Renders.map_mask_kinds (h : Renders b f g qs) (hq : ∀ x ∈ qs, x.IsNamed) (o : Layout) :
    (Token.kindsAll (f o)).map Kind.mask = (Token.kindsAll (g o)).map Kind.mask := by
  obtain ⟨ps, hps, -⟩ := h
  rw [kinds_of_lays (hps.lays o) hps.fits, kinds_of_lays (hps.masked o) hps.fits.mask,
    List.map_append, List.map_append, Piece.kinds, Piece.kinds,
    map_mask_kindsFrom (hps.quotes ▸ hq)]

/-- Two texts with one shape have the same tokens but for the quoted texts. -/
theorem Renders.alike (h : Renders b f g qs) (h' : Renders b f' g qs') (hq : ∀ x ∈ qs, x.IsNamed)
    (hq' : ∀ x ∈ qs', x.IsNamed) (o : Layout) :
    List.Forall₂ Kind.Alike (Token.kindsAll (f o)) (Token.kindsAll (f' o)) :=
  Kind.forall₂_alike ((h.map_mask_kinds hq o).trans (h'.map_mask_kinds hq' o).symm)

/-! ### Layouts -/

/-- The layout does not change the tokens of a printed expression or query. -/
theorem kinds_print_layout :
    (∀ e : Expr, AllBare e.nodes →
      ∀ o o', Token.kindsAll (e.print o) = Token.kindsAll (e.print o')) ∧
      ∀ q : Query, AllBare q.nodes →
        ∀ o o', Token.kindsAll (q.print o) = Token.kindsAll (q.print o') :=
  ⟨fun e h => (e.renders h).kinds_eq, fun q h => (q.renders h).kinds_eq⟩

/-- Bare texts of all sorts next to a quoted name and a quoted string. -/
def Expr.sampleWith (text : String) : Expr :=
  .caseWhen (some (.field (.literal (.decimal "1")) (.quoted text)))
    [(.unary .minus (.integer (-7)), .typed "DATE" text)]
    (some (.call (.plain ⟨[.quoted text], .plain "lower.1e"⟩ [.string text])))

/-- The expression as the only item and as the filter, with an alias. -/
def Query.sampleWith (text : String) : Query :=
  .ofBody (.select ⟨none, [.expr (.sampleWith text) (some (.quoted text))],
    [.table (.single (.quoted text)) none], some (.sampleWith text), none, none, []⟩)

theorem Expr.allBare_sampleWith (text : String) : AllBare (Expr.sampleWith text).nodes := by
  have hdecimal : IsBareText "1" := ⟨by decide, List.all_eq_true.1 (by decide)⟩
  have hword : IsBareText "DATE" := ⟨by decide, List.all_eq_true.1 (by decide)⟩
  have hname : IsBareText "lower.1e" := ⟨by decide, List.all_eq_true.1 (by decide)⟩
  simp [AllBare, sampleWith, Expr.nodes, Expr.nodes?, Expr.branchNodes, Expr.nodesAll, Call.plain,
    Call.nodes, OrderTerm.nodesAll, Over.nodes?, Node.IsBare, Name.parts, Ident.quoted, Ident.plain,
    Expr.integer, Expr.string, hdecimal, hword, hname]

theorem Query.allBare_sampleWith (text : String) : AllBare (Query.sampleWith text).nodes := by
  have h := Expr.allBare_sampleWith text
  simp only [AllBare] at h
  simpa [AllBare, sampleWith, ofBody, Query.nodes, With.nodes?, Body.nodes, Select.nodes,
    SelectItem.nodesAll, SelectItem.nodes, Relation.nodesAll, Relation.nodes, Expr.nodes?,
    GroupBy.nodes?, NamedWindow.nodesAll, OrderTerm.nodesAll, Node.IsBare, or_imp, forall_and]
    using h

/-- A text with quotes, line breaks and the marks of comments in it. -/
def hostileText : String := "it's \"x\"\n-- /* ;"

/-- The tokens of `Expr.sampleWith`. -/
def Expr.kindsWith (text : String) : List Kind :=
  [.keyword .CASE, .decimal "1.", .ident (.quoted text), .keyword .WHEN, .symbol .minus,
    .symbol .leftParen, .symbol .minus, .integer 7, .symbol .rightParen, .keyword .THEN,
    .ident (.plain "DATE"), .string text, .keyword .ELSE, .ident (.quoted text), .symbol .dot,
    .ident (.plain "lower"), .decimal ".1", .ident (.plain "e"), .symbol .leftParen, .string text,
    .symbol .rightParen, .keyword .END]

/-- The tokens of `Query.sampleWith`. -/
def Query.kindsWith (text : String) : List Kind :=
  .keyword .SELECT :: Expr.kindsWith text ++ [.keyword .AS, .ident (.quoted text), .keyword .FROM,
    .ident (.quoted text), .keyword .WHERE] ++ Expr.kindsWith text ++ [.endOfInput]

theorem kinds_print_layout_sample :
    AllBare (Query.sampleWith hostileText).nodes ∧
      (∀ i j, Token.kindsAll ((Query.sampleWith hostileText).print ⟨.pretty, i⟩) =
        Token.kindsAll ((Query.sampleWith hostileText).print ⟨.inline, j⟩)) ∧
      ∀ o, Token.kindsAll ((Query.sampleWith hostileText).print o) =
        Query.kindsWith hostileText := by
  have hbare := Query.allBare_sampleWith hostileText
  have hinline : Token.kindsAll ((Query.sampleWith hostileText).print {}) =
      Query.kindsWith hostileText := by
    decide +kernel
  exact ⟨hbare, fun i j => kinds_print_layout.2 _ hbare ⟨.pretty, i⟩ ⟨.inline, j⟩,
    fun o => (kinds_print_layout.2 _ hbare o {}).trans hinline⟩

/-! ### Quoted texts -/

/-- Trees of one shape are printed as the same tokens but for the quoted texts, and those are the
texts of each tree in their order. -/
theorem kinds_print_shape :
    (∀ e e' : Expr, e.mask = e'.mask → AllBare e.nodes → AllBare e'.nodes →
      (∀ x ∈ e.quotes, x.IsNamed) → (∀ x ∈ e'.quotes, x.IsNamed) → ∀ o,
      List.Forall₂ Kind.Alike (Token.kindsAll (e.print o)) (Token.kindsAll (e'.print o)) ∧
        (Token.kindsAll (e.print o)).filterMap Kind.quoted? = e.quotes ∧
        (Token.kindsAll (e'.print o)).filterMap Kind.quoted? = e'.quotes) ∧
    ∀ q q' : Query, q.mask = q'.mask → AllBare q.nodes → AllBare q'.nodes →
      (∀ x ∈ q.quotes, x.IsNamed) → (∀ x ∈ q'.quotes, x.IsNamed) → ∀ o,
      List.Forall₂ Kind.Alike (Token.kindsAll (q.print o)) (Token.kindsAll (q'.print o)) ∧
        (Token.kindsAll (q.print o)).filterMap Kind.quoted? = q.quotes ∧
        (Token.kindsAll (q'.print o)).filterMap Kind.quoted? = q'.quotes := by
  constructor
  · intro e e' hshape he he' hq hq' o
    have hr : e.Drawn false := (e.renders he).loose
    have hr' : e'.Drawn false := (e'.renders he').loose
    refine ⟨?_, hr.quoted hq o, hr'.quoted hq' o⟩
    rw [Expr.Drawn, ← hshape] at hr'
    exact hr.alike hr' hq hq' o
  · intro q q' hshape he he' hq hq' o
    have hr := q.renders he
    have hr' := q'.renders he'
    refine ⟨?_, hr.quoted hq o, hr'.quoted hq' o⟩
    rw [← hshape] at hr'
    exact hr.alike hr' hq hq' o

theorem Query.isNamed_sampleWith {text : String} (h : text ≠ "") :
    ∀ x ∈ (Query.sampleWith text).quotes, x.IsNamed := by
  simp [sampleWith, ofBody, Query.quotes, With.quotes?, Body.quotes, Select.quotes,
    SelectItem.quotesAll, SelectItem.quotes, Relation.quotesAll, Relation.quotes, Expr.quotes?,
    GroupBy.quotes?, NamedWindow.quotesAll, OrderTerm.quotesAll, Expr.sampleWith, Expr.quotes,
    Expr.branchQuotes, Call.plain, Call.quotes, Expr.quotesAll, Over.quotes?, Literal.quotes,
    Name.quotes, Name.callQuotes, Name.parts, Name.single, Ident.callQuotes, Ident.quote,
    Ident.quoted, Ident.plain, Expr.integer, Expr.string, Quoted.IsNamed, h]

theorem kinds_print_shape_sample :
    (Query.sampleWith hostileText).mask = (Query.sampleWith "a").mask ∧ ∀ o,
      List.Forall₂ Kind.Alike (Token.kindsAll ((Query.sampleWith hostileText).print o))
          (Token.kindsAll ((Query.sampleWith "a").print o)) ∧
        (Token.kindsAll ((Query.sampleWith hostileText).print o)).filterMap Kind.quoted? =
          (Query.sampleWith hostileText).quotes ∧
        (Token.kindsAll ((Query.sampleWith "a").print o)).filterMap Kind.quoted? =
          (Query.sampleWith "a").quotes :=
  ⟨rfl, kinds_print_shape.2 _ _ rfl (Query.allBare_sampleWith _) (Query.allBare_sampleWith _)
    (Query.isNamed_sampleWith (by decide)) (Query.isNamed_sampleWith (by decide))⟩

end Sql
