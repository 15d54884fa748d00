import Sql.Proofs.Echoes

/-! Plain texts that begin alike: looking ahead, and parsing types. -/
namespace Sql

open Token (Kind)

/-! ### Looking ahead -/

namespace Token.Kind

variable {ks : List Kind}

theorem arePlain_tail (h : arePlain ks = true) : arePlain ks.tail = true := by
  cases ks with
  | nil => rfl
  | cons k ks =>
    rw [arePlain, Bool.and_eq_true] at h
    exact h.2

theorem listsParameters_of_plain (h : arePlain ks = true) : listsParameters ks = false := by
  induction ks using listsParameters.induct with
  | case1 x ks ih =>
    rw [listsParameters]
    exact ih (arePlain_tail (arePlain_tail h))
  | case2 x ks => simp [arePlain, startsTentative] at h
  | case3 ks hcomma harrow =>
    rw [listsParameters]
    · exact hcomma
    · exact harrow

theorem namesStar_of_plain (h : arePlain ks = true) : namesStar ks = false := by
  induction ks using namesStar.induct with
  | case1 x ks => simp [arePlain, startsTentative] at h
  | case2 x ks hstar ih =>
    rw [namesStar]
    · exact ih (arePlain_tail (arePlain_tail h))
    · exact hstar
  | case3 ks hstar hdot =>
    rw [namesStar]
    · exact hstar
    · exact hdot

theorem startsQuery_of_ne {k : Kind} (h : k ≠ .symbol .leftParen) :
    startsQuery (k :: ks) = k.isQueryWord := by
  cases k with
  | keyword w => cases w <;> rfl
  | symbol m =>
    cases m with
    | leftParen => exact absurd rfl h
    | _ => rfl
  | _ => rfl

/-- In plain texts one parenthesis at most is read over on the way to a query. -/
theorem startsQuery_of_plain (h : arePlain (.symbol .leftParen :: ks) = true) :
    startsQuery ks = (next ks).isQueryWord := by
  induction ks with
  | nil => rfl
  | cons k ks ih =>
    by_cases hk : k = .symbol .leftParen
    · subst hk
      rw [startsQuery, ih (arePlain_tail h)]
      rw [arePlain, Bool.and_eq_true] at h
      cases ks with
      | nil => rfl
      | cons l ks =>
        have hl : l.isQueryWord = false := by simpa [startsTentative] using h.1
        exact hl
    · exact startsQuery_of_ne hk

end Token.Kind

namespace Cursor.Plain

variable {c : Cursor}

theorem parametersAhead (h : c.Plain) : Parser.parametersAhead c = .ok (false, c) := by
  rw [Parser.parametersAhead_apply (m := c.parameters) ⟨rfl, rfl⟩,
    Kind.listsParameters_of_plain (Kind.arePlain_tail h.plain), Bool.and_false]

theorem starAhead (h : c.Plain) : Parser.starAhead c = .ok (false, c) := by
  rw [Parser.starAhead_apply (m := c.parameters) ⟨rfl, rfl⟩, Kind.namesStar_of_plain h.plain]

theorem queryAhead (h : c.Plain) : Parser.queryAhead c =
    .ok (c.kind == .symbol .leftParen && (c.kindAt 1).isQueryWord, c) := by
  have hplain := h.plain
  rw [Parser.queryAhead_apply (m := c.parameters) ⟨rfl, rfl⟩, kind_eq, kindAt_eq]
  cases hk : c.kinds with
  | nil => rfl
  | cons k ks =>
    by_cases hparen : k = .symbol .leftParen
    · subst hparen
      rw [hk] at hplain
      rw [Kind.startsQuery, Kind.startsQuery_of_plain hplain, Kind.getD_one]
    · rw [Kind.next_cons, beq_false_of_ne hparen, Bool.false_and, Bool.false_and]

/-- What does not start at two tokens of a plain text. -/
theorem not_startsPair (h : c.Plain) : (c.kind.isWord "GROUPING" && (c.kindAt 1).isWord "SETS" ||
    c.kind.isWord "ROW" && c.kindAt 1 == .symbol .leftParen) = false := by
  have hstart := h.not_startsTentative
  rw [kind_eq, kindAt_eq]
  cases hk : c.kinds with
  | nil => rfl
  | cons k ks =>
    cases ks with
    | nil => simp [Kind.isWord]
    | cons l ks =>
      rw [hk] at hstart
      cases k with
      | ident x => exact hstart
      | _ => rfl

end Cursor.Plain

/-- A parenthesis is ahead, and behind it a word that opens a query. -/
structure Cursor.OpensQuery (c : Cursor) : Prop where
  paren : c.kind = .symbol .leftParen
  word : (c.kindAt 1).isQueryWord = true

namespace Cursor.OpensQuery

variable {c : Cursor}

theorem advance (h : c.OpensQuery) : c.advance.kind.isQueryWord = true := by
  rw [kind_advance]
  exact h.word

theorem exists_at (h : c.OpensQuery) : ∃ k, k.isQueryWord = true ∧
    c.At (.symbol .leftParen :: k :: c.advance.advance.kinds) c.parameters := by
  have hword := h.advance
  have hne : c.advance.kind ≠ .endOfInput := by
    intro hend
    rw [hend] at hword
    cases hword
  refine ⟨c.advance.kind, hword, ?_⟩
  rw [← (At.of_kind rfl hne).kinds]
  exact .of_kind h.paren nofun

theorem queryAhead (h : c.OpensQuery) : Parser.queryAhead c = .ok (true, c) := by
  obtain ⟨k, hk, hc⟩ := h.exists_at
  rw [Parser.queryAhead_apply hc]
  rcases Kind.eq_of_isQueryWord hk with rfl | rfl | rfl | rfl <;> rfl

theorem parametersAhead (h : c.OpensQuery) : Parser.parametersAhead c = .ok (false, c) := by
  obtain ⟨k, hk, hc⟩ := h.exists_at
  rw [Parser.parametersAhead_apply hc]
  rcases Kind.eq_of_isQueryWord hk with rfl | rfl | rfl | rfl <;> rfl

end Cursor.OpensQuery

namespace Parser

variable {α β : Type} {n i : Nat} {s t c d : Cursor} {p p' q q' : Parser α} {f : α → Parser β}
  {Q : α → Nat → Prop}

/-- What needs parentheses is refused where none open. -/
theorem EchoesFrom.parens_of_ne (hst : Cursor.Agree n s t) (hc : Cursor.Beside n s t i c d)
    (hne : c.kind ≠ .symbol .leftParen) : EchoesFrom n s t i c d (parens p) (parens q) Q := by
  have hfails : ∀ {c : Cursor} {p : Parser α}, c.kind ≠ .symbol .leftParen →
      parens p c = .error ⟨.unexpected (Kind.symbol .leftParen).describe c.kind, c.token.span⟩ := by
    intro c p hne
    have hc : c.At c.kinds c.parameters := ⟨rfl, rfl⟩
    exact bind_error (bind_ok (eat_of_ne hc (by rwa [← Cursor.kind_eq])))
  refine .refused hc (hfails hne) rfl ?_ fun hi _ => ?_
  · rintro _ ⟨⟩
    rfl
  · rw [← hst.kind hc hi] at hne
    exact ⟨_, hfails hne⟩

/-- The next token is refused, or the nesting is too deep for it. -/
def Refuses (p : Parser α) (c : Cursor) : Prop :=
  ∃ e, p c = .error e ∧ e.span = c.token.span ∧ ∀ k ∈ e.found?, k = c.kind

theorem Refuses.unexpected (expected : String)
    (h : p c = (Parser.unexpected expected : Parser α) c) : Refuses p c := by
  refine ⟨_, h, rfl, ?_⟩
  rintro _ ⟨⟩
  rfl

theorem Refuses.of_eq {p' : Parser β} (h : Refuses p c)
    (hp : ∀ e, p c = .error e → p' c = .error e) : Refuses p' c := by
  obtain ⟨e, he, hspan, hfound⟩ := h
  exact ⟨e, hp e he, hspan, hfound⟩

theorem Refuses.bind (h : Refuses p c) : Refuses (p >>= f) c := h.of_eq fun _ => bind_error

theorem expectParen_bind (h : c.kind = .symbol .leftParen) :
    (expectSymbol .leftParen >>= fun _ => p) c = p c.advance :=
  bind_ok (expectSymbol_of_eq (.of_kind h nofun))

/-- The token behind a parenthesis is refused. -/
theorem Refuses.behind (h : Refuses p c.advance) (hparen : c.kind = .symbol .leftParen) :
    ∃ e, (expectSymbol .leftParen >>= fun _ => p) c = .error e ∧
      e.span = c.advance.token.span ∧ ∀ k ∈ e.found?, k = c.advance.kind := by
  rw [expectParen_bind hparen]
  exact h

namespace EchoesFrom

/-- The word behind a parenthesis is refused, and it is one that opens a query. -/
theorem refusesWord (hc : c.Behind i s) (ho : c.OpensQuery) (h : Refuses p c.advance) :
    EchoesFrom n s t i c d (expectSymbol .leftParen >>= fun _ => p) q Q := by
  obtain ⟨e, he, hspan, hfound⟩ := h.behind ho.paren
  have hne : c.kind ≠ .endOfInput := by
    rw [ho.paren]
    nofun
  unfold EchoesFrom
  rw [he]
  intro k hk
  refine ⟨i + 1, c.advance, Nat.le_succ _, hc.advance hne, hspan, hfound k hk, ?_⟩
  intro _ hother
  rw [hfound k hk, ho.advance] at hother
  cases hother

/-- What is tried succeeds in both texts, or fails in the first one. -/
theorem attempt {f g : Except ParseError α → Parser β} (hst : Cursor.Agree n s t)
    (h : EchoesFrom n s t i c d p q fun _ _ => True) (hok : ∀ a, Echoes (f (.ok a)) (g (.ok a)))
    (herror : ∀ e, p c = .error e →
      EchoesFrom n s t i c d (f (.error e)) (attempt q >>= g) fun _ _ => True) :
    EchoesFrom n s t i c d (attempt p >>= f) (Parser.attempt q >>= g) fun _ _ => True := by
  cases hr : p c with
  | error e => exact .congr (bind_ok (attempt_error hr)) (fun _ => rfl) (herror e hr)
  | ok r =>
    unfold EchoesFrom at h
    rw [hr] at h
    obtain ⟨j, d', hij, -, hc', hd⟩ := h
    exact .after hij (bind_ok (attempt_ok hr)) (fun hj => bind_ok (attempt_ok (hd hj)))
      (hok _ hst hc')

end EchoesFrom

namespace Echoes

theorem parametersAhead : Echoes parametersAhead parametersAhead := by
  intro n s t hst i c d hc
  exact .congr (hst.left.behind hc.behind).parametersAhead
    (fun hi => (hst.plain hc hi).parametersAhead) (.pure hc trivial)

theorem starAhead : Echoes starAhead starAhead := by
  intro n s t hst i c d hc
  exact .congr (hst.left.behind hc.behind).starAhead
    (fun hi => (hst.plain hc hi).starAhead) (.pure hc trivial)

/-- A query is ahead in both texts or in none. -/
theorem queryAhead (h : ∀ {n i s t c d}, Cursor.Agree n s t → Cursor.Beside n s t i c d →
    c.OpensQuery → EchoesFrom n s t i c d p q fun _ _ => True) (h' : Echoes p' q') :
    Echoes (queryAhead >>= fun b => if b then p else p')
      (Parser.queryAhead >>= fun b => if b then q else q') := by
  intro n s t hst i c d hc
  refine .look (hst.left.behind hc.behind).queryAhead (fun hi => ?_) ?_
  · rw [(hst.plain hc hi).queryAhead, hst.kind hc hi, hst.kindAt hc hi (Nat.le_refl _)]
  · split
    · rename_i hopen
      rw [Bool.and_eq_true, beq_iff_eq] at hopen
      exact h hst hc ⟨hopen.1, hopen.2⟩
    · exact h' hst hc

/-! ### Types -/

theorem typeParameter : Echoes typeParameter typeParameter := by
  refine peek.bind fun k => ?_
  split
  · exact ite (here fun _ _ => failAt rfl) (advance.bind fun _ => pure _)
  · exact unexpected

theorem decimalType : Echoes decimalType decimalType := by
  refine branch (check _) ?_ (pure _)
  refine here fun x y => advance.bind fun _ => typeParameter.bind fun p => ?_
  have hscale : ∀ scale, Echoes
      (do
        Parser.expectSymbol .rightParen
        if p = 0 ∨ DataType.maxPrecision < p then Parser.failAt x .decimalPrecision
        else if p < scale then Parser.failAt x .decimalScale
        else return Scalar.decimal p scale)
      (do
        Parser.expectSymbol .rightParen
        if p = 0 ∨ DataType.maxPrecision < p then Parser.failAt y .decimalPrecision
        else if p < scale then Parser.failAt y .decimalScale
        else return Scalar.decimal p scale) := by
    intro scale
    refine (expectSymbol _).bind fun _ => ite (failAt rfl) ?_
    exact ite (failAt rfl) (pure _)
  exact branch (eatSymbol _) (typeParameter.bind hscale) (hscale 0)

theorem typeLength : Echoes typeLength typeLength :=
  here fun _ _ => typeParameter.parens.bind fun _ => ite (failAt rfl) (pure _)

theorem timePrecision : Echoes timePrecision timePrecision := by
  refine branch (check _) ?_ (pure _)
  exact here fun x y => typeParameter.parens.bind fun _ => ite (failAt rfl) (pure _)

theorem timeZone : Echoes timeZone timeZone := by
  refine (check _).bind fun zoned => (checkWord _).bind fun zoneless => peekAt_one.bind fun k => ?_
  refine ite (advance.bind fun _ => advance.bind fun _ => ?_) (pure false)
  exact (eatWord _).bind fun b => ite (pure zoned) unexpected_bind

theorem intervalField : Echoes intervalField intervalField := by
  refine peek.bind fun k => ?_
  split
  · exact advance.bind fun _ => pure _
  · exact unexpected

theorem intervalType (x y : Span) : Echoes (intervalType x) (Parser.intervalType y) := by
  refine intervalField.bind fun start => (eatWord _).bind fun b => ite ?_ unexpected_bind
  refine intervalField.bind fun stop => ?_
  cases start <;> cases stop <;> first | exact pure _ | exact failAt rfl

section

variable {inner : Parser DataType} (h : Echoes inner inner)

include h

theorem arrayType : Echoes (arrayType inner) (Parser.arrayType inner) := by
  refine branch (eatSymbol _) ?_ (h.parens.bind fun t => pure _)
  exact h.bind fun t => (expectSymbol _).bind fun _ => pure _

theorem mapType : Echoes (mapType inner) (Parser.mapType inner) :=
  parens (h.bind fun _ => (expectSymbol _).bind fun _ => h.bind fun _ => pure _)

theorem typeNamed {word : String} (hword : word ≠ "ROW") (x y : Span) :
    Echoes (typeNamed inner x word) (Parser.typeNamed inner y word) := by
  unfold Parser.typeNamed
  split
  iterate 7 exact pure _
  · exact (eatWord _).bind fun _ => pure _
  · exact decimalType.bind fun s => pure _
  · exact decimalType.bind fun s => pure _
  · exact (check _).bind fun b => typeLength.optional.bind fun n => pure _
  · exact (check _).bind fun b => typeLength.optional.bind fun n => pure _
  iterate 4 exact pure _
  · exact timePrecision.bind fun p => timeZone.bind fun z => pure _
  · exact timePrecision.bind fun p => timeZone.bind fun z => pure _
  · exact (intervalType x y).bind fun s => pure _
  · exact arrayType h
  · exact mapType h
  · exact absurd rfl hword
  · exact failAt rfl

theorem dataType : Echoes (dataType inner) (Parser.dataType inner) := by
  intro n s t hst i c d hc
  refine .congr (bind_ok here_apply) (fun _ => bind_ok here_apply) ?_
  refine .peek hst hc ?_
  cases hk : c.kind with
  | ident x =>
    by_cases hdelimited : x.delimited = true
    · simp only [hdelimited, if_true]
      exact .unexpected hc
    simp only [hdelimited, if_false, Bool.false_eq_true]
    have hne : c.kind ≠ .endOfInput := by
      rw [hk]
      nofun
    have hc' := hc.advance hst hne
    refine .after (Nat.le_succ i) (bind_ok advance_apply) (fun _ => bind_ok advance_apply) ?_
    by_cases hrow : x.text.toUpper = "ROW"
    · -- The word stands alone, so its parentheses are missed in both texts.
      have hpair := (hst.left.behind hc.behind).not_startsPair
      have hword : c.kind.isWord "ROW" = true := by simp [hk, Kind.isWord, hdelimited, hrow]
      rw [hword, Bool.true_and, Bool.or_eq_false_iff, beq_eq_false_iff_ne] at hpair
      rw [hrow]
      have hparen : c.advance.kind ≠ .symbol .leftParen := by
        rw [hc'.behind.kind, ← hc.behind.kindAt]
        exact hpair.2
      exact (EchoesFrom.parens_of_ne (Q := fun _ _ => True) hst hc' hparen).bind
        fun _ _ _ _ _ _ hc => .pure hc trivial
    · exact typeNamed h hrow _ _ hst hc'
  | _ => exact .unexpected hc

end

end Echoes

end Parser

end Sql
