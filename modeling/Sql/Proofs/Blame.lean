import Sql.Parse.Query
import Sql.Proofs.Results

/-! Parsers that blame a token: where an error stands, there stands one of the tokens of the text,
and what has been found there is the kind of that token. -/
namespace Sql

/-- One of the tokens stands exactly there. -/
def Span.Among (ts : List Token) (s : Span) : Prop := ∃ t ∈ ts, t.span = s

/-- One of the tokens stands where the error does, and if the error tells what has been found, it is
the kind of that token. -/
def ParseError.Among (ts : List Token) (e : ParseError) : Prop :=
  ∃ t ∈ ts, t.span = e.span ∧ ∀ k ∈ e.found?, t.kind = k

/-- Some of the tokens are ahead, up to the mark of the end. -/
def Cursor.Within (ts : List Token) (c : Cursor) : Prop :=
  c.ahead ++ [Token.ending c.total] <:+ ts

variable {ts : List Token}

theorem Cursor.Within.token {c : Cursor} (h : c.Within ts) : c.token ∈ ts := by
  refine h.subset ?_
  unfold Cursor.token
  cases c.ahead <;> simp

theorem Cursor.Within.advance {c : Cursor} (h : c.Within ts) : c.advance.Within ts := by
  refine List.IsSuffix.trans ?_ h
  unfold Cursor.advance
  cases c.ahead with
  | nil => exact List.suffix_refl _
  | cons t ts => exact List.suffix_cons t _

namespace Parser

variable {α β : Type} {p : Parser α} {f : α → Parser β} {P Q : α → Prop} {R : β → Prop}

/-- From any place among the tokens, the parser fails and blames one of them, or it stays among them
and returns something that has the property `Q`. -/
def Blames (ts : List Token) (p : Parser α) (Q : α → Prop) : Prop :=
  ∀ c, c.Within ts → match p c with
    | .ok (a, c') => c'.Within ts ∧ Q a
    | .error e => e.Among ts

/-- Nothing is said about the result. -/
abbrev Points (ts : List Token) (p : Parser α) : Prop := Blames ts p fun _ => True

namespace Blames

theorem pure {a : α} (h : Q a) : Blames ts (pure a) Q := fun _ hc => ⟨hc, h⟩

theorem bind (h : Blames ts p P) (hf : ∀ a, P a → Blames ts (f a) R) : Blames ts (p >>= f) R := by
  intro c hc
  have hp := h c hc
  cases hr : p c with
  | error e =>
    rw [hr] at hp
    rw [bind_error hr]
    exact hp
  | ok r =>
    rw [hr] at hp
    rw [bind_ok hr]
    exact hf r.1 hp.2 r.2 hp.1

/-- A step whose result does not matter. -/
theorem skip (h : Points ts p) (hf : ∀ a, Blames ts (f a) R) : Blames ts (p >>= f) R :=
  h.bind fun a _ => hf a

theorem ite {b : Prop} [Decidable b] {q : Parser α} (hp : Blames ts p Q) (hq : Blames ts q Q) :
    Blames ts (if b then p else q) Q := by
  split
  · exact hp
  · exact hq

/-- Which way to go is decided first. -/
theorem branch {b : Parser Bool} {q : Parser α} (h : Points ts b) (hp : Blames ts p Q)
    (hq : Blames ts q Q) : Blames ts (b >>= fun x => if x then p else q) Q :=
  h.skip fun _ => ite hp hq

/-- A parser that only looks. -/
theorem look {g : Cursor → α} (hp : ∀ c, p c = .ok (g c, c)) : Points ts p := by
  intro c hc
  rw [hp]
  exact ⟨hc, trivial⟩

theorem here : Blames ts here (Span.Among ts) := fun c hc => ⟨hc, c.token, hc.token, rfl⟩

theorem peek : Points ts peek := look fun _ => rfl

theorem peekAt (n : Nat) : Points ts (peekAt n) := look fun _ => rfl

theorem check (k : Token.Kind) : Points ts (check k) := look fun _ => rfl

theorem checkWord (w : String) : Points ts (checkWord w) := look fun _ => rfl

theorem advance : Points ts advance := fun _ hc => ⟨hc.advance, trivial⟩

/-- Where an error with no token of its own is reported, a token has to stand. -/
theorem failAt {span : Span} {cause : ParseError.Cause} (hs : span.Among ts)
    (hcause : (ParseError.mk cause span).found? = none) :
    Blames ts (failAt span cause : Parser α) Q := by
  intro c _
  obtain ⟨t, ht, hspan⟩ := hs
  refine ⟨t, ht, hspan, ?_⟩
  rw [hcause]
  exact nofun

theorem unexpected {expected : String} : Blames ts (unexpected expected : Parser α) Q := by
  intro c hc
  refine ⟨c.token, hc.token, rfl, ?_⟩
  rintro _ ⟨⟩
  rfl

theorem unexpected_bind {expected : String} : Blames ts (Parser.unexpected expected >>= f) R :=
  bind (P := fun _ => False) unexpected fun _ h => h.elim

theorem advanceIf (b : Bool) : Points ts (advanceIf b) := by
  cases b
  · exact pure trivial
  · exact advance.skip fun _ => pure trivial

theorem eat (k : Token.Kind) : Points ts (eat k) := (check k).skip advanceIf

theorem eatSymbol (s : Symbol) : Points ts (eatSymbol s) := eat _

theorem eatKeyword (w : Keyword) : Points ts (eatKeyword w) := eat _

theorem eatWord (w : String) : Points ts (eatWord w) := (checkWord w).skip advanceIf

theorem require (b : Bool) {expected : String} :
    Points ts (unless b do Parser.unexpected expected) := by
  cases b
  · exact unexpected
  · exact pure trivial

theorem expectSymbol (s : Symbol) : Points ts (expectSymbol s) :=
  (eatSymbol s).skip fun b => require b

theorem expectKeyword (w : Keyword) : Points ts (expectKeyword w) :=
  (eatKeyword w).skip fun b => require b

theorem valid {span : Span} (hs : span.Among ts) (built : Except Invalid α) :
    Points ts (valid span built) := by
  cases built with
  | ok a => exact pure trivial
  | error reason => exact failAt hs rfl

/-- A failed attempt has blamed a token. -/
theorem attempt (h : Points ts p) :
    Blames ts (attempt p) fun r => ∀ e, r = .error e → e.Among ts := by
  intro c hc
  have hp := h c hc
  unfold Parser.attempt
  cases hr : p c with
  | error e =>
    rw [hr] at hp
    refine ⟨hc, ?_⟩
    rintro _ ⟨⟩
    exact hp
  | ok r =>
    rw [hr] at hp
    exact ⟨hp.1, nofun⟩

theorem orFailWith {e : ParseError} (h : Points ts p) (he : e.Among ts) :
    Points ts (orFailWith p e) := by
  intro c hc
  have hp := h c hc
  unfold Parser.orFailWith
  cases hr : p c with
  | error e' => exact he
  | ok r =>
    rw [hr] at hp
    exact hp

theorem optional {b : Bool} (h : Points ts p) : Points ts (optional b p) := by
  cases b
  · exact pure trivial
  · rw [optional_true, map_eq_pure_bind]
    exact h.skip fun _ => pure trivial

theorem iterate {step : α → Parser (Option α)} {a : α} (h : ∀ a, Points ts (step a)) :
    Points ts (iterate step a) := by
  have hget : Points ts (get : Parser Cursor) := look fun _ => rfl
  refine hget.skip fun c => ?_
  generalize c.ahead.length = bound
  induction bound generalizing a with
  | zero => exact pure trivial
  | succ bound ih =>
    refine (h a).skip fun r => ?_
    cases r with
    | none => exact pure trivial
    | some b => exact ih

theorem moreItems (h : Points ts p) (bound : Nat) : Points ts (moreItems p bound) := by
  induction bound with
  | zero => exact pure trivial
  | succ bound ih =>
    refine branch (eatSymbol _) ?_ (pure trivial)
    exact h.skip fun _ => ih.skip fun _ => pure trivial

theorem commaList (h : Points ts p) : Points ts (commaList p) := by
  have hget : Points ts (get : Parser Cursor) := look fun _ => rfl
  exact h.skip fun _ => hget.skip fun _ => (h.moreItems _).skip fun _ => pure trivial

theorem between {opening closing : Symbol} (h : Points ts p) :
    Points ts (between opening closing p) :=
  (expectSymbol _).skip fun _ => h.skip fun _ => (expectSymbol _).skip fun _ => pure trivial

theorem parens (h : Points ts p) : Points ts (parens p) := h.between

theorem finish : Points ts finish :=
  (eatSymbol _).skip fun _ => (check _).skip fun b => require b

/-- The error of parsing a whole text. -/
theorem run {text : String} {e : ParseError} (h : Points (Token.scanAll text) p)
    (he : p.run text = .error e) : e.Among (Token.scanAll text) := by
  have hwhole : Points (Token.scanAll text) (do let a ← p; Parser.finish; return a) :=
    h.skip fun _ => finish.skip fun _ => pure trivial
  have hstart : (Cursor.ofText text).Within (Token.scanAll text) := List.suffix_refl _
  have hresult := hwhole _ hstart
  rw [run_eq_error_iff.1 he] at hresult
  exact hresult

/-! ### Names -/

theorem ident : Points ts ident := by
  refine peek.skip fun k => ?_
  split
  · exact advance.skip fun _ => pure trivial
  · exact unexpected

theorem name : Points ts name := by
  refine ident.skip fun x => iterate fun n => ?_
  refine (check _).skip fun dot => (peekAt 1).skip fun next => ite ?_ (pure trivial)
  exact advance.skip fun _ => ident.skip fun _ => pure trivial

theorem identList : Points ts identList := (commaList ident).parens

theorem optionalIdentList : Points ts optionalIdentList := branch (check _) identList (pure trivial)

theorem optionalName : Points ts optionalName := by
  have hname : Points ts (do return some (← Parser.ident)) := ident.skip fun _ => pure trivial
  exact branch (eatKeyword _) hname (peek.skip fun k => ite hname (pure trivial))

theorem queryAhead : Points ts queryAhead := look fun _ => rfl

theorem parametersAhead : Points ts parametersAhead := look fun _ => rfl

theorem starAhead : Points ts starAhead := look fun _ => rfl

/-! ### Types -/

theorem typeParameter : Points ts typeParameter := by
  refine peek.skip fun k => ?_
  split
  · exact ite (here.bind fun span hs => failAt hs rfl) (advance.skip fun _ => pure trivial)
  · exact unexpected

theorem decimalType : Points ts decimalType := by
  refine branch (check _) ?_ (pure trivial)
  refine here.bind fun span hs => advance.skip fun _ => typeParameter.skip fun p => ?_
  have hscale : ∀ s, Points ts (do
      Parser.expectSymbol .rightParen
      if p = 0 ∨ DataType.maxPrecision < p then Parser.failAt span .decimalPrecision
      else if p < s then Parser.failAt span .decimalScale
      else return Scalar.decimal p s) := by
    intro s
    refine (expectSymbol _).skip fun _ => ite (failAt hs rfl) ?_
    exact ite (failAt hs rfl) (pure trivial)
  exact branch (eatSymbol _) (typeParameter.skip hscale) (hscale 0)

theorem typeLength : Points ts typeLength :=
  here.bind fun _ hs => typeParameter.parens.skip fun _ => ite (failAt hs rfl) (pure trivial)

theorem timePrecision : Points ts timePrecision := by
  refine branch (check _) ?_ (pure trivial)
  exact here.bind fun _ hs => typeParameter.parens.skip fun _ => ite (failAt hs rfl) (pure trivial)

theorem timeZone : Points ts timeZone := by
  refine (check _).skip fun zoned => (checkWord _).skip fun zoneless => (peekAt 1).skip fun k => ?_
  refine ite (advance.skip fun _ => advance.skip fun _ => ?_) (pure trivial)
  exact (eatWord _).skip fun b => ite (pure trivial) unexpected_bind

theorem intervalField : Points ts intervalField := by
  refine peek.skip fun k => ?_
  split
  · exact advance.skip fun _ => pure trivial
  · exact unexpected

theorem intervalType {span : Span} (hs : span.Among ts) : Points ts (intervalType span) := by
  refine intervalField.skip fun start => (eatWord _).skip fun b => ite ?_ unexpected_bind
  refine intervalField.skip fun stop => ?_
  split
  · exact pure trivial
  · exact pure trivial
  · exact failAt hs rfl

section

variable {inner : Parser DataType} (h : Points ts inner)

include h

theorem arrayType : Points ts (arrayType inner) := by
  refine branch (eatSymbol _) ?_ (h.parens.skip fun _ => pure trivial)
  exact h.skip fun t => (expectSymbol _).skip fun _ => pure trivial

theorem mapType : Points ts (mapType inner) :=
  parens (h.skip fun _ => (expectSymbol _).skip fun _ => h.skip fun _ => pure trivial)

theorem lastType : Points ts (lastType inner) := by
  refine h.skip fun t => peek.skip fun k => ?_
  split
  · exact pure trivial
  · exact pure trivial
  · exact unexpected

theorem rowField : Points ts (rowField inner) := by
  refine (lastType h).attempt.bind fun r _ => ?_
  split
  · exact pure trivial
  · exact ident.skip fun x => h.skip fun t => pure trivial

theorem rowType : Points ts (rowType inner) :=
  (commaList (rowField h)).parens.skip fun _ => pure trivial

theorem typeNamed {span : Span} (hs : span.Among ts) (word : String) :
    Points ts (typeNamed inner span word) := by
  have hplain : ∀ t : DataType, Points ts (Pure.pure t : Parser DataType) := fun t => pure trivial
  unfold Parser.typeNamed
  split
  iterate 7 exact hplain _
  · exact (eatWord _).skip fun _ => hplain _
  · exact decimalType.skip fun s => hplain _
  · exact decimalType.skip fun s => hplain _
  · exact (check _).skip fun b => typeLength.optional.skip fun n => hplain _
  · exact (check _).skip fun b => typeLength.optional.skip fun n => hplain _
  iterate 4 exact hplain _
  · exact timePrecision.skip fun p => timeZone.skip fun z => hplain _
  · exact timePrecision.skip fun p => timeZone.skip fun z => hplain _
  · exact (intervalType hs).skip fun s => hplain _
  · exact arrayType h
  · exact mapType h
  · exact rowType h
  · exact failAt hs rfl

theorem dataType : Points ts (dataType inner) := by
  refine here.bind fun span hs => peek.skip fun k => ?_
  split
  · exact ite unexpected (advance.skip fun _ => typeNamed h hs _)
  · exact unexpected

end

end Blames

end Parser

end Sql
