import Sql.Proofs.Cursor
import Sql.Proofs.Good
import Sql.Proofs.Magnitudes
import Sql.Proofs.Runs

/-! What a parser can return: properties of its result that follow from properties of the tokens
ahead of it. -/
namespace Sql

open Token (Kind)

/-! ### The tokens of a text -/

/-- The names among the tokens are words that are not reserved, or are delimited and not empty. -/
def Token.Kind.Spelled : Kind → Prop
  | .ident x => x.Spelled
  | _ => True

theorem Ident.Spelled.named {x : Ident} (h : x.Spelled) : x.Named := by
  unfold Ident.Spelled at h
  split at h
  · exact h
  · obtain ⟨⟨c, cs, htext, -⟩, -⟩ := h
    intro hempty
    rw [hempty] at htext
    cases htext

namespace Token

variable {c : Char} {cs : List Char} {k : Kind}

/-- The kinds that the scanner finds: integers are not negative, and the end has no token. -/
inductive Kind.Found : Kind → Prop where
  | integer {n : Nat} : n ≤ maxInteger → Found (.integer (.ofNat n))
  | decimal {text : String} : IsDecimal text → Found (.decimal text)
  | double {value : Double} : value.negative = false → value.isNaN = false → Found (.double value)
  | string {text : String} : Found (.string text)
  | binary {bytes : List UInt8} : Found (.binary bytes)
  | name {text : String} : text ≠ "" → Found (.ident (.quoted text))
  | word {text : String} : IsWord text → Found (.ident (.plain text))
  | keyword {word : Keyword} : Found (.keyword word)
  | symbol {mark : Symbol} : Found (.symbol mark)
  | error {cause : LexicalError} : Found (.error cause)

theorem Kind.Found.spelled (h : k.Found) : k.Spelled := by
  cases h with
  | name hne => exact hne
  | word hword => exact hword
  | _ => trivial

theorem Kind.Found.ne_endOfInput (h : k.Found) : k ≠ .endOfInput := by
  rintro rfl
  cases h

theorem wordKind_found (hc : startsWord c = true) (hcs : ∀ d ∈ cs, continuesWord d = true) :
    (wordKind (String.ofList (c :: cs))).Found := by
  unfold wordKind
  split
  · exact .keyword
  · rename_i hword
    exact .word ⟨⟨c, cs, String.toList_ofList, hc, hcs⟩, hword⟩

theorem scanWord_found (hc : startsWord c = true) : (scanWord c cs).1.Found :=
  wordKind_found hc fun _ hd => (List.all_eq_true.1 List.all_takeWhile) _ hd

theorem scanName_found : (scanName cs).1.Found := by
  unfold scanName
  split
  · exact .error
  · rename_i text _ hne _
    exact .name fun hempty => hne (String.ofList_eq_empty_iff.1 hempty)
  · exact .error

theorem binaryKind_found (text : List Char) : (binaryKind text).Found := by
  unfold binaryKind
  split
  · exact .error
  · split
    · exact .binary
    · exact .error

theorem all_takeDigits (cs : List Char) : ∀ d ∈ cs.takeWhile Char.isDigit, d.isDigit = true :=
  fun _ hd => (List.all_eq_true.1 List.all_takeWhile) _ hd

theorem takeFraction_shape (cs : List Char) : (takeFraction cs).1 = [] ∨
    ∃ fs, (takeFraction cs).1 = '.' :: fs ∧ ∀ d ∈ fs, d.isDigit = true := by
  unfold takeFraction
  split
  · split
    · exact .inl rfl
    · exact .inr ⟨_, rfl, all_takeDigits _⟩
  · exact .inl rfl

theorem wholeKind_found {ds : List Char} (h : AllDigits ds) : (wholeKind ds).Found := by
  simp only [wholeKind]
  split
  · exact .integer ‹_›
  · rename_i hlarge
    refine .decimal (.inr (.inr ?_))
    rw [String.toList_ofList]
    exact ⟨h, Nat.not_le.1 hlarge⟩

theorem doubleKind_found (hc : c.isDigit = true ∨ c = '.') :
    (Kind.double ((Double.ofText? (String.ofList (c :: cs))).getD .zero)).Found := by
  cases h : Double.ofText? (String.ofList (c :: cs)) with
  | none => exact .double rfl rfl
  | some d =>
    obtain ⟨hsign, hnan⟩ := Double.ofText?_number hc h
    exact .double hsign hnan

/-- The first character is a digit, or a point before a digit. -/
theorem scanNumber_found (hc : c.isDigit = true ∨ c = '.' ∧ cs.head?.any Char.isDigit = true) :
    (scanNumber c cs).1.Found := by
  have hds := all_takeDigits cs
  have hfraction := takeFraction_shape (cs.dropWhile Char.isDigit)
  unfold scanNumber Text.takeDigits
  dsimp only
  generalize hf : (if c = '.' then _ else _ : List Char × List Char) = fraction
  split
  · exact doubleKind_found (hc.imp_right And.left)
  split
  · rename_i hdecimal
    refine .decimal ?_
    unfold IsDecimal
    rw [String.toList_ofList]
    rcases hc with hc | ⟨rfl, hhead⟩
    · have hpoint : c ≠ '.' := by
        rintro rfl
        exact absurd hc (by decide)
      rw [if_neg hpoint] at hf
      rw [hf] at hfraction
      rcases hfraction with hnone | ⟨fs, hfs, hall⟩
      · simp [hpoint, hnone] at hdecimal
      · rw [hfs]
        exact .inl ⟨_, fs, ⟨List.cons_ne_nil _ _, List.forall_mem_cons.2 ⟨hc, hds⟩⟩, hall, rfl⟩
    · rw [if_pos rfl] at hf
      subst hf
      refine .inr (.inl ⟨cs.takeWhile Char.isDigit, ⟨?_, hds⟩, List.append_nil _⟩)
      cases cs with
      | nil => cases hhead
      | cons d cs =>
        have hd : d.isDigit = true := hhead
        simp [hd]
  · rename_i hwhole
    refine wholeKind_found ⟨List.cons_ne_nil _ _, ?_⟩
    rcases hc with hc | ⟨rfl, -⟩
    · exact List.forall_mem_cons.2 ⟨hc, hds⟩
    · simp at hwhole

theorem scanOther_found : (scanOther c cs).1.Found := by
  unfold scanOther
  split
  · unfold scanString
    split
    · exact .string
    · exact .error
  split
  · exact scanName_found
  split
  · unfold scanBinary
    split
    · exact binaryKind_found _
    · exact .error
  split
  · exact scanNumber_found (.inl ‹_›)
  split
  · exact scanWord_found ‹_›
  · exact .error

theorem scanOne_found : (scanOne c cs).1.Found := by
  unfold scanOne
  split
  case h_22 =>
    split
    · exact scanNumber_found (.inr ⟨rfl, ‹_›⟩)
    · exact .symbol
  case h_23 => exact scanOther_found
  all_goals exact .symbol

theorem found_of_mem_kindsOf (hk : k ∈ kindsOf cs) : k.Found := by
  induction h : cs.length using Nat.strongRecOn generalizing cs with
  | _ n ih =>
    rw [kindsOf_eq] at hk
    split at hk
    · cases hk
    · rename_i c rest hskip
      rcases List.mem_cons.1 hk with rfl | hk
      · exact scanOne_found
      · have hlen := skip_length .blank cs
        have hone := scanOne_length c rest
        rw [hskip, List.length_cons] at hlen
        exact ih _ (by omega) hk rfl

end Token

/-- All tokens ahead have the property. -/
def Cursor.Holds (K : Kind → Prop) (c : Cursor) : Prop := ∀ k ∈ c.kinds, K k

theorem Cursor.ofText_found (text : String) : (ofText text).Holds Kind.Found := by
  intro k hk
  have hkinds : (ofText text).kinds = Token.kindsOf text.toList := Token.kinds_scanFrom _ _
  exact Token.found_of_mem_kindsOf (hkinds ▸ hk)

theorem Cursor.ofText_spelled (text : String) : (ofText text).Holds Kind.Spelled :=
  fun k hk => (ofText_found text k hk).spelled

theorem Cursor.Holds.advance {K : Kind → Prop} {c : Cursor} (h : c.Holds K) :
    c.advance.Holds K := by
  intro k hk
  rw [kinds_advance] at hk
  exact h k (List.mem_of_mem_tail hk)

namespace Parser

variable {α β : Type} {K : Kind → Prop} {p : Parser α} {f : α → Parser β} {P Q : α → Prop}
  {R : β → Prop}

theorem bind_eq_ok {c c' : Cursor} {b : β} (h : (p >>= f) c = .ok (b, c')) :
    ∃ a d, p c = .ok (a, d) ∧ f a d = .ok (b, c') := by
  cases hp : p c with
  | error e =>
    rw [bind_error hp] at h
    cases h
  | ok r =>
    obtain ⟨a, d⟩ := r
    rw [bind_ok hp] at h
    exact ⟨a, d, rfl, h⟩

theorem run_eq_error_iff {text : String} {e : ParseError} : p.run text = .error e ↔
    (do let a ← p; finish; return a : Parser α) (.ofText text) = .error e := by
  change ((do let a ← p; finish; return a : Parser α) (.ofText text)).map Prod.fst = _ ↔ _
  cases (do let a ← p; finish; return a : Parser α) (.ofText text) <;> simp [Except.map]

/-- How a text is rejected can be told without comparing trees. -/
theorem run_error_of_map {text : String} {e : ParseError}
    (h : (p.run text).map (fun _ => ()) = .error e) : p.run text = .error e := by
  cases hp : p.run text with
  | error e' =>
    rw [hp] at h
    cases h
    rfl
  | ok a =>
    rw [hp] at h
    cases h

/-! ### Successful runs -/

section

variable {c d : Cursor} {a : α} {k : Kind}

theorem eat_eq_ok {b : Bool} (h : eat k c = .ok (b, d)) :
    b = true ∧ c.kind = k ∧ d = c.advance ∨ b = false ∧ c = d := by
  change advanceIf (c.kind == k) c = _ at h
  cases hk : c.kind == k with
  | true =>
    rw [hk] at h
    cases h
    exact .inl ⟨rfl, beq_iff_eq.1 hk, rfl⟩
  | false =>
    rw [hk] at h
    cases h
    exact .inr ⟨rfl, rfl⟩

theorem expectSymbol_eq_ok_iff {s : Symbol} {u : Unit} :
    expectSymbol s c = .ok (u, d) ↔ c.kind = .symbol s ∧ d = c.advance := by
  constructor
  · intro h
    obtain ⟨b, c₁, hb, h⟩ := bind_eq_ok h
    obtain ⟨rfl, hk, rfl⟩ | ⟨rfl, rfl⟩ := eat_eq_ok hb
    · cases h
      exact ⟨hk, rfl⟩
    · cases h
  · rintro ⟨hk, rfl⟩
    have heat : eatSymbol s c = .ok (true, c.advance) := by
      change advanceIf (c.kind == .symbol s) c = _
      rw [hk, beq_self_eq_true, advanceIf_true]
    exact bind_ok heat

theorem parens_eq_ok_iff : Parser.parens p c = .ok (a, d) ↔ c.kind = .symbol .leftParen ∧
    ∃ d₁, p c.advance = .ok (a, d₁) ∧ d₁.kind = .symbol .rightParen ∧ d = d₁.advance := by
  constructor
  · intro h
    obtain ⟨_, c₁, hopen, h⟩ := bind_eq_ok h
    obtain ⟨_, d₁, hp, h⟩ := bind_eq_ok h
    obtain ⟨_, d₂, hclose, h⟩ := bind_eq_ok h
    obtain ⟨hk, rfl⟩ := expectSymbol_eq_ok_iff.1 hopen
    obtain ⟨hk₁, rfl⟩ := expectSymbol_eq_ok_iff.1 hclose
    cases h
    exact ⟨hk, d₁, hp, hk₁, rfl⟩
  · rintro ⟨hk, d₁, hp, hk₁, rfl⟩
    have hopen : expectSymbol .leftParen c = .ok ((), c.advance) :=
      expectSymbol_eq_ok_iff.2 ⟨hk, rfl⟩
    have hclose : expectSymbol .rightParen d₁ = .ok ((), d₁.advance) :=
      expectSymbol_eq_ok_iff.2 ⟨hk₁, rfl⟩
    exact (bind_ok hopen).trans ((bind_ok hp).trans (bind_ok hclose))

theorem attempt_eq_ok {r : Except ParseError α} (h : attempt p c = .ok (r, d)) :
    (∃ a, r = .ok a ∧ p c = .ok (a, d)) ∨ ∃ e, r = .error e ∧ p c = .error e ∧ c = d := by
  unfold attempt at h
  split at h
  · cases h
    exact .inl ⟨_, rfl, ‹_›⟩
  · cases h
    exact .inr ⟨_, rfl, ‹_›, rfl⟩

theorem moreItems_eq_ok_nil {bound : Nat} (h : moreItems p bound c = .ok ([], d)) : c = d := by
  cases bound with
  | zero =>
    cases h
    rfl
  | succ bound =>
    obtain ⟨b, c₁, hb, h⟩ := bind_eq_ok h
    obtain ⟨rfl, -, rfl⟩ | ⟨rfl, rfl⟩ := eat_eq_ok hb
    · obtain ⟨_, _, -, h⟩ := bind_eq_ok h
      obtain ⟨_, _, -, h⟩ := bind_eq_ok h
      cases h
    · cases h
      rfl

theorem orFailWith_eq_ok {e : ParseError} (h : orFailWith p e c = .ok (a, d)) :
    p c = .ok (a, d) := by
  unfold orFailWith at h
  split at h
  · cases h
    assumption
  · cases h

/-- What each step keeps holds when the loop is over: either it has been left early, or nothing of
its bound is left. -/
theorem iterateFor_eq_ok {step : α → Parser (Option α)} {I : Nat → α → Cursor → Prop} {b : α}
    (hstep : ∀ n a c a' c', I (n + 1) a c → step a c = .ok (some a', c') → I n a' c')
    {bound : Nat} (h : iterateFor step bound a c = .ok (b, d)) (ha : I bound a c) :
    I 0 b d ∨ ∃ n c', I (n + 1) b c' ∧ step b c' = .ok (none, d) := by
  induction bound generalizing a c with
  | zero =>
    cases h
    exact .inl ha
  | succ bound ih =>
    obtain ⟨r, c₁, hr, h⟩ := bind_eq_ok h
    cases r with
    | none =>
      cases h
      exact .inr ⟨bound, c, ha, hr⟩
    | some a' => exact ih h (hstep bound a c a' c₁ ha hr)

theorem ident_eq_ok_iff {x : Ident} :
    ident c = .ok (x, d) ↔ c.kind = .ident x ∧ d = c.advance := by
  constructor
  · intro h
    obtain ⟨k, c₁, hk, h⟩ := bind_eq_ok h
    cases hk
    cases hkind : c.kind with
    | ident y =>
      rw [hkind] at h
      cases h
      exact ⟨rfl, rfl⟩
    | _ =>
      rw [hkind] at h
      cases h
  · rintro ⟨hkind, rfl⟩
    have hpeek : peek c = .ok (.ident x, c) := by rw [← hkind]; rfl
    rw [ident, bind_ok hpeek]
    rfl

theorem namePart_eq_ok {n : Name} {r : Option Name} (h : namePart n c = .ok (r, d)) :
    r = none ∧ c = d ∨ ∃ x, r = some (n.child x) ∧ c.kind = .symbol .dot ∧
      c.advance.kind = .ident x ∧ d = c.advance.advance := by
  obtain ⟨dot, c₁, hdot, h⟩ := bind_eq_ok h
  cases hdot
  obtain ⟨next, c₂, hnext, h⟩ := bind_eq_ok h
  cases hnext
  split at h
  · rename_i hcond
    rw [Bool.and_eq_true, beq_iff_eq] at hcond
    obtain ⟨_, c₃, hadvance, h⟩ := bind_eq_ok h
    cases hadvance
    obtain ⟨x, c₄, hx, h⟩ := bind_eq_ok h
    cases h
    obtain ⟨hkind, rfl⟩ := ident_eq_ok_iff.1 hx
    exact .inr ⟨x, rfl, hcond.1, hkind, rfl⟩
  · cases h
    exact .inl ⟨rfl, rfl⟩

/-- A name without qualifier is one identifier. -/
theorem name_eq_ok_unqualified {n : Name} (h : name c = .ok (n, d)) (hn : n.qualifier = []) :
    c.kind = .ident n.base ∧ d = c.advance := by
  obtain ⟨x, c₁, hx, h⟩ := bind_eq_ok h
  obtain ⟨hkind, rfl⟩ := ident_eq_ok_iff.1 hx
  obtain ⟨c₂, c₃, hget, h⟩ := bind_eq_ok h
  cases hget
  have hstep : ∀ (_ : Nat) (n : Name) c' n' c'',
      (n.qualifier = [] → n = .single x ∧ c' = c.advance) → namePart n c' = .ok (some n', c'') →
      n'.qualifier = [] → n' = .single x ∧ c'' = c.advance := by
    intro _ n c' n' c'' _ hpart hqualifier
    obtain ⟨⟨⟩, -⟩ | ⟨y, ⟨⟩, -⟩ := namePart_eq_ok hpart
    simp [Name.child, Name.parts] at hqualifier
  obtain hend | ⟨_, c', hloop, hnone⟩ := iterateFor_eq_ok (I := fun _ n c' =>
    n.qualifier = [] → n = .single x ∧ c' = c.advance) hstep h fun _ => ⟨rfl, rfl⟩
  · obtain ⟨rfl, rfl⟩ := hend hn
    exact ⟨hkind, rfl⟩
  · obtain ⟨-, rfl⟩ | ⟨y, ⟨⟩, -⟩ := namePart_eq_ok hnone
    obtain ⟨rfl, rfl⟩ := hloop hn
    exact ⟨hkind, rfl⟩

end

/-! ### Properties of results -/

/-- Where all tokens ahead have the property `K`, the parser fails, or returns something that has
the property `Q` and leaves such tokens. -/
def Ensures (K : Kind → Prop) (p : Parser α) (Q : α → Prop) : Prop :=
  ∀ c a c', c.Holds K → p c = .ok (a, c') → c'.Holds K ∧ Q a

namespace Ensures

theorem pure {a : α} (h : Q a) : Ensures K (pure a) Q := by
  rintro c a' c' hc ⟨⟩
  exact ⟨hc, h⟩

theorem bind (h : Ensures K p P) (hf : ∀ a, P a → Ensures K (f a) R) :
    Ensures K (p >>= f) R := by
  intro c b c' hc hb
  obtain ⟨a, d, ha, hb⟩ := bind_eq_ok hb
  obtain ⟨hd, hpa⟩ := h c a d hc ha
  exact hf a hpa d b c' hd hb

/-- A step of which only the tokens that it leaves matter. -/
theorem skip (h : Ensures K p P) (hf : ∀ a, Ensures K (f a) R) : Ensures K (p >>= f) R :=
  h.bind fun a _ => hf a

theorem map {g : α → β} (h : Ensures K p P) (hg : ∀ a, P a → R (g a)) :
    Ensures K (g <$> p) R := by
  rw [map_eq_pure_bind]
  exact h.bind fun a ha => pure (hg a ha)

theorem ite {b : Prop} [Decidable b] {q : Parser α} (hp : b → Ensures K p Q)
    (hq : ¬ b → Ensures K q Q) : Ensures K (if b then p else q) Q := by
  split
  · exact hp ‹_›
  · exact hq ‹_›

theorem failAt {span : Span} {cause : ParseError.Cause} :
    Ensures K (failAt span cause : Parser α) Q := nofun

theorem unexpected {expected : String} : Ensures K (unexpected expected : Parser α) Q := nofun

theorem unexpected_bind {expected : String} {f : α → Parser β} :
    Ensures K (Parser.unexpected expected >>= f) R :=
  (unexpected (Q := fun _ => False)).bind fun _ h => h.elim

/-- A parser that only looks. -/
theorem of_reads {g : Cursor → α} (hp : ∀ c, p c = .ok (g c, c)) : Ensures K p fun _ => True := by
  intro c a c' hc h
  rw [hp] at h
  cases h
  exact ⟨hc, trivial⟩

theorem here : Ensures K here fun _ => True := of_reads fun _ => rfl

theorem check (k : Kind) : Ensures K (check k) fun _ => True := of_reads fun _ => rfl

theorem checkWord (w : String) : Ensures K (checkWord w) fun _ => True := of_reads fun _ => rfl

theorem peekAt (n : Nat) : Ensures K (peekAt n) fun _ => True := of_reads fun _ => rfl

/-- The next token is one of those ahead, unless the text is over. -/
theorem peek : Ensures K peek fun k => k = .endOfInput ∨ K k := by
  rintro c k c' hc ⟨⟩
  refine ⟨hc, ?_⟩
  rw [c.kind_eq]
  cases hk : c.kinds with
  | nil => exact .inl rfl
  | cons k ks => exact .inr (hc k (by simp [hk]))

theorem advance : Ensures K advance fun _ => True := by
  rintro c _ c' hc ⟨⟩
  exact ⟨hc.advance, trivial⟩

theorem advanceIf (b : Bool) : Ensures K (advanceIf b) fun _ => True := by
  cases b
  · exact .pure trivial
  · exact advance.skip fun _ => .pure trivial

theorem eat (k : Kind) : Ensures K (eat k) fun _ => True := (check k).skip advanceIf

theorem eatWord (w : String) : Ensures K (eatWord w) fun _ => True := (checkWord w).skip advanceIf

theorem require (b : Bool) {expected : String} :
    Ensures K (unless b do Parser.unexpected expected) fun _ => True := by
  cases b
  · exact unexpected
  · exact .pure trivial

theorem expectSymbol (s : Symbol) : Ensures K (expectSymbol s) fun _ => True :=
  (eat _).skip fun b => require b

theorem between {opening closing : Symbol} (h : Ensures K p Q) :
    Ensures K (between opening closing p) Q :=
  (expectSymbol _).skip fun _ => h.bind fun _ ha => (expectSymbol _).skip fun _ => .pure ha

theorem parens (h : Ensures K p Q) : Ensures K (parens p) Q := h.between

/-- A failed attempt returns to where it started, so nothing is lost. -/
theorem attempt (h : Ensures K p Q) :
    Ensures K (attempt p) fun r => ∀ a, r = .ok a → Q a := by
  intro c r c' hc hr
  unfold Parser.attempt at hr
  split at hr
  · rename_i a _ hp
    cases hr
    obtain ⟨hc', ha⟩ := h c a c' hc hp
    refine ⟨hc', ?_⟩
    rintro _ ⟨⟩
    exact ha
  · cases hr
    exact ⟨hc, nofun⟩

theorem optional {b : Bool} (h : Ensures K p Q) :
    Ensures K (optional b p) fun r => ∀ a ∈ r, Q a := by
  cases b
  · exact .pure nofun
  · refine h.map fun a ha => ?_
    rintro _ ⟨⟩
    exact ha

theorem moreItems (h : Ensures K p Q) (bound : Nat) :
    Ensures K (moreItems p bound) fun as => ∀ a ∈ as, Q a := by
  induction bound with
  | zero => exact .pure nofun
  | succ bound ih =>
    refine (eat _).skip fun b => ite (fun _ => ?_) fun _ => .pure nofun
    exact h.bind fun a ha => ih.bind fun as has => .pure (List.forall_mem_cons.2 ⟨ha, has⟩)

theorem commaList (h : Ensures K p Q) :
    Ensures K (commaList p) fun as => as ≠ [] ∧ ∀ a ∈ as, Q a := by
  refine h.bind fun a ha => ?_
  have hget : Ensures K (get : Parser Cursor) fun _ => True := of_reads fun _ => rfl
  refine hget.skip fun c => (h.moreItems _).bind fun as has => .pure ?_
  exact ⟨List.cons_ne_nil _ _, List.forall_mem_cons.2 ⟨ha, has⟩⟩

theorem ident : Ensures K ident fun x => K (.ident x) := by
  refine peek.bind fun k hk => ?_
  split
  · rename_i x
    refine advance.skip fun _ => .pure (hk.resolve_left nofun)
  · exact unexpected

/-- The result of parsing a whole text. -/
theorem run (h : Ensures K p Q) {text : String} {a : α} (ht : (Cursor.ofText text).Holds K)
    (ha : p.run text = .ok a) : Q a := by
  change ((do let a ← p; finish; return a : Parser α) (.ofText text)).map Prod.fst = _ at ha
  cases hp : (do let a ← p; finish; return a : Parser α) (.ofText text) with
  | error e =>
    rw [hp] at ha
    cases ha
  | ok r =>
    rw [hp] at ha
    cases ha
    obtain ⟨b, d, hb, hrest⟩ := bind_eq_ok hp
    obtain ⟨_, _, -, hrest⟩ := bind_eq_ok hrest
    cases hrest
    exact (h _ _ _ ht hb).2

end Ensures

end Parser

end Sql
