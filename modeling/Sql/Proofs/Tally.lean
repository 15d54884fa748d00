import Sql.Proofs.Lists
import Sql.Proofs.Results

/-! Parsers that give well-formed parts and count placeholders: what has been read so far is
well-formed, its placeholders bear the numbers of their places, and no other token of the text is
one. -/
namespace Sql

open Token (Kind)

/-! ### Valid parts -/

/-- The limits that hold in every parsed expression; a name has at least one part by its type. -/
def Expr.Valid : Expr → Prop
  | .literal (.integer n) => 0 ≤ n
  | .column n => n.Named
  | .star r => ∀ n ∈ r, n.Named
  | .inList _ items _ => items ≠ []
  | .cast _ t _ => t.InRange
  | .caseWhen _ branches _ => branches ≠ []
  | .field _ x => x.Named
  | .lambda params _ =>
    params ≠ [] ∧ (∀ x ∈ params, x.Named) ∧ params.Pairwise fun x y => x.same y = false
  | .interval _ _ start stop => ∀ finer ∈ stop, start.admits finer = true
  | .typed type _ => type ≠ ""
  | _ => True

structure Call.Valid (c : Call) : Prop where
  named : c.name.Named
  /-- A quantifier or an order stands with arguments only. -/
  args : c.quantifier ≠ none ∨ c.order ≠ [] → c.args ≠ []

def Criteria.Valid : Criteria → Prop
  | .columns xs => xs ≠ [] ∧ ∀ x ∈ xs, x.Named
  | _ => True

/-- What holds of every part of a parsed tree. -/
def Node.Valid : Node → Prop
  | .expr e => e.Valid
  | .call c => c.Valid
  | .criteria c => c.Valid
  | n => n.Sound

/-! ### Well-formed parts -/

/-- What holds of every parsed expression: it is valid, and can be written. -/
def Expr.Formed : Expr → Prop
  | .literal (.decimal text) => Token.IsDecimal text
  | .literal (.double d) => d.negative = false ∧ d.isNaN = false
  | .inList _ items _ => items ≠ [] ∧ ∀ q, items ≠ [.subquery q]
  | .typed type _ => Token.IsWord type ∧ type.toUpper = type ∧ type ≠ "INTERVAL"
  | e => e.Valid

def Node.Formed : Node → Prop
  | .expr e => e.Formed
  | .call c => c.Sound
  | .criteria c => c.Valid
  | n => n.Sound

theorem Token.IsWord.ne_empty {text : String} (h : Token.IsWord text) : text ≠ "" := by
  obtain ⟨⟨c, cs, htext, -⟩, -⟩ := h
  rintro rfl
  cases htext

theorem Expr.Formed.valid {e : Expr} (h : e.Formed) : e.Valid := by
  cases e with
  | literal v =>
    cases v with
    | integer n => exact h
    | _ => trivial
  | inList e items negated => exact h.1
  | typed type text => exact h.1.ne_empty
  | _ => exact h

theorem Call.Sound.valid {c : Call} (h : c.Sound) : c.Valid := by
  refine ⟨fun x hx => (h.spelled x hx).named, ?_⟩
  rintro hsome hargs
  obtain ⟨hquantifier, horder⟩ := h.noArgs hargs
  exact hsome.elim (absurd hquantifier) (absurd horder)

theorem Node.Formed.valid {n : Node} (h : n.Formed) : n.Valid := by
  cases n with
  | expr e => exact Expr.Formed.valid h
  | call c => exact Call.Sound.valid h
  | _ => exact h

/-- The number that a placeholder bears. -/
def Node.parameter? : Node → Option Nat
  | .expr (.parameter i) => some i
  | _ => none

/-- The numbers of the placeholders, in the order of the parts. -/
def numbers (ns : List Node) : List Nat := ns.filterMap Node.parameter?

/-- The parts `ms` have the placeholders of the parts `ns`, and are well-formed if those are. -/
structure Recast (ns ms : List Node) : Prop where
  numbers : numbers ms = numbers ns
  formed : (∀ n ∈ ns, n.Formed) → ∀ n ∈ ms, n.Formed

section

variable {ns ms : List Node} {x : Node}

@[simp] theorem numbers_nil : numbers [] = [] := rfl

@[simp] theorem numbers_append : numbers (ns ++ ms) = numbers ns ++ numbers ms :=
  List.filterMap_append

theorem numbers_cons (hx : x.parameter? = none) : numbers (x :: ns) = numbers ns :=
  List.filterMap_cons_none hx

theorem Recast.of_eq (h : ns = ms) : Recast ns ms := by
  subst h
  exact ⟨rfl, id⟩

/-- One part more, which is well-formed if the parts that are there are. -/
theorem Recast.around (hx : x.parameter? = none) (hformed : (∀ n ∈ ns, n.Formed) → x.Formed)
    (h : Recast ns ms) : Recast ns (x :: ms) := by
  refine ⟨(numbers_cons hx).trans h.numbers, ?_⟩
  intro hns
  exact List.forall_mem_cons.2 ⟨hformed hns, h.formed hns⟩

theorem Recast.node (hx : x.parameter? = none) (hformed : x.Formed) (h : Recast ns ms) :
    Recast ns (x :: ms) :=
  h.around hx fun _ => hformed

theorem Recast.trans {ls : List Node} (h : Recast ls ns) (h' : Recast ns ms) : Recast ls ms :=
  ⟨h'.numbers.trans h.numbers, fun hls => h'.formed (h.formed hls)⟩

/-- One part more behind the parts that are there. -/
theorem Recast.last (ns : List Node) (hx : x.parameter? = none) (hformed : x.Formed) :
    Recast ns (ns ++ [x]) := by
  refine ⟨?_, ?_⟩
  · rw [numbers_append, numbers_cons hx, numbers_nil, List.append_nil]
  · intro hns
    refine List.forall_mem_append.2 ⟨hns, ?_⟩
    intro n hn
    rw [List.mem_singleton.1 hn]
    exact hformed

/-- One part less, around the parts that stay. -/
theorem Recast.inside (hx : x.parameter? = none) : Recast (x :: ns) ns :=
  ⟨(numbers_cons hx).symm, fun hns => (List.forall_mem_cons.1 hns).2⟩

theorem Recast.append {ls : List Node} (h : Recast ns ms) :
    Recast (ns ++ ls) (ms ++ ls) := by
  refine ⟨?_, ?_⟩
  · rw [numbers_append, numbers_append, h.numbers]
  · intro hall
    obtain ⟨hns, hls⟩ := List.forall_mem_append.1 hall
    exact List.forall_mem_append.2 ⟨h.formed hns, hls⟩

theorem Recast.append_left (done : List Node) (h : Recast ns ms) :
    Recast (done ++ ns) (done ++ ms) := by
  refine ⟨?_, ?_⟩
  · rw [numbers_append, numbers_append, h.numbers]
  · intro hall
    obtain ⟨hdone, hns⟩ := List.forall_mem_append.1 hall
    exact List.forall_mem_append.2 ⟨hdone, h.formed hns⟩

end

/-! ### Keeping count -/

namespace Cursor

/-- The placeholders that are not yet read. -/
def placeholders (c : Cursor) : Nat := c.kinds.count (.symbol .question)

/-- The parts `ns` have been read of a text with so many placeholders. -/
structure Tally (total : Nat) (ns : List Node) (c : Cursor) : Prop where
  found : c.Holds Kind.Found
  formed : ∀ n ∈ ns, n.Formed
  numbered : numbers ns = List.range' 1 c.parameters
  count : c.parameters + c.placeholders = total

variable {c : Cursor} {total : Nat} {ns ms : List Node}

theorem Tally.recast (h : c.Tally total ns) (hr : Recast ns ms) : c.Tally total ms :=
  ⟨h.found, hr.formed h.formed, hr.numbers.trans h.numbered, h.count⟩

theorem placeholders_advance (h : c.kind ≠ .symbol .question) :
    c.advance.placeholders = c.placeholders := by
  rw [kind_eq] at h
  rw [placeholders, placeholders, kinds_advance]
  cases hk : c.kinds with
  | nil => rfl
  | cons k ks =>
    rw [hk] at h
    have hne : k ≠ .symbol .question := h
    rw [List.tail_cons, List.count_cons_of_ne hne]

theorem placeholders_question (h : c.kind = .symbol .question) :
    c.placeholders = c.advance.placeholders + 1 := by
  rw [kind_eq] at h
  rw [placeholders, placeholders, kinds_advance]
  cases hk : c.kinds with
  | nil =>
    rw [hk] at h
    cases h
  | cons k ks =>
    rw [hk] at h
    obtain rfl : k = .symbol .question := h
    rw [List.tail_cons, List.count_cons_self]

theorem Tally.advance (h : c.Tally total ns) (hk : c.kind ≠ .symbol .question) :
    c.advance.Tally total ns := by
  refine ⟨h.found.advance, h.formed, h.numbered, ?_⟩
  rw [placeholders_advance hk]
  exact h.count

/-- Where the next token has been seen, and is no placeholder. -/
theorem kind_ne_question {C : Cursor → Prop} {k : Kind} (hk : k ≠ .symbol .question) (c : Cursor)
    (hc : C c ∧ c.kind = k) : c.kind ≠ .symbol .question := by
  rw [hc.2]
  exact hk

end Cursor

/-- Nothing is known about where a parser starts. -/
def Anywhere (_ : Cursor) : Prop := True

namespace Parser

variable {α β : Type} {C : Cursor → Prop} {before : List Node} {p : Parser α} {f : α → Parser β}
  {N : α → List Node} {M : β → List Node} {P Q : α → Prop} {R : β → Prop}

/-- The parser fails or stays in place. -/
def Stays (p : Parser α) : Prop := ∀ c a c', p c = .ok (a, c') → c' = c

namespace Stays

theorem of_reads {g : Cursor → α} (hp : ∀ c, p c = .ok (g c, c)) : Stays p := by
  intro c a c' h
  rw [hp] at h
  cases h
  rfl

theorem pure (a : α) : Stays (pure a : Parser α) := of_reads fun _ => rfl

theorem unexpected (expected : String) : Stays (unexpected expected : Parser α) := nofun

theorem bind (h : Stays p) (hf : ∀ a, Stays (f a)) : Stays (p >>= f) := by
  intro c b c' hb
  obtain ⟨a, d, ha, hb⟩ := bind_eq_ok hb
  rw [h c a d ha] at hb
  exact hf a c b c' hb

end Stays

/-- Started in a place like `C` where `before` are the last parts that have been read, the parser
fails, or the parts of its result stand in place of those, and it has the property `Q`. -/
def Tallies (C : Cursor → Prop) (before : List Node) (p : Parser α) (after : α → List Node)
    (Q : α → Prop) : Prop :=
  ∀ total done c a c', C c → c.Tally total (done ++ before) → p c = .ok (a, c') →
    c'.Tally total (done ++ after a) ∧ Q a

/-- The parser reads nothing of the tree, and its result has the property `Q`. -/
abbrev Quiet (C : Cursor → Prop) (p : Parser α) (Q : α → Prop) : Prop :=
  Tallies C [] p (fun _ => []) Q

namespace Tallies

theorem mono (h : Tallies C before p N P) (hq : ∀ a, P a → Q a) : Tallies C before p N Q := by
  intro total done c a c' hC hc hp
  obtain ⟨hc', ha⟩ := h total done c a c' hC hc hp
  exact ⟨hc', hq a ha⟩

theorem congr {N' : α → List Node} (h : Tallies C before p N Q) (hn : ∀ a, N a = N' a) :
    Tallies C before p N' Q := by
  obtain rfl : N = N' := funext hn
  exact h

theorem weaken (h : Tallies Anywhere before p N Q) : Tallies C before p N Q :=
  fun total done c a c' _ hc hp => h total done c a c' trivial hc hp

theorem pure {a : α} (hr : Recast before (N a)) (ha : Q a) : Tallies C before (pure a) N Q := by
  rintro total done c _ _ - hc ⟨⟩
  exact ⟨hc.recast (hr.append_left done), ha⟩

theorem seq (h : Tallies C before p N P) (hf : ∀ a, P a → Tallies Anywhere (N a) (f a) M R) :
    Tallies C before (p >>= f) M R := by
  intro total done c b c' hC hc hb
  obtain ⟨a, d, ha, hb⟩ := bind_eq_ok hb
  obtain ⟨hd, hpa⟩ := h total done c a d hC hc ha
  exact hf a hpa total done d b c' trivial hd hb

/-- What is known of the place is known as such. -/
theorem placed {H : Prop} (hH : ∀ c, C c → H) (h : H → Tallies C before p N Q) :
    Tallies C before p N Q :=
  fun total done c a c' hC hc hp => h (hH c hC) total done c a c' hC hc hp

/-- The second parser goes on from where the first one has come. -/
theorem follow (h : Tallies C [] p N P) (hf : ∀ a, P a →
      Tallies (fun d => ∃ c, C c ∧ p c = .ok (a, d)) (before ++ N a) (f a) M R) :
    Tallies C before (p >>= f) M R := by
  intro total done c b c' hC hc hb
  obtain ⟨a, d, ha, hb⟩ := bind_eq_ok hb
  rw [← List.append_nil (done ++ before)] at hc
  obtain ⟨hd, hpa⟩ := h total (done ++ before) c a d hC hc ha
  rw [List.append_assoc] at hd
  exact hf a hpa total done d b c' ⟨c, hC, ha⟩ hd hb

/-- The second parser goes on behind the parts that the first one has read. -/
theorem bind (h : Tallies C [] p N P) (hf : ∀ a, P a → Tallies Anywhere (before ++ N a) (f a) M R) :
    Tallies C before (p >>= f) M R :=
  h.follow fun a ha => (hf a ha).weaken

/-- A parser that only looks: what it tells is known of the place afterwards. -/
theorem look {g : Cursor → α} (hp : ∀ c, p c = .ok (g c, c))
    (hf : ∀ a, Tallies (fun c => C c ∧ g c = a) before (f a) M R) :
    Tallies C before (p >>= f) M R := by
  intro total done c b c' hC hc hb
  rw [bind_ok (hp c)] at hb
  exact hf (g c) total done c b c' ⟨hC, rfl⟩ hc hb

/-- A step that stays in place: what it tells is known of the place afterwards. -/
theorem stay (hp : Stays p)
    (hf : ∀ a, Tallies (fun c => C c ∧ p c = .ok (a, c)) before (f a) M R) :
    Tallies C before (p >>= f) M R := by
  intro total done c b c' hC hc hrun
  obtain ⟨a, d, ha, hb⟩ := bind_eq_ok hrun
  obtain rfl := hp c a d ha
  exact hf a total done d b c' ⟨hC, ha⟩ hc hb

/-- The next token is one that the scanner finds, unless the text is over. -/
theorem peek {f : Kind → Parser β} (hf : ∀ k, (k = .endOfInput ∨ k.Found) →
      Tallies (fun c => C c ∧ c.kind = k) before (f k) M R) :
    Tallies C before (peek >>= f) M R := by
  intro total done c b c' hC hc hb
  have hlook : Parser.peek c = .ok (c.kind, c) := rfl
  rw [bind_ok hlook] at hb
  refine hf c.kind ?_ total done c b c' ⟨hC, rfl⟩ hc hb
  rw [c.kind_eq]
  cases hk : c.kinds with
  | nil => exact .inl rfl
  | cons k ks => exact .inr (hc.found k (by simp [hk]))

/-- Passes over a token, and keeps what was known before it. -/
theorem advance {f : Unit → Parser β} (hk : ∀ c, C c → c.kind ≠ .symbol .question)
    (hf : Tallies (fun d => ∃ c, C c ∧ d = c.advance) before (f ()) M R) :
    Tallies C before (advance >>= f) M R := by
  intro total done c b c' hC hc hb
  have hstep : Parser.advance c = .ok ((), c.advance) := rfl
  rw [bind_ok hstep] at hb
  exact hf total done c.advance b c' ⟨c, hC, rfl⟩ (hc.advance (hk c hC)) hb

theorem ite {b : Prop} [Decidable b] {q : Parser α} (hp : b → Tallies C before p N Q)
    (hq : ¬ b → Tallies C before q N Q) : Tallies C before (if b then p else q) N Q := by
  split
  · exact hp ‹_›
  · exact hq ‹_›

theorem failAt {span : Span} {cause : ParseError.Cause} :
    Tallies C before (failAt span cause : Parser α) N Q := nofun

theorem unexpected {expected : String} :
    Tallies C before (unexpected expected : Parser α) N Q := nofun

theorem unexpected_bind {expected : String} :
    Tallies C before (Parser.unexpected expected >>= f) M R := by
  intro total done c b c' _ _ hb
  obtain ⟨a, d, ha, -⟩ := bind_eq_ok hb
  cases ha

/-- Which way to go depends on the next token. -/
theorem ifCheck {k : Kind} {q : Parser α} (hp : Tallies (fun c => C c ∧ c.kind = k) before p N Q)
    (hq : Tallies C before q N Q) :
    Tallies C before (check k >>= fun b => if b then p else q) N Q := by
  refine look (fun _ => rfl) fun b => ?_
  intro total done c a c' hC hc h
  cases b with
  | false => exact hq total done c a c' hC.1 hc h
  | true => exact hp total done c a c' ⟨hC.1, beq_iff_eq.1 hC.2⟩ hc h

/-- Passes over a word, or stays in place. -/
theorem ifEatWord {w : String} {q : Parser α}
    (hp : Tallies (fun d => ∃ c, (C c ∧ c.kind.isWord w = true) ∧ d = c.advance) before p N Q)
    (hq : Tallies C before q N Q) :
    Tallies C before (eatWord w >>= fun b => if b then p else q) N Q := by
  intro total done c a c' hC hc h
  obtain ⟨b, d, hb, h⟩ := bind_eq_ok h
  change (Parser.advanceIf (c.kind.isWord w)) c = _ at hb
  cases hw : c.kind.isWord w with
  | false =>
    rw [hw, advanceIf_false] at hb
    cases hb
    exact hq total done c a c' hC hc h
  | true =>
    rw [hw, advanceIf_true] at hb
    cases hb
    refine hp total done c.advance a c' ⟨c, ⟨hC, hw⟩, rfl⟩ (hc.advance ?_) h
    intro hquestion
    rw [hquestion] at hw
    cases hw

/-- What a parser ensures of the names it reads holds of its result here too. -/
theorem and_ensures (h : Tallies C before p N P) (he : Ensures Kind.Spelled p Q) :
    Tallies C before p N fun a => P a ∧ Q a := by
  intro total done c a c' hC hc hp
  obtain ⟨hc', ha⟩ := h total done c a c' hC hc hp
  have hspelled : c.Holds Kind.Spelled := fun k hk => (hc.found k hk).spelled
  exact ⟨hc', ha, (he c a c' hspelled hp).2⟩

end Tallies

/-- The second parser goes on where the first one has read nothing of the tree. -/
theorem Quiet.bind (h : Quiet C p P) (hf : ∀ a, P a → Tallies Anywhere before (f a) M R) :
    Tallies C before (p >>= f) M R := by
  refine Tallies.bind h ?_
  intro a ha
  rw [List.append_nil]
  exact hf a ha

/-- A step of which nothing matters but that it reads nothing of the tree. -/
theorem Quiet.skip (h : Quiet C p P) (hf : ∀ a, Tallies Anywhere before (f a) M R) :
    Tallies C before (p >>= f) M R :=
  Quiet.bind h fun a _ => hf a

theorem Quiet.branch {b : Parser Bool} {S : Bool → Prop} {q : Parser α} (h : Quiet C b S)
    (hp : Tallies Anywhere before p N Q) (hq : Tallies Anywhere before q N Q) :
    Tallies C before (b >>= fun x => if x then p else q) N Q :=
  Quiet.skip h fun _ => .ite (fun _ => hp) fun _ => hq

/-- A clause that is there or not, with what follows it in either case. -/
theorem Quiet.clause {b : Parser Bool} {S : Bool → Prop} {a : α} (h : Quiet C b S)
    (hp : Tallies Anywhere [] p N P) (ha : P a) (hN : N a = [])
    (hf : ∀ a, P a → Tallies Anywhere (before ++ N a) (f a) M R) :
    Tallies C before (b >>= fun x => if x then p >>= f else Pure.pure a >>= f) M R := by
  refine Quiet.branch h (hp.bind hf) ?_
  have hrest := hf a ha
  rw [hN, List.append_nil] at hrest
  exact hrest

theorem Quiet.pure {a : α} (ha : Q a) : Quiet C (pure a) Q := Tallies.pure (.of_eq rfl) ha

/-! ### Single tokens -/

section

variable {k : Kind}

theorem Quiet.advanceIf {b : Bool} (hb : b = true → ∀ c, C c → c.kind ≠ .symbol .question) :
    Quiet C (advanceIf b) fun _ => True := by
  intro total done c a c' hC hc hp
  cases b with
  | false =>
    rw [advanceIf_false] at hp
    cases hp
    exact ⟨hc, trivial⟩
  | true =>
    rw [advanceIf_true] at hp
    cases hp
    exact ⟨hc.advance (hb rfl c hC), trivial⟩

theorem Quiet.eat (hk : k ≠ .symbol .question) : Quiet C (eat k) fun _ => True := by
  refine Tallies.look (fun _ => rfl) ?_
  intro b
  refine Quiet.advanceIf ?_
  rintro rfl c ⟨-, hc⟩
  rw [beq_iff_eq] at hc
  rw [hc]
  exact hk

theorem Quiet.eatSymbol {s : Symbol} (hs : s ≠ .question) :
    Quiet C (eatSymbol s) fun _ => True :=
  Quiet.eat fun h => hs (Kind.symbol.inj h)

theorem Quiet.eatKeyword (w : Keyword) : Quiet C (eatKeyword w) fun _ => True := Quiet.eat nofun

theorem Quiet.eatWord (w : String) : Quiet C (eatWord w) fun _ => True := by
  refine Tallies.look (fun _ => rfl) ?_
  intro b
  refine Quiet.advanceIf ?_
  rintro rfl c ⟨-, hc⟩ hq
  rw [hq] at hc
  cases hc

theorem Quiet.require (b : Bool) {expected : String} :
    Quiet C (unless b do Parser.unexpected expected) fun _ => True := by
  cases b
  · exact Tallies.unexpected
  · exact Quiet.pure trivial

theorem Quiet.expectSymbol {s : Symbol} (hs : s ≠ .question) :
    Quiet C (expectSymbol s) fun _ => True := by
  refine Quiet.skip (Quiet.eatSymbol hs) ?_
  intro b
  exact Quiet.require b

theorem Quiet.expectKeyword (w : Keyword) : Quiet C (expectKeyword w) fun _ => True := by
  refine Quiet.skip (Quiet.eatKeyword w) ?_
  intro b
  exact Quiet.require b

theorem Quiet.spelledIdent : Quiet C ident Ident.Spelled := by
  refine Tallies.mono (P := fun x => True ∧ x.Spelled) ?_ fun x hx => hx.2
  refine Tallies.and_ensures ?_ Ensures.ident
  refine Tallies.look (fun _ => rfl) ?_
  intro k
  split
  · exact Tallies.advance (Cursor.kind_ne_question nofun) (Quiet.pure trivial)
  · exact Tallies.unexpected

theorem Quiet.ident : Quiet C ident Ident.Named :=
  Tallies.mono Quiet.spelledIdent fun _ hx => hx.named

end

/-! ### Parts in sequence -/

namespace Tallies

theorem between {opening closing : Symbol} (ho : opening ≠ .question) (hc : closing ≠ .question)
    (h : Tallies Anywhere [] p N Q) : Tallies C [] (between opening closing p) N Q := by
  refine Quiet.skip (Quiet.expectSymbol ho) fun _ => h.bind fun a ha => ?_
  exact Quiet.skip (Quiet.expectSymbol hc) fun _ => .pure (.of_eq rfl) ha

theorem parens (h : Tallies Anywhere [] p N Q) : Tallies C [] (parens p) N Q :=
  h.between nofun nofun

/-- A parser that builds a part, or refuses to. -/
theorem valid {span : Span} {built : Except Invalid α}
    (h : ∀ a, built = .ok a → Recast before (N a) ∧ Q a) :
    Tallies C before (valid span built) N Q := by
  cases built with
  | ok a => exact .pure (h a rfl).1 (h a rfl).2
  | error reason => exact failAt

/-- A failed attempt reads nothing. -/
theorem attempt {f : Except ParseError α → Parser β} (h : Tallies C [] p N P)
    (hok : ∀ a, P a → Tallies Anywhere (before ++ N a) (f (.ok a)) M R)
    (herror : ∀ e, Tallies (fun c => C c ∧ p c = .error e) before (f (.error e)) M R) :
    Tallies C before (attempt p >>= f) M R := by
  intro total done c b c' hC hc hb
  cases hp : p c with
  | ok r =>
    obtain ⟨a, d⟩ := r
    rw [bind_ok (attempt_ok hp)] at hb
    rw [← List.append_nil (done ++ before)] at hc
    obtain ⟨hd, ha⟩ := h total (done ++ before) c a d hC hc hp
    rw [List.append_assoc] at hd
    exact hok a ha total done d b c' trivial hd hb
  | error e =>
    rw [bind_ok (attempt_error hp)] at hb
    exact herror e total done c b c' ⟨hC, hp⟩ hc hb

theorem orFailWith {e : ParseError} (h : Tallies C before p N Q) :
    Tallies C before (orFailWith p e) N Q := by
  intro total done c a c' hC hc hb
  cases hp : p c with
  | ok r =>
    rw [orFailWith_ok hp] at hb
    cases hb
    exact h total done c _ _ hC hc hp
  | error e' =>
    rw [orFailWith_error hp] at hb
    cases hb

theorem optional {b : Bool} (h : b = true → Tallies C [] p N Q) :
    Tallies C [] (optional b p) (fun r => r.elim [] N) fun r => ∀ a ∈ r, Q a := by
  cases b with
  | false => exact .pure (.of_eq rfl) nofun
  | true =>
    intro total done c r c' hC hc hr
    rw [optional_true, map_eq_pure_bind] at hr
    obtain ⟨a, d, ha, hr⟩ := bind_eq_ok hr
    obtain ⟨hd, hq⟩ := h rfl total done c a d hC hc ha
    cases hr
    refine ⟨hd, ?_⟩
    rintro _ ⟨⟩
    exact hq

theorem moreItems (h : Tallies Anywhere [] p N Q) (bound : Nat) :
    Tallies C [] (moreItems p bound) (fun as => as.flatMap N) fun as => ∀ a ∈ as, Q a := by
  induction bound generalizing C with
  | zero => exact .pure (.of_eq rfl) nofun
  | succ bound ih =>
    refine Quiet.skip (Quiet.eatSymbol nofun) fun b => ite (fun _ => ?_) fun _ => ?_
    · refine h.bind fun a ha => ih.bind fun as has => .pure (.of_eq ?_) ?_
      · rw [List.nil_append, List.flatMap_cons]
      · exact List.forall_mem_cons.2 ⟨ha, has⟩
    · exact .pure (.of_eq rfl) nofun

theorem commaList (h : Tallies Anywhere [] p N Q) :
    Tallies C [] (commaList p) (fun as => as.flatMap N) fun as => as ≠ [] ∧ ∀ a ∈ as, Q a := by
  refine h.weaken.bind fun a ha => look (fun _ => rfl) fun _ => ?_
  refine (h.moreItems _).bind fun as has => .pure (.of_eq ?_) ⟨?_, ?_⟩
  · rw [List.nil_append, List.flatMap_cons]
  · exact List.cons_ne_nil a as
  · exact List.forall_mem_cons.2 ⟨ha, has⟩

/-- A step keeps the parts that stand for what has been read so far. -/
theorem iterate {step : α → Parser (Option α)} {a : α} (ha : Q a)
    (h : ∀ a, Q a → Tallies Anywhere (N a) (step a) (fun r => N (r.getD a)) fun r => ∀ b ∈ r, Q b) :
    Tallies C (N a) (iterate step a) N Q := by
  refine look (fun _ => rfl) fun bound => ?_
  suffices hfor : ∀ bound a, Q a → Tallies Anywhere (N a) (iterateFor step bound a) N Q from
    (hfor _ a ha).weaken
  intro bound
  induction bound with
  | zero => exact fun a ha => .pure (.of_eq rfl) ha
  | succ bound ih =>
    intro a ha total done c b c' hC hc hb
    obtain ⟨r, d, hr, hb⟩ := bind_eq_ok hb
    obtain ⟨hd, hq⟩ := h a ha total done c r d hC hc hr
    cases r with
    | none =>
      cases hb
      exact ⟨hd, ha⟩
    | some a' => exact ih a' (hq a' rfl) total done d b c' trivial hd hb

end Tallies

theorem Quiet.optional {b : Bool} (h : b = true → Quiet C p Q) :
    Quiet C (optional b p) fun r => ∀ a ∈ r, Q a :=
  (Tallies.optional h).congr fun r => by cases r <;> rfl

theorem Quiet.commaList (h : Quiet Anywhere p Q) :
    Quiet C (commaList p) fun as => as ≠ [] ∧ ∀ a ∈ as, Q a :=
  (Tallies.commaList h).congr fun _ => List.flatMap_eq_nil_iff.2 fun _ _ => rfl

end Parser

end Sql
