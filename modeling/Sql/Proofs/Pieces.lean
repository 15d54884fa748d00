import Sql.Proofs.Quotes
import Sql.Proofs.Runs

/-! Texts as pieces: quoted texts, marks, blanks, and the single characters between them. The tokens
of a text depend on its pieces only, not on how wide its blanks are. -/
namespace Sql

open Token (Kind Stops IsRun kindsOf)

inductive Piece where
  /-- At least one blank. -/
  | gap
  /-- Blanks, possibly none. -/
  | margin
  /-- A mark that separates whatever stands around it. -/
  | mark (s : Symbol)
  /-- A sign in front of its operand. -/
  | sign (negative : Bool)
  | char (c : Char)
  | string (text : String)
  | name (text : String)
  | binary (bytes : List UInt8)
deriving DecidableEq

def AllBlank (w : List Char) : Prop := ∀ c ∈ w, c = ' ' ∨ c = '\n'

namespace Piece

/-- The characters that may stand for the piece. -/
def Written (w : List Char) : Piece → Prop
  | gap => w ≠ [] ∧ AllBlank w
  | margin => AllBlank w
  | mark s => w = s.text.toList
  | sign negative => w = [if negative then '-' else '+']
  | char c => w = [c]
  | string text => w = (Text.quote Text.stringMark text).toList
  | name text => w = (Text.quote Text.nameMark text).toList
  | binary bytes => w = 'X' :: (Text.quote Text.stringMark (Text.hex bytes)).toList

def isNeutral : Piece → Bool
  | gap | mark _ => true
  | _ => false

/-- Characters outside quotes are no blanks, and marks are those that separate. -/
def isPlain : Piece → Bool
  | mark s => [.leftParen, .rightParen, .leftBracket, .rightBracket, .comma].contains s
  | char c => Token.isInner c
  | _ => true

/-- May the second piece stand right behind the first one? -/
def joins : Piece → Piece → Bool
  | gap, _ | margin, _ | mark _, _ => true
  | _, gap | _, mark _ => true
  | _, margin | _, sign _ => false
  | char c, char d => !Token.opensComment c d
  | char _, name _ => true
  | char _, _ => false
  | sign _, char d => d ≠ '-' && d ≠ '>'
  | sign _, _ => true
  | _, char _ => true
  | _, _ => false

/-- The tokens of a piece that is no single character. -/
def own : Piece → List Kind
  | gap | margin | char _ => []
  | mark s => [.symbol s]
  | sign negative => [.symbol (if negative then .minus else .plus)]
  | string text => [.string text]
  | name text => [if text = "" then .error .emptyName else .ident (.quoted text)]
  | binary bytes => [.binary bytes]

/-- The tokens of pieces behind a run of characters. Only characters are read together. -/
def kindsFrom (w : List Char) : List Piece → List Kind
  | [] => kindsOf w
  | char c :: ps => kindsFrom (w ++ [c]) ps
  | p :: ps => kindsOf w ++ (p.own ++ kindsFrom [] ps)

def kinds (ps : List Piece) : List Kind := kindsFrom [] ps

def quoted? : Piece → Option Quoted
  | string text => some (.string text)
  | name text => some (.name text)
  | _ => none

def mask : Piece → Piece
  | string _ => string blot
  | name _ => name blot
  | p => p

/-- No two pieces are read as something else than themselves. -/
structure Fits (ps : List Piece) : Prop where
  plain : ∀ p ∈ ps, p.isPlain = true
  chain : ps.IsChain (fun p q => p.joins q = true)

end Piece

/-- The characters are those of the pieces, one after the other. -/
inductive Lays : List Char → List Piece → Prop where
  | nil : Lays [] []
  | cons {w cs : List Char} {p : Piece} {ps : List Piece} (hw : p.Written w) (h : Lays cs ps) :
      Lays (w ++ cs) (p :: ps)

open Piece

variable {w cs cs' : List Char} {p q : Piece} {ps qs : List Piece}

/-! ### Putting pieces together -/

namespace Piece.Fits

theorem nil : Fits [] := ⟨nofun, .nil⟩

theorem tail (h : Fits (p :: ps)) : Fits ps := ⟨fun q hq => h.plain q (by simp [hq]), h.chain.tail⟩

theorem append (hp : Fits ps) (hq : Fits qs)
    (h : ∀ p ∈ ps.getLast?, ∀ q ∈ qs.head?, p.joins q = true) : Fits (ps ++ qs) :=
  ⟨List.forall_mem_append.2 ⟨hp.plain, hq.plain⟩, List.isChain_append.2 ⟨hp.chain, hq.chain, h⟩⟩

theorem right (h : Fits (ps ++ qs)) : Fits qs :=
  ⟨(List.forall_mem_append.1 h.plain).2, h.chain.right_of_append⟩

theorem mask (h : Fits ps) : Fits (ps.map Piece.mask) := by
  refine ⟨?_, ?_⟩
  · intro p hp
    obtain ⟨q, hq, rfl⟩ := List.mem_map.1 hp
    have := h.plain q hq
    cases q <;> exact this
  · rw [List.isChain_map]
    refine h.chain.imp fun p q hpq => ?_
    cases p <;> cases q <;> exact hpq

/-- The characters at the end of the pieces before this one are a run. -/
theorem isRun (h : Fits (w.map .char ++ ps)) : IsRun w := by
  refine ⟨fun c hc => h.plain (.char c) (by simp [hc]), ?_⟩
  have hchain := h.chain.left_of_append
  rw [List.isChain_map] at hchain
  refine hchain.imp fun c d hcd => ?_
  simpa [joins] using hcd

end Piece.Fits

theorem joins_of_neutral_left (h : p.isNeutral = true) : p.joins q = true := by
  cases p <;> cases h <;> cases q <;> rfl

theorem joins_of_neutral_right (h : q.isNeutral = true) : p.joins q = true := by
  cases q <;> cases h <;> cases p <;> rfl

namespace Lays

theorem single (h : p.Written w) : Lays w [p] := by
  have := Lays.cons h .nil
  rwa [List.append_nil] at this

theorem append (h : Lays cs ps) (h' : Lays cs' qs) : Lays (cs ++ cs') (ps ++ qs) := by
  induction h with
  | nil => exact h'
  | cons hw _ ih =>
    rw [List.append_assoc, List.cons_append]
    exact .cons hw ih

end Lays

/-! ### Shifting lines -/

theorem AllBlank.isBlank (h : AllBlank w) : ∀ c ∈ w, Text.isBlank c = true := by
  intro c hc
  rcases h c hc with rfl | rfl <;> rfl

theorem padFrom_blank (width : Nat) (h : AllBlank w) :
    ∃ w', AllBlank w' ∧ (w ≠ [] → w' ≠ []) ∧
      ∀ cs, Text.padFrom (List.replicate width ' ') none (w ++ cs) =
        w' ++ Text.padFrom (List.replicate width ' ') none cs :=
  ⟨Text.indentLines width w, Text.forall_mem_indentLines width (.inl rfl) h,
    Text.indentLines_ne_nil width, fun _ => Text.padFrom_blanks width h.isBlank⟩

/-- Marks that separate are single characters, and no quotes or line breaks. -/
theorem plain_mark {s : Symbol} (h : (Piece.mark s).isPlain = true) :
    ∃ c, s.text.toList = [c] ∧ Token.neutral c = true ∧
      c ≠ '\n' ∧ c ≠ Text.stringMark ∧ c ≠ Text.nameMark := by
  have hs : s = .leftParen ∨ s = .rightParen ∨ s = .leftBracket ∨ s = .rightBracket ∨
      s = .comma := by
    simpa [isPlain] using h
  rcases hs with rfl | rfl | rfl | rfl | rfl <;> exact ⟨_, rfl, by decide, by decide⟩

theorem Piece.padFrom_solid (width : Nat) (hw : p.Written w) (hp : p.isPlain = true)
    (hgap : p ≠ .gap) (hmargin : p ≠ .margin) (cs : List Char) :
    Text.padFrom (List.replicate width ' ') none (w ++ cs) =
      w ++ Text.padFrom (List.replicate width ' ') none cs := by
  cases p with
  | gap => exact absurd rfl hgap
  | margin => exact absurd rfl hmargin
  | mark s =>
    obtain rfl := hw
    obtain ⟨c, hs, -, hc⟩ := plain_mark hp
    rw [hs]
    exact Text.padFrom_plain fun d hd => by rwa [List.mem_singleton.1 hd]
  | sign negative =>
    obtain rfl := hw
    refine Text.padFrom_plain fun d hd => ?_
    cases negative <;> obtain rfl := List.mem_singleton.1 hd <;> decide
  | char c =>
    obtain rfl := hw
    have hinner : Token.isInner c = true := hp
    simp only [Token.isInner, Bool.and_eq_true, Bool.not_eq_true', decide_eq_true_eq] at hinner
    refine Text.padFrom_plain fun d hd => ?_
    obtain rfl := List.mem_singleton.1 hd
    refine ⟨?_, hinner.1.2, hinner.2⟩
    rintro rfl
    exact absurd hinner.1.1 (by decide)
  | string text =>
    obtain rfl := hw
    exact Token.padFrom_quote (.inl rfl) text
  | name text =>
    obtain rfl := hw
    exact Token.padFrom_quote (.inr rfl) text
  | binary bytes =>
    obtain rfl := hw
    have hx : ∀ d ∈ ['X'], d ≠ '\n' ∧ d ≠ Text.stringMark ∧ d ≠ Text.nameMark := by
      simp [Text.stringMark, Text.nameMark]
    rw [List.cons_append, ← List.singleton_append, Text.padFrom_plain hx,
      Token.padFrom_quote (.inl rfl), List.singleton_append, List.cons_append]

/-- Shifting lines changes nothing but the width of blanks. -/
theorem Lays.padFrom (width : Nat) (h : Lays cs ps) (hp : ∀ p ∈ ps, p.isPlain = true) :
    Lays (Text.padFrom (List.replicate width ' ') none cs) ps := by
  induction h with
  | nil => exact .nil
  | @cons w cs p ps hw h ih =>
    have ih := ih fun q hq => hp q (by simp [hq])
    by_cases hgap : p = .gap
    · subst hgap
      obtain ⟨w', hw', hne, hpad⟩ := padFrom_blank width hw.2
      rw [hpad]
      exact .cons ⟨hne hw.1, hw'⟩ ih
    by_cases hmargin : p = .margin
    · subst hmargin
      obtain ⟨w', hw', -, hpad⟩ := padFrom_blank width hw
      rw [hpad]
      exact .cons hw' ih
    rw [p.padFrom_solid width hw (hp p (by simp)) hgap hmargin]
    exact .cons hw ih

/-! ### The tokens of pieces -/

theorem kindsOf_nil : kindsOf [] = [] := by
  rw [Token.kindsOf_eq]
  rfl

theorem kindsOf_blank (h : AllBlank w) (cs : List Char) : kindsOf (w ++ cs) = kindsOf cs := by
  rw [Token.kindsOf_eq, Token.skip_blanks h.isBlank, ← Token.kindsOf_eq]

theorem kindsOf_scans {k : Kind} (h : Token.Scans w k cs) :
    kindsOf (w ++ cs) = k :: kindsOf cs := by
  obtain ⟨c, w', rfl, hskip, hone⟩ := h
  rw [List.cons_append, Token.kindsOf_eq, hskip]
  simp only [hone]

/-- The empty name is an error of its own. -/
theorem scans_emptyName (h : cs.head? ≠ some Text.nameMark) :
    Token.Scans (Text.quote Text.nameMark "").toList (.error .emptyName) cs := by
  refine ⟨_, _, Text.toList_quote .., Token.skip_of_mark (.inr rfl), ?_⟩
  have hu : Text.unquote Text.nameMark (Text.nameMark :: cs) = some ([], cs) :=
    @Text.unquote_doubled Text.nameMark [] cs h
  rw [Token.scanOne_other (by decide), Token.scanOther, if_neg (by decide), if_pos rfl,
    Token.scanName]
  simp only [String.toList_empty, Text.doubled, List.nil_append, List.singleton_append, hu]

/-- The character that may come first in what stands behind a piece. -/
theorem Lays.head (h : Lays cs ps) (hp : ∀ q ∈ ps.head?, q ≠ .margin) {d : Char}
    (hd : cs.head? = some d) :
    ∃ q ∈ ps.head?, ∃ w, q.Written (d :: w) := by
  cases h with
  | nil => cases hd
  | @cons w cs q ps hw h =>
    refine ⟨q, rfl, ?_⟩
    cases w with
    | nil =>
      exfalso
      cases q with
      | gap => exact hw.1 rfl
      | margin => exact hp _ rfl rfl
      | mark s => cases s <;> cases hw
      | string | name =>
        simp only [Written, Text.toList_quote] at hw
        cases hw
      | sign | char | binary => cases hw
    | cons e w =>
      cases hd
      exact ⟨w, hw⟩

theorem Piece.Fits.next (h : Fits (p :: ps)) :
    ∀ q ∈ ps.head?, p.joins q = true ∧ q.isPlain = true := by
  intro q hq
  cases ps with
  | nil => cases hq
  | cons r ps =>
    cases hq
    exact ⟨(List.isChain_cons_cons.1 h.chain).1, h.plain _ (by simp)⟩

/-- The first characters of a piece that may stand behind the given one. -/
def Piece.mayPrecede (p : Piece) (d : Char) : Prop :=
  match p with
  | sign _ => d ≠ '-' ∧ d ≠ '>'
  | string _ | binary _ => d ≠ Text.stringMark
  | name _ => d ≠ Text.nameMark
  | _ => True

theorem Piece.mayPrecede_of_ne {d : Char} (hminus : d ≠ '-') (hgreater : d ≠ '>')
    (hstring : d ≠ Text.stringMark) (hname : d ≠ Text.nameMark) : p.mayPrecede d := by
  cases p with
  | sign negative => exact ⟨hminus, hgreater⟩
  | string text | binary bytes => exact hstring
  | name text => exact hname
  | _ => trivial

theorem Piece.mayPrecede_blank {d : Char} (h : d = ' ' ∨ d = '\n') : p.mayPrecede d := by
  rcases h with rfl | rfl <;>
    exact mayPrecede_of_ne (by decide) (by decide) (by decide) (by decide)

theorem Piece.mayPrecede_neutral {d : Char} (h : Token.neutral d = true) : p.mayPrecede d := by
  have hd : d = ' ' ∨ d = '\n' ∨ d = '(' ∨ d = ')' ∨ d = '[' ∨ d = ']' ∨ d = ',' := by
    simpa [Token.neutral] using h
  rcases hd with rfl | rfl | rfl | rfl | rfl | rfl | rfl <;>
    exact mayPrecede_of_ne (by decide) (by decide) (by decide) (by decide)

theorem mayPrecede_of_joins {d : Char} (hpq : p.joins q = true) (hq : q.isPlain = true)
    (hw : q.Written (d :: w)) (hp : p.isNeutral = false) (hm : p ≠ .margin) : p.mayPrecede d := by
  cases q with
  | gap => exact mayPrecede_blank (hw.2 d (by simp))
  | mark s =>
    obtain ⟨c, hs, hc, -⟩ := plain_mark hq
    have hd : d :: w = [c] := hw.trans hs
    cases hd
    exact mayPrecede_neutral hc
  | char c =>
    have hd : d :: w = [c] := hw
    cases hd
    have hinner : Token.isInner d = true := hq
    simp only [Token.isInner, Bool.and_eq_true, decide_eq_true_eq] at hinner
    cases p with
    | gap | mark => cases hp
    | margin => exact absurd rfl hm
    | sign negative => simpa [joins, mayPrecede] using hpq
    | char c => trivial
    | string | binary => exact hinner.1.2
    | name => exact hinner.2
  | margin | sign =>
    cases p with
    | gap | mark => cases hp
    | margin => exact absurd rfl hm
    | _ => cases hpq
  | string | name | binary =>
    have hd : d = Text.stringMark ∨ d = Text.nameMark ∨ d = 'X' := by
      simp only [Written, Text.toList_quote, List.cons.injEq] at hw
      simp [hw.1]
    cases p with
    | gap | mark => cases hp
    | margin => exact absurd rfl hm
    | sign negative => rcases hd with rfl | rfl | rfl <;> exact ⟨by decide, by decide⟩
    | char c => trivial
    | _ => cases hpq

/-- What stands behind a piece does not start with a character that would be read with it. -/
theorem Lays.mayPrecede (h : Lays cs ps) (hf : Fits (p :: ps)) (hp : p.isNeutral = false)
    (hm : p ≠ .margin) : ∀ d, cs.head? = some d → p.mayPrecede d := by
  intro d hd
  have hmargin : ∀ q ∈ ps.head?, q ≠ .margin := by
    rintro q hq rfl
    have := (hf.next _ hq).1
    cases p <;> simp_all [joins, isNeutral]
  obtain ⟨q, hq, w, hw⟩ := h.head hmargin hd
  exact mayPrecede_of_joins (hf.next q hq).1 (hf.next q hq).2 hw hp hm

/-- A piece that is no single character is read as its own tokens. -/
theorem Lays.kindsOf_own (h : Lays cs ps) (hf : Fits (p :: ps)) (hw : p.Written w)
    (hchar : ∀ c, p ≠ .char c) : kindsOf (w ++ cs) = p.own ++ kindsOf cs := by
  cases p with
  | gap => exact kindsOf_blank hw.2 cs
  | margin => exact kindsOf_blank hw cs
  | char c => exact absurd rfl (hchar c)
  | mark s =>
    obtain rfl := hw
    have hs : s = .leftParen ∨ s = .rightParen ∨ s = .leftBracket ∨ s = .rightBracket ∨
        s = .comma := by
      simpa [isPlain] using hf.plain (.mark s) (by simp)
    refine kindsOf_scans (Token.scans_symbol ?_ fun d _ => ?_)
    · rintro rfl
      simp at hs
    · rcases hs with rfl | rfl | rfl | rfl | rfl <;> rfl
  | sign negative =>
    have hnext := h.mayPrecede hf rfl (by simp)
    obtain rfl := hw
    cases negative with
    | true =>
      have hapart : (Kind.symbol .minus).Apart cs := by
        intro d hd
        have hd : d ≠ '-' ∧ d ≠ '>' := hnext d hd
        simpa [Kind.apart] using hd
      exact kindsOf_scans (Token.scans_symbol (by simp) hapart)
    | false =>
      exact kindsOf_scans (Token.scans_symbol (s := .plus) (by simp) fun d _ => rfl)
  | string text =>
    have hnext := h.mayPrecede hf rfl (by simp)
    obtain rfl := hw
    refine kindsOf_scans (Token.scans_string fun d hd => ?_)
    simpa [Kind.apart, Piece.mayPrecede] using hnext d hd
  | name text =>
    have hnext : ∀ d, cs.head? = some d → d ≠ Text.nameMark := h.mayPrecede hf rfl (by simp)
    obtain rfl := hw
    by_cases ht : text = ""
    · subst ht
      exact kindsOf_scans (scans_emptyName fun hd => hnext _ hd rfl)
    · simp only [own, ht, if_false]
      refine kindsOf_scans (Token.scans_name ht fun d hd => ?_)
      simpa [Kind.apart, Ident.quoted] using hnext d hd
  | binary bytes =>
    have hnext := h.mayPrecede hf rfl (by simp)
    obtain rfl := hw
    refine kindsOf_scans (Token.scans_binary fun d hd => ?_)
    simpa [Kind.apart, Piece.mayPrecede] using hnext d hd

theorem kindsFrom_cons (w : List Char) (hchar : ∀ c, p ≠ .char c) :
    kindsFrom w (p :: ps) = kindsOf w ++ (p.own ++ kindsFrom [] ps) := by
  cases p <;> first | rfl | exact absurd rfl (hchar _)

/-- Behind a run stands something that stops it. -/
theorem stops_of_fits (hf : Fits (w.map .char ++ p :: ps)) (hne : w ≠ []) {v : List Char}
    (hv : p.Written v) (hchar : ∀ c, p ≠ .char c) : Stops (v ++ cs) := by
  obtain ⟨u, c, rfl⟩ := (List.eq_nil_or_concat' w).resolve_left hne
  have hp := hf.right.plain p (by simp)
  have hjoins : (Piece.char c).joins p = true := by
    have hlast := (List.isChain_append.1 hf.chain).2.2
    exact hlast (.char c) (by simp) p rfl
  have hstop : ∀ d w', v = d :: w' → Token.isStop d = true → Stops (v ++ cs) := by
    rintro d w' rfl hd e he
    cases he
    exact hd
  cases p with
  | gap =>
    obtain ⟨d, w', rfl⟩ := List.exists_cons_of_ne_nil hv.1
    refine hstop d w' rfl ?_
    rcases hv.2 d (by simp) with rfl | rfl <;> decide
  | mark s =>
    obtain ⟨d, hs, hd, -⟩ := plain_mark hp
    exact hstop d [] (hv.trans hs) (by simp [Token.isStop, hd])
  | name text => exact hstop _ _ (hv.trans (Text.toList_quote ..)) (by decide)
  | char c => exact absurd rfl (hchar c)
  | margin | sign | string | binary => cases hjoins

/-- The tokens of a text are those of its pieces. -/
theorem Lays.kindsOf_eq (h : Lays cs ps) (hf : Fits (w.map .char ++ ps)) :
    kindsOf (w ++ cs) = kindsFrom w ps := by
  induction h generalizing w with
  | nil => rw [List.append_nil]; rfl
  | @cons v cs p ps hv h ih =>
    by_cases hchar : ∃ c, p = .char c
    · obtain ⟨c, rfl⟩ := hchar
      obtain rfl := hv
      have := ih (w := w ++ [c]) (by simpa using hf)
      rw [kindsFrom, ← this]
      simp
    · have hchar : ∀ c, p ≠ .char c := fun c hc => hchar ⟨c, hc⟩
      have hown := h.kindsOf_own hf.right hv hchar
      have hrest : kindsOf cs = kindsFrom [] ps := ih (w := []) hf.right.tail
      rw [kindsFrom_cons w hchar, ← hrest, ← hown]
      cases w with
      | nil => rw [kindsOf_nil]; rfl
      | cons c w => exact Token.kindsOf_run hf.isRun (stops_of_fits hf (by simp) hv hchar)

/-! ### Quoted texts -/

/-- Names that can be read. -/
def Quoted.IsNamed : Quoted → Prop
  | .string _ => True
  | .name text => text ≠ ""

theorem quoted?_of_isUnquoted {k : Kind} (h : k.isUnquoted = true) : k.quoted? = none := by
  cases k with
  | ident x => simp_all [Kind.isUnquoted, Kind.quoted?]
  | string => cases h
  | _ => rfl

theorem filterMap_quoted?_run (h : IsRun w) : (kindsOf w).filterMap Kind.quoted? = [] := by
  rw [List.filterMap_eq_nil_iff]
  exact fun k hk => quoted?_of_isUnquoted (Token.isUnquoted_of_mem_kindsOf h hk)

theorem filterMap_quoted?_own (h : ∀ x ∈ p.quoted?, x.IsNamed) :
    p.own.filterMap Kind.quoted? = p.quoted?.toList := by
  cases p with
  | name text =>
    have ht : text ≠ "" := h _ rfl
    simp [own, ht, Piece.quoted?, Kind.quoted?, Ident.quoted]
  | sign negative => cases negative <;> rfl
  | _ => rfl

theorem map_mask_own (h : ∀ x ∈ p.quoted?, x.IsNamed) :
    p.own.map Kind.mask = p.mask.own.map Kind.mask := by
  cases p with
  | name text =>
    have ht : text ≠ "" := h _ rfl
    have hblot : blot ≠ "" := by decide
    simp [own, ht, hblot, Piece.mask, Kind.mask, Ident.quoted]
  | _ => rfl

/-- The tokens carry the quoted texts of the pieces, in their order. -/
theorem filterMap_quoted?_kindsFrom (hf : Fits (w.map .char ++ ps))
    (h : ∀ x ∈ ps.filterMap Piece.quoted?, x.IsNamed) :
    (kindsFrom w ps).filterMap Kind.quoted? = ps.filterMap Piece.quoted? := by
  induction ps generalizing w with
  | nil => exact filterMap_quoted?_run hf.isRun
  | cons p ps ih =>
    have hp : ∀ x ∈ p.quoted?, x.IsNamed :=
      fun x hx => h x (List.mem_filterMap.2 ⟨p, by simp, hx⟩)
    have hps : ∀ x ∈ ps.filterMap Piece.quoted?, x.IsNamed := by
      intro x hx
      obtain ⟨q, hq, hx⟩ := List.mem_filterMap.1 hx
      exact h x (List.mem_filterMap.2 ⟨q, by simp [hq], hx⟩)
    by_cases hchar : ∃ c, p = .char c
    · obtain ⟨c, rfl⟩ := hchar
      exact ih (w := w ++ [c]) (by simpa using hf) hps
    · have hchar : ∀ c, p ≠ .char c := fun c hc => hchar ⟨c, hc⟩
      have hrest := ih (w := []) hf.right.tail hps
      rw [kindsFrom_cons w hchar, List.filterMap_append, List.filterMap_append,
        filterMap_quoted?_run hf.isRun, filterMap_quoted?_own hp, hrest]
      cases hq : p.quoted? <;> simp [hq]

/-- The tokens of pieces whose texts are blotted out differ in those texts only. -/
theorem map_mask_kindsFrom (h : ∀ x ∈ ps.filterMap Piece.quoted?, x.IsNamed) :
    (kindsFrom w ps).map Kind.mask = (kindsFrom w (ps.map Piece.mask)).map Kind.mask := by
  induction ps generalizing w with
  | nil => rfl
  | cons p ps ih =>
    have hp : ∀ x ∈ p.quoted?, x.IsNamed :=
      fun x hx => h x (List.mem_filterMap.2 ⟨p, by simp, hx⟩)
    have hps : ∀ x ∈ ps.filterMap Piece.quoted?, x.IsNamed := by
      intro x hx
      obtain ⟨q, hq, hx⟩ := List.mem_filterMap.1 hx
      exact h x (List.mem_filterMap.2 ⟨q, by simp [hq], hx⟩)
    by_cases hchar : ∃ c, p = .char c
    · obtain ⟨c, rfl⟩ := hchar
      exact ih hps
    · have hchar : ∀ c, p ≠ .char c := fun c hc => hchar ⟨c, hc⟩
      have hmask : ∀ c, p.mask ≠ .char c := by
        intro c hc
        cases p <;> simp_all [Piece.mask]
      rw [List.map_cons, kindsFrom_cons w hchar, kindsFrom_cons w hmask]
      simp only [List.map_append, ih hps, map_mask_own hp]

end Sql
