import Sql.Proofs.Pieces

/-! Texts that are laid out in several ways but are always made of the same pieces, next to the same
texts with all quoted parts blotted out. -/
namespace Sql

open Piece (Fits)

/-- In every layout the text `f` is made of the pieces, and the text `g` of the same pieces blotted
out. -/
structure Laid (f g : Layout → String) (qs : List Quoted) (ps : List Piece) : Prop where
  fits : Fits ps
  lays : ∀ o, Lays (f o).toList ps
  masked : ∀ o, Lays (g o).toList (ps.map Piece.mask)
  quotes : ps.filterMap Piece.quoted? = qs

/-- The pieces may stand behind a sign. -/
def Piece.Firm (ps : List Piece) : Prop := ∃ p ∈ ps.head?, ∀ b, (Piece.sign b).joins p = true

/-- The text `f` consists of the same pieces in every layout, with the given quoted texts, and `g`
is that text blotted out. If it is `firm` it may stand behind a sign. -/
def Renders (firm : Bool) (f g : Layout → String) (qs : List Quoted) : Prop :=
  ∃ ps, Laid f g qs ps ∧ (firm = true → Piece.Firm ps)

/-- A text behind which any other may stand. -/
def Heads (firm : Bool) (f g : Layout → String) (qs : List Quoted) : Prop :=
  ∃ ps, Laid f g qs ps ∧ (firm = true → Piece.Firm ps) ∧
    ∀ p ∈ ps.getLast?, p.isNeutral = true

/-- A text that may stand behind any other. -/
def Tails (f g : Layout → String) (qs : List Quoted) : Prop :=
  ∃ ps, Laid f g qs ps ∧ ∀ p ∈ ps.head?, p.isNeutral = true

variable {f g f' g' : Layout → String} {qs qs' : List Quoted} {ps ps' : List Piece} {b b' : Bool}

/-! ### Putting texts together -/

theorem Laid.append (h : Laid f g qs ps) (h' : Laid f' g' qs' ps')
    (hj : ∀ p ∈ ps.getLast?, ∀ q ∈ ps'.head?, p.joins q = true) :
    Laid (fun o => f o ++ f' o) (fun o => g o ++ g' o) (qs ++ qs') (ps ++ ps') where
  fits := h.fits.append h'.fits hj
  lays o := by
    rw [String.toList_append]
    exact (h.lays o).append (h'.lays o)
  masked o := by
    rw [String.toList_append, List.map_append]
    exact (h.masked o).append (h'.masked o)
  quotes := by rw [List.filterMap_append, h.quotes, h'.quotes]

theorem Piece.Firm.append (h : Piece.Firm ps) : Piece.Firm (ps ++ ps') := by
  obtain ⟨p, hp, hj⟩ := h
  exact ⟨p, by rw [List.head?_append]; simp [Option.mem_def.1 hp], hj⟩

namespace Renders

theorem cast (h : Renders b f g qs) (he : qs = qs') : Renders b f g qs' := he ▸ h

/-- Whether a text is firm may be forgotten. -/
theorem loose (h : Renders b f g qs) : Renders false f g qs := by
  obtain ⟨ps, hps, -⟩ := h
  exact ⟨ps, hps, nofun⟩

theorem of_firm (h : Renders true f g qs) : Renders b f g qs := by
  obtain ⟨ps, hps, hfirm⟩ := h
  exact ⟨ps, hps, fun _ => hfirm rfl⟩

theorem of_loose (h : Renders b f g qs) (hb : b' = false) : Renders b' f g qs := by
  subst hb
  exact h.loose

theorem tail (h : Renders b f g qs) (h' : Tails f' g' qs') :
    Renders b (fun o => f o ++ f' o) (fun o => g o ++ g' o) (qs ++ qs') := by
  obtain ⟨ps, hps, hfirm⟩ := h
  obtain ⟨ps', hps', hopen⟩ := h'
  exact ⟨ps ++ ps', hps.append hps' fun p _ q hq => joins_of_neutral_right (hopen q hq),
    fun hb => (hfirm hb).append⟩

end Renders

namespace Heads

theorem cast (h : Heads b f g qs) (he : qs = qs') : Heads b f g qs' := he ▸ h

theorem renders (h : Heads b f g qs) (h' : Renders b' f' g' qs') :
    Renders b (fun o => f o ++ f' o) (fun o => g o ++ g' o) (qs ++ qs') := by
  obtain ⟨ps, hps, hfirm, hshut⟩ := h
  obtain ⟨ps', hps', -⟩ := h'
  exact ⟨ps ++ ps', hps.append hps' fun p hp q _ => joins_of_neutral_left (hshut p hp),
    fun hb => (hfirm hb).append⟩

theorem append (h : Heads b f g qs) (h' : Heads b' f' g' qs') :
    Heads b (fun o => f o ++ f' o) (fun o => g o ++ g' o) (qs ++ qs') := by
  obtain ⟨ps, hps, hfirm, hshut⟩ := h
  obtain ⟨ps', hps', -, hshut'⟩ := h'
  refine ⟨ps ++ ps', hps.append hps' fun p hp q _ => joins_of_neutral_left (hshut p hp),
    fun hb => (hfirm hb).append, fun p hp => ?_⟩
  rw [List.getLast?_append] at hp
  cases hlast : ps'.getLast? with
  | none => exact hshut p (by simpa [hlast] using hp)
  | some q => exact hshut' p (by simpa [hlast] using hp)

end Heads

namespace Tails

theorem empty : Tails (fun _ => "") (fun _ => "") [] :=
  ⟨[], ⟨.nil, fun _ => .nil, fun _ => .nil, rfl⟩, nofun⟩

theorem renders (h : Tails f g qs) : Renders false f g qs := by
  obtain ⟨ps, hps, -⟩ := h
  exact ⟨ps, hps, nofun⟩

end Tails

/-! ### Fixed texts -/

/-- The piece of a character outside quotes. -/
def Piece.ofChar (c : Char) : Piece :=
  match neutralSymbol? c with
  | some s => .mark s
  | none => if c = ' ' ∨ c = '\n' then .gap else .char c

def Piece.fixed (s : String) : List Piece := s.toList.map ofChar

namespace Piece

/-- A fixed text whose pieces keep apart. -/
def fixedFits (s : String) : Bool :=
  (fixed s).all isPlain && decide ((fixed s).IsChain fun p q => p.joins q = true)

def opensNeutral (s : String) : Bool := (fixed s).head?.any isNeutral

def endsNeutral (s : String) : Bool := (fixed s).getLast?.any isNeutral

def opensFirm (s : String) : Bool := (fixed s).head?.any fun p => joins (.sign true) p

theorem ofChar_written (c : Char) : (ofChar c).Written [c] := by
  unfold ofChar
  split
  · rename_i s hs
    unfold neutralSymbol? at hs
    split at hs <;> cases hs <;> rfl
  · split
    · rename_i hc
      exact ⟨by simp, by simpa [AllBlank] using hc⟩
    · rfl

theorem ofChar_unquoted (c : Char) : (ofChar c).mask = ofChar c ∧ (ofChar c).quoted? = none := by
  unfold ofChar
  split
  · exact ⟨rfl, rfl⟩
  · split <;> exact ⟨rfl, rfl⟩

end Piece

theorem lays_map_ofChar (cs : List Char) : Lays cs (cs.map Piece.ofChar) := by
  induction cs with
  | nil => exact .nil
  | cons c cs ih => exact .cons (w := [c]) (Piece.ofChar_written c) ih

/-- A text outside quotes, if its pieces keep apart. -/
theorem Laid.unquoted {s : String} (h : Fits (Piece.fixed s)) :
    Laid (fun _ => s) (fun _ => s) [] (Piece.fixed s) where
  fits := h
  lays _ := lays_map_ofChar _
  masked _ := by
    have hmask : (Piece.fixed s).map Piece.mask = Piece.fixed s := by
      simp [Piece.fixed, Piece.ofChar_unquoted]
    rw [hmask]
    exact lays_map_ofChar _
  quotes := by
    simp [Piece.fixed, List.filterMap_map, Piece.ofChar_unquoted]

theorem Piece.fits_fixed {s : String} (h : Piece.fixedFits s = true) : Fits (Piece.fixed s) := by
  rw [Piece.fixedFits, Bool.and_eq_true, decide_eq_true_eq, List.all_eq_true] at h
  exact ⟨h.1, h.2⟩

theorem Piece.firm_fixed {s : String} (h : Piece.opensFirm s = true) :
    Piece.Firm (Piece.fixed s) := by
  rw [Piece.opensFirm, Option.any_eq_true] at h
  obtain ⟨p, hp, hj⟩ := h
  exact ⟨p, hp, fun b => by cases p <;> exact hj⟩

theorem forall_mem_of_any {α : Type} {p : α → Bool} {o : Option α} (h : o.any p = true) :
    ∀ x ∈ o, p x = true := by
  rintro x ⟨⟩
  exact h

theorem Renders.fixed (s : String) (hs : Piece.fixedFits s = true := by cbv)
    (hb : (!b || Piece.opensFirm s) = true := by cbv) :
    Renders b (fun _ => s) (fun _ => s) [] := by
  refine ⟨_, .unquoted (Piece.fits_fixed hs), fun h => Piece.firm_fixed ?_⟩
  simpa [h] using hb

theorem Heads.fixed (s : String) (hs : Piece.fixedFits s = true := by cbv)
    (he : Piece.endsNeutral s = true := by cbv)
    (hb : (!b || Piece.opensFirm s) = true := by cbv) :
    Heads b (fun _ => s) (fun _ => s) [] := by
  refine ⟨_, .unquoted (Piece.fits_fixed hs), fun h => Piece.firm_fixed ?_,
    forall_mem_of_any he⟩
  simpa [h] using hb

theorem Heads.empty : Heads false (fun _ => "") (fun _ => "") [] :=
  ⟨[], ⟨.nil, fun _ => .nil, fun _ => .nil, rfl⟩, nofun, nofun⟩

theorem Tails.fixed (s : String) (hs : Piece.fixedFits s = true := by cbv)
    (ho : Piece.opensNeutral s = true := by cbv) :
    Tails (fun _ => s) (fun _ => s) [] :=
  ⟨_, .unquoted (Piece.fits_fixed hs), forall_mem_of_any ho⟩

/-- A text that may stand behind and before any other. -/
def Separates (s : Layout → String) : Prop :=
  ∃ ps, Laid s s [] ps ∧ (∃ p ∈ ps.head?, p.isNeutral = true) ∧
    ∃ p ∈ ps.getLast?, p.isNeutral = true

theorem Separates.fixed (s : String) (hs : Piece.fixedFits s = true := by cbv)
    (ho : Piece.opensNeutral s = true := by cbv)
    (he : Piece.endsNeutral s = true := by cbv) : Separates fun _ => s := by
  rw [Piece.opensNeutral, Option.any_eq_true] at ho
  rw [Piece.endsNeutral, Option.any_eq_true] at he
  exact ⟨_, .unquoted (Piece.fits_fixed hs), ho, he⟩

/-- The separator of lines, which may also be a space. -/
theorem Separates.newline : Separates Layout.newline := by
  have hlays : ∀ o : Layout, Lays o.newline.toList [.gap] := by
    intro o
    refine .single ?_
    unfold Layout.newline
    split <;> exact ⟨by decide, by simp [AllBlank]⟩
  exact ⟨[.gap], ⟨⟨by simp [Piece.isPlain], .singleton _⟩, hlays, hlays, rfl⟩, ⟨_, rfl, rfl⟩,
    ⟨_, rfl, rfl⟩⟩

namespace Renders

variable {s : Layout → String}

theorem before (h : Renders b f g qs) (hs : Separates s) :
    Heads b (fun o => f o ++ s o) (fun o => g o ++ s o) qs := by
  obtain ⟨ps, hps, hfirm⟩ := h
  obtain ⟨ss, hss, ⟨p, hp, hn⟩, q, hq, hn'⟩ := hs
  have hlaid := hps.append hss fun _ _ r hr => by
    rw [Option.mem_def] at hp hr
    rw [hp] at hr
    cases hr
    exact joins_of_neutral_right hn
  rw [List.append_nil] at hlaid
  refine ⟨_, hlaid, fun hb => (hfirm hb).append, fun r hr => ?_⟩
  rw [Option.mem_def] at hq hr
  rw [List.getLast?_append, hq] at hr
  cases hr
  exact hn'

/-- A text before a fixed one that separates it from all that may come. -/
theorem head (h : Renders b f g qs) (s : String)
    (hs : Piece.fixedFits s = true := by cbv)
    (ho : Piece.opensNeutral s = true := by cbv)
    (he : Piece.endsNeutral s = true := by cbv) :
    Heads b (fun o => f o ++ s) (fun o => g o ++ s) qs :=
  h.before (.fixed s hs ho he)

/-- A text before a fixed one at the end. -/
theorem close (h : Renders b f g qs) (s : String)
    (hs : Piece.fixedFits s = true := by cbv)
    (ho : Piece.opensNeutral s = true := by cbv) :
    Renders b (fun o => f o ++ s) (fun o => g o ++ s) qs :=
  (h.tail (.fixed s hs ho)).cast (List.append_nil _)

/-- A text between an opening one and the closing mark. -/
theorem enclose (h : Renders b' f' g' qs') (hopen : Heads b f g qs) :
    Renders b (fun o => f o ++ f' o ++ ")") (fun o => g o ++ g' o ++ ")") (qs ++ qs') :=
  (hopen.renders h).close ")" rfl rfl

end Renders

namespace Tails

variable {s : Layout → String}

theorem after (hs : Separates s) (h : Renders b f g qs) :
    Tails (fun o => s o ++ f o) (fun o => s o ++ g o) qs := by
  obtain ⟨ps, hps, -⟩ := h
  obtain ⟨ss, hss, ⟨p, hp, hn⟩, q, hq, hn'⟩ := hs
  have hlaid := hss.append hps fun r hr _ _ => by
    rw [Option.mem_def] at hq hr
    rw [hq] at hr
    cases hr
    exact joins_of_neutral_left hn'
  refine ⟨_, hlaid, fun r hr => ?_⟩
  rw [Option.mem_def] at hp hr
  rw [List.head?_append, hp] at hr
  cases hr
  exact hn

/-- A text behind a fixed one that separates it from all that stood before. -/
theorem lead (s : String) (h : Renders b f g qs)
    (hs : Piece.fixedFits s = true := by cbv)
    (ho : Piece.opensNeutral s = true := by cbv)
    (he : Piece.endsNeutral s = true := by cbv) :
    Tails (fun o => s ++ f o) (fun o => s ++ g o) qs :=
  after (.fixed s hs ho he) h

end Tails

/-! ### Shifted texts and parentheses -/

theorem Laid.pad (h : Laid f g qs ps) (v w : Layout → Nat) :
    Laid (fun o => Text.pad (f o) (v o)) (fun o => Text.pad (g o) (w o)) qs ps where
  fits := h.fits
  lays o := by
    rw [Text.pad, String.toList_ofList]
    exact (h.lays o).padFrom _ h.fits.plain
  masked o := by
    rw [Text.pad, String.toList_ofList]
    exact (h.masked o).padFrom _ h.fits.mask.plain
  quotes := h.quotes

namespace Renders

theorem pad (h : Renders b f g qs) (v w : Layout → Nat) :
    Renders b (fun o => Text.pad (f o) (v o)) (fun o => Text.pad (g o) (w o)) qs := by
  obtain ⟨ps, hps, hfirm⟩ := h
  exact ⟨ps, hps.pad v w, hfirm⟩

theorem wrap {c : Bool} (h : Renders b f g qs) :
    Renders c (fun o => Text.parenthesize (f o)) (fun o => Text.parenthesize (g o)) qs := by
  have hopen : Heads true (fun _ => "(") (fun _ => "(") [] := .fixed "(" rfl rfl rfl
  exact ((h.pad (fun _ => 1) fun _ => 1).enclose hopen).of_firm

theorem wrapIf (h : Renders b f g qs) (needed : Bool) :
    Renders (needed || b) (fun o => Sql.wrapIf needed (f o)) (fun o => Sql.wrapIf needed (g o))
      qs := by
  cases needed with
  | true => exact h.wrap
  | false => exact h

/-- A sign in front of a firm text. -/
theorem sign (h : Renders true f g qs) (negative : Bool) :
    Renders false (fun o => (if negative then "-" else "+") ++ f o)
      (fun o => (if negative then "-" else "+") ++ g o) qs := by
  obtain ⟨ps, hps, hfirm⟩ := h
  obtain ⟨p, hp, hj⟩ := hfirm rfl
  have hsign : Laid (fun _ => if negative then "-" else "+")
      (fun _ => if negative then "-" else "+") [] [.sign negative] := by
    have hlays : Lays (if negative then "-" else "+").toList [.sign negative] := by
      refine .single ?_
      cases negative <;> rfl
    exact ⟨⟨by simp [Piece.isPlain], .singleton _⟩, fun _ => hlays, fun _ => hlays, rfl⟩
  refine ⟨_, hsign.append hps fun q hq r hr => ?_, by simp⟩
  cases hq
  rw [Option.mem_def] at hp hr
  rw [hp] at hr
  cases hr
  exact hj negative

end Renders

/-! ### Quoted and bare texts -/

theorem laid_name (text : String) :
    Laid (fun _ => Text.quote Text.nameMark text) (fun _ => Text.quote Text.nameMark blot)
      [.name text] [.name text] :=
  ⟨⟨by simp [Piece.isPlain], .singleton _⟩, fun _ => .single rfl, fun _ => .single rfl, rfl⟩

theorem laid_string (text : String) :
    Laid (fun _ => Text.quote Text.stringMark text) (fun _ => Text.quote Text.stringMark blot)
      [.string text] [.string text] :=
  ⟨⟨by simp [Piece.isPlain], .singleton _⟩, fun _ => .single rfl, fun _ => .single rfl, rfl⟩

theorem firm_name (text : String) : Piece.Firm [.name text] := ⟨_, rfl, fun _ => rfl⟩

namespace Renders

theorem name (x : Ident) : Renders b (fun _ => x.sql) (fun _ => x.mask.sql) [x.quote] :=
  ⟨_, laid_name x.text, fun _ => firm_name x.text⟩

theorem string (text : String) :
    Renders b (fun _ => Text.quote Text.stringMark text)
      (fun _ => Text.quote Text.stringMark blot) [.string text] :=
  ⟨_, laid_string text, fun _ => ⟨_, rfl, fun _ => rfl⟩⟩

theorem binary (bytes : List UInt8) :
    Renders b (fun _ => "X" ++ Text.quote Text.stringMark (Text.hex bytes))
      (fun _ => "X" ++ Text.quote Text.stringMark (Text.hex bytes)) [] := by
  have hlays :
      Lays ("X" ++ Text.quote Text.stringMark (Text.hex bytes)).toList [.binary bytes] := by
    rw [String.toList_append]
    exact .single rfl
  exact ⟨[.binary bytes], ⟨⟨by simp [Piece.isPlain], .singleton _⟩, fun _ => hlays, fun _ => hlays,
    rfl⟩, fun _ => ⟨_, rfl, fun _ => rfl⟩⟩

end Renders

theorem toNat_lt_of_isBareChar {c : Char} (h : Token.isBareChar c = true) : c.toNat < 128 := by
  have hval : ∀ d : Char, d.toNat < 128 → c.val ≤ d.val → c.toNat < 128 := by
    intro d hd hcd
    exact Nat.lt_of_le_of_lt (UInt32.le_iff_toNat_le.1 hcd) hd
  simp only [Token.isBareChar, Char.isAlphanum, Char.isAlpha, Char.isUpper, Char.isLower,
    Bool.or_eq_true, Bool.and_eq_true, decide_eq_true_eq, beq_iff_eq] at h
  rcases h with (((⟨-, h⟩ | ⟨-, h⟩) | h) | rfl) | rfl
  · exact hval 'Z' (by decide) h
  · exact hval 'z' (by decide) h
  · exact Token.toNat_lt_of_isDigit h
  · decide
  · decide

/-- A bare character is a piece of its own and takes part in no mark or comment. -/
theorem ofChar_bare {c : Char} (h : Token.isBareChar c = true) :
    Piece.ofChar c = .char c ∧ Token.isInner c = true ∧ c ≠ '-' ∧ c ≠ '>' ∧ c ≠ '/' := by
  revert h
  refine Token.char_cases (P := fun c => Token.isBareChar c = true → Piece.ofChar c = .char c ∧
    Token.isInner c = true ∧ c ≠ '-' ∧ c ≠ '>' ∧ c ≠ '/') (by decide) (fun c hc h => ?_) c
  exact absurd (toNat_lt_of_isBareChar h) (Nat.not_lt.2 hc)

theorem fits_bare {s : String} (h : ∀ c ∈ s.toList, Token.isBareChar c = true) :
    Fits (Piece.fixed s) := by
  have hchars : Piece.fixed s = s.toList.map Piece.char :=
    List.map_congr_left fun c hc => (ofChar_bare (h c hc)).1
  rw [hchars]
  refine ⟨?_, ?_⟩
  · intro p hp
    obtain ⟨c, hc, rfl⟩ := List.mem_map.1 hp
    exact (ofChar_bare (h c hc)).2.1
  · rw [List.isChain_map]
    refine List.isChain_iff_forall_rel_of_append_cons_cons.2 fun c d cs ds hcd => ?_
    obtain ⟨-, -, hminus, -, hslash⟩ := ofChar_bare (h c (by simp [hcd]))
    simp [Piece.joins, Token.opensComment, hminus, hslash]

/-- A bare text may stand behind a sign and behind a point. -/
theorem head_bare {s : String} (h : IsBareText s) :
    ∃ c ∈ s.toList, (Piece.fixed s).head? = some (.char c) ∧ Token.isBareChar c = true := by
  obtain ⟨hne, hall⟩ := h
  cases hs : s.toList with
  | nil => exact absurd (by simpa using hs) hne
  | cons c cs =>
    have hc : Token.isBareChar c = true := hall c (by simp [hs])
    exact ⟨c, by simp, by simp [Piece.fixed, hs, (ofChar_bare hc).1], hc⟩

theorem Renders.bare {s : String} (h : IsBareText s) : Renders b (fun _ => s) (fun _ => s) [] := by
  obtain ⟨c, -, hhead, hc⟩ := head_bare h
  obtain ⟨-, -, hminus, hgreater, -⟩ := ofChar_bare hc
  refine ⟨_, .unquoted (fits_bare h.2), fun _ => ⟨_, hhead, fun _ => ?_⟩⟩
  simp [Piece.joins, hminus, hgreater]

theorem isBareText_decimal (n : Nat) : IsBareText (Text.decimal n) := by
  obtain ⟨hne, hdigits⟩ := Token.allDigits_toDigits n
  refine ⟨?_, fun c hc => ?_⟩
  · intro h
    rw [← Text.toList_decimal, h] at hne
    exact hne rfl
  · rw [Text.toList_decimal] at hc
    simp [Token.isBareChar, Char.isAlphanum, hdigits c hc]

theorem Renders.decimal (n : Nat) :
    Renders b (fun _ => Text.decimal n) (fun _ => Text.decimal n) [] :=
  .bare (isBareText_decimal n)

/-! ### Names -/

/-- A text that may stand behind a sign and behind a point. -/
def Parts (s m : String) (qs : List Quoted) : Prop :=
  ∃ ps, Laid (fun _ => s) (fun _ => m) qs ps ∧
    ∃ p ∈ ps.head?, (∀ b, (Piece.sign b).joins p = true) ∧ (Piece.char '.').joins p = true

theorem Parts.renders {s m : String} (h : Parts s m qs) :
    Renders b (fun _ => s) (fun _ => m) qs := by
  obtain ⟨ps, hps, p, hp, hsign, -⟩ := h
  exact ⟨ps, hps, fun _ => ⟨p, hp, hsign⟩⟩

theorem laid_dot : Laid (fun _ => ".") (fun _ => ".") [] [.char '.'] :=
  .unquoted (Piece.fits_fixed (s := ".") (by cbv))

theorem joins_dot (p : Piece) : p.joins (.char '.') = true := by
  cases p with
  | char c => simp [Piece.joins, Token.opensComment]
  | _ => rfl

/-- A point and a text behind another text. -/
theorem Laid.dot {s m : String} (h : Laid f g qs ps) (h' : Parts s m qs') :
    ∃ ps', Laid (fun o => f o ++ "." ++ s) (fun o => g o ++ "." ++ m) (qs ++ qs') (ps ++ ps') := by
  obtain ⟨ps', hps', p, hp, -, hdot⟩ := h'
  have hpoint := h.append laid_dot fun p _ q hq => by
    cases hq
    exact joins_dot p
  have hall := hpoint.append hps' fun q hq r hr => by
    rw [List.getLast?_concat] at hq
    rw [Option.mem_def] at hp hr
    rw [hp] at hr
    cases hq
    cases hr
    exact hdot
  rw [List.append_nil, List.append_assoc] at hall
  exact ⟨_, hall⟩

theorem Renders.dot {s m : String} (h : Renders b f g qs) (h' : Parts s m qs') :
    Renders b (fun o => f o ++ "." ++ s) (fun o => g o ++ "." ++ m) (qs ++ qs') := by
  obtain ⟨ps, hps, hfirm⟩ := h
  obtain ⟨ps', hall⟩ := hps.dot h'
  exact ⟨_, hall, fun hb => (hfirm hb).append⟩

/-- Texts between points. -/
theorem Parts.dotted {xs : List Ident} {sql mask : Ident → String} {quotes : Ident → List Quoted}
    (hne : xs ≠ []) (h : ∀ x ∈ xs, Parts (sql x) (mask x) (quotes x)) :
    Parts (".".intercalate (xs.map sql)) (".".intercalate (xs.map mask)) (xs.flatMap quotes) := by
  induction xs with
  | nil => exact absurd rfl hne
  | cons x xs ih =>
    have hx := h x (by simp)
    cases xs with
    | nil => simpa using hx
    | cons y ys =>
      obtain ⟨ps, hps, p, hp, hjoins⟩ := hx
      obtain ⟨ps', hall⟩ := hps.dot (ih (by simp) fun z hz => h z (by simp [hz]))
      simp only [List.map_cons, String.intercalate_cons_cons, List.flatMap_cons] at hall ⊢
      refine ⟨_, hall, p, ?_, hjoins⟩
      rw [Option.mem_def] at hp ⊢
      rw [List.head?_append, hp]
      rfl

theorem parts_name (x : Ident) : Parts x.sql x.mask.sql [x.quote] :=
  ⟨_, laid_name x.text, _, rfl, fun _ => rfl, rfl⟩

theorem parts_bare {s : String} (h : IsBareText s) : Parts s s [] := by
  obtain ⟨c, -, hhead, hc⟩ := head_bare h
  obtain ⟨-, -, hminus, hgreater, -⟩ := ofChar_bare hc
  refine ⟨_, .unquoted (fits_bare h.2), _, hhead, fun _ => ?_, ?_⟩
  · simp [Piece.joins, hminus, hgreater]
  · simp [Piece.joins, Token.opensComment]

namespace Name

theorem parts_ne_nil (n : Name) : n.parts ≠ [] := by simp [parts]

theorem parts_sql (n : Name) : Parts n.sql n.mask.sql n.quotes := by
  have := Parts.dotted n.parts_ne_nil fun x _ => parts_name x
  have hquotes : n.quotes = n.parts.flatMap fun x => [x.quote] := List.map_eq_flatMap
  rw [sql, sql, parts_mask, List.map_map, hquotes]
  exact this

/-- The name of a function whose undelimited parts are bare. -/
theorem parts_callSql {n : Name}
    (h : ∀ x ∈ n.parts, x.delimited = false → IsBareText x.text) :
    Parts n.callSql n.maskCall.callSql n.callQuotes := by
  have hpart : ∀ x ∈ n.parts, Parts (if x.delimited then x.sql else x.text)
      (if x.maskCall.delimited then x.maskCall.sql else x.maskCall.text) x.callQuotes := by
    intro x hx
    cases hd : x.delimited with
    | true =>
      have hmask : x.mask.delimited = true := hd
      simp only [Ident.maskCall, Ident.callQuotes, hd, if_true, hmask]
      exact parts_name x
    | false =>
      simp only [Ident.maskCall, Ident.callQuotes, hd, Bool.false_eq_true, if_false]
      exact parts_bare (h x hx hd)
  have := Parts.dotted n.parts_ne_nil hpart
  rw [callSql, callSql, parts_maskCall, List.map_map, callQuotes]
  exact this

theorem renders_starSql (r : Option Name) :
    Renders b (fun _ => starSql r) (fun _ => starSql (r.map mask)) (quotes? r) := by
  cases r with
  | none => exact (Renders.fixed "*" rfl rfl).of_firm
  | some n =>
    obtain ⟨ps, hps, p, hp, hsign, -⟩ := n.parts_sql
    have hstar := hps.append (.unquoted (Piece.fits_fixed (s := ".*") (by cbv)))
      fun p _ q hq => by
        cases hq
        exact joins_dot p
    rw [List.append_nil] at hstar
    exact ⟨_, hstar, fun _ => Piece.Firm.append ⟨p, hp, hsign⟩⟩

end Name

/-! ### Lists of texts -/

/-- Texts one after the other, each of them made of the same pieces in every layout. -/
inductive RendersAll : (Layout → List String) → (Layout → List String) → List Quoted → Prop where
  | nil : RendersAll (fun _ => []) (fun _ => []) []
  | cons {f g : Layout → String} {fs gs : Layout → List String} {qs qs' : List Quoted}
      (h : Renders false f g qs) (hs : RendersAll fs gs qs') :
      RendersAll (fun o => f o :: fs o) (fun o => g o :: gs o) (qs ++ qs')

namespace RendersAll

variable {fs gs fs' gs' : Layout → List String}

theorem cast (h : RendersAll fs gs qs) (he : qs = qs') : RendersAll fs gs qs' := he ▸ h

theorem single (h : Renders b f g qs) : RendersAll (fun o => [f o]) (fun o => [g o]) qs :=
  (cons h.loose nil).cast (List.append_nil _)

theorem append (h : RendersAll fs gs qs) (h' : RendersAll fs' gs' qs') :
    RendersAll (fun o => fs o ++ fs' o) (fun o => gs o ++ gs' o) (qs ++ qs') := by
  induction h with
  | nil => exact h'
  | cons h _ ih => exact (cons h ih).cast (List.append_assoc ..).symm

/-- Texts with a separator between each two. -/
theorem intercalate {s : Layout → String} (hs : Separates s) (h : RendersAll fs gs qs) :
    Renders false (fun o => (s o).intercalate (fs o)) (fun o => (s o).intercalate (gs o)) qs := by
  induction h with
  | nil => exact Tails.empty.renders
  | cons h hrest ih =>
    cases hrest with
    | nil => simpa using h
    | cons h' hrest =>
      simp only [String.intercalate_cons_cons] at ih ⊢
      exact (h.before hs).renders ih

theorem commas (h : RendersAll fs gs qs) :
    Renders false (fun o => ", ".intercalate (fs o)) (fun o => ", ".intercalate (gs o)) qs :=
  h.intercalate (.fixed ", " rfl rfl rfl)

end RendersAll

/-! ### Clauses -/

/-- The text of a clause in a column of keywords. -/
def Entry.textIn (o : Layout) (width : Nat) (e : Entry) : String :=
  if o.isPretty then e.prettyText width else e.inlineText

theorem Entry.layOut_eq (o : Layout) (es : List Entry) :
    Entry.layOut o es = o.newline.intercalate (es.map (Entry.textIn o (Entry.width es))) := by
  unfold Entry.layOut Layout.newline Entry.textIn
  split <;> rfl

/-- Clauses that consist of the same pieces in every layout. -/
inductive RendersClauses : (Layout → List Entry) → (Layout → List Entry) → List Quoted → Prop where
  | nil : RendersClauses (fun _ => []) (fun _ => []) []
  | clause {f g : Layout → String} {es es' : Layout → List Entry} {qs qs' : List Quoted}
      (keyword : String) (hk : Piece.fixedFits keyword = true) (h : Renders false f g qs)
      (hs : RendersClauses es es' qs') :
      RendersClauses (fun o => .clause keyword (f o) :: es o)
        (fun o => .clause keyword (g o) :: es' o) (qs ++ qs')
  | block {f g : Layout → String} {es es' : Layout → List Entry} {qs qs' : List Quoted}
      (h : Renders false f g qs) (hs : RendersClauses es es' qs') :
      RendersClauses (fun o => .block (f o) :: es o) (fun o => .block (g o) :: es' o) (qs ++ qs')

theorem allBlank_spaces (n : Nat) : AllBlank (Text.spaces n).toList := by
  rw [Text.spaces, String.toList_ofList]
  exact fun c hc => .inl (List.eq_of_mem_replicate hc)

/-- A text that depends on the mode, if it has the same pieces in both. -/
theorem Laid.choose (h : Laid f g qs ps) (h' : Laid f' g' qs ps) :
    Laid (fun o => if o.isPretty then f o else f' o) (fun o => if o.isPretty then g o else g' o)
      qs ps where
  fits := h.fits
  lays o := by
    split
    · exact h.lays o
    · exact h'.lays o
  masked o := by
    split
    · exact h.masked o
    · exact h'.masked o
  quotes := h.quotes

/-- A keyword behind blanks, possibly none, and before a value. -/
theorem Laid.clause {keyword : String} (hk : Piece.fixedFits keyword = true) (h : Laid f g qs ps)
    (v w : Layout → Nat) :
    Laid (fun o => Text.spaces (v o) ++ keyword ++ " " ++ f o)
      (fun o => Text.spaces (w o) ++ keyword ++ " " ++ g o) qs
      ([.margin] ++ Piece.fixed keyword ++ [.gap] ++ ps) := by
  have hmargin : Laid (fun o => Text.spaces (v o)) (fun o => Text.spaces (w o)) [] [.margin] :=
    ⟨⟨by simp [Piece.isPlain], .singleton _⟩, fun _ => .single (allBlank_spaces _),
      fun _ => .single (allBlank_spaces _), rfl⟩
  have hkeyword := hmargin.append (.unquoted (Piece.fits_fixed hk)) fun p hp q _ => by
    cases hp
    cases q <;> rfl
  have hgap := hkeyword.append (.unquoted (Piece.fits_fixed (s := " ") (by cbv)))
    fun p _ q hq => by
      cases hq
      exact joins_of_neutral_right rfl
  have hall := hgap.append h fun p hp q _ => by
    rw [show Piece.fixed " " = [.gap] by cbv, List.getLast?_concat] at hp
    cases hp
    rfl
  simpa only [show Piece.fixed " " = [.gap] by cbv, List.nil_append] using hall

theorem Entry.textIn_clause (o : Layout) (width : Nat) (keyword value : String) :
    Entry.textIn o width (.clause keyword value) =
      if o.isPretty then
        Text.spaces (width - keyword.length) ++ keyword ++ " " ++ Text.pad value (width + 1)
      else Text.spaces 0 ++ keyword ++ " " ++ value := by
  unfold Entry.textIn
  split
  · rfl
  · rw [Entry.inlineText, show Text.spaces 0 = "" from rfl, String.empty_append]

theorem Renders.clause {keyword : String} (hk : Piece.fixedFits keyword = true)
    (h : Renders b f g qs) (v w : Layout → Nat) :
    Renders false (fun o => Entry.textIn o (v o) (.clause keyword (f o)))
      (fun o => Entry.textIn o (w o) (.clause keyword (g o))) qs := by
  obtain ⟨ps, hps, -⟩ := h
  have hpretty := (hps.pad (fun o => v o + 1) fun o => w o + 1).clause hk
    (fun o => v o - keyword.length) fun o => w o - keyword.length
  have hinline := hps.clause hk (fun _ => 0) fun _ => 0
  simp only [Entry.textIn_clause]
  exact ⟨_, hpretty.choose hinline, nofun⟩

theorem Renders.block (h : Renders b f g qs) (v w : Layout → Nat) :
    Renders false (fun o => Entry.textIn o (v o) (.block (f o)))
      (fun o => Entry.textIn o (w o) (.block (g o))) qs := by
  have htext : ∀ (o : Layout) (width : Nat) (text : String),
      Entry.textIn o width (.block text) = text := by
    intro o width text
    unfold Entry.textIn
    split <;> rfl
  simp only [htext]
  exact h.loose

namespace RendersClauses

variable {es es' fs fs' : Layout → List Entry}

theorem cast (h : RendersClauses es es' qs) (he : qs = qs') : RendersClauses es es' qs' := he ▸ h

theorem append (h : RendersClauses es es' qs) (h' : RendersClauses fs fs' qs') :
    RendersClauses (fun o => es o ++ fs o) (fun o => es' o ++ fs' o) (qs ++ qs') := by
  induction h with
  | nil => exact h'
  | clause keyword hk h _ ih => exact (clause keyword hk h ih).cast (List.append_assoc ..).symm
  | block h _ ih => exact (block h ih).cast (List.append_assoc ..).symm

theorem single (keyword : String) (h : Renders b f g qs)
    (hk : Piece.fixedFits keyword = true := by cbv) :
    RendersClauses (fun o => [.clause keyword (f o)]) (fun o => [.clause keyword (g o)]) qs :=
  (clause keyword hk h.loose nil).cast (List.append_nil _)

theorem singleBlock (h : Renders b f g qs) :
    RendersClauses (fun o => [.block (f o)]) (fun o => [.block (g o)]) qs :=
  (block h.loose nil).cast (List.append_nil _)

theorem texts (h : RendersClauses es es' qs) (v w : Layout → Nat) :
    RendersAll (fun o => (es o).map (Entry.textIn o (v o)))
      (fun o => (es' o).map (Entry.textIn o (w o))) qs := by
  induction h with
  | nil => exact .nil
  | clause keyword hk h _ ih => exact .cons (h.clause hk v w) ih
  | block h _ ih => exact .cons (h.block v w) ih

theorem layOut (h : RendersClauses es es' qs) :
    Renders false (fun o => Entry.layOut o (es o)) (fun o => Entry.layOut o (es' o)) qs := by
  simp only [Entry.layOut_eq]
  exact (h.texts (fun o => Entry.width (es o)) fun o => Entry.width (es' o)).intercalate .newline

end RendersClauses

/-- The line break and the blanks in front of the branches of a case expression. -/
def Layout.branchBreak (o : Layout) : String :=
  if o.isPretty then "\n" ++ Text.spaces o.indent else " "

theorem Separates.branchBreak : Separates Layout.branchBreak := by
  have hlays : ∀ o : Layout, Lays o.branchBreak.toList [.gap] := by
    intro o
    refine .single ?_
    unfold Layout.branchBreak
    split
    · rw [String.toList_append]
      exact ⟨by simp, List.forall_mem_append.2 ⟨by simp, allBlank_spaces _⟩⟩
    · exact ⟨by decide, by simp [AllBlank]⟩
  exact ⟨[.gap], ⟨⟨by simp [Piece.isPlain], .singleton _⟩, hlays, hlays, rfl⟩, ⟨_, rfl, rfl⟩,
    ⟨_, rfl, rfl⟩⟩

theorem caseText_eq (o : Layout) (head : String) (branches : List String) :
    caseText o head branches = head ++ o.branchBreak ++
      (if o.isPretty then Text.pad (o.newline.intercalate branches) o.indent
        else o.newline.intercalate branches) ++ (o.newline ++ "END") := by
  unfold caseText Layout.branchBreak Layout.newline
  have hend : "\nEND" = "\n" ++ "END" ∧ " END" = " " ++ "END" := by decide
  split <;> simp only [hend, String.append_assoc]

theorem renders_caseText {fs gs : Layout → List String} (h : Renders b f g qs)
    (hs : RendersAll fs gs qs') :
    Renders b (fun o => caseText o (f o) (fs o)) (fun o => caseText o (g o) (gs o))
      (qs ++ qs') := by
  obtain ⟨ps, hps, -⟩ := hs.intercalate .newline
  have hbranches : Renders false
      (fun o => if o.isPretty then Text.pad (o.newline.intercalate (fs o)) o.indent
        else o.newline.intercalate (fs o))
      (fun o => if o.isPretty then Text.pad (o.newline.intercalate (gs o)) o.indent
        else o.newline.intercalate (gs o)) qs' :=
    ⟨ps, (hps.pad Layout.indent Layout.indent).choose hps, nofun⟩
  have hend : Renders false (fun _ => "END") (fun _ => "END") [] := .fixed "END" rfl rfl
  simp only [caseText_eq]
  exact (((h.before .branchBreak).renders hbranches).tail (.after .newline hend)).cast
    (List.append_nil _)

end Sql
