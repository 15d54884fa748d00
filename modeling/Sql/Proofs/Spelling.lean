import Mathlib
import Sql.Proofs.Good
import Sql.Proofs.Margins

/-! How tokens are spelled, and that the scanner reads the spelling of a token up to its end. -/
namespace Sql

open Token (Kind)

namespace Text

variable {mark : Char} {cs rest : List Char}

theorem unquote_cons_of_ne {c : Char} (h : c ≠ mark) :
    unquote mark (c :: cs) = (unquote mark cs).map fun r => (c :: r.1, r.2) := by
  cases cs with
  | nil => simp [unquote, h]
  | cons d cs => rw [unquote, if_neg h]

theorem unquote_doubled (hr : rest.head? ≠ some mark) :
    unquote mark (doubled mark cs ++ mark :: rest) = some (cs, rest) := by
  induction cs with
  | nil =>
    cases rest with
    | nil => simp [doubled, unquote]
    | cons d rest =>
      have hd : d ≠ mark := by simpa using hr
      simp [doubled, unquote, hd]
  | cons c cs ih =>
    by_cases hc : c = mark
    · subst hc
      rw [doubled, if_pos rfl, List.cons_append, List.cons_append, unquote, if_pos rfl, if_pos rfl,
        ih]
      rfl
    · rw [doubled, if_neg hc, List.cons_append, unquote_cons_of_ne hc, ih]
      rfl

theorem toList_quote (mark : Char) (text : String) :
    (quote mark text).toList = mark :: (doubled mark text.toList ++ [mark]) := by
  simp [quote]

/-! ### Hexadecimal digits -/

theorem hexValue?_hexDigit : ∀ n < 16, hexValue? (hexDigit n) = some n := by decide

theorem isBlank_hexDigit : ∀ n < 16, isBlank (hexDigit n) = false := by decide

/-- The digits of the bytes, high before low. -/
def hexValues (bytes : List UInt8) : List Nat := bytes.flatMap fun b => [b.toNat / 16, b.toNat % 16]

theorem lt_of_mem_hexValues {bytes : List UInt8} {n : Nat} (h : n ∈ hexValues bytes) : n < 16 := by
  obtain ⟨b, -, hb⟩ := List.mem_flatMap.1 h
  have := b.toNat_lt
  simp only [List.mem_cons, List.not_mem_nil, or_false] at hb
  omega

theorem toList_hex (bytes : List UInt8) : (hex bytes).toList = (hexValues bytes).map hexDigit := by
  simp [hex, hexValues, List.map_flatMap]

theorem pairBytes_hexValues (bytes : List UInt8) : pairBytes (hexValues bytes) = bytes := by
  induction bytes with
  | nil => rfl
  | cons b bytes ih =>
    have hb : 16 * (b.toNat / 16) + b.toNat % 16 = b.toNat := Nat.div_add_mod ..
    rw [hexValues] at ih ⊢
    rw [List.flatMap_cons, List.cons_append, List.cons_append, List.nil_append, pairBytes, ih, hb,
      UInt8.ofNat_toNat]

theorem length_hexValues (bytes : List UInt8) : (hexValues bytes).length % 2 = 0 := by
  induction bytes with
  | nil => rfl
  | cons b bytes ih =>
    rw [hexValues] at ih ⊢
    simp only [List.flatMap_cons, List.length_append, List.length_cons, List.length_nil]
    omega

/-! ### Decimal digits -/

theorem digitsValue_toDigits (n : Nat) : digitsValue (Nat.toDigits 10 n) = n := by
  have h : Nat.ofDigitChars 10 (Nat.toDigits 10 n) 0 = n :=
    Nat.ofDigitChars_toDigits (by decide) (by decide)
  rwa [Nat.ofDigitChars_eq_foldl] at h

theorem toList_decimal (n : Nat) : (decimal n).toList = Nat.toDigits 10 n := by
  simp [decimal]

end Text

namespace Token

theorem allDigits_toDigits (n : Nat) : AllDigits (Nat.toDigits 10 n) :=
  ⟨Nat.toDigits_ne_nil, fun _ hd => Nat.isDigit_of_mem_toDigits (by decide) (by decide) hd⟩

/-- Bare words, reserved or not. -/
def IsBare (w : List Char) : Prop :=
  ∃ c cs, w = c :: cs ∧ startsWord c = true ∧ ∀ d ∈ cs, continuesWord d = true

/-- The exponent of a number. -/
def IsExponent (es : List Char) : Prop :=
  ∃ sign ds, es = 'E' :: (sign ++ ds) ∧ (sign = [] ∨ sign = ['-']) ∧ AllDigits ds

/-- How a token is written. -/
inductive Spelling : List Char → Kind → Prop where
  | symbol (s : Symbol) (h : s ≠ .semicolon) : Spelling s.text.toList (.symbol s)
  | word {w : List Char} (h : IsBare w) : Spelling w (wordKind (String.ofList w))
  | name {text : String} (h : text ≠ "") :
      Spelling (Text.quote Text.nameMark text).toList (.ident (.quoted text))
  | string (text : String) : Spelling (Text.quote Text.stringMark text).toList (.string text)
  | binary (bytes : List UInt8) :
      Spelling ('X' :: (Text.quote Text.stringMark (Text.hex bytes)).toList) (.binary bytes)
  | integer {n : Nat} (h : n ≤ maxInteger) : Spelling (Text.decimal n).toList (.number n)
  | decimal {text : String} (h : IsDecimal text) : Spelling text.toList (.decimal text)
  | double {ds fs es : List Char} {d : Double} (hds : AllDigits ds)
      (hfs : fs = [] ∨ ∃ f, fs = '.' :: f ∧ AllDigits f) (hes : IsExponent es)
      (h : Double.ofText? (String.ofList (ds ++ fs ++ es)) = some d) :
      Spelling (ds ++ fs ++ es) (.double d)

/-- May the character stand right behind the token? -/
def Kind.apart (c : Char) : Kind → Bool
  | .symbol .minus => c ≠ '-' && c ≠ '>'
  | .symbol .slash => c ≠ '*'
  | .symbol .lt => c ≠ '=' && c ≠ '>'
  | .symbol .gt => c ≠ '='
  | .symbol .dot => !c.isDigit
  | .symbol _ => true
  | .ident x => if x.delimited then c ≠ Text.nameMark else !continuesWord c && c ≠ Text.stringMark
  | .keyword _ => !continuesWord c && c ≠ Text.stringMark
  | .string _ | .binary _ => c ≠ Text.stringMark
  | .integer _ => !continuesWord c && c ≠ '.'
  | .decimal text => !continuesWord c && (c ≠ '.' || text.toList.dropLast.contains '.')
  | .double _ => !continuesWord c
  | _ => true

/-- Nothing stands behind the token that would be read with it. -/
def Kind.Apart (k : Kind) (cs : List Char) : Prop := ∀ c, cs.head? = some c → k.apart c = true

/-! ### The scanner on spelled tokens -/

variable {c : Char} {cs w : List Char} {k : Kind}

/-- Characters that are looked at one by one before words, numbers and quoted text. -/
def marks : List Char := "()[],;+*/%?=-<>!|.".toList

theorem scanOne_other (h : c ∉ marks) : scanOne c cs = scanOther c cs := by
  unfold scanOne
  split <;> first | rfl | exact absurd (by decide) h

/-- To show something of all characters, try those of ASCII one by one. -/
theorem char_cases {P : Char → Prop} (hascii : ∀ n < 128, P (Char.ofNat n))
    (hother : ∀ c : Char, 128 ≤ c.toNat → P c) (c : Char) : P c := by
  by_cases h : c.toNat < 128
  · rw [← Char.ofNat_toNat c]
    exact hascii c.toNat h
  · exact hother c (Nat.le_of_not_lt h)

theorem toNat_lt_of_isDigit (h : c.isDigit = true) : c.toNat < 128 := by
  simp only [Char.isDigit, Bool.and_eq_true, decide_eq_true_eq] at h
  have := UInt32.le_iff_toNat_le.1 h.2
  change c.val.toNat ≤ 57 at this
  change c.val.toNat < 128
  omega

/-- No blank character is a letter or a numeral. -/
theorem inRanges_of_isBlank : ∀ r ∈ Text.blankRanges, ∀ i < r.2 - r.1 + 1,
    Text.inRanges Text.letterRanges (r.1 + i) = false ∧
      Text.inRanges Text.numeralRanges (r.1 + i) = false := by
  decide +kernel

theorem continuesWord_of_isBlank (h : Text.isBlank c = true) : continuesWord c = false := by
  revert h
  refine char_cases (P := fun c => Text.isBlank c = true → continuesWord c = false)
    (by decide) (fun c hc h => ?_) c
  have hlt : ¬ c.toNat < 0x80 := Nat.not_lt.2 hc
  rw [Text.isBlank, if_neg hlt, Text.inRanges, List.any_eq_true] at h
  obtain ⟨r, hr, hin⟩ := h
  simp only [Bool.and_eq_true, decide_eq_true_eq] at hin
  have hranges := inRanges_of_isBlank r hr (c.toNat - r.1) (by omega)
  have hcode : r.1 + (c.toNat - r.1) = c.toNat := by omega
  rw [hcode] at hranges
  have hu : (c == '_') = false := by
    rw [beq_eq_false_iff_ne]
    rintro rfl
    exact absurd hc (by decide)
  rw [continuesWord, Text.isLetter, Text.isNumeral, if_neg hlt, if_neg hlt, hranges.1, hranges.2,
    hu]
  rfl

theorem continuesWord_of_startsWord (h : startsWord c = true) : continuesWord c = true := by
  rw [startsWord, Bool.or_eq_true] at h
  rw [continuesWord, Bool.or_eq_true, Bool.or_eq_true]
  exact h.imp .inl id

theorem continuesWord_of_isDigit (h : c.isDigit = true) : continuesWord c = true := by
  revert h
  refine char_cases (P := fun c => c.isDigit = true → continuesWord c = true)
    (by decide) (fun c hc h => ?_) c
  exact absurd (toNat_lt_of_isDigit h) (Nat.not_lt.2 hc)

theorem not_mem_marks_of_continuesWord (h : continuesWord c = true) :
    c ∉ marks ∧ c ≠ Text.stringMark ∧ c ≠ Text.nameMark := by
  have hall : ∀ d ∈ Text.stringMark :: Text.nameMark :: marks, continuesWord d = false := by
    have : (Text.stringMark :: Text.nameMark :: marks).all (!continuesWord ·) = true := by
      cbv
    simpa only [List.all_eq_true, Bool.not_eq_true'] using this
  refine ⟨fun hc => ?_, ?_, ?_⟩
  · simp [hall c (by simp [hc])] at h
  · rintro rfl
    simp [hall] at h
  · rintro rfl
    simp [hall] at h

theorem not_isDigit_of_startsWord (h : startsWord c = true) : c.isDigit = false := by
  revert h
  refine char_cases (P := fun c => startsWord c = true → c.isDigit = false)
    (by decide) (fun c hc _ => ?_) c
  rw [Bool.eq_false_iff]
  exact fun h => absurd (toNat_lt_of_isDigit h) (Nat.not_lt.2 hc)

theorem skip_of_continuesWord (h : continuesWord c = true) : skip .blank (c :: cs) = c :: cs := by
  have hm := (not_mem_marks_of_continuesWord h).1
  have hblank : Text.isBlank c = false := by
    rw [Bool.eq_false_iff]
    exact fun hb => by simp [continuesWord_of_isBlank hb] at h
  rw [skip]
  · simp [hblank]
  · rintro rest heq
    cases heq
    exact fun _ => hm (by decide)
  · rintro rest heq
    cases heq
    exact fun _ => hm (by decide)

theorem skip_of_mark (h : c = Text.stringMark ∨ c = Text.nameMark) :
    skip .blank (c :: cs) = c :: cs := by
  rcases h with rfl | rfl <;> rfl

/-- In front of `cs` the scanner takes `w` as the token. -/
def Scans (w : List Char) (k : Kind) (cs : List Char) : Prop :=
  ∃ c w', w = c :: w' ∧ skip .blank (c :: (w' ++ cs)) = c :: (w' ++ cs) ∧
    scanOne c (w' ++ cs) = (k, cs)

theorem head?_ne {d : Char} (h : k.Apart cs) (hd : k.apart d = false) : cs.head? ≠ some d := by
  intro hc
  simp [h d hc] at hd

theorem takeWhile_append_stop {p : Char → Bool} {xs ys : List Char} (hx : ∀ x ∈ xs, p x = true)
    (hy : ∀ y, ys.head? = some y → p y = false) :
    (xs ++ ys).takeWhile p = xs ∧ (xs ++ ys).dropWhile p = ys := by
  rw [List.takeWhile_append_of_pos hx, List.dropWhile_append_of_pos hx]
  cases ys with
  | nil => simp
  | cons y ys =>
    have := hy y rfl
    simp [this]

theorem scans_symbol {s : Symbol} (hs : s ≠ .semicolon) (h : (Kind.symbol s).Apart cs) :
    Scans s.text.toList (.symbol s) cs := by
  cases s with
  | semicolon => exact absurd rfl hs
  | minus =>
    refine ⟨'-', [], rfl, ?_, ?_⟩
    · cases cs with
      | nil => rfl
      | cons d cs =>
        have hd := h d rfl
        simp only [Kind.apart, Bool.and_eq_true, decide_eq_true_eq] at hd
        rw [List.nil_append, skip]
        · rfl
        · rintro rest - heq
          exact hd.1 (List.cons.inj heq).1
        · simp
    · cases cs with
      | nil => rfl
      | cons d cs =>
        have hd := h d rfl
        simp only [Kind.apart, Bool.and_eq_true, decide_eq_true_eq] at hd
        rw [List.nil_append]
        unfold scanOne
        split <;> simp_all
  | slash =>
    refine ⟨'/', [], rfl, ?_, rfl⟩
    cases cs with
    | nil => rfl
    | cons d cs =>
      have hd := h d rfl
      simp only [Kind.apart, decide_eq_true_eq] at hd
      rw [List.nil_append, skip]
      · rfl
      · simp
      · rintro rest - heq
        exact hd (List.cons.inj heq).1
  | lt =>
    refine ⟨'<', [], rfl, rfl, ?_⟩
    cases cs with
    | nil => rfl
    | cons d cs =>
      have hd := h d rfl
      simp only [Kind.apart, Bool.and_eq_true, decide_eq_true_eq] at hd
      rw [List.nil_append]
      unfold scanOne
      split <;> simp_all
  | gt =>
    refine ⟨'>', [], rfl, rfl, ?_⟩
    cases cs with
    | nil => rfl
    | cons d cs =>
      have hd := h d rfl
      simp only [Kind.apart, decide_eq_true_eq] at hd
      rw [List.nil_append]
      unfold scanOne
      split <;> simp_all
  | dot =>
    refine ⟨'.', [], rfl, rfl, ?_⟩
    have hd : cs.head?.any Char.isDigit = false := by
      cases cs with
      | nil => rfl
      | cons d cs => simpa [Kind.apart] using h d rfl
    rw [List.nil_append]
    simp only [scanOne, hd]
    rfl
  | _ => exact ⟨_, _, rfl, rfl, rfl⟩

theorem scans_word (hw : IsBare w) (h : (wordKind (String.ofList w)).Apart cs) :
    Scans w (wordKind (String.ofList w)) cs := by
  obtain ⟨c, w', rfl, hc, hw'⟩ := hw
  have happart : ∀ d, cs.head? = some d → continuesWord d = false ∧ d ≠ Text.stringMark := by
    intro d hd
    have := h d hd
    unfold wordKind at this
    split at this <;> simpa [Kind.apart, Ident.plain] using this
  have hcont := continuesWord_of_startsWord hc
  obtain ⟨hm, hs, hn⟩ := not_mem_marks_of_continuesWord hcont
  refine ⟨c, w', rfl, skip_of_continuesWord hcont, ?_⟩
  have hx : ¬ (c.toLower = 'x' ∧ (w' ++ cs).head? = some Text.stringMark) := by
    rintro ⟨-, hx⟩
    cases w' with
    | nil => exact (happart _ hx).2 rfl
    | cons d w' =>
      cases hx
      exact (not_mem_marks_of_continuesWord (hw' _ (by simp))).2.1 rfl
  obtain ⟨htake, hdrop⟩ := takeWhile_append_stop hw' fun d hd => (happart d hd).1
  rw [scanOne_other hm, scanOther, if_neg hs, if_neg hn, if_neg hx,
    if_neg (by simp [not_isDigit_of_startsWord hc]), if_pos hc, scanWord, htake, hdrop]

theorem scans_name {text : String} (ht : text ≠ "") (h : (Kind.ident (.quoted text)).Apart cs) :
    Scans (Text.quote Text.nameMark text).toList (.ident (.quoted text)) cs := by
  have hr : cs.head? ≠ some Text.nameMark := head?_ne h rfl
  refine ⟨_, _, Text.toList_quote .., skip_of_mark (.inr rfl), ?_⟩
  have hu : Text.unquote Text.nameMark (Text.doubled Text.nameMark text.toList ++
      Text.nameMark :: cs) = some (text.toList, cs) := Text.unquote_doubled hr
  have hne : text.toList ≠ [] := by simpa using ht
  rw [scanOne_other (by decide), scanOther, if_neg (by decide), if_pos rfl, scanName,
    List.append_assoc, List.singleton_append, hu]
  cases htl : text.toList with
  | nil => exact absurd htl hne
  | cons d ds =>
    rw [← htl]
    simp only [String.ofList_toList]

theorem scans_string {text : String} (h : (Kind.string text).Apart cs) :
    Scans (Text.quote Text.stringMark text).toList (.string text) cs := by
  have hr : cs.head? ≠ some Text.stringMark := head?_ne h rfl
  refine ⟨_, _, Text.toList_quote .., skip_of_mark (.inl rfl), ?_⟩
  rw [scanOne_other (by decide), scanOther, if_pos rfl, scanString, List.append_assoc,
    List.singleton_append, Text.unquote_doubled hr]
  simp only [String.ofList_toList]

theorem binaryKind_hex (bytes : List UInt8) :
    binaryKind (Text.hex bytes).toList = .binary bytes := by
  have hfilter : (Text.hex bytes).toList.filter (!Text.isBlank ·) = (Text.hex bytes).toList := by
    rw [List.filter_eq_self, Text.toList_hex]
    intro d hd
    obtain ⟨i, hi, rfl⟩ := List.mem_map.1 hd
    simp [Text.isBlank_hexDigit i (Text.lt_of_mem_hexValues hi)]
  have hvalues : (Text.hex bytes).toList.mapM Text.hexValue? = some (Text.hexValues bytes) := by
    rw [Text.toList_hex]
    have hall : ∀ i ∈ Text.hexValues bytes, i < 16 := fun i hi => Text.lt_of_mem_hexValues hi
    generalize Text.hexValues bytes = values at hall
    induction values with
    | nil => rfl
    | cons i values ih =>
      rw [List.map_cons, List.mapM_cons, Text.hexValue?_hexDigit i (hall i (by simp)),
        ih fun j hj => hall j (by simp [hj])]
      rfl
  unfold binaryKind
  rw [hfilter, hvalues]
  simp only [Text.length_hexValues, if_true, Text.pairBytes_hexValues]

theorem scans_binary {bytes : List UInt8} (h : (Kind.binary bytes).Apart cs) :
    Scans ('X' :: (Text.quote Text.stringMark (Text.hex bytes)).toList) (.binary bytes) cs := by
  have hr : cs.head? ≠ some Text.stringMark := head?_ne h rfl
  refine ⟨_, _, rfl, skip_of_continuesWord (by cbv), ?_⟩
  rw [scanOne_other (by decide), scanOther, if_neg (by decide), if_neg (by decide), if_pos]
  · rw [Text.toList_quote, List.cons_append, List.tail_cons, scanBinary, List.append_assoc,
      List.singleton_append, Text.unquote_doubled hr]
    simp only [binaryKind_hex]
  · exact ⟨by decide, by rw [Text.toList_quote]; rfl⟩

/-! ### Numbers -/

theorem continuesWord_of_exponent (h : c.toLower = 'e') : continuesWord c = true := by
  revert h
  refine char_cases (P := fun c => c.toLower = 'e' → continuesWord c = true)
    (by decide) (fun c hc h => ?_) c
  have hlow : c.toLower = c := by
    have hval : ¬ (c.val ≥ 'A'.val ∧ c.val ≤ 'Z'.val) := by
      rintro ⟨-, hle⟩
      have := UInt32.le_iff_toNat_le.1 hle
      change c.val.toNat ≤ 90 at this
      change 128 ≤ c.val.toNat at hc
      omega
    rw [Char.toLower, dif_neg hval]
  rw [hlow] at h
  subst h
  cbv

theorem takeExponent_none (h : ∀ d, cs.head? = some d → continuesWord d = false) :
    takeExponent cs = ([], cs) := by
  cases cs with
  | nil => rfl
  | cons d cs =>
    have hd : d.toLower ≠ 'e' := fun he => by simpa [continuesWord_of_exponent he] using h d rfl
    unfold takeExponent
    simp only [hd, if_false]

theorem takeExponent_some {es : List Char} (hes : IsExponent es)
    (h : ∀ d, cs.head? = some d → d.isDigit = false) : takeExponent (es ++ cs) = (es, cs) := by
  obtain ⟨sign, ds, rfl, hsign, hne, hds⟩ := hes
  obtain ⟨htake, hdrop⟩ := takeWhile_append_stop hds h
  have he : 'E'.toLower = 'e' := by decide
  obtain ⟨d, ds, rfl⟩ := List.exists_cons_of_ne_nil hne
  have hd : d.isDigit = true := hds d (by simp)
  rcases hsign with rfl | rfl
  · have hsigned : (d == '+' || d == '-') = false := by
      cases hc : d == '+' || d == '-' with
      | false => rfl
      | true =>
        rw [Bool.or_eq_true, beq_iff_eq, beq_iff_eq] at hc
        rcases hc with rfl | rfl <;> cases hd
    simp only [List.cons_append, List.nil_append] at htake hdrop ⊢
    rw [takeExponent, if_pos he]
    simp only [hsigned, Bool.false_and, Bool.false_eq_true, if_false, hd, if_true, htake, hdrop]
  · simp only [List.cons_append, List.nil_append] at htake hdrop ⊢
    rw [takeExponent, if_pos he]
    simp only [beq_self_eq_true, Bool.or_true, Bool.true_and, List.head?_cons, Option.any_some, hd,
      if_true, htake, hdrop]

theorem takeFraction_none (h : cs.head? ≠ some '.') : takeFraction cs = ([], cs) := by
  unfold takeFraction
  split
  · simp at h
  · rfl

theorem takeFraction_some {fs : List Char} (hfs : ∀ d ∈ fs, d.isDigit = true)
    (h : ∀ d, cs.head? = some d → d.isDigit = false)
    (hempty : fs = [] → ∀ d, cs.head? = some d → startsWord d = false ∧ d ≠ '.') :
    takeFraction ('.' :: (fs ++ cs)) = ('.' :: fs, cs) := by
  obtain ⟨htake, hdrop⟩ := takeWhile_append_stop hfs h
  have hhead : ((fs ++ cs).head?.any fun c => startsWord c || c == '.') = false := by
    cases fs with
    | nil =>
      cases cs with
      | nil => rfl
      | cons d cs =>
        obtain ⟨hw, hd⟩ := hempty rfl d rfl
        simp [hw, hd]
    | cons d fs =>
      have hd := hfs d (by simp)
      have hw : startsWord d = false := by
        rw [Bool.eq_false_iff]
        exact fun hs => by simp [not_isDigit_of_startsWord hs] at hd
      have hne : d ≠ '.' := by
        rintro rfl
        cases hd
      simp [hw, hne]
  rw [takeFraction, hhead, htake, hdrop]
  rfl

theorem not_startsWord_of_not_continuesWord (h : continuesWord c = false) :
    startsWord c = false := by
  rw [Bool.eq_false_iff]
  exact fun hs => by simp [continuesWord_of_startsWord hs] at h

theorem scanOne_digit (h : c.isDigit = true) : scanOne c cs = scanNumber c cs := by
  obtain ⟨hm, hs, hn⟩ := not_mem_marks_of_continuesWord (continuesWord_of_isDigit h)
  have hx : c.toLower ≠ 'x' := by
    revert h
    refine char_cases (P := fun c => c.isDigit = true → c.toLower ≠ 'x') (by decide)
      (fun c hc h => ?_) c
    exact absurd (toNat_lt_of_isDigit h) (Nat.not_lt.2 hc)
  rw [scanOne_other hm, scanOther, if_neg hs, if_neg hn, if_neg fun hx' => hx hx'.1, if_pos h]

theorem ne_dot_of_isDigit (h : c.isDigit = true) : c ≠ '.' := by
  rintro rfl
  cases h

/-- A run of digits at the start of a number. -/
theorem takeDigits_append {ds : List Char} (hds : ∀ d ∈ ds, d.isDigit = true)
    (h : ∀ d, cs.head? = some d → d.isDigit = false) : Text.takeDigits (ds ++ cs) = (ds, cs) := by
  obtain ⟨htake, hdrop⟩ := takeWhile_append_stop hds h
  rw [Text.takeDigits, htake, hdrop]

theorem not_isDigit_of_not_continuesWord (h : continuesWord c = false) : c.isDigit = false := by
  rw [Bool.eq_false_iff]
  exact fun hd => by simp [continuesWord_of_isDigit hd] at h

theorem scans_whole {ds : List Char} (hds : AllDigits ds)
    (h : ∀ d, cs.head? = some d → continuesWord d = false ∧ d ≠ '.') :
    Scans ds (wholeKind ds) cs := by
  obtain ⟨hne, hdig⟩ := hds
  obtain ⟨c, ds, rfl⟩ := List.exists_cons_of_ne_nil hne
  have hc : c.isDigit = true := hdig c (by simp)
  have hdot : cs.head? ≠ some '.' := fun hd => (h _ hd).2 rfl
  have hdigits : Text.takeDigits (ds ++ cs) = (ds, cs) :=
    takeDigits_append (fun d hd => hdig d (by simp [hd]))
      fun d hd => not_isDigit_of_not_continuesWord (h d hd).1
  refine ⟨c, ds, rfl, skip_of_continuesWord (continuesWord_of_isDigit hc), ?_⟩
  rw [scanOne_digit hc]
  simp only [scanNumber, hdigits, ne_dot_of_isDigit hc, if_false, takeFraction_none hdot,
    takeExponent_none fun d hd => (h d hd).1]
  rfl

theorem scans_fraction {ds fs : List Char} (hds : AllDigits ds) (hfs : ∀ d ∈ fs, d.isDigit = true)
    (h : ∀ d, cs.head? = some d → continuesWord d = false)
    (hdot : fs = [] → cs.head? ≠ some '.') :
    Scans (ds ++ '.' :: fs) (.decimal (String.ofList (ds ++ '.' :: fs))) cs := by
  obtain ⟨hne, hdig⟩ := hds
  obtain ⟨c, ds, rfl⟩ := List.exists_cons_of_ne_nil hne
  have hc : c.isDigit = true := hdig c (by simp)
  have hdigits : Text.takeDigits (ds ++ '.' :: (fs ++ cs)) = (ds, '.' :: (fs ++ cs)) :=
    takeDigits_append (fun d hd => hdig d (by simp [hd])) (by rintro d hd; cases hd; rfl)
  have hfraction := takeFraction_some hfs
    (fun d hd => not_isDigit_of_not_continuesWord (h d hd))
    fun he d hd => ⟨not_startsWord_of_not_continuesWord (h d hd), fun hd' => hdot he (hd' ▸ hd)⟩
  refine ⟨c, ds ++ '.' :: fs, rfl, skip_of_continuesWord (continuesWord_of_isDigit hc), ?_⟩
  rw [scanOne_digit hc, List.append_assoc, List.cons_append]
  simp only [scanNumber, hdigits, ne_dot_of_isDigit hc, if_false, hfraction, takeExponent_none h]
  rfl

theorem scans_point {ds : List Char} (hds : AllDigits ds)
    (h : ∀ d, cs.head? = some d → continuesWord d = false) :
    Scans ('.' :: ds) (.decimal (String.ofList ('.' :: ds))) cs := by
  obtain ⟨hne, hdig⟩ := hds
  refine ⟨'.', ds, rfl, rfl, ?_⟩
  have hhead : (ds ++ cs).head?.any Char.isDigit = true := by
    obtain ⟨d, ds, rfl⟩ := List.exists_cons_of_ne_nil hne
    simp [hdig d (by simp)]
  have hscan : scanOne '.' (ds ++ cs) = scanNumber '.' (ds ++ cs) := by
    simp only [scanOne, hhead, if_true]
  have hdigits : Text.takeDigits (ds ++ cs) = (ds, cs) :=
    takeDigits_append hdig fun d hd => not_isDigit_of_not_continuesWord (h d hd)
  rw [hscan]
  simp only [scanNumber, hdigits, if_true, takeExponent_none h]
  simp

theorem scans_double {ds fs es : List Char} {d : Double} (hds : AllDigits ds)
    (hfs : fs = [] ∨ ∃ f, fs = '.' :: f ∧ AllDigits f) (hes : IsExponent es)
    (hd : Double.ofText? (String.ofList (ds ++ fs ++ es)) = some d)
    (h : ∀ d, cs.head? = some d → continuesWord d = false) :
    Scans (ds ++ fs ++ es) (.double d) cs := by
  obtain ⟨hne, hdig⟩ := hds
  obtain ⟨c, ds, rfl⟩ := List.exists_cons_of_ne_nil hne
  have hc : c.isDigit = true := hdig c (by simp)
  have hexp := takeExponent_some hes fun d hd => not_isDigit_of_not_continuesWord (h d hd)
  obtain ⟨sign, digits, he, -⟩ := id hes
  have hsome : es.isEmpty = false := by simp [he]
  refine ⟨c, ds ++ fs ++ es, rfl, skip_of_continuesWord (continuesWord_of_isDigit hc), ?_⟩
  rw [scanOne_digit hc, List.append_assoc, List.append_assoc]
  have hE : ∀ d, (es ++ cs).head? = some d → d.isDigit = false ∧ d ≠ '.' := by
    rintro d hd
    rw [he] at hd
    cases hd
    exact ⟨rfl, by decide⟩
  have hfraction : takeFraction (fs ++ (es ++ cs)) = (fs, es ++ cs) := by
    rcases hfs with rfl | ⟨f, rfl, hf⟩
    · exact takeFraction_none fun hd => (hE _ hd).2 rfl
    · exact takeFraction_some hf.2 (fun d hd => (hE d hd).1) fun he => absurd he hf.1
  have hstop : ∀ d, (fs ++ (es ++ cs)).head? = some d → d.isDigit = false := by
    rcases hfs with rfl | ⟨f, rfl, hf⟩
    · exact fun d hd => (hE d hd).1
    · rintro d hd
      cases hd
      rfl
  have hdigits : Text.takeDigits (ds ++ (fs ++ (es ++ cs))) = (ds, fs ++ (es ++ cs)) :=
    takeDigits_append (fun d hd => hdig d (by simp [hd])) hstop
  simp only [scanNumber, hdigits, ne_dot_of_isDigit hc, if_false, hfraction, hexp, hsome,
    Bool.not_false, if_true]
  simp only [List.cons_append] at hd ⊢
  rw [hd]
  rfl

theorem number_eq (n : Nat) (h : n ≤ maxInteger) :
    wholeKind (Nat.toDigits 10 n) = .number n := by
  rw [wholeKind, Text.digitsValue_toDigits, if_pos h]

theorem scans_decimal {text : String} (hd : IsDecimal text) (h : (Kind.decimal text).Apart cs) :
    Scans text.toList (.decimal text) cs := by
  have hword : ∀ d, cs.head? = some d → continuesWord d = false := by
    intro d hd
    have := h d hd
    simp only [Kind.apart, Bool.and_eq_true, Bool.not_eq_true'] at this
    exact this.1
  have hdot : text.toList.dropLast.contains '.' = false → cs.head? ≠ some '.' := by
    intro hc hd
    have := h _ hd
    rw [Kind.apart, hc] at this
    simp at this
  have hlist : text = String.ofList text.toList := String.ofList_toList.symm
  rcases hd with ⟨ds, fs, hds, hfs, ht⟩ | ⟨ds, hds, ht⟩ | ⟨hds, hlarge⟩
  · rw [hlist, String.toList_ofList, ht]
    refine scans_fraction hds hfs hword fun he => hdot ?_
    rw [ht, he, List.dropLast_concat]
    simp only [List.contains_eq_mem, decide_eq_false_iff_not]
    intro hmem
    exact ne_dot_of_isDigit (hds.2 _ hmem) rfl
  · rw [hlist, String.toList_ofList, ht]
    exact scans_point hds hword
  · have hkind : wholeKind text.toList = .decimal text := by
      rw [wholeKind, if_neg (Nat.not_le.2 hlarge), ← hlist]
    rw [← hkind]
    refine scans_whole hds fun d hd => ⟨hword d hd, ?_⟩
    rintro rfl
    refine hdot ?_ hd
    simp only [List.contains_eq_mem, decide_eq_false_iff_not]
    intro hmem
    exact ne_dot_of_isDigit (hds.2 _ ((List.dropLast_sublist _).mem hmem)) rfl

/-- The scanner reads a token that is spelled out. -/
theorem Spelling.scans (hw : Spelling w k) (h : k.Apart cs) : Scans w k cs := by
  cases hw with
  | symbol s hs => exact scans_symbol hs h
  | word hw => exact scans_word hw h
  | name ht => exact scans_name ht h
  | string text => exact scans_string h
  | binary bytes => exact scans_binary h
  | integer hn =>
    rw [Text.toList_decimal, ← number_eq _ hn]
    refine scans_whole (allDigits_toDigits _) fun d hd => ?_
    simpa [Kind.apart] using h d hd
  | decimal hd => exact scans_decimal hd h
  | double hds hfs hes hd =>
    refine scans_double hds hfs hes hd fun d hd => ?_
    simpa [Kind.apart] using h d hd

/-! ### Tokens and what shifts lines -/

section

variable {margin : List Char}

theorem padFrom_quote {mark : Char} (hmark : mark = Text.stringMark ∨ mark = Text.nameMark)
    (text : String) : Text.padFrom margin none ((Text.quote mark text).toList ++ cs) =
      (Text.quote mark text).toList ++ Text.padFrom margin none cs := by
  rw [Text.toList_quote]
  simp only [List.cons_append, List.append_assoc, List.nil_append]
  rw [Text.padFrom_open hmark, Text.padFrom_doubled hmark]

theorem plain_of_continuesWord (h : continuesWord c = true) :
    c ≠ '\n' ∧ c ≠ Text.stringMark ∧ c ≠ Text.nameMark := by
  refine ⟨?_, (not_mem_marks_of_continuesWord h).2⟩
  rintro rfl
  revert h
  decide

theorem plain_of_isDigit (h : c.isDigit = true) :
    c ≠ '\n' ∧ c ≠ Text.stringMark ∧ c ≠ Text.nameMark :=
  plain_of_continuesWord (continuesWord_of_isDigit h)

theorem plain_dot : '.' ≠ '\n' ∧ '.' ≠ Text.stringMark ∧ '.' ≠ Text.nameMark := by decide

theorem plain_of_isExponent (h : IsExponent w) :
    ∀ d ∈ w, d ≠ '\n' ∧ d ≠ Text.stringMark ∧ d ≠ Text.nameMark := by
  obtain ⟨sign, ds, rfl, hsign, -, hds⟩ := h
  intro d hd
  rcases List.mem_cons.1 hd with rfl | hd
  · decide
  rcases List.mem_append.1 hd with hd | hd
  · rcases hsign with rfl | rfl
    · cases hd
    · rw [List.mem_singleton.1 hd]
      decide
  · exact plain_of_isDigit (hds d hd)

/-- Shifting lines leaves tokens as they are. -/
theorem Spelling.padFrom (hw : Spelling w k) :
    Text.padFrom margin none (w ++ cs) = w ++ Text.padFrom margin none cs := by
  cases hw with
  | symbol s hs =>
    have hall : s.text.toList.all (fun d =>
        d ≠ '\n' && d ≠ Text.stringMark && d ≠ Text.nameMark) = true := by
      cases s <;> cbv
    refine Text.padFrom_plain fun d hd => ?_
    simpa [and_assoc] using List.all_eq_true.1 hall d hd
  | word hw =>
    obtain ⟨d, ds, rfl, hd, hds⟩ := hw
    refine Text.padFrom_plain fun e he => plain_of_continuesWord ?_
    rcases List.mem_cons.1 he with rfl | he
    · exact continuesWord_of_startsWord hd
    · exact hds e he
  | name ht => exact padFrom_quote (.inr rfl) _
  | string text => exact padFrom_quote (.inl rfl) text
  | binary bytes =>
    have hX : Text.openMark none 'X' = none := rfl
    rw [List.cons_append, Text.padFrom, hX, if_neg (by decide), padFrom_quote (.inl rfl)]
    rfl
  | integer hn =>
    rw [Text.toList_decimal]
    exact Text.padFrom_plain fun d hd => plain_of_isDigit ((allDigits_toDigits _).2 d hd)
  | decimal hd =>
    refine Text.padFrom_plain fun d hmem => ?_
    rcases hd with ⟨ds, fs, hds, hfs, ht⟩ | ⟨ds, hds, ht⟩ | ⟨hds, -⟩
    · rw [ht] at hmem
      rcases List.mem_append.1 hmem with hmem | hmem
      · exact plain_of_isDigit (hds.2 d hmem)
      rcases List.mem_cons.1 hmem with rfl | hmem
      · exact plain_dot
      · exact plain_of_isDigit (hfs d hmem)
    · rw [ht] at hmem
      rcases List.mem_cons.1 hmem with rfl | hmem
      · exact plain_dot
      · exact plain_of_isDigit (hds.2 d hmem)
    · exact plain_of_isDigit (hds.2 d hmem)
  | double hds hfs hes hd =>
    refine Text.padFrom_plain fun d hmem => ?_
    rcases List.mem_append.1 hmem with hmem | hmem
    · rcases List.mem_append.1 hmem with hmem | hmem
      · exact plain_of_isDigit (hds.2 d hmem)
      · rcases hfs with rfl | ⟨f, rfl, hf⟩
        · cases hmem
        rcases List.mem_cons.1 hmem with rfl | hmem
        · exact plain_dot
        · exact plain_of_isDigit (hf.2 d hmem)
    · exact plain_of_isExponent hes d hmem

end

end Token

end Sql
