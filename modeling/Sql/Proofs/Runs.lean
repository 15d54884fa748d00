import Mathlib.Data.List.Chain
import Sql.Proofs.Spells

/-! Runs of unquoted characters: the scanner cuts a run into the same tokens wherever it stands, if
what follows stops every token. -/
namespace Sql.Token

/-- The kinds of the tokens of a list of characters. -/
def kindsOf (cs : List Char) : List Kind := (scanFrom 0 cs).map (·.kind)

/-- The kinds of all tokens of a text, the mark of its end included. -/
def kindsAll (text : String) : List Kind := (scanAll text).map (·.kind)

theorem kindsOf_eq (cs : List Char) :
    kindsOf cs = match skip .blank cs with
      | [] => []
      | c :: rest => (scanOne c rest).1 :: kindsOf (scanOne c rest).2 := by
  unfold kindsOf
  rw [scanFrom]
  split <;> split <;> simp_all

/-- Where a token stands does not change its kind. -/
theorem kinds_scanFrom (total : Nat) (cs : List Char) :
    (scanFrom total cs).map (·.kind) = kindsOf cs := by
  induction h : cs.length using Nat.strongRecOn generalizing cs with
  | _ n ih =>
    subst h
    rw [scanFrom, kindsOf_eq]
    split
    · rename_i hskip
      rw [hskip]
      rfl
    · rename_i c rest hskip
      have hlen := skip_length .blank cs
      have hone := scanOne_length c rest
      simp only [hskip, List.length_cons] at hlen
      have hrest := ih _ (by omega) (scanOne c rest).2 rfl
      simp only [hskip, List.map_cons, hrest]

/-- A character of a run: neither blank nor a quote. -/
def isInner (c : Char) : Bool := !Text.isBlank c && c ≠ Text.stringMark && c ≠ Text.nameMark

/-- Does the character start a comment with the one behind it? -/
def opensComment (c d : Char) : Bool := (c == '-' && d == '-') || (c == '/' && d == '*')

/-- Characters that end every token of a run. -/
def isStop (c : Char) : Bool := neutral c || c == Text.nameMark

/-- A run in which no comment starts. -/
structure IsRun (w : List Char) : Prop where
  inner : ∀ c ∈ w, isInner c = true
  noComment : w.IsChain (fun c d => opensComment c d = false)

def Stops (rest : List Char) : Prop := ∀ d, rest.head? = some d → isStop d = true

theorem stops_facts {d : Char} (h : isStop d = true) :
    continuesWord d = false ∧ d ≠ '.' ∧ d ≠ '+' ∧ d ≠ '-' ∧ d ≠ Text.stringMark ∧ d ≠ '*' ∧
      d ≠ '>' ∧ d ≠ '=' ∧ d ≠ '|' := by
  have hd : d = ' ' ∨ d = '\n' ∨ d = '(' ∨ d = ')' ∨ d = '[' ∨ d = ']' ∨ d = ',' ∨
      d = Text.nameMark := by
    simpa [isStop, neutral, or_assoc] using h
  rcases hd with rfl | rfl | rfl | rfl | rfl | rfl | rfl | rfl <;> cbv

section

variable {w rest : List Char} {c d : Char}

theorem Stops.head {d : Char} (h : Stops (d :: rest)) : isStop d = true := h d rfl

theorem IsRun.tail (h : IsRun (c :: w)) : IsRun w :=
  ⟨fun d hd => h.inner d (by simp [hd]), h.noComment.tail⟩

theorem IsRun.suffix {v : List Char} (h : IsRun w) (hv : v <:+ w) : IsRun v :=
  ⟨fun d hd => h.inner d (hv.subset hd), h.noComment.suffix hv⟩

theorem takeWhile_append_stops {p : Char → Bool} (hp : ∀ d, isStop d = true → p d = false)
    (h : Stops rest) : (w ++ rest).takeWhile p = w.takeWhile p ∧
      (w ++ rest).dropWhile p = w.dropWhile p ++ rest := by
  induction w with
  | nil =>
    cases rest with
    | nil => simp
    | cons d rest =>
      have hd := hp d h.head
      simp [hd]
  | cons c w ih =>
    cases hc : p c <;> simp [hc, ih]

/-- The scanner `f` treats the characters of `w` alike at the end of the text and before `rest`. -/
def Local (f : List Char → List Char × List Char) (w rest : List Char) : Prop :=
  f (w ++ rest) = ((f w).1, (f w).2 ++ rest)

theorem takeDigits_local (h : Stops rest) : Local Text.takeDigits w rest := by
  have hdigit : ∀ d, isStop d = true → d.isDigit = false :=
    fun d hd => not_isDigit_of_not_continuesWord (stops_facts hd).1
  obtain ⟨htake, hdrop⟩ := takeWhile_append_stops hdigit h (w := w)
  rw [Local, Text.takeDigits, htake, hdrop]
  rfl

theorem any_head?_append {p : Char → Bool} (hp : ∀ d, isStop d = true → p d = false)
    (h : Stops rest) : (w ++ rest).head?.any p = w.head?.any p := by
  cases w with
  | nil =>
    cases rest with
    | nil => rfl
    | cons d rest => simp [hp d h.head]
  | cons c w => rfl

theorem takeFraction_local (h : Stops rest) : Local takeFraction w rest := by
  cases w with
  | nil =>
    have hne : rest.head? ≠ some '.' := fun hd => (stops_facts (h _ hd)).2.1 rfl
    rw [Local, List.nil_append, takeFraction_none hne]
    rfl
  | cons c w =>
    by_cases hc : c = '.'
    · subst hc
      have hstart : ∀ d, isStop d = true → (startsWord d || d == '.') = false := by
        intro d hd
        have hfacts := stops_facts hd
        simp [not_startsWord_of_not_continuesWord hfacts.1, hfacts.2.1]
      have hdigit : ∀ d, isStop d = true → d.isDigit = false :=
        fun d hd => not_isDigit_of_not_continuesWord (stops_facts hd).1
      obtain ⟨htake, hdrop⟩ := takeWhile_append_stops hdigit h (w := w)
      rw [Local, List.cons_append, takeFraction, takeFraction, any_head?_append hstart h, htake,
        hdrop]
      split <;> rfl
    · have hne : ∀ cs, (c :: cs).head? ≠ some '.' := by simpa using hc
      rw [Local, List.cons_append, takeFraction_none (hne _), takeFraction_none (hne _)]
      rfl

theorem takeExponent_local (h : Stops rest) : Local takeExponent w rest := by
  have hdigit : ∀ d, isStop d = true → d.isDigit = false :=
    fun d hd => not_isDigit_of_not_continuesWord (stops_facts hd).1
  match w with
  | [] =>
    rw [Local, List.nil_append, takeExponent_none fun d hd => (stops_facts (h d hd)).1]
    rfl
  | [c] =>
    cases rest with
    | nil => simp [Local]
    | cons d rest =>
      have hfacts := stops_facts h.head
      have hsign : (d == '+' || d == '-') = false := by simp [hfacts]
      have hd := hdigit d h.head
      by_cases hc : c.toLower = 'e' <;>
        simp [Local, takeExponent, hc, hsign, hd]
  | c :: s :: w =>
    obtain ⟨htake, hdrop⟩ := takeWhile_append_stops hdigit h (w := w)
    obtain ⟨htake', hdrop'⟩ := takeWhile_append_stops hdigit h (w := s :: w)
    rw [List.cons_append] at htake' hdrop'
    simp only [Local, List.cons_append, takeExponent, any_head?_append hdigit h, htake, hdrop,
      htake', hdrop']
    split
    · split
      · rfl
      · split <;> rfl
    · rfl

theorem takeFraction_suffix (w : List Char) : (takeFraction w).2 <:+ w := by
  unfold takeFraction
  split
  · split
    · exact List.suffix_refl _
    · exact (List.dropWhile_suffix _).trans (List.suffix_cons _ _)
  · exact List.suffix_refl _

theorem takeExponent_suffix (w : List Char) : (takeExponent w).2 <:+ w := by
  unfold takeExponent
  split
  · exact List.suffix_refl _
  · split
    · split
      · split
        · exact ((List.dropWhile_suffix _).trans (List.suffix_cons _ _)).trans
            (List.suffix_cons _ _)
        · split
          · exact (List.dropWhile_suffix _).trans (List.suffix_cons _ _)
          · exact List.suffix_refl _
      · exact List.suffix_refl _
    · exact List.suffix_refl _

/-- Kinds without a quoted text. -/
def Kind.isUnquoted : Kind → Bool
  | .string _ => false
  | .ident x => !x.delimited
  | _ => true

/-- The scanner `f` finds in `w` before `rest` the token that it finds in `w` alone. -/
structure Cuts (f : List Char → Kind × List Char) (w rest : List Char) : Prop where
  same : f (w ++ rest) = ((f w).1, (f w).2 ++ rest)
  suffix : (f w).2 <:+ w
  unquoted : (f w).1.isUnquoted = true

/-- A token that ends within the run. -/
theorem Cuts.fixed {f : List Char → Kind × List Char} {v : List Char} {k : Kind}
    (h : f w = (k, v)) (h' : f (w ++ rest) = (k, v ++ rest)) (hv : v <:+ w)
    (hk : k.isUnquoted = true) : Cuts f w rest := by
  refine ⟨?_, ?_, ?_⟩ <;> rw [h]
  · exact h'
  · exact hv
  · exact hk

theorem isUnquoted_wordKind (text : String) : (wordKind text).isUnquoted = true := by
  unfold wordKind
  split <;> rfl

theorem isUnquoted_wholeKind (ds : List Char) : (wholeKind ds).isUnquoted = true := by
  simp only [wholeKind]
  split <;> rfl

theorem scanWord_cuts (h : Stops rest) : Cuts (scanWord c) w rest := by
  have hword : ∀ d, isStop d = true → continuesWord d = false := fun d hd => (stops_facts hd).1
  obtain ⟨htake, hdrop⟩ := takeWhile_append_stops hword h (w := w)
  refine .fixed rfl ?_ (List.dropWhile_suffix _) (isUnquoted_wordKind _)
  rw [scanWord, htake, hdrop]

theorem scanNumber_cuts (h : Stops rest) : Cuts (scanNumber c) w rest := by
  have hdigits : Text.takeDigits (w ++ rest) = _ := takeDigits_local h
  have hsuffix : (Text.takeDigits w).2 <:+ w := List.dropWhile_suffix _
  by_cases hc : c = '.'
  · have hexp : takeExponent ((Text.takeDigits w).2 ++ rest) = _ := takeExponent_local h
    refine ⟨?_, ?_, ?_⟩
    · simp only [scanNumber, hdigits, hc, if_true, hexp]
    · simp only [scanNumber, hc, if_true]
      exact (takeExponent_suffix _).trans hsuffix
    · simp only [scanNumber, hc, if_true]
      split <;> rfl
  · have hfrac : takeFraction ((Text.takeDigits w).2 ++ rest) = _ := takeFraction_local h
    have hexp : takeExponent ((takeFraction (Text.takeDigits w).2).2 ++ rest) = _ :=
      takeExponent_local h
    refine ⟨?_, ?_, ?_⟩
    · simp only [scanNumber, hdigits, hc, if_false, hfrac, hexp]
    · simp only [scanNumber, hc, if_false]
      exact ((takeExponent_suffix _).trans (takeFraction_suffix _)).trans hsuffix
    · simp only [scanNumber, hc, if_false]
      split
      · rfl
      · split
        · rfl
        · exact isUnquoted_wholeKind _

theorem scanOther_cuts (hrun : IsRun (c :: w)) (h : Stops rest) : Cuts (scanOther c) w rest := by
  have hc := hrun.inner c (by simp)
  simp only [isInner, Bool.and_eq_true, decide_eq_true_eq] at hc
  have hbinary : ∀ cs, cs = w ∨ cs = w ++ rest →
      ¬ (c.toLower = 'x' ∧ cs.head? = some Text.stringMark) := by
    rintro cs hcs ⟨-, hx⟩
    cases w with
    | nil =>
      rcases hcs with rfl | rfl
      · cases hx
      · exact (stops_facts (h _ hx)).2.2.2.2.1 rfl
    | cons d w =>
      obtain rfl : d = Text.stringMark := by
        rcases hcs with rfl | rfl <;> cases hx <;> rfl
      have := hrun.inner Text.stringMark (by simp)
      simp [isInner] at this
  have hcases : ∀ cs, cs = w ∨ cs = w ++ rest → scanOther c cs =
      if c.isDigit then scanNumber c cs
      else if startsWord c then scanWord c cs else (.error (.unexpectedCharacter c), cs) := by
    intro cs hcs
    rw [scanOther, if_neg hc.1.2, if_neg hc.2, if_neg (hbinary cs hcs)]
  have hw := hcases w (.inl rfl)
  have hrest := hcases (w ++ rest) (.inr rfl)
  by_cases hd : c.isDigit = true
  · simp only [hd, if_true] at hw hrest
    have hcuts := scanNumber_cuts h (c := c) (w := w)
    exact .fixed (hw.trans rfl) (hrest.trans hcuts.same) hcuts.suffix hcuts.unquoted
  · by_cases hs : startsWord c = true
    · simp only [hd, hs, if_true, Bool.false_eq_true, if_false] at hw hrest
      have hcuts := scanWord_cuts h (c := c) (w := w)
      exact .fixed (hw.trans rfl) (hrest.trans hcuts.same) hcuts.suffix hcuts.unquoted
    · simp only [hd, hs, Bool.false_eq_true, if_false] at hw hrest
      exact .fixed hw hrest (List.suffix_refl _) rfl

/-- Marks that may be taken together with the next character. -/
def nextMark? (c d : Char) : Option Symbol :=
  match c, d with
  | '-', '>' => some .arrow
  | '<', '=' => some .le
  | '<', '>' => some .ne
  | '>', '=' => some .ge
  | '!', '=' => some .ne
  | '|', '|' => some .concat
  | _, _ => none

theorem nextMark?_stop (hd : isStop d = true) : nextMark? c d = none := by
  have hfacts := stops_facts hd
  unfold nextMark?
  split <;> simp_all

/-- A mark that looks at the next character only. -/
theorem cuts_of_nextMark {f : List Char → Kind × List Char} {k : Kind} (h : Stops rest)
    (hnil : f [] = (k, []))
    (hcons : ∀ d cs, f (d :: cs) = match nextMark? c d with
      | some s => (.symbol s, cs)
      | none => (k, d :: cs))
    (hk : k.isUnquoted = true) : Cuts f w rest := by
  cases w with
  | nil =>
    refine .fixed hnil ?_ (List.suffix_refl _) hk
    cases rest with
    | nil => exact hnil
    | cons d rest => rw [List.nil_append, hcons, nextMark?_stop h.head]
  | cons d w =>
    have hw := hcons d w
    have hrest := hcons d (w ++ rest)
    cases hd : nextMark? c d with
    | none =>
      rw [hd] at hw hrest
      exact .fixed hw hrest (List.suffix_refl _) hk
    | some s =>
      rw [hd] at hw hrest
      exact .fixed hw hrest (List.suffix_cons _ _) rfl

theorem scanOne_dot_cuts (h : Stops rest) : Cuts (scanOne '.') w rest := by
  have hdigit : ∀ d, isStop d = true → d.isDigit = false :=
    fun d hd => not_isDigit_of_not_continuesWord (stops_facts hd).1
  have hdot : ∀ cs, scanOne '.' cs =
      if cs.head?.any Char.isDigit then scanNumber '.' cs else (.symbol .dot, cs) := fun cs => rfl
  have hrest := hdot (w ++ rest)
  rw [any_head?_append hdigit h] at hrest
  cases hany : w.head?.any Char.isDigit with
  | true =>
    have hcuts := scanNumber_cuts h (c := '.') (w := w)
    rw [hany] at hrest
    exact .fixed (by rw [hdot, hany]; rfl) (hrest.trans hcuts.same) hcuts.suffix hcuts.unquoted
  | false =>
    rw [hany] at hrest
    exact .fixed (by rw [hdot, hany]; rfl) hrest (List.suffix_refl _) rfl

theorem scanOne_nextMark (hc : c ∈ ['-', '<', '>', '!', '|']) :
    ∃ k : Kind, k.isUnquoted = true ∧ scanOne c [] = (k, []) ∧
      ∀ d cs, scanOne c (d :: cs) = match nextMark? c d with
        | some s => (.symbol s, cs)
        | none => (k, d :: cs) := by
  simp only [List.mem_cons, List.not_mem_nil, or_false] at hc
  rcases hc with rfl | rfl | rfl | rfl | rfl
  · refine ⟨.symbol .minus, rfl, rfl, fun d cs => ?_⟩
    by_cases hd : d = '>'
    · subst hd
      rfl
    · unfold scanOne nextMark?
      split <;> simp_all
  · refine ⟨.symbol .lt, rfl, rfl, fun d cs => ?_⟩
    unfold scanOne nextMark?
    split <;> simp_all
  · refine ⟨.symbol .gt, rfl, rfl, fun d cs => ?_⟩
    unfold scanOne nextMark?
    split <;> simp_all
  · refine ⟨.error (.unexpectedCharacter '!'), rfl, rfl, fun d cs => ?_⟩
    have hother : scanOther '!' (d :: cs) = (.error (.unexpectedCharacter '!'), d :: cs) := rfl
    unfold scanOne nextMark?
    split <;> simp_all
  · refine ⟨.error (.unexpectedCharacter '|'), rfl, rfl, fun d cs => ?_⟩
    have hother : scanOther '|' (d :: cs) = (.error (.unexpectedCharacter '|'), d :: cs) := rfl
    unfold scanOne nextMark?
    split <;> simp_all

/-- These marks are tokens of their own, whatever follows. -/
theorem scanOne_single (hc : c ∈ ['(', ')', '[', ']', ',', ';', '+', '*', '/', '%', '?', '=']) :
    ∃ s : Symbol, ∀ cs, scanOne c cs = (.symbol s, cs) := by
  simp only [List.mem_cons, List.not_mem_nil, or_false] at hc
  rcases hc with rfl | rfl | rfl | rfl | rfl | rfl | rfl | rfl | rfl | rfl | rfl | rfl <;>
    exact ⟨_, fun _ => rfl⟩

theorem not_mem_marks (hsingle : c ∉ ['(', ')', '[', ']', ',', ';', '+', '*', '/', '%', '?', '='])
    (hnext : c ∉ ['-', '<', '>', '!', '|']) (hdot : c ≠ '.') : c ∉ marks := by
  have hmarks : marks = ['(', ')', '[', ']', ',', ';', '+', '*', '/', '%', '?', '='] ++
      ['-', '<', '>', '!', '|'] ++ ['.'] := by decide
  rw [hmarks, List.mem_append, List.mem_append, List.mem_singleton]
  exact fun h => h.elim (fun h => h.elim hsingle hnext) hdot

/-- Every token of a run is found in the same way before what follows the run. -/
theorem scanOne_cuts (hrun : IsRun (c :: w)) (h : Stops rest) : Cuts (scanOne c) w rest := by
  by_cases hnext : c ∈ ['-', '<', '>', '!', '|']
  · obtain ⟨k, hk, hnil, hcons⟩ := scanOne_nextMark hnext
    exact cuts_of_nextMark h hnil hcons hk
  by_cases hdot : c = '.'
  · subst hdot
    exact scanOne_dot_cuts h
  by_cases hsingle : c ∈ ['(', ')', '[', ']', ',', ';', '+', '*', '/', '%', '?', '=']
  · obtain ⟨s, hs⟩ := scanOne_single hsingle
    exact .fixed (hs w) (hs _) (List.suffix_refl _) rfl
  · have hm := not_mem_marks hsingle hnext hdot
    have hcuts := scanOther_cuts hrun h
    exact .fixed (scanOne_other hm) ((scanOne_other hm).trans hcuts.same) hcuts.suffix
      hcuts.unquoted

/-- Nothing is dropped in front of a character that is no blank and opens no comment. -/
theorem skip_start (hblank : Text.isBlank c = false)
    (hopen : ∀ d, rest.head? = some d → opensComment c d = false) :
    skip .blank (c :: rest) = c :: rest := by
  rw [skip]
  · simp [hblank]
  · rintro cs rfl rfl
    have := hopen '-' rfl
    simp [opensComment] at this
  · rintro cs rfl rfl
    have := hopen '*' rfl
    simp [opensComment] at this

theorem skip_blanks (h : ∀ c ∈ w, Text.isBlank c = true) :
    skip .blank (w ++ rest) = skip .blank rest := by
  induction w with
  | nil => rfl
  | cons c w ih =>
    obtain ⟨hc, hw⟩ := List.forall_mem_cons.1 h
    rw [List.cons_append, skip, if_pos hc, ih hw]
    · rintro ds rfl
      exact absurd hc (by decide)
    · rintro ds rfl
      exact absurd hc (by decide)

theorem skip_run (hrun : IsRun (c :: w)) (h : Stops rest) :
    skip .blank (c :: (w ++ rest)) = c :: (w ++ rest) := by
  refine skip_start ?_ ?_
  · have := hrun.inner c (by simp)
    simp only [isInner, Bool.and_eq_true, Bool.not_eq_true'] at this
    exact this.1.1
  · intro d hd
    cases w with
    | nil =>
      have hfacts := stops_facts (h d hd)
      simp [opensComment, hfacts]
    | cons e w =>
      cases hd
      exact (List.isChain_cons_cons.1 hrun.noComment).1

/-- A run gives its tokens before whatever follows it. -/
theorem kindsOf_run (hrun : IsRun w) (h : Stops rest) :
    kindsOf (w ++ rest) = kindsOf w ++ kindsOf rest := by
  induction hn : w.length using Nat.strongRecOn generalizing w with
  | _ n ih =>
    cases w with
    | nil =>
      have hnil : kindsOf [] = [] := by rw [kindsOf_eq]; rfl
      rw [hnil]
      rfl
    | cons c w =>
      have hcuts := scanOne_cuts hrun h
      have hstops : Stops ([] : List Char) := nofun
      have hlen := hcuts.suffix.length_le
      have hshort : (scanOne c w).2.length < n := by
        rw [← hn, List.length_cons]
        omega
      have hskip := skip_run hrun hstops
      rw [List.append_nil] at hskip
      have hrest := ih _ hshort (hrun.tail.suffix hcuts.suffix) rfl
      rw [List.cons_append, kindsOf_eq, skip_run hrun h, kindsOf_eq (c :: w), hskip]
      simp only [hcuts.same, hrest, List.cons_append]

/-- The tokens of a run carry no quoted text. -/
theorem isUnquoted_of_mem_kindsOf {k : Kind} (hrun : IsRun w) (hk : k ∈ kindsOf w) :
    k.isUnquoted = true := by
  induction hn : w.length using Nat.strongRecOn generalizing w with
  | _ n ih =>
    cases w with
    | nil =>
      rw [kindsOf_eq] at hk
      cases hk
    | cons c w =>
      have hstops : Stops ([] : List Char) := nofun
      have hcuts := scanOne_cuts hrun hstops
      have hskip := skip_run hrun hstops
      rw [List.append_nil] at hskip
      rw [kindsOf_eq, hskip] at hk
      rcases List.mem_cons.1 hk with rfl | hk
      · exact hcuts.unquoted
      · have hlen := hcuts.suffix.length_le
        have hshort : (scanOne c w).2.length < n := by
          rw [← hn, List.length_cons]
          omega
        exact ih _ hshort (hrun.tail.suffix hcuts.suffix) hk rfl

end

end Sql.Token
