import Sql.Proofs.Tiling

/-! Shifting a text to the right moves nothing but blanks. Where no comment stands in the text, all
tokens keep their characters and every gap gets the margin behind its line breaks: the quote mark
that is open while the text is shifted is the one that the scanner looks for. -/
namespace Sql

open Text (padFrom padFrom_plain padFrom_cons padFrom_doubled padFrom_unterminated head?_padFrom
  padFrom_nil padFrom_open openMark openMark_none stringMark nameMark isBlank indentLines)
open Token (kindsAll)

namespace Token

/-- The characters of every token; the mark of the end has none. -/
def words (text : String) : List String := (scanAll text).map (·.span.slice text)

/-- No comment stands in the text: all that is skipped is blank. -/
def Uncommented (text : String) : Prop := ∀ gap ∈ gaps text, ∀ c ∈ gap.toList, isBlank c = true

/-! ### Scanners and shifted text -/

variable {α β : Type} {mark : Option Char} {cs w : List Char} {c d : Char} {k : Kind}
  {f : List Char → α × List Char} {g : List Char → β × List Char}

/-- The scanner `f` takes the same from the front of `cs` and of the shifted `cs`, and nothing of
what it takes is shifted. Behind it no quote is open; in front of it `mark` is. -/
structure Keeps (mark : Option Char) (f : List Char → α × List Char) (cs : List Char) : Prop where
  word : ∃ w, cs = w ++ (f cs).2 ∧
    ∀ margin, padFrom margin mark cs = w ++ padFrom margin none (f cs).2
  same : ∀ margin, f (padFrom margin mark cs) = ((f cs).1, padFrom margin none (f cs).2)

namespace Keeps

/-- A scanner that takes nothing. -/
theorem stay {a : α} (h : ∀ margin, f (padFrom margin none cs) = (a, padFrom margin none cs)) :
    Keeps none f cs := by
  have hcs := h []
  rw [padFrom_nil] at hcs
  refine ⟨⟨[], ?_, ?_⟩, ?_⟩ <;> simp [hcs, h]

/-- A scanner that is another one on the text, however it is shifted. -/
theorem congr {g : List Char → α × List Char} (h : Keeps mark f cs)
    (hg : ∀ margin, g (padFrom margin mark cs) = f (padFrom margin mark cs)) : Keeps mark g cs := by
  have hcs := hg []
  rw [padFrom_nil] at hcs
  refine ⟨?_, ?_⟩
  · rw [hcs]
    exact h.word
  · intro margin
    rw [hg, hcs]
    exact h.same margin

/-- A scanner that goes on behind characters that are neither line breaks nor quote marks. -/
theorem behind {r : β → α} (hw : ∀ d ∈ w, d ≠ '\n' ∧ d ≠ stringMark ∧ d ≠ nameMark)
    (h : Keeps none g cs)
    (hf : ∀ margin, f (w ++ padFrom margin none cs) =
      (r (g (padFrom margin none cs)).1, (g (padFrom margin none cs)).2)) :
    Keeps none f (w ++ cs) := by
  have hcs := hf []
  rw [padFrom_nil] at hcs
  obtain ⟨v, hv, hpad⟩ := h.word
  refine ⟨⟨w ++ v, ?_, ?_⟩, ?_⟩
  · rw [hcs, List.append_assoc, ← hv]
  · intro margin
    rw [hcs, padFrom_plain hw, hpad, List.append_assoc]
  · intro margin
    rw [hcs, padFrom_plain hw, hf, h.same]

/-- Two scanners, one behind the other. -/
theorem trans (hf : Keeps mark f cs) (hg : Keeps none g (f cs).2) :
    Keeps mark (fun cs => (((f cs).1, (g (f cs).2).1), (g (f cs).2).2)) cs := by
  obtain ⟨v, hv, hpad⟩ := hf.word
  obtain ⟨w, hw, hpad'⟩ := hg.word
  refine ⟨⟨v ++ w, ?_, ?_⟩, ?_⟩
  · rw [List.append_assoc, ← hw, ← hv]
  · intro margin
    rw [hpad, hpad', List.append_assoc]
  · intro margin
    simp only [hf.same, hg.same]

end Keeps

/-! ### Words and numbers -/

/-- The characters at the front that `p` holds of. -/
theorem keeps_span {p : Char → Bool} (r : List Char → α)
    (hp : ∀ d, p d = true → d ≠ '\n' ∧ d ≠ stringMark ∧ d ≠ nameMark) :
    Keeps none (fun cs => (r (cs.takeWhile p), cs.dropWhile p)) cs := by
  have hplain : ∀ d ∈ cs.takeWhile p, d ≠ '\n' ∧ d ≠ stringMark ∧ d ≠ nameMark :=
    fun d hd => hp d (forall_mem_takeWhile p cs d hd)
  have hpad : ∀ margin, padFrom margin none cs =
      cs.takeWhile p ++ padFrom margin none (cs.dropWhile p) := by
    intro margin
    rw [← padFrom_plain hplain, List.takeWhile_append_dropWhile]
  refine ⟨⟨_, List.takeWhile_append_dropWhile.symm, hpad⟩, ?_⟩
  intro margin
  have hstop : ∀ d, (padFrom margin none (cs.dropWhile p)).head? = some d → p d = false := by
    intro d hd
    rw [head?_padFrom] at hd
    have h := List.head?_dropWhile_not p cs
    rw [hd] at h
    simpa using h
  obtain ⟨htake, hdrop⟩ := takeWhile_append_stop (forall_mem_takeWhile p cs) hstop
  simp only [hpad, htake, hdrop]

theorem keeps_scanWord : Keeps none (scanWord c) cs :=
  keeps_span (fun w => wordKind (String.ofList (c :: w))) fun _ => plain_of_continuesWord

theorem keeps_takeDigits : Keeps none Text.takeDigits cs := keeps_span id fun _ => plain_of_isDigit

theorem keeps_takeFraction : Keeps none takeFraction cs := by
  by_cases hdot : cs.head? = some '.'
  · obtain ⟨cs, rfl⟩ := List.head?_eq_some_iff.1 hdot
    cases hnext : cs.head?.any fun d => startsWord d || d == '.' with
    | true =>
      refine .stay (a := []) fun margin => ?_
      rw [← List.singleton_append, padFrom_plain (by simpa using plain_dot), List.singleton_append,
        takeFraction, head?_padFrom, if_pos hnext]
    | false =>
      refine .behind (w := ['.']) (r := fun ds => '.' :: ds) (by simpa using plain_dot)
        keeps_takeDigits fun margin => ?_
      rw [List.singleton_append, takeFraction, head?_padFrom, if_neg (by simp [hnext])]
      rfl
  · refine .stay (a := []) fun margin => takeFraction_none ?_
    rwa [head?_padFrom]

theorem plain_of_toLower_eq (h : c.toLower = 'e') :
    c ≠ '\n' ∧ c ≠ stringMark ∧ c ≠ nameMark :=
  plain_of_continuesWord (continuesWord_of_startsWord (startsWord_of_exponent h))

theorem keeps_takeExponent : Keeps none takeExponent cs := by
  rcases cs with - | ⟨c, cs⟩
  · exact .stay (a := []) fun _ => rfl
  by_cases hc : c.toLower = 'e'
  swap
  · refine .stay (a := []) fun margin => ?_
    rw [padFrom]
    split <;> simp [takeExponent, hc]
  have hplain := plain_of_toLower_eq hc
  have hmark : ∀ margin ds, padFrom margin none (c :: ds) = c :: padFrom margin none ds := by
    intro margin ds
    rw [padFrom_cons (by simp [hplain]), openMark_none hplain.2.1 hplain.2.2]
  rcases cs with - | ⟨s, ds⟩
  · refine .stay (a := []) fun margin => ?_
    rw [hmark]
    simp [padFrom, takeExponent, hc]
  by_cases hs : ((s == '+' || s == '-') && ds.head?.any Char.isDigit) = true
  · have hsign : s ≠ '\n' ∧ s ≠ stringMark ∧ s ≠ nameMark := by
      rw [Bool.and_eq_true, Bool.or_eq_true, beq_iff_eq, beq_iff_eq] at hs
      rcases hs.1 with rfl | rfl <;> decide
    refine .behind (w := [c, s]) (r := fun ds => c :: s :: ds) (by simp [hplain, hsign])
      keeps_takeDigits fun margin => ?_
    rw [List.cons_append, List.singleton_append, takeExponent, if_pos hc]
    simp only [head?_padFrom, hs, if_true]
    rfl
  by_cases hd : s.isDigit = true
  · have hdigit := plain_of_isDigit hd
    refine .behind (w := [c]) (r := fun ds => c :: ds) (by simpa using hplain)
      keeps_takeDigits fun margin => ?_
    rw [List.singleton_append, padFrom_cons (by simp [hdigit]), takeExponent, if_pos hc]
    simp only [sign_ne_of_isDigit hd, Bool.false_and, hd, if_true]
    rfl
  · refine .stay (a := []) fun margin => ?_
    rw [hmark]
    by_cases hbreak : s = '\n'
    · subst hbreak
      simp [padFrom, takeExponent, hc]
    · rw [padFrom_cons (by simp [hbreak]), takeExponent, if_pos hc]
      simp only [head?_padFrom, hs, hd]
      rfl

theorem keeps_scanNumber : Keeps none (scanNumber c) cs := by
  by_cases hc : c = '.'
  · have hexponent : Keeps none takeExponent (Text.takeDigits cs).2 := keeps_takeExponent
    have h := keeps_takeDigits.trans hexponent
    refine ⟨?_, ?_⟩
    · simpa only [scanNumber, hc, if_true] using h.word
    · intro margin
      simp only [scanNumber, hc, if_true, keeps_takeDigits.same, hexponent.same]
  · have hfraction : Keeps none takeFraction (Text.takeDigits cs).2 := keeps_takeFraction
    have hexponent : Keeps none takeExponent (takeFraction (Text.takeDigits cs).2).2 :=
      keeps_takeExponent
    have h := (keeps_takeDigits.trans hfraction).trans hexponent
    refine ⟨?_, ?_⟩
    · simpa only [scanNumber, hc, if_false] using h.word
    · intro margin
      simp only [scanNumber, hc, if_false, keeps_takeDigits.same, hfraction.same, hexponent.same]

/-! ### Quoted text -/

/-- A scanner that reads up to a closing mark. -/
theorem keeps_of_unquote {mark : Char} {f : List Char → Kind × List Char}
    {closed : List Char → Kind} (hmark : mark = stringMark ∨ mark = nameMark)
    (hf : ∀ cs, f cs = match Text.unquote mark cs with
      | some (text, rest) => (closed text, rest)
      | none => (k, [])) :
    Keeps (some mark) f cs := by
  cases h : Text.unquote mark cs with
  | none =>
    have hcs := hf cs
    rw [h] at hcs
    refine ⟨⟨cs, ?_, ?_⟩, ?_⟩
    · rw [hcs, List.append_nil]
    · intro margin
      rw [hcs, padFrom_unterminated hmark h]
      exact (List.append_nil cs).symm
    · intro margin
      rw [padFrom_unterminated hmark h, hcs]
      rfl
  | some found =>
    obtain ⟨text, rest⟩ := found
    obtain ⟨rfl, hrest⟩ := eq_doubled_of_unquote h
    have hcs := hf (Text.doubled mark text ++ mark :: rest)
    rw [h] at hcs
    refine ⟨⟨Text.doubled mark text ++ [mark], ?_, ?_⟩, ?_⟩
    · rw [hcs, List.append_assoc]
      rfl
    · intro margin
      rw [hcs, padFrom_doubled hmark, List.append_assoc]
      rfl
    · intro margin
      have hread : Text.unquote mark (Text.doubled mark text ++ mark :: padFrom margin none rest) =
          some (text, padFrom margin none rest) :=
        Text.unquote_doubled (by rwa [head?_padFrom])
      rw [padFrom_doubled hmark, hf, hread, hcs]

theorem keeps_scanString : Keeps (some stringMark) scanString cs :=
  keeps_of_unquote (.inl rfl) fun _ => rfl

theorem keeps_scanBinary : Keeps (some stringMark) scanBinary cs :=
  keeps_of_unquote (.inl rfl) fun _ => rfl

theorem keeps_scanName : Keeps (some nameMark) scanName cs :=
  keeps_of_unquote (.inr rfl) scanName_eq

/-! ### All tokens -/

theorem keeps_scanOther : Keeps (openMark none c) (scanOther c) cs := by
  by_cases hs : c = stringMark
  · have hf : scanOther c = scanString := by
      funext cs
      rw [scanOther, if_pos hs]
    rw [hf, hs]
    exact keeps_scanString
  by_cases hn : c = nameMark
  · have hf : scanOther c = scanName := by
      funext cs
      rw [scanOther, if_neg hs, if_pos hn]
    rw [hf, hn]
    exact keeps_scanName
  rw [openMark_none hs hn]
  by_cases hx : c.toLower = 'x' ∧ cs.head? = some stringMark
  · obtain ⟨hc, hhead⟩ := hx
    obtain ⟨cs, rfl⟩ := List.head?_eq_some_iff.1 hhead
    have hf : ∀ ds, scanOther c (stringMark :: ds) = scanBinary ds := by
      intro ds
      rw [scanOther, if_neg hs, if_neg hn, if_pos ⟨hc, rfl⟩]
      rfl
    have hpad : ∀ margin, padFrom margin none (stringMark :: cs) =
        stringMark :: padFrom margin (some stringMark) cs := fun margin => rfl
    have hkeeps : Keeps (some stringMark) scanBinary cs := keeps_scanBinary
    obtain ⟨w, hw, hshift⟩ := hkeeps.word
    refine ⟨⟨stringMark :: w, ?_, ?_⟩, ?_⟩
    · rw [hf, List.cons_append, ← hw]
    · intro margin
      rw [hpad, hshift, hf, List.cons_append]
    · intro margin
      rw [hpad, hf, hf, hkeeps.same]
  have hother : ∀ margin, scanOther c (padFrom margin none cs) =
      if c.isDigit then scanNumber c (padFrom margin none cs)
      else if startsWord c then scanWord c (padFrom margin none cs)
      else (.error (.unexpectedCharacter c), padFrom margin none cs) := by
    intro margin
    exact scanOther_unquoted hs hn (by rwa [head?_padFrom])
  by_cases hd : c.isDigit = true
  · simp only [hd, if_true] at hother
    exact keeps_scanNumber.congr hother
  by_cases hw : startsWord c = true
  · simp only [hd, hw, if_true, Bool.false_eq_true, if_false] at hother
    exact keeps_scanWord.congr hother
  · simp only [hd, hw, Bool.false_eq_true, if_false] at hother
    exact .stay hother

/-- Two characters are one mark, or the first is a mark without the second. -/
theorem keeps_scanOne_nextMark (hc : c ∈ ['-', '<', '>', '!', '|']) :
    Keeps none (scanOne c) cs := by
  obtain ⟨k, -, hnil, hcons⟩ := scanOne_nextMark hc
  cases cs with
  | nil => exact .stay fun _ => hnil
  | cons d cs =>
    cases hd : nextMark? c d with
    | none =>
      refine .stay (a := k) fun margin => ?_
      rw [padFrom]
      split <;> rw [hcons, hd]
    | some s =>
      have hplain : d ≠ '\n' ∧ d ≠ stringMark ∧ d ≠ nameMark := by
        unfold nextMark? at hd
        split at hd <;> cases hd <;> decide
      have hstay : Keeps none (fun cs => (Kind.symbol s, cs)) cs := .stay fun _ => rfl
      refine .behind (w := [d]) (r := id) (by simpa using hplain) hstay fun margin => ?_
      rw [List.singleton_append, hcons, hd]
      rfl

theorem keeps_scanOne_dot : Keeps none (scanOne '.') cs := by
  have hdot : ∀ margin, scanOne '.' (padFrom margin none cs) =
      if cs.head?.any Char.isDigit then scanNumber '.' (padFrom margin none cs)
      else (.symbol .dot, padFrom margin none cs) := by
    intro margin
    have hhead : (padFrom margin none cs).head? = cs.head? := head?_padFrom
    rw [← hhead]
    rfl
  cases hany : cs.head?.any Char.isDigit with
  | true =>
    simp only [hany, if_true] at hdot
    exact keeps_scanNumber.congr hdot
  | false =>
    simp only [hany, Bool.false_eq_true, if_false] at hdot
    exact .stay hdot

/-- Every token is found in the shifted text again, as it is. -/
theorem keeps_scanOne (c : Char) (cs : List Char) : Keeps (openMark none c) (scanOne c) cs := by
  by_cases hmarks : c ∈ marks
  swap
  · have hf : scanOne c = scanOther c := by
      funext cs
      exact scanOne_other hmarks
    rw [hf]
    exact keeps_scanOther
  have hopen : openMark none c = none := by
    refine openMark_none ?_ ?_ <;> rintro rfl <;> exact absurd hmarks (by decide)
  rw [hopen]
  by_cases hnext : c ∈ ['-', '<', '>', '!', '|']
  · exact keeps_scanOne_nextMark hnext
  by_cases hdot : c = '.'
  · subst hdot
    exact keeps_scanOne_dot
  by_cases hsingle : c ∈ ['(', ')', '[', ']', ',', ';', '+', '*', '/', '%', '?', '=']
  · obtain ⟨s, hs⟩ := scanOne_single hsingle
    exact .stay fun _ => hs _
  · exact absurd hmarks (not_mem_marks hsingle hnext hdot)

/-! ### Whole texts -/

/-- A token with the gap in front of it. -/
structure Chunk where
  gap : List Char
  word : List Char
  kind : Kind

/-- The tokens that the chunks are from the byte `start` on. -/
def Chunk.tokens : Nat → List Chunk → List Token
  | _, [] => []
  | start, p :: ps =>
    let stop := start + Text.byteLength p.gap + Text.byteLength p.word
    ⟨p.kind, start + Text.byteLength p.gap, stop⟩ :: tokens stop ps

/-- The gap with its later lines shifted. -/
def Chunk.shift (width : Nat) (p : Chunk) : Chunk :=
  { p with gap := indentLines width p.gap }

/-- The scanner cuts `cs` into the chunks, of which the last one is the mark of the end. -/
inductive Scanned : List Char → List Chunk → Prop where
  | ending {cs : List Char} (h : skip .blank cs = []) : Scanned cs [⟨cs, [], .endOfInput⟩]
  | token {gap w rest : List Char} {c : Char} {k : Kind} {ps : List Chunk}
      (hskip : skip .blank (gap ++ (c :: w ++ rest)) = c :: (w ++ rest))
      (hone : scanOne c (w ++ rest) = (k, rest)) (h : Scanned rest ps) :
      Scanned (gap ++ (c :: w ++ rest)) (⟨gap, c :: w, k⟩ :: ps)

variable {before : List Char} {ps : List Chunk} {text : String}

theorem exists_scanned (cs : List Char) : ∃ ps, Scanned cs ps := by
  induction h : cs.length using Nat.strongRecOn generalizing cs with
  | _ n ih =>
    subst h
    cases hskip : skip .blank cs with
    | nil => exact ⟨_, .ending hskip⟩
    | cons c rest =>
      obtain ⟨gap, hgap, -⟩ := exists_gap hskip
      obtain ⟨w, hw, -⟩ := (keeps_scanOne c rest).word
      have hlen := skip_length .blank cs
      have hone := scanOne_length c rest
      rw [hskip, List.length_cons] at hlen
      obtain ⟨ps, hps⟩ := ih _ (by omega) (scanOne c rest).2 rfl
      have hcs : cs = gap ++ (c :: w ++ (scanOne c rest).2) := by
        rw [hgap, List.cons_append, ← hw]
      have hfound : scanOne c (w ++ (scanOne c rest).2) = scanOne c rest := by rw [← hw]
      refine ⟨⟨gap, c :: w, (scanOne c rest).1⟩ :: ps, ?_⟩
      rw [hcs]
      refine .token ?_ hfound hps
      rw [← hcs, hskip, ← hw]

namespace Scanned

/-- Where the gaps are blank, the shifted text is cut into the same tokens with shifted gaps. -/
theorem shift (h : Scanned cs ps) (hblank : ∀ p ∈ ps, ∀ c ∈ p.gap, isBlank c = true) (width : Nat) :
    Scanned (padFrom (List.replicate width ' ') none cs) (ps.map (Chunk.shift width)) := by
  induction h with
  | @ending cs h =>
    have hcs : ∀ c ∈ cs, isBlank c = true := hblank _ (List.mem_singleton_self _)
    have hpad : padFrom (List.replicate width ' ') none (cs ++ []) = indentLines width cs ++ [] :=
      Text.padFrom_blanks width hcs
    have hskip : skip .blank (indentLines width cs ++ []) = [] :=
      skip_blanks (Text.forall_mem_indentLines width rfl hcs)
    rw [List.append_nil] at hskip
    rw [List.append_nil, List.append_nil] at hpad
    rw [hpad]
    exact .ending hskip
  | @token gap w rest c k ps hskip hone h ih =>
    obtain ⟨hgap, hps⟩ := List.forall_mem_cons.1 hblank
    have hkeeps := keeps_scanOne c (w ++ rest)
    obtain ⟨v, hv, hpad⟩ := hkeeps.word
    rw [hone] at hv hpad
    obtain rfl : w = v := List.append_cancel_right hv
    obtain ⟨hc, hopen⟩ := start_of_skip hskip
    have hbreak : ¬ (c = '\n' ∧ (none : Option Char) = none) := by
      rintro ⟨rfl, -⟩
      exact absurd hc (by decide)
    have hfound := hkeeps.same (List.replicate width ' ')
    rw [hone, hpad] at hfound
    rw [Text.padFrom_blanks width hgap, List.cons_append, padFrom_cons hbreak, hpad,
      ← List.cons_append]
    refine .token ?_ hfound (ih hps)
    rw [skip_blanks (Text.forall_mem_indentLines width rfl hgap), List.cons_append]
    refine skip_start hc ?_
    intro d hd
    refine hopen d ?_
    rwa [← hpad, head?_padFrom] at hd

theorem flatMap_eq (h : Scanned cs ps) : ps.flatMap (fun p => p.gap ++ p.word) = cs := by
  induction h with
  | ending => simp
  | token hskip hone h ih => rw [List.flatMap_cons, ih, List.append_assoc]

/-- The tokens of the chunks are those that are found. -/
theorem scanFrom_eq (h : Scanned cs ps) (start : Nat) :
    scanFrom (start + Text.byteLength cs) cs ++ [Token.ending (start + Text.byteLength cs)] =
      Chunk.tokens start ps := by
  induction h generalizing start with
  | ending h =>
    rw [scanFrom]
    split
    · rfl
    · rename_i heq
      rw [h] at heq
      cases heq
  | @token gap w rest c k ps hskip hone h ih =>
    rw [scanFrom]
    split
    · rename_i heq
      rw [hskip] at heq
      cases heq
    · rename_i heq
      rw [hskip] at heq
      cases heq
      have htotal : start + Text.byteLength (gap ++ (c :: w ++ rest)) =
          start + Text.byteLength gap + Text.byteLength (c :: w) + Text.byteLength rest := by
        rw [Text.byteLength_append, Text.byteLength_append]
        omega
      have hstart : start + Text.byteLength gap + Text.byteLength (c :: w) + Text.byteLength rest -
          Text.byteLength (c :: (w ++ rest)) = start + Text.byteLength gap := by
        rw [← List.cons_append, Text.byteLength_append]
        omega
      simp only [hone, htotal, hstart, Nat.add_sub_cancel]
      rw [List.cons_append, ih, Chunk.tokens]

end Scanned

namespace Chunk

theorem map_kind_tokens (start : Nat) (ps : List Chunk) :
    (tokens start ps).map (·.kind) = ps.map (·.kind) := by
  induction ps generalizing start with
  | nil => rfl
  | cons p ps ih => rw [tokens, List.map_cons, ih, List.map_cons]

theorem byteLength_behind (before : List Char) (p : Chunk) :
    Text.byteLength (before ++ (p.gap ++ p.word)) =
      Text.byteLength before + Text.byteLength p.gap + Text.byteLength p.word := by
  rw [Text.byteLength_append, Text.byteLength_append, Nat.add_assoc]

/-- The slices of the text that belong to the tokens. -/
theorem map_slice_tokens (h : text.toList = before ++ ps.flatMap fun p => p.gap ++ p.word) :
    (tokens (Text.byteLength before) ps).map (·.span.slice text) =
      ps.map fun p => String.ofList p.word := by
  induction ps generalizing before with
  | nil => rfl
  | cons p ps ih =>
    rw [List.flatMap_cons] at h
    have hrest := @ih (before ++ (p.gap ++ p.word)) (by simpa using h)
    rw [byteLength_behind] at hrest
    have hword : Span.Covers ⟨Text.byteLength before + Text.byteLength p.gap,
        Text.byteLength before + Text.byteLength p.gap + Text.byteLength p.word⟩
        text.toList p.word :=
      ⟨before ++ p.gap, _, by simpa using h, by rw [Text.byteLength_append],
        by rw [List.append_assoc, byteLength_behind]⟩
    rw [tokens, List.map_cons, hrest, hword.slice, List.map_cons]

/-- The slices of the text in front of the tokens. -/
theorem zipWith_slice_tokens (h : text.toList = before ++ ps.flatMap fun p => p.gap ++ p.word) :
    List.zipWith (fun stop start => Span.slice ⟨stop, start⟩ text)
        (Text.byteLength before :: (tokens (Text.byteLength before) ps).map (·.span.stop))
        ((tokens (Text.byteLength before) ps).map (·.span.start)) =
      ps.map fun p => String.ofList p.gap := by
  induction ps generalizing before with
  | nil => rfl
  | cons p ps ih =>
    rw [List.flatMap_cons] at h
    have hrest := @ih (before ++ (p.gap ++ p.word)) (by simpa using h)
    rw [byteLength_behind] at hrest
    have hgap : Span.Covers ⟨Text.byteLength before, Text.byteLength before + Text.byteLength p.gap⟩
        text.toList p.gap :=
      ⟨before, _, by simpa using h, rfl, by rw [Text.byteLength_append]⟩
    rw [tokens, List.map_cons, List.map_cons, List.zipWith_cons_cons, hrest, hgap.slice,
      List.map_cons]

end Chunk

/-- What the chunks say of the tokens of a text. -/
theorem Scanned.views (h : Scanned text.toList ps) :
    kindsAll text = ps.map (·.kind) ∧ words text = ps.map (fun p => String.ofList p.word) ∧
      gaps text = ps.map fun p => String.ofList p.gap := by
  have hscan : scanAll text = Chunk.tokens 0 ps := by
    have := h.scanFrom_eq 0
    rwa [Nat.zero_add, Text.byteLength_toList] at this
  have htext : text.toList = [] ++ ps.flatMap fun p => p.gap ++ p.word := h.flatMap_eq.symm
  refine ⟨?_, ?_, ?_⟩
  · rw [kindsAll, hscan, Chunk.map_kind_tokens]
  · rw [words, hscan]
    exact Chunk.map_slice_tokens htext
  · rw [gaps, hscan]
    exact Chunk.zipWith_slice_tokens htext

end Token

/-- Shifting moves blanks only: shifting twice is shifting once, and in a text without comments the
tokens stay as they are and the lines between them are shifted. -/
theorem Text.pad_moves_blanks :
    (∀ text m n, pad (pad text m) n = pad text (m + n)) ∧ (∀ text, pad text 0 = text) ∧
      ∀ text n, Token.Uncommented text →
        kindsAll (pad text n) = kindsAll text ∧ Token.words (pad text n) = Token.words text ∧
          Token.gaps (pad text n) =
            (Token.gaps text).map fun gap => String.ofList (indentLines n gap.toList) := by
  refine ⟨pad_pad, pad_zero, ?_⟩
  intro text n htext
  obtain ⟨ps, hps⟩ := Token.exists_scanned text.toList
  obtain ⟨hkinds, hwords, hgaps⟩ := hps.views
  have hblank : ∀ p ∈ ps, ∀ c ∈ p.gap, isBlank c = true := by
    intro p hp
    have hgap := htext (String.ofList p.gap) (hgaps ▸ List.mem_map_of_mem hp)
    rwa [String.toList_ofList] at hgap
  have hshift : Token.Scanned (pad text n).toList (ps.map (Token.Chunk.shift n)) := by
    rw [pad, String.toList_ofList]
    exact hps.shift hblank n
  obtain ⟨hkinds', hwords', hgaps'⟩ := hshift.views
  rw [hkinds, hkinds', hwords, hwords', hgaps, hgaps']
  simp [Token.Chunk.shift]

/-- Marks inside each other's quotes, line breaks inside and outside, a name that is not closed. -/
def unclosedText : String := "SELECT 'it''s\n\x22'\n, X'0a\n ff'\n\x22a'\n'"

theorem gaps_unclosedText : Token.gaps unclosedText = ["", " ", "\n", " ", "\n", ""] := by cbv

theorem Text.pad_moves_blanks_sample :
    Token.Uncommented unclosedText ∧ ∀ n,
      kindsAll (pad unclosedText n) = [.keyword .SELECT, .string "it's\n\x22", .symbol .comma,
        .binary [10, 255], .error .unterminatedName, .endOfInput] ∧
      Token.words (pad unclosedText n) =
        ["SELECT", "'it''s\n\x22'", ",", "X'0a\n ff'", "\x22a'\n'", ""] ∧
      Token.gaps (pad unclosedText n) = ["", " ", "\n" ++ spaces n, " ", "\n" ++ spaces n, ""] := by
  have h : Token.Uncommented unclosedText := by
    have hblank : isBlank ' ' = true ∧ isBlank '\n' = true := by decide
    rw [Token.Uncommented, gaps_unclosedText]
    simp [hblank]
  refine ⟨h, fun n => ?_⟩
  obtain ⟨hkinds, hwords, hgaps⟩ := Text.pad_moves_blanks.2.2 unclosedText n h
  rw [hkinds, hwords, hgaps, gaps_unclosedText]
  refine ⟨by cbv, by cbv, ?_⟩
  simp [indentLines, spaces]

/-- In a comment a quote mark opens nothing, but shifting takes it for an opening one. -/
example : kindsAll "/* ' */ 'a\nb'" = [.string "a\nb", .endOfInput] ∧
    kindsAll (Text.pad "/* ' */ 'a\nb'" 1) = [.string "a\n b", .endOfInput] := by
  constructor <;> cbv

end Sql
