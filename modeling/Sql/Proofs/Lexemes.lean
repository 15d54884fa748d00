import Sql.Proofs.Pieces

/-! Where a token ends: the characters that the scanner takes for a token are taken for the same
token in front of a blank and at the end of the text. Only a token without its closing mark runs on
to the end of the text. -/
namespace Sql.Token

variable {c d mark : Char} {cs w rest tail text : List Char} {k : Kind}
  {f g : List Char → Kind × List Char}

/-- Nothing stands there, or a blank does. -/
def Halts (tail : List Char) : Prop := ∀ d, tail.head? = some d → d = ' '

theorem Halts.nil : Halts [] := nofun

theorem Halts.blank : Halts (' ' :: cs) := by
  intro d hd
  cases hd
  rfl

theorem Halts.stops (h : Halts tail) : Stops tail := by
  intro d hd
  rw [h d hd]
  decide

theorem Halts.head?_ne (h : Halts tail) (hd : d ≠ ' ') : tail.head? ≠ some d :=
  fun ht => hd (h d ht)

/-- What stands behind `w` is not its first character. -/
theorem Halts.head?_append_ne (h : Halts tail) (hd : d ≠ ' ')
    (hw : (w ++ rest).head? ≠ some d) : (w ++ tail).head? ≠ some d := by
  cases w with
  | nil => exact h.head?_ne hd
  | cons e w => exact hw

/-- What the scanner `f` takes from the front of `cs`, it takes in front of a blank too. -/
def Severs (f : List Char → Kind × List Char) (cs : List Char) : Prop :=
  ∃ w, cs = w ++ (f cs).2 ∧ ∀ tail, Halts tail → f (w ++ tail) = ((f cs).1, tail)

/-- The scanner `f` takes all of `cs`, and would take a blank behind it. -/
def Swallows (f : List Char → Kind × List Char) (cs : List Char) : Prop :=
  (f cs).2 = [] ∧ f (cs ++ [' ']) = ((f cs).1, [])

/-- A scanner that cuts a run as another one does where the run ends. -/
theorem Severs.of_cuts (hw : cs = w ++ (f cs).2) (halone : f w = ((f cs).1, []))
    (hcuts : ∀ rest, Stops rest → Cuts f w rest) : Severs f cs := by
  refine ⟨w, hw, ?_⟩
  intro tail ht
  rw [(hcuts tail ht.stops).same, halone]
  rfl

/-! ### Words and numbers -/

theorem forall_mem_takeWhile (p : Char → Bool) (cs : List Char) :
    ∀ d ∈ cs.takeWhile p, p d = true :=
  fun d hd => List.all_eq_true.1 List.all_takeWhile d hd

theorem takeWhile_takeWhile (p : Char → Bool) (cs : List Char) :
    (cs.takeWhile p).takeWhile p = cs.takeWhile p ∧ (cs.takeWhile p).dropWhile p = [] := by
  have h : (cs.takeWhile p ++ []).takeWhile p = cs.takeWhile p ∧
      (cs.takeWhile p ++ []).dropWhile p = [] :=
    takeWhile_append_stop (forall_mem_takeWhile p cs) nofun
  rwa [List.append_nil] at h

theorem scanWord_severs : Severs (scanWord c) cs := by
  obtain ⟨htake, hdrop⟩ := takeWhile_takeWhile continuesWord cs
  refine .of_cuts (w := cs.takeWhile continuesWord) ?_ ?_ fun rest => scanWord_cuts
  · exact List.takeWhile_append_dropWhile.symm
  · simp only [scanWord, htake, hdrop]

theorem sign_ne_of_isDigit (h : c.isDigit = true) : (c == '+' || c == '-') = false := by
  rw [Bool.eq_false_iff]
  intro hsign
  rw [Bool.or_eq_true, beq_iff_eq, beq_iff_eq] at hsign
  rcases hsign with rfl | rfl <;> cases h

/-- An exponent is read again as what it is. -/
theorem takeExponent_parts (cs : List Char) :
    cs = (takeExponent cs).1 ++ (takeExponent cs).2 ∧
      takeExponent (takeExponent cs).1 = ((takeExponent cs).1, []) ∧
      ∀ d, (takeExponent cs).1.head? = some d → cs.head? = some d ∧ d.toLower = 'e' := by
  rcases cs with - | ⟨c, - | ⟨s, ds⟩⟩
  · exact ⟨rfl, rfl, by simp [takeExponent]⟩
  · have h : takeExponent [c] = ([], [c]) := by simp [takeExponent]
    rw [h]
    exact ⟨rfl, rfl, by simp⟩
  · obtain ⟨htake, hdrop⟩ := takeWhile_takeWhile Char.isDigit ds
    by_cases hc : c.toLower = 'e'
    · by_cases hs : ((s == '+' || s == '-') && ds.head?.any Char.isDigit) = true
      · have hany : (ds.takeWhile Char.isDigit).head?.any Char.isDigit = true := by
          cases ds with
          | nil => simp at hs
          | cons d ds => simp_all
        simp only [Bool.and_eq_true] at hs
        simp [takeExponent, hc, hs, hany, htake, hdrop]
      · by_cases hd : s.isDigit = true
        · simp [takeExponent, hc, hd, htake, hdrop, sign_ne_of_isDigit hd]
        · simp [takeExponent, hc, hs, hd]
    · simp [takeExponent, hc]

theorem eq_of_exponent (h : d.toLower = 'e') : d = 'e' ∨ d = 'E' := by
  rw [Char.toLower] at h
  split at h
  · rename_i hrange
    right
    apply Char.toNat_inj.1
    have hval := congrArg Char.toNat h
    have hlow := UInt32.le_iff_toNat_le.1 hrange.1
    have hhigh := UInt32.le_iff_toNat_le.1 hrange.2
    simp only [Char.toNat] at *
    simp at *
    omega
  · exact .inl h

theorem startsWord_of_exponent (h : d.toLower = 'e') : startsWord d = true := by
  rcases eq_of_exponent h with rfl | rfl <;> decide

theorem takeFraction_eq (cs : List Char) : cs = (takeFraction cs).1 ++ (takeFraction cs).2 := by
  unfold takeFraction
  split
  · split
    · rfl
    · rw [List.cons_append, List.takeWhile_append_dropWhile]
  · rfl

/-- The fraction of a number ends where the exponent starts, whatever follows the exponent. -/
theorem takeFraction_exponent (cs : List Char) :
    takeFraction ((takeFraction cs).1 ++ (takeExponent (takeFraction cs).2).1) =
      ((takeFraction cs).1, (takeExponent (takeFraction cs).2).1) := by
  obtain ⟨-, -, hhead⟩ := takeExponent_parts (takeFraction cs).2
  have hdot : (takeExponent (takeFraction cs).2).1.head? ≠ some '.' := by
    intro h
    obtain ⟨-, he⟩ := hhead _ h
    revert he
    decide
  revert hhead hdot
  unfold takeFraction
  split
  · rename_i cs
    split
    · intro _ hdot
      exact takeFraction_none hdot
    · rename_i hnext
      intro hhead _
      refine takeFraction_some (forall_mem_takeWhile _ _) ?_ ?_
      · intro d hd
        have := startsWord_of_exponent (hhead d hd).2
        exact not_isDigit_of_startsWord this
      · intro hempty d hd
        obtain ⟨hr, he⟩ := hhead d hd
        have hcs : cs.dropWhile Char.isDigit = cs := by
          have := List.takeWhile_append_dropWhile (p := Char.isDigit) (l := cs)
          rwa [hempty] at this
        rw [hcs] at hr
        simp [hr, startsWord_of_exponent he] at hnext
  · intro _ hdot
    exact takeFraction_none hdot

/-- What stands at the front of `w` stands at the front of all of it. -/
theorem head?_append_some (h : w.head? = some d) : (w ++ rest).head? = some d := by
  rw [List.head?_append, h]
  rfl

theorem scanNumber_severs : Severs (scanNumber c) cs := by
  have hdigits : cs = cs.takeWhile Char.isDigit ++ cs.dropWhile Char.isDigit :=
    List.takeWhile_append_dropWhile.symm
  have hstop : ∀ w rest, cs.dropWhile Char.isDigit = w ++ rest →
      ∀ d, w.head? = some d → d.isDigit = false := by
    intro w rest hw d hd
    have h := List.head?_dropWhile_not Char.isDigit cs
    rw [hw, head?_append_some hd] at h
    simpa using h
  by_cases hc : c = '.'
  · obtain ⟨hparts, halone, -⟩ := takeExponent_parts (cs.dropWhile Char.isDigit)
    have htake := takeDigits_append (forall_mem_takeWhile _ cs) (hstop _ _ hparts)
    refine .of_cuts (w := cs.takeWhile Char.isDigit ++
      (takeExponent (cs.dropWhile Char.isDigit)).1) ?_ ?_ fun rest => scanNumber_cuts
    · simp only [scanNumber, Text.takeDigits, hc, if_true]
      rw [List.append_assoc, ← hparts]
      exact hdigits
    · simp only [scanNumber, hc, if_true, htake, halone]
      rfl
  · have hfraction := takeFraction_eq (cs.dropWhile Char.isDigit)
    obtain ⟨hparts, halone, -⟩ :=
      takeExponent_parts (takeFraction (cs.dropWhile Char.isDigit)).2
    have hnumber : cs.dropWhile Char.isDigit =
        ((takeFraction (cs.dropWhile Char.isDigit)).1 ++
          (takeExponent (takeFraction (cs.dropWhile Char.isDigit)).2).1) ++
          (takeExponent (takeFraction (cs.dropWhile Char.isDigit)).2).2 := by
      rw [List.append_assoc, ← hparts]
      exact hfraction
    have htake := takeDigits_append (forall_mem_takeWhile _ cs) (hstop _ _ hnumber)
    refine .of_cuts (w := cs.takeWhile Char.isDigit ++
      ((takeFraction (cs.dropWhile Char.isDigit)).1 ++
        (takeExponent (takeFraction (cs.dropWhile Char.isDigit)).2).1)) ?_ ?_
      fun rest => scanNumber_cuts
    · simp only [scanNumber, Text.takeDigits, hc, if_false]
      rw [List.append_assoc, ← hnumber]
      exact hdigits
    · simp only [scanNumber, hc, if_false, htake, takeFraction_exponent, halone]
      rfl

/-! ### Quoted text -/

/-- A text that is read up to its closing mark is the text written between the marks. -/
theorem eq_doubled_of_unquote (h : Text.unquote mark cs = some (text, rest)) :
    cs = Text.doubled mark text ++ mark :: rest ∧ rest.head? ≠ some mark := by
  fun_induction Text.unquote mark cs generalizing text rest with
  | case1 => cases h
  | case2 =>
    cases h
    exact ⟨rfl, by simp⟩
  | case3 => cases h
  | case4 cs ih =>
    obtain ⟨⟨t, r⟩, hr, heq⟩ := Option.map_eq_some_iff.1 h
    cases heq
    obtain ⟨hcs, hrest⟩ := ih hr
    refine ⟨?_, hrest⟩
    rw [Text.doubled, if_pos rfl, hcs]
    rfl
  | case5 d cs hd =>
    cases h
    refine ⟨rfl, ?_⟩
    simpa using hd
  | case6 c d cs hc ih =>
    obtain ⟨⟨t, r⟩, hr, heq⟩ := Option.map_eq_some_iff.1 h
    cases heq
    obtain ⟨hcs, hrest⟩ := ih hr
    refine ⟨?_, hrest⟩
    rw [Text.doubled, if_neg hc, hcs]
    rfl

/-- A text without a closing mark gets none from what is not the mark. -/
theorem unquote_none_append (hd : d ≠ mark) (h : Text.unquote mark cs = none) :
    Text.unquote mark (cs ++ [d]) = none := by
  fun_induction Text.unquote mark cs with
  | case1 => simp [Text.unquote, hd]
  | case2 => cases h
  | case3 c hc => simp [Text.unquote, hc, hd]
  | case4 cs ih =>
    have := ih (Option.map_eq_none_iff.1 h)
    simp [Text.unquote, this]
  | case5 => cases h
  | case6 c e cs hc ih =>
    have := ih (Option.map_eq_none_iff.1 h)
    rw [List.cons_append] at this
    simp [Text.unquote, hc, this]

/-- A scanner that reads up to a closing mark: it takes what it takes anywhere, or all there is. -/
theorem severs_or_swallows_of_unquote {closed : List Char → Kind} (hmark : mark ≠ ' ')
    (hf : ∀ cs, f cs = match Text.unquote mark cs with
      | some (text, rest) => (closed text, rest)
      | none => (k, [])) :
    Severs f cs ∨ Swallows f cs := by
  cases h : Text.unquote mark cs with
  | some found =>
    obtain ⟨text, rest⟩ := found
    obtain ⟨hcs, -⟩ := eq_doubled_of_unquote h
    left
    refine ⟨Text.doubled mark text ++ [mark], ?_, ?_⟩
    · rw [hf, h, List.append_assoc]
      exact hcs
    · intro tail ht
      have hread : Text.unquote mark (Text.doubled mark text ++ mark :: tail) = some (text, tail) :=
        Text.unquote_doubled (ht.head?_ne hmark)
      rw [hf, hf, h, List.append_assoc, List.singleton_append, hread]
  | none =>
    right
    have hmore := unquote_none_append hmark.symm h
    refine ⟨?_, ?_⟩
    · rw [hf, h]
    · rw [hf, hf, h, hmore]

/-- The kind of a name that is closed. -/
def closedName : List Char → Kind
  | [] => .error .emptyName
  | text => .ident (.quoted (String.ofList text))

theorem scanName_eq (cs : List Char) : scanName cs = match Text.unquote Text.nameMark cs with
    | some (text, rest) => (closedName text, rest)
    | none => (.error .unterminatedName, []) := by
  unfold scanName
  split <;> simp_all [closedName]

theorem scanString_severs (cs : List Char) : Severs scanString cs ∨ Swallows scanString cs :=
  severs_or_swallows_of_unquote (by decide) fun _ => rfl

theorem scanBinary_severs (cs : List Char) : Severs scanBinary cs ∨ Swallows scanBinary cs :=
  severs_or_swallows_of_unquote (by decide) fun _ => rfl

theorem scanName_severs (cs : List Char) : Severs scanName cs ∨ Swallows scanName cs :=
  severs_or_swallows_of_unquote (by decide) scanName_eq

/-! ### All tokens -/

/-- A scanner that is another one in front of `cs`, of what that one takes there, and at the end. -/
theorem Severs.congr (h : Severs f cs) (hcs : g cs = f cs)
    (htail : ∀ w tail, cs = w ++ (f cs).2 → Halts tail → g (w ++ tail) = f (w ++ tail)) :
    Severs g cs := by
  obtain ⟨w, hw, hf⟩ := h
  refine ⟨w, ?_, ?_⟩
  · rw [hcs]
    exact hw
  · intro tail ht
    rw [hcs, htail w tail hw ht]
    exact hf tail ht

/-- Only a quote mark behind the letter makes a binary literal of a word. -/
theorem scanOther_unquoted (hs : c ≠ Text.stringMark) (hn : c ≠ Text.nameMark)
    (hx : ¬ (c.toLower = 'x' ∧ cs.head? = some Text.stringMark)) :
    scanOther c cs = if c.isDigit then scanNumber c cs
      else if startsWord c then scanWord c cs else (.error (.unexpectedCharacter c), cs) := by
  rw [scanOther, if_neg hs, if_neg hn, if_neg hx]

theorem scanOther_severs : Severs (scanOther c) cs ∨ Swallows (scanOther c) cs := by
  by_cases hs : c = Text.stringMark
  · have hf : scanOther c = scanString := by
      funext cs
      rw [scanOther, if_pos hs]
    rw [hf]
    exact scanString_severs cs
  by_cases hn : c = Text.nameMark
  · have hf : scanOther c = scanName := by
      funext cs
      rw [scanOther, if_neg hs, if_pos hn]
    rw [hf]
    exact scanName_severs cs
  by_cases hx : c.toLower = 'x' ∧ cs.head? = some Text.stringMark
  · obtain ⟨cs, rfl⟩ : ∃ ds, cs = Text.stringMark :: ds := by
      obtain ⟨ds, hds⟩ := List.head?_eq_some_iff.1 hx.2
      exact ⟨ds, hds⟩
    have hf : ∀ ds, scanOther c (Text.stringMark :: ds) = scanBinary ds := by
      intro ds
      rw [scanOther, if_neg hs, if_neg hn, if_pos ⟨hx.1, rfl⟩]
      rfl
    rcases scanBinary_severs cs with ⟨w, hw, hsame⟩ | ⟨hrest, hsame⟩
    · left
      refine ⟨Text.stringMark :: w, ?_, ?_⟩
      · rw [hf, List.cons_append, ← hw]
      · intro tail ht
        rw [List.cons_append, hf, hf]
        exact hsame tail ht
    · right
      refine ⟨?_, ?_⟩
      · rw [hf]
        exact hrest
      · rw [List.cons_append, hf, hf]
        exact hsame
  left
  have hcs := scanOther_unquoted hs hn hx
  have htail : ∀ w tail, (∃ rest, cs = w ++ rest) → Halts tail →
      scanOther c (w ++ tail) = if c.isDigit then scanNumber c (w ++ tail)
        else if startsWord c then scanWord c (w ++ tail)
        else (.error (.unexpectedCharacter c), w ++ tail) := by
    rintro w tail ⟨rest, rfl⟩ ht
    refine scanOther_unquoted hs hn ?_
    rintro ⟨hc, hhead⟩
    exact ht.head?_append_ne (by decide) (fun hm => hx ⟨hc, hm⟩) hhead
  by_cases hd : c.isDigit = true
  · simp only [hd, if_true] at hcs htail
    exact scanNumber_severs.congr hcs fun w tail hw => htail w tail ⟨_, hw⟩
  by_cases hw : startsWord c = true
  · simp only [hd, hw, if_true, Bool.false_eq_true, if_false] at hcs htail
    exact scanWord_severs.congr hcs fun w tail hw => htail w tail ⟨_, hw⟩
  · simp only [hd, hw, Bool.false_eq_true, if_false] at hcs htail
    refine ⟨[], ?_, ?_⟩
    · rw [hcs]
      rfl
    · intro tail ht
      rw [hcs, htail [] tail ⟨cs, rfl⟩ ht]
      rfl

/-- Two characters are one mark, or the first is a mark without the second. -/
theorem scanOne_nextMark_severs (hc : c ∈ ['-', '<', '>', '!', '|']) : Severs (scanOne c) cs := by
  obtain ⟨k, hk, hnil, hcons⟩ := scanOne_nextMark hc
  have hcuts : ∀ w rest, Stops rest → Cuts (scanOne c) w rest :=
    fun w rest hrest => cuts_of_nextMark hrest hnil hcons hk
  cases cs with
  | nil =>
    refine .of_cuts (w := []) ?_ ?_ (hcuts [])
    · rw [hnil]
      rfl
    · rw [hnil]
  | cons d cs =>
    cases hd : nextMark? c d with
    | none =>
      have hcs := hcons d cs
      rw [hd] at hcs
      refine ⟨[], ?_, ?_⟩
      · rw [hcs]
        rfl
      · intro tail ht
        have hsame := (hcuts [] tail ht.stops).same
        rw [hnil] at hsame
        rw [hcs]
        exact hsame
    | some s =>
      have hcs := hcons d cs
      have halone := hcons d []
      rw [hd] at hcs halone
      refine ⟨[d], ?_, ?_⟩
      · rw [hcs]
        rfl
      · intro tail ht
        have hsame := (hcuts [d] tail ht.stops).same
        rw [halone] at hsame
        rw [hcs]
        exact hsame

theorem scanNumber_point_ne (h : cs.head?.any Char.isDigit = true) :
    (scanNumber '.' cs).2 ≠ cs := by
  cases cs with
  | nil => cases h
  | cons d cs =>
    have hd : d.isDigit = true := h
    have hsame : (scanNumber '.' (d :: cs)).2 = (scanNumber '.' cs).2 := by
      simp [scanNumber, Text.takeDigits, hd]
    have hlen := scanNumber_length '.' cs
    intro heq
    rw [← hsame, heq, List.length_cons] at hlen
    omega

theorem scanOne_dot_severs : Severs (scanOne '.') cs := by
  have hdot : ∀ cs, scanOne '.' cs =
      if cs.head?.any Char.isDigit then scanNumber '.' cs else (.symbol .dot, cs) := fun cs => rfl
  cases hany : cs.head?.any Char.isDigit with
  | true =>
    have hnumber : Severs (scanNumber '.') cs := scanNumber_severs
    refine hnumber.congr ?_ ?_
    · rw [hdot, hany]
      rfl
    · intro w tail hw _
      -- The digit behind the point is part of the number.
      have hne : w ≠ [] := by
        rintro rfl
        exact scanNumber_point_ne hany hw.symm
      obtain ⟨d, w, rfl⟩ := List.exists_cons_of_ne_nil hne
      rw [hw] at hany
      rw [hdot, if_pos]
      exact hany
  | false =>
    have hcs := hdot cs
    rw [hany] at hcs
    refine ⟨[], ?_, ?_⟩
    · rw [hcs]
      rfl
    · intro tail ht
      have hnone : tail.head?.any Char.isDigit = false := by
        cases tail with
        | nil => rfl
        | cons d tail =>
          rw [ht d rfl]
          rfl
      rw [hcs, List.nil_append, hdot, hnone]
      rfl

/-- A token ends where it ends whether a blank follows or the text ends, unless it lacks its
closing mark and takes the rest of the text. -/
theorem scanOne_severs (c : Char) (cs : List Char) :
    Severs (scanOne c) cs ∨ Swallows (scanOne c) cs := by
  by_cases hnext : c ∈ ['-', '<', '>', '!', '|']
  · exact .inl (scanOne_nextMark_severs hnext)
  by_cases hdot : c = '.'
  · rw [hdot]
    exact .inl scanOne_dot_severs
  by_cases hsingle : c ∈ ['(', ')', '[', ']', ',', ';', '+', '*', '/', '%', '?', '=']
  · obtain ⟨s, hs⟩ := scanOne_single hsingle
    left
    refine ⟨[], ?_, ?_⟩
    · rw [hs]
      rfl
    · intro tail _
      rw [hs, hs]
      rfl
  · have hf : scanOne c = scanOther c := by
      funext cs
      exact scanOne_other (not_mem_marks hsingle hnext hdot)
    rw [hf]
    exact scanOther_severs

/-! ### Gaps -/

/-- Blanks and finished comments: they are dropped, whatever follows them. -/
def Passed (gap : List Char) : Prop := ∀ tail, skip .blank (gap ++ tail) = skip .blank tail

theorem Passed.skip (h : Passed w) : skip .blank w = [] := by
  have := h []
  rwa [List.append_nil] at this

theorem Passed.kindsOf (h : Passed w) (cs : List Char) : kindsOf (w ++ cs) = kindsOf cs := by
  rw [kindsOf_eq, h cs, ← kindsOf_eq]

theorem skip_of_kindsOf (h : kindsOf cs = []) : skip .blank cs = [] := by
  rw [kindsOf_eq] at h
  split at h
  · rename_i hskip
    exact hskip
  · cases h

/-- What is dropped in front of a token is dropped in front of everything. -/
theorem exists_gap {gap : Gap} (h : skip gap cs = c :: rest) :
    ∃ w, cs = w ++ c :: rest ∧ ∀ tail, skip gap (w ++ tail) = skip .blank tail := by
  fun_induction skip gap cs with
  | case1 => cases h
  | case2 cs ih =>
    obtain ⟨w, rfl, hw⟩ := ih h
    refine ⟨'\n' :: w, rfl, ?_⟩
    intro tail
    rw [List.cons_append, skip, if_pos rfl, hw]
  | case3 d cs hd ih =>
    obtain ⟨w, rfl, hw⟩ := ih h
    refine ⟨d :: w, rfl, ?_⟩
    intro tail
    rw [List.cons_append, skip, if_neg hd, hw]
  | case4 cs ih =>
    obtain ⟨w, rfl, hw⟩ := ih h
    refine ⟨'*' :: '/' :: w, rfl, ?_⟩
    intro tail
    rw [List.cons_append, List.cons_append, skip, hw]
  | case5 d cs hclose ih =>
    obtain ⟨w, rfl, hw⟩ := ih h
    -- A comment that is open does not end with nothing.
    cases w with
    | nil => cases hw ['a']
    | cons e w =>
      refine ⟨d :: e :: w, rfl, ?_⟩
      intro tail
      rw [List.cons_append, List.cons_append, skip, ← List.cons_append, hw]
      rintro cs rfl heq
      cases heq
      exact hclose _ rfl rfl
  | case6 cs ih =>
    obtain ⟨w, rfl, hw⟩ := ih h
    refine ⟨'-' :: '-' :: w, rfl, ?_⟩
    intro tail
    rw [List.cons_append, List.cons_append, skip, hw]
  | case7 cs ih =>
    obtain ⟨w, rfl, hw⟩ := ih h
    refine ⟨'/' :: '*' :: w, rfl, ?_⟩
    intro tail
    rw [List.cons_append, List.cons_append, skip, hw]
  | case8 d cs hline hblock hblank ih =>
    obtain ⟨w, rfl, hw⟩ := ih h
    refine ⟨d :: w, rfl, ?_⟩
    intro tail
    rw [List.cons_append, skip, if_pos hblank, hw]
    · rintro cs rfl
      cases hblank
    · rintro cs rfl
      cases hblank
  | case9 d cs hline hblock hblank =>
    cases h
    exact ⟨[], rfl, fun _ => rfl⟩

/-- A token starts with a character that is no blank and opens no comment. -/
theorem start_of_skip {gap : Gap} (h : skip gap cs = c :: rest) :
    Text.isBlank c = false ∧ ∀ d, rest.head? = some d → opensComment c d = false := by
  fun_induction skip gap cs with
  | case1 => cases h
  | case9 d cs hline hblock hblank =>
    cases h
    refine ⟨by simpa using hblank, ?_⟩
    intro e he
    obtain ⟨ds, rfl⟩ := List.head?_eq_some_iff.1 he
    by_contra hopen
    rw [Bool.not_eq_false, opensComment, Bool.or_eq_true, Bool.and_eq_true, Bool.and_eq_true,
      beq_iff_eq, beq_iff_eq, beq_iff_eq, beq_iff_eq] at hopen
    rcases hopen with ⟨rfl, rfl⟩ | ⟨rfl, rfl⟩
    · exact hline ds rfl rfl
    · exact hblock ds rfl rfl
  | _ => rename_i ih; exact ih h

/-! ### Lexemes -/

/-- The characters of a token of kind `k`, which stands in front of `rest`. -/
structure Lexeme (w : List Char) (k : Kind) (rest : List Char) : Prop where
  nonempty : w ≠ []
  alone : kindsOf w = [k]
  /-- A token that is not closed takes the blank with it, but nothing stands behind it. -/
  spaced : ∀ cs, (rest = [] → cs = []) → kindsOf (w ++ ' ' :: cs) = k :: kindsOf cs

theorem kindsOf_blank_cons (cs : List Char) : kindsOf (' ' :: cs) = kindsOf cs :=
  kindsOf_blank (w := [' ']) (by simp [AllBlank]) cs

/-- The token at the front of a text is found again in its own characters. -/
theorem lexeme_of_skip (h : skip .blank cs = c :: rest) :
    ∃ w, c :: rest = w ++ (scanOne c rest).2 ∧ Lexeme w (scanOne c rest).1 (scanOne c rest).2 := by
  obtain ⟨hblank, hopen⟩ := start_of_skip h
  rcases scanOne_severs c rest with ⟨w, hw, hsame⟩ | ⟨hrest, hmore⟩
  · have hfront : ∀ tail, Halts tail →
        kindsOf (c :: w ++ tail) = (scanOne c rest).1 :: kindsOf tail := by
      intro tail ht
      have hskip : skip .blank (c :: w ++ tail) = c :: (w ++ tail) := by
        refine skip_start hblank ?_
        intro d hd
        cases w with
        | nil =>
          rw [ht d hd]
          simp [opensComment]
        | cons e w =>
          rw [hw] at hopen
          exact hopen d hd
      rw [kindsOf_eq, hskip]
      simp only [hsame tail ht]
    refine ⟨c :: w, ?_, ?_, ?_, ?_⟩
    · rw [List.cons_append, ← hw]
    · exact List.cons_ne_nil c w
    · have := hfront [] .nil
      rwa [List.append_nil, kindsOf_nil] at this
    · intro cs _
      rw [hfront _ .blank, kindsOf_blank_cons]
  · have hend : skip .blank (c :: rest) = c :: rest := skip_start hblank hopen
    have hblankEnd : skip .blank (c :: (rest ++ [' '])) = c :: (rest ++ [' ']) := by
      refine skip_start hblank ?_
      intro d hd
      cases rest with
      | nil =>
        cases hd
        simp [opensComment]
      | cons e rest => exact hopen d hd
    refine ⟨c :: rest, ?_, ?_, ?_, ?_⟩
    · rw [hrest, List.append_nil]
    · exact List.cons_ne_nil c rest
    · rw [kindsOf_eq, hend]
      simp only [hrest, kindsOf_nil]
    · intro cs hcs
      rw [hcs hrest, List.cons_append, kindsOf_eq, hblankEnd]
      simp only [hmore]

end Sql.Token
