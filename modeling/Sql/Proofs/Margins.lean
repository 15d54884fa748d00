import Sql.Text.Blank
import Sql.Text.Indent

/-! What shifting a text to the right does to its characters: the margin goes behind the line breaks
outside quotes, and nothing else changes. -/
namespace Sql.Text

variable {margin cs w : List Char} {mark : Option Char} {c : Char}

/-! ### One character -/

theorem openMark_none (hs : c ≠ stringMark) (hn : c ≠ nameMark) : openMark none c = none := by
  simp [openMark, hs, hn]

theorem padFrom_break :
    padFrom margin none ('\n' :: cs) = '\n' :: (margin ++ padFrom margin none cs) :=
  rfl

theorem padFrom_cons (h : ¬ (c = '\n' ∧ mark = none)) :
    padFrom margin mark (c :: cs) = c :: padFrom margin (openMark mark c) cs := by
  rw [padFrom, if_neg h]

theorem head?_padFrom : (padFrom margin mark cs).head? = cs.head? := by
  cases cs with
  | nil => rfl
  | cons c cs =>
    rw [padFrom]
    split <;> rfl

@[simp]
theorem padFrom_nil (mark : Option Char) (cs : List Char) : padFrom [] mark cs = cs := by
  induction cs generalizing mark with
  | nil => rfl
  | cons c cs ih =>
    rw [padFrom]
    split <;> rw [ih]
    rfl

/-! ### Characters that are left alone -/

theorem padFrom_plain (h : ∀ d ∈ w, d ≠ '\n' ∧ d ≠ stringMark ∧ d ≠ nameMark) :
    padFrom margin none (w ++ cs) = w ++ padFrom margin none cs := by
  induction w with
  | nil => rfl
  | cons d w ih =>
    obtain ⟨hn, hs, hm⟩ := h d (by simp)
    rw [List.cons_append, padFrom_cons (by simp [hn]), openMark_none hs hm,
      ih fun d hd => h d (by simp [hd])]
    rfl

section

variable {mark : Char}

theorem openMark_open (hmark : mark = stringMark ∨ mark = nameMark) :
    openMark none mark = some mark := by
  rcases hmark with rfl | rfl <;> rfl

theorem openMark_close : openMark (some mark) mark = none := by simp [openMark]

theorem openMark_keep (h : c ≠ mark) : openMark (some mark) c = some mark := by simp [openMark, h]

theorem padFrom_open (hmark : mark = stringMark ∨ mark = nameMark) :
    padFrom margin none (mark :: cs) = mark :: padFrom margin (some mark) cs := by
  have hbreak : mark ≠ '\n' := by rcases hmark with rfl | rfl <;> decide
  rw [padFrom_cons (by simp [hbreak]), openMark_open hmark]

theorem padFrom_doubled (hmark : mark = stringMark ∨ mark = nameMark) (text : List Char) :
    padFrom margin (some mark) (doubled mark text ++ mark :: cs) =
      doubled mark text ++ mark :: padFrom margin none cs := by
  induction text with
  | nil => rw [doubled, List.nil_append, padFrom_cons (by simp), openMark_close, List.nil_append]
  | cons d text ih =>
    by_cases hd : d = mark
    · rw [doubled, if_pos hd, hd, List.cons_append, List.cons_append, padFrom_cons (by simp),
        openMark_close, padFrom_open hmark, ih, List.cons_append, List.cons_append]
    · rw [doubled, if_neg hd, List.cons_append, padFrom_cons (by simp), openMark_keep hd, ih,
        List.cons_append]

/-- Where the closing mark is missing, nothing is shifted. -/
theorem padFrom_unterminated (hmark : mark = stringMark ∨ mark = nameMark)
    (h : unquote mark cs = none) : padFrom margin (some mark) cs = cs := by
  fun_induction unquote mark cs with
  | case1 => rfl
  | case2 => cases h
  | case3 c hc =>
    rw [padFrom_cons (by simp)]
    rfl
  | case4 cs ih =>
    rw [padFrom_cons (by simp), openMark_close, padFrom_open hmark, ih (Option.map_eq_none_iff.1 h)]
  | case5 => cases h
  | case6 c d cs hc ih =>
    rw [padFrom_cons (by simp), openMark_keep hc, ih (Option.map_eq_none_iff.1 h)]

end

/-! ### Blanks -/

/-- Puts `width` spaces behind every line break. -/
def indentLines (width : Nat) (cs : List Char) : List Char :=
  cs.flatMap fun c => if c = '\n' then c :: List.replicate width ' ' else [c]

theorem forall_mem_indentLines {P : Char → Prop} (width : Nat) (hspace : P ' ')
    (h : ∀ c ∈ cs, P c) : ∀ d ∈ indentLines width cs, P d := by
  intro d hd
  obtain ⟨c, hc, hd⟩ := List.mem_flatMap.1 hd
  split at hd
  · rcases List.mem_cons.1 hd with rfl | hd
    · exact h d hc
    · rw [List.eq_of_mem_replicate hd]
      exact hspace
  · rw [List.mem_singleton.1 hd]
    exact h c hc

theorem indentLines_ne_nil (width : Nat) (h : cs ≠ []) : indentLines width cs ≠ [] := by
  obtain ⟨c, cs, rfl⟩ := List.exists_cons_of_ne_nil h
  rw [indentLines, List.flatMap_cons]
  split <;> simp

/-- Outside quotes every line of blanks is shifted. -/
theorem padFrom_blanks (width : Nat) (h : ∀ c ∈ w, isBlank c = true) :
    padFrom (List.replicate width ' ') none (w ++ cs) =
      indentLines width w ++ padFrom (List.replicate width ' ') none cs := by
  induction w with
  | nil => rfl
  | cons c w ih =>
    obtain ⟨hc, hw⟩ := List.forall_mem_cons.1 h
    rw [List.cons_append, indentLines, List.flatMap_cons, ← indentLines, List.append_assoc]
    by_cases hbreak : c = '\n'
    · subst hbreak
      rw [padFrom_break, ih hw]
      rfl
    · have hopen : openMark none c = none := by
        refine openMark_none ?_ ?_ <;> rintro rfl <;> exact absurd hc (by decide)
      rw [padFrom_cons (by simp [hbreak]), hopen, ih hw, if_neg hbreak]
      rfl

/-! ### Shifting twice -/

theorem padFrom_padFrom (m n : Nat) (mark : Option Char) (cs : List Char) :
    padFrom (List.replicate n ' ') mark (padFrom (List.replicate m ' ') mark cs) =
      padFrom (List.replicate (m + n) ' ') mark cs := by
  induction cs generalizing mark with
  | nil => rfl
  | cons c cs ih =>
    by_cases h : c = '\n' ∧ mark = none
    · obtain ⟨rfl, rfl⟩ := h
      have hspaces : ∀ d ∈ List.replicate m ' ', d ≠ '\n' ∧ d ≠ stringMark ∧ d ≠ nameMark := by
        intro d hd
        rw [List.eq_of_mem_replicate hd]
        decide
      -- The second margin stands in front of the first one.
      rw [padFrom_break, padFrom_break, padFrom_break, padFrom_plain hspaces, ih,
        ← List.append_assoc, List.replicate_append_replicate, Nat.add_comm]
    · rw [padFrom_cons h, padFrom_cons h, padFrom_cons h, ih]

theorem pad_pad (text : String) (m n : Nat) : pad (pad text m) n = pad text (m + n) := by
  rw [pad, pad, pad, String.toList_ofList, padFrom_padFrom]

theorem pad_zero (text : String) : pad text 0 = text := by
  rw [pad, List.replicate_zero, padFrom_nil, String.ofList_toList]

end Sql.Text
