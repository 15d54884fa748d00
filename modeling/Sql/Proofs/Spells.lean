import Sql.Print.Tree
import Sql.Proofs.Spelling

/-! Texts that spell a list of tokens, with blanks between them. -/
namespace Sql

open Token (Kind Spelling)
open Token.Kind (commas joined parens parensIf given)

/-- A text of tokens, each apart from what follows it, and of blanks. -/
inductive Spells : List Char → List Kind → Prop where
  | nil : Spells [] []
  | blank {c : Char} {cs : List Char} {ts : List Kind} (hc : c = ' ' ∨ c = '\n')
      (h : Spells cs ts) : Spells (c :: cs) ts
  | token {w cs : List Char} {k : Kind} {ts : List Kind} (hw : Spelling w k) (ha : k.Apart cs)
      (h : Spells cs ts) : Spells (w ++ cs) (k :: ts)

namespace Token

theorem apart_nil (k : Kind) : k.Apart [] := by simp [Kind.Apart]

theorem Spelling.cons {w : List Char} {k : Kind} (h : Spelling w k) : ∃ c w', w = c :: w' := by
  obtain ⟨c, w', hw, -⟩ := h.scans (apart_nil k)
  exact ⟨c, w', hw⟩

/-- Characters that may stand behind every token. -/
def neutral (c : Char) : Bool := [' ', '\n', '(', ')', '[', ']', ','].contains c

theorem apart_of_neutral {c : Char} (h : neutral c = true) (k : Kind) : k.apart c = true := by
  have hc : c = ' ' ∨ c = '\n' ∨ c = '(' ∨ c = ')' ∨ c = '[' ∨ c = ']' ∨ c = ',' := by
    simpa [neutral] using h
  have hfacts : continuesWord c = false ∧ c ≠ Text.stringMark ∧ c ≠ Text.nameMark ∧ c ≠ '.' ∧
      c ≠ '-' ∧ c ≠ '>' ∧ c ≠ '*' ∧ c ≠ '=' ∧ c.isDigit = false := by
    rcases hc with rfl | rfl | rfl | rfl | rfl | rfl | rfl <;> cbv
  cases k with
  | symbol s => cases s <;> simp [Kind.apart, hfacts]
  | ident x => cases hx : x.delimited <;> simp [Kind.apart, hx, hfacts]
  | _ => simp [Kind.apart, hfacts]

end Token

namespace Spells

variable {cs cs' : List Char} {ts ts' : List Kind} {k : Kind}

theorem eq_nil (h : Spells [] ts) : ts = [] := by
  generalize hcs : ([] : List Char) = cs at h
  cases h with
  | nil => rfl
  | blank hc h => cases hcs
  | token hw ha h =>
    obtain ⟨c, w', rfl⟩ := hw.cons
    cases hcs

theorem scanFrom_congr {total : Nat} (h : Token.skip .blank cs = Token.skip .blank cs') :
    Token.scanFrom total cs = Token.scanFrom total cs' := by
  rw [Token.scanFrom, Token.scanFrom]
  split <;> split <;> simp_all

/-- The scanner finds the tokens that are spelled. -/
theorem scanFrom (h : Spells cs ts) (total : Nat) :
    (Token.scanFrom total cs).map (·.kind) = ts := by
  induction h with
  | nil => rw [Token.scanFrom]; rfl
  | @blank c cs ts hc h ih =>
    have hskip : Token.skip .blank (c :: cs) = Token.skip .blank cs := by
      rcases hc with rfl | rfl <;> rw [Token.skip] <;> first | rfl | simp
    rw [← ih, scanFrom_congr hskip]
  | @token w cs k ts hw ha h ih =>
    obtain ⟨c, w', rfl, hskip, hone⟩ := hw.scans ha
    rw [Token.scanFrom, List.cons_append]
    split
    · rename_i heq
      rw [hskip] at heq
      cases heq
    · rename_i heq
      rw [hskip] at heq
      cases heq
      simp only [hone, List.map_cons, ih]

/-- Nothing is read with the last token that does not belong to it. -/
def Joins (ts : List Kind) (cs : List Char) : Prop :=
  ∀ k, ts.getLast? = some k → k.Apart cs

theorem append (h : Spells cs ts) (h' : Spells cs' ts') (hj : Joins ts cs') :
    Spells (cs ++ cs') (ts ++ ts') := by
  induction h with
  | nil => exact h'
  | blank hc h ih => exact .blank hc (ih hj)
  | @token w cs k ts hw ha h ih =>
    rw [List.append_assoc, List.cons_append]
    refine .token hw ?_ (ih fun k' hk' => hj k' ?_)
    · cases cs with
      | nil =>
        obtain rfl := h.eq_nil
        exact hj k rfl
      | cons e cs => exact fun d hd => ha d hd
    · cases ts with
      | nil => cases hk'
      | cons t ts => rwa [List.getLast?_cons_cons]

theorem blanks (n : Nat) (h : Spells cs ts) : Spells (List.replicate n ' ' ++ cs) ts := by
  induction n with
  | zero => exact h
  | succ n ih => exact .blank (.inl rfl) ih

/-- Shifting lines does not change what is spelled. -/
theorem padFrom (width : Nat) (h : Spells cs ts) :
    Spells (Text.padFrom (List.replicate width ' ') none cs) ts := by
  induction h with
  | nil => exact .nil
  | blank hc h ih =>
    rcases hc with rfl | rfl
    · exact .blank (.inl rfl) ih
    · exact .blank (.inr rfl) (ih.blanks width)
  | token hw ha h ih =>
    rw [hw.padFrom]
    exact .token hw (by rwa [Token.Kind.Apart, Text.head?_padFrom]) ih

end Spells

/-! ### Texts -/

/-- The text spells the tokens. -/
def Prints (text : String) (ts : List Kind) : Prop := Spells text.toList ts

namespace Prints

variable {s t : String} {ts us : List Kind}

theorem scan (h : Prints s ts) : (Token.scan s).map (·.kind) = ts := h.scanFrom _

theorem append (h : Prints s ts) (h' : Prints t us) (hj : Spells.Joins ts t.toList) :
    Prints (s ++ t) (ts ++ us) := by
  unfold Prints
  rw [String.toList_append]
  exact Spells.append h h' hj

/-- A text in front of one that starts with a blank or a mark. -/
theorem append_of_neutral (h : Prints s ts) (h' : Prints t us)
    (ht : ∀ c, t.toList.head? = some c → Token.neutral c = true) :
    Prints (s ++ t) (ts ++ us) :=
  h.append h' fun k _ c hc => Token.apart_of_neutral (ht c hc) k

theorem empty : Prints "" [] := Spells.nil

theorem pad (width : Nat) (h : Prints s ts) : Prints (Text.pad s width) ts := by
  unfold Prints Text.pad
  rw [String.toList_ofList]
  exact Spells.padFrom width h

end Prints

/-! ### Fixed texts -/

/-- The marks among the neutral characters. -/
def neutralSymbol? : Char → Option Symbol
  | '(' => some .leftParen
  | ')' => some .rightParen
  | '[' => some .leftBracket
  | ']' => some .rightBracket
  | ',' => some .comma
  | _ => none

/-- The tokens of a text of words, blanks and neutral marks that does not end with a word; `word` is
the part of a word in front of it. -/
def leadKinds? (word : List Char) : List Char → Option (List Kind)
  | [] => if word.isEmpty then some [] else none
  | c :: cs =>
    let before := if word.isEmpty then [] else [Token.wordKind (String.ofList word)]
    if Token.startsWord c then leadKinds? (word ++ [c]) cs
    else if c = ' ' ∨ c = '\n' then (leadKinds? [] cs).map (before ++ ·)
    else
      match neutralSymbol? c with
      | some s => (leadKinds? [] cs).map (before ++ .symbol s :: ·)
      | none => none

section

variable {word cs cs' : List Char} {ts ts' : List Kind} {c : Char}

theorem spelling_of_neutralSymbol {s : Symbol} (h : neutralSymbol? c = some s) :
    Spelling [c] (.symbol s) ∧ Token.neutral c = true ∧ ∀ cs, (Kind.symbol s).Apart cs := by
  have hs : s.text.toList = [c] ∧ s ≠ .semicolon ∧ Token.neutral c = true := by
    unfold neutralSymbol? at h
    split at h <;> cases h <;> decide
  refine ⟨hs.1 ▸ .symbol s hs.2.1, hs.2.2, fun cs d _ => ?_⟩
  unfold neutralSymbol? at h
  split at h <;> cases h <;> rfl

theorem neutral_of_blank (hc : c = ' ' ∨ c = '\n') : Token.neutral c = true := by
  rcases hc with rfl | rfl <;> rfl

theorem isBare_concat (hw : word = [] ∨ Token.IsBare word) (hc : Token.startsWord c = true) :
    Token.IsBare (word ++ [c]) := by
  rcases hw with rfl | ⟨d, ds, rfl, hd, hds⟩
  · exact ⟨c, [], rfl, hc, by simp⟩
  · refine ⟨d, ds ++ [c], rfl, hd, ?_⟩
    intro e he
    rcases List.mem_append.1 he with he | he
    · exact hds e he
    · rw [List.mem_singleton.1 he]
      exact Token.continuesWord_of_startsWord hc

/-- A word in front of a neutral character. -/
theorem spells_word (hw : word = [] ∨ Token.IsBare word) (hc : Token.neutral c = true)
    (h : Spells (c :: cs) ts) :
    Spells (word ++ c :: cs)
      ((if word.isEmpty then [] else [Token.wordKind (String.ofList word)]) ++ ts) := by
  rcases hw with rfl | hw
  · exact h
  · have hne : word.isEmpty = false := by
      obtain ⟨d, ds, rfl, -⟩ := id hw
      rfl
    rw [hne]
    refine .token (.word hw) (fun d hd => ?_) h
    cases hd
    exact Token.apart_of_neutral hc _

theorem spells_leadKinds (hw : word = [] ∨ Token.IsBare word) (h : leadKinds? word cs = some ts)
    (h' : Spells cs' ts') : Spells (word ++ cs ++ cs') (ts ++ ts') := by
  induction cs generalizing word ts with
  | nil =>
    rw [leadKinds?] at h
    split at h
    · rename_i hempty
      cases h
      rw [List.isEmpty_iff.1 hempty]
      exact h'
    · cases h
  | cons c cs ih =>
    rw [leadKinds?] at h
    split at h
    · rename_i hc
      have := ih (.inr (isBare_concat hw hc)) h
      simpa using this
    · split at h
      · rename_i hc
        obtain ⟨us, hus, rfl⟩ := Option.map_eq_some_iff.1 h
        have := spells_word hw (neutral_of_blank hc) (.blank hc (ih (.inl rfl) hus))
        simpa using this
      · split at h
        · rename_i s hs
          obtain ⟨us, hus, rfl⟩ := Option.map_eq_some_iff.1 h
          obtain ⟨hspell, hneutral, hapart⟩ := spelling_of_neutralSymbol hs
          have := spells_word hw hneutral (.token hspell (hapart _) (ih (.inl rfl) hus))
          simpa using this
        · cases h

theorem spells_lastKinds (hw : word = [] ∨ Token.IsBare word)
    (h : leadKinds? word (cs ++ [' ']) = some ts) : Spells (word ++ cs) ts := by
  induction cs generalizing word ts with
  | nil =>
    have hblank : leadKinds? word [' '] =
        some ((if word.isEmpty then [] else [Token.wordKind (String.ofList word)]) ++ []) := by
      have hb : Token.startsWord ' ' = false := by cbv
      simp [leadKinds?, hb]
    rw [List.nil_append, hblank, Option.some.injEq] at h
    rw [← h, List.append_nil]
    rcases hw with rfl | hw
    · exact .nil
    · have hne : word.isEmpty = false := by
        obtain ⟨d, ds, rfl, -⟩ := id hw
        rfl
      have := Spells.token (.word hw) (Token.apart_nil _) .nil
      simpa [hne] using this
  | cons c cs ih =>
    rw [List.cons_append, leadKinds?] at h
    split at h
    · rename_i hc
      have := ih (.inr (isBare_concat hw hc)) h
      simpa using this
    · split at h
      · rename_i hc
        obtain ⟨us, hus, rfl⟩ := Option.map_eq_some_iff.1 h
        exact spells_word hw (neutral_of_blank hc) (.blank hc (ih (.inl rfl) hus))
      · split at h
        · rename_i s hs
          obtain ⟨us, hus, rfl⟩ := Option.map_eq_some_iff.1 h
          obtain ⟨hspell, hneutral, hapart⟩ := spelling_of_neutralSymbol hs
          exact spells_word hw hneutral (.token hspell (hapart _) (ih (.inl rfl) hus))
        · cases h

end

/-- A text behind which any other may stand. -/
structure Leads (s : String) (ts : List Kind) : Prop where
  prints : ∀ {t : String} {us : List Kind}, Prints t us → Prints (s ++ t) (ts ++ us)

/-- A text that may stand behind any other. -/
structure Follows (s : String) (ts : List Kind) : Prop where
  prints : Prints s ts
  neutral : ∀ c, s.toList.head? = some c → Token.neutral c = true

/-- Does the text start with a character that may stand behind every token? -/
def startsNeutral (s : String) : Bool := s.toList.head?.any Token.neutral

section

variable {s t : String} {ts us : List Kind}

theorem head?_append_of_startsNeutral (h : startsNeutral s = true) :
    ∀ c, (s ++ t).toList.head? = some c → Token.neutral c = true := by
  intro c hc
  rw [String.toList_append] at hc
  unfold startsNeutral at h
  cases hs : s.toList with
  | nil => simp [hs] at h
  | cons d ds =>
    rw [hs] at h hc
    cases hc
    simpa using h

theorem Leads.fixed (s : String) (ts : List Kind)
    (h : leadKinds? [] s.toList = some ts := by cbv) : Leads s ts := by
  refine ⟨fun {t us} ht => ?_⟩
  unfold Prints
  rw [String.toList_append]
  exact spells_leadKinds (.inl rfl) h ht

theorem Leads.append (h : Leads s ts) (h' : Leads t us) : Leads (s ++ t) (ts ++ us) := by
  refine ⟨fun {r vs} hr => ?_⟩
  rw [String.append_assoc, List.append_assoc]
  exact h.prints (h'.prints hr)

theorem Leads.empty : Leads "" [] := ⟨fun ht => by rwa [String.empty_append]⟩

namespace Prints

theorem fixed (s : String) (ts : List Kind)
    (h : leadKinds? [] (s.toList ++ [' ']) = some ts := by cbv) : Prints s ts :=
  spells_lastKinds (.inl rfl) h

theorem spelling {k : Kind} (h : Spelling s.toList k) : Prints s [k] := by
  have := Spells.token h (Token.apart_nil k) .nil
  simpa [Prints] using this

theorem symbol (s : Symbol) (h : s ≠ .semicolon) : Prints s.text [.symbol s] :=
  spelling (.symbol s h)

/-- A text before a fixed one that separates it from all that may come. -/
theorem leads (h : Prints s ts) (t : String) (us : List Kind)
    (ht : leadKinds? [] t.toList = some us := by cbv)
    (hn : startsNeutral t = true := by cbv) : Leads (s ++ t) (ts ++ us) := by
  refine ⟨fun {r vs} hr => ?_⟩
  rw [String.append_assoc, List.append_assoc]
  exact h.append_of_neutral ((Leads.fixed t us ht).prints hr) (head?_append_of_startsNeutral hn)

theorem follow (h : Prints s ts) (h' : Follows t us) : Prints (s ++ t) (ts ++ us) :=
  h.append_of_neutral h'.prints h'.neutral

end Prints

namespace Follows

theorem empty : Follows "" [] := ⟨.empty, by simp⟩

theorem fixed (s : String) (ts : List Kind)
    (h : leadKinds? [] (s.toList ++ [' ']) = some ts := by cbv)
    (hn : startsNeutral s = true := by cbv) : Follows s ts := by
  refine ⟨.fixed s ts h, fun c hc => head?_append_of_startsNeutral (t := "") hn c ?_⟩
  rwa [String.append_empty]

/-- A text behind a fixed one that separates it from all that stood before. -/
theorem lead (s : String) (ts : List Kind) (h : Prints t us)
    (hs : leadKinds? [] s.toList = some ts := by cbv)
    (hn : startsNeutral s = true := by cbv) : Follows (s ++ t) (ts ++ us) :=
  ⟨(Leads.fixed s ts hs).prints h, head?_append_of_startsNeutral hn⟩

end Follows

namespace Prints

/-- A text before a fixed one at the end. -/
theorem ends (h : Prints s ts) (t : String) (us : List Kind)
    (ht : leadKinds? [] (t.toList ++ [' ']) = some us := by cbv)
    (hn : startsNeutral t = true := by cbv) : Prints (s ++ t) (ts ++ us) :=
  h.follow (.fixed t us ht hn)

/-- A text between an opening one and the closing mark. -/
theorem close (h : Prints t us) (hs : Leads s ts) :
    Prints (s ++ t ++ ")") (ts ++ us ++ [.symbol .rightParen]) :=
  (hs.prints h).ends ")" [.symbol .rightParen] (by cbv) (by cbv)

theorem wrap (h : Prints s ts) : Prints (Text.parenthesize s) (parens ts) := by
  unfold Text.parenthesize
  exact (h.pad 1).close (.fixed "(" [.symbol .leftParen] (by cbv))

theorem wrapIf (needed : Bool) (h : Prints s ts) :
    Prints (Sql.wrapIf needed s) (parensIf needed ts) := by
  unfold Sql.wrapIf parensIf
  split
  · exact h.wrap
  · exact h

end Prints

end

end Sql
