import Sql.Proofs.Lexemes
import Sql.Proofs.Results

/-! The tokens of a text tile it: each one can be read on its own, nothing but blanks and comments
stands between them, and any gap may be replaced by one blank. -/
namespace Sql

open Token (Kind kindsOf skip scanOne scanFrom)

/-! ### Spans -/

namespace Span

/-- The span covers the characters `part` of the text. -/
def Covers (s : Span) (text part : List Char) : Prop :=
  ∃ before after, text = before ++ (part ++ after) ∧ s.start = Text.byteLength before ∧
    s.stop = Text.byteLength (before ++ part)

/-- Both ends of the span stand between characters of the text, or at its ends. -/
def OnCharacters (s : Span) (text : String) : Prop := ∃ part, s.Covers text.toList part

/-- From the end of one span to the start of another. -/
def between (s t : Span) : Span := ⟨s.stop, t.start⟩

end Span

namespace Token

/-- What stands in front of every token, the mark of the end included. -/
def gaps (text : String) : List String :=
  List.zipWith (fun stop start => Span.slice ⟨stop, start⟩ text)
    (0 :: (scanAll text).map (·.span.stop)) ((scanAll text).map (·.span.start))

/-- What stands in front of the first token. -/
def leading (text : String) : String :=
  Span.slice ⟨0, ((scanAll text).map (·.span.start)).headD 0⟩ text

/-- The text with one blank in place of every gap between consecutive tokens. -/
def respaced (text : String) : String :=
  leading text ++ " ".intercalate ((scanAll text).map (·.span.slice text))

/-- The tokens of a text lie side by side in it, and each of them can be read on its own. -/
structure Tiled (text : String) : Prop where
  /-- The end of the text is marked by the last token only, all others cover something. -/
  ending : ∃ ts, scanAll text = ts ++ [⟨.endOfInput, ⟨text.utf8ByteSize, text.utf8ByteSize⟩⟩] ∧
    ∀ t ∈ ts, t.kind ≠ .endOfInput ∧ t.span.start < t.span.stop
  placed : ∀ t ∈ scanAll text, t.span.OnCharacters text
  ordered : (scanAll text).IsChain fun s t => s.span.stop ≤ t.span.start
  /-- Nothing but blanks and comments stands in front of a token, be it the first one or not. -/
  skipped : ∀ gap ∈ gaps text, skip .blank gap.toList = []
  gaps : (scanAll text).IsChain fun s t =>
    kindsAll ((s.span.between t.span).slice text) = [.endOfInput]
  alone : ∀ t ∈ scanAll text, t.kind ≠ .endOfInput →
    kindsAll (t.span.slice text) = [t.kind, .endOfInput]
  respaced : kindsAll (respaced text) = kindsAll text

end Token

namespace Text

theorem byteLength_append (xs ys : List Char) :
    byteLength (xs ++ ys) = byteLength xs + byteLength ys := by
  induction xs with
  | nil => simp [byteLength]
  | cons c xs ih => simp [byteLength, ih, Nat.add_assoc]

theorem byteLength_ofList (cs : List Char) : byteLength cs = (String.ofList cs).utf8ByteSize := by
  induction cs with
  | nil => simp [byteLength, String.ofList_nil]
  | cons c cs ih =>
    rw [byteLength, ih, String.ofList_cons, String.utf8ByteSize_append,
      String.utf8ByteSize_singleton]

theorem byteLength_toList (text : String) : byteLength text.toList = text.utf8ByteSize := by
  rw [byteLength_ofList, String.ofList_toList]

theorem byteLength_pos {cs : List Char} (h : cs ≠ []) : 0 < byteLength cs := by
  cases cs with
  | nil => exact absurd rfl h
  | cons c cs =>
    have := Char.utf8Size_pos c
    rw [byteLength]
    omega

end Text

namespace Span

variable {part : List Char}

theorem dropBytes_append (before rest : List Char) :
    dropBytes (Text.byteLength before) (before ++ rest) = some rest := by
  induction before with
  | nil => simp [Text.byteLength, dropBytes]
  | cons c cs ih =>
    have hpos := Char.utf8Size_pos c
    rw [List.cons_append, Text.byteLength, dropBytes, if_pos (Nat.le_add_right _ _),
      Nat.add_sub_cancel_left, ih]
    omega

theorem takeBytes_append (part rest : List Char) :
    takeBytes (Text.byteLength part) (part ++ rest) = some part := by
  induction part with
  | nil => simp [Text.byteLength, takeBytes]
  | cons c cs ih =>
    have hpos := Char.utf8Size_pos c
    rw [List.cons_append, Text.byteLength, takeBytes, if_pos (Nat.le_add_right _ _),
      Nat.add_sub_cancel_left, ih]
    · rfl
    · omega

theorem Covers.le {s : Span} {text : List Char} (h : s.Covers text part) : s.start ≤ s.stop := by
  obtain ⟨before, after, -, hstart, hstop⟩ := h
  rw [Text.byteLength_append] at hstop
  omega

theorem Covers.lt {s : Span} {text : List Char} (h : s.Covers text part) (hpart : part ≠ []) :
    s.start < s.stop := by
  obtain ⟨before, after, -, hstart, hstop⟩ := h
  have hpos := Text.byteLength_pos hpart
  rw [Text.byteLength_append] at hstop
  omega

/-- The slice of a span is what the span covers. -/
theorem Covers.slice {s : Span} {text : String} (h : s.Covers text.toList part) :
    s.slice text = String.ofList part := by
  have hle := h.le
  obtain ⟨before, after, htext, hstart, hstop⟩ := h
  rw [Text.byteLength_append] at hstop
  have hlength : s.length = Text.byteLength part := by
    rw [length]
    omega
  rw [Span.slice, if_pos hle, htext, hstart, hlength, dropBytes_append, Option.bind_some,
    takeBytes_append]

end Span

/-! ### Tilings -/

/-- `ts` are the tokens of `cs`, which stands behind `before`. -/
inductive Tiling : List Char → List Char → List Token → Prop where
  | ending {before cs : List Char} : kindsOf cs = [] →
      Tiling before cs [Token.ending (Text.byteLength (before ++ cs))]
  | token {before gap word rest : List Char} {k : Kind} {ts : List Token} :
      Token.Passed gap → Token.Lexeme word k rest → k ≠ .endOfInput →
      Tiling (before ++ (gap ++ word)) rest ts →
      Tiling before (gap ++ (word ++ rest))
        (⟨k, Text.byteLength (before ++ gap), Text.byteLength (before ++ (gap ++ word))⟩ :: ts)

variable {before gap word cs : List Char} {text : String} {t : Token} {ts : List Token}

theorem tiling_scanFrom (before cs : List Char) :
    Tiling before cs (scanFrom (Text.byteLength (before ++ cs)) cs ++
      [Token.ending (Text.byteLength (before ++ cs))]) := by
  induction h : cs.length using Nat.strongRecOn generalizing before cs with
  | _ n ih =>
    subst h
    rw [scanFrom]
    split
    · rename_i hskip
      refine .ending ?_
      rw [Token.kindsOf_eq, hskip]
    · rename_i c rest hskip
      have hlen := Token.skip_length .blank cs
      have hone := Token.scanOne_length c rest
      rw [hskip, List.length_cons] at hlen
      obtain ⟨gap, hgap, hpassed⟩ := Token.exists_gap hskip
      obtain ⟨word, hword, hlexeme⟩ := Token.lexeme_of_skip hskip
      have hcs : cs = gap ++ (word ++ (scanOne c rest).2) := by rw [hgap, hword]
      have hrest := ih _ (by omega) (before ++ (gap ++ word)) (scanOne c rest).2 rfl
      have htotal : before ++ (gap ++ word) ++ (scanOne c rest).2 = before ++ cs := by
        rw [hcs]
        simp only [List.append_assoc]
      have hstop : Text.byteLength (before ++ cs) - Text.byteLength (scanOne c rest).2 =
          Text.byteLength (before ++ (gap ++ word)) := by
        rw [← htotal, Text.byteLength_append, Nat.add_sub_cancel]
      have hstart : Text.byteLength (before ++ cs) - Text.byteLength (c :: rest) =
          Text.byteLength (before ++ gap) := by
        rw [hgap, ← List.append_assoc, Text.byteLength_append _ (c :: rest), Nat.add_sub_cancel]
      rw [htotal] at hrest
      have htiles := Tiling.token hpassed hlexeme Token.scanOne_found.ne_endOfInput hrest
      rw [← hcs] at htiles
      simp only [hstart, hstop, List.cons_append]
      exact htiles

theorem tiling_scanAll (text : String) : Tiling [] text.toList (Token.scanAll text) := by
  have h := tiling_scanFrom [] text.toList
  rwa [List.nil_append, Text.byteLength_toList] at h

/-- The first token stands behind a gap. -/
theorem Tiling.head (h : Tiling before cs ts) : ∀ t ∈ ts.head?, ∃ gap, kindsOf gap = [] ∧
    Span.Covers ⟨Text.byteLength before, t.span.start⟩ (before ++ cs) gap := by
  intro t ht
  cases h with
  | ending hcs =>
    cases ht
    exact ⟨cs, hcs, before, [], by simp, rfl, rfl⟩
  | token hgap hword hk hrest =>
    cases ht
    rename_i gap word rest k ts
    refine ⟨gap, ?_, before, word ++ rest, rfl, rfl, rfl⟩
    have := hgap.kindsOf []
    rwa [List.append_nil, kindsOf_nil] at this

/-- Between two tokens stands a gap. -/
theorem Tiling.gaps (h : Tiling before cs ts) : ts.IsChain fun s t => ∃ gap, kindsOf gap = [] ∧
    (s.span.between t.span).Covers (before ++ cs) gap := by
  induction h with
  | ending => exact List.isChain_singleton _
  | token hgap hword hk hrest ih =>
    refine List.isChain_cons.2 ⟨?_, ?_⟩
    · intro t ht
      obtain ⟨gap, hempty, hcovers⟩ := hrest.head t ht
      refine ⟨gap, hempty, ?_⟩
      simpa only [Span.between, List.append_assoc] using hcovers
    · simpa only [List.append_assoc] using ih

/-- What stands in front of each token is skipped. -/
theorem Tiling.skipped (h : Tiling before cs ts) (htext : text.toList = before ++ cs) :
    ∀ gap ∈ List.zipWith (fun stop start => Span.slice ⟨stop, start⟩ text)
      (Text.byteLength before :: ts.map (·.span.stop)) (ts.map (·.span.start)),
      skip .blank gap.toList = [] := by
  induction h with
  | @ending before cs hcs =>
    have hcovers : Span.Covers ⟨Text.byteLength before, Text.byteLength (before ++ cs)⟩ text.toList
        cs :=
      ⟨before, [], by simp [htext], rfl, rfl⟩
    simp only [List.map_cons, List.map_nil, List.zipWith_cons_cons, List.zipWith_nil_right,
      List.forall_mem_singleton, Token.ending]
    rw [hcovers.slice, String.toList_ofList]
    exact Token.skip_of_kindsOf hcs
  | @token before gap word rest k ts hgap hword hk hrest ih =>
    have hcovers : Span.Covers ⟨Text.byteLength before, Text.byteLength (before ++ gap)⟩ text.toList
        gap :=
      ⟨before, word ++ rest, htext, rfl, rfl⟩
    have hrest : text.toList = before ++ (gap ++ word) ++ rest := by
      rw [htext]
      simp only [List.append_assoc]
    simp only [List.map_cons, List.zipWith_cons_cons, List.forall_mem_cons]
    refine ⟨?_, ih hrest⟩
    rw [hcovers.slice, String.toList_ofList]
    exact hgap.skip

/-- Every token covers its own characters. -/
theorem Tiling.covers (h : Tiling before cs ts) : ∀ t ∈ ts, ∃ part,
    t.span.Covers (before ++ cs) part ∧
      (t.kind ≠ .endOfInput → part ≠ [] ∧ kindsOf part = [t.kind]) := by
  induction h with
  | @ending before cs hcs =>
    intro t ht
    rw [List.mem_singleton.1 ht]
    refine ⟨[], ⟨before ++ cs, [], by simp, rfl, by simp [Token.ending]⟩, ?_⟩
    intro hk
    exact absurd rfl hk
  | @token before gap word rest k ts hgap hword hk hrest ih =>
    intro t ht
    rcases List.mem_cons.1 ht with rfl | ht
    · exact ⟨word, ⟨before ++ gap, rest, by simp, rfl, by simp⟩,
        fun _ => ⟨hword.nonempty, hword.alone⟩⟩
    · obtain ⟨part, hcovers, hpart⟩ := ih t ht
      refine ⟨part, ?_, hpart⟩
      simpa only [List.append_assoc] using hcovers

/-- Every token starts behind those before it. -/
theorem Tiling.starts (h : Tiling before cs ts) :
    (∀ t ∈ ts, Text.byteLength before ≤ t.span.start) ∧
      ts.Pairwise fun t u => t.span.start < u.span.start := by
  induction h with
  | @ending before cs hcs =>
    refine ⟨?_, List.pairwise_singleton _ _⟩
    intro t ht
    rw [List.mem_singleton.1 ht, Token.ending, Text.byteLength_append]
    exact Nat.le_add_right _ _
  | @token before gap word rest k ts hgap hword hk hrest ih =>
    obtain ⟨hle, hordered⟩ := ih
    have hpos := Text.byteLength_pos hword.nonempty
    simp only [Text.byteLength_append] at hle ⊢
    refine ⟨List.forall_mem_cons.2 ⟨Nat.le_add_right _ _, ?_⟩, List.pairwise_cons.2 ⟨?_, hordered⟩⟩
    · intro t ht
      have := hle t ht
      omega
    · intro t ht
      have := hle t ht
      change Text.byteLength before + Text.byteLength gap < t.span.start
      omega

/-- No two tokens of a text stand at the same place. -/
theorem Token.eq_of_span_eq {i j : Nat} {u : Token} (ht : (scanAll text)[i]? = some t)
    (hu : (scanAll text)[j]? = some u) (h : t.span = u.span) : i = j := by
  have hordered := List.pairwise_iff_getElem.1 (tiling_scanAll text).starts.2
  obtain ⟨hi, rfl⟩ := List.getElem?_eq_some_iff.1 ht
  obtain ⟨hj, rfl⟩ := List.getElem?_eq_some_iff.1 hu
  rcases Nat.lt_trichotomy i j with hlt | heq | hlt
  · have := hordered i j hi hj hlt
    rw [h] at this
    omega
  · exact heq
  · have := hordered j i hj hi hlt
    rw [h] at this
    omega

/-- Only the last token marks the end. -/
theorem Tiling.last (h : Tiling before cs ts) : ∃ inner,
    ts = inner ++ [Token.ending (Text.byteLength (before ++ cs))] ∧
      ∀ t ∈ inner, t.kind ≠ .endOfInput := by
  induction h with
  | ending => exact ⟨[], rfl, nofun⟩
  | @token before gap word rest k ts hgap hword hk hrest ih =>
    obtain ⟨inner, rfl, hinner⟩ := ih
    refine ⟨⟨k, Text.byteLength (before ++ gap), Text.byteLength (before ++ (gap ++ word))⟩ ::
      inner, ?_, List.forall_mem_cons.2 ⟨hk, hinner⟩⟩
    rw [List.cons_append]
    simp only [List.append_assoc]

/-- Where nothing is left, nothing but the end is found. -/
theorem Tiling.of_nil (h : Tiling before [] ts) : ts = [Token.ending (Text.byteLength before)] := by
  generalize hcs : ([] : List Char) = cs at h
  cases h with
  | ending =>
    subst hcs
    rw [List.append_nil]
  | token hgap hword =>
    have hempty := (List.append_eq_nil_iff.1 hcs.symm).2
    exact absurd (List.append_eq_nil_iff.1 hempty).1 hword.nonempty

/-- The slices of the tokens of `text`, one blank between them. -/
def sliced (text : String) (ts : List Token) : List Char :=
  [' '].intercalate (ts.map fun t => (t.span.slice text).toList)

theorem sliced_ending (text : String) :
    sliced text [Token.ending (Text.byteLength text.toList)] = [] := by
  have hcovers : (Token.ending (Text.byteLength text.toList)).span.Covers text.toList [] :=
    ⟨text.toList, [], by simp, rfl, by simp [Token.ending]⟩
  simp [sliced, hcovers.slice]

/-- One blank between the slices leaves the kinds of the tokens as they are. -/
theorem Tiling.spaced (h : Tiling before cs ts) (htext : text.toList = before ++ cs) :
    kindsOf (sliced text ts) ++ [Kind.endOfInput] = ts.map (·.kind) := by
  induction h with
  | ending =>
    rw [← htext, sliced_ending, kindsOf_nil]
    rfl
  | @token before gap word rest k ts hgap hword hk hrest ih =>
    have hrestText : text.toList = before ++ (gap ++ word) ++ rest := by
      rw [htext]
      simp only [List.append_assoc]
    have hfound := ih hrestText
    obtain ⟨t, ts, rfl⟩ : ∃ t ts', ts = t :: ts' := by
      cases hrest <;> exact ⟨_, _, rfl⟩
    have hslice : Span.slice ⟨Text.byteLength (before ++ gap),
        Text.byteLength (before ++ (gap ++ word))⟩ text = String.ofList word := by
      refine Span.Covers.slice ⟨before ++ gap, rest, ?_, rfl, ?_⟩
      · rw [htext]
        simp only [List.append_assoc]
      · simp only [List.append_assoc]
    have hsliced : ∀ t', t'.span.slice text = String.ofList word →
        sliced text (t' :: t :: ts) = word ++ ' ' :: sliced text (t :: ts) := by
      intro t' ht'
      simp only [sliced, List.map_cons, List.intercalate_cons_cons, ht', String.toList_ofList,
        List.append_assoc, List.singleton_append]
    have hend : rest = [] → sliced text (t :: ts) = [] := by
      rintro rfl
      rw [hrest.of_nil, ← List.append_nil (before ++ (gap ++ word)), ← hrestText, sliced_ending]
    rw [hsliced _ hslice, hword.spaced _ hend, List.cons_append, hfound]
    rfl

/-- The gap in front of the first token is dropped too. -/
theorem Tiling.leading (h : Tiling [] text.toList ts) :
    kindsOf ((Span.slice ⟨0, (ts.map (·.span.start)).headD 0⟩ text).toList ++ sliced text ts) ++
      [.endOfInput] = ts.map (·.kind) := by
  have hspaced := h.spaced rfl
  generalize htext : text.toList = cs at h
  cases h with
  | ending hcs =>
    have hcovers : Span.Covers ⟨0, Text.byteLength ([] ++ cs)⟩ text.toList cs :=
      ⟨[], [], by simp [htext], rfl, rfl⟩
    have hsliced := sliced_ending text
    rw [htext] at hsliced
    simp only [List.map_cons, List.headD_cons, Token.ending] at hsliced ⊢
    rw [hcovers.slice, String.toList_ofList, List.nil_append, hsliced, List.append_nil, hcs]
    rfl
  | @token _ gap word rest k ts hgap hword hk hrest =>
    have hcovers : Span.Covers ⟨0, Text.byteLength ([] ++ gap)⟩ text.toList gap :=
      ⟨[], word ++ rest, htext, rfl, rfl⟩
    simp only [List.map_cons, List.headD_cons, hcovers.slice, String.toList_ofList, hgap.kindsOf]
    exact hspaced

namespace Token

theorem kindsAll_ofList (cs : List Char) :
    kindsAll (String.ofList cs) = kindsOf cs ++ [.endOfInput] := by
  rw [kindsAll, scanAll, scan, List.map_append, kinds_scanFrom, String.toList_ofList]
  rfl

/-- The tokens of every text tile it. -/
theorem tiled_scanAll (text : String) : Tiled text := by
  have h := tiling_scanAll text
  have hlex : ∀ {s : Span} {part : List Char}, s.Covers text.toList part →
      kindsAll (s.slice text) = kindsOf part ++ [.endOfInput] := by
    intro s part hs
    rw [hs.slice, kindsAll_ofList]
  refine ⟨?_, ?_, ?_, h.skipped rfl, ?_, ?_, ?_⟩
  · obtain ⟨ts, hts, hinner⟩ := h.last
    rw [List.nil_append, Text.byteLength_toList] at hts
    refine ⟨ts, hts, ?_⟩
    intro t ht
    have hmem : t ∈ scanAll text := by
      rw [hts]
      exact List.mem_append_left _ ht
    obtain ⟨part, hcovers, hpart⟩ := h.covers t hmem
    exact ⟨hinner t ht, hcovers.lt (hpart (hinner t ht)).1⟩
  · intro t ht
    obtain ⟨part, hcovers, -⟩ := h.covers t ht
    exact ⟨part, hcovers⟩
  · refine h.gaps.imp ?_
    rintro s t ⟨gap, -, hcovers⟩
    exact hcovers.le
  · refine h.gaps.imp ?_
    rintro s t ⟨gap, hempty, hcovers⟩
    rw [hlex hcovers, hempty]
    rfl
  · intro t ht hk
    obtain ⟨part, hcovers, hpart⟩ := h.covers t ht
    rw [hlex hcovers, (hpart hk).2]
    rfl
  · have hrespaced :
        kindsAll (respaced text) = kindsOf (respaced text).toList ++ [.endOfInput] := by
      rw [← kindsAll_ofList, String.ofList_toList]
    rw [hrespaced, respaced, String.toList_append, String.toList_intercalate, List.map_map]
    exact h.leading

end Token

end Sql
