/-! Quoted text: a quote mark inside the text is written twice. -/
namespace Sql.Text

/-- The mark around string literals. -/
def stringMark : Char := '\x27'

/-- The mark around delimited identifiers. -/
def nameMark : Char := '\x22'

/-- Writes every occurrence of `mark` twice. -/
def doubled (mark : Char) : List Char → List Char
  | [] => []
  | c :: cs => if c = mark then c :: c :: doubled mark cs else c :: doubled mark cs

/-- The text between two marks, its own marks doubled. -/
def quote (mark : Char) (text : String) : String :=
  String.ofList (mark :: (doubled mark text.toList ++ [mark]))

/-- Reads up to the closing mark; the opening one is already gone. Two marks in a row stand for
one, and the characters after the closing mark are left over. -/
def unquote (mark : Char) : List Char → Option (List Char × List Char)
  | [] => none
  | [c] => if c = mark then some ([], []) else none
  | c :: d :: cs =>
    if c = mark then
      if d = mark then (unquote mark cs).map fun (text, rest) => (mark :: text, rest)
      else some ([], d :: cs)
    else (unquote mark (d :: cs)).map fun (text, rest) => (c :: text, rest)

theorem unquote_length {mark : Char} {cs text rest : List Char}
    (h : unquote mark cs = some (text, rest)) : rest.length < cs.length := by
  fun_induction unquote mark cs generalizing text rest with
  | case1 => simp at h
  | case2 => simp_all
  | case3 => simp_all
  | case4 cs ih =>
    obtain ⟨⟨t, r⟩, hr, heq⟩ := Option.map_eq_some_iff.1 h
    cases heq
    have := ih hr
    simp; omega
  | case5 => simp_all
  | case6 c d cs hc ih =>
    obtain ⟨⟨t, r⟩, hr, heq⟩ := Option.map_eq_some_iff.1 h
    cases heq
    have := ih hr
    simp at this ⊢; omega

end Sql.Text
