import Sql.Text.Quoted

/-! Shifting text to the right. A line break inside quotes is data and is left alone. -/
namespace Sql.Text

/-- The quote mark that is open after `c`, given the one open before it. A doubled mark closes and
opens again, so it needs no rule of its own. -/
def openMark (mark : Option Char) (c : Char) : Option Char :=
  match mark with
  | none => if c = stringMark ∨ c = nameMark then some c else none
  | some m => if c = m then none else some m

/-- Puts `margin` after each line break outside quotes; `mark` is the quote open at the start. -/
def padFrom (margin : List Char) (mark : Option Char) : List Char → List Char
  | [] => []
  | c :: cs =>
    let rest := padFrom margin (openMark mark c) cs
    if c = '\n' ∧ mark = none then c :: (margin ++ rest) else c :: rest

def spaces (width : Nat) : String := String.ofList (List.replicate width ' ')

/-- Indents every line after the first by `width` columns. -/
def pad (text : String) (width : Nat) : String :=
  String.ofList (padFrom (List.replicate width ' ') none text.toList)

/-- Text in parentheses, its later lines kept under its first. -/
def parenthesize (text : String) : String := "(" ++ pad text 1 ++ ")"

/-- Text in parentheses behind `head`, its later lines kept under its first. -/
def parenthesizeAfter (head text : String) : String :=
  head ++ "(" ++ pad text (head.length + 1) ++ ")"

end Sql.Text
