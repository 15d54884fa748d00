import Sql.Double.Reading
import Sql.Text.Blank
import Sql.Text.Bytes
import Sql.Text.Letter
import Sql.Text.Numeral
import Sql.Token.Basic

/-! Cutting source text into tokens. -/
namespace Sql.Token

/-- What the characters between two tokens are part of. -/
inductive Gap where
  | blank
  | lineComment
  | blockComment

/-- Drops blanks and comments. A block comment ends at the first closing mark or with the text. -/
def skip : Gap → List Char → List Char
  | _, [] => []
  | .lineComment, c :: cs => if c = '\n' then skip .blank cs else skip .lineComment cs
  | .blockComment, '*' :: '/' :: cs => skip .blank cs
  | .blockComment, _ :: cs => skip .blockComment cs
  | .blank, '-' :: '-' :: cs => skip .lineComment cs
  | .blank, '/' :: '*' :: cs => skip .blockComment cs
  | .blank, c :: cs => if Text.isBlank c then skip .blank cs else c :: cs

theorem skip_length (gap : Gap) (cs : List Char) : (skip gap cs).length ≤ cs.length := by
  fun_induction skip gap cs <;> simp_all <;> omega

def startsWord (c : Char) : Bool := Text.isLetter c || c == '_'

def continuesWord (c : Char) : Bool := Text.isLetter c || Text.isNumeral c || c == '_'

/-- A bare word: reserved, or an identifier. -/
def wordKind (text : String) : Kind :=
  match Keyword.ofWord? text with
  | some k => .keyword k
  | none => .ident (.plain text)

/-- A word after its first character. -/
def scanWord (first : Char) (cs : List Char) : Kind × List Char :=
  (wordKind (String.ofList (first :: cs.takeWhile continuesWord)), cs.dropWhile continuesWord)

/-- A string literal after its opening mark. -/
def scanString (cs : List Char) : Kind × List Char :=
  match Text.unquote Text.stringMark cs with
  | some (text, rest) => (.string (String.ofList text), rest)
  | none => (.error .unterminatedString, [])

/-- A delimited identifier after its opening mark. -/
def scanName (cs : List Char) : Kind × List Char :=
  match Text.unquote Text.nameMark cs with
  | some ([], rest) => (.error .emptyName, rest)
  | some (text, rest) => (.ident (.quoted (String.ofList text)), rest)
  | none => (.error .unterminatedName, [])

/-- The content of a binary literal: pairs of hexadecimal digits, with blanks anywhere. -/
def binaryKind (text : List Char) : Kind :=
  match (text.filter (!Text.isBlank ·)).mapM Text.hexValue? with
  | none => .error .binaryCharacter
  | some digits =>
    if digits.length % 2 = 0 then .binary (Text.pairBytes digits) else .error .binaryOddDigits

/-- A binary literal after its opening mark. -/
def scanBinary (cs : List Char) : Kind × List Char :=
  match Text.unquote Text.stringMark cs with
  | some (text, rest) => (binaryKind text, rest)
  | none => (.error .unterminatedBinary, [])

/-- The part of a number behind its point, the point included. A point before a word or another
point belongs to what follows. -/
def takeFraction : List Char → List Char × List Char
  | '.' :: cs =>
    if cs.head?.any fun c => startsWord c || c == '.' then ([], '.' :: cs)
    else ('.' :: cs.takeWhile Char.isDigit, cs.dropWhile Char.isDigit)
  | cs => ([], cs)

/-- The exponent of a number, if its mark is followed by digits. -/
def takeExponent : List Char → List Char × List Char
  | [] => ([], [])
  | c :: cs =>
    if c.toLower = 'e' then
      match cs with
      | s :: ds =>
        if (s == '+' || s == '-') && ds.head?.any Char.isDigit then
          (c :: s :: ds.takeWhile Char.isDigit, ds.dropWhile Char.isDigit)
        else if s.isDigit then
          (c :: cs.takeWhile Char.isDigit, cs.dropWhile Char.isDigit)
        else ([], c :: cs)
      | [] => ([], [c])
    else ([], c :: cs)

def maxInteger : Nat := 0x7FFFFFFFFFFFFFFF

/-- A number without point or exponent is exact if it is too large for an integer. -/
def wholeKind (digits : List Char) : Kind :=
  let n := Text.digitsValue digits
  if n ≤ maxInteger then .integer (.ofNat n) else .decimal (String.ofList digits)

/-- A number after its first character, a digit or a point. -/
def scanNumber (first : Char) (cs : List Char) : Kind × List Char :=
  let (digits, rest) := Text.takeDigits cs
  let (fraction, rest) := if first = '.' then ([], rest) else takeFraction rest
  let (exponent, rest) := takeExponent rest
  let digits := first :: digits
  let kind :=
    if !exponent.isEmpty then
      .double ((Double.ofText? (String.ofList (digits ++ fraction ++ exponent))).getD .zero)
    else if first = '.' || !fraction.isEmpty then .decimal (String.ofList (digits ++ fraction))
    else wholeKind digits
  (kind, rest)

/-- Words, numbers and quoted text, by their first character. -/
def scanOther (c : Char) (cs : List Char) : Kind × List Char :=
  if c = Text.stringMark then scanString cs
  else if c = Text.nameMark then scanName cs
  else if c.toLower = 'x' ∧ cs.head? = some Text.stringMark then scanBinary cs.tail
  else if c.isDigit then scanNumber c cs
  else if startsWord c then scanWord c cs
  else (.error (.unexpectedCharacter c), cs)

/-- The token at the front of `c :: cs`, and what follows it. -/
def scanOne (c : Char) (cs : List Char) : Kind × List Char :=
  match c, cs with
  | '(', _ => (.symbol .leftParen, cs)
  | ')', _ => (.symbol .rightParen, cs)
  | '[', _ => (.symbol .leftBracket, cs)
  | ']', _ => (.symbol .rightBracket, cs)
  | ',', _ => (.symbol .comma, cs)
  | ';', _ => (.symbol .semicolon, cs)
  | '+', _ => (.symbol .plus, cs)
  | '*', _ => (.symbol .star, cs)
  | '/', _ => (.symbol .slash, cs)
  | '%', _ => (.symbol .percent, cs)
  | '?', _ => (.symbol .question, cs)
  | '=', _ => (.symbol .eq, cs)
  | '-', '>' :: rest => (.symbol .arrow, rest)
  | '-', _ => (.symbol .minus, cs)
  | '<', '=' :: rest => (.symbol .le, rest)
  | '<', '>' :: rest => (.symbol .ne, rest)
  | '<', _ => (.symbol .lt, cs)
  | '>', '=' :: rest => (.symbol .ge, rest)
  | '>', _ => (.symbol .gt, cs)
  | '!', '=' :: rest => (.symbol .ne, rest)
  | '|', '|' :: rest => (.symbol .concat, rest)
  | '.', _ => if cs.head?.any Char.isDigit then scanNumber c cs else (.symbol .dot, cs)
  | _, _ => scanOther c cs

theorem length_dropWhile_le (p : Char → Bool) (cs : List Char) :
    (cs.dropWhile p).length ≤ cs.length :=
  (List.dropWhile_sublist p).length_le

theorem takeFraction_length (cs : List Char) : (takeFraction cs).2.length ≤ cs.length := by
  unfold takeFraction
  split
  · rename_i rest
    have := length_dropWhile_le Char.isDigit rest
    split
    · simp
    · simp; omega
  · simp

theorem takeExponent_length (cs : List Char) : (takeExponent cs).2.length ≤ cs.length := by
  unfold takeExponent
  split
  · simp
  · rename_i c cs
    split
    · split
      · rename_i s ds
        have h := length_dropWhile_le Char.isDigit ds
        have h' := length_dropWhile_le Char.isDigit (s :: ds)
        simp only [List.length_cons] at h'
        split
        · simp; omega
        · split
          · simp; omega
          · simp
      · simp
    · simp

theorem scanNumber_length (c : Char) (cs : List Char) :
    (scanNumber c cs).2.length ≤ cs.length := by
  have digits := length_dropWhile_le Char.isDigit cs
  have fraction := takeFraction_length (cs.dropWhile Char.isDigit)
  by_cases h : c = '.'
  · have := takeExponent_length (cs.dropWhile Char.isDigit)
    simp only [scanNumber, Text.takeDigits, h, ↓reduceIte]
    omega
  · have := takeExponent_length (takeFraction (cs.dropWhile Char.isDigit)).2
    simp only [scanNumber, Text.takeDigits, h, ↓reduceIte]
    omega

theorem scanOther_length (c : Char) (cs : List Char) :
    (scanOther c cs).2.length ≤ cs.length := by
  unfold scanOther
  split
  · unfold scanString
    split
    · exact Nat.le_of_lt (Text.unquote_length ‹_›)
    · simp
  split
  · unfold scanName
    split
    · exact Nat.le_of_lt (Text.unquote_length ‹_›)
    · exact Nat.le_of_lt (Text.unquote_length ‹_›)
    · simp
  split
  · unfold scanBinary
    split
    · have := Text.unquote_length ‹_›
      simp at this ⊢
      omega
    · simp
  split
  · exact scanNumber_length c cs
  split
  · exact length_dropWhile_le continuesWord cs
  · exact Nat.le_refl _

/-- Every token takes at least its first character. -/
theorem scanOne_length (c : Char) (cs : List Char) : (scanOne c cs).2.length ≤ cs.length := by
  unfold scanOne
  split <;> first
    | exact Nat.le_refl _
    | exact Nat.le_succ _
    | exact scanOther_length _ _
    | (split; exact scanNumber_length _ _; exact Nat.le_refl _)

/-- The tokens of the rest of a text of `total` bytes. -/
def scanFrom (total : Nat) (cs : List Char) : List Token :=
  match h : skip .blank cs with
  | [] => []
  | c :: rest =>
    have : (scanOne c rest).2.length < cs.length := by
      have hskip := skip_length .blank cs
      have hone := scanOne_length c rest
      simp only [h, List.length_cons] at hskip
      omega
    let found := scanOne c rest
    let start := total - Text.byteLength (c :: rest)
    ⟨found.1, start, total - Text.byteLength found.2⟩ :: scanFrom total found.2
termination_by cs.length

/-- The tokens of a text without the mark of its end. -/
def scan (text : String) : List Token := scanFrom text.utf8ByteSize text.toList

/-- The mark of the end of a text of `total` bytes. -/
def ending (total : Nat) : Token := ⟨.endOfInput, total, total⟩

/-- The tokens of a text, the last one marking its end. -/
def scanAll (text : String) : List Token := scan text ++ [ending text.utf8ByteSize]

end Sql.Token
