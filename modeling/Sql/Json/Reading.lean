import Sql.Json.Basic
import Sql.Text.Bytes
import Sql.Text.Digits

/-! Reading JSON text. Each reader gives a value and the characters after it. -/
namespace Sql.Json

def isBlank (c : Char) : Bool := c == ' ' || c == '\n' || c == '\t' || c == '\r'

def skipBlanks (cs : List Char) : List Char := cs.dropWhile isBlank

/-- Drops a fixed beginning. -/
def literal? (word : String) (cs : List Char) : Option (List Char) :=
  if word.toList.isPrefixOf cs then some (cs.drop word.length) else none

/-- Four hexadecimal digits. -/
def unit? : List Char → Option (Nat × List Char)
  | a :: b :: c :: d :: cs => do
    let digits ← [a, b, c, d].mapM Text.hexValue?
    return (digits.foldl (16 * · + ·) 0, cs)
  | _ => none

/-- The second half of a surrogate pair, written as an escape of its own. -/
def lowHalf? : List Char → Option (Nat × List Char)
  | '\\' :: 'u' :: cs => do
    let (low, rest) ← unit? cs
    if 0xDC00 ≤ low ∧ low < 0xE000 then return (low, rest) else none
  | _ => none

/-- The character of an escape after `u`; half of a surrogate pair is none. -/
def unicodeEscape? (cs : List Char) : Option (Option Char × List Char) := do
  let (high, rest) ← unit? cs
  if 0xD800 ≤ high ∧ high < 0xDC00 then
    match lowHalf? rest with
    | some (low, rest) =>
      return (some (Char.ofNat (0x10000 + (high - 0xD800) * 0x400 + (low - 0xDC00))), rest)
    | none => return (none, rest)
  else if 0xDC00 ≤ high ∧ high < 0xE000 then return (none, rest)
  else return (some (Char.ofNat high), rest)

/-- The character of an escape after the backslash. -/
def escape? : List Char → Option (Option Char × List Char)
  | '\x22' :: cs => some ('\x22', cs)
  | '\\' :: cs => some ('\\', cs)
  | '/' :: cs => some ('/', cs)
  | 'b' :: cs => some ('\x08', cs)
  | 'f' :: cs => some ('\x0C', cs)
  | 'n' :: cs => some ('\n', cs)
  | 'r' :: cs => some ('\r', cs)
  | 't' :: cs => some ('\t', cs)
  | 'u' :: cs => unicodeEscape? cs
  | _ => none

/-- The rest of a string after its opening mark, with the text it stands for if there is one. -/
def text? : Nat → List Char → Option (Option (List Char) × List Char)
  | 0, _ => none
  | _, [] => none
  | bound + 1, c :: cs =>
    if c = '\x22' then some (some [], cs)
    else if c = '\\' then do
      let (d, rest) ← escape? cs
      let (text, rest) ← text? bound rest
      let longer : Option (List Char) := do return (← d) :: (← text)
      return (longer, rest)
    else if c.toNat < 0x20 then none
    else do
      let (text, rest) ← text? bound cs
      return (text.map (c :: ·), rest)

def string? (cs : List Char) : Option (Option String × List Char) := do
  let rest ← literal? "\x22" cs
  let (text, rest) ← text? rest.length rest
  return (text.map String.ofList, rest)

/-- An object, if all its keys have a text. -/
def ofMembers (members : List (Option String × Json)) : Json :=
  let named : Option (List (String × Json)) := members.mapM fun (key, value) => do
    return (← key, value)
  named.elim .textless .object

/-- One or more digits. -/
def digits? (cs : List Char) : Option (List Char × List Char) :=
  let (digits, rest) := Text.takeDigits cs
  if digits.isEmpty then none else some (digits, rest)

/-- Drops a fraction if one follows, and tells whether one did. -/
def fraction? : List Char → Option (Bool × List Char)
  | '.' :: cs => (digits? cs).map fun (_, rest) => (true, rest)
  | cs => some (false, cs)

/-- Drops an exponent if one follows, and tells whether one did. -/
def exponent? : List Char → Option (Bool × List Char)
  | c :: cs =>
    if c == 'e' || c == 'E' then
      let digits := match cs with
        | '+' :: cs | '-' :: cs => cs
        | cs => cs
      (digits? digits).map fun (_, rest) => (true, rest)
    else some (false, c :: cs)
  | [] => some (false, [])

/-- The value of a whole number that is neither a negative zero nor too large for a word. -/
def wholeNumber? (negative : Bool) (n : Nat) : Option Int :=
  if negative then (if 0 < n ∧ n ≤ 0x8000000000000000 then some (-(n : Int)) else none)
  else if n ≤ 0xFFFFFFFFFFFFFFFF then some n
  else none

def number? (cs : List Char) : Option (Json × List Char) := do
  let (negative, unsigned) := match cs with
    | '-' :: cs => (true, cs)
    | cs => (false, cs)
  let (digits, rest) ← digits? unsigned
  if digits.head? = some '0' ∧ 1 < digits.length then none
  else
    let (hasFraction, rest) ← fraction? rest
    let (hasExponent, rest) ← exponent? rest
    let written := String.ofList (cs.take (cs.length - rest.length))
    let whole := if hasFraction || hasExponent then none
      else wholeNumber? negative (Text.digitsValue digits)
    return (whole.elim (.real written) .integer, rest)

mutual

/-- A value; blanks before it have been dropped. -/
def value? : Nat → List Char → Option (Json × List Char)
  | 0, _ => none
  | _, [] => none
  | bound + 1, c :: cs =>
    if c = 'n' then (literal? "null" (c :: cs)).map (.null, ·)
    else if c = 't' then (literal? "true" (c :: cs)).map (.boolean true, ·)
    else if c = 'f' then (literal? "false" (c :: cs)).map (.boolean false, ·)
    else if c = '\x22' then
      (string? (c :: cs)).map fun (text, rest) => (text.elim .textless .string, rest)
    else if c = '[' then
      match skipBlanks cs with
      | ']' :: rest => some (.array [], rest)
      | rest => (items? bound rest).map fun (items, rest) => (.array items, rest)
    else if c = '\x7b' then
      match skipBlanks cs with
      | '\x7d' :: rest => some (.object [], rest)
      | rest => (members? bound rest).map fun (members, rest) => (ofMembers members, rest)
    else number? (c :: cs)

/-- The items of an array up to its closing bracket. -/
def items? : Nat → List Char → Option (List Json × List Char)
  | 0, _ => none
  | bound + 1, cs => do
    let (item, rest) ← value? bound cs
    match skipBlanks rest with
    | ']' :: rest => return ([item], rest)
    | ',' :: rest =>
      let (items, rest) ← items? bound (skipBlanks rest)
      return (item :: items, rest)
    | _ => none

/-- The members of an object up to its closing brace. -/
def members? : Nat → List Char → Option (List (Option String × Json) × List Char)
  | 0, _ => none
  | bound + 1, cs => do
    let (key, rest) ← string? cs
    match skipBlanks rest with
    | ':' :: rest =>
      let (value, rest) ← value? bound (skipBlanks rest)
      match skipBlanks rest with
      | '\x7d' :: rest => return ([(key, value)], rest)
      | ',' :: rest =>
        let (members, rest) ← members? bound (skipBlanks rest)
        return ((key, value) :: members, rest)
      | _ => none
    | _ => none

end

/-- A whole document. Reading takes at most two steps for each character. -/
def ofText? (text : String) : Option Json := do
  let cs := skipBlanks text.toList
  let (value, rest) ← value? (2 * cs.length + 2) cs
  if (skipBlanks rest).isEmpty then return value else none

end Sql.Json
