import Sql.Json.Basic
import Sql.Text.Bytes
import Sql.Text.Digits

/-! Writing JSON text, without blanks between its parts. -/
namespace Sql.Json

/-- Marks, backslashes and control characters are escaped. -/
def escaped (c : Char) : List Char :=
  if c = '\x22' then ['\\', '\x22']
  else if c = '\\' then ['\\', '\\']
  else if c.toNat < 0x20 then
    ['\\', 'u', '0', '0', Text.hexDigit (c.toNat / 16), Text.hexDigit (c.toNat % 16)]
  else [c]

def quoted (text : String) : String :=
  "\x22" ++ String.ofList (text.toList.flatMap escaped) ++ "\x22"

mutual

def toText : Json → String
  | null => "null"
  | boolean true => "true"
  | boolean false => "false"
  | integer n => Text.signedDecimal n
  | real written => written
  | string s => quoted s
  | textless => "\x22\\uD800\x22"
  | array items => "[" ++ ",".intercalate (texts items) ++ "]"
  | object members => "\x7b" ++ ",".intercalate (memberTexts members) ++ "\x7d"
termination_by structural j => j

def texts : List Json → List String
  | [] => []
  | item :: items => item.toText :: texts items
termination_by structural items => items

def memberTexts : List (String × Json) → List String
  | [] => []
  | (key, value) :: members => (quoted key ++ ":" ++ value.toText) :: memberTexts members
termination_by structural members => members

end

end Sql.Json
