import Sql.Double.Shortest
import Sql.Ident
import Sql.Token.Keyword
import Sql.Token.Span

/-! Tokens of the source text. -/
namespace Sql

/-- Operators and punctuation. -/
inductive Symbol where
  | plus | minus | star | slash | percent
  | eq | ne | lt | le | gt | ge
  | concat
  | arrow
  | leftParen | rightParen | leftBracket | rightBracket
  | comma | dot | semicolon
  | question
deriving DecidableEq

def Symbol.text : Symbol → String
  | plus => "+"
  | minus => "-"
  | star => "*"
  | slash => "/"
  | percent => "%"
  | eq => "="
  | ne => "<>"
  | lt => "<"
  | le => "<="
  | gt => ">"
  | ge => ">="
  | concat => "||"
  | arrow => "->"
  | leftParen => "("
  | rightParen => ")"
  | leftBracket => "["
  | rightBracket => "]"
  | comma => ","
  | dot => "."
  | semicolon => ";"
  | question => "?"

/-- Why some characters are no token. -/
inductive LexicalError where
  | unterminatedString
  | unterminatedName
  | emptyName
  | unterminatedBinary
  | binaryCharacter
  | binaryOddDigits
  | unexpectedCharacter (c : Char)
deriving DecidableEq

def LexicalError.message : LexicalError → String
  | unterminatedString => "Unterminated string literal"
  | unterminatedName => "Unterminated quoted identifier"
  | emptyName => "Zero-length delimited identifier"
  | unterminatedBinary => "Unterminated binary literal"
  | binaryCharacter => "Invalid character in binary literal"
  | binaryOddDigits => "Odd number of hex digits in binary literal"
  | unexpectedCharacter c => "Unexpected character '" ++ String.singleton c ++ "'"

inductive Token.Kind where
  | integer (value : Int64)
  /-- An exact number, kept as it was written. -/
  | decimal (text : String)
  | double (value : Double)
  | string (text : String)
  | binary (bytes : List UInt8)
  | ident (name : Ident)
  | keyword (word : Keyword)
  | symbol (mark : Symbol)
  | endOfInput
  | error (cause : LexicalError)
deriving DecidableEq

structure Token where
  kind : Token.Kind
  span : Span
deriving DecidableEq

namespace Token.Kind

/-- How a message names the token. -/
def describe : Kind → String
  | integer n => Text.signedDecimal n.toInt
  | decimal text => text
  | double d => d.text
  | string _ => "string literal"
  | binary _ => "binary literal"
  | ident x => if x.delimited then "\x22" ++ x.text ++ "\x22" else x.text
  | keyword k => k.word
  | symbol s => "'" ++ s.text ++ "'"
  | endOfInput => "end of input"
  | error cause => cause.message

/-- Is this the given undelimited word, in any case? Words that are not reserved are told apart
here; `word` is in upper case. -/
def isWord (word : String) : Kind → Bool
  | ident x => !x.delimited && x.text.toUpper == word
  | _ => false

def isIdent : Kind → Bool
  | ident _ => true
  | _ => false

def isString : Kind → Bool
  | string _ => true
  | _ => false

end Token.Kind

end Sql
