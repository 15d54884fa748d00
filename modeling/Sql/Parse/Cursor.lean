import Sql.Parse.Error
import Sql.Token.Scan

/-! Parsers over a list of tokens. A failed parser leaves no trace, so another can be tried from the
same place. -/
namespace Sql

structure Cursor where
  /-- The tokens not yet read, without the mark of the end. -/
  ahead : List Token
  /-- The length of the text in bytes. -/
  total : Nat
  /-- How many placeholders have been read. -/
  parameters : Nat

namespace Cursor

def ofText (text : String) : Cursor := ⟨Token.scan text, text.utf8ByteSize, 0⟩

/-- The next token; at the end of the text this is the mark of the end. -/
def token (c : Cursor) : Token := c.ahead.headD (Token.ending c.total)

/-- The kind of the token that is `n` places ahead. -/
def kindAt (c : Cursor) (n : Nat) : Token.Kind :=
  match c.ahead[n]? with
  | some t => t.kind
  | none => .endOfInput

def kind (c : Cursor) : Token.Kind := c.token.kind

def advance (c : Cursor) : Cursor := { c with ahead := c.ahead.tail }

end Cursor

abbrev Parser := StateT Cursor (Except ParseError)

namespace Parser

variable {α : Type}

def peek : Parser Token.Kind := return (← get).kind

def peekAt (n : Nat) : Parser Token.Kind := return (← get).kindAt n

/-- Where the next token stands. -/
def here : Parser Span := return (← get).token.span

def advance : Parser Unit := modify Cursor.advance

def failAt (span : Span) (cause : ParseError.Cause) : Parser α := throw ⟨cause, span⟩

/-- Refuses the next token. -/
def unexpected (expected : String) : Parser α := fun c =>
  .error ⟨.unexpected expected c.token.kind, c.token.span⟩

def check (kind : Token.Kind) : Parser Bool := return (← peek) == kind

/-- Is the next token the given word, which is not reserved? -/
def checkWord (word : String) : Parser Bool := return (← peek).isWord word

/-- Reads a token if the condition holds, and tells whether it did. -/
def advanceIf (condition : Bool) : Parser Bool := do
  if condition then advance
  return condition

def eat (kind : Token.Kind) : Parser Bool := do advanceIf (← check kind)

def eatSymbol (mark : Symbol) : Parser Bool := eat (.symbol mark)

def eatKeyword (word : Keyword) : Parser Bool := eat (.keyword word)

def eatWord (word : String) : Parser Bool := do advanceIf (← checkWord word)

def expectSymbol (mark : Symbol) : Parser Unit := do
  unless ← eatSymbol mark do unexpected (Token.Kind.symbol mark).describe

def expectKeyword (word : Keyword) : Parser Unit := do
  unless ← eatKeyword word do unexpected word.word

/-- Fails at `span` if the parts do not make a tree. -/
def valid (span : Span) : Except Invalid α → Parser α
  | .ok a => pure a
  | .error reason => failAt span (.invalid reason)

/-- Runs a parser and stays in place if it fails. -/
def attempt (p : Parser α) : Parser (Except ParseError α) := fun c =>
  match p c with
  | .ok (a, rest) => .ok (.ok a, rest)
  | .error e => .ok (.error e, c)

/-- Runs a parser and reports a given error in place of its own. -/
def orFailWith (p : Parser α) (e : ParseError) : Parser α := fun c =>
  match p c with
  | .ok result => .ok result
  | .error _ => .error e

/-- A parser if the condition holds. -/
def optional (condition : Bool) (p : Parser α) : Parser (Option α) :=
  if condition then some <$> p else pure none

/-- Repeats a step until it declines, at most `bound` times. -/
def iterateFor (step : α → Parser (Option α)) : Nat → α → Parser α
  | 0, a => pure a
  | bound + 1, a => do
    match ← step a with
    | some b => iterateFor step bound b
    | none => return a

/-- Repeats a step that reads a token each time, until it declines. -/
def iterate (step : α → Parser (Option α)) (a : α) : Parser α := do
  iterateFor step (← get).ahead.length a

/-- The items after the first of a list that is separated by commas. -/
def moreItems (item : Parser α) : Nat → Parser (List α)
  | 0 => pure []
  | bound + 1 => do
    if ← eatSymbol .comma then
      let a ← item
      return a :: (← moreItems item bound)
    else return []

/-- One or more items, separated by commas. -/
def commaList (item : Parser α) : Parser (List α) := do
  let a ← item
  return a :: (← moreItems item (← get).ahead.length)

def between (opening closing : Symbol) (p : Parser α) : Parser α := do
  expectSymbol opening
  let a ← p
  expectSymbol closing
  return a

def parens (p : Parser α) : Parser α := between .leftParen .rightParen p

/-- The end of the text, after an optional semicolon. -/
def finish : Parser Unit := do
  let _ ← eatSymbol .semicolon
  unless ← check .endOfInput do unexpected "end of input"

/-- Parses a whole text. -/
def run (p : Parser α) (text : String) : Except ParseError α :=
  (do let a ← p; finish; return a : Parser α).run' (Cursor.ofText text)

end Parser

end Sql
