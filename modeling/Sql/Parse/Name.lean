import Sql.Parse.Cursor

/-! Parsing names, and looking ahead for them. -/
namespace Sql.Parser

def ident : Parser Ident := do
  match ← peek with
  | .ident x => advance; return x
  | _ => unexpected "identifier"

/-- Another part of a dotted name. A point before anything but an identifier is left alone. -/
def namePart (n : Name) : Parser (Option Name) := do
  if (← check (.symbol .dot)) && (← peekAt 1).isIdent then
    advance
    return some (n.child (← ident))
  else return none

def name : Parser Name := do
  let first ← ident
  iterate namePart (.single first)

def identList : Parser (List Ident) := parens (commaList ident)

/-- A list of names in parentheses, if one follows. -/
def optionalIdentList : Parser (List Ident) := do
  if ← check (.symbol .leftParen) then identList else return []

/-- A new name after `AS`, or a bare one. -/
def optionalName : Parser (Option Ident) := do
  if ← eatKeyword .AS then return some (← ident)
  else if (← peek).isIdent then return some (← ident)
  else return none

/-- Do parentheses open before the start of a query? -/
def startsQuery : List Token → Bool
  | ⟨.symbol .leftParen, _⟩ :: ts => startsQuery ts
  | ⟨.keyword word, _⟩ :: _ => [Keyword.SELECT, .WITH, .VALUES, .TABLE].contains word
  | _ => false

/-- Is there at least one parenthesis and then a query? -/
def queryAhead : Parser Bool := do
  let c ← get
  return c.kind == .symbol .leftParen && startsQuery c.ahead

/-- Do the tokens after an opening parenthesis list the parameters of a lambda? -/
def listsParameters : List Token → Bool
  | ⟨.ident _, _⟩ :: ⟨.symbol .comma, _⟩ :: ts => listsParameters ts
  | ⟨.ident _, _⟩ :: ⟨.symbol .rightParen, _⟩ :: ⟨.symbol .arrow, _⟩ :: _ => true
  | _ => false

def parametersAhead : Parser Bool := do
  let c ← get
  return c.kind == .symbol .leftParen && listsParameters c.ahead.tail

/-- Do the tokens start with a name before a point and a star? -/
def namesStar : List Token → Bool
  | ⟨.ident _, _⟩ :: ⟨.symbol .dot, _⟩ :: ⟨.symbol .star, _⟩ :: _ => true
  | ⟨.ident _, _⟩ :: ⟨.symbol .dot, _⟩ :: ts => namesStar ts
  | _ => false

def starAhead : Parser Bool := return namesStar (← get).ahead

end Sql.Parser
