/-! Byte ranges of the source text. -/
namespace Sql

/-- The bytes from `start` up to but not including `stop`. -/
structure Span where
  start : Nat
  stop : Nat
deriving DecidableEq

namespace Span

def length (s : Span) : Nat := s.stop - s.start

def isEmpty (s : Span) : Bool := s.start == s.stop

/-- The smallest span that covers both. -/
def cover (s t : Span) : Span := ⟨min s.start t.start, max s.stop t.stop⟩

/-- The characters from a byte offset on, if a character starts there. -/
def dropBytes : Nat → List Char → Option (List Char)
  | 0, cs => some cs
  | _, [] => none
  | n, c :: cs => if c.utf8Size ≤ n then dropBytes (n - c.utf8Size) cs else none
termination_by _ cs => cs.length

/-- The characters up to a byte offset, if a character ends there. -/
def takeBytes : Nat → List Char → Option (List Char)
  | 0, _ => some []
  | _, [] => none
  | n, c :: cs => if c.utf8Size ≤ n then (takeBytes (n - c.utf8Size) cs).map (c :: ·) else none
termination_by _ cs => cs.length

/-- The covered part of the source, or nothing if the span does not lie on characters of it. -/
def slice (s : Span) (source : String) : String :=
  if s.start ≤ s.stop then
    match (dropBytes s.start source.toList).bind (takeBytes s.length) with
    | some cs => String.ofList cs
    | none => ""
  else ""

end Span

end Sql
