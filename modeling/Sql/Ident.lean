import Sql.Pairing
import Sql.Text.Quoted
import Sql.Text.Segments

/-! Identifiers and dotted names. -/
namespace Sql

structure Ident where
  text : String
  /-- Written between double quotes. -/
  delimited : Bool
deriving DecidableEq

namespace Ident

def plain (text : String) : Ident := ⟨text, false⟩

def quoted (text : String) : Ident := ⟨text, true⟩

/-- What identifiers are compared by: a delimited one is exact, any other ignores ASCII case. -/
def key (x : Ident) : String := if x.delimited then x.text else x.text.toLower

/-- Do the two identifiers name the same thing? -/
def same (x y : Ident) : Bool := x.key == y.key

/-- Every identifier is printed between double quotes. -/
def sql (x : Ident) : String := Text.quote Text.nameMark x.text

def sqlList (xs : List Ident) : String := ", ".intercalate (xs.map sql)

/-- The identifiers without repetitions, the first spelling kept. -/
def distinct (xs : List Ident) : List Ident :=
  xs.foldl (fun kept x => if kept.any (·.same x) then kept else kept ++ [x]) []

end Ident

/-- A dotted name such as `catalog.schema.table`; it has at least one part. -/
structure Name where
  qualifier : List Ident
  base : Ident
deriving DecidableEq

namespace Name

def single (x : Ident) : Name := ⟨[], x⟩

/-- All parts, outermost first. -/
def parts (n : Name) : List Ident := n.qualifier ++ [n.base]

def ofParts? : List Ident → Option Name
  | [] => none
  | [x] => some (single x)
  | x :: xs => (ofParts? xs).map fun n => ⟨x :: n.qualifier, n.base⟩

/-- Splits at dots into plain parts, leaving out empty ones. -/
def ofDotted? (text : String) : Option Name :=
  ofParts? ((Text.words (· == '.') text).map .plain)

/-- Splits at dots; a text without any part is one identifier as it stands. -/
def ofDotted (text : String) : Name := (ofDotted? text).getD (single (.plain text))

def child (n : Name) (x : Ident) : Name := ⟨n.parts, x⟩

def length (n : Name) : Nat := n.parts.length

def same (m n : Name) : Bool := sameList Ident.same m.parts n.parts

/-- Is `suffix` a non-empty list of the last parts of the name? -/
def endsWith (n : Name) (suffix : List Ident) : Bool :=
  !suffix.isEmpty && suffix.length ≤ n.length &&
    sameList Ident.same (n.parts.drop (n.length - suffix.length)) suffix

def sql (n : Name) : String := ".".intercalate (n.parts.map Ident.sql)

end Name

end Sql
