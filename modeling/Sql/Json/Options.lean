import Sql.Json.Reading
import Sql.Print.Layout

/-! Options in JSON documents. Keys that are missing keep their defaults. -/
namespace Sql

/-- Options of resolution. -/
structure ResolveOptions where
  /-- Tables that are found nowhere have no columns, and are no error. -/
  allowUnknown : Bool := false
deriving DecidableEq

namespace Json

/-- The largest width of an indentation. -/
def maxIndent : Nat := 0xFFFFFFFFFFFFFFFF

def mode? : Json → Option Mode
  | .string "default" | .object [("default", .null)] => some .inline
  | .string "pretty" | .object [("pretty", .null)] => some .pretty
  | _ => none

end Json

def Layout.ofJson? (document : Json) : Option Layout := do
  match ← document.record? ["mode", "indent"] with
  | [mode, indent] =>
    let initial : Layout := {}
    let mode ← Json.decodeOr? initial.mode Json.mode? mode
    let indent ← Json.decodeOr? initial.indent (Json.asNat? Json.maxIndent) indent
    return { mode, indent }
  | _ => none

def Layout.toJson (o : Layout) : Json :=
  .object [("mode", .string (match o.mode with | .inline => "default" | .pretty => "pretty")),
    ("indent", .integer o.indent)]

def Layout.load? (text : String) : Option Layout := (Json.ofText? text).bind ofJson?

def ResolveOptions.ofJson? (document : Json) : Option ResolveOptions := do
  match ← document.record? ["allow_unknown_relations"] with
  | [allow] => return ⟨← Json.decodeOr? false Json.asBool? allow⟩
  | _ => none

def ResolveOptions.toJson (o : ResolveOptions) : Json :=
  .object [("allow_unknown_relations", .boolean o.allowUnknown)]

def ResolveOptions.load? (text : String) : Option ResolveOptions :=
  (Json.ofText? text).bind ofJson?

end Sql
