/-! Cutting text into pieces. -/
namespace Sql.Text

/-- The pieces between the places where `cut` holds; there is always at least one. -/
def segments (cut : Char → Bool) : List Char → List (List Char)
  | [] => [[]]
  | c :: cs =>
    match segments cut cs with
    | [] => [[c]]
    | piece :: pieces => if cut c then [] :: piece :: pieces else (c :: piece) :: pieces

/-- The non-empty pieces as text. -/
def words (cut : Char → Bool) (text : String) : List String :=
  ((segments cut text.toList).filter (· ≠ [])).map String.ofList

end Sql.Text
