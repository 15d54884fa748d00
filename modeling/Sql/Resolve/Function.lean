import Sql.DataType.Supertype

/-! The result types of known functions. -/
namespace Sql

/-- A sum of whole numbers is a large one, and a sum of decimals keeps their scale. -/
def sumType : DataType → DataType
  | .scalar (.decimal _ scale) => .decimal DataType.maxPrecision scale
  | type => if type.isIntegral then .bigint else type

def averageType : DataType → DataType
  | .scalar (.decimal precision scale) => .decimal precision scale
  | .unknown => .unknown
  | _ => .double

/-- The type of a call, if the function is known; case does not matter in its name. -/
def returnType? (function : String) (args : List DataType) : Option DataType :=
  let first := args.headD .unknown
  match function.toLower with
  | "count" | "count_if" | "approx_distinct" | "length" | "strpos" | "date_diff" | "row_number"
  | "rank" | "dense_rank" | "ntile" | "cardinality" => some .bigint
  | "sum" => some (sumType first)
  | "avg" => some (averageType first)
  | "min" | "max" | "arbitrary" | "any_value" | "lower" | "upper" | "trim" | "ltrim" | "rtrim"
  | "reverse" | "substr" | "substring" | "abs" | "ceil" | "ceiling" | "floor" | "round" | "lag"
  | "lead" | "first_value" | "last_value" | "nth_value" => some first
  | "date_trunc" => some ((args.drop 1).headD .unknown)
  | "array_agg" => some (.array first)
  | "bool_and" | "bool_or" | "every" => some .boolean
  | "coalesce" | "greatest" | "least" | "nullif" => some (.supertypeAll args)
  | "if" => some (.supertypeAll (args.drop 1))
  | "concat" => some (.varchar none)
  | "sqrt" | "ln" | "exp" | "power" | "pow" | "rand" | "random" | "percent_rank" | "cume_dist" =>
    some .double
  | "now" | "current_timestamp" => some (.scalar (.timestamp DataType.defaultTimePrecision true))
  | "current_date" | "date" => some (.scalar .date)
  | "json_parse" => some (.scalar .json)
  | "json_format" => some (.varchar none)
  | _ => none

end Sql
