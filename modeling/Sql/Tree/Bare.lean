import Sql.Tree.Basic

/-! Functions that are called without an argument list. -/
namespace Sql

def bareFunctions : List String :=
  ["current_date", "current_time", "current_timestamp", "localtime", "localtimestamp"]

def isBareFunction (word : String) : Bool := bareFunctions.contains word.toLower

/-- Is the name one undelimited word that stands for a call on its own? -/
def Name.isBare (n : Name) : Bool :=
  n.qualifier.isEmpty && !n.base.delimited && isBareFunction n.base.text

/-- Is the call written as its name alone? -/
def Call.isBare (c : Call) : Bool :=
  c.args.isEmpty && c.quantifier.isNone && c.order.isEmpty && c.filter.isNone && c.nulls.isNone &&
    c.window.isNone && c.name.isBare

end Sql
