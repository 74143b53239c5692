import Reckon.Decimal.Layout
import Reckon.Program
/-!
# Reports

What the command line prints: for each expression its text and its value, or why
it has none, and a rule below it.
-/

namespace Reckon.Report

/-- Values are written in positional form from 0.0001 on and below ten quadrillion. -/
def layout : Decimal.Layout where
  least := -4
  limit := 16
  infinity := "inf".toList
  nan := "NaN".toList

/-- The report on one expression. -/
def entry (expression : String) : String :=
  let body :=
    match evaluate expression.toList with
    | .ok x => "Expression: " ++ expression ++ "\nResult: " ++ String.ofList (layout.number x)
    | .error rejection => "Error in expression '" ++ expression ++ "': " ++ rejection.message
  body ++ "\n---\n"

/-- The expressions that are reported on when none are given. -/
def samples : List String :=
  ["19+19",
   "(1 + (2 + (3 + (4 + (5 + (6 + (7 + (8 + (9 + (10))))))))))",
   "six plus three",
   "Can you tell me 2 + 3?",
   "5 multiplied by 10 multiplied by 2",
   "12 plus (10 divided by 2)",
   "3 divided by (2 plus 1)"]

/-- The report on a list of expressions, or on the samples when it is empty. -/
def ofArguments (arguments : List String) : String :=
  let expressions := if arguments.isEmpty then samples else arguments
  String.join (expressions.map entry)

/-- The exit code; an expression without a value is no failure of the program. -/
def exitCode : UInt32 := 0

end Reckon.Report
