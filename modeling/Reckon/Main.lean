import Reckon.Report
/-!
# Command line

Prints the report on the expressions given as arguments.
-/

/-- Prints the report on the arguments. -/
def main (arguments : List String) : IO UInt32 := do
  IO.print (Reckon.Report.ofArguments arguments)
  return Reckon.Report.exitCode
