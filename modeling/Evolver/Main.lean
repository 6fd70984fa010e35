import Evolver.Package
/-!
# The package's command line

Prints the package's metadata for each display option given; an unknown
option, or none at all, prints the usage text and an error and fails.
-/

/-- Print the fields the options ask for, or the usage and the error. -/
def main (args : List String) : IO UInt32 := do
  let out := Evolver.Package.metadata.run args
  IO.print out.printed
  match out.exit with
  | some msg =>
    IO.eprintln msg
    pure 1
  | none => pure 0
