import Evolver.Query.Basic
import Evolver.Package
/-!
# Queries on the package's metadata

`setup` runs the package's command line on display options only; anything
else is refused before the command line runs.
-/

namespace Evolver
namespace Query

/-- The arguments a `setup` query may pass. -/
def setupArguments : List String :=
  ["--version", "--name", "--author", "--author-email", "--description", "--url", "--license",
   "--fullname", "--contact", "--contact-email", "--maintainer", "--bogus-option"]

/-- `{"op": "setup", "args"}`: what the command line prints and the message
it stops with. -/
def setupQuery (q : Json) : Except Fault Json := do
  let args ← ((q.getD "args").arr?.getD []).mapM fun a => match a with
    | .str s => pure s
    | _ => throw (Fault.request "setup arguments must be strings")
  if let some bad := args.find? fun a => !setupArguments.contains a then
    throw (Fault.request s!"setup.py argument not allowed: {bad}")
  let out := Package.metadata.run args
  pure (.obj [("stdout", .str out.printed), ("exit", match out.exit with
    | some m => .str m
    | none => .null)])

end Query
end Evolver
