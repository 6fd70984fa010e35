/-!
# The package's metadata and the options that print it

The package describes itself by a name, a version, its authors with their
addresses, a description, a home page and a licence.  Its command line takes
display options, each printing one field on a line of its own, in the order
given:

* `--fullname` is the name and the version joined by a hyphen;
* `--contact` and `--contact-email` are the maintainer and the maintainer's
  address when there is a maintainer, else the authors and theirs;
* a missing field prints as `None`.

Options are read before anything is printed: an option that is not known
ends the run with the usage text and an error, and so does a command line
with no options at all.
-/

namespace Evolver
namespace Package

/-- What the package says about itself. -/
structure Metadata where
  name : String
  version : String
  author : String
  authorEmail : String
  description : String
  url : String
  license : String
  maintainer : Option String
  maintainerEmail : Option String

/-- The package's metadata. -/
def metadata : Metadata where
  name := "eckity"
  version := "0.4.0"
  author := "Moshe Sipper, Achiya Elyasaf, Itai Tzruia, Tomer Halperin"
  authorEmail := "sipper@gmail.com, achiya@bgu.ac.il, itaitz@post.bgu.ac.il, tomerhal@post.bgu.ac.il"
  description := "EC-KitY: Evolutionary Computation Tool Kit in Python."
  url := "https://www.eckity.org"
  license := "GNU GPLv3"
  maintainer := none
  maintainerEmail := none

/-- The text of a field that may be missing. -/
def fieldText : Option String → String
  | some s => s
  | none => "None"

/-- The line a display option prints, none for an option that is not known. -/
def Metadata.display (m : Metadata) (option : String) : Option String :=
  if option == "--name" then some m.name
  else if option == "--version" then some m.version
  else if option == "--fullname" then some (m.name ++ "-" ++ m.version)
  else if option == "--author" then some m.author
  else if option == "--author-email" then some m.authorEmail
  else if option == "--maintainer" then some (fieldText m.maintainer)
  else if option == "--maintainer-email" then some (fieldText m.maintainerEmail)
  else if option == "--contact" then some (m.maintainer.getD m.author)
  else if option == "--contact-email" then some (m.maintainerEmail.getD m.authorEmail)
  else if option == "--url" then some m.url
  else if option == "--license" || option == "--licence" then some m.license
  else if option == "--description" then some m.description
  else none

/-- The usage text of the command line. -/
def usage : String :=
  "usage: setup.py [global_opts] cmd1 [cmd1_opts] [cmd2 [cmd2_opts] ...]\n" ++
  "   or: setup.py --help [cmd1 cmd2 ...]\n" ++
  "   or: setup.py --help-commands\n" ++
  "   or: setup.py cmd --help\n"

/-- What a command line prints, and the message it stops with, if any. -/
structure Outcome where
  printed : String
  exit : Option String

/-- Run a command line of display options. -/
def Metadata.run (m : Metadata) (args : List String) : Outcome :=
  match args.find? fun a => (m.display a).isNone with
  | some bad => ⟨"", some (usage ++ "\nerror: option " ++ bad ++ " not recognized")⟩
  | none =>
    if args.isEmpty then ⟨"", some (usage ++ "\nerror: no commands supplied")⟩
    else ⟨String.join (args.map fun a => (m.display a).getD "" ++ "\n"), none⟩

end Package
end Evolver
