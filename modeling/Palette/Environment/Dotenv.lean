import Palette.Entries
import Palette.Text.Blank
import Palette.Text.Lines

/-!
# Files of variables

Each line of such a file sets one variable.  Blanks around the name and around
the value are dropped, then double quotes and then apostrophes around the value.
Comments, lines without an equals sign and lines without a name set nothing.  A
variable keeps the place where it was first set, with the value set last.
-/

namespace Palette
namespace Dotenv

/-- What stands in front of the first equals sign, and what behind it. -/
def splitEquals? : List Char → Option (List Char × List Char)
  | [] => none
  | c :: rest =>
      if c = '=' then some ([], rest)
      else (splitEquals? rest).map fun (key, value) => (c :: key, value)

def unquote (value : List Char) : List Char :=
  Text.trimOf (· == '\'') (Text.trimOf (· == '"') (Text.trim value))

/-- The variable that a line sets. -/
def parseLine? (line : List Char) : Option (String × String) :=
  let line := Text.trim line
  if line.head? = some '#' then none
  else
    match splitEquals? line with
    | none => none
    | some (key, value) =>
        let key := Text.trim key
        if key.isEmpty then none else some (String.ofList key, String.ofList (unquote value))

/-- The variables that a text sets. -/
def parse (text : List Char) : List (String × String) :=
  Entries.ofList ((Text.splitLines text).filterMap parseLine?)

end Dotenv
end Palette
