import Palette.Yaml.Document
import Palette.Yaml.Scan

/-!
# Reading YAML

Every scalar is read as a text, whatever it looks like.  Collections are read to
any depth: where the stack of an interpreter ends is left to the machine of a
run.
-/

namespace Palette
namespace Yaml

def read (text : List Char) : Except Fault (Datum ν) :=
  if text.all isReadable then document (tokens (normalize text)) else .error .malformed

end Yaml
end Palette
