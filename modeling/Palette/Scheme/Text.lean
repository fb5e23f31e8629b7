import Palette.Scheme.Document
import Palette.Text.Lines
import Palette.Text.Utf8
import Palette.Yaml.Read
import Palette.Yaml.Write

/-!
# Schemes as text

A scheme is written as a YAML mapping and read back from one; reading derives
the slug.  What happens on the way is logged: a warning for each index given
again, and a line about the scheme when it was read.
-/

namespace Palette

namespace Scheme

/-- Why a text is not read as a scheme. -/
inductive Fault (ν : Type) where
  | notUtf8 (path : String) (fault : Text.Utf8.Fault)
  | yaml
  | document (fault : Document.Fault ν)
  /-- A number in the text is beyond what can be read. -/
  | code (fault : Yaml.Fault)

namespace Fault

/-- Whether the fault lies in an index or a colour. -/
def isCode : Fault ν → Bool
  | document fault => fault.isCode
  | _ => false

def message [Scalar ν] : Fault ν → String
  | notUtf8 path fault => path ++ ": not valid UTF-8 (" ++ fault.message ++ ")"
  | yaml => "invalid YAML"
  | document fault => fault.message
  | code fault => fault.message

end Fault

inductive LogLine where
  | warning (warning : Document.Warning)
  | parsed (name : Phrase) (colors : Nat)

namespace LogLine

def isWarning : LogLine → Bool
  | warning _ => true
  | parsed _ _ => false

def message : LogLine → String
  | warning w => w.message
  | parsed name colors =>
      "parsed scheme " ++ name.quoted ++ " with " ++ toString colors ++ " colors"

end LogLine

/-- Reads the text of a scheme document and derives the slug. -/
def parse (ν : Type) (text : List Char) : List LogLine × Except (Fault ν) Scheme :=
  match (Yaml.read text : Except Yaml.Fault (Datum ν)) with
  | .error .malformed => ([], .error .yaml)
  | .error fault => ([], .error (.code fault))
  | .ok datum =>
      match ofDatum datum with
      | (warnings, .error fault) => (warnings.map .warning, .error (.document fault))
      | (warnings, .ok s) =>
          (warnings.map .warning ++ [.parsed s.name s.colors.size], .ok s.createSlug)

/-- Reads a scheme from the bytes of a file. -/
def load (ν : Type) (path : String) (bytes : Text.Bytes) :
    List LogLine × Except (Fault ν) Scheme :=
  match Text.Utf8.decode bytes with
  | .error fault => ([], .error (.notUtf8 path fault))
  | .ok text => parse ν (Text.toLineFeeds text)

/-- The text of a scheme document. -/
def dump (s : Scheme) : String :=
  String.ofList (Yaml.write (s.toPairs.map fun (key, value) => (key.toList, value)))

end Scheme
end Palette
