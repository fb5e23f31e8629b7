import Palette.Text.Phrase

/-!
# Tokens of YAML

Indentation is made explicit: block collections have tokens for their start and
end, and a key that is only known by the colon behind it has its own token.
-/

namespace Palette
namespace Yaml

/-- What makes a text unreadable. -/
inductive Fault where
  /-- The text is not in the language. -/
  | malformed
  /-- An escape is the code of no character. -/
  | codeOutOfRange
  /-- An escape is a code beyond 31 bits. -/
  | codeTooLarge
  /-- A number of a version has more digits than are read. -/
  | tooManyDigits (count : Nat)
deriving DecidableEq

namespace Fault

def message : Fault → String
  | malformed => "invalid YAML"
  | codeOutOfRange => "chr() arg not in range(0x110000)"
  | codeTooLarge => "chr() arg not in range(0x110000)"
  | tooManyDigits count =>
      "Exceeds the limit (4300 digits) for integer string conversion: value has " ++
        toString count ++ " digits; use sys.set_int_max_str_digits() to increase the limit"

end Fault

def orMalformed : Option α → Except Fault α
  | some x => .ok x
  | none => .error .malformed

inductive Directive where
  | version (major : Nat)
  | handle (handle : String)
  | other
deriving DecidableEq

/-- The handle of a tag; a verbatim tag has none. -/
abbrev TagHandle := Option String

inductive Token where
  | directive (directive : Directive)
  | documentStart
  | documentEnd
  | streamEnd
  | blockSequenceStart
  | blockMappingStart
  | blockEnd
  | flowSequenceStart
  | flowSequenceEnd
  | flowMappingStart
  | flowMappingEnd
  | flowEntry
  | blockEntry
  | key
  | value
  | reference (name : String)
  | anchor (name : String)
  | tag (handle : TagHandle)
  | scalar (phrase : Phrase)
  /-- The end of what can be read. -/
  | fault (fault : Fault)
deriving DecidableEq

end Yaml
end Palette
