import Palette.Text.Phrase

/-!
# Markup escapes

The characters that mean something in markup are replaced by entities: first
each ampersand, then the angle brackets, then the double quote.
-/

namespace Palette
namespace Template

/-- Replaces every occurrence of a character by a text. -/
def replaceChar (c : Char) (entity : List Char) (p : Phrase) : Phrase :=
  p.flatMap fun point => if point = .char c then Phrase.ofChars entity else [point]

def escape (p : Phrase) : Phrase :=
  replaceChar '"' "&quot;".toList
    (replaceChar '>' "&gt;".toList
      (replaceChar '<' "&lt;".toList
        (replaceChar '&' "&amp;".toList p)))

end Template
end Palette
