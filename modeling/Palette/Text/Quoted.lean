import Palette.Text.Hex
import Palette.Text.Printable

/-!
# Quoted text

The form in which a value is shown in a message.  Text stands in apostrophes,
or in double quotes when it holds an apostrophe and no double quote.  The quote
in use and the backslash are escaped, line feed, carriage return and tab by
their letters, and other characters that do not print by their code.
-/

namespace Palette
namespace Text

def quoteFor (s : List Char) : Char :=
  if s.contains '\'' && !s.contains '"' then '"' else '\''

/-- The shortest of the three numeric escapes that holds the code. -/
def codeEscape (n : Nat) : List Char :=
  if n < 0x100 then '\\' :: 'x' :: hexDigits lowerHexDigit 2 n
  else if n < 0x10000 then '\\' :: 'u' :: hexDigits lowerHexDigit 4 n
  else '\\' :: 'U' :: hexDigits lowerHexDigit 8 n

def quotedChar (quote c : Char) : List Char :=
  if c = quote ∨ c = '\\' then ['\\', c]
  else if c = '\n' then ['\\', 'n']
  else if c = '\r' then ['\\', 'r']
  else if c = '\t' then ['\\', 't']
  else if isPrintable c then [c]
  else codeEscape c.toNat

def quotedChars (s : List Char) : List Char :=
  quoteFor s :: s.flatMap (quotedChar (quoteFor s)) ++ [quoteFor s]

def quoted (s : String) : String :=
  String.ofList (quotedChars s.toList)

end Text
end Palette
