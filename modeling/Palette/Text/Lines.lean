/-!
# Lines of a text

Two conventions are used for line ends.  Files are read with every carriage
return, alone or before a line feed, turned into a line feed.  Splitting into
lines knows the further boundaries of Unicode: vertical tab, form feed, the
first three information separators, next line, and the line and paragraph
separators.
-/

namespace Palette
namespace Text

/-- Reads `\r\n` and a lone `\r` as a line feed. -/
def toLineFeeds : List Char → List Char
  | [] => []
  | '\r' :: '\n' :: rest => '\n' :: toLineFeeds rest
  | c :: rest => (if c = '\r' then '\n' else c) :: toLineFeeds rest

def isLineBoundary (c : Char) : Bool :=
  let n := c.toNat
  (0x0A ≤ n && n ≤ 0x0D) || (0x1C ≤ n && n ≤ 0x1E) || n == 0x85 || n == 0x2028 || n == 0x2029

/-- Puts a character in front of the first line. -/
def consLine (c : Char) : List (List Char) → List (List Char)
  | [] => [[c]]
  | line :: lines => (c :: line) :: lines

/-- The lines of a text without their ends.  A boundary at the very end opens
no further line. -/
def splitLines : List Char → List (List Char)
  | [] => []
  | '\r' :: '\n' :: rest => [] :: splitLines rest
  | c :: rest => if isLineBoundary c then [] :: splitLines rest else consLine c (splitLines rest)

end Text
end Palette
