import Palette.Text.Hex
import Palette.Text.Phrase
import Palette.Yaml.Chars
import Palette.Yaml.Typed

/-!
# Writing YAML

A mapping of texts is written one entry a line.  A value is plain where that
reads back as the same text, in single quotes where those suffice, and else in
double quotes with escapes, as one with surrogates always is.  Text beyond the
eightieth column is folded, and lines that continue a value are indented by two.
-/

namespace Palette
namespace Yaml

def width : Nat :=
  80

/-- The start of a line that continues a value. -/
def continuation : List Char :=
  ['\n', ' ', ' ']

def continuationColumn : Nat :=
  2

/-- The breaks that a value may hold, the next-line character among them. -/
def isValueBreak (c : Char) : Bool :=
  isBreak c || c == nextLine

/-! ## Choice of style -/

/-- Whether a value may be written without escapes. -/
def isWritable (c : Char) : Bool :=
  let n := c.toNat
  c == '\n' || (0x20 ≤ n && n ≤ 0x7E) || n == 0x85 || (0xA0 ≤ n && n ≤ 0xD7FF) ||
    (0xE000 ≤ n && n ≤ 0xFFFD && n != 0xFEFF) || (0x10000 ≤ n && n < 0x10FFFF)

/-- Whether two characters are a space and a break, in either order. -/
def isSpaceAtBreak (c d : Char) : Bool :=
  (c == ' ' && isValueBreak d) || (isValueBreak c && d == ' ')

def hasAdjacent (p : Char → Char → Bool) : List Char → Bool
  | c :: d :: rest => p c d || hasAdjacent p (d :: rest)
  | _ => false

/-- Whether single quotes keep a value: nothing needs an escape, and no space
would be lost at a line break. -/
def allowsSingle (s : List Char) : Bool :=
  s.all isWritable && !hasAdjacent isSpaceAtBreak s

/-- Whether a character and what follows it is one that tokens end at. -/
def isGapChar (c : Char) : Bool :=
  c.toNat == 0 || c == ' ' || c == '\t' || c == '\r' || isValueBreak c

def gapAhead : List Char → Bool
  | [] => true
  | c :: _ => isGapChar c

/-- Whether the start of a value would be read as an indicator. -/
def startsWithIndicator : List Char → Bool
  | '-' :: '-' :: '-' :: _ => true
  | '.' :: '.' :: '.' :: _ => true
  | c :: rest =>
      "#,[]\x7b\x7d&*!|>'\"%@\x60".toList.contains c ||
        ((c == '?' || c == ':' || c == '-') && gapAhead rest)
  | [] => false

/-- Whether an indicator stands inside a value: a colon in front of a gap or a
number sign behind one. -/
def holdsIndicator : List Char → Bool
  | c :: d :: rest =>
      (d == ':' && gapAhead rest) || (d == '#' && isGapChar c) || holdsIndicator (d :: rest)
  | _ => false

def isEdge (c : Char) : Bool :=
  c == ' ' || isValueBreak c

def allowsPlain (s : List Char) : Bool :=
  !Typed.looksTyped s && s.all (fun c => isWritable c && !isValueBreak c) &&
    !s.head?.any isEdge && !s.getLast?.any isEdge &&
    !startsWithIndicator s && !holdsIndicator s

/-! ## Plain values -/

/-- Writes a value from a column on, behind a number of spaces that are not yet
written.  A single space beyond the width becomes a line break. -/
def plainFrom (column spaces : Nat) : List Char → List Char
  | [] => List.replicate spaces ' '
  | c :: rest =>
      if c = ' ' then plainFrom column (spaces + 1) rest
      else if spaces = 1 ∧ width < column then
        continuation ++ c :: plainFrom (continuationColumn + 1) 0 rest
      else List.replicate spaces ' ' ++ c :: plainFrom (column + spaces + 1) 0 rest

/-! ## Single quotes -/

/-- What of a value is not yet written. -/
inductive Held where
  | spaces (count : Nat) (atStart : Bool)
  /-- Line breaks, the last one first. -/
  | breaks (reversed : List Char)

/-- Line breaks as they stand in quotes: a run that starts with a line feed has
one more, since a single one would be read as a space. -/
def quotedBreaks (breaks : List Char) : List Char :=
  (if breaks.head? = some '\n' then ['\n'] else []) ++ breaks ++ [' ', ' ']

/-- The text of what was held, in front of more text, and the column behind it. -/
def Held.write (column : Nat) : Held → List Char × Nat
  | spaces count atStart =>
      if count = 1 ∧ width < column ∧ !atStart then (continuation, continuationColumn)
      else (List.replicate count ' ', column + count)
  | breaks reversed => (quotedBreaks reversed.reverse, continuationColumn)

/-- The text of what was held at the end of a value. -/
def Held.writeLast : Held → List Char
  | spaces count _ => List.replicate count ' '
  | breaks reversed => quotedBreaks reversed.reverse

def nothingHeld : Held :=
  .spaces 0 false

def singleFrom (column : Nat) (held : Held) : List Char → List Char
  | [] => held.writeLast
  | c :: rest =>
      if c = ' ' then
        match held with
        | .spaces count atStart => singleFrom column (.spaces (count + 1) atStart) rest
        | .breaks _ =>
            (held.write column).1 ++ singleFrom (held.write column).2 (.spaces 1 false) rest
      else if isValueBreak c then
        match held with
        | .breaks reversed => singleFrom column (.breaks (c :: reversed)) rest
        | .spaces _ _ =>
            (held.write column).1 ++ singleFrom (held.write column).2 (.breaks [c]) rest
      else if c = '\'' then
        (held.write column).1 ++
          '\'' :: '\'' :: singleFrom ((held.write column).2 + 2) nothingHeld rest
      else
        (held.write column).1 ++ c :: singleFrom ((held.write column).2 + 1) nothingHeld rest

def single (column : Nat) (s : List Char) : List Char :=
  '\'' :: singleFrom (column + 1) (.spaces 0 true) s ++ ['\'']

/-! ## Double quotes -/

/-- Whether a character stands for itself in double quotes. -/
def isLiteral (c : Char) : Bool :=
  let n := c.toNat
  c != '"' && c != '\\' && n != 0x2028 && n != 0x2029 && n != 0xFEFF &&
    ((0x20 ≤ n && n ≤ 0x7E) || (0xA0 ≤ n && n ≤ 0xD7FF) || (0xE000 ≤ n && n ≤ 0xFFFD))

def escapeLetter? (c : Char) : Option Char :=
  match c.toNat with
  | 0x00 => some '0'
  | 0x07 => some 'a'
  | 0x08 => some 'b'
  | 0x09 => some 't'
  | 0x0A => some 'n'
  | 0x0B => some 'v'
  | 0x0C => some 'f'
  | 0x0D => some 'r'
  | 0x1B => some 'e'
  | 0x22 => some '"'
  | 0x5C => some '\\'
  | 0x85 => some 'N'
  | 0x2028 => some 'L'
  | 0x2029 => some 'P'
  | _ => none

def escapeCode (n : Nat) : List Char :=
  if n < 0x100 then '\\' :: 'x' :: Text.hexDigits Text.upperHexDigit 2 n
  else if n < 0x10000 then '\\' :: 'u' :: Text.hexDigits Text.upperHexDigit 4 n
  else '\\' :: 'U' :: Text.hexDigits Text.upperHexDigit 8 n

def escape : CodePoint → List Char
  | .surrogate s => escapeCode s.code
  | .char c =>
      match escapeLetter? c with
      | some letter => ['\\', letter]
      | none => escapeCode c.toNat

/-- A line break that is not part of the value, in front of a text.  A space at
the start of the next line needs a backslash. -/
def escapedBreak (next : Phrase) : List Char × Nat :=
  if next.head? = some (.char ' ') then ('\\' :: continuation ++ ['\\'], continuationColumn + 1)
  else ('\\' :: continuation, continuationColumn)

/-- Writes a value from a column on.  `run` is the number of literal characters
since the column, and `first` holds for the first character.  A line is broken
in front of a space, behind an escape, or in front of the literal behind one. -/
def doubleFrom (column run : Nat) (first : Bool) : Phrase → List Char
  | [] => []
  | point :: rest =>
      let inside := !first && !rest.isEmpty
      match point.char?.filter isLiteral with
      | some c =>
          if inside && (c == ' ' || run == 0) && width < column + run then
            match escapedBreak (point :: rest) with
            | (text, column) => text ++ c :: doubleFrom column 1 false rest
          else c :: doubleFrom column (run + 1) false rest
      | none =>
          let column := column + run + (escape point).length
          if inside && width + 1 < column then
            match escapedBreak rest with
            | (text, column) => escape point ++ text ++ doubleFrom column 0 false rest
          else escape point ++ doubleFrom column 0 false rest

def double (column : Nat) (p : Phrase) : List Char :=
  '"' :: doubleFrom (column + 1) 0 true p ++ ['"']

/-! ## Mappings -/

/-- Writes a value that starts in a column. -/
def scalar (column : Nat) (p : Phrase) : List Char :=
  match p.chars? with
  | none => double column p
  | some s =>
      if allowsPlain s then plainFrom column 0 s
      else if allowsSingle s then single column s
      else double column p

/-- Writes an entry whose key needs no quotes. -/
def entry (key : List Char) (value : Phrase) : List Char :=
  key ++ ':' :: ' ' :: scalar (key.length + 2) value ++ ['\n']

def write (entries : List (List Char × Phrase)) : List Char :=
  entries.flatMap fun e => entry e.1 e.2

end Yaml
end Palette
