/-!
# Characters of YAML

Lines end with a line feed, a line separator or a paragraph separator; carriage
returns and next-line characters are read as line feeds before anything else.
A cursor is a place in a text with its line and column.
-/

namespace Palette
namespace Yaml

/-- The characters that may stand in a YAML text at all. -/
def isReadable (c : Char) : Bool :=
  let n := c.toNat
  n == 0x09 || n == 0x0A || n == 0x0D || (0x20 ≤ n && n ≤ 0x7E) || n == 0x85 ||
    (0xA0 ≤ n && n ≤ 0xD7FF) || (0xE000 ≤ n && n ≤ 0xFFFD) || 0x10000 ≤ n

def nextLine : Char :=
  Char.ofNat 0x85

/-- The mark of byte order, which takes no column. -/
def byteOrderMark : Char :=
  Char.ofNat 0xFEFF

/-- Reads every carriage return and next-line character as a line feed. -/
def normalize : List Char → List Char
  | [] => []
  | '\r' :: '\n' :: rest => '\n' :: normalize rest
  | c :: rest => (if c = '\r' ∨ c = nextLine then '\n' else c) :: normalize rest

def isBreak (c : Char) : Bool :=
  c == '\n' || c.toNat == 0x2028 || c.toNat == 0x2029

def isBlank (c : Char) : Bool :=
  c == ' ' || c == '\t'

/-- Whether a token may end here: at a blank, a break or the end. -/
def atGap : List Char → Bool
  | [] => true
  | c :: _ => isBlank c || isBreak c

/-- Whether a line or a word that tabs do not end may end here. -/
def atSpace : List Char → Bool
  | [] => true
  | c :: _ => c == ' ' || isBreak c

def atBreak : List Char → Bool
  | [] => true
  | c :: _ => isBreak c

/-- Whether a line starts with a mark between documents. -/
def atDocumentMark : List Char → Bool
  | '-' :: '-' :: '-' :: rest => atGap rest
  | '.' :: '.' :: '.' :: rest => atGap rest
  | _ => false

/-- The characters of names and handles. -/
def isNameChar (c : Char) : Bool :=
  c.isAlphanum || c == '-' || c == '_'

/-- What a line break and the breaks of the empty lines behind it fold to: a
single line feed becomes a space, and a line feed in front of empty lines goes. -/
def foldBreaks (first : Char) (more : List Char) : List Char :=
  if first ≠ '\n' then first :: more
  else if more.isEmpty then [' ']
  else more

/-! ## Cursors -/

structure Position where
  index : Nat
  line : Nat
  column : Nat

def Position.after (p : Position) (c : Char) : Position :=
  if isBreak c then ⟨p.index + 1, p.line + 1, 0⟩
  else ⟨p.index + 1, p.line, if c = byteOrderMark then p.column else p.column + 1⟩

structure Cursor where
  rest : List Char
  position : Position

namespace Cursor

def start (text : List Char) : Cursor :=
  ⟨text, ⟨0, 0, 0⟩⟩

/-- Moves on to a later place, given by the text behind it. -/
def moveTo (c : Cursor) (rest : List Char) : Cursor where
  rest := rest
  position := (c.rest.take (c.rest.length - rest.length)).foldl Position.after c.position

def skip (c : Cursor) (count : Nat) : Cursor :=
  c.moveTo (c.rest.drop count)

end Cursor
end Yaml
end Palette
