import Palette.Entries
import Palette.Text.Blank

/-!
# Template tags

A tag stands in double braces.  Behind the opening braces a sigil may say what
kind of tag it is; the rest up to the next closing braces is the name, blanks
around it dropped.  A name in triple braces is that of a raw value: it holds no
brace and is not empty, and where all of it is blank its last character is the
name.  Triple braces that are not of this form open an ordinary tag whose name
starts with a brace.

Opening braces without closing ones are text.  A source is thus cut into pieces
of text and tags, each of which keeps its own source.
-/

namespace Palette
namespace Template

/-- Whether a section shows its body when its field is found or when it is not. -/
inductive Gate where
  | found
  | missing
deriving DecidableEq

inductive Form where
  /-- The escaped value of a field. -/
  | escaped
  /-- The raw value of a field, marked by a sigil. -/
  | raw
  /-- The raw value of a field, in triple braces. -/
  | triple
  | opening (gate : Gate)
  | closing
  | comment
deriving DecidableEq

structure Tag where
  form : Form
  name : String
deriving DecidableEq

inductive Piece where
  | text (chars : List Char)
  | tag (tag : Tag) (source : List Char)
deriving DecidableEq

def Piece.source : Piece → List Char
  | text chars => chars
  | tag _ source => source

def Piece.tag? : Piece → Option Tag
  | text _ => none
  | tag t _ => some t

/-! ## Single tags -/

def isBrace (c : Char) : Bool :=
  c == '{' || c == '}'

/-- What stands in front of the first closing braces. -/
def beforeClosing? : List Char → Option (List Char)
  | [] => none
  | '}' :: '}' :: _ => some []
  | c :: rest => (beforeClosing? rest).map (c :: ·)

def sigil? : Char → Option Form
  | '#' => some (.opening .found)
  | '^' => some (.opening .missing)
  | '/' => some .closing
  | '!' => some .comment
  | '&' => some .raw
  | _ => none

/-- The form of a tag behind its opening braces, and the length of its sigil. -/
def sigilAt : List Char → Form × Nat
  | [] => (.escaped, 0)
  | c :: _ =>
      match sigil? c with
      | some form => (form, 1)
      | none => (.escaped, 0)

/-- The name that the inside of triple braces gives. -/
def tripleName (inside : List Char) : List Char :=
  match Text.trim inside with
  | [] => inside.getLast?.toList
  | name => name

/-- A tag in triple braces and its length, both from behind the opening braces on. -/
def triple? (s : List Char) : Option (Tag × Nat) :=
  match s.takeWhile (!isBrace ·), s.dropWhile (!isBrace ·) with
  | c :: cs, '}' :: '}' :: '}' :: _ =>
      some (⟨.triple, String.ofList (tripleName (c :: cs))⟩, (c :: cs).length + 3)
  | _, _ => none

/-- A tag in double braces and its length, both from behind the opening braces on. -/
def double? (s : List Char) : Option (Tag × Nat) :=
  match sigilAt s with
  | (form, sigils) =>
      let blanks := ((s.drop sigils).takeWhile Text.isBlank).length
      (beforeClosing? (s.drop (sigils + blanks))).map fun inside =>
        (⟨form, String.ofList (Text.trimEnd inside)⟩, sigils + blanks + inside.length + 2)

/-- The tag at the start of a source, if there is one, and its length. -/
def tagAt? : List Char → Option (Tag × Nat)
  | '{' :: '{' :: '{' :: rest =>
      ((triple? rest).map fun (tag, length) => (tag, length + 3)).or
        ((double? ('{' :: rest)).map fun (tag, length) => (tag, length + 2))
  | '{' :: '{' :: rest => (double? rest).map fun (tag, length) => (tag, length + 2)
  | _ => none

/-! ## The pieces of a source -/

/-- Puts a character in front of the pieces, into a text that comes first. -/
def consText (c : Char) : List Piece → List Piece
  | .text chars :: rest => .text (c :: chars) :: rest
  | pieces => .text [c] :: pieces

/-- Cuts a source into pieces.  The first piece takes the first character in any
case, so that less is left to cut. -/
def scan (s : List Char) : List Piece :=
  match s with
  | [] => []
  | c :: rest =>
      match tagAt? (c :: rest) with
      | some (tag, length) =>
          .tag tag (c :: rest.take (length - 1)) :: scan (rest.drop (length - 1))
      | none => consText c (scan rest)
termination_by s.length
decreasing_by
  · simp only [List.length_drop, List.length_cons]
    omega
  · simp

/-! ## Names of fields -/

/-- The name that a piece looks up, if it does. -/
def Piece.fieldName? : Piece → Option String
  | text _ => none
  | tag t _ =>
      match t.form with
      | .comment => none
      | .closing => none
      | _ => some t.name

/-- Keeps each name at its first place only. -/
def distinct (names : List String) : List String :=
  names.foldl (fun seen name => if seen.contains name then seen else seen ++ [name]) []

/-- The distinct names that a source refers to, in the order of their first use. -/
def fieldNames (source : String) : List String :=
  distinct ((scan source.toList).filterMap Piece.fieldName?)

end Template
end Palette
