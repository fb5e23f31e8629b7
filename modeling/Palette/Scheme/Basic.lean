import Palette.Color.HslTable
import Palette.Color.Print
import Palette.Field.Name
import Palette.Scheme.Colors
import Palette.Text.Lowercase

/-!
# Schemes

A scheme has a name, an author, colours and a slug, which is a form of the name
for file names and is empty until it is derived.  A scheme resolves the names
of fields: `renderField` gives the text of a field, `fieldTruthy` says whether
there is one.
-/

namespace Palette

def slugPoint : CodePoint → Phrase
  | .char c => .ofChars (if c = ' ' then ['-'] else Text.lowerChar c)
  | .surrogate s => [.surrogate s]

/-- The name in lower case with dashes for spaces, character by character. -/
def slugOf (name : Phrase) : Phrase :=
  name.flatMap slugPoint

structure Scheme where
  name : Phrase
  author : Phrase
  colors : Colors
  slug : Phrase
deriving DecidableEq

namespace Scheme

def createSlug (s : Scheme) : Scheme :=
  { s with slug := slugOf s.name }

/-! ## Fields -/

/-- What a template shows in place of a slug that was never derived. -/
def slugPlaceholder : Phrase :=
  .ofText "scheme-slug"

def color? (s : Scheme) (field : ColorField) : Option ColorValue :=
  (s.colors.get? field.index).map fun c => ⟨c, field.format⟩

/-- The text of a field, fractions being computed in the scalars `ν`. -/
def renderField (ν : Type) [Scalar ν] (s : Scheme) (name : String) : Option Phrase :=
  match Field.ofText name with
  | .schemeName => some s.name
  | .schemeAuthor => some s.author
  | .schemeSlug => some (if s.slug = [] then slugPlaceholder else s.slug)
  | .color field => (s.color? field).map fun value => .ofText (value.text ν)
  | .unparsable => none

def fieldTruthy (s : Scheme) (name : String) : Bool :=
  match Field.ofText name with
  | .color field =>
      match s.color? field with
      | some value => value.isTruthy
      | none => false
  | field => field.isParsed

/-- A scheme itself always opens a section. -/
def isTruthy (_ : Scheme) : Bool :=
  true

/-! ## Tables -/

/-- The channels of the colours as numbers, in the order of the indices. -/
def channels (ν : Type) [Scalar ν] (s : Scheme) : List (ν × ν × ν) :=
  s.colors.colors.map fun c =>
    (Scalar.ofNat c.red.val, Scalar.ofNat c.green.val, Scalar.ofNat c.blue.val)

/-- Each index with the conversion of its colour; all colours are converted at once. -/
def hslTable (ν : Type) [Scalar ν] (s : Scheme) : List (Index × Hsl ν) :=
  s.colors.indices.zip (Grid.ofList (s.channels ν)).toHsl.cells

/-- The pairs of a scheme document: name, author, then the colours by index.
The slug is not written. -/
def toPairs (s : Scheme) : List (String × Phrase) :=
  ("scheme", s.name) :: ("author", s.author) ::
    s.colors.entries.map fun e => (e.1.text, .ofText e.2.text)

end Scheme
end Palette
