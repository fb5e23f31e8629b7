import Palette.Field.Format

/-!
# Field names

A field of a template names something that a scheme has: its name, its author,
its slug, or a colour in some format.  A colour field is the index of the
colour, a dash and the format.  Any other name is not parsed.
-/

namespace Palette

structure ColorField where
  index : Index
  format : Format
deriving DecidableEq

inductive Field where
  | schemeName
  | schemeAuthor
  | schemeSlug
  | color (field : ColorField)
  | unparsable
deriving DecidableEq

namespace ColorField

def text (field : ColorField) : String :=
  field.index.text ++ "-" ++ field.format.text

/-- One pass from left to right: the word, two digits, a dash, the format. -/
def ofChars? (name : List Char) : Option ColorField :=
  match Index.afterWord? name with
  | some (high :: low :: '-' :: body) =>
      match Text.byteOfHex? high low, Format.ofChars? body with
      | some byte, some format => some ⟨⟨byte⟩, format⟩
      | _, _ => none
  | _ => none

def ofText? (name : String) : Option ColorField :=
  ofChars? name.toList

/-- A name that is not that of a colour field. -/
structure Fault (ν : Type) where
  name : Datum ν

def Fault.message [Scalar ν] (fault : Fault ν) : String :=
  "Not a color field: " ++ fault.name.quoted

/-- Reads the name of a colour field, which may be any datum. -/
def parse (name : Datum ν) : Except (Fault ν) ColorField :=
  match name.text?.bind ofText? with
  | some field => .ok field
  | none => .error ⟨name⟩

def before (f g : ColorField) : Bool :=
  f.index < g.index || (f.index == g.index && f.format.before g.format)

end ColorField

namespace Field

def ofText (name : String) : Field :=
  if name = "scheme-name" ∨ name = "scheme" then schemeName
  else if name = "scheme-author" then schemeAuthor
  else if name = "scheme-slug" then schemeSlug
  else
    match ColorField.ofText? name with
    | some field => color field
    | none => unparsable

/-- What a phrase names; one with a surrogate names nothing. -/
def ofPhrase (name : Phrase) : Field :=
  match name.text? with
  | some name => ofText name
  | none => unparsable

/-- What a datum names.  Only texts name something, and a collection cannot be
looked up. -/
def ofDatum (name : Datum ν) : Except (Datum.KeyFault ν) Field :=
  name.checkKey.map fun _ =>
    match name with
    | .text name => ofPhrase name
    | _ => unparsable

def kindText : Field → String
  | schemeName => "scheme-name"
  | schemeAuthor => "scheme-author"
  | schemeSlug => "scheme-slug"
  | color _ => "color"
  | unparsable => "unparsable"

def color? : Field → Option ColorField
  | color field => some field
  | _ => none

def isParsed : Field → Bool
  | unparsable => false
  | _ => true

/-- Order by the text of the kind, colour fields among each other by their
index and format. -/
def before : Field → Field → Bool
  | color f, color g => f.before g
  | f, g => f.kindText < g.kindText

end Field
end Palette
