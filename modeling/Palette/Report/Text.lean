import Palette.Report.Basic
import Palette.Datum
import Palette.Workspace.Path

/-!
# Reports as text

A header, a line for each colour, for each field and for each file, and a count
of the fields that were found.  The data of a colour may be of any shape; there
is no text if they do not fit into its line.
-/

namespace Palette

namespace Report

open Phrase (ofChars ofText)

/-- Fills a phrase up with blanks in front of it. -/
def padStart (width : Nat) (p : Phrase) : Phrase :=
  List.replicate (width - p.length) (.char ' ') ++ p

/-- Why a report has no text.  Values are named by their types. -/
inductive Fault where
  /-- More than three parts. -/
  | tooManyParts
  /-- Fewer than three parts. -/
  | tooFewParts (count : Nat)
  /-- A value without parts in place of three. -/
  | noParts (type : String)
  /-- A value that cannot be filled up to a width. -/
  | noWidth (type : String)
  /-- A text in place of a number. -/
  | notNumber
  /-- A whole number beyond the scalars. -/
  | tooLarge
deriving DecidableEq

def Fault.message : Fault → String
  | tooManyParts => "too many values to unpack (expected 3)"
  | tooFewParts count => "not enough values to unpack (expected 3, got " ++ toString count ++ ")"
  | noParts type => "cannot unpack non-iterable " ++ type ++ " object"
  | noWidth type => "unsupported format string passed to " ++ type ++ ".__format__"
  | notNumber => "Unknown format code 'f' for object of type 'str'"
  | tooLarge => "int too large to convert to float"

variable [Scalar ν]

/-! ## Data of a colour -/

def typeName (value : Json ν) : String :=
  (Datum.ofJson value).typeName

/-- The text of a value as it stands in a line. -/
def valueText (value : Json ν) : Except Fault Phrase :=
  match value with
  | .bool b => .ok (ofChars (if b then ['1'] else ['0']))
  | .int i => .ok (ofText (toString i))
  | .real x => .ok (ofChars (Scalar.text Datum.realNames x))
  | .text p => .ok p
  | value => .error (.noWidth (typeName value))

/-- The text of a whole number with two decimals. -/
def intText (ν : Type) [Scalar ν] (i : Int) : Except Fault Phrase :=
  match Scalar.magnitude (Scalar.ofInt i : ν) with
  | .infinite _ => .error .tooLarge
  | m => .ok (ofChars m.twoDecimals)

/-- The text of a number with two decimals. -/
def numberText (value : Json ν) : Except Fault Phrase :=
  match value with
  | .bool b => intText ν (if b then 1 else 0)
  | .int i => intText ν i
  | .real x => .ok (ofChars (Scalar.twoDecimals x))
  | .text _ => .error .notNumber
  | value => .error (.noWidth (typeName value))

/-- The parts of a value: those of an array, the code points of a text, or the
keys of an object. -/
def parts? : Json ν → Option (List (Json ν))
  | .array items => some items
  | .text p => some (p.map fun point => .text [point])
  | .object members => some (members.map fun m => .text (ofText m.1))
  | _ => none

/-- The three parts of a value. -/
def triple (value : Json ν) : Except Fault (Json ν × Json ν × Json ν) :=
  match parts? value with
  | none => .error (.noParts (typeName value))
  | some [a, b, c] => .ok (a, b, c)
  | some parts =>
      if 3 < parts.length then .error .tooManyParts else .error (.tooFewParts parts.length)

def hexPart (value : Json ν) : Phrase :=
  .char '#' :: (Datum.ofJson value).plain

def rgbPart (value : Json ν) : Except Fault Phrase := do
  let (r, g, b) ← triple value
  let red ← valueText r
  let green ← valueText g
  let blue ← valueText b
  .ok (ofText "rgb(" ++ padStart 3 red ++ ofText "," ++ padStart 3 green ++ ofText "," ++
    padStart 3 blue ++ ofText ")")

def hslPart (value : Json ν) : Except Fault Phrase := do
  let (h, s, l) ← triple value
  let hue ← numberText h
  let saturation ← numberText s
  let luminance ← numberText l
  .ok (ofText "hsl(" ++ padStart 6 hue ++ ofText "," ++ saturation ++ ofText "," ++ luminance ++
    ofText ")")

/-- The part of a line that shows the value of a key, if there is one. -/
def part (data : List (String × Json ν)) (key : String)
    (write : Json ν → Except Fault Phrase) : Except Fault (List Phrase) :=
  match Entries.get? data key with
  | none => .ok []
  | some value => (write value).map ([·])

def joinWith (separator : Phrase) : List Phrase → Phrase
  | [] => []
  | [part] => part
  | part :: rest => part ++ separator ++ joinWith separator rest

/-- The parts of a colour's line behind its index. -/
def colorParts (data : List (String × Json ν)) : Except Fault (List Phrase) := do
  let hex ← part data "hex" fun value => .ok (hexPart value)
  let rgb ← part data "rgb" rgbPart
  let hsl ← part data "hsl" hslPart
  .ok (hex ++ rgb ++ hsl)

def colorLine (index : Index) (data : List (String × Json ν)) : Except Fault Phrase :=
  (colorParts data).map fun parts => joinWith (ofText "  ") (ofText index.text :: parts)

/-! ## Lines -/

def header (r : Report ν) : Phrase :=
  ofText "base16-scheme: " ++ r.schemeName ++
    (if r.schemeAuthor = [] then [] else ofText " by " ++ r.schemeAuthor) ++
    (if r.schemePath = "" then []
      else
        ofText " — " ++ ofChars (Path.baseName r.schemePath.toList) ++ ofText " (" ++
          ofChars (Nat.toDigits 10 r.colors.length) ++ ofText " colors)")

def fieldLine (name : String) (value : Option Phrase) : Phrase :=
  ofText name ++ ofText " = " ++ value.getD (ofText "(not found)")

def summaryLine (r : Report ν) : Phrase :=
  ofText "FOUND " ++ ofChars (Nat.toDigits 10 r.foundCount) ++ ofText "/" ++
    ofChars (Nat.toDigits 10 r.fields.length) ++ ofText " fields"

/-- The lines of a report around those of its colours. -/
def linesAround (r : Report ν) (colorLines : List Phrase) : List Phrase :=
  r.header ::
    (if r.schemeSlug = [] then [] else [ofText "slug: " ++ r.schemeSlug]) ++
    [[]] ++
    colorLines ++
    (if r.colors.isEmpty || r.fields.isEmpty then [] else [[]]) ++
    r.fields.map (fun f => fieldLine f.1 f.2) ++
    r.files.map (fun path => ofText "wrote " ++ ofText path) ++
    (if r.fields.isEmpty then [] else [[], r.summaryLine])

def lines (r : Report ν) : Except Fault (List Phrase) :=
  (r.colors.mapM fun c => colorLine c.1 c.2).map r.linesAround

def text (r : Report ν) : Except Fault Phrase :=
  r.lines.map (joinWith (ofText "\n"))

end Report
end Palette
