import Palette.Report.Basic
import Palette.Scheme.Basic

/-!
# What commands find out

The `inspect` command records each colour as hexadecimal digits, as numbers and
as hue, saturation and luminance; the `field` command looks up fields; the
`swatch` command records the colours that it drew.
-/

namespace Palette
namespace Report

variable {ν : Type}

/-- A whole scheme's report, as yet empty. -/
def ofScheme (path : String) (s : Scheme) : Report ν :=
  .start path s.name s.author s.slug

def hexData (c : Rgb) : String × Json ν :=
  ("hex", .text (.ofText c.text))

def rgbData (c : Rgb) : String × Json ν :=
  ("rgb", .array [.int c.red.val, .int c.green.val, .int c.blue.val])

def hslData [Scalar ν] (v : Hsl ν) : String × Json ν :=
  ("hsl", .array
    [ .real (Scalar.roundHundredths v.hue), .real (Scalar.roundHundredths v.saturation),
      .real (Scalar.roundHundredths v.luminance) ])

/-- The data of a colour; its conversion is looked up in a table. -/
def inspection [Scalar ν] (table : List (Index × Hsl ν)) (i : Index) (c : Rgb) :
    List (String × Json ν) :=
  [hexData c, rgbData c] ++ ((Entries.get? table i).map hslData).toList

def inspect [Scalar ν] (s : Scheme) (r : Report ν) : Report ν :=
  let table := s.hslTable ν
  s.colors.entries.foldl (fun r e => r.addColor e.1 (inspection table e.1 e.2)) r

/-- Adds the values of fields in the order of their names. -/
def lookUp [Scalar ν] (s : Scheme) (names : List String) (r : Report ν) : Report ν :=
  names.foldl (fun r name => r.addField name (s.renderField ν name)) r

/-- The exit code of a look-up: one if a field is missing. -/
def lookUpCode (r : Report ν) : Int :=
  if r.missingFields.isEmpty then 0 else 1

def drawn (s : Scheme) (path : String) (r : Report ν) : Report ν :=
  s.colors.entries.foldl (fun r e => r.addColor e.1 [hexData e.2]) (r.addFile path)

end Report
end Palette
