/-!
# The commands of the program

The program has four commands that work on a scheme.  Each has a line of help
and a full text of documentation, whose first line sums it up.
-/

namespace Palette

inductive Builtin where
  | field
  | inspect
  | render
  | swatch
deriving DecidableEq

namespace Builtin

/-- All commands in the order of their names. -/
def all : List Builtin :=
  [field, inspect, render, swatch]

def name : Builtin → String
  | field => "field"
  | inspect => "inspect"
  | render => "render"
  | swatch => "swatch"

def help : Builtin → String
  | field => "Resolve individual fields (e.g. base0D-hex) against the scheme."
  | inspect => "Show every color of the scheme as hex, rgb and hsl."
  | render => "Render a mustache template against the scheme."
  | swatch => "Write a PNG swatch with one square per scheme color."

/-- The lines of the documentation. -/
def docLines : Builtin → List String
  | field =>
      [ "Resolve individual template fields against a scheme.",
        "",
        "Prints each field with its rendered value, or \"(not found)\" if the",
        "scheme does not define it or the name is not a valid field. Exits 1 if",
        "any field was not found, so it can gate scripts.",
        "",
        "Example:",
        "    base16-scheme field -s ocean.yaml base00-hex base0D-hsl-h scheme-slug",
        "    base16-scheme field -s ocean.yaml base0A-dec-r --json" ]
  | inspect =>
      [ "Show every color of a scheme as hex, rgb and hsl.",
        "",
        "HSL values for the whole scheme are computed in one vectorized pass.",
        "",
        "Example:",
        "    base16-scheme inspect -s ocean.yaml",
        "    base16-scheme inspect -s ocean.yaml --json" ]
  | render =>
      [ "Render a mustache template against a base16 scheme.",
        "",
        "Every \x7b\x7bfield\x7d\x7d in the template is resolved against the scheme:",
        "scheme-name (or scheme), scheme-author, scheme-slug, and color fields",
        "like base0D-hex, base00-hex-bgr, base08-rgb-r, base05-dec-g, base0A-hsl-h.",
        "Unknown or unresolvable fields render as nothing.",
        "",
        "The template defaults to $BASE16_TEMPLATE. Output goes to stdout unless",
        "--output is given.",
        "",
        "Example:",
        "    base16-scheme render -s ocean.yaml templates/default.mustache",
        "    base16-scheme render -s ocean.yaml templates/default.mustache -o colors.conf" ]
  | swatch =>
      [ "Write a PNG swatch of the scheme's colors.",
        "",
        "One square per color, in index order, laid out in rows of --columns",
        "(default 8, so a base16 scheme is two rows: base00-07 then base08-0F).",
        "Missing cells at the end of the last row are left transparent.",
        "",
        "Example:",
        "    base16-scheme swatch -s ocean.yaml ocean.png",
        "    base16-scheme swatch -s ocean.yaml ocean.png --size 32 --columns 16" ]

def doc (c : Builtin) : String :=
  "\n".intercalate c.docLines

def summary (c : Builtin) : String :=
  c.docLines.headD ""

/-! ## Look-up by name -/

/-- A name that no command has. -/
structure Unknown where
  name : String
deriving DecidableEq

def names : List String :=
  all.map name

def Unknown.message (fault : Unknown) : String :=
  "Unknown command: " ++ fault.name ++ ". Available: " ++ ", ".intercalate names

def ofName? (name : String) : Except Unknown Builtin :=
  match all.find? (·.name == name) with
  | some c => .ok c
  | none => .error ⟨name⟩

end Builtin
end Palette
