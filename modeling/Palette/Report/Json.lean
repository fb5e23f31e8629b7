import Palette.Json.Printer
import Palette.Report.Basic

/-!
# Reports as JSON

An object with the metadata of the scheme, the colours with their data, and,
where there are any, the fields with a summary of them and the files.
-/

namespace Palette
namespace Report

def textJson (s : String) : Json ν :=
  .text (.ofText s)

def colorJson (index : Index) (data : List (String × Json ν)) : Json ν :=
  .object (Entries.putAll [("index", textJson index.text)] data)

def fieldJson (name : String) (value : Option Phrase) : String × Json ν :=
  (name, match value with
    | some text => .text text
    | none => .null)

def summaryJson (r : Report ν) : Json ν :=
  .object
    [ ("total", .int r.fields.length),
      ("found", .int r.foundCount),
      ("missing", .array (r.missingFields.map textJson)) ]

def toJson (r : Report ν) : Json ν :=
  .object
    ([ ("scheme", .text r.schemeName),
       ("author", .text r.schemeAuthor),
       ("slug", .text r.schemeSlug) ] ++
      (if r.schemePath = "" then [] else [("path", textJson r.schemePath)]) ++
      [("colors", .array (r.colors.map fun c => colorJson c.1 c.2))] ++
      (if r.fields.isEmpty then []
        else
          [ ("fields", .object (r.fields.map fun f => fieldJson f.1 f.2)),
            ("summary", r.summaryJson) ]) ++
      (if r.files.isEmpty then [] else [("files", .array (r.files.map textJson))]))

def json [Scalar ν] (r : Report ν) : String :=
  r.toJson.print

end Report
end Palette
