import Palette.Color.Index
import Palette.Json.Basic

/-!
# Reports

A report gathers what a command finds out: data of colours, values of fields,
files that were written.  Colours and fields stand where they were first added;
later data of a colour are merged into the earlier ones, and a field has the
value that was added last.  Paths and names of fields are words of a command
line, which are text; what a scheme says of itself may hold surrogates.
-/

namespace Palette

structure Report (ν : Type) where
  schemePath : String
  schemeName : Phrase
  schemeAuthor : Phrase
  schemeSlug : Phrase
  colors : List (Index × List (String × Json ν))
  fields : List (String × Option Phrase)
  files : List String

namespace Report

/-- A report on a scheme to which nothing was added yet. -/
def start (path : String) (name author slug : Phrase) : Report ν :=
  ⟨path, name, author, slug, [], [], []⟩

/-- Merges data of a colour into those that were recorded for it. -/
def addColor (r : Report ν) (index : Index) (data : List (String × Json ν)) : Report ν :=
  let recorded := (Entries.get? r.colors index).getD []
  { r with colors := Entries.put r.colors index (Entries.putAll recorded data) }

def addField (r : Report ν) (name : String) (value : Option Phrase) : Report ν :=
  { r with fields := Entries.put r.fields name value }

def addFile (r : Report ν) (path : String) : Report ν :=
  { r with files := r.files ++ [path] }

/-- The fields without a value. -/
def missingFields (r : Report ν) : List String :=
  (r.fields.filter fun f => f.2.isNone).map (·.1)

def foundCount (r : Report ν) : Nat :=
  r.fields.length - r.missingFields.length

end Report
end Palette
