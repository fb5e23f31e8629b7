import Palette.Scheme.Basic

/-!
# Scheme documents

A document is a mapping with a name and an author; every other key is an index
and its value a colour.  The name and the author are checked first, then the
entries one by one in their order, the key of an entry before its value.  The
first fault found is the one reported.  An index may come in several spellings;
the last entry of an index counts, and each later one is warned of.
-/

namespace Palette

namespace Document

inductive Fault (ν : Type) where
  | notMapping (value : Datum ν)
  | missing (key : String)
  | notText (key : String) (value : Datum ν)
  /-- A key that is no index. -/
  | badKey (fault : CodeFault ν)
  /-- A value, under the given key, that is no colour. -/
  | badValue (key : String) (fault : CodeFault ν)

namespace Fault

/-- Whether the fault lies in a code, not in the shape of the document. -/
def isCode : Fault ν → Bool
  | badKey _ => true
  | badValue _ _ => true
  | _ => false

def message [Scalar ν] : Fault ν → String
  | notMapping value => "scheme document must be a mapping, got " ++ value.typeName
  | missing key => "scheme document is missing " ++ Text.quoted key
  | notText key value => Text.quoted key ++ " must be a string, got " ++ value.quoted
  | badKey fault => fault.message
  | badValue key fault => key ++ ": " ++ fault.message

end Fault

/-- An index that was given before now has another colour. -/
structure Warning where
  index : Index
  color : Rgb
deriving DecidableEq

def Warning.message (w : Warning) : String :=
  w.index.text ++ " given more than once; keeping " ++ w.color.text

def nameKey : String :=
  "scheme"

def authorKey : String :=
  "author"

def isText (key : String) : Datum ν → Bool
  | .text p => p == .ofText key
  | _ => false

/-- The value under a text key. -/
def get? (entries : List (Datum ν × Datum ν)) (key : String) : Option (Datum ν) :=
  (entries.find? fun e => isText key e.1).map (·.2)

def getText (entries : List (Datum ν × Datum ν)) (key : String) : Except (Fault ν) Phrase :=
  match get? entries key with
  | none => .error (.missing key)
  | some (.text p) => .ok p
  | some value => .error (.notText key value)

/-- Whether an entry is the name or the author. -/
def isHeader (e : Datum ν × Datum ν) : Bool :=
  isText nameKey e.1 || isText authorKey e.1

/-- Decodes one entry of a colour. -/
def decodeEntry (e : Datum ν × Datum ν) : Except (Fault ν) (Index × Rgb) :=
  match Index.parse e.1 with
  | .error fault => .error (.badKey fault)
  | .ok index =>
      match Rgb.parse e.2 with
      | .error fault => .error (.badValue ((e.1.text?).getD "") fault)
      | .ok color => .ok (index, color)

/-- Puts the entries into a table one after the other, up to the first fault.
The warnings are kept even when a later entry has a fault. -/
def addEntries (colors : Colors) :
    List (Datum ν × Datum ν) → List Warning × Except (Fault ν) Colors
  | [] => ([], .ok colors)
  | e :: rest =>
      if isHeader e then addEntries colors rest
      else
        match decodeEntry e with
        | .error fault => ([], .error fault)
        | .ok (index, color) =>
            match addEntries (colors.insert index color) rest with
            | (warnings, result) =>
                (if colors.contains index then ⟨index, color⟩ :: warnings else warnings, result)

end Document

namespace Scheme

/-- Builds a scheme from a decoded document and lists the warnings.  The slug is
left empty. -/
def ofDatum : Datum ν → List Document.Warning × Except (Document.Fault ν) Scheme
  | .mapping entries =>
      match Document.getText entries Document.nameKey with
      | .error fault => ([], .error fault)
      | .ok name =>
          match Document.getText entries Document.authorKey with
          | .error fault => ([], .error fault)
          | .ok author =>
              match Document.addEntries .empty entries with
              | (warnings, .error fault) => (warnings, .error fault)
              | (warnings, .ok colors) => (warnings, .ok ⟨name, author, colors, []⟩)
  | d => ([], .error (.notMapping d))

/-- The document that a scheme is written as. -/
def toDatum (ν : Type) (s : Scheme) : Datum ν :=
  .mapping (s.toPairs.map fun (key, value) => (.text (.ofText key), .text value))

end Scheme
end Palette
