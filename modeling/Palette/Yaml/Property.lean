import Palette.Number.Integer
import Palette.Text.Hex
import Palette.Text.Utf8
import Palette.Yaml.Chars
import Palette.Yaml.Token

/-!
# Names, tags and directives

Anchors and references are names behind their indicator.  A tag is verbatim in
angle brackets, the lone mark, or a handle with a suffix; only its form and its
handle matter, since all data are read as what they look like.  A directive
stands on a line of its own in front of a document.
-/

namespace Palette
namespace Yaml
namespace Property

/-- Whether a text may follow a name. -/
def afterName : List Char → Bool
  | [] => true
  | c :: _ => isBlank c || isBreak c || "?:,]\x7d%@\x60".toList.contains c

/-- A name that is not empty, behind its indicator, and what follows it. -/
def name? (s : List Char) : Option (String × List Char) :=
  let name := s.takeWhile isNameChar
  let rest := s.dropWhile isNameChar
  if name.isEmpty || !afterName rest then none else some (String.ofList name, rest)

/-! ## Tags -/

/-- The characters of a tag's suffix besides escapes. -/
def isSuffixChar (c : Char) : Bool :=
  isNameChar c || "-;/?:@&=+$,_.!~*'()[]".toList.contains c

/-- The bytes of a run of percent escapes, and what follows it. -/
def escapes? : List Char → Option (Text.Bytes × List Char)
  | '%' :: a :: b :: rest =>
      match Text.byteOfHex? a b with
      | none => none
      | some byte =>
          (escapes? rest).map fun (bytes, after) => (UInt8.ofNat byte.val :: bytes, after)
  | '%' :: _ => none
  | rest => some ([], rest)

/-- What follows the characters of a suffix; its escapes must encode text. -/
def afterSuffix? : Nat → List Char → Option (List Char)
  | 0, _ => none
  | _ + 1, [] => some []
  | fuel + 1, c :: rest =>
      if c = '%' then
        match escapes? (c :: rest) with
        | none => none
        | some (bytes, after) =>
            match Text.Utf8.decode bytes with
            | .error _ => none
            | .ok _ => afterSuffix? fuel after
      else if isSuffixChar c then afterSuffix? fuel rest
      else some (c :: rest)

/-- What follows a suffix, which must not be empty. -/
def suffix? (s : List Char) : Option (List Char) :=
  match afterSuffix? (s.length + 1) s with
  | none => none
  | some rest => if rest.length < s.length then some rest else none

/-- A handle and what follows it: the lone mark, or a name between two marks. -/
def handle? : List Char → Option (String × List Char)
  | '!' :: rest =>
      if rest.head? = some ' ' then some ("!", rest)
      else
        let name := rest.takeWhile isNameChar
        match rest.dropWhile isNameChar with
        | '!' :: after => some (String.ofList ('!' :: name ++ ['!']), after)
        | _ => none
  | _ => none

/-- Whether a second mark comes before the next space. -/
def hasHandle (s : List Char) : Bool :=
  (s.takeWhile fun c => c != ' ' && !isBreak c).contains '!'

/-- The tag behind its mark, and what follows it. -/
def tag? (s : List Char) : Option (TagHandle × List Char) :=
  let read : Option (TagHandle × List Char) :=
    match s with
    | '<' :: rest =>
        match suffix? rest with
        | some ('>' :: after) => some (none, after)
        | _ => none
    | rest =>
        if atGap rest then some (none, rest)
        else if hasHandle rest then
          match handle? ('!' :: rest) with
          | none => none
          | some (handle, after) => (suffix? after).map fun after => (some handle, after)
        else (suffix? rest).map fun after => (some "!", after)
  match read with
  | none => none
  | some (handle, after) => if atSpace after then some (handle, after) else none

/-! ## Directives -/

def dropSpaces (s : List Char) : List Char :=
  s.dropWhile (· == ' ')

/-- A whole number and what follows it. -/
def number (s : List Char) : Except Fault (Nat × List Char) :=
  let digits := s.takeWhile Char.isDigit
  if digits.isEmpty then .error .malformed
  else if Integer.digitLimit < digits.length then .error (.tooManyDigits digits.length)
  else
    .ok (digits.foldl (fun n c => 10 * n + (c.toNat - '0'.toNat)) 0, s.dropWhile Char.isDigit)

/-- The major part of a version, and what follows the version. -/
def version (s : List Char) : Except Fault (Directive × List Char) := do
  let (major, rest) ← number (dropSpaces s)
  match rest with
  | '.' :: rest =>
      let (_, after) ← number rest
      if atSpace after then .ok (.version major, after) else .error .malformed
  | _ => .error .malformed

def handleDirective? (s : List Char) : Option (Directive × List Char) :=
  match handle? (dropSpaces s) with
  | none => none
  | some (handle, rest) =>
      if rest.head? ≠ some ' ' then none
      else
        match suffix? (dropSpaces rest) with
        | none => none
        | some after => if atSpace after then some (.handle handle, after) else none

/-- What follows the spaces and the comment at the end of a directive. -/
def lineEnd? (s : List Char) : Option (List Char) :=
  let rest := dropSpaces s
  let rest := if rest.head? = some '#' then rest.dropWhile (!isBreak ·) else rest
  if atBreak rest then some (rest.drop 1) else none

/-- The directive behind its mark, and what follows its line. -/
def directive (s : List Char) : Except Fault (Directive × List Char) := do
  let name := s.takeWhile isNameChar
  let rest := s.dropWhile isNameChar
  if name.isEmpty || !atSpace rest then .error .malformed
  else
    let (directive, after) ←
      if name = ['Y', 'A', 'M', 'L'] then version rest
      else if name = ['T', 'A', 'G'] then orMalformed (handleDirective? rest)
      else .ok (.other, rest.dropWhile (!isBreak ·))
    let rest ← orMalformed (lineEnd? after)
    .ok (directive, rest)

end Property
end Yaml
end Palette
