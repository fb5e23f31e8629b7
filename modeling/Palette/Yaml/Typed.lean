/-!
# Scalars that look typed

A reader that gives types to plain scalars takes some of them for truth values,
numbers, times or nothing.  A text that looks so must be quoted to remain a
text.
-/

namespace Palette
namespace Yaml
namespace Typed

def isDigitOrBar (c : Char) : Bool :=
  c.isDigit || c == '_'

/-- Drops a sign. -/
def unsigned : List Char → List Char
  | '+' :: rest => rest
  | '-' :: rest => rest
  | s => s

/-! ## Names -/

def truthNames : List String :=
  [ "yes", "Yes", "YES", "no", "No", "NO", "true", "True", "TRUE", "false", "False", "FALSE",
    "on", "On", "ON", "off", "Off", "OFF" ]

/-- Names of nothing, of a merged mapping, of a value, and the marks of tags,
anchors and references. -/
def otherNames : List String :=
  ["", "~", "null", "Null", "NULL", "<<", "=", "!", "&", "*"]

def isName (s : List Char) : Bool :=
  (truthNames ++ otherNames).any fun name => name.toList == s

/-! ## Whole numbers -/

/-- Groups of a colon and a number below sixty in one or two digits; what
follows the last one. -/
def sixtieths : List Char → List Char
  | ':' :: a :: b :: rest =>
      if a.isDigit then
        if a ≤ '5' && b.isDigit then sixtieths rest
        else if b == ':' then
          match rest with
          | c :: _ => if c.isDigit then sixtieths (b :: rest) else b :: rest
          | [] => [b]
        else b :: rest
      else ':' :: a :: b :: rest
  | [':', a] => if a.isDigit then [] else [':', a]
  | s => s

/-- A first digit, more digits and bars, then groups of sixtieths; what follows. -/
def sexagesimal? (first : Char → Bool) : List Char → Option (List Char)
  | c :: rest =>
      let tail := rest.dropWhile isDigitOrBar
      if first c && (sixtieths tail).length < tail.length then some (sixtieths tail) else none
  | [] => none

def isInteger (s : List Char) : Bool :=
  match unsigned s with
  | ['0'] => true
  | '0' :: 'b' :: rest => !rest.isEmpty && rest.all fun c => c == '0' || c == '1' || c == '_'
  | '0' :: 'x' :: rest =>
      !rest.isEmpty && rest.all fun c =>
        isDigitOrBar c || ('a' ≤ c && c ≤ 'f') || ('A' ≤ c && c ≤ 'F')
  | '0' :: rest => rest.all fun c => ('0' ≤ c && c ≤ '7') || c == '_'
  | c :: rest =>
      c.isDigit &&
        (rest.all isDigitOrBar ||
          sexagesimal? (fun c => c.isDigit && c != '0') (c :: rest) == some [])
  | [] => false

/-! ## Numbers with a point -/

/-- Whether a text is empty or an exponent with its sign. -/
def isExponent : List Char → Bool
  | [] => true
  | e :: sign :: rest =>
      (e == 'e' || e == 'E') && (sign == '+' || sign == '-') && !rest.isEmpty &&
        rest.all Char.isDigit
  | _ => false

/-- Whether a text is digits and bars with an exponent or without. -/
def isFraction (s : List Char) : Bool :=
  isExponent (s.dropWhile isDigitOrBar)

def isNumber (s : List Char) : Bool :=
  match unsigned s with
  | '.' :: rest =>
      ["inf", "Inf", "INF"].any (·.toList == rest) ||
        (s.head? == some '.' &&
          (["nan", "NaN", "NAN"].any (·.toList == rest) ||
            (rest.head?.any Char.isDigit && isFraction rest)))
  | c :: rest =>
      c.isDigit &&
        ((match rest.dropWhile isDigitOrBar with
          | '.' :: fraction => isFraction fraction
          | _ => false) ||
          match sexagesimal? Char.isDigit (c :: rest) with
          | some ('.' :: fraction) => fraction.all isDigitOrBar
          | _ => false)
  | [] => false

/-! ## Times -/

/-- What follows exactly `count` digits. -/
def digits? : Nat → List Char → Option (List Char)
  | 0, s => some s
  | count + 1, c :: rest => if c.isDigit then digits? count rest else none
  | _ + 1, [] => none

/-- What follows one digit or two. -/
def oneOrTwo? (s : List Char) : Option (List Char) :=
  (digits? 2 s).or (digits? 1 s)

def char? (d : Char) : List Char → Option (List Char)
  | c :: rest => if c = d then some rest else none
  | [] => none

def isDate (s : List Char) : Bool :=
  (((((digits? 4 s).bind (char? '-')).bind (digits? 2)).bind (char? '-')).bind (digits? 2)) ==
    some []

def dropBlanks (s : List Char) : List Char :=
  s.dropWhile fun c => c == ' ' || c == '\t'

/-- What follows the mark between a date and a time. -/
def timeMark? : List Char → Option (List Char)
  | c :: rest =>
      if c = 'T' ∨ c = 't' then some rest
      else if c = ' ' ∨ c = '\t' then some (dropBlanks rest)
      else none
  | [] => none

/-- What follows a date and a time up to whole seconds. -/
def seconds? (s : List Char) : Option (List Char) := do
  let s ← digits? 4 s
  let s ← char? '-' s
  let s ← oneOrTwo? s
  let s ← char? '-' s
  let s ← oneOrTwo? s
  let s ← timeMark? s
  let s ← oneOrTwo? s
  let s ← char? ':' s
  let s ← digits? 2 s
  let s ← char? ':' s
  digits? 2 s

/-- Whether a text is empty or a zone. -/
def isZone (s : List Char) : Bool :=
  match s, dropBlanks s with
  | [], _ => true
  | _, ['Z'] => true
  | _, sign :: rest =>
      (sign == '+' || sign == '-') &&
        (match oneOrTwo? rest with
        | some [] => true
        | some rest => (char? ':' rest).bind (digits? 2) == some []
        | none => false)
  | _, [] => false

def isTime (s : List Char) : Bool :=
  match seconds? s with
  | some ('.' :: rest) => isZone (rest.dropWhile Char.isDigit)
  | some rest => isZone rest
  | none => false

/-- Whether a plain scalar would be taken for something else than a text. -/
def looksTyped (s : List Char) : Bool :=
  isName s || isInteger s || isNumber s || isDate s || isTime s

end Typed
end Yaml
end Palette
