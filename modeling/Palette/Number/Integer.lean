import Palette.Text.Blank
import Palette.Text.Digits

/-!
# Whole numbers in words

A whole number may have blanks around it, though no information separators, and a
sign; its digits are those of any script, with single bars between them.  More
digits than a fixed limit are not read.
-/

namespace Palette
namespace Integer

def digitLimit : Nat :=
  4300

/-- The values of the digits behind one that was read. -/
def moreDigits? : List Char → Option (List Nat)
  | [] => some []
  | '_' :: c :: rest =>
      match Text.digitValue? c with
      | some d => (moreDigits? rest).map (d :: ·)
      | none => none
  | c :: rest =>
      match Text.digitValue? c with
      | some d => (moreDigits? rest).map (d :: ·)
      | none => none

def digits? : List Char → Option (List Nat)
  | [] => none
  | c :: rest =>
      match Text.digitValue? c with
      | some d => (moreDigits? rest).map (d :: ·)
      | none => none

def natural? (s : List Char) : Option Nat :=
  match digits? s with
  | some ds => if ds.length ≤ digitLimit then some (ds.foldl (fun n d => 10 * n + d) 0) else none
  | none => none

/-- Whether a character may stand around a number. -/
def isPadding (c : Char) : Bool :=
  Text.isBlank c && !Text.isSeparator c

def ofChars? (s : List Char) : Option Int :=
  match Text.trimOf isPadding s with
  | '-' :: rest => (natural? rest).map fun n => -(n : Int)
  | '+' :: rest => (natural? rest).map fun n => (n : Int)
  | rest => (natural? rest).map fun n => (n : Int)

end Integer
end Palette
