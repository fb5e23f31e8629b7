import Palette.Text.Hex
import Palette.Yaml.Chars
import Palette.Yaml.Token

/-!
# Quoted scalars

In single quotes a quote is written twice and all else stands for itself.  In
double quotes a backslash starts an escape, which may name a surrogate.  In both,
the blanks around a line break are dropped and the breaks fold; a break behind a
backslash is dropped with the blanks that follow it.  No line may start with a
mark between documents.
-/

namespace Palette
namespace Yaml
namespace Quoted

/-- What was read since the last character that is neither a blank nor a break. -/
inductive Pending where
  /-- Blanks, the last one first. -/
  | blanks (reversed : List Char)
  /-- A line break and those of empty lines, the last one first. -/
  | folded (first : Char) (reversed : List Char)
  /-- An escaped line break and those of empty lines, the last one first. -/
  | joined (reversed : List Char)

namespace Pending

def nothing : Pending :=
  blanks []

def text : Pending → List Char
  | blanks reversed => reversed.reverse
  | folded first reversed => foldBreaks first reversed.reverse
  | joined reversed => reversed.reverse

/-- A blank counts only on the line of the text in front of it. -/
def addBlank (c : Char) : Pending → Pending
  | blanks reversed => blanks (c :: reversed)
  | pending => pending

def addBreak (c : Char) : Pending → Pending
  | blanks _ => folded c []
  | folded first reversed => folded first (c :: reversed)
  | joined reversed => joined (c :: reversed)

end Pending

/-- Puts characters in front of a scalar that was read. -/
def prepend (front : List α) (result : Except Fault (List α × List Char)) :
    Except Fault (List α × List Char) :=
  result.map fun (text, rest) => (front ++ text, rest)

/-! ## Single quotes -/

/-- The scalar behind its opening quote, and what follows its closing one. -/
def single (pending : Pending) : List Char → Except Fault (List Char × List Char)
  | [] => .error .malformed
  | '\'' :: '\'' :: rest => prepend (pending.text ++ ['\'']) (single .nothing rest)
  | c :: rest =>
      if c = '\'' then .ok (pending.text, rest)
      else if isBlank c then single (pending.addBlank c) rest
      else if isBreak c then
        if atDocumentMark rest then .error .malformed else single (pending.addBreak c) rest
      else prepend (pending.text ++ [c]) (single .nothing rest)

/-! ## Double quotes -/

/-- The character that an escape of one letter stands for. -/
def simpleEscape? : Char → Option Char
  | '0' => some (Char.ofNat 0)
  | 'a' => some (Char.ofNat 0x07)
  | 'b' => some (Char.ofNat 0x08)
  | 't' => some '\t'
  | '\t' => some '\t'
  | 'n' => some '\n'
  | 'v' => some (Char.ofNat 0x0B)
  | 'f' => some (Char.ofNat 0x0C)
  | 'r' => some '\r'
  | 'e' => some (Char.ofNat 0x1B)
  | ' ' => some ' '
  | '"' => some '"'
  | '\\' => some '\\'
  | '/' => some '/'
  | 'N' => some (Char.ofNat 0x85)
  | '_' => some (Char.ofNat 0xA0)
  | 'L' => some (Char.ofNat 0x2028)
  | 'P' => some (Char.ofNat 0x2029)
  | _ => none

/-- The number of hexadecimal digits of an escape by code. -/
def codeLength? : Char → Option Nat
  | 'x' => some 2
  | 'u' => some 4
  | 'U' => some 8
  | _ => none

def pointOfCode (n : Nat) : Except Fault CodePoint :=
  if 0x80000000 ≤ n then .error .codeTooLarge
  else if 0x110000 ≤ n then .error .codeOutOfRange
  else .ok (.ofNat n)

/-- Where in a scalar the next character stands. -/
inductive State where
  | text (pending : Pending)
  /-- Behind a backslash. -/
  | escape
  /-- Inside the digits of a code, with the number of those still missing. -/
  | code (missing : Nat) (digits : List Char)

/-- The scalar behind its opening quote, and what follows its closing one. -/
def double (state : State) : List Char → Except Fault (Phrase × List Char)
  | [] => .error .malformed
  | c :: rest =>
      match state with
      | .text pending =>
          if c = '"' then .ok (Phrase.ofChars pending.text, rest)
          else if c = '\\' then prepend (Phrase.ofChars pending.text) (double .escape rest)
          else if isBlank c then double (.text (pending.addBlank c)) rest
          else if isBreak c then
            if atDocumentMark rest then .error .malformed
            else double (.text (pending.addBreak c)) rest
          else prepend (Phrase.ofChars (pending.text ++ [c])) (double (.text .nothing) rest)
      | .escape =>
          match simpleEscape? c, codeLength? c with
          | some d, _ => prepend [.char d] (double (.text .nothing) rest)
          | none, some count => double (.code count []) rest
          | none, none =>
              if isBreak c then
                if atDocumentMark rest then .error .malformed
                else double (.text (.joined [])) rest
              else .error .malformed
      | .code missing digits =>
          if !Text.isHexDigit c then .error .malformed
          else if missing ≤ 1 then
            match pointOfCode (Text.hexNumber (digits ++ [c])) with
            | .error fault => .error fault
            | .ok point => prepend [point] (double (.text .nothing) rest)
          else double (.code (missing - 1) (digits ++ [c])) rest

def scan (quote : Char) (s : List Char) : Except Fault (Phrase × List Char) :=
  if quote = '"' then double (.text .nothing) s
  else (single .nothing s).map fun (text, rest) => (Phrase.ofChars text, rest)

end Quoted
end Yaml
end Palette
