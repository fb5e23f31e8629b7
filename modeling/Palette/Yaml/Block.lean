import Palette.Yaml.Chars
import Palette.Yaml.Token

/-!
# Block scalars

A block scalar consists of the lines that are indented deeper than what is
around it.  A literal one keeps its line breaks, a folded one folds a break
between two lines that do not start with a blank.  Indicators behind the mark
of the scalar may give the indentation and say what becomes of the breaks at
the end.
-/

namespace Palette
namespace Yaml
namespace Block

/-- What becomes of the breaks at the end: all but the first go, all go, or all
are kept. -/
inductive Chomping where
  | clip
  | strip
  | keep
deriving DecidableEq

structure Header where
  chomping : Chomping
  increment? : Option Nat

def chomping? : Char → Option Chomping
  | '+' => some .keep
  | '-' => some .strip
  | _ => none

/-- The indicators in either order; an indentation of zero is none. -/
def indicators? (s : List Char) : Option (Header × List Char) :=
  match s with
  | [] => some (⟨.clip, none⟩, [])
  | c :: rest =>
      match chomping? c with
      | some chomping =>
          match rest with
          | d :: after =>
              if d.isDigit then
                if d = '0' then none else some (⟨chomping, some (d.toNat - '0'.toNat)⟩, after)
              else some (⟨chomping, none⟩, rest)
          | [] => some (⟨chomping, none⟩, [])
      | none =>
          if c.isDigit then
            if c = '0' then none
            else
              let increment := some (c.toNat - '0'.toNat)
              match rest with
              | d :: after =>
                  match chomping? d with
                  | some chomping => some (⟨chomping, increment⟩, after)
                  | none => some (⟨.clip, increment⟩, rest)
              | [] => some (⟨.clip, increment⟩, [])
          else some (⟨.clip, none⟩, s)

/-- Drops spaces and a comment up to the break of the line, which goes too. -/
def dropLineEnd? (s : List Char) : Option (List Char) :=
  let rest := s.dropWhile (· == ' ')
  let rest := if rest.head? = some '#' then rest.dropWhile (!isBreak ·) else rest
  match rest with
  | [] => some []
  | c :: after => if isBreak c then some after else none

/-- The breaks of empty lines at the start, the greatest column reached there,
and the column behind them. -/
def leading (column deepest : Nat) : List Char → List Char × Nat × Nat × List Char
  | [] => ([], deepest, column, [])
  | c :: rest =>
      if c = ' ' then leading (column + 1) (max deepest (column + 1)) rest
      else if isBreak c then
        match leading 0 deepest rest with
        | (breaks, deepest, column, after) => (c :: breaks, deepest, column, after)
      else ([], deepest, column, c :: rest)

/-- The breaks of empty lines, indentation being taken up to a column. -/
def emptyLines (indent column : Nat) : List Char → List Char × Nat × List Char
  | [] => ([], column, [])
  | c :: rest =>
      if c = ' ' ∧ column < indent then emptyLines indent (column + 1) rest
      else if isBreak c then
        match emptyLines indent 0 rest with
        | (breaks, column, after) => (c :: breaks, column, after)
      else ([], column, c :: rest)

def startsBlank : List Char → Bool
  | [] => false
  | c :: _ => isBlank c

/-- What was read of a scalar: its text up to the last line, the break of that
line, the breaks behind it, and what follows. -/
structure Lines where
  text : List Char
  lastBreak : List Char
  breaks : List Char
  rest : List Char

/-- Reads the lines that start in the column of the indentation.  `before` are
the breaks in front of the first one. -/
def lines (folded : Bool) (indent : Nat) :
    Nat → List Char → Nat → List Char → Lines
  | 0, before, _, s => ⟨[], [], before, s⟩
  | fuel + 1, before, column, s =>
      if column = indent ∧ !s.isEmpty then
        let line := s.takeWhile (!isBreak ·)
        let lastBreak := (s.dropWhile (!isBreak ·)).take 1
        match emptyLines indent 0 ((s.dropWhile (!isBreak ·)).drop 1) with
        | (breaks, column, rest) =>
            if column = indent ∧ !rest.isEmpty then
              let between :=
                if folded && lastBreak == ['\n'] && !startsBlank s && !startsBlank rest then
                  if breaks.isEmpty then [' '] else []
                else lastBreak
              let more := lines folded indent fuel breaks column rest
              { more with text := before ++ line ++ between ++ more.text }
            else ⟨before ++ line, lastBreak, breaks, rest⟩
      else ⟨[], [], before, s⟩

/-- The scalar behind its mark, inside a block of an indentation that is one
more than that of the block itself, and what follows it. -/
def scan (folded : Bool) (least : Nat) (s : List Char) : Except Fault (List Char × List Char) :=
  match indicators? s with
  | none => .error .malformed
  | some (header, rest) =>
      if !atSpace rest then .error .malformed
      else
        match dropLineEnd? rest with
        | none => .error .malformed
        | some rest =>
            let least := max least 1
            let read :=
              match header.increment? with
              | some increment =>
                  let indent := least + increment - 1
                  match emptyLines indent 0 rest with
                  | (breaks, column, rest) =>
                      lines folded indent (rest.length + 1) breaks column rest
              | none =>
                  match leading 0 0 rest with
                  | (breaks, deepest, column, rest) =>
                      lines folded (max least deepest) (rest.length + 1) breaks column rest
            let ending :=
              match header.chomping with
              | .clip => read.lastBreak
              | .strip => []
              | .keep => read.lastBreak ++ read.breaks
            .ok (read.text ++ ending, read.rest)

end Block
end Yaml
end Palette
