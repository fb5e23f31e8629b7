import Palette.Text.Blank

/-!
# Paths

Paths as they are written: parts between slashes.  A path may be split into a
directory and a last part, and has an extension.
-/

namespace Palette
namespace Path

/-- The parts between the slashes, of which there is always one. -/
def parts : List Char → List (List Char)
  | [] => [[]]
  | c :: rest =>
      if c = '/' then [] :: parts rest
      else
        match parts rest with
        | part :: more => (c :: part) :: more
        | [] => [[c]]

def isAbsolute (path : List Char) : Bool :=
  path.head? == some '/'

/-- Whether a part of a path stays where it is. -/
def isIdle (part : List Char) : Bool :=
  part.isEmpty || part == ['.']

def joinParts : List (List Char) → List Char
  | [] => []
  | [part] => part
  | part :: rest => part ++ '/' :: joinParts rest

/-- The path without parts that stay where they are.  Two slashes at the start,
and no more, are kept. -/
def tidy (path : List Char) : List Char :=
  let steps := joinParts ((parts path).filter (!isIdle ·))
  let slashes := (path.takeWhile (· == '/')).length
  let root := if slashes = 2 then ['/', '/'] else if 0 < slashes then ['/'] else []
  if root.isEmpty && steps.isEmpty then ['.'] else root ++ steps

/-- What stands in front of the last slash, and what behind it.  Slashes at the
end of the first part go unless it is nothing else. -/
def split (path : List Char) : List Char × List Char :=
  let tail := (path.reverse.takeWhile (· != '/')).reverse
  let head := path.take (path.length - tail.length)
  (if head.all (· == '/') then head else Text.trimEndOf (· == '/') head, tail)

def directory (path : List Char) : List Char :=
  (split path).1

/-- The last part of a path. -/
def baseName (path : List Char) : List Char :=
  (split path).2

/-- The extension of the last part, from its last point on.  Points at the start
of the part begin no extension. -/
def extension (path : List Char) : List Char :=
  let name := (baseName path).dropWhile (· == '.')
  if name.contains '.' then '.' :: (name.reverse.takeWhile (· != '.')).reverse else []

end Path
end Palette
