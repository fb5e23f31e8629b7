import Palette.Template.Tag
import Palette.Text.Quoted

/-!
# Template trees

The pieces of a source are nested by its sections.  While the pieces are read,
the sections that are open wait on a stack, the innermost on top; a closing tag
must have the name of the innermost one.
-/

namespace Palette
namespace Template

inductive Node where
  | text (chars : List Char)
  | var (name : String)
  | raw (name : String)
  | block (gate : Gate) (name : String) (children : List Node)
deriving Inhabited

/-- A source whose sections are not well nested. -/
inductive Fault where
  /-- A closing tag that does not close the innermost open section. -/
  | unexpectedClosing (name : String)
  /-- A section that is open at the end. -/
  | unclosed (name : String)
deriving DecidableEq

def Fault.message : Fault → String
  | unexpectedClosing name => "unexpected closing tag \x7b\x7b/" ++ name ++ "\x7d\x7d"
  | unclosed name => "section " ++ Text.quoted name ++ " is never closed"

/-- An open section with the nodes that stand in front of it, the last one first. -/
structure Frame where
  gate : Gate
  name : String
  before : List Node

/-- Nests pieces.  `nodes` are those of the innermost open section so far, the
last one first. -/
def nest (stack : List Frame) (nodes : List Node) : List Piece → Except Fault (List Node)
  | [] =>
      match stack with
      | [] => .ok nodes.reverse
      | frame :: _ => .error (.unclosed frame.name)
  | .text chars :: rest => nest stack (.text chars :: nodes) rest
  | .tag tag _ :: rest =>
      match tag.form with
      | .comment => nest stack nodes rest
      | .escaped => nest stack (.var tag.name :: nodes) rest
      | .raw => nest stack (.raw tag.name :: nodes) rest
      | .triple => nest stack (.raw tag.name :: nodes) rest
      | .opening gate => nest (⟨gate, tag.name, nodes⟩ :: stack) [] rest
      | .closing =>
          match stack with
          | [] => .error (.unexpectedClosing tag.name)
          | frame :: outer =>
              if frame.name = tag.name then
                nest outer (.block frame.gate frame.name nodes.reverse :: frame.before) rest
              else .error (.unexpectedClosing tag.name)

/-- The tree of a source. -/
def parse (source : String) : Except Fault (List Node) :=
  nest [] [] (scan source.toList)

end Template
end Palette
