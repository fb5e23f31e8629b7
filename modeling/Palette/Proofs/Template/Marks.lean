import Palette.Template.Tree

/-!
# Templates as sequences of marks

A source and a tree are compared through what both can be read as: the sequence
of their texts and tags.  Comments leave no mark, and the two forms of a raw value
leave the same one.
-/

namespace Palette
namespace Template

inductive Mark where
  | text (chars : List Char)
  | var (name : String)
  | raw (name : String)
  | opening (gate : Gate) (name : String)
  | closing (name : String)
deriving DecidableEq

def Tag.mark? (tag : Tag) : Option Mark :=
  match tag.form with
  | .escaped => some (.var tag.name)
  | .raw => some (.raw tag.name)
  | .triple => some (.raw tag.name)
  | .opening gate => some (.opening gate tag.name)
  | .closing => some (.closing tag.name)
  | .comment => none

def Piece.mark? : Piece → Option Mark
  | text chars => some (.text chars)
  | tag t _ => t.mark?

def marks (source : String) : List Mark :=
  (scan source.toList).filterMap Piece.mark?

mutual

/-- The marks of a node: a section is its opening tag, its children and its
closing tag. -/
def Node.flatten : Node → List Mark
  | .text chars => [.text chars]
  | .var name => [.var name]
  | .raw name => [.raw name]
  | .block gate name children =>
      .opening gate name :: flattenNodes children ++ [.closing name]

def flattenNodes : List Node → List Mark
  | [] => []
  | node :: rest => node.flatten ++ flattenNodes rest

end

theorem flattenNodes_append (front back : List Node) :
    flattenNodes (front ++ back) = flattenNodes front ++ flattenNodes back := by
  induction front with
  | nil =>
      rfl
  | cons node rest ih =>
      rw [List.cons_append, flattenNodes, flattenNodes, ih, List.append_assoc]

theorem flattenNodes_reverse_cons (node : Node) (nodes : List Node) :
    flattenNodes (node :: nodes).reverse = flattenNodes nodes.reverse ++ node.flatten := by
  rw [List.reverse_cons, flattenNodes_append, flattenNodes, flattenNodes, List.append_nil]

/-!
# The cut of a source

The pieces of a source, put together again, are the source.
-/

theorem flatMap_source_consText (c : Char) (pieces : List Piece) :
    (consText c pieces).flatMap Piece.source = c :: pieces.flatMap Piece.source := by
  cases pieces with
  | nil =>
      rfl
  | cons piece rest =>
      cases piece <;> rfl

theorem flatMap_source_scan (s : List Char) : (scan s).flatMap Piece.source = s := by
  induction s using scan.induct with
  | case1 =>
      rw [scan]
      rfl
  | case2 c rest tag length htag ih =>
      rw [scan, htag]
      simp only [List.flatMap_cons, Piece.source, List.cons_append]
      rw [ih, List.take_append_drop]
  | case3 c rest htag ih =>
      rw [scan, htag]
      simp only
      rw [flatMap_source_consText, ih]

/-!
# Nesting marks

Nesting looks at the marks of the pieces only, so the same pass runs on marks.
-/

def nestMarks (stack : List Frame) (nodes : List Node) : List Mark → Except Fault (List Node)
  | [] =>
      match stack with
      | [] => .ok nodes.reverse
      | frame :: _ => .error (.unclosed frame.name)
  | .text chars :: rest => nestMarks stack (.text chars :: nodes) rest
  | .var name :: rest => nestMarks stack (.var name :: nodes) rest
  | .raw name :: rest => nestMarks stack (.raw name :: nodes) rest
  | .opening gate name :: rest => nestMarks (⟨gate, name, nodes⟩ :: stack) [] rest
  | .closing name :: rest =>
      match stack with
      | [] => .error (.unexpectedClosing name)
      | frame :: outer =>
          if frame.name = name then
            nestMarks outer (.block frame.gate frame.name nodes.reverse :: frame.before) rest
          else .error (.unexpectedClosing name)

theorem nest_eq_nestMarks (stack : List Frame) (nodes : List Node) (pieces : List Piece) :
    nest stack nodes pieces = nestMarks stack nodes (pieces.filterMap Piece.mark?) := by
  induction pieces generalizing stack nodes with
  | nil =>
      cases stack <;> rfl
  | cons piece rest ih =>
      cases piece with
      | text chars =>
          exact ih stack (.text chars :: nodes)
      | tag t source =>
          cases t with
          | mk form name =>
              cases form with
              | escaped =>
                  exact ih stack (.var name :: nodes)
              | raw =>
                  exact ih stack (.raw name :: nodes)
              | triple =>
                  exact ih stack (.raw name :: nodes)
              | opening gate =>
                  exact ih (⟨gate, name, nodes⟩ :: stack) []
              | comment =>
                  exact ih stack nodes
              | closing =>
                  cases stack with
                  | nil =>
                      rfl
                  | cons frame outer =>
                      simp only [nest, ih]
                      rfl

theorem parse_eq_nestMarks (source : String) : parse source = nestMarks [] [] (marks source) :=
  nest_eq_nestMarks [] [] (scan source.toList)

/-!
# Nesting undoes flattening
-/

mutual

theorem nestMarks_flatten (node : Node) (stack : List Frame) (nodes : List Node)
    (rest : List Mark) :
    nestMarks stack nodes (node.flatten ++ rest) = nestMarks stack (node :: nodes) rest := by
  cases node with
  | text chars =>
      rfl
  | var name =>
      rfl
  | raw name =>
      rfl
  | block gate name children =>
      rw [Node.flatten, List.cons_append, List.cons_append, List.append_assoc, nestMarks,
        nestMarks_flattenNodes children, List.singleton_append, nestMarks, if_pos rfl,
        List.append_nil, List.reverse_reverse]

theorem nestMarks_flattenNodes (tree : List Node) (stack : List Frame) (nodes : List Node)
    (rest : List Mark) :
    nestMarks stack nodes (flattenNodes tree ++ rest) =
      nestMarks stack (tree.reverse ++ nodes) rest := by
  cases tree with
  | nil =>
      rfl
  | cons node more =>
      rw [flattenNodes, List.append_assoc, nestMarks_flatten node, nestMarks_flattenNodes more,
        List.reverse_cons, List.append_assoc, List.singleton_append]

end

end Template
end Palette
