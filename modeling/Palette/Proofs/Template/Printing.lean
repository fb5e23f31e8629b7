import Mathlib.Data.List.Chain
import Palette.Proofs.Template.Nesting
import Palette.Proofs.Template.TagForms

/-!
# Printed trees

A tree is printed by its texts and tags, where a raw value may stand in triple braces or behind
a sigil.  A tree is read back from its prints as long as each text can be told from what stands
behind it.
-/

namespace Palette
namespace Template

def Gate.sigil : Gate → List Char
  | found => ['#']
  | missing => ['^']

mutual

inductive Node.Prints : Node → List Char → Prop
  | text {chars : List Char} : Node.Prints (.text chars) chars
  | var {name : String} : Node.Prints (.var name) (inDouble [] name.toList)
  | raw {name : String} : Node.Prints (.raw name) (inDouble ['&'] name.toList)
  | triple {name : String} (hname : name ≠ "") : Node.Prints (.raw name) (inTriple name.toList)
  | block {gate : Gate} {name : String} {children : List Node} {inner : List Char}
      (hinner : PrintsAll children inner) :
      Node.Prints (.block gate name children)
        (inDouble gate.sigil name.toList ++ inner ++ inDouble ['/'] name.toList)

inductive PrintsAll : List Node → List Char → Prop
  | nil : PrintsAll [] []
  | cons {node : Node} {rest : List Node} {front back : List Char} (hnode : node.Prints front)
      (hrest : PrintsAll rest back) : PrintsAll (node :: rest) (front ++ back)

end

/-- What a text or a tag must be like to be read back.  The name of a value in double braces
must not begin like a sigil. -/
def Mark.IsPrintable : Mark → Prop
  | text chars => chars ≠ [] ∧ ¬['{', '{'] <:+: chars
  | var name => IsTagName name.toList ∧ forall c, c ∈ name.toList.head? -> c ∉ sigils
  | raw name => IsTagName name.toList
  | opening _ name => IsTagName name.toList
  | closing name => IsTagName name.toList

def Mark.isText : Mark → Bool
  | text _ => true
  | _ => false

/-- Whether a text or a tag can be told from the one behind it.  Two texts cannot, nor can a
text from a tag if it ends with an opening brace. -/
def Mark.IsApartFrom : Mark → Mark → Prop
  | text chars, next => next.isText = false ∧ chars.getLast? ≠ some '{'
  | _, _ => True

structure IsPrintable (tree : List Node) : Prop where
  marks : forall m, m ∈ flattenNodes tree -> m.IsPrintable
  apart : (flattenNodes tree).IsChain Mark.IsApartFrom

theorem isPrintable_var_iff (name : String) :
    (Mark.var name).IsPrintable <->
      IsTagName name.toList ∧ name.toList.head?.all (decide <| · ∉ sigils) = true := by
  rw [Option.all_eq_true]
  simp only [decide_eq_true_eq]
  rfl

instance : (m : Mark) → Decidable m.IsPrintable
  | .text _ => inferInstanceAs (Decidable (_ ∧ _))
  | .var name => decidable_of_iff _ (isPrintable_var_iff name).symm
  | .raw name => inferInstanceAs (Decidable (IsTagName name.toList))
  | .opening _ name => inferInstanceAs (Decidable (IsTagName name.toList))
  | .closing name => inferInstanceAs (Decidable (IsTagName name.toList))

instance : (m next : Mark) → Decidable (m.IsApartFrom next)
  | .text _, _ => inferInstanceAs (Decidable (_ ∧ _))
  | .var _, _ => isTrue trivial
  | .raw _, _ => isTrue trivial
  | .opening _ _, _ => isTrue trivial
  | .closing _, _ => isTrue trivial

instance (tree : List Node) : Decidable (IsPrintable tree) :=
  decidable_of_iff
    ((forall m, m ∈ flattenNodes tree -> m.IsPrintable) ∧
      (flattenNodes tree).IsChain Mark.IsApartFrom)
    ⟨fun h => ⟨h.left, h.right⟩, fun h => ⟨h.marks, h.apart⟩⟩

mutual

theorem Node.exists_prints (node : Node) : exists source, node.Prints source := by
  cases node with
  | text chars =>
      exact ⟨_, .text⟩
  | var name =>
      exact ⟨_, .var⟩
  | raw name =>
      exact ⟨_, .raw⟩
  | block gate name children =>
      rcases exists_printsAll children with ⟨inner, hinner⟩
      exact ⟨_, .block hinner⟩

theorem exists_printsAll (tree : List Node) : exists source, PrintsAll tree source := by
  cases tree with
  | nil =>
      exact ⟨_, .nil⟩
  | cons node rest =>
      rcases node.exists_prints with ⟨front, hfront⟩
      rcases exists_printsAll rest with ⟨back, hback⟩
      exact ⟨_, .cons hfront hback⟩

end

/-!
# Prints of marks
-/

inductive Mark.Prints : Mark → List Char → Prop
  | text {chars : List Char} : Mark.Prints (.text chars) chars
  | var {name : String} : Mark.Prints (.var name) (inDouble [] name.toList)
  | raw {name : String} : Mark.Prints (.raw name) (inDouble ['&'] name.toList)
  | triple {name : String} (hname : name ≠ "") : Mark.Prints (.raw name) (inTriple name.toList)
  | opening {gate : Gate} {name : String} :
      Mark.Prints (.opening gate name) (inDouble gate.sigil name.toList)
  | closing {name : String} : Mark.Prints (.closing name) (inDouble ['/'] name.toList)

inductive MarksPrint : List Mark → List Char → Prop
  | nil : MarksPrint [] []
  | cons {m : Mark} {rest : List Mark} {front back : List Char} (hmark : m.Prints front)
      (hrest : MarksPrint rest back) : MarksPrint (m :: rest) (front ++ back)

theorem Mark.Prints.alone {m : Mark} {source : List Char} (h : m.Prints source) :
    MarksPrint [m] source := by
  rw [← List.append_nil source]
  exact .cons h .nil

theorem MarksPrint.append {front back : List Mark} {source more : List Char}
    (hfront : MarksPrint front source) (hback : MarksPrint back more) :
    MarksPrint (front ++ back) (source ++ more) := by
  induction hfront with
  | nil =>
      exact hback
  | cons hmark _ ih =>
      rw [List.cons_append, List.append_assoc]
      exact .cons hmark ih

mutual

theorem marksPrint_flatten (node : Node) {source : List Char} (h : node.Prints source) :
    MarksPrint node.flatten source := by
  cases h with
  | text =>
      exact Mark.Prints.text.alone
  | var =>
      exact Mark.Prints.var.alone
  | raw =>
      exact Mark.Prints.raw.alone
  | triple hname =>
      exact (Mark.Prints.triple hname).alone
  | @block gate name children inner hinner =>
      have hopen : MarksPrint [.opening gate name] (inDouble gate.sigil name.toList) :=
        Mark.Prints.opening.alone
      have hclose : MarksPrint [.closing name] (inDouble ['/'] name.toList) :=
        Mark.Prints.closing.alone
      exact (hopen.append (marksPrint_flattenNodes children hinner)).append hclose

theorem marksPrint_flattenNodes (tree : List Node) {source : List Char}
    (h : PrintsAll tree source) : MarksPrint (flattenNodes tree) source := by
  cases h with
  | nil =>
      exact .nil
  | cons hnode hrest =>
      exact (marksPrint_flatten _ hnode).append (marksPrint_flattenNodes _ hrest)

end

/-!
# Scanning prints

A tag is cut off whatever stands behind it; a text is cut off if a tag or nothing does.
-/

theorem formOf?_gate (gate : Gate) : formOf? gate.sigil = some (.opening gate) := by
  cases gate <;> rfl

theorem Mark.Prints.exists_tag {m : Mark} {source : List Char} (h : m.Prints source)
    (hm : m.IsPrintable) (htext : m.isText = false) :
    exists tag : Tag, tag.mark? = some m ∧
      forall rest, scan (source ++ rest) = .tag tag source :: scan rest := by
  have hname : forall name : String, String.ofList name.toList = name :=
    fun _ => String.ofList_toList
  cases h with
  | text =>
      cases htext
  | @var name =>
      refine ⟨⟨.escaped, name⟩, rfl, fun rest => ?_⟩
      have hscan := hm.left.scan_inDouble [] rfl
        (fun _ c hc => (sigil?_eq_none_iff c).mpr (hm.right c hc)) rest
      rwa [hname] at hscan
  | @raw name =>
      refine ⟨⟨.raw, name⟩, rfl, fun rest => ?_⟩
      have hscan := hm.scan_inDouble ['&'] rfl nofun rest
      rwa [hname] at hscan
  | @triple name hne =>
      refine ⟨⟨.triple, name⟩, rfl, fun rest => ?_⟩
      have hscan := hm.scan_inTriple (by simpa using hne) rest
      rwa [hname] at hscan
  | @opening gate name =>
      refine ⟨⟨.opening gate, name⟩, rfl, fun rest => ?_⟩
      have hscan := hm.scan_inDouble gate.sigil (formOf?_gate gate) (by cases gate <;> nofun) rest
      rwa [hname] at hscan
  | @closing name =>
      refine ⟨⟨.closing, name⟩, rfl, fun rest => ?_⟩
      have hscan := hm.scan_inDouble ['/'] rfl nofun rest
      rwa [hname] at hscan

theorem scan_text_append {chars rest : List Char} (hopen : ¬['{', '{'] <:+: chars)
    (hend : rest = [] ∨ chars.getLast? ≠ some '{')
    (hrest : forall other, (scan rest).head? ≠ some (.text other)) :
    scan (chars ++ rest) = textPiece chars ++ scan rest := by
  induction chars with
  | nil =>
      rfl
  | cons c more ih =>
      have hnot : ¬['{', '{'] <+: c :: (more ++ rest) := by
        intro hprefix
        rcases List.cons_prefix_cons.mp hprefix with ⟨hc, hprefix⟩
        cases more with
        | nil =>
            rcases hend with hnil | hlast
            · rw [hnil] at hprefix
              exact absurd hprefix (by decide)
            · rw [← hc] at hlast
              exact hlast rfl
        | cons d more =>
            rcases List.cons_prefix_cons.mp hprefix with ⟨hd, _⟩
            apply hopen
            rw [← hc, ← hd]
            exact (List.prefix_append ['{', '{'] more).isInfix
      have hmore : ¬['{', '{'] <:+: more := by
        intro hinfix
        exact hopen (List.infix_cons hinfix)
      have hlast : rest = [] ∨ more.getLast? ≠ some '{' := by
        apply hend.imp_right
        intro hlast hmore
        rw [List.getLast?_cons, hmore] at hlast
        exact hlast rfl
      rw [List.cons_append, scan_of_none (tagAt?_of_not hnot), ih hmore hlast]
      exact (textPiece_cons_append c more hrest).symm

theorem MarksPrint.behind_text {chars source : List Char} {rest : List Mark}
    (h : MarksPrint rest source) (hmarks : forall m, m ∈ rest -> m.IsPrintable)
    (hapart : (.text chars :: rest).IsChain Mark.IsApartFrom) :
    (source = [] ∨ chars.getLast? ≠ some '{') ∧
      forall other, (scan source).head? ≠ some (.text other) := by
  cases h with
  | nil =>
      refine ⟨Or.inl rfl, fun other heq => ?_⟩
      rw [scan] at heq
      cases heq
  | @cons next more front back hnext _ =>
      rcases (List.isChain_cons_cons.mp hapart).left with ⟨htext, hlast⟩
      rcases hnext.exists_tag (hmarks next List.mem_cons_self) htext with ⟨tag, _, hscan⟩
      refine ⟨Or.inr hlast, fun other heq => ?_⟩
      rw [hscan] at heq
      cases heq

theorem MarksPrint.filterMap_scan {ms : List Mark} {source : List Char}
    (h : MarksPrint ms source) (hmarks : forall m, m ∈ ms -> m.IsPrintable)
    (hapart : ms.IsChain Mark.IsApartFrom) : (scan source).filterMap Piece.mark? = ms := by
  induction h with
  | nil =>
      rw [scan]
      rfl
  | @cons m rest front back hmark hrest ih =>
      have hm := hmarks m List.mem_cons_self
      have htail := ih (fun n hn => hmarks n (List.mem_cons_of_mem m hn)) hapart.tail
      cases htext : m.isText with
      | false =>
          rcases hmark.exists_tag hm htext with ⟨tag, htag, hscan⟩
          rw [hscan, List.filterMap_cons, Piece.mark?, htag, htail]
      | true =>
          cases hmark with
          | text =>
              rcases hrest.behind_text (fun n hn => hmarks n (List.mem_cons_of_mem _ hn))
                hapart with ⟨hend, hbehind⟩
              rw [scan_text_append hm.right hend hbehind, textPiece, if_neg hm.left,
                List.singleton_append, List.filterMap_cons, htail]
              rfl
          | _ =>
              cases htext

/-- A tree has prints, and is parsed from each of them. -/
theorem parse_of_prints {tree : List Node} (htree : IsPrintable tree) :
    (exists source : String, PrintsAll tree source.toList) ∧
      forall source : String, PrintsAll tree source.toList -> parse source = .ok tree := by
  constructor
  · rcases exists_printsAll tree with ⟨source, hsource⟩
    refine ⟨String.ofList source, ?_⟩
    rwa [String.toList_ofList]
  · intro source hprints
    have hmarks := (marksPrint_flattenNodes tree hprints).filterMap_scan htree.marks htree.apart
    exact parse_eq_ok_of_flattenNodes hmarks.symm

def bracedTree : List Node :=
  [ .text "a\x7bb".toList,
    .block .found "" [.raw "x", .text "\x7d\x7d".toList, .block .missing "#n" []],
    .raw "y",
    .text "\x7b".toList ]

def bracedSource : String :=
  "a\x7bb\x7b\x7b#\x7d\x7d\x7b\x7b\x7bx\x7d\x7d\x7d\x7d\x7d" ++
    "\x7b\x7b^#n\x7d\x7d\x7b\x7b/#n\x7d\x7d\x7b\x7b/\x7d\x7d\x7b\x7b&y\x7d\x7d\x7b"

theorem parse_of_prints_of_braces :
    PrintsAll bracedTree bracedSource.toList ∧ IsPrintable bracedTree ∧
      parse bracedSource = .ok bracedTree := by
  have hprints : PrintsAll bracedTree bracedSource.toList :=
    .cons .text
      (.cons (.block (.cons (.triple (by decide)) (.cons .text (.cons (.block .nil) .nil))))
        (.cons .raw (.cons .text .nil)))
  have htree : IsPrintable bracedTree := by decide
  exact ⟨hprints, htree, (parse_of_prints htree).right bracedSource hprints⟩

end Template
end Palette
