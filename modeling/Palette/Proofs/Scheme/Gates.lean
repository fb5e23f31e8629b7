import Palette.Proofs.CommandLine.LookUps
import Palette.Proofs.Field.Grammar
import Palette.Proofs.Scheme.Colors
import Palette.Proofs.Template.Printing
import Palette.Template.Render

/-!
# Sections and their fields

A section of a field is open exactly if the field has a text, however short the text is.  So of
a section and the inverted one of the same field a template shows one and not the other, and it
shows the one that a look-up of the field leads to expect.
-/

namespace Palette
namespace Template

open Phrase (ofChars ofText)

/-!
# A section and the inverted one
-/

/-- A text without braces. -/
def IsUnbraced (s : List Char) : Prop :=
  forall c, c ∈ s -> isBrace c = false

instance (s : List Char) : Decidable (IsUnbraced s) :=
  List.decidableBAll _ s

def gateSource (sigil name body : String) : String :=
  "\x7b\x7b" ++ sigil ++ name ++ "\x7d\x7d" ++ body ++ "\x7b\x7b/" ++ name ++ "\x7d\x7d"

/-- A section of a field, then the inverted one. -/
def choiceSource (name shown hidden : String) : String :=
  gateSource "#" name shown ++ gateSource "^" name hidden

/-- An empty text leaves no node. -/
def textNodes (chars : List Char) : List Node :=
  if chars = [] then [] else [.text chars]

def choiceTree (name shown hidden : String) : List Node :=
  [.block .found name (textNodes shown.toList), .block .missing name (textNodes hidden.toList)]

namespace IsUnbraced

variable {chars : List Char} (h : IsUnbraced chars)

include h

theorem isPrintable (hne : chars ≠ []) : (Mark.text chars).IsPrintable := by
  refine ⟨hne, ?_⟩
  intro hinfix
  have hmem : '{' ∈ chars := hinfix.subset List.mem_cons_self
  have hbrace := h '{' hmem
  revert hbrace
  decide

theorem isApartFrom {next : Mark} (hnext : next.isText = false) :
    (Mark.text chars).IsApartFrom next := by
  refine ⟨hnext, ?_⟩
  intro hlast
  have hbrace := h '{' (List.mem_of_getLast? hlast)
  revert hbrace
  decide

end IsUnbraced

theorem printsAll_textNodes (chars : List Char) : PrintsAll (textNodes chars) chars := by
  rw [textNodes]
  by_cases hne : chars = []
  · rw [if_pos hne, hne]
    exact .nil
  · rw [if_neg hne]
    have hprints : PrintsAll [.text chars] (chars ++ []) := .cons .text .nil
    rwa [List.append_nil] at hprints

theorem prints_gateSource (gate : Gate) (name body : String) :
    (Node.block gate name (textNodes body.toList)).Prints
      (gateSource (String.ofList gate.sigil) name body).toList := by
  have hsource : (gateSource (String.ofList gate.sigil) name body).toList =
      inDouble gate.sigil name.toList ++ body.toList ++ inDouble ['/'] name.toList := by
    simp [gateSource, inDouble]
  rw [hsource]
  exact .block (printsAll_textNodes body.toList)

theorem printsAll_choiceTree (name shown hidden : String) :
    PrintsAll (choiceTree name shown hidden) (choiceSource name shown hidden).toList := by
  rw [choiceSource, String.toList_append, ← List.append_nil (gateSource "^" name hidden).toList]
  exact .cons (prints_gateSource .found name shown)
    (.cons (prints_gateSource .missing name hidden) .nil)

theorem isChain_textNodes {chars : List Char} (h : IsUnbraced chars) {first next : Mark}
    (hfirst : first.isText = false) (hnext : next.isText = false) {rest : List Mark}
    (hrest : (next :: rest).IsChain Mark.IsApartFrom) :
    (first :: (flattenNodes (textNodes chars) ++ next :: rest)).IsChain Mark.IsApartFrom := by
  have hfree : forall m : Mark, first.IsApartFrom m := by
    intro m
    cases first with
    | text chars =>
        cases hfirst
    | _ =>
        trivial
  rw [textNodes]
  by_cases hne : chars = []
  · rw [if_pos hne]
    exact List.isChain_cons_cons.mpr ⟨hfree next, hrest⟩
  · rw [if_neg hne]
    exact List.isChain_cons_cons.mpr
      ⟨hfree _, List.isChain_cons_cons.mpr ⟨h.isApartFrom hnext, hrest⟩⟩

theorem isPrintable_of_mem_textNodes {chars : List Char} (h : IsUnbraced chars) {m : Mark}
    (hm : m ∈ flattenNodes (textNodes chars)) : m.IsPrintable := by
  rw [textNodes] at hm
  by_cases hne : chars = []
  · rw [if_pos hne] at hm
    cases hm
  · rw [if_neg hne] at hm
    rw [List.mem_singleton.mp hm]
    exact h.isPrintable hne

theorem flattenNodes_choiceTree (name shown hidden : String) :
    flattenNodes (choiceTree name shown hidden) =
      .opening .found name :: (flattenNodes (textNodes shown.toList) ++
        .closing name :: .opening .missing name :: (flattenNodes (textNodes hidden.toList) ++
          [.closing name])) := by
  simp [choiceTree, flattenNodes, Node.flatten]

theorem isPrintable_choiceTree {name shown hidden : String} (hname : IsTagName name.toList)
    (hshown : IsUnbraced shown.toList) (hhidden : IsUnbraced hidden.toList) :
    IsPrintable (choiceTree name shown hidden) where
  marks m hm := by
    rw [flattenNodes_choiceTree] at hm
    simp only [List.mem_cons, List.mem_append, List.not_mem_nil, or_false] at hm
    rcases hm with rfl | hm | rfl | rfl | hm | rfl
    · exact hname
    · exact isPrintable_of_mem_textNodes hshown hm
    · exact hname
    · exact hname
    · exact isPrintable_of_mem_textNodes hhidden hm
    · exact hname
  apart := by
    rw [flattenNodes_choiceTree]
    refine isChain_textNodes hshown rfl rfl (List.isChain_cons_cons.mpr ⟨trivial, ?_⟩)
    exact isChain_textNodes hhidden rfl rfl (List.isChain_singleton _)

theorem parse_choiceSource {name shown hidden : String} (hname : IsTagName name.toList)
    (hshown : IsUnbraced shown.toList) (hhidden : IsUnbraced hidden.toList) :
    parse (choiceSource name shown hidden) = .ok (choiceTree name shown hidden) := by
  have htree := isPrintable_choiceTree hname hshown hhidden
  have hmarks := (marksPrint_flattenNodes _
    (printsAll_choiceTree name shown hidden)).filterMap_scan htree.marks htree.apart
  exact parse_eq_ok_of_flattenNodes hmarks.symm

theorem renderNodes_textNodes (context : Context) (chars : List Char) :
    renderNodes context (textNodes chars) = ofChars chars := by
  rw [textNodes]
  by_cases hne : chars = []
  · rw [if_pos hne, hne]
    rfl
  · rw [if_neg hne]
    exact List.append_nil _

theorem render_choiceSource {name shown hidden : String} (hname : IsTagName name.toList)
    (hshown : IsUnbraced shown.toList) (hhidden : IsUnbraced hidden.toList) (context : Context) :
    render (choiceSource name shown hidden) context =
      .ok (if context.fieldTruthy name then ofText shown else ofText hidden) := by
  rw [render, parse_choiceSource hname hshown hhidden]
  show Except.ok
    ((if context.opens .found name then renderNodes context (textNodes shown.toList) else []) ++
      ((if context.opens .missing name then renderNodes context (textNodes hidden.toList)
        else []) ++ [])) = _
  rw [renderNodes_textNodes, renderNodes_textNodes, List.append_nil, Context.opens, Context.opens]
  cases context.fieldTruthy name with
  | true =>
      exact congrArg Except.ok (List.append_nil _)
  | false =>
      rfl

end Template

/-!
# Fields that are found
-/

theorem Colors.mem_indices_iff (m : Colors) (i : Index) :
    i ∈ m.indices <-> (m.get? i).isSome = true := by
  rw [← m.contains_eq_isSome_get?, contains, indices, List.mem_map, List.any_eq_true]
  simp only [beq_iff_eq]

namespace Scheme

open Phrase (ofText)

/-- A name that a scheme has a field for: a literal one, or that of a colour field whose index
has a colour. -/
def Resolves (s : Scheme) (name : String) : Prop :=
  name ∈ Field.literalNames ∨
    exists field : ColorField, ColorField.IsNamed name field ∧ field.index ∈ s.colors.indices

theorem fieldTruthy_iff_resolves (s : Scheme) (name : String) :
    s.fieldTruthy name = true <-> s.Resolves name := by
  cases hfield : Field.ofText name with
  | color field =>
      have hnamed := Field.ofText_eq_color_iff.mp hfield
      have htruthy : s.fieldTruthy name = (s.colors.get? field.index).isSome := by
        rw [fieldTruthy, hfield]
        dsimp only [color?]
        cases s.colors.get? field.index with
        | none =>
            rfl
        | some c =>
            rfl
      rw [htruthy, ← s.colors.mem_indices_iff]
      constructor
      · intro hmem
        exact Or.inr ⟨field, hnamed, hmem⟩
      · rintro (hliteral | ⟨other, hother, hmem⟩)
        · have hnone := Field.ofText?_eq_none_of_mem hliteral
          rw [ColorField.ofText?_eq_some_iff.mpr hnamed] at hnone
          cases hnone
        · rw [← Field.ofText_eq_color_iff, hfield] at hother
          injection hother with hsame
          rw [hsame]
          exact hmem
  | unparsable =>
      have hnot := Field.ofText_eq_unparsable_iff.mp hfield
      have htruthy : s.fieldTruthy name = false := by
        rw [fieldTruthy, hfield]
        rfl
      rw [htruthy]
      constructor
      · intro h
        cases h
      · rintro (hliteral | ⟨field, hnamed, _⟩)
        · exact absurd hliteral hnot.left
        · exact absurd hnamed (hnot.right field)
  | _ =>
      have hliteral : name ∈ Field.literalNames := by
        by_contra hmem
        rw [Field.ofText_of_not_mem hmem] at hfield
        split at hfield
        · cases hfield
        · cases hfield
      have htruthy : s.fieldTruthy name = true := by
        rw [fieldTruthy, hfield]
        rfl
      exact iff_of_true htruthy (Or.inl hliteral)

variable (ν : Type) [Scalar ν]

theorem mem_missingFields_iff (path : String) (s : Scheme) {name : String} {names : List String}
    (h : name ∈ names) :
    name ∈ ((Report.ofScheme path s).lookUp s names : Report ν).missingFields <->
      s.fieldTruthy name = false := by
  rw [Report.missingFields_lookUp, Report.missingNames, List.mem_filter, List.mem_eraseDups,
    and_iff_right h, s.fieldTruthy_eq (ν := ν), Option.isNone_iff_eq_none,
    Option.isSome_eq_false_iff, Option.isNone_iff_eq_none]

/-- The gate of a field is open exactly if the field has a text, which are the fields that the
scheme has.  So of the two sections of a field a template shows the first if a look-up finds the
field, and the second if the look-up misses it. -/
theorem gate_agrees_with_text (s : Scheme) :
    (forall name : String,
      (s.fieldTruthy name = true <-> s.renderField ν name ≠ none) ∧
        (s.fieldTruthy name = true <-> s.Resolves name)) ∧
      forall (name shown hidden : String), Template.IsTagName name.toList ->
        Template.IsUnbraced shown.toList -> Template.IsUnbraced hidden.toList ->
        forall (path : String) (names : List String), name ∈ names ->
          Template.render (Template.choiceSource name shown hidden)
              ⟨s.renderField ν, s.fieldTruthy⟩ =
            .ok (if name ∈ ((Report.ofScheme path s).lookUp s names : Report ν).missingFields
              then ofText hidden else ofText shown) := by
  constructor
  · intro name
    refine ⟨?_, s.fieldTruthy_iff_resolves name⟩
    rw [s.fieldTruthy_eq (ν := ν), Option.isSome_iff_ne_none]
  · intro name shown hidden hname hshown hhidden path names hmem
    have hmissing := mem_missingFields_iff ν path s hmem
    rw [Template.render_choiceSource hname hshown hhidden]
    dsimp only
    by_cases htruthy : s.fieldTruthy name = true
    · rw [if_pos htruthy, if_neg fun h => Bool.false_ne_true ((hmissing.mp h).symm.trans htruthy)]
    · rw [if_neg htruthy, if_pos (hmissing.mpr (by simpa using htruthy))]

def blackScheme : Scheme :=
  ⟨[], [], .ofList [(⟨.ofNat 10⟩, ⟨.ofNat 0, .ofNat 0, .ofNat 0⟩)], []⟩

theorem gate_agrees_with_text_of_black :
    Template.IsTagName "base0a-rgb-r".toList ∧ Template.IsTagName "base0B-hex".toList ∧
      Template.IsUnbraced "dark".toList ∧ Template.IsUnbraced "".toList ∧
      (blackScheme.fieldTruthy "scheme-author" = true <->
        blackScheme.renderField Float "scheme-author" ≠ none) ∧
      Template.render (Template.choiceSource "base0a-rgb-r" "dark" "")
        ⟨blackScheme.renderField Float, blackScheme.fieldTruthy⟩ = .ok (ofText "dark") ∧
      Template.render (Template.choiceSource "base0B-hex" "" "dark")
        ⟨blackScheme.renderField Float, blackScheme.fieldTruthy⟩ = .ok (ofText "dark") := by
  have hfound : Template.IsTagName "base0a-rgb-r".toList := by decide
  have hmissed : Template.IsTagName "base0B-hex".toList := by decide
  have hdark : Template.IsUnbraced "dark".toList := by decide
  have hempty : Template.IsUnbraced "".toList := by decide
  rcases gate_agrees_with_text Float blackScheme with ⟨hgate, hchoice⟩
  refine ⟨hfound, hmissed, hdark, hempty, (hgate "scheme-author").left, ?_, ?_⟩
  · have hnot := mem_missingFields_iff Float "" blackScheme
      (List.mem_singleton.mpr (rfl : "base0a-rgb-r" = "base0a-rgb-r"))
    rw [hchoice _ _ _ hfound hdark hempty "" _ List.mem_cons_self, if_neg]
    intro hmem
    exact absurd (hnot.mp hmem) (by decide)
  · have hmem := (mem_missingFields_iff Float "" blackScheme
      (List.mem_singleton.mpr (rfl : "base0B-hex" = "base0B-hex"))).mpr rfl
    rw [hchoice _ _ _ hmissed hempty hdark "" _ List.mem_cons_self, if_pos hmem]

end Scheme
end Palette
