import Palette.Proofs.Template.Seams
import Palette.Proofs.Template.TreeNames

/-!
# Sources that are joined

A source behind another one is read as it is read by itself, if the first one leaves no braces open
and the second one starts with none.  What is cut is then the same but for a text at the seam, so
the rendering of the whole is that of its parts one after the other.
-/

namespace Palette
namespace Template

/-!
# The text behind the tags
-/

/-- The text that a piece leaves open behind some text: a tag starts anew. -/
def Piece.behind (front : List Char) : Piece → List Char
  | text chars => front ++ chars
  | tag _ _ => []

def behindTags (pieces : List Piece) : List Char :=
  pieces.foldl Piece.behind []

def hasTag (pieces : List Piece) : Bool :=
  pieces.any fun piece => piece.tag?.isSome

theorem foldl_behind (front : List Char) (pieces : List Piece) :
    pieces.foldl Piece.behind front =
      if hasTag pieces then behindTags pieces else front ++ behindTags pieces := by
  induction pieces generalizing front with
  | nil =>
      exact (List.append_nil front).symm
  | cons piece rest ih =>
      cases piece with
      | tag t source =>
          rfl
      | text chars =>
          have hrest : hasTag (.text chars :: rest) = hasTag rest := rfl
          have hchars : behindTags (.text chars :: rest) = rest.foldl Piece.behind chars := rfl
          rw [List.foldl_cons, Piece.behind, ih, hrest, hchars, ih]
          cases hasTag rest with
          | true =>
              rfl
          | false =>
              exact List.append_assoc front chars (behindTags rest)

theorem behindTags_consText (c : Char) (pieces : List Piece) :
    behindTags (consText c pieces) =
      if hasTag pieces then behindTags pieces else c :: behindTags pieces := by
  cases pieces with
  | nil =>
      rfl
  | cons piece rest =>
      cases piece with
      | tag t source =>
          rfl
      | text chars =>
          have hrest : hasTag (.text chars :: rest) = hasTag rest := rfl
          have hcons : behindTags (consText c (.text chars :: rest)) =
              rest.foldl Piece.behind (c :: chars) := rfl
          have hchars : behindTags (.text chars :: rest) = rest.foldl Piece.behind chars := rfl
          rw [hcons, hchars, foldl_behind, foldl_behind, hrest]
          cases hasTag rest with
          | true =>
              rfl
          | false =>
              rfl

theorem behindTags_of_texts {pieces : List Piece} (h : hasTag pieces = false) :
    behindTags pieces = pieces.flatMap Piece.source := by
  induction pieces with
  | nil =>
      rfl
  | cons piece rest ih =>
      cases piece with
      | tag t source =>
          cases h
      | text chars =>
          have hrest : hasTag rest = false := h
          have hchars : behindTags (.text chars :: rest) = rest.foldl Piece.behind chars := rfl
          rw [hchars, foldl_behind, hrest, List.flatMap_cons, ih hrest]
          rfl

theorem isSome_beforeClosing?_of_hasTag {s : List Char} (h : hasTag (scan s) = true) :
    (beforeClosing? s).isSome = true := by
  rcases List.any_eq_true.mp h with ⟨piece, hmem, hsome⟩
  cases piece with
  | text chars =>
      cases hsome
  | tag t source =>
      rcases List.append_of_mem hmem with ⟨front, back, hscan⟩
      rcases split_of_scan hscan with ⟨rest, hs, hat, _⟩
      rcases isSome_tagAt?_iff.mp (Option.isSome_of_eq_some hat) with ⟨inner, hinner, hclosing⟩
      rw [hs, hinner]
      exact isSome_beforeClosing?_append _ (isSome_beforeClosing?_append ['{', '{'] hclosing)

/-!
# The cut of a joined source
-/

def Piece.onto : Piece → List Piece → List Piece
  | text chars, text more :: rest => text (chars ++ more) :: rest
  | piece, rest => piece :: rest

theorem foldr_onto_consText (c : Char) (front back : List Piece) :
    (consText c front).foldr Piece.onto back = consText c (front.foldr Piece.onto back) := by
  have htext : forall (chars : List Char) (pieces : List Piece),
      Piece.onto (.text (c :: chars)) pieces = consText c (Piece.onto (.text chars) pieces) := by
    intro chars pieces
    cases pieces with
    | nil =>
        rfl
    | cons piece rest =>
        cases piece <;> rfl
  cases front with
  | nil =>
      cases back with
      | nil =>
          rfl
      | cons piece rest =>
          cases piece <;> rfl
  | cons piece rest =>
      cases piece with
      | tag t source =>
          rfl
      | text chars =>
          exact htext chars _

/-- Whether a source can stand behind another one without changing how that one is cut. -/
structure Follows (s front : List Char) : Prop where
  closed : ¬['{', '{'] <:+: behindTags (scan front)
  unbraced : forall c, c ∈ s.head? -> isBrace c = false

theorem Follows.tagAt?_eq_none {s front : List Char} {c : Char} (h : Follows s (c :: front))
    (hnone : tagAt? (c :: front) = none) : tagAt? (c :: (front ++ s)) = none := by
  rw [← Option.not_isSome_iff_eq_none]
  intro hsome
  rcases isSome_tagAt?_iff.mp hsome with ⟨inner, hinner, _⟩
  injection hinner with hc hinner
  cases front with
  | nil =>
      have hbrace := h.unbraced '{' (by rw [← List.nil_append s, hinner]; rfl)
      cases hbrace
  | cons d front =>
      injection hinner with hd _
      have hopen : (beforeClosing? front).isSome = false := by
        rw [← Bool.not_eq_true]
        intro hclosing
        have htag := isSome_tagAt?_iff.mpr ⟨front, rfl, hclosing⟩
        rw [hc, hd] at hnone
        rw [hnone] at htag
        cases htag
      have htexts : hasTag (scan (d :: front)) = false := by
        rw [← Bool.not_eq_true]
        intro htag
        have hclosing := isSome_beforeClosing?_of_hasTag htag
        rw [hd, beforeClosing?_cons_of_ne (by decide), Option.isSome_map, hopen] at hclosing
        cases hclosing
      apply h.closed
      rw [scan_of_none hnone, behindTags_consText, htexts, behindTags_of_texts htexts,
        flatMap_source_scan, hc, hd]
      exact (List.prefix_append ['{', '{'] front).isInfix

theorem Follows.of_consText {s front : List Char} {c : Char} (h : Follows s (c :: front))
    (hnone : tagAt? (c :: front) = none) : Follows s front := by
  refine ⟨fun hinfix => h.closed ?_, h.unbraced⟩
  rw [scan_of_none hnone, behindTags_consText]
  split
  · exact hinfix
  · exact List.infix_cons hinfix

/-- The pieces of a joined source are those of its parts, the texts at the seam put together. -/
theorem scan_append {s front : List Char} (h : Follows s front) :
    scan (front ++ s) = (scan front).foldr Piece.onto (scan s) := by
  induction front using scan.induct with
  | case1 =>
      rw [scan.eq_def []]
      rfl
  | case2 c front tag length htag ih =>
      have hrest : Follows s ((c :: front).drop length) := by
        refine ⟨?_, h.unbraced⟩
        have hclosed := h.closed
        rw [scan_of_some htag] at hclosed
        exact hclosed
      have hsource : ((c :: front).take length).length = length :=
        List.length_take_of_le (tagAt?_length htag).right
      have hne : (c :: front).take length ≠ [] := by
        rw [← List.length_pos_iff, hsource]
        exact (tagAt?_length htag).left
      have hat : tagAt? ((c :: front).take length ++ (c :: front).drop length) =
          some (tag, ((c :: front).take length).length) := by
        rw [List.take_append_drop, hsource]
        exact htag
      have hnext : ((c :: front).drop length ++ s).head? = some '}' ->
          ((c :: front).drop length).head? = some '}' := by
        cases (c :: front).drop length with
        | nil =>
            intro hbrace
            have hunbraced := h.unbraced '}' hbrace
            cases hunbraced
        | cons d tail =>
            exact id
      rw [← drop_of_tagAt? htag] at ih
      rw [scan_of_some htag, List.foldr_cons, ← ih hrest]
      conv => lhs; rw [← List.take_append_drop length (c :: front), List.append_assoc]
      exact scan_append_of_tagAt? hne (tagAt?_append_congr hat hnext)
  | case3 c front hnone ih =>
      rw [List.cons_append, scan_of_none (h.tagAt?_eq_none hnone), scan_of_none hnone,
        ih (h.of_consText hnone), foldr_onto_consText]

/-!
# Merged texts
-/

/-- Marks of which some texts that stand side by side are put together. -/
inductive Merges : List Mark → List Mark → Prop where
  | nil : Merges [] []
  | cons (m : Mark) {ms merged : List Mark} : Merges ms merged → Merges (m :: ms) (m :: merged)
  | text (chars : List Char) {more : List Char} {ms merged : List Mark} :
      Merges ms (.text more :: merged) →
        Merges (.text chars :: ms) (.text (chars ++ more) :: merged)

theorem Merges.refl (ms : List Mark) : Merges ms ms := by
  induction ms with
  | nil =>
      exact .nil
  | cons m rest ih =>
      exact .cons m ih

theorem merges_foldr_onto (front back : List Piece) :
    Merges (front.filterMap Piece.mark? ++ back.filterMap Piece.mark?)
      ((front.foldr Piece.onto back).filterMap Piece.mark?) := by
  induction front with
  | nil =>
      exact .refl _
  | cons piece rest ih =>
      cases piece with
      | tag t source =>
          have honto : Piece.onto (.tag t source) (rest.foldr Piece.onto back) =
              .tag t source :: rest.foldr Piece.onto back := rfl
          rw [List.foldr_cons, honto, List.filterMap_cons, List.filterMap_cons]
          cases Piece.mark? (.tag t source) with
          | none =>
              exact ih
          | some m =>
              exact .cons m ih
      | text chars =>
          rw [List.foldr_cons]
          generalize rest.foldr Piece.onto back = joined at ih ⊢
          cases joined with
          | nil =>
              exact .cons _ ih
          | cons next more =>
              cases next with
              | text following =>
                  exact .text chars ih
              | tag t source =>
                  exact .cons _ ih

theorem renderMarks_text (context : Context) (sections : List (Gate × String))
    (chars : List Char) (rest : List Mark) :
    renderMarks context sections (.text chars :: rest) =
      (if allOpen context sections then Phrase.ofChars chars else []) ++
        renderMarks context sections rest :=
  rfl

section Merges

variable {ms merged : List Mark} (h : Merges ms merged)

include h

theorem Merges.fieldNames_eq :
    merged.filterMap Mark.fieldName? = ms.filterMap Mark.fieldName? := by
  induction h with
  | nil =>
      rfl
  | cons m _ ih =>
      rw [List.filterMap_cons, List.filterMap_cons, ih]
  | text chars _ ih =>
      exact ih

theorem Merges.balanced_iff : Balanced merged <-> Balanced ms := by
  have hfilter : merged.filter (!·.isLeaf) = ms.filter (!·.isLeaf) := by
    induction h with
    | nil =>
        rfl
    | cons m _ ih =>
        rw [List.filter_cons, List.filter_cons, ih]
    | text chars _ ih =>
        exact ih
  rw [← balanced_filter_iff, hfilter, balanced_filter_iff]

theorem Merges.renderMarks_eq (context : Context) (sections : List (Gate × String)) :
    renderMarks context sections merged = renderMarks context sections ms := by
  induction h generalizing sections with
  | nil =>
      rfl
  | cons m _ ih =>
      rw [renderMarks, renderMarks, ih]
  | @text chars more ms merged _ ih =>
      rw [renderMarks_text, renderMarks_text, ← ih sections, renderMarks_text, ← List.append_assoc]
      cases allOpen context sections with
      | false =>
          rfl
      | true =>
          exact congrArg (· ++ renderMarks context sections merged) List.map_append

end Merges

/-!
# Joined sources
-/

theorem merges_marks_append {a b : String} (h : Follows b.toList a.toList) :
    Merges (marks a ++ marks b) (marks (a ++ b)) := by
  rw [marks, marks, marks, String.toList_append, scan_append h]
  exact merges_foldr_onto (scan a.toList) (scan b.toList)

theorem render_eq_renderMarks {source : String} {tree : List Node} (h : parse source = .ok tree)
    (context : Context) : render source context = .ok (renderMarks context [] (marks source)) := by
  rw [render, h, ← flattenNodes_of_parse_eq_ok h, ← flatRender_eq_renderMarks,
    ← renderNodes_eq_flatRender]

theorem renderMarks_marks_append {source : String} {tree : List Node}
    (h : parse source = .ok tree) (context : Context) (rest : List Mark) :
    renderMarks context [] (marks source ++ rest) =
      renderMarks context [] (marks source) ++ renderMarks context [] rest := by
  have hwhole := renderMarks_flattenNodes context tree [] rest
  have hsource := renderMarks_flattenNodes context tree [] []
  rw [List.append_nil, renderMarks, List.append_nil] at hsource
  rw [← flattenNodes_of_parse_eq_ok h, hwhole, hsource]

/-- Two sources with trees can be joined if the first one leaves no opening braces behind its last
tag and the second one starts with no brace.  The rendering of the whole is that of its parts one
after the other, and of its names those of the first come first. -/
theorem render_append {a b : String} {front back : List Node} (ha : parse a = .ok front)
    (hb : parse b = .ok back) (h : Follows b.toList a.toList) :
    (exists tree, parse (a ++ b) = .ok tree) ∧
      (forall context, exists p q, render a context = .ok p ∧ render b context = .ok q ∧
        render (a ++ b) context = .ok (p ++ q)) ∧
      fieldNames (a ++ b) =
        fieldNames a ++ (fieldNames b).filter fun name => name ∉ fieldNames a := by
  have hmerges := merges_marks_append h
  have htree : exists tree, parse (a ++ b) = .ok tree := by
    rw [exists_parse_iff_balanced, hmerges.balanced_iff]
    exact ((exists_parse_iff_balanced a).mp ⟨front, ha⟩).append
      ((exists_parse_iff_balanced b).mp ⟨back, hb⟩)
  refine ⟨htree, ?_, ?_⟩
  · intro context
    rcases htree with ⟨tree, htree⟩
    refine ⟨_, _, render_eq_renderMarks ha context, render_eq_renderMarks hb context, ?_⟩
    rw [render_eq_renderMarks htree, hmerges.renderMarks_eq, renderMarks_marks_append ha]
  · rw [fieldNames_eq_distinct, fieldNames_eq_distinct, fieldNames_eq_distinct,
      hmerges.fieldNames_eq, List.filterMap_append, distinct_append]

/-- A section, a tag whose name starts with a brace, and a brace that opens nothing. -/
def frontSource : String :=
  "\x7b\x7b#x\x7d\x7d1\x7b\x7b/x\x7d\x7d\x7b\x7b\x7bx\x7d\x7dt\x7b"

def backSource : String :=
  "u\x7b\x7b\x7by\x7d\x7d\x7d\x7b\x7bx\x7d\x7d"

theorem render_append_of_open_brace :
    behindTags (scan frontSource.toList) = ['t', '{'] ∧
      Follows backSource.toList frontSource.toList ∧
      (exists tree, parse (frontSource ++ backSource) = .ok tree) ∧
      render (frontSource ++ backSource) ⟨fun name => some (.ofText name), fun _ => true⟩ =
        .ok (.ofText "1\x7bxt\x7b" ++ .ofText "uyx") ∧
      fieldNames (frontSource ++ backSource) = ["x", "\x7bx", "y"] := by
  have hfront : parse frontSource =
      .ok [.block .found "x" [.text ['1']], .var "\x7bx", .text ['t', '{']] :=
    parse_eq_ok_of_flattenNodes (by decide +kernel)
  have hback : parse backSource = .ok [.text ['u'], .raw "y", .var "x"] :=
    parse_eq_ok_of_flattenNodes (by decide +kernel)
  have hbehind : behindTags (scan frontSource.toList) = ['t', '{'] := by
    decide +kernel
  have hfollows : Follows backSource.toList frontSource.toList := by
    refine ⟨?_, ?_⟩
    · rw [hbehind]
      decide
    · have hhead : backSource.toList.head? = some 'u' := by decide +kernel
      intro c hc
      rw [hhead] at hc
      rw [← Option.some.inj hc]
      decide
  rcases render_append hfront hback hfollows with ⟨htree, hrender, hnames⟩
  refine ⟨hbehind, hfollows, htree, ?_, ?_⟩
  · rcases hrender ⟨fun name => some (.ofText name), fun _ => true⟩ with ⟨p, q, hp, hq, hwhole⟩
    rw [render, hfront] at hp
    rw [render, hback] at hq
    rw [hwhole, ← Except.ok.inj hp, ← Except.ok.inj hq]
    decide +kernel
  · rw [hnames]
    decide +kernel

end Template
end Palette
