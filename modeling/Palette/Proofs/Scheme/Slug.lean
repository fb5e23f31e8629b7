import Palette.Proofs.Field.Grammar
import Palette.Proofs.Scheme.Views
import Palette.Proofs.Text.Lowercase

/-!
# Slugs

A slug is made of code points that a slug keeps as they are, so that it is its own slug.  To derive
the slug of a scheme is to make it again from its name, its author and its colours: nothing that is
read from the scheme changes but the slug.
-/

namespace Palette

/-!
# Slugs of phrases
-/

theorem slugPoint_ne_nil (p : CodePoint) : slugPoint p ≠ [] := by
  cases p with
  | char c =>
      rw [slugPoint, Phrase.ofChars, ne_eq, List.map_eq_nil_iff]
      split
      · exact List.cons_ne_nil _ _
      · exact Text.lowerChar_ne_nil c
  | surrogate code =>
      exact List.cons_ne_nil _ _

theorem slugPoint_of_mem {p q : CodePoint} (h : q ∈ slugPoint p) : slugPoint q = [q] := by
  cases p with
  | char c =>
      rcases List.mem_map.mp h with ⟨d, hd, rfl⟩
      split at hd
      case isTrue =>
        rw [List.mem_singleton.mp hd]
        rfl
      case isFalse hc =>
        rcases Text.lowerChar_of_mem hd with ⟨hlower, hspace⟩
        rw [slugPoint, if_neg fun heq => hc (hspace heq), hlower]
        rfl
  | surrogate code =>
      rw [List.mem_singleton.mp h]
      rfl

theorem ne_space_of_slugPoint {p : CodePoint} (h : slugPoint p = [p]) : p ≠ .char ' ' := by
  intro hp
  rw [hp] at h
  exact absurd h (by decide)

theorem slugOf_append (n rest : Phrase) : slugOf (n ++ rest) = slugOf n ++ slugOf rest :=
  List.flatMap_append

theorem slugOf_eq_nil_iff {n : Phrase} : slugOf n = [] <-> n = [] := by
  rw [slugOf, List.flatMap_eq_nil_iff]
  constructor
  · intro h
    exact List.eq_nil_iff_forall_not_mem.mpr fun p hp => slugPoint_ne_nil p (h p hp)
  · intro h
    rw [h]
    exact fun _ hp => absurd hp List.not_mem_nil

theorem slugPoint_of_mem_slugOf {n : Phrase} {q : CodePoint} (h : q ∈ slugOf n) :
    slugPoint q = [q] := by
  rcases List.mem_flatMap.mp h with ⟨p, _, hq⟩
  exact slugPoint_of_mem hq

theorem slugOf_eq_self {n : Phrase} (h : forall p, p ∈ n -> slugPoint p = [p]) :
    slugOf n = n := by
  induction n with
  | nil =>
      rfl
  | cons p rest ih =>
      rw [List.forall_mem_cons] at h
      have hrest : slugOf rest = rest := ih h.right
      rw [slugOf, List.flatMap_cons, h.left]
      exact congrArg _ hrest

theorem slugOf_slugOf (n : Phrase) : slugOf (slugOf n) = slugOf n :=
  slugOf_eq_self fun _ hp => slugPoint_of_mem_slugOf hp

theorem space_notMem_slugOf (n : Phrase) : .char ' ' ∉ slugOf n :=
  fun h => ne_space_of_slugPoint (slugPoint_of_mem_slugOf h) rfl

/-!
# Schemes with another slug
-/

namespace Scheme

structure SameButSlug (s t : Scheme) : Prop where
  name : s.name = t.name
  author : s.author = t.author
  colors : s.colors = t.colors

section SameButSlug

variable {s t : Scheme} (h : SameButSlug s t)

include h

theorem SameButSlug.color? (field : ColorField) : s.color? field = t.color? field := by
  rw [Scheme.color?, Scheme.color?, h.colors]

theorem SameButSlug.toPairs : s.toPairs = t.toPairs := by
  rw [Scheme.toPairs, Scheme.toPairs, h.name, h.author, h.colors]

theorem SameButSlug.renderField (ν : Type) [Scalar ν] {name : String}
    (hname : name ≠ "scheme-slug") : s.renderField ν name = t.renderField ν name := by
  have hslug : Field.ofText name ≠ .schemeSlug :=
    fun hfield => hname ((Field.ofText_eq_literal_iff name).right.right.mp hfield)
  rw [Scheme.renderField, Scheme.renderField]
  cases hfield : Field.ofText name with
  | schemeName => exact congrArg some h.name
  | schemeAuthor => exact congrArg some h.author
  | schemeSlug => exact absurd hfield hslug
  | color field => simp only [h.color? field]
  | unparsable => rfl

theorem SameButSlug.fieldTruthy (name : String) : s.fieldTruthy name = t.fieldTruthy name := by
  rw [Scheme.fieldTruthy, Scheme.fieldTruthy]
  cases Field.ofText name with
  | color field => simp only [h.color? field]
  | _ => rfl

end SameButSlug

/-!
# Derived slugs
-/

theorem sameButSlug_createSlug (s : Scheme) : SameButSlug s.createSlug s :=
  ⟨rfl, rfl, rfl⟩

theorem createSlug_createSlug (s : Scheme) : s.createSlug.createSlug = s.createSlug :=
  rfl

theorem createSlug_eq_mk (s : Scheme) :
    s.createSlug = ⟨s.name, s.author, .ofList s.colors.entries, slugOf s.name⟩ := by
  rw [s.colors.ofList_entries]
  rfl

theorem renderField_slug (ν : Type) [Scalar ν] (s : Scheme) :
    s.renderField ν "scheme-slug" = some (if s.slug = [] then slugPlaceholder else s.slug) :=
  rfl

theorem renderField_slug_createSlug (ν : Type) [Scalar ν] (s : Scheme) :
    s.createSlug.renderField ν "scheme-slug" =
      some (if s.name = [] then slugPlaceholder else s.createSlug.slug) := by
  rw [renderField_slug]
  exact congrArg some (if_congr slugOf_eq_nil_iff rfl rfl)

theorem renderField_slug_eq_slug_iff (ν : Type) [Scalar ν] (s : Scheme) :
    s.createSlug.renderField ν "scheme-slug" = some s.createSlug.slug <-> s.name ≠ [] := by
  rw [renderField_slug_createSlug]
  constructor
  · intro h hname
    have hslug : s.createSlug.slug = [] := slugOf_eq_nil_iff.mpr hname
    rw [if_pos hname, hslug] at h
    exact absurd h (by decide)
  · intro hname
    rw [if_neg hname]

/-- To derive the slug of a scheme makes it again with the same name, author and colours, so that
its document, its gates and the texts of all its fields but the slug stay the same, and to derive
it once more changes nothing.  The slug of any name is its own slug, has no space, is empty for the
empty name alone, and is joined of the slugs of the parts of the name.  So a derived slug is what
its field shows, or there is the placeholder in its place exactly if the name is empty. -/
theorem createSlug_changes_only_slug (ν : Type) [Scalar ν] :
    (forall s : Scheme,
      s.createSlug = ⟨s.name, s.author, .ofList s.colors.entries, slugOf s.name⟩ ∧
      s.createSlug.name = s.name ∧ s.createSlug.author = s.author ∧
      s.createSlug.colors = s.colors ∧ s.createSlug.toPairs = s.toPairs ∧
      (forall name, name ≠ "scheme-slug" ->
        s.createSlug.renderField ν name = s.renderField ν name) ∧
      (forall name, s.createSlug.fieldTruthy name = s.fieldTruthy name) ∧
      s.createSlug.createSlug = s.createSlug ∧
      s.createSlug.renderField ν "scheme-slug" =
        some (if s.name = [] then slugPlaceholder else s.createSlug.slug) ∧
      (s.createSlug.renderField ν "scheme-slug" = some s.createSlug.slug <-> s.name ≠ [])) ∧
    forall name : Phrase,
      slugOf (slugOf name) = slugOf name ∧ .char ' ' ∉ slugOf name ∧
      (slugOf name = [] <-> name = []) ∧
      forall rest, slugOf (name ++ rest) = slugOf name ++ slugOf rest := by
  constructor
  · intro s
    have hsame := sameButSlug_createSlug s
    refine ⟨createSlug_eq_mk s, hsame.name, hsame.author, hsame.colors, hsame.toPairs, ?_, ?_,
      createSlug_createSlug s, renderField_slug_createSlug ν s, renderField_slug_eq_slug_iff ν s⟩
    · intro name hname
      exact hsame.renderField ν hname
    · intro name
      exact hsame.fieldTruthy name
  · intro name
    exact ⟨slugOf_slugOf name, space_notMem_slugOf name, slugOf_eq_nil_iff, slugOf_append name⟩

/-- A scheme with the slug of another name.  Its own name has a letter that becomes two in lower
case, and a sigma at the end of a word. -/
def renamed : Scheme where
  name := .ofText "İ ΟΣ"
  author := .ofText "x"
  colors := .ofList [(⟨.ofNat 10⟩, ⟨.ofNat 255, .ofNat 0, .ofNat 0⟩)]
  slug := .ofText "old"

theorem createSlug_changes_only_slug_of_renamed :
    "base0A-hex" ≠ "scheme-slug" ∧
      renamed.createSlug.renderField Rat "base0A-hex" = some (.ofText "ff0000") ∧
      renamed.renderField Rat "scheme-slug" = some (.ofText "old") ∧
      renamed.createSlug.renderField Rat "scheme-slug" =
        some (.ofChars ['i', Char.ofNat 0x307, '-', 'ο', 'σ']) := by
  rcases createSlug_changes_only_slug Rat with ⟨hscheme, _⟩
  rcases hscheme renamed with ⟨_, _, _, _, _, hfields, _, _, _, hslug⟩
  have hne : "base0A-hex" ≠ "scheme-slug" := by decide
  have hderived : renamed.createSlug.slug = .ofChars ['i', Char.ofNat 0x307, '-', 'ο', 'σ'] := rfl
  refine ⟨hne, ?_, rfl, ?_⟩
  · rw [hfields "base0A-hex" hne]
    rfl
  · rw [hslug.mpr (List.cons_ne_nil _ _), hderived]

end Scheme
end Palette
