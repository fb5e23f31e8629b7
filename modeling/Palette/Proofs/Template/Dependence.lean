import Mathlib.Data.Set.Defs
import Palette.Proofs.Scheme.Colors
import Palette.Proofs.Template.Rendering
import Palette.Scheme.Basic

/-!
# What a rendering depends on

The names of a source are those of its marks.  A run over the marks asks a context for these
names only, also where a section is not shown, so contexts that agree on them give the same
rendering.
-/

namespace Palette
namespace Template

/-!
# Names of marks
-/

/-- The name that a mark looks up, if it does. -/
def Mark.fieldName? : Mark → Option String
  | text _ => none
  | var name => some name
  | raw name => some name
  | opening _ name => some name
  | closing _ => none

theorem Piece.fieldName?_eq (piece : Piece) :
    piece.fieldName? = piece.mark?.bind Mark.fieldName? := by
  cases piece with
  | text chars =>
      rfl
  | tag t source =>
      cases t with
      | mk form name =>
          cases form <;> rfl

theorem distinct_concat (names : List String) (name : String) :
    distinct (names ++ [name]) =
      if name ∈ distinct names then distinct names else distinct names ++ [name] := by
  rw [distinct, List.foldl_concat, ← distinct]
  simp only [List.contains_iff_mem]

theorem mem_distinct_iff {names : List String} {name : String} :
    name ∈ distinct names <-> name ∈ names := by
  induction names using List.reverseRecOn with
  | nil =>
      rfl
  | append_singleton front last ih =>
      rw [distinct_concat, List.mem_append, List.mem_singleton, ← ih]
      split
      case isTrue hlast =>
        constructor
        · exact Or.inl
        · rintro (hfront | rfl)
          · exact hfront
          · exact hlast
      case isFalse =>
        rw [List.mem_append, List.mem_singleton]

theorem fieldNames_eq_distinct (source : String) :
    fieldNames source = distinct ((marks source).filterMap Mark.fieldName?) := by
  rw [fieldNames, marks, List.filterMap_filterMap]
  simp only [Piece.fieldName?_eq]

theorem mem_fieldNames_iff {source name : String} :
    name ∈ fieldNames source <-> name ∈ (marks source).filterMap Mark.fieldName? := by
  rw [fieldNames_eq_distinct, mem_distinct_iff]

/-!
# Contexts that agree
-/

/-- Whether two contexts give a name the same text and show the same sections for it. -/
structure Context.AgreesOn (c d : Context) (name : String) : Prop where
  text : c.renderField name = d.renderField name
  gate : c.fieldTruthy name = d.fieldTruthy name

variable {c d : Context}

theorem Context.AgreesOn.opens {name : String} (h : c.AgreesOn d name) (gate : Gate) :
    c.opens gate name = d.opens gate name := by
  cases gate with
  | found =>
      exact h.gate
  | missing =>
      exact congrArg not h.gate

theorem Mark.value_congr {m : Mark}
    (h : forall name, m.fieldName? = some name -> c.AgreesOn d name) : m.value c = m.value d := by
  cases m with
  | var name =>
      rw [value, value, (h name rfl).text]
  | raw name =>
      rw [value, value, (h name rfl).text]
  | _ =>
      rfl

theorem allOpen_congr {sections : List (Gate × String)}
    (h : forall entry, entry ∈ sections -> c.AgreesOn d entry.2) :
    allOpen c sections = allOpen d sections := by
  induction sections with
  | nil =>
      rfl
  | cons entry rest ih =>
      rw [List.forall_mem_cons] at h
      have hgate := h.left.opens entry.1
      have hrest := ih h.right
      rw [allOpen] at hrest ⊢
      rw [List.all_cons, hrest]
      exact congrArg (· && allOpen d rest) hgate

theorem Mark.mem_track {m : Mark} {sections : List (Gate × String)} {entry : Gate × String}
    (h : entry ∈ m.track sections) : m.fieldName? = some entry.2 ∨ entry ∈ sections := by
  cases m with
  | opening gate name =>
      rcases List.mem_cons.mp h with rfl | hmem
      · exact Or.inl rfl
      · exact Or.inr hmem
  | closing name =>
      exact Or.inr (List.mem_of_mem_tail h)
  | _ =>
      exact Or.inr h

theorem renderMarks_congr {ms : List Mark} {sections : List (Gate × String)}
    (hmarks : forall name, name ∈ ms.filterMap Mark.fieldName? -> c.AgreesOn d name)
    (hsections : forall entry, entry ∈ sections -> c.AgreesOn d entry.2) :
    renderMarks c sections ms = renderMarks d sections ms := by
  induction ms generalizing sections with
  | nil =>
      rfl
  | cons m rest ih =>
      have hfirst : forall name, m.fieldName? = some name -> c.AgreesOn d name := by
        intro name hname
        exact hmarks name (List.mem_filterMap.mpr ⟨m, List.mem_cons_self, hname⟩)
      have hrest : forall name, name ∈ rest.filterMap Mark.fieldName? -> c.AgreesOn d name := by
        intro name hname
        rcases List.mem_filterMap.mp hname with ⟨n, hn, hsome⟩
        exact hmarks name (List.mem_filterMap.mpr ⟨n, List.mem_cons_of_mem m hn, hsome⟩)
      have htracked : forall entry, entry ∈ m.track sections -> c.AgreesOn d entry.2 := by
        intro entry hentry
        rcases Mark.mem_track hentry with hname | hmem
        · exact hfirst entry.2 hname
        · exact hsections entry hmem
      rw [renderMarks, renderMarks, allOpen_congr hsections, Mark.value_congr hfirst,
        ih hrest htracked]

theorem render_congr {source : String} {tree : List Node} (h : parse source = .ok tree)
    (hagree : forall name, name ∈ fieldNames source -> c.AgreesOn d name) :
    exists text, render source c = .ok text ∧ render source d = .ok text := by
  have hmarks := flattenNodes_of_parse_eq_ok h
  refine ⟨renderNodes d tree, ?_, ?_⟩
  · have hsame : renderNodes c tree = renderNodes d tree := by
      rw [renderNodes_eq_flatRender, renderNodes_eq_flatRender, flatRender_eq_renderMarks,
        flatRender_eq_renderMarks, hmarks]
      exact renderMarks_congr (fun name hname => hagree name (mem_fieldNames_iff.mpr hname)) nofun
    rw [render, h, ← hsame]
  · rw [render, h]

/-!
# Schemes that differ in some colours
-/

/-- Schemes that have everything in common but the colours of some indices. -/
structure DifferAt (indices : Set Index) (s t : Scheme) : Prop where
  name : s.name = t.name
  author : s.author = t.author
  slug : s.slug = t.slug
  colors : forall i, i ∉ indices -> s.colors.get? i = t.colors.get? i

variable (ν : Type) [Scalar ν]

def Context.ofScheme (s : Scheme) : Context :=
  ⟨s.renderField ν, s.fieldTruthy⟩

theorem DifferAt.agreesOn {indices : Set Index} {s t : Scheme} (h : DifferAt indices s t)
    {name : String}
    (hname : forall field, Field.ofText name = .color field -> field.index ∉ indices) :
    (Context.ofScheme ν s).AgreesOn (Context.ofScheme ν t) name := by
  have hcolor : forall field, Field.ofText name = .color field ->
      s.color? field = t.color? field := by
    intro field hfield
    rw [Scheme.color?, Scheme.color?, h.colors field.index (hname field hfield)]
  constructor
  · show s.renderField ν name = t.renderField ν name
    rw [Scheme.renderField, Scheme.renderField, h.name, h.author, h.slug]
    cases hfield : Field.ofText name with
    | color field =>
        simp only [hcolor field hfield]
    | _ =>
        rfl
  · show s.fieldTruthy name = t.fieldTruthy name
    rw [Scheme.fieldTruthy, Scheme.fieldTruthy]
    cases hfield : Field.ofText name with
    | color field =>
        simp only [hcolor field hfield]
    | _ =>
        rfl

/-- A rendering depends on the names of the source only: contexts that agree on them give the
same one, and so do schemes whose differences lie at indices that no name refers to. -/
theorem rendering_depends_on_names {source : String} {tree : List Node}
    (h : parse source = .ok tree) :
    (forall c d : Context, (forall name, name ∈ fieldNames source -> c.AgreesOn d name) ->
      exists text, render source c = .ok text ∧ render source d = .ok text) ∧
    (forall (indices : Set Index) (s t : Scheme), DifferAt indices s t ->
      (forall name field, name ∈ fieldNames source -> Field.ofText name = .color field ->
        field.index ∉ indices) ->
      exists text, render source (.ofScheme ν s) = .ok text ∧
        render source (.ofScheme ν t) = .ok text) := by
  constructor
  · intro c d hagree
    exact render_congr h hagree
  · intro indices s t hdiffer hnames
    apply render_congr h
    intro name hname
    exact hdiffer.agreesOn ν fun field => hnames name field hname

def guardedSource : String :=
  "\x7b\x7b#base10-hex\x7d\x7d\x7b\x7bbase00-hex\x7d\x7d\x7b\x7b/base10-hex\x7d\x7d" ++
    "\x7b\x7bscheme\x7d\x7d"

theorem rendering_depends_on_names_of_guarded :
    exists (c : Context) (s t : Scheme) (text : Phrase),
      fieldNames guardedSource = ["base10-hex", "base00-hex", "scheme"] ∧
      s.colors.get? ⟨8⟩ = none ∧ t.colors.get? ⟨8⟩ = some ⟨1, 2, 3⟩ ∧ DifferAt {⟨8⟩} s t ∧
      c.fieldTruthy "base08-hex" = true ∧ s.fieldTruthy "base08-hex" = false ∧
      render guardedSource (.ofScheme Float s) = .ok text ∧
      render guardedSource (.ofScheme Float t) = .ok text ∧
      render guardedSource c = .ok text := by
  have hparse : parse guardedSource =
      .ok [.block .found "base10-hex" [.var "base00-hex"], .var "scheme"] :=
    parse_eq_ok_of_flattenNodes (by decide +kernel)
  have hnames : fieldNames guardedSource = ["base10-hex", "base00-hex", "scheme"] := by
    decide +kernel
  let s : Scheme := ⟨.ofText "x", [], Colors.empty.insert ⟨0⟩ ⟨4, 5, 6⟩, []⟩
  let t : Scheme := { s with colors := s.colors.insert ⟨8⟩ ⟨1, 2, 3⟩ }
  let c : Context := ⟨s.renderField Float, fun name => name == "base08-hex" || s.fieldTruthy name⟩
  have hdiffer : DifferAt {⟨8⟩} s t := by
    refine ⟨rfl, rfl, rfl, ?_⟩
    intro i hi
    have hne : ¬(⟨8⟩ : Index) = i := fun heq => hi heq.symm
    exact ((s.colors.get?_insert ⟨8⟩ i ⟨1, 2, 3⟩).trans (if_neg hne)).symm
  have hunnamed : forall name field, name ∈ fieldNames guardedSource ->
      Field.ofText name = .color field -> field.index ∉ ({⟨8⟩} : Set Index) := by
    have hall : (fieldNames guardedSource).all (fun name =>
        ((Field.ofText name).color?.map ColorField.index) != some ⟨8⟩) = true := by
      rw [hnames]
      decide +kernel
    intro name field hname hfield hindex
    have hne := List.all_eq_true.mp hall name hname
    rw [hfield] at hne
    exact bne_iff_ne.mp hne (congrArg some hindex)
  have hagree : forall name, name ∈ fieldNames guardedSource ->
      c.AgreesOn (.ofScheme Float s) name := by
    intro name hname
    refine ⟨rfl, ?_⟩
    have hall : (fieldNames guardedSource).all (· != "base08-hex") = true := by
      rw [hnames]
      decide +kernel
    have hne := bne_iff_ne.mp (List.all_eq_true.mp hall name hname)
    show (name == "base08-hex" || s.fieldTruthy name) = s.fieldTruthy name
    rw [beq_eq_false_iff_ne.mpr hne, Bool.false_or]
  rcases rendering_depends_on_names Float hparse with ⟨hcontexts, hschemes⟩
  rcases hschemes _ s t hdiffer hunnamed with ⟨text, hs, ht⟩
  rcases hcontexts c (.ofScheme Float s) hagree with ⟨other, hc, hother⟩
  rw [hs] at hother
  injection hother with hother
  rw [← hother] at hc
  exact ⟨c, s, t, text, hnames, rfl, rfl, hdiffer, rfl, by decide +kernel, hs, ht, hc⟩

end Template
end Palette
