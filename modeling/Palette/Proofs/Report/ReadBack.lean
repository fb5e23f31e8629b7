import Palette.Proofs.Entries
import Palette.Proofs.Json.Distinct
import Palette.Proofs.Scheme.RoundTrip
import Palette.Report.Json

/-!
# Reports that are read back

The text of a report in JSON says all that the report says: the members of the scheme, its colours
with their data, the fields with their values and the files stand in it in their order.  Sections
that are left out are empty.
-/

namespace Palette
namespace Report

open Phrase (ofText)

/-!
# Reading a report
-/

def textOf? : Json ν → Option Phrase
  | .text p => some p
  | _ => none

def nameOf? : Json ν → Option String
  | .text p => p.text?
  | _ => none

def colorOf? : Json ν → Option (Index × List (String × Json ν))
  | .object (("index", .text p) :: data) =>
      match (Index.parsePhrase p : Except (CodeFault ν) Index) with
      | .ok i => some (i, data)
      | .error _ => none
  | _ => none

def fieldOf? : String × Json ν → Option (String × Option Phrase)
  | (name, .text p) => some (name, some p)
  | (name, .null) => some (name, none)
  | _ => none

def colorsOf? : Json ν → Option (List (Index × List (String × Json ν)))
  | .array items => items.mapM colorOf?
  | _ => none

def fieldsOf? : Json ν → Option (List (String × Option Phrase))
  | .object members => members.mapM fieldOf?
  | _ => none

def filesOf? : Json ν → Option (List String)
  | .array items => items.mapM nameOf?
  | _ => none

/-- What a member of an object says, or a value for it if it is left out. -/
def optional (v : Json ν) (key : String) (absent : α) (read : Json ν → Option α) : Option α :=
  match v.get? key with
  | none => some absent
  | some value => read value

/-- The report that a value says. -/
def ofJson? (v : Json ν) : Option (Report ν) := do
  let name ← (v.get? "scheme").bind textOf?
  let author ← (v.get? "author").bind textOf?
  let slug ← (v.get? "slug").bind textOf?
  let path ← optional v "path" "" nameOf?
  let colors ← (v.get? "colors").bind colorsOf?
  let fields ← optional v "fields" [] fieldsOf?
  let files ← optional v "files" [] filesOf?
  some ⟨path, name, author, slug, colors, fields, files⟩

/-- The data of each colour have keys of their own, and none is that of its index. -/
def HasFreeKeys (r : Report ν) : Prop :=
  forall c, c ∈ r.colors -> (("index" :: c.2.map Prod.fst)).Nodup

section Read

variable {ν : Type}

theorem mapM_map_some {f : α → β} {g : β → Option α} {items : List α}
    (h : forall x, x ∈ items -> g (f x) = some x) : (items.map f).mapM g = some items := by
  induction items with
  | nil =>
      rfl
  | cons x rest ih =>
      rw [List.map_cons, List.mapM_cons, h x List.mem_cons_self,
        ih fun y hy => h y (List.mem_cons_of_mem x hy)]
      rfl

theorem nameOf?_textJson (s : String) : nameOf? (textJson s : Json ν) = some s := by
  show (ofText s).text? = some s
  rw [Phrase.text?, ofText, Phrase.chars?_ofChars]
  exact congrArg some String.ofList_toList

theorem colorJson_eq {i : Index} {data : List (String × Json ν)}
    (h : ("index" :: data.map Prod.fst).Nodup) :
    colorJson i data = .object (("index", textJson i.text) :: data) := by
  have hkeep : Entries.ofList (("index", textJson i.text) :: data) =
      ("index", textJson i.text) :: data := Entries.ofList_of_nodup h
  rw [colorJson]
  exact congrArg Json.object hkeep

theorem parsePhrase_text (i : Index) :
    (Index.parsePhrase (ofText i.text) : Except (CodeFault ν) Index) = .ok i := by
  rw [ofText, Index.text, String.toList_ofList]
  exact Index.parse_chars i

theorem colorOf?_colorJson {c : Index × List (String × Json ν)}
    (h : ("index" :: c.2.map Prod.fst).Nodup) : colorOf? (colorJson c.1 c.2) = some c := by
  rw [colorJson_eq h, textJson, colorOf?, parsePhrase_text]

theorem fieldOf?_fieldJson (f : String × Option Phrase) :
    fieldOf? (fieldJson f.1 f.2 : String × Json ν) = some f := by
  rcases f with ⟨name, value⟩
  cases value with
  | none =>
      rfl
  | some p =>
      rfl

/-!
# Members
-/

theorem get?_scheme (r : Report ν) : r.toJson.get? "scheme" = some (.text r.schemeName) :=
  rfl

theorem get?_author (r : Report ν) : r.toJson.get? "author" = some (.text r.schemeAuthor) :=
  rfl

theorem get?_slug (r : Report ν) : r.toJson.get? "slug" = some (.text r.schemeSlug) :=
  rfl

theorem get?_path (r : Report ν) :
    r.toJson.get? "path" = if r.schemePath = "" then none else some (textJson r.schemePath) := by
  rw [toJson]
  split <;> split <;> split <;> rfl

theorem get?_colors (r : Report ν) :
    r.toJson.get? "colors" = some (.array (r.colors.map fun c => colorJson c.1 c.2)) := by
  rw [toJson]
  split <;> rfl

theorem get?_fields (r : Report ν) :
    r.toJson.get? "fields" = if r.fields.isEmpty then none
      else some (.object (r.fields.map fun f => fieldJson f.1 f.2)) := by
  rw [toJson]
  split <;> split <;> split <;> rfl

theorem get?_summary (r : Report ν) :
    r.toJson.get? "summary" = if r.fields.isEmpty then none else some r.summaryJson := by
  rw [toJson]
  split <;> split <;> split <;> rfl

theorem get?_files (r : Report ν) :
    r.toJson.get? "files" = if r.files.isEmpty then none
      else some (.array (r.files.map textJson)) := by
  rw [toJson]
  split <;> split <;> split <;> rfl

theorem ofJson?_toJson {r : Report ν} (h : r.HasFreeKeys) : ofJson? r.toJson = some r := by
  have hpath : optional r.toJson "path" "" nameOf? = some r.schemePath := by
    rw [optional, get?_path]
    by_cases hempty : r.schemePath = ""
    · rw [if_pos hempty, hempty]
    · rw [if_neg hempty]
      exact nameOf?_textJson r.schemePath
  have hcolors : (r.toJson.get? "colors").bind colorsOf? = some r.colors := by
    rw [get?_colors]
    exact mapM_map_some fun c hc => colorOf?_colorJson (h c hc)
  have hfields : optional r.toJson "fields" [] fieldsOf? = some r.fields := by
    rw [optional, get?_fields]
    cases hempty : r.fields.isEmpty with
    | true =>
        rw [if_pos rfl, List.isEmpty_iff.mp hempty]
    | false =>
        exact mapM_map_some fun f _ => fieldOf?_fieldJson f
  have hfiles : optional r.toJson "files" [] filesOf? = some r.files := by
    rw [optional, get?_files]
    cases hempty : r.files.isEmpty with
    | true =>
        rw [if_pos rfl, List.isEmpty_iff.mp hempty]
    | false =>
        exact mapM_map_some fun path _ => nameOf?_textJson path
  rw [ofJson?, get?_scheme, get?_author, get?_slug, hpath, hcolors, hfields, hfiles]
  rfl

end Read

/-!
# Changed reports
-/

/-- A change of values that goes through them and keeps what is no text of the document. -/
structure IsThrough (change : Json ν → Json μ) (onText : Phrase → Phrase) : Prop where
  null : change .null = .null
  int : forall i, change (.int i) = .int i
  text : forall p, change (.text p) = .text (onText p)
  array : forall items, change (.array items) = .array (items.map change)
  object : forall members,
    change (.object members) = .object (members.map fun m => (m.1, change m.2))
  ofText : forall s, onText (ofText s) = ofText s

theorem isThrough_joined : IsThrough (Json.joined : Json ν → Json ν) Phrase.joined where
  null := rfl
  int _ := rfl
  text _ := rfl
  array items := congrArg Json.array (Json.joinedItems_eq_map items)
  object members := congrArg Json.object (Json.joinedMembers_eq_map members)
  ofText := Phrase.joined_ofText

theorem isThrough_mapReal (f : ν → μ) : IsThrough (Json.mapReal f) id where
  null := rfl
  int _ := rfl
  text _ := rfl
  array items := congrArg Json.array (Json.mapItems_eq_map f items)
  object members := congrArg Json.object (Json.mapMembers_eq_map f members)
  ofText _ := rfl

def changed (change : Json ν → Json μ) (onText : Phrase → Phrase) (r : Report ν) : Report μ where
  schemePath := r.schemePath
  schemeName := onText r.schemeName
  schemeAuthor := onText r.schemeAuthor
  schemeSlug := onText r.schemeSlug
  colors := r.colors.map fun c => (c.1, c.2.map fun m => (m.1, change m.2))
  fields := r.fields.map fun f => (f.1, f.2.map onText)
  files := r.files

/-- A report with the pairs of surrogates in its texts joined. -/
def joined (r : Report ν) : Report ν :=
  r.changed Json.joined Phrase.joined

def mapReal (f : ν → μ) (r : Report ν) : Report μ :=
  r.changed (Json.mapReal f) id

theorem HasFreeKeys.changed {r : Report ν} (h : r.HasFreeKeys) (change : Json ν → Json μ)
    (onText : Phrase → Phrase) : (r.changed change onText).HasFreeKeys := by
  intro c hc
  rcases List.mem_map.mp hc with ⟨d, hd, rfl⟩
  rw [List.map_map]
  exact h d hd

section Changed

variable {change : Json ν → Json μ} {onText : Phrase → Phrase} (hchange : IsThrough change onText)

theorem missingFields_changed (change : Json ν → Json μ) (onText : Phrase → Phrase)
    (r : Report ν) : (r.changed change onText).missingFields = r.missingFields := by
  have hmissing : (fun f : String × Option Phrase => f.2.isNone) ∘
      (fun f : String × Option Phrase => (f.1, f.2.map onText)) = fun f => f.2.isNone := by
    funext f
    exact Option.isNone_map
  rw [missingFields, missingFields, Report.changed, List.filter_map, hmissing, List.map_map]
  rfl

theorem foundCount_changed (change : Json ν → Json μ) (onText : Phrase → Phrase)
    (r : Report ν) : (r.changed change onText).foundCount = r.foundCount := by
  rw [foundCount, foundCount, missingFields_changed]
  exact congrArg (· - r.missingFields.length) (List.length_map _)

include hchange

theorem change_textJson (s : String) : change (textJson s) = textJson s := by
  rw [textJson, hchange.text, hchange.ofText]
  rfl

theorem change_textsJson (names : List String) :
    change (.array (names.map textJson)) = .array (names.map textJson) := by
  have hname : forall name, name ∈ names -> (change ∘ textJson) name = textJson name :=
    fun name _ => change_textJson hchange name
  rw [hchange.array, List.map_map, List.map_congr_left hname]

theorem change_fieldJson (f : String × Option Phrase) :
    (f.1, change (fieldJson f.1 f.2).2) = fieldJson f.1 (f.2.map onText) := by
  rcases f with ⟨name, value⟩
  cases value with
  | none =>
      exact congrArg (Prod.mk name) hchange.null
  | some p =>
      exact congrArg (Prod.mk name) (hchange.text p)

theorem change_colorJson {c : Index × List (String × Json ν)}
    (h : ("index" :: c.2.map Prod.fst).Nodup) :
    change (colorJson c.1 c.2) = colorJson c.1 (c.2.map fun m => (m.1, change m.2)) := by
  have hkeys : ("index" :: (c.2.map fun m => (m.1, change m.2)).map Prod.fst).Nodup := by
    rw [List.map_map]
    exact h
  rw [colorJson_eq h, colorJson_eq hkeys, hchange.object, List.map_cons,
    change_textJson hchange]

theorem change_summaryJson (r : Report ν) :
    change r.summaryJson = (r.changed change onText).summaryJson := by
  have hlength : (r.changed change onText).fields.length = r.fields.length := List.length_map _
  rw [summaryJson, summaryJson, hlength, foundCount_changed, missingFields_changed,
    hchange.object, List.map_cons, List.map_cons, List.map_cons, hchange.int, hchange.int,
    change_textsJson hchange]
  rfl

theorem toJson_changed {r : Report ν} (h : r.HasFreeKeys) :
    (r.changed change onText).toJson = change r.toJson := by
  have hcolors : change (.array (r.colors.map fun c => colorJson c.1 c.2)) =
      .array ((r.changed change onText).colors.map fun c => colorJson c.1 c.2) := by
    rw [hchange.array, Report.changed, List.map_map, List.map_map]
    exact congrArg Json.array (List.map_congr_left fun c hc => change_colorJson hchange (h c hc))
  have hfields : change (.object (r.fields.map fun f => fieldJson f.1 f.2)) =
      .object ((r.changed change onText).fields.map fun f => fieldJson f.1 f.2) := by
    rw [hchange.object, Report.changed, List.map_map, List.map_map]
    exact congrArg Json.object (List.map_congr_left fun f _ => change_fieldJson hchange f)
  have hempty : (r.changed change onText).fields.isEmpty = r.fields.isEmpty := List.isEmpty_map
  have hfiles := change_textsJson hchange r.files
  rw [toJson, toJson, hchange.object, ← hcolors, ← hfields, ← change_summaryJson hchange, hempty]
  simp only [List.map_append, apply_ite (List.map _), List.map_cons, List.map_nil, hchange.text,
    change_textJson hchange, hfiles]
  rfl

end Changed

/-!
# Parts of reports
-/

def HasReals (isReal : ν → Prop) (r : Report ν) : Prop :=
  forall c, c ∈ r.colors -> forall m, m ∈ c.2 -> m.2.HasReals isReal

structure IsUnpaired (r : Report ν) : Prop where
  name : r.schemeName.IsUnpaired
  author : r.schemeAuthor.IsUnpaired
  slug : r.schemeSlug.IsUnpaired
  colors : forall c, c ∈ r.colors -> forall m, m ∈ c.2 -> m.2.IsUnpaired
  fields : forall f, f ∈ r.fields -> forall p, f.2 = some p -> p.IsUnpaired

section Parts

variable {ν : Type} {isReal : ν → Prop}

theorem hasReals_textsJson (names : List String) :
    (Json.array (names.map textJson)).HasReals isReal := by
  refine .array fun v hv => ?_
  rcases List.mem_map.mp hv with ⟨name, _, rfl⟩
  exact .text trivial

theorem hasReals_colorJson {i : Index} {data : List (String × Json ν)}
    (h : forall m, m ∈ data -> m.2.HasReals isReal) : (colorJson i data).HasReals isReal := by
  refine .object fun m hm => ?_
  rcases Entries.mem_putAll hm with hdata | hindex
  · exact h m hdata
  · rw [List.mem_singleton.mp hindex]
    exact .text trivial

theorem hasReals_fieldJson (name : String) (value : Option Phrase) :
    (fieldJson name value : String × Json ν).2.HasReals isReal := by
  cases value with
  | none =>
      exact .null
  | some p =>
      exact .text trivial

theorem hasReals_summaryJson (r : Report ν) : r.summaryJson.HasReals isReal := by
  refine .object ?_
  simp only [List.forall_mem_cons]
  exact ⟨.int _, .int _, hasReals_textsJson _, nofun⟩

theorem HasReals.toJson {r : Report ν} (h : r.HasReals isReal) : r.toJson.HasReals isReal := by
  have hcolors : (Json.array (r.colors.map fun c => colorJson c.1 c.2)).HasReals isReal := by
    refine .array fun v hv => ?_
    rcases List.mem_map.mp hv with ⟨c, hc, rfl⟩
    exact hasReals_colorJson (h c hc)
  have hfields : (Json.object (r.fields.map fun f => fieldJson f.1 f.2)).HasReals isReal := by
    refine .object fun m hm => ?_
    rcases List.mem_map.mp hm with ⟨f, _, rfl⟩
    exact hasReals_fieldJson f.1 f.2
  have hsection : forall (c : Prop) [Decidable c] (members : List (String × Json ν)),
      (forall m, m ∈ members -> m.2.HasReals isReal) ->
        forall m, m ∈ (if c then [] else members) -> m.2.HasReals isReal := by
    intro c _ members hmembers
    split
    · nofun
    · exact hmembers
  refine .object ?_
  simp only [List.forall_mem_append]
  refine ⟨⟨⟨⟨?_, hsection _ _ ?_⟩, ?_⟩, hsection _ _ ?_⟩, hsection _ _ ?_⟩
  · simp only [List.forall_mem_cons]
    exact ⟨.text trivial, .text trivial, .text trivial, nofun⟩
  · exact List.forall_mem_singleton.mpr (.text trivial)
  · exact List.forall_mem_singleton.mpr hcolors
  · simp only [List.forall_mem_cons]
    exact ⟨hfields, hasReals_summaryJson r, nofun⟩
  · exact List.forall_mem_singleton.mpr (hasReals_textsJson r.files)

theorem joined_eq_self {r : Report ν} (h : r.IsUnpaired) : r.joined = r := by
  have hcolors : forall c, c ∈ r.colors -> (c.1, c.2.map fun m => (m.1, m.2.joined)) = c := by
    intro c hc
    have hdata : forall m, m ∈ c.2 -> (m.1, m.2.joined) = m := by
      intro m hm
      rw [Json.joined_eq_self (h.colors c hc m hm)]
    rw [List.map_congr_left hdata, List.map_id']
  have hfields : forall f, f ∈ r.fields -> (f.1, f.2.map Phrase.joined) = f := by
    intro f hf
    rcases f with ⟨name, value⟩
    cases value with
    | none =>
        rfl
    | some p =>
        show (name, some p.joined) = (name, some p)
        rw [Phrase.joined_eq_self_iff.mpr (h.fields _ hf p rfl)]
  rw [joined, changed, Phrase.joined_eq_self_iff.mpr h.name,
    Phrase.joined_eq_self_iff.mpr h.author, Phrase.joined_eq_self_iff.mpr h.slug,
    List.map_congr_left hcolors, List.map_id', List.map_congr_left hfields, List.map_id']

end Parts

/-!
# What is kept
-/

section Kept

variable {ν : Type} [Scalar ν] {isReal : ν → Prop} {decimalOf : ν → Decimal}

def printedHue : Rat where
  num := 21923
  den := 100

/-- A report with surrogates that are no pair, a number that is not whole and a missing field. -/
def surrogateReport : Report Rat where
  schemePath := "s.yaml"
  schemeName := ofText "\"Rosé\""
  schemeAuthor := [.ofNat 0xDE00, .ofNat 0xD83D]
  schemeSlug := ofText "rosé"
  colors := [(⟨.ofNat 10⟩,
    [("hex", .text (ofText "93a1a1")), ("hsl", .array [.real printedHue, .int (-5)])])]
  fields := [("base0A.hex", some (ofText "93a1a1")), ("base0B.hex", none)]
  files := ["out.png"]

theorem hasReals_surrogateReport : surrogateReport.HasReals (· = printedHue) := by
  have hhsl : (Json.array [.real printedHue, .int (-5)]).HasReals (· = printedHue) := by
    refine .array ?_
    simp only [List.forall_mem_cons]
    exact ⟨.real rfl, .int (-5), nofun⟩
  intro c hc
  rw [List.mem_singleton.mp hc]
  simp only [List.forall_mem_cons]
  exact ⟨.text trivial, hhsl, nofun⟩

theorem isUnpaired_surrogateReport : surrogateReport.IsUnpaired := by
  have hcode : (ofText "93a1a1").IsUnpaired := Phrase.joined_eq_self_iff.mp rfl
  have hhsl : (Json.array [.real printedHue, .int (-5)]).IsUnpaired := by
    refine .array ?_
    simp only [List.forall_mem_cons]
    exact ⟨.real trivial, .int (-5), nofun⟩
  refine ⟨Phrase.joined_eq_self_iff.mp rfl, Phrase.joined_eq_self_iff.mp rfl,
    Phrase.joined_eq_self_iff.mp rfl, ?_, ?_⟩
  · intro c hc
    rw [List.mem_singleton.mp hc]
    simp only [List.forall_mem_cons]
    exact ⟨.text hcode, hhsl, nofun⟩
  · simp only [surrogateReport, List.forall_mem_cons]
    refine ⟨?_, ?_, nofun⟩
    · intro p hp
      rw [← Option.some.inj hp]
      exact hcode
    · nofun

end Kept

def ofName (name : Phrase) : Report Rat :=
  .start "" name [] []

end Report
end Palette
