import Palette.Proofs.CommandLine.Stages
import Palette.Proofs.Report.ReadBack

/-!
# Look-ups of fields

The command that looks up fields says what it found in four places: in its exit code, in the last
line of its text, in the summary of its JSON and in the fields of its JSON.  All are told by the
distinct names in the order in which they first came.
-/

namespace Palette

theorem Scheme.fieldTruthy_eq [Scalar ν] (s : Scheme) (name : String) :
    s.fieldTruthy name = (s.renderField ν name).isSome := by
  rw [fieldTruthy, renderField]
  cases Field.ofText name with
  | color field =>
      dsimp only
      cases s.color? field with
      | none =>
          rfl
      | some value =>
          rfl
  | schemeName =>
      rfl
  | schemeAuthor =>
      rfl
  | schemeSlug =>
      rfl
  | unparsable =>
      rfl

namespace Report

open Phrase (ofChars ofText)

section Fields

variable {ν : Type} [Scalar ν]

def foundNames (ν : Type) [Scalar ν] (s : Scheme) (names : List String) : List String :=
  names.eraseDups.filter fun name => (s.renderField ν name).isSome

def missingNames (ν : Type) [Scalar ν] (s : Scheme) (names : List String) : List String :=
  names.eraseDups.filter fun name => (s.renderField ν name).isNone

theorem lookUp_eq (s : Scheme) (names : List String) (r : Report ν) :
    r.lookUp s names =
      { r with
        fields := Entries.putAll r.fields
          (names.map fun name => (name, s.renderField ν name)) } := by
  rw [lookUp]
  induction names generalizing r with
  | nil =>
      rfl
  | cons name rest ih =>
      rw [List.foldl_cons, ih]
      rfl

theorem fields_lookUp (path : String) (s : Scheme) (names : List String) :
    ((ofScheme path s).lookUp s names : Report ν).fields =
      names.eraseDups.map fun name => (name, s.renderField ν name) := by
  have hvalue : forall e, e ∈ Entries.ofList (names.map fun name => (name, s.renderField ν name)) ->
      (e.1, s.renderField ν e.1) = e := by
    intro e he
    rcases List.mem_map.mp (Entries.mem_of_mem_ofList he) with ⟨name, _, rfl⟩
    rfl
  have hkeys := Entries.keys_ofList (names.map fun name => (name, s.renderField ν name))
  rw [List.map_map] at hkeys
  have hnames : names.map (Prod.fst ∘ fun name => (name, s.renderField ν name)) = names :=
    List.map_id names
  rw [hnames] at hkeys
  rw [lookUp_eq, ← hkeys, List.map_map]
  exact ((List.map_congr_left hvalue).trans (List.map_id' _)).symm

theorem missingFields_lookUp (path : String) (s : Scheme) (names : List String) :
    ((ofScheme path s).lookUp s names : Report ν).missingFields = missingNames ν s names := by
  rw [missingFields, fields_lookUp, List.filter_map, List.map_map]
  exact List.map_id _

theorem length_found_add_missing (s : Scheme) (names : List String) :
    (foundNames ν s names).length + (missingNames ν s names).length = names.eraseDups.length := by
  have hmissing : missingNames ν s names =
      names.eraseDups.filter fun name => !(s.renderField ν name).isSome := by
    rw [missingNames]
    exact List.filter_congr fun name _ => (Option.not_isSome _).symm
  rw [hmissing, foundNames]
  exact (List.length_eq_length_filter_add _).symm

theorem foundCount_lookUp (path : String) (s : Scheme) (names : List String) :
    ((ofScheme path s).lookUp s names : Report ν).foundCount = (foundNames ν s names).length := by
  rw [foundCount, missingFields_lookUp, fields_lookUp, List.length_map,
    ← length_found_add_missing (ν := ν), Nat.add_sub_cancel]

theorem missingNames_eq_nil_iff (s : Scheme) (names : List String) :
    missingNames ν s names = [] <-> names.all s.fieldTruthy = true := by
  have htruthy : forall name, s.fieldTruthy name = true <->
      ¬(s.renderField ν name).isNone = true := by
    intro name
    rw [s.fieldTruthy_eq (ν := ν), ← Option.not_isSome, Bool.not_eq_true', Bool.not_eq_false]
  rw [missingNames, List.filter_eq_nil_iff, List.all_eq_true]
  constructor
  · intro h name hname
    exact (htruthy name).mpr (h name (List.mem_eraseDups.mpr hname))
  · intro h name hname
    exact (htruthy name).mp (h name (List.mem_eraseDups.mp hname))

theorem lookUpCode_lookUp (path : String) (s : Scheme) (names : List String) :
    ((ofScheme path s).lookUp s names : Report ν).lookUpCode =
      if names.all s.fieldTruthy then 0 else 1 := by
  rw [lookUpCode, missingFields_lookUp]
  by_cases hall : names.all s.fieldTruthy = true
  · rw [(missingNames_eq_nil_iff s names).mpr hall, if_pos hall]
    rfl
  · have hne : (missingNames ν s names).isEmpty = false :=
      List.isEmpty_eq_false_iff.mpr fun h => hall ((missingNames_eq_nil_iff s names).mp h)
    rw [hne, if_neg hall]
    rfl

end Fields

/-!
# Texts
-/

theorem joinWith_concat (separator last : Phrase) {parts : List Phrase} (h : parts ≠ []) :
    joinWith separator (parts ++ [last]) = joinWith separator parts ++ separator ++ last := by
  induction parts with
  | nil =>
      exact absurd rfl h
  | cons part rest ih =>
      cases rest with
      | nil =>
          rfl
      | cons next rest =>
          have hrest := ih (List.cons_ne_nil next rest)
          show part ++ separator ++ joinWith separator (next :: rest ++ [last]) =
            part ++ separator ++ joinWith separator (next :: rest) ++ separator ++ last
          rw [hrest]
          simp only [List.append_assoc]

theorem ofText_append (s t : String) : ofText (s ++ t) = ofText s ++ ofText t := by
  rw [ofText, String.toList_append]
  exact List.map_append

theorem ofChars_toDigits (n : Nat) : ofChars (Nat.toDigits 10 n) = ofText (toString n) :=
  congrArg ofChars Nat.toList_repr.symm

theorem summaryLine_eq (r : Report ν) :
    r.summaryLine =
      ofText ("FOUND " ++ toString r.foundCount ++ "/" ++ toString r.fields.length ++
        " fields") := by
  rw [summaryLine, ofChars_toDigits, ofChars_toDigits, ofText_append, ofText_append, ofText_append,
    ofText_append]

theorem exists_text_summaryLine [Scalar ν] {r : Report ν} (hcolors : r.colors = [])
    (hfields : r.fields.isEmpty = false) : exists front, r.text = .ok (front ++ r.summaryLine) := by
  have hlast : exists parts, parts ≠ [] ∧ r.linesAround [] = parts ++ [r.summaryLine] := by
    rw [linesAround, hfields, if_neg Bool.false_ne_true]
    exact ⟨_, List.append_ne_nil_of_right_ne_nil _ (List.cons_ne_nil [] []),
      (List.append_assoc _ [[]] [r.summaryLine]).symm⟩
  rcases hlast with ⟨parts, hparts, hlines⟩
  refine ⟨joinWith (ofText "\n") parts ++ ofText "\n", ?_⟩
  rw [text, lines, hcolors]
  show Except.ok (joinWith (ofText "\n") (r.linesAround [])) = _
  rw [hlines, joinWith_concat _ _ hparts]

/-!
# Values
-/

section Values

variable {ν : Type} [Scalar ν]

theorem colors_lookUp (path : String) (s : Scheme) (names : List String) :
    ((ofScheme path s).lookUp s names : Report ν).colors = [] := by
  rw [lookUp_eq]
  rfl

theorem isEmpty_fields_lookUp (path : String) (s : Scheme) {names : List String}
    (h : names ≠ []) : ((ofScheme path s).lookUp s names : Report ν).fields.isEmpty = false := by
  rw [fields_lookUp, List.isEmpty_map]
  cases names with
  | nil =>
      exact absurd rfl h
  | cons name rest =>
      rw [List.eraseDups_cons]
      rfl

theorem exists_text_lookUp (path : String) (s : Scheme) {names : List String} (h : names ≠ []) :
    exists front, ((ofScheme path s).lookUp s names : Report ν).text =
      .ok (front ++ ofText ("FOUND " ++ toString (foundNames ν s names).length ++ "/" ++
        toString names.eraseDups.length ++ " fields")) := by
  rcases exists_text_summaryLine (colors_lookUp (ν := ν) path s names)
    (isEmpty_fields_lookUp path s h) with ⟨front, htext⟩
  rw [summaryLine_eq, foundCount_lookUp, fields_lookUp, List.length_map] at htext
  exact ⟨front, htext⟩

theorem get?_summary_lookUp (path : String) (s : Scheme) {names : List String} (h : names ≠ []) :
    ((ofScheme path s).lookUp s names : Report ν).toJson.get? "summary" = some (.object
      [("total", .int names.eraseDups.length), ("found", .int (foundNames ν s names).length),
       ("missing", .array ((missingNames ν s names).map textJson))]) := by
  rw [get?_summary, isEmpty_fields_lookUp path s h, if_neg Bool.false_ne_true, summaryJson,
    foundCount_lookUp, missingFields_lookUp, fields_lookUp, List.length_map]

theorem get?_fields_lookUp (path : String) (s : Scheme) {names : List String} (h : names ≠ []) :
    ((ofScheme path s).lookUp s names : Report ν).toJson.get? "fields" =
      some (.object (names.eraseDups.map fun name => fieldJson name (s.renderField ν name))) := by
  rw [get?_fields, isEmpty_fields_lookUp path s h, if_neg Bool.false_ne_true, fields_lookUp,
    List.map_map]
  rfl

theorem hasReals_lookUp {isReal : ν → Prop} (path : String) (s : Scheme) (names : List String) :
    ((ofScheme path s).lookUp s names : Report ν).HasReals isReal := by
  intro c hc
  rw [colors_lookUp] at hc
  cases hc

end Values

end Report

namespace CommandLine

open Phrase (ofText)
open Report (foundNames missingNames)

/-- The exit code, the text and the JSON of a look-up are told by the distinct names alone. -/
theorem look_ups_agree (session : Session) (path : String) (s : Scheme) (settings : Settings)
    (hfields : settings.fields ≠ []) :
    (execute session path s .field settings).2 =
        .exit (if settings.fields.all s.fieldTruthy then 0 else 1) ∧
      (settings.json = false -> exists front,
        (execute session path s .field settings).1.output = session.output ++ front ++
          ofText ("FOUND " ++ toString (foundNames Float s settings.fields).length ++ "/" ++
            toString settings.fields.eraseDups.length ++ " fields" ++ "\n")) ∧
      (settings.json = true -> exists v : Json Float,
        (execute session path s .field settings).1.output =
          session.output ++ ofText (v.print ++ "\n") ∧
        (forall decimalOf, Json.parse? v.print.toList = some (v.joined.mapReal decimalOf)) ∧
        v.get? "summary" = some (.object
          [("total", .int settings.fields.eraseDups.length),
           ("found", .int (foundNames Float s settings.fields).length),
           ("missing", .array ((missingNames Float s settings.fields).map Report.textJson))]) ∧
        v.get? "fields" = some (.object (settings.fields.eraseDups.map fun name =>
          (name, match s.renderField Float name with
            | some text => .text text
            | none => .null)))) ∧
      (foundNames Float s settings.fields).length + (missingNames Float s settings.fields).length =
        settings.fields.eraseDups.length := by
  have hcode := Report.lookUpCode_lookUp (ν := Float) path s settings.fields
  have hlength := Report.length_found_add_missing (ν := Float) s settings.fields
  have hshown := (Report.isShown_ofScheme (ν := Float) path s).lookUp s settings.fields
  rw [execute_field, hcode]
  refine ⟨finish_of_isShown hshown .field settings _, ?_, ?_, hlength⟩
  · intro hjson
    rcases Report.exists_text_lookUp (ν := Float) path s hfields with ⟨front, htext⟩
    refine ⟨front, ?_⟩
    rw [finish, if_neg (by decide), hjson, if_neg Bool.false_ne_true]
    dsimp only
    rw [htext, Report.ofText_append _ "\n"]
    show session.output ++ (front ++ _ ++ ofText "\n") = _
    rw [List.append_assoc, List.append_assoc]
  · intro hjson
    refine ⟨((Report.ofScheme path s).lookUp s settings.fields).toJson, ?_, ?_, ?_, ?_⟩
    · rw [finish, if_neg (by decide), hjson, if_pos rfl]
      rfl
    · intro decimalOf
      have hreals : ((Report.ofScheme path s).lookUp s settings.fields : Report Float).HasReals
          fun _ => False := Report.hasReals_lookUp path s settings.fields
      exact Json.parse?_print (fun _ h => h.elim) hreals.toJson
    · exact Report.get?_summary_lookUp path s hfields
    · exact Report.get?_fields_lookUp path s hfields

def lookedUpScheme : Scheme where
  name := ofText "Ocean"
  author := ofText "x"
  colors := .ofList [(⟨.ofNat 10⟩, ⟨.ofNat 0x93, .ofNat 0xA1, .ofNat 0xA1⟩)]
  slug := ofText "ocean"

/-- Names that are repeated, that no colour of the scheme has and that are none of a field. -/
def repeatedNames : List String :=
  ["base0B-hex", "scheme-slug", "sky", "base0A-hex", "sky", "base0B-hex"]

def lookUpSession : Session :=
  .start ⟨"", .empty, Workspace.root, [], .usual⟩

def lookUpSettings (json : Bool) : Settings :=
  { Settings.default with json := json, fields := repeatedNames }

theorem look_ups_agree_of_repeats :
    repeatedNames ≠ [] ∧
      (execute lookUpSession "s.yaml" lookedUpScheme .field (lookUpSettings true)).2 = .exit 1 ∧
      (exists front,
        (execute lookUpSession "s.yaml" lookedUpScheme .field (lookUpSettings false)).1.output =
          front ++ ofText "FOUND 2/4 fields\n") ∧
      exists v : Json Float,
        (execute lookUpSession "s.yaml" lookedUpScheme .field (lookUpSettings true)).1.output =
          ofText (v.print ++ "\n") ∧
        v.get? "summary" = some (.object
          [("total", .int 4), ("found", .int 2),
           ("missing", .array [Report.textJson "base0B-hex", Report.textJson "sky"])]) := by
  have hne : repeatedNames ≠ [] := nofun
  have hfound : foundNames Float lookedUpScheme repeatedNames = ["scheme-slug", "base0A-hex"] := rfl
  have hmissing : missingNames Float lookedUpScheme repeatedNames = ["base0B-hex", "sky"] := rfl
  have hdistinct : repeatedNames.eraseDups.length = 4 := rfl
  have hall : repeatedNames.all lookedUpScheme.fieldTruthy = false := rfl
  rcases look_ups_agree lookUpSession "s.yaml" lookedUpScheme (lookUpSettings true) hne with
    ⟨hcode, _, hjson, _⟩
  rcases look_ups_agree lookUpSession "s.yaml" lookedUpScheme (lookUpSettings false) hne with
    ⟨_, htext, _, _⟩
  refine ⟨hne, ?_, ?_, ?_⟩
  · rw [hcode]
    show Ending.exit (if repeatedNames.all lookedUpScheme.fieldTruthy then 0 else 1) = .exit 1
    rw [hall]
    rfl
  · rcases htext rfl with ⟨front, htext⟩
    refine ⟨front, htext.trans ?_⟩
    show [] ++ front ++ ofText ("FOUND " ++
      toString (foundNames Float lookedUpScheme repeatedNames).length ++ "/" ++
        toString repeatedNames.eraseDups.length ++ " fields" ++ "\n") = _
    rw [hfound, hdistinct]
    rfl
  · rcases hjson rfl with ⟨v, houtput, _, hsummary, _⟩
    refine ⟨v, houtput, hsummary.trans ?_⟩
    show some (Json.object
      [("total", .int repeatedNames.eraseDups.length),
       ("found", .int (foundNames Float lookedUpScheme repeatedNames).length),
       ("missing", .array ((missingNames Float lookedUpScheme repeatedNames).map
         Report.textJson))]) = _
    rw [hfound, hmissing, hdistinct]
    rfl

end CommandLine

end Palette
