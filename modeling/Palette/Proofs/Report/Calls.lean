import Palette.Proofs.Entries
import Palette.Report.Basic

/-!
# Calls that fill a report

A report is filled by calls that name colours, fields and files, one after the other and in any
order.  Each of its tables comes from the calls of its own kind alone: a place is that of the first
call, a value that of the last one.
-/

namespace Palette
namespace Report

/-!
# Calls
-/

/-- Data of a colour, in which each key has one value. -/
structure Data (ν : Type) where
  entries : List (String × Json ν)
  nodup : (entries.map Prod.fst).Nodup

def Data.keys (d : Data ν) : List String :=
  d.entries.map Prod.fst

inductive Call (ν : Type) where
  | color (index : Index) (data : Data ν)
  | field (name : String) (value : Option Phrase)
  | file (path : String)

namespace Call

def apply (r : Report ν) : Call ν → Report ν
  | color index data => r.addColor index data.entries
  | field name value => r.addField name value
  | file path => r.addFile path

def color? : Call ν → Option (Index × Data ν)
  | color index data => some (index, data)
  | field _ _ => none
  | file _ => none

def field? : Call ν → Option (String × Option Phrase)
  | color _ _ => none
  | field name value => some (name, value)
  | file _ => none

def file? : Call ν → Option String
  | color _ _ => none
  | field _ _ => none
  | file path => some path

end Call

def run (r : Report ν) (calls : List (Call ν)) : Report ν :=
  calls.foldl Call.apply r

/-!
# Tables
-/

/-- One more colour, or more data of a colour that is there. -/
def merge (colors : List (Index × List (String × Json ν))) (call : Index × Data ν) :
    List (Index × List (String × Json ν)) :=
  Entries.put colors call.1
    (Entries.putAll ((Entries.get? colors call.1).getD []) call.2.entries)

/-- The tables of a report behind calls, each from the calls of its kind. -/
structure Filled (r : Report ν) (calls : List (Call ν)) (filled : Report ν) : Prop where
  colors : filled.colors = (calls.filterMap Call.color?).foldl merge r.colors
  fields : filled.fields = Entries.putAll r.fields (calls.filterMap Call.field?)
  files : filled.files = r.files ++ calls.filterMap Call.file?

theorem filled_nil (r : Report ν) : Filled r [] r where
  colors := rfl
  fields := rfl
  files := (List.append_nil _).symm

theorem Filled.concat {r filled : Report ν} {calls : List (Call ν)} (h : Filled r calls filled)
    (call : Call ν) : Filled r (calls ++ [call]) (call.apply filled) where
  colors := by
    rw [List.filterMap_append, List.foldl_append, ← h.colors]
    cases call <;> rfl
  fields := by
    rw [List.filterMap_append, Entries.putAll_append, ← h.fields]
    cases call <;> rfl
  files := by
    rw [List.filterMap_append, ← List.append_assoc, ← h.files]
    cases call with
    | color index data => exact (List.append_nil _).symm
    | field name value => exact (List.append_nil _).symm
    | file path => rfl

theorem filled_run (r : Report ν) (calls : List (Call ν)) : Filled r calls (r.run calls) := by
  induction calls using List.reverseRecOn with
  | nil =>
      exact filled_nil r
  | append_singleton calls call ih =>
      rw [run, List.foldl_append]
      exact ih.concat call

/-- The calls of other kinds leave a table as it is. -/
structure IsByKind (r : Report ν) (calls : List (Call ν)) : Prop where
  colors : (r.run calls).colors = (r.run (calls.filter fun call => call.color?.isSome)).colors
  fields : (r.run calls).fields = (r.run (calls.filter fun call => call.field?.isSome)).fields
  files : (r.run calls).files = (r.run (calls.filter fun call => call.file?.isSome)).files

theorem filterMap_filter_isSome (f : α → Option β) (xs : List α) :
    (xs.filter fun x => (f x).isSome).filterMap f = xs.filterMap f := by
  rw [List.filterMap_filter]
  congr 1
  funext x
  cases f x <;> rfl

theorem isByKind_run (r : Report ν) (calls : List (Call ν)) : IsByKind r calls where
  colors := by
    rw [(filled_run r calls).colors, (filled_run r _).colors, filterMap_filter_isSome]
  fields := by
    rw [(filled_run r calls).fields, (filled_run r _).fields, filterMap_filter_isSome]
  files := by
    rw [(filled_run r calls).files, (filled_run r _).files, filterMap_filter_isSome]

/-!
# Colours
-/

/-- The data that calls supply for an index, in the order of the calls. -/
def dataOf (calls : List (Index × Data ν)) (index : Index) : List (Data ν) :=
  (calls.filter fun call => call.1 = index).map Prod.snd

/-- The value that a key has in the last of some data with that key. -/
def IsLastIn (supplied : List (Data ν)) (key : String) (value : Json ν) : Prop :=
  exists before data after, supplied = before ++ data :: after ∧
    (key, value) ∈ data.entries ∧ forall later, later ∈ after -> key ∉ later.keys

theorem not_isLastIn_nil {key : String} {value : Json ν} : ¬IsLastIn [] key value := by
  rintro ⟨before, data, after, hsplit, _⟩
  exact List.append_ne_nil_of_right_ne_nil before (List.cons_ne_nil data after) hsplit.symm

theorem isLastIn_concat {supplied : List (Data ν)} {data : Data ν} {key : String}
    {value : Json ν} :
    IsLastIn (supplied ++ [data]) key value <->
      (key, value) ∈ data.entries ∨ key ∉ data.keys ∧ IsLastIn supplied key value := by
  constructor
  · rintro ⟨before, d, after, hsplit, hmem, hafter⟩
    cases after using List.reverseRecOn with
    | nil =>
        rcases List.append_inj' hsplit rfl with ⟨-, hlast⟩
        cases hlast
        exact Or.inl hmem
    | append_singleton after last =>
        rw [← List.cons_append, ← List.append_assoc] at hsplit
        rcases List.append_inj' hsplit rfl with ⟨hfront, hlast⟩
        cases hlast
        refine Or.inr ⟨hafter data (by simp), before, d, after, hfront, hmem, ?_⟩
        intro later hlater
        exact hafter later (List.mem_append_left _ hlater)
  · rintro (hmem | ⟨hnew, before, d, after, rfl, hmem, hafter⟩)
    · exact ⟨supplied, data, [], rfl, hmem, fun later hlater => by cases hlater⟩
    · refine ⟨before, d, after ++ [data], by simp, hmem, ?_⟩
      intro later hlater
      rcases List.mem_append.mp hlater with hold | hlast
      · exact hafter later hold
      · rw [List.mem_singleton.mp hlast]
        exact hnew

theorem get?_merged {supplied : List (Data ν)} {key : String} {value : Json ν} :
    Entries.get? (Entries.ofList (supplied.flatMap Data.entries)) key = some value <->
      IsLastIn supplied key value := by
  induction supplied using List.reverseRecOn with
  | nil =>
      exact iff_of_false nofun not_isLastIn_nil
  | append_singleton supplied data ih =>
      rw [List.flatMap_append, List.flatMap_singleton, Entries.ofList_append_eq_putAll,
        Entries.get?_putAll, Entries.get?_reverse data.nodup, isLastIn_concat, ← ih,
        Option.or_eq_some_iff, Entries.get?_eq_none_iff]
      exact or_congr_left (Entries.get?_eq_some_iff_mem data.nodup)

theorem keys_merged (calls : List (Index × Data ν)) :
    (calls.foldl merge []).map Prod.fst = (calls.map Prod.fst).eraseDups := by
  induction calls using List.reverseRecOn with
  | nil =>
      rfl
  | append_singleton calls call ih =>
      rw [List.foldl_append, List.foldl_cons, List.foldl_nil, merge, Entries.keys_put, ih,
        List.map_append, List.map_singleton, Entries.eraseDups_concat]
      simp only [List.mem_eraseDups]

theorem recorded_merged (calls : List (Index × Data ν)) (index : Index) :
    (Entries.get? (calls.foldl merge []) index).getD [] =
      Entries.ofList ((dataOf calls index).flatMap Data.entries) := by
  induction calls using List.reverseRecOn with
  | nil =>
      rfl
  | append_singleton calls call ih =>
      rw [List.foldl_append, List.foldl_cons, List.foldl_nil, merge, dataOf, List.filter_append,
        List.map_append, List.flatMap_append, Entries.ofList_append_eq_putAll]
      by_cases hindex : call.1 = index
      · rw [hindex, Entries.get?_put_self, ih]
        simp [dataOf, hindex]
      · rw [Entries.get?_put_of_ne _ _ hindex, ih]
        simp [dataOf, hindex, Entries.putAll]

/-!
# What a report records
-/

structure IsMerged (supplied : List (Data ν)) (recorded : List (String × Json ν)) : Prop where
  keys : recorded.map Prod.fst = (supplied.flatMap Data.keys).eraseDups
  values : forall key value, (key, value) ∈ recorded <-> IsLastIn supplied key value

/-- A report whose tables have their places from first calls and their values from last ones. -/
structure Records (calls : List (Call ν)) (r : Report ν) : Prop where
  indices : r.colors.map Prod.fst = ((calls.filterMap Call.color?).map Prod.fst).eraseDups
  data : forall index recorded, (index, recorded) ∈ r.colors ->
    IsMerged (dataOf (calls.filterMap Call.color?) index) recorded
  names : r.fields.map Prod.fst = ((calls.filterMap Call.field?).map Prod.fst).eraseDups
  values : forall name value, (name, value) ∈ r.fields <->
    Entries.IsLast (calls.filterMap Call.field?) name value
  missingOrder :
    r.missingFields.Sublist ((calls.filterMap Call.field?).map Prod.fst).eraseDups
  missing : forall name, name ∈ r.missingFields <->
    Entries.IsLast (calls.filterMap Call.field?) name none
  files : r.files = calls.filterMap Call.file?

theorem mem_missingFields {r : Report ν} {name : String} :
    name ∈ r.missingFields <-> (name, none) ∈ r.fields := by
  simp [missingFields]

theorem missingFields_sublist (r : Report ν) :
    r.missingFields.Sublist (r.fields.map Prod.fst) :=
  List.Sublist.map Prod.fst List.filter_sublist

theorem isMerged_ofList (supplied : List (Data ν)) :
    IsMerged supplied (Entries.ofList (supplied.flatMap Data.entries)) where
  keys := by
    rw [Entries.keys_ofList, List.map_flatMap]
    rfl
  values key value := by
    rw [← Entries.get?_eq_some_iff_mem (Entries.nodup_keys_ofList _), get?_merged]

theorem IsMerged.unique {supplied : List (Data ν)} {one other : List (String × Json ν)}
    (hone : IsMerged supplied one) (hother : IsMerged supplied other) : one = other := by
  refine Entries.eq_of_keys_of_mem ?_ (hone.keys.trans hother.keys.symm) fun key value => ?_
  · rw [hone.keys]
    exact Entries.nodup_eraseDups _
  · rw [hone.values, hother.values]

section Run

variable (path : String) (name author slug : Phrase) (calls : List (Call ν))

theorem indices_run :
    ((start path name author slug).run calls).colors.map Prod.fst =
      ((calls.filterMap Call.color?).map Prod.fst).eraseDups := by
  rw [(filled_run _ calls).colors]
  exact keys_merged _

theorem isMerged_run {index : Index} {recorded : List (String × Json ν)}
    (h : (index, recorded) ∈ ((start path name author slug).run calls).colors) :
    IsMerged (dataOf (calls.filterMap Call.color?) index) recorded := by
  have hnodup := Entries.nodup_eraseDups ((calls.filterMap Call.color?).map Prod.fst)
  rw [← indices_run path name author slug] at hnodup
  have hget := (Entries.get?_eq_some_iff_mem hnodup).mpr h
  have hmerged := recorded_merged (calls.filterMap Call.color?) index
  rw [(filled_run _ calls).colors] at hget
  change Entries.get? ((calls.filterMap Call.color?).foldl merge []) index = _ at hget
  rw [hget, Option.getD_some] at hmerged
  rw [hmerged]
  exact isMerged_ofList _

theorem fields_run :
    ((start path name author slug).run calls).fields =
      Entries.ofList (calls.filterMap Call.field?) :=
  (filled_run _ calls).fields

theorem names_run :
    ((start path name author slug).run calls).fields.map Prod.fst =
      ((calls.filterMap Call.field?).map Prod.fst).eraseDups := by
  rw [fields_run, Entries.keys_ofList]

theorem mem_fields_run_iff {field : String} {value : Option Phrase} :
    (field, value) ∈ ((start path name author slug).run calls).fields <->
      Entries.IsLast (calls.filterMap Call.field?) field value := by
  rw [fields_run, ← Entries.get?_eq_some_iff_mem (Entries.nodup_keys_ofList _),
    Entries.get?_ofList_eq_some_iff]

theorem records_run : Records calls ((start path name author slug).run calls) where
  indices := indices_run path name author slug calls
  data _ _ h := isMerged_run path name author slug calls h
  names := names_run path name author slug calls
  values _ _ := mem_fields_run_iff path name author slug calls
  missingOrder := by
    rw [← names_run path name author slug]
    exact missingFields_sublist _
  missing field := by
    rw [mem_missingFields, mem_fields_run_iff]
  files := (filled_run _ calls).files

theorem mem_missingFields_run_concat (field : String) (value : Option Phrase) :
    field ∈ ((start path name author slug).run (calls ++ [.field field value])).missingFields <->
      value = none := by
  rw [mem_missingFields, mem_fields_run_iff, List.filterMap_append,
    ← Entries.get?_ofList_eq_some_iff]
  show Entries.get? (Entries.ofList (calls.filterMap Call.field? ++ [(field, value)])) field =
    some none <-> value = none
  rw [Entries.ofList_concat, Entries.get?_put_self, Option.some.injEq]

end Run

theorem Records.tables_eq {calls : List (Call ν)} {one other : Report ν}
    (hone : Records calls one) (hother : Records calls other) :
    one.colors = other.colors ∧ one.fields = other.fields ∧ one.files = other.files := by
  have hindices := hone.indices.trans hother.indices.symm
  have hmem {a b : Report ν} (ha : Records calls a) (hb : Records calls b)
      (h : a.colors.map Prod.fst = b.colors.map Prod.fst) (index : Index)
      (recorded : List (String × Json ν)) (hrec : (index, recorded) ∈ a.colors) :
      (index, recorded) ∈ b.colors := by
    have hindex : index ∈ b.colors.map Prod.fst := h ▸ List.mem_map_of_mem hrec
    rcases List.mem_map.mp hindex with ⟨⟨i, found⟩, hfound, rfl⟩
    rw [(ha.data i recorded hrec).unique (hb.data i found hfound)]
    exact hfound
  refine ⟨?_, ?_, hone.files.trans hother.files.symm⟩
  · refine Entries.eq_of_keys_of_mem ?_ hindices fun index recorded =>
      ⟨hmem hone hother hindices index recorded, hmem hother hone hindices.symm index recorded⟩
    rw [hone.indices]
    exact Entries.nodup_eraseDups _
  · refine Entries.eq_of_keys_of_mem ?_ (hone.names.trans hother.names.symm) fun name value => ?_
    · rw [hone.names]
      exact Entries.nodup_eraseDups _
    · rw [hone.values, hother.values]

/-- Whatever the calls are and however they follow one another, a report has its entries at the
places of their first calls and with the values of their last ones, and this is all that its tables
depend on; each table is what the calls of its own kind make of it. -/
theorem run_keeps_first_places_and_last_values (path : String) (name author slug : Phrase)
    (calls : List (Call ν)) :
    Records calls ((start path name author slug).run calls) ∧
      (forall other, Records calls other ->
        other.colors = ((start path name author slug).run calls).colors ∧
          other.fields = ((start path name author slug).run calls).fields ∧
          other.files = ((start path name author slug).run calls).files) ∧
      IsByKind (start path name author slug) calls ∧
      (forall field value,
        field ∈
            ((start path name author slug).run (calls ++ [.field field value])).missingFields <->
          value = none) := by
  have hrecords := records_run path name author slug calls
  refine ⟨hrecords, fun other hother => hother.tables_eq hrecords, isByKind_run _ calls, ?_⟩
  exact mem_missingFields_run_concat path name author slug calls

def mixedCalls : List (Call Rat) :=
  [.field "a" none, .color ⟨.ofNat 10⟩ ⟨[("hex", .null), ("rgb", .bool true)], by decide⟩,
    .file "x", .field "b" (some []), .color ⟨.ofNat 2⟩ ⟨[], by decide⟩, .field "a" (some []),
    .color ⟨.ofNat 10⟩ ⟨[("hsl", .int 1), ("hex", .int 2)], by decide⟩, .field "b" none, .file "x"]

def mixedReport : Report Rat where
  schemePath := "p"
  schemeName := []
  schemeAuthor := []
  schemeSlug := []
  colors :=
    [(⟨.ofNat 10⟩, [("hex", .int 2), ("rgb", .bool true), ("hsl", .int 1)]), (⟨.ofNat 2⟩, [])]
  fields := [("a", some []), ("b", none)]
  files := ["x", "x"]

theorem run_keeps_first_places_and_last_values_of_mixedCalls :
    Records mixedCalls mixedReport ∧ mixedReport.missingFields = ["b"] ∧
      mixedReport.colors = ((start "q" [] [] []).run mixedCalls).colors ∧
      "b" ∉ ((start "q" [] [] []).run (mixedCalls ++ [.field "b" (some [])])).missingFields := by
  have hrecords : Records mixedCalls mixedReport := records_run "p" [] [] [] mixedCalls
  rcases run_keeps_first_places_and_last_values "q" [] [] [] mixedCalls with
    ⟨_, hunique, _, hlast⟩
  exact ⟨hrecords, rfl, (hunique mixedReport hrecords).left, fun h => nomatch (hlast "b" _).mp h⟩

end Report
end Palette
