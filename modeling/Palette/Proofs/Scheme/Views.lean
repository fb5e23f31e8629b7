import Mathlib.Data.List.Nodup
import Palette.Command.Findings
import Palette.Proofs.Color.Columns
import Palette.Proofs.Color.Wheel
import Palette.Proofs.Scheme.Canonical
import Palette.Proofs.Swatch.Layout
import Palette.Swatch.Memory
import Palette.Scheme.Text

/-!
# Views of a scheme

The colours of a scheme are shown as rows of channels, as a table of conversions, as the pairs
of a document, as the data of a report and as the squares of a swatch.  Each of these lists
the colours in the order of their indices: what stands at a place belongs to the index that
has so many indices of the scheme below it.
-/

namespace Palette

variable {ν μ : Type}

/-!
# Places of indices
-/

namespace Colors

/-- An index has a colour, and so many indices have one that are less. -/
def IsAt (m : Colors) (k : Nat) (i : Index) (c : Rgb) : Prop :=
  m.get? i = some c ∧ m.indices.countP (· < i) = k

theorem countP_of_getElem? {es : List (Index × Rgb)} (h : es.Pairwise fun a b => a.1 < b.1)
    {k : Nat} {e : Index × Rgb} (hk : es[k]? = some e) :
    (es.map Prod.fst).countP (· < e.1) = k := by
  induction es generalizing k with
  | nil =>
      cases hk
  | cons first rest ih =>
      rw [List.pairwise_cons] at h
      rw [List.map_cons, List.countP_cons]
      cases k with
      | zero =>
          injection hk with hk
          rw [← hk]
          have hself : ¬first.1 < first.1 := Nat.lt_irrefl first.1.byte.val
          have hnone : (rest.map Prod.fst).countP (· < first.1) = 0 := by
            rw [List.countP_eq_zero]
            intro i hi hlt
            rcases List.mem_map.mp hi with ⟨d, hd, rfl⟩
            exact Nat.lt_asymm (h.left d hd) (of_decide_eq_true hlt)
          rw [hnone, decide_eq_false hself]
          rfl
      | succ k =>
          have hlt : first.1 < e.1 := h.left e (List.mem_of_getElem? hk)
          rw [ih h.right hk, decide_eq_true hlt]
          rfl

theorem getElem?_entries_iff (m : Colors) {k : Nat} {i : Index} {c : Rgb} :
    m.entries[k]? = some (i, c) <-> m.IsAt k i c := by
  constructor
  · intro h
    exact ⟨m.mem_entries_iff.mp (List.mem_of_getElem? h), countP_of_getElem? m.ascending h⟩
  · rintro ⟨hget, hcount⟩
    rcases List.getElem?_of_mem (m.mem_entries_iff.mpr hget) with ⟨place, hplace⟩
    have hsame := countP_of_getElem? m.ascending hplace
    rw [← hcount]
    change m.indices.countP (· < i) = place at hsame
    rw [hsame]
    exact hplace

/-- A list has one item for each colour, at the place of its index. -/
structure Lists (m : Colors) (view : List α) (item : Index → Rgb → α → Prop) : Prop where
  length : view.length = m.size
  places : forall k x, view[k]? = some x <-> exists i c, m.IsAt k i c ∧ item i c x

theorem lists_map (m : Colors) {item : Index → Rgb → α → Prop} (f : Index × Rgb → α)
    (h : forall i c x, item i c x <-> x = f (i, c)) : m.Lists (m.entries.map f) item := by
  constructor
  · rw [List.length_map]
    rfl
  · intro k x
    rw [List.getElem?_map, Option.map_eq_some_iff]
    constructor
    · rintro ⟨⟨i, c⟩, hk, hx⟩
      exact ⟨i, c, m.getElem?_entries_iff.mp hk, (h i c x).mpr hx.symm⟩
    · rintro ⟨i, c, hat, hitem⟩
      exact ⟨(i, c), m.getElem?_entries_iff.mpr hat, ((h i c x).mp hitem).symm⟩

/-!
# Colours in any order
-/

theorem ofList_concat (entries : List (Index × Rgb)) (e : Index × Rgb) :
    ofList (entries ++ [e]) = (ofList entries).insert e.1 e.2 := by
  rw [ofList, List.foldl_concat]
  rfl

theorem get?_ofList (entries : List (Index × Rgb)) (i : Index) :
    (ofList entries).get? i = Entries.get? entries.reverse i := by
  induction entries using List.reverseRecOn with
  | nil =>
      rfl
  | append_singleton front e ih =>
      rw [ofList_concat, get?_insert, ih, List.reverse_append, Entries.get?_append]
      by_cases hi : e.1 = i
      · simp [Entries.get?, hi]
      · simp [Entries.get?, hi]

theorem mem_entries_ofList_iff {entries : List (Index × Rgb)}
    (h : (entries.map Prod.fst).Nodup) {i : Index} {c : Rgb} :
    (i, c) ∈ (ofList entries).entries <-> (i, c) ∈ entries := by
  have hreverse : (entries.reverse.map Prod.fst).Nodup := by
    rw [List.map_reverse]
    exact List.nodup_reverse.mpr h
  rw [mem_entries_iff, get?_ofList, ← List.mem_reverse]
  constructor
  · exact Entries.mem_of_get?_eq_some
  · exact fun hmem => Entries.get?_of_mem hreverse hmem

theorem entries_ofList_of_ascending {es : List (Index × Rgb)}
    (h : es.Pairwise fun a b => a.1 < b.1) : (ofList es).entries = es := by
  induction es using List.reverseRecOn with
  | nil =>
      rfl
  | append_singleton front e ih =>
      rcases List.pairwise_append.mp h with ⟨hfront, _, hlast⟩
      rw [ofList_concat]
      show insertEntry e.1 e.2 (ofList front).entries = front ++ [e]
      rw [ih hfront]
      exact insertEntry_of_last e.1 e.2 fun d hd => hlast d hd e List.mem_cons_self

theorem ofList_entries (m : Colors) : ofList m.entries = m :=
  ext (entries_ofList_of_ascending m.ascending)

end Colors

/-!
# Conversions
-/

section Conversions

variable [Scalar ν]

def Hsl.IsConversion (c : Rgb) (v : Hsl ν) : Prop :=
  (Grid.ofList [Hsl.channels ν c]).toHsl.cells = [v]

theorem Hsl.isConversion_iff {c : Rgb} {v : Hsl ν} :
    IsConversion c v <-> v = Cell.toHsl (channels ν c) := by
  rw [IsConversion, Grid.cells_toHsl]
  show [Cell.toHsl (channels ν c)] = [v] <-> v = Cell.toHsl (channels ν c)
  rw [List.singleton_inj]
  exact eq_comm

theorem Hsl.toHsl_channels (c : Rgb) : Cell.toHsl (channels Rat c) = Hsl.ofRgb c :=
  Cell.toHsl_eq_ofChannels (Cell.separated (channels Rat c))

theorem Scheme.hslTable_eq (s : Scheme) :
    s.hslTable ν = s.colors.entries.map fun e => (e.1, Cell.toHsl (Hsl.channels ν e.2)) := by
  have hcells : (Grid.ofList (s.channels ν)).toHsl.cells =
      s.colors.entries.map fun e => Cell.toHsl (Hsl.channels ν e.2) := by
    rw [Grid.cells_toHsl, Grid.ofList, Scheme.channels, Colors.colors, List.map_map, List.map_map]
    rfl
  rw [Scheme.hslTable, hcells, Colors.indices, List.zip_map']

end Conversions

/-!
# Reports on all colours
-/

namespace Report

theorem colors_addColor_of_new (r : Report ν) {i : Index} (h : i ∉ r.colors.map Prod.fst)
    (data : List (String × Json ν)) :
    (r.addColor i data).colors = r.colors ++ [(i, Entries.ofList data)] := by
  have hnone : Entries.get? r.colors i = none := Entries.get?_eq_none_iff.mpr h
  rw [addColor, hnone]
  exact Entries.put_of_not_mem _ h

theorem colors_addColors (data : Index × Rgb → List (String × Json ν))
    {entries : List (Index × Rgb)} (hentries : (entries.map Prod.fst).Nodup) {r : Report ν}
    (hnew : forall e, e ∈ entries -> e.1 ∉ r.colors.map Prod.fst) :
    (entries.foldl (fun r e => r.addColor e.1 (data e)) r).colors =
      r.colors ++ entries.map fun e => (e.1, Entries.ofList (data e)) := by
  induction entries generalizing r with
  | nil =>
      exact (List.append_nil r.colors).symm
  | cons e rest ih =>
      rw [List.map_cons, List.nodup_cons] at hentries
      rw [List.forall_mem_cons] at hnew
      have hcolors := colors_addColor_of_new r hnew.left (data e)
      have hrest : forall d, d ∈ rest -> d.1 ∉ (r.addColor e.1 (data e)).colors.map Prod.fst := by
        intro d hd
        rw [hcolors, List.map_append, List.map_singleton, List.mem_append, List.mem_singleton]
        rintro (hold | heq)
        · exact hnew.right d hd hold
        · exact hentries.left (List.mem_map.mpr ⟨d, hd, heq⟩)
      rw [List.foldl_cons, ih hentries.right hrest, hcolors, List.append_assoc, List.map_cons,
        List.singleton_append]

def colorData [Scalar ν] (c : Rgb) (v : Hsl ν) : List (String × Json ν) :=
  [hexData c, rgbData c, hslData v]

theorem ofList_colorData [Scalar ν] (c : Rgb) (v : Hsl ν) :
    Entries.ofList (colorData c v) = colorData c v :=
  rfl

theorem colors_inspect [Scalar ν] (path : String) (s : Scheme) :
    ((ofScheme path s : Report ν).inspect s).colors =
      s.colors.entries.map fun e => (e.1, colorData e.2 (Cell.toHsl (Hsl.channels ν e.2))) := by
  have hdata : forall e, e ∈ s.colors.entries ->
      inspection (s.hslTable ν) e.1 e.2 = colorData e.2 (Cell.toHsl (Hsl.channels ν e.2)) := by
    intro e he
    have hnodup : ((s.hslTable ν).map Prod.fst).Nodup := by
      rw [Scheme.hslTable_eq, List.map_map]
      exact s.colors.nodup_keys
    have hmem : (e.1, Cell.toHsl (Hsl.channels ν e.2)) ∈ s.hslTable ν := by
      rw [Scheme.hslTable_eq]
      exact List.mem_map_of_mem he
    rw [inspection, Entries.get?_of_mem hnodup hmem]
    rfl
  rw [inspect, colors_addColors (fun e => inspection (s.hslTable ν) e.1 e.2) s.colors.nodup_keys
    fun _ _ => List.not_mem_nil]
  rw [ofScheme, start, List.nil_append]
  apply List.map_congr_left
  intro e he
  rw [hdata e he, ofList_colorData]

end Report

/-!
# The views
-/

namespace Scheme

open Document Swatch

variable (ν : Type) [Scalar ν]

/-- Whether the squares of an image are those of the colours, and transparent ones behind. -/
structure IsDrawn (m : Colors) (size : Nat) (image : Image) : Prop where
  room : m.size ≤ squareCount image size
  colored : forall k i c, m.IsAt k i c -> ShowsSquare image size k (Pixel.opaqueOf c)
  rest : forall k, m.size ≤ k -> k < squareCount image size ->
    ShowsSquare image size k Pixel.transparent

/-- Whether all views of a scheme list its colours in the order of their indices.  A conversion
is that of the colour by itself, and in exact numbers that of its three channels. -/
structure ListsColors (s : Scheme) : Prop where
  ascending : s.colors.entries.Pairwise fun a b => a.1 < b.1
  rows : s.colors.Lists s.colors.colors fun _ c x => x = c
  channels : s.colors.Lists (s.channels ν) fun _ c x => x = Hsl.channels ν c
  table : s.colors.Lists (s.hslTable ν) fun i c x => x.1 = i ∧ Hsl.IsConversion c x.2
  exactTable : s.colors.Lists (s.hslTable Rat) fun i c x => x = (i, Hsl.ofRgb c)
  pairs : exists pairs : List (String × Phrase),
    s.toPairs = (nameKey, s.name) :: (authorKey, s.author) :: pairs ∧
      s.colors.Lists pairs fun i c x => x = (i.text, .ofText c.text)
  report : forall path : String,
    s.colors.Lists ((Report.ofScheme path s : Report ν).inspect s).colors fun i c x =>
      x.1 = i ∧ exists v, Hsl.IsConversion c v ∧ x.2 = Report.colorData c v
  swatch : forall size columns : Int, 1 ≤ size -> 1 ≤ columns ->
    exists image, Swatch.build s.colors.colors size columns = .ok image ∧
      IsDrawn s.colors size.toNat image ∧
        forall m : Machine, Swatch.make m s.colors.colors size columns =
          match Swatch.excess? m s.colors.size size.toNat columns.toNat with
          | some e => .error (.excess e)
          | none => .ok image

theorem isDrawn_draw (m : Colors) {size : Nat} (hsize : 0 < size) (columns : Nat) :
    IsDrawn m size (draw m.colors size columns) := by
  have hlength : m.colors.length = m.size := List.length_map _
  have hroom := length_le_squareCount m.colors hsize columns
  rw [hlength] at hroom
  refine ⟨hroom, ?_, ?_⟩
  · intro k i c hat
    have hk : m.colors[k]? = some c := by
      rw [Colors.colors, List.getElem?_map, m.getElem?_entries_iff.mpr hat]
      rfl
    have hlt : k < m.colors.length := (List.getElem?_eq_some_iff.mp hk).1
    have hshows := showsSquare_draw m.colors hsize columns
      (Nat.lt_of_lt_of_le (hlength ▸ hlt) hroom)
    rw [hk] at hshows
    exact hshows
  · intro k hle hk
    have hshows := showsSquare_draw m.colors hsize columns hk
    rw [List.getElem?_eq_none (hlength ▸ hle)] at hshows
    exact hshows

theorem listsColors (s : Scheme) : s.ListsColors ν where
  ascending := s.colors.ascending
  rows := s.colors.lists_map Prod.snd fun _ _ _ => Iff.rfl
  channels := by
    rw [Scheme.channels, Colors.colors, List.map_map]
    exact s.colors.lists_map _ fun _ _ _ => Iff.rfl
  table := by
    rw [hslTable_eq]
    refine s.colors.lists_map _ ?_
    intro i c x
    rw [Hsl.isConversion_iff, Prod.ext_iff]
  exactTable := by
    rw [hslTable_eq]
    refine s.colors.lists_map _ ?_
    intro i c x
    rw [← Hsl.toHsl_channels]
  pairs := ⟨_, rfl, s.colors.lists_map _ fun _ _ _ => Iff.rfl⟩
  report := by
    intro path
    rw [Report.colors_inspect]
    refine s.colors.lists_map _ ?_
    intro i c x
    simp only [Hsl.isConversion_iff, exists_eq_left, Prod.ext_iff]
  swatch := by
    intro size columns hsize hcolumns
    have hbuild : Swatch.build s.colors.colors size columns =
        .ok (draw s.colors.colors size.toNat columns.toNat) := by
      rw [Swatch.build, if_neg (by omega)]
    have hlength : s.colors.colors.length = s.colors.size := List.length_map _
    refine ⟨_, hbuild, isDrawn_draw s.colors (by omega) columns.toNat, fun m => ?_⟩
    rw [Swatch.make, if_neg (by omega), hbuild, hlength]
    rfl

theorem mem_entries_of_ofDatum {d : Datum μ} {s : Scheme} (h : (ofDatum d).2 = .ok s) :
    exists entries, d = .mapping entries ∧ forall i c,
      (i, c) ∈ s.colors.entries <-> IsLastColor entries i c := by
  rcases exists_ofDatum_iff.mp ⟨s, h⟩ with ⟨entries, _, _, hd, _⟩
  rw [hd] at h
  refine ⟨entries, hd, ?_⟩
  intro i c
  rw [Colors.mem_entries_iff, get?_eq_some_iff_isLastColor (addEntries_of_ofDatum h)]

theorem exists_ofDatum_of_parse {text : List Char} {s : Scheme} (h : (parse μ text).2 = .ok s) :
    exists (d : Datum μ) (t : Scheme), Yaml.read text = .ok d ∧ (ofDatum d).2 = .ok t ∧
      s = t.createSlug := by
  rw [parse] at h
  split at h
  · cases h
  · cases h
  case h_3 d hread =>
    split at h
    · cases h
    case h_2 warnings t hdatum =>
      injection h with h
      exact ⟨d, t, hread, by rw [hdatum], h.symm⟩

/-- All views of a scheme list the same colours in the order of their indices, however it was
made, and they are the colours that it was made from. -/
theorem views_list_supplied_colors :
    (forall s : Scheme, s.ListsColors ν) ∧
      (forall (name author slug : Phrase) (supplied : List (Index × Rgb)),
        (supplied.map Prod.fst).Nodup -> forall i c,
          (i, c) ∈ (Scheme.mk name author (.ofList supplied) slug).colors.entries <->
            (i, c) ∈ supplied) ∧
      (forall (d : Datum ν) (s : Scheme), (ofDatum d).2 = .ok s ->
        exists entries, d = .mapping entries ∧ forall i c,
          (i, c) ∈ s.colors.entries <-> IsLastColor entries i c) ∧
      (forall (text : List Char) (s : Scheme), (parse ν text).2 = .ok s ->
        exists entries : List (Datum ν × Datum ν), Yaml.read text = .ok (.mapping entries) ∧
          forall i c, (i, c) ∈ s.colors.entries <-> IsLastColor entries i c) ∧
      forall s : Scheme, s.createSlug.colors.entries = s.colors.entries := by
  refine ⟨listsColors ν, ?_, ?_, ?_, fun _ => rfl⟩
  · intro name author slug supplied hnodup i c
    exact Colors.mem_entries_ofList_iff hnodup
  · intro d s h
    exact mem_entries_of_ofDatum h
  · intro text s h
    rcases exists_ofDatum_of_parse h with ⟨d, t, hread, hdatum, rfl⟩
    rcases mem_entries_of_ofDatum hdatum with ⟨entries, rfl, hentries⟩
    exact ⟨entries, hread, hentries⟩

def descending : List (Index × Rgb) :=
  [(⟨.ofNat 31⟩, ⟨.ofNat 160, .ofNat 177, .ofNat 194⟩),
    (⟨.ofNat 10⟩, ⟨.ofNat 255, .ofNat 0, .ofNat 0⟩), (⟨.ofNat 0⟩, ⟨.ofNat 7, .ofNat 7, .ofNat 7⟩)]

theorem views_list_supplied_colors_of_descending :
    exists s : Scheme, s = ⟨.ofText "x", .ofText "y", .ofList descending, []⟩ ∧
      s.colors.entries = descending.reverse ∧
      ((⟨31⟩, ⟨160, 177, 194⟩) ∈ s.colors.entries <-> (⟨31⟩, ⟨160, 177, 194⟩) ∈ descending) ∧
      (s.hslTable Rat)[1]? = some (⟨10⟩, Hsl.ofRgb ⟨255, 0, 0⟩) ∧
      (exists image, Swatch.make .usual s.colors.colors 2 2 = .ok image ∧
        ShowsSquare image 2 2 ⟨160, 177, 194, 255⟩ ∧ ShowsSquare image 2 3 Pixel.transparent) ∧
      (exists entries : List (Datum Rat × Datum Rat), s.toDatum Rat = .mapping entries ∧
        ((⟨0⟩, ⟨7, 7, 7⟩) ∈ s.colors.entries <-> IsLastColor entries ⟨0⟩ ⟨7, 7, 7⟩)) ∧
      exists entries : List (Datum Rat × Datum Rat),
        Yaml.read s.dump.toList = .ok (.mapping entries) ∧
          ((⟨0⟩, ⟨7, 7, 7⟩) ∈ s.colors.entries <-> IsLastColor entries ⟨0⟩ ⟨7, 7, 7⟩) := by
  let s : Scheme := ⟨.ofText "x", .ofText "y", .ofList descending, []⟩
  rcases views_list_supplied_colors Rat with ⟨hviews, hsupplied, hdatum, htext, _⟩
  have hat : forall {k : Nat} {i : Index} {c : Rgb}, s.colors.entries[k]? = some (i, c) ->
      s.colors.IsAt k i c :=
    s.colors.getElem?_entries_iff.mp
  rcases (hviews s).swatch 2 2 (by decide) (by decide) with ⟨image, himage, hdrawn, hmake⟩
  have hcount : squareCount image 2 = 4 := by
    injection himage with himage
    rw [← himage]
    show squareCount (draw (Colors.ofList descending).colors 2 2) 2 = 4
    decide +kernel
  have hcolors : IsDrawn s.colors 2 image := hdrawn
  have hfits : excess? .usual s.colors.size (2 : Int).toNat (2 : Int).toNat = none := by decide
  have hmade := hmake .usual
  rw [hfits] at hmade
  rcases hdatum (s.toDatum Rat) { s with slug := [] } (by rw [ofDatum_toDatum]) with
    ⟨entries, hentries, hlast⟩
  rcases htext s.dump.toList _ (by rw [parse_dump_eq]) with ⟨others, hread, hothers⟩
  refine ⟨s, rfl, rfl, hsupplied _ _ [] descending (by decide) _ _, ?_,
    ⟨image, hmade, ?_, ?_⟩,
    ⟨entries, hentries, hlast _ _⟩, others, hread, hothers _ _⟩
  · exact ((hviews s).exactTable.places 1 _).mpr ⟨_, _, hat rfl, rfl⟩
  · exact hcolors.colored 2 ⟨31⟩ _ (hat rfl)
  · exact hcolors.rest 3 (by decide) (by rw [hcount]; decide)

end Scheme
end Palette
