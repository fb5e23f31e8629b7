import Palette.Proofs.CommandLine.LookUps
import Palette.Proofs.Number.Rounding
import Palette.Proofs.Report.ReadBack
import Palette.Proofs.Scheme.Fields
import Palette.Proofs.Scheme.Views

/-!
# Inspected colours and their fields

A report on all colours takes its numbers from the table of a whole scheme and rounds them, a field
is computed for its colour alone and printed as it is.  In exact numbers both show the same: a line
of the text and an entry of the JSON hold the texts of the fields of their index.
-/

namespace Palette

open Phrase (ofChars ofText)
open Text (AreDigitsOf)

namespace Scheme

/-- A field of an index, in whatever case the digits of the index are written in its name. -/
def HasField (s : Scheme) (i : Index) (suffix : String) (text : Phrase) : Prop :=
  forall high low : Char, AreDigitsOf high low i.byte ->
    s.renderField Rat (fieldName high low suffix) = some text

end Scheme

structure FieldTexts where
  hex : Phrase
  red : Phrase
  green : Phrase
  blue : Phrase
  hue : Phrase
  saturation : Phrase
  luminance : Phrase

namespace FieldTexts

open Report (padStart textJson)

structure AreOf (t : FieldTexts) (s : Scheme) (i : Index) : Prop where
  hex : s.HasField i "hex" t.hex
  red : s.HasField i "rgb-r" t.red
  green : s.HasField i "rgb-g" t.green
  blue : s.HasField i "rgb-b" t.blue
  hue : s.HasField i "hsl-h" t.hue
  saturation : s.HasField i "hsl-s" t.saturation
  luminance : s.HasField i "hsl-l" t.luminance

def line (t : FieldTexts) (i : Index) : Phrase :=
  ofText i.text ++ ofText "  #" ++ t.hex ++
    ofText "  rgb(" ++ padStart 3 t.red ++ ofText "," ++ padStart 3 t.green ++ ofText "," ++
      padStart 3 t.blue ++
    ofText ")  hsl(" ++ padStart 6 t.hue ++ ofText "," ++ t.saturation ++ ofText "," ++
      t.luminance ++ ofText ")"

/-- An entry of an index with numbers that have the texts. -/
def StandIn (t : FieldTexts) (i : Index) (entry : Json Rat) : Prop :=
  exists (red green blue : Int) (hue saturation luminance : Rat),
    entry = .object
      [ ("index", textJson i.text), ("hex", .text t.hex),
        ("rgb", .array [.int red, .int green, .int blue]),
        ("hsl", .array [.real hue, .real saturation, .real luminance]) ] ∧
    ofText (toString red) = t.red ∧ ofText (toString green) = t.green ∧
    ofText (toString blue) = t.blue ∧
    ofChars (Scalar.twoDecimals hue) = t.hue ∧
    ofChars (Scalar.twoDecimals saturation) = t.saturation ∧
    ofChars (Scalar.twoDecimals luminance) = t.luminance

/-!
# The texts of a colour
-/

def ofColor (c : Rgb) : FieldTexts where
  hex := ofChars c.chars
  red := ofChars (Rgb.decimal c.red)
  green := ofChars (Rgb.decimal c.green)
  blue := ofChars (Rgb.decimal c.blue)
  hue := ofChars (Scalar.twoDecimals (Hsl.ofRgb c : Hsl Rat).hue)
  saturation := ofChars (Scalar.twoDecimals (Hsl.ofRgb c : Hsl Rat).saturation)
  luminance := ofChars (Scalar.twoDecimals (Hsl.ofRgb c : Hsl Rat).luminance)

theorem areOf_ofColor {s : Scheme} {i : Index} {c : Rgb} (h : s.colors.get? i = some c) :
    (ofColor c).AreOf s i := by
  have hshows (suffix : String) {f : Format} (hbody : FormatBody suffix.toList f) :
      s.HasField i suffix (ofChars (c.printChars Rat f)) := by
    intro high low hdigits
    rw [Scheme.renderField_fieldName Rat s hdigits hbody, h, Option.map_some, Rgb.print,
      Scheme.ofText_ofList]
  exact ⟨hshows "hex" .hex, hshows "rgb-r" (.rgb .r), hshows "rgb-g" (.rgb .g),
    hshows "rgb-b" (.rgb .b), hshows "hsl-h" (.hsl .h), hshows "hsl-s" (.hsl .s),
    hshows "hsl-l" (.hsl .l)⟩

end FieldTexts

/-!
# Lines and entries
-/

namespace Report

open FieldTexts (ofColor)

theorem ofText_toString_byte (b : Byte) :
    ofText (toString (b.val : Int)) = ofChars (Rgb.decimal b) := by
  rw [← Scheme.ofText_ofList, Scheme.ofList_decimal]
  rfl

theorem hexData_eq (c : Rgb) :
    (hexData c : String × Json Rat) = ("hex", .text (ofColor c).hex) := by
  rw [hexData, Rgb.text, Scheme.ofText_ofList]
  rfl

theorem twoDecimals_rounded (c : Rgb) :
    Scalar.twoDecimals (Scalar.roundHundredths (Hsl.ofRgb c : Hsl Rat).hue) =
        Scalar.twoDecimals (Hsl.ofRgb c : Hsl Rat).hue ∧
      Scalar.twoDecimals (Scalar.roundHundredths (Hsl.ofRgb c : Hsl Rat).saturation) =
        Scalar.twoDecimals (Hsl.ofRgb c : Hsl Rat).saturation ∧
      Scalar.twoDecimals (Scalar.roundHundredths (Hsl.ofRgb c : Hsl Rat).luminance) =
        Scalar.twoDecimals (Hsl.ofRgb c : Hsl Rat).luminance := by
  have hrange := Hsl.inRange_ofRgb c
  exact ⟨Scalar.twoDecimals_roundHundredths hrange.hue.left,
    Scalar.twoDecimals_roundHundredths hrange.saturation.left,
    Scalar.twoDecimals_roundHundredths hrange.luminance.left⟩

theorem rgbPart_rgbData (c : Rgb) :
    rgbPart (rgbData c : String × Json Rat).2 = .ok (ofText "rgb(" ++
      padStart 3 (ofColor c).red ++ ofText "," ++ padStart 3 (ofColor c).green ++ ofText "," ++
      padStart 3 (ofColor c).blue ++ ofText ")") := by
  simp only [ofColor, ← ofText_toString_byte]
  rfl

theorem hslPart_hslData (c : Rgb) :
    hslPart (hslData (Hsl.ofRgb c : Hsl Rat)).2 = .ok (ofText "hsl(" ++
      padStart 6 (ofColor c).hue ++ ofText "," ++ (ofColor c).saturation ++ ofText "," ++
      (ofColor c).luminance ++ ofText ")") := by
  rcases twoDecimals_rounded c with ⟨hhue, hsaturation, hluminance⟩
  simp only [ofColor, ← hhue, ← hsaturation, ← hluminance]
  rfl

theorem colorLine_colorData (i : Index) (c : Rgb) :
    colorLine i (colorData c (Hsl.ofRgb c : Hsl Rat)) = .ok ((ofColor c).line i) := by
  have hparts : colorParts (colorData c (Hsl.ofRgb c : Hsl Rat)) =
      (do
        let rgb ← (rgbPart (rgbData c : String × Json Rat).2).map ([·])
        let hsl ← (hslPart (hslData (Hsl.ofRgb c : Hsl Rat)).2).map ([·])
        .ok ([.char '#' :: (ofColor c).hex] ++ rgb ++ hsl)) := by
    rw [colorData, hexData_eq]
    rfl
  rw [colorLine, hparts, rgbPart_rgbData, hslPart_hslData]
  simp [Except.map, bind, Except.bind, joinWith, FieldTexts.line, ofText, ofChars]

theorem standIn_colorJson (i : Index) (c : Rgb) :
    (ofColor c).StandIn i (colorJson i (colorData c (Hsl.ofRgb c : Hsl Rat))) := by
  rcases twoDecimals_rounded c with ⟨hhue, hsaturation, hluminance⟩
  have hkeys : ("index" :: (colorData c (Hsl.ofRgb c : Hsl Rat)).map Prod.fst).Nodup := by
    show ["index", "hex", "rgb", "hsl"].Nodup
    decide
  rw [colorJson_eq hkeys, colorData, hexData_eq]
  exact ⟨_, _, _, _, _, _, rfl, ofText_toString_byte c.red, ofText_toString_byte c.green,
    ofText_toString_byte c.blue, congrArg ofChars hhue, congrArg ofChars hsaturation,
    congrArg ofChars hluminance⟩

/-!
# Inspections
-/

theorem text_inspect (path : String) (s : Scheme) :
    ((ofScheme path s).inspect s : Report Rat).text =
      .ok (joinWith (ofText "\n") (((ofScheme path s).inspect s : Report Rat).linesAround
        (s.colors.entries.map fun e => (ofColor e.2).line e.1))) := by
  have hlines : (((ofScheme path s).inspect s : Report Rat).colors.mapM
      fun c => colorLine c.1 c.2) =
        .ok (s.colors.entries.map fun e => (ofColor e.2).line e.1) := by
    have heach (e : Index × Rgb) :
        colorLine e.1 (colorData e.2 (Cell.toHsl (Hsl.channels Rat e.2))) =
          pure ((ofColor e.2).line e.1) := by
      rw [Hsl.toHsl_channels]
      exact colorLine_colorData e.1 e.2
    rw [colors_inspect, List.mapM_map]
    exact (congrArg (List.mapM · s.colors.entries) (funext heach)).trans List.mapM_pure
  rw [text, lines, hlines]
  rfl

theorem get?_colors_inspect (path : String) (s : Scheme) :
    ((ofScheme path s).inspect s : Report Rat).toJson.get? "colors" =
      some (.array (s.colors.entries.map fun e =>
        colorJson e.1 (colorData e.2 (Hsl.ofRgb e.2)))) := by
  rw [get?_colors, colors_inspect, List.map_map]
  simp only [Function.comp_def, Hsl.toHsl_channels]

theorem mem_fields_lookUp_iff (path : String) (s : Scheme) (names : List String)
    (f : String × Option Phrase) :
    f ∈ ((ofScheme path s).lookUp s names : Report Rat).fields <->
      f.1 ∈ names ∧ f.2 = s.renderField Rat f.1 := by
  rw [fields_lookUp, List.mem_map]
  constructor
  · rintro ⟨name, hname, rfl⟩
    exact ⟨List.mem_eraseDups.mp hname, rfl⟩
  · rintro ⟨hname, hvalue⟩
    exact ⟨f.1, List.mem_eraseDups.mpr hname, Prod.ext rfl hvalue.symm⟩

/-- An inspection has a line and an entry for each index of a scheme, at the place of the index.
The line holds the texts of the fields that are looked up for the index, the entry numbers with
these texts: that they were rounded before they are printed changes none of them. -/
theorem inspection_shows_fields (path : String) (s : Scheme) :
    exists (lines : List Phrase) (entries : List (Json Rat)),
      ((ofScheme path s).inspect s : Report Rat).text =
          .ok (joinWith (ofText "\n")
            (((ofScheme path s).inspect s : Report Rat).linesAround lines)) ∧
        ((ofScheme path s).inspect s : Report Rat).toJson.get? "colors" = some (.array entries) ∧
        lines.length = s.colors.indices.length ∧ entries.length = s.colors.indices.length ∧
        (forall (k : Nat) (i : Index), s.colors.indices[k]? = some i ->
          exists (t : FieldTexts) (entry : Json Rat), t.AreOf s i ∧
            lines[k]? = some (t.line i) ∧ entries[k]? = some entry ∧ t.StandIn i entry) ∧
        forall names f, f ∈ ((ofScheme path s).lookUp s names : Report Rat).fields <->
          f.1 ∈ names ∧ f.2 = s.renderField Rat f.1 := by
  refine ⟨_, _, text_inspect path s, get?_colors_inspect path s, ?_, ?_, ?_,
    mem_fields_lookUp_iff path s⟩
  · rw [Colors.indices, List.length_map, List.length_map]
  · rw [Colors.indices, List.length_map, List.length_map]
  · intro k i hk
    rw [Colors.indices, List.getElem?_map, Option.map_eq_some_iff] at hk
    rcases hk with ⟨⟨i, c⟩, hentry, rfl⟩
    have hcolor : s.colors.get? i = some c :=
      s.colors.mem_entries_iff.mp (List.mem_of_getElem? hentry)
    refine ⟨ofColor c, _, FieldTexts.areOf_ofColor hcolor, ?_, ?_, standIn_colorJson i c⟩
    · rw [List.getElem?_map, hentry]
      rfl
    · rw [List.getElem?_map, hentry]
      rfl

def twoColors : Scheme where
  name := ofText "Two"
  author := []
  colors := .ofList
    [(⟨.ofNat 10⟩, ⟨.ofNat 43, .ofNat 48, .ofNat 59⟩), (⟨.ofNat 2⟩, ⟨.ofNat 7, .ofNat 7, .ofNat 7⟩)]
  slug := []

theorem inspection_shows_fields_of_twoColors :
    exists (lines : List Phrase) (t : FieldTexts),
      ((ofScheme "p" twoColors).inspect twoColors : Report Rat).text =
          .ok (joinWith (ofText "\n")
            (((ofScheme "p" twoColors).inspect twoColors : Report Rat).linesAround lines)) ∧
        twoColors.colors.indices[1]? = some ⟨10⟩ ∧ lines[1]? = some (t.line ⟨10⟩) ∧
        AreDigitsOf '0' 'a' 10 ∧ t.saturation = ofText "0.16" ∧
        twoColors.renderField Rat (Scheme.fieldName '0' 'a' "hsl-s") = some (ofText "0.16") := by
  rcases inspection_shows_fields "p" twoColors with ⟨lines, _, htext, _, _, _, hplaces, _⟩
  have hindex : twoColors.colors.indices[1]? = some ⟨10⟩ := rfl
  have hdigits : AreDigitsOf '0' 'a' 10 := ⟨Or.inl rfl, Or.inl rfl⟩
  have hfield : twoColors.renderField Rat (Scheme.fieldName '0' 'a' "hsl-s") =
      some (ofText "0.16") := by
    decide +kernel
  rcases hplaces 1 ⟨10⟩ hindex with ⟨t, _, hfields, hline, _, _⟩
  have hsame := hfields.saturation '0' 'a' hdigits
  rw [hfield] at hsame
  exact ⟨lines, t, htext, hindex, hline, hdigits, (Option.some.inj hsame).symm, hfield⟩

example : (ofColor ⟨43, 48, 59⟩).line ⟨0⟩ =
    ofText "base00  #2b303b  rgb( 43, 48, 59)  hsl(221.25,0.16,0.20)" := by
  decide +kernel

end Report
end Palette
