import Palette.Field.Name
import Palette.Proofs.Text.HexDigits

/-!
# The grammar of field names

The reader of field names accepts what the grammar of colour fields generates, with
the field that it denotes.  What is printed for a field is its one name with digits
in upper case, so printing a field that was read gives the name back up to the case
of its two digits.
-/

namespace Palette

open Text

/-!
# Formats

A format is a word, or a word and a selector behind a dash.
-/

inductive ChannelWord : List Char → Variant → Prop where
  | r : ChannelWord ['r'] .r
  | g : ChannelWord ['g'] .g
  | b : ChannelWord ['b'] .b

inductive PartWord : List Char → Variant → Prop where
  | h : PartWord ['h'] .h
  | s : PartWord ['s'] .s
  | l : PartWord ['l'] .l

/-- The texts of formats and what they denote. -/
inductive FormatBody : List Char → Format → Prop where
  | hex : FormatBody ['h', 'e', 'x'] ⟨.hex, .rgb⟩
  | hexChannel {word : List Char} {v : Variant} :
      ChannelWord word v → FormatBody ('h' :: 'e' :: 'x' :: '-' :: word) ⟨.hex, v⟩
  | hexReversed : FormatBody ['h', 'e', 'x', '-', 'b', 'g', 'r'] ⟨.hex, .bgr⟩
  | rgb {word : List Char} {v : Variant} :
      ChannelWord word v → FormatBody ('r' :: 'g' :: 'b' :: '-' :: word) ⟨.rgb, v⟩
  | dec {word : List Char} {v : Variant} :
      ChannelWord word v → FormatBody ('d' :: 'e' :: 'c' :: '-' :: word) ⟨.dec, v⟩
  | hsl {word : List Char} {v : Variant} :
      PartWord word v → FormatBody ('h' :: 's' :: 'l' :: '-' :: word) ⟨.hsl, v⟩

theorem Kind.text_of_ofChars? {s : List Char} {kind : Kind} (h : Kind.ofChars? s = some kind) :
    s = kind.text.toList := by
  unfold Kind.ofChars? at h
  split at h
  all_goals cases h
  all_goals rfl

theorem Variant.text_of_ofChars? {s : List Char} {v : Variant} (h : Variant.ofChars? s = some v) :
    s = v.text.toList := by
  unfold Variant.ofChars? at h
  split at h
  all_goals cases h
  all_goals rfl

namespace Format

def joinDash : List Char × Option (List Char) → List Char
  | (word, none) => word
  | (word, some selector) => word ++ '-' :: selector

theorem joinDash_splitDash (s : List Char) : joinDash (splitDash s) = s := by
  induction s with
  | nil =>
      rfl
  | cons c rest ih =>
      rw [splitDash]
      by_cases hc : c = '-'
      · rw [if_pos hc, hc]
        rfl
      · rw [if_neg hc]
        cases hsplit : splitDash rest with
        | mk word selector =>
            rw [hsplit] at ih
            rw [← ih]
            cases selector <;> rfl

theorem ofText?_text (f : Format) : ofText? f.text = if f.isSupported then some f else none := by
  cases f with
  | mk kind v =>
      cases kind <;> cases v <;> rfl

theorem text_of_ofChars? {s : List Char} {f : Format} (h : ofChars? s = some f) :
    f.isSupported = true ∧ s = f.text.toList := by
  have hjoin := joinDash_splitDash s
  unfold ofChars? at h
  cases hsplit : splitDash s with
  | mk word selector =>
      rw [hsplit] at h hjoin
      cases hkind : Kind.ofChars? word with
      | none =>
          simp [hkind] at h
      | some kind =>
          have hword := Kind.text_of_ofChars? hkind
          cases selector with
          | none =>
              simp only [hkind] at h
              split at h
              case isTrue hhex =>
                injection h with hf
                rw [← hf, ← hjoin, joinDash, hword, hhex]
                exact ⟨rfl, rfl⟩
              case isFalse =>
                cases h
          | some suffix =>
              cases hvariant : Variant.ofChars? suffix with
              | none =>
                  simp [hkind, hvariant] at h
              | some v =>
                  have hsuffix := Variant.text_of_ofChars? hvariant
                  simp only [hkind, hvariant] at h
                  split at h
                  case isTrue =>
                    cases h
                  case isFalse hlegal =>
                    injection h with hf
                    rw [← hf, ← hjoin, joinDash, hword, hsuffix]
                    cases kind <;> cases v <;> first
                      | exact ⟨rfl, rfl⟩
                      | exact absurd (by decide) hlegal

theorem body_text_of_isSupported {f : Format} (h : f.isSupported = true) :
    FormatBody f.text.toList f := by
  cases f with
  | mk kind v =>
      cases kind with
      | hex =>
          cases v with
          | rgb => exact FormatBody.hex
          | r => exact FormatBody.hexChannel ChannelWord.r
          | g => exact FormatBody.hexChannel ChannelWord.g
          | b => exact FormatBody.hexChannel ChannelWord.b
          | bgr => exact FormatBody.hexReversed
          | _ => cases h
      | rgb =>
          cases v with
          | r => exact FormatBody.rgb ChannelWord.r
          | g => exact FormatBody.rgb ChannelWord.g
          | b => exact FormatBody.rgb ChannelWord.b
          | _ => cases h
      | dec =>
          cases v with
          | r => exact FormatBody.dec ChannelWord.r
          | g => exact FormatBody.dec ChannelWord.g
          | b => exact FormatBody.dec ChannelWord.b
          | _ => cases h
      | hsl =>
          cases v with
          | h => exact FormatBody.hsl PartWord.h
          | s => exact FormatBody.hsl PartWord.s
          | l => exact FormatBody.hsl PartWord.l
          | _ => cases h

theorem ofChars?_eq_some_iff {s : List Char} {f : Format} :
    ofChars? s = some f <-> FormatBody s f := by
  constructor
  · intro h
    rcases text_of_ofChars? h with ⟨hsupported, hs⟩
    rw [hs]
    exact body_text_of_isSupported hsupported
  · intro h
    cases h with
    | hex => rfl
    | hexReversed => rfl
    | hexChannel hword => cases hword <;> rfl
    | rgb hword => cases hword <;> rfl
    | dec hword => cases hword <;> rfl
    | hsl hword => cases hword <;> rfl

end Format

/-!
# Colour fields
-/

theorem Index.afterWord?_eq_some_iff {s rest : List Char} :
    afterWord? s = some rest <-> s = word ++ rest := by
  constructor
  · intro h
    unfold afterWord? at h
    split at h
    · cases h
      rfl
    · cases h
  · intro h
    rw [h]
    rfl

namespace ColorField

/-- A name of a colour field is the word of an index, a digit of either case for each
half of the byte, a dash and the text of the format. -/
def IsNamed (name : String) (field : ColorField) : Prop :=
  exists high low body,
    name.toList = Index.word ++ high :: low :: '-' :: body ∧
      IsDigitOf high (field.index.byte.val / 16) ∧
      IsDigitOf low (field.index.byte.val % 16) ∧
      FormatBody body field.format

/-- A name with the two characters behind the word of an index in upper case. -/
def upperName (name : String) : String :=
  String.ofList
    (name.toList.take 4 ++ ((name.toList.drop 4).take 2).map Char.toUpper ++ name.toList.drop 6)

/-- A phrase is a name of a colour field. -/
def Denotes (name : Phrase) (field : ColorField) : Prop :=
  exists text, name = .ofText text ∧ IsNamed text field

theorem denotes_ofText_iff {text : String} {field : ColorField} :
    Denotes (.ofText text) field <-> IsNamed text field := by
  constructor
  · rintro ⟨other, heq, h⟩
    rw [Phrase.ofText_injective heq]
    exact h
  · intro h
    exact ⟨text, rfl, h⟩

def upperPoint : CodePoint → CodePoint
  | .char c => .char c.toUpper
  | .surrogate s => .surrogate s

def upperDigits (name : Phrase) : Phrase :=
  name.take 4 ++ ((name.drop 4).take 2).map upperPoint ++ name.drop 6

theorem upperDigits_ofText (text : String) :
    upperDigits (.ofText text) = .ofText (upperName text) := by
  have hupper : forall s : List Char, (Phrase.ofChars s).map upperPoint =
      Phrase.ofChars (s.map Char.toUpper) := by
    intro s
    rw [Phrase.ofChars, Phrase.ofChars, List.map_map, List.map_map]
    rfl
  have htake : forall (n : Nat) (s : List Char), (Phrase.ofChars s).take n =
      Phrase.ofChars (s.take n) := fun _ _ => List.map_take.symm
  have hdrop : forall (n : Nat) (s : List Char), (Phrase.ofChars s).drop n =
      Phrase.ofChars (s.drop n) := fun _ _ => List.map_drop.symm
  rw [upperDigits, upperName, Phrase.ofText, Phrase.ofText, String.toList_ofList, htake, hdrop,
    htake, hdrop, hupper]
  simp only [Phrase.ofChars, List.map_append]

theorem ofText?_eq_some_iff {name : String} {field : ColorField} :
    ofText? name = some field <-> IsNamed name field := by
  constructor
  · intro h
    unfold ofText? ofChars? at h
    split at h
    case h_1 high low body hword =>
      split at h
      case h_1 byte format hbyte hformat =>
        injection h with hfield
        rw [← hfield]
        rcases byteOfHex?_eq_some_iff.mp hbyte with ⟨hhigh, hlow⟩
        exact ⟨high, low, body, Index.afterWord?_eq_some_iff.mp hword, hhigh, hlow,
          Format.ofChars?_eq_some_iff.mp hformat⟩
      case h_2 =>
        cases h
    case h_2 =>
      cases h
  · rintro ⟨high, low, body, hname, hhigh, hlow, hbody⟩
    have hbyte : byteOfHex? high low = some field.index.byte :=
      byteOfHex?_eq_some_iff.mpr ⟨hhigh, hlow⟩
    unfold ofText? ofChars?
    rw [Index.afterWord?_eq_some_iff.mpr hname]
    simp only [hbyte, Format.ofChars?_eq_some_iff.mpr hbody]

theorem toList_text (field : ColorField) :
    field.text.toList =
      Index.word ++ upperHex field.index.byte ++ '-' :: field.format.text.toList := by
  simp [text, Index.text, Index.chars]

theorem text_of_isNamed {name : String} {field : ColorField} (h : IsNamed name field) :
    field.text = upperName name := by
  rcases h with ⟨high, low, body, hname, hhigh, hlow, hbody⟩
  rcases Format.text_of_ofChars? (Format.ofChars?_eq_some_iff.mpr hbody) with ⟨_, htext⟩
  have hupper := toUpper_of_byteOfHex? (byteOfHex?_eq_some_iff.mpr ⟨hhigh, hlow⟩)
  apply String.ext
  rw [toList_text, ← hupper, ← htext, upperName, String.toList_ofList, hname]
  rfl

theorem isNamed_text {field : ColorField} (h : field.format.isSupported = true) :
    IsNamed field.text field := by
  rcases byteOfHex?_eq_some_iff.mp (byteOfHex?_upperHex field.index.byte) with ⟨hhigh, hlow⟩
  refine ⟨_, _, field.format.text.toList, ?_, hhigh, hlow, Format.body_text_of_isSupported h⟩
  rw [toList_text]
  rfl

theorem eq_iff_upperName_eq {name other : String} {field otherField : ColorField}
    (h : IsNamed name field) (ho : IsNamed other otherField) :
    field = otherField <-> upperName name = upperName other := by
  rw [← text_of_isNamed h, ← text_of_isNamed ho]
  constructor
  · intro heq
    rw [heq]
  · intro htext
    rcases h with ⟨_, _, _, _, _, _, hbody⟩
    rcases ho with ⟨_, _, _, _, _, _, hbody'⟩
    have hsupported := (Format.text_of_ofChars? (Format.ofChars?_eq_some_iff.mpr hbody)).left
    have hsupported' := (Format.text_of_ofChars? (Format.ofChars?_eq_some_iff.mpr hbody')).left
    have hread := ofText?_eq_some_iff.mpr (isNamed_text hsupported)
    have hread' := ofText?_eq_some_iff.mpr (isNamed_text hsupported')
    rw [htext, hread'] at hread
    injection hread with hfield
    exact hfield.symm

theorem ofText?_text (field : ColorField) :
    ofText? field.text = if field.format.isSupported then some field else none := by
  by_cases hsupported : field.format.isSupported = true
  · rw [if_pos hsupported]
    exact ofText?_eq_some_iff.mpr (isNamed_text hsupported)
  · rw [if_neg hsupported]
    cases hread : ofText? field.text with
    | none =>
        rfl
    | some other =>
        rcases ofText?_eq_some_iff.mp hread with ⟨high, low, body, hname, _, _, hbody⟩
        rw [toList_text] at hname
        have htail : field.format.text.toList = body := congrArg (List.drop 7) hname
        have hformat := Format.ofChars?_eq_some_iff.mpr hbody
        have hself := Format.ofText?_text field.format
        rw [Format.ofText?, htail, hformat, if_neg hsupported] at hself
        cases hself

end ColorField

/-!
# Any field
-/

theorem ColorField.parse_text {ν : Type} (name : Phrase) :
    ColorField.parse (.text name : Datum ν) =
      match name.text?.bind ColorField.ofText? with
      | some field => .ok field
      | none => .error ⟨.text name⟩ :=
  rfl

theorem ColorField.bind_text?_eq_some_iff {name : Phrase} {field : ColorField} :
    name.text?.bind ColorField.ofText? = some field <-> ColorField.Denotes name field := by
  simp only [Option.bind_eq_some_iff, Phrase.text?_eq_some_iff, ColorField.ofText?_eq_some_iff,
    ColorField.Denotes]

theorem ColorField.parse_eq_ok_iff {ν : Type} {name : Phrase} {field : ColorField} :
    ColorField.parse (.text name : Datum ν) = .ok field <-> ColorField.Denotes name field := by
  rw [ColorField.parse_text, ← ColorField.bind_text?_eq_some_iff]
  cases name.text?.bind ColorField.ofText? with
  | none => simp
  | some other => simp

theorem ColorField.parse_eq_error_iff {ν : Type} {name : Phrase} :
    ColorField.parse (.text name : Datum ν) = .error ⟨.text name⟩ <->
      forall field, ¬ColorField.Denotes name field := by
  simp only [← ColorField.bind_text?_eq_some_iff]
  rw [ColorField.parse_text]
  cases name.text?.bind ColorField.ofText? with
  | none => simp
  | some other => simp

namespace Field

def literalNames : List String :=
  ["scheme", "scheme-name", "scheme-author", "scheme-slug"]

theorem ofText?_eq_none_of_mem {name : String} (h : name ∈ literalNames) :
    ColorField.ofText? name = none := by
  simp only [literalNames, List.mem_cons, List.not_mem_nil, or_false] at h
  rcases h with rfl | rfl | rfl | rfl
  all_goals rfl

theorem ofText_of_not_mem {name : String} (h : name ∉ literalNames) :
    ofText name =
      match ColorField.ofText? name with
      | some field => color field
      | none => unparsable := by
  simp only [literalNames, List.mem_cons, List.not_mem_nil, or_false, not_or] at h
  rcases h with ⟨hscheme, hname, hauthor, hslug⟩
  have hnone : ¬(name = "scheme-name" ∨ name = "scheme") := by simp [hscheme, hname]
  exact (if_neg hnone).trans ((if_neg hauthor).trans (if_neg hslug))

theorem ofText_eq_color_iff {name : String} {field : ColorField} :
    ofText name = color field <-> ColorField.IsNamed name field := by
  rw [← ColorField.ofText?_eq_some_iff]
  by_cases hmem : name ∈ literalNames
  · rw [ofText?_eq_none_of_mem hmem]
    simp only [literalNames, List.mem_cons, List.not_mem_nil, or_false] at hmem
    constructor
    · intro h
      rcases hmem with rfl | rfl | rfl | rfl
      all_goals cases h
    · intro h
      cases h
  · rw [ofText_of_not_mem hmem]
    cases ColorField.ofText? name with
    | none =>
        constructor
        · intro h
          cases h
        · intro h
          cases h
    | some other =>
        constructor
        · intro h
          injection h with hfield
          rw [hfield]
        · intro h
          injection h with hfield
          rw [hfield]

theorem ofText_eq_unparsable_iff {name : String} :
    ofText name = unparsable <->
      name ∉ literalNames ∧ forall field, ¬ColorField.IsNamed name field := by
  constructor
  · intro h
    constructor
    · intro hmem
      simp only [literalNames, List.mem_cons, List.not_mem_nil, or_false] at hmem
      rcases hmem with rfl | rfl | rfl | rfl
      all_goals cases h
    · intro field hnamed
      rw [ofText_eq_color_iff.mpr hnamed] at h
      cases h
  · rintro ⟨hmem, hnone⟩
    rw [ofText_of_not_mem hmem]
    cases hread : ColorField.ofText? name with
    | none =>
        rfl
    | some field =>
        exact absurd (ColorField.ofText?_eq_some_iff.mp hread) (hnone field)

theorem ofText_eq_literal_iff (name : String) :
    (ofText name = schemeName <-> name = "scheme" ∨ name = "scheme-name") ∧
      (ofText name = schemeAuthor <-> name = "scheme-author") ∧
      (ofText name = schemeSlug <-> name = "scheme-slug") := by
  by_cases hmem : name ∈ literalNames
  · simp only [literalNames, List.mem_cons, List.not_mem_nil, or_false] at hmem
    rcases hmem with rfl | rfl | rfl | rfl
    all_goals decide
  · rw [ofText_of_not_mem hmem]
    simp only [literalNames, List.mem_cons, List.not_mem_nil, or_false, not_or] at hmem
    rcases hmem with ⟨hscheme, hname, hauthor, hslug⟩
    cases ColorField.ofText? name with
    | none =>
        simp [hscheme, hname, hauthor, hslug]
    | some field =>
        simp [hscheme, hname, hauthor, hslug]

theorem ofPhrase_eq_iff {name : Phrase} {f : Field} (hf : f ≠ unparsable) :
    ofPhrase name = f <-> exists text, name = .ofText text ∧ ofText text = f := by
  rw [ofPhrase]
  constructor
  · intro h
    split at h
    case h_1 text htext =>
      exact ⟨text, Phrase.text?_eq_some_iff.mp htext, h⟩
    case h_2 =>
      exact absurd h.symm hf
  · rintro ⟨text, rfl, h⟩
    rw [Phrase.text?_eq_some_iff.mpr rfl]
    exact h

theorem ofPhrase_ofText (text : String) : ofPhrase (.ofText text) = ofText text := by
  rw [ofPhrase, Phrase.text?_eq_some_iff.mpr rfl]

theorem ofPhrase_eq_color_iff {name : Phrase} {field : ColorField} :
    ofPhrase name = color field <-> ColorField.Denotes name field := by
  have hparsed : color field ≠ unparsable := nofun
  rw [ofPhrase_eq_iff hparsed]
  simp only [ofText_eq_color_iff, ColorField.Denotes]

theorem ofPhrase_eq_unparsable_iff {name : Phrase} :
    ofPhrase name = unparsable <->
      name ∉ literalNames.map .ofText ∧ forall field, ¬ColorField.Denotes name field := by
  cases htext : name.text? with
  | none =>
      have hno : forall text, name ≠ .ofText text := by
        intro text heq
        rw [Phrase.text?_eq_some_iff.mpr heq] at htext
        cases htext
      have hunparsable : ofPhrase name = unparsable := by
        rw [ofPhrase, htext]
      refine iff_of_true hunparsable ⟨fun hmem => ?_, fun field hdenotes => ?_⟩
      · rcases List.mem_map.mp hmem with ⟨text, _, heq⟩
        exact hno text heq.symm
      · rcases hdenotes with ⟨text, heq, _⟩
        exact hno text heq
  | some text =>
      have hname := Phrase.text?_eq_some_iff.mp htext
      have hmem : name ∈ literalNames.map .ofText <-> text ∈ literalNames := by
        rw [List.mem_map, hname]
        constructor
        · rintro ⟨other, hother, heq⟩
          rw [← Phrase.ofText_injective heq]
          exact hother
        · intro hother
          exact ⟨text, hother, rfl⟩
      rw [hmem, hname, ofPhrase_ofText, ofText_eq_unparsable_iff]
      simp only [ColorField.denotes_ofText_iff]

/-- A name is read as what the grammar says that it denotes, both among all fields and
by the strict reader of colour fields, which refuses any other name.  The text of a
colour field that was read is its name with both digits in upper case, so that names of
one field differ in the case of these digits only; and the text of any colour field is
read back exactly if its format is supported. -/
theorem reads_exactly_grammar (ν : Type) (name : Phrase) :
    (ofDatum (.text name : Datum ν) = .ok (ofPhrase name)) ∧
      (ofPhrase name = schemeName <-> name = .ofText "scheme" ∨ name = .ofText "scheme-name") ∧
      (ofPhrase name = schemeAuthor <-> name = .ofText "scheme-author") ∧
      (ofPhrase name = schemeSlug <-> name = .ofText "scheme-slug") ∧
      (forall field, ofPhrase name = color field <-> ColorField.Denotes name field) ∧
      (ofPhrase name = unparsable <->
        name ∉ literalNames.map .ofText ∧ forall field, ¬ColorField.Denotes name field) ∧
      (forall field, ColorField.parse (.text name : Datum ν) = .ok field <->
        ofPhrase name = color field) ∧
      (ColorField.parse (.text name : Datum ν) = .error ⟨.text name⟩ <->
        forall field, ofPhrase name ≠ color field) ∧
      (forall field, ColorField.Denotes name field ->
        .ofText field.text = ColorField.upperDigits name) ∧
      (forall field other otherField,
        ColorField.Denotes name field -> ColorField.Denotes other otherField ->
          (field = otherField <->
            ColorField.upperDigits name = ColorField.upperDigits other)) ∧
      (forall field : ColorField, ColorField.parse (.text (.ofText field.text) : Datum ν) =
        if field.format.isSupported then .ok field
        else .error ⟨.text (.ofText field.text)⟩) ∧
      forall text, ofPhrase (.ofText text) = ofText text := by
  refine ⟨rfl, ?_, ?_, ?_, fun _ => ofPhrase_eq_color_iff, ofPhrase_eq_unparsable_iff, ?_, ?_, ?_,
    ?_, ?_, ofPhrase_ofText⟩
  · have hparsed : schemeName ≠ unparsable := nofun
    rw [ofPhrase_eq_iff hparsed]
    simp only [(ofText_eq_literal_iff _).left, and_or_left, exists_or, exists_eq_right]
  · have hparsed : schemeAuthor ≠ unparsable := nofun
    rw [ofPhrase_eq_iff hparsed]
    simp only [(ofText_eq_literal_iff _).right.left, exists_eq_right]
  · have hparsed : schemeSlug ≠ unparsable := nofun
    rw [ofPhrase_eq_iff hparsed]
    simp only [(ofText_eq_literal_iff _).right.right, exists_eq_right]
  · intro field
    rw [ofPhrase_eq_color_iff, ColorField.parse_eq_ok_iff]
  · simp only [ne_eq, ofPhrase_eq_color_iff, ColorField.parse_eq_error_iff]
  · rintro field ⟨text, rfl, hnamed⟩
    rw [ColorField.upperDigits_ofText, ColorField.text_of_isNamed hnamed]
  · rintro field _ otherField ⟨text, rfl, hnamed⟩ ⟨other, rfl, hother⟩
    rw [ColorField.upperDigits_ofText, ColorField.upperDigits_ofText,
      ColorField.eq_iff_upperName_eq hnamed hother, Phrase.ofText_injective.eq_iff]
  · intro field
    rw [ColorField.parse_text, Phrase.text?_eq_some_iff.mpr rfl, Option.bind_some,
      ColorField.ofText?_text]
    by_cases hsupported : field.format.isSupported = true
    · rw [if_pos hsupported, if_pos hsupported]
    · rw [if_neg hsupported, if_neg hsupported]

/-- Two spellings of one field. -/
theorem reads_exactly_grammar_of_two_cases :
    ColorField.Denotes (.ofText "base0a-hex-bgr") ⟨⟨10⟩, ⟨.hex, .bgr⟩⟩ ∧
      ColorField.Denotes (.ofText "base0A-hex-bgr") ⟨⟨10⟩, ⟨.hex, .bgr⟩⟩ ∧
      .ofText (⟨⟨10⟩, ⟨.hex, .bgr⟩⟩ : ColorField).text =
        ColorField.upperDigits (.ofText "base0a-hex-bgr") ∧
      ColorField.upperDigits (.ofText "base0a-hex-bgr") =
        ColorField.upperDigits (.ofText "base0A-hex-bgr") := by
  rcases reads_exactly_grammar Empty (.ofText "base0a-hex-bgr") with
    ⟨_, _, _, _, hcolor, _, _, _, htext, hsame, _⟩
  have hlower : ColorField.Denotes (.ofText "base0a-hex-bgr") ⟨⟨10⟩, ⟨.hex, .bgr⟩⟩ :=
    (hcolor _).mp rfl
  have hupper : ColorField.Denotes (.ofText "base0A-hex-bgr") ⟨⟨10⟩, ⟨.hex, .bgr⟩⟩ :=
    ColorField.denotes_ofText_iff.mpr (ColorField.ofText?_eq_some_iff.mp rfl)
  exact ⟨hlower, hupper, htext _ hlower, (hsame _ _ _ hlower hupper).mp rfl⟩

end Field

end Palette
