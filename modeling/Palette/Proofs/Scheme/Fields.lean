import Palette.Proofs.Color.Print
import Palette.Proofs.Field.Grammar
import Palette.Proofs.Scheme.Colors
import Palette.Proofs.Scheme.Validity
import Palette.Proofs.Template.SingleTags
import Palette.Scheme.Basic

/-!
# From the entries of a document to the text of a field

What a colour field shows comes from the last entry of its index: the digits of the value
in lower case, pair by pair, or the bytes that they denote.  Neither the case of the
digits of the key nor that of the digits in the name of the field matters.
-/

namespace Palette

variable {μ : Type}

namespace Document

/-!
# The last entry of an index
-/

theorem not_isKeyOf_of_isHeaderKey {d : Datum μ} (h : IsHeaderKey d) (i : Index) :
    ¬Index.IsKeyOf d i := by
  rintro ⟨high, low, hd, _⟩
  rcases h with h | h
  · rw [h] at hd
    injection hd with hchars
    injection hchars with hfirst _
    cases hfirst
  · rw [h] at hd
    injection hd with hchars
    injection hchars with hfirst _
    cases hfirst

theorem addEntries_cons_eq_ok {e : Datum μ × Datum μ} {rest : List (Datum μ × Datum μ)}
    {m m' : Colors} (h : (addEntries m (e :: rest)).2 = .ok m') :
    (IsHeaderKey e.1 ∧ (addEntries m rest).2 = .ok m') ∨
      exists i c, ¬IsHeaderKey e.1 ∧ decodeEntry e = .ok (i, c) ∧
        (addEntries (m.insert i c) rest).2 = .ok m' := by
  rcases addEntries_cons_cases m e rest with
    ⟨hkey, hrun⟩ | ⟨i, c, hkey, hdecode, hrun⟩ | ⟨fault, _, _, hrun⟩
  · rw [hrun] at h
    exact Or.inl ⟨hkey, h⟩
  · rw [hrun] at h
    exact Or.inr ⟨i, c, hkey, hdecode, h⟩
  · rw [hrun] at h
    cases h

theorem get?_of_unnamed {entries : List (Datum μ × Datum μ)} {i : Index} {m m' : Colors}
    (h : (addEntries m entries).2 = .ok m')
    (hnot : forall e, e ∈ entries -> ¬Index.IsKeyOf e.1 i) : m'.get? i = m.get? i := by
  induction entries generalizing m with
  | nil =>
      cases h
      rfl
  | cons e rest ih =>
      rw [List.forall_mem_cons] at hnot
      rcases addEntries_cons_eq_ok h with ⟨_, hrest⟩ | ⟨j, c, _, hdecode, hrest⟩
      · exact ih hrest hnot.right
      · have hji : j ≠ i := by
          intro hji
          rw [hji] at hdecode
          exact hnot.left (decodeEntry_eq_ok_iff.mp hdecode).left
        rw [ih hrest hnot.right, Colors.get?_insert, if_neg hji]

theorem get?_of_last {before after : List (Datum μ × Datum μ)} {e : Datum μ × Datum μ}
    {i : Index} {c : Rgb} {m m' : Colors}
    (h : (addEntries m (before ++ e :: after)).2 = .ok m')
    (hdecode : decodeEntry e = .ok (i, c))
    (hafter : forall a, a ∈ after -> ¬Index.IsKeyOf a.1 i) : m'.get? i = some c := by
  induction before generalizing m with
  | nil =>
      rcases addEntries_cons_eq_ok h with ⟨hkey, _⟩ | ⟨j, d, _, hother, hrest⟩
      · exact absurd (decodeEntry_eq_ok_iff.mp hdecode).left (not_isKeyOf_of_isHeaderKey hkey i)
      · rw [hdecode] at hother
        cases hother
        rw [get?_of_unnamed hrest hafter, Colors.get?_insert, if_pos rfl]
  | cons first before ih =>
      rcases addEntries_cons_eq_ok h with ⟨_, hrest⟩ | ⟨_, _, _, _, hrest⟩
      · exact ih hrest
      · exact ih hrest

theorem get?_addEntries_eq_none_iff {entries : List (Datum μ × Datum μ)} {i : Index}
    {m m' : Colors} (h : (addEntries m entries).2 = .ok m') :
    m'.get? i = none <->
      m.get? i = none ∧ forall e, e ∈ entries -> ¬Index.IsKeyOf e.1 i := by
  induction entries generalizing m with
  | nil =>
      cases h
      exact (and_iff_left nofun).symm
  | cons e rest ih =>
      rw [List.forall_mem_cons]
      rcases addEntries_cons_eq_ok h with ⟨hkey, hrest⟩ | ⟨j, c, _, hdecode, hrest⟩
      · rw [ih hrest, and_iff_right (not_isKeyOf_of_isHeaderKey hkey i)]
      · rw [ih hrest, Colors.get?_insert]
        have hparse := (decodeEntry_eq_ok_iff.mp hdecode).left
        by_cases hji : j = i
        · rw [if_pos hji]
          rw [hji] at hparse
          exact iff_of_false (fun h => nomatch h.left) fun h => h.right.left hparse
        · have hnot : ¬Index.IsKeyOf e.1 i := by
            intro hkey
            rw [← Index.parse_eq_ok_iff] at hparse hkey
            rw [hparse] at hkey
            injection hkey with hsame
            exact hji hsame
          rw [if_neg hji, and_iff_right hnot]

end Document

namespace Scheme

open Document Text

theorem addEntries_of_ofDatum {entries : List (Datum μ × Datum μ)} {s : Scheme}
    (h : (ofDatum (.mapping entries)).2 = .ok s) :
    (addEntries .empty entries).2 = .ok s.colors := by
  rcases exists_ofDatum_iff.mp ⟨s, h⟩ with ⟨_, name, author, hd, hname, hauthor, _⟩
  cases hd
  rw [ofDatum_of_holds hname hauthor] at h
  cases hadd : (addEntries .empty entries).2 with
  | error fault =>
      rw [hadd] at h
      cases h
  | ok colors =>
      rw [hadd] at h
      cases h
      rfl

/-!
# Names of colour fields
-/

/-- The name of a colour field with the given digits, and a suffix in place of its format. -/
def fieldName (high low : Char) (suffix : String) : String :=
  String.ofList (Index.word ++ high :: low :: '-' :: suffix.toList)

theorem isNamed_fieldName {high low : Char} {suffix : String} {i : Index} {f : Format}
    (hdigits : AreDigitsOf high low i.byte) (hbody : FormatBody suffix.toList f) :
    ColorField.IsNamed (fieldName high low suffix) ⟨i, f⟩ :=
  ⟨high, low, suffix.toList, String.toList_ofList, hdigits.left, hdigits.right, hbody⟩

theorem exists_body_of_isNamed {high low : Char} {suffix : String} {field : ColorField}
    (h : ColorField.IsNamed (fieldName high low suffix) field) :
    FormatBody suffix.toList field.format := by
  rcases h with ⟨_, _, body, hname, _, _, hbody⟩
  rw [fieldName, String.toList_ofList] at hname
  have htail : suffix.toList = body := congrArg (List.drop 7) hname
  rw [htail]
  exact hbody

theorem fieldName_not_mem_literalNames (high low : Char) (suffix : String) :
    fieldName high low suffix ∉ Field.literalNames := by
  have hfirst : (fieldName high low suffix).toList.head? = some 'b' := by
    rw [fieldName, String.toList_ofList]
    rfl
  have hliteral : Field.literalNames.all (fun name => name.toList.head? != some 'b') = true := by
    decide
  intro h
  exact bne_iff_ne.mp (List.all_eq_true.mp hliteral _ h) hfirst

variable (ν : Type) [Scalar ν]

theorem renderField_of_isNamed (s : Scheme) {name : String} {field : ColorField}
    (h : ColorField.IsNamed name field) :
    s.renderField ν name =
      (s.colors.get? field.index).map fun c => .ofText (c.print ν field.format) := by
  rw [renderField, Field.ofText_eq_color_iff.mpr h]
  simp only [color?, Option.map_map]
  rfl

theorem renderField_fieldName (s : Scheme) {high low : Char} {suffix : String} {i : Index}
    {f : Format} (hdigits : AreDigitsOf high low i.byte) (hbody : FormatBody suffix.toList f) :
    s.renderField ν (fieldName high low suffix) =
      (s.colors.get? i).map fun c => .ofText (c.print ν f) := by
  rw [renderField_of_isNamed ν s (isNamed_fieldName hdigits hbody)]

theorem renderField_of_not_body (s : Scheme) (high low : Char) {suffix : String}
    (h : forall f, ¬FormatBody suffix.toList f) :
    s.renderField ν (fieldName high low suffix) = none := by
  have hunparsable : Field.ofText (fieldName high low suffix) = .unparsable := by
    apply Field.ofText_eq_unparsable_iff.mpr
    refine ⟨fieldName_not_mem_literalNames high low suffix, ?_⟩
    intro field hnamed
    exact h field.format (exists_body_of_isNamed hnamed)
  rw [renderField, hunparsable]

/-!
# Printed digits
-/

def lowered (s : List Char) : Phrase :=
  .ofChars (s.map Char.toLower)

theorem map_toLower_of_areDigitsOf {high low : Char} {b : Byte} (h : AreDigitsOf high low b) :
    [high.toLower, low.toLower] = lowerHex b := by
  rw [toLower_of_isDigitOf h.left, toLower_of_isDigitOf h.right, lowerHex]

theorem lowered_pair {high low : Char} {b : Byte} (h : AreDigitsOf high low b) :
    lowered [high, low] = .ofChars (lowerHex b) := by
  rw [← map_toLower_of_areDigitsOf h]
  rfl

theorem lowered_pairs {r₁ r₂ g₁ g₂ b₁ b₂ : Char} {c : Rgb} (hred : AreDigitsOf r₁ r₂ c.red)
    (hgreen : AreDigitsOf g₁ g₂ c.green) (hblue : AreDigitsOf b₁ b₂ c.blue) :
    lowered [r₁, r₂, g₁, g₂, b₁, b₂] = .ofChars c.chars := by
  rw [Rgb.chars, ← map_toLower_of_areDigitsOf hred, ← map_toLower_of_areDigitsOf hgreen,
    ← map_toLower_of_areDigitsOf hblue]
  rfl

theorem ofList_decimal (b : Byte) : String.ofList (Rgb.decimal b) = toString b.val := by
  rw [Rgb.decimal]
  exact Nat.toString_eq_ofList_toDigits.symm

theorem ofText_ofList (s : List Char) : Phrase.ofText (String.ofList s) = .ofChars s := by
  rw [Phrase.ofText, String.toList_ofList]

theorem renderField_of_digits {s : Scheme} {i : Index} {c : Rgb}
    (hcolor : s.colors.get? i = some c) {r₁ r₂ g₁ g₂ b₁ b₂ : Char}
    (hred : AreDigitsOf r₁ r₂ c.red) (hgreen : AreDigitsOf g₁ g₂ c.green)
    (hblue : AreDigitsOf b₁ b₂ c.blue) {high low : Char} (hdigits : AreDigitsOf high low i.byte) :
    s.renderField ν (fieldName high low "hex") = some (lowered [r₁, r₂, g₁, g₂, b₁, b₂]) ∧
      s.renderField ν (fieldName high low "hex-r") = some (lowered [r₁, r₂]) ∧
      s.renderField ν (fieldName high low "hex-g") = some (lowered [g₁, g₂]) ∧
      s.renderField ν (fieldName high low "hex-b") = some (lowered [b₁, b₂]) ∧
      s.renderField ν (fieldName high low "hex-bgr") =
        some (lowered [b₁, b₂, g₁, g₂, r₁, r₂]) ∧
      s.renderField ν (fieldName high low "rgb-r") = some (.ofText (toString c.red.val)) ∧
      s.renderField ν (fieldName high low "rgb-g") = some (.ofText (toString c.green.val)) ∧
      s.renderField ν (fieldName high low "rgb-b") = some (.ofText (toString c.blue.val)) := by
  have hshows : forall (suffix : String) {f : Format}, FormatBody suffix.toList f ->
      s.renderField ν (fieldName high low suffix) = some (.ofText (c.print ν f)) := by
    intro suffix f hbody
    rw [renderField_fieldName ν s hdigits hbody, hcolor, Option.map_some]
  have hreversed : lowered [b₁, b₂, g₁, g₂, r₁, r₂] =
      .ofChars (Rgb.chars ⟨c.blue, c.green, c.red⟩) :=
    lowered_pairs hblue hgreen hred
  rw [lowered_pairs hred hgreen hblue, hreversed, lowered_pair hred, lowered_pair hgreen,
    lowered_pair hblue, ← ofList_decimal, ← ofList_decimal, ← ofList_decimal,
    hshows "hex" FormatBody.hex, hshows "hex-r" (FormatBody.hexChannel ChannelWord.r),
    hshows "hex-g" (FormatBody.hexChannel ChannelWord.g),
    hshows "hex-b" (FormatBody.hexChannel ChannelWord.b), hshows "hex-bgr" FormatBody.hexReversed,
    hshows "rgb-r" (FormatBody.rgb ChannelWord.r), hshows "rgb-g" (FormatBody.rgb ChannelWord.g),
    hshows "rgb-b" (FormatBody.rgb ChannelWord.b)]
  simp only [Rgb.print, ofText_ofList]
  exact ⟨rfl, rfl, rfl, rfl, rfl, rfl, rfl, rfl⟩

/-!
# Colour fields in templates
-/

/-- A character that may stand anywhere in a plain name. -/
def isSolid (c : Char) : Bool :=
  !isBlank c && !Template.isBrace c

theorem isSolid_of_isDigitOf {c : Char} {n : Nat} (h : IsDigitOf c n) : isSolid c = true := by
  have hlower : lowerDigits.all isSolid = true := by decide
  have hupper : upperDigits.all isSolid = true := by decide
  rcases h with h | h
  · exact List.all_eq_true.mp hlower c (List.mem_of_getElem? h)
  · exact List.all_eq_true.mp hupper c (List.mem_of_getElem? h)

theorem isSolid_of_formatBody {body : List Char} {f : Format} (h : FormatBody body f) :
    body.all isSolid = true := by
  cases h with
  | hex =>
      rfl
  | hexReversed =>
      rfl
  | hexChannel hword =>
      cases hword <;> rfl
  | rgb hword =>
      cases hword <;> rfl
  | dec hword =>
      cases hword <;> rfl
  | hsl hword =>
      cases hword <;> rfl

theorem isPlain_of_isNamed {name : String} {field : ColorField}
    (h : ColorField.IsNamed name field) : Template.IsPlain name.toList := by
  rcases h with ⟨high, low, body, hname, hhigh, hlow, hbody⟩
  have hword : Index.word.all isSolid = true := by decide
  have hdash : isSolid '-' = true := by decide
  have hsolid : name.toList.all isSolid = true := by
    rw [hname, List.all_append, List.all_cons, List.all_cons, List.all_cons, hword,
      isSolid_of_isDigitOf hhigh, isSolid_of_isDigitOf hlow, hdash, isSolid_of_formatBody hbody]
    rfl
  have heach : forall c, c ∈ name.toList -> isBlank c = false ∧ Template.isBrace c = false := by
    intro c hc
    have hboth := List.all_eq_true.mp hsolid c hc
    rw [isSolid, Bool.and_eq_true, Bool.not_eq_true', Bool.not_eq_true'] at hboth
    exact hboth
  constructor
  · rw [hname]
    exact List.cons_ne_nil _ _
  · intro c hc
    exact (heach c hc).left
  · intro c hc
    exact (heach c hc).right
  · intro c hc
    rw [hname] at hc
    cases hc
    rfl

theorem render_colorField (s : Scheme) {name : String} {field : ColorField}
    (h : ColorField.IsNamed name field) {value : Phrase}
    (hvalue : s.renderField ν name = some value) :
    Template.render ("\x7b\x7b" ++ name ++ "\x7d\x7d") ⟨s.renderField ν, s.fieldTruthy⟩ =
        .ok value ∧
      Template.render ("\x7b\x7b\x7b" ++ name ++ "\x7d\x7d\x7d")
        ⟨s.renderField ν, s.fieldTruthy⟩ = .ok value := by
  have hplain := isPlain_of_isNamed h
  have hraw : Template.Context.rawValue ⟨s.renderField ν, s.fieldTruthy⟩ name = value := by
    show (s.renderField ν name).getD [] = value
    rw [hvalue, Option.getD_some]
  have hescape : Template.escape value = value := by
    rw [renderField_of_isNamed ν s h] at hvalue
    rcases Option.map_eq_some_iff.mp hvalue with ⟨c, _, htext⟩
    rw [← htext, Rgb.escape_print]
  rw [Template.render_double hplain, Template.render_triple hplain, hraw, hescape]
  exact ⟨rfl, rfl⟩

/-- The fields of an accepted document.  The digits of its last entry of an index show in
the fields of that index, whatever the case of the digits in their names; no other field
that starts like one of a colour is found; and what is found shows in a template. -/
theorem fields_of_document {entries : List (Datum μ × Datum μ)} {s : Scheme}
    (h : (ofDatum (.mapping entries)).2 = .ok s) :
    (forall before k v after, entries = before ++ (k, v) :: after -> ¬IsHeaderKey k ->
      (forall i, Index.IsKeyOf k i -> forall a, a ∈ after -> ¬Index.IsKeyOf a.1 i) ->
      exists (high low r₁ r₂ g₁ g₂ b₁ b₂ : Char) (c : Rgb),
        k = .text (.ofChars (Index.word ++ [high, low])) ∧
        v = .text (.ofChars [r₁, r₂, g₁, g₂, b₁, b₂]) ∧
        AreDigitsOf r₁ r₂ c.red ∧ AreDigitsOf g₁ g₂ c.green ∧ AreDigitsOf b₁ b₂ c.blue ∧
        forall high' low' : Char,
          high'.toLower = high.toLower -> low'.toLower = low.toLower ->
          s.renderField ν (fieldName high' low' "hex") =
            some (lowered [r₁, r₂, g₁, g₂, b₁, b₂]) ∧
          s.renderField ν (fieldName high' low' "hex-r") = some (lowered [r₁, r₂]) ∧
          s.renderField ν (fieldName high' low' "hex-g") = some (lowered [g₁, g₂]) ∧
          s.renderField ν (fieldName high' low' "hex-b") = some (lowered [b₁, b₂]) ∧
          s.renderField ν (fieldName high' low' "hex-bgr") =
            some (lowered [b₁, b₂, g₁, g₂, r₁, r₂]) ∧
          s.renderField ν (fieldName high' low' "rgb-r") = some (.ofText (toString c.red.val)) ∧
          s.renderField ν (fieldName high' low' "rgb-g") = some (.ofText (toString c.green.val)) ∧
          s.renderField ν (fieldName high' low' "rgb-b") = some (.ofText (toString c.blue.val))) ∧
    (forall high low i suffix, AreDigitsOf high low i.byte ->
      (s.renderField ν (fieldName high low suffix) = none <->
        (forall f, ¬FormatBody suffix.toList f) ∨
          forall e, e ∈ entries -> ¬Index.IsKeyOf e.1 i)) ∧
    (forall name field value, ColorField.IsNamed name field -> s.renderField ν name = some value ->
      Template.render ("\x7b\x7b" ++ name ++ "\x7d\x7d") ⟨s.renderField ν, s.fieldTruthy⟩ =
          .ok value ∧
        Template.render ("\x7b\x7b\x7b" ++ name ++ "\x7d\x7d\x7d")
          ⟨s.renderField ν, s.fieldTruthy⟩ = .ok value) := by
  have hadd := addEntries_of_ofDatum h
  refine ⟨?_, ?_, ?_⟩
  · intro before k v after hentries hheader hafter
    rw [hentries] at hadd
    have hsound := exists_addEntries_iff.mp ⟨s.colors, hadd⟩ (k, v)
      (List.mem_append_right before List.mem_cons_self)
    rcases hsound.resolve_left hheader with ⟨hkey, hcode⟩
    rcases Index.exists_parse_iff.mpr hkey with ⟨i, hi⟩
    rcases Rgb.exists_parse_iff.mpr hcode with ⟨c, hc⟩
    have hkeyOf := Index.parse_eq_ok_iff.mp hi
    have hcolor := get?_of_last hadd (decodeEntry_eq_ok_iff.mpr ⟨hkeyOf, hc⟩) (hafter i hkeyOf)
    rcases hkeyOf with ⟨high, low, hk, hdigits⟩
    rcases Rgb.parse_eq_ok_iff.mp hc with ⟨digits, hv, hpairs⟩
    rcases Rgb.ofDigits?_eq_some_iff.mp hpairs with
      ⟨r₁, r₂, g₁, g₂, b₁, b₂, hlist, hred, hgreen, hblue⟩
    rw [hlist] at hv
    refine ⟨high, low, r₁, r₂, g₁, g₂, b₁, b₂, c, hk, hv, hred, hgreen, hblue, ?_⟩
    intro high' low' hhigh hlow
    have hrespelled : AreDigitsOf high' low' i.byte :=
      ⟨isDigitOf_of_toLower_eq hdigits.left hhigh, isDigitOf_of_toLower_eq hdigits.right hlow⟩
    exact renderField_of_digits ν hcolor hred hgreen hblue hrespelled
  · intro high low i suffix hdigits
    have hempty : Colors.empty.get? i = none := rfl
    have hnone := get?_addEntries_eq_none_iff (i := i) hadd
    rw [and_iff_right hempty] at hnone
    by_cases hbody : exists f, FormatBody suffix.toList f
    · rcases hbody with ⟨f, hf⟩
      rw [renderField_fieldName ν s hdigits hf, Option.map_eq_none_iff, hnone]
      constructor
      · exact Or.inr
      · intro hcases
        exact hcases.resolve_left fun hnot => hnot f hf
    · have hnot : forall f, ¬FormatBody suffix.toList f := fun f hf => hbody ⟨f, hf⟩
      exact iff_of_true (renderField_of_not_body ν s high low hnot) (Or.inl hnot)
  · intro name field value hnamed hvalue
    exact render_colorField ν s hnamed hvalue

def oneColor : List (Datum Empty × Datum Empty) :=
  [(.text (.ofText nameKey), .text (.ofChars ['x'])),
    (.text (.ofText authorKey), .text (.ofChars ['y'])),
    (.text (.ofChars ['b', 'a', 's', 'e', '0', 'a']),
      .text (.ofChars ['A', '0', 'b', '1', 'C', '2']))]

def oneColorScheme : Scheme :=
  ⟨.ofChars ['x'], .ofChars ['y'], Colors.empty.insert ⟨10⟩ ⟨160, 177, 194⟩, []⟩

theorem fields_of_document_of_oneColor :
    (ofDatum (.mapping oneColor)).2 = .ok oneColorScheme ∧
      oneColorScheme.renderField Float (fieldName '0' 'A' "hex-bgr") =
        some (.ofChars ['c', '2', 'b', '1', 'a', '0']) ∧
      Template.render ("\x7b\x7b" ++ fieldName '0' 'A' "hex" ++ "\x7d\x7d")
          ⟨oneColorScheme.renderField Float, oneColorScheme.fieldTruthy⟩ =
        .ok (.ofChars ['a', '0', 'b', '1', 'c', '2']) := by
  have haccepted : (ofDatum (.mapping oneColor)).2 = .ok oneColorScheme := rfl
  have hheader : ¬IsHeaderKey (.text (.ofChars ['b', 'a', 's', 'e', '0', 'a']) : Datum Empty) := by
    simp [IsHeaderKey, Phrase.ofText, Phrase.ofChars, nameKey, authorKey]
  rcases fields_of_document Float haccepted with ⟨hlast, _, htemplate⟩
  have hafter : forall i,
      Index.IsKeyOf (.text (.ofChars ['b', 'a', 's', 'e', '0', 'a']) : Datum Empty) i ->
      forall a : Datum Empty × Datum Empty, a ∈ [] -> ¬Index.IsKeyOf a.1 i := by
    intro i _ a ha
    cases ha
  rcases hlast (oneColor.take 2) _ _ [] rfl hheader hafter with
    ⟨high, low, r₁, r₂, g₁, g₂, b₁, b₂, c, hk, hv, _, _, _, hrender⟩
  simp [Phrase.ofChars, Index.word] at hk hv
  rcases hk with ⟨rfl, rfl⟩
  rcases hv with ⟨rfl, rfl, rfl, rfl, rfl, rfl⟩
  rcases hrender '0' 'A' rfl rfl with ⟨hhex, _, _, _, hreversed, _⟩
  have hnamed : ColorField.IsNamed (fieldName '0' 'A' "hex") ⟨⟨10⟩, ⟨.hex, .rgb⟩⟩ :=
    isNamed_fieldName ⟨Or.inl rfl, Or.inr rfl⟩ FormatBody.hex
  exact ⟨haccepted, hreversed, (htemplate _ _ _ hnamed hhex).left⟩

end Scheme
end Palette
