import Palette.Proofs.Scheme.Codes
import Palette.Proofs.Scheme.Colors
import Palette.Proofs.Scheme.Document
import Palette.Proofs.Yaml.RoundTrip
import Palette.Scheme.Text

/-!
# Reading a scheme that was written

A scheme is written as a mapping of texts.  The name and the author are read back
unless they hold a next-line character and stand in single quotes; the keys of the
colours and the colours themselves are always read back.
-/

namespace Palette

variable {ν : Type}

/-!
# Codes
-/

theorem Index.parse_chars (i : Index) :
    (Index.parse (.text (.ofChars i.chars)) : Except (CodeFault ν) Index) = .ok i :=
  Index.parse_eq_ok_iff.mpr ⟨_, _, rfl, Text.byteOfHex?_iff.mp (Text.byteOfHex?_upperHex i.byte)⟩

theorem Rgb.parse_chars (c : Rgb) :
    (Rgb.parse (.text (.ofChars c.chars)) : Except (CodeFault ν) Rgb) = .ok c := by
  have hpair : forall b : Byte, Text.AreDigitsOf (Text.lowerHexDigit (b.val / 16))
      (Text.lowerHexDigit (b.val % 16)) b := by
    intro b
    exact Text.byteOfHex?_iff.mp (Text.byteOfHex?_lowerHex b)
  have hdigits : Rgb.ofDigits? c.chars = some c :=
    Rgb.ofDigits?_eq_some_iff.mpr
      ⟨_, _, _, _, _, _, rfl, hpair c.red, hpair c.green, hpair c.blue⟩
  exact Rgb.parse_eq_ok_iff.mpr ⟨c.chars, rfl, hdigits⟩

theorem Index.chars_injective {i j : Index} (h : i.chars = j.chars) : i = j := by
  have hi : (Index.parse (.text (.ofChars i.chars)) : Except (CodeFault Unit) Index) = .ok i :=
    Index.parse_chars i
  rw [h, Index.parse_chars] at hi
  injection hi with hij
  exact hij.symm

theorem Index.isAlphanum_of_mem_chars {i : Index} {c : Char} (h : c ∈ i.chars) :
    c.isAlphanum = true := by
  have hword : Index.word.all Char.isAlphanum = true := by decide
  have hdigit : forall n : Fin 16, (Text.upperHexDigit n.val).isAlphanum = true := by decide
  have hlt := i.byte.isLt
  rw [Index.chars, Text.upperHex, List.mem_append, List.mem_cons, List.mem_singleton] at h
  rcases h with h | h | h
  · exact List.all_eq_true.mp hword c h
  · rw [h]
    exact hdigit ⟨i.byte.val / 16, by omega⟩
  · rw [h]
    exact hdigit ⟨i.byte.val % 16, by omega⟩

theorem Rgb.nextLine_not_mem_chars (c : Rgb) : Yaml.nextLine ∉ c.chars := by
  have hdigit : forall n : Fin 16, Yaml.nextLine ≠ Text.lowerHexDigit n.val := by decide
  have hbyte : forall b : Byte, Yaml.nextLine ∉ Text.lowerHex b := by
    intro b hmem
    have hlt := b.isLt
    rw [Text.lowerHex, List.mem_cons, List.mem_singleton] at hmem
    rcases hmem with hmem | hmem
    · exact hdigit ⟨b.val / 16, by omega⟩ hmem
    · exact hdigit ⟨b.val % 16, by omega⟩ hmem
  rw [Rgb.chars, List.mem_append, List.mem_append]
  rintro ((hmem | hmem) | hmem)
  · exact hbyte c.red hmem
  · exact hbyte c.green hmem
  · exact hbyte c.blue hmem

/-!
# The entries of a scheme
-/

namespace Scheme

def writtenColors (m : Colors) : List (List Char × List Char) :=
  m.entries.map fun e => (e.1.chars, e.2.chars)

def writtenEntries (name author : String) (m : Colors) : List (List Char × List Char) :=
  (Document.nameKey.toList, name.toList) :: (Document.authorKey.toList, author.toList) ::
    writtenColors m

theorem dump_eq (name author : String) (m : Colors) (slug : Phrase) :
    (dump ⟨.ofText name, .ofText author, m, slug⟩).toList =
      Yaml.write ((writtenEntries name author m).map fun e => (e.1, .ofChars e.2)) := by
  have hcolors : (m.entries.map fun e => (e.1.text, Phrase.ofText e.2.text)).map
      (fun e => (e.1.toList, e.2)) =
      (writtenColors m).map fun e => (e.1, Phrase.ofChars e.2) := by
    rw [writtenColors, List.map_map, List.map_map]
    apply List.map_congr_left
    intro e _
    show (e.1.text.toList, Phrase.ofChars e.2.text.toList) = (e.1.chars, Phrase.ofChars e.2.chars)
    rw [Index.text, Rgb.text, String.toList_ofList, String.toList_ofList]
  rw [dump, String.toList_ofList, toPairs]
  show Yaml.write ((Document.nameKey.toList, Phrase.ofText name) ::
    (Document.authorKey.toList, Phrase.ofText author) ::
      (m.entries.map fun e => (e.1.text, Phrase.ofText e.2.text)).map
        fun e => (e.1.toList, e.2)) = _
  rw [hcolors]
  rfl

theorem isKey_writtenEntries (name author : String) (m : Colors) :
    forall e, e ∈ writtenEntries name author m -> Yaml.Scanner.IsKey e.1 := by
  have hname : Yaml.Scanner.IsKey Document.nameKey.toList :=
    Yaml.Scanner.isKey_of_all (by decide) (by decide) (by decide)
  have hauthor : Yaml.Scanner.IsKey Document.authorKey.toList :=
    Yaml.Scanner.isKey_of_all (by decide) (by decide) (by decide)
  intro e he
  rw [writtenEntries, List.mem_cons, List.mem_cons] at he
  rcases he with he | he | he
  · rw [he]
    exact hname
  · rw [he]
    exact hauthor
  · rcases List.mem_map.mp he with ⟨d, _, hd⟩
    rw [← hd]
    refine ⟨List.cons_ne_nil _ _, fun c hc => Index.isAlphanum_of_mem_chars hc, ?_⟩
    show 6 ≤ 1024
    decide

theorem chars_ne_of_head {i : Index} {key : List Char} (h : key.head? ≠ some 'b') :
    key ≠ i.chars := by
  intro hkey
  rw [hkey] at h
  exact h rfl

theorem pairwise_writtenEntries (name author : String) (m : Colors) :
    (writtenEntries name author m).Pairwise fun d e => d.1 ≠ e.1 := by
  have hheader : forall key : List Char, key.head? ≠ some 'b' ->
      forall e, e ∈ writtenColors m -> key ≠ e.1 := by
    intro key hkey e he
    rcases List.mem_map.mp he with ⟨d, _, hd⟩
    rw [← hd]
    exact chars_ne_of_head hkey
  have hcolors : (writtenColors m).Pairwise fun d e => d.1 ≠ e.1 := by
    rw [writtenColors, List.pairwise_map]
    apply m.ascending.imp
    intro d e hlt heq
    have hindex : d.1 = e.1 := Index.chars_injective heq
    rw [hindex] at hlt
    exact Nat.lt_irrefl e.1.byte.val hlt
  have hname : Document.nameKey.toList.head? ≠ some 'b' := by decide
  have hauthor : Document.authorKey.toList.head? ≠ some 'b' := by decide
  have hne : Document.nameKey.toList ≠ Document.authorKey.toList := by decide
  rw [writtenEntries, List.pairwise_cons, List.pairwise_cons]
  refine ⟨?_, hheader _ hauthor, hcolors⟩
  intro e he
  rcases List.mem_cons.mp he with he | he
  · rw [he]
    exact hne
  · exact hheader _ hname e he

/-!
# The scheme of the entries
-/

theorem reread_colors (m : Colors) :
    (writtenColors m).map (fun e => @Yaml.textEntry ν (Yaml.readEntry e)) =
      m.entries.map fun e => (.text (.ofChars e.1.chars), .text (.ofChars e.2.chars)) := by
  rw [writtenColors, List.map_map]
  apply List.map_congr_left
  intro e _
  have hreread : Yaml.reread e.2.chars = e.2.chars :=
    Yaml.reread_of_not_mem (Rgb.nextLine_not_mem_chars e.2)
  show ((Datum.text (.ofChars e.1.chars), Datum.text (.ofChars (Yaml.reread e.2.chars))) :
    Datum ν × Datum ν) = _
  rw [hreread]

theorem not_isHeader_chars (i : Index) (value : Datum ν) :
    Document.isHeader (.text (.ofChars i.chars), value) = false := by
  have hname : (Phrase.ofChars i.chars == Phrase.ofText Document.nameKey) = false := by
    rw [beq_eq_false_iff_ne]
    intro heq
    exact chars_ne_of_head (by decide) (Yaml.ofChars_injective heq).symm
  have hauthor : (Phrase.ofChars i.chars == Phrase.ofText Document.authorKey) = false := by
    rw [beq_eq_false_iff_ne]
    intro heq
    exact chars_ne_of_head (by decide) (Yaml.ofChars_injective heq).symm
  rw [Document.isHeader, Document.isText, Document.isText, hname, hauthor]
  rfl

theorem addEntries_ascending (m : Colors) (es : List (Index × Rgb))
    (h : (m.entries ++ es).Pairwise fun a b => a.1 < b.1) :
    exists m' : Colors, m'.entries = m.entries ++ es ∧
      Document.addEntries m (es.map fun e =>
        ((.text (.ofChars e.1.chars), .text (.ofChars e.2.chars)) : Datum ν × Datum ν)) =
        ([], .ok m') := by
  induction es generalizing m with
  | nil =>
      refine ⟨m, (List.append_nil m.entries).symm, ?_⟩
      rw [List.map_nil, Document.addEntries]
  | cons e rest ih =>
      have hlast : forall d, d ∈ m.entries -> d.1 < e.1 := fun d hd =>
        (List.pairwise_append.mp h).right.right d hd e List.mem_cons_self
      have hinsert : (m.insert e.1 e.2).entries = m.entries ++ [e] :=
        Colors.insertEntry_of_last e.1 e.2 hlast
      have hrest : ((m.insert e.1 e.2).entries ++ rest).Pairwise fun a b => a.1 < b.1 := by
        rw [hinsert, List.append_assoc]
        exact h
      have hdecode : Document.decodeEntry
          ((.text (.ofChars e.1.chars), .text (.ofChars e.2.chars)) : Datum ν × Datum ν) =
          .ok (e.1, e.2) := by
        rw [Document.decodeEntry, Index.parse_chars, Rgb.parse_chars]
      rcases ih (m.insert e.1 e.2) hrest with ⟨m', hentries, hadd⟩
      refine ⟨m', ?_, ?_⟩
      · rw [hentries, hinsert, List.append_assoc]
        rfl
      · rw [List.map_cons, Document.addEntries_color m _ (not_isHeader_chars e.1 _) hdecode, hadd,
          Colors.not_contains_of_last hlast]
        rfl

theorem not_isText_authorKey :
    Document.isText Document.authorKey (.text (.ofChars Document.nameKey.toList) : Datum ν) =
      false := by
  show (Phrase.ofChars Document.nameKey.toList == Phrase.ofText Document.authorKey) = false
  decide

theorem toDatum_eq (s : Scheme) :
    s.toDatum ν =
      .mapping ((.text (.ofChars Document.nameKey.toList), .text s.name) ::
        (.text (.ofChars Document.authorKey.toList), .text s.author) ::
          s.colors.entries.map fun e =>
            (.text (.ofChars e.1.chars), .text (.ofChars e.2.chars))) := by
  have hcolors : (s.colors.entries.map fun e => (e.1.text, Phrase.ofText e.2.text)).map
      (fun e => ((.text (.ofText e.1), .text e.2) : Datum ν × Datum ν)) =
      s.colors.entries.map fun e =>
        (.text (.ofChars e.1.chars), .text (.ofChars e.2.chars)) := by
    rw [List.map_map]
    apply List.map_congr_left
    intro e _
    show ((.text (.ofChars e.1.text.toList), .text (.ofChars e.2.text.toList)) :
      Datum ν × Datum ν) = _
    rw [Index.text, Rgb.text, String.toList_ofList, String.toList_ofList]
  rw [← hcolors]
  rfl

theorem ofDatum_toDatum (s : Scheme) :
    ofDatum (s.toDatum ν) = ([], .ok { s with slug := [] }) := by
  let first : Datum ν × Datum ν := (.text (.ofChars Document.nameKey.toList), .text s.name)
  let second : Datum ν × Datum ν := (.text (.ofChars Document.authorKey.toList), .text s.author)
  let colors : List (Datum ν × Datum ν) :=
    s.colors.entries.map fun e => (.text (.ofChars e.1.chars), .text (.ofChars e.2.chars))
  have hfirst : Document.isText Document.nameKey first.1 = true :=
    Document.isText_self Document.nameKey
  have hother : Document.isText Document.authorKey first.1 = false := not_isText_authorKey
  have hsecond : Document.isText Document.authorKey second.1 = true :=
    Document.isText_self Document.authorKey
  have hname : Document.getText (first :: second :: colors) Document.nameKey = .ok s.name := by
    rw [Document.getText, Document.get?_cons_of_isText _ hfirst]
  have hauthor : Document.getText (first :: second :: colors) Document.authorKey =
      .ok s.author := by
    rw [Document.getText, Document.get?_cons_of_not_isText _ hother,
      Document.get?_cons_of_isText _ hsecond]
  have hadd : Document.addEntries Colors.empty (first :: second :: colors) =
      ([], .ok s.colors) := by
    rcases addEntries_ascending Colors.empty s.colors.entries s.colors.ascending with
      ⟨m, hentries, hadd⟩
    have hm : m = s.colors := Colors.ext hentries
    rw [Document.addEntries_header _ _ (by rw [Document.isHeader, hfirst, Bool.true_or]),
      Document.addEntries_header _ _ (by rw [Document.isHeader, hsecond, Bool.or_true]), hadd, hm]
  rw [toDatum_eq]
  show ofDatum (.mapping (first :: second :: colors)) = _
  rw [ofDatum, hname, hauthor]
  simp only [hadd]

theorem ofDatum_writtenEntries (name author : String) (m : Colors) :
    ofDatum (.mapping
        (((writtenEntries name author m).map Yaml.readEntry).map (@Yaml.textEntry ν))) =
      ([], .ok ⟨.ofChars (Yaml.reread name.toList), .ofChars (Yaml.reread author.toList),
        m, []⟩) := by
  have hscheme := ofDatum_toDatum (ν := ν)
    ⟨.ofChars (Yaml.reread name.toList), .ofChars (Yaml.reread author.toList), m, []⟩
  rw [toDatum_eq] at hscheme
  rw [writtenEntries, List.map_cons, List.map_cons, List.map_cons, List.map_cons, List.map_map]
  show ofDatum (.mapping (_ :: _ ::
    (writtenColors m).map fun e => Yaml.textEntry (Yaml.readEntry e))) = _
  rw [reread_colors]
  exact hscheme

/-- What is read of a scheme that was written: its own colours, and its name and its
author, of which next-line characters in single quotes are lost. -/
theorem parse_dump_eq (name author : String) (m : Colors) (slug : Phrase) :
    parse ν (dump ⟨.ofText name, .ofText author, m, slug⟩).toList =
      ([.parsed (.ofChars (Yaml.reread name.toList)) m.size],
        .ok (createSlug ⟨.ofChars (Yaml.reread name.toList),
          .ofChars (Yaml.reread author.toList), m, slug⟩)) := by
  have hread : (Yaml.read (Yaml.write ((writtenEntries name author m).map fun e =>
      (e.1, .ofChars e.2))) : Except Yaml.Fault (Datum ν)) =
      .ok (.mapping (((writtenEntries name author m).map Yaml.readEntry).map Yaml.textEntry)) :=
    Yaml.read_write (List.cons_ne_nil _ _) (isKey_writtenEntries name author m)
      (pairwise_writtenEntries name author m)
  rw [dump_eq, parse, hread]
  simp only [ofDatum_writtenEntries]
  rfl

/-!
# When a scheme is read back

A next-line character is written as it is where single quotes suffice, and there the
reader takes it for a line break.  Any other text survives.
-/

/-- A text that loses its next-line characters when it is written and read: it needs no
escapes, and no space stands next to a line break. -/
def LosesNextLine (text : String) : Prop :=
  Yaml.nextLine ∈ text.toList ∧ Yaml.allowsSingle text.toList = true

theorem reread_toList_eq_iff (text : String) :
    Phrase.ofChars (Yaml.reread text.toList) = .ofText text <-> ¬LosesNextLine text := by
  rw [LosesNextLine, ← Yaml.reread_eq_self_iff]
  constructor
  · exact fun h => Yaml.ofChars_injective h
  · intro h
    rw [h]
    rfl

/-- A scheme that was written can always be read, without a warning and with the same
colours.  It comes back with its slug exactly if neither its name nor its author loses a
next-line character. -/
theorem parse_dump_eq_createSlug_iff (ν : Type) (name author : String) (m : Colors)
    (slug : Phrase) :
    parse ν (dump ⟨.ofText name, .ofText author, m, slug⟩).toList =
      ([.parsed (.ofChars (Yaml.reread name.toList)) m.size],
        .ok (createSlug ⟨.ofChars (Yaml.reread name.toList),
          .ofChars (Yaml.reread author.toList), m, slug⟩)) ∧
    ((parse ν (dump ⟨.ofText name, .ofText author, m, slug⟩).toList).2 =
        .ok (createSlug ⟨.ofText name, .ofText author, m, slug⟩) <->
      ¬LosesNextLine name ∧ ¬LosesNextLine author) := by
  refine ⟨parse_dump_eq name author m slug, ?_⟩
  rw [parse_dump_eq, ← reread_toList_eq_iff, ← reread_toList_eq_iff]
  constructor
  · intro h
    injection h with hscheme
    injection hscheme with hname hauthor
    exact ⟨hname, hauthor⟩
  · rintro ⟨hname, hauthor⟩
    rw [hname, hauthor]

/-- The name is read with a space in place of its next-line character. -/
theorem parse_dump_ne_createSlug_of_nextLine :
    (parse Float (dump ⟨.ofText (String.ofList ['a', Yaml.nextLine, 'b']), .ofText "x",
        Colors.empty, []⟩).toList).2 ≠
      .ok (createSlug ⟨.ofText (String.ofList ['a', Yaml.nextLine, 'b']), .ofText "x",
        Colors.empty, []⟩) := by
  rw [parse_dump_eq]
  intro h
  injection h with hscheme
  injection hscheme with hname
  have hchars := Yaml.ofChars_injective hname
  rw [String.toList_ofList] at hchars
  revert hchars
  decide

end Scheme
end Palette
