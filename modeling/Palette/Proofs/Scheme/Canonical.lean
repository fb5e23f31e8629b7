import Palette.Proofs.Entries
import Palette.Proofs.Scheme.Fields
import Palette.Proofs.Scheme.RoundTrip

/-!
# The canonical form of a document

A document may spell its indices in either case, in any order and more than once.  The
scheme that is read of it is written in one way only: the name and the author, then each
index once, in ascending order, with the colour of its last entry.  Reading that form
gives the same scheme again.
-/

namespace Palette

/-!
# The order of keys
-/

theorem Text.upperHexDigit_lt {m n : Nat} (hmn : m < n) (hn : n < 16) :
    upperHexDigit m < upperHexDigit n := by
  have hall : forall a b : Fin 16, a.val < b.val -> upperHexDigit a.val < upperHexDigit b.val := by
    decide
  exact hall ⟨m, Nat.lt_trans hmn hn⟩ ⟨n, hn⟩ hmn

theorem Text.upperHex_lt {a b : Byte} (h : a < b) : upperHex a < upperHex b := by
  have hval : a.val < b.val := h
  have hlt := b.isLt
  rw [upperHex, upperHex, List.cons_lt_cons_iff]
  by_cases hhigh : a.val / 16 = b.val / 16
  · refine Or.inr ⟨by rw [hhigh], ?_⟩
    rw [List.cons_lt_cons_iff]
    exact Or.inl (upperHexDigit_lt (by omega) (by omega))
  · exact Or.inl (upperHexDigit_lt (by omega) (by omega))

theorem Index.text_lt_text {i j : Index} (h : i < j) : i.text < j.text := by
  have hhex : Text.upperHex i.byte < Text.upperHex j.byte := Text.upperHex_lt h
  rw [String.lt_iff, Index.text, Index.text, String.toList_ofList, String.toList_ofList]
  show 'b' :: 'a' :: 's' :: 'e' :: Text.upperHex i.byte <
    'b' :: 'a' :: 's' :: 'e' :: Text.upperHex j.byte
  simpa only [List.cons_lt_cons_iff, Char.lt_irrefl, true_and, false_or] using hhex

/-!
# Canonical spellings
-/

def Index.IsUpperKey (key : String) : Prop :=
  exists high low, key = String.ofList (word ++ [high, low]) ∧
    high ∈ Text.upperDigits ∧ low ∈ Text.upperDigits

def Rgb.IsLowerCode (p : Phrase) : Prop :=
  exists digits : List Char, p = .ofChars digits ∧ digits.length = 6 ∧
    forall c, c ∈ digits -> c ∈ Text.lowerDigits

theorem Index.isUpperKey_text (i : Index) : IsUpperKey i.text := by
  have hlt := i.byte.isLt
  have hdigit : forall n, n < 16 -> Text.upperHexDigit n ∈ Text.upperDigits := fun n hn =>
    List.mem_of_getElem? (Text.upperDigits_getElem? hn)
  exact ⟨_, _, rfl, hdigit _ (by omega), hdigit _ (by omega)⟩

theorem Rgb.isLowerCode_text (c : Rgb) : IsLowerCode (.ofText c.text) := by
  have hbyte : forall b : Byte, forall d, d ∈ Text.lowerHex b -> d ∈ Text.lowerDigits := by
    intro b d hd
    have hlt := b.isLt
    have hdigit : forall n, n < 16 -> Text.lowerHexDigit n ∈ Text.lowerDigits := fun n hn =>
      List.mem_of_getElem? (Text.lowerDigits_getElem? hn)
    rw [Text.lowerHex, List.mem_cons, List.mem_singleton] at hd
    rcases hd with hd | hd
    · rw [hd]
      exact hdigit _ (by omega)
    · rw [hd]
      exact hdigit _ (by omega)
  refine ⟨c.chars, ?_, rfl, ?_⟩
  · rw [Phrase.ofText, Rgb.text, String.toList_ofList]
  · intro d hd
    rw [Rgb.chars, List.mem_append, List.mem_append] at hd
    rcases hd with (hd | hd) | hd
    · exact hbyte c.red d hd
    · exact hbyte c.green d hd
    · exact hbyte c.blue d hd

theorem Rgb.text_injective {c d : Rgb} (h : Phrase.ofText c.text = .ofText d.text) : c = d := by
  have hparse : (Rgb.parse (.text (.ofText c.text)) : Except (CodeFault Unit) Rgb) =
      Rgb.parse (.text (.ofText d.text)) := by
    rw [h]
  have hchars : forall e : Rgb, Phrase.ofText e.text = .ofChars e.chars := by
    intro e
    rw [Phrase.ofText, Rgb.text, String.toList_ofList]
  rw [hchars, hchars, Rgb.parse_chars, Rgb.parse_chars] at hparse
  injection hparse

theorem Colors.mem_entries_iff (m : Colors) {i : Index} {c : Rgb} :
    (i, c) ∈ m.entries <-> m.get? i = some c := by
  constructor
  · exact fun h => Entries.get?_of_mem m.nodup_keys h
  · exact fun h => Entries.mem_of_get?_eq_some h

/-!
# Last entries
-/

namespace Document

open Scheme (lowered)

variable {ν : Type}

/-- The last entry of an index has the digits of a colour. -/
def IsLastColor (entries : List (Datum ν × Datum ν)) (i : Index) (c : Rgb) : Prop :=
  exists before k digits after,
    entries = before ++ (k, .text (.ofChars digits)) :: after ∧ Index.IsKeyOf k i ∧
      lowered digits = .ofText c.text ∧ forall a, a ∈ after -> ¬Index.IsKeyOf a.1 i

theorem exists_last_of_isKeyOf {entries : List (Datum ν × Datum ν)} {i : Index}
    (h : exists e, e ∈ entries ∧ Index.IsKeyOf e.1 i) :
    exists before e after, entries = before ++ e :: after ∧ Index.IsKeyOf e.1 i ∧
      forall a, a ∈ after -> ¬Index.IsKeyOf a.1 i := by
  induction entries with
  | nil =>
      rcases h with ⟨e, he, _⟩
      cases he
  | cons first rest ih =>
      by_cases hrest : exists e, e ∈ rest ∧ Index.IsKeyOf e.1 i
      · rcases ih hrest with ⟨before, e, after, hentries, hkey, hafter⟩
        exact ⟨first :: before, e, after, by rw [hentries, List.cons_append], hkey, hafter⟩
      · rcases h with ⟨e, he, hkey⟩
        rcases List.mem_cons.mp he with he | he
        · rw [he] at hkey
          exact ⟨[], first, rest, rfl, hkey, fun a ha hother => hrest ⟨a, ha, hother⟩⟩
        · exact absurd ⟨e, he, hkey⟩ hrest

theorem exists_digits_of_decodeEntry {e : Datum ν × Datum ν} {i : Index} {c : Rgb}
    (h : decodeEntry e = .ok (i, c)) :
    exists digits, e.2 = .text (.ofChars digits) ∧ lowered digits = .ofText c.text := by
  rcases Rgb.parse_eq_ok_iff.mp (decodeEntry_eq_ok_iff.mp h).right with ⟨digits, hvalue, hdigits⟩
  rcases Rgb.ofDigits?_eq_some_iff.mp hdigits with
    ⟨r₁, r₂, g₁, g₂, b₁, b₂, hlist, hred, hgreen, hblue⟩
  refine ⟨digits, hvalue, ?_⟩
  rw [hlist, Scheme.lowered_pairs hred hgreen hblue, Phrase.ofText, Rgb.text, String.toList_ofList]

theorem get?_eq_some_iff_isLastColor {entries : List (Datum ν × Datum ν)} {m : Colors}
    (h : (addEntries .empty entries).2 = .ok m) {i : Index} {c : Rgb} :
    m.get? i = some c <-> IsLastColor entries i c := by
  have hsound := exists_addEntries_iff.mp ⟨m, h⟩
  have hdecode : forall e, e ∈ entries -> Index.IsKeyOf e.1 i ->
      exists d, decodeEntry e = .ok (i, d) := by
    intro e he hkey
    rcases hsound e he with hheader | ⟨_, hcode⟩
    · exact absurd hkey (not_isKeyOf_of_isHeaderKey hheader i)
    · rcases Rgb.exists_parse_iff.mpr hcode with ⟨d, hd⟩
      exact ⟨d, decodeEntry_eq_ok_iff.mpr ⟨hkey, hd⟩⟩
  constructor
  · intro hget
    have hnamed : exists e, e ∈ entries ∧ Index.IsKeyOf e.1 i := by
      by_contra hnot
      have hnone : m.get? i = none :=
        get?_of_unnamed h fun e he hkey => hnot ⟨e, he, hkey⟩
      rw [hnone] at hget
      cases hget
    rcases exists_last_of_isKeyOf hnamed with ⟨before, ⟨k, v⟩, after, hentries, hkey, hafter⟩
    rcases hdecode (k, v) (by rw [hentries]; exact List.mem_append_right _ List.mem_cons_self)
      hkey with ⟨d, hd⟩
    rcases exists_digits_of_decodeEntry hd with ⟨digits, hv, hlowered⟩
    change v = _ at hv
    rw [hentries] at h
    have hsame := get?_of_last h hd hafter
    rw [hget] at hsame
    injection hsame with hsame
    rw [← hsame] at hlowered
    exact ⟨before, k, digits, after, by rw [hentries, hv], hkey, hlowered, hafter⟩
  · rintro ⟨before, k, digits, after, hentries, hkey, hlowered, hafter⟩
    rcases hdecode _ (by rw [hentries]; exact List.mem_append_right _ List.mem_cons_self)
      hkey with ⟨d, hd⟩
    rcases exists_digits_of_decodeEntry hd with ⟨others, hv, hothers⟩
    injection hv with hv
    rw [Yaml.ofChars_injective hv, hothers] at hlowered
    rw [hentries] at h
    rw [get?_of_last h hd hafter, Rgb.text_injective hlowered]

/-!
# Canonical forms
-/

/-- The pairs that a document comes to: its name and its author, then each of its indices
once, in the order of the indices and of their texts, with the colour of its last entry. -/
def IsCanonicalForm (entries : List (Datum ν × Datum ν)) (pairs : List (String × Phrase)) :
    Prop :=
  exists (name author : Phrase) (colors : List (Index × Rgb)),
    pairs = (nameKey, name) :: (authorKey, author) ::
        colors.map (fun e => (e.1.text, .ofText e.2.text)) ∧
      Holds entries nameKey (.text name) ∧ Holds entries authorKey (.text author) ∧
      (forall i, i ∈ colors.map Prod.fst <-> exists e, e ∈ entries ∧ Index.IsKeyOf e.1 i) ∧
      (forall i c, (i, c) ∈ colors <-> IsLastColor entries i c) ∧
      (colors.Pairwise fun a b => a.1 < b.1 ∧ a.1.text < b.1.text) ∧
      forall e, e ∈ colors -> Index.IsUpperKey e.1.text ∧ Rgb.IsLowerCode (.ofText e.2.text)

end Document

namespace Scheme

open Document

variable {ν : Type}

theorem holds_of_ofDatum {entries : List (Datum ν × Datum ν)} {s : Scheme}
    (h : (ofDatum (.mapping entries)).2 = .ok s) :
    Holds entries nameKey (.text s.name) ∧ Holds entries authorKey (.text s.author) ∧
      s.slug = [] := by
  rcases exists_ofDatum_iff.mp ⟨s, h⟩ with ⟨_, name, author, hd, hname, hauthor, _⟩
  cases hd
  rw [ofDatum_of_holds hname hauthor] at h
  cases hadd : (addEntries .empty entries).2 with
  | error fault =>
      rw [hadd] at h
      cases h
  | ok colors =>
      rw [hadd] at h
      cases h
      exact ⟨hname, hauthor, rfl⟩

theorem isCanonicalForm_toPairs {entries : List (Datum ν × Datum ν)} {s : Scheme}
    (h : (ofDatum (.mapping entries)).2 = .ok s) : IsCanonicalForm entries s.toPairs := by
  have hadd := addEntries_of_ofDatum h
  rcases holds_of_ofDatum h with ⟨hname, hauthor, _⟩
  refine ⟨s.name, s.author, s.colors.entries, rfl, hname, hauthor, ?_, ?_, ?_, ?_⟩
  · intro i
    have hnone : s.colors.get? i = none <-> forall e, e ∈ entries -> ¬Index.IsKeyOf e.1 i := by
      have hempty : Colors.empty.get? i = none := rfl
      rw [get?_addEntries_eq_none_iff hadd, and_iff_right hempty]
    have hmem : i ∈ s.colors.entries.map Prod.fst <-> s.colors.get? i ≠ none := by
      rw [Option.ne_none_iff_exists', List.mem_map]
      constructor
      · rintro ⟨⟨j, c⟩, he, hj⟩
        change j = i at hj
        rw [hj] at he
        exact ⟨c, s.colors.mem_entries_iff.mp he⟩
      · rintro ⟨c, hc⟩
        exact ⟨(i, c), s.colors.mem_entries_iff.mpr hc, rfl⟩
    rw [hmem, ne_eq, hnone]
    push Not
    rfl
  · intro i c
    rw [s.colors.mem_entries_iff, get?_eq_some_iff_isLastColor hadd]
  · apply s.colors.ascending.imp
    intro a b hlt
    exact ⟨hlt, Index.text_lt_text hlt⟩
  · intro e _
    exact ⟨Index.isUpperKey_text e.1, Rgb.isLowerCode_text e.2⟩

def canonicalize (d : Datum ν) : Except (Document.Fault ν) (Datum ν) :=
  (ofDatum d).2.map (toDatum ν)

/-- A scheme is read back from the document that it is written as, but for its slug and
without a warning.  What an accepted document is written as is its canonical form, which is
read as the same scheme, so that it is its own canonical form. -/
theorem toDatum_is_canonical (ν : Type) :
    (forall s : Scheme, ofDatum (s.toDatum ν) = ([], .ok { s with slug := [] })) ∧
      (forall (entries : List (Datum ν × Datum ν)) (s : Scheme),
        (ofDatum (.mapping entries)).2 = .ok s ->
          IsCanonicalForm entries s.toPairs ∧ ofDatum (s.toDatum ν) = ([], .ok s)) ∧
      forall d c : Datum ν, canonicalize d = .ok c -> canonicalize c = .ok c := by
  refine ⟨ofDatum_toDatum, ?_, ?_⟩
  · intro entries s h
    have hslug : s.slug = [] := (holds_of_ofDatum h).right.right
    refine ⟨isCanonicalForm_toPairs h, ?_⟩
    rw [ofDatum_toDatum, ← hslug]
  · intro d c h
    cases hd : (ofDatum d).2 with
    | error fault =>
        rw [canonicalize, hd] at h
        cases h
    | ok s =>
        rw [canonicalize, hd] at h
        cases h
        rw [canonicalize, ofDatum_toDatum]
        rfl

/-- A document with the author first, two spellings of one index and a greater index in
front of it. -/
def unsortedEntries : List (Datum Empty × Datum Empty) :=
  [(.text (.ofText authorKey), .text (.ofChars ['y'])),
    (.text (.ofChars ['b', 'a', 's', 'e', '1', 'f']), .text (.ofText "A0b1C2")),
    (.text (.ofChars ['b', 'a', 's', 'e', '0', 'A']), .text (.ofText "000000")),
    (.text (.ofText nameKey), .text (.ofChars ['x'])),
    (.text (.ofChars ['b', 'a', 's', 'e', '0', 'a']), .text (.ofText "FFffFF"))]

theorem toDatum_is_canonical_of_unsorted :
    exists s : Scheme, (ofDatum (.mapping unsortedEntries)).2 = .ok s ∧
      s.toPairs =
        [(nameKey, .ofChars ['x']), (authorKey, .ofChars ['y']), ("base0A", .ofText "ffffff"),
          ("base1F", .ofText "a0b1c2")] ∧
      IsCanonicalForm unsortedEntries s.toPairs ∧
      canonicalize (s.toDatum Empty) = .ok (s.toDatum Empty) := by
  rcases toDatum_is_canonical Empty with ⟨_, hentries, htwice⟩
  let s : Scheme :=
    ⟨.ofChars ['x'], .ofChars ['y'],
      (Colors.empty.insert ⟨31⟩ ⟨160, 177, 194⟩).insert ⟨10⟩ ⟨255, 255, 255⟩, []⟩
  have haccepted : (ofDatum (.mapping unsortedEntries)).2 = .ok s := rfl
  have hcanonical : canonicalize (.mapping unsortedEntries) = .ok (s.toDatum Empty) := by
    rw [canonicalize, haccepted]
    rfl
  exact ⟨s, haccepted, by decide, (hentries _ s haccepted).left, htwice _ _ hcanonical⟩

end Scheme
end Palette
