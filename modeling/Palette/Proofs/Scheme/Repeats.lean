import Palette.Proofs.Scheme.Colors
import Palette.Proofs.Scheme.Document
import Palette.Proofs.Yaml.RoundTrip
import Palette.Scheme.Text

/-!
# Indices that come more than once

An index may be repeated in a document, in one spelling or in several.  The reader of
YAML merges the entries of one spelling, where the spelling first came, and the table of
colours then merges the spellings of one index.  So the colour that stays is the last one
of the spelling that was the last to come up, and there is one warning less than there
are spellings.
-/

namespace Palette
namespace Document

variable {ν : Type}

/-!
# Entries of one index
-/

/-- The spelling and the colour of an entry, if it is one of the index. -/
def named (i : Index) (e : Phrase × Datum ν) : Option (Phrase × Rgb) :=
  match decodeEntry (Yaml.textEntry e) with
  | .ok (j, c) => if j = i then some (e.1, c) else none
  | .error _ => none

def entriesOf (i : Index) (items : List (Phrase × Datum ν)) : List (Phrase × Rgb) :=
  items.filterMap (named i)

/-- An entry that is the name, the author or a colour. -/
def IsEntry (e : Phrase × Datum ν) : Prop :=
  isHeader (Yaml.textEntry e) = true ∨
    exists (i : Index) (c : Rgb), decodeEntry (Yaml.textEntry e) = .ok (i, c)

/-- The entries of a scheme document: there are a name and an author, which are texts
wherever they come, and all else are colours. -/
structure IsDocument (items : List (Phrase × Datum ν)) : Prop where
  name : .ofText nameKey ∈ items.map Prod.fst
  author : .ofText authorKey ∈ items.map Prod.fst
  texts : forall e, e ∈ items -> isHeader (Yaml.textEntry e) = true -> Yaml.isText e.2 = true
  entries : forall e, e ∈ items -> IsEntry e

theorem decodeEntry_textEntry (e : Phrase × Datum ν) {i : Index} {c : Rgb}
    (h : decodeEntry (Yaml.textEntry e) = .ok (i, c)) :
    (Index.parse (.text e.1) : Except (CodeFault ν) Index) = .ok i := by
  unfold decodeEntry at h
  split at h
  case h_1 =>
    cases h
  case h_2 j hparse =>
    split at h
    case h_1 =>
      cases h
    case h_2 =>
      injection h with hpair
      injection hpair with hindex
      rw [← hindex]
      exact hparse

theorem not_index_of_isHeader {e : Phrase × Datum ν} (h : isHeader (Yaml.textEntry e) = true)
    (i : Index) : (Index.parse (.text e.1) : Except (CodeFault ν) Index) ≠ .ok i := by
  have hkey : e.1 = .ofText nameKey ∨ e.1 = .ofText authorKey := by
    rw [isHeader, Bool.or_eq_true] at h
    exact h.imp beq_iff_eq.mp beq_iff_eq.mp
  intro hparse
  rcases hkey with hkey | hkey
  · rw [hkey] at hparse
    cases hparse
  · rw [hkey] at hparse
    cases hparse

theorem named_of_isHeader {e : Phrase × Datum ν} (h : isHeader (Yaml.textEntry e) = true)
    (i : Index) : named i e = none := by
  unfold named
  split
  case h_1 j c hdecode =>
    exact absurd (decodeEntry_textEntry e hdecode) (not_index_of_isHeader h j)
  case h_2 =>
    rfl

theorem named_of_decode {e : Phrase × Datum ν} {j : Index} {c : Rgb}
    (h : decodeEntry (Yaml.textEntry e) = .ok (j, c)) (i : Index) :
    named i e = if j = i then some (e.1, c) else none := by
  rw [named, h]

theorem isSome_named_iff {e : Phrase × Datum ν} (h : IsEntry e) (i : Index) :
    (named i e).isSome = true <->
      (Index.parse (.text e.1) : Except (CodeFault ν) Index) = .ok i := by
  rcases h with h | ⟨j, c, h⟩
  · rw [named_of_isHeader h]
    constructor
    · intro hsome
      cases hsome
    · intro hparse
      exact absurd hparse (not_index_of_isHeader h i)
  · rw [named_of_decode h, decodeEntry_textEntry e h]
    by_cases hij : j = i
    · simp [hij]
    · simp [hij]

theorem isSome_named_congr {d e : Phrase × Datum ν} (hd : IsEntry d) (he : IsEntry e)
    (hkey : d.1 = e.1) (i : Index) : (named i d).isSome = (named i e).isSome := by
  rw [Bool.eq_iff_iff, isSome_named_iff hd, isSome_named_iff he, hkey]

theorem named_fst {e : Phrase × Datum ν} {i : Index} {d : Phrase × Rgb} (h : named i e = some d) :
    d.1 = e.1 := by
  unfold named at h
  split at h
  case h_1 =>
    split at h
    · injection h with hd
      rw [← hd]
    · cases h
  case h_2 =>
    cases h

/-!
# Merging the entries of one spelling
-/

theorem entriesOf_cons_of_named {i : Index} {e : Phrase × Datum ν} {d : Phrase × Rgb}
    (h : named i e = some d) (rest : List (Phrase × Datum ν)) :
    entriesOf i (e :: rest) = d :: entriesOf i rest :=
  List.filterMap_cons_some h

theorem entriesOf_cons_of_not_named {i : Index} {e : Phrase × Datum ν} (h : named i e = none)
    (rest : List (Phrase × Datum ν)) : entriesOf i (e :: rest) = entriesOf i rest :=
  List.filterMap_cons_none h

theorem entriesOf_put_of_named {i : Index} {es : List (Phrase × Datum ν)} {e : Phrase × Datum ν}
    (hes : forall a, a ∈ es -> IsEntry a) (he : IsEntry e) {d : Phrase × Rgb}
    (hd : named i e = some d) :
    entriesOf i (Entries.put es e.1 e.2) = Entries.put (entriesOf i es) d.1 d.2 := by
  have hkey : d.1 = e.1 := named_fst hd
  induction es with
  | nil =>
      exact entriesOf_cons_of_named hd []
  | cons a rest ih =>
      have hrest := ih fun b hb => hes b (List.mem_cons_of_mem a hb)
      by_cases ha : a.1 = e.1
      · have hsome := isSome_named_congr (hes a List.mem_cons_self) he ha i
        rw [hd, Option.isSome_some] at hsome
        rcases Option.isSome_iff_exists.mp hsome with ⟨b, hb⟩
        have hb' : b.1 = d.1 := by
          rw [hkey, ← ha, named_fst hb]
        have hput : Entries.put (a :: rest) e.1 e.2 = e :: rest :=
          Entries.put_cons_of_eq ha a.2 e.2 rest
        rw [hput, entriesOf_cons_of_named hd, entriesOf_cons_of_named hb]
        exact (Entries.put_cons_of_eq hb' b.2 d.2 _).symm
      · have hput : Entries.put (a :: rest) e.1 e.2 = a :: Entries.put rest e.1 e.2 :=
          Entries.put_cons_of_ne ha a.2 e.2 rest
        rw [hput]
        cases hb : named i a with
        | none =>
            rw [entriesOf_cons_of_not_named hb, entriesOf_cons_of_not_named hb, hrest]
        | some b =>
            have hne : b.1 ≠ d.1 := by
              rw [named_fst hb, hkey]
              exact ha
            rw [entriesOf_cons_of_named hb, entriesOf_cons_of_named hb, hrest]
            exact (Entries.put_cons_of_ne hne b.2 d.2 _).symm

theorem entriesOf_put_of_not_named {i : Index} {es : List (Phrase × Datum ν)}
    {e : Phrase × Datum ν} (hes : forall a, a ∈ es -> IsEntry a) (he : IsEntry e)
    (hnone : named i e = none) : entriesOf i (Entries.put es e.1 e.2) = entriesOf i es := by
  induction es with
  | nil =>
      exact entriesOf_cons_of_not_named hnone []
  | cons a rest ih =>
      have hrest := ih fun b hb => hes b (List.mem_cons_of_mem a hb)
      by_cases ha : a.1 = e.1
      · have hsame := isSome_named_congr (hes a List.mem_cons_self) he ha i
        rw [hnone, Option.isSome_none, Option.isSome_eq_false_iff,
          Option.isNone_iff_eq_none] at hsame
        have hput : Entries.put (a :: rest) e.1 e.2 = e :: rest :=
          Entries.put_cons_of_eq ha a.2 e.2 rest
        rw [hput, entriesOf_cons_of_not_named hnone, entriesOf_cons_of_not_named hsame]
      · have hput : Entries.put (a :: rest) e.1 e.2 = a :: Entries.put rest e.1 e.2 :=
          Entries.put_cons_of_ne ha a.2 e.2 rest
        rw [hput]
        cases hb : named i a with
        | none =>
            rw [entriesOf_cons_of_not_named hb, entriesOf_cons_of_not_named hb, hrest]
        | some b =>
            rw [entriesOf_cons_of_named hb, entriesOf_cons_of_named hb, hrest]

/-- Merging first and picking an index then is picking the index and merging its spellings. -/
theorem entriesOf_ofList {items : List (Phrase × Datum ν)}
    (h : forall e, e ∈ items -> IsEntry e) (i : Index) :
    entriesOf i (Entries.ofList items) = Entries.ofList (entriesOf i items) := by
  induction items using List.reverseRecOn with
  | nil =>
      rfl
  | append_singleton items e ih =>
      have hitems : forall a, a ∈ items -> IsEntry a :=
        fun a ha => h a (List.mem_append_left _ ha)
      have he : IsEntry e := h e (List.mem_append_right _ List.mem_cons_self)
      have hmerged : forall a, a ∈ Entries.ofList items -> IsEntry a :=
        fun a ha => hitems a (Entries.mem_of_mem_ofList ha)
      have hconcat : entriesOf i (items ++ [e]) = entriesOf i items ++ entriesOf i [e] :=
        List.filterMap_append
      rw [Entries.ofList_concat, hconcat]
      cases hd : named i e with
      | none =>
          rw [entriesOf_put_of_not_named hmerged he hd, entriesOf_cons_of_not_named hd, ih hitems]
          exact congrArg Entries.ofList (List.append_nil _).symm
      | some d =>
          rw [entriesOf_put_of_named hmerged he hd, entriesOf_cons_of_named hd, ih hitems]
          exact (Entries.ofList_concat _ d).symm

/-!
# Merging the spellings of one index
-/

theorem countP_warning (i j : Index) (c : Rgb) (again : Bool) (warnings : List Warning) :
    ((if again then [Warning.mk j c] else []) ++ warnings).countP (fun w => w.index == i) =
      (if again = true ∧ j = i then 1 else 0) + warnings.countP fun w => w.index == i := by
  cases again with
  | false =>
      simp
  | true =>
      by_cases hij : j = i
      · simp [hij, Nat.add_comm]
      · simp [hij]

theorem addEntries_eq_ok {es : List (Phrase × Datum ν)} (h : forall e, e ∈ es -> IsEntry e)
    (m : Colors) :
    exists (warnings : List Warning) (m' : Colors),
      addEntries m (es.map Yaml.textEntry) = (warnings, .ok m') ∧
      forall i : Index,
        m'.get? i = ((entriesOf i es).getLast?.map Prod.snd).or (m.get? i) ∧
        warnings.countP (fun w => w.index == i) =
          (entriesOf i es).length - (if m.contains i then 0 else 1) := by
  induction es generalizing m with
  | nil =>
      refine ⟨[], m, rfl, ?_⟩
      intro i
      exact ⟨rfl, (Nat.zero_sub _).symm⟩
  | cons e rest ih =>
      have hrest : forall a, a ∈ rest -> IsEntry a := fun a ha => h a (List.mem_cons_of_mem e ha)
      by_cases hheader : isHeader (Yaml.textEntry e) = true
      · rcases ih hrest m with ⟨warnings, m', hadd, hresult⟩
        refine ⟨warnings, m', ?_, ?_⟩
        · rw [List.map_cons, addEntries_header m _ hheader, hadd]
        · intro i
          rw [entriesOf_cons_of_not_named (named_of_isHeader hheader i)]
          exact hresult i
      · rcases (h e List.mem_cons_self).resolve_left hheader with ⟨j, c, hdecode⟩
        rcases ih hrest (m.insert j c) with ⟨warnings, m', hadd, hresult⟩
        refine ⟨(if m.contains j then [⟨j, c⟩] else []) ++ warnings, m', ?_, ?_⟩
        · rw [List.map_cons, addEntries_color m _ (by simpa using hheader) hdecode, hadd]
        · intro i
          rcases hresult i with ⟨hget, hcount⟩
          rw [hget, countP_warning, hcount, Colors.get?_insert, Colors.contains_insert]
          by_cases hij : j = i
          · have hnamed : named i e = some (e.1, c) := by
              rw [named_of_decode hdecode, if_pos hij]
            rw [entriesOf_cons_of_named hnamed, if_pos hij, List.getLast?_cons, hij]
            constructor
            · cases (entriesOf i rest).getLast? with
              | none =>
                  rfl
              | some d =>
                  rfl
            · rw [List.length_cons]
              cases m.contains i with
              | false =>
                  simp
              | true =>
                  simp [Nat.add_comm]
          · have hnamed : named i e = none := by
              rw [named_of_decode hdecode, if_neg hij]
            rw [entriesOf_cons_of_not_named hnamed, if_neg hij]
            simp [hij]

/-!
# The name and the author
-/

theorem get?_textEntry (es : List (Phrase × Datum ν)) (key : String) :
    get? (es.map Yaml.textEntry) key = Entries.get? es (.ofText key) := by
  induction es with
  | nil =>
      rfl
  | cons e rest ih =>
      have hsame : isText key (Yaml.textEntry e).1 = (e.1 == .ofText key) := rfl
      cases hkey : e.1 == Phrase.ofText key with
      | true =>
          rw [hkey] at hsame
          rw [List.map_cons, get?_cons_of_isText _ hsame]
          simp [Entries.get?, hkey, Yaml.textEntry]
      | false =>
          rw [hkey] at hsame
          rw [List.map_cons, get?_cons_of_not_isText _ hsame, ih]
          simp [Entries.get?, hkey]

theorem exists_getText {items : List (Phrase × Datum ν)} (h : IsDocument items) {key : String}
    (hkey : key = nameKey ∨ key = authorKey) :
    exists p : Phrase,
      getText ((Entries.ofList items).map Yaml.textEntry) key = .ok p := by
  have hitems : Phrase.ofText key ∈ items.map Prod.fst := by
    rcases hkey with hkey | hkey
    · rw [hkey]
      exact h.name
    · rw [hkey]
      exact h.author
  have hmerged : Phrase.ofText key ∈ (Entries.ofList items).map Prod.fst := by
    rw [Entries.keys_ofList, List.mem_eraseDups]
    exact hitems
  rcases List.mem_map.mp hmerged with ⟨e, he, hfst⟩
  have hget := Entries.get?_of_mem (Entries.nodup_keys_ofList items) he
  have hheader : isHeader (Yaml.textEntry e) = true := by
    have hsame : isText key (Yaml.textEntry e).1 = true := beq_iff_eq.mpr hfst
    rw [isHeader, Bool.or_eq_true]
    rcases hkey with hkey | hkey
    · exact Or.inl (hkey ▸ hsame)
    · exact Or.inr (hkey ▸ hsame)
  have htext := h.texts e (Entries.mem_of_mem_ofList he) hheader
  rcases Yaml.exists_text_of_isText htext with ⟨p, hp⟩
  refine ⟨p, ?_⟩
  rw [hfst, hp] at hget
  rw [getText, get?_textEntry, hget]

end Document

namespace Scheme

variable {ν : Type}

/-!
# What stays of each index
-/

def warnsOf (i : Index) : LogLine → Bool
  | .warning w => w.index == i
  | .parsed _ _ => false

theorem countP_warnsOf (i : Index) (warnings : List Document.Warning) (name : Phrase)
    (count : Nat) :
    (warnings.map LogLine.warning ++ [LogLine.parsed name count]).countP (warnsOf i) =
      warnings.countP fun w => w.index == i := by
  rw [List.countP_append, List.countP_map]
  rfl

theorem parse_of_lists {text : List Char} {items : List (Phrase × Datum ν)}
    (hlists : Yaml.Lists text items) (hdocument : Document.IsDocument items) :
    exists (log : List LogLine) (s : Scheme), parse ν text = (log, .ok s) ∧
      forall i : Index,
        s.colors.get? i = Entries.newest (Document.entriesOf i items) ∧
        log.countP (warnsOf i) =
          ((Document.entriesOf i items).map Prod.fst).eraseDups.length - 1 := by
  have hread : (Yaml.read text : Except Yaml.Fault (Datum ν)) =
      .ok (.mapping ((Entries.ofList items).map Yaml.textEntry)) :=
    (Yaml.read_eq_mapping_iff text _).mpr ⟨items, hlists, rfl⟩
  rcases Document.exists_getText hdocument (Or.inl rfl) with ⟨name, hname⟩
  rcases Document.exists_getText hdocument (Or.inr rfl) with ⟨author, hauthor⟩
  have hentries : forall e, e ∈ Entries.ofList items -> Document.IsEntry e :=
    fun e he => hdocument.entries e (Entries.mem_of_mem_ofList he)
  rcases Document.addEntries_eq_ok hentries Colors.empty with ⟨warnings, m, hadd, hresult⟩
  have hdatum : ofDatum (.mapping ((Entries.ofList items).map Yaml.textEntry)) =
      (warnings, .ok ⟨name, author, m, []⟩) := by
    rw [ofDatum, hname, hauthor]
    simp only [hadd]
  refine ⟨warnings.map .warning ++ [.parsed name m.size], createSlug ⟨name, author, m, []⟩, ?_, ?_⟩
  · rw [parse, hread]
    simp only [hdatum]
  · intro i
    rcases hresult i with ⟨hget, hcount⟩
    have hempty : Colors.empty.get? i = none := rfl
    have hnone : Colors.empty.contains i = false := rfl
    constructor
    · show m.get? i = _
      rw [hget, hempty, Option.or_none, Document.entriesOf_ofList hdocument.entries,
        Entries.getLast?_ofList]
    · rw [countP_warnsOf, hcount, hnone, Document.entriesOf_ofList hdocument.entries,
        Entries.length_ofList]
      rfl

/-- The last entry of an index is the one that stays, and the index is warned of if it
has several entries. -/
def LastEntryWins (items : List (Phrase × Datum ν)) (log : List LogLine) (s : Scheme)
    (i : Index) : Prop :=
  s.colors.get? i = (Document.entriesOf i items).getLast?.map Prod.snd ∧
  (2 ≤ (Document.entriesOf i items).length ->
    exists w : Document.Warning, .warning w ∈ log ∧ w.index = i)

theorem exists_warning_iff (log : List LogLine) (i : Index) :
    (exists w : Document.Warning, .warning w ∈ log ∧ w.index = i) <->
      0 < log.countP (warnsOf i) := by
  rw [List.countP_pos_iff]
  constructor
  · rintro ⟨w, hw, hindex⟩
    exact ⟨.warning w, hw, beq_iff_eq.mpr hindex⟩
  · rintro ⟨line, hline, hwarns⟩
    cases line with
    | warning w =>
        exact ⟨w, hline, beq_iff_eq.mp hwarns⟩
    | parsed name count =>
        cases hwarns

/-- Each document can be read.  Of an index stays the last colour of the spelling that was
the last to come up, and there is one warning less than there are spellings.  So the last
entry wins exactly if its colour is that one, and if several entries are not all spelled
alike. -/
theorem parse_keeps_newest_spelling {text : List Char} {items : List (Phrase × Datum ν)}
    (hlists : Yaml.Lists text items) (hdocument : Document.IsDocument items) :
    exists (log : List LogLine) (s : Scheme), parse ν text = (log, .ok s) ∧
      forall i : Index,
        s.colors.get? i = Entries.newest (Document.entriesOf i items) ∧
        log.countP (warnsOf i) =
          ((Document.entriesOf i items).map Prod.fst).eraseDups.length - 1 ∧
        (LastEntryWins items log s i <->
          Entries.newest (Document.entriesOf i items) =
            (Document.entriesOf i items).getLast?.map Prod.snd ∧
          (2 ≤ (Document.entriesOf i items).length ->
            2 ≤ ((Document.entriesOf i items).map Prod.fst).eraseDups.length)) := by
  rcases parse_of_lists hlists hdocument with ⟨log, s, hparse, hresult⟩
  refine ⟨log, s, hparse, ?_⟩
  intro i
  rcases hresult i with ⟨hget, hcount⟩
  refine ⟨hget, hcount, ?_⟩
  rw [LastEntryWins, exists_warning_iff, hget, hcount]
  constructor
  · rintro ⟨hlast, hwarned⟩
    refine ⟨hlast, ?_⟩
    intro hseveral
    have hpos := hwarned hseveral
    omega
  · rintro ⟨hlast, hspellings⟩
    refine ⟨hlast, ?_⟩
    intro hseveral
    have htwo := hspellings hseveral
    omega

/-!
# A document whose last entry is lost

The second spelling of `0A` comes up after the first one, and so the third entry, which
has the first spelling again, is put in front of the second.  The entries of `00` are
spelled alike, and nothing warns of them.  The text of the document is

    scheme: X
    author: Y
    base0A: '000000'
    base0a: '111111'
    base0A: '222222'
    base00: '333333'
    base00: '444444'
-/

def mixedEntries : List (List Char × List Char) :=
  [ ("scheme".toList, "X".toList), ("author".toList, "Y".toList),
    ("base0A".toList, "000000".toList), ("base0a".toList, "111111".toList),
    ("base0A".toList, "222222".toList), ("base00".toList, "333333".toList),
    ("base00".toList, "444444".toList) ]

def mixedText : List Char :=
  Yaml.write (mixedEntries.map fun e => (e.1, .ofChars e.2))

def mixedItems : List (Phrase × Datum Float) :=
  mixedEntries.map Yaml.readEntry

theorem lists_mixed : Yaml.Lists mixedText mixedItems := by
  apply Yaml.lists_write
  · exact List.cons_ne_nil _ _
  · intro e he
    have hall : forall e, e ∈ mixedEntries -> e.1 ≠ [] ∧ e.1.all Char.isAlphanum = true ∧
        e.1.length ≤ 1024 := by
      decide
    rcases hall e he with ⟨hne, halphanum, hlength⟩
    exact Yaml.Scanner.isKey_of_all hne halphanum hlength

theorem isDocument_mixed : Document.IsDocument mixedItems := by
  refine ⟨by decide, by decide, by decide, ?_⟩
  have hall : forall e, e ∈ mixedItems -> Document.isHeader (Yaml.textEntry e) = true ∨
      (Document.decodeEntry (Yaml.textEntry e)).isOk = true := by
    decide
  intro e he
  rcases hall e he with hheader | hdecode
  · exact Or.inl hheader
  · right
    cases hentry : Document.decodeEntry (Yaml.textEntry e) with
    | error fault =>
        rw [hentry] at hdecode
        cases hdecode
    | ok pair =>
        exact ⟨pair.1, pair.2, rfl⟩

theorem not_lastEntryWins_mixed :
    Yaml.Lists mixedText mixedItems ∧ Document.IsDocument mixedItems ∧
      exists (log : List LogLine) (s : Scheme), parse Float mixedText = (log, .ok s) ∧
        s.colors.get? ⟨0x0A⟩ = some ⟨0x11, 0x11, 0x11⟩ ∧
        ¬LastEntryWins mixedItems log s ⟨0x0A⟩ ∧ ¬LastEntryWins mixedItems log s ⟨0x00⟩ := by
  have hnewest : Entries.newest (Document.entriesOf ⟨0x0A⟩ mixedItems) =
      some ⟨0x11, 0x11, 0x11⟩ := by
    decide
  have hlast : (Document.entriesOf ⟨0x0A⟩ mixedItems).getLast?.map Prod.snd =
      some ⟨0x22, 0x22, 0x22⟩ := by
    decide
  have htwice : (Document.entriesOf ⟨0x00⟩ mixedItems).length = 2 := by
    decide
  have halike : ((Document.entriesOf ⟨0x00⟩ mixedItems).map Prod.fst).eraseDups.length = 1 := by
    decide
  rcases parse_of_lists lists_mixed isDocument_mixed with ⟨log, s, hparse, hresult⟩
  have hget := (hresult ⟨0x0A⟩).left.trans hnewest
  have hcount := (hresult ⟨0x00⟩).right
  refine ⟨lists_mixed, isDocument_mixed, log, s, hparse, hget, ?_, ?_⟩
  · intro hwins
    have heq := hget.symm.trans (hwins.left.trans hlast)
    revert heq
    decide
  · intro hwins
    have hwarned := (exists_warning_iff log ⟨0x00⟩).mp (hwins.right (Nat.le_of_eq htwice.symm))
    rw [hcount, halike] at hwarned
    exact Nat.lt_irrefl 0 hwarned

theorem parse_keeps_newest_spelling_mixed :
    Yaml.Lists mixedText mixedItems ∧ Document.IsDocument mixedItems ∧
      exists (log : List LogLine) (s : Scheme), parse Float mixedText = (log, .ok s) ∧
        s.colors.get? ⟨0x0A⟩ = some ⟨0x11, 0x11, 0x11⟩ ∧ log.countP (warnsOf ⟨0x0A⟩) = 1 := by
  rcases parse_keeps_newest_spelling lists_mixed isDocument_mixed with
    ⟨log, s, hparse, hresult⟩
  rcases hresult ⟨0x0A⟩ with ⟨hget, hcount, _⟩
  have hnewest : Entries.newest (Document.entriesOf ⟨0x0A⟩ mixedItems) =
      some ⟨0x11, 0x11, 0x11⟩ := by
    decide
  have hspellings : ((Document.entriesOf ⟨0x0A⟩ mixedItems).map Prod.fst).eraseDups.length = 2 := by
    decide
  refine ⟨lists_mixed, isDocument_mixed, log, s, hparse, hget.trans hnewest, ?_⟩
  rw [hcount, hspellings]

end Scheme
end Palette
