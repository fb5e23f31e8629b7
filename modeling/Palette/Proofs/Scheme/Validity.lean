import Palette.Proofs.Field.Grammar
import Palette.Proofs.Scheme.Codes
import Palette.Proofs.Scheme.Document

/-!
# Which documents are schemes

A document is a scheme exactly if it is a mapping with a name and an author in which all
else are colours.  Of several faults the one that comes first is reported: first the shape
of the document, then its name, its author and its other entries in their order, and of
one entry the key before the value.
-/

namespace Palette
namespace Document

variable {ν : Type}

/-!
# The name and the author
-/

/-- The value that a mapping has under a text key. -/
def Holds (entries : List (Datum ν × Datum ν)) (key : String) (value : Datum ν) : Prop :=
  exists before after, entries = before ++ (.text (.ofText key), value) :: after ∧
    forall e, e ∈ before -> e.1 ≠ .text (.ofText key)

def Lacks (entries : List (Datum ν × Datum ν)) (key : String) : Prop :=
  forall e, e ∈ entries -> e.1 ≠ .text (.ofText key)

/-- What is wrong with the name or the author. -/
inductive HeaderFault (entries : List (Datum ν × Datum ν)) (key : String) : Fault ν → Prop where
  | missing : Lacks entries key → HeaderFault entries key (.missing key)
  | notText {value : Datum ν} : Holds entries key value → (forall p, value ≠ .text p) →
      HeaderFault entries key (.notText key value)

theorem isText_iff {key : String} {d : Datum ν} :
    isText key d = true <-> d = .text (.ofText key) := by
  cases d with
  | text p =>
      rw [isText, beq_iff_eq, Datum.text.injEq]
  | _ =>
      exact iff_of_false nofun nofun

theorem get?_eq_some_iff {entries : List (Datum ν × Datum ν)} {key : String} {value : Datum ν} :
    get? entries key = some value <-> Holds entries key value := by
  constructor
  · intro h
    rcases Option.map_eq_some_iff.mp h with ⟨e, hfind, hvalue⟩
    rcases List.find?_eq_some_iff_append.mp hfind with ⟨hkey, before, after, hentries, hbefore⟩
    refine ⟨before, after, ?_, ?_⟩
    · rw [hentries, ← hvalue, ← isText_iff.mp hkey]
    · intro a ha hsame
      have hnot := hbefore a ha
      rw [isText_iff.mpr hsame] at hnot
      cases hnot
  · rintro ⟨before, after, hentries, hbefore⟩
    have hfind : entries.find? (fun e => isText key e.1) =
        some (.text (.ofText key), value) := by
      apply List.find?_eq_some_iff_append.mpr
      refine ⟨isText_self key, before, after, hentries, ?_⟩
      intro a ha
      rw [Bool.not_eq_true', Bool.eq_false_iff]
      intro hsame
      exact hbefore a ha (isText_iff.mp hsame)
    rw [get?, hfind]
    rfl

theorem get?_eq_none_iff {entries : List (Datum ν × Datum ν)} {key : String} :
    get? entries key = none <-> Lacks entries key := by
  rw [get?, Option.map_eq_none_iff, List.find?_eq_none]
  simp only [isText_iff]
  rfl

theorem getText_eq_ok_iff {entries : List (Datum ν × Datum ν)} {key : String} {p : Phrase} :
    getText entries key = .ok p <-> Holds entries key (.text p) := by
  rw [← get?_eq_some_iff]
  constructor
  · intro h
    unfold getText at h
    split at h
    case h_1 =>
      cases h
    case h_2 q hget =>
      injection h with hq
      rw [hget, hq]
    case h_3 =>
      cases h
  · intro h
    rw [getText, h]

theorem getText_eq_error_iff {entries : List (Datum ν × Datum ν)} {key : String}
    {fault : Fault ν} : getText entries key = .error fault <-> HeaderFault entries key fault := by
  constructor
  · intro h
    unfold getText at h
    split at h
    case h_1 hget =>
      injection h with hfault
      rw [← hfault]
      exact HeaderFault.missing (get?_eq_none_iff.mp hget)
    case h_2 =>
      cases h
    case h_3 value hnot hget =>
      injection h with hfault
      rw [← hfault]
      refine HeaderFault.notText (get?_eq_some_iff.mp hget) ?_
      intro p hvalue
      exact hnot p hvalue
  · intro h
    cases h with
    | missing hlacks =>
        rw [getText, get?_eq_none_iff.mpr hlacks]
    | @notText value hholds hnot =>
        rw [getText, get?_eq_some_iff.mpr hholds]
        cases value with
        | text p =>
            exact absurd rfl (hnot p)
        | _ =>
            rfl

/-!
# The entries of colours
-/

def IsHeaderKey (d : Datum ν) : Prop :=
  d = .text (.ofText nameKey) ∨ d = .text (.ofText authorKey)

/-- An entry that is no fault. -/
def IsSound (e : Datum ν × Datum ν) : Prop :=
  IsHeaderKey e.1 ∨ (Index.IsKey e.1 ∧ Rgb.IsCode e.2)

/-- What is wrong with an entry of a colour.  The value matters only under a key. -/
inductive EntryFault : Datum ν × Datum ν → Fault ν → Prop where
  | key {key value : Datum ν} {fault : CodeFault ν} :
      Index.KeyFault key fault → EntryFault (key, value) (.badKey fault)
  | value {key : String} {value : Datum ν} {fault : CodeFault ν} :
      Index.IsKey (.text (.ofText key) : Datum ν) → Rgb.ValueFault value fault →
        EntryFault (.text (.ofText key), value) (.badValue key fault)

def FirstFault (entries : List (Datum ν × Datum ν)) (fault : Fault ν) : Prop :=
  exists before e after, entries = before ++ e :: after ∧
    (forall a, a ∈ before -> IsSound a) ∧ ¬IsHeaderKey e.1 ∧ EntryFault e fault

theorem isHeader_iff {e : Datum ν × Datum ν} : isHeader e = true <-> IsHeaderKey e.1 := by
  rw [isHeader, Bool.or_eq_true, isText_iff, isText_iff]
  rfl

theorem decodeEntry_eq_ok_iff {e : Datum ν × Datum ν} {i : Index} {c : Rgb} :
    decodeEntry e = .ok (i, c) <->
      Index.IsKeyOf e.1 i ∧ (Rgb.parse e.2 : Except (CodeFault ν) Rgb) = .ok c := by
  rw [← Index.parse_eq_ok_iff]
  constructor
  · intro h
    unfold decodeEntry at h
    split at h
    case h_1 =>
      cases h
    case h_2 index hindex =>
      split at h
      case h_1 =>
        cases h
      case h_2 color hcolor =>
        cases h
        exact ⟨hindex, hcolor⟩
  · rintro ⟨hi, hc⟩
    rw [decodeEntry, hi]
    simp only [hc]

theorem exists_decodeEntry_iff {e : Datum ν × Datum ν} :
    (exists i c, decodeEntry e = .ok (i, c)) <-> Index.IsKey e.1 ∧ Rgb.IsCode e.2 := by
  simp only [decodeEntry_eq_ok_iff, ← Index.parse_eq_ok_iff, ← Index.exists_parse_iff,
    ← Rgb.exists_parse_iff, exists_and_left, exists_and_right]

theorem exists_text_of_isKey {d : Datum ν} (h : Index.IsKey d) :
    exists key : String, d = .text (.ofText key) ∧ d.text? = some key := by
  rcases h with ⟨high, low, hd, _⟩
  refine ⟨String.ofList (Index.word ++ [high, low]), ?_, ?_⟩
  · rw [hd, Phrase.ofText, String.toList_ofList]
  · rw [hd, Datum.text?, Phrase.text?, Phrase.chars?_ofChars]
    rfl

theorem decodeEntry_eq_error_iff {e : Datum ν × Datum ν} {fault : Fault ν} :
    decodeEntry e = .error fault <-> EntryFault e fault := by
  cases e with
  | mk key value =>
      constructor
      · intro h
        unfold decodeEntry at h
        split at h
        case h_1 code hcode =>
          injection h with hfault
          rw [← hfault]
          exact EntryFault.key (Index.parse_eq_error_iff.mp hcode)
        case h_2 i hi =>
          split at h
          case h_1 code hcode =>
            have hkey := Index.exists_parse_iff.mp ⟨i, hi⟩
            rcases exists_text_of_isKey hkey with ⟨word, hword, htext⟩
            injection h with hfault
            rw [← hfault, htext, Option.getD_some]
            change key = _ at hword
            rw [hword] at hkey ⊢
            exact EntryFault.value hkey (Rgb.parse_eq_error_iff.mp hcode)
          case h_2 =>
            cases h
      · intro h
        cases h with
        | key hkey =>
            rw [decodeEntry, Index.parse_eq_error_iff.mpr hkey]
        | value hkey hvalue =>
            rcases Index.exists_parse_iff.mpr hkey with ⟨i, hi⟩
            rw [decodeEntry, hi]
            simp only [Rgb.parse_eq_error_iff.mpr hvalue, Datum.text?,
              Phrase.text?_eq_some_iff.mpr rfl, Option.getD_some]

theorem EntryFault.not_isSound {e : Datum ν × Datum ν} {fault : Fault ν} (h : EntryFault e fault)
    (hheader : ¬IsHeaderKey e.1) : ¬IsSound e := by
  rintro (hkey | hcolor)
  · exact hheader hkey
  · rcases exists_decodeEntry_iff.mpr hcolor with ⟨i, c, hdecode⟩
    rw [decodeEntry_eq_error_iff.mpr h] at hdecode
    cases hdecode

theorem firstFault_cons_of_isSound {e : Datum ν × Datum ν} (he : IsSound e)
    {rest : List (Datum ν × Datum ν)} {fault : Fault ν} :
    FirstFault (e :: rest) fault <-> FirstFault rest fault := by
  constructor
  · rintro ⟨before, a, after, hentries, hbefore, hheader, hfault⟩
    cases before with
    | nil =>
        injection hentries with hhead _
        rw [← hhead] at hheader hfault
        exact absurd he (hfault.not_isSound hheader)
    | cons first before =>
        injection hentries with _ htail
        refine ⟨before, a, after, htail, ?_, hheader, hfault⟩
        intro b hb
        exact hbefore b (List.mem_cons_of_mem first hb)
  · rintro ⟨before, a, after, hentries, hbefore, hheader, hfault⟩
    refine ⟨e :: before, a, after, ?_, ?_, hheader, hfault⟩
    · rw [hentries, List.cons_append]
    · rw [List.forall_mem_cons]
      exact ⟨he, hbefore⟩

theorem firstFault_cons_of_entryFault {e : Datum ν × Datum ν} {first : Fault ν}
    (hfirst : EntryFault e first) (hheader : ¬IsHeaderKey e.1) {rest : List (Datum ν × Datum ν)}
    {fault : Fault ν} : FirstFault (e :: rest) fault <-> first = fault := by
  constructor
  · rintro ⟨before, a, after, hentries, hbefore, _, hfault⟩
    cases before with
    | nil =>
        injection hentries with hhead _
        rw [← hhead, ← decodeEntry_eq_error_iff, decodeEntry_eq_error_iff.mpr hfirst] at hfault
        injection hfault
    | cons other before =>
        injection hentries with hhead _
        have hsound := hbefore other List.mem_cons_self
        rw [← hhead] at hsound
        exact absurd hsound (hfirst.not_isSound hheader)
  · intro h
    rw [← h]
    exact ⟨[], e, rest, rfl, nofun, hheader, hfirst⟩

/-!
# The run over the entries
-/

theorem addEntries_cons_cases (m : Colors) (e : Datum ν × Datum ν)
    (rest : List (Datum ν × Datum ν)) :
    (IsHeaderKey e.1 ∧ (addEntries m (e :: rest)).2 = (addEntries m rest).2) ∨
      (exists i c, ¬IsHeaderKey e.1 ∧ decodeEntry e = .ok (i, c) ∧
        (addEntries m (e :: rest)).2 = (addEntries (m.insert i c) rest).2) ∨
      exists fault, ¬IsHeaderKey e.1 ∧ EntryFault e fault ∧
        (addEntries m (e :: rest)).2 = .error fault := by
  by_cases hheader : isHeader e = true
  · rw [addEntries_header m rest hheader]
    exact Or.inl ⟨isHeader_iff.mp hheader, rfl⟩
  · have hkey : ¬IsHeaderKey e.1 := fun hkey => hheader (isHeader_iff.mpr hkey)
    cases hdecode : decodeEntry e with
    | error fault =>
        refine Or.inr (Or.inr ⟨fault, hkey, decodeEntry_eq_error_iff.mp hdecode, ?_⟩)
        rw [addEntries, if_neg hheader, hdecode]
    | ok pair =>
        cases pair with
        | mk i c =>
            refine Or.inr (Or.inl ⟨i, c, hkey, rfl, ?_⟩)
            rw [addEntries_color m rest (by simpa using hheader) hdecode]

theorem isSound_of_decodeEntry {e : Datum ν × Datum ν} {i : Index} {c : Rgb}
    (h : decodeEntry e = .ok (i, c)) : IsSound e :=
  Or.inr (exists_decodeEntry_iff.mp ⟨i, c, h⟩)

theorem addEntries_eq_error_iff {entries : List (Datum ν × Datum ν)} {m : Colors}
    {fault : Fault ν} :
    (addEntries m entries).2 = .error fault <-> FirstFault entries fault := by
  induction entries generalizing m with
  | nil =>
      constructor
      · intro h
        cases h
      · rintro ⟨before, e, after, hentries, _⟩
        cases before with
        | nil =>
            cases hentries
        | cons first before =>
            cases hentries
  | cons e rest ih =>
      rcases addEntries_cons_cases m e rest with
        ⟨hkey, hrun⟩ | ⟨i, c, _, hdecode, hrun⟩ | ⟨first, hkey, hfirst, hrun⟩
      · rw [hrun, ih, firstFault_cons_of_isSound (Or.inl hkey)]
      · rw [hrun, ih, firstFault_cons_of_isSound (isSound_of_decodeEntry hdecode)]
      · rw [hrun, firstFault_cons_of_entryFault hfirst hkey, Except.error.injEq]

theorem exists_addEntries_iff {entries : List (Datum ν × Datum ν)} {m : Colors} :
    (exists m', (addEntries m entries).2 = .ok m') <-> forall e, e ∈ entries -> IsSound e := by
  induction entries generalizing m with
  | nil =>
      exact iff_of_true ⟨m, rfl⟩ nofun
  | cons e rest ih =>
      rw [List.forall_mem_cons]
      rcases addEntries_cons_cases m e rest with
        ⟨hkey, hrun⟩ | ⟨i, c, _, hdecode, hrun⟩ | ⟨fault, hkey, hfault, hrun⟩
      · have hsound : IsSound e := Or.inl hkey
        rw [hrun, ih, and_iff_right hsound]
      · rw [hrun, ih, and_iff_right (isSound_of_decodeEntry hdecode)]
      · rw [hrun]
        constructor
        · rintro ⟨m', h⟩
          cases h
        · rintro ⟨hsound, _⟩
          exact absurd hsound (hfault.not_isSound hkey)

theorem FirstFault.isCode {entries : List (Datum ν × Datum ν)} {fault : Fault ν}
    (h : FirstFault entries fault) : fault.isCode = true := by
  rcases h with ⟨_, e, _, _, _, _, hfault⟩
  cases hfault with
  | key _ =>
      rfl
  | value _ _ =>
      rfl

theorem HeaderFault.not_isCode {entries : List (Datum ν × Datum ν)} {key : String}
    {fault : Fault ν} (h : HeaderFault entries key fault) : fault.isCode = false := by
  cases h with
  | missing _ =>
      rfl
  | notText _ _ =>
      rfl

/-!
# Documents with more entries
-/

theorem Holds.append {entries : List (Datum ν × Datum ν)} {key : String} {value : Datum ν}
    (h : Holds entries key value) (more : List (Datum ν × Datum ν)) :
    Holds (entries ++ more) key value := by
  rcases h with ⟨before, after, hentries, hbefore⟩
  refine ⟨before, after ++ more, ?_, hbefore⟩
  rw [hentries, List.append_assoc, List.cons_append]

theorem FirstFault.append {entries : List (Datum ν × Datum ν)} {fault : Fault ν}
    (h : FirstFault entries fault) (more : List (Datum ν × Datum ν)) :
    FirstFault (entries ++ more) fault := by
  rcases h with ⟨before, e, after, hentries, hbefore, hheader, hfault⟩
  refine ⟨before, e, after ++ more, ?_, hbefore, hheader, hfault⟩
  rw [hentries, List.append_assoc, List.cons_append]

/-!
# Schemes
-/

/-- A mapping with texts for a name and an author. -/
def HasHeader (d : Datum ν) : Prop :=
  exists entries name author, d = .mapping entries ∧
    Holds entries nameKey (.text name) ∧ Holds entries authorKey (.text author)

/-- A mapping with a name and an author in which all else are colours. -/
def IsScheme (d : Datum ν) : Prop :=
  exists entries name author, d = .mapping entries ∧
    Holds entries nameKey (.text name) ∧ Holds entries authorKey (.text author) ∧
      forall e, e ∈ entries -> IsSound e

inductive Reports : Datum ν → Fault ν → Prop where
  | shape {d : Datum ν} : (forall entries, d ≠ .mapping entries) → Reports d (.notMapping d)
  | name {entries : List (Datum ν × Datum ν)} {fault : Fault ν} :
      HeaderFault entries nameKey fault → Reports (.mapping entries) fault
  | author {entries : List (Datum ν × Datum ν)} {name : Phrase} {fault : Fault ν} :
      Holds entries nameKey (.text name) → HeaderFault entries authorKey fault →
        Reports (.mapping entries) fault
  | entry {entries : List (Datum ν × Datum ν)} {name author : Phrase} {fault : Fault ν} :
      Holds entries nameKey (.text name) → Holds entries authorKey (.text author) →
        FirstFault entries fault → Reports (.mapping entries) fault

theorem headerFault_or_holds (entries : List (Datum ν × Datum ν)) (key : String) :
    (exists fault, HeaderFault entries key fault) ∨ exists p, Holds entries key (.text p) := by
  cases h : getText entries key with
  | error fault =>
      exact Or.inl ⟨fault, getText_eq_error_iff.mp h⟩
  | ok p =>
      exact Or.inr ⟨p, getText_eq_ok_iff.mp h⟩

theorem HeaderFault.not_holds {entries : List (Datum ν × Datum ν)} {key : String}
    {fault : Fault ν} (h : HeaderFault entries key fault) (p : Phrase) :
    ¬Holds entries key (.text p) := by
  intro hholds
  rw [← getText_eq_error_iff] at h
  rw [← getText_eq_ok_iff, h] at hholds
  cases hholds

theorem Reports.isCode_iff {d : Datum ν} {fault : Fault ν} (h : Reports d fault) :
    fault.isCode = true <-> HasHeader d := by
  cases h with
  | shape hnot =>
      constructor
      · intro hcode
        cases hcode
      · rintro ⟨entries, _, _, hd, _⟩
        exact absurd hd (hnot entries)
  | name hfault =>
      rw [hfault.not_isCode]
      constructor
      · intro hcode
        cases hcode
      · rintro ⟨_, name, _, hd, hname, _⟩
        cases hd
        exact absurd hname (hfault.not_holds name)
  | author _ hfault =>
      rw [hfault.not_isCode]
      constructor
      · intro hcode
        cases hcode
      · rintro ⟨_, _, author, hd, _, hauthor⟩
        cases hd
        exact absurd hauthor (hfault.not_holds author)
  | entry hname hauthor hfault =>
      exact iff_of_true hfault.isCode ⟨_, _, _, rfl, hname, hauthor⟩

theorem Reports.mem_of_badValue {d : Datum ν} {key : String} {fault : CodeFault ν}
    (h : Reports d (.badValue key fault)) :
    exists entries value, d = .mapping entries ∧ (.text (.ofText key), value) ∈ entries := by
  cases h with
  | name hfault =>
      cases hfault
  | author _ hfault =>
      cases hfault
  | @entry entries _ _ _ _ _ hfault =>
      rcases hfault with ⟨before, e, after, hentries, _, _, hfault⟩
      cases hfault with
      | @value _ value _ _ _ =>
          refine ⟨entries, value, rfl, ?_⟩
          rw [hentries]
          exact List.mem_append_right before List.mem_cons_self

theorem Reports.append {entries : List (Datum ν × Datum ν)} {fault : Fault ν}
    (h : Reports (.mapping entries) fault) (hcode : fault.isCode = true)
    (more : List (Datum ν × Datum ν)) : Reports (.mapping (entries ++ more)) fault := by
  cases h with
  | shape hnot =>
      exact absurd rfl (hnot entries)
  | name hfault =>
      rw [hfault.not_isCode] at hcode
      cases hcode
  | author _ hfault =>
      rw [hfault.not_isCode] at hcode
      cases hcode
  | entry hname hauthor hfault =>
      exact Reports.entry (hname.append more) (hauthor.append more) (hfault.append more)

end Document

namespace Scheme

open Document

variable {ν : Type}

theorem ofDatum_of_not_mapping {d : Datum ν} (h : forall entries, d ≠ .mapping entries) :
    ofDatum d = ([], .error (.notMapping d)) := by
  cases d with
  | mapping entries =>
      exact absurd rfl (h entries)
  | _ =>
      rfl

theorem ofDatum_of_holds {entries : List (Datum ν × Datum ν)} {name author : Phrase}
    (hname : Holds entries nameKey (.text name))
    (hauthor : Holds entries authorKey (.text author)) :
    ofDatum (.mapping entries) =
      ((addEntries .empty entries).1,
        (addEntries .empty entries).2.map fun colors => ⟨name, author, colors, []⟩) := by
  rw [ofDatum, getText_eq_ok_iff.mpr hname]
  simp only [getText_eq_ok_iff.mpr hauthor]
  cases hadd : addEntries .empty entries with
  | mk warnings result =>
      cases result with
      | error fault =>
          rfl
      | ok colors =>
          rfl

theorem ofDatum_of_nameFault {entries : List (Datum ν × Datum ν)} {fault : Document.Fault ν}
    (h : HeaderFault entries nameKey fault) : ofDatum (.mapping entries) = ([], .error fault) := by
  rw [ofDatum, getText_eq_error_iff.mpr h]

theorem ofDatum_of_authorFault {entries : List (Datum ν × Datum ν)} {name : Phrase}
    {fault : Document.Fault ν} (hname : Holds entries nameKey (.text name))
    (h : HeaderFault entries authorKey fault) :
    ofDatum (.mapping entries) = ([], .error fault) := by
  rw [ofDatum, getText_eq_ok_iff.mpr hname]
  simp only [getText_eq_error_iff.mpr h]

theorem ofDatum_of_reports {d : Datum ν} {fault : Document.Fault ν} (h : Reports d fault) :
    (ofDatum d).2 = .error fault := by
  cases h with
  | shape hnot =>
      rw [ofDatum_of_not_mapping hnot]
  | name hfault =>
      rw [ofDatum_of_nameFault hfault]
  | author hname hfault =>
      rw [ofDatum_of_authorFault hname hfault]
  | entry hname hauthor hfault =>
      rw [ofDatum_of_holds hname hauthor, addEntries_eq_error_iff.mpr hfault]
      rfl

theorem reports_or_hasHeader (d : Datum ν) : (exists fault, Reports d fault) ∨ HasHeader d := by
  by_cases hmapping : exists entries, d = .mapping entries
  · rcases hmapping with ⟨entries, hd⟩
    rw [hd]
    rcases headerFault_or_holds entries nameKey with ⟨fault, hfault⟩ | ⟨name, hname⟩
    · exact Or.inl ⟨fault, Reports.name hfault⟩
    · rcases headerFault_or_holds entries authorKey with ⟨fault, hfault⟩ | ⟨author, hauthor⟩
      · exact Or.inl ⟨fault, Reports.author hname hfault⟩
      · exact Or.inr ⟨entries, name, author, rfl, hname, hauthor⟩
  · exact Or.inl ⟨_, Reports.shape fun entries hd => hmapping ⟨entries, hd⟩⟩

theorem ofDatum_eq_error_iff {d : Datum ν} {fault : Document.Fault ν} :
    (ofDatum d).2 = .error fault <-> Reports d fault := by
  constructor
  · intro h
    rcases reports_or_hasHeader d with
      ⟨first, hfirst⟩ | ⟨entries, name, author, hd, hname, hauthor⟩
    · rw [ofDatum_of_reports hfirst] at h
      injection h with hfault
      rw [← hfault]
      exact hfirst
    · rw [hd, ofDatum_of_holds hname hauthor] at h
      rw [hd]
      cases hadd : (addEntries .empty entries).2 with
      | error first =>
          rw [hadd] at h
          injection h with hfault
          rw [← hfault]
          exact Reports.entry hname hauthor (addEntries_eq_error_iff.mp hadd)
      | ok colors =>
          rw [hadd] at h
          cases h
  · exact ofDatum_of_reports

theorem exists_ofDatum_iff {d : Datum ν} : (exists s, (ofDatum d).2 = .ok s) <-> IsScheme d := by
  constructor
  · rintro ⟨s, h⟩
    rcases reports_or_hasHeader d with
      ⟨fault, hfault⟩ | ⟨entries, name, author, hd, hname, hauthor⟩
    · rw [ofDatum_of_reports hfault] at h
      cases h
    · refine ⟨entries, name, author, hd, hname, hauthor, ?_⟩
      rw [hd, ofDatum_of_holds hname hauthor] at h
      apply (exists_addEntries_iff (m := .empty)).mp
      cases hadd : (addEntries .empty entries).2 with
      | error fault =>
          rw [hadd] at h
          cases h
      | ok colors =>
          exact ⟨colors, rfl⟩
  · rintro ⟨entries, name, author, hd, hname, hauthor, hsound⟩
    rcases (exists_addEntries_iff (m := .empty)).mpr hsound with ⟨colors, hcolors⟩
    rw [hd, ofDatum_of_holds hname hauthor, hcolors]
    exact ⟨_, rfl⟩

end Scheme
end Palette
