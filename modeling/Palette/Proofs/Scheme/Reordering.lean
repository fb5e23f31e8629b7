import Mathlib.Data.List.Infix
import Palette.Proofs.Scheme.Canonical
import Palette.Proofs.Scheme.Views

/-!
# Documents in another order

What a document is read as hangs on the last entry of each index, and on nothing else of the
order of its entries.  The entries that are not the first of their index are warned of, one by
one and in their order, so the last warning of an index shows the colour that stays.
-/

namespace Palette

variable {ν : Type}

/-!
# The same colours
-/

theorem Colors.ext_get? {m n : Colors} (h : forall i, m.get? i = n.get? i) : m = n := by
  apply Colors.ext
  have hnodup : forall m : Colors, m.entries.Nodup := fun m => m.nodup_keys.of_map
  have hperm : m.entries.Perm n.entries := by
    rw [List.perm_ext_iff_of_nodup (hnodup m) (hnodup n)]
    rintro ⟨i, c⟩
    rw [m.mem_entries_iff, n.mem_entries_iff, h]
  apply hperm.eq_of_pairwise ?_ m.ascending n.ascending
  intro a b _ _ hlt hgt
  exact absurd hgt (Nat.lt_asymm hlt)

/-!
# Entries that come again
-/

namespace Document

/-- The colours that are not the first of their index, each told by those in front of it. -/
def repeats (es : List (Index × Rgb)) : List (Index × Rgb) :=
  (es.inits.zip es).filterMap fun (before, e) =>
    if e.1 ∈ before.map Prod.fst then some e else none

def ofIndex (i : Index) (es : List (Index × Rgb)) : List (Index × Rgb) :=
  es.filter fun e => e.1 == i

/-- The colours whose index is among those before or comes again. -/
def repeatsBehind (seen : List Index) : List (Index × Rgb) → List (Index × Rgb)
  | [] => []
  | e :: rest => (if e.1 ∈ seen then [e] else []) ++ repeatsBehind (e.1 :: seen) rest

theorem repeatsBehind_congr {seen other : List Index} (h : forall i, i ∈ seen <-> i ∈ other)
    (es : List (Index × Rgb)) : repeatsBehind seen es = repeatsBehind other es := by
  induction es generalizing seen other with
  | nil =>
      rfl
  | cons e rest ih =>
      have hrest : forall i, i ∈ e.1 :: seen <-> i ∈ e.1 :: other := by
        intro i
        rw [List.mem_cons, List.mem_cons, h]
      rw [repeatsBehind, repeatsBehind, ih hrest]
      simp only [h]

theorem filterMap_inits_eq_repeatsBehind (front es : List (Index × Rgb)) :
    ((es.inits.map (front ++ ·)).zip es).filterMap (fun (before, e) =>
        if e.1 ∈ before.map Prod.fst then some e else none) =
      repeatsBehind (front.map Prod.fst) es := by
  induction es generalizing front with
  | nil =>
      rfl
  | cons e rest ih =>
      have hfront : (front ++ ·) ∘ (e :: ·) = (front ++ [e] ++ ·) := by
        funext before
        exact List.append_cons front e before
      have hseen : repeatsBehind ((front ++ [e]).map Prod.fst) rest =
          repeatsBehind (e.1 :: front.map Prod.fst) rest := by
        apply repeatsBehind_congr
        intro i
        rw [List.map_append, List.mem_append, List.mem_cons, or_comm, List.map_singleton,
          List.mem_singleton]
      rw [List.inits_cons, List.map_cons, List.map_map, hfront, List.zip_cons_cons,
        List.append_nil, repeatsBehind, ← hseen, ← ih]
      by_cases hmem : e.1 ∈ front.map Prod.fst
      · rw [if_pos hmem]
        exact List.filterMap_cons_some (if_pos hmem)
      · rw [if_neg hmem]
        exact List.filterMap_cons_none (if_neg hmem)

theorem repeats_eq_repeatsBehind (es : List (Index × Rgb)) : repeats es = repeatsBehind [] es := by
  have hrun := filterMap_inits_eq_repeatsBehind [] es
  simp only [List.nil_append, List.map_id'] at hrun
  exact hrun

theorem length_repeatsBehind (seen : List Index) (es : List (Index × Rgb)) :
    (repeatsBehind seen es).length + ((es.map Prod.fst).filter (· ∉ seen)).eraseDups.length =
      es.length := by
  induction es generalizing seen with
  | nil =>
      rfl
  | cons e rest ih =>
      have hrest := ih (e.1 :: seen)
      rw [repeatsBehind, List.length_append, List.map_cons, List.length_cons]
      by_cases hmem : e.1 ∈ seen
      · have hsame : forall i, (decide (i ∉ e.1 :: seen)) = decide (i ∉ seen) := by
          intro i
          by_cases hi : i = e.1
          · simp [hi, hmem]
          · simp [hi]
        simp only [hsame] at hrest
        rw [if_pos hmem, List.filter_cons_of_neg (by simpa using hmem), List.length_singleton]
        omega
      · have hsplit : (rest.map Prod.fst).filter (· ∉ e.1 :: seen) =
            ((rest.map Prod.fst).filter (· ∉ seen)).filter (!· == e.1) := by
          rw [List.filter_filter]
          apply List.filter_congr
          intro i _
          by_cases hi : i = e.1
          · simp [hi]
          · simp [hi]
        rw [hsplit] at hrest
        rw [if_neg hmem, List.filter_cons_of_pos (by simpa using hmem), List.eraseDups_cons,
          List.length_cons, List.length_nil]
        omega

theorem ofIndex_repeatsBehind (seen : List Index) (es : List (Index × Rgb)) (i : Index) :
    ofIndex i (repeatsBehind seen es) =
      if i ∈ seen then ofIndex i es else (ofIndex i es).tail := by
  induction es generalizing seen with
  | nil =>
      by_cases hi : i ∈ seen
      · rw [if_pos hi]
        rfl
      · rw [if_neg hi]
        rfl
  | cons e rest ih =>
      have hhead : ofIndex i (e :: rest) =
          if e.1 = i then e :: ofIndex i rest else ofIndex i rest := by
        by_cases he : e.1 = i
        · simp [ofIndex, he]
        · simp [ofIndex, he]
      have hparts : ofIndex i (repeatsBehind seen (e :: rest)) =
          ofIndex i (if e.1 ∈ seen then [e] else []) ++
            ofIndex i (repeatsBehind (e.1 :: seen) rest) :=
        List.filter_append _ _
      rw [hparts, ih, hhead]
      by_cases he : e.1 = i
      · rw [if_pos he, he, if_pos List.mem_cons_self]
        by_cases hi : i ∈ seen
        · rw [if_pos hi, if_pos hi]
          simp [ofIndex, he]
        · rw [if_neg hi, if_neg hi]
          rfl
      · have hskip : ofIndex i (if e.1 ∈ seen then [e] else []) = [] := by
          by_cases hmem : e.1 ∈ seen
          · simp [ofIndex, hmem, he]
          · simp [ofIndex, hmem]
        have hmem : i ∈ e.1 :: seen <-> i ∈ seen := by
          rw [List.mem_cons, or_iff_right (Ne.symm he)]
        rw [hskip, if_neg he, List.nil_append]
        simp only [hmem]

theorem get?_ofList_eq_getLast? (es : List (Index × Rgb)) (i : Index) :
    (Colors.ofList es).get? i = (ofIndex i es).getLast?.map Prod.snd := by
  rw [Colors.get?_ofList, Entries.get?, ← List.head?_filter, List.filter_reverse,
    List.head?_reverse]
  rfl

theorem exists_getLast?_repeats {es : List (Index × Rgb)} {i : Index}
    (h : 2 ≤ (ofIndex i es).length) :
    exists c, (Colors.ofList es).get? i = some c ∧
      (ofIndex i (repeats es)).getLast? = some (i, c) := by
  rw [get?_ofList_eq_getLast?, repeats_eq_repeatsBehind, ofIndex_repeatsBehind,
    if_neg List.not_mem_nil]
  cases hes : ofIndex i es with
  | nil =>
      rw [hes] at h
      cases h
  | cons first rest =>
      have hne : rest ≠ [] := by
        intro hrest
        rw [hes, hrest] at h
        exact absurd h (Nat.not_succ_le_self 1)
      have hmem : rest.getLast hne ∈ ofIndex i es := by
        rw [hes]
        exact List.mem_cons_of_mem first (List.getLast_mem hne)
      have hindex : (rest.getLast hne).1 = i :=
        beq_iff_eq.mp (List.mem_filter.mp hmem).right
      refine ⟨(rest.getLast hne).2, ?_, ?_⟩
      · rw [List.getLast?_cons, List.getLast?_eq_some_getLast hne]
        rfl
      · rw [List.tail_cons, List.getLast?_eq_some_getLast hne, ← hindex]

/-!
# The run over the entries
-/

def colorEntries (entries : List (Datum ν × Datum ν)) : List (Index × Rgb) :=
  entries.filterMap fun e => (decodeEntry e).toOption

theorem not_decodes_of_isHeader {e : Datum ν × Datum ν} (h : isHeader e = true) :
    (decodeEntry e).toOption = none := by
  cases hdecode : decodeEntry e with
  | error fault =>
      rfl
  | ok pair =>
      have hkey := (decodeEntry_eq_ok_iff (i := pair.1) (c := pair.2).mp hdecode).left
      exact absurd hkey (not_isKeyOf_of_isHeaderKey (isHeader_iff.mp h) pair.1)

theorem addEntries_of_ok {entries : List (Datum ν × Datum ν)} {m m' : Colors} {seen : List Index}
    (hseen : forall i, m.contains i = true <-> i ∈ seen)
    (h : (addEntries m entries).2 = .ok m') :
    (addEntries m entries).1 =
        (repeatsBehind seen (colorEntries entries)).map (fun e => ⟨e.1, e.2⟩) ∧
      m' = (colorEntries entries).foldl (fun m e => m.insert e.1 e.2) m ∧
      (entries.filter (!isHeader ·)).map decodeEntry = (colorEntries entries).map .ok := by
  induction entries generalizing m seen with
  | nil =>
      cases h
      exact ⟨rfl, rfl, rfl⟩
  | cons e rest ih =>
      by_cases hheader : isHeader e = true
      · have hentries : colorEntries (e :: rest) = colorEntries rest :=
          List.filterMap_cons_none (not_decodes_of_isHeader hheader)
        rw [addEntries_header m rest hheader] at h ⊢
        rw [hentries, List.filter_cons_of_neg (by simpa using hheader)]
        exact ih hseen h
      · rw [Bool.not_eq_true] at hheader
        rcases addEntries_cons_eq_ok h with ⟨hkey, _⟩ | ⟨i, c, _, hdecode, hrest⟩
        · rw [isHeader_iff.mpr hkey] at hheader
          cases hheader
        · have hentries : colorEntries (e :: rest) = (i, c) :: colorEntries rest :=
            List.filterMap_cons_some (by rw [hdecode]; rfl)
          have hinsert : forall j, (m.insert i c).contains j = true <-> j ∈ i :: seen := by
            intro j
            rw [Colors.contains_insert, Bool.or_eq_true, decide_eq_true_iff, hseen, List.mem_cons,
              eq_comm]
          rcases ih hinsert hrest with ⟨hwarnings, hcolors, hall⟩
          rw [addEntries_color m rest hheader hdecode, hentries]
          refine ⟨?_, hcolors, ?_⟩
          · rw [hwarnings, repeatsBehind, List.map_append]
            by_cases hmem : i ∈ seen
            · rw [if_pos ((hseen i).mpr hmem), if_pos hmem]
              rfl
            · rw [if_neg fun hin => hmem ((hseen i).mp hin), if_neg hmem]
              rfl
          · rw [List.filter_cons_of_pos (by simpa using hheader), List.map_cons, hdecode, hall]
            rfl

/-!
# The last entry of each index
-/

def isAt (i : Index) (e : Datum ν × Datum ν) : Bool :=
  match (Index.parse e.1 : Except (CodeFault ν) Index) with
  | .ok j => j == i
  | .error _ => false

def lastAt? (i : Index) (entries : List (Datum ν × Datum ν)) : Option (Datum ν × Datum ν) :=
  entries.reverse.find? (isAt i)

theorem isAt_iff {i : Index} {e : Datum ν × Datum ν} :
    isAt i e = true <-> Index.IsKeyOf e.1 i := by
  rw [← Index.parse_eq_ok_iff, isAt]
  cases (Index.parse e.1 : Except (CodeFault ν) Index) with
  | error fault =>
      exact iff_of_false Bool.false_ne_true nofun
  | ok j =>
      rw [beq_iff_eq, Except.ok.injEq]

theorem lastAt?_eq_none_iff {i : Index} {entries : List (Datum ν × Datum ν)} :
    lastAt? i entries = none <-> forall e, e ∈ entries -> ¬Index.IsKeyOf e.1 i := by
  simp only [lastAt?, List.find?_eq_none, List.mem_reverse, isAt_iff]

theorem exists_split_of_lastAt? {i : Index} {entries : List (Datum ν × Datum ν)}
    {e : Datum ν × Datum ν} (h : lastAt? i entries = some e) :
    exists before after, entries = before ++ e :: after ∧ Index.IsKeyOf e.1 i ∧
      forall a, a ∈ after -> ¬Index.IsKeyOf a.1 i := by
  rcases List.find?_eq_some_iff_append.mp h with ⟨hkey, after, before, hsplit, hafter⟩
  refine ⟨before.reverse, after.reverse, ?_, isAt_iff.mp hkey, ?_⟩
  · rw [← List.reverse_reverse entries, hsplit]
    simp
  · intro a ha hother
    have hnot := hafter a (List.mem_reverse.mp ha)
    rw [isAt_iff.mpr hother] at hnot
    cases hnot

theorem get?_eq_lastAt? {entries : List (Datum ν × Datum ν)} {m : Colors}
    (h : (addEntries .empty entries).2 = .ok m) (i : Index) :
    m.get? i =
      (lastAt? i entries).bind fun e => (decodeEntry e).toOption.map Prod.snd := by
  cases hlast : lastAt? i entries with
  | none =>
      exact get?_of_unnamed h (lastAt?_eq_none_iff.mp hlast)
  | some e =>
      rcases exists_split_of_lastAt? hlast with ⟨before, after, hentries, hkey, hafter⟩
      have hmem : e ∈ entries := by
        rw [hentries]
        exact List.mem_append_right before List.mem_cons_self
      have hcode : Rgb.IsCode e.2 := by
        rcases exists_addEntries_iff.mp ⟨m, h⟩ e hmem with hheader | hsound
        · exact absurd hkey (not_isKeyOf_of_isHeaderKey hheader i)
        · exact hsound.right
      rcases Rgb.exists_parse_iff.mpr hcode with ⟨c, hc⟩
      have hdecode := decodeEntry_eq_ok_iff.mpr ⟨hkey, hc⟩
      rw [hentries] at h
      rw [get?_of_last h hdecode hafter, Option.bind_some, hdecode]
      rfl

theorem holds_iff_mem {entries : List (Datum ν × Datum ν)}
    (hkeys : (entries.map Prod.fst).Nodup) {key : String} {value : Datum ν} :
    Holds entries key value <-> (.text (.ofText key), value) ∈ entries := by
  constructor
  · rintro ⟨before, after, hentries, _⟩
    rw [hentries]
    exact List.mem_append_right before List.mem_cons_self
  · intro hmem
    rcases List.append_of_mem hmem with ⟨before, after, hentries⟩
    refine ⟨before, after, hentries, ?_⟩
    intro e he hsame
    rw [hentries, List.map_append, List.map_cons, List.nodup_append] at hkeys
    exact hkeys.right.right e.1 (List.mem_map_of_mem he) _ List.mem_cons_self hsame

theorem Holds.of_perm {entries others : List (Datum ν × Datum ν)} {key : String}
    {value : Datum ν} (h : Holds entries key value) (hkeys : (entries.map Prod.fst).Nodup)
    (hperm : others.Perm entries) : Holds others key value := by
  have hothers : (others.map Prod.fst).Nodup := (hperm.map Prod.fst).nodup_iff.mpr hkeys
  rw [holds_iff_mem hothers, hperm.mem_iff]
  exact (holds_iff_mem hkeys).mp h

end Document

namespace Scheme

open Document

/-- A document with the same last entries is read as the same scheme. -/
theorem ofDatum_of_perm {entries others : List (Datum ν × Datum ν)} {s : Scheme}
    (hkeys : (entries.map Prod.fst).Nodup) (h : (ofDatum (.mapping entries)).2 = .ok s)
    (hperm : others.Perm entries) (hlast : forall i, lastAt? i others = lastAt? i entries) :
    (ofDatum (.mapping others)).2 = .ok s := by
  have hadd := addEntries_of_ofDatum h
  rcases holds_of_ofDatum h with ⟨hname, hauthor, hslug⟩
  have hsound := exists_addEntries_iff.mp ⟨s.colors, hadd⟩
  rcases (exists_addEntries_iff (m := .empty)).mpr
    fun e he => hsound e (hperm.mem_iff.mp he) with ⟨m, hm⟩
  have hcolors : m = s.colors := by
    apply Colors.ext_get?
    intro i
    rw [get?_eq_lastAt? hm, get?_eq_lastAt? hadd, hlast]
  rw [ofDatum_of_holds (hname.of_perm hkeys hperm) (hauthor.of_perm hkeys hperm), hm, hcolors,
    ← hslug]
  rfl

theorem run_of_ofDatum {entries : List (Datum ν × Datum ν)} {s : Scheme}
    (h : (ofDatum (.mapping entries)).2 = .ok s) :
    (ofDatum (.mapping entries)).1 =
        (repeats (colorEntries entries)).map (fun e => ⟨e.1, e.2⟩) ∧
      s.colors = .ofList (colorEntries entries) ∧
      (entries.filter (!isHeader ·)).map decodeEntry = (colorEntries entries).map .ok := by
  have hnone : forall i, Colors.empty.contains i = true <-> i ∈ [] := by
    intro i
    exact iff_of_false Bool.false_ne_true List.not_mem_nil
  rcases holds_of_ofDatum h with ⟨hname, hauthor, _⟩
  rw [ofDatum_of_holds hname hauthor, repeats_eq_repeatsBehind]
  exact addEntries_of_ok hnone (addEntries_of_ofDatum h)

/-- An accepted document is read as the same scheme in every order of its entries that keeps the
last entry of each index.  Its colours are warned of where they are not the first of their index,
and where there are several of an index the last warning shows the one that stays. -/
theorem ofDatum_depends_on_last_entries {entries : List (Datum ν × Datum ν)} {s : Scheme}
    (hkeys : (entries.map Prod.fst).Nodup) (h : (ofDatum (.mapping entries)).2 = .ok s) :
    (forall others : List (Datum ν × Datum ν), others.Perm entries ->
      (forall i, lastAt? i others = lastAt? i entries) ->
      exists t, (ofDatum (.mapping others)).2 = .ok t ∧ t = s ∧ t.toPairs = s.toPairs) ∧
    (entries.filter (!isHeader ·)).map decodeEntry = (colorEntries entries).map .ok ∧
    (ofDatum (.mapping entries)).1 =
      (repeats (colorEntries entries)).map (fun e => ⟨e.1, e.2⟩) ∧
    (forall w, w ∈ (ofDatum (.mapping entries)).1 -> Index.IsUpperKey w.index.text ∧
      w.message = w.index.text ++ " given more than once; keeping " ++ w.color.text) ∧
    (ofDatum (.mapping entries)).1.length +
        ((colorEntries entries).map Prod.fst).eraseDups.length = (colorEntries entries).length ∧
    forall i, 2 ≤ (ofIndex i (colorEntries entries)).length ->
      exists c, s.colors.get? i = some c ∧
        ((ofDatum (.mapping entries)).1.filter fun w => w.index == i).getLast? =
          some ⟨i, c⟩ := by
  rcases run_of_ofDatum h with ⟨hwarnings, hcolors, hall⟩
  refine ⟨?_, hall, hwarnings, fun w _ => ⟨w.index.isUpperKey_text, rfl⟩, ?_, ?_⟩
  · intro others hperm hlast
    exact ⟨s, ofDatum_of_perm hkeys h hperm hlast, rfl, rfl⟩
  · have hlength := length_repeatsBehind [] (colorEntries entries)
    simp only [List.not_mem_nil, not_false_eq_true, decide_true, List.filter_true] at hlength
    rw [hwarnings, List.length_map, repeats_eq_repeatsBehind, hlength]
  · intro i hseveral
    rcases exists_getLast?_repeats hseveral with ⟨c, hget, hrepeat⟩
    refine ⟨c, by rw [hcolors, hget], ?_⟩
    have hfilter : ((repeats (colorEntries entries)).map (fun e => Warning.mk e.1 e.2)).filter
        (fun w => w.index == i) =
        (ofIndex i (repeats (colorEntries entries))).map fun e => ⟨e.1, e.2⟩ :=
      List.filter_map
    rw [hwarnings, hfilter, List.getLast?_map, hrepeat]
    rfl

def exchangedEntries : List (Datum Empty × Datum Empty) :=
  [(.text (.ofText authorKey), .text (.ofChars ['y'])),
    (.text (.ofChars ['b', 'a', 's', 'e', '0', 'A']), .text (.ofText "000000")),
    (.text (.ofChars ['b', 'a', 's', 'e', '1', 'f']), .text (.ofText "A0b1C2")),
    (.text (.ofText nameKey), .text (.ofChars ['x'])),
    (.text (.ofChars ['b', 'a', 's', 'e', '0', 'a']), .text (.ofText "FFffFF"))]

theorem ofDatum_depends_on_last_entries_of_exchanged :
    (unsortedEntries.map Prod.fst).Nodup ∧ exchangedEntries.Perm unsortedEntries ∧
      (forall i, lastAt? i exchangedEntries = lastAt? i unsortedEntries) ∧
      exists s : Scheme, (ofDatum (.mapping unsortedEntries)).2 = .ok s ∧
        (ofDatum (.mapping exchangedEntries)).2 = .ok s ∧
        2 ≤ (ofIndex ⟨10⟩ (colorEntries unsortedEntries)).length ∧
        s.colors.get? ⟨10⟩ = some ⟨255, 255, 255⟩ ∧
        (ofDatum (.mapping unsortedEntries)).1 = [⟨⟨10⟩, ⟨255, 255, 255⟩⟩] := by
  have hkeys : (unsortedEntries.map Prod.fst).Nodup := by
    have hphrases : [Phrase.ofText authorKey, .ofChars ['b', 'a', 's', 'e', '1', 'f'],
        .ofChars ['b', 'a', 's', 'e', '0', 'A'], .ofText nameKey,
        .ofChars ['b', 'a', 's', 'e', '0', 'a']].Nodup := by
      decide
    have hinjective : Function.Injective (Datum.text : Phrase → Datum Empty) :=
      fun _ _ => Datum.text.inj
    have hdata := hphrases.map hinjective
    exact hdata
  have hperm : exchangedEntries.Perm unsortedEntries := (List.Perm.swap _ _ _).cons _
  have hlast : forall i, lastAt? i exchangedEntries = lastAt? i unsortedEntries := by
    intro i
    by_cases hi : i = ⟨10⟩
    · rw [hi]
      rfl
    · by_cases hother : i = ⟨31⟩
      · rw [hother]
        rfl
      · have hall : exchangedEntries.all (fun e =>
            isAt ⟨10⟩ e || isAt ⟨31⟩ e || (Index.parse e.1).toOption.isNone) = true := rfl
        have hnone : forall e, e ∈ exchangedEntries -> ¬Index.IsKeyOf e.1 i := by
          intro e he hkey
          have hparse := Index.parse_eq_ok_iff.mpr hkey
          have hcases := List.all_eq_true.mp hall e he
          simp [isAt, hparse, hi, hother, Except.toOption] at hcases
        rw [lastAt?_eq_none_iff.mpr hnone, lastAt?_eq_none_iff.mpr fun e he =>
          hnone e (hperm.mem_iff.mpr he)]
  let s : Scheme :=
    ⟨.ofChars ['x'], .ofChars ['y'],
      (Colors.empty.insert ⟨31⟩ ⟨160, 177, 194⟩).insert ⟨10⟩ ⟨255, 255, 255⟩, []⟩
  have haccepted : (ofDatum (.mapping unsortedEntries)).2 = .ok s := rfl
  have hseveral : 2 ≤ (ofIndex ⟨10⟩ (colorEntries unsortedEntries)).length := by decide
  rcases ofDatum_depends_on_last_entries hkeys haccepted with
    ⟨horder, _, hwarnings, _, _, hstays⟩
  rcases horder exchangedEntries hperm hlast with ⟨t, ht, hts, _⟩
  rcases hstays ⟨10⟩ hseveral with ⟨c, hget, _⟩
  exact ⟨hkeys, hperm, hlast, s, haccepted, hts ▸ ht, hseveral, rfl, hwarnings⟩

end Scheme
end Palette
