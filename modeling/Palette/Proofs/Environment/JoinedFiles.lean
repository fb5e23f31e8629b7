import Palette.Proofs.Environment.QuotedValues

/-!
# Files of variables that are joined

What a file sets is told by its assignments, line by line.  The assignments of joined texts are
those of the first and then those of the second, so the variables of the first are updated by those
of the second, and lines that set nothing do not count.
-/

namespace Palette
namespace Dotenv

/-!
# Lines that set nothing
-/

/-- The lines that set nothing: they are blank, are comments, have no equals sign, or have no name
in front of it. -/
inductive IsIdle : List Char → Prop where
  | blank {line : List Char} (h : forall c, c ∈ line -> Text.isBlank c = true) : IsIdle line
  | comment {gap rest : List Char} (h : forall c, c ∈ gap -> Text.isBlank c = true) :
      IsIdle (gap ++ '#' :: rest)
  | noEquals {line : List Char} (h : '=' ∉ line) : IsIdle line
  | noName {gap value : List Char} (h : forall c, c ∈ gap -> Text.isBlank c = true) :
      IsIdle (gap ++ '=' :: value)

theorem splitEquals?_eq_none_iff {s : List Char} : splitEquals? s = none <-> '=' ∉ s := by
  induction s with
  | nil => simp [splitEquals?]
  | cons c rest ih =>
      rw [splitEquals?, List.mem_cons, not_or]
      by_cases hc : c = '='
      · simp [hc]
      · rw [if_neg hc, Option.map_eq_none_iff, ih]
        exact (and_iff_right (Ne.symm hc)).symm

theorem eq_of_splitEquals? {s key value : List Char} (h : splitEquals? s = some (key, value)) :
    s = key ++ '=' :: value := by
  induction s generalizing key with
  | nil => cases h
  | cons c rest ih =>
      rw [splitEquals?] at h
      split at h
      case isTrue hc =>
        cases h
        rw [hc]
        rfl
      case isFalse =>
        rcases Option.map_eq_some_iff.mp h with ⟨⟨front, back⟩, hrest, hsame⟩
        cases hsame
        rw [ih hrest]
        rfl

theorem isIdle_of_parseLine? {line : List Char} (h : parseLine? line = none) : IsIdle line := by
  rcases Text.exists_trim_around line with ⟨front, back, hline, hfront, hback⟩
  rw [parseLine?] at h
  split at h
  case isTrue hcomment =>
    rcases List.head?_eq_some_iff.mp hcomment with ⟨rest, hrest⟩
    rw [hline, hrest]
    exact .comment hfront
  case isFalse =>
    dsimp only at h
    split at h
    case h_1 hnone =>
      apply IsIdle.noEquals
      intro hmem
      rw [hline, List.mem_append, List.mem_append] at hmem
      rcases hmem with hmem | hmem | hmem
      · exact absurd (hfront _ hmem) (by decide)
      · exact splitEquals?_eq_none_iff.mp hnone hmem
      · exact absurd (hback _ hmem) (by decide)
    case h_2 key value hsplit =>
      split at h
      case isFalse => cases h
      case isTrue hkey =>
        have hblank := Text.trim_eq_nil_iff.mp (List.isEmpty_iff.mp hkey)
        have hparts : line = (front ++ key) ++ '=' :: (value ++ back) := by
          rw [hline, eq_of_splitEquals? hsplit]
          simp
        rw [hparts]
        exact .noName fun c hc => (List.mem_append.mp hc).elim (hfront c) (hblank c)

theorem parseLine?_of_isIdle {line : List Char} (h : IsIdle line) : parseLine? line = none := by
  cases h with
  | blank h =>
      rw [parseLine?, Text.trim_eq_nil_iff.mpr h]
      rfl
  | comment h =>
      rw [parseLine?, Text.trim_append_cons h (by decide)]
      rfl
  | noEquals h =>
      have hnone : splitEquals? (Text.trim line) = none :=
        splitEquals?_eq_none_iff.mpr fun hmem => h (Text.mem_of_mem_trimOf hmem)
      rw [parseLine?, hnone]
      exact ite_self none
  | noName h =>
      rw [parseLine?, Text.trim_append_cons h (by decide)]
      rfl

theorem parseLine?_eq_none_iff {line : List Char} : parseLine? line = none <-> IsIdle line :=
  ⟨isIdle_of_parseLine?, parseLine?_of_isIdle⟩

/-!
# Assignments
-/

def assignments (text : List Char) : List (String × String) :=
  (Text.fileLines text).filterMap parseLine?

/-- The variables that a file with a text sets. -/
def bindings (text : List Char) : List (String × String) :=
  parse (Text.toLineFeeds text)

theorem bindings_eq_ofList (text : List Char) : bindings text = Entries.ofList (assignments text) :=
  rfl

theorem parseLine?_nil : parseLine? [] = none :=
  rfl

theorem assignments_append {front : List Char} (h : Text.EndsLine front) (back : List Char) :
    assignments (front ++ back) = assignments front ++ assignments back :=
  Text.filterMap_fileLines_append parseLine?_nil h back

theorem assignments_concat (text : List Char) {c : Char} (hc : Text.isLineBoundary c = true) :
    assignments (text ++ [c]) = assignments text :=
  Text.filterMap_fileLines_concat parseLine?_nil text hc

theorem endsLine_concat (text : List Char) {c : Char} (hc : Text.isLineBoundary c = true) :
    Text.EndsLine (text ++ [c]) := by
  intro d hd
  rw [List.getLast?_concat] at hd
  rw [← Option.some.inj hd]
  exact hc

theorem assignments_append_cons (front : List Char) {c : Char}
    (hc : Text.isLineBoundary c = true) (back : List Char) :
    assignments (front ++ c :: back) = assignments front ++ assignments back := by
  rw [List.append_cons, assignments_append (endsLine_concat front hc), assignments_concat front hc]

/-!
# Lines that are put in
-/

/-- A text turns into another one by a line that is put between two of its lines or behind the
last one. -/
inductive Inserts (line : List Char) : List Char → List Char → Prop where
  | between {front ending back : List Char} (hfront : Text.EndsLine front)
      (hending : Text.IsLineEnd ending) (hlast : ending = [] -> back = []) :
      Inserts line (front ++ back) (front ++ (line ++ ending ++ back))
  | behind {text : List Char} {c : Char} (hc : Text.isLineBoundary c = true) :
      Inserts line text (text ++ c :: line)

theorem assignments_line {line ending : List Char} (hline : Text.IsLine line)
    (hidle : IsIdle line) (hending : Text.IsLineEnd ending) :
    assignments (line ++ ending) = [] := by
  have hnone := parseLine?_eq_none_iff.mpr hidle
  have hfeeds := hending.toLineFeeds
  rw [assignments, Text.fileLines, Text.toLineFeeds_append hline]
  generalize Text.toLineFeeds ending = feeds at hfeeds ⊢
  by_cases hne : line = []
  · rw [hne, List.nil_append]
    cases hfeeds with
    | nothing => rfl
    | pair => rfl
    | @boundary c hc =>
        have hsplit : Text.splitLines [c] = [[]] := by
          simp [Text.splitLines, hc]
        rw [hsplit]
        rfl
  · rw [Text.splitLines_append hne hline hfeeds, List.filterMap_cons_none hnone]
    rfl

theorem endsLine_append {ending : List Char} (h : Text.IsLineEnd ending) (hne : ending ≠ [])
    (text : List Char) : Text.EndsLine (text ++ ending) := by
  cases h with
  | nothing => exact absurd rfl hne
  | boundary hc => exact endsLine_concat text hc
  | pair =>
      rw [List.append_cons]
      exact endsLine_concat _ (by decide)

theorem Inserts.assignments_eq {line text other : List Char} (h : Inserts line text other)
    (hline : Text.IsLine line) (hidle : IsIdle line) : assignments other = assignments text := by
  cases h with
  | @between front ending back hfront hending hlast =>
      have hnothing := assignments_line hline hidle hending
      rw [assignments_append hfront, assignments_append hfront]
      by_cases hne : ending = []
      · rw [hlast hne, List.append_nil, hnothing]
        rfl
      · rw [assignments_append (endsLine_append hending hne line), hnothing, List.nil_append]
  | behind hc =>
      have hnothing := assignments_line hline hidle .nothing
      rw [List.append_nil] at hnothing
      rw [assignments_append_cons text hc, hnothing, List.append_nil]

/-!
# Files
-/

def HoldsText (w : Workspace) (path : String) (text : List Char) : Prop :=
  exists bytes, w.read (String.ofList (Path.tidy path.toList)) = .ok bytes ∧
    Text.Utf8.decode bytes = .ok text

theorem HoldsText.parseFile_eq {w : Workspace} {path : String} {text : List Char}
    (h : HoldsText w path text) : parseFile w path = .ok (bindings text) := by
  rcases h with ⟨bytes, hread, hdecode⟩
  -- Opened by an equation, the path would be evaluated.
  delta parseFile
  rw [hread]
  dsimp only
  rw [parseBytes, hdecode]
  rfl

theorem bindings_append_cons (front : List Char) {c : Char} (hc : Text.isLineBoundary c = true)
    (back : List Char) :
    bindings (front ++ c :: back) = Entries.putAll (bindings front) (bindings back) := by
  rw [bindings_eq_ofList, assignments_append_cons front hc, Entries.ofList_append]
  rfl

/-- What a file sets is told by its text, and the variables of joined texts are those of the first
one updated by those of the second one.  So lines that set nothing can be put in or left out
anywhere, each variable has the value of its last assignment, and the variables stand in the order
of their first assignments. -/
theorem bindings_are_compositional :
    (forall (w : Workspace) (path : String) (text : List Char), HoldsText w path text ->
        parseFile w path = .ok (bindings text)) ∧
      (forall front back : List Char,
        bindings (front ++ '\n' :: back) = Entries.putAll (bindings front) (bindings back) ∧
          Entries.IsUpdate (bindings front) (bindings back) (bindings (front ++ '\n' :: back))) ∧
      (forall line text other : List Char, Text.IsLine line -> IsIdle line ->
        Inserts line text other -> bindings other = bindings text) ∧
      (forall (text : List Char) (key value : String),
        Entries.get? (bindings text) key = some value <->
          Entries.IsLast (assignments text) key value) ∧
      forall text : List Char,
        (bindings text).map Prod.fst = ((assignments text).map Prod.fst).eraseDups := by
  refine ⟨fun w path text h => h.parseFile_eq, ?_, ?_, ?_, ?_⟩
  · intro front back
    have hjoined := bindings_append_cons front (c := '\n') (by decide) back
    refine ⟨hjoined, ?_⟩
    rw [hjoined]
    exact Entries.isUpdate_putAll _ (Entries.nodup_keys_ofList (assignments back))
  · intro line text other hline hidle hinserts
    rw [bindings_eq_ofList, bindings_eq_ofList, hinserts.assignments_eq hline hidle]
  · intro text key value
    rw [bindings_eq_ofList, Entries.get?_ofList_eq_some_iff]
  · intro text
    rw [bindings_eq_ofList, Entries.keys_ofList]

def returnText : List Char :=
  "A=1\nB=2\r".toList

def renewingText : List Char :=
  "C=3\nA=4".toList

def joinedFile : Workspace where
  rootPath := ""
  tree := Tree.empty.put [".env"] (.file (Text.Utf8.encode (returnText ++ '\n' :: renewingText)))
  directory := Workspace.root
  environment := []

theorem bindings_are_compositional_of_return :
    parseFile joinedFile ".env" = .ok [("A", "4"), ("B", "2"), ("C", "3")] ∧
      bindings (returnText ++ '\n' :: renewingText) =
        Entries.putAll [("A", "1"), ("B", "2")] [("C", "3"), ("A", "4")] ∧
      bindings (returnText ++ (" # A=5".toList ++ ['\r'] ++ '\n' :: renewingText)) =
        bindings (returnText ++ '\n' :: renewingText) := by
  rcases bindings_are_compositional with ⟨hfile, hjoined, hinserted, _, _⟩
  have hends : Text.EndsLine returnText := by
    intro c hc
    cases hc
    decide
  have hidle : IsIdle " # A=5".toList :=
    @IsIdle.comment [' '] " A=5".toList (List.forall_mem_singleton.mpr rfl)
  have hinserts : Inserts " # A=5".toList (returnText ++ '\n' :: renewingText)
      (returnText ++ (" # A=5".toList ++ ['\r'] ++ '\n' :: renewingText)) :=
    .between hends (.boundary (by decide)) nofun
  have hfront : bindings returnText = [("A", "1"), ("B", "2")] := by decide +kernel
  have hback : bindings renewingText = [("C", "3"), ("A", "4")] := by decide +kernel
  have hvariables :=
    (hjoined returnText renewingText).left.trans (congrArg₂ Entries.putAll hfront hback)
  refine ⟨?_, hvariables, hinserted _ _ _ (by decide) hidle hinserts⟩
  have hread : joinedFile.read (String.ofList (Path.tidy ".env".toList)) =
      .ok (Text.Utf8.encode (returnText ++ '\n' :: renewingText)) :=
    rfl
  have hparse := hfile joinedFile ".env" _ ⟨_, hread, Text.Utf8.decode_encode _⟩
  exact hparse.trans (congrArg Except.ok hvariables)

end Dotenv
end Palette
