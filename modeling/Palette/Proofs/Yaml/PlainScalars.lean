import Palette.Proofs.Yaml.Chars

/-!
# Reading plain scalars back

A value that is written plain is a line of words with spaces between them, one of
which may have become a line break.  The reader takes it apart into the same words:
no word ends early, since no colon stands in front of a gap, and no gap ends the
value, since no number sign stands behind one.
-/

namespace Palette
namespace Yaml

/-!
# Words of a plain value
-/

def isPlainChar (c : Char) : Bool :=
  isWritable c && !isValueBreak c

/-- What is left of a plain value at the start of one of its words. -/
structure AtWord (s : List Char) : Prop where
  plain : forall c, c ∈ s -> isPlainChar c = true
  nonempty : s ≠ []
  head : s.head? ≠ some ' '
  last : s.getLast? ≠ some ' '
  quiet : holdsIndicator (' ' :: s) = false

theorem not_isBreak_of_isPlainChar {c : Char} (h : isPlainChar c = true) : isBreak c = false := by
  rw [isPlainChar, Bool.and_eq_true, Bool.not_eq_true'] at h
  exact not_isBreak_of_not_isValueBreak h.right

theorem not_isBlank_of_isPlainChar {c : Char} (h : isPlainChar c = true) (hspace : c ≠ ' ') :
    isBlank c = false := by
  rw [isPlainChar, Bool.and_eq_true] at h
  exact not_isBlank_of_isWritable h.left hspace

theorem isFixed_of_isPlainChar {c : Char} (h : isPlainChar c = true) : isFixed c = true := by
  rw [isPlainChar, Bool.and_eq_true, Bool.not_eq_true'] at h
  exact isFixed_of_isWritable h.left h.right

def firstIndicators : List Char :=
  "#,[]\x7b\x7d&*!|>'\"%@\x60".toList

theorem not_indicator_of_startsWithIndicator {c : Char} {rest : List Char}
    (h : startsWithIndicator (c :: rest) = false) :
    c ∉ firstIndicators ∧
      ((c == '?' || c == ':' || c == '-') && gapAhead rest) = false := by
  unfold startsWithIndicator at h
  split at h
  case h_1 =>
    cases h
  case h_2 =>
    cases h
  case h_3 heq =>
    injection heq with hc hrest
    rw [hc, hrest]
    rw [Bool.or_eq_false_iff, List.contains_eq_mem, decide_eq_false_iff_not] at h
    exact h
  case h_4 heq =>
    cases heq

theorem holdsIndicator_of_startsWithIndicator {s : List Char} (h : startsWithIndicator s = false)
    (hholds : holdsIndicator s = false) : holdsIndicator (' ' :: s) = false := by
  cases s with
  | nil =>
      rfl
  | cons c rest =>
      rcases not_indicator_of_startsWithIndicator h with ⟨hfirst, hgap⟩
      have hhash : (c == '#') = false := by
        rw [beq_eq_false_iff_ne]
        intro hc
        rw [hc] at hfirst
        exact hfirst (by decide)
      have hcolon : (c == ':' && gapAhead rest) = false := by
        by_cases hc : c = ':'
        · rw [hc] at hgap ⊢
          exact hgap
        · simp [hc]
      rw [holdsIndicator, hhash, hcolon, hholds]
      rfl

theorem not_startsWithIndicator_of_allowsPlain {s : List Char} (h : allowsPlain s = true) :
    startsWithIndicator s = false := by
  rw [allowsPlain] at h
  simp only [Bool.and_eq_true, Bool.not_eq_true'] at h
  exact h.left.right

theorem atWord_of_allowsPlain {s : List Char} (h : allowsPlain s = true) : AtWord s := by
  rw [allowsPlain] at h
  simp only [Bool.and_eq_true, Bool.not_eq_true'] at h
  rcases h with ⟨⟨⟨⟨⟨htyped, hplain⟩, hhead⟩, hlast⟩, hstart⟩, hholds⟩
  have hedge : isEdge ' ' = true := rfl
  refine ⟨?_, ?_, ?_, ?_, holdsIndicator_of_startsWithIndicator hstart hholds⟩
  · intro c hc
    exact List.all_eq_true.mp hplain c hc
  · intro hnil
    rw [hnil] at htyped
    cases htyped
  · intro hsome
    rw [hsome, Option.any_some, hedge] at hhead
    cases hhead
  · intro hsome
    rw [hsome, Option.any_some, hedge] at hlast
    cases hlast

theorem holdsIndicator_of_append (front : List Char) {back : List Char}
    (h : holdsIndicator (front ++ back) = false) : holdsIndicator back = false := by
  induction front with
  | nil =>
      exact h
  | cons c rest ih =>
      apply ih
      cases hrest : rest ++ back with
      | nil =>
          rfl
      | cons d tail =>
          rw [List.cons_append, hrest, holdsIndicator, Bool.or_eq_false_iff] at h
          exact h.right

theorem holdsIndicator_of_gapAhead {front after : List Char}
    (h : holdsIndicator (front ++ after) = false) (hgap : gapAhead after = true) :
    holdsIndicator front = false := by
  induction front with
  | nil =>
      rfl
  | cons c rest ih =>
      cases rest with
      | nil =>
          rfl
      | cons d tail =>
          rw [List.cons_append, List.cons_append, holdsIndicator, Bool.or_eq_false_iff,
            Bool.or_eq_false_iff] at h
          have htail : (d == ':' && gapAhead tail) = false := by
            cases tail with
            | nil =>
                have hcolon := h.left.left
                rw [List.nil_append, hgap] at hcolon
                exact hcolon
            | cons e more =>
                exact h.left.left
          rw [holdsIndicator, htail, h.left.right, ih h.right]
          rfl

/-!
# Cutting at spaces
-/

theorem exists_spaces (s : List Char) :
    exists (count : Nat) (next : List Char),
      s = List.replicate count ' ' ++ next ∧ next.head? ≠ some ' ' := by
  induction s with
  | nil =>
      exact ⟨0, [], rfl, fun hsome => by cases hsome⟩
  | cons c rest ih =>
      by_cases hc : c = ' '
      · rcases ih with ⟨count, next, hrest, hnext⟩
        refine ⟨count + 1, next, ?_, hnext⟩
        rw [hc, List.replicate_succ, List.cons_append, ← hrest]
      · refine ⟨0, c :: rest, rfl, ?_⟩
        intro hsome
        injection hsome with hspace
        exact hc hspace

theorem exists_nonspaces (s : List Char) :
    exists w after : List Char,
      s = w ++ after ∧ ' ' ∉ w ∧ (after = [] ∨ after.head? = some ' ') := by
  induction s with
  | nil =>
      exact ⟨[], [], rfl, List.not_mem_nil, Or.inl rfl⟩
  | cons c rest ih =>
      by_cases hc : c = ' '
      · refine ⟨[], c :: rest, rfl, List.not_mem_nil, Or.inr ?_⟩
        rw [hc]
        rfl
      · rcases ih with ⟨w, after, hrest, hw, hafter⟩
        refine ⟨c :: w, after, ?_, ?_, hafter⟩
        · rw [hrest, List.cons_append]
        · rw [List.mem_cons]
          rintro (hspace | hmem)
          · exact hc hspace.symm
          · exact hw hmem

theorem AtWord.behind_space {front next : List Char} (h : AtWord (front ++ ' ' :: next))
    (hhead : next.head? ≠ some ' ') : AtWord next := by
  have hnonempty : next ≠ [] := by
    intro hnil
    apply h.last
    rw [hnil, List.getLast?_concat]
  refine ⟨?_, hnonempty, hhead, ?_, ?_⟩
  · intro c hc
    exact h.plain c (List.mem_append_right _ (List.mem_cons_of_mem ' ' hc))
  · intro hlast
    apply h.last
    rw [List.getLast?_append, List.getLast?_cons_of_ne_nil hnonempty, hlast]
    rfl
  · exact holdsIndicator_of_append (' ' :: front) h.quiet

theorem AtWord.exists_word {s : List Char} (h : AtWord s) :
    exists w : List Char, w ≠ [] ∧ ' ' ∉ w ∧ holdsIndicator (' ' :: w) = false ∧
      (s = w ∨ exists (count : Nat) (next : List Char),
        s = w ++ (List.replicate (count + 1) ' ' ++ next) ∧ AtWord next) := by
  rcases exists_nonspaces s with ⟨w, after, hs, hw, hafter⟩
  have hgap : gapAhead after = true := by
    rcases hafter with hafter | hafter
    · rw [hafter]
      rfl
    · cases after with
      | nil =>
          rfl
      | cons c tail =>
          injection hafter with hc
          rw [hc]
          rfl
  have hne : w ≠ [] := by
    intro hnil
    rw [hnil, List.nil_append] at hs
    rcases hafter with hafter | hafter
    · exact h.nonempty (hs.trans hafter)
    · exact h.head (hs ▸ hafter)
  have hboth : holdsIndicator (' ' :: w ++ after) = false := by
    rw [List.cons_append, ← hs]
    exact h.quiet
  have hquiet : holdsIndicator (' ' :: w) = false := holdsIndicator_of_gapAhead hboth hgap
  refine ⟨w, hne, hw, hquiet, ?_⟩
  rcases hafter with hafter | hafter
  · left
    rw [hs, hafter, List.append_nil]
  · right
    rcases exists_spaces after with ⟨count, next, hnext, hhead⟩
    cases count with
    | zero =>
        rw [hnext] at hafter
        exact absurd hafter hhead
    | succ count =>
        have hfull : s = w ++ (List.replicate (count + 1) ' ' ++ next) := by
          rw [hs, hnext]
        have hsuffix : s = (w ++ List.replicate count ' ') ++ (' ' :: next) := by
          rw [hfull, List.replicate_succ', List.append_assoc, List.append_assoc,
            List.singleton_append]
        rw [hsuffix] at h
        exact ⟨count, next, hfull, h.behind_space hhead⟩

/-!
# What is written for words and spaces
-/

theorem plainFrom_word (column : Nat) {w : List Char} (h : ' ' ∉ w) (after : List Char) :
    plainFrom column 0 (w ++ after) = w ++ plainFrom (column + w.length) 0 after := by
  induction w generalizing column with
  | nil =>
      rfl
  | cons c rest ih =>
      have hc : c ≠ ' ' := by
        intro hc
        exact h (by simp [hc])
      have hrest : ' ' ∉ rest := by
        intro hmem
        exact h (List.mem_cons_of_mem c hmem)
      have hlength : column + 0 + 1 + rest.length = column + (c :: rest).length := by
        rw [List.length_cons]
        omega
      have hnone : ¬(0 = 1 ∧ width < column) := fun hfold => absurd hfold.left (by decide)
      rw [List.cons_append, plainFrom, if_neg hc, if_neg hnone, ih (column + 0 + 1) hrest,
        hlength]
      rfl

theorem plainFrom_spaces (column spaces count : Nat) (after : List Char) :
    plainFrom column spaces (List.replicate count ' ' ++ after) =
      plainFrom column (spaces + count) after := by
  induction count generalizing spaces with
  | zero =>
      rfl
  | succ count ih =>
      rw [List.replicate_succ, List.cons_append, plainFrom, if_pos rfl, ih, Nat.add_assoc,
        Nat.add_comm 1 count]

theorem plainFrom_next (column count : Nat) {next : List Char} (hne : next ≠ [])
    (hhead : next.head? ≠ some ' ') :
    (count = 0 ∧
      plainFrom column (count + 1) next = continuation ++ plainFrom continuationColumn 0 next) ∨
    plainFrom column (count + 1) next =
      List.replicate (count + 1) ' ' ++ plainFrom (column + (count + 1)) 0 next := by
  cases next with
  | nil =>
      exact absurd rfl hne
  | cons c rest =>
      have hc : c ≠ ' ' := by
        intro hc
        exact hhead (by rw [hc, List.head?_cons])
      have hnone : forall column', ¬(0 = 1 ∧ width < column') :=
        fun column' hfold => absurd hfold.left (by decide)
      rw [plainFrom, if_neg hc]
      by_cases hfold : count + 1 = 1 ∧ width < column
      · left
        refine ⟨by omega, ?_⟩
        rw [if_pos hfold, plainFrom, if_neg hc, if_neg (hnone continuationColumn)]
        rfl
      · right
        rw [if_neg hfold, plainFrom, if_neg hc, if_neg (hnone (column + (count + 1)))]
        rfl

theorem plainFrom_cons (column : Nat) {c : Char} (hc : c ≠ ' ') (rest : List Char) :
    plainFrom column 0 (c :: rest) = c :: plainFrom (column + 1) 0 rest := by
  have hword : ' ' ∉ [c] := by
    rw [List.mem_singleton]
    exact fun hspace => hc hspace.symm
  exact plainFrom_word column hword rest

theorem head?_plainFrom (column : Nat) {s : List Char} (hhead : s.head? ≠ some ' ')
    (hne : s ≠ []) : exists (c : Char) (rest written : List Char), s = c :: rest ∧ c ≠ ' ' ∧
      plainFrom column 0 s = c :: written := by
  cases s with
  | nil =>
      exact absurd rfl hne
  | cons c rest =>
      have hc : c ≠ ' ' := by
        intro hc
        exact hhead (by rw [hc, List.head?_cons])
      exact ⟨c, rest, plainFrom (column + 1) 0 rest, rfl, hc, plainFrom_cons column hc rest⟩

theorem AtWord.head?_plainFrom (column : Nat) {s : List Char} (h : AtWord s) :
    exists (c : Char) (written : List Char), c ≠ ' ' ∧ isBreak c = false ∧
      plainFrom column 0 s = c :: written := by
  rcases Yaml.head?_plainFrom column h.head h.nonempty with ⟨c, rest, written, hs, hc, hwritten⟩
  refine ⟨c, written, hc, ?_, hwritten⟩
  apply not_isBreak_of_isPlainChar (h.plain c _)
  rw [hs]
  exact List.mem_cons_self

theorem not_atGap_plainFrom (column : Nat) {s : List Char}
    (hplain : forall c, c ∈ s -> isPlainChar c = true) (h : gapAhead s = false)
    (tail : List Char) : atGap (plainFrom column 0 s ++ tail) = false := by
  cases s with
  | nil =>
      cases h
  | cons c rest =>
      have hc := hplain c List.mem_cons_self
      have hspace : c ≠ ' ' := by
        intro hspace
        rw [hspace] at h
        cases h
      rw [plainFrom_cons column hspace, List.cons_append, atGap,
        not_isBlank_of_isPlainChar hc hspace, not_isBreak_of_isPlainChar hc]
      rfl

/-!
# Reading words and gaps
-/

namespace Plain

theorem word_append {w : List Char} (hplain : forall c, c ∈ w -> isPlainChar c = true)
    (hspace : ' ' ∉ w) {front : Char} (hquiet : holdsIndicator (front :: w) = false)
    {after : List Char} (hafter : atGap after = true) :
    word false (w ++ after) = (w, after) := by
  induction w generalizing front with
  | nil =>
      cases after with
      | nil =>
          rfl
      | cons c rest =>
          have hend : endsWord false c rest = true := by
            rw [atGap] at hafter
            rw [endsWord, hafter]
            rfl
          rw [List.nil_append, word, if_pos hend]
  | cons c rest ih =>
      have hc := hplain c List.mem_cons_self
      have hne : c ≠ ' ' := by
        intro hc
        exact hspace (by simp [hc])
      rw [holdsIndicator, Bool.or_eq_false_iff, Bool.or_eq_false_iff] at hquiet
      have hcolon : (c == ':' && endsKey false (rest ++ after)) = false := by
        by_cases hkey : c = ':'
        · have hgap : gapAhead rest = false := by
            have hboth := hquiet.left.left
            rw [hkey] at hboth
            exact hboth
          cases rest with
          | nil =>
              cases hgap
          | cons d more =>
              have hd := hplain d (List.mem_cons_of_mem c List.mem_cons_self)
              have hdspace : d ≠ ' ' := by
                intro hd
                exact hspace (by simp [hd])
              rw [List.cons_append, endsKey, not_isBlank_of_isPlainChar hd hdspace,
                not_isBreak_of_isPlainChar hd]
              simp
        · simp [hkey]
      have hend : endsWord false c (rest ++ after) = false := by
        rw [endsWord, not_isBlank_of_isPlainChar hc hne, not_isBreak_of_isPlainChar hc, hcolon]
        rfl
      have hrest := ih (fun d hd => hplain d (List.mem_cons_of_mem c hd))
        (fun hmem => hspace (List.mem_cons_of_mem c hmem)) hquiet.right
      rw [List.cons_append, word, hend, if_neg Bool.false_ne_true, hrest]

theorem emptyLines_of_ordinary {c : Char} (rest : List Char) (hspace : c ≠ ' ')
    (hbreak : isBreak c = false) : emptyLines (c :: rest) = (some [], c :: rest) := by
  rw [emptyLines, if_neg hspace, hbreak, if_neg Bool.false_ne_true]

theorem gap_spaces (count : Nat) {c : Char} (rest : List Char) (hspace : c ≠ ' ')
    (hbreak : isBreak c = false) :
    gap (List.replicate count ' ' ++ c :: rest) =
      ⟨some (List.replicate count ' '), c :: rest, false⟩ := by
  have htake : (List.replicate count ' ' ++ c :: rest).takeWhile (· == ' ') =
      List.replicate count ' ' := by
    rw [List.takeWhile_append_of_pos (fun d hd => by simp [List.eq_of_mem_replicate hd])]
    simp [hspace]
  have hdrop : (List.replicate count ' ' ++ c :: rest).dropWhile (· == ' ') = c :: rest := by
    rw [List.dropWhile_append_of_pos (fun d hd => by simp [List.eq_of_mem_replicate hd])]
    simp [hspace]
  simp only [gap, htake, hdrop, hbreak, Bool.false_eq_true, if_false]

theorem gap_continuation {c : Char} (rest : List Char) (hspace : c ≠ ' ')
    (hbreak : isBreak c = false) :
    gap (continuation ++ c :: rest) = ⟨some [' '], c :: rest, true⟩ := by
  have hempty : emptyLines (' ' :: ' ' :: c :: rest) = (some [], c :: rest) := by
    rw [emptyLines, if_pos rfl, emptyLines, if_pos rfl, emptyLines_of_ordinary rest hspace hbreak]
  show gap ('\n' :: ' ' :: ' ' :: c :: rest) = _
  rw [gap]
  show (⟨(emptyLines (' ' :: ' ' :: c :: rest)).1.map (foldBreaks '\n'),
    (emptyLines (' ' :: ' ' :: c :: rest)).2, true⟩ : Gap) = _
  rw [hempty]
  rfl

theorem gap_lineEnd {more : List Char} (h : atEntry more = true) :
    gap ('\n' :: more) = ⟨some [' '], more, true⟩ := by
  have hempty : emptyLines more = (some [], more) := by
    cases more with
    | nil =>
        rfl
    | cons c rest =>
        exact emptyLines_of_ordinary rest (ne_of_isAlphanum h rfl) (not_isBreak_of_isAlphanum h)
  have hgap : gap ('\n' :: more) = (if atDocumentMark more then ⟨none, more, true⟩
      else ⟨(emptyLines more).1.map (foldBreaks '\n'), (emptyLines more).2, true⟩) :=
    rfl
  rw [hgap, not_atDocumentMark_of_atEntry h, if_neg Bool.false_ne_true, hempty]
  rfl

/-!
# Whole values
-/

theorem scanFrom_last {indent : Nat} {before w after next : List Char} {p : Position}
    {between? : Option (List Char)} {crosses atLineStart : Bool}
    (hhash : (w ++ after).head? ≠ some '#') (hw : w ≠ [])
    (hword : word false (w ++ after) = (w, after)) (hgap : gap after = ⟨between?, next, crosses⟩)
    {place : Cursor} (hplace : (Cursor.moveTo ⟨w ++ after, p⟩ after).moveTo next = place)
    (hend : between? = some [] ∨ place.position.column < indent) :
    scanFrom false indent before ⟨w ++ after, p⟩ atLineStart = ⟨before ++ w, place, crosses⟩ := by
  have hne : (word false (w ++ after)).1 ≠ [] := by
    rw [hword]
    exact hw
  rw [scanFrom, if_neg hhash, dif_neg hne]
  simp only [hword, hgap, hplace]
  rcases hend with hend | hend
  · rw [hend]
  · cases between? with
    | none =>
        rfl
    | some between =>
        cases between with
        | nil =>
            rfl
        | cons c rest =>
            simp [hend]

theorem scanFrom_more {indent : Nat} {before w after between next : List Char} {p : Position}
    {crosses atLineStart : Bool} (hhash : (w ++ after).head? ≠ some '#') (hw : w ≠ [])
    (hword : word false (w ++ after) = (w, after))
    (hgap : gap after = ⟨some between, next, crosses⟩) (hbetween : between ≠ [])
    (hnext : next.head? ≠ some '#') {q : Position}
    (hplace : (Cursor.moveTo ⟨w ++ after, p⟩ after).moveTo next = ⟨next, q⟩)
    (hindent : indent ≤ q.column) {text : List Char} {end_ : Cursor} {ended : Bool}
    (hmore : scanFrom false indent between ⟨next, q⟩ crosses = ⟨text, end_, ended⟩) :
    scanFrom false indent before ⟨w ++ after, p⟩ atLineStart =
      ⟨before ++ w ++ text, end_, ended⟩ := by
  have hne : (word false (w ++ after)).1 ≠ [] := by
    rw [hword]
    exact hw
  have hinside : ¬q.column < indent := Nat.not_lt.mpr hindent
  rw [scanFrom, if_neg hhash, dif_neg hne]
  simp only [hword, hgap, hplace]
  cases between with
  | nil =>
      exact absurd rfl hbetween
  | cons c rest =>
      simp only [hnext, hinside, and_false, or_self, if_false, hmore]

theorem ne_hash_of_quiet {front : Char} (hfront : isGapChar front = true) {w : List Char}
    (h : holdsIndicator (front :: w) = false) : w.head? ≠ some '#' := by
  cases w with
  | nil =>
      intro hsome
      cases hsome
  | cons c rest =>
      intro hsome
      injection hsome with hc
      rw [hc, holdsIndicator, hfront] at h
      simp at h

theorem exists_gap (column count : Nat) {next : List Char} (h : AtWord next) :
    exists (written : List Char) (column' : Nat) (crosses : Bool),
      plainFrom column (count + 1) next = written ++ plainFrom column' 0 next ∧
      (forall tail, atGap (written ++ (plainFrom column' 0 next ++ tail)) = true ∧
        gap (written ++ (plainFrom column' 0 next ++ tail)) =
          ⟨some (List.replicate (count + 1) ' '), plainFrom column' 0 next ++ tail, crosses⟩) ∧
      forall p : Position, 1 ≤ p.column -> 1 ≤ (written.foldl Position.after p).column := by
  rcases plainFrom_next column count h.nonempty h.head with ⟨hcount, hwritten⟩ | hwritten
  · rcases h.head?_plainFrom continuationColumn with ⟨c, more, hc, hbreak, hnext⟩
    refine ⟨continuation, continuationColumn, true, hwritten, ?_, ?_⟩
    · intro tail
      rw [hnext, hcount]
      exact ⟨rfl, gap_continuation (more ++ tail) hc hbreak⟩
    · intro p _
      show 1 ≤ (((p.after '\n').after ' ').after ' ').column
      exact Nat.le_succ 1
  · rcases h.head?_plainFrom (column + (count + 1)) with ⟨c, more, hc, hbreak, hnext⟩
    refine ⟨List.replicate (count + 1) ' ', column + (count + 1), false, hwritten, ?_, ?_⟩
    · intro tail
      rw [hnext]
      refine ⟨rfl, gap_spaces (count + 1) (more ++ tail) hc hbreak⟩
    · intro p hp
      apply Nat.le_trans hp
      apply Position.column_le_foldl_after
      intro d hd
      rw [List.eq_of_mem_replicate hd]
      rfl

/-- The induction is on the length; each step reads one word and the gap behind it. -/
theorem scanFrom_plainFrom {s more : List Char} (h : AtWord s) (hmore : atEntry more = true)
    (column : Nat) (before : List Char) {p : Position} (hp : 1 ≤ p.column) (atLineStart : Bool) :
    exists q : Position, q.column = 0 ∧
      scanFrom false 1 before ⟨plainFrom column 0 s ++ '\n' :: more, p⟩ atLineStart =
        ⟨before ++ s, ⟨more, q⟩, true⟩ := by
  induction hn : s.length using Nat.strongRecOn generalizing s column before p atLineStart with
  | ind n ih =>
      rcases h.exists_word with ⟨w, hw, hspace, hquiet, hs⟩
      have hplain : forall c, c ∈ w -> isPlainChar c = true := by
        intro c hc
        apply h.plain
        rcases hs with hs | ⟨count, next, hs, _⟩
        · rw [hs]
          exact hc
        · rw [hs]
          exact List.mem_append_left _ hc
      have hhash : forall after, (w ++ after).head? ≠ some '#' := by
        intro after
        cases w with
        | nil =>
            exact absurd rfl hw
        | cons c rest =>
            exact ne_hash_of_quiet (w := c :: rest) rfl hquiet
      have hcolumn : 1 ≤ (w.foldl Position.after p).column := by
        apply Nat.le_trans hp
        apply Position.column_le_foldl_after
        intro c hc
        exact not_isBreak_of_isPlainChar (hplain c hc)
      rcases hs with hs | ⟨count, next, hs, hnext⟩
      · have hwritten : plainFrom column 0 s = w := by
          have hword := plainFrom_word column hspace []
          rw [List.append_nil] at hword
          rw [hs, hword]
          exact List.append_nil w
        refine ⟨(w.foldl Position.after p).after '\n', Position.column_after_break _ rfl, ?_⟩
        rw [hwritten, hs]
        apply scanFrom_last (hhash _) hw (word_append hplain hspace hquiet rfl)
          (gap_lineEnd hmore)
        · rw [Cursor.moveTo_append, Cursor.moveTo_cons]
        · right
          rw [Position.column_after_break _ rfl]
          exact Nat.zero_lt_one
      · rcases exists_gap (column + w.length) count hnext with
          ⟨written, column', crosses, hgapped, hgap, hbehind⟩
        have hwritten : plainFrom column 0 s ++ '\n' :: more =
            w ++ (written ++ (plainFrom column' 0 next ++ '\n' :: more)) := by
          rw [hs, plainFrom_word column hspace, plainFrom_spaces, Nat.zero_add, hgapped,
            List.append_assoc, List.append_assoc]
        have hshort : next.length < n := by
          rw [← hn, hs, List.length_append, List.length_append, List.length_replicate]
          omega
        rcases ih next.length hshort hnext column' (List.replicate (count + 1) ' ')
          (hbehind _ hcolumn) crosses rfl with ⟨q, hq, hread⟩
        refine ⟨q, hq, ?_⟩
        have hnexthash : (plainFrom column' 0 next ++ '\n' :: more).head? ≠ some '#' := by
          rcases head?_plainFrom column' hnext.head hnext.nonempty with
            ⟨c, rest, more', hcons, _, hplainFrom⟩
          rw [hplainFrom]
          have hne := ne_hash_of_quiet rfl hnext.quiet
          rw [hcons] at hne
          exact hne
        have hbetween : List.replicate (count + 1) ' ' ≠ [] := List.cons_ne_nil _ _
        rw [hwritten, scanFrom_more (hhash _) hw (word_append hplain hspace hquiet (hgap _).left)
          (hgap _).right hbetween hnexthash
          (by rw [Cursor.moveTo_append, Cursor.moveTo_append]) (hbehind _ hcolumn) hread]
        rw [hs, List.append_assoc]

theorem scan_plainFrom {s more : List Char} (h : allowsPlain s = true)
    (hmore : atEntry more = true) (column : Nat) {p : Position} (hp : 1 ≤ p.column) :
    exists q : Position, q.column = 0 ∧
      scan false 1 ⟨plainFrom column 0 s ++ '\n' :: more, p⟩ = ⟨s, ⟨more, q⟩, true⟩ :=
  scanFrom_plainFrom (atWord_of_allowsPlain h) hmore column [] hp false

end Plain

/-!
# What stands in a plain value
-/

theorem isFixed_plainFrom {s : List Char} (h : forall c, c ∈ s -> isPlainChar c = true)
    {column spaces : Nat} {c : Char} (hc : c ∈ plainFrom column spaces s) : isFixed c = true := by
  induction s generalizing column spaces with
  | nil =>
      rw [plainFrom] at hc
      rw [List.eq_of_mem_replicate hc]
      rfl
  | cons d rest ih =>
      have hd := isFixed_of_isPlainChar (h d List.mem_cons_self)
      have hrest := fun e he => h e (List.mem_cons_of_mem d he)
      rw [plainFrom] at hc
      split at hc
      · exact ih hrest hc
      · split at hc
        · rw [List.mem_append, List.mem_cons] at hc
          rcases hc with hc | hc | hc
          · have hall : continuation.all isFixed = true := by decide
            exact List.all_eq_true.mp hall c hc
          · rw [hc]
            exact hd
          · exact ih hrest hc
        · rw [List.mem_append, List.mem_cons] at hc
          rcases hc with hc | hc | hc
          · rw [List.eq_of_mem_replicate hc]
            rfl
          · rw [hc]
            exact hd
          · exact ih hrest hc

end Yaml
end Palette
