import Palette.Proofs.Yaml.Chars

/-!
# Reading single quotes back

A value in single quotes is written from left to right, spaces and line breaks being
held until the character behind them is known.  The reader undoes what is written for
each of them, with one exception: a next-line character stands for itself in quotes,
and so it is read as a line feed and folds.
-/

namespace Palette
namespace Yaml

/-!
# What is read
-/

/-- What is read of a text that was written in single quotes, behind line breaks or
not: a next-line character counts as a line feed, which folds if it is the first of
several breaks. -/
def singleBack (inBreaks : Bool) : List Char → List Char
  | [] => []
  | c :: rest =>
      if c = nextLine then
        if inBreaks then '\n' :: singleBack true rest
        else if rest.head?.any isValueBreak then singleBack true rest
        else ' ' :: singleBack false rest
      else c :: singleBack (isValueBreak c) rest

theorem singleBack_of_not_mem (inBreaks : Bool) {s : List Char} (h : nextLine ∉ s) :
    singleBack inBreaks s = s := by
  induction s generalizing inBreaks with
  | nil =>
      rfl
  | cons c rest ih =>
      have hc : c ≠ nextLine := by
        intro hc
        exact h (by simp [hc])
      have hrest : nextLine ∉ rest := by
        intro hmem
        exact h (List.mem_cons_of_mem c hmem)
      rw [singleBack, if_neg hc, ih _ hrest]

theorem nextLine_not_mem_singleBack (inBreaks : Bool) (s : List Char) :
    nextLine ∉ singleBack inBreaks s := by
  induction s generalizing inBreaks with
  | nil =>
      exact List.not_mem_nil
  | cons c rest ih =>
      rw [singleBack]
      by_cases hc : c = nextLine
      · rw [if_pos hc]
        cases inBreaks with
        | true =>
            rw [if_pos rfl, List.mem_cons]
            rintro (hfeed | hmem)
            · cases hfeed
            · exact ih true hmem
        | false =>
            rw [if_neg Bool.false_ne_true]
            by_cases hbreak : rest.head?.any isValueBreak = true
            · rw [if_pos hbreak]
              exact ih true
            · rw [if_neg hbreak, List.mem_cons]
              rintro (hspace | hmem)
              · cases hspace
              · exact ih false hmem
      · rw [if_neg hc, List.mem_cons]
        rintro (heq | hmem)
        · exact hc heq.symm
        · exact ih _ hmem

theorem singleBack_cons_of_not_break (inBreaks : Bool) {c : Char} (rest : List Char)
    (h : isValueBreak c = false) :
    singleBack inBreaks (c :: rest) = c :: singleBack false rest := by
  rw [singleBack, if_neg (ne_nextLine_of_not_isValueBreak h), h]

theorem singleBack_spaces (count : Nat) (s : List Char) :
    singleBack false (List.replicate count ' ' ++ s) =
      List.replicate count ' ' ++ singleBack false s := by
  induction count with
  | zero =>
      rfl
  | succ count ih =>
      rw [List.replicate_succ, List.cons_append, List.cons_append,
        singleBack_cons_of_not_break false _ rfl, ih]

theorem singleBack_breaks {breaks : List Char} (h : forall c, c ∈ breaks -> isValueBreak c = true)
    (s : List Char) :
    singleBack true (breaks ++ s) = breaks.map lineFeedFor ++ singleBack true s := by
  induction breaks with
  | nil =>
      rfl
  | cons c rest ih =>
      have hrest := ih fun d hd => h d (List.mem_cons_of_mem c hd)
      rw [List.cons_append, singleBack, List.map_cons, List.cons_append, lineFeedFor]
      by_cases hc : c = nextLine
      · rw [if_pos hc, if_pos rfl, if_pos hc, hrest]
      · rw [if_neg hc, if_neg hc, h c List.mem_cons_self, hrest]

theorem singleBack_true_eq_false {s : List Char} (h : s.head?.any isValueBreak = false) :
    singleBack true s = singleBack false s := by
  cases s with
  | nil =>
      rfl
  | cons c rest =>
      have hc : isValueBreak c = false := by simpa using h
      rw [singleBack_cons_of_not_break true rest hc, singleBack_cons_of_not_break false rest hc]

/-!
# Blanks and breaks in quotes
-/

namespace Quoted

theorem single_addBlank (pending : Pending) {c : Char} (rest : List Char)
    (h : isBlank c = true) : single pending (c :: rest) = single (pending.addBlank c) rest := by
  have hquote : c ≠ '\'' := by
    intro hc
    rw [hc] at h
    cases h
  rw [single]
  · rw [if_neg hquote, if_pos h]
  · intro tail hhead _
    exact hquote hhead

theorem single_addBreak (pending : Pending) {c : Char} (rest : List Char)
    (h : isBreak c = true) (hmark : atDocumentMark rest = false) :
    single pending (c :: rest) = single (pending.addBreak c) rest := by
  have hquote : c ≠ '\'' := by
    intro hc
    rw [hc] at h
    cases h
  have hblank : isBlank c = false := by
    cases hb : isBlank c with
    | false =>
        rfl
    | true =>
        simp only [isBlank, Bool.or_eq_true, beq_iff_eq] at hb
        rcases hb with hb | hb
        · rw [hb] at h
          cases h
        · rw [hb] at h
          cases h
  rw [single]
  · rw [if_neg hquote, hblank, if_neg Bool.false_ne_true, if_pos h, hmark,
      if_neg Bool.false_ne_true]
  · intro tail hhead _
    exact hquote hhead

theorem single_ordinary (pending : Pending) {c : Char} (rest : List Char)
    (hquote : c ≠ '\'') (hblank : isBlank c = false) (hbreak : isBreak c = false) :
    single pending (c :: rest) = prepend (pending.text ++ [c]) (single .nothing rest) := by
  rw [single]
  · rw [if_neg hquote, hblank, if_neg Bool.false_ne_true, hbreak, if_neg Bool.false_ne_true]
  · intro tail hhead _
    exact hquote hhead

theorem single_quotePair (pending : Pending) (rest : List Char) :
    single pending ('\'' :: '\'' :: rest) =
      prepend (pending.text ++ ['\'']) (single .nothing rest) := by
  rw [single]

theorem single_close (pending : Pending) {rest : List Char} (h : rest.head? ≠ some '\'') :
    single pending ('\'' :: rest) = .ok (pending.text, rest) := by
  rw [single]
  · rw [if_pos rfl]
  · intro tail _ hrest
    rw [hrest] at h
    exact h rfl

theorem single_spaces (count : Nat) (reversed rest : List Char) :
    single (.blanks reversed) (List.replicate count ' ' ++ rest) =
      single (.blanks (List.replicate count ' ' ++ reversed)) rest := by
  induction count generalizing reversed with
  | zero =>
      rfl
  | succ count ih =>
      rw [List.replicate_succ, List.cons_append, single_addBlank _ _ rfl]
      show single (.blanks (' ' :: reversed)) _ = _
      rw [ih, List.append_cons, ← List.replicate_succ', List.replicate_succ]

theorem atDocumentMark_of_isBreak {c : Char} (rest : List Char) (h : isBreak c = true) :
    atDocumentMark (c :: rest) = false := by
  unfold atDocumentMark
  split
  case h_1 heq =>
    injection heq with hc
    rw [hc] at h
    cases h
  case h_2 heq =>
    injection heq with hc
    rw [hc] at h
    cases h
  case h_3 =>
    rfl

theorem single_breaks {breaks : List Char} (h : forall c, c ∈ breaks -> isBreak c = true)
    (pending : Pending) (rest : List Char) :
    single pending (breaks ++ ' ' :: rest) =
      single (breaks.foldl (fun p c => p.addBreak c) pending) (' ' :: rest) := by
  induction breaks generalizing pending with
  | nil =>
      rfl
  | cons c more ih =>
      have hmore : forall d, d ∈ more -> isBreak d = true :=
        fun d hd => h d (List.mem_cons_of_mem c hd)
      have hmark : atDocumentMark (more ++ ' ' :: rest) = false := by
        cases more with
        | nil =>
            rfl
        | cons d tail =>
            exact atDocumentMark_of_isBreak _ (hmore d List.mem_cons_self)
      rw [List.cons_append, single_addBreak pending _ (h c List.mem_cons_self) hmark, ih hmore,
        List.foldl_cons]

theorem foldl_addBreak (first : Char) (reversed breaks : List Char) :
    breaks.foldl (fun p c => p.addBreak c) (Pending.folded first reversed) =
      .folded first (breaks.reverse ++ reversed) := by
  induction breaks generalizing reversed with
  | nil =>
      rfl
  | cons c rest ih =>
      rw [List.foldl_cons, Pending.addBreak, ih, List.reverse_cons, List.append_assoc,
        List.singleton_append]

theorem single_indentation (first : Char) (reversed rest : List Char) :
    single (.folded first reversed) (' ' :: ' ' :: rest) =
      single (.folded first reversed) rest := by
  rw [single_addBlank _ _ rfl]
  exact single_addBlank (.folded first reversed) rest rfl

end Quoted

/-!
# Held text

What was written for held text leaves the reader with a pending text, which is what
was held except that its next-line characters have been read.
-/

def Held.text : Held → List Char
  | spaces count _ => List.replicate count ' '
  | breaks reversed => reversed.reverse

def Held.IsProper : Held → Prop
  | spaces _ _ => True
  | breaks reversed => reversed ≠ [] ∧ forall c, c ∈ reversed -> isValueBreak c = true

/-- What was written for a text reads back as it, in front of more that is no break. -/
def ReadsBack (written text : List Char) : Prop :=
  exists pending : Quoted.Pending,
    (forall rest,
      Quoted.single .nothing (written.map lineFeedFor ++ rest) = Quoted.single pending rest) ∧
    forall rest, rest.head?.any isValueBreak = false ->
      singleBack false (text ++ rest) = pending.text ++ singleBack false rest

theorem readsBack_spaces (count : Nat) :
    ReadsBack (List.replicate count ' ') (List.replicate count ' ') := by
  refine ⟨.blanks (List.replicate count ' '), ?_, ?_⟩
  · intro rest
    have hmap : (List.replicate count ' ').map lineFeedFor = List.replicate count ' ' :=
      List.map_replicate
    rw [hmap, Quoted.Pending.nothing, Quoted.single_spaces, List.append_nil]
  · intro rest _
    rw [Quoted.Pending.text, List.reverse_replicate, singleBack_spaces]

theorem readsBack_continuation : ReadsBack continuation [' '] := by
  refine ⟨.folded '\n' [], ?_, ?_⟩
  · intro rest
    show Quoted.single (.blanks []) ('\n' :: ' ' :: ' ' :: rest) = _
    rw [Quoted.single_addBreak _ _ rfl rfl, Quoted.Pending.addBreak, Quoted.single_indentation]
  · intro rest _
    exact singleBack_spaces 1 rest

theorem singleBack_run {first : Char} {more : List Char}
    (h : forall c, c ∈ first :: more -> isValueBreak c = true) (hfeed : first ≠ '\n')
    {rest : List Char} (hrest : rest.head?.any isValueBreak = false) :
    singleBack false (first :: more ++ rest) =
      foldBreaks (lineFeedFor first) (more.map lineFeedFor) ++ singleBack false rest := by
  have hmore : forall c, c ∈ more -> isValueBreak c = true :=
    fun c hc => h c (List.mem_cons_of_mem first hc)
  rw [List.cons_append, singleBack]
  by_cases hnext : first = nextLine
  · rw [if_pos hnext, if_neg Bool.false_ne_true, lineFeedFor, if_pos hnext]
    cases more with
    | nil =>
        rw [List.nil_append, hrest, if_neg Bool.false_ne_true]
        rfl
    | cons d tail =>
        have hd : (d :: tail ++ rest).head?.any isValueBreak = true :=
          hmore d List.mem_cons_self
        rw [if_pos hd, singleBack_breaks hmore, singleBack_true_eq_false hrest]
        rfl
  · rw [if_neg hnext, lineFeedFor_of_ne hnext, foldBreaks, if_pos hfeed,
      h first List.mem_cons_self, singleBack_breaks hmore, singleBack_true_eq_false hrest,
      List.cons_append]

theorem single_run {first : Char} {more : List Char}
    (h : forall c, c ∈ first :: more -> isBreak c = true) (rest : List Char) :
    Quoted.single .nothing (first :: more ++ ' ' :: ' ' :: rest) =
      Quoted.single (.folded first more.reverse) rest := by
  rw [Quoted.single_breaks h, List.foldl_cons, Quoted.Pending.nothing, Quoted.Pending.addBreak,
    Quoted.foldl_addBreak, List.append_nil, Quoted.single_indentation]

theorem readsBack_quotedBreaks {breaks : List Char} (hne : breaks ≠ [])
    (h : forall c, c ∈ breaks -> isValueBreak c = true) :
    ReadsBack (quotedBreaks breaks) breaks := by
  have hread : forall c, c ∈ breaks.map lineFeedFor -> isBreak c = true := by
    intro c hc
    rcases List.mem_map.mp hc with ⟨d, hd, hcd⟩
    rw [← hcd]
    exact isBreak_lineFeedFor (h d hd)
  cases breaks with
  | nil =>
      exact absurd rfl hne
  | cons first more =>
      by_cases hfeed : first = '\n'
      · -- One more line feed stands in front, which the reader drops again.
        have hread' : forall c, c ∈ '\n' :: (first :: more).map lineFeedFor ->
            isBreak c = true := by
          intro c hc
          cases hc with
          | head =>
              rfl
          | tail _ hmem =>
              exact hread c hmem
        refine ⟨.folded '\n' ((first :: more).map lineFeedFor).reverse, ?_, ?_⟩
        · intro rest
          rw [← single_run hread', quotedBreaks, List.head?_cons, hfeed, if_pos rfl]
          rw [List.map_append, List.append_assoc]
          rfl
        · intro rest hrest
          have hmore : forall c, c ∈ more -> isValueBreak c = true :=
            fun c hc => h c (List.mem_cons_of_mem first hc)
          have hnext : first ≠ nextLine := by
            rw [hfeed]
            decide
          rw [Quoted.Pending.text, List.reverse_reverse, List.cons_append, singleBack,
            if_neg hnext, h first List.mem_cons_self, singleBack_breaks hmore,
            singleBack_true_eq_false hrest, List.map_cons, lineFeedFor_of_ne hnext]
          rfl
      · refine ⟨.folded (lineFeedFor first) (more.map lineFeedFor).reverse, ?_, ?_⟩
        · intro rest
          have hhead : (first :: more).head? ≠ some '\n' := by
            intro hsome
            injection hsome with hfirst
            exact hfeed hfirst
          rw [← single_run hread, quotedBreaks, if_neg hhead, List.nil_append, List.map_append,
            List.append_assoc]
          rfl
        · intro rest hrest
          rw [Quoted.Pending.text, List.reverse_reverse]
          exact singleBack_run h hfeed hrest

theorem readsBack_write (held : Held) (h : held.IsProper) (column : Nat) :
    ReadsBack (held.write column).1 held.text := by
  cases held with
  | spaces count atStart =>
      rw [Held.write]
      by_cases hfold : count = 1 ∧ width < column ∧ (!atStart) = true
      · rw [if_pos hfold, Held.text, hfold.left]
        exact readsBack_continuation
      · rw [if_neg hfold]
        exact readsBack_spaces count
  | breaks reversed =>
      apply readsBack_quotedBreaks
      · intro hnil
        exact h.left (List.reverse_eq_nil_iff.mp hnil)
      · intro c hc
        exact h.right c (List.mem_reverse.mp hc)

theorem readsBack_writeLast (held : Held) (h : held.IsProper) :
    ReadsBack held.writeLast held.text := by
  cases held with
  | spaces count atStart =>
      exact readsBack_spaces count
  | breaks reversed =>
      exact readsBack_write (.breaks reversed) h 0

/-!
# Whole values
-/

theorem hasAdjacent_of_append {p : Char → Char → Bool} (front : List Char) {back : List Char}
    (h : hasAdjacent p (front ++ back) = false) : hasAdjacent p back = false := by
  induction front with
  | nil =>
      exact h
  | cons c rest ih =>
      apply ih
      cases hrest : rest ++ back with
      | nil =>
          rfl
      | cons d tail =>
          rw [List.cons_append, hrest, hasAdjacent, Bool.or_eq_false_iff] at h
          exact h.right

theorem not_adjacent {p : Char → Char → Bool} (front : List Char) {c d : Char} {back : List Char}
    (h : hasAdjacent p (front ++ c :: d :: back) = false) : p c d = false := by
  have hback := hasAdjacent_of_append front h
  rw [hasAdjacent, Bool.or_eq_false_iff] at hback
  exact hback.left

theorem prepend_ok {α : Type} (front text : List α) (rest : List Char) :
    Quoted.prepend front (.ok (text, rest)) = .ok (front ++ text, rest) :=
  rfl

theorem singleFrom_space (column count : Nat) (atStart : Bool) (rest : List Char) :
    singleFrom column (.spaces count atStart) (' ' :: rest) =
      singleFrom column (.spaces (count + 1) atStart) rest := by
  rw [singleFrom.eq_def]
  rfl

theorem singleFrom_break_of_breaks (column : Nat) (reversed : List Char) {c : Char}
    (rest : List Char) (h : isValueBreak c = true) :
    singleFrom column (.breaks reversed) (c :: rest) =
      singleFrom column (.breaks (c :: reversed)) rest := by
  have hspace := ne_space_of_isValueBreak h
  rw [singleFrom.eq_def]
  simp only [hspace, if_false, h, if_true]

theorem singleFrom_break_of_no_spaces (column : Nat) (atStart : Bool) {c : Char}
    (rest : List Char) (h : isValueBreak c = true) :
    singleFrom column (.spaces 0 atStart) (c :: rest) = singleFrom column (.breaks [c]) rest := by
  have hspace := ne_space_of_isValueBreak h
  have hwrite : Held.write column (.spaces 0 atStart) = ([], column) := by
    simp [Held.write]
  rw [singleFrom.eq_def]
  simp only [hspace, if_false, h, if_true, hwrite, List.nil_append]

theorem singleFrom_quote (column : Nat) (held : Held) (rest : List Char) :
    singleFrom column held ('\'' :: rest) =
      (held.write column).1 ++
        '\'' :: '\'' :: singleFrom ((held.write column).2 + 2) nothingHeld rest := by
  rw [singleFrom.eq_def]
  rfl

theorem singleFrom_ordinary (column : Nat) (held : Held) {c : Char} (rest : List Char)
    (hspace : c ≠ ' ') (hbreak : isValueBreak c = false) (hquote : c ≠ '\'') :
    singleFrom column held (c :: rest) =
      (held.write column).1 ++ c :: singleFrom ((held.write column).2 + 1) nothingHeld rest := by
  rw [singleFrom.eq_def]
  simp only [hspace, if_false, hbreak, hquote, Bool.false_eq_true]

theorem text_space (count : Nat) (atStart : Bool) (rest : List Char) :
    Held.text (.spaces (count + 1) atStart) ++ rest =
      Held.text (.spaces count atStart) ++ ' ' :: rest := by
  rw [Held.text, Held.text, List.replicate_succ', List.append_assoc, List.singleton_append]

theorem text_break (c : Char) (reversed rest : List Char) :
    Held.text (.breaks (c :: reversed)) ++ rest = Held.text (.breaks reversed) ++ c :: rest := by
  rw [Held.text, Held.text, List.reverse_cons, List.append_assoc, List.singleton_append]

theorem isProper_break {c : Char} (h : isValueBreak c = true) : (Held.breaks [c]).IsProper := by
  refine ⟨List.cons_ne_nil c [], ?_⟩
  intro d hd
  rw [List.mem_singleton.mp hd]
  exact h

theorem isProper_cons_break {c : Char} {reversed : List Char} (h : isValueBreak c = true)
    (hproper : (Held.breaks reversed).IsProper) : (Held.breaks (c :: reversed)).IsProper := by
  refine ⟨List.cons_ne_nil c reversed, ?_⟩
  intro d hd
  cases hd with
  | head =>
      exact h
  | tail _ hmem =>
      exact hproper.right d hmem

theorem not_space_of_breaks {reversed rest : List Char} (hproper : (Held.breaks reversed).IsProper)
    (h : hasAdjacent isSpaceAtBreak (Held.text (.breaks reversed) ++ ' ' :: rest) = false) :
    False := by
  cases reversed with
  | nil =>
      exact absurd rfl hproper.left
  | cons b more =>
      rw [text_break] at h
      have hnone := not_adjacent (Held.text (.breaks more)) h
      rw [isSpaceAtBreak, hproper.right b List.mem_cons_self] at hnone
      simp at hnone

theorem not_break_of_spaces {count : Nat} {atStart : Bool} {c : Char} {rest : List Char}
    (hbreak : isValueBreak c = true)
    (h : hasAdjacent isSpaceAtBreak (Held.text (.spaces (count + 1) atStart) ++ c :: rest) =
      false) :
    False := by
  rw [text_space] at h
  have hnone := not_adjacent (Held.text (.spaces count atStart)) h
  rw [isSpaceAtBreak, hbreak] at hnone
  simp at hnone

theorem single_singleFrom (s : List Char) {tail : List Char} (htail : tail.head? ≠ some '\'')
    (column : Nat) (held : Held) (hproper : held.IsProper)
    (hw : forall c, c ∈ s -> isWritable c = true)
    (hadjacent : hasAdjacent isSpaceAtBreak (held.text ++ s) = false) :
    Quoted.single .nothing ((singleFrom column held s).map lineFeedFor ++ '\'' :: tail) =
      .ok (singleBack false (held.text ++ s), tail) := by
  induction s generalizing column held with
  | nil =>
      rcases readsBack_writeLast held hproper with ⟨pending, hread, htext⟩
      show Quoted.single .nothing (held.writeLast.map lineFeedFor ++ '\'' :: tail) = _
      rw [hread, Quoted.single_close pending htail, htext [] rfl, singleBack, List.append_nil]
  | cons c rest ih =>
      have hrest : forall d, d ∈ rest -> isWritable d = true :=
        fun d hd => hw d (List.mem_cons_of_mem c hd)
      by_cases hspace : c = ' '
      · rw [hspace] at hadjacent ⊢
        cases held with
        | spaces count atStart =>
            rw [← text_space] at hadjacent ⊢
            rw [singleFrom_space]
            exact ih column (.spaces (count + 1) atStart) trivial hrest hadjacent
        | breaks reversed =>
            exact (not_space_of_breaks hproper hadjacent).elim
      · by_cases hbreak : isValueBreak c = true
        · cases held with
          | breaks reversed =>
              rw [← text_break] at hadjacent ⊢
              rw [singleFrom_break_of_breaks column reversed rest hbreak]
              exact ih column (.breaks (c :: reversed)) (isProper_cons_break hbreak hproper) hrest
                hadjacent
          | spaces count atStart =>
              cases count with
              | zero =>
                  rw [singleFrom_break_of_no_spaces column atStart rest hbreak]
                  exact ih column (.breaks [c]) (isProper_break hbreak) hrest hadjacent
              | succ count =>
                  exact (not_break_of_spaces hbreak hadjacent).elim
        · have hbreak' : isValueBreak c = false := by simpa using hbreak
          have hadjacent' : hasAdjacent isSpaceAtBreak (nothingHeld.text ++ rest) = false := by
            apply hasAdjacent_of_append (held.text ++ [c])
            rw [List.append_assoc]
            exact hadjacent
          rcases readsBack_write held hproper column with ⟨pending, hread, htext⟩
          rw [htext (c :: rest) hbreak', singleBack_cons_of_not_break false rest hbreak']
          by_cases hquote : c = '\''
          · have hmap : lineFeedFor '\'' = '\'' := rfl
            rw [hquote, singleFrom_quote, List.map_append, List.append_assoc, hread, List.map_cons,
              List.map_cons, List.cons_append, List.cons_append, hmap, Quoted.single_quotePair,
              ih ((held.write column).2 + 2) nothingHeld trivial hrest hadjacent', prepend_ok,
              List.append_assoc]
            rfl
          · rw [singleFrom_ordinary column held rest hspace hbreak' hquote, List.map_append,
              List.append_assoc, hread, List.map_cons, List.cons_append,
              lineFeedFor_of_ne (ne_nextLine_of_not_isValueBreak hbreak'),
              Quoted.single_ordinary pending _ hquote
                (not_isBlank_of_isWritable (hw c List.mem_cons_self) hspace)
                (not_isBreak_of_not_isValueBreak hbreak'),
              ih ((held.write column).2 + 1) nothingHeld trivial hrest hadjacent', prepend_ok,
              List.append_assoc]
            rfl

theorem scan_single {s : List Char} (h : allowsSingle s = true) (column : Nat) {tail : List Char}
    (htail : tail.head? ≠ some '\'') :
    Quoted.scan '\'' (((single column s).map lineFeedFor ++ tail).drop 1) =
      .ok (.ofChars (singleBack false s), tail) := by
  rw [allowsSingle, Bool.and_eq_true, List.all_eq_true, Bool.not_eq_true'] at h
  have hread := single_singleFrom s htail (column + 1) (.spaces 0 true) trivial h.left h.right
  rw [Quoted.scan, if_neg (by decide), single, List.map_append, List.map_cons, List.append_assoc]
  show Except.map _ (Quoted.single .nothing ((singleFrom (column + 1) (.spaces 0 true) s).map
    lineFeedFor ++ '\'' :: tail)) = _
  rw [hread]
  rfl

/-!
# What stands in the quotes
-/

theorem isKept_quotedBreaks {breaks : List Char} (h : forall c, c ∈ breaks -> isKept c = true) :
    forall c, c ∈ quotedBreaks breaks -> isKept c = true := by
  intro c hc
  simp only [quotedBreaks, List.mem_append, List.mem_cons, List.not_mem_nil, or_false] at hc
  rcases hc with (hc | hc) | hc | hc
  · split at hc
    · rw [List.mem_singleton.mp hc]
      rfl
    · cases hc
  · exact h c hc
  · rw [hc]
    rfl
  · rw [hc]
    rfl

theorem isKept_writeLast {held : Held} (h : forall c, c ∈ held.text -> isKept c = true) :
    forall c, c ∈ held.writeLast -> isKept c = true := by
  cases held with
  | spaces count atStart =>
      exact h
  | breaks reversed =>
      exact isKept_quotedBreaks h

theorem isKept_write {held : Held} (h : forall c, c ∈ held.text -> isKept c = true)
    (column : Nat) : forall c, c ∈ (held.write column).1 -> isKept c = true := by
  cases held with
  | spaces count atStart =>
      rw [Held.write]
      split
      · intro c hc
        simp only [continuation, List.mem_cons, List.not_mem_nil, or_false] at hc
        rcases hc with hc | hc | hc
        all_goals rw [hc]
        all_goals rfl
      · exact h
  | breaks reversed =>
      exact isKept_quotedBreaks h

theorem isKept_text_spaces (count : Nat) (atStart : Bool) :
    forall c, c ∈ Held.text (.spaces count atStart) -> isKept c = true := by
  intro c hc
  rw [List.eq_of_mem_replicate hc]
  rfl

theorem isKept_singleFrom {s : List Char} (h : forall c, c ∈ s -> isKept c = true)
    {column : Nat} {held : Held} (hheld : forall c, c ∈ held.text -> isKept c = true) :
    forall c, c ∈ singleFrom column held s -> isKept c = true := by
  induction s generalizing column held with
  | nil =>
      exact isKept_writeLast hheld
  | cons d rest ih =>
      have hd := h d List.mem_cons_self
      have hrest := fun c hc => h c (List.mem_cons_of_mem d hc)
      have hbreaks : forall reversed,
          (forall c, c ∈ Held.text (.breaks reversed) -> isKept c = true) ->
            forall c, c ∈ Held.text (.breaks (d :: reversed)) -> isKept c = true := by
        intro reversed hreversed c hc
        rw [Held.text, List.reverse_cons, List.mem_append, List.mem_singleton] at hc
        rcases hc with hc | hc
        · exact hreversed c hc
        · rw [hc]
          exact hd
      have hback : forall column' held', (forall c, c ∈ held'.text -> isKept c = true) ->
          forall c, c ∈ (held.write column).1 ++ singleFrom column' held' rest ->
            isKept c = true := by
        intro column' held' hheld' c hc
        rcases List.mem_append.mp hc with hc | hc
        · exact isKept_write hheld column c hc
        · exact ih hrest hheld' c hc
      intro c hc
      rw [singleFrom.eq_def] at hc
      simp only at hc
      split at hc
      · cases held with
        | spaces count atStart =>
            exact ih hrest (isKept_text_spaces (count + 1) atStart) c hc
        | breaks reversed =>
            exact hback _ _ (isKept_text_spaces 1 false) c hc
      · split at hc
        · cases held with
          | spaces count atStart =>
              exact hback _ _ (hbreaks [] (fun e he => by cases he)) c hc
          | breaks reversed =>
              exact ih hrest (hbreaks reversed hheld) c hc
        · split at hc
          · simp only [List.mem_append, List.mem_cons] at hc
            rcases hc with hc | hc | hc | hc
            · exact isKept_write hheld column c hc
            · rw [hc]
              rfl
            · rw [hc]
              rfl
            · exact ih hrest (isKept_text_spaces 0 false) c hc
          · simp only [List.mem_append, List.mem_cons] at hc
            rcases hc with hc | hc | hc
            · exact isKept_write hheld column c hc
            · rw [hc]
              exact hd
            · exact ih hrest (isKept_text_spaces 0 false) c hc

theorem isKept_single {s : List Char} (h : allowsSingle s = true) (column : Nat) :
    forall c, c ∈ single column s -> isKept c = true := by
  rw [allowsSingle, Bool.and_eq_true, List.all_eq_true] at h
  have hs : forall c, c ∈ s -> isKept c = true := fun c hc => isKept_of_isWritable (h.left c hc)
  intro c hc
  rw [single, List.mem_append, List.mem_cons, List.mem_singleton] at hc
  rcases hc with (hc | hc) | hc
  · rw [hc]
    rfl
  · exact isKept_singleFrom hs (isKept_text_spaces 0 true) c hc
  · rw [hc]
    rfl

end Yaml
end Palette
