import Palette.Proofs.Template.Scanning

/-!
# Parts of tags

A tag in double braces is a sigil, which may be missing, blanks and all up to the first closing
braces; a tag in triple braces is what stands between them.  The parts say what the tag is, so a
tag is the same in front of anything that does not close it anew.
-/

namespace Palette
namespace Template

/-!
# Names up to closing words
-/

theorem before?_of_prefix {accepts : Char → Bool} {closing s t inside : List Char}
    (hclosing : closing ≠ []) (h : before? accepts closing s = some inside)
    (ht : inside ++ closing <+: t) : before? accepts closing t = some inside := by
  induction s generalizing t inside with
  | nil =>
      cases h
  | cons c rest ih =>
      have hs := append_prefix_of_before? h
      cases t with
      | nil =>
          exact absurd (List.append_eq_nil_iff.mp (List.prefix_nil.mp ht)).right hclosing
      | cons d more =>
          rw [before?] at h
          split at h
          case isTrue hword =>
            injection h with hinside
            rw [← hinside, List.nil_append] at ht
            rw [before?, if_pos ht, hinside]
          case isFalse hword =>
            split at h
            case isFalse =>
              cases h
            case isTrue hc =>
              rcases Option.map_eq_some_iff.mp h with ⟨name, hname, hinside⟩
              rw [← hinside] at hs ht ⊢
              have hnot : ¬closing <+: d :: more := by
                intro hearly
                have hle : closing.length ≤ (c :: name ++ closing).length := by
                  rw [List.length_append]
                  exact Nat.le_add_left _ _
                exact hword ((List.prefix_of_prefix_length_le hearly ht hle).trans hs)
              rcases List.cons_prefix_cons.mp ht with ⟨hd, hmore⟩
              rw [before?, if_neg hnot, ← hd, if_pos hc, ih hname hmore]
              rfl

theorem beforeClosing?_of_prefix {s t inside : List Char} (h : beforeClosing? s = some inside)
    (ht : inside ++ ['}', '}'] <+: t) : beforeClosing? t = some inside := by
  rw [beforeClosing?_eq] at h ⊢
  exact before?_of_prefix (List.cons_ne_nil _ _) h ht

theorem beforeClosing?_append {name : List Char} (h : forall c, c ∈ name -> isBrace c = false)
    (rest : List Char) : beforeClosing? (name ++ '}' :: '}' :: rest) = some name := by
  induction name with
  | nil =>
      rfl
  | cons c name ih =>
      have hc : c ≠ '}' := by
        intro hc
        have hbrace := h c List.mem_cons_self
        rw [hc] at hbrace
        cases hbrace
      rw [List.cons_append, beforeClosing?_cons_of_ne hc,
        ih fun d hd => h d (List.mem_cons_of_mem c hd)]
      rfl

theorem isSome_beforeClosing?_append (front : List Char) {s : List Char}
    (h : (beforeClosing? s).isSome = true) : (beforeClosing? (front ++ s)).isSome = true := by
  induction front with
  | nil =>
      exact h
  | cons c front ih =>
      rw [List.cons_append, beforeClosing?_eq, before?]
      rw [beforeClosing?_eq] at ih
      split
      · rfl
      · rw [if_pos rfl, Option.isSome_map]
        exact ih

/-!
# Double braces
-/

structure IsDouble (form : Form) (sigil gap inside : List Char) : Prop where
  form : formOf? sigil = some form
  unsigned : sigil = [] -> forall c, c ∈ (gap ++ inside).head? -> c ∉ sigils
  gap : forall c, c ∈ gap -> Text.isBlank c = true
  starts : forall c, c ∈ inside.head? -> Text.isBlank c = false
  closed : beforeClosing? (inside ++ ['}', '}']) = some inside

theorem sigil?_eq_none_iff (c : Char) : sigil? c = none <-> c ∉ sigils := by
  have hsome := isSome_sigil? c
  rw [← Option.isNone_iff_eq_none, ← List.contains_iff_mem, ← hsome]
  cases sigil? c <;> simp

theorem sigilAt_append_of_formOf? {form : Form} {sigil : List Char}
    (hform : formOf? sigil = some form) {s : List Char}
    (h : sigil = [] -> forall c, c ∈ s.head? -> c ∉ sigils) :
    sigilAt (sigil ++ s) = (form, sigil.length) := by
  unfold formOf? at hform
  split at hform
  case h_1 =>
    injection hform with hform
    rw [← hform, List.nil_append]
    cases s with
    | nil =>
        rfl
    | cons c rest =>
        rw [sigilAt, (sigil?_eq_none_iff c).mpr (h rfl c rfl)]
        rfl
  case h_7 =>
    cases hform
  all_goals
    injection hform with hform
    rw [← hform]
    rfl

theorem exists_sigil (s : List Char) :
    exists form sigil rest, s = sigil ++ rest ∧ formOf? sigil = some form ∧
      sigilAt s = (form, sigil.length) ∧
      (sigil = [] -> forall c, c ∈ rest.head? -> c ∉ sigils) := by
  cases s with
  | nil =>
      refine ⟨.escaped, [], [], rfl, rfl, rfl, ?_⟩
      intro _ c hc
      cases hc
  | cons c rest =>
      cases hsigil : sigil? c with
      | none =>
          refine ⟨.escaped, [], c :: rest, rfl, rfl, by rw [sigilAt, hsigil]; rfl, ?_⟩
          intro _ d hd
          injection hd with hd
          rw [← hd]
          exact (sigil?_eq_none_iff c).mp hsigil
      | some form =>
          have hat : sigilAt (c :: rest) = (form, 1) := by
            rw [sigilAt, hsigil]
          have hform := formOf?_sigil (c :: rest)
          rw [hat] at hform
          refine ⟨form, [c], rest, rfl, hform, hat, ?_⟩
          intro hnil
          cases hnil

namespace IsDouble

variable {form : Form} {sigil gap inside : List Char} (h : IsDouble form sigil gap inside)

include h

theorem double?_append_parts (tail : List Char) :
    double? (sigil ++ (gap ++ (inside ++ '}' :: '}' :: tail))) =
      some (⟨form, String.ofList (Text.trimEnd inside)⟩,
        sigil.length + gap.length + inside.length + 2) := by
  have hsigil : sigilAt (sigil ++ (gap ++ (inside ++ '}' :: '}' :: tail))) =
      (form, sigil.length) := by
    apply sigilAt_append_of_formOf? h.form
    intro hnil c hc
    rw [← List.append_assoc] at hc
    cases hhead : gap ++ inside with
    | nil =>
        rw [hhead] at hc
        injection hc with hc
        rw [← hc]
        decide
    | cons d rest =>
        rw [hhead] at hc
        injection hc with hc
        rw [← hc]
        exact h.unsigned hnil d (by rw [hhead]; rfl)
  have hstop : (inside ++ '}' :: '}' :: tail).takeWhile Text.isBlank = [] := by
    cases hinside : inside with
    | nil =>
        rfl
    | cons d rest =>
        have hd := h.starts d (by rw [hinside]; rfl)
        rw [List.cons_append, List.takeWhile_cons_of_neg (by rw [hd]; exact Bool.false_ne_true)]
  have htake : (gap ++ (inside ++ '}' :: '}' :: tail)).takeWhile Text.isBlank = gap := by
    rw [List.takeWhile_append_of_pos h.gap, hstop, List.append_nil]
  have hclosing : beforeClosing? (inside ++ '}' :: '}' :: tail) = some inside := by
    apply beforeClosing?_of_prefix h.closed
    exact ⟨tail, by rw [List.append_assoc]; rfl⟩
  rw [double?, hsigil]
  simp only [List.drop_left, htake]
  rw [← List.drop_drop, List.drop_left, List.drop_left, hclosing, Option.map_some]

end IsDouble

theorem exists_parts_of_double? {s : List Char} {tag : Tag} {length : Nat}
    (h : double? s = some (tag, length)) :
    exists form sigil gap inside tail, IsDouble form sigil gap inside ∧
      s = sigil ++ (gap ++ (inside ++ '}' :: '}' :: tail)) ∧
      tag = ⟨form, String.ofList (Text.trimEnd inside)⟩ ∧
      length = sigil.length + gap.length + inside.length + 2 := by
  rcases exists_sigil s with ⟨form, sigil, rest, hs, hform, hsigil, hunsigned⟩
  have hsplit := (List.takeWhile_append_dropWhile (p := Text.isBlank) (l := rest)).symm
  have hgap := List.all_eq_true.mp (List.all_takeWhile (p := Text.isBlank) (l := rest))
  have hstop := Text.Pattern.takeWhile_dropWhile Text.isBlank rest
  rw [double?, hsigil] at h
  simp only [hs, List.drop_left, ← List.drop_drop] at h
  generalize rest.takeWhile Text.isBlank = gap at hsplit hgap h
  generalize rest.dropWhile Text.isBlank = after at hsplit hstop
  rw [hsplit, List.drop_left] at h
  rcases Option.map_eq_some_iff.mp h with ⟨inside, hinside, htag⟩
  have hbefore := hinside
  rw [beforeClosing?_eq] at hbefore
  rcases append_prefix_of_before? hbefore with ⟨tail, hafter⟩
  have hparts : rest = gap ++ (inside ++ '}' :: '}' :: tail) := by
    rw [hsplit, ← hafter, List.append_assoc]
    rfl
  injection htag with htag hlength
  refine ⟨form, sigil, gap, inside, tail, ⟨hform, ?_, hgap, ?_, ?_⟩, ?_, htag.symm, ?_⟩
  · intro hnil c hc
    apply hunsigned hnil c
    rw [hparts, ← List.append_assoc, List.head?_append, Option.mem_def.mp hc]
    rfl
  · intro c hc
    cases inside with
    | nil =>
        cases hc
    | cons d more =>
        injection hc with hd
        rw [← hafter, List.cons_append, List.cons_append] at hstop
        by_contra hblank
        rw [List.takeWhile_cons_of_pos (by rw [hd]; simpa using hblank)] at hstop
        cases hstop
  · exact beforeClosing?_of_prefix hinside List.prefix_rfl
  · rw [hs, hparts]
  · exact hlength.symm

/-!
# Triple braces
-/

theorem triple?_append_inside {inside : List Char} (hne : inside ≠ [])
    (hinside : forall c, c ∈ inside -> isBrace c = false) (tail : List Char) :
    triple? (inside ++ '}' :: '}' :: '}' :: tail) =
      some (⟨.triple, String.ofList (tripleName inside)⟩, inside.length + 3) := by
  have hplain : forall c, c ∈ inside -> (!isBrace c) = true := by
    intro c hc
    rw [hinside c hc]
    rfl
  have htake : (inside ++ '}' :: '}' :: '}' :: tail).takeWhile (!isBrace ·) = inside := by
    rw [List.takeWhile_append_of_pos hplain]
    exact List.append_nil inside
  have hdrop : (inside ++ '}' :: '}' :: '}' :: tail).dropWhile (!isBrace ·) =
      '}' :: '}' :: '}' :: tail := by
    rw [List.dropWhile_append_of_pos hplain]
    rfl
  have hword : ['}', '}', '}'] <+: '}' :: '}' :: '}' :: tail :=
    List.prefix_append ['}', '}', '}'] tail
  rw [triple?_eq, before?_triple_eq, htake, hdrop, if_pos hword, Option.bind_some, if_neg hne]

theorem exists_inside_of_triple? {s : List Char} {tag : Tag} {length : Nat}
    (h : triple? s = some (tag, length)) :
    exists inside tail, inside ≠ [] ∧ (forall c, c ∈ inside -> isBrace c = false) ∧
      s = inside ++ '}' :: '}' :: '}' :: tail ∧
      tag = ⟨.triple, String.ofList (tripleName inside)⟩ ∧ length = inside.length + 3 := by
  rw [triple?_eq] at h
  rcases Option.bind_eq_some_iff.mp h with ⟨inside, hinside, htag⟩
  rcases append_prefix_of_before? hinside with ⟨tail, hs⟩
  rw [before?_triple_eq] at hinside
  split at htag
  case isTrue =>
    cases htag
  case isFalse hne =>
    cases htag
    split at hinside
    case isFalse =>
      cases hinside
    case isTrue =>
      injection hinside with hinside
      refine ⟨inside, tail, hne, ?_, ?_, rfl, rfl⟩
      · intro c hc
        rw [← hinside] at hc
        simpa using List.mem_takeWhile_imp hc
      · rw [← hs, List.append_assoc]
        rfl

/-!
# Tags and their sources
-/

theorem tagAt?_of_not {s : List Char} (h : ¬['{', '{'] <+: s) : tagAt? s = none := by
  unfold tagAt?
  split
  case h_1 rest =>
    exact absurd (List.prefix_append ['{', '{'] ('{' :: rest)) h
  case h_2 rest _ =>
    exact absurd (List.prefix_append ['{', '{'] rest) h
  case h_3 =>
    rfl

theorem tagAt?_double {s : List Char} (h : s.head? ≠ some '{') :
    tagAt? ('{' :: '{' :: s) = (double? s).map fun (tag, length) => (tag, length + 2) := by
  unfold tagAt?
  split
  case h_1 rest heq =>
    injection heq with _ heq
    injection heq with _ heq
    rw [heq] at h
    exact absurd rfl h
  case h_2 rest _ heq =>
    injection heq with _ heq
    injection heq with _ heq
    rw [heq]
  case h_3 _ hnot =>
    exact absurd rfl (hnot s)

theorem tagAt?_triple_append {inside : List Char} (hne : inside ≠ [])
    (hinside : forall c, c ∈ inside -> isBrace c = false) (tail : List Char) :
    tagAt? ('{' :: '{' :: '{' :: (inside ++ '}' :: '}' :: '}' :: tail)) =
      some (⟨.triple, String.ofList (tripleName inside)⟩, inside.length + 6) := by
  rw [tagAt?, triple?_append_inside hne hinside]
  rfl

theorem IsDouble.tagAt?_append {form : Form} {sigil gap inside : List Char}
    (h : IsDouble form sigil gap inside) (hhead : (sigil ++ (gap ++ inside)).head? ≠ some '{')
    (tail : List Char) :
    tagAt? ('{' :: '{' :: (sigil ++ (gap ++ (inside ++ '}' :: '}' :: tail)))) =
      some (⟨form, String.ofList (Text.trimEnd inside)⟩,
        sigil.length + gap.length + inside.length + 4) := by
  have hnot : (sigil ++ (gap ++ (inside ++ '}' :: '}' :: tail))).head? ≠ some '{' := by
    have hparts : sigil ++ (gap ++ (inside ++ '}' :: '}' :: tail)) =
        sigil ++ (gap ++ inside) ++ '}' :: '}' :: tail := by
      rw [List.append_assoc, List.append_assoc]
    rw [hparts, List.head?_append]
    cases hfirst : (sigil ++ (gap ++ inside)).head? with
    | none =>
        rw [Option.none_or, List.head?_cons]
        decide
    | some c =>
        rw [hfirst] at hhead
        exact hhead
  rw [tagAt?_double hnot, h.double?_append_parts tail]
  rfl

/-- Whether a source is read as a tag, whatever stands behind it. -/
def Reads (tag : Tag) (source : List Char) : Prop :=
  forall rest, tagAt? (source ++ rest) = some (tag, source.length)

theorem reads_triple {inside : List Char} (hne : inside ≠ [])
    (hinside : forall c, c ∈ inside -> isBrace c = false) :
    Reads ⟨.triple, String.ofList (tripleName inside)⟩
      ('{' :: '{' :: '{' :: (inside ++ ['}', '}', '}'])) := by
  intro rest
  have hsource : '{' :: '{' :: '{' :: (inside ++ ['}', '}', '}']) ++ rest =
      '{' :: '{' :: '{' :: (inside ++ '}' :: '}' :: '}' :: rest) := by
    simp
  rw [hsource, tagAt?_triple_append hne hinside]
  simp

theorem IsDouble.reads {form : Form} {sigil gap inside : List Char}
    (h : IsDouble form sigil gap inside) (hhead : (sigil ++ (gap ++ inside)).head? ≠ some '{') :
    Reads ⟨form, String.ofList (Text.trimEnd inside)⟩
      ('{' :: '{' :: (sigil ++ (gap ++ (inside ++ ['}', '}'])))) := by
  intro rest
  have hsource : '{' :: '{' :: (sigil ++ (gap ++ (inside ++ ['}', '}']))) ++ rest =
      '{' :: '{' :: (sigil ++ (gap ++ (inside ++ '}' :: '}' :: rest))) := by
    simp
  rw [hsource, h.tagAt?_append hhead]
  simp [Nat.add_assoc]

/-- What a tag is written as. -/
inductive Spells : Tag → List Char → Prop
  | double {form : Form} {sigil gap inside : List Char} (h : IsDouble form sigil gap inside) :
      Spells ⟨form, String.ofList (Text.trimEnd inside)⟩
        ('{' :: '{' :: (sigil ++ (gap ++ (inside ++ ['}', '}']))))
  | triple {inside : List Char} (hne : inside ≠ [])
      (hinside : forall c, c ∈ inside -> isBrace c = false) :
      Spells ⟨.triple, String.ofList (tripleName inside)⟩
        ('{' :: '{' :: '{' :: (inside ++ ['}', '}', '}']))

theorem spells_of_double? {s : List Char} {tag : Tag} {length : Nat}
    (h : double? s = some (tag, length)) : Spells tag ('{' :: '{' :: s.take length) := by
  rcases exists_parts_of_double? h with ⟨form, sigil, gap, inside, tail, hparts, rfl, rfl, rfl⟩
  have hsource : sigil ++ (gap ++ (inside ++ '}' :: '}' :: tail)) =
      sigil ++ (gap ++ (inside ++ ['}', '}'])) ++ tail := by
    simp
  have hlength : sigil.length + gap.length + inside.length + 2 =
      (sigil ++ (gap ++ (inside ++ ['}', '}']))).length := by
    simp [Nat.add_assoc]
  rw [hsource, hlength, List.take_left]
  exact .double hparts

theorem spells_of_triple? {s : List Char} {tag : Tag} {length : Nat}
    (h : triple? s = some (tag, length)) : Spells tag ('{' :: '{' :: '{' :: s.take length) := by
  rcases exists_inside_of_triple? h with ⟨inside, tail, hne, hinside, rfl, rfl, rfl⟩
  have hsource : inside ++ '}' :: '}' :: '}' :: tail = inside ++ ['}', '}', '}'] ++ tail := by
    simp
  have hlength : inside.length + 3 = (inside ++ ['}', '}', '}']).length := by
    simp
  rw [hsource, hlength, List.take_left]
  exact .triple hne hinside

theorem spells_of_tagAt? {s : List Char} {tag : Tag} {length : Nat}
    (h : tagAt? s = some (tag, length)) : Spells tag (s.take length) := by
  unfold tagAt? at h
  split at h
  case h_1 rest =>
    rcases Option.or_eq_some_iff.mp h with htriple | ⟨_, hdouble⟩
    · rcases Option.map_eq_some_iff.mp htriple with ⟨⟨other, count⟩, hcount, htag⟩
      cases htag
      exact spells_of_triple? hcount
    · rcases Option.map_eq_some_iff.mp hdouble with ⟨⟨other, count⟩, hcount, htag⟩
      cases htag
      exact spells_of_double? hcount
  case h_2 rest _ =>
    rcases Option.map_eq_some_iff.mp h with ⟨⟨other, count⟩, hcount, htag⟩
    cases htag
    exact spells_of_double? hcount
  case h_3 =>
    cases h

theorem Spells.exists_inner {tag : Tag} {source : List Char} (h : Spells tag source) :
    exists inner, source = '{' :: '{' :: (inner ++ ['}', '}']) := by
  cases h with
  | @double form sigil gap inside _ =>
      exact ⟨sigil ++ (gap ++ inside), by simp⟩
  | @triple inside _ _ =>
      exact ⟨'{' :: (inside ++ ['}']), by simp⟩

theorem isSome_double? {s : List Char} (h : (beforeClosing? s).isSome = true) :
    (double? s).isSome = true := by
  rcases exists_sigil s with ⟨form, sigil, rest, hs, hform, hsigil, _⟩
  have hrest : (beforeClosing? rest).isSome = true := by
    rw [hs] at h
    unfold formOf? at hform
    split at hform
    case h_1 =>
      exact h
    case h_7 =>
      cases hform
    all_goals
      rw [List.cons_append, beforeClosing?_cons_of_ne (by decide), Option.isSome_map] at h
      exact h
  rw [double?, hsigil]
  simp only [hs, List.drop_left, ← List.drop_drop]
  rw [Option.isSome_map, isSome_beforeClosing?_drop_blanks]
  exact hrest

theorem isSome_tagAt?_iff {s : List Char} :
    (tagAt? s).isSome = true <->
      exists rest, s = '{' :: '{' :: rest ∧ (beforeClosing? rest).isSome = true := by
  constructor
  · intro h
    rcases Option.isSome_iff_exists.mp h with ⟨⟨tag, length⟩, htag⟩
    rcases (spells_of_tagAt? htag).exists_inner with ⟨inner, hinner⟩
    refine ⟨inner ++ '}' :: '}' :: s.drop length, ?_, isSome_beforeClosing?_append inner rfl⟩
    conv => lhs; rw [← List.take_append_drop length s, hinner]
    simp
  · rintro ⟨rest, rfl, hclosing⟩
    have hdouble := isSome_double? hclosing
    unfold tagAt?
    split
    case h_1 more heq =>
      injection heq with _ heq
      injection heq with _ heq
      rw [heq] at hdouble
      rw [Option.isSome_or, Option.isSome_map, Option.isSome_map, hdouble, Bool.or_true]
    case h_2 more _ heq =>
      injection heq with _ heq
      injection heq with _ heq
      rw [heq] at hdouble
      rw [Option.isSome_map]
      exact hdouble
    case h_3 _ hnot =>
      exact absurd rfl (hnot rest)

/-!
# What stands behind a tag
-/

theorem isSome_triple?_iff {more rest : List Char}
    (hclosed : beforeClosing? ('{' :: more ++ ['}', '}']) = some ('{' :: more)) :
    (triple? (more ++ '}' :: '}' :: rest)).isSome = true <->
      more ≠ [] ∧ (forall c, c ∈ more -> isBrace c = false) ∧ rest.head? = some '}' := by
  constructor
  · intro h
    rcases Option.isSome_iff_exists.mp h with ⟨⟨tag, length⟩, htriple⟩
    rcases exists_inside_of_triple? htriple with ⟨inside, tail, hne, hinside, hsame, _, _⟩
    have hfirst : beforeClosing? ('{' :: (more ++ '}' :: '}' :: rest)) = some ('{' :: more) :=
      beforeClosing?_of_prefix hclosed ⟨rest, by simp⟩
    have hsecond : beforeClosing? ('{' :: (inside ++ '}' :: '}' :: '}' :: tail)) =
        some ('{' :: inside) := by
      rw [beforeClosing?_cons_of_ne (by decide), beforeClosing?_append hinside]
      rfl
    rw [hsame, hsecond] at hfirst
    injection hfirst with hfirst
    injection hfirst with _ hmore
    rw [hmore] at hsame hne hinside
    have hrest := List.append_cancel_left hsame
    injection hrest with _ hrest
    injection hrest with _ hrest
    exact ⟨hne, hinside, by rw [hrest]; rfl⟩
  · rintro ⟨hne, hinside, hrest⟩
    rcases List.head?_eq_some_iff.mp hrest with ⟨tail, rfl⟩
    rw [triple?_append_inside hne hinside]
    rfl

theorem IsDouble.of_head? {form : Form} {sigil gap inside : List Char}
    (h : IsDouble form sigil gap inside) (hhead : (sigil ++ (gap ++ inside)).head? = some '{') :
    exists more, sigil = [] ∧ gap = [] ∧ inside = '{' :: more := by
  have hform := h.form
  unfold formOf? at hform
  split at hform
  case h_1 =>
    cases hgap : gap with
    | nil =>
        rw [hgap] at hhead
        rcases List.head?_eq_some_iff.mp hhead with ⟨more, hinside⟩
        exact ⟨more, rfl, rfl, hinside⟩
    | cons c rest =>
        have hblank := h.gap c (by rw [hgap]; exact List.mem_cons_self)
        rw [hgap] at hhead
        injection hhead with hc
        rw [hc] at hblank
        cases hblank
  case h_7 =>
    cases hform
  all_goals
    cases hhead

theorem IsDouble.head?_ne {form : Form} {sigil gap inside : List Char}
    (h : IsDouble form sigil gap inside) (hinside : forall c, c ∈ inside -> isBrace c = false) :
    (sigil ++ (gap ++ inside)).head? ≠ some '{' := by
  intro hhead
  rcases h.of_head? hhead with ⟨more, _, _, rfl⟩
  exact absurd (hinside '{' List.mem_cons_self) (by decide)

theorem tagAt?_append_congr {source rest other : List Char} {tag : Tag}
    (h : tagAt? (source ++ rest) = some (tag, source.length))
    (hnext : other.head? = some '}' -> rest.head? = some '}') :
    tagAt? (source ++ other) = some (tag, source.length) := by
  have hspells := spells_of_tagAt? h
  rw [List.take_left] at hspells
  cases hspells with
  | triple hne hinside =>
      exact reads_triple hne hinside other
  | @double form sigil gap inside hparts =>
      by_cases hhead : (sigil ++ (gap ++ inside)).head? = some '{'
      · rcases hparts.of_head? hhead with ⟨more, rfl, rfl, rfl⟩
        have hsource : forall tail : List Char,
            '{' :: '{' :: ([] ++ ([] ++ ('{' :: more ++ ['}', '}']))) ++ tail =
              '{' :: '{' :: '{' :: (more ++ '}' :: '}' :: tail) := by
          simp
        have htriple : triple? (more ++ '}' :: '}' :: rest) = none := by
          rw [← Option.not_isSome_iff_eq_none, isSome_triple?_iff hparts.closed]
          rintro ⟨hne, hinside, hrest⟩
          rcases List.head?_eq_some_iff.mp hrest with ⟨tail, rfl⟩
          rw [hsource, tagAt?_triple_append hne hinside] at h
          simp at h
        have hother : triple? (more ++ '}' :: '}' :: other) = none := by
          rw [← Option.not_isSome_iff_eq_none, isSome_triple?_iff hparts.closed] at htriple ⊢
          rintro ⟨hne, hinside, hbrace⟩
          exact htriple ⟨hne, hinside, hnext hbrace⟩
        have hdouble := hparts.double?_append_parts other
        rw [hsource, tagAt?, hother, Option.map_none, Option.none_or]
        simp only [List.nil_append, List.cons_append] at hdouble
        rw [hdouble]
        simp
      · exact hparts.reads hhead other

theorem scan_append_of_tagAt? {source rest : List Char} {tag : Tag} (hsource : source ≠ [])
    (h : tagAt? (source ++ rest) = some (tag, source.length)) :
    scan (source ++ rest) = .tag tag source :: scan rest := by
  cases source with
  | nil =>
      exact absurd rfl hsource
  | cons c more =>
      rw [List.cons_append] at h ⊢
      rw [scan_of_some h, ← List.cons_append, List.take_left, List.drop_left]

theorem Reads.scan_append {tag : Tag} {source : List Char} (h : Reads tag source)
    (hsource : source ≠ []) (rest : List Char) :
    scan (source ++ rest) = .tag tag source :: scan rest :=
  scan_append_of_tagAt? hsource (h rest)

end Template
end Palette
