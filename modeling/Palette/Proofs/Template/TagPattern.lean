import Palette.Proofs.Template.TagNames
import Palette.Template.Tag

/-!
# Tags as matches of a pattern

The tags of a source are the matches of one pattern, looked for from left to right.
The scanner finds them without backtracking: a name goes up to the first closing
braces, and what the pattern gives back on its way are blanks only.
-/

namespace Palette
namespace Template

open Text (Pattern Cursor Match)
open Text.Pattern

def sigils : List Char :=
  ['#', '^', '/', '!', '&']

/-- A name without braces up to a closing brace, blanks behind it. -/
def bracedName : Pattern :=
  sequenceOf
    [ .group 2 (sequenceOf [.char (!isBrace ·), .repeated false (.char (!isBrace ·))]), blanks,
      .char (· == '}')]

def braced : Pattern :=
  sequenceOf [.char (· == '{'), blanks, bracedName]

def spacedName : Pattern :=
  sequenceOf [blanks, .group 4 (.repeated false (.char fun _ => true)), blanks]

def signed : Pattern :=
  .sequence (.group 3 (.choice (.char sigils.contains) .empty)) spacedName

def tagPattern : Pattern :=
  sequenceOf [word ['{', '{'], .group 1 (.choice braced signed), word ['}', '}']]

def formOf? : List Char → Option Form
  | [] => some .escaped
  | ['#'] => some (.opening .found)
  | ['^'] => some (.opening .missing)
  | ['/'] => some .closing
  | ['!'] => some .comment
  | ['&'] => some .raw
  | _ => none

/-- The tag of a match: either the name in braces of its own took part, or the sigil and
the name behind it did. -/
def tagOf? (m : Match) : Option Tag :=
  match m.group? 2, m.group? 3, m.group? 4 with
  | some name, none, none => some ⟨.triple, String.ofList name⟩
  | none, some sigil, some name => (formOf? sigil).map fun form => ⟨form, String.ofList name⟩
  | _, _, _ => none

def fieldOf? (m : Match) : Option String :=
  match m.group? 2 with
  | some name => some (String.ofList name)
  | none =>
      if m.group? 3 = some ['!'] ∨ m.group? 3 = some ['/'] then none
      else (m.group? 4).map String.ofList

/-!
# The two kinds of braces
-/

theorem isBlank_of_mem_braces (count : Nat) {c : Char} (h : c ∈ List.replicate count '}') :
    Text.isBlank c = false := by
  rw [List.eq_of_mem_replicate h]
  rfl

theorem isClosing_double : IsClosing (fun _ => true) ['}', '}'] where
  nonempty := List.cons_ne_nil _ _
  solid _ hc := isBlank_of_mem_braces 2 hc
  acceptsBlank _ _ := rfl

theorem isClosing_triple : IsClosing (!isBrace ·) ['}', '}', '}'] where
  nonempty := List.cons_ne_nil _ _
  solid _ hc := isBlank_of_mem_braces 3 hc
  acceptsBlank := by
    intro c hc
    rw [Bool.not_eq_true', isBrace, Bool.or_eq_false_iff]
    constructor
    · rw [beq_eq_false_iff_ne]
      rintro rfl
      exact absurd hc (by decide)
    · rw [beq_eq_false_iff_ne]
      rintro rfl
      exact absurd hc (by decide)

theorem beforeClosing?_eq (s : List Char) :
    beforeClosing? s = before? (fun _ => true) ['}', '}'] s := by
  fun_induction beforeClosing? s with
  | case1 =>
      rfl
  | case2 rest =>
      exact (before?_closing isClosing_double (List.prefix_append ['}', '}'] rest)).symm
  | case3 c rest hnot ih =>
      have hword : ¬['}', '}'] <+: c :: rest := by
        rintro ⟨tail, htail⟩
        injection htail with hc hrest
        exact hnot tail hc.symm hrest.symm
      rw [before?, if_neg hword, if_pos rfl, ih]

theorem beforeClosing?_cons_of_ne {c : Char} (hc : c ≠ '}') (rest : List Char) :
    beforeClosing? (c :: rest) = (beforeClosing? rest).map (c :: ·) := by
  have hword : ¬['}', '}'] <+: c :: rest := by
    rw [List.cons_prefix_cons]
    intro h
    exact hc h.left.symm
  rw [beforeClosing?_eq, beforeClosing?_eq, before?, if_neg hword, if_pos rfl]

theorem before?_triple_eq (s : List Char) :
    before? (!isBrace ·) ['}', '}', '}'] s =
      if ['}', '}', '}'] <+: s.dropWhile (!isBrace ·) then some (s.takeWhile (!isBrace ·))
      else none := by
  induction s with
  | nil =>
      rfl
  | cons c rest ih =>
      rw [before?]
      by_cases hc : (!isBrace c) = true
      · have hword : ¬['}', '}', '}'] <+: c :: rest := by
          rintro ⟨tail, htail⟩
          injection htail with hhead _
          rw [← hhead] at hc
          exact absurd hc (by decide)
        have hdrop : (c :: rest).dropWhile (!isBrace ·) = rest.dropWhile (!isBrace ·) :=
          List.dropWhile_cons_of_pos hc
        have htake : (c :: rest).takeWhile (!isBrace ·) = c :: rest.takeWhile (!isBrace ·) :=
          List.takeWhile_cons_of_pos hc
        rw [if_neg hword, if_pos hc, ih, hdrop, htake]
        split
        · rfl
        · rfl
      · have hdrop : (c :: rest).dropWhile (!isBrace ·) = c :: rest :=
          List.dropWhile_cons_of_neg hc
        have htake : (c :: rest).takeWhile (!isBrace ·) = [] :=
          List.takeWhile_cons_of_neg hc
        rw [if_neg hc, hdrop, htake]

theorem prefix_drop_of_triple {s inside : List Char}
    (h : before? (!isBrace ·) ['}', '}', '}'] s = some inside) :
    ['}', '}'] <+: s.drop (inside.length + 1) := by
  rcases append_prefix_of_before? h with ⟨tail, hs⟩
  have hsplit : s = (inside ++ ['}']) ++ (['}', '}'] ++ tail) := by
    rw [← hs, List.append_assoc, List.append_assoc]
    rfl
  have hlength : inside.length + 1 = (inside ++ ['}']).length := by
    rw [List.length_append, List.length_singleton]
  rw [hsplit, hlength, List.drop_left]
  exact List.prefix_append _ tail

theorem triple?_eq (s : List Char) :
    triple? s = (before? (!isBrace ·) ['}', '}', '}'] s).bind fun inside =>
      if inside = [] then none
      else some (⟨.triple, String.ofList (tripleName inside)⟩, inside.length + 3) := by
  rw [before?_triple_eq, triple?]
  split
  case h_1 c cs rest hinside hafter =>
    have hword : ['}', '}', '}'] <+: '}' :: '}' :: '}' :: rest :=
      List.prefix_append ['}', '}', '}'] rest
    rw [hafter, if_pos hword, hinside]
    rfl
  case h_2 hnot =>
    by_cases hword : ['}', '}', '}'] <+: s.dropWhile (!isBrace ·)
    · rcases hword with ⟨tail, htail⟩
      cases hinside : s.takeWhile (!isBrace ·) with
      | nil =>
          split
          · rfl
          · rfl
      | cons c cs =>
          exact absurd htail.symm (hnot c cs tail hinside)
    · rw [if_neg hword]
      rfl

theorem run_char_self {β : Type} {w : List Char} {c : Char} {s : Cursor}
    (hs : c :: w <+: s.rest) (next : Cursor → Option β) :
    (Pattern.char (· == c)).run s next = next (s.skip 1) := by
  rcases hs with ⟨tail, htail⟩
  rw [run_char_cons htail.symm, if_pos (beq_self_eq_true c)]

theorem isSome_sigil? (c : Char) : (sigil? c).isSome = sigils.contains c := by
  unfold sigil?
  split
  case h_6 hhash hcaret hslash hbang hamp =>
    symm
    rw [Option.isSome_none, sigils, List.contains_eq_mem, decide_eq_false_iff_not]
    intro hmem
    rw [List.mem_cons, List.mem_cons, List.mem_cons, List.mem_cons, List.mem_singleton] at hmem
    rcases hmem with h | h | h | h | h
    · exact hhash h
    · exact hcaret h
    · exact hslash h
    · exact hbang h
    · exact hamp h
  all_goals rfl

theorem isSome_beforeClosing?_drop_blanks (s : List Char) :
    (beforeClosing? (s.drop (s.takeWhile Text.isBlank).length)).isSome =
      (beforeClosing? s).isSome := by
  have hsplit := (List.takeWhile_append_dropWhile (p := Text.isBlank) (l := s)).symm
  have hgap := List.all_eq_true.mp (List.all_takeWhile (p := Text.isBlank) (l := s))
  generalize s.takeWhile Text.isBlank = gap at hsplit hgap ⊢
  conv => rhs; rw [hsplit, beforeClosing?_eq, isClosing_double.before?_blanks hgap]
  conv => lhs; rw [hsplit, List.drop_left, beforeClosing?_eq]
  rw [Option.isSome_map]

section Bodies

variable {β : Type} {next : Cursor → Option β}

theorem run_bracedName (hnext : Needs ['}', '}'] next) (s : Cursor) :
    bracedName.run s next =
      (before? (!isBrace ·) ['}', '}', '}'] s.rest).bind fun inside =>
        match inside with
        | [] => none
        | c :: cs => next ((s.skip (cs.length + 2)).keep 2 (c :: Text.trimEnd cs)) := by
  show (Pattern.char (!isBrace ·)).run s (fun t =>
    (Pattern.repeated false (.char (!isBrace ·))).run t fun u =>
      blanks.run (u.keep 2 (s.textTo u)) fun v => (Pattern.char (· == '}')).run v next) = _
  cases hrest : s.rest with
  | nil =>
      rw [run_char_nil hrest]
      rfl
  | cons c rest =>
      have hskip : (s.skip 1).rest = rest := by
        rw [Cursor.rest_skip, hrest]
        rfl
      rw [run_char_cons hrest, before?]
      by_cases hc : (!isBrace c) = true
      · have hword : ¬['}', '}', '}'] <+: c :: rest := by
          rintro ⟨tail, htail⟩
          injection htail with hhead _
          rw [← hhead] at hc
          exact absurd hc (by decide)
        rw [if_pos hc, isClosing_triple.run_name (hnext.char '}'), hskip,
          if_neg hword, if_pos hc]
        cases hbefore : before? (!isBrace ·) ['}', '}', '}'] rest with
        | none =>
            rfl
        | some inside =>
            rcases append_prefix_of_before? hbefore with ⟨tail, htail⟩
            have hclosing : ['}', '}', '}'] <+:
                (((s.skip 1).skip inside.length).keep 2 (c :: Text.trimEnd inside)).rest := by
              show ['}', '}', '}'] <+: (s.skip 1).rest.drop inside.length
              rw [hskip, ← htail, List.append_assoc, List.drop_left]
              exact List.prefix_append _ tail
            have htext : s.textTo ((s.skip 1).skip (Text.trimEnd inside).length) =
                c :: Text.trimEnd inside := by
              rw [Cursor.skip_skip, Cursor.textTo_skip, hrest, Nat.add_comm, List.take_succ_cons,
                take_trimEnd_of_before? hbefore]
            have hskips : ((s.skip 1).skip inside.length).skip 1 = s.skip (inside.length + 2) := by
              rw [Cursor.skip_skip, Cursor.skip_skip, Nat.add_comm 1]
            rw [Option.bind_some, Option.map_some, Option.bind_some, htext,
              run_char_self hclosing]
            show next ((((s.skip 1).skip inside.length).skip 1).keep 2 _) = _
            rw [hskips]
      · rw [if_neg hc]
        split
        · rfl
        · rfl

theorem run_bracedName_of_some (hnext : Needs ['}', '}'] next) {s : Cursor} {c : Char}
    {cs : List Char}
    (h : before? (!isBrace ·) ['}', '}', '}'] s.rest = some (c :: cs)) :
    bracedName.run s next = next ((s.skip (cs.length + 2)).keep 2 (c :: Text.trimEnd cs)) := by
  rw [run_bracedName hnext, h]
  rfl

theorem isSome_run_bracedName (hnext : Needs ['}', '}'] next) {s : Cursor} {c : Char}
    {cs : List Char}
    (h : before? (!isBrace ·) ['}', '}', '}'] s.rest = some (c :: cs)) :
    (bracedName.run s next).isSome = true := by
  rw [run_bracedName_of_some hnext h]
  exact (hnext _).mpr (prefix_drop_of_triple h)

theorem tripleName_of_solid {gap : List Char} (hgap : forall c, c ∈ gap -> Text.isBlank c = true)
    {c : Char} (hc : Text.isBlank c = false) (cs : List Char) :
    tripleName (gap ++ c :: cs) = c :: Text.trimEnd cs := by
  have hdrop : (gap ++ c :: cs).dropWhile Text.isBlank = c :: cs := by
    rw [List.dropWhile_append_of_pos hgap, List.dropWhile_cons_of_neg (by simp [hc])]
  have htrim : Text.trim (gap ++ c :: cs) = c :: Text.trimEnd cs := by
    rw [Text.trim, Text.trimOf, Text.trimStartOf, hdrop]
    exact Text.trimEndOf_cons_of_exists ⟨c, List.mem_cons_self, hc⟩
  rw [tripleName, htrim]

theorem tripleName_of_blanks {front : List Char} {d : Char}
    (hblank : forall c, c ∈ front ++ [d] -> Text.isBlank c = true) :
    tripleName (front ++ [d]) = [d] := by
  have htrim : Text.trim (front ++ [d]) = [] := by
    rw [Text.trim, Text.trimOf, Text.trimStartOf, List.dropWhile_eq_nil_iff.mpr hblank]
    rfl
  rw [tripleName, htrim, List.getLast?_concat]
  rfl

theorem run_braced_places {s : Cursor} {gap tail : List Char} (hrest : s.rest = '{' :: gap ++ tail)
    (hgap : forall c, c ∈ gap -> Text.isBlank c = true)
    (hstop : tail.takeWhile Text.isBlank = []) :
    braced.run s next =
      (bracedName.run (s.skip (1 + gap.length)) next).or
        ((List.range gap.length).reverse.findSome? fun i =>
          bracedName.run (s.skip (1 + i)) next) := by
  have hskip : (s.skip 1).rest = gap ++ tail := by
    rw [Cursor.rest_skip, hrest]
    rfl
  have hbrace : ['{'] <+: s.rest := by
    rw [hrest]
    exact List.prefix_append ['{'] (gap ++ tail)
  show (Pattern.char (· == '{')).run s (fun t => blanks.run t fun u => bracedName.run u next) = _
  rw [run_char_self hbrace, blanks, run_greedy hskip hgap hstop]
  simp only [Cursor.skip_skip]

theorem before?_place {s : Cursor} {gap tail : List Char} (hrest : s.rest = '{' :: gap ++ tail)
    (hgap : forall c, c ∈ gap -> Text.isBlank c = true) {i : Nat} (hi : i ≤ gap.length) :
    before? (!isBrace ·) ['}', '}', '}'] (s.skip (1 + i)).rest =
      (before? (!isBrace ·) ['}', '}', '}'] tail).map (gap.drop i ++ ·) := by
  have hdrop : (s.skip (1 + i)).rest = gap.drop i ++ tail := by
    rw [Cursor.rest_skip, hrest, List.cons_append, Nat.add_comm, List.drop_succ_cons,
      List.drop_append_of_le_length hi]
  rw [hdrop, isClosing_triple.before?_blanks fun c hc => hgap c (List.mem_of_mem_drop hc)]

theorem run_braced_of_none (hnext : Needs ['}', '}'] next) {s : Cursor}
    {gap tail : List Char} (hrest : s.rest = '{' :: gap ++ tail)
    (hgap : forall c, c ∈ gap -> Text.isBlank c = true)
    (hstop : tail.takeWhile Text.isBlank = [])
    (hinside : before? (!isBrace ·) ['}', '}', '}'] tail = none) :
    braced.run s next = none := by
  have hnone : forall i, i ≤ gap.length -> bracedName.run (s.skip (1 + i)) next = none := by
    intro i hi
    rw [run_bracedName hnext, before?_place hrest hgap hi, hinside]
    rfl
  rw [run_braced_places hrest hgap hstop, hnone gap.length (Nat.le_refl _), Option.none_or,
    List.findSome?_eq_none_iff]
  intro i hi
  rw [List.mem_reverse, List.mem_range] at hi
  exact hnone i (Nat.le_of_lt hi)

theorem run_braced_of_cons (hnext : Needs ['}', '}'] next) {s : Cursor}
    {gap tail : List Char} (hrest : s.rest = '{' :: gap ++ tail)
    (hgap : forall c, c ∈ gap -> Text.isBlank c = true)
    (hstop : tail.takeWhile Text.isBlank = []) {c : Char} {cs : List Char}
    (hinside : before? (!isBrace ·) ['}', '}', '}'] tail = some (c :: cs)) :
    braced.run s next =
      next ((s.skip ((gap ++ c :: cs).length + 2)).keep 2 (tripleName (gap ++ c :: cs))) := by
  have hc : Text.isBlank c = false := by
    rcases append_prefix_of_before? hinside with ⟨more, htail⟩
    by_contra hblank
    rw [← htail, List.cons_append, List.cons_append,
      List.takeWhile_cons_of_pos (by simpa using hblank)] at hstop
    cases hstop
  have hlast := before?_place hrest hgap (Nat.le_refl gap.length)
  rw [hinside, List.drop_length, Option.map_some, List.nil_append] at hlast
  have hlength : 1 + gap.length + (cs.length + 2) = (gap ++ c :: cs).length + 2 := by
    rw [List.length_append, List.length_cons]
    omega
  rw [run_braced_places hrest hgap hstop, Option.or_of_isSome (isSome_run_bracedName hnext hlast),
    run_bracedName_of_some hnext hlast, Cursor.skip_skip, hlength, tripleName_of_solid hgap hc]

theorem run_braced_of_blanks (hnext : Needs ['}', '}'] next) {s : Cursor}
    {front tail : List Char} {d : Char} (hrest : s.rest = '{' :: (front ++ [d]) ++ tail)
    (hgap : forall c, c ∈ front ++ [d] -> Text.isBlank c = true)
    (hstop : tail.takeWhile Text.isBlank = [])
    (hinside : before? (!isBrace ·) ['}', '}', '}'] tail = some []) :
    braced.run s next =
      next ((s.skip ((front ++ [d]).length + 2)).keep 2 (tripleName (front ++ [d]))) := by
  have hlast := before?_place hrest hgap (Nat.le_refl (front ++ [d]).length)
  rw [hinside, List.drop_length, Option.map_some, List.append_nil] at hlast
  have hfront := before?_place hrest hgap (i := front.length)
    (by rw [List.length_append]; exact Nat.le_add_right _ _)
  rw [hinside, List.drop_left, Option.map_some, List.append_nil] at hfront
  have hplace : 1 + front.length + 2 = (front ++ [d]).length + 2 := by
    rw [List.length_append, List.length_singleton, Nat.add_comm 1]
  have hfound : bracedName.run (s.skip (1 + front.length)) next =
      next ((s.skip ((front ++ [d]).length + 2)).keep 2 [d]) := by
    rw [run_bracedName_of_some hnext hfront, Cursor.skip_skip, List.length_nil, Nat.zero_add,
      hplace]
    rfl
  have hplaces : (List.range (front ++ [d]).length).reverse =
      front.length :: (List.range front.length).reverse := by
    rw [List.length_append, List.length_singleton, List.range_succ, List.reverse_append]
    rfl
  rcases Option.isSome_iff_exists.mp (isSome_run_bracedName hnext hfront) with ⟨result, hresult⟩
  rw [run_braced_places hrest hgap hstop, run_bracedName hnext, hlast, Option.bind_some,
    Option.none_or, hplaces, List.findSome?_cons, tripleName_of_blanks hgap]
  rw [hresult] at hfound ⊢
  exact hfound

theorem run_braced (hnext : Needs ['}', '}'] next) {s : Cursor}
    {rest : List Char} (hrest : s.rest = '{' :: rest) :
    braced.run s next =
      (before? (!isBrace ·) ['}', '}', '}'] rest).bind fun inside =>
        if inside = [] then none
        else next ((s.skip (inside.length + 2)).keep 2 (tripleName inside)) := by
  have hsplit := (List.takeWhile_append_dropWhile (p := Text.isBlank) (l := rest)).symm
  have hgap := List.all_eq_true.mp (List.all_takeWhile (p := Text.isBlank) (l := rest))
  have hstop := takeWhile_dropWhile Text.isBlank rest
  generalize rest.takeWhile Text.isBlank = gap at hsplit hgap
  generalize rest.dropWhile Text.isBlank = tail at hsplit hstop
  rw [hsplit, ← List.cons_append] at hrest
  rw [hsplit, isClosing_triple.before?_blanks hgap]
  cases hinside : before? (!isBrace ·) ['}', '}', '}'] tail with
  | none =>
      exact run_braced_of_none hnext hrest hgap hstop hinside
  | some inside =>
      rw [Option.map_some, Option.bind_some]
      cases inside with
      | cons c cs =>
          rw [if_neg (List.append_ne_nil_of_right_ne_nil gap (List.cons_ne_nil c cs)),
            run_braced_of_cons hnext hrest hgap hstop hinside]
      | nil =>
          rw [List.append_nil]
          rcases List.eq_nil_or_concat gap with rfl | ⟨front, d, hconcat⟩
          · have hlast := before?_place hrest hgap (Nat.le_refl 0)
            rw [hinside] at hlast
            rw [run_braced_places hrest hgap hstop, run_bracedName hnext]
            show Option.or (Option.bind (before? _ _ (s.skip (1 + 0)).rest) _) none = none
            rw [hlast]
            rfl
          · rw [List.concat_eq_append] at hconcat
            rw [hconcat] at hrest hgap ⊢
            rw [if_neg (List.append_ne_nil_of_right_ne_nil front (List.cons_ne_nil d [])),
              run_braced_of_blanks hnext hrest hgap hstop hinside]

theorem run_spacedName (hnext : Needs ['}', '}'] next) (s : Cursor) :
    spacedName.run s next =
      (beforeClosing? (s.rest.drop (s.rest.takeWhile Text.isBlank).length)).bind fun inside =>
        next ((s.skip ((s.rest.takeWhile Text.isBlank).length + inside.length)).keep 4
          (Text.trimEnd inside)) := by
  have hrest := (List.takeWhile_append_dropWhile (p := Text.isBlank) (l := s.rest)).symm
  have hgap := List.all_eq_true.mp (List.all_takeWhile (p := Text.isBlank) (l := s.rest))
  have hstop := takeWhile_dropWhile Text.isBlank s.rest
  generalize s.rest.takeWhile Text.isBlank = gap at hrest hgap ⊢
  generalize s.rest.dropWhile Text.isBlank = tail at hrest hstop
  have hname : forall t : Cursor,
      (Pattern.group 4 (.repeated false (.char fun _ => true))).run t
          (fun u => blanks.run u next) =
        (before? (fun _ => true) ['}', '}'] t.rest).bind fun inside =>
          next ((t.skip inside.length).keep 4 (Text.trimEnd inside)) := by
    intro t
    refine (isClosing_double.run_name hnext t 4 fun u => t.textTo u).trans ?_
    cases hbefore : before? (fun _ => true) ['}', '}'] t.rest with
    | none =>
        rfl
    | some inside =>
        rw [Option.bind_some, Option.bind_some, Cursor.textTo_skip, take_trimEnd_of_before? hbefore]
  have hbefore : forall i, i ≤ gap.length ->
      before? (fun _ => true) ['}', '}'] (s.skip i).rest =
        (before? (fun _ => true) ['}', '}'] tail).map (gap.drop i ++ ·) := by
    intro i hi
    rw [Cursor.rest_skip, hrest, List.drop_append_of_le_length hi,
      isClosing_double.before?_blanks fun c hc => hgap c (List.mem_of_mem_drop hc)]
  refine (run_greedy hrest hgap hstop fun t =>
    (Pattern.group 4 (.repeated false (.char fun _ => true))).run t fun u =>
      blanks.run u next).trans ?_
  simp only [hname]
  rw [hbefore gap.length (Nat.le_refl _), List.drop_length, beforeClosing?_eq]
  conv => rhs; rw [hrest, List.drop_left]
  cases hinside : before? (fun _ => true) ['}', '}'] tail with
  | none =>
      have hearlier : forall i, i ∈ (List.range gap.length).reverse ->
          (before? (fun _ => true) ['}', '}'] (s.skip i).rest).bind (fun inside =>
            next (((s.skip i).skip inside.length).keep 4 (Text.trimEnd inside))) = none := by
        intro i hi
        rw [List.mem_reverse, List.mem_range] at hi
        rw [hbefore i (Nat.le_of_lt hi), hinside]
        rfl
      rw [List.findSome?_eq_none_iff.mpr hearlier]
      rfl
  | some inside =>
      have hsome : (next ((s.skip (gap.length + inside.length)).keep 4
          (Text.trimEnd inside))).isSome = true := by
        have hdrop : before? (fun _ => true) ['}', '}'] (s.rest.drop gap.length) = some inside := by
          rw [hrest, List.drop_left, hinside]
        exact (hnext _).mpr (prefix_drop_of_before? hdrop)
      rw [Option.map_some, List.nil_append, Option.bind_some, Option.bind_some, Cursor.skip_skip,
        Option.or_of_isSome hsome]

theorem isSome_run_spacedName (hnext : Needs ['}', '}'] next) (s : Cursor) :
    (spacedName.run s next).isSome = (beforeClosing? s.rest).isSome := by
  rw [run_spacedName hnext, ← isSome_beforeClosing?_drop_blanks]
  cases hinside : beforeClosing? (s.rest.drop (s.rest.takeWhile Text.isBlank).length) with
  | none =>
      rfl
  | some inside =>
      rw [beforeClosing?_eq] at hinside
      exact (hnext _).mpr (prefix_drop_of_before? hinside)

theorem run_signed (hnext : Needs ['}', '}'] next) (s : Cursor) :
    signed.run s next =
      spacedName.run
        ((s.skip (sigilAt s.rest).2).keep 3 (s.rest.take (sigilAt s.rest).2)) next := by
  have hwithout : spacedName.run (s.keep 3 (s.textTo s)) next =
      spacedName.run (s.keep 3 []) next := by
    rw [Cursor.textTo, Nat.sub_self, List.take_zero]
  show ((Pattern.char sigils.contains).run s fun t =>
      spacedName.run (t.keep 3 (s.textTo t)) next).or
    (spacedName.run (s.keep 3 (s.textTo s)) next) = _
  rw [hwithout]
  cases hrest : s.rest with
  | nil =>
      rw [run_char_nil hrest]
      rfl
  | cons c rest =>
      rw [run_char_cons hrest, ← isSome_sigil?, Cursor.textTo_skip, hrest, sigilAt]
      cases hsigil : sigil? c with
      | none =>
          rfl
      | some form =>
          show (spacedName.run ((s.skip 1).keep 3 [c]) next).or
              (spacedName.run (s.keep 3 []) next) =
            spacedName.run ((s.skip 1).keep 3 [c]) next
          have hc : c ≠ '}' := by
            rintro rfl
            cases hsigil
          have hskip : (s.skip 1).rest = rest := by
            rw [Cursor.rest_skip, hrest]
            rfl
          have hsame : (spacedName.run ((s.skip 1).keep 3 [c]) next).isSome =
              (spacedName.run (s.keep 3 []) next).isSome := by
            rw [isSome_run_spacedName hnext, isSome_run_spacedName hnext]
            show (beforeClosing? (s.skip 1).rest).isSome = (beforeClosing? s.rest).isSome
            rw [hskip, hrest, beforeClosing?_cons_of_ne hc, Option.isSome_map]
          cases hfirst : spacedName.run ((s.skip 1).keep 3 [c]) next with
          | none =>
              rw [hfirst, Option.isSome_none] at hsame
              exact Option.isNone_iff_eq_none.mp (Option.isSome_eq_false_iff.mp hsame.symm)
          | some result =>
              rfl

end Bodies

/-!
# One tag
-/

def tagEnd (start : Nat) (s t : Cursor) : Option Match :=
  (word ['}', '}']).run (t.keep 1 (s.textTo t)) fun u => some ⟨start, u.position, u.groups⟩

theorem tagEnd_braces (start : Nat) (s : Cursor) {t : Cursor} (ht : ['}', '}'] <+: t.rest) :
    tagEnd start s t = some ⟨start, t.position + 2, (1, s.textTo t) :: t.groups⟩ := by
  rcases ht with ⟨tail, htail⟩
  rw [tagEnd, run_word (s := t.keep 1 (s.textTo t)) htail.symm]
  rfl

theorem needs_tagEnd (start : Nat) (s : Cursor) : Needs ['}', '}'] (tagEnd start s) := by
  intro t
  by_cases ht : ['}', '}'] <+: t.rest
  · rw [tagEnd_braces start s ht]
    exact iff_of_true rfl ht
  · rw [tagEnd, run_word_eq_none (s := t.keep 1 (s.textTo t)) ht]
    exact iff_of_false Bool.false_ne_true ht

/-- A tag with the place where it starts and the one where it stops. -/
structure Span where
  start : Nat
  stop : Nat
  tag : Tag
deriving DecidableEq

def spanOf? (m : Match) : Option Span :=
  (tagOf? m).map fun tag => ⟨m.start, m.stop, tag⟩

theorem map_spanOf?_braced (start : Nat) {s : Cursor} (hgroups : s.groups = [])
    {rest : List Char} (hrest : s.rest = '{' :: rest) :
    (braced.run s (tagEnd start s)).map spanOf? =
      (triple? rest).map fun (tag, length) => some ⟨start, s.position + 1 + length, tag⟩ := by
  rw [run_braced (needs_tagEnd start s) hrest, triple?_eq]
  cases hinside : before? (!isBrace ·) ['}', '}', '}'] rest with
  | none =>
      rfl
  | some inside =>
      rw [Option.bind_some, Option.bind_some]
      by_cases hnil : inside = []
      · rw [if_pos hnil, if_pos hnil]
        rfl
      · have hclosing : ['}', '}'] <+:
            ((s.skip (inside.length + 2)).keep 2 (tripleName inside)).rest := by
          show ['}', '}'] <+: s.rest.drop (inside.length + 2)
          rw [hrest]
          exact prefix_drop_of_triple hinside
        have hstop : s.position + (inside.length + 2) + 2 =
            s.position + 1 + (inside.length + 3) := by
          omega
        rw [if_neg hnil, if_neg hnil, tagEnd_braces start s hclosing, Option.map_some,
          Option.map_some]
        show some (spanOf? ⟨start, s.position + (inside.length + 2) + 2,
          (1, _) :: (2, _) :: s.groups⟩) = _
        rw [hstop, hgroups]
        rfl

theorem formOf?_sigil (s : List Char) : formOf? (s.take (sigilAt s).2) = some (sigilAt s).1 := by
  cases s with
  | nil =>
      rfl
  | cons c rest =>
      rw [sigilAt]
      cases hsigil : sigil? c with
      | none =>
          rfl
      | some form =>
          unfold sigil? at hsigil
          split at hsigil
          all_goals cases hsigil
          all_goals rfl

theorem tagOf?_signed (start stop : Nat) (inside name sigil : List Char) :
    tagOf? ⟨start, stop, [(1, inside), (4, name), (3, sigil)]⟩ =
      (formOf? sigil).map fun form => ⟨form, String.ofList name⟩ :=
  rfl

theorem map_spanOf?_signed (start : Nat) {s : Cursor} (hgroups : s.groups = []) :
    (signed.run s (tagEnd start s)).map spanOf? =
      (double? s.rest).map fun (tag, length) => some ⟨start, s.position + length, tag⟩ := by
  have hform := formOf?_sigil s.rest
  rw [run_signed (needs_tagEnd start s), run_spacedName (needs_tagEnd start s), double?]
  cases hsigil : sigilAt s.rest with
  | mk form count =>
      rw [hsigil] at hform
      have hrest : ((s.skip count).keep 3 (s.rest.take count)).rest = s.rest.drop count := rfl
      simp only [hrest]
      generalize hgap : ((s.rest.drop count).takeWhile Text.isBlank).length = gap
      rw [List.drop_drop]
      cases hinside : beforeClosing? (s.rest.drop (count + gap)) with
      | none =>
          rfl
      | some inside =>
          have hclosing : ['}', '}'] <+: (s.rest.drop count).drop (gap + inside.length) := by
            rw [beforeClosing?_eq] at hinside
            rw [List.drop_drop, ← Nat.add_assoc]
            exact prefix_drop_of_before? hinside
          have hstop : s.position + count + (gap + inside.length) + 2 =
              s.position + (count + gap + inside.length + 2) := by
            omega
          rw [Option.bind_some, tagEnd_braces start s hclosing, Option.map_some]
          show some ((tagOf? ⟨start, _, (1, _) :: (4, _) :: (3, _) :: s.groups⟩).map fun tag =>
            Span.mk start (s.position + count + (gap + inside.length) + 2) tag) = _
          rw [hstop, hgroups, tagOf?_signed, hform]
          rfl

theorem matchAt?_tagPattern_braces (position : Nat) (rest : List Char) :
    tagPattern.matchAt? position ('{' :: '{' :: rest) =
      (braced.run ⟨position + 2, rest, []⟩ (tagEnd position ⟨position + 2, rest, []⟩)).or
        (signed.run ⟨position + 2, rest, []⟩ (tagEnd position ⟨position + 2, rest, []⟩)) := by
  have hstart : (⟨position, '{' :: '{' :: rest, []⟩ : Cursor).rest = ['{', '{'] ++ rest := rfl
  show (word ['{', '{']).run ⟨position, '{' :: '{' :: rest, []⟩ (fun s =>
    (Pattern.choice braced signed).run s (tagEnd position s)) = _
  rw [run_word hstart]
  rfl

theorem run_braced_of_not {β : Type} {s : Cursor} (hs : ¬['{'] <+: s.rest)
    (next : Cursor → Option β) : braced.run s next = none := by
  show (Pattern.char (· == '{')).run s (fun t => blanks.run t fun u => bracedName.run u next) = none
  cases hrest : s.rest with
  | nil =>
      exact run_char_nil hrest _
  | cons c rest =>
      have hc : ¬(c == '{') = true := by
        intro hc
        apply hs
        rw [hrest, beq_iff_eq.mp hc]
        exact List.prefix_append ['{'] rest
      rw [run_char_cons hrest, if_neg hc]

theorem matchAt?_tagPattern_of_not (position : Nat) {s : List Char} (hs : ¬['{', '{'] <+: s) :
    tagPattern.matchAt? position s = none := by
  show (word ['{', '{']).run ⟨position, s, []⟩ (fun s =>
    (Pattern.choice braced signed).run s (tagEnd position s)) = none
  exact run_word_eq_none hs _

theorem map_spanOf?_matchAt? (position : Nat) (s : List Char) :
    (tagPattern.matchAt? position s).map spanOf? =
      (tagAt? s).map fun (tag, length) => some ⟨position, position + length, tag⟩ := by
  have hlength : forall length, position + 2 + length = position + (length + 2) := by
    intro length
    omega
  unfold tagAt?
  split
  case h_1 rest =>
    have htriple : forall length, position + 2 + 1 + length = position + (length + 3) := by
      intro length
      omega
    rw [matchAt?_tagPattern_braces, Option.map_or, map_spanOf?_braced position rfl rfl,
      map_spanOf?_signed position rfl, Option.map_or, Option.map_map, Option.map_map]
    simp only [htriple, hlength, Function.comp_def]
  case h_2 rest hnot =>
    have hbrace : ¬['{'] <+: rest := by
      rintro ⟨more, hmore⟩
      exact hnot more hmore.symm
    rw [matchAt?_tagPattern_braces, run_braced_of_not hbrace, Option.none_or,
      map_spanOf?_signed position rfl, Option.map_map]
    simp only [hlength, Function.comp_def]
  case h_3 hnot =>
    have hbraces : ¬['{', '{'] <+: s := by
      rintro ⟨rest, hrest⟩
      exact hnot rest hrest.symm
    rw [matchAt?_tagPattern_of_not position hbraces]
    rfl

theorem fieldOf?_of_spanOf? {m : Match} {span : Span} (h : spanOf? m = some span)
    (source : List Char) : fieldOf? m = (Piece.tag span.tag source).fieldName? := by
  rcases Option.map_eq_some_iff.mp h with ⟨tag, htag, hspan⟩
  rw [← hspan, fieldOf?, Piece.fieldName?]
  unfold tagOf? at htag
  split at htag
  case h_1 name hname _ _ =>
    injection htag with htag
    rw [hname, ← htag]
  case h_2 sigil name hnone hsigil hname =>
    rcases Option.map_eq_some_iff.mp htag with ⟨form, hform, htag⟩
    rw [hnone, hsigil, hname, ← htag]
    unfold formOf? at hform
    split at hform
    all_goals cases hform
    all_goals rfl
  case h_3 =>
    cases htag

end Template
end Palette
