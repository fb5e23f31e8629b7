import Palette.Proofs.Text.Pattern
import Palette.Proofs.Text.Trim

/-!
# Names in patterns

A lazy name with blanks behind it stops in front of the first closing word, without the
blanks there: no later place is tried, as soon as one is found where the word closes
the name.
-/

namespace Palette
namespace Template

open Text (Pattern Cursor)
open Text.Pattern

def blanks : Pattern :=
  .repeated true (.char Text.isBlank)

/-- What stands in front of the first occurrence of a closing word, if all of it is
accepted. -/
def before? (accepts : Char → Bool) (closing : List Char) : List Char → Option (List Char)
  | [] => none
  | c :: rest =>
      if closing <+: c :: rest then some []
      else if accepts c then (before? accepts closing rest).map (c :: ·)
      else none

/-- A closing word that is not blank, behind characters that may be. -/
structure IsClosing (accepts : Char → Bool) (closing : List Char) : Prop where
  nonempty : closing ≠ []
  solid : forall c, c ∈ closing -> Text.isBlank c = false
  acceptsBlank : forall c, Text.isBlank c = true -> accepts c = true

section Names

variable {accepts : Char → Bool} {closing : List Char}

theorem IsClosing.not_prefix_blank (h : IsClosing accepts closing) {c : Char} {rest : List Char}
    (hc : Text.isBlank c = true) : ¬closing <+: c :: rest := by
  intro hword
  cases hclosing : closing with
  | nil =>
      exact h.nonempty hclosing
  | cons d more =>
      rw [hclosing, List.cons_prefix_cons] at hword
      have hd := h.solid d (by rw [hclosing]; exact List.mem_cons_self)
      rw [hword.left, hc] at hd
      cases hd

theorem IsClosing.before?_blank (h : IsClosing accepts closing) {c : Char}
    (hc : Text.isBlank c = true) (rest : List Char) :
    before? accepts closing (c :: rest) = (before? accepts closing rest).map (c :: ·) := by
  rw [before?, if_neg (h.not_prefix_blank hc), if_pos (h.acceptsBlank c hc)]

theorem IsClosing.before?_blanks (h : IsClosing accepts closing) {gap : List Char}
    (hgap : forall c, c ∈ gap -> Text.isBlank c = true) (rest : List Char) :
    before? accepts closing (gap ++ rest) = (before? accepts closing rest).map (gap ++ ·) := by
  induction gap with
  | nil =>
      rw [List.nil_append]
      exact Option.map_id'.symm
  | cons c gap ih =>
      have hrest := ih fun d hd => hgap d (List.mem_cons_of_mem c hd)
      rw [List.cons_append, h.before?_blank (hgap c List.mem_cons_self), hrest, Option.map_map]
      rfl

theorem before?_closing (h : IsClosing accepts closing) {s : List Char}
    (hs : closing <+: s) : before? accepts closing s = some [] := by
  cases s with
  | nil =>
      exact absurd (List.prefix_nil.mp hs) h.nonempty
  | cons c rest =>
      rw [before?, if_pos hs]

theorem append_prefix_of_before? {s inside : List Char}
    (h : before? accepts closing s = some inside) : inside ++ closing <+: s := by
  induction s generalizing inside with
  | nil =>
      cases h
  | cons c rest ih =>
      rw [before?] at h
      split at h
      case isTrue hword =>
        injection h with hinside
        rw [← hinside]
        exact hword
      case isFalse =>
        split at h
        case isTrue =>
          rcases Option.map_eq_some_iff.mp h with ⟨more, hmore, hinside⟩
          rw [← hinside, List.cons_append, List.cons_prefix_cons]
          exact ⟨rfl, ih hmore⟩
        case isFalse =>
          cases h

def Closes (closing : List Char) (s : List Char) : Prop :=
  closing <+: s.dropWhile Text.isBlank

theorem closes_cons_of_blank {c : Char} (hc : Text.isBlank c = true) (rest : List Char) :
    Closes closing (c :: rest) <-> Closes closing rest := by
  rw [Closes, Closes, List.dropWhile_cons_of_pos hc]

theorem closes_cons_of_not_blank {c : Char} (hc : Text.isBlank c = false) (rest : List Char) :
    Closes closing (c :: rest) <-> closing <+: c :: rest := by
  rw [Closes, List.dropWhile_cons_of_neg (by simp [hc])]

theorem IsClosing.closes_blanks (h : IsClosing accepts closing) (gap : List Char)
    (hgap : forall c, c ∈ gap -> Text.isBlank c = true) {rest : List Char}
    (hrest : gap ++ closing <+: rest) : Closes closing rest := by
  induction gap generalizing rest with
  | nil =>
      cases hclosing : closing with
      | nil =>
          exact absurd hclosing h.nonempty
      | cons c more =>
          rw [List.nil_append] at hrest
          rcases hrest with ⟨tail, htail⟩
          have hc := h.solid c (by rw [hclosing]; exact List.mem_cons_self)
          rw [← htail, hclosing, List.cons_append, closes_cons_of_not_blank hc,
            List.cons_prefix_cons]
          exact ⟨rfl, List.prefix_append more tail⟩
  | cons c gap ih =>
      rcases hrest with ⟨tail, htail⟩
      rw [← htail, List.cons_append, List.cons_append,
        closes_cons_of_blank (hgap c List.mem_cons_self)]
      exact ih (fun d hd => hgap d (List.mem_cons_of_mem c hd)) (List.prefix_append _ tail)

theorem IsClosing.before?_of_closes (h : IsClosing accepts closing) {s : List Char}
    (hs : Closes closing s) :
    exists gap, before? accepts closing s = some gap ∧ Text.trimEnd gap = [] := by
  have hsplit := (List.takeWhile_append_dropWhile (p := Text.isBlank) (l := s)).symm
  have hgap := List.all_eq_true.mp (List.all_takeWhile (p := Text.isBlank) (l := s))
  refine ⟨s.takeWhile Text.isBlank, ?_, Text.trimEndOf_eq_nil_iff.mpr hgap⟩
  conv => lhs; rw [hsplit]
  rw [h.before?_blanks hgap, before?_closing h hs, Option.map_some, List.append_nil]

variable {β : Type}

theorem eq_none_of_not {next : Cursor → Option β} {goesOn : Cursor → Prop}
    (hnext : forall t : Cursor, (next t).isSome = true <-> goesOn t) {s : Cursor}
    (hs : ¬goesOn s) : next s = none := by
  cases hresult : next s with
  | none =>
      rfl
  | some result =>
      exact absurd ((hnext s).mp (by rw [hresult]; rfl)) hs

theorem IsClosing.run_lazy (h : IsClosing accepts closing) {s : Cursor} {next : Cursor → Option β}
    (hnext : forall t : Cursor, (next t).isSome = true <-> Closes closing t.rest) :
    (Pattern.repeated false (.char accepts)).run s next =
      (before? accepts closing s.rest).bind fun inside =>
        next (s.skip (Text.trimEnd inside).length) := by
  generalize hrest : s.rest = rest
  induction rest generalizing s with
  | nil =>
      have hclose : ¬Closes closing s.rest := by
        intro hclose
        rw [hrest, Closes, List.dropWhile_nil] at hclose
        exact h.nonempty (List.prefix_nil.mp hclose)
      rw [run_repeated_stop (by rw [hrest]; rfl), eq_none_of_not hnext hclose]
      rfl
  | cons c rest ih =>
      have hskip : (s.skip 1).rest = rest := by
        rw [Cursor.rest_skip, hrest]
        rfl
      by_cases hclose : Closes closing (c :: rest)
      · -- The name ends here, so the repetition stops if it could go on at all.
        rcases h.before?_of_closes hclose with ⟨gap, hbefore, htrim⟩
        rcases Option.isSome_iff_exists.mp ((hnext s).mpr (by rw [hrest]; exact hclose)) with
          ⟨result, hresult⟩
        rw [hbefore, Option.bind_some, htrim, List.length_nil, Cursor.skip_zero]
        by_cases hc : accepts c = true
        · rw [run_repeated_cons hrest hc, if_neg Bool.false_ne_true, hresult, Option.some_or]
        · rw [run_repeated_stop (by rw [hrest, List.takeWhile_cons_of_neg hc])]
      · have hnone := eq_none_of_not hnext (s := s) (by rw [hrest]; exact hclose)
        have hword : ¬closing <+: c :: rest := by
          intro hword
          exact hclose (h.closes_blanks [] nofun hword)
        by_cases hc : accepts c = true
        · rw [run_repeated_cons hrest hc, if_neg Bool.false_ne_true, hnone, Option.none_or,
            ih hskip, before?, if_neg hword, if_pos hc]
          cases hbefore : before? accepts closing rest with
          | none =>
              rfl
          | some inside =>
              have hsolid : exists d, d ∈ c :: inside ∧ Text.isBlank d = false := by
                by_contra hall
                apply hclose
                apply h.closes_blanks (c :: inside)
                · intro d hd
                  by_contra hd'
                  exact hall ⟨d, hd, by simpa using hd'⟩
                · rw [List.cons_append, List.cons_prefix_cons]
                  exact ⟨rfl, append_prefix_of_before? hbefore⟩
              have htrim : Text.trimEnd (c :: inside) = c :: Text.trimEnd inside :=
                Text.trimEndOf_cons_of_exists hsolid
              rw [Option.map_some, Option.bind_some, Option.bind_some, Cursor.skip_skip, htrim,
                List.length_cons, Nat.add_comm 1]
        · rw [run_repeated_stop (by rw [hrest, List.takeWhile_cons_of_neg hc]), hnone, before?,
            if_neg hword, if_neg hc]
          rfl

theorem IsClosing.run_blanks (h : IsClosing accepts closing) {next : Cursor → Option β}
    (hnext : Needs closing next) (s : Cursor) :
    blanks.run s next = next (s.skip (s.rest.takeWhile Text.isBlank).length) := by
  apply run_greedy_of_rejects
  intro t c rest hrest hc
  apply eq_none_of_not hnext
  rw [hrest]
  exact h.not_prefix_blank hc

theorem IsClosing.isSome_run_blanks (h : IsClosing accepts closing) {next : Cursor → Option β}
    (hnext : Needs closing next) (s : Cursor) :
    (blanks.run s next).isSome = true <-> Closes closing s.rest := by
  have hsplit := (List.takeWhile_append_dropWhile (p := Text.isBlank) (l := s.rest)).symm
  have hdrop : s.rest.drop (s.rest.takeWhile Text.isBlank).length =
      s.rest.dropWhile Text.isBlank := by
    conv => lhs; arg 2; rw [hsplit]
    exact List.drop_left
  rw [h.run_blanks hnext, hnext (s.skip _), Cursor.rest_skip, hdrop, Closes]

theorem IsClosing.run_name (h : IsClosing accepts closing) {next : Cursor → Option β}
    (hnext : Needs closing next) (s : Cursor)
    (number : Nat) (name : Cursor → List Char) :
    (Pattern.repeated false (.char accepts)).run s
        (fun t => blanks.run (t.keep number (name t)) next) =
      (before? accepts closing s.rest).bind fun inside =>
        next ((s.skip inside.length).keep number
          (name (s.skip (Text.trimEnd inside).length))) := by
  rw [h.run_lazy fun t => h.isSome_run_blanks hnext (t.keep number (name t))]
  cases hbefore : before? accepts closing s.rest with
  | none =>
      rfl
  | some inside =>
      rcases append_prefix_of_before? hbefore with ⟨tail, hrest⟩
      rcases Text.exists_trimEnd_append inside with ⟨gap, hinside, hgap⟩
      have hdrop : s.rest.drop (Text.trimEnd inside).length = gap ++ (closing ++ tail) := by
        rw [← hrest]
        conv => lhs; arg 2; rw [hinside]
        rw [List.append_assoc, List.append_assoc, List.drop_left]
      have hstop : (closing ++ tail).takeWhile Text.isBlank = [] := by
        cases hclosing : closing with
        | nil =>
            exact absurd hclosing h.nonempty
        | cons c more =>
            have hc := h.solid c (by rw [hclosing]; exact List.mem_cons_self)
            rw [List.cons_append, List.takeWhile_cons_of_neg (by simp [hc])]
      have htake : (s.rest.drop (Text.trimEnd inside).length).takeWhile Text.isBlank = gap := by
        rw [hdrop, List.takeWhile_append_of_pos hgap, hstop, List.append_nil]
      have hlength : (Text.trimEnd inside).length + gap.length = inside.length := by
        rw [← List.length_append]
        exact congrArg List.length hinside.symm
      rw [Option.bind_some, Option.bind_some, h.run_blanks hnext]
      show next (((s.skip _).skip ((s.rest.drop _).takeWhile Text.isBlank).length).keep _ _) = _
      rw [htake, Cursor.skip_skip, hlength]

theorem prefix_drop_of_before? {s inside : List Char} {count : Nat}
    (h : before? accepts closing (s.drop count) = some inside) :
    closing <+: s.drop (count + inside.length) := by
  rcases append_prefix_of_before? h with ⟨tail, hs⟩
  rw [← List.drop_drop, ← hs, List.append_assoc, List.drop_left]
  exact List.prefix_append closing tail

theorem take_trimEnd_of_before? {s inside : List Char}
    (h : before? accepts closing s = some inside) :
    s.take (Text.trimEnd inside).length = Text.trimEnd inside := by
  rcases append_prefix_of_before? h with ⟨tail, hs⟩
  rcases Text.exists_trimEnd_append inside with ⟨gap, hinside, _⟩
  have hsplit : s = Text.trimEnd inside ++ (gap ++ (closing ++ tail)) := by
    rw [← hs]
    conv => lhs; rw [hinside]
    rw [List.append_assoc, List.append_assoc]
  conv => lhs; rw [hsplit]
  exact List.take_left

end Names

end Template
end Palette
