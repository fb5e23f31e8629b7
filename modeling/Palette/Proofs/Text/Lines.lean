import Palette.Text.Lines

/-!
# Texts of one line

A text without line boundaries is one line, with an end of its own or without.
-/

namespace Palette
namespace Text

def IsLine (line : List Char) : Prop :=
  forall c, c ∈ line -> isLineBoundary c = false

instance (line : List Char) : Decidable (IsLine line) :=
  List.decidableBAll _ line

inductive IsLineEnd : List Char -> Prop where
  | nothing : IsLineEnd []
  | boundary {c : Char} (h : isLineBoundary c = true) : IsLineEnd [c]
  | pair : IsLineEnd ['\r', '\n']

theorem ne_return_of_not_boundary {c : Char} (h : isLineBoundary c = false) : c ≠ '\r' := by
  rintro rfl
  revert h
  decide

theorem toLineFeeds_cons_of_ne {c : Char} (h : c ≠ '\r') (rest : List Char) :
    toLineFeeds (c :: rest) = c :: toLineFeeds rest := by
  rw [toLineFeeds.eq_def]
  split
  case h_1 heq => cases heq
  case h_2 heq => exact absurd (List.cons.inj heq).1 h
  case h_3 heq =>
    rcases List.cons.inj heq with ⟨rfl, rfl⟩
    rw [if_neg h]

theorem splitLines_cons_of_not_boundary {c : Char} (h : isLineBoundary c = false)
    (rest : List Char) : splitLines (c :: rest) = consLine c (splitLines rest) := by
  rw [splitLines.eq_def]
  split
  case h_1 heq => cases heq
  case h_2 heq => exact absurd (List.cons.inj heq).1 (ne_return_of_not_boundary h)
  case h_3 heq =>
    rcases List.cons.inj heq with ⟨rfl, rfl⟩
    rw [if_neg (by rw [h]; exact Bool.false_ne_true)]

theorem toLineFeeds_append {line : List Char} (h : IsLine line) (ending : List Char) :
    toLineFeeds (line ++ ending) = line ++ toLineFeeds ending := by
  induction line with
  | nil => rfl
  | cons c rest ih =>
      rcases List.forall_mem_cons.mp h with ⟨hc, hrest⟩
      rw [List.cons_append, toLineFeeds_cons_of_ne (ne_return_of_not_boundary hc), ih hrest,
        List.cons_append]

theorem IsLineEnd.toLineFeeds {ending : List Char} (h : IsLineEnd ending) :
    IsLineEnd (Text.toLineFeeds ending) := by
  cases h with
  | nothing => exact .nothing
  | pair => exact .boundary (by decide)
  | @boundary c h =>
      by_cases hc : c = '\r'
      · rw [hc]
        exact .boundary (by decide)
      · rw [toLineFeeds_cons_of_ne hc]
        exact .boundary h

theorem IsLineEnd.splitLines_cons {c : Char} {ending : List Char} (h : IsLineEnd ending)
    (hc : isLineBoundary c = false) : splitLines (c :: ending) = [[c]] := by
  rw [splitLines_cons_of_not_boundary hc]
  cases h with
  | nothing => rfl
  | pair => rfl
  | @boundary d hd =>
      have hsplit : splitLines [d] = [[]] := by
        simp [splitLines, hd]
      rw [hsplit]
      rfl

theorem splitLines_append {line ending : List Char} (hne : line ≠ []) (h : IsLine line)
    (hending : IsLineEnd ending) : splitLines (line ++ ending) = [line] := by
  induction line with
  | nil => exact absurd rfl hne
  | cons c rest ih =>
      rcases List.forall_mem_cons.mp h with ⟨hc, hrest⟩
      cases rest with
      | nil => exact hending.splitLines_cons hc
      | cons d rest =>
          rw [List.cons_append, splitLines_cons_of_not_boundary hc, ih (by simp) hrest]
          rfl

/-!
# Texts that are joined

Lines do not reach beyond a boundary, so a text is split where a line of it ends.  A carriage
return is no exception once line feeds stand for it.
-/

/-- Whether a text is empty or ends with a line boundary, so that what follows is a line of
its own. -/
def EndsLine (s : List Char) : Prop :=
  forall c, c ∈ s.getLast? -> isLineBoundary c = true

theorem EndsLine.of_cons {c : Char} {rest : List Char} (h : EndsLine (c :: rest)) :
    EndsLine rest := by
  intro d hd
  apply h d
  rw [List.getLast?_cons, Option.mem_def.mp hd]
  rfl

theorem EndsLine.ne_nil {c : Char} {rest : List Char} (h : EndsLine (c :: rest))
    (hc : isLineBoundary c = false) : rest ≠ [] := by
  rintro rfl
  have hboundary := h c rfl
  rw [hc] at hboundary
  cases hboundary

theorem splitLines_cons_of_boundary {c : Char} (h : isLineBoundary c = true) (hc : c ≠ '\r')
    (rest : List Char) : splitLines (c :: rest) = [] :: splitLines rest := by
  rw [splitLines.eq_def]
  split
  case h_1 heq => cases heq
  case h_2 heq => exact absurd (List.cons.inj heq).1 hc
  case h_3 heq =>
    rcases List.cons.inj heq with ⟨rfl, rfl⟩
    rw [if_pos h]

theorem splitLines_ne_nil {s : List Char} (h : s ≠ []) : splitLines s ≠ [] := by
  rw [splitLines.eq_def]
  split
  case h_1 => exact absurd rfl h
  case h_2 => exact List.cons_ne_nil _ _
  case h_3 c rest _ =>
    split
    case isTrue => exact List.cons_ne_nil _ _
    case isFalse => cases splitLines rest <;> exact List.cons_ne_nil _ _

theorem consLine_append {lines : List (List Char)} (h : lines ≠ []) (c : Char)
    (more : List (List Char)) : consLine c (lines ++ more) = consLine c lines ++ more := by
  cases lines with
  | nil => exact absurd rfl h
  | cons line lines => rfl

theorem splitLines_append_of_endsLine {s : List Char} (h : EndsLine s) (hreturn : '\r' ∉ s)
    (rest : List Char) : splitLines (s ++ rest) = splitLines s ++ splitLines rest := by
  induction s with
  | nil => rfl
  | cons c s ih =>
      rw [List.mem_cons, not_or] at hreturn
      have hrest := ih h.of_cons hreturn.right
      cases hc : isLineBoundary c with
      | true =>
          have hne := Ne.symm hreturn.left
          rw [List.cons_append, splitLines_cons_of_boundary hc hne,
            splitLines_cons_of_boundary hc hne, hrest, List.cons_append]
      | false =>
          rw [List.cons_append, splitLines_cons_of_not_boundary hc,
            splitLines_cons_of_not_boundary hc, hrest,
            consLine_append (splitLines_ne_nil (h.ne_nil hc))]

theorem splitLines_concat {s : List Char} (hreturn : '\r' ∉ s) {c : Char}
    (hc : isLineBoundary c = true) (hne : c ≠ '\r') :
    splitLines (s ++ [c]) = splitLines s ∨ splitLines (s ++ [c]) = splitLines s ++ [[]] := by
  have hsingle : splitLines [c] = [[]] := splitLines_cons_of_boundary hc hne []
  induction s with
  | nil => exact Or.inr hsingle
  | cons d s ih =>
      rw [List.mem_cons, not_or] at hreturn
      have hrest := ih hreturn.right
      cases hd : isLineBoundary d with
      | true =>
          have hreturn := Ne.symm hreturn.left
          rw [List.cons_append, splitLines_cons_of_boundary hd hreturn,
            splitLines_cons_of_boundary hd hreturn]
          exact hrest.imp (congrArg _) (congrArg _)
      | false =>
          rw [List.cons_append, splitLines_cons_of_not_boundary hd,
            splitLines_cons_of_not_boundary hd]
          by_cases hs : s = []
          · left
            rw [hs, List.nil_append, hsingle]
            rfl
          · refine hrest.imp (congrArg _) fun hlast => ?_
            rw [hlast, consLine_append (splitLines_ne_nil hs)]

/-!
# Line feeds of joined texts
-/

theorem toLineFeeds_return_cons {rest : List Char} (h : rest.head? ≠ some '\n') :
    toLineFeeds ('\r' :: rest) = '\n' :: toLineFeeds rest := by
  rw [toLineFeeds.eq_def]
  split
  case h_1 heq => cases heq
  case h_2 heq =>
    rw [(List.cons.inj heq).2] at h
    exact absurd rfl h
  case h_3 heq =>
    rcases List.cons.inj heq with ⟨rfl, rfl⟩
    rw [if_pos rfl]

theorem return_notMem_toLineFeeds (s : List Char) : '\r' ∉ toLineFeeds s := by
  induction s using toLineFeeds.induct with
  | case1 => exact List.not_mem_nil
  | case2 rest ih =>
      rw [toLineFeeds, List.mem_cons, not_or]
      exact ⟨by decide, ih⟩
  | case3 c rest hrest ih =>
      rw [toLineFeeds.eq_3 c rest hrest, List.mem_cons, not_or]
      refine ⟨?_, ih⟩
      split
      case isTrue => decide
      case isFalse hc => exact Ne.symm hc

theorem toLineFeeds_append_of_seam {s rest : List Char}
    (h : s.getLast? = some '\r' -> rest.head? ≠ some '\n') :
    toLineFeeds (s ++ rest) = toLineFeeds s ++ toLineFeeds rest := by
  induction s using toLineFeeds.induct with
  | case1 => rfl
  | case2 s ih =>
      have hrest := ih fun hlast => h <| by
        rw [List.getLast?_cons_cons, List.getLast?_cons, hlast]
        rfl
      rw [List.cons_append, List.cons_append, toLineFeeds, toLineFeeds, hrest, List.cons_append]
  | case3 c s hs ih =>
      have hrest := ih fun hlast => h (by rw [List.getLast?_cons, hlast]; rfl)
      by_cases hc : c = '\r'
      · have hhead : s.head? ≠ some '\n' := by
          intro hhead
          rcases List.head?_eq_some_iff.mp hhead with ⟨tail, htail⟩
          exact hs tail hc htail
        have happend : (s ++ rest).head? ≠ some '\n' := by
          cases s with
          | nil => exact h (by rw [hc]; rfl)
          | cons d tail => exact hhead
        rw [hc, List.cons_append, toLineFeeds_return_cons happend, toLineFeeds_return_cons hhead,
          hrest, List.cons_append]
      · rw [List.cons_append, toLineFeeds_cons_of_ne hc, toLineFeeds_cons_of_ne hc, hrest,
          List.cons_append]

theorem toLineFeeds_append_pair (s rest : List Char) :
    toLineFeeds (s ++ '\r' :: '\n' :: rest) = toLineFeeds (s ++ ['\r']) ++ toLineFeeds rest := by
  have hpair : toLineFeeds ('\r' :: '\n' :: rest) = '\n' :: toLineFeeds rest := rfl
  rw [toLineFeeds_append_of_seam fun _ => by simp, toLineFeeds_append_of_seam fun _ => by simp,
    hpair, List.append_assoc]
  rfl

theorem exists_toLineFeeds_singleton {c : Char} (h : isLineBoundary c = true) :
    exists d, toLineFeeds [c] = [d] ∧ isLineBoundary d = true ∧ d ≠ '\r' := by
  by_cases hc : c = '\r'
  · exact ⟨'\n', by rw [hc]; rfl, by decide, by decide⟩
  · exact ⟨c, toLineFeeds_cons_of_ne hc [], h, hc⟩

theorem toLineFeeds_concat (s : List Char) {c : Char} (h : isLineBoundary c = true) :
    toLineFeeds (s ++ [c]) = toLineFeeds s ∨
      exists d, toLineFeeds (s ++ [c]) = toLineFeeds s ++ [d] ∧ isLineBoundary d = true ∧
        d ≠ '\r' := by
  by_cases hseam : s.getLast? = some '\r' ∧ c = '\n'
  · rcases List.getLast?_eq_some_iff.mp hseam.left with ⟨front, rfl⟩
    left
    rw [hseam.right, List.append_assoc, List.singleton_append, toLineFeeds_append_pair]
    exact List.append_nil _
  · rcases exists_toLineFeeds_singleton h with ⟨d, hd, hboundary, hreturn⟩
    refine Or.inr ⟨d, ?_, hboundary, hreturn⟩
    rw [toLineFeeds_append_of_seam, hd]
    intro hlast hhead
    injection hhead with hhead
    exact hseam ⟨hlast, hhead⟩

theorem getLast?_toLineFeeds (s : List Char) :
    (toLineFeeds s).getLast? = s.getLast?.map fun c => if c = '\r' then '\n' else c := by
  induction s using toLineFeeds.induct with
  | case1 => rfl
  | case2 s ih =>
      rw [toLineFeeds, List.getLast?_cons, ih, List.getLast?_cons_cons, List.getLast?_cons]
      cases s.getLast? with
      | none => rfl
      | some d => rfl
  | case3 c s hs ih =>
      rw [toLineFeeds.eq_3 c s hs, List.getLast?_cons, ih, List.getLast?_cons]
      cases s.getLast? with
      | none => rfl
      | some d => rfl

theorem EndsLine.toLineFeeds {s : List Char} (h : EndsLine s) : EndsLine (Text.toLineFeeds s) := by
  intro c hc
  rw [getLast?_toLineFeeds] at hc
  rcases Option.map_eq_some_iff.mp hc with ⟨d, hd, rfl⟩
  split
  case isTrue => decide
  case isFalse => exact h d hd

/-!
# The lines of a file

Where texts are joined at the end of a line, the lines of the whole are those of its parts, but for
an empty line that may come up between a carriage return and a line feed.
-/

def fileLines (s : List Char) : List (List Char) :=
  splitLines (toLineFeeds s)

theorem splitLines_toLineFeeds_append {s : List Char} (h : EndsLine s) (rest : List Char) :
    splitLines (toLineFeeds s ++ toLineFeeds rest) = fileLines s ++ fileLines rest :=
  splitLines_append_of_endsLine h.toLineFeeds (return_notMem_toLineFeeds s) _

section Lines

variable {f : List Char → Option α} (hf : f [] = none)

include hf

theorem filterMap_fileLines_append {s : List Char} (h : EndsLine s) (rest : List Char) :
    (fileLines (s ++ rest)).filterMap f =
      (fileLines s).filterMap f ++ (fileLines rest).filterMap f := by
  by_cases hseam : s.getLast? = some '\r' ∧ rest.head? = some '\n'
  · rcases List.getLast?_eq_some_iff.mp hseam.left with ⟨front, rfl⟩
    rcases List.head?_eq_some_iff.mp hseam.right with ⟨tail, rfl⟩
    have hline : fileLines ('\n' :: tail) = [] :: fileLines tail := rfl
    rw [fileLines, List.append_assoc, List.singleton_append, toLineFeeds_append_pair,
      splitLines_toLineFeeds_append h, List.filterMap_append, hline, List.filterMap_cons_none hf]
  · rw [fileLines, toLineFeeds_append_of_seam fun hlast hhead => hseam ⟨hlast, hhead⟩,
      splitLines_toLineFeeds_append h, List.filterMap_append]

theorem filterMap_fileLines_concat (s : List Char) {c : Char} (hc : isLineBoundary c = true) :
    (fileLines (s ++ [c])).filterMap f = (fileLines s).filterMap f := by
  rw [fileLines, fileLines]
  rcases toLineFeeds_concat s hc with hsame | ⟨d, hd, hboundary, hreturn⟩
  · rw [hsame]
  · rw [hd]
    rcases splitLines_concat (return_notMem_toLineFeeds s) hboundary hreturn with hlines | hlines
    · rw [hlines]
    · rw [hlines, List.filterMap_append, List.filterMap_cons_none hf]
      exact List.append_nil _

end Lines

end Text
end Palette
