import Mathlib.Data.List.TakeWhile
import Palette.Text.Blank

/-!
# Trimmed text

Trimming the end of a text drops the characters of a class behind the last other one,
and trimming both ends also those in front of the first.
-/

namespace Palette
namespace Text

variable {p : Char → Bool}

theorem trimEndOf_cons (c : Char) (s : List Char) :
    trimEndOf p (c :: s) =
      if trimEndOf p s = [] then if p c then [] else [c] else c :: trimEndOf p s := by
  simp only [trimEndOf, List.reverse_cons, List.dropWhile_append, List.reverse_eq_nil_iff]
  cases s.reverse.dropWhile p with
  | nil =>
      by_cases hc : p c = true
      · simp [hc]
      · simp [hc]
  | cons d rest =>
      simp

theorem trimEndOf_eq_nil_iff {s : List Char} :
    trimEndOf p s = [] <-> forall c, c ∈ s -> p c = true := by
  rw [trimEndOf, List.reverse_eq_nil_iff, List.dropWhile_eq_nil_iff]
  simp only [List.mem_reverse]

theorem trimEndOf_cons_of_exists {c : Char} {s : List Char}
    (h : exists d, d ∈ c :: s ∧ p d = false) : trimEndOf p (c :: s) = c :: trimEndOf p s := by
  rw [trimEndOf_cons]
  by_cases hs : trimEndOf p s = []
  · rcases h with ⟨d, hmem, hd⟩
    have hall := trimEndOf_eq_nil_iff.mp hs
    cases hmem with
    | head =>
        rw [if_pos hs, hs, if_neg (by simpa using hd)]
    | tail _ hmem =>
        rw [hall d hmem] at hd
        cases hd
  · rw [if_neg hs]

theorem exists_trimEndOf_append (p : Char → Bool) (s : List Char) :
    exists gap, s = trimEndOf p s ++ gap ∧ forall c, c ∈ gap -> p c = true := by
  refine ⟨(s.reverse.takeWhile p).reverse, ?_, ?_⟩
  · rw [trimEndOf, ← List.reverse_append, List.takeWhile_append_dropWhile, List.reverse_reverse]
  · intro c hc
    exact List.mem_takeWhile_imp (List.mem_reverse.mp hc)

theorem trimEndOf_of_getLast? {s : List Char} (h : forall c, c ∈ s.getLast? -> p c = false) :
    trimEndOf p s = s := by
  rw [List.getLast?_eq_head?_reverse] at h
  have hdrop : s.reverse.dropWhile p = s.reverse := by
    cases hs : s.reverse with
    | nil =>
        rfl
    | cons c rest =>
        have hc := h c (by rw [hs]; rfl)
        exact List.dropWhile_cons_of_neg (by rw [hc]; exact Bool.false_ne_true)
  rw [trimEndOf, hdrop, List.reverse_reverse]

theorem trimEndOf_append_of_all (s : List Char) {gap : List Char}
    (h : forall c, c ∈ gap -> p c = true) : trimEndOf p (s ++ gap) = trimEndOf p s := by
  have hgap : forall c, c ∈ gap.reverse -> p c = true := fun c hc => h c (List.mem_reverse.mp hc)
  rw [trimEndOf, List.reverse_append, List.dropWhile_append_of_pos hgap, trimEndOf]

theorem getLast?_trimEndOf {s : List Char} {c : Char} (h : c ∈ (trimEndOf p s).getLast?) :
    p c = false := by
  have hstop := List.head?_dropWhile_not p s.reverse
  rw [trimEndOf, List.getLast?_reverse] at h
  rw [Option.mem_def.mp h] at hstop
  exact hstop

theorem trimOf_around {front back : List Char} (hfront : forall c, c ∈ front -> p c = true)
    (hback : forall c, c ∈ back -> p c = true) (s : List Char) :
    trimOf p (front ++ s ++ back) = trimOf p s := by
  rw [trimOf, trimStartOf, List.append_assoc, List.dropWhile_append_of_pos hfront,
    List.dropWhile_append]
  by_cases hs : s.dropWhile p = []
  · have hdrop : back.dropWhile p = [] := List.dropWhile_eq_nil_iff.mpr hback
    rw [hs, List.isEmpty_nil, if_pos rfl, hdrop, trimOf, trimStartOf, hs]
  · rw [if_neg (by rwa [List.isEmpty_iff]), trimEndOf_append_of_all _ hback]
    rfl

theorem trimOf_eq_self_iff {s : List Char} :
    trimOf p s = s <->
      (forall c, c ∈ s.head? -> p c = false) ∧ (forall c, c ∈ s.getLast? -> p c = false) := by
  constructor
  · intro h
    have hlength : (s.dropWhile p).length ≤ s.length := (List.dropWhile_sublist p).length_le
    have hstart : s.dropWhile p = s := by
      rcases exists_trimEndOf_append p (s.dropWhile p) with ⟨gap, hgap, -⟩
      have hkept : trimEndOf p (s.dropWhile p) = s := h
      rw [hkept] at hgap
      rw [hgap, List.length_append] at hlength
      have hnil : gap = [] := List.length_eq_zero_iff.mp (by omega)
      rw [hgap, hnil, List.append_nil]
    constructor
    · intro c hc
      have hstop := List.head?_dropWhile_not p s
      rw [hstart, Option.mem_def.mp hc] at hstop
      exact hstop
    · intro c hc
      rw [← h] at hc
      exact getLast?_trimEndOf hc
  · rintro ⟨hhead, hlast⟩
    have hstart : s.dropWhile p = s := by
      cases s with
      | nil => rfl
      | cons c rest => exact List.dropWhile_cons_of_neg (by simpa using hhead c rfl)
    rw [trimOf, trimStartOf, hstart, trimEndOf_of_getLast? hlast]

theorem trimOf_of_not_mem {s : List Char} (h : forall c, c ∈ s -> p c = false) :
    trimOf p s = s :=
  trimOf_eq_self_iff.mpr
    ⟨fun c hc => h c (List.mem_of_mem_head? hc), fun c hc => h c (List.mem_of_mem_getLast? hc)⟩

theorem trim_of_ends {s : List Char} (hhead : forall c, c ∈ s.head? -> isBlank c = false)
    (hlast : forall c, c ∈ s.getLast? -> isBlank c = false) : trim s = s :=
  trimOf_eq_self_iff.mpr ⟨hhead, hlast⟩

theorem mem_of_mem_trimOf {c : Char} {s : List Char} (h : c ∈ trimOf p s) : c ∈ s := by
  rw [trimOf, trimEndOf, List.mem_reverse] at h
  have hstart := (List.dropWhile_sublist p).mem h
  rw [List.mem_reverse, trimStartOf] at hstart
  exact (List.dropWhile_sublist p).mem hstart

theorem exists_trim_around (s : List Char) :
    exists front back, s = front ++ (trim s ++ back) ∧
      (forall c, c ∈ front -> isBlank c = true) ∧ forall c, c ∈ back -> isBlank c = true := by
  rcases exists_trimEndOf_append isBlank (s.dropWhile isBlank) with ⟨back, hback, hblank⟩
  refine ⟨s.takeWhile isBlank, back, ?_, fun c hc => List.mem_takeWhile_imp hc, hblank⟩
  rw [trim, trimOf, trimStartOf, ← hback, List.takeWhile_append_dropWhile]

theorem trim_eq_nil_iff {s : List Char} :
    trim s = [] <-> forall c, c ∈ s -> isBlank c = true := by
  constructor
  · intro h c hc
    rcases exists_trim_around s with ⟨front, back, hs, hfront, hback⟩
    rw [h, List.nil_append] at hs
    rw [hs, List.mem_append] at hc
    exact hc.elim (hfront c) (hback c)
  · intro h
    have hall := trimOf_around h (fun c hc => absurd hc List.not_mem_nil) []
    rw [List.append_nil, List.append_nil] at hall
    exact hall

theorem trim_append_cons {gap : List Char} (hgap : forall c, c ∈ gap -> isBlank c = true)
    {c : Char} (hc : isBlank c = false) (rest : List Char) :
    trim (gap ++ c :: rest) = c :: trimEnd rest := by
  have hkept : trimEndOf isBlank (c :: rest) = c :: trimEndOf isBlank rest :=
    trimEndOf_cons_of_exists ⟨c, List.mem_cons_self, hc⟩
  rw [trim, trimOf, trimStartOf, List.dropWhile_append_of_pos hgap,
    List.dropWhile_cons_of_neg (by rw [hc]; exact Bool.false_ne_true), hkept, trimEnd]

theorem exists_trimEnd_append (s : List Char) :
    exists gap, s = trimEnd s ++ gap ∧ forall c, c ∈ gap -> isBlank c = true :=
  exists_trimEndOf_append isBlank s

end Text
end Palette
