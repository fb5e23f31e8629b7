import Palette.Scheme.Colors

/-!
# Looking up colours

A colour that was inserted is the one that is found, and all others are found as
before.
-/

namespace Palette
namespace Colors

theorem find?_insertEntry (i j : Index) (c : Rgb) (es : List (Index × Rgb)) :
    (insertEntry i c es).find? (fun e => e.1 == j) =
      if i = j then some (i, c) else es.find? fun e => e.1 == j := by
  induction es with
  | nil =>
      by_cases hij : i = j
      · simp [insertEntry, hij]
      · simp [insertEntry, hij]
  | cons e rest ih =>
      rw [insertEntry]
      by_cases hlt : i < e.1
      · rw [if_pos hlt]
        by_cases hij : i = j
        · simp [hij]
        · simp [hij]
      · rw [if_neg hlt]
        by_cases heq : i = e.1
        · rw [if_pos heq]
          by_cases hij : i = j
          · simp [hij]
          · have hej : e.1 ≠ j := fun hej => hij (heq.trans hej)
            simp [hij, hej]
        · rw [if_neg heq]
          by_cases hej : e.1 = j
          · have hij : i ≠ j := fun hij => heq (hij.trans hej.symm)
            rw [List.find?_cons_of_pos (by simpa using hej), if_neg hij,
              List.find?_cons_of_pos (by simpa using hej)]
          · rw [List.find?_cons_of_neg (by simpa using hej), ih,
              List.find?_cons_of_neg (by simpa using hej)]

theorem get?_insert (m : Colors) (i j : Index) (c : Rgb) :
    (m.insert i c).get? j = if i = j then some c else m.get? j := by
  rw [get?, insert, find?_insertEntry]
  by_cases hij : i = j
  · rw [if_pos hij, if_pos hij, Option.map_some]
  · rw [if_neg hij, if_neg hij, get?]

theorem contains_eq_isSome_get? (m : Colors) (i : Index) : m.contains i = (m.get? i).isSome := by
  rw [contains, get?, Option.isSome_map, List.isSome_find?]

theorem contains_insert (m : Colors) (i j : Index) (c : Rgb) :
    (m.insert i c).contains j = (decide (i = j) || m.contains j) := by
  rw [contains_eq_isSome_get?, contains_eq_isSome_get?, get?_insert]
  by_cases hij : i = j
  · simp [hij]
  · simp [hij]

/-!
# Entries in ascending order
-/

theorem insertEntry_of_last (i : Index) (c : Rgb) {es : List (Index × Rgb)}
    (h : forall e, e ∈ es -> e.1 < i) : insertEntry i c es = es ++ [(i, c)] := by
  induction es with
  | nil =>
      rfl
  | cons e rest ih =>
      have he := h e List.mem_cons_self
      have hlt : ¬i < e.1 := Nat.lt_asymm he
      have hne : i ≠ e.1 := by
        intro heq
        rw [heq] at he
        exact Nat.lt_irrefl e.1.byte.val he
      rw [insertEntry, if_neg hlt, if_neg hne, ih fun d hd => h d (List.mem_cons_of_mem e hd),
        List.cons_append]

theorem nodup_keys (m : Colors) : (m.entries.map Prod.fst).Nodup := by
  rw [List.Nodup, List.pairwise_map]
  apply m.ascending.imp
  intro a b hlt heq
  rw [heq] at hlt
  exact Nat.lt_irrefl b.1.byte.val hlt

theorem not_contains_of_last {m : Colors} {i : Index} (h : forall e, e ∈ m.entries -> e.1 < i) :
    m.contains i = false := by
  rw [contains, List.any_eq_false]
  intro e he heq
  have hlt := h e he
  rw [beq_iff_eq.mp heq] at hlt
  exact Nat.lt_irrefl i.byte.val hlt

end Colors
end Palette
