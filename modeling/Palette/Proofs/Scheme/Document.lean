import Palette.Scheme.Document

/-!
# Steps through a document

The name and the author are looked up by their keys; the other entries are put into
the table of colours one by one.
-/

namespace Palette
namespace Document

variable {ν : Type}

theorem isText_self (key : String) : isText key (.text (.ofText key) : Datum ν) = true :=
  beq_self_eq_true (Phrase.ofText key)

theorem get?_cons_of_isText {e : Datum ν × Datum ν} (rest : List (Datum ν × Datum ν))
    {key : String} (h : isText key e.1 = true) : get? (e :: rest) key = some e.2 := by
  simp only [get?, List.find?_cons, h, Option.map_some]

theorem get?_cons_of_not_isText {e : Datum ν × Datum ν} (rest : List (Datum ν × Datum ν))
    {key : String} (h : isText key e.1 = false) : get? (e :: rest) key = get? rest key := by
  simp only [get?, List.find?_cons, h]

theorem addEntries_header (m : Colors) {e : Datum ν × Datum ν} (rest : List (Datum ν × Datum ν))
    (h : isHeader e = true) : addEntries m (e :: rest) = addEntries m rest := by
  rw [addEntries, if_pos h]

theorem addEntries_color (m : Colors) {e : Datum ν × Datum ν} (rest : List (Datum ν × Datum ν))
    (h : isHeader e = false) {i : Index} {c : Rgb} (hdecode : decodeEntry e = .ok (i, c)) :
    addEntries m (e :: rest) =
      ((if m.contains i then [⟨i, c⟩] else []) ++ (addEntries (m.insert i c) rest).1,
        (addEntries (m.insert i c) rest).2) := by
  rw [addEntries, h, if_neg Bool.false_ne_true, hdecode]
  by_cases hcontains : m.contains i = true
  · simp only [hcontains, if_true]
    rfl
  · simp only [hcontains]
    rfl

end Document
end Palette
