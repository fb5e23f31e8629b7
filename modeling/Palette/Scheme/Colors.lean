import Palette.Color.Rgb

/-!
# The colours of a scheme

A finite map from indices to colours, listed in ascending order of the indices.
The order is part of the type, so that every way to build the map gives the
same list for the same colours.
-/

namespace Palette

structure Colors where
  entries : List (Index × Rgb)
  ascending : entries.Pairwise fun a b => a.1 < b.1

namespace Colors

theorem ext {m n : Colors} (h : m.entries = n.entries) : m = n := by
  cases m
  cases n
  cases h
  rfl

instance : DecidableEq Colors := fun m n =>
  if h : m.entries = n.entries then isTrue (ext h) else isFalse fun e => h (e ▸ rfl)

def empty : Colors where
  entries := []
  ascending := List.Pairwise.nil

def size (m : Colors) : Nat :=
  m.entries.length

def get? (m : Colors) (i : Index) : Option Rgb :=
  (m.entries.find? fun e => e.1 == i).map (·.2)

def contains (m : Colors) (i : Index) : Bool :=
  m.entries.any fun e => e.1 == i

def indices (m : Colors) : List Index :=
  m.entries.map (·.1)

def colors (m : Colors) : List Rgb :=
  m.entries.map (·.2)

/-! ## Insertion -/

/-- Puts a colour to its place in an ascending list, over a colour of the same
index if there is one. -/
def insertEntry (i : Index) (c : Rgb) : List (Index × Rgb) → List (Index × Rgb)
  | [] => [(i, c)]
  | (j, d) :: rest =>
      if i < j then (i, c) :: (j, d) :: rest
      else if i = j then (i, c) :: rest
      else (j, d) :: insertEntry i c rest

theorem mem_insertEntry {i : Index} {c : Rgb} {es : List (Index × Rgb)} {e : Index × Rgb}
    (h : e ∈ insertEntry i c es) : e = (i, c) ∨ e ∈ es := by
  induction es with
  | nil =>
      simpa [insertEntry] using h
  | cons d rest ih =>
      simp only [insertEntry] at h
      split at h
      · simpa using h
      · split at h
        · simp only [List.mem_cons] at h ⊢
          cases h with
          | inl he => exact Or.inl he
          | inr he => exact Or.inr (Or.inr he)
        · simp only [List.mem_cons] at h ⊢
          cases h with
          | inl he => exact Or.inr (Or.inl he)
          | inr he =>
              cases ih he with
              | inl hi => exact Or.inl hi
              | inr hr => exact Or.inr (Or.inr hr)

theorem index_lt_trans {i j k : Index} (hij : i < j) (hjk : j < k) : i < k :=
  Nat.lt_trans hij hjk

theorem index_lt_of_not {i j : Index} (hlt : ¬i < j) (hne : ¬i = j) : j < i := by
  cases i with
  | mk a =>
      cases j with
      | mk b =>
          have hval : a.val ≠ b.val := fun h => hne (by rw [Fin.ext h])
          have hle : ¬a.val < b.val := hlt
          show b.val < a.val
          omega

theorem ascending_insertEntry (i : Index) (c : Rgb) {es : List (Index × Rgb)}
    (h : es.Pairwise fun a b => a.1 < b.1) :
    (insertEntry i c es).Pairwise fun a b => a.1 < b.1 := by
  induction es with
  | nil =>
      simp [insertEntry]
  | cons d rest ih =>
      rw [List.pairwise_cons] at h
      simp only [insertEntry]
      split
      case isTrue hlt =>
        rw [List.pairwise_cons]
        constructor
        · intro e he
          cases List.mem_cons.mp he with
          | inl hd => rw [hd]; exact hlt
          | inr hr => exact index_lt_trans hlt (h.1 e hr)
        · exact List.pairwise_cons.mpr h
      case isFalse hlt =>
        split
        case isTrue heq =>
          rw [List.pairwise_cons]
          constructor
          · intro e he
            show i < e.1
            rw [heq]
            exact h.1 e he
          · exact h.2
        case isFalse hne =>
          rw [List.pairwise_cons]
          constructor
          · intro e he
            cases mem_insertEntry he with
            | inl hi => rw [hi]; exact index_lt_of_not hlt hne
            | inr hr => exact h.1 e hr
          · exact ih h.2

def insert (m : Colors) (i : Index) (c : Rgb) : Colors where
  entries := insertEntry i c m.entries
  ascending := ascending_insertEntry i c m.ascending

/-- Of several colours for one index the last one is kept. -/
def ofList (entries : List (Index × Rgb)) : Colors :=
  entries.foldl (fun m e => m.insert e.1 e.2) empty

end Colors
end Palette
