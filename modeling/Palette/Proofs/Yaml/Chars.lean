import Palette.Yaml.Read
import Palette.Yaml.Write

/-!
# Characters that survive reading

What is written never holds a carriage return, so before it is read only its
next-line characters change: they become line feeds.  Everything else reaches the
scanner as it stands.
-/

namespace Palette
namespace Yaml

/-!
# Line breaks before reading
-/

/-- The character that is read in place of a next-line character. -/
def lineFeedFor (c : Char) : Char :=
  if c = nextLine then '\n' else c

theorem lineFeedFor_of_ne {c : Char} (h : c ≠ nextLine) : lineFeedFor c = c :=
  if_neg h

theorem normalize_of_no_return {s : List Char} (h : '\r' ∉ s) :
    normalize s = s.map lineFeedFor := by
  induction s with
  | nil =>
      rfl
  | cons c rest ih =>
      have hc : c ≠ '\r' := by
        intro hc
        exact h (by simp [hc])
      have hrest : '\r' ∉ rest := by
        intro hmem
        exact h (List.mem_cons_of_mem c hmem)
      rw [List.map_cons, ← ih hrest, normalize]
      · simp only [hc, false_or, lineFeedFor]
      · intro tail hhead _
        exact hc hhead

theorem map_lineFeedFor_of_not_mem {s : List Char} (h : nextLine ∉ s) :
    s.map lineFeedFor = s := by
  induction s with
  | nil =>
      rfl
  | cons c rest ih =>
      have hc : c ≠ nextLine := by
        intro hc
        exact h (by simp [hc])
      have hrest : nextLine ∉ rest := by
        intro hmem
        exact h (List.mem_cons_of_mem c hmem)
      rw [List.map_cons, lineFeedFor_of_ne hc, ih hrest]

theorem isBreak_lineFeedFor {c : Char} (h : isValueBreak c = true) :
    isBreak (lineFeedFor c) = true := by
  by_cases hc : c = nextLine
  · rw [hc]
    rfl
  · rw [lineFeedFor_of_ne hc]
    simpa [isValueBreak, hc] using h

theorem ne_space_of_isValueBreak {c : Char} (h : isValueBreak c = true) : c ≠ ' ' := by
  intro hc
  rw [hc] at h
  cases h

theorem isValueBreak_of_isBreak {c : Char} (h : isBreak c = true) : isValueBreak c = true := by
  simp [isValueBreak, h]

theorem not_isBreak_of_not_isValueBreak {c : Char} (h : isValueBreak c = false) :
    isBreak c = false := by
  cases hc : isBreak c with
  | false =>
      rfl
  | true =>
      rw [isValueBreak_of_isBreak hc] at h
      cases h

theorem ne_nextLine_of_not_isValueBreak {c : Char} (h : isValueBreak c = false) :
    c ≠ nextLine := by
  intro hc
  rw [hc] at h
  cases h

/-!
# Texts that can be read
-/

def isKept (c : Char) : Bool :=
  isReadable c && c != '\r'

def isFixed (c : Char) : Bool :=
  isKept c && c != nextLine

theorem isKept_of_isWritable {c : Char} (h : isWritable c = true) : isKept c = true := by
  by_cases hfeed : c = '\n'
  · rw [hfeed]
    rfl
  · have hreturn : c.toNat ≠ 13 -> c ≠ '\r' := by
      intro hn hc
      rw [hc] at hn
      exact hn rfl
    simp only [isWritable, isKept, isReadable, Bool.or_eq_true, Bool.and_eq_true, beq_iff_eq,
      bne_iff_ne, decide_eq_true_eq, ne_eq, hfeed, false_or] at h ⊢
    constructor
    · omega
    · apply hreturn
      omega

theorem not_isBlank_of_isWritable {c : Char} (h : isWritable c = true) (hspace : c ≠ ' ') :
    isBlank c = false := by
  have htab : c ≠ '\t' := by
    intro hc
    rw [hc] at h
    cases h
  simp [isBlank, hspace, htab]

theorem isFixed_of_isWritable {c : Char} (h : isWritable c = true) (hb : isValueBreak c = false) :
    isFixed c = true := by
  simp [isFixed, isKept_of_isWritable h, ne_nextLine_of_not_isValueBreak hb]

theorem isKept_of_isFixed {c : Char} (h : isFixed c = true) : isKept c = true := by
  simp only [isFixed, Bool.and_eq_true] at h
  exact h.left

theorem map_lineFeedFor_of_isFixed {s : List Char} (h : forall c, c ∈ s -> isFixed c = true) :
    s.map lineFeedFor = s := by
  apply map_lineFeedFor_of_not_mem
  intro hmem
  have hfixed := h nextLine hmem
  simp [isFixed] at hfixed

/-!
# Keys

Keys consist of letters and digits, which nothing in a document takes for itself.
-/

/-- Whether a text goes on with an entry whose key starts with a letter or a digit,
or ends. -/
def atEntry (s : List Char) : Bool :=
  s.head?.all Char.isAlphanum

theorem toNat_of_isAlphanum {c : Char} (h : c.isAlphanum = true) :
    (48 ≤ c.toNat ∧ c.toNat ≤ 57) ∨ (65 ≤ c.toNat ∧ c.toNat ≤ 90) ∨
      (97 ≤ c.toNat ∧ c.toNat ≤ 122) := by
  change ((decide (c.val ≥ 'A'.val ∧ c.val ≤ 'Z'.val) ||
    (decide (c.val ≥ 'a'.val) && decide (c.val ≤ 'z'.val))) ||
      (decide (c.val ≥ '0'.val) && decide (c.val ≤ '9'.val))) = true at h
  simp only [Bool.or_eq_true, Bool.and_eq_true, decide_eq_true_eq, ge_iff_le,
    UInt32.le_iff_toNat_le] at h
  rcases h with (h | h) | h
  · exact Or.inr (Or.inl h)
  · exact Or.inr (Or.inr h)
  · exact Or.inl h

theorem not_isBreak_of_isAlphanum {c : Char} (h : c.isAlphanum = true) : isBreak c = false := by
  have hrange := toNat_of_isAlphanum h
  have hfeed : c ≠ '\n' := by
    intro hc
    rw [hc] at h
    cases h
  simp only [isBreak, Bool.or_eq_false_iff, beq_eq_false_iff_ne]
  refine ⟨⟨hfeed, ?_⟩, ?_⟩
  · omega
  · omega

theorem isFixed_of_isAlphanum {c : Char} (h : c.isAlphanum = true) : isFixed c = true := by
  have hrange := toNat_of_isAlphanum h
  have hreturn : c ≠ '\r' := by
    intro hc
    rw [hc] at h
    cases h
  have hnext : c ≠ nextLine := by
    intro hc
    rw [hc] at h
    cases h
  simp only [isFixed, isKept, isReadable, Bool.and_eq_true, Bool.or_eq_true, beq_iff_eq,
    bne_iff_ne, decide_eq_true_eq]
  refine ⟨⟨?_, hreturn⟩, hnext⟩
  omega

theorem ne_of_isAlphanum {c d : Char} (h : c.isAlphanum = true) (hd : d.isAlphanum = false) :
    c ≠ d := by
  intro hc
  rw [hc, hd] at h
  cases h

theorem not_isBlank_of_isAlphanum {c : Char} (h : c.isAlphanum = true) : isBlank c = false := by
  have hspace : c ≠ ' ' := ne_of_isAlphanum h rfl
  have htab : c ≠ '\t' := ne_of_isAlphanum h rfl
  simp [isBlank, hspace, htab]

theorem not_atDocumentMark_of_atEntry {s : List Char} (h : atEntry s = true) :
    atDocumentMark s = false := by
  unfold atDocumentMark
  split
  case h_1 =>
    cases h
  case h_2 =>
    cases h
  case h_3 =>
    rfl

/-!
# Places

Moving on over a part of the text only depends on that part.
-/

namespace Cursor

theorem moveTo_append (front rest : List Char) (p : Position) :
    Cursor.moveTo ⟨front ++ rest, p⟩ rest = ⟨rest, front.foldl Position.after p⟩ := by
  have htake : (front ++ rest).take ((front ++ rest).length - rest.length) = front := by
    rw [List.length_append, Nat.add_sub_cancel, List.take_left']
    rfl
  show (⟨rest, ((front ++ rest).take ((front ++ rest).length - rest.length)).foldl
    Position.after p⟩ : Cursor) = _
  rw [htake]

theorem moveTo_self (c : Cursor) : c.moveTo c.rest = c :=
  moveTo_append [] c.rest c.position

theorem moveTo_cons (c : Char) (rest : List Char) (p : Position) :
    Cursor.moveTo ⟨c :: rest, p⟩ rest = ⟨rest, p.after c⟩ :=
  moveTo_append [c] rest p

end Cursor

namespace Position

theorem column_le_after (p : Position) {c : Char} (h : isBreak c = false) :
    p.column ≤ (p.after c).column := by
  rw [after, h, if_neg Bool.false_ne_true]
  show p.column ≤ if c = byteOrderMark then p.column else p.column + 1
  split
  · exact Nat.le_refl p.column
  · exact Nat.le_succ p.column

theorem column_le_foldl_after (p : Position) {s : List Char}
    (h : forall c, c ∈ s -> isBreak c = false) :
    p.column ≤ (s.foldl Position.after p).column := by
  induction s generalizing p with
  | nil =>
      exact Nat.le_refl p.column
  | cons c rest ih =>
      exact Nat.le_trans (column_le_after p (h c List.mem_cons_self))
        (ih (p.after c) fun d hd => h d (List.mem_cons_of_mem c hd))

theorem column_after_break (p : Position) {c : Char} (h : isBreak c = true) :
    (p.after c).column = 0 := by
  rw [after, h, if_pos rfl]

end Position

end Yaml
end Palette
