import Palette.Color.Print
import Palette.Proofs.Text.HexDigits
import Palette.Template.Escape

/-!
# Printed colours need no escapes

In whatever format and scalars a colour is printed, no character of its text means
anything in markup, so escaping leaves the text as it is.
-/

namespace Palette

def markup : List Char :=
  ['&', '<', '>', '"']

theorem forall_mem_markup {P : Char → Prop} :
    (forall c, c ∈ markup -> P c) <-> P '&' ∧ P '<' ∧ P '>' ∧ P '"' := by
  simp [markup]

theorem Template.replaceChar_of_not_mem {c : Char} {p : Phrase} (h : CodePoint.char c ∉ p)
    (entity : List Char) : replaceChar c entity p = p := by
  induction p with
  | nil =>
      rfl
  | cons point rest ih =>
      rw [List.mem_cons, not_or] at h
      have hpoint : ¬point = .char c := fun heq => h.left heq.symm
      have hrest := ih h.right
      rw [replaceChar] at hrest ⊢
      rw [List.flatMap_cons, if_neg hpoint, hrest]
      rfl

theorem Template.escape_of_not_mem {p : Phrase}
    (h : forall c, c ∈ markup -> CodePoint.char c ∉ p) : escape p = p := by
  rcases forall_mem_markup.mp h with ⟨hamp, hless, hgreater, hquote⟩
  rw [escape, replaceChar_of_not_mem hamp, replaceChar_of_not_mem hless,
    replaceChar_of_not_mem hgreater, replaceChar_of_not_mem hquote]

/-!
# Digits
-/

theorem Text.not_mem_lowerHex {c : Char} (hc : c ∈ markup) (b : Byte) : c ∉ lowerHex b := by
  have hall : forall d, d ∈ markup -> forall n : Fin 16, d ≠ lowerHexDigit n.val :=
    forall_mem_markup.mpr (by decide)
  have hlt := b.isLt
  rw [lowerHex, List.mem_cons, List.mem_singleton]
  intro h
  rcases h with h | h
  · exact hall c hc ⟨b.val / 16, by omega⟩ h
  · exact hall c hc ⟨b.val % 16, by omega⟩ h

theorem not_mem_toDigits {c : Char} (hc : c ∈ markup) (n : Nat) : c ∉ Nat.toDigits 10 n := by
  have hall : forall d, d ∈ markup -> d.isDigit = false :=
    forall_mem_markup.mpr (by decide)
  intro h
  have hdigit := Nat.isDigit_of_mem_toDigits (by decide) (Nat.le_refl 10) h
  rw [hall c hc] at hdigit
  cases hdigit

theorem Magnitude.not_mem_signText {c : Char} (hc : c ∈ markup) (negative : Bool) :
    c ∉ signText negative := by
  cases negative with
  | false =>
      exact List.not_mem_nil
  | true =>
      have hall : forall d, d ∈ markup -> d ∉ signText true :=
        forall_mem_markup.mpr (by decide)
      exact hall c hc

theorem Magnitude.not_mem_hundredthsText {c : Char} (hc : c ∈ markup) (n : Nat) :
    c ∉ hundredthsText n := by
  have hpoint : forall d, d ∈ markup -> d ∉ ['.'] := forall_mem_markup.mpr (by decide)
  rw [hundredthsText, List.mem_append, List.mem_append, List.mem_append]
  intro h
  rcases h with ((h | h) | h) | h
  · exact not_mem_toDigits hc _ h
  · exact hpoint c hc h
  · exact not_mem_toDigits hc _ h
  · exact not_mem_toDigits hc _ h

theorem Magnitude.not_mem_twoDecimals {c : Char} (hc : c ∈ markup) (m : Magnitude) :
    c ∉ m.twoDecimals := by
  cases m with
  | finite negative numerator denominator =>
      rw [twoDecimals, List.mem_append]
      intro h
      rcases h with h | h
      · exact not_mem_signText hc negative h
      · exact not_mem_hundredthsText hc _ h
  | infinite negative =>
      have hall : forall d, d ∈ markup -> d ∉ "inf".toList :=
        forall_mem_markup.mpr (by decide)
      rw [twoDecimals, List.mem_append]
      intro h
      rcases h with h | h
      · exact not_mem_signText hc negative h
      · exact hall c hc h
  | undefined =>
      have hall : forall d, d ∈ markup -> d ∉ "nan".toList :=
        forall_mem_markup.mpr (by decide)
      exact hall c hc

namespace Rgb

theorem not_mem_chars {c : Char} (hc : c ∈ markup) (color : Rgb) : c ∉ color.chars := by
  rw [chars, List.mem_append, List.mem_append]
  intro h
  rcases h with (h | h) | h
  · exact Text.not_mem_lowerHex hc color.red h
  · exact Text.not_mem_lowerHex hc color.green h
  · exact Text.not_mem_lowerHex hc color.blue h

theorem not_mem_printChars {c : Char} (hc : c ∈ markup) (ν : Type) [Scalar ν] (color : Rgb)
    (f : Format) : c ∉ color.printChars ν f := by
  unfold printChars
  split
  case h_1 =>
    exact not_mem_chars hc color
  case h_5 =>
    have hreversed := not_mem_chars hc ⟨color.blue, color.green, color.red⟩
    exact hreversed
  case h_15 =>
    exact List.not_mem_nil
  all_goals first
    | exact Text.not_mem_lowerHex hc _
    | exact not_mem_toDigits hc _
    | exact Magnitude.not_mem_twoDecimals hc _

theorem escape_print (ν : Type) [Scalar ν] (color : Rgb) (f : Format) :
    Template.escape (.ofText (color.print ν f)) = .ofText (color.print ν f) := by
  apply Template.escape_of_not_mem
  intro c hc hmem
  rw [Phrase.ofText, print, String.toList_ofList] at hmem
  rcases List.mem_map.mp hmem with ⟨d, hd, heq⟩
  injection heq with heq
  rw [heq] at hd
  exact not_mem_printChars hc ν color f hd

end Rgb
end Palette
