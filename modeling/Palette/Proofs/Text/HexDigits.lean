import Mathlib.Algebra.Group.Nat.Defs
import Palette.Text.Hex

/-!
# Hexadecimal digits and their values

Each value below sixteen has one digit in lower and one in upper case, and no other
character denotes a value.
-/

namespace Palette
namespace Text

/-- The digits of the values in their order, in lower case. -/
def lowerDigits : List Char :=
  ['0', '1', '2', '3', '4', '5', '6', '7', '8', '9', 'a', 'b', 'c', 'd', 'e', 'f']

def upperDigits : List Char :=
  ['0', '1', '2', '3', '4', '5', '6', '7', '8', '9', 'A', 'B', 'C', 'D', 'E', 'F']

/-- A character denotes a value if it is its digit in one of the cases. -/
def IsDigitOf (c : Char) (n : Nat) : Prop :=
  lowerDigits[n]? = some c ∨ upperDigits[n]? = some c

theorem char_le_iff (c d : Char) : c ≤ d <-> c.toNat ≤ d.toNat :=
  Iff.rfl

theorem hexValue?_lowerHexDigit {n : Nat} (h : n < 16) : hexValue? (lowerHexDigit n) = some n := by
  have hall : forall m : Fin 16, hexValue? (lowerHexDigit m.val) = some m.val := by decide
  exact hall ⟨n, h⟩

theorem hexValue?_upperHexDigit {n : Nat} (h : n < 16) : hexValue? (upperHexDigit n) = some n := by
  have hall : forall m : Fin 16, hexValue? (upperHexDigit m.val) = some m.val := by decide
  exact hall ⟨n, h⟩

theorem toNat_lt_of_isHexDigit {c : Char} (h : isHexDigit c = true) : c.toNat < 0x80 := by
  unfold isHexDigit hexValue? at h
  split at h
  case isTrue hdigit =>
    exact Nat.lt_of_le_of_lt hdigit.right (by decide)
  case isFalse =>
  split at h
  case isTrue hlower =>
    exact Nat.lt_of_le_of_lt hlower.right (by decide)
  case isFalse =>
  split at h
  case isTrue hupper =>
    exact Nat.lt_of_le_of_lt hupper.right (by decide)
  case isFalse =>
    cases h

theorem toUpper_lowerHexDigit {n : Nat} (h : n < 16) :
    (lowerHexDigit n).toUpper = upperHexDigit n := by
  have hall : forall m : Fin 16, (lowerHexDigit m.val).toUpper = upperHexDigit m.val := by decide
  exact hall ⟨n, h⟩

theorem toUpper_upperHexDigit {n : Nat} (h : n < 16) :
    (upperHexDigit n).toUpper = upperHexDigit n := by
  have hall : forall m : Fin 16, (upperHexDigit m.val).toUpper = upperHexDigit m.val := by decide
  exact hall ⟨n, h⟩

theorem lowerDigits_getElem? {n : Nat} (h : n < 16) : lowerDigits[n]? = some (lowerHexDigit n) := by
  have hall : forall m : Fin 16, lowerDigits[m.val]? = some (lowerHexDigit m.val) := by decide
  exact hall ⟨n, h⟩

theorem upperDigits_getElem? {n : Nat} (h : n < 16) : upperDigits[n]? = some (upperHexDigit n) := by
  have hall : forall m : Fin 16, upperDigits[m.val]? = some (upperHexDigit m.val) := by decide
  exact hall ⟨n, h⟩

theorem digit_of_hexValue? {c : Char} {n : Nat} (h : hexValue? c = some n) :
    n < 16 ∧ (c = lowerHexDigit n ∨ c = upperHexDigit n) := by
  simp only [hexValue?, char_le_iff] at h
  have hzero : '0'.toNat = 48 := rfl
  have hnine : '9'.toNat = 57 := rfl
  have hlowerA : 'a'.toNat = 97 := rfl
  have hlowerF : 'f'.toNat = 102 := rfl
  have hupperA : 'A'.toNat = 65 := rfl
  have hupperF : 'F'.toNat = 70 := rfl
  by_cases hdigit : '0'.toNat ≤ c.toNat ∧ c.toNat ≤ '9'.toNat
  · rw [if_pos hdigit] at h
    injection h with hn
    have hlt : n < 10 := by omega
    refine ⟨by omega, Or.inl ?_⟩
    rw [lowerHexDigit, if_pos hlt, ← hn, Nat.add_sub_cancel' hdigit.left, Char.ofNat_toNat]
  · rw [if_neg hdigit] at h
    by_cases hlower : 'a'.toNat ≤ c.toNat ∧ c.toNat ≤ 'f'.toNat
    · rw [if_pos hlower] at h
      injection h with hn
      have hge : ¬n < 10 := by omega
      refine ⟨by omega, Or.inl ?_⟩
      rw [lowerHexDigit, if_neg hge, ← hn, Nat.add_sub_cancel, Nat.add_sub_cancel' hlower.left,
        Char.ofNat_toNat]
    · rw [if_neg hlower] at h
      by_cases hupper : 'A'.toNat ≤ c.toNat ∧ c.toNat ≤ 'F'.toNat
      · rw [if_pos hupper] at h
        injection h with hn
        have hge : ¬n < 10 := by omega
        refine ⟨by omega, Or.inr ?_⟩
        rw [upperHexDigit, if_neg hge, ← hn, Nat.add_sub_cancel,
          Nat.add_sub_cancel' hupper.left, Char.ofNat_toNat]
      · rw [if_neg hupper] at h
        cases h

theorem hexValue?_eq_some_iff {c : Char} {n : Nat} : hexValue? c = some n <-> IsDigitOf c n := by
  constructor
  · intro h
    rcases digit_of_hexValue? h with ⟨hlt, hc | hc⟩
    · exact Or.inl (by rw [lowerDigits_getElem? hlt, hc])
    · exact Or.inr (by rw [upperDigits_getElem? hlt, hc])
  · intro h
    have hlt : n < 16 := by
      rcases h with h | h
      · exact (List.getElem?_eq_some_iff.mp h).1
      · exact (List.getElem?_eq_some_iff.mp h).1
    rcases h with h | h
    · rw [lowerDigits_getElem? hlt] at h
      injection h with hc
      rw [← hc, hexValue?_lowerHexDigit hlt]
    · rw [upperDigits_getElem? hlt] at h
      injection h with hc
      rw [← hc, hexValue?_upperHexDigit hlt]

theorem toUpper_of_hexValue? {c : Char} {n : Nat} (h : hexValue? c = some n) :
    c.toUpper = upperHexDigit n := by
  rcases digit_of_hexValue? h with ⟨hlt, hc | hc⟩
  · rw [hc, toUpper_lowerHexDigit hlt]
  · rw [hc, toUpper_upperHexDigit hlt]

theorem toLower_lowerHexDigit {n : Nat} (h : n < 16) :
    (lowerHexDigit n).toLower = lowerHexDigit n := by
  have hall : forall m : Fin 16, (lowerHexDigit m.val).toLower = lowerHexDigit m.val := by decide
  exact hall ⟨n, h⟩

theorem toLower_upperHexDigit {n : Nat} (h : n < 16) :
    (upperHexDigit n).toLower = lowerHexDigit n := by
  have hall : forall m : Fin 16, (upperHexDigit m.val).toLower = lowerHexDigit m.val := by decide
  exact hall ⟨n, h⟩

theorem toLower_of_isDigitOf {c : Char} {n : Nat} (h : IsDigitOf c n) :
    c.toLower = lowerHexDigit n := by
  rcases digit_of_hexValue? (hexValue?_eq_some_iff.mpr h) with ⟨hlt, hc | hc⟩
  · rw [hc, toLower_lowerHexDigit hlt]
  · rw [hc, toLower_upperHexDigit hlt]

theorem isDigitOf_of_toLower_eq {c d : Char} {n : Nat} (h : IsDigitOf d n)
    (hc : c.toLower = d.toLower) : IsDigitOf c n := by
  have hlt := (digit_of_hexValue? (hexValue?_eq_some_iff.mpr h)).left
  rw [toLower_of_isDigitOf h] at hc
  by_cases hupper : c.val ≥ 'A'.val ∧ c.val ≤ 'Z'.val
  · have hletters : forall k : Fin 26, forall m : Fin 16,
        (Char.ofNat ('A'.toNat + k.val)).toLower = lowerHexDigit m.val ->
          IsDigitOf (Char.ofNat ('A'.toNat + k.val)) m.val := by
      unfold IsDigitOf
      decide
    have hge : 'A'.toNat ≤ c.toNat := hupper.left
    have hle : c.toNat ≤ 'Z'.toNat := hupper.right
    have hzero : 'A'.toNat = 65 := rfl
    have hlast : 'Z'.toNat = 90 := rfl
    have hletter := hletters ⟨c.toNat - 'A'.toNat, by omega⟩ ⟨n, hlt⟩
    rw [Nat.add_sub_cancel' hge, Char.ofNat_toNat] at hletter
    exact hletter hc
  · have hself : c.toLower = c := dif_neg hupper
    rw [← hself, hc]
    exact Or.inl (lowerDigits_getElem? hlt)

/-!
# Bytes
-/

theorem byteOfHex?_eq_some_iff {high low : Char} {b : Byte} :
    byteOfHex? high low = some b <-> IsDigitOf high (b.val / 16) ∧ IsDigitOf low (b.val % 16) := by
  rw [← hexValue?_eq_some_iff, ← hexValue?_eq_some_iff, byteOfHex?]
  constructor
  · intro h
    cases hhigh : hexValue? high with
    | none =>
        rw [hhigh] at h
        cases h
    | some m =>
        cases hlow : hexValue? low with
        | none =>
            rw [hhigh, hlow] at h
            cases h
        | some n =>
            rw [hhigh, hlow] at h
            injection h with hb
            have hm := (digit_of_hexValue? hhigh).left
            have hn := (digit_of_hexValue? hlow).left
            have hval : b.val = (16 * m + n) % 256 := by rw [← hb]; rfl
            constructor
            · congr 1
              omega
            · congr 1
              omega
  · rintro ⟨hhigh, hlow⟩
    rw [hhigh, hlow]
    have hlt := b.isLt
    have hbyte : Byte.ofNat (16 * (b.val / 16) + b.val % 16) = b := by
      apply Fin.ext
      show (16 * (b.val / 16) + b.val % 16) % 256 = b.val
      omega
    show some (Byte.ofNat (16 * (b.val / 16) + b.val % 16)) = some b
    rw [hbyte]

theorem toUpper_of_byteOfHex? {high low : Char} {b : Byte} (h : byteOfHex? high low = some b) :
    [high.toUpper, low.toUpper] = upperHex b := by
  rcases byteOfHex?_eq_some_iff.mp h with ⟨hhigh, hlow⟩
  rw [toUpper_of_hexValue? (hexValue?_eq_some_iff.mpr hhigh),
    toUpper_of_hexValue? (hexValue?_eq_some_iff.mpr hlow), upperHex]

theorem byteOfHex?_upperHex (b : Byte) :
    byteOfHex? (upperHexDigit (b.val / 16)) (upperHexDigit (b.val % 16)) = some b := by
  have hlt := b.isLt
  apply byteOfHex?_eq_some_iff.mpr
  constructor
  · exact hexValue?_eq_some_iff.mp (hexValue?_upperHexDigit (by omega))
  · exact hexValue?_eq_some_iff.mp (hexValue?_upperHexDigit (by omega))

theorem byteOfHex?_lowerHex (b : Byte) :
    byteOfHex? (lowerHexDigit (b.val / 16)) (lowerHexDigit (b.val % 16)) = some b := by
  have hlt := b.isLt
  apply byteOfHex?_eq_some_iff.mpr
  constructor
  · exact hexValue?_eq_some_iff.mp (hexValue?_lowerHexDigit (by omega))
  · exact hexValue?_eq_some_iff.mp (hexValue?_lowerHexDigit (by omega))

/-!
# Numbers of several digits
-/

theorem hexNumber_append (digits : List Char) (c : Char) :
    hexNumber (digits ++ [c]) = 16 * hexNumber digits + (hexValue? c).getD 0 := by
  rw [hexNumber, List.foldl_append]
  rfl

section Cases

variable {digit : Nat → Char} (hdigit : forall {m : Nat}, m < 16 -> hexValue? (digit m) = some m)

include hdigit

theorem hexNumber_hexDigits (width n : Nat) :
    hexNumber (hexDigits digit width n) = n % 16 ^ width := by
  induction width generalizing n with
  | zero =>
      rw [Nat.pow_zero, Nat.mod_one]
      rfl
  | succ width ih =>
      rw [hexDigits, hexNumber_append, ih, hdigit (Nat.mod_lt n (by decide)), Option.getD_some,
        Nat.pow_succ', Nat.mod_mul, Nat.add_comm]

theorem isHexDigit_of_mem_hexDigits {width n : Nat} {c : Char}
    (h : c ∈ hexDigits digit width n) : isHexDigit c = true := by
  induction width generalizing n with
  | zero =>
      cases h
  | succ width ih =>
      rw [hexDigits, List.mem_append, List.mem_singleton] at h
      rcases h with h | h
      · exact ih h
      · rw [h, isHexDigit, hdigit (Nat.mod_lt n (by decide))]
        rfl

end Cases

theorem length_hexDigits (digit : Nat → Char) (width n : Nat) :
    (hexDigits digit width n).length = width := by
  induction width generalizing n with
  | zero =>
      rfl
  | succ width ih =>
      rw [hexDigits, List.length_append, ih, List.length_singleton]

end Text
end Palette
