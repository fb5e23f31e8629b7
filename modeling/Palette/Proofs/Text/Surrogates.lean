import Palette.Text.Phrase

/-!
# Pairs of surrogates

Two surrogates in a row, one of the lower and one of the upper half of their range, are what a
character beyond the basic plane is in units of sixteen bits.  A phrase may hold such a pair or
the character, and they are different; a reader that joins pairs makes one of them.
-/

namespace Palette

namespace CodePoint

def IsHigh (n : Nat) : Prop :=
  0xD800 ≤ n ∧ n < 0xDC00

def IsLow (n : Nat) : Prop :=
  0xDC00 ≤ n ∧ n < 0xE000

instance (n : Nat) : Decidable (IsHigh n) :=
  inferInstanceAs (Decidable (_ ∧ _))

instance (n : Nat) : Decidable (IsLow n) :=
  inferInstanceAs (Decidable (_ ∧ _))

/-- The code point that two surrogates stand for together. -/
def ofPair (high low : Nat) : CodePoint :=
  .ofNat (0x10000 + (high - 0xD800) * 0x400 + (low - 0xDC00))

theorem toNat_charOfNat {n : Nat} (h : n.isValidChar) : (Char.ofNat n).toNat = n := by
  rw [Char.ofNat, dif_pos h]
  rfl

theorem ofNat_code (s : Surrogate) : ofNat s.code = .surrogate s := by
  rw [ofNat, dif_pos ⟨s.first_le, s.lt_end⟩]

theorem ofNat_toNat (c : Char) : ofNat c.toNat = .char c := by
  have hrange : c.toNat < 0xD800 ∨ (0xDFFF < c.toNat ∧ c.toNat < 0x110000) := c.valid
  have hsurrogate : ¬(0xD800 ≤ c.toNat ∧ c.toNat < 0xE000) := by omega
  rw [ofNat, dif_neg hsurrogate, Char.ofNat_toNat]

theorem exists_char_of_pair {high low : Nat} (hhigh : IsHigh high) (hlow : IsLow low) :
    exists c : Char, ofPair high low = .char c ∧
      c.toNat = 0x10000 + (high - 0xD800) * 0x400 + (low - 0xDC00) := by
  have hge : 0x10000 ≤ 0x10000 + (high - 0xD800) * 0x400 + (low - 0xDC00) := by omega
  have hlt : 0x10000 + (high - 0xD800) * 0x400 + (low - 0xDC00) < 0x110000 := by
    have hhighlt := hhigh.right
    have hlowlt := hlow.right
    omega
  unfold ofPair
  generalize 0x10000 + (high - 0xD800) * 0x400 + (low - 0xDC00) = n at hge hlt
  have hsurrogate : ¬(0xD800 ≤ n ∧ n < 0xE000) := by omega
  refine ⟨Char.ofNat n, ?_, toNat_charOfNat (Or.inr ⟨by omega, hlt⟩)⟩
  rw [ofNat, dif_neg hsurrogate]

theorem ofPair_injective {high low first second : Nat} (hhigh : IsHigh high) (hlow : IsLow low)
    (hfirst : IsHigh first) (hsecond : IsLow second) (h : ofPair high low = ofPair first second) :
    high = first ∧ low = second := by
  rcases exists_char_of_pair hhigh hlow with ⟨c, hc, hcode⟩
  rcases exists_char_of_pair hfirst hsecond with ⟨d, hd, hother⟩
  rw [hc, hd] at h
  rw [char.inj h, hother] at hcode
  unfold IsHigh IsLow at *
  omega

theorem ofPair_ne_surrogate {high low : Nat} (hhigh : IsHigh high) (hlow : IsLow low)
    (s : Surrogate) : ofPair high low ≠ .surrogate s := by
  rcases exists_char_of_pair hhigh hlow with ⟨c, hc, _⟩
  rw [hc]
  nofun

end CodePoint

namespace Phrase

open CodePoint (IsHigh IsLow)

theorem shown_ofText (s : String) : (ofText s).shown = s := by
  have hchars : (ofText s).map (fun point => point.char?.getD replacement) = s.toList := by
    rw [ofText, ofChars, List.map_map]
    exact List.map_id s.toList
  rw [shown, hchars, String.ofList_toList]

/-- A phrase in which the pairs of surrogates are characters. -/
def joined : Phrase → Phrase
  | .surrogate high :: .surrogate low :: rest =>
      if IsHigh high.code ∧ IsLow low.code then .ofPair high.code low.code :: joined rest
      else .surrogate high :: joined (.surrogate low :: rest)
  | point :: rest => point :: joined rest
  | [] => []

def IsUnpaired (p : Phrase) : Prop :=
  forall before high low after, p = before ++ .surrogate high :: .surrogate low :: after ->
    ¬(IsHigh high.code ∧ IsLow low.code)

theorem joined_char (c : Char) (rest : Phrase) :
    joined (.char c :: rest) = .char c :: joined rest := by
  rw [joined]
  nofun

theorem joined_ofChars (s : List Char) : joined (ofChars s) = ofChars s := by
  induction s with
  | nil =>
      rfl
  | cons c rest ih =>
      show joined (.char c :: ofChars rest) = .char c :: ofChars rest
      rw [joined_char, ih]

theorem joined_ofText (s : String) : joined (ofText s) = ofText s :=
  joined_ofChars s.toList

theorem IsUnpaired.tail {point : CodePoint} {rest : Phrase} (h : IsUnpaired (point :: rest)) :
    IsUnpaired rest := by
  intro before high low after hrest
  exact h (point :: before) high low after (by rw [hrest, List.cons_append])

theorem joined_eq_self_iff {p : Phrase} : joined p = p <-> IsUnpaired p := by
  fun_induction joined p with
  | case1 high low rest hpair ih =>
      constructor
      · intro h
        exact absurd (List.cons.inj h).left
          (CodePoint.ofPair_ne_surrogate hpair.left hpair.right high)
      · intro h
        exact absurd hpair (h [] high low rest rfl)
  | case2 high low rest hpair ih =>
      constructor
      · intro h before first second after hsplit
        cases before with
        | nil =>
            rcases List.cons.inj hsplit with ⟨hfirst, hrest⟩
            rcases List.cons.inj hrest with ⟨hsecond, _⟩
            rw [← CodePoint.surrogate.inj hfirst, ← CodePoint.surrogate.inj hsecond]
            exact hpair
        | cons point before =>
            rcases List.cons.inj hsplit with ⟨_, hrest⟩
            exact ih.mp (List.cons.inj h).right before first second after hrest
      · intro h
        rw [ih.mpr h.tail]
  | case3 point rest hhead ih =>
      constructor
      · intro h before first second after hsplit
        cases before with
        | nil =>
            rcases List.cons.inj hsplit with ⟨hfirst, hrest⟩
            exact absurd hrest (hhead first second after hfirst)
        | cons _ before =>
            rcases List.cons.inj hsplit with ⟨_, hrest⟩
            exact ih.mp (List.cons.inj h).right before first second after hrest
      · intro h
        rw [ih.mpr h.tail]
  | case4 =>
      constructor
      · intro _ before high low after hsplit
        cases before with
        | nil =>
            cases hsplit
        | cons _ _ =>
            cases hsplit
      · intro _
        rfl

end Phrase

end Palette
