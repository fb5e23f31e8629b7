import Palette.Proofs.Text.Surrogates
import Palette.Text.Lowercase

/-!
# Small letters

The small letters of the runs of capitals are no capitals themselves.  So what a character becomes
in lower case is made of characters that are their own lower case.
-/

namespace Palette
namespace Text

/-!
# Sets of codes as bits

A set of codes is one number with a bit for each of them, so that two sets are compared at once.
-/

def joinBits (sets : List Nat) : Nat :=
  sets.foldr (· ||| ·) 0

theorem testBit_joinBits {sets : List Nat} {bits n : Nat} (h : bits ∈ sets)
    (hbit : bits.testBit n = true) : (joinBits sets).testBit n = true := by
  induction sets with
  | nil =>
      cases h
  | cons first rest ih =>
      show (first ||| joinBits rest).testBit n = true
      rw [Nat.testBit_or, Bool.or_eq_true]
      cases List.mem_cons.mp h with
      | inl heq =>
          exact Or.inl (heq ▸ hbit)
      | inr hrest =>
          exact Or.inr (ih hrest)

def bitsOf (codes : List Nat) : Nat :=
  joinBits (codes.map fun n => 1 <<< n)

theorem testBit_bitsOf {codes : List Nat} {n : Nat} (h : n ∈ codes) :
    (bitsOf codes).testBit n = true := by
  have hbit : (1 <<< n).testBit n = true := by
    rw [Nat.one_shiftLeft]
    exact Nat.testBit_two_pow_self
  exact testBit_joinBits (List.mem_map_of_mem h) hbit

theorem land_ne_zero_of_testBit {a b n : Nat} (ha : a.testBit n = true)
    (hb : b.testBit n = true) : a &&& b ≠ 0 := by
  intro hzero
  have hbit : (a &&& b).testBit n = true := by rw [Nat.testBit_and, ha, hb, Bool.and_self]
  rw [hzero, Nat.zero_testBit] at hbit
  cases hbit

/-!
# Runs of capitals
-/

namespace CaseRun

/-- The codes of the capitals of a run. -/
def codes (run : CaseRun) : List Nat :=
  (List.range ((run.last - run.first) / run.stride + 1)).map fun k => run.first + run.stride * k

def smallCodes (run : CaseRun) : List Nat :=
  run.codes.map fun n : Nat => (n + run.shift).toNat

theorem mem_codes_of_covers {run : CaseRun} {n : Nat} (h : run.covers n = true) :
    n ∈ run.codes := by
  rw [covers, Bool.and_eq_true, Bool.and_eq_true, decide_eq_true_eq, decide_eq_true_eq,
    beq_iff_eq] at h
  rcases h with ⟨⟨hfirst, hlast⟩, hsteps⟩
  have hplace : (n - run.first) / run.stride ≤ (run.last - run.first) / run.stride :=
    Nat.div_le_div_right (Nat.sub_le_sub_right hlast run.first)
  have hcode : run.first + run.stride * ((n - run.first) / run.stride) = n := by
    rw [Nat.mul_div_cancel' (Nat.dvd_of_mod_eq_zero hsteps), Nat.add_sub_cancel' hfirst]
  exact List.mem_map.mpr ⟨_, List.mem_range.mpr (Nat.lt_succ_of_le hplace), hcode⟩

end CaseRun

def capitalBits : Nat :=
  joinBits (capitalRuns.map fun run => bitsOf run.codes)

theorem testBit_capitalBits {run : CaseRun} (hrun : run ∈ capitalRuns) {n : Nat}
    (hn : n ∈ run.codes) : capitalBits.testBit n = true :=
  testBit_joinBits (List.mem_map_of_mem hrun) (testBit_bitsOf hn)

/-!
# Small letters
-/

def IsSmallLetter (n : Nat) : Prop :=
  exists run, run ∈ capitalRuns ∧ n ∈ run.smallCodes

theorem smallCodes_checked : forall run, run ∈ capitalRuns ->
    capitalBits &&& bitsOf run.smallCodes = 0 ∧ forall n, n ∈ run.smallCodes ->
      0x61 ≤ n ∧ n ≠ 0x130 ∧ (n < 0xD800 ∨ 0xDFFF < n ∧ n < 0x110000) := by
  decide +kernel

namespace IsSmallLetter

variable {n : Nat} (h : IsSmallLetter n)

include h

theorem covers_eq_false {run : CaseRun} (hrun : run ∈ capitalRuns) : run.covers n = false := by
  rcases h with ⟨other, hother, hsmall⟩
  rw [Bool.eq_false_iff]
  intro hcovers
  have hcapital := testBit_capitalBits hrun (CaseRun.mem_codes_of_covers hcovers)
  have hapart := (smallCodes_checked other hother).left
  exact land_ne_zero_of_testBit hcapital (testBit_bitsOf hsmall) hapart

theorem bounds : 0x61 ≤ n ∧ n ≠ 0x130 ∧ n.isValidChar := by
  rcases h with ⟨run, hrun, hsmall⟩
  exact (smallCodes_checked run hrun).right n hsmall

theorem lowerCode_eq : lowerCode n = n := by
  have hnone : capitalRuns.find? (·.covers n) = none := by
    rw [List.find?_eq_none]
    intro run hrun
    rw [h.covers_eq_false hrun]
    exact Bool.false_ne_true
  rw [lowerCode, hnone]

theorem toNat_char : (Char.ofNat n).toNat = n :=
  CodePoint.toNat_charOfNat h.bounds.right.right

theorem lowerChar_eq : lowerChar (Char.ofNat n) = [Char.ofNat n] := by
  rw [lowerChar, h.toNat_char, if_neg h.bounds.right.left, h.lowerCode_eq]

theorem ne_space : Char.ofNat n ≠ ' ' := by
  intro hspace
  have hcode : ' '.toNat = n := by rw [← hspace, h.toNat_char]
  have hge := h.bounds.left
  rw [← hcode] at hge
  exact absurd hge (by decide)

end IsSmallLetter

/-!
# Lower case
-/

theorem lowerCode_cases (n : Nat) : lowerCode n = n ∨ IsSmallLetter (lowerCode n) := by
  cases hfind : capitalRuns.find? (·.covers n) with
  | none =>
      exact Or.inl (by rw [lowerCode, hfind])
  | some run =>
      have hrun := List.mem_of_find?_eq_some hfind
      have hcovers := List.find?_some hfind
      have hcode : lowerCode n = (n + run.shift).toNat := by rw [lowerCode, hfind]
      rw [hcode]
      exact Or.inr ⟨run, hrun, List.mem_map_of_mem (CaseRun.mem_codes_of_covers hcovers)⟩

theorem lowerChar_ne_nil (c : Char) : lowerChar c ≠ [] := by
  rw [lowerChar]
  split
  · exact List.cons_ne_nil _ _
  · exact List.cons_ne_nil _ _

theorem lowerChar_cases (c : Char) :
    lowerChar c = ['i', Char.ofNat 0x307] ∨ lowerChar c = [c] ∨
      exists n, IsSmallLetter n ∧ lowerChar c = [Char.ofNat n] := by
  rw [lowerChar]
  split
  case isTrue =>
    exact Or.inl rfl
  case isFalse =>
    right
    cases lowerCode_cases c.toNat with
    | inl hself => exact Or.inl (by rw [hself, Char.ofNat_toNat])
    | inr hsmall => exact Or.inr ⟨_, hsmall, rfl⟩

theorem lowerChar_of_mem {c d : Char} (h : d ∈ lowerChar c) :
    lowerChar d = [d] ∧ (d = ' ' -> c = ' ') := by
  rcases lowerChar_cases c with hdotted | hself | ⟨n, hsmall, hlower⟩
  · rw [hdotted, List.mem_cons, List.mem_singleton] at h
    rcases h with rfl | rfl
    · exact ⟨rfl, fun hspace => absurd hspace (by decide)⟩
    · exact ⟨rfl, fun hspace => absurd hspace (by decide)⟩
  · rw [hself, List.mem_singleton] at h
    rw [h]
    exact ⟨hself, id⟩
  · rw [hlower, List.mem_singleton] at h
    rw [h]
    exact ⟨hsmall.lowerChar_eq, fun hspace => absurd hspace hsmall.ne_space⟩

end Text
end Palette
