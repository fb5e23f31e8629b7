import Mathlib.Data.List.Basic
import Palette.Text.Utf8

/-!
# Decoding what was encoded

The encoding of a character is read back as that character, whatever follows it,
so that decoding undoes encoding.
-/

namespace Palette
namespace Text
namespace Utf8

/-!
# Bytes
-/

theorem isContinuation_iff {b : UInt8} :
    isContinuation b = true <-> 128 ≤ b.toNat ∧ b.toNat < 192 := by
  simp [isContinuation, UInt8.le_iff_toNat_le, UInt8.lt_iff_toNat_lt]

theorem toNat_continuation {x : Nat} (h : x < 64) : (UInt8.ofNat (0x80 + x)).toNat = 0x80 + x :=
  UInt8.toNat_ofNat_of_lt' (show 0x80 + x < 256 by omega)

theorem isContinuation_ofNat {x : Nat} (h : x < 64) :
    isContinuation (UInt8.ofNat (0x80 + x)) = true := by
  rw [isContinuation_iff, toNat_continuation h]
  omega

theorem payload_ofNat {x : Nat} (h : x < 64) : payload (UInt8.ofNat (0x80 + x)) = x := by
  rw [payload, toNat_continuation h]
  omega

theorem isSecond_of {lead b : UInt8} (hb : isContinuation b = true)
    (hE0 : lead.toNat = 0xE0 -> 0xA0 ≤ b.toNat) (hED : lead.toNat = 0xED -> b.toNat < 0xA0)
    (hF0 : lead.toNat = 0xF0 -> 0x90 ≤ b.toNat) (hF4 : lead.toNat = 0xF4 -> b.toNat < 0x90) :
    isSecond lead b = true := by
  rw [isSecond, hb, Bool.true_and]
  simp only [← UInt8.toNat_inj, UInt8.le_iff_toNat_le, UInt8.lt_iff_toNat_lt]
  split
  case isTrue heq => exact decide_eq_true (hE0 heq)
  split
  case isTrue heq => exact decide_eq_true (hED heq)
  split
  case isTrue heq => exact decide_eq_true (hF0 heq)
  split
  case isTrue heq => exact decide_eq_true (hF4 heq)
  rfl

/-!
# Lead bytes
-/

variable {b c d e : UInt8} (position : Nat) (rest : Bytes)

theorem decodeFrom_one (hb : b.toNat < 0x80) :
    decodeFrom position (b :: rest) =
      (decodeFrom (position + 1) rest).map (Char.ofNat b.toNat :: ·) := by
  have hlow : b < 0x80 := UInt8.lt_iff_toNat_lt.mpr hb
  rw [decodeFrom.eq_def]
  dsimp only
  rw [if_pos hlow]

theorem decodeFrom_two (hb : 0xC2 ≤ b.toNat) (hb' : b.toNat < 0xE0)
    (hc : isContinuation c = true) :
    decodeFrom position (b :: c :: rest) =
      (decodeFrom (position + 2) rest).map
        (Char.ofNat ((b.toNat - 0xC0) * 64 + payload c) :: ·) := by
  have h80 : ¬b < 0x80 := by
    rw [UInt8.lt_iff_toNat_lt]
    exact Nat.not_lt.mpr (Nat.le_trans (by decide) hb)
  have hC2 : ¬b < 0xC2 := by
    rw [UInt8.lt_iff_toNat_lt]
    exact Nat.not_lt.mpr hb
  have hE0 : b < 0xE0 := UInt8.lt_iff_toNat_lt.mpr hb'
  rw [decodeFrom.eq_def]
  dsimp only
  rw [if_neg h80, if_neg hC2, if_pos hE0, hc]
  rfl

theorem decodeFrom_three (hb : 0xE0 ≤ b.toNat) (hb' : b.toNat < 0xF0)
    (hc : isSecond b c = true) (hd : isContinuation d = true) :
    decodeFrom position (b :: c :: d :: rest) =
      (decodeFrom (position + 3) rest).map
        (Char.ofNat (((b.toNat - 0xE0) * 64 + payload c) * 64 + payload d) :: ·) := by
  have hlow : forall k : UInt8, k.toNat ≤ 0xE0 -> ¬b < k := fun k hk => by
    rw [UInt8.lt_iff_toNat_lt]
    exact Nat.not_lt.mpr (Nat.le_trans hk hb)
  have hF0 : b < 0xF0 := UInt8.lt_iff_toNat_lt.mpr hb'
  rw [decodeFrom.eq_def]
  dsimp only
  rw [if_neg (hlow _ (by decide)), if_neg (hlow _ (by decide)),
    if_neg (hlow _ (by decide)), if_pos hF0, hc, hd]
  rfl

theorem decodeFrom_four (hb : 0xF0 ≤ b.toNat) (hb' : b.toNat < 0xF5)
    (hc : isSecond b c = true) (hd : isContinuation d = true) (he : isContinuation e = true) :
    decodeFrom position (b :: c :: d :: e :: rest) =
      (decodeFrom (position + 4) rest).map
        (Char.ofNat ((((b.toNat - 0xF0) * 64 + payload c) * 64 + payload d) * 64 + payload e)
          :: ·) := by
  have hlow : forall k : UInt8, k.toNat ≤ 0xF0 -> ¬b < k := fun k hk => by
    rw [UInt8.lt_iff_toNat_lt]
    exact Nat.not_lt.mpr (Nat.le_trans hk hb)
  have hF5 : b < 0xF5 := UInt8.lt_iff_toNat_lt.mpr hb'
  rw [decodeFrom.eq_def]
  dsimp only
  rw [if_neg (hlow _ (by decide)), if_neg (hlow _ (by decide)),
    if_neg (hlow _ (by decide)), if_neg (hlow _ (by decide)), if_pos hF5, hc, hd, he]
  rfl

/-!
# Characters
-/

theorem decodeFrom_encodeChar (position : Nat) (c : Char) (rest : Bytes) :
    decodeFrom position (encodeChar c ++ rest) =
      (decodeFrom (position + (encodeChar c).length) rest).map (c :: ·) := by
  have hbounds : c.toNat < 0xD800 ∨ (0xDFFF < c.toNat ∧ c.toNat < 0x110000) := c.valid
  have hc := Char.ofNat_toNat c
  rw [encodeChar]
  generalize c.toNat = n at hbounds hc
  rw [← hc]
  by_cases h1 : n < 0x80
  · rw [if_pos h1, List.singleton_append]
    have hlead := UInt8.toNat_ofNat_of_lt' (show n < 256 by omega)
    rw [decodeFrom_one _ _ (by omega), hlead]
    rfl
  rw [if_neg h1]
  by_cases h2 : n < 0x800
  · rw [if_pos h2, List.cons_append, List.singleton_append]
    have hlead := UInt8.toNat_ofNat_of_lt' (show 0xC0 + n / 64 < 256 by omega)
    have hlast : n % 64 < 64 := Nat.mod_lt n (by decide)
    rw [decodeFrom_two _ _ (by omega) (by omega) (isContinuation_ofNat hlast), hlead,
      payload_ofNat hlast]
    have hcode : (0xC0 + n / 64 - 0xC0) * 64 + n % 64 = n := by omega
    rw [hcode]
    rfl
  rw [if_neg h2]
  by_cases h3 : n < 0x10000
  · rw [if_pos h3, List.cons_append, List.cons_append, List.singleton_append]
    have hlead := UInt8.toNat_ofNat_of_lt' (show 0xE0 + n / 4096 < 256 by omega)
    have hmiddle : n / 64 % 64 < 64 := Nat.mod_lt _ (by decide)
    have hlast : n % 64 < 64 := Nat.mod_lt n (by decide)
    have hnext := toNat_continuation hmiddle
    have hsecond : isSecond (UInt8.ofNat (0xE0 + n / 4096))
        (UInt8.ofNat (0x80 + n / 64 % 64)) = true :=
      isSecond_of (isContinuation_ofNat hmiddle) (by omega) (by omega) (by omega) (by omega)
    rw [decodeFrom_three _ _ (by omega) (by omega) hsecond (isContinuation_ofNat hlast), hlead,
      payload_ofNat hmiddle, payload_ofNat hlast]
    have hcode : ((0xE0 + n / 4096 - 0xE0) * 64 + n / 64 % 64) * 64 + n % 64 = n := by omega
    rw [hcode]
    rfl
  · rw [if_neg h3, List.cons_append, List.cons_append, List.cons_append, List.singleton_append]
    have hlead := UInt8.toNat_ofNat_of_lt' (show 0xF0 + n / 262144 < 256 by omega)
    have hupper : n / 4096 % 64 < 64 := Nat.mod_lt _ (by decide)
    have hlower : n / 64 % 64 < 64 := Nat.mod_lt _ (by decide)
    have hlast : n % 64 < 64 := Nat.mod_lt n (by decide)
    have hnext := toNat_continuation hupper
    have hsecond : isSecond (UInt8.ofNat (0xF0 + n / 262144))
        (UInt8.ofNat (0x80 + n / 4096 % 64)) = true :=
      isSecond_of (isContinuation_ofNat hupper) (by omega) (by omega) (by omega) (by omega)
    rw [decodeFrom_four _ _ (by omega) (by omega) hsecond (isContinuation_ofNat hlower)
      (isContinuation_ofNat hlast), hlead, payload_ofNat hupper, payload_ofNat hlower,
      payload_ofNat hlast]
    have hcode : (((0xF0 + n / 262144 - 0xF0) * 64 + n / 4096 % 64) * 64 + n / 64 % 64) * 64
        + n % 64 = n := by omega
    rw [hcode]
    rfl

theorem decodeFrom_encode (position : Nat) (s : List Char) :
    decodeFrom position (encode s) = .ok s := by
  induction s generalizing position with
  | nil => rfl
  | cons c rest ih =>
      rw [encode, List.flatMap_cons, decodeFrom_encodeChar]
      rw [encode] at ih
      rw [ih]
      rfl

theorem decode_encode (s : List Char) : decode (encode s) = .ok s :=
  decodeFrom_encode 0 s

end Utf8
end Text
end Palette
