import Palette.Json.Printer
import Palette.Json.Reader
import Palette.Proofs.Text.HexDigits
import Palette.Proofs.Text.Surrogates

/-!
# Strings that are read back

Each code point of a text is printed as a chunk of its own: as itself, as an escape by a
letter, or as one or two escapes by number.  The reader undoes a chunk wherever it stands, but
for one case: of two escapes by number that can be a pair of surrogates it makes the character
of the pair, also where the text has two surrogates.  So a text comes back with its pairs of
surrogates joined, and this is all that is lost.
-/

namespace Palette

open CodePoint (IsHigh IsLow)

namespace Json

/-!
# Escapes by number
-/

theorem unit?_hexDigits {n : Nat} (h : n < 0x10000) (rest : List Char) :
    unit? (Text.hexDigits Text.lowerHexDigit 4 n ++ rest) = some (n, rest) := by
  have hhex : (Text.hexDigits Text.lowerHexDigit 4 n).all Text.isHexDigit = true :=
    List.all_eq_true.mpr fun _ hd =>
      Text.isHexDigit_of_mem_hexDigits Text.hexValue?_lowerHexDigit hd
  have hnumber : Text.hexNumber (Text.hexDigits Text.lowerHexDigit 4 n) = n := by
    rw [Text.hexNumber_hexDigits Text.hexValue?_lowerHexDigit]
    exact Nat.mod_eq_of_lt h
  have hlength := Text.length_hexDigits Text.lowerHexDigit 4 n
  generalize Text.hexDigits Text.lowerHexDigit 4 n = digits at hhex hnumber hlength
  match digits, hlength with
  | [a, b, c, d], _ =>
      show (if [a, b, c, d].all Text.isHexDigit then some (Text.hexNumber [a, b, c, d], rest)
        else none) = some (n, rest)
      rw [if_pos hhex, hnumber]

theorem escapedUnit?_unitEscape {n : Nat} (h : n < 0x10000) (rest : List Char) :
    escapedUnit? (unitEscape n ++ rest) = some (n, rest) :=
  unit?_hexDigits h rest

theorem stringPoint?_unitEscape {n : Nat} (h : n < 0x10000) (rest : List Char) :
    stringPoint? (unitEscape n ++ rest) =
      some (some (unitPoint n rest).1, (unitPoint n rest).2) := by
  show stringPoint? ('\\' :: 'u' :: (Text.hexDigits Text.lowerHexDigit 4 n ++ rest)) = _
  rw [stringPoint?, unit?_hexDigits h]

/-- Whether what follows starts with the escape of the second surrogate of a pair. -/
def StartsLow (s : List Char) : Prop :=
  exists n rest, escapedUnit? s = some (n, rest) ∧ IsLow n

theorem unitPoint_pair {high low : Nat} (hhigh : IsHigh high) (hlow : IsLow low)
    (rest : List Char) :
    unitPoint high (unitEscape low ++ rest) = (.ofPair high low, rest) := by
  have hlt : low < 0x10000 := Nat.lt_trans hlow.right (by decide)
  rw [unitPoint, escapedUnit?_unitEscape hlt]
  exact if_pos ⟨hhigh.left, hhigh.right, hlow.left, hlow.right⟩

theorem unitPoint_single {n : Nat} {rest : List Char} (h : IsHigh n -> ¬StartsLow rest) :
    unitPoint n rest = (.ofNat n, rest) := by
  rw [unitPoint]
  split
  case h_1 m after hunit =>
    rw [if_neg]
    rintro ⟨hle, hlt, hlow⟩
    exact h ⟨hle, hlt⟩ ⟨m, after, hunit, hlow⟩
  case h_2 =>
    rfl

/-!
# Chunks
-/

/-- What a character can be printed as. -/
inductive IsChunk (c : Char) : List Char → Prop where
  | letter {letter : Char} (h : simpleEscape? letter = some c) : IsChunk c ['\\', letter]
  | itself (hquote : c ≠ '"') (hslash : c ≠ '\\') (hge : 0x20 ≤ c.toNat) (hlt : c.toNat < 0x7F) :
      IsChunk c [c]
  | unit (h : c.toNat < 0x10000) : IsChunk c (unitEscape c.toNat)
  | pair {high low : Nat} (hhigh : IsHigh high) (hlow : IsLow low)
      (h : CodePoint.ofPair high low = .char c) : IsChunk c (unitEscape high ++ unitEscape low)

theorem isHigh_unit {n : Nat} (h : n < 0x110000) : IsHigh (0xD800 + (n - 0x10000) / 0x400) := by
  constructor
  · omega
  · omega

theorem isLow_unit (n : Nat) : IsLow (0xDC00 + (n - 0x10000) % 0x400) := by
  constructor
  · omega
  · omega

theorem ofPair_units {c : Char} (h : 0x10000 ≤ c.toNat) :
    CodePoint.ofPair (0xD800 + (c.toNat - 0x10000) / 0x400)
      (0xDC00 + (c.toNat - 0x10000) % 0x400) = .char c := by
  have hsum : 0x10000 + (0xD800 + (c.toNat - 0x10000) / 0x400 - 0xD800) * 0x400 +
      (0xDC00 + (c.toNat - 0x10000) % 0x400 - 0xDC00) = c.toNat := by omega
  rw [CodePoint.ofPair, hsum, CodePoint.ofNat_toNat]

theorem isChunk_escapeChar (c : Char) : IsChunk c (escapeChar c) := by
  have hcode := Char.ofNat_toNat c
  have hvalid : c.toNat < 0xD800 ∨ (0xDFFF < c.toNat ∧ c.toNat < 0x110000) := c.valid
  unfold escapeChar
  dsimp only
  split
  case isTrue h =>
    rcases h with rfl | rfl
    · exact .letter rfl
    · exact .letter rfl
  case isFalse hplain =>
  split
  case isTrue h =>
    rw [h]
    exact .letter rfl
  case isFalse =>
  split
  case isTrue h =>
    rw [h]
    exact .letter rfl
  case isFalse =>
  split
  case isTrue h =>
    rw [h]
    exact .letter rfl
  case isFalse =>
  split
  case isTrue h =>
    rw [h] at hcode
    rw [← hcode]
    exact .letter rfl
  case isFalse =>
  split
  case isTrue h =>
    rw [h] at hcode
    rw [← hcode]
    exact .letter rfl
  case isFalse =>
  split
  case isTrue h =>
    exact .itself (fun hc => hplain (Or.inl hc)) (fun hc => hplain (Or.inr hc)) h.left h.right
  case isFalse =>
  split
  case isTrue h =>
    exact .unit h
  case isFalse h =>
    exact .pair (isHigh_unit (by omega)) (isLow_unit c.toNat) (ofPair_units (Nat.le_of_not_lt h))

theorem ascii_of_simpleEscape? {c letter : Char} (h : simpleEscape? letter = some c) :
    letter.toNat < 0x80 ∧ c.toNat < 0x80 := by
  unfold simpleEscape? at h
  split at h
  case h_9 =>
    cases h
  all_goals
    injection h with hc
    rw [← hc]
    decide

theorem ne_of_simpleEscape? {c letter : Char} (h : simpleEscape? letter = some c) :
    letter ≠ 'u' := by
  rintro rfl
  cases h

theorem IsChunk.length_pos {c : Char} {chunk : List Char} (h : IsChunk c chunk) :
    0 < chunk.length := by
  cases h with
  | letter _ =>
      exact Nat.succ_pos 1
  | itself _ _ _ _ =>
      exact Nat.one_pos
  | unit _ =>
      exact Nat.succ_pos _
  | pair _ _ _ =>
      exact Nat.succ_pos _

theorem stringPoint?_letter {c letter : Char} (h : simpleEscape? letter = some c)
    (rest : List Char) : stringPoint? ('\\' :: letter :: rest) = some (some (.char c), rest) := by
  rw [stringPoint?, h]
  · rfl
  · exact ne_of_simpleEscape? h

theorem stringPoint?_itself {c : Char} (hquote : c ≠ '"') (hslash : c ≠ '\\')
    (h : 0x20 ≤ c.toNat) (rest : List Char) :
    stringPoint? (c :: rest) = some (some (.char c), rest) := by
  have hsmall : ¬(c.toNat < 0x20 ∨ c = '\\') := by
    rintro (hlt | heq)
    · exact Nat.not_lt_of_le h hlt
    · exact hslash heq
  rw [stringPoint?, if_neg hsmall]
  · exact hquote
  · intro _ heq _
    exact hslash heq
  · intro _ _ heq _
    exact hslash heq

theorem not_isHigh_toNat (c : Char) : ¬IsHigh c.toNat := by
  have hvalid : c.toNat < 0xD800 ∨ (0xDFFF < c.toNat ∧ c.toNat < 0x110000) := c.valid
  rintro ⟨hge, hlt⟩
  omega

theorem not_isLow_toNat (c : Char) : ¬IsLow c.toNat := by
  have hvalid : c.toNat < 0xD800 ∨ (0xDFFF < c.toNat ∧ c.toNat < 0x110000) := c.valid
  rintro ⟨hge, hlt⟩
  omega

theorem stringPoint?_pair {high low : Nat} (hhigh : IsHigh high) (hlow : IsLow low)
    (rest : List Char) :
    stringPoint? (unitEscape high ++ (unitEscape low ++ rest)) =
      some (some (.ofPair high low), rest) := by
  rw [stringPoint?_unitEscape (Nat.lt_trans hhigh.right (by decide)), unitPoint_pair hhigh hlow]

theorem stringPoint?_chunk {c : Char} {chunk : List Char} (h : IsChunk c chunk)
    (rest : List Char) : stringPoint? (chunk ++ rest) = some (some (.char c), rest) := by
  cases h with
  | letter h =>
      exact stringPoint?_letter h rest
  | itself hquote hslash hge _ =>
      exact stringPoint?_itself hquote hslash hge rest
  | unit h =>
      have hhigh : IsHigh c.toNat -> ¬StartsLow rest := fun h => absurd h (not_isHigh_toNat c)
      rw [stringPoint?_unitEscape h, unitPoint_single hhigh, CodePoint.ofNat_toNat]
  | pair hhigh hlow h =>
      rw [List.append_assoc, stringPoint?_pair hhigh hlow, h]

theorem not_startsLow_unitEscape {n : Nat} (h : n < 0x10000) (hlow : ¬IsLow n)
    (rest : List Char) : ¬StartsLow (unitEscape n ++ rest) := by
  rintro ⟨m, after, hunit, hm⟩
  rw [escapedUnit?_unitEscape h, Option.some.injEq, Prod.mk.injEq] at hunit
  rw [← hunit.left] at hm
  exact hlow hm

theorem not_startsLow_of_escapedUnit?_eq_none {s : List Char} (h : escapedUnit? s = none) :
    ¬StartsLow s := by
  rintro ⟨m, after, hunit, _⟩
  rw [h] at hunit
  cases hunit

theorem not_startsLow_chunk {c : Char} {chunk : List Char} (h : IsChunk c chunk)
    (rest : List Char) : ¬StartsLow (chunk ++ rest) := by
  cases h with
  | @letter letter h =>
      apply not_startsLow_of_escapedUnit?_eq_none
      show escapedUnit? ('\\' :: letter :: rest) = none
      rw [escapedUnit?]
      intro after heq
      injection heq with _ heq
      injection heq with hletter _
      exact ne_of_simpleEscape? h hletter
  | itself _ hslash _ _ =>
      apply not_startsLow_of_escapedUnit?_eq_none
      show escapedUnit? (c :: rest) = none
      rw [escapedUnit?]
      intro after heq
      injection heq with hc _
      exact hslash hc
  | unit h =>
      exact not_startsLow_unitEscape h (not_isLow_toNat c) rest
  | @pair high low hhigh _ _ =>
      have hlow : ¬IsLow high := fun hlow => Nat.not_lt_of_le hlow.left hhigh.right
      rw [List.append_assoc]
      exact not_startsLow_unitEscape (Nat.lt_trans hhigh.right (by decide)) hlow _

theorem stringPoint?_surrogate {s : Surrogate} {rest : List Char}
    (h : IsHigh s.code -> ¬StartsLow rest) :
    stringPoint? (unitEscape s.code ++ rest) = some (some (.surrogate s), rest) := by
  rw [stringPoint?_unitEscape (Nat.lt_trans s.lt_end (by decide)), unitPoint_single h,
    CodePoint.ofNat_code]

/-!
# Whole strings
-/

theorem stringPoints?_cons {fuel : Nat} {s rest after : List Char} {point : CodePoint}
    {points : Phrase} (hfuel : 0 < fuel) (h : stringPoint? s = some (some point, rest))
    (hrest : stringPoints? (fuel - 1) rest = some (points, after)) :
    stringPoints? fuel s = some (point :: points, after) := by
  cases fuel with
  | zero =>
      cases hfuel
  | succ fuel =>
      rw [Nat.add_sub_cancel] at hrest
      rw [stringPoints?, h]
      dsimp only
      rw [hrest]
      rfl

theorem stringPoints?_close {fuel : Nat} (hfuel : 0 < fuel) (rest : List Char) :
    stringPoints? fuel ('"' :: rest) = some ([], rest) := by
  cases fuel with
  | zero =>
      cases hfuel
  | succ fuel =>
      rfl

theorem not_startsLow_chunks {p : Phrase} (h : forall s more, p ≠ .surrogate s :: more)
    (rest : List Char) : ¬StartsLow (p.flatMap escapePoint ++ '"' :: rest) := by
  cases p with
  | nil =>
      exact not_startsLow_of_escapedUnit?_eq_none rfl
  | cons point more =>
      cases point with
      | char c =>
          rw [List.flatMap_cons, List.append_assoc]
          exact not_startsLow_chunk (isChunk_escapeChar c) _
      | surrogate s =>
          exact absurd rfl (h s more)

theorem stringPoints?_chunks {p : Phrase} {fuel : Nat} (hfuel : p.length < fuel)
    (rest : List Char) :
    stringPoints? fuel (p.flatMap escapePoint ++ '"' :: rest) = some (p.joined, rest) := by
  have hpos : 0 < fuel := Nat.zero_lt_of_lt hfuel
  fun_induction Phrase.joined p generalizing fuel with
  | case1 high low more hpair ih =>
      rw [List.length_cons, List.length_cons] at hfuel
      rw [List.flatMap_cons, List.flatMap_cons, List.append_assoc, List.append_assoc]
      exact stringPoints?_cons hpos (stringPoint?_pair hpair.left hpair.right _)
        (ih (by omega) (by omega))
  | case2 high low more hpair ih =>
      have hnext : IsHigh high.code ->
          ¬StartsLow ((.surrogate low :: more : Phrase).flatMap escapePoint ++ '"' :: rest) := by
        intro hhigh
        rw [List.flatMap_cons, List.append_assoc]
        exact not_startsLow_unitEscape (Nat.lt_trans low.lt_end (by decide))
          (fun hlow => hpair ⟨hhigh, hlow⟩) _
      rw [List.length_cons] at hfuel
      rw [List.flatMap_cons, List.append_assoc]
      exact stringPoints?_cons hpos (stringPoint?_surrogate hnext) (ih (by omega) (by omega))
  | case3 point more hhead ih =>
      rw [List.length_cons] at hfuel
      rw [List.flatMap_cons, List.append_assoc]
      refine stringPoints?_cons hpos ?_ (ih (by omega) (by omega))
      cases point with
      | char c =>
          exact stringPoint?_chunk (isChunk_escapeChar c) _
      | surrogate s =>
          exact stringPoint?_surrogate fun _ =>
            not_startsLow_chunks (fun low after hmore => hhead s low after rfl hmore) rest
  | case4 =>
      exact stringPoints?_close hpos rest

theorem length_le_flatMap_escapePoint (p : Phrase) : p.length ≤ (p.flatMap escapePoint).length := by
  induction p with
  | nil =>
      exact Nat.le_refl 0
  | cons point rest ih =>
      have hpos : 0 < (escapePoint point).length := by
        cases point with
        | char c =>
            exact (isChunk_escapeChar c).length_pos
        | surrogate code =>
            exact Nat.succ_pos _
      rw [List.flatMap_cons, List.length_append, List.length_cons]
      omega

theorem string?_printText (p : Phrase) (rest : List Char) :
    string? (p.flatMap escapePoint ++ '"' :: rest) = some (p.joined, rest) := by
  have hlength := length_le_flatMap_escapePoint p
  rw [string?, List.length_append]
  exact stringPoints?_chunks (by omega) rest

theorem printText_append (p : Phrase) (rest : List Char) :
    printText p ++ rest = '"' :: (p.flatMap escapePoint ++ '"' :: rest) := by
  rw [printText, List.cons_append, List.cons_append, List.append_assoc, List.singleton_append]

theorem escapePoint_ofPair {high low : Nat} (hhigh : IsHigh high) (hlow : IsLow low) :
    escapePoint (.ofPair high low) = unitEscape high ++ unitEscape low := by
  rcases CodePoint.exists_char_of_pair hhigh hlow with ⟨c, hc, htoNat⟩
  rw [hc]
  show escapeChar c = unitEscape high ++ unitEscape low
  have hchunk := isChunk_escapeChar c
  generalize escapeChar c = chunk at hchunk
  cases hchunk with
  | letter h =>
      have hlt := (ascii_of_simpleEscape? h).right
      omega
  | itself _ _ _ hlt =>
      omega
  | unit hlt =>
      omega
  | pair hfirst hsecond h =>
      rcases CodePoint.ofPair_injective hfirst hsecond hhigh hlow (h.trans hc.symm) with ⟨rfl, rfl⟩
      rfl

theorem printText_joined (p : Phrase) : printText p.joined = printText p := by
  have hchunks : p.joined.flatMap escapePoint = p.flatMap escapePoint := by
    fun_induction Phrase.joined p with
    | case1 high low more hpair ih =>
        rw [List.flatMap_cons, List.flatMap_cons, List.flatMap_cons, ih,
          escapePoint_ofPair hpair.left hpair.right, List.append_assoc]
        rfl
    | case2 high low more _ ih =>
        rw [List.flatMap_cons, List.flatMap_cons, ih]
    | case3 point more _ ih =>
        rw [List.flatMap_cons, List.flatMap_cons, ih]
    | case4 =>
        rfl
  rw [printText, printText, hchunks]

/-!
# Characters of a string
-/

def IsAscii (s : List Char) : Prop :=
  forall c, c ∈ s -> c.toNat < 0x80

instance (s : List Char) : Decidable (IsAscii s) :=
  decidable_of_iff (s.all (fun c => decide (c.toNat < 0x80)) = true)
    (by simp only [List.all_eq_true, decide_eq_true_eq, IsAscii])

theorem isAscii_nil : IsAscii [] :=
  nofun

theorem isAscii_cons {c : Char} {s : List Char} : IsAscii (c :: s) <-> c.toNat < 0x80 ∧ IsAscii s :=
  List.forall_mem_cons

theorem isAscii_append {s t : List Char} : IsAscii (s ++ t) <-> IsAscii s ∧ IsAscii t :=
  List.forall_mem_append

theorem isAscii_unitEscape (n : Nat) : IsAscii (unitEscape n) := by
  refine isAscii_cons.mpr ⟨by decide, isAscii_cons.mpr ⟨by decide, ?_⟩⟩
  intro c hc
  exact Text.toNat_lt_of_isHexDigit
    (Text.isHexDigit_of_mem_hexDigits Text.hexValue?_lowerHexDigit hc)

theorem IsChunk.isAscii {c : Char} {chunk : List Char} (h : IsChunk c chunk) : IsAscii chunk := by
  cases h with
  | letter h =>
      exact isAscii_cons.mpr ⟨by decide, isAscii_cons.mpr ⟨(ascii_of_simpleEscape? h).left,
        isAscii_nil⟩⟩
  | itself _ _ _ hlt =>
      exact isAscii_cons.mpr ⟨Nat.lt_trans hlt (by decide), isAscii_nil⟩
  | unit _ =>
      exact isAscii_unitEscape c.toNat
  | @pair high low _ _ _ =>
      exact isAscii_append.mpr ⟨isAscii_unitEscape high, isAscii_unitEscape low⟩

theorem isAscii_printText (p : Phrase) : IsAscii (printText p) := by
  refine isAscii_cons.mpr ⟨by decide, isAscii_append.mpr ⟨?_, by decide⟩⟩
  intro c hc
  rcases List.mem_flatMap.mp hc with ⟨point, _, hmem⟩
  cases point with
  | char d =>
      exact (isChunk_escapeChar d).isAscii c hmem
  | surrogate s =>
      exact isAscii_unitEscape s.code c hmem

end Json
end Palette
