import Mathlib.Data.List.Basic
import Mathlib.Data.List.TakeWhile
import Palette.Proofs.Json.Strings

/-!
# Numbers that are read back

A number is read up to the first character that cannot belong to it.  So what is read of a text
is also read where more follows, if the more does not go on with the number.
-/

namespace Palette
namespace Json

def NumberEnds (rest : List Char) : Prop :=
  forall c more, rest = c :: more -> c.isDigit = false ∧ c ≠ '.' ∧ c ≠ 'e' ∧ c ≠ 'E'

theorem numberEnds_nil : NumberEnds [] :=
  nofun

theorem numberEnds_cons {c : Char} (h : c.isDigit = false ∧ c ≠ '.' ∧ c ≠ 'e' ∧ c ≠ 'E')
    (rest : List Char) : NumberEnds (c :: rest) := by
  intro d more heq
  injection heq with hc _
  rw [← hc]
  exact h

theorem toNat_lt_of_isDigit {c : Char} (h : c.isDigit = true) : c.toNat < 0x80 := by
  rw [Char.isDigit, Bool.and_eq_true, decide_eq_true_eq, decide_eq_true_eq] at h
  exact Nat.lt_of_le_of_lt h.right (by decide)

theorem ne_of_isDigit {c d : Char} (hc : c.isDigit = true) (hd : d.isDigit = false) : c ≠ d := by
  intro heq
  rw [heq, hd] at hc
  cases hc

/-- A number with its sign. -/
def number? : List Char → Option (Json Decimal × List Char)
  | '-' :: rest => magnitude? true rest
  | s => magnitude? false s

theorem number?_of_ne {c : Char} (h : c ≠ '-') (s : List Char) :
    number? (c :: s) = magnitude? false (c :: s) := by
  rw [number?]
  intro rest heq
  injection heq with hc _
  exact h hc

/-- Whether a scalar is printed as a number of JSON with a point or an exponent. -/
def IsNumeral [Scalar ν] (x : ν) (d : Decimal) : Prop :=
  number? (Scalar.text realNames x) = some (.real d, [])

/-!
# Parts of a number
-/

def someDigits? (s : List Char) : Option (List Char × List Char) :=
  match digits s with
  | ([], _) => none
  | (ds, rest) => some (ds, rest)

/-- The sign of an exponent and what follows it. -/
def signOf : List Char → Int × List Char
  | '-' :: rest => (-1, rest)
  | '+' :: rest => (1, rest)
  | rest => (1, rest)

def power? (s : List Char) : Option (Option Int × List Char) :=
  (someDigits? (signOf s).2).map fun (ds, rest) =>
    (some ((signOf s).1 * decimalNumber ds), rest)

theorem fraction?_point (s : List Char) : fraction? ('.' :: s) = someDigits? s :=
  rfl

theorem fraction?_of_ne {c : Char} (h : c ≠ '.') (s : List Char) :
    fraction? (c :: s) = some ([], c :: s) := by
  rw [fraction?]
  intro rest heq
  injection heq with hc _
  exact h hc

theorem exponent?_letter {c : Char} (h : c = 'e' ∨ c = 'E') (s : List Char) :
    exponent? (c :: s) = power? s := by
  have hpower : forall (sign : Int) (s : List Char),
      (match digits s with
        | ([], _) => none
        | (ds, rest) => some (some (sign * decimalNumber ds), rest)) =
      (someDigits? s).map fun (ds, rest) => (some (sign * (decimalNumber ds : Int)), rest) := by
    intro sign s
    rw [someDigits?]
    split
    · rfl
    · rfl
  unfold exponent? power?
  dsimp only
  rw [if_pos h]
  split
  case h_1 rest =>
    exact hpower (-1) rest
  case h_2 rest =>
    exact hpower 1 rest
  case h_3 hminus hplus =>
    have hsign : signOf s = (1, s) := by
      rw [signOf]
      · exact hminus
      · exact hplus
    rw [hsign]
    exact hpower 1 s

theorem exponent?_of_ne {c : Char} (h : c ≠ 'e' ∧ c ≠ 'E') (s : List Char) :
    exponent? (c :: s) = some (none, c :: s) := by
  unfold exponent?
  exact if_neg fun hc => hc.elim h.left h.right

/-- The value of a number with its digits, those behind the point and its exponent. -/
def numberOf (negative : Bool) (whole part : List Char) (power : Option Int) : Json Decimal :=
  if part.isEmpty && power.isNone then
    let n : Int := decimalNumber whole
    .int (if negative then -n else n)
  else .real ⟨negative, decimalNumber (whole ++ part), power.getD 0 - part.length⟩

theorem magnitude?_eq_some_iff {negative : Bool} {s after : List Char} {value : Json Decimal} :
    magnitude? negative s = some (value, after) <->
      exists whole behind part more power, someDigits? s = some (whole, behind) ∧
        ¬(1 < whole.length ∧ whole.head? = some '0') ∧ fraction? behind = some (part, more) ∧
        exponent? more = some (power, after) ∧ numberOf negative whole part power = value := by
  rw [magnitude?, someDigits?]
  generalize digits s = read
  rcases read with ⟨whole, behind⟩
  cases whole with
  | nil =>
      constructor
      · intro h
        cases h
      · intro ⟨_, _, _, _, _, hwhole, _⟩
        cases hwhole
  | cons c whole =>
      have hnumber : forall part power (rest : List Char),
          (if part.isEmpty && power.isNone then
            some (.int (if negative then -(decimalNumber (c :: whole) : Int)
              else decimalNumber (c :: whole)), rest)
          else some (.real ⟨negative, decimalNumber (c :: whole ++ part),
            power.getD 0 - part.length⟩, rest)) =
          some (numberOf negative (c :: whole) part power, rest) := by
        intro part power rest
        rw [numberOf]
        split
        · rfl
        · rfl
      dsimp only
      constructor
      · intro h
        split at h
        case isTrue =>
          cases h
        case isFalse hzero =>
        split at h
        case h_1 =>
          cases h
        case h_2 part more hpart =>
        split at h
        case h_1 =>
          cases h
        case h_2 power rest hpower =>
          have hread := (hnumber part power rest).symm.trans h
          cases hread
          exact ⟨c :: whole, behind, part, more, power, rfl, hzero, hpart, hpower, rfl⟩
      · intro ⟨whole', behind', part, more, power, hwhole, hzero, hpart, hpower, hvalue⟩
        cases hwhole
        rw [if_neg hzero, hpart]
        dsimp only
        rw [hpower, ← hvalue]
        exact hnumber part power after

theorem signOf_append {s : List Char} (h : s ≠ []) (rest : List Char) :
    signOf (s ++ rest) = ((signOf s).1, (signOf s).2 ++ rest) := by
  cases s with
  | nil =>
      exact absurd rfl h
  | cons c s =>
      by_cases hminus : c = '-'
      · rw [hminus]
        rfl
      · by_cases hplus : c = '+'
        · rw [hplus]
          rfl
        · have hsign : forall t, signOf (c :: t) = (1, c :: t) := by
            intro t
            rw [signOf]
            · intro _ heq
              injection heq with hc _
              exact hminus hc
            · intro _ heq
              injection heq with hc _
              exact hplus hc
          rw [List.cons_append, hsign, hsign]
          rfl

/-!
# What follows a number
-/

section Append

variable {rest : List Char} (hrest : NumberEnds rest)

include hrest

theorem digits_append (s : List Char) :
    digits (s ++ rest) = ((digits s).1, (digits s).2 ++ rest) := by
  induction s with
  | nil =>
      cases rest with
      | nil =>
          rfl
      | cons c more =>
          have hc := (hrest c more rfl).left
          rw [List.nil_append, digits, List.takeWhile_cons, List.dropWhile_cons, hc]
          rfl
  | cons c s ih =>
      unfold digits at *
      rw [List.cons_append, List.takeWhile_cons, List.dropWhile_cons, List.takeWhile_cons,
        List.dropWhile_cons]
      cases hc : c.isDigit with
      | true =>
          rw [Prod.mk.injEq] at ih
          rw [if_pos rfl, if_pos rfl, if_pos rfl, if_pos rfl, ih.left, ih.right]
      | false =>
          rfl

theorem someDigits?_append {s ds after : List Char} (h : someDigits? s = some (ds, after)) :
    someDigits? (s ++ rest) = some (ds, after ++ rest) := by
  rw [someDigits?, digits_append hrest]
  rw [someDigits?] at h
  generalize digits s = read at h
  rcases read with ⟨ds', after'⟩
  cases ds' with
  | nil =>
      cases h
  | cons c ds' =>
      cases h
      rfl

theorem fraction?_append {s part after : List Char} (h : fraction? s = some (part, after)) :
    fraction? (s ++ rest) = some (part, after ++ rest) := by
  cases s with
  | nil =>
      cases h
      cases rest with
      | nil =>
          rfl
      | cons c more =>
          exact fraction?_of_ne (hrest c more rfl).right.left more
  | cons c s =>
      by_cases hc : c = '.'
      · rw [hc, fraction?_point] at h
        rw [hc, List.cons_append, fraction?_point]
        exact someDigits?_append hrest h
      · rw [fraction?_of_ne hc] at h
        cases h
        exact fraction?_of_ne hc (s ++ rest)

theorem power?_append {s after : List Char} {power : Option Int}
    (h : power? s = some (power, after)) : power? (s ++ rest) = some (power, after ++ rest) := by
  have hne : s ≠ [] := by
    intro hnil
    rw [hnil] at h
    cases h
  rw [power?, Option.map_eq_some_iff] at h
  rcases h with ⟨⟨ds, t⟩, hds, heq⟩
  cases heq
  rw [power?, signOf_append hne, someDigits?_append hrest hds]
  rfl

theorem exponent?_append {s after : List Char} {power : Option Int}
    (h : exponent? s = some (power, after)) :
    exponent? (s ++ rest) = some (power, after ++ rest) := by
  cases s with
  | nil =>
      cases h
      cases rest with
      | nil =>
          rfl
      | cons c more =>
          exact exponent?_of_ne (hrest c more rfl).right.right more
  | cons c s =>
      by_cases hc : c = 'e' ∨ c = 'E'
      · rw [exponent?_letter hc] at h
        rw [List.cons_append, exponent?_letter hc, power?_append hrest h]
      · rw [exponent?_of_ne (not_or.mp hc)] at h
        cases h
        exact exponent?_of_ne (not_or.mp hc) (s ++ rest)

theorem magnitude?_append {negative : Bool} {s after : List Char} {value : Json Decimal}
    (h : magnitude? negative s = some (value, after)) :
    magnitude? negative (s ++ rest) = some (value, after ++ rest) := by
  rcases magnitude?_eq_some_iff.mp h with
    ⟨whole, behind, part, more, power, hwhole, hzero, hpart, hpower, hvalue⟩
  exact magnitude?_eq_some_iff.mpr ⟨whole, behind ++ rest, part, more ++ rest, power,
    someDigits?_append hrest hwhole, hzero, fraction?_append hrest hpart,
    exponent?_append hrest hpower, hvalue⟩

theorem number?_append {s after : List Char} {value : Json Decimal}
    (h : number? s = some (value, after)) : number? (s ++ rest) = some (value, after ++ rest) := by
  cases s with
  | nil =>
      cases h
  | cons c s =>
      by_cases hminus : c = '-'
      · rw [hminus] at h
        rw [hminus]
        exact magnitude?_append hrest h
      · rw [number?_of_ne hminus] at h
        rw [List.cons_append, number?_of_ne hminus]
        exact magnitude?_append hrest h

end Append

/-!
# Characters of a number
-/

/-- Whether what is in front of a rest is in ASCII. -/
def Takes (s rest : List Char) : Prop :=
  exists front, s = front ++ rest ∧ IsAscii front

theorem Takes.refl (s : List Char) : Takes s s :=
  ⟨[], rfl, isAscii_nil⟩

theorem Takes.trans {s t u : List Char} (hst : Takes s t) (htu : Takes t u) : Takes s u := by
  rcases hst with ⟨front, rfl, hfront⟩
  rcases htu with ⟨back, rfl, hback⟩
  exact ⟨front ++ back, (List.append_assoc front back u).symm, isAscii_append.mpr ⟨hfront, hback⟩⟩

theorem takes_cons {c : Char} (h : c.toNat < 0x80) (s : List Char) : Takes (c :: s) s :=
  ⟨[c], rfl, isAscii_cons.mpr ⟨h, isAscii_nil⟩⟩

theorem takes_digits (s : List Char) : Takes s (digits s).2 := by
  refine ⟨(digits s).1, List.takeWhile_append_dropWhile.symm, ?_⟩
  intro c hc
  exact toNat_lt_of_isDigit (List.mem_takeWhile_imp hc)

theorem takes_someDigits? {s ds rest : List Char} (h : someDigits? s = some (ds, rest)) :
    Takes s rest := by
  have hdigits := takes_digits s
  rw [someDigits?] at h
  generalize digits s = read at h hdigits
  rcases read with ⟨ds', rest'⟩
  cases ds' with
  | nil =>
      cases h
  | cons c ds' =>
      cases h
      exact hdigits

theorem takes_fraction? {s part rest : List Char} (h : fraction? s = some (part, rest)) :
    Takes s rest := by
  cases s with
  | nil =>
      cases h
      exact Takes.refl []
  | cons c s =>
      by_cases hc : c = '.'
      · rw [hc, fraction?_point] at h
        rw [hc]
        exact (takes_cons (by decide) s).trans (takes_someDigits? h)
      · rw [fraction?_of_ne hc] at h
        cases h
        exact Takes.refl (c :: s)

theorem takes_power? {s rest : List Char} {power : Option Int}
    (h : power? s = some (power, rest)) : Takes s rest := by
  have hsign : Takes s (signOf s).2 := by
    unfold signOf
    split
    · exact takes_cons (by decide) _
    · exact takes_cons (by decide) _
    · exact Takes.refl s
  rw [power?, Option.map_eq_some_iff] at h
  rcases h with ⟨⟨ds, behind⟩, hds, heq⟩
  cases heq
  exact hsign.trans (takes_someDigits? hds)

theorem takes_exponent? {s rest : List Char} {power : Option Int}
    (h : exponent? s = some (power, rest)) : Takes s rest := by
  cases s with
  | nil =>
      cases h
      exact Takes.refl []
  | cons c s =>
      by_cases hc : c = 'e' ∨ c = 'E'
      · rw [exponent?_letter hc] at h
        have hlt : c.toNat < 0x80 := by
          rcases hc with rfl | rfl
          · decide
          · decide
        exact (takes_cons hlt s).trans (takes_power? h)
      · rw [exponent?_of_ne (not_or.mp hc)] at h
        cases h
        exact Takes.refl (c :: s)

theorem takes_magnitude? {negative : Bool} {s rest : List Char} {value : Json Decimal}
    (h : magnitude? negative s = some (value, rest)) : Takes s rest := by
  rcases magnitude?_eq_some_iff.mp h with
    ⟨whole, behind, part, more, power, hwhole, _, hpart, hpower, _⟩
  exact (takes_someDigits? hwhole).trans ((takes_fraction? hpart).trans (takes_exponent? hpower))

theorem takes_number? {s rest : List Char} {value : Json Decimal}
    (h : number? s = some (value, rest)) : Takes s rest := by
  cases s with
  | nil =>
      cases h
  | cons c s =>
      by_cases hminus : c = '-'
      · rw [hminus] at h
        rw [hminus]
        exact (takes_cons (by decide) s).trans (takes_magnitude? h)
      · rw [number?_of_ne hminus] at h
        exact takes_magnitude? h

theorem isAscii_of_number? {s : List Char} {value : Json Decimal}
    (h : number? s = some (value, [])) : IsAscii s := by
  rcases takes_number? h with ⟨front, rfl, hfront⟩
  rw [List.append_nil]
  exact hfront

theorem head_of_magnitude? {negative : Bool} {s rest : List Char} {value : Json Decimal}
    (h : magnitude? negative s = some (value, rest)) :
    exists c more, s = c :: more ∧ c.isDigit = true := by
  rcases magnitude?_eq_some_iff.mp h with ⟨whole, behind, _, _, _, hwhole, _⟩
  cases s with
  | nil =>
      cases hwhole
  | cons c more =>
      refine ⟨c, more, rfl, ?_⟩
      cases hc : c.isDigit with
      | true =>
          rfl
      | false =>
          rw [someDigits?, digits, List.takeWhile_cons, hc] at hwhole
          cases hwhole

theorem head_of_number? {s rest : List Char} {value : Json Decimal}
    (h : number? s = some (value, rest)) :
    exists c more, s = c :: more ∧ (c = '-' ∨ c.isDigit = true) := by
  cases s with
  | nil =>
      cases h
  | cons c s =>
      by_cases hminus : c = '-'
      · exact ⟨c, s, rfl, Or.inl hminus⟩
      · rw [number?_of_ne hminus] at h
        rcases head_of_magnitude? h with ⟨d, more, hs, hd⟩
        exact ⟨d, more, hs, Or.inr hd⟩

/-!
# Whole numbers
-/

theorem digits_of_all {ds : List Char} (h : forall c, c ∈ ds -> c.isDigit = true) :
    digits ds = (ds, []) := by
  rw [digits, List.takeWhile_eq_self_iff.mpr h, List.dropWhile_eq_nil_iff.mpr h]

theorem decimalNumber_toDigits (n : Nat) : decimalNumber (Nat.toDigits 10 n) = n :=
  Nat.ofDigitChars_ten_toDigits

theorem head?_toDigits {n : Nat} (h : 0 < n) : (Nat.toDigits 10 n).head? ≠ some '0' := by
  induction n using Nat.strongRecOn with
  | ind n ih =>
      by_cases hlt : n < 10
      · have hdigit : forall m : Fin 10, 0 < m.val -> m.val.digitChar ≠ '0' := by decide
        rw [Nat.toDigits_of_lt_base hlt]
        intro hhead
        injection hhead with hhead
        exact hdigit ⟨n, hlt⟩ h hhead
      · have hge : 10 ≤ n := Nat.le_of_not_lt hlt
        rw [Nat.toDigits_of_base_le (by decide) hge,
          List.head?_append_of_ne_nil _ Nat.toDigits_ne_nil]
        exact ih (n / 10) (Nat.div_lt_self h (by decide)) (Nat.div_pos hge (by decide))

theorem magnitude?_toDigits (negative : Bool) (n : Nat) :
    magnitude? negative (Nat.toDigits 10 n) = some (.int (if negative then -n else n), []) := by
  have hdigits : digits (Nat.toDigits 10 n) = (Nat.toDigits 10 n, []) :=
    digits_of_all fun c hc => Nat.isDigit_of_mem_toDigits (by decide) (Nat.le_refl 10) hc
  have hsome : someDigits? (Nat.toDigits 10 n) = some (Nat.toDigits 10 n, []) := by
    have hne : Nat.toDigits 10 n ≠ [] := Nat.toDigits_ne_nil
    rw [someDigits?, hdigits]
    generalize Nat.toDigits 10 n = ds at hne
    cases ds with
    | nil =>
        exact absurd rfl hne
    | cons c ds =>
        rfl
  have hzero : ¬(1 < (Nat.toDigits 10 n).length ∧ (Nat.toDigits 10 n).head? = some '0') := by
    intro ⟨hlength, hhead⟩
    cases n with
    | zero =>
        exact absurd hlength (by decide)
    | succ n =>
        exact head?_toDigits (Nat.succ_pos n) hhead
  refine magnitude?_eq_some_iff.mpr ⟨_, _, [], [], none, hsome, hzero, rfl, rfl, ?_⟩
  rw [numberOf, decimalNumber_toDigits]
  rfl

theorem number?_toString (i : Int) : number? (toString i).toList = some (.int i, []) := by
  cases i with
  | ofNat n =>
      have htext : (toString (Int.ofNat n)).toList = Nat.toDigits 10 n := Nat.toList_repr
      have hread := magnitude?_toDigits false n
      rw [htext]
      rcases head_of_magnitude? hread with ⟨c, more, hs, hc⟩
      rw [hs] at hread
      rw [hs, number?_of_ne (ne_of_isDigit hc (by decide)), hread]
      rfl
  | negSucc n =>
      have htext : (toString (Int.negSucc n)).toList = '-' :: Nat.toDigits 10 (n + 1) := by
        show ("-" ++ (n + 1).repr).toList = _
        rw [String.toList_append, Nat.toList_repr]
        rfl
      rw [htext]
      exact magnitude?_toDigits true (n + 1)

end Json
end Palette
