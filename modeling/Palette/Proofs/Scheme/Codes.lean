import Palette.Color.Rgb
import Palette.Proofs.Text.HexDigits

/-!
# Codes of indices and colours

The key of a colour is a word and two hexadecimal digits, and a colour is six of them.
Whatever does not decode is refused with the fault that says what is missing.
-/

namespace Palette

theorem Phrase.after?_eq_some_iff {front : List Char} {p q : Phrase} :
    p.after? front = some q <-> p = .ofChars front ++ q := by
  induction front generalizing p with
  | nil =>
      rw [after?, Option.some.injEq]
      rfl
  | cons c front ih =>
      cases p with
      | nil =>
          constructor
          · intro h
            cases h
          · intro h
            cases h
      | cons point rest =>
          cases point with
          | char d =>
              have hsplit : CodePoint.char d :: rest = Phrase.ofChars (c :: front) ++ q <->
                  c = d ∧ rest = Phrase.ofChars front ++ q := by
                show _ = CodePoint.char c :: (Phrase.ofChars front ++ q) <-> _
                rw [List.cons.injEq, CodePoint.char.injEq, eq_comm]
              rw [hsplit, after?]
              by_cases hc : c = d
              · rw [if_pos hc, ih]
                exact (and_iff_right hc).symm
              · rw [if_neg hc]
                exact iff_of_false nofun fun h => hc h.left
          | surrogate code =>
              constructor
              · intro h
                cases h
              · intro h
                cases h

namespace Text

/-- One of the digits of either case. -/
def IsHex (c : Char) : Prop :=
  c ∈ lowerDigits ∨ c ∈ upperDigits

theorem isHex_iff {c : Char} : IsHex c <-> exists n, hexValue? c = some n := by
  simp only [hexValue?_eq_some_iff]
  constructor
  · rintro (h | h)
    · rcases List.mem_iff_getElem?.mp h with ⟨n, hn⟩
      exact ⟨n, Or.inl hn⟩
    · rcases List.mem_iff_getElem?.mp h with ⟨n, hn⟩
      exact ⟨n, Or.inr hn⟩
  · rintro ⟨n, h | h⟩
    · exact Or.inl (List.mem_of_getElem? h)
    · exact Or.inr (List.mem_of_getElem? h)

/-- The digits of the two halves of a byte, each of either case. -/
def AreDigitsOf (high low : Char) (b : Byte) : Prop :=
  IsDigitOf high (b.val / 16) ∧ IsDigitOf low (b.val % 16)

theorem byteOfHex?_iff {high low : Char} {b : Byte} :
    byteOfHex? high low = some b <-> AreDigitsOf high low b :=
  byteOfHex?_eq_some_iff

theorem exists_areDigitsOf_iff {high low : Char} :
    (exists b, AreDigitsOf high low b) <-> IsHex high ∧ IsHex low := by
  simp only [isHex_iff, ← byteOfHex?_iff]
  unfold byteOfHex?
  constructor
  · rintro ⟨b, h⟩
    split at h
    case h_1 m n hhigh hlow =>
      exact ⟨⟨m, hhigh⟩, ⟨n, hlow⟩⟩
    case h_2 =>
      cases h
  · rintro ⟨⟨m, hhigh⟩, ⟨n, hlow⟩⟩
    rw [hhigh, hlow]
    exact ⟨_, rfl⟩

end Text

variable {ν : Type}

/-!
# Keys
-/

namespace Index

/-- A text of the word and two digits. -/
def IsKey (d : Datum ν) : Prop :=
  exists high low,
    d = .text (.ofChars (word ++ [high, low])) ∧ Text.IsHex high ∧ Text.IsHex low

def IsKeyOf (d : Datum ν) (i : Index) : Prop :=
  exists high low,
    d = .text (.ofChars (word ++ [high, low])) ∧ Text.AreDigitsOf high low i.byte

/-- What is wrong with a datum that is no key. -/
inductive KeyFault : Datum ν → CodeFault ν → Prop where
  | start {d : Datum ν} : (forall rest, d ≠ .text (.ofChars word ++ rest)) →
      KeyFault d (.notIndex d)
  | digits {rest : Phrase} : ¬IsKey (.text (.ofChars word ++ rest) : Datum ν) →
      KeyFault (.text (.ofChars word ++ rest)) (.indexDigits (.text (.ofChars word ++ rest)))

theorem ofDigits?_eq_some_iff {digits : List Char} {i : Index} :
    ofDigits? digits = some i <->
      exists high low, digits = [high, low] ∧ Text.AreDigitsOf high low i.byte := by
  constructor
  · intro h
    unfold ofDigits? at h
    split at h
    case h_1 high low =>
      rcases Option.map_eq_some_iff.mp h with ⟨b, hb, hi⟩
      refine ⟨high, low, rfl, ?_⟩
      rw [← hi]
      exact Text.byteOfHex?_iff.mp hb
    case h_2 =>
      cases h
  · rintro ⟨high, low, hdigits, hb⟩
    rw [hdigits, ofDigits?, Text.byteOfHex?_iff.mpr hb]
    rfl

theorem parse_text_word (digits : Phrase) :
    (parse (.text (.ofChars word ++ digits)) : Except (CodeFault ν) Index) =
      match digits.chars?.bind ofDigits? with
      | some i => .ok i
      | none => .error (.indexDigits (.text (.ofChars word ++ digits))) := by
  have hafter : Phrase.after? word (.ofChars word ++ digits) = some digits :=
    Phrase.after?_eq_some_iff.mpr rfl
  cases hdigits : digits.chars?.bind ofDigits? with
  | none =>
      simp only [parse, parsePhrase, hafter, hdigits]
  | some i =>
      simp only [parse, parsePhrase, hafter, hdigits]

theorem parse_of_not_word {d : Datum ν} (h : forall rest, d ≠ .text (.ofChars word ++ rest)) :
    (parse d : Except (CodeFault ν) Index) = .error (.notIndex d) := by
  cases d with
  | text p =>
      rw [parse, parsePhrase]
      cases hafter : p.after? word with
      | none =>
          rfl
      | some rest =>
          rw [Phrase.after?_eq_some_iff.mp hafter] at h
          exact absurd rfl (h rest)
  | _ =>
      rfl

theorem parse_eq_ok_iff {d : Datum ν} {i : Index} :
    (parse d : Except (CodeFault ν) Index) = .ok i <-> IsKeyOf d i := by
  constructor
  · intro h
    by_cases hword : exists rest, d = .text (.ofChars word ++ rest)
    · rcases hword with ⟨rest, hd⟩
      rw [hd, parse_text_word] at h
      split at h
      case h_1 j hj =>
        injection h with hindex
        rw [hindex] at hj
        rcases Option.bind_eq_some_iff.mp hj with ⟨digits, hchars, hdigits⟩
        rcases ofDigits?_eq_some_iff.mp hdigits with ⟨high, low, hpair, hb⟩
        refine ⟨high, low, ?_, hb⟩
        rw [hd, Phrase.chars?_eq_some_iff.mp hchars, hpair]
        rfl
      case h_2 =>
        cases h
    · rw [parse_of_not_word fun rest hd => hword ⟨rest, hd⟩] at h
      cases h
  · rintro ⟨high, low, hd, hb⟩
    have hdigits : ofDigits? [high, low] = some i := ofDigits?_eq_some_iff.mpr ⟨high, low, rfl, hb⟩
    have hsplit : (Phrase.ofChars (word ++ [high, low])) =
        Phrase.ofChars word ++ Phrase.ofChars [high, low] :=
      List.map_append
    rw [hd, hsplit, parse_text_word, Phrase.chars?_ofChars, Option.bind_some, hdigits]

theorem exists_parse_iff {d : Datum ν} :
    (exists i, (parse d : Except (CodeFault ν) Index) = .ok i) <-> IsKey d := by
  constructor
  · rintro ⟨i, h⟩
    rcases parse_eq_ok_iff.mp h with ⟨high, low, hd, hb⟩
    exact ⟨high, low, hd, Text.exists_areDigitsOf_iff.mp ⟨i.byte, hb⟩⟩
  · rintro ⟨high, low, hd, hdigits⟩
    rcases Text.exists_areDigitsOf_iff.mpr hdigits with ⟨b, hb⟩
    exact ⟨⟨b⟩, parse_eq_ok_iff.mpr ⟨high, low, hd, hb⟩⟩

theorem parse_word_of_not_isKey {rest : Phrase}
    (h : ¬IsKey (.text (.ofChars word ++ rest) : Datum ν)) :
    (parse (.text (.ofChars word ++ rest)) : Except (CodeFault ν) Index) =
      .error (.indexDigits (.text (.ofChars word ++ rest))) := by
  cases hparse : (parse (.text (.ofChars word ++ rest)) : Except (CodeFault ν) Index) with
  | ok i =>
      exact absurd (exists_parse_iff.mp ⟨i, hparse⟩) h
  | error fault =>
      rw [parse_text_word] at hparse
      split at hparse
      case h_1 =>
        cases hparse
      case h_2 =>
        exact hparse.symm

theorem parse_eq_error_iff {d : Datum ν} {fault : CodeFault ν} :
    parse d = .error fault <-> KeyFault d fault := by
  constructor
  · intro h
    have hkey : ¬IsKey d := by
      intro hkey
      rcases exists_parse_iff.mpr hkey with ⟨i, hi⟩
      rw [h] at hi
      cases hi
    by_cases hword : exists rest, d = .text (.ofChars word ++ rest)
    · rcases hword with ⟨rest, hd⟩
      rw [hd] at h hkey ⊢
      rw [parse_word_of_not_isKey hkey] at h
      injection h with hfault
      rw [← hfault]
      exact KeyFault.digits hkey
    · have hstart : forall rest, d ≠ .text (.ofChars word ++ rest) := by
        intro rest hd
        exact hword ⟨rest, hd⟩
      rw [parse_of_not_word hstart] at h
      injection h with hfault
      rw [← hfault]
      exact KeyFault.start hstart
  · intro h
    cases h with
    | start hstart =>
        exact parse_of_not_word hstart
    | digits hkey =>
        exact parse_word_of_not_isKey hkey

end Index

/-!
# Values
-/

namespace Rgb

def IsCode (d : Datum ν) : Prop :=
  exists digits : List Char,
    d = .text (.ofChars digits) ∧ digits.length = 6 ∧ forall c, c ∈ digits -> Text.IsHex c

inductive ValueFault : Datum ν → CodeFault ν → Prop where
  | notText {d : Datum ν} : (forall p, d ≠ .text p) → ValueFault d (.notColor d)
  | digits {p : Phrase} : ¬IsCode (.text p : Datum ν) →
      ValueFault (.text p) (.colorDigits (.text p))

theorem ofDigits?_eq_some_iff {digits : List Char} {c : Rgb} :
    ofDigits? digits = some c <->
      exists r₁ r₂ g₁ g₂ b₁ b₂, digits = [r₁, r₂, g₁, g₂, b₁, b₂] ∧
        Text.AreDigitsOf r₁ r₂ c.red ∧ Text.AreDigitsOf g₁ g₂ c.green ∧
        Text.AreDigitsOf b₁ b₂ c.blue := by
  constructor
  · intro h
    unfold ofDigits? at h
    split at h
    case h_1 r₁ r₂ g₁ g₂ b₁ b₂ =>
      split at h
      case h_1 red green blue hred hgreen hblue =>
        injection h with hc
        rw [← hc]
        exact ⟨r₁, r₂, g₁, g₂, b₁, b₂, rfl, Text.byteOfHex?_iff.mp hred,
          Text.byteOfHex?_iff.mp hgreen, Text.byteOfHex?_iff.mp hblue⟩
      case h_2 =>
        cases h
    case h_2 =>
      cases h
  · rintro ⟨r₁, r₂, g₁, g₂, b₁, b₂, hdigits, hred, hgreen, hblue⟩
    rw [hdigits, ofDigits?, Text.byteOfHex?_iff.mpr hred, Text.byteOfHex?_iff.mpr hgreen,
      Text.byteOfHex?_iff.mpr hblue]

theorem parse_eq_ok_iff {d : Datum ν} {c : Rgb} :
    (parse d : Except (CodeFault ν) Rgb) = .ok c <->
      exists digits, d = .text (.ofChars digits) ∧ ofDigits? digits = some c := by
  constructor
  · intro h
    cases d with
    | text p =>
        rw [parse, parsePhrase] at h
        split at h
        case h_1 other hother =>
          injection h with hc
          rw [hc] at hother
          rcases Option.bind_eq_some_iff.mp hother with ⟨digits, hchars, hdigits⟩
          refine ⟨digits, ?_, hdigits⟩
          rw [Phrase.chars?_eq_some_iff.mp hchars]
        case h_2 =>
          cases h
    | _ =>
        cases h
  · rintro ⟨digits, hd, hdigits⟩
    rw [hd, parse, parsePhrase, Phrase.chars?_ofChars, Option.bind_some, hdigits]

theorem exists_parse_iff {d : Datum ν} :
    (exists c, (parse d : Except (CodeFault ν) Rgb) = .ok c) <-> IsCode d := by
  constructor
  · rintro ⟨c, h⟩
    rcases parse_eq_ok_iff.mp h with ⟨digits, hd, hdigits⟩
    rcases ofDigits?_eq_some_iff.mp hdigits with
      ⟨r₁, r₂, g₁, g₂, b₁, b₂, hlist, hred, hgreen, hblue⟩
    have hr := Text.exists_areDigitsOf_iff.mp ⟨c.red, hred⟩
    have hg := Text.exists_areDigitsOf_iff.mp ⟨c.green, hgreen⟩
    have hb := Text.exists_areDigitsOf_iff.mp ⟨c.blue, hblue⟩
    refine ⟨digits, hd, by rw [hlist]; rfl, ?_⟩
    rw [hlist]
    simp only [List.forall_mem_cons]
    exact ⟨hr.left, hr.right, hg.left, hg.right, hb.left, hb.right, nofun⟩
  · rintro ⟨digits, hd, hlength, hall⟩
    rcases digits with _ | ⟨r₁, _ | ⟨r₂, _ | ⟨g₁, _ | ⟨g₂, _ | ⟨b₁, _ | ⟨b₂, rest⟩⟩⟩⟩⟩⟩
    all_goals try cases hlength
    have hrest : rest = [] := by
      apply List.eq_nil_of_length_eq_zero
      simpa using hlength
    rw [hrest] at hd hall
    simp only [List.forall_mem_cons] at hall
    rcases hall with ⟨hr₁, hr₂, hg₁, hg₂, hb₁, hb₂, _⟩
    rcases Text.exists_areDigitsOf_iff.mpr ⟨hr₁, hr₂⟩ with ⟨red, hred⟩
    rcases Text.exists_areDigitsOf_iff.mpr ⟨hg₁, hg₂⟩ with ⟨green, hgreen⟩
    rcases Text.exists_areDigitsOf_iff.mpr ⟨hb₁, hb₂⟩ with ⟨blue, hblue⟩
    refine ⟨⟨red, green, blue⟩, parse_eq_ok_iff.mpr ⟨_, hd, ?_⟩⟩
    exact ofDigits?_eq_some_iff.mpr ⟨r₁, r₂, g₁, g₂, b₁, b₂, rfl, hred, hgreen, hblue⟩

theorem parse_of_not_text {d : Datum ν} (h : forall p, d ≠ .text p) :
    (parse d : Except (CodeFault ν) Rgb) = .error (.notColor d) := by
  cases d with
  | text p =>
      exact absurd rfl (h p)
  | _ =>
      rfl

theorem parse_text_of_not_isCode {p : Phrase} (h : ¬IsCode (.text p : Datum ν)) :
    (parse (.text p) : Except (CodeFault ν) Rgb) = .error (.colorDigits (.text p)) := by
  cases hparse : (parse (.text p) : Except (CodeFault ν) Rgb) with
  | ok c =>
      exact absurd (exists_parse_iff.mp ⟨c, hparse⟩) h
  | error fault =>
      rw [parse, parsePhrase] at hparse
      split at hparse
      case h_1 =>
        cases hparse
      case h_2 =>
        exact hparse.symm

theorem parse_eq_error_iff {d : Datum ν} {fault : CodeFault ν} :
    parse d = .error fault <-> ValueFault d fault := by
  constructor
  · intro h
    have hcode : ¬IsCode d := by
      intro hcode
      rcases exists_parse_iff.mpr hcode with ⟨c, hc⟩
      rw [h] at hc
      cases hc
    by_cases htext : exists p, d = .text p
    · rcases htext with ⟨p, hd⟩
      rw [hd] at h hcode ⊢
      rw [parse_text_of_not_isCode hcode] at h
      injection h with hfault
      rw [← hfault]
      exact ValueFault.digits hcode
    · have hnot : forall p, d ≠ .text p := fun p hd => htext ⟨p, hd⟩
      rw [parse_of_not_text hnot] at h
      injection h with hfault
      rw [← hfault]
      exact ValueFault.notText hnot
  · intro h
    cases h with
    | notText hnot =>
        exact parse_of_not_text hnot
    | digits hcode =>
        exact parse_text_of_not_isCode hcode

end Rgb
end Palette
