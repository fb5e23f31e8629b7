import Palette.Text.Quoted

/-!
# Phrases

A code point is a character or a surrogate.  Text that is decoded from bytes
consists of characters alone, but an escape by number may name a surrogate, so
what a document says is a phrase: a list of code points.  A surrogate is shown
by its code.
-/

namespace Palette

/-- A surrogate, by its code. -/
structure Surrogate where
  code : Nat
  first_le : 0xD800 ≤ code
  lt_end : code < 0xE000
deriving DecidableEq

inductive CodePoint where
  | char (c : Char)
  | surrogate (s : Surrogate)
deriving DecidableEq

namespace CodePoint

/-- The code point of a number below `0x110000`. -/
def ofNat (n : Nat) : CodePoint :=
  if h : 0xD800 ≤ n ∧ n < 0xE000 then surrogate ⟨n, h.left, h.right⟩ else char (Char.ofNat n)

def char? : CodePoint → Option Char
  | char c => some c
  | surrogate _ => none

def isSurrogate : CodePoint → Bool
  | char _ => false
  | surrogate _ => true

/-- The code point as it stands in a quoted phrase. -/
def quoted (quote : Char) : CodePoint → List Char
  | char c => Text.quotedChar quote c
  | surrogate s => Text.codeEscape s.code

end CodePoint

abbrev Phrase := List CodePoint

namespace Phrase

def ofChars (s : List Char) : Phrase :=
  s.map .char

def ofText (s : String) : Phrase :=
  ofChars s.toList

/-- The characters of a phrase, if there is no surrogate among them. -/
def chars? : Phrase → Option (List Char)
  | [] => some []
  | .char c :: rest => (chars? rest).map (c :: ·)
  | .surrogate _ :: _ => none

theorem chars?_ofChars (s : List Char) : chars? (ofChars s) = some s := by
  induction s with
  | nil =>
      rfl
  | cons c rest ih =>
      simp only [ofChars] at ih
      simp [ofChars, chars?, ih]

theorem chars?_eq_some_iff {p : Phrase} {s : List Char} :
    p.chars? = some s <-> p = .ofChars s := by
  constructor
  · intro h
    induction p generalizing s with
    | nil =>
        cases h
        rfl
    | cons point rest ih =>
        cases point with
        | char c =>
            rcases Option.map_eq_some_iff.mp h with ⟨more, hmore, hs⟩
            rw [← hs, ih hmore]
            rfl
        | surrogate s =>
            cases h
  · intro h
    rw [h, chars?_ofChars]

def text? (p : Phrase) : Option String :=
  p.chars?.map String.ofList

theorem text?_eq_some_iff {p : Phrase} {s : String} : p.text? = some s <-> p = .ofText s := by
  rw [text?, Option.map_eq_some_iff]
  constructor
  · rintro ⟨chars, hchars, rfl⟩
    rw [ofText, String.toList_ofList]
    exact chars?_eq_some_iff.mp hchars
  · intro h
    exact ⟨s.toList, chars?_eq_some_iff.mpr h, String.ofList_toList⟩

theorem ofText_injective : Function.Injective ofText := by
  intro s t h
  rw [← text?_eq_some_iff, text?_eq_some_iff.mpr rfl, Option.some.injEq] at h
  exact h

/-- What follows some characters at the start of a phrase. -/
def after? : List Char → Phrase → Option Phrase
  | [], p => some p
  | c :: front, .char d :: rest => if c = d then after? front rest else none
  | _ :: _, _ => none

/-- The character that stands for what is no text. -/
def replacement : Char :=
  Char.ofNat 0xFFFD

/-- The phrase as text, with a replacement for each surrogate. -/
def shown (p : Phrase) : String :=
  String.ofList (p.map fun point => point.char?.getD replacement)

/-! ## Quoted form -/

def quotedChars (p : Phrase) : List Char :=
  let quote := Text.quoteFor (p.filterMap CodePoint.char?)
  quote :: p.flatMap (CodePoint.quoted quote) ++ [quote]

def quoted (p : Phrase) : String :=
  String.ofList p.quotedChars

end Phrase
end Palette
