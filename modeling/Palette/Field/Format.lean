import Palette.Color.Index

/-!
# Formats

A format says how a colour is printed: as hexadecimal digits, as a decimal
byte, as a fraction, or as a part of its hue, saturation and luminance.  The
variant selects a channel or the whole colour.  Every pair of a kind and a
variant is a format, but only the pairs of a small grammar are supported.
-/

namespace Palette

inductive Kind where
  | hex
  | rgb
  | dec
  | hsl
deriving DecidableEq

inductive Variant where
  /-- The whole colour. -/
  | rgb
  | r
  | g
  | b
  /-- The whole colour with its bytes in reverse order. -/
  | bgr
  | h
  | s
  | l
deriving DecidableEq

namespace Kind

def text : Kind → String
  | hex => "hex"
  | rgb => "rgb"
  | dec => "dec"
  | hsl => "hsl"

def ofChars? : List Char → Option Kind
  | ['h', 'e', 'x'] => some hex
  | ['r', 'g', 'b'] => some rgb
  | ['d', 'e', 'c'] => some dec
  | ['h', 's', 'l'] => some hsl
  | _ => none

end Kind

namespace Variant

def text : Variant → String
  | rgb => "rgb"
  | r => "r"
  | g => "g"
  | b => "b"
  | bgr => "bgr"
  | h => "h"
  | s => "s"
  | l => "l"

def ofChars? : List Char → Option Variant
  | ['r', 'g', 'b'] => some rgb
  | ['r'] => some r
  | ['g'] => some g
  | ['b'] => some b
  | ['b', 'g', 'r'] => some bgr
  | ['h'] => some h
  | ['s'] => some s
  | ['l'] => some l
  | _ => none

end Variant

/-- The variants that are supported with a kind. -/
def Kind.variants : Kind → List Variant
  | .hex => [.rgb, .r, .g, .b, .bgr]
  | .rgb => [.r, .g, .b]
  | .dec => [.r, .g, .b]
  | .hsl => [.h, .s, .l]

structure Format where
  kind : Kind
  variant : Variant
deriving DecidableEq

namespace Format

def isSupported (f : Format) : Bool :=
  f.kind.variants.contains f.variant

/-- The whole colour in hexadecimal digits is the one format without a selector. -/
def text (f : Format) : String :=
  if f = ⟨.hex, .rgb⟩ then "hex" else f.kind.text ++ "-" ++ f.variant.text

/-- Splits at the first dash; there is no second part if there is no dash. -/
def splitDash : List Char → List Char × Option (List Char)
  | [] => ([], none)
  | c :: rest =>
      if c = '-' then ([], some rest)
      else
        match splitDash rest with
        | (before, after) => (c :: before, after)

/-- Reads a format.  The selector of the whole colour is never written out. -/
def ofChars? (s : List Char) : Option Format :=
  match splitDash s with
  | (word, selector) =>
      match Kind.ofChars? word, selector with
      | none, _ => none
      | some kind, none => if kind = .hex then some ⟨.hex, .rgb⟩ else none
      | some kind, some suffix =>
          match Variant.ofChars? suffix with
          | none => none
          | some variant =>
              if variant = .rgb ∨ !kind.variants.contains variant then none
              else some ⟨kind, variant⟩

def ofText? (s : String) : Option Format :=
  ofChars? s.toList

/-- Order by the texts of kind and variant. -/
def before (f g : Format) : Bool :=
  f.kind.text < g.kind.text || (f.kind == g.kind && f.variant.text < g.variant.text)

end Format
end Palette
