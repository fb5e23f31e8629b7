import Palette.Text.Phrase

/-!
# UTF-8

Decoding accepts exactly the shortest encodings of Unicode scalar values.  The
first fault ends it and is described by its place, its length and its cause:
a byte that starts no character, a byte that does not continue one, or the end
of the bytes inside a character.  Surrogates have no encoding.
-/

namespace Palette
namespace Text

abbrev Bytes := List UInt8

namespace Utf8

inductive Cause where
  | invalidStart
  | invalidContinuation
  | unexpectedEnd
deriving DecidableEq

/-- The `length` bytes at `position`, the first of which is `byte`, cannot be decoded. -/
structure Fault where
  cause : Cause
  position : Nat
  byte : UInt8
  length : Nat
deriving DecidableEq

def Cause.message : Cause → String
  | invalidStart => "invalid start byte"
  | invalidContinuation => "invalid continuation byte"
  | unexpectedEnd => "unexpected end of data"

def Fault.message (fault : Fault) : String :=
  let place :=
    if fault.length = 1 then
      "byte 0x" ++ String.ofList (hexDigits lowerHexDigit 2 fault.byte.toNat) ++
        " in position " ++ toString fault.position
    else
      "bytes in position " ++ toString fault.position ++ "-" ++
        toString (fault.position + fault.length - 1)
  "'utf-8' codec can't decode " ++ place ++ ": " ++ fault.cause.message

/-! ## Decoding -/

def isContinuation (b : UInt8) : Bool :=
  0x80 ≤ b && b < 0xC0

/-- Whether `b` may follow the lead byte `lead`: after four of the lead bytes
only part of the continuation bytes avoids longer encodings than needed,
surrogates, and codes beyond the last. -/
def isSecond (lead b : UInt8) : Bool :=
  isContinuation b &&
    (if lead = 0xE0 then 0xA0 ≤ b
      else if lead = 0xED then b < 0xA0
      else if lead = 0xF0 then 0x90 ≤ b
      else if lead = 0xF4 then b < 0x90
      else true)

/-- The six bits that a continuation byte carries. -/
def payload (b : UInt8) : Nat :=
  b.toNat % 64

def decodeFrom (position : Nat) : Bytes → Except Fault (List Char)
  | [] => .ok []
  | b :: rest =>
      let fail (cause : Cause) (length : Nat) : Except Fault (List Char) :=
        .error ⟨cause, position, b, length⟩
      if b < 0x80 then
        (decodeFrom (position + 1) rest).map (Char.ofNat b.toNat :: ·)
      else if b < 0xC2 then fail .invalidStart 1
      else if b < 0xE0 then
        match rest with
        | [] => fail .unexpectedEnd 1
        | c :: rest =>
            if !isContinuation c then fail .invalidContinuation 1
            else
              (decodeFrom (position + 2) rest).map
                (Char.ofNat ((b.toNat - 0xC0) * 64 + payload c) :: ·)
      else if b < 0xF0 then
        match rest with
        | [] => fail .unexpectedEnd 1
        | c :: rest =>
            if !isSecond b c then fail .invalidContinuation 1
            else
              match rest with
              | [] => fail .unexpectedEnd 2
              | d :: rest =>
                  if !isContinuation d then fail .invalidContinuation 2
                  else
                    (decodeFrom (position + 3) rest).map
                      (Char.ofNat (((b.toNat - 0xE0) * 64 + payload c) * 64 + payload d) :: ·)
      else if b < 0xF5 then
        match rest with
        | [] => fail .unexpectedEnd 1
        | c :: rest =>
            if !isSecond b c then fail .invalidContinuation 1
            else
              match rest with
              | [] => fail .unexpectedEnd 2
              | d :: rest =>
                  if !isContinuation d then fail .invalidContinuation 2
                  else
                    match rest with
                    | [] => fail .unexpectedEnd 3
                    | e :: rest =>
                        if !isContinuation e then fail .invalidContinuation 3
                        else
                          (decodeFrom (position + 4) rest).map
                            (Char.ofNat ((((b.toNat - 0xF0) * 64 + payload c) * 64 + payload d) * 64
                              + payload e) :: ·)
      else fail .invalidStart 1

def decode (bytes : Bytes) : Except Fault (List Char) :=
  decodeFrom 0 bytes

/-! ## Encoding -/

def encodeChar (c : Char) : Bytes :=
  let n := c.toNat
  if n < 0x80 then [UInt8.ofNat n]
  else if n < 0x800 then [UInt8.ofNat (0xC0 + n / 64), UInt8.ofNat (0x80 + n % 64)]
  else if n < 0x10000 then
    [UInt8.ofNat (0xE0 + n / 4096), UInt8.ofNat (0x80 + n / 64 % 64), UInt8.ofNat (0x80 + n % 64)]
  else
    [UInt8.ofNat (0xF0 + n / 262144), UInt8.ofNat (0x80 + n / 4096 % 64),
      UInt8.ofNat (0x80 + n / 64 % 64), UInt8.ofNat (0x80 + n % 64)]

def encode (s : List Char) : Bytes :=
  s.flatMap encodeChar

/-- The surrogates at a position, as many as stand there, cannot be encoded. -/
structure EncodeFault where
  position : Nat
  surrogates : Phrase
deriving DecidableEq

def EncodeFault.message (fault : EncodeFault) : String :=
  let place :=
    match fault.surrogates with
    | [point] => "character " ++ Phrase.quoted [point] ++ " in position " ++ toString fault.position
    | points =>
        "characters in position " ++ toString fault.position ++ "-" ++
          toString (fault.position + points.length - 1)
  "'utf-8' codec can't encode " ++ place ++ ": surrogates not allowed"

def encodePhrase (p : Phrase) : Except EncodeFault Bytes :=
  match p.chars? with
  | some s => .ok (encode s)
  | none =>
      let position := (p.takeWhile (!·.isSurrogate)).length
      .error ⟨position, (p.drop position).takeWhile CodePoint.isSurrogate⟩

end Utf8
end Text
end Palette
