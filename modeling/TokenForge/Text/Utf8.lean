import TokenForge.Text.Hexadecimal
import TokenForge.Text.Numeral

/-!
# Texts as bytes

UTF-8 as RFC 3629 has it: surrogates, overlong forms and values above U+10FFFF
are refused.  The decoder reads one byte at a time.  Between characters it looks
for a first byte, which fixes how many bytes are owed and which range the next
of them lies in; a *pending* character keeps that.

A refusal says where the character started that could not be read, how many of
its bytes were read, and why.
-/

namespace TokenForge

namespace Utf8

/-! ## Encoding -/

/-- The byte of a number below 256. -/
def byte (n : Nat) : UInt8 := UInt8.ofNat n

/-- The bytes of a character. -/
def encodeChar (c : Char) : Bytes :=
  let n := c.toNat
  if n < 0x80 then [byte n]
  else if n < 0x800 then [byte (0xC0 + n / 0x40), byte (0x80 + n % 0x40)]
  else if n < 0x10000 then
    [byte (0xE0 + n / 0x1000), byte (0x80 + n / 0x40 % 0x40), byte (0x80 + n % 0x40)]
  else
    [byte (0xF0 + n / 0x40000), byte (0x80 + n / 0x1000 % 0x40), byte (0x80 + n / 0x40 % 0x40),
      byte (0x80 + n % 0x40)]

/-- The bytes of a text. -/
def encode (s : Text) : Bytes := s.flatMap encodeChar

/-! ## Decoding -/

/-- Why bytes are no text. -/
inductive Reason where
  /-- A character cannot start with this byte. -/
  | invalidStart
  /-- The character does not go on with this byte. -/
  | invalidContinuation
  /-- The bytes end inside a character. -/
  | endOfData
  deriving DecidableEq, Repr

/-- A place where bytes are no text. -/
structure Fault where
  /-- The position of the first byte of the character. -/
  position : Nat
  first : UInt8
  /-- The number of bytes of the character that were read. -/
  count : Nat
  reason : Reason
  deriving DecidableEq, Repr

/-- A character of which some bytes have been read. -/
structure Pending where
  first : UInt8
  /-- The number of bytes read. -/
  count : Nat
  /-- The number of bytes to come, at least one. -/
  owed : Nat
  /-- The bits read so far. -/
  value : Nat
  /-- The least byte that may come next. -/
  low : Nat
  /-- The greatest byte that may come next. -/
  high : Nat

/-- The character that a first byte above ASCII starts. -/
def pending? (b : UInt8) : Option Pending :=
  let n := b.toNat
  if 0xC2 ≤ n ∧ n ≤ 0xDF then some ⟨b, 1, 1, n - 0xC0, 0x80, 0xBF⟩
  else if n = 0xE0 then some ⟨b, 1, 2, 0, 0xA0, 0xBF⟩
  else if n = 0xED then some ⟨b, 1, 2, 0xD, 0x80, 0x9F⟩
  else if 0xE1 ≤ n ∧ n ≤ 0xEF then some ⟨b, 1, 2, n - 0xE0, 0x80, 0xBF⟩
  else if n = 0xF0 then some ⟨b, 1, 3, 0, 0x90, 0xBF⟩
  else if 0xF1 ≤ n ∧ n ≤ 0xF3 then some ⟨b, 1, 3, n - 0xF0, 0x80, 0xBF⟩
  else if n = 0xF4 then some ⟨b, 1, 3, 4, 0x80, 0x8F⟩
  else none

/-- Reads the bytes from a position on, with a character pending or between characters. -/
def decodeFrom : Option Pending → Nat → Bytes → Except Fault Text
  | none, _, [] => .ok []
  | some p, position, [] => .error ⟨position - p.count, p.first, p.count, .endOfData⟩
  | none, position, b :: bs =>
    if b.toNat < 0x80 then (decodeFrom none (position + 1) bs).map (Char.ofNat b.toNat :: ·)
    else
      match pending? b with
      | none => .error ⟨position, b, 1, .invalidStart⟩
      | some p => decodeFrom (some p) (position + 1) bs
  | some p, position, b :: bs =>
    let n := b.toNat
    if n < p.low ∨ p.high < n then
      .error ⟨position - p.count, p.first, p.count, .invalidContinuation⟩
    else
      let value := p.value * 0x40 + (n - 0x80)
      if p.owed = 1 then (decodeFrom none (position + 1) bs).map (Char.ofNat value :: ·)
      else
        decodeFrom (some ⟨p.first, p.count + 1, p.owed - 1, value, 0x80, 0xBF⟩) (position + 1) bs

/-- Reads bytes as text. -/
def decode (bs : Bytes) : Except Fault Text := decodeFrom none 0 bs

/-! ## Messages -/

/-- What is wrong, in words. -/
def Reason.message : Reason → Text
  | .invalidStart => "invalid start byte"
  | .invalidContinuation => "invalid continuation byte"
  | .endOfData => "unexpected end of data"

/-- A refusal in words. -/
def Fault.message (f : Fault) : Text :=
  let place : Text :=
    if f.count = 1 then
      "byte 0x" ++ hexDigits 2 f.first.toNat ++ " in position " ++ Text.ofNat f.position
    else
      "bytes in position " ++ Text.ofNat f.position ++ "-" ++
        Text.ofNat (f.position + f.count - 1)
  "'utf-8' codec can't decode " ++ place ++ ": " ++ f.reason.message

end Utf8

end TokenForge
