import TokenForge.Digest.Keccak

/-!
# Account addresses

An address is twenty bytes, written with forty hexadecimal digits after an
optional `0x`.  In the checksummed form of EIP-55 a letter is a capital when the
digit at its place in the digest of the lower-case digits is eight or more.

`Address.parse?` reads an address: digits with letters of one case only are
always accepted, digits with both cases only as the checksummed form with its
`0x`.  `Address.checksummed` writes that form.
-/

namespace TokenForge

/-- An account address. -/
structure Address where
  bytes : Bytes
  length_bytes : bytes.length = 20
  deriving DecidableEq, Repr

namespace Address

/-- The digits of an address in lower case. -/
def digits (a : Address) : Text := hexText a.bytes

/-- An ASCII letter in lower case; other characters stay. -/
def lowerChar (c : Char) : Char :=
  if 0x41 ≤ c.toNat ∧ c.toNat ≤ 0x5A then Char.ofNat (c.toNat + 0x20) else c

/-- An ASCII letter as a capital; other characters stay. -/
def upperChar (c : Char) : Char :=
  if 0x61 ≤ c.toNat ∧ c.toNat ≤ 0x7A then Char.ofNat (c.toNat - 0x20) else c

/-- The digits of an address as EIP-55 writes them. -/
def checksummedDigits (a : Address) : Text :=
  List.zipWith (fun c d => if 0x38 ≤ d.toNat then upperChar c else c) a.digits
    (Text.digest a.digits)

/-- The checksummed form. -/
def checksummed (a : Address) : Text := "0x" ++ a.checksummedDigits

/-- The digits of a written address, without its `0x` or `0X`. -/
def digitsOf (s : Text) : Text :=
  match s with
  | '0' :: 'x' :: ds => ds
  | '0' :: 'X' :: ds => ds
  | ds => ds

/-- Whether a text has letters of both cases. -/
def hasBothCases (s : Text) : Bool :=
  s.any (fun c => lowerChar c != c) && s.any (fun c => upperChar c != c)

/-- Reads a written address. -/
def parse? (s : Text) : Option Address := do
  let ds := digitsOf s
  let bytes ← hexBytes? ds
  if h : bytes.length = 20 then
    let a : Address := ⟨bytes, h⟩
    if hasBothCases ds ∧ s ≠ a.checksummed then none else some a
  else none

end Address

end TokenForge
