import TokenForge.Text.Utf8

/-!
# The Keccak-256 digest

The sponge of Keccak with a rate of 136 bytes and the padding of its first
publication, one bit after the message and one at the end of the block.  The
state is 25 words of 64 bits, word `5 * y + x` at column `x` and row `y`, and a
permutation is 24 rounds of the five steps θ, ρ, π, χ and ι.
-/

namespace TokenForge

namespace Keccak

/-- The words of a state. -/
abbrev State := List UInt64

/-- The state before any message. -/
def State.zero : State := List.replicate 25 0

/-- The word at a place. -/
def State.word (a : State) (i : Nat) : UInt64 := a.getD i 0

/-- A word rotated to the left by fewer than 64 bits. -/
def rotate (w : UInt64) (bits : Nat) : UInt64 :=
  if bits = 0 then w else (w <<< UInt64.ofNat bits) ||| (w >>> UInt64.ofNat (64 - bits))

/-! ## The permutation -/

/-- The round constants of ι. -/
def roundConstants : List UInt64 := [
  0x0000000000000001, 0x0000000000008082, 0x800000000000808A, 0x8000000080008000,
  0x000000000000808B, 0x0000000080000001, 0x8000000080008081, 0x8000000000008009,
  0x000000000000008A, 0x0000000000000088, 0x0000000080008009, 0x000000008000000A,
  0x000000008000808B, 0x800000000000008B, 0x8000000000008089, 0x8000000000008003,
  0x8000000000008002, 0x8000000000000080, 0x000000000000800A, 0x800000008000000A,
  0x8000000080008081, 0x8000000000008080, 0x0000000080000001, 0x8000000080008008]

/-- The rotations of ρ, place by place. -/
def rotations : List Nat := [
  0, 1, 62, 28, 27, 36, 44, 6, 55, 20, 3, 10, 43, 25, 39, 41, 45, 15, 21, 8, 18, 2, 61, 56, 14]

/-- The places of a state. -/
def places : List Nat := List.range 25

/-- Adds to each word the parities of two neighbouring columns. -/
def theta (a : State) : State :=
  let parity (x : Nat) : UInt64 :=
    a.word x ^^^ a.word (x + 5) ^^^ a.word (x + 10) ^^^ a.word (x + 15) ^^^ a.word (x + 20)
  let columns := (List.range 5).map parity
  let change := (List.range 5).map fun x =>
    columns.getD ((x + 4) % 5) 0 ^^^ rotate (columns.getD ((x + 1) % 5) 0) 1
  (places.zip a).map fun (i, w) => w ^^^ change.getD (i % 5) 0

/-- Rotates each word and moves it to its new place. -/
def rhoPi (a : State) : State :=
  places.map fun i =>
    let source := (i % 5 + 3 * (i / 5)) % 5 + 5 * (i % 5)
    rotate (a.word source) (rotations.getD source 0)

/-- Combines each word with the next two of its row. -/
def chi (a : State) : State :=
  places.map fun i =>
    let row := i / 5 * 5
    a.word i ^^^ (~~~ a.word (row + (i + 1) % 5) &&& a.word (row + (i + 2) % 5))

/-- Adds a round constant to the first word. -/
def iota (constant : UInt64) : State → State
  | [] => []
  | w :: ws => (w ^^^ constant) :: ws

/-- The permutation of a state. -/
def permute (a : State) : State :=
  roundConstants.foldl (fun a constant => iota constant (chi (rhoPi (theta a)))) a

/-! ## The sponge -/

/-- The number of bytes of a block. -/
def rate : Nat := 136

/-- The number of eight bytes, the lowest first. -/
def wordOf (bs : Bytes) : UInt64 := bs.foldr (fun b w => (w <<< 8) ||| b.toUInt64) 0

/-- The bytes of a word, the lowest first. -/
def bytesOf (w : UInt64) : Bytes := (List.range 8).map fun i => (w >>> UInt64.ofNat (8 * i)).toUInt8

/-- A list cut into parts of a positive length, `fuel` parts at most. -/
def chunks {α : Type} (size : Nat) : Nat → List α → List (List α)
  | 0, _ => []
  | _ + 1, [] => []
  | fuel + 1, a :: as => (a :: as).take size :: chunks size fuel ((a :: as).drop size)

/-- A message with its padding, a whole number of blocks. -/
def pad (message : Bytes) : Bytes :=
  let missing := rate - message.length % rate
  if missing = 1 then message ++ [0x81]
  else message ++ [0x01] ++ List.replicate (missing - 2) 0 ++ [0x80]

/-- Takes a block into a state. -/
def absorb (a : State) (block : Bytes) : State :=
  let ws := (chunks 8 17 block).map wordOf
  permute (List.zipWith (· ^^^ ·) a (ws ++ List.replicate 8 0))

/-- The digest of a message, 32 bytes. -/
def digest (message : Bytes) : Bytes :=
  let padded := pad message
  let final := (chunks rate padded.length padded).foldl absorb State.zero
  (final.take 4).flatMap bytesOf

end Keccak

/-- The Keccak-256 digest of a text in UTF-8, in hexadecimal. -/
def Text.digest (s : Text) : Text := hexText (Keccak.digest (Utf8.encode s))

end TokenForge
