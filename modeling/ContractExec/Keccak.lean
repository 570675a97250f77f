import ContractExec.Address

/-!
# Keccak-256

The sponge over 25 lanes of 64 bits with a rate of 136 bytes, padded with a one bit, zeros and a
one bit. Lane `(x, y)` stands at index `x + 5 * y`, with both coordinates taken modulo five.

* `Keccak.permute` — 24 rounds of the permutation;
* `keccak256` — the digest of a byte string.
-/

namespace ContractExec

namespace Keccak

abbrev Lanes := Vector UInt64 25

/-- The lane at coordinates taken modulo five. -/
def lane (a : Lanes) (x y : Nat) : UInt64 :=
  a.get ⟨x % 5 + 5 * (y % 5), by omega⟩

/-- The lanes given by a function of their coordinates. -/
def ofCoordinates (f : Nat → Nat → UInt64) : Lanes :=
  Vector.ofFn fun i => f (i.val % 5) (i.val / 5)

def rotate (word : UInt64) (bits : UInt64) : UInt64 :=
  (word <<< bits) ||| (word >>> (64 - bits))

/-- How far each lane is rotated, by its index. -/
def rotations : List UInt64 :=
  [0, 1, 62, 28, 27, 36, 44, 6, 55, 20, 3, 10, 43, 25, 39, 41, 45, 15, 21, 8, 18, 2, 61, 56, 14]

def roundConstants : List UInt64 :=
  [0x0000000000000001, 0x0000000000008082, 0x800000000000808A, 0x8000000080008000,
   0x000000000000808B, 0x0000000080000001, 0x8000000080008081, 0x8000000000008009,
   0x000000000000008A, 0x0000000000000088, 0x0000000080008009, 0x000000008000000A,
   0x000000008000808B, 0x800000000000008B, 0x8000000000008089, 0x8000000000008003,
   0x8000000000008002, 0x8000000000000080, 0x000000000000800A, 0x800000008000000A,
   0x8000000080008081, 0x8000000000008080, 0x0000000080000001, 0x8000000080008008]

/-- Adds the parities of two neighbouring columns to each lane. -/
def theta (a : Lanes) : Lanes :=
  let parities : Vector UInt64 5 := Vector.ofFn fun x =>
    lane a x.val 0 ^^^ lane a x.val 1 ^^^ lane a x.val 2 ^^^ lane a x.val 3 ^^^ lane a x.val 4
  let parity x := parities.get ⟨x % 5, by omega⟩
  ofCoordinates fun x y => lane a x y ^^^ parity (x + 4) ^^^ rotate (parity (x + 1)) 1

/-- Rotates every lane and moves it to its new place. -/
def rhoPi (a : Lanes) : Lanes :=
  ofCoordinates fun x y =>
    rotate (lane a (x + 3 * y) x) (rotations.getD ((x + 3 * y) % 5 + 5 * x) 0)

/-- Combines each lane with the next two of its row. -/
def chi (a : Lanes) : Lanes :=
  ofCoordinates fun x y => lane a x y ^^^ (~~~(lane a (x + 1) y) &&& lane a (x + 2) y)

/-- Adds a round's constant to the first lane. -/
def iota (a : Lanes) (constant : UInt64) : Lanes :=
  a.set 0 (lane a 0 0 ^^^ constant)

def permute (a : Lanes) : Lanes :=
  roundConstants.foldl (fun a constant => iota (chi (rhoPi (theta a))) constant) a

/-- The number of bytes taken in between two permutations. -/
def rate : Nat := 136

/-- The message, a one bit, zeros and a one bit, up to a whole number of blocks. -/
def pad (message : Bytes) : Bytes :=
  let gap := rate - message.length % rate
  if gap = 1 then message ++ [0x81]
  else message ++ 0x01 :: List.replicate (gap - 2) 0 ++ [0x80]

/-- The lane that eight bytes write, least significant byte first. -/
def laneOfBytes (bytes : Bytes) : UInt64 := UInt64.ofNat (Bytes.toNat bytes.reverse)

/-- Adds one block to the lanes and permutes them. -/
def absorb (a : Lanes) (block : Bytes) : Lanes :=
  permute (Vector.ofFn fun i => a.get i ^^^ laneOfBytes ((block.drop (8 * i.val)).take 8))

/-- The state after so many blocks of a padded message. -/
def absorbBlocks : (blocks : Nat) → Lanes → Bytes → Lanes
  | 0, a, _ => a
  | blocks + 1, a, padded => absorbBlocks blocks (absorb a (padded.take rate)) (padded.drop rate)

def sponge (message : Bytes) : Lanes :=
  let padded := pad message
  absorbBlocks (padded.length / rate) (Vector.replicate 25 0) padded

end Keccak

/-- The thirty-two bytes of the Keccak-256 digest. -/
def keccak256 (message : Bytes) : Bytes :=
  ((Keccak.sponge message).toList.take 4).flatMap fun lane => (Bytes.ofNat 8 lane.toNat).reverse

def Hash.keccak (message : Bytes) : Hash := Hash.ofBytes (keccak256 message)

/-- The address of a contract that a transaction creates: the first twenty bytes of the digest of
the transaction's hash followed by the nonce, least significant byte first. -/
def Address.derive (transaction : Hash) (nonce : UInt64) : Address :=
  Address.ofBytes
    ((keccak256 (transaction.toBytes ++ (Bytes.ofNat 8 nonce.toNat).reverse)).take 20)

end ContractExec
