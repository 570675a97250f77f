import ContractExec.Address
import ContractExec.Amount
import ContractExec.Wire

/-!
# Serialized addresses and amounts

Both are text of hexadecimal digits behind `0x`. An address has forty digits. An amount is written
with as few digits as it needs, one at least. Either is read in any case and with or without `0x`.

Blanks between digits are skipped but count toward the length. The digits are taken in pairs, the
first one alone where the length is odd, and a last digit without a partner is dropped. An address
that is short of digits for that reason is filled up with zeros on its right.

* `Hex.digits` — the digits of a number, as few as possible, as values;
* `Hex.spaced?` — the bytes that digits with blanks between them write.
-/

namespace ContractExec

namespace Hex

/-- The values of the digits of a number, as few as possible. -/
def digits (n : Nat) : List Nat :=
  if n < 16 then [n] else digits (n / 16) ++ [n % 16]

def isBlank (c : Char) : Bool := c = ' ' || c = '\r' || c = '\n' || c = '\t'

/-- The values of the digits of a text, without its blanks. -/
def values? : List Char → Option (List Nat)
  | [] => some []
  | c :: rest =>
    if isBlank c then values? rest
    else do
      let value ← digitValue? c
      let values ← values? rest
      return value :: values

/-- The bytes of digits in pairs; a last digit without a partner is dropped. -/
def pairs : List Nat → Bytes
  | high :: low :: rest => UInt8.ofNat (16 * high + low) :: pairs rest
  | _ => []

/-- The bytes that digits with blanks between them write. -/
def spaced? (text : List Char) : Option Bytes := do
  let values ← values? text
  if text.length % 2 = 0 then some (pairs values) else some (pairs (0 :: values))

/-- The text without the mark in front. -/
def unmarked (text : String) : List Char :=
  match text.toList with
  | '0' :: 'x' :: rest => rest
  | all => all

end Hex

/-- An amount behind `0x`, with as few digits as it needs. -/
def Amount.toHex (a : Amount) : String :=
  "0x" ++ String.ofList ((Hex.digits a.toNat).map Hex.digit)

/-- The amount of one to sixty-four digits. -/
def Amount.ofHex? (text : String) : Option Amount := do
  let digits := Hex.unmarked text
  if digits.length = 0 ∨ 64 < digits.length then none
  else
    let bytes ← Hex.spaced? digits
    return BitVec.ofNat 256 bytes.toNat

/-- The address of forty digits. -/
def Address.ofHex? (text : String) : Option Address := do
  let digits := Hex.unmarked text
  if digits.length = 40 then
    let bytes ← Hex.spaced? digits
    return Address.ofBytes (bytes ++ List.replicate (20 - bytes.length) 0)
  else none

instance : Wire Amount where
  write a := .text a.toHex
  read? document := document.text? >>= Amount.ofHex?

instance : Wire Address where
  write a := .text a.toText
  read? document := document.text? >>= Address.ofHex?

end ContractExec
