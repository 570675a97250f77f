import ContractExec.Bytes

/-!
# Hexadecimal text

Bytes are written as two lower-case digits each and read in either case.

* `Hex.digit` / `Hex.digitValue?` — one digit and its value;
* `Bytes.toHex` / `Bytes.ofHex?` — a byte string and its digits.
-/

namespace ContractExec

namespace Hex

/-! ### Digits -/

/-- The lower-case digit of a value below sixteen. -/
def digit (value : Nat) : Char :=
  if value < 10 then Char.ofNat (48 + value) else Char.ofNat (87 + value)

def digitValue? (c : Char) : Option Nat :=
  if 48 ≤ c.toNat ∧ c.toNat ≤ 57 then some (c.toNat - 48)
  else if 97 ≤ c.toNat ∧ c.toNat ≤ 102 then some (c.toNat - 87)
  else if 65 ≤ c.toNat ∧ c.toNat ≤ 70 then some (c.toNat - 55)
  else none

theorem digitValue?_digit {value : Nat} (h : value < 16) :
    digitValue? (digit value) = some value := by
  have all : ∀ v : Fin 16, digitValue? (digit v) = some v.val := by decide
  exact all ⟨value, h⟩

/-- The digits of a byte string, two for each byte. -/
def ofBytes : Bytes → List Char
  | [] => []
  | byte :: rest => digit (byte.toNat / 16) :: digit (byte.toNat % 16) :: ofBytes rest

/-- The bytes that a list of digits writes, two digits for each byte. -/
def toBytes? : List Char → Option Bytes
  | [] => some []
  | [_] => none
  | high :: low :: rest => do
    let h ← digitValue? high
    let l ← digitValue? low
    let bytes ← toBytes? rest
    return UInt8.ofNat (16 * h + l) :: bytes

end Hex

/-! ### Byte strings -/

/-- Two lower-case digits for each byte, without any mark in front. -/
def Bytes.toHex (bytes : Bytes) : String :=
  String.ofList (Hex.ofBytes bytes)

/-- Reads digits of either case; an odd number of digits is refused. -/
def Bytes.ofHex? (text : String) : Option Bytes :=
  Hex.toBytes? text.toList

end ContractExec
