import ContractExec.Hex

/-!
# Addresses and hashes

An address is a number of 160 bits and a hash one of 256 bits. Both are written as bytes, most
significant first, and an address stands in messages as `0x` and forty digits. Addresses are
ordered as numbers, which is the order of their byte strings.
-/

namespace ContractExec

abbrev Address := BitVec 160

/-- A digest, or the name of a transaction. -/
abbrev Hash := BitVec 256

namespace Address

instance transCmp : Std.TransCmp (compare : Address → Address → Ordering) := inferInstance

def toBytes (a : Address) : Bytes := Bytes.ofNat 20 a.toNat

def ofBytes (bytes : Bytes) : Address := BitVec.ofNat 160 bytes.toNat

theorem ofBytes_toBytes (a : Address) : ofBytes a.toBytes = a := by
  apply BitVec.eq_of_toNat_eq
  have small := a.isLt
  simp only [ofBytes, toBytes, Bytes.toNat_ofNat, BitVec.toNat_ofNat]
  rw [Nat.mod_mod_of_dvd _ (by decide)]
  exact Nat.mod_eq_of_lt small

def toHex (a : Address) : String := a.toBytes.toHex

/-- The form in which messages name an address. -/
def toText (a : Address) : String := "0x" ++ a.toHex

end Address

namespace Hash

def toBytes (h : Hash) : Bytes := Bytes.ofNat 32 h.toNat

def ofBytes (bytes : Bytes) : Hash := BitVec.ofNat 256 bytes.toNat

def toHex (h : Hash) : String := h.toBytes.toHex

end Hash

end ContractExec
