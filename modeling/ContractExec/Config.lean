import ContractExec.Gas.Arithmetic
import ContractExec.Log

/-!
# The gas schedule

Prices, and the costs that follow from them. Every cost is a flat part and a price for each byte,
held at the greatest gas amount.

* `Config` — the schedule, with the limit on nesting;
* `Config.perByte` — the shape of every cost; `toNat_perByte` reads it in the natural numbers;
* one cost for each operation that has a price.
-/

namespace ContractExec

/-- The gas schedule, with the limit on nesting. The defaults are the standard schedule. -/
structure Config where
  /-- Charged before any contract code runs. -/
  baseCost : Gas := 1000
  storageRetrieveBase : Gas := 10
  storageRetrievePerByte : Gas := 1
  storageSaveBase : Gas := 20
  storageSavePerByte : Gas := 20
  logBase : Gas := 30
  logPerByte : Gas := 1
  hashPerByte : Gas := 1
  /-- Frames at this depth may not create, call or transfer. -/
  callStackLimit : UInt64 := 1024
  deriving DecidableEq

namespace Config

def standard : Config := {}

/-- A flat part and a price for each of `length` bytes. -/
def perByte (base price : Gas) (length : Nat) : Gas :=
  base.add (price.mul (Gas.ofNat length))

theorem toNat_perByte (base price : Gas) (length : Nat) :
    (perByte base price length).toNat
      = min (base.toNat + price.toNat * length) Gas.greatest := by
  rw [perByte, Gas.toNat_add, Gas.toNat_mul, Gas.toNat_ofNat]
  by_cases fits : length ≤ Gas.greatest
  · rw [Nat.min_eq_left fits]
    omega
  · rw [Nat.min_eq_right (Nat.le_of_not_le fits)]
    cases price.toNat with
    | zero => omega
    | succ p =>
      have most : Gas.greatest ≤ (p + 1) * Gas.greatest := Nat.le_mul_of_pos_left _ p.succ_pos
      have more : length ≤ (p + 1) * length := Nat.le_mul_of_pos_left _ p.succ_pos
      omega

/-- Reading storage: the key and the value found, if there is one. -/
def storageRetrieveCost (config : Config) (key : Bytes) (value : Option Bytes) : Gas :=
  perByte config.storageRetrieveBase config.storageRetrievePerByte
    (key.length + (value.map List.length).getD 0)

/-- Writing storage: the key and the value. -/
def storageSaveCost (config : Config) (key value : Bytes) : Gas :=
  perByte config.storageSaveBase config.storageSavePerByte (key.length + value.length)

/-- Writing a log: its topics and its data. -/
def logCost (config : Config) (log : Log) : Gas :=
  perByte config.logBase config.logPerByte log.byteLength

/-- Hashing, which has no flat part. -/
def hashCost (config : Config) (length : Nat) : Gas :=
  perByte 0 config.hashPerByte length

end Config

end ContractExec
