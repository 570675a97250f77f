/-!
# Byte strings

Code, storage keys, storage values and log data are strings of bytes of any length.

* `Bytes` — a list of bytes;
* `Bytes.ofNat` / `Bytes.toNat` — the big-endian form of a number in a fixed number of bytes;
* `Bytes.toNat_ofNat` — reading a number back loses only what did not fit.
-/

namespace ContractExec

abbrev Bytes := List UInt8

namespace Bytes

/-! ### Numbers as bytes -/

/-- The number that a byte string writes in base 256, most significant byte first. -/
def toNat (bytes : Bytes) : Nat :=
  bytes.foldl (fun value byte => 256 * value + byte.toNat) 0

/-- The `width` least significant bytes of a number, most significant byte first. -/
def ofNat : (width : Nat) → Nat → Bytes
  | 0, _ => []
  | width + 1, n => ofNat width (n / 256) ++ [UInt8.ofNat n]

instance transCmp : Std.TransCmp (compare : Bytes → Bytes → Ordering) := inferInstance

@[simp] theorem toNat_nil : toNat [] = 0 := rfl

theorem toNat_concat (bytes : Bytes) (byte : UInt8) :
    toNat (bytes ++ [byte]) = 256 * toNat bytes + byte.toNat := by
  simp [toNat]

@[simp] theorem length_ofNat (width n : Nat) : (ofNat width n).length = width := by
  induction width generalizing n with
  | zero => rfl
  | succ width ih => simp [ofNat, ih]

/-- A number read back from its bytes is what was left of it in that many bytes. -/
theorem toNat_ofNat (width n : Nat) : toNat (ofNat width n) = n % 1 <<< (8 * width) := by
  induction width generalizing n with
  | zero => simp [ofNat, Nat.mod_one]
  | succ width ih =>
    have next : 1 <<< (8 * (width + 1)) = 256 * 1 <<< (8 * width) := by
      rw [Nat.shiftLeft_eq, Nat.shiftLeft_eq, Nat.mul_succ, Nat.pow_add]
      omega
    rw [ofNat, toNat_concat, ih, next, Nat.mod_mul]
    simp [Nat.add_comm]

end Bytes

end ContractExec
