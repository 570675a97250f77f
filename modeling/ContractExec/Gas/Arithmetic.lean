/-!
# Saturating arithmetic on gas

Gas is counted in 64 bits. A sum or product that does not fit stays at the greatest gas amount, and
a difference below zero stays at zero, so no gas amount ever wraps around.

* `Gas.add` / `Gas.mul` / `Gas.sub` — the three operations;
* `toNat_add`, `toNat_mul`, `toNat_sub` — each, read in the natural numbers;
* `toNat_add_of_le` — a sum that fits is the sum of the natural numbers.
-/

namespace ContractExec

abbrev Gas := UInt64

namespace Gas

/-- The greatest gas amount, as a natural number. -/
abbrev greatest : Nat := UInt64.size - 1

theorem toNat_le_greatest (g : Gas) : g.toNat ≤ greatest := Nat.le_sub_one_of_lt g.toNat_lt_size

/-- A natural number as gas, held at the greatest amount. -/
def ofNat (n : Nat) : Gas := UInt64.ofNat (min n greatest)

@[simp] theorem toNat_ofNat (n : Nat) : (ofNat n).toNat = min n greatest := by
  unfold ofNat
  rw [UInt64.toNat_ofNat', Nat.mod_eq_of_lt]
  show min n (2 ^ 64 - 1) < 2 ^ 64
  omega

/-- Sum, held at the greatest gas amount. -/
def add (a b : Gas) : Gas := ofNat (a.toNat + b.toNat)

/-- Product, held at the greatest gas amount. -/
def mul (a b : Gas) : Gas := ofNat (a.toNat * b.toNat)

/-- Difference, held at zero. -/
def sub (a b : Gas) : Gas := ofNat (a.toNat - b.toNat)

theorem toNat_add (a b : Gas) : (a.add b).toNat = min (a.toNat + b.toNat) greatest :=
  toNat_ofNat _

theorem toNat_mul (a b : Gas) : (a.mul b).toNat = min (a.toNat * b.toNat) greatest :=
  toNat_ofNat _

theorem toNat_sub (a b : Gas) : (a.sub b).toNat = a.toNat - b.toNat := by
  have hsmall : a.toNat - b.toNat ≤ greatest := Nat.le_trans (Nat.sub_le _ _) a.toNat_le_greatest
  rw [sub, toNat_ofNat, Nat.min_eq_left hsmall]

/-- A sum that fits is not cut off. -/
theorem toNat_add_of_le {a b : Gas} (h : a.toNat + b.toNat ≤ greatest) :
    (a.add b).toNat = a.toNat + b.toNat := by
  rw [toNat_add, Nat.min_eq_left h]

theorem zero_add (g : Gas) : add 0 g = g := by
  rw [← UInt64.toNat_inj, toNat_add, UInt64.toNat_zero, Nat.zero_add,
    Nat.min_eq_left g.toNat_le_greatest]

theorem le_add (a b : Gas) : a ≤ a.add b := by
  have hsmall := a.toNat_le_greatest
  rw [UInt64.le_iff_toNat_le, toNat_add]
  omega

def toText (g : Gas) : String := Nat.repr g.toNat

end Gas

end ContractExec
