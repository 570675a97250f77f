/-!
# Amounts of value

Value is counted in whole units below `2 ^ 256`. Sums and differences are checked, so no balance
ever wraps around.

* `Amount.add?` / `Amount.sub?` — the exact result where it is an amount again;
* `add?_eq_some_iff`, `sub?_eq_some_iff` — both, read in the natural numbers.
-/

namespace ContractExec

/-- An amount of value: a natural number below `2 ^ 256`. -/
abbrev Amount := BitVec 256

namespace Amount

def add? (a b : Amount) : Option Amount :=
  if a.uaddOverflow b then none else some (a + b)

def sub? (a b : Amount) : Option Amount :=
  if b.toNat ≤ a.toNat then some (a - b) else none

theorem add?_eq_some_iff {a b c : Amount} :
    a.add? b = some c ↔ a.toNat + b.toNat = c.toNat := by
  have overflow : a.uaddOverflow b = true ↔ 2 ^ 256 ≤ a.toNat + b.toNat := by
    simp [BitVec.uaddOverflow]
  unfold add?
  split
  case isTrue outside =>
    have large := overflow.mp outside
    have small := c.isLt
    simp only [reduceCtorEq, false_iff]
    omega
  case isFalse inside =>
    have fits : a.toNat + b.toNat < 2 ^ 256 := Nat.lt_of_not_le (inside ∘ overflow.mpr)
    have sum : (a + b).toNat = a.toNat + b.toNat := by
      rw [BitVec.toNat_add]
      exact Nat.mod_eq_of_lt fits
    rw [Option.some.injEq, ← BitVec.toNat_inj, sum]

theorem sub?_eq_some_iff {a b c : Amount} :
    a.sub? b = some c ↔ a.toNat = c.toNat + b.toNat := by
  unfold sub?
  split
  case isTrue le =>
    have difference : (a - b).toNat = a.toNat - b.toNat := BitVec.toNat_sub_of_le le
    rw [Option.some.injEq, ← BitVec.toNat_inj, difference]
    omega
  case isFalse outside =>
    simp only [reduceCtorEq, false_iff]
    omega

def toText (a : Amount) : String := Nat.repr a.toNat

end Amount

end ContractExec
