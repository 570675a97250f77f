import ContractExec.Fault
import ContractExec.Gas.Arithmetic

/-!
# Gas meters

A meter holds the gas that one scope has consumed against its limit.

* `Meter.spend` — records gas without looking at the limit;
* `Meter.charge` — records a cost that has to fit; one that does not fit leaves the meter pinned at
  its limit and is answered with `Fault.outOfGas`;
* `charge_of_le` / `charge_of_lt` — the two cases of a charge.
-/

namespace ContractExec

/-- Gas consumed by one scope, against its limit. -/
structure Meter where
  limit : Gas
  consumed : Gas
  deriving DecidableEq

namespace Meter

def new (limit : Gas) : Meter := ⟨limit, 0⟩

/-- Gas left before the limit is reached. -/
def available (m : Meter) : Gas := m.limit.sub m.consumed

def isExhausted (m : Meter) : Bool := decide (m.limit ≤ m.consumed)

/-- Records gas whatever the limit is. -/
def spend (m : Meter) (gas : Gas) : Meter := { m with consumed := m.consumed.add gas }

/-- Records a cost that has to fit in what is available. -/
def charge (m : Meter) (cost : Gas) : Except Fault Unit × Meter :=
  if m.available < cost then (.error .outOfGas, { m with consumed := max m.consumed m.limit })
  else (.ok (), { m with consumed := m.consumed + cost })

theorem toNat_available (m : Meter) :
    m.available.toNat = m.limit.toNat - m.consumed.toNat :=
  Gas.toNat_sub _ _

theorem isExhausted_iff (m : Meter) : m.isExhausted = true ↔ m.available = 0 := by
  rw [isExhausted, decide_eq_true_iff, UInt64.le_iff_toNat_le, ← UInt64.toNat_inj,
    toNat_available, UInt64.toNat_zero]
  omega

/-- A cost that fits advances the meter by exactly that cost. -/
theorem charge_of_le {m : Meter} {cost : Gas} (h : cost ≤ m.available) :
    m.charge cost = (.ok (), { m with consumed := m.consumed + cost }) := by
  rw [charge, if_neg (UInt64.not_lt.mpr h)]

/-- A cost that does not fit pins the meter at its limit. -/
theorem charge_of_lt {m : Meter} {cost : Gas} (h : m.available < cost) :
    m.charge cost = (.error .outOfGas, { m with consumed := max m.consumed m.limit }) := by
  rw [charge, if_pos h]

/-- A cost that fits is added without wrapping around. -/
theorem toNat_consumed_charge {m : Meter} {cost : Gas} (h : cost ≤ m.available) :
    (m.charge cost).2.consumed.toNat = m.consumed.toNat + cost.toNat := by
  have hfits := UInt64.le_iff_toNat_le.mp h
  have hsmall := m.limit.toNat_lt
  have hconsumed := m.consumed.toNat_lt
  rw [toNat_available] at hfits
  rw [charge_of_le h, UInt64.toNat_add]
  exact Nat.mod_eq_of_lt (by omega)

/-- A cost that does not fit leaves the greater of what was consumed and the limit. -/
theorem consumed_charge_of_lt {m : Meter} {cost : Gas} (h : m.available < cost) :
    (m.charge cost).2.consumed = if m.consumed ≤ m.limit then m.limit else m.consumed := by
  rw [charge_of_lt h]
  rfl

/-- A charge takes no gas off the meter. -/
theorem le_consumed_charge (m : Meter) (cost : Gas) :
    m.consumed ≤ (m.charge cost).2.consumed := by
  by_cases h : cost ≤ m.available
  · rw [UInt64.le_iff_toNat_le, toNat_consumed_charge h]
    omega
  · rw [consumed_charge_of_lt (UInt64.not_le.mp h)]
    split
    case isTrue hwithin => exact hwithin
    case isFalse => exact UInt64.le_refl _

/-- Charges stay within the limit. -/
theorem consumed_charge_le {m : Meter} (h : m.consumed ≤ m.limit) (cost : Gas) :
    (m.charge cost).2.consumed ≤ m.limit := by
  by_cases hfits : cost ≤ m.available
  · rw [UInt64.le_iff_toNat_le] at h
    have hcost := UInt64.le_iff_toNat_le.mp hfits
    rw [toNat_available] at hcost
    rw [UInt64.le_iff_toNat_le, toNat_consumed_charge hfits]
    omega
  · rw [consumed_charge_of_lt (UInt64.not_le.mp hfits), if_pos h]
    exact UInt64.le_refl _

/-- What fits in what is available is spent exactly. -/
theorem toNat_consumed_spend {m : Meter} {gas : Gas} (h : gas ≤ m.available) :
    (m.spend gas).consumed.toNat = m.consumed.toNat + gas.toNat := by
  have hfits := UInt64.le_iff_toNat_le.mp h
  have hlimit := m.limit.toNat_le_greatest
  have hconsumed := m.consumed.toNat_le_greatest
  rw [toNat_available] at hfits
  exact Gas.toNat_add_of_le (by omega)

@[simp] theorem limit_charge (m : Meter) (cost : Gas) : (m.charge cost).2.limit = m.limit := by
  unfold charge
  split <;> rfl

@[simp] theorem limit_spend (m : Meter) (gas : Gas) : (m.spend gas).limit = m.limit := rfl

end Meter

/-! ### Histories -/

inductive MeterUse where
  | spend (gas : Gas)
  | charge (cost : Gas)
  deriving DecidableEq

/-- The answer to one use, and the meter after it. Spending is always accepted. -/
def Meter.use (m : Meter) : MeterUse → Except Fault Unit × Meter
  | .spend gas => (.ok (), m.spend gas)
  | .charge cost => m.charge cost

/-- The answers to a list of uses, each with the meter after it. -/
def Meter.history (m : Meter) : List MeterUse → List (Except Fault Unit × Meter)
  | [] => []
  | u :: us => m.use u :: (m.use u).2.history us

end ContractExec
