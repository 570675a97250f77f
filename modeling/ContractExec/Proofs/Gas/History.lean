import ContractExec.Gas.Meter

/-!
# Meters over whole histories

Two rules write on one meter. Gas that is spent is added whatever the limit is, and the sum is held at
the greatest amount of gas. A cost is added as it is, but only where it fits below the limit; where it
does not, the meter is brought up to its limit. However the two are mixed, the meter adds up: as long as no
cost is refused it shows the sum of all amounts, cut off at the greatest one at most, and once a cost
is refused nothing can be charged any more.

* `MeterUse.amount`, `MeterUse.total` — the gas that one use asks for, and a list of uses together;
* `consumed_le_use`, `isExhausted_use`, `toNat_consumed_use` — what one use does to a meter;
* `Meter.after`, `Meter.Accepts` — the meter after a list of uses, and that none of them was refused;
* `consumed_le_after`, `isExhausted_after`, `toNat_consumed_after` — what a list of uses does;
* `AddsUp`, `history_adds_up` — **what a meter shows after any history**.
-/

namespace ContractExec

namespace MeterUse

/-- The gas that a use asks the meter to record. -/
def amount : MeterUse → Gas
  | spend gas => gas
  | charge cost => cost

/-- What all uses together ask for, without an upper end. -/
def total : List MeterUse → Nat
  | [] => 0
  | u :: us => u.amount.toNat + total us

end MeterUse

namespace Meter

variable {m : Meter} {u : MeterUse} {us : List MeterUse} {cost : Gas}

/-! ### One use -/

theorem charge_eq_ok_iff : (m.charge cost).1 = .ok () ↔ cost ≤ m.available := by
  by_cases hfits : cost ≤ m.available
  · rw [charge_of_le hfits]
    exact iff_of_true rfl hfits
  · rw [charge_of_lt (UInt64.not_le.mp hfits)]
    exact iff_of_false nofun hfits

@[simp] theorem limit_use (m : Meter) (u : MeterUse) : (m.use u).2.limit = m.limit := by
  cases u with
  | spend gas => exact limit_spend m gas
  | charge cost => exact limit_charge m cost

/-- No use takes gas off the meter. -/
theorem consumed_le_use (m : Meter) (u : MeterUse) : m.consumed ≤ (m.use u).2.consumed := by
  cases u with
  | spend gas => exact Gas.le_add m.consumed gas
  | charge cost => exact le_consumed_charge m cost

/-- A use that is accepted adds its amount, up to the greatest amount of gas. -/
theorem toNat_consumed_use (h : (m.use u).1 = .ok ()) :
    (m.use u).2.consumed.toNat = min (m.consumed.toNat + u.amount.toNat) Gas.greatest := by
  cases u with
  | spend gas => exact Gas.toNat_add m.consumed gas
  | charge cost =>
    -- a cost that fits is not cut off: the sum is gas again
    have hexact := toNat_consumed_charge (charge_eq_ok_iff.mp h)
    have hsmall := (m.charge cost).2.consumed.toNat_le_greatest
    rw [hexact] at hsmall
    exact hexact.trans (Nat.min_eq_left hsmall).symm

theorem isExhausted_use (h : m.isExhausted = true) (u : MeterUse) :
    (m.use u).2.isExhausted = true := by
  rw [isExhausted, decide_eq_true_iff] at h ⊢
  rw [limit_use]
  exact UInt64.le_trans h (consumed_le_use m u)

/-- A use that is refused leaves nothing available. -/
theorem isExhausted_of_refused (h : (m.use u).1 ≠ .ok ()) : (m.use u).2.isExhausted = true := by
  cases u with
  | spend gas => exact absurd rfl h
  | charge cost =>
    have hover : m.available < cost :=
      UInt64.not_le.mp fun hfits => h (charge_eq_ok_iff.mpr hfits)
    rw [isExhausted, decide_eq_true_iff, limit_use]
    show m.limit ≤ (m.charge cost).2.consumed
    rw [consumed_charge_of_lt hover]
    split
    case isTrue => exact UInt64.le_refl _
    case isFalse hpast => exact UInt64.le_of_lt (UInt64.not_le.mp hpast)

/-- An exhausted meter refuses every cost but zero. -/
theorem charge_of_isExhausted (h : m.isExhausted = true) (hcost : 0 < cost) :
    (m.charge cost).1 = .error .outOfGas := by
  have hnone : m.available = 0 := (isExhausted_iff m).mp h
  rw [charge_of_lt (by rw [hnone]; exact hcost)]

/-! ### Histories -/

/-- The meter after a list of uses. -/
def after (m : Meter) : List MeterUse → Meter
  | [] => m
  | u :: us => (m.use u).2.after us

/-- A history goes on from the meter that its first part ends with. -/
theorem history_append (m : Meter) (us later : List MeterUse) :
    m.history (us ++ later) = m.history us ++ (m.after us).history later := by
  induction us generalizing m with
  | nil => rfl
  | cons u us ih => exact congrArg (m.use u :: ·) (ih (m.use u).2)

theorem limit_after (m : Meter) (us : List MeterUse) : (m.after us).limit = m.limit := by
  induction us generalizing m with
  | nil => rfl
  | cons u us ih => exact (ih (m.use u).2).trans (limit_use m u)

/-- The gas on the meter never decreases. -/
theorem consumed_le_after (m : Meter) (us : List MeterUse) :
    m.consumed ≤ (m.after us).consumed := by
  induction us generalizing m with
  | nil => exact UInt64.le_refl _
  | cons u us ih => exact UInt64.le_trans (consumed_le_use m u) (ih (m.use u).2)

/-- An exhausted meter stays exhausted. -/
theorem isExhausted_after (h : m.isExhausted = true) (us : List MeterUse) :
    (m.after us).isExhausted = true := by
  induction us generalizing m with
  | nil => exact h
  | cons u us ih => exact ih (isExhausted_use h u)

/-- No use of a history is refused. -/
def Accepts (m : Meter) (us : List MeterUse) : Prop :=
  ∀ entry ∈ m.history us, entry.1 = .ok ()

theorem accepts_cons : m.Accepts (u :: us) ↔ (m.use u).1 = .ok () ∧ (m.use u).2.Accepts us :=
  List.forall_mem_cons

/-- Whatever comes after a cost that is refused, the meter ends up exhausted. -/
theorem isExhausted_of_not_accepts (h : ¬m.Accepts us) : (m.after us).isExhausted = true := by
  induction us generalizing m with
  | nil => exact absurd nofun h
  | cons u us ih =>
    by_cases haccepted : (m.use u).1 = .ok ()
    · exact ih fun hrest => h (accepts_cons.mpr ⟨haccepted, hrest⟩)
    · exact isExhausted_after (isExhausted_of_refused haccepted) us

/-- **Amounts that are accepted add up**, to the greatest amount of gas at most. Cutting off after each
use comes to the same as cutting off the sum, since no use takes anything off again. -/
theorem toNat_consumed_after (h : m.Accepts us) :
    (m.after us).consumed.toNat
      = min (m.consumed.toNat + MeterUse.total us) Gas.greatest := by
  induction us generalizing m with
  | nil => exact (Nat.min_eq_left m.consumed.toNat_le_greatest).symm
  | cons u us ih =>
    obtain ⟨haccepted, hrest⟩ := accepts_cons.mp h
    rw [after, ih hrest, toNat_consumed_use haccepted, MeterUse.total]
    omega

/-! ### Charges alone -/

section

variable (hcharges : ∀ u ∈ us, ∃ cost, u = .charge cost)
include hcharges

theorem consumed_after_le (h : m.consumed ≤ m.limit) : (m.after us).consumed ≤ m.limit := by
  induction us generalizing m with
  | nil => exact h
  | cons u us ih =>
    obtain ⟨⟨cost, rfl⟩, hrest⟩ := List.forall_mem_cons.mp hcharges
    have hwithin : (m.use (.charge cost)).2.consumed ≤ (m.use (.charge cost)).2.limit := by
      rw [limit_use]
      exact consumed_charge_le h cost
    rw [after, ← limit_use m (.charge cost)]
    exact ih hrest hwithin

/-- Costs that are accepted add up exactly. -/
theorem toNat_consumed_after_charges (h : m.Accepts us) :
    (m.after us).consumed.toNat = m.consumed.toNat + MeterUse.total us := by
  induction us generalizing m with
  | nil => rfl
  | cons u us ih =>
    obtain ⟨⟨cost, rfl⟩, hrest⟩ := List.forall_mem_cons.mp hcharges
    obtain ⟨haccepted, hlater⟩ := accepts_cons.mp h
    have hexact : (m.use (.charge cost)).2.consumed.toNat = m.consumed.toNat + cost.toNat :=
      toNat_consumed_charge (charge_eq_ok_iff.mp haccepted)
    rw [after, ih hrest hlater, hexact, MeterUse.total, Nat.add_assoc]
    rfl

end

/-! ### What a meter shows -/

/-- What the meter `m` shows and answers after a history of uses of a new meter with some limit. -/
structure AddsUp (limit : Gas) (us : List MeterUse) (m : Meter) : Prop where
  /-- It is the meter that the history has come to. -/
  continues : ∀ later,
    (new limit).history (us ++ later) = (new limit).history us ++ m.history later
  consumed_le : ∀ later, m.consumed ≤ (m.after later).consumed
  available_eq : (m.available.toNat : Int) = max 0 ((limit.toNat : Int) - m.consumed.toNat)
  charge_iff : ∀ cost, (m.charge cost).1 = .ok () ↔ cost ≤ m.available
  /-- A cost that is accepted is added without wrapping around. -/
  charge_exact : ∀ cost, (m.charge cost).1 = .ok () →
    m.consumed.toNat + cost.toNat < UInt64.size ∧
      (m.charge cost).2.consumed.toNat = m.consumed.toNat + cost.toNat
  /-- Once a cost was refused, zero is the only one that is not. -/
  refuses : ¬(new limit).Accepts us → ∀ cost, 0 < cost → (m.charge cost).1 = .error .outOfGas
  charges_only : (∀ u ∈ us, ∃ cost, u = .charge cost) →
    m.consumed ≤ limit ∧
      ((new limit).Accepts us → m.consumed.toNat = MeterUse.total us) ∧
      (¬(new limit).Accepts us → m.consumed = limit)
  accepted : (new limit).Accepts us →
    m.consumed.toNat = min (UInt64.size - 1) (MeterUse.total us)

/-- **Meters add up over whole histories**, whatever is spent and charged on a new meter, and in whatever
order. What was consumed never decreases, and what is available is the limit less that, or nothing. A cost
is accepted exactly if it is available, and then it is added without an overflow; after the first one that
is refused every cost but zero is. If nothing but costs was recorded the meter stays within its limit: it
shows their sum, or the limit if one was refused. And whatever was spent besides, as long as no cost was
refused it shows the sum of all amounts, or the greatest amount of gas if the sum is above it. -/
theorem history_adds_up (limit : Gas) (us : List MeterUse) :
    AddsUp limit us ((new limit).after us) where
  continues later := history_append (new limit) us later
  consumed_le later := consumed_le_after _ later
  available_eq := by
    rw [toNat_available, limit_after]
    show ((limit.toNat - ((new limit).after us).consumed.toNat : Nat) : Int) = _
    omega
  charge_iff cost := charge_eq_ok_iff
  charge_exact cost haccepted := by
    have hexact := toNat_consumed_charge (charge_eq_ok_iff.mp haccepted)
    refine ⟨?_, hexact⟩
    rw [← hexact]
    exact UInt64.toNat_lt_size _
  refuses hrefused cost hcost := charge_of_isExhausted (isExhausted_of_not_accepts hrefused) hcost
  charges_only hcharges := by
    have hwithin : ((new limit).after us).consumed ≤ limit :=
      consumed_after_le hcharges (m := new limit) UInt64.zero_le
    refine ⟨hwithin, fun haccepts => ?_, fun hrefused => ?_⟩
    · rw [toNat_consumed_after_charges hcharges haccepts]
      exact Nat.zero_add _
    · have hexhausted := isExhausted_of_not_accepts hrefused
      rw [isExhausted, decide_eq_true_iff, limit_after] at hexhausted
      exact UInt64.le_antisymm hwithin hexhausted
  accepted haccepts := by
    rw [toNat_consumed_after haccepts, Nat.min_comm]
    show min _ (0 + MeterUse.total us) = _
    rw [Nat.zero_add]

-- a refused cost pins the meter, zero is still accepted, and spending stops at the greatest amount
example : (new 100).history [.spend 30, .charge 71, .charge 0, .charge 1, .spend 0xFFFFFFFFFFFFFFFF] =
    [(.ok (), ⟨100, 30⟩), (.error .outOfGas, ⟨100, 100⟩), (.ok (), ⟨100, 100⟩),
      (.error .outOfGas, ⟨100, 100⟩), (.ok (), ⟨100, 0xFFFFFFFFFFFFFFFF⟩)] := by
  decide

end Meter

end ContractExec
