import ContractExec.Transfer

/-!
# Balances in the natural numbers

An effective balance is computed transfer by transfer and never leaves the range of amounts. Where
it is told at all, it is what plain sums over the transfers say.

* `incoming`, `outgoing` — all that a list of transfers moves to an address, and away from it;
* `toNat_effectiveBalance` — **committed balance and incoming value, less outgoing value**;
* `Affordable` — every transfer of a list was covered by what its source had before it;
* `Affordable.concat` — one more transfer that is covered;
* `outgoing_le` — **then no address ever gives away more than it had and got**.
-/

namespace ContractExec

/-! ### Sums over transfers -/

/-- All value that transfers move to an address. -/
def incoming (address : Address) : List Transfer → Nat
  | [] => 0
  | t :: rest => (if t.target = address then t.value.toNat else 0) + incoming address rest

/-- All value that transfers move away from an address. -/
def outgoing (address : Address) : List Transfer → Nat
  | [] => 0
  | t :: rest => (if t.source = address then t.value.toNat else 0) + outgoing address rest

theorem incoming_append (address : Address) (xs ys : List Transfer) :
    incoming address (xs ++ ys) = incoming address xs + incoming address ys := by
  induction xs with
  | nil => exact (Nat.zero_add _).symm
  | cons t xs ih =>
    show _ + incoming address (xs ++ ys) = _ + incoming address xs + incoming address ys
    rw [ih, Nat.add_assoc]

theorem outgoing_append (address : Address) (xs ys : List Transfer) :
    outgoing address (xs ++ ys) = outgoing address xs + outgoing address ys := by
  induction xs with
  | nil => exact (Nat.zero_add _).symm
  | cons t xs ih =>
    show _ + outgoing address (xs ++ ys) = _ + outgoing address xs + outgoing address ys
    rw [ih, Nat.add_assoc]

/-! ### Effective balances -/

theorem toNat_adjust {t : Transfer} {address : Address} {before after : Amount}
    (h : t.adjust address before = some after) :
    after.toNat + outgoing address [t] = before.toNat + incoming address [t] := by
  -- what goes out, from whatever was credited
  have hdebit : ∀ credited : Amount,
      (if t.source = address then credited.sub? t.value else some credited) = some after →
      after.toNat + outgoing address [t] = credited.toNat := by
    intro credited hpaid
    rw [outgoing, outgoing]
    split at hpaid
    case isTrue hsource =>
      rw [if_pos hsource]
      exact (Amount.sub?_eq_some_iff.mp hpaid).symm
    case isFalse hsource =>
      injection hpaid with hsame
      rw [if_neg hsource, hsame]
      rfl
  rw [Transfer.adjust] at h
  rw [incoming, incoming]
  split at h
  case isTrue htarget =>
    obtain ⟨credited, hcredit, hpaid⟩ := Option.bind_eq_some_iff.mp h
    rw [if_pos htarget, hdebit credited hpaid]
    exact (Amount.add?_eq_some_iff.mp hcredit).symm
  case isFalse htarget =>
    rw [if_neg htarget, hdebit before h]
    rfl

theorem effectiveBalance_eq_ok_iff {committed balance : Amount} {transfers : List Transfer}
    {address : Address} :
    effectiveBalance committed transfers address = .ok balance ↔
      transfers.foldlM (fun b t => t.adjust address b) committed = some balance := by
  rw [effectiveBalance]
  cases transfers.foldlM (fun b t => t.adjust address b) committed with
  | none => simp
  | some b => simp

/-- A balance after one more transfer is told from the one before it. -/
theorem effectiveBalance_concat_eq_ok_iff {committed balance : Amount} {transfers : List Transfer}
    {t : Transfer} {address : Address} :
    effectiveBalance committed (transfers ++ [t]) address = .ok balance ↔
      ∃ before, effectiveBalance committed transfers address = .ok before ∧
        t.adjust address before = some balance := by
  simp only [effectiveBalance_eq_ok_iff]
  rw [List.foldlM_append]
  constructor
  · intro h
    obtain ⟨before, hbefore, hrest⟩ := Option.bind_eq_some_iff.mp h
    obtain ⟨after, hadjust, hnil⟩ := Option.bind_eq_some_iff.mp hrest
    exact ⟨before, hbefore, hadjust.trans hnil⟩
  · rintro ⟨before, hbefore, hadjust⟩
    exact Option.bind_eq_some_iff.mpr
      ⟨before, hbefore, Option.bind_eq_some_iff.mpr ⟨balance, hadjust, rfl⟩⟩

/-- A balance that cannot be told is out of range. -/
theorem effectiveBalance_eq_error {committed : Amount} {transfers : List Transfer}
    {address : Address} {cause : Fatal}
    (h : effectiveBalance committed transfers address = .error cause) :
    cause = .balanceOutOfRange address := by
  rw [effectiveBalance] at h
  split at h
  · nomatch h
  · injection h with h
    exact h.symm

/-- **What an effective balance tells.** -/
theorem toNat_effectiveBalance {committed balance : Amount} {transfers : List Transfer}
    {address : Address} (h : effectiveBalance committed transfers address = .ok balance) :
    balance.toNat + outgoing address transfers
      = committed.toNat + incoming address transfers := by
  rw [effectiveBalance_eq_ok_iff] at h
  induction transfers generalizing committed with
  | nil =>
    injection h with hsame
    rw [hsame]
    rfl
  | cons t rest ih =>
    obtain ⟨after, hadjust, hrest⟩ := Option.bind_eq_some_iff.mp h
    have hfirst := toNat_adjust hadjust
    have hlater := ih hrest
    rw [← List.singleton_append, incoming_append, outgoing_append]
    omega

/-! ### Transfers that were covered -/

/-- The source of every transfer had its value, by the transfers before it. -/
def Affordable (committed : Address → Amount) (transfers : List Transfer) : Prop :=
  ∀ before t rest, transfers = before ++ t :: rest →
    ∃ balance, effectiveBalance (committed t.source) before t.source = .ok balance ∧
      t.value ≤ balance

namespace Affordable

variable {committed : Address → Amount} {transfers : List Transfer}

theorem nil (committed : Address → Amount) : Affordable committed [] := by
  intro before t rest hsplit
  exact absurd hsplit.symm (by simp)

/-- One more transfer, that its source can pay now. -/
theorem concat {t : Transfer} {balance : Amount} (h : Affordable committed transfers)
    (hbalance : effectiveBalance (committed t.source) transfers t.source = .ok balance)
    (hpay : t.value ≤ balance) : Affordable committed (transfers ++ [t]) := by
  intro before u rest hsplit
  rcases List.eq_nil_or_concat rest with rfl | ⟨rest, last, rfl⟩
  · obtain ⟨rfl, hlast⟩ := List.append_inj' hsplit rfl
    injection hlast with hsame
    subst hsame
    exact ⟨balance, hbalance, hpay⟩
  · have hinner : transfers ++ [t] = (before ++ u :: rest) ++ [last] := by
      rw [hsplit]
      simp
    exact h before u rest (List.append_inj' hinner rfl).1

theorem of_append {before rest : List Transfer} (h : Affordable committed (before ++ rest)) :
    Affordable committed before := by
  intro first t last hsplit
  refine h first t (last ++ rest) ?_
  rw [hsplit]
  simp

end Affordable

/-- **No address is driven below zero.** If all transfers were covered, no address has given away
more than it had and got. -/
theorem outgoing_le {committed : Address → Amount} {transfers : List Transfer}
    (h : Affordable committed transfers) (address : Address) :
    outgoing address transfers ≤ (committed address).toNat + incoming address transfers := by
  rcases List.eq_nil_or_concat transfers with rfl | ⟨before, t, hsplit⟩
  · exact Nat.zero_le _
  · rw [List.concat_eq_append] at hsplit
    subst hsplit
    have hbefore := outgoing_le h.of_append address
    rw [outgoing_append, incoming_append, outgoing, outgoing]
    split
    case isTrue hsource =>
      obtain ⟨balance, hbalance, hpay⟩ := h before t [] (by simp)
      have htold := toNat_effectiveBalance hbalance
      rw [hsource] at htold
      have hvalue : t.value.toNat ≤ balance.toNat := hpay
      omega
    case isFalse => omega
termination_by transfers.length

end ContractExec
