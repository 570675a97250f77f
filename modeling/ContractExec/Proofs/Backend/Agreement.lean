import ContractExec.Proofs.Backend.Accounts
import ContractExec.Proofs.Backend.Balances

/-!
# Balances in flight and in the store

The same transfers are judged twice: in flight, address by address, where a balance counts what
comes in before what goes out, and by the store, which takes a value from its source before it gives
it to its target. For a transfer between two addresses the order makes no difference. For a transfer
from an address to itself it does: in flight its value has to fit on top of the balance, and in the
store the balance has to cover it.

* `SelfTransfers` — a condition on every transfer from an address to itself, and on the balance that
  it meets;
* `moved_exact`, `balanceIn_eq` — **where both tell a balance, they tell the same**;
* `readable_of_moved`, `affordable_of_readable` — from one verdict to the other;
* `verdicts_part_at_self_transfers` — **the verdicts on a record part on self-transfers only**.
-/

namespace ContractExec

/-! ### Transfers from an address to itself -/

/-- All transfers of a list from an address to itself meet a condition, together with the balance of
the address at that point of the list. -/
def SelfTransfers (condition : Amount → Amount → Prop) (committed : Address → Amount)
    (transfers : List Transfer) : Prop :=
  ∀ before t rest, transfers = before ++ t :: rest → t.source = t.target →
    ∀ balance, effectiveBalance (committed t.source) before t.source = .ok balance →
      condition balance t.value

/-- A value that can be added to a balance. -/
def Amount.Fits (balance value : Amount) : Prop :=
  balance.toNat + value.toNat ≤ (BitVec.allOnes 256).toNat

/-- A value that can be taken from a balance. -/
def Amount.Covers (balance value : Amount) : Prop :=
  value ≤ balance

theorem Amount.fits_iff {balance value : Amount} :
    balance.Fits value ↔ ∃ sum, balance.add? value = some sum := by
  have hgreatest : (BitVec.allOnes 256).toNat = 2 ^ 256 - 1 := BitVec.toNat_allOnes
  rw [Fits, hgreatest]
  constructor
  · intro hfits
    have hinside : balance.toNat + value.toNat < 2 ^ 256 := by omega
    exact ⟨BitVec.ofNat 256 (balance.toNat + value.toNat),
      Amount.add?_eq_some_iff.mpr (Nat.mod_eq_of_lt hinside).symm⟩
  · rintro ⟨sum, hsum⟩
    have hinside := sum.isLt
    rw [Amount.add?_eq_some_iff.mp hsum]
    omega

theorem SelfTransfers.of_append {condition : Amount → Amount → Prop} {committed : Address → Amount}
    {before rest : List Transfer} (h : SelfTransfers condition committed (before ++ rest)) :
    SelfTransfers condition committed before := by
  intro first t last hsplit
  refine h first t (last ++ rest) ?_
  rw [hsplit]
  simp

/-- Which balances can be told after one more transfer: what comes in has to fit, and what goes out
to another address has to be covered. -/
theorem Transfer.adjust_iff {t : Transfer} {address : Address} {balance : Amount} :
    (∃ after, t.adjust address balance = some after) ↔
      (t.target = address → balance.Fits t.value) ∧
        (t.source = address → t.target ≠ address → balance.Covers t.value) := by
  by_cases ht : t.target = address <;> by_cases hs : t.source = address
  · -- what just came in is there to be taken
    simp only [adjust, if_pos ht, if_pos hs, Amount.fits_iff]
    constructor
    · rintro ⟨after, hafter⟩
      obtain ⟨credited, hcredit, -⟩ := Option.bind_eq_some_iff.mp hafter
      exact ⟨fun _ => ⟨credited, hcredit⟩, fun _ hne => absurd ht hne⟩
    · rintro ⟨hfits, -⟩
      obtain ⟨credited, hcredit⟩ := hfits ht
      have hdebit : credited.sub? t.value = some balance :=
        Amount.sub?_eq_some_iff.mpr (Amount.add?_eq_some_iff.mp hcredit).symm
      exact ⟨balance, Option.bind_eq_some_iff.mpr ⟨credited, hcredit, hdebit⟩⟩
  · simp only [adjust, if_pos ht, if_neg hs, Amount.fits_iff]
    constructor
    · rintro ⟨after, hafter⟩
      obtain ⟨credited, hcredit, -⟩ := Option.bind_eq_some_iff.mp hafter
      exact ⟨fun _ => ⟨credited, hcredit⟩, fun hsource => absurd hsource hs⟩
    · rintro ⟨hfits, -⟩
      obtain ⟨credited, hcredit⟩ := hfits ht
      exact ⟨credited, Option.bind_eq_some_iff.mpr ⟨credited, hcredit, rfl⟩⟩
  · simp only [adjust, if_neg ht, if_pos hs]
    constructor
    · rintro ⟨after, hafter⟩
      have hdebit := Amount.sub?_eq_some_iff.mp hafter
      exact ⟨fun htarget => absurd htarget ht, fun _ _ => BitVec.le_def.mpr (by omega)⟩
    · rintro ⟨-, hcovers⟩
      exact ⟨_, if_pos (hcovers hs ht)⟩
  · simp only [adjust, if_neg ht, if_neg hs]
    exact ⟨fun _ => ⟨fun htarget => absurd htarget ht, fun hsource => absurd hsource hs⟩,
      fun _ => ⟨balance, rfl⟩⟩

/-- A balance that can be told could be told at every point of the list. -/
theorem effectiveBalance_split {committed balance : Amount} {address : Address}
    {before rest : List Transfer} {t : Transfer}
    (h : effectiveBalance committed (before ++ t :: rest) address = .ok balance) :
    ∃ earlier, effectiveBalance committed before address = .ok earlier ∧
      ∃ after, t.adjust address earlier = some after := by
  rw [effectiveBalance_eq_ok_iff, List.foldlM_append] at h
  obtain ⟨earlier, hearlier, hrest⟩ := Option.bind_eq_some_iff.mp h
  obtain ⟨after, hadjust, -⟩ := Option.bind_eq_some_iff.mp hrest
  exact ⟨earlier, effectiveBalance_eq_ok_iff.mpr hearlier, after, hadjust⟩

namespace MemoryBackend

variable {store : MemoryBackend} {start moved : Moved} {t : Transfer} {transfers : List Transfer}

/-! ### What both tell -/

theorem bind_eq_ok_iff {β γ : Type} {first : Except Fatal β} {rest : β → Except Fatal γ}
    {value : γ} :
    first >>= rest = .ok value ↔ ∃ between, first = .ok between ∧ rest between = .ok value := by
  cases first <;> simp [bind, Except.bind]

/-- The store works through its transfers one by one. -/
theorem moved_split {before rest : List Transfer} :
    (before ++ t :: rest).foldlM store.move start = .ok moved ↔
      ∃ earlier later, before.foldlM store.move start = .ok earlier ∧
        store.move earlier t = .ok later ∧ rest.foldlM store.move later = .ok moved := by
  rw [List.foldlM_append, bind_eq_ok_iff]
  constructor
  · rintro ⟨earlier, hearlier, hrest⟩
    obtain ⟨later, hmove, hlater⟩ := bind_eq_ok_iff.mp hrest
    exact ⟨earlier, later, hearlier, hmove, hlater⟩
  · rintro ⟨earlier, later, hearlier, hmove, hlater⟩
    exact ⟨earlier, hearlier, bind_eq_ok_iff.mpr ⟨later, hmove, hlater⟩⟩

/-- **The store's running balances** are those before, with what came in and less what went out. -/
theorem moved_exact (h : transfers.foldlM store.move start = .ok moved) (a : Address) :
    (store.balanceIn moved a).toNat + outgoing a transfers
      = (store.balanceIn start a).toNat + incoming a transfers := by
  induction transfers generalizing start with
  | nil =>
    injection h with hsame
    rw [hsame]
    rfl
  | cons t rest ih =>
    have hsplit : ([] ++ t :: rest).foldlM store.move start = .ok moved := h
    obtain ⟨_, next, hnil, hmove, hrest⟩ := moved_split.mp hsplit
    injection hnil with hsame
    subst hsame
    have hfirst := move_exact hmove a
    have hlater := ih hrest
    rw [← List.singleton_append, incoming_append, outgoing_append]
    omega

/-- **Where both tell a balance, they tell the same.** -/
theorem balanceIn_eq {balance : Amount} {a : Address}
    (hmoved : transfers.foldlM store.move ∅ = .ok moved)
    (htold : effectiveBalance (store.balance a) transfers a = .ok balance) :
    store.balanceIn moved a = balance := by
  have hstore := moved_exact hmoved a
  have hflight := toNat_effectiveBalance htold
  rw [balanceIn_empty] at hstore
  rw [← BitVec.toNat_inj]
  omega

/-! ### From one verdict to the other -/

/-- What the store moved was covered by its source. -/
theorem covers_of_move {later : Moved} (h : store.move moved t = .ok later) :
    (store.balanceIn moved t.source).Covers t.value := by
  obtain ⟨source, -, hsource, -, -⟩ := move_cases h
  have hdebit := Amount.sub?_eq_some_iff.mp hsource
  exact BitVec.le_def.mpr (by omega)

/-- What the store moved to another address could be added to the balance there. -/
theorem fits_of_move {later : Moved} (h : store.move moved t = .ok later)
    (hother : t.source ≠ t.target) : (store.balanceIn moved t.target).Fits t.value := by
  obtain ⟨source, target, -, htarget, -⟩ := move_cases h
  rw [balanceIn_insert, if_neg hother] at htarget
  exact Amount.fits_iff.mpr ⟨target, htarget⟩

/-- **What the store works out can be told in flight**, if every self-transfer fits on top of its
balance. -/
theorem readable_of_moved {transfers : List Transfer} {moved : Moved}
    (hmoved : transfers.foldlM store.move ∅ = .ok moved)
    (hself : SelfTransfers Amount.Fits store.balance transfers) (a : Address) :
    ∃ balance, effectiveBalance (store.balance a) transfers a = .ok balance := by
  -- on the last transfer, as the balances before it decide whether it is refused
  rcases List.eq_nil_or_concat transfers with rfl | ⟨before, t, hsplit⟩
  · exact ⟨store.balance a, effectiveBalance_nil _ _⟩
  · rw [List.concat_eq_append] at hsplit
    subst hsplit
    obtain ⟨earlier, later, hearlier, hmove, -⟩ := moved_split.mp hmoved
    obtain ⟨balance, hbalance⟩ := readable_of_moved hearlier hself.of_append a
    have hadjust : ∃ after, t.adjust a balance = some after := by
      refine Transfer.adjust_iff.mpr ⟨?_, ?_⟩
      · rintro rfl
        by_cases hsame : t.source = t.target
        · rw [← hsame] at hbalance
          exact hself before t [] rfl hsame balance hbalance
        · rw [← balanceIn_eq hearlier hbalance]
          exact fits_of_move hmove hsame
      · rintro rfl -
        rw [← balanceIn_eq hearlier hbalance]
        exact covers_of_move hmove
    obtain ⟨after, hafter⟩ := hadjust
    exact ⟨after, effectiveBalance_concat_eq_ok_iff.mpr ⟨balance, hbalance, hafter⟩⟩
termination_by transfers.length

/-- **Transfers whose balances can be told in flight are covered**, if every self-transfer is. -/
theorem affordable_of_readable
    (hreadable : ∀ a, ∃ balance, effectiveBalance (store.balance a) transfers a = .ok balance)
    (hself : SelfTransfers Amount.Covers store.balance transfers) :
    Affordable store.balance transfers := by
  intro before t rest hsplit
  obtain ⟨balance, hbalance⟩ := hreadable t.source
  rw [hsplit] at hbalance
  obtain ⟨earlier, hearlier, hadjust⟩ := effectiveBalance_split hbalance
  refine ⟨earlier, hearlier, ?_⟩
  by_cases hsame : t.source = t.target
  · exact hself before t rest hsplit hsame earlier hearlier
  · exact (Transfer.adjust_iff.mp hadjust).2 rfl (Ne.symm hsame)

/-! ### Both verdicts -/

/-- **The verdicts on a record part on self-transfers only.** Where a store can write the transfers
of a change set, all their balances can be told in flight if and only if every self-transfer fits on
top of the balance that it meets. Where all balances can be told in flight, the store can write them
if and only if every self-transfer is covered by that balance. And a balance that is told in flight
is the one that the store has written. -/
theorem verdicts_part_at_self_transfers (store : MemoryBackend) (changeSet : ChangeSet) :
    ((∃ after, store.apply changeSet = (.ok (), after)) →
      ((∀ a, ∃ balance, effectiveBalance (store.balance a) changeSet.transfers a = .ok balance) ↔
        SelfTransfers Amount.Fits store.balance changeSet.transfers)) ∧
    ((∀ a, ∃ balance, effectiveBalance (store.balance a) changeSet.transfers a = .ok balance) →
      ((∃ after, store.apply changeSet = (.ok (), after)) ↔
        SelfTransfers Amount.Covers store.balance changeSet.transfers)) ∧
    ∀ after, store.apply changeSet = (.ok (), after) → ∀ a balance,
      effectiveBalance (store.balance a) changeSet.transfers a = .ok balance →
      after.balance a = balance := by
  refine ⟨?_, ?_, ?_⟩
  · rintro ⟨after, happly⟩
    obtain ⟨moved, hwrote⟩ := wrote_of_apply happly
    constructor
    · intro hreadable before t rest hsplit hsame balance hbalance
      obtain ⟨told, htold⟩ := hreadable t.source
      rw [hsplit] at htold
      obtain ⟨earlier, hearlier, hadjust⟩ := effectiveBalance_split htold
      rw [hbalance] at hearlier
      injection hearlier with hearlier
      subst hearlier
      exact (Transfer.adjust_iff.mp hadjust).1 hsame.symm
    · exact readable_of_moved hwrote.moved_eq
  · intro hreadable
    constructor
    · rintro ⟨after, happly⟩ before t rest hsplit - balance hbalance
      obtain ⟨moved, hwrote⟩ := wrote_of_apply happly
      have hmoved := hwrote.moved_eq
      rw [hsplit] at hmoved
      obtain ⟨earlier, later, hearlier, hmove, -⟩ := moved_split.mp hmoved
      rw [← balanceIn_eq hearlier hbalance]
      exact covers_of_move hmove
    · intro hself
      obtain ⟨moved, hmoved, -⟩ := exists_moved (affordable_of_readable hreadable hself) hreadable
      obtain ⟨after, happly, -⟩ := exists_wrote hmoved
      exact ⟨after, happly⟩
  · intro after happly a balance hbalance
    obtain ⟨moved, hwrote⟩ := wrote_of_apply happly
    rw [hwrote.balance_wrote, balanceIn_eq hwrote.moved_eq hbalance]

/-- A store whose account 2 holds all that an amount can say. -/
def fullStore : MemoryBackend where
  accounts := (∅ : Std.ExtTreeMap Address MemoryAccount).insert 2 { balance := -1 }

/-- **Self-transfers are judged apart.** A transfer of 1 from an address to itself, at the highest
balance there is, is written by the store, and in flight its balance cannot be told. A transfer of 5
from an address without any value to itself has all its balances told, and the store refuses it. -/
theorem self_transfer_judged_apart :
    ((∃ after, fullStore.apply { transfers := [⟨2, 2, 1⟩] } = (.ok (), after)) ∧
      effectiveBalance (fullStore.balance 2) [⟨2, 2, 1⟩] 2 = .error (.balanceOutOfRange 2)) ∧
    (({} : MemoryBackend).apply { transfers := [⟨2, 2, 5⟩] }
        = (.error (.balanceOutOfRange 2), {}) ∧
      ∀ a, ∃ balance,
        effectiveBalance (({} : MemoryBackend).balance a) [⟨2, 2, 5⟩] a = .ok balance) := by
  refine ⟨⟨?_, rfl⟩, rfl, ?_⟩
  · exact ⟨_, rfl⟩
  · intro a
    have hself : ∃ after, (⟨2, 2, 5⟩ : Transfer).adjust a 0 = some after := by
      refine Transfer.adjust_iff.mpr ⟨fun _ => ?_, fun hs ht => absurd hs ht⟩
      rw [Amount.Fits]
      decide
    obtain ⟨after, hafter⟩ := hself
    have hconcat : effectiveBalance 0 ([] ++ [⟨2, 2, 5⟩]) a = .ok after :=
      effectiveBalance_concat_eq_ok_iff.mpr ⟨0, rfl, hafter⟩
    exact ⟨after, hconcat⟩

end MemoryBackend

end ContractExec
