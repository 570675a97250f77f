import Mathlib.Algebra.BigOperators.Ring.Finset
import Mathlib.Data.FinEnum
import Mathlib.Data.Fintype.BigOperators
import ContractExec.Proofs.Backend.Agreement

/-!
# A change set over the integers

A store works out all balances before it writes any, on amounts, and beside the balances that it holds.
Over the integers the same is short to say: each transfer is a debit and then a credit, and the first of
these that leaves the range of amounts is the one that the store answers with. If none does, the store
holds the balances of that execution, and every account apart from its balance is as the changes tell.

* `Posting`, `execute`, `MemoryBackend.executed` — transfers over the integers, up to the first posting
  that leaves the range;
* `MemoryBackend.Tallies`, `worked_fold` — **the store works out what the integers tell**;
* `foldlM_of_leaves`, `foldlM_of_executed` — what it works out where a posting leaves the range, and
  where none does;
* `MemoryBackend.supply`, `supply_eq_sum`, `sum_execute` — the sum of all balances, which no transfer
  changes;
* `MemoryBackend.Persisted` — all that writing a change set does to a store, account by account;
* `apply_exact_or_nothing` — a change set is written exactly, or not at all.
-/

namespace ContractExec

/-! ### Transfers over the integers -/

/-- One side of a transfer. -/
inductive Posting where
  | debit (address : Address) (value : Amount)
  | credit (address : Address) (value : Amount)

namespace Posting

def address : Posting → Address
  | debit a _ => a
  | credit a _ => a

/-- The balance of its address after a posting. -/
def after (balances : Address → Int) : Posting → Int
  | debit a value => balances a - value.toNat
  | credit a value => balances a + value.toNat

def post (balances : Address → Int) (p : Posting) : Address → Int :=
  Function.update balances p.address (p.after balances)

/-- The posting takes a source below zero, or a target above the greatest amount. -/
def Leaves (balances : Address → Int) : Posting → Prop
  | debit a value => balances a - value.toNat < 0
  | credit a value => (BitVec.allOnes 256).toNat < balances a + value.toNat

instance (balances : Address → Int) : (p : Posting) → Decidable (p.Leaves balances)
  | debit a value => inferInstanceAs (Decidable (balances a - value.toNat < 0))
  | credit a value =>
    inferInstanceAs (Decidable ((BitVec.allOnes 256).toNat < balances a + value.toNat))

end Posting

/-- A transfer is taken from its source, and then given to its target. -/
def Transfer.postings (t : Transfer) : List Posting :=
  [.debit t.source t.value, .credit t.target t.value]

/-- Balances after postings in their order, or the address of the first one that leaves the range of
amounts. -/
def execute (balances : Address → Int) : List Posting → Except Address (Address → Int)
  | [] => .ok balances
  | p :: rest => if p.Leaves balances then .error p.address else execute (p.post balances) rest

-- the second posting is the first one that leaves the range
example : execute (fun _ => 0) [.credit 1 5, .debit 1 7, .debit 2 1] = .error 1 := rfl

theorem execute_append (balances : Address → Int) (first rest : List Posting) :
    execute balances (first ++ rest)
      = (execute balances first).bind fun balances => execute balances rest := by
  induction first generalizing balances with
  | nil => rfl
  | cons p first ih =>
    rw [List.cons_append, execute, execute]
    split
    case isTrue => rfl
    case isFalse => exact ih _

/-! ### Sums -/

/-- A posting changes the sum of all balances by its value. -/
theorem Posting.sum_post (balances : Address → Int) (p : Posting) :
    ∑ a, p.post balances a + balances p.address = ∑ a, balances a + p.after balances := by
  have hbefore := Finset.sum_eq_add_sum_sdiff_singleton_of_mem
    (Finset.mem_univ p.address) balances
  rw [post, Finset.sum_update_of_mem (Finset.mem_univ p.address), hbefore]
  omega

/-- **No transfer changes the sum of all balances.** -/
theorem sum_execute {balances final : Address → Int} {transfers : List Transfer}
    (h : execute balances (transfers.flatMap Transfer.postings) = .ok final) :
    ∑ a, final a = ∑ a, balances a := by
  induction transfers generalizing balances with
  | nil =>
    rw [List.flatMap_nil, execute] at h
    rw [Except.ok.inj h]
  | cons t rest ih =>
    rw [List.flatMap_cons, Transfer.postings, List.cons_append, List.cons_append, List.nil_append,
      execute, execute] at h
    split at h
    case isTrue => cases h
    case isFalse =>
      split at h
      case isTrue => cases h
      case isFalse =>
        have hdebit := (Posting.debit t.source t.value).sum_post balances
        have hcredit := (Posting.credit t.target t.value).sum_post
          ((Posting.debit t.source t.value).post balances)
        simp only [Posting.address, Posting.after] at hdebit hcredit
        rw [ih h]
        omega

namespace MemoryBackend

variable {store : MemoryBackend} {moved : Moved} {balances final : Address → Int}
  {transfers : List Transfer}

/-! ### Balances on the way -/

/-- The running balances of a store are those of an execution over the integers. -/
def Tallies (store : MemoryBackend) (moved : Moved) (balances : Address → Int) : Prop :=
  ∀ a, ((store.balanceIn moved a).toNat : Int) = balances a

/-- Transfers executed over the integers, from the balances of a store on. -/
def executed (store : MemoryBackend) (transfers : List Transfer) :
    Except Address (Address → Int) :=
  execute (fun a => (store.balance a).toNat) (transfers.flatMap Transfer.postings)

theorem tallies_empty (store : MemoryBackend) :
    store.Tallies ∅ fun a => (store.balance a).toNat := by
  intro a
  rw [balanceIn_empty]

namespace Tallies

variable (h : store.Tallies moved balances)

include h

theorem post {p : Posting} {after : Amount} (hafter : (after.toNat : Int) = p.after balances) :
    store.Tallies (moved.insert p.address after) (p.post balances) := by
  intro a
  rw [balanceIn_insert, Posting.post, Function.update_apply]
  by_cases hsame : p.address = a
  · rw [if_pos hsame, if_pos hsame.symm]
    exact hafter
  · rw [if_neg hsame, if_neg (Ne.symm hsame)]
    exact h a

/-- A debit leaves the range just where the store cannot take the value. -/
theorem debit (a : Address) (value : Amount) :
    (Posting.debit a value).Leaves balances ∧ (store.balanceIn moved a).sub? value = none ∨
      ¬ (Posting.debit a value).Leaves balances ∧ ∃ after,
        (store.balanceIn moved a).sub? value = some after ∧
        store.Tallies (moved.insert a after) ((Posting.debit a value).post balances) := by
  have hbalance := h a
  rw [Posting.Leaves]
  cases hsub : (store.balanceIn moved a).sub? value with
  | none =>
    refine .inl ⟨?_, rfl⟩
    rw [Amount.sub?] at hsub
    split at hsub
    case isTrue => cases hsub
    case isFalse hshort => omega
  | some after =>
    have hexact := Amount.sub?_eq_some_iff.mp hsub
    refine .inr ⟨by omega, after, rfl, h.post (p := .debit a value) ?_⟩
    rw [Posting.after]
    omega

/-- A credit leaves the range just where the store cannot add the value. -/
theorem credit (a : Address) (value : Amount) :
    (Posting.credit a value).Leaves balances ∧ (store.balanceIn moved a).add? value = none ∨
      ¬ (Posting.credit a value).Leaves balances ∧ ∃ after,
        (store.balanceIn moved a).add? value = some after ∧
        store.Tallies (moved.insert a after) ((Posting.credit a value).post balances) := by
  have hbalance := h a
  have hfits : (store.balanceIn moved a).Fits value ↔ _ := Amount.fits_iff
  rw [Amount.Fits] at hfits
  rw [Posting.Leaves]
  cases hadd : (store.balanceIn moved a).add? value with
  | none =>
    refine .inl ⟨?_, rfl⟩
    have houtside := mt hfits.mp (by rw [hadd]; simp)
    omega
  | some after =>
    have hexact := Amount.add?_eq_some_iff.mp hadd
    have hinside := hfits.mpr ⟨after, hadd⟩
    refine .inr ⟨by omega, after, rfl, h.post (p := .credit a value) ?_⟩
    rw [Posting.after]
    omega

end Tallies

/-- What a store works out from running balances on, beside what the integers tell. -/
inductive Worked (store : MemoryBackend) (moved : Moved) (transfers : List Transfer) :
    Except Address (Address → Int) → Except Fatal Moved → Prop where
  | refused (a : Address) : Worked store moved transfers (.error a) (.error (.balanceOutOfRange a))
  | worked {final : Address → Int} {moved' : Moved} :
      store.Tallies moved' final →
      (∀ a, a ∈ moved' ↔ a ∈ moved ∨ ∃ t ∈ transfers, t.IsParty a) →
      Worked store moved transfers (.ok final) (.ok moved')

/-- One transfer. -/
theorem worked_move (h : store.Tallies moved balances) (t : Transfer) :
    Worked store moved [t] (execute balances t.postings) (store.move moved t) := by
  rw [Transfer.postings, execute, move]
  rcases h.debit t.source t.value with
    ⟨hleaves, hsub⟩ | ⟨hstays, source, hsub, hdebited⟩
  · rw [if_pos hleaves, hsub]
    exact .refused _
  · rw [if_neg hstays, hsub, execute]
    dsimp only
    rcases hdebited.credit t.target t.value with
      ⟨hleaves, hadd⟩ | ⟨hstays, target, hadd, hcredited⟩
    · rw [if_pos hleaves, hadd]
      exact .refused _
    · rw [if_neg hstays, hadd]
      refine .worked hcredited fun a => ?_
      rw [Std.ExtTreeMap.mem_insert, Std.ExtTreeMap.mem_insert, Std.LawfulEqCmp.compare_eq_iff_eq,
        Std.LawfulEqCmp.compare_eq_iff_eq]
      simp only [List.mem_singleton, exists_eq_left, Transfer.IsParty]
      tauto

/-- **The store works out what the integers tell**, transfer by transfer. -/
theorem worked_fold (h : store.Tallies moved balances) (transfers : List Transfer) :
    Worked store moved transfers (execute balances (transfers.flatMap Transfer.postings))
      (transfers.foldlM store.move moved) := by
  induction transfers generalizing moved balances with
  | nil => exact .worked h (by simp)
  | cons t rest ih =>
    have hstep := worked_move h t
    rw [List.flatMap_cons, execute_append, List.foldlM_cons]
    generalize execute balances t.postings = executed at hstep
    generalize store.move moved t = r at hstep
    cases hstep with
    | refused a => exact .refused a
    | @worked after later htallies hparties =>
      have hrest := ih htallies
      show Worked store moved (t :: rest) (execute after (rest.flatMap Transfer.postings))
        (rest.foldlM store.move later)
      generalize execute after (rest.flatMap Transfer.postings) = executed at hrest
      generalize rest.foldlM store.move later = r at hrest
      cases hrest with
      | refused a => exact .refused a
      | worked hfinal hothers =>
        refine .worked hfinal fun a => ?_
        simp [hothers, hparties, or_assoc]

/-- Where a posting leaves the range of amounts, the store refuses for its address. -/
theorem foldlM_of_leaves {a : Address} (h : store.executed transfers = .error a) :
    transfers.foldlM store.move ∅ = .error (.balanceOutOfRange a) := by
  have hworked := worked_fold store.tallies_empty transfers
  rw [executed] at h
  rw [h] at hworked
  generalize transfers.foldlM store.move ∅ = r at hworked ⊢
  cases hworked with
  | refused a => rfl

/-- Where none does, the store works out a balance for each address that gave or got value. -/
theorem foldlM_of_executed (h : store.executed transfers = .ok final) :
    ∃ moved, transfers.foldlM store.move ∅ = .ok moved ∧ store.Tallies moved final ∧
      ∀ a, a ∈ moved ↔ ∃ t ∈ transfers, t.IsParty a := by
  have hworked := worked_fold store.tallies_empty transfers
  rw [executed] at h
  rw [h] at hworked
  generalize transfers.foldlM store.move ∅ = r at hworked ⊢
  cases hworked with
  | @worked _ moved htallies hparties =>
    refine ⟨moved, rfl, htallies, fun a => ?_⟩
    rw [hparties, or_iff_right Std.ExtTreeMap.not_mem_empty]

/-! ### The sum of all balances -/

/-- All that the accounts of a store own together. -/
def supply (store : MemoryBackend) : Nat :=
  store.accounts.foldl (fun sum _ account => sum + account.balance.toNat) 0

/-- It is the sum over all addresses, since an address without an account owns nothing. -/
theorem supply_eq_sum (store : MemoryBackend) :
    store.supply = ∑ a, (store.balance a).toNat := by
  have hlist : store.supply = (store.accounts.toList.map fun e => e.2.balance.toNat).sum := by
    rw [supply, Std.ExtTreeMap.foldl_eq_foldl_toList, List.sum_eq_foldl, List.foldl_map]
  have hread : store.accounts.toList.map (fun e => e.2.balance.toNat)
      = store.accounts.keys.map fun a => (store.balance a).toNat := by
    rw [← Std.ExtTreeMap.map_fst_toList_eq_keys, List.map_map]
    refine List.map_congr_left fun e he => ?_
    have hfound := Std.ExtTreeMap.mem_toList_iff_getElem?_eq_some.mp he
    rw [Function.comp_apply, balance, hfound]
  rw [hlist, hread, ← List.sum_toFinset _ Std.ExtTreeMap.nodup_keys]
  refine Finset.sum_subset (Finset.subset_univ _) fun a _ habsent => ?_
  rw [List.mem_toFinset, Std.ExtTreeMap.mem_keys, Std.ExtTreeMap.mem_iff_isSome_getElem?,
    Option.not_isSome_iff_eq_none] at habsent
  rw [balance, habsent]
  rfl

/-! ### A whole change set -/

theorem getElem?_of_mem {a : Address} (h : a ∈ store.accounts) :
    store.accounts[a]? = some (store.accountAt a) := by
  rw [Std.ExtTreeMap.mem_iff_isSome_getElem?, Option.isSome_iff_exists] at h
  obtain ⟨account, haccount⟩ := h
  rw [accountAt, haccount]
  rfl

/-- Two stores that hold an account at the same address, and the same one, or none. -/
theorem getElem?_congr {store' : MemoryBackend} {a : Address}
    (hmem : a ∈ store'.accounts ↔ a ∈ store.accounts)
    (hat : store'.accountAt a = store.accountAt a) : store'.accounts[a]? = store.accounts[a]? := by
  by_cases h : a ∈ store.accounts
  · rw [getElem?_of_mem h, getElem?_of_mem (hmem.mpr h), hat]
  · rw [Std.ExtTreeMap.getElem?_eq_none h, Std.ExtTreeMap.getElem?_eq_none (mt hmem.mp h)]

/-- A value in the storage of an account after its changes: the one that was written, unless that is
empty, and otherwise the one that was there, unless the account was created. -/
def storedAfter (change : AccountChange) (account : MemoryAccount) (key : Bytes) : Option Bytes :=
  match change.storage[key]? with
  | some value => written value
  | none => if change.created then none else account.storage[key]?

theorem storage_apply_eq_storedAfter (account : MemoryAccount) (change : AccountChange) (key : Bytes) :
    (account.apply change).storage[key]? = storedAfter change account key := by
  refine (account.storage_apply change key).trans ?_
  rw [AccountChange.settled, AccountChange.overlay, storedAfter]
  cases change.created <;> rfl

/-- A change set is in a store, and the balances are those of an execution over the integers. -/
structure Persisted (store : MemoryBackend) (changeSet : ChangeSet) (balances : Address → Int)
    (after : MemoryBackend) : Prop where
  balance_eq : ∀ a, ((after.balance a).toNat : Int) = balances a
  supply_eq : after.supply = store.supply
  /-- A changed account has the code and the type that it was given, or those that it had. -/
  changed : ∀ a change, changeSet.accounts[a]? = some change →
    ∃ account, after.accounts[a]? = some account ∧
      account.code = change.code.getD (store.accountAt a).code ∧
      account.contractType = change.contractType.or (store.accountAt a).contractType ∧
      ∀ key, account.storage[key]? = storedAfter change (store.accountAt a) key
  /-- Of an account that only gave or got value, only the balance is another one. -/
  party : ∀ a, changeSet.accounts[a]? = none → (∃ t ∈ changeSet.transfers, t.IsParty a) →
    after.accounts[a]? = some { store.accountAt a with balance := after.balance a }
  untouched : ∀ a, changeSet.accounts[a]? = none → (∀ t ∈ changeSet.transfers, ¬ t.IsParty a) →
    after.accounts[a]? = store.accounts[a]?
  logs_eq : after.logs = store.logs ++ changeSet.logs

/-- What is in a store is what was worked out for it. -/
theorem Wrote.persisted {changeSet : ChangeSet} {after : MemoryBackend}
    (h : store.Wrote changeSet moved after) (htallies : store.Tallies moved final)
    (hparties : ∀ a, a ∈ moved ↔ ∃ t ∈ changeSet.transfers, t.IsParty a)
    (hsum : ∑ a, final a = ∑ a, ((store.balance a).toNat : Int)) :
    store.Persisted changeSet final after where
  balance_eq a := by
    rw [h.balance_wrote]
    exact htallies a
  supply_eq := by
    have hafter : ∑ a, ((after.balance a).toNat : Int) = ∑ a, final a := by
      refine Finset.sum_congr rfl fun a _ => ?_
      rw [h.balance_wrote]
      exact htallies a
    rw [supply_eq_sum, supply_eq_sum, ← Int.natCast_inj, Nat.cast_sum, Nat.cast_sum, hafter, hsum]
  changed a change hchange := by
    have hmem : a ∈ after.accounts :=
      (h.mem_iff a).mpr (.inr (.inl (Std.ExtTreeMap.mem_iff_isSome_getElem?.mpr (by rw [hchange]; rfl))))
    refine ⟨_, getElem?_of_mem hmem, ?_⟩
    rw [h.accountAt_eq, accountAt_writeAccounts, hchange]
    exact ⟨rfl, rfl, storage_apply_eq_storedAfter _ change⟩
  party a hnone hparty := by
    have hmem : a ∈ after.accounts := (h.mem_iff a).mpr (.inr (.inr ((hparties a).mpr hparty)))
    rw [getElem?_of_mem hmem, h.balance_wrote, h.accountAt_eq, accountAt_writeAccounts, hnone]
  untouched a hnone hparty := by
    have hunchanged : a ∉ changeSet.accounts := by
      rw [Std.ExtTreeMap.mem_iff_isSome_getElem?, hnone]
      exact Bool.false_ne_true
    have hunmoved : a ∉ moved := fun hmoved => by
      obtain ⟨t, ht, hgave⟩ := (hparties a).mp hmoved
      exact hparty t ht hgave
    have hbalance : store.balanceIn moved a = (store.accountAt a).balance := by
      rw [balanceIn, Std.ExtTreeMap.getElem?_eq_none hunmoved, ← balance_eq]
      rfl
    refine getElem?_congr ?_ ?_
    · rw [h.mem_iff, or_iff_left (not_or.mpr ⟨hunchanged, hunmoved⟩)]
    · rw [h.accountAt_eq, accountAt_writeAccounts, hnone, hbalance]
  logs_eq := h.logs_eq

/-- **A change set is written exactly, or not at all.** Its transfers are executed in their order over
the integers, each as a debit of its source and then a credit of its target. If one of these takes a
source below zero or a target above the greatest amount, the store answers with the address of the first
one that does, and holds what it held before: no account and no log has been written by then. Otherwise
the change set is written: every balance is that of the execution, the sum of all balances is the same as
before, changed accounts have the code, the type and the storage that they were given over those that
they had, all other accounts are as they were but for the balances of those that gave or got value, and
the logs have been added at the end. -/
theorem apply_exact_or_nothing (store : MemoryBackend) (changeSet : ChangeSet) :
    (∀ a, store.executed changeSet.transfers = .error a →
      store.apply changeSet = (.error (.balanceOutOfRange a), store)) ∧
    ∀ balances, store.executed changeSet.transfers = .ok balances →
      ∃ after, store.apply changeSet = (.ok (), after) ∧
        store.Persisted changeSet balances after := by
  refine ⟨fun a hleaves => apply_of_error (foldlM_of_leaves hleaves), fun balances hexecuted => ?_⟩
  obtain ⟨moved, hmoved, htallies, hparties⟩ := foldlM_of_executed hexecuted
  obtain ⟨after, happly, hwrote⟩ := exists_wrote hmoved
  exact ⟨after, happly, hwrote.persisted htallies hparties (sum_execute hexecuted)⟩

end MemoryBackend

end ContractExec
