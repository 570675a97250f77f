import ContractExec.Backend.Memory

/-!
# Accounts in the store

What a memory backend holds at an address, before and after a change set is written to it. Written
accounts read as the changes do over the store, with one exception: a change that creates an account
hides its old code and type, and writing it leaves both as they were unless it brings new ones.

* `MemoryBackend.accountAt` — the account at an address, an empty one where the store holds none;
* `MemoryBackend.Wrote`, `exists_wrote` — all that writing a change set does to a store;
* `Changes.leavesUnset` — an account was created, and a field of it was not written since;
* `storage_wrote`, `code_wrote`, `contractType_wrote` — **what is read after writing**, field by
  field.
-/

namespace ContractExec

/-- The code of an account that can run; empty code cannot. -/
def Account.runnable (account : Account) : Option Bytes :=
  account.code.filter fun code => !code.isEmpty

/-- The account was created, and the field was not written since. -/
def AccountChange.leavesUnset {α : Type} (change : AccountChange)
    (field : AccountChange → Option α) : Bool :=
  change.created && (field change).isNone

/-- The account at an address was created, and the field was not written since. -/
def Changes.leavesUnset {α : Type} (changes : Changes) (field : AccountChange → Option α)
    (address : Address) : Bool :=
  changes[address]?.any fun change => change.leavesUnset field

theorem filter_some_eq_written (value : Bytes) :
    (some value).filter (fun code => !code.isEmpty) = written value := by
  cases value <;> rfl

theorem filter_written (value : Bytes) :
    (written value).filter (fun code => !code.isEmpty) = written value := by
  cases value <;> rfl

/-- What is read of an account through its changes once they were written over it: a field that the
changes leave unset reads as it did below them. -/
def AccountChange.settled (change : AccountChange) (below : Account) : Account :=
  { change.overlay below with
    code := if change.leavesUnset (·.code) then below.code else (change.overlay below).runnable
    contractType :=
      if change.leavesUnset (·.contractType) then below.contractType
      else (change.overlay below).contractType
    isPresent := true }

/-- Whether there was an account below makes no other difference to what is read. -/
theorem AccountChange.settled_present (change : AccountChange) (below : Account) :
    change.settled { below with isPresent := true } = change.settled below := by
  apply Account.ext_fields
  · rw [settled, settled, overlay, overlay]
    cases change.created <;> rfl
  · rw [settled, settled, overlay, overlay]
    cases change.created <;> rfl
  · intro key
    rw [settled, settled, overlay, overlay]
    cases change.created <;> rfl
  · rfl

/-! ### One account -/

namespace MemoryAccount

variable (account : MemoryAccount) (change : AccountChange)

theorem code_apply : (account.apply change).read.code = (change.settled account.read).code := by
  show written (change.code.getD account.code)
    = if (change.created && change.code.isNone) = true then written account.code
      else (change.code.or (if change.created then .fresh else account.read).code).filter
        fun code => !code.isEmpty
  cases change.code with
  | some code => cases change.created <;> exact (filter_some_eq_written code).symm
  | none =>
    cases change.created with
    | true => rfl
    | false => exact (filter_written account.code).symm

theorem contractType_apply :
    (account.apply change).read.contractType = (change.settled account.read).contractType := by
  show change.contractType.or account.contractType
    = if (change.created && change.contractType.isNone) = true then account.contractType
      else change.contractType.or (if change.created then .fresh else account.read).contractType
  cases change.contractType <;> cases change.created <;> rfl

theorem storage_apply (key : Bytes) :
    (account.apply change).read.storage key = (change.settled account.read).storage key := by
  show ((if change.created = true then (∅ : Storage) else account.storage).filter
      (fun key _ => !change.storage.contains key)
        ∪ change.storage.filter fun _ value => !value.isEmpty)[key]?
    = (change.overlay account.read).storage key
  rw [Std.ExtTreeMap.getElem?_union, Std.ExtTreeMap.getElem?_filter',
    Std.ExtTreeMap.getElem?_filter', Std.ExtTreeMap.contains_eq_isSome_getElem?]
  cases hvalue : change.storage[key]? with
  | some value =>
    -- an empty value deletes its key, whatever lies below
    cases value <;> simp [AccountChange.overlay, hvalue]
  | none =>
    cases hcreated : change.created with
    | true => simp [AccountChange.overlay, hvalue, hcreated, Account.fresh]
    | false =>
      have hall : account.storage[key]?.filter (fun _ => true) = account.storage[key]? := by
        cases account.storage[key]? <;> rfl
      simp [AccountChange.overlay, hvalue, hcreated, read, hall]

/-- **A change that was written over an account reads as it did through the change**, but for fields
that it leaves unset. -/
theorem read_apply : (account.apply change).read = change.settled account.read :=
  Account.ext_fields (account.code_apply change) (account.contractType_apply change)
    (account.storage_apply change) rfl

end MemoryAccount

namespace MemoryBackend

/-- The account at an address, an empty one where the store holds none. -/
def accountAt (store : MemoryBackend) (address : Address) : MemoryAccount :=
  store.accounts[address]?.getD {}

variable (store : MemoryBackend) (address : Address)

/-! ### The store -/

theorem balance_eq : store.balance address = (store.accountAt address).balance := by
  rw [balance, accountAt]
  cases store.accounts[address]? <;> rfl

/-- Whether there is an account makes no other difference to what is read of it. -/
theorem read_accountAt :
    (store.accountAt address).read = { store.world address with isPresent := true } := by
  rw [world, accountAt]
  cases store.accounts[address]? with
  | some account => rfl
  | none => exact Account.ext_fields rfl rfl (fun key => Std.ExtTreeMap.getElem?_empty) rfl

theorem isPresent_world : (store.world address).isPresent = true ↔ address ∈ store.accounts := by
  rw [world, Std.ExtTreeMap.mem_iff_isSome_getElem?]
  cases store.accounts[address]? <;> simp [MemoryAccount.read, Account.absent]

/-- All code in a store can run. -/
theorem runnable_world : (store.world address).runnable = (store.world address).code := by
  rw [world, Account.runnable]
  cases store.accounts[address]? with
  | some account => exact filter_written account.code
  | none => rfl

theorem accountAt_writeAccounts (changes : Changes) :
    (store.writeAccounts changes).accountAt address
      = match changes[address]? with
        | some change => (store.accountAt address).apply change
        | none => store.accountAt address := by
  rw [accountAt, writeAccounts, Std.ExtTreeMap.getElem?_union, Std.ExtTreeMap.getElem?_map]
  cases changes[address]? <;> rfl

theorem accountAt_writeBalances (moved : Moved) :
    (store.writeBalances moved).accountAt address
      = { store.accountAt address with balance := store.balanceIn moved address } := by
  rw [balanceIn, balance_eq, accountAt, writeBalances, Std.ExtTreeMap.getElem?_union,
    Std.ExtTreeMap.getElem?_map]
  cases moved[address]? <;> rfl

theorem mem_writeAccounts (changes : Changes) :
    address ∈ (store.writeAccounts changes).accounts
      ↔ address ∈ store.accounts ∨ address ∈ changes := by
  rw [writeAccounts, Std.ExtTreeMap.mem_union_iff, Std.ExtTreeMap.mem_map]

theorem mem_writeBalances (moved : Moved) :
    address ∈ (store.writeBalances moved).accounts
      ↔ address ∈ store.accounts ∨ address ∈ moved := by
  rw [writeBalances, Std.ExtTreeMap.mem_union_iff, Std.ExtTreeMap.mem_map]

/-- Account changes leave all balances as they are. -/
theorem balance_writeAccounts (changes : Changes) :
    (store.writeAccounts changes).balance address = store.balance address := by
  rw [balance_eq, balance_eq, accountAt_writeAccounts]
  cases changes[address]? <;> rfl

/-! ### A change set -/

/-- All that writing a change set does to a store, with the balances that its transfers lead to. -/
structure Wrote (changeSet : ChangeSet) (moved : Moved) (store' : MemoryBackend) : Prop where
  moved_eq : changeSet.transfers.foldlM store.move ∅ = .ok moved
  accountAt_eq : ∀ address, store'.accountAt address
    = { (store.writeAccounts changeSet.accounts).accountAt address with
        balance := store.balanceIn moved address }
  mem_iff : ∀ address, address ∈ store'.accounts
    ↔ address ∈ store.accounts ∨ address ∈ changeSet.accounts ∨ address ∈ moved
  logs_eq : store'.logs = store.logs ++ changeSet.logs

variable {store} {store' : MemoryBackend} {changeSet : ChangeSet} {moved : Moved}

/-- **A change set is written once its balances are worked out.** -/
theorem exists_wrote (h : changeSet.transfers.foldlM store.move ∅ = .ok moved) :
    ∃ store', store.apply changeSet = (.ok (), store') ∧ store.Wrote changeSet moved store' := by
  refine ⟨_, apply_of_ok h, h, ?_, ?_, rfl⟩
  · intro address
    have hbalance : (store.writeAccounts changeSet.accounts).balanceIn moved address
        = store.balanceIn moved address := by
      rw [balanceIn, balanceIn, balance_writeAccounts]
    rw [← hbalance, ← accountAt_writeBalances]
    rfl
  · intro address
    rw [← or_assoc, ← mem_writeAccounts, ← mem_writeBalances]
    rfl

theorem wrote_of_apply (h : store.apply changeSet = (.ok (), store')) :
    ∃ moved, store.Wrote changeSet moved store' := by
  cases hmoved : changeSet.transfers.foldlM store.move ∅ with
  | error cause =>
    rw [apply_of_error hmoved] at h
    cases congrArg Prod.fst h
  | ok moved =>
    obtain ⟨written, happly, hwrote⟩ := exists_wrote hmoved
    rw [happly] at h
    injection h with _ hsame
    rw [← hsame]
    exact ⟨moved, hwrote⟩

namespace Wrote

variable (h : store.Wrote changeSet moved store')

include h

theorem balance_wrote : store'.balance address = store.balanceIn moved address := by
  rw [balance_eq, h.accountAt_eq]

/-- **What is read after writing**, field by field but for presence. -/
theorem world_wrote :
    { store'.world address with isPresent := true }
      = match changeSet.accounts[address]? with
        | some change => change.settled (store.world address)
        | none => { store.world address with isPresent := true } := by
  have hwritten : (store'.accountAt address).read
      = ((store.writeAccounts changeSet.accounts).accountAt address).read := by
    rw [h.accountAt_eq]
    rfl
  rw [← read_accountAt, hwritten, accountAt_writeAccounts]
  cases changeSet.accounts[address]? with
  | none => exact store.read_accountAt address
  | some change =>
    show ((store.accountAt address).apply change).read = _
    rw [MemoryAccount.read_apply, read_accountAt, AccountChange.settled_present]

theorem storage_wrote :
    (store'.world address).storage = (changeSet.accounts.overlay store.world address).storage := by
  refine (congrArg Account.storage (h.world_wrote address)).trans ?_
  rw [Changes.overlay]
  cases changeSet.accounts[address]? <;> rfl

theorem code_wrote :
    (store'.world address).code
      = if changeSet.accounts.leavesUnset (·.code) address then (store.world address).code
        else (changeSet.accounts.overlay store.world address).runnable := by
  refine (congrArg Account.code (h.world_wrote address)).trans ?_
  rw [Changes.overlay, Changes.leavesUnset]
  cases changeSet.accounts[address]? with
  | some change => rfl
  | none => exact (store.runnable_world address).symm

theorem contractType_wrote :
    (store'.world address).contractType
      = if changeSet.accounts.leavesUnset (·.contractType) address
        then (store.world address).contractType
        else (changeSet.accounts.overlay store.world address).contractType := by
  refine (congrArg Account.contractType (h.world_wrote address)).trans ?_
  rw [Changes.overlay, Changes.leavesUnset]
  cases changeSet.accounts[address]? <;> rfl

end Wrote

end MemoryBackend

end ContractExec
