import ContractExec.Backend
import ContractExec.Changes
import ContractExec.Fault
import ContractExec.Log
import ContractExec.Transfer

/-!
# The memory backend

A committed store held in memory, and the way in which a finished transaction is written to it.

* `MemoryBackend.toBackend` — what a transaction can read of the store;
* `ChangeSet` — all that a finished transaction leaves behind;
* `MemoryBackend.InPlace` — steps on a store that may stop on the way, with what was written by then;
* `MemoryBackend.persist`, `MemoryBackend.apply` — works out the balances after a transaction, then
  writes its change set;
* `run_workOut` — **working out balances writes nothing**, whether they stay in the range of amounts or
  not.
-/

namespace ContractExec

/-- The block environment that a memory backend serves. -/
structure Vicinity where
  blockNumber : UInt64 := 0
  blockCoinbase : Address := 0
  deriving DecidableEq

def Vicinity.block (vicinity : Vicinity) : Block :=
  ⟨vicinity.blockNumber, vicinity.blockCoinbase⟩

/-- A committed account. Plain accounts have empty code. -/
structure MemoryAccount where
  balance : Amount := 0
  code : Bytes := []
  contractType : Option String := none
  storage : Storage := ∅

namespace MemoryAccount

/-- What can be read of a committed account; empty code reads as none. -/
def read (account : MemoryAccount) : Account where
  code := written account.code
  contractType := account.contractType
  storage key := account.storage[key]?
  isPresent := true

/-- The account after the changes of a transaction. Creation empties the storage. Code and type
stay as they were unless new ones are given, and an empty value deletes its key. -/
def apply (account : MemoryAccount) (change : AccountChange) : MemoryAccount :=
  let base : Storage := if change.created then ∅ else account.storage
  { account with
    code := change.code.getD account.code
    contractType := change.contractType.or account.contractType
    storage :=
      base.filter (fun key _ => !change.storage.contains key)
        ∪ change.storage.filter fun _ value => !value.isEmpty }

end MemoryAccount

/-- All that a finished transaction leaves behind. -/
structure ChangeSet where
  accounts : Changes := ∅
  logs : List Log := []
  transfers : List Transfer := []

structure MemoryBackend where
  vicinity : Vicinity := {}
  accounts : Std.ExtTreeMap Address MemoryAccount := ∅
  logs : List Log := []

namespace MemoryBackend

/-! ### Reading -/

/-- The balance of an address, zero where it holds no account. -/
def balance (store : MemoryBackend) (address : Address) : Amount :=
  match store.accounts[address]? with
  | some account => account.balance
  | none => 0

def world (store : MemoryBackend) : World :=
  fun address =>
    match store.accounts[address]? with
    | some account => account.read
    | none => .absent

def toBackend (store : MemoryBackend) : Backend where
  block := store.vicinity.block
  balance := store.balance
  accounts := store.world

/-! ### Writing -/

/-- Balances of the addresses that transfers have touched. -/
abbrev Moved := Std.ExtTreeMap Address Amount

def balanceIn (store : MemoryBackend) (moved : Moved) (address : Address) : Amount :=
  moved[address]?.getD (store.balance address)

/-- Takes a transfer's value from its source, then adds it to its target. -/
def move (store : MemoryBackend) (moved : Moved) (transfer : Transfer) : Except Fatal Moved :=
  match (store.balanceIn moved transfer.source).sub? transfer.value with
  | none => .error (.balanceOutOfRange transfer.source)
  | some source =>
    let debited := moved.insert transfer.source source
    match (store.balanceIn debited transfer.target).add? transfer.value with
    | none => .error (.balanceOutOfRange transfer.target)
    | some target => .ok (debited.insert transfer.target target)

/-- The accounts after changes; an account that was changed exists from then on. -/
def writeAccounts (store : MemoryBackend) (changes : Changes) : MemoryBackend :=
  { store with
    accounts := store.accounts ∪ changes.map fun address change =>
      (store.accounts[address]?.getD {}).apply change }

/-- The accounts with new balances; an account that has one exists from then on. -/
def writeBalances (store : MemoryBackend) (moved : Moved) : MemoryBackend :=
  { store with
    accounts := store.accounts ∪ moved.map fun address balance =>
      { store.accounts[address]?.getD {} with balance } }

def writeLogs (store : MemoryBackend) (logs : List Log) : MemoryBackend :=
  { store with logs := store.logs ++ logs }

/-- Steps that read and write a store in place. Those that stop on the way leave the store as it is by
then. -/
abbrev InPlace := ExceptT Fatal (StateM MemoryBackend)

/-- Works out the balances that transfers lead to, one transfer after the other. -/
def workOut (moved : Moved) (transfers : List Transfer) : InPlace Moved :=
  transfers.foldlM (fun moved transfer => do (← get).move moved transfer) moved

/-- Writes a finished transaction. All balances are worked out before anything is written. -/
def persist (changeSet : ChangeSet) : InPlace Unit := do
  let moved ← workOut ∅ changeSet.transfers
  modify (·.writeAccounts changeSet.accounts)
  modify (·.writeBalances moved)
  modify (·.writeLogs changeSet.logs)

/-- Writes a finished transaction to a store, and answers with what is then in the store, whether the
transaction was accepted or not. -/
def apply (store : MemoryBackend) (changeSet : ChangeSet) : Except Fatal Unit × MemoryBackend :=
  (persist changeSet).run.run store

section

variable {store written : MemoryBackend} {α β : Type} {first : InPlace α} {rest : α → InPlace β}

theorem run_bind_of_ok {value : α} (h : first.run.run store = (.ok value, written)) :
    (first >>= rest).run.run store = (rest value).run.run written := by
  rw [ExceptT.run_bind, StateT.run_bind, h]
  rfl

/-- Where the first steps stop, no others follow. -/
theorem run_bind_of_error {fatal : Fatal} (h : first.run.run store = (.error fatal, written)) :
    (first >>= rest).run.run store = (.error fatal, written) := by
  rw [ExceptT.run_bind, StateT.run_bind, h]
  rfl

end

/-- **Working out balances writes nothing**, also where it stops on the way. -/
theorem run_workOut (store : MemoryBackend) (moved : Moved) (transfers : List Transfer) :
    (workOut moved transfers).run.run store = (transfers.foldlM store.move moved, store) := by
  rw [workOut]
  induction transfers generalizing moved with
  | nil => rfl
  | cons transfer rest ih =>
    have hmove : (do (← get).move moved transfer : InPlace Moved).run.run store
        = (store.move moved transfer, store) := rfl
    rw [List.foldlM_cons, List.foldlM_cons]
    cases hworked : store.move moved transfer with
    | error fatal =>
      rw [hworked] at hmove
      rw [run_bind_of_error hmove]
      rfl
    | ok next =>
      rw [hworked] at hmove
      rw [run_bind_of_ok hmove, ih]
      rfl

/-- A transaction whose balances cannot be worked out leaves the store as it was. -/
theorem apply_of_error {store : MemoryBackend} {changeSet : ChangeSet} {fatal : Fatal}
    (h : changeSet.transfers.foldlM store.move ∅ = .error fatal) :
    store.apply changeSet = (.error fatal, store) := by
  have hworked := run_workOut store ∅ changeSet.transfers
  rw [h] at hworked
  exact run_bind_of_error hworked

/-- What is written once all balances are worked out. -/
theorem apply_of_ok {store : MemoryBackend} {changeSet : ChangeSet} {moved : Moved}
    (h : changeSet.transfers.foldlM store.move ∅ = .ok moved) :
    store.apply changeSet = (.ok (), ((store.writeAccounts changeSet.accounts).writeBalances moved
      ).writeLogs changeSet.logs) := by
  have hworked := run_workOut store ∅ changeSet.transfers
  rw [h] at hworked
  exact run_bind_of_ok hworked

end MemoryBackend

end ContractExec
