import ContractExec.Arena
import ContractExec.Backend.Memory
import ContractExec.Config
import ContractExec.Journal
import ContractExec.Program

/-!
# The state of a transaction

One transaction runs over a backend with a budget of gas for the whole tree of its messages. All
that it writes lies in the layers of an arena; logs and transfers are lists that only grow until a
rollback cuts them back.

* `State.new` — a transaction that has done nothing;
* `State.world`, `State.balance` — what can be read at the current layer;
* `Snapshot`, `State.snapshot`, `State.rollback` — what a rollback restores;
* `State.finish` — the change set of a transaction whose layers are all closed.
-/

namespace ContractExec

structure State (ν : Type) where
  config : Config
  vm : Vm ν
  block : Block
  /-- The hash of the transaction, from which addresses of new contracts derive. -/
  transaction : Hash
  arena : Arena
  /-- The layer that the innermost open scope writes. -/
  current : Nat
  gasRemaining : Gas
  nonce : UInt64
  logs : List Log
  transfers : List Transfer
  journal : Journal ν

structure Snapshot where
  logs : List Log
  transfers : List Transfer
  nonce : UInt64
  layer : Nat

namespace State

variable {ν : Type}

/-- A transaction that has done nothing yet. -/
def new (config : Config) (vm : Vm ν) (backend : Backend) (transaction : Hash) (gasLimit : Gas) :
    State ν where
  config
  vm
  block := backend.block
  transaction
  arena := Arena.new backend
  current := Arena.root
  gasRemaining := gasLimit
  nonce := 0
  logs := []
  transfers := []
  journal := []

/-! ### Reading -/

def worldAt (s : State ν) (layer : Nat) : World :=
  (s.arena.worldAt? layer).getD s.arena.backend.accounts

def world (s : State ν) : World := s.worldAt s.current

def balance (s : State ν) (address : Address) : Except Fatal Amount :=
  effectiveBalance (s.arena.backend.balance address) s.transfers address

/-- The code at an address, where it is not empty. -/
def contractCode? (s : State ν) (address : Address) : Option Bytes :=
  (s.world address).code.filter fun code => !code.isEmpty

/-- Whether the budget covers a scope with this gas limit, and the limit covers the base cost. -/
def covers (s : State ν) (gasLimit : Gas) : Bool :=
  decide (gasLimit ≤ s.gasRemaining) && decide (s.config.baseCost ≤ s.gasRemaining)
    && decide (s.config.baseCost ≤ gasLimit)

/-! ### Changing -/

def emit (s : State ν) (event : Event) : State ν :=
  { s with journal := .event event :: s.journal }

def keep (s : State ν) (note : ν) : State ν :=
  { s with journal := .note note :: s.journal }

def debit (s : State ν) (gas : Gas) : State ν :=
  { s with gasRemaining := s.gasRemaining.sub gas }

/-- Records a transfer and tells of it. -/
def record (s : State ν) (transfer : Transfer) : State ν :=
  let told := s.emit (.transfer transfer)
  { told with transfers := told.transfers ++ [transfer] }

/-! ### Rolling back -/

/-- What a rollback to this moment has to restore. -/
def snapshot (s : State ν) : Snapshot := ⟨s.logs, s.transfers, s.nonce, s.current⟩

/-- Drops all layers above the one of the snapshot, and restores what it holds. Spent gas and the
journal stay. -/
def rollback (s : State ν) (snapshot : Snapshot) : State ν :=
  { s with
    arena := s.arena.abandon snapshot.layer
    current := snapshot.layer
    nonce := snapshot.nonce
    logs := snapshot.logs
    transfers := snapshot.transfers }

/-! ### Finishing -/

/-- All that the transaction leaves behind, once only the root layer is open. -/
def finish (s : State ν) : Except Fatal ChangeSet :=
  match s.arena.finish with
  | .ok accounts => .ok ⟨accounts, s.logs, s.transfers⟩
  | .error fatal => .error fatal

end State

end ContractExec
