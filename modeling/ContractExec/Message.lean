import ContractExec.Gas.Arithmetic
import ContractExec.Value

/-!
# Messages

A message asks for one transition. It comes either from a transaction (external) or from running
contract code (internal), and always names a sender, an amount and a gas limit.
-/

namespace ContractExec

inductive Action where
  /-- Deploy code that the transaction brings along. -/
  | externalCreate (code : Bytes) (parameters : List Value) (typeName : Option String)
  /-- Deploy another instance of a type from the sender's own code. -/
  | internalCreate (parameters : List Value) (typeName : String)
  | externalCall (target : Address) (method : MethodCall)
  | internalCall (target : Address) (method : MethodCall)
  | contractTransfer (target : Address)
  deriving DecidableEq

/-- Where a call or transfer goes; a create has no target yet. -/
def Action.target? : Action → Option Address
  | .externalCreate .. | .internalCreate .. => none
  | .externalCall target _ | .internalCall target _ | .contractTransfer target => some target

/-- Whether running contract code issued the request. -/
def Action.isInternal : Action → Bool
  | .externalCreate .. | .externalCall .. => false
  | .internalCreate .. | .internalCall .. | .contractTransfer .. => true

structure Message where
  sender : Address
  amount : Amount
  gasLimit : Gas
  action : Action
  deriving DecidableEq

namespace Message

def target? (m : Message) : Option Address := m.action.target?

def isInternal (m : Message) : Bool := m.action.isInternal

end Message

/-- A message as the contract that it runs sees it. -/
structure MessageView where
  contract : Address
  sender : Address
  amount : Amount
  gasLimit : Gas
  deriving DecidableEq

structure Block where
  number : UInt64
  coinbase : Address
  deriving DecidableEq

end ContractExec
