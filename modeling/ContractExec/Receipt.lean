import ContractExec.Fault
import ContractExec.Gas.Arithmetic
import ContractExec.Value

/-!
# Receipts

The outcome of a transition that was not fatal. Gas is reported whether it succeeded or failed, and
it is never refunded.
-/

namespace ContractExec

inductive Receipt where
  /-- The contract is the created one, or the target of the call or transfer. -/
  | succeeded (gasConsumed : Gas) (contract : Address) (returned : Option Value)
  | failed (gasConsumed : Gas) (failure : Failure)
  deriving DecidableEq

namespace Receipt

def isSuccess : Receipt → Bool
  | succeeded .. => true
  | failed .. => false

def gasConsumed : Receipt → Gas
  | succeeded gas .. => gas
  | failed gas _ => gas

def contract? : Receipt → Option Address
  | succeeded _ contract _ => some contract
  | failed .. => none

/-- The value that a success returned, if it returned one. -/
def returned? : Receipt → Option Value
  | succeeded _ _ value => value
  | failed .. => none

def failure? : Receipt → Option Failure
  | succeeded .. => none
  | failed _ failure => some failure

end Receipt

/-- How the code of a frame ended: with a value or without one, or stopped. -/
abbrev Outcome := Except Stop (Option Value)

end ContractExec
