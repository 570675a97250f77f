import ContractExec.Fault
import ContractExec.Gas.Arithmetic
import ContractExec.Value

/-!
# Scripts

A small language for contract code: a script is a list of operations with branches on the latest
nested transition.

* operands — values that are literal or are found when the script runs;
* `Operation` — one step of a script;
* `Script` — operations in order, each with what it tolerates;
* `Contract`, `Library` — the scripts that stand for contract code.
-/

namespace ContractExec

/-! ### Operands -/

inductive AddressOperand where
  | literal (address : Address)
  | self
  | sender
  | created
  | argument (index : Nat)

inductive AmountOperand where
  | literal (amount : Amount)
  | balance
  | sent
  | argument (index : Nat)

inductive BytesOperand where
  | literal (bytes : Bytes)
  /-- The accumulator followed by these bytes. -/
  | accumulator (suffix : Bytes)

inductive ParameterOperand where
  | literal (value : Value)
  | argument (index : Nat)

inductive ReturnOperand where
  | nothing
  | literal (value : Value)
  | argument (index : Nat)
  /-- What the latest nested transition returned. -/
  | last
  | accumulator
  | created
  | balance

/-! ### Scripts -/

inductive Operation where
  | message
  | block
  | gas
  | recordCost (cost : Gas)
  | balance
  | code (address : AddressOperand)
  | contractType (address : AddressOperand)
  | storage (key : BytesOperand)
  | setStorage (key value : BytesOperand)
  /-- Install the running code, and the type if one was given. -/
  | install
  | setCode (code : BytesOperand)
  | setContractType (typeName : String)
  | log (topics : List BytesOperand) (data : BytesOperand)
  | hash (data : BytesOperand)
  | create (amount : AmountOperand) (typeName : String) (parameters : List ParameterOperand)
      (gas : Option Gas)
  | call (target : AddressOperand) (amount : AmountOperand) (method : String)
      (parameters : List ParameterOperand) (gas : Option Gas)
  | transfer (target : AddressOperand) (amount : AmountOperand)
  /-- Revert unless the latest nested transition succeeded. -/
  | require
  | result (value : ReturnOperand)
  | fault (fault : Fault)
  | fatal (fatal : Fatal)

inductive Tolerance where
  | nothing
  | faults
  | everything

def Tolerance.accepts : Tolerance → Stop → Bool
  | .nothing, _ => false
  | .faults, .fault _ => true
  | .faults, .fatal _ => false
  | .everything, _ => true

inductive Script where
  | finish
  | perform (operation : Operation) (tolerance : Tolerance) (rest : Script)
  /-- A branch on whether the latest nested transition succeeded. -/
  | branch (tolerance : Tolerance) (succeeded failed rest : Script)

/-! ### Contracts -/

structure Contract where
  code : Bytes
  construct : Script
  methods : List (String × Script)

abbrev Library := List Contract

/-- The contract with this code; of several the last one. -/
def Library.find? (library : Library) (code : Bytes) : Option Contract :=
  library.reverse.find? fun contract => contract.code = code

def Contract.method? (contract : Contract) (name : String) : Option Script :=
  contract.methods.reverse.lookup name

end ContractExec
