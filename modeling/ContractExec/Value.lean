import ContractExec.Address
import ContractExec.Amount

/-!
# Values and method calls

The arguments and return values that cross the border of contract code, and the call that carries
them. Value sent to a contract without an explicit method calls the method `Receive`.
-/

namespace ContractExec

inductive Value where
  | bool (value : Bool)
  | u32 (value : UInt32)
  | i32 (value : Int32)
  | u64 (value : UInt64)
  | i64 (value : Int64)
  | u256 (value : Amount)
  | address (value : Address)
  | text (value : String)
  | bytes (value : Bytes)
  deriving DecidableEq

/-- A method to invoke, with its arguments in order. -/
structure MethodCall where
  name : String
  parameters : List Value
  deriving DecidableEq

namespace MethodCall

/-- The method that receives value sent without an explicit method. -/
def receiveName : String := "Receive"

def receive : MethodCall := ⟨receiveName, []⟩

/-- Whether the call goes to the method that receives value. -/
def isReceive (call : MethodCall) : Bool := call.name == receiveName

def hasName (call : MethodCall) : Bool := call.name != ""

end MethodCall

end ContractExec
