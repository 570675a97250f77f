import ContractExec.Address
import ContractExec.Amount

/-!
# Why an execution stops

Three families of causes, from the narrowest to the widest reach.

* `Fault` — contract code stopped; the scope around it is rolled back and its caller is told;
* `Fatal` — the whole transaction has to be rejected;
* `Stop` — what ends the code of one frame: a fault or a fatal;
* `Failure` — why a transition that was rolled back, or never began, failed.

Each has one `message`, its wording for humans.
-/

namespace ContractExec

-- Results that may be errors are compared as they stand.
instance decidableEqExcept {ε α : Type} [DecidableEq ε] [DecidableEq α] : DecidableEq (Except ε α)
  | .error x, .error y => decidable_of_iff (x = y) ⟨congrArg _, Except.error.inj⟩
  | .ok x, .ok y => decidable_of_iff (x = y) ⟨congrArg _, Except.ok.inj⟩
  | .error _, .ok _ => isFalse nofun
  | .ok _, .error _ => isFalse nofun

/-! ### Faults of contract code -/

/-- A fault raised by contract code, or on its behalf. -/
inductive Fault where
  | outOfGas
  | reverted
  | assertionFailed
  | methodNotFound (name : String)
  | typeNotFound (name : String)
  | codeImmutable
  | other (text : String)
  deriving DecidableEq

def Fault.message : Fault → String
  | .outOfGas => "out of gas"
  | .reverted => "reverted"
  | .assertionFailed => "assertion failed"
  | .methodNotFound name => "method not found: " ++ name
  | .typeNotFound name => "contract type not found: " ++ name
  | .codeImmutable => "code is immutable once deployed"
  | .other text => text

/-! ### Fatal conditions -/

/-- A condition that ends the whole transaction. -/
inductive Fatal where
  /-- An internal create asked to move more than its sender holds. -/
  | unaffordableCreate (sender : Address) (amount balance : Amount)
  /-- A layer was opened on, committed or written while it was not the top one. -/
  | layerOutOfOrder (layer : Nat)
  /-- The recorded transfers leave the range of amounts. -/
  | balanceOutOfRange (account : Address)
  | other (text : String)
  deriving DecidableEq

def Fatal.message : Fatal → String
  | .unaffordableCreate sender amount balance =>
    "internal create from " ++ sender.toText ++ " requested " ++ amount.toText
      ++ " with balance " ++ balance.toText
  | .layerOutOfOrder layer => "layer " ++ Nat.repr layer ++ " is not the live top layer"
  | .balanceOutOfRange account => "balance of " ++ account.toText ++ " is out of range"
  | .other text => text

/-! ### The end of a frame's code -/

inductive Stop where
  | fault (fault : Fault)
  | fatal (fatal : Fatal)
  deriving DecidableEq

def Stop.message : Stop → String
  | .fault f => f.message
  | .fatal f => f.message

/-! ### Failed transitions -/

/-- Why a transition failed. -/
inductive Failure where
  /-- The budget or the gas limit does not cover what the scope may spend. -/
  | insufficientGas
  | noMethodName
  | noCode
  /-- The sender's effective balance is lower than the amount. -/
  | insufficientBalance
  /-- The frame that asked is as deep as frames may be. -/
  | callTooDeep
  | faulted (fault : Fault)
  deriving DecidableEq

def Failure.message : Failure → String
  | .insufficientGas => "insufficient gas"
  | .noMethodName => "no method name"
  | .noCode => "no code at target address"
  | .insufficientBalance => "insufficient balance"
  | .callTooDeep => "call too deep"
  | .faulted fault => "vm error: " ++ fault.message

end ContractExec
